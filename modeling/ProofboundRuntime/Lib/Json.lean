import ProofboundRuntime.Lib.Utf8

/-!
# JSON trees

The JSON trees of programs that use no fractions: a number is an integer.  An
object is the list of its members in the order in which they are written;
`insert` keeps the byte order of the keys, as an ordered map does.
-/

namespace ProofboundRuntime

inductive Json where
  | null
  | bool (value : Bool)
  | number (value : Int)
  | string (value : String)
  | array (values : List Json)
  | object (members : List (String × Json))
deriving Repr, Inhabited

namespace Json

/-- Insertion into an ordered map: a present key gets the new value. -/
def insert (key : String) (value : Json) : List (String × Json) → List (String × Json)
  | [] => [(key, value)]
  | (k, v) :: members =>
    match Utf8.cmp key k with
    | .lt => (key, value) :: (k, v) :: members
    | .eq => (key, value) :: members
    | .gt => (k, v) :: insert key value members

/-! ## Reading -/

def readString : Json → Option String
  | .string value => some value
  | _ => none

def readU64 : Json → Option Nat
  | .number value => if 0 ≤ value ∧ value.toNat < 2 ^ 64 then some value.toNat else none
  | _ => none

theorem readU64_number {n : Nat} (h : n < 2 ^ 64) : readU64 (.number n) = some n := by
  rw [readU64, if_pos (by omega), Int.toNat_natCast]

end Json

end ProofboundRuntime
