import ProofboundRuntime.Lib.BigEndian

/-!
# SHA-256

The hash function of FIPS 180-4, over words that are numbers below `2 ^ 32`.
`CollisionFree` is what a proof may assume of a hash function: on the inputs at
hand it does not take a value twice.
-/

namespace ProofboundRuntime

namespace Sha256

/-- Addition of words. -/
def add (a b : Nat) : Nat := (a + b) % 2 ^ 32

def rotate (n x : Nat) : Nat := (x >>> n ||| x <<< (32 - n)) % 2 ^ 32

def complement (x : Nat) : Nat := x ^^^ 0xffffffff

def constants : List Nat := [
  0x428a2f98, 0x71374491, 0xb5c0fbcf, 0xe9b5dba5, 0x3956c25b, 0x59f111f1, 0x923f82a4, 0xab1c5ed5,
  0xd807aa98, 0x12835b01, 0x243185be, 0x550c7dc3, 0x72be5d74, 0x80deb1fe, 0x9bdc06a7, 0xc19bf174,
  0xe49b69c1, 0xefbe4786, 0x0fc19dc6, 0x240ca1cc, 0x2de92c6f, 0x4a7484aa, 0x5cb0a9dc, 0x76f988da,
  0x983e5152, 0xa831c66d, 0xb00327c8, 0xbf597fc7, 0xc6e00bf3, 0xd5a79147, 0x06ca6351, 0x14292967,
  0x27b70a85, 0x2e1b2138, 0x4d2c6dfc, 0x53380d13, 0x650a7354, 0x766a0abb, 0x81c2c92e, 0x92722c85,
  0xa2bfe8a1, 0xa81a664b, 0xc24b8b70, 0xc76c51a3, 0xd192e819, 0xd6990624, 0xf40e3585, 0x106aa070,
  0x19a4c116, 0x1e376c08, 0x2748774c, 0x34b0bcb5, 0x391c0cb3, 0x4ed8aa4a, 0x5b9cca4f, 0x682e6ff3,
  0x748f82ee, 0x78a5636f, 0x84c87814, 0x8cc70208, 0x90befffa, 0xa4506ceb, 0xbef9a3f7, 0xc67178f2]

/-- The eight working words. -/
structure Working where
  a : Nat
  b : Nat
  c : Nat
  d : Nat
  e : Nat
  f : Nat
  g : Nat
  h : Nat

def initial : Working :=
  ⟨0x6a09e667, 0xbb67ae85, 0x3c6ef372, 0xa54ff53a, 0x510e527f, 0x9b05688c, 0x1f83d9ab, 0x5be0cd19⟩

/-- The message with a one bit, zeros and its length in bits. -/
def padding (message : List UInt8) : List UInt8 :=
  message ++ 0x80 :: List.replicate ((119 - message.length % 64) % 64) 0 ++
    BigEndian.toBytes 8 (8 * message.length)

/-- The words of a block, the last first. -/
def blockWords : (count : Nat) → List UInt8 → List Nat → List Nat
  | 0, _, words => words
  | count + 1, bytes, words =>
    blockWords count (bytes.drop 4) (BigEndian.ofBytes (bytes.take 4) :: words)

/-- The rest of the message schedule, the last word first. -/
def extend : (count : Nat) → List Nat → List Nat
  | 0, words => words
  | count + 1, words =>
    let w15 := words.getD 14 0
    let w2 := words.getD 1 0
    let s0 := rotate 7 w15 ^^^ rotate 18 w15 ^^^ (w15 >>> 3)
    let s1 := rotate 17 w2 ^^^ rotate 19 w2 ^^^ (w2 >>> 10)
    extend count (add (add (words.getD 15 0) s0) (add (words.getD 6 0) s1) :: words)

def round (w : Working) (constant word : Nat) : Working :=
  let s1 := rotate 6 w.e ^^^ rotate 11 w.e ^^^ rotate 25 w.e
  let choice := (w.e &&& w.f) ^^^ (complement w.e &&& w.g)
  let t1 := add (add w.h s1) (add choice (add constant word))
  let s0 := rotate 2 w.a ^^^ rotate 13 w.a ^^^ rotate 22 w.a
  let majority := (w.a &&& w.b) ^^^ (w.a &&& w.c) ^^^ (w.b &&& w.c)
  ⟨add t1 (add s0 majority), w.a, w.b, w.c, add w.d t1, w.e, w.f, w.g⟩

def rounds : Working → List (Nat × Nat) → Working
  | w, [] => w
  | w, (constant, word) :: rest => rounds (round w constant word) rest

def compress (w : Working) (block : List UInt8) : Working :=
  let schedule := (extend 48 (blockWords 16 block [])).reverse
  let next := rounds w (constants.zip schedule)
  ⟨add w.a next.a, add w.b next.b, add w.c next.c, add w.d next.d, add w.e next.e,
    add w.f next.f, add w.g next.g, add w.h next.h⟩

def blocks : (count : Nat) → Working → List UInt8 → Working
  | 0, w, _ => w
  | count + 1, w, bytes => blocks count (compress w (bytes.take 64)) (bytes.drop 64)

def output (w : Working) : Vector UInt8 32 :=
  ⟨(BigEndian.toBytes 4 w.a ++ BigEndian.toBytes 4 w.b ++ BigEndian.toBytes 4 w.c ++
    BigEndian.toBytes 4 w.d ++ BigEndian.toBytes 4 w.e ++ BigEndian.toBytes 4 w.f ++
    BigEndian.toBytes 4 w.g ++ BigEndian.toBytes 4 w.h).toArray, by simp⟩

def hash (message : List UInt8) : Vector UInt8 32 :=
  output (blocks ((padding message).length / 64) initial (padding message))

-- The digest of `abc`.
example : hash [0x61, 0x62, 0x63] = #v[
    0xba, 0x78, 0x16, 0xbf, 0x8f, 0x01, 0xcf, 0xea, 0x41, 0x41, 0x40, 0xde, 0x5d, 0xae, 0x22, 0x23,
    0xb0, 0x03, 0x61, 0xa3, 0x96, 0x17, 0x7a, 0x9c, 0xb4, 0x10, 0xff, 0x61, 0xf2, 0x00, 0x15, 0xad] :=
  by decide +kernel

end Sha256

/-- The hash function has no collision among the inputs. -/
def CollisionFree {α β : Type} (hash : α → β) (inputs : List α) : Prop :=
  ∀ a ∈ inputs, ∀ b ∈ inputs, hash a = hash b → a = b

instance {α β : Type} [DecidableEq α] [DecidableEq β] (hash : α → β) (inputs : List α) :
    Decidable (CollisionFree hash inputs) :=
  inferInstanceAs (Decidable (∀ a ∈ inputs, ∀ b ∈ inputs, hash a = hash b → a = b))

theorem CollisionFree.of_nodup_map {α β : Type} [DecidableEq α] {hash : α → β} {inputs : List α}
    (h : (inputs.dedup.map hash).Nodup) : CollisionFree hash inputs := by
  intro a ha b hb heq
  exact List.inj_on_of_nodup_map h (List.mem_dedup.mpr ha) (List.mem_dedup.mpr hb) heq

end ProofboundRuntime
