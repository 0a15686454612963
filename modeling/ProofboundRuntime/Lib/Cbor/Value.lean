import ProofboundRuntime.Lib.BigEndian
import ProofboundRuntime.Lib.Utf8
import ProofboundRuntime.Lib.Sorting

/-!
# CBOR data items with text keys

The data items of the deterministic CBOR subset: integers on 64 bits, byte
and text strings, arrays, maps with text keys, booleans and null.

* `Value.serialize` writes an item with its map entries in the given order;
* `Value.canon` reorders the entries of every map by their encoded keys;
* `Value.depth` and `Value.items` are the measures that decoders bound.

The functions are structural mutual recursions over the item, its lists and
its entries, so they evaluate.  Proofs use the induction principle
`Value.induction` and the `List` forms of the recursions.
-/

namespace ProofboundRuntime.Cbor

/-- A data item. -/
inductive Value where
  | unsigned (value : UInt64)
  | negative (argument : UInt64)
  | bytes (value : List UInt8)
  | text (value : String)
  | array (values : List Value)
  | map (entries : List (String × Value))
  | bool (value : Bool)
  | null
deriving Repr, Inhabited

/-- Induction over an item and the items inside it. -/
@[elab_as_elim, induction_eliminator]
theorem Value.induction {motive : Value → Prop}
    (unsigned : ∀ value, motive (.unsigned value))
    (negative : ∀ argument, motive (.negative argument))
    (bytes : ∀ value, motive (.bytes value))
    (text : ∀ value, motive (.text value))
    (array : ∀ values, (∀ value ∈ values, motive value) → motive (.array values))
    (map : ∀ entries, (∀ entry ∈ entries, motive entry.2) → motive (.map entries))
    (bool : ∀ value, motive (.bool value))
    (null : motive .null) (value : Value) : motive value :=
  @Value.rec motive
    (fun values => ∀ value ∈ values, motive value)
    (fun entries => ∀ entry ∈ entries, motive entry.2)
    (fun entry => motive entry.2)
    unsigned negative bytes text array map bool null
    (by simp)
    (fun _ _ hhead htail => List.forall_mem_cons.mpr ⟨hhead, htail⟩)
    (by simp)
    (fun _ _ hhead htail => List.forall_mem_cons.mpr ⟨hhead, htail⟩)
    (fun _ _ hvalue => hvalue) value

/-! ## Serialization -/

/-- The initial byte of an item: its major type and additional information. -/
def initialByte (major additional : UInt8) : UInt8 := major <<< 5 ||| additional

/-- The number of bytes that follow the initial byte. -/
def argumentWidth (argument : UInt64) : Nat :=
  if argument < 24 then 0
  else if argument < 0x100 then 1
  else if argument < 0x10000 then 2
  else if argument < 0x100000000 then 4
  else 8

/-- The additional information: a small argument itself, or the code of its
width. -/
def argumentInfo (argument : UInt64) : UInt8 :=
  if argument < 24 then argument.toUInt8
  else if argument < 0x100 then 24
  else if argument < 0x10000 then 25
  else if argument < 0x100000000 then 26
  else 27

/-- The bytes of an argument after the initial byte. -/
def argumentBytes (argument : UInt64) : List UInt8 :=
  BigEndian.toBytes (argumentWidth argument) argument.toNat

/-- The head of an item: its major type and its argument, on the fewest
bytes. -/
def head (major : UInt8) (argument : UInt64) : List UInt8 :=
  initialByte major (argumentInfo argument) :: argumentBytes argument

/-- The head of an item with `length` bytes, elements or entries. -/
def lengthHead (major : UInt8) (length : Nat) : List UInt8 :=
  head major (UInt64.ofNat length)

/-- A text string item. -/
def textItem (s : String) : List UInt8 :=
  lengthHead 3 (Utf8.bytes s).length ++ Utf8.bytes s

/-- Keys are compared by their encodings. -/
def keyCmp (j k : String) : Ordering := compare (textItem j) (textItem k)

/-- Entries are compared by the encodings of their keys. -/
def entryCmp (d e : String × Value) : Ordering := keyCmp d.1 e.1

mutual

/-- The encoding of an item, with the entries of its maps in their order. -/
def Value.serialize : Value → List UInt8
  | .unsigned value => head 0 value
  | .negative argument => head 1 argument
  | .bytes value => lengthHead 2 value.length ++ value
  | .text value => textItem value
  | .array values => lengthHead 4 values.length ++ serializeList values
  | .map entries => lengthHead 5 entries.length ++ serializeEntries entries
  | .bool value => [if value then 0xf5 else 0xf4]
  | .null => [0xf6]

def serializeList : List Value → List UInt8
  | [] => []
  | value :: values => value.serialize ++ serializeList values

def serializeEntries : List (String × Value) → List UInt8
  | [] => []
  | (key, value) :: entries =>
    textItem key ++ value.serialize ++ serializeEntries entries

end

mutual

/-- The number of items in an item: itself, its elements, its keys and its
values. -/
def Value.items : Value → Nat
  | .array values => 1 + itemsList values
  | .map entries => 1 + itemsEntries entries
  | _ => 1

def itemsList : List Value → Nat
  | [] => 0
  | value :: values => value.items + itemsList values

def itemsEntries : List (String × Value) → Nat
  | [] => 0
  | (_, value) :: entries => 1 + value.items + itemsEntries entries

end

mutual

/-- How many arrays and maps the most deeply nested item lies inside of. -/
def Value.depth : Value → Nat
  | .array values => depthList values
  | .map entries => depthEntries entries
  | _ => 0

def depthList : List Value → Nat
  | [] => 0
  | value :: values => max (value.depth + 1) (depthList values)

def depthEntries : List (String × Value) → Nat
  | [] => 0
  | (_, value) :: entries => max (value.depth + 1) (depthEntries entries)

end

mutual

/-- The entries of every map, at every depth, satisfy `p`. -/
def Value.AllMaps (p : List (String × Value) → Prop) : Value → Prop
  | .array values => AllMapsList p values
  | .map entries => p entries ∧ AllMapsEntries p entries
  | _ => True

def AllMapsList (p : List (String × Value) → Prop) : List Value → Prop
  | [] => True
  | value :: values => value.AllMaps p ∧ AllMapsList p values

def AllMapsEntries (p : List (String × Value) → Prop) : List (String × Value) → Prop
  | [] => True
  | (_, value) :: entries => value.AllMaps p ∧ AllMapsEntries p entries

end

mutual

/-- The item with the entries of every map, at every depth, in the order of
their encoded keys. -/
def Value.canon : Value → Value
  | .array values => .array (canonList values)
  | .map entries => .map (Sorting.sortBy entryCmp (canonEntries entries))
  | .unsigned value => .unsigned value
  | .negative argument => .negative argument
  | .bytes value => .bytes value
  | .text value => .text value
  | .bool value => .bool value
  | .null => .null

def canonList : List Value → List Value
  | [] => []
  | value :: values => value.canon :: canonList values

def canonEntries : List (String × Value) → List (String × Value)
  | [] => []
  | (key, value) :: entries => (key, value.canon) :: canonEntries entries

end

/-- No map, at any depth, has a key twice. -/
def Value.NoDup (value : Value) : Prop :=
  value.AllMaps fun entries => (entries.map Prod.fst).Nodup

/-- Every map, at every depth, has its keys in strictly increasing order. -/
def Value.Canonical (value : Value) : Prop :=
  value.AllMaps (Sorting.Strict entryCmp)

mutual

def Value.decidableAllMaps (p : List (String × Value) → Prop) [DecidablePred p] :
    (value : Value) → Decidable (value.AllMaps p)
  | .array values => decidableAllMapsList p values
  | .map entries =>
    have := decidableAllMapsEntries p entries
    inferInstanceAs (Decidable (p entries ∧ AllMapsEntries p entries))
  | .unsigned _ | .negative _ | .bytes _ | .text _ | .bool _ | .null => .isTrue trivial

def decidableAllMapsList (p : List (String × Value) → Prop) [DecidablePred p] :
    (values : List Value) → Decidable (AllMapsList p values)
  | [] => .isTrue trivial
  | value :: values =>
    have := value.decidableAllMaps p
    have := decidableAllMapsList p values
    inferInstanceAs (Decidable (value.AllMaps p ∧ AllMapsList p values))

def decidableAllMapsEntries (p : List (String × Value) → Prop) [DecidablePred p] :
    (entries : List (String × Value)) → Decidable (AllMapsEntries p entries)
  | [] => .isTrue trivial
  | (_, value) :: entries =>
    have := value.decidableAllMaps p
    have := decidableAllMapsEntries p entries
    inferInstanceAs (Decidable (value.AllMaps p ∧ AllMapsEntries p entries))

end

instance (value : Value) : Decidable value.NoDup := value.decidableAllMaps _

/-! ## The recursions over lists -/

theorem serializeList_eq (values : List Value) :
    serializeList values = values.flatMap Value.serialize := by
  induction values with
  | nil => rfl
  | cons value values ih => simp [serializeList, ih]

theorem serializeEntries_eq (entries : List (String × Value)) :
    serializeEntries entries =
      entries.flatMap fun e => textItem e.1 ++ e.2.serialize := by
  induction entries with
  | nil => rfl
  | cons e entries ih => simp [serializeEntries, ih]

theorem itemsList_eq (values : List Value) :
    itemsList values = (values.map Value.items).sum := by
  induction values with
  | nil => rfl
  | cons value values ih => simp [itemsList, ih]

theorem itemsEntries_eq (entries : List (String × Value)) :
    itemsEntries entries = (entries.map fun e => 1 + e.2.items).sum := by
  induction entries with
  | nil => rfl
  | cons e entries ih => simp [itemsEntries, ih]

theorem depthList_le {values : List Value} {n : Nat} :
    depthList values ≤ n ↔ ∀ value ∈ values, value.depth + 1 ≤ n := by
  induction values with
  | nil => simp [depthList]
  | cons value values ih => simp [depthList, ih]

theorem depthEntries_le {entries : List (String × Value)} {n : Nat} :
    depthEntries entries ≤ n ↔ ∀ e ∈ entries, e.2.depth + 1 ≤ n := by
  induction entries with
  | nil => simp [depthEntries]
  | cons e entries ih =>
    rw [depthEntries, max_le_iff, ih, List.forall_mem_cons]

theorem allMapsList_iff {p : List (String × Value) → Prop} {values : List Value} :
    AllMapsList p values ↔ ∀ value ∈ values, value.AllMaps p := by
  induction values with
  | nil => simp [AllMapsList]
  | cons value values ih => simp [AllMapsList, ih]

theorem allMapsEntries_iff {p : List (String × Value) → Prop}
    {entries : List (String × Value)} :
    AllMapsEntries p entries ↔ ∀ e ∈ entries, e.2.AllMaps p := by
  induction entries with
  | nil => simp [AllMapsEntries]
  | cons e entries ih => rw [AllMapsEntries, ih, List.forall_mem_cons]

theorem canonList_eq (values : List Value) :
    canonList values = values.map Value.canon := by
  induction values with
  | nil => rfl
  | cons value values ih => simp [canonList, ih]

theorem canonEntries_eq (entries : List (String × Value)) :
    canonEntries entries = entries.map fun e => (e.1, e.2.canon) := by
  induction entries with
  | nil => rfl
  | cons e entries ih => simp [canonEntries, ih]

end ProofboundRuntime.Cbor
