import ProofboundRuntime.Lib.Cbor.Unambiguous
import ProofboundRuntime.Wire.DecoderSpec
import ProofboundRuntime.Wire.Encoder

/-!
# The producer's codec

`wire_v2.rs`: the decoder of the producer, its encoder and the assembly of a
map from separately encoded fields.

The encoder sorts the entries of a map by their encoded keys and writes the
values in that order.  A value is encoded only when its entry's turn comes, so
the entries carry the outcome of encoding their value through the sort and
`assemble` looks at the outcomes in the sorted order.

* `encode_of_decode`: a decoded item is encoded to the bytes it was decoded from;
* `decode_encoded`: an item within the limits is decoded from its encoding, with
  its maps in order, and an item with a duplicate key is not encoded;
* `encodeBoundMap_decodable_iff`: when the assembled map can be decoded.
-/

namespace ProofboundRuntime.Core.WireV2

open Cbor Result Wire

inductive Error where
  | invalid
  | nonDeterministic
  | limitExceeded
deriving DecidableEq

def errors : Errors Error := ⟨.invalid, .nonDeterministic, .limitExceeded⟩

def decode (input : List UInt8) : Except Error Value := Wire.decode errors input

/-- Entries are sorted by their encoded keys. -/
def encodingCmp {α : Type} (left right : List UInt8 × α) : Ordering :=
  compare left.1 right.1

/-- The entries of a map in the order of their keys, each written as its key
and its value. -/
def assemble : List (List UInt8 × Except Error (List UInt8)) → Except Error (List UInt8)
  | [] => .ok []
  | (keyEncoding, value) :: entries => do
    let value ← value
    let output ← assemble entries
    pure (keyEncoding ++ value ++ output)

/-- The sort and the checks of `encode_map`, after the keys are encoded. -/
def encodeSorted (entries : List (List UInt8 × Except Error (List UInt8))) :
    Except Error (List UInt8) := do
  let entries := Sorting.sortBy encodingCmp entries
  rejectIf (Sorting.windowsAny (fun left right => left.1 == right.1) entries) .invalid
  let head ← encodeLength .limitExceeded 5 entries.length
  let output ← assemble entries
  pure (head ++ output)

mutual

def encodeItem : Value → Except Error (List UInt8)
  | .unsigned value => .ok (encodeArgument 0 value)
  | .negative argument => .ok (encodeArgument 1 argument)
  | .bytes value => encodeBytes .limitExceeded value
  | .text value => encodeText .limitExceeded value
  | .array values => do
    let head ← encodeLength .limitExceeded 4 values.length
    let output ← encodeItems values
    pure (head ++ output)
  | .map values => do
    let entries ← encodeKeys values
    encodeSorted entries
  | .bool value => .ok [if value then 0xf5 else 0xf4]
  | .null => .ok [0xf6]

def encodeItems : List Value → Except Error (List UInt8)
  | [] => .ok []
  | value :: values => do
    let item ← encodeItem value
    let output ← encodeItems values
    pure (item ++ output)

/-- The first loop of `encode_map`. -/
def encodeKeys :
    List (String × Value) → Except Error (List (List UInt8 × Except Error (List UInt8)))
  | [] => .ok []
  | (key, value) :: values => do
    let keyEncoding ← encodeText .limitExceeded key
    let entries ← encodeKeys values
    pure ((keyEncoding, encodeItem value) :: entries)

end

def encode (value : Value) : Except Error (List UInt8) := encodeItem value

/-- One field of a bound map: the value has to be the encoding of an item. -/
def boundField (field : String × List UInt8) : Except Error (List UInt8 × List UInt8) := do
  let keyEncoding ← encodeText .limitExceeded field.1
  let decoded ← decode field.2
  let encoded ← encode decoded
  rejectIf (encoded ≠ field.2) .nonDeterministic
  pure (keyEncoding, field.2)

/-- Assembles a map from separately encoded fields. -/
def encodeBoundMap (values : List (String × List UInt8)) : Except Error (List UInt8) := do
  let entries ← collect boundField values
  let entries := Sorting.sortBy encodingCmp entries
  rejectIf (Sorting.windowsAny (fun left right => left.1 == right.1) entries) .invalid
  let head ← encodeLength .limitExceeded 5 entries.length
  pure (head ++ entries.flatMap fun entry => entry.1 ++ entry.2)

/-! ## The encoder -/

instance {α : Type} : Std.TransCmp (encodingCmp (α := α)) :=
  inferInstanceAs (Std.TransCmp (compareOn Prod.fst))

/-- After the sort, the check for equal neighbours finds every duplicate key. -/
theorem windowsAny_encodings {α : Type} {entries : List (List UInt8 × α)} :
    ¬Sorting.windowsAny (fun left right => left.1 == right.1)
        (Sorting.sortBy encodingCmp entries) = true ↔
      (entries.map Prod.fst).Nodup := by
  rw [Bool.not_eq_true, Sorting.windowsAny_sortBy (by simp [encodingCmp])]
  unfold List.Nodup encodingCmp
  rw [List.pairwise_map]
  simp

theorem encodeKeys_eq_ok {values : List (String × Value)}
    {entries : List (List UInt8 × Except Error (List UInt8))} :
    encodeKeys values = .ok entries ↔
      (∀ e ∈ values, (Utf8.bytes e.1).length < 2 ^ 64) ∧
        (values.map fun e => (textItem e.1, encodeItem e.2)) = entries := by
  induction values generalizing entries with
  | nil => simp [encodeKeys]
  | cons e values ih =>
    obtain ⟨key, value⟩ := e
    simp only [encodeKeys, bind_eq_ok, pure_eq_ok, encodeText_eq_ok, ih,
      List.forall_mem_cons, List.map_cons]
    refine ⟨fun h => ?_, fun h => ?_⟩
    · obtain ⟨_, ⟨hlt, hkey⟩, tail, ⟨hall, htail⟩, hentries⟩ := h
      subst hkey htail hentries
      exact ⟨⟨hlt, hall⟩, rfl⟩
    · obtain ⟨⟨hlt, hall⟩, hentries⟩ := h
      exact ⟨_, ⟨hlt, rfl⟩, _, ⟨hall, rfl⟩, hentries⟩

variable {output : List UInt8}

/-- Assembling succeeds only if every value was encoded. -/
theorem exists_ok_of_assemble {entries : List (List UInt8 × Except Error (List UInt8))}
    (h : assemble entries = .ok output) : ∀ e ∈ entries, ∃ value, e.2 = .ok value := by
  induction entries generalizing output with
  | nil => simp
  | cons e entries ih =>
    obtain ⟨key, value⟩ := e
    simp only [assemble, bind_eq_ok, pure_eq_ok] at h
    obtain ⟨value', hvalue, rest, hrest, _⟩ := h
    exact List.forall_mem_cons.mpr ⟨⟨value', hvalue⟩, ih hrest⟩

/-- An entry whose value was encoded. -/
def written (e : String × Value) : List UInt8 × Except Error (List UInt8) :=
  (textItem e.1, .ok e.2.serialize)

theorem assemble_map_written (entries : List (String × Value)) :
    assemble (entries.map written) = .ok (serializeEntries entries) := by
  induction entries with
  | nil => rfl
  | cons e entries ih =>
    rw [List.map_cons, written, assemble, ih]
    rfl

/-- Entries with distinct keys are written in the order of their keys. -/
theorem encodeSorted_map_written {entries : List (String × Value)}
    (hnodup : (entries.map Prod.fst).Nodup) (hlen : entries.length < 2 ^ 64) :
    encodeSorted (entries.map written) = .ok (lengthHead 5 entries.length ++
      serializeEntries (Sorting.sortBy entryCmp entries)) := by
  have hkeys : ((entries.map written).map Prod.fst).Nodup := by
    have hsame : (entries.map written).map Prod.fst =
        (entries.map Prod.fst).map textItem := by
      simp [written]
    rw [hsame]
    exact hnodup.map textItem_injective
  have hsorted : Sorting.sortBy encodingCmp (entries.map written) =
      (Sorting.sortBy entryCmp entries).map written := Sorting.sortBy_map written entries
  have hlength : ((Sorting.sortBy entryCmp entries).map written).length = entries.length := by
    rw [List.length_map, (Sorting.sortBy_perm entries).length_eq]
  have hhead : encodeLength Error.limitExceeded 5 entries.length = .ok _ :=
    encodeLength_eq_ok.mpr ⟨hlen, rfl⟩
  rw [encodeSorted, rejectIf_false (windowsAny_encodings.mpr hkeys), hsorted, hlength,
    hhead, assemble_map_written]
  rfl

theorem encodeItems_eq_ok {values : List Value}
    (h : ∀ value ∈ values, encodeItem value = .ok value.canon.serialize) :
    encodeItems values = .ok (serializeList (canonList values)) := by
  induction values with
  | nil => rfl
  | cons value values ih =>
    rw [List.forall_mem_cons] at h
    rw [encodeItems, h.1, ih h.2]
    rfl

/-- Every value of an array that was encoded is one that was encoded. -/
theorem exists_ok_of_encodeItems {values : List Value} (h : encodeItems values = .ok output) :
    ∀ value ∈ values, ∃ item, encodeItem value = .ok item := by
  induction values generalizing output with
  | nil => simp
  | cons value values ih =>
    simp only [encodeItems, bind_eq_ok, pure_eq_ok] at h
    obtain ⟨item, hitem, rest, hrest, _⟩ := h
    exact List.forall_mem_cons.mpr ⟨⟨item, hitem⟩, ih hrest⟩

variable {value : Value}

/-- The encoding of an item without duplicate keys whose lengths fit is the
serialization of the item in order. -/
theorem encodeItem_eq_ok (hnodup : value.NoDup) (hfits : value.Fits) :
    encodeItem value = .ok value.canon.serialize := by
  unfold Value.NoDup at hnodup
  induction value with
  | unsigned value | negative argument => rw [encodeItem, encodeArgument_eq]; rfl
  | bytes value => exact encodeBytes_eq_ok.mpr ⟨hfits, rfl⟩
  | text value => exact encodeText_eq_ok.mpr ⟨hfits, rfl⟩
  | array values ih =>
    have hhead : encodeLength Error.limitExceeded 4 values.length = .ok _ :=
      encodeLength_eq_ok.mpr ⟨hfits.1, rfl⟩
    have hitems := encodeItems_eq_ok fun value hvalue =>
      ih value hvalue (allMapsList_iff.mp hnodup value hvalue)
        (fitsList_iff.mp hfits.2 value hvalue)
    rw [encodeItem, hhead, hitems, Value.canon, Value.serialize, canonList_eq,
      List.length_map]
    rfl
  | map entries ih =>
    have hentries := fitsEntries_iff.mp hfits.2
    have hkeys : encodeKeys entries = .ok ((canonEntries entries).map written) := by
      refine encodeKeys_eq_ok.mpr ⟨fun e he => (hentries e he).1, ?_⟩
      rw [canonEntries_eq, List.map_map]
      refine List.map_congr_left fun e he => ?_
      rw [ih e he (allMapsEntries_iff.mp hnodup.2 e he) (hentries e he).2]
      rfl
    have hsame : (canonEntries entries).map Prod.fst = entries.map Prod.fst := by
      simp [canonEntries_eq]
    have hlength : (canonEntries entries).length = entries.length := by
      simp [canonEntries_eq]
    rw [encodeItem, hkeys, ok_bind,
      encodeSorted_map_written (hsame ▸ hnodup.1) (hlength ▸ hfits.1), Value.canon,
      Value.serialize, length_canonEntries, hlength]
  | bool value => rfl
  | null => rfl

/-- An item that is encoded has no duplicate key. -/
theorem noDup_of_encodeItem (h : encodeItem value = .ok output) : value.NoDup := by
  unfold Value.NoDup
  induction value generalizing output with
  | array values ih =>
    simp only [encodeItem, bind_eq_ok] at h
    obtain ⟨_, _, items, hitems, _⟩ := h
    refine allMapsList_iff.mpr fun value hvalue => ?_
    obtain ⟨item, hitem⟩ := exists_ok_of_encodeItems hitems value hvalue
    exact ih value hvalue hitem
  | map entries ih =>
    simp only [encodeItem, encodeSorted, bind_eq_ok, encodeKeys_eq_ok, rejectIf_eq_ok,
      windowsAny_encodings, exists_const] at h
    obtain ⟨keys, ⟨_, hkeys⟩, hnodup, _, _, items, hitems, _⟩ := h
    subst hkeys
    refine ⟨?_, allMapsEntries_iff.mpr fun e he => ?_⟩
    · rw [List.map_map] at hnodup
      refine List.Nodup.of_map textItem ?_
      rwa [List.map_map]
    · obtain ⟨item, hitem⟩ := exists_ok_of_assemble hitems (textItem e.1, encodeItem e.2)
        (Sorting.mem_sortBy.mpr (List.mem_map_of_mem he))
      exact ih e he hitem
  | _ => trivial

/-! ## Decoding and encoding -/

theorem encode_of_decode {b : List UInt8} {v : Value} (h : decode b = .ok v) :
    encode v = .ok b := by
  obtain ⟨hcanonical, hserialize, hlimits⟩ := decode_eq_ok.mp h
  have hfits : maxBytes < 2 ^ 64 := by decide
  have hsize := hlimits.size
  rw [encode, encodeItem_eq_ok hcanonical.noDup (fits_of_length_serialize (by omega)),
    hcanonical.canon_eq, hserialize]

/-- Every byte string that is decoded is the one encoding of its item. -/
theorem decode_canonical (b : List UInt8) (v : Value) (h : decode b = .ok v) :
    encode v = .ok b ∧ ∀ b', decode b' = .ok v → b' = b := by
  refine ⟨encode_of_decode h, fun b' h' => ?_⟩
  have hsame := (encode_of_decode h').symm.trans (encode_of_decode h)
  exact Except.ok.inj hsame

theorem decode_canonical_map :
    decode [0xa1, 0x61, 0x6b, 0x82, 0x18, 0x18, 0x20] =
        .ok (.map [("k", .array [.unsigned 24, .negative 0])]) ∧
      encode (.map [("k", .array [.unsigned 24, .negative 0])]) =
        .ok [0xa1, 0x61, 0x6b, 0x82, 0x18, 0x18, 0x20] :=
  ⟨rfl, (decode_canonical _ _ rfl).1⟩

/-- An item without duplicate keys and within the limits is decoded from its
encoding, with every map in the order of its encoded keys.  An item with a
duplicate key at some depth is not encoded. -/
theorem decode_encoded (v : Value) :
    (v.NoDup → v.serialize.length ≤ 16 * 1024 * 1024 → v.depth ≤ 128 → v.items ≤ 1000000 →
      ∃ b, encode v = .ok b ∧ decode b = .ok v.canon) ∧
    (¬v.NoDup → ∃ error, encode v = .error error) := by
  refine ⟨fun hnodup hsize hdepth hitems => ?_, fun hdup => ?_⟩
  · have hfits : v.Fits := fits_of_length_serialize (by omega)
    refine ⟨v.canon.serialize, encodeItem_eq_ok hnodup hfits, ?_⟩
    refine decode_eq_ok.mpr ⟨canonical_canon hnodup, rfl, ?_, ?_, ?_⟩
    · rwa [length_serialize_canon]
    · rwa [depth_canon]
    · rwa [items_canon]
  · cases hencode : encode v with
    | ok output => exact absurd (noDup_of_encodeItem hencode) hdup
    | error error => exact ⟨error, rfl⟩

theorem decode_encoded_map :
    (∃ b, encode (.map [("memory.max", .unsigned 65536), ("pids.max", .unsigned 2)]) = .ok b ∧
      decode b = .ok (.map [("pids.max", .unsigned 2), ("memory.max", .unsigned 65536)])) ∧
    ∃ error, encode (.array [.map [("a", .null), ("a", .null)]]) = .error error := by
  refine ⟨(decode_encoded (.map [("memory.max", .unsigned 65536), ("pids.max", .unsigned 2)])).1
    ?_ (by decide) (by decide) (by decide), (decode_encoded _).2 ?_⟩
  · simp [Value.NoDup, Value.AllMaps, AllMapsEntries]
  · simp [Value.NoDup, Value.AllMaps, AllMapsList]

/-! ## Bound maps -/

/-- The item that a field's value encodes. -/
def fieldValue (bytes : List UInt8) : Value :=
  match decode bytes with
  | .ok value => value
  | .error _ => .null

theorem fieldValue_eq {bytes : List UInt8} (h : decode bytes = .ok value) :
    fieldValue bytes = value := by
  rw [fieldValue, h]

theorem boundField_eq_ok {field : String × List UInt8} {entry : List UInt8 × List UInt8} :
    boundField field = .ok entry ↔
      (Utf8.bytes field.1).length < 2 ^ 64 ∧ (∃ value, decode field.2 = .ok value) ∧
        (textItem field.1, field.2) = entry := by
  simp only [boundField, bind_eq_ok, pure_eq_ok, encodeText_eq_ok, rejectIf_eq_ok,
    exists_const, ne_eq, Decidable.not_not]
  refine ⟨fun h => ?_, fun h => ?_⟩
  · obtain ⟨_, ⟨hlt, hkey⟩, value, hvalue, _, _, _, hentry⟩ := h
    subst hkey
    exact ⟨hlt, ⟨value, hvalue⟩, hentry⟩
  · obtain ⟨hlt, ⟨value, hvalue⟩, hentry⟩ := h
    exact ⟨_, ⟨hlt, rfl⟩, value, hvalue, _, encode_of_decode hvalue, rfl, hentry⟩

/-- The total size, item count and depth of the assembled map are within the
limits of the decoder. -/
structure BoundMapFits (fields : List (String × List UInt8)) : Prop where
  size : (lengthHead 5 fields.length).length +
    (fields.map fun field => (textItem field.1).length + field.2.length).sum ≤ maxBytes
  items : 1 + (fields.map fun field => 1 + (fieldValue field.2).items).sum ≤ maxItems
  depth : ∀ field ∈ fields, (fieldValue field.2).depth + 1 ≤ maxDepth

/-- The map that a list of fields stands for. -/
def boundValue (fields : List (String × List UInt8)) : Value :=
  .map (fields.map fun field => (field.1, fieldValue field.2))

/-- The value of every field is the encoding of an item. -/
def Decodable (fields : List (String × List UInt8)) : Prop :=
  ∀ field ∈ fields, ∃ value, decode field.2 = .ok value

variable {fields : List (String × List UInt8)}

theorem Decodable.spec (h : Decodable fields) {field : String × List UInt8}
    (hfield : field ∈ fields) :
    (fieldValue field.2).Canonical ∧ (fieldValue field.2).serialize = field.2 := by
  obtain ⟨value, hvalue⟩ := h field hfield
  rw [fieldValue_eq hvalue]
  obtain ⟨hcanonical, hserialize, _⟩ := decode_eq_ok.mp hvalue
  exact ⟨hcanonical, hserialize⟩

theorem Decodable.noDup (h : Decodable fields) (hkeys : (fields.map Prod.fst).Nodup) :
    (boundValue fields).NoDup := by
  have hsame : (fields.map fun field => (field.1, fieldValue field.2)).map Prod.fst =
      fields.map Prod.fst := by
    simp
  rw [← hsame] at hkeys
  refine ⟨hkeys, allMapsEntries_iff.mpr (List.forall_mem_map.mpr ?_)⟩
  exact fun field hfield => (h.spec hfield).1.noDup

/-- The fields in the order of their encoded keys. -/
def sortedFields (fields : List (String × List UInt8)) : List (String × List UInt8) :=
  Sorting.sortBy (fun a b => keyCmp a.1 b.1) fields

theorem Decodable.canon_boundValue (h : Decodable fields) : (boundValue fields).canon =
      .map ((sortedFields fields).map fun field => (field.1, fieldValue field.2)) := by
  have hsame : canonEntries (fields.map fun field => (field.1, fieldValue field.2)) =
      fields.map fun field => (field.1, fieldValue field.2) := by
    rw [canonEntries_eq, List.map_map]
    refine List.map_congr_left fun field hfield => ?_
    rw [Function.comp_apply, (h.spec hfield).1.canon_eq]
  rw [boundValue, Value.canon, hsame]
  congr 1
  exact Sorting.sortBy_map _ fields

/-- The bytes of the fields are the serialization of the map they stand for. -/
theorem Decodable.serialize_canon (h : Decodable fields) : (boundValue fields).canon.serialize =
      lengthHead 5 fields.length ++
        (sortedFields fields).flatMap fun field => textItem field.1 ++ field.2 := by
  rw [h.canon_boundValue, Value.serialize, serializeEntries_eq, List.length_map,
    sortedFields, (Sorting.sortBy_perm fields).length_eq, List.flatMap_map]
  congr 1
  refine List.flatMap_congr fun field hfield => ?_
  rw [(h.spec (Sorting.mem_sortBy.mp hfield)).2]

/-- When the assembly succeeds, and what it returns. -/
theorem encodeBoundMap_eq_ok :
    encodeBoundMap fields = .ok output ↔
      (∀ field ∈ fields, (Utf8.bytes field.1).length < 2 ^ 64) ∧ Decodable fields ∧
        (fields.map Prod.fst).Nodup ∧ fields.length < 2 ^ 64 ∧
        (boundValue fields).canon.serialize = output := by
  have hsorted : Sorting.sortBy encodingCmp
      (fields.map fun field => (textItem field.1, field.2)) =
      (sortedFields fields).map fun field => (textItem field.1, field.2) :=
    Sorting.sortBy_map _ fields
  have hnodup : ((fields.map fun field => (textItem field.1, field.2)).map Prod.fst).Nodup ↔
      (fields.map Prod.fst).Nodup := by
    have hsame : (fields.map fun field => (textItem field.1, field.2)).map Prod.fst =
        (fields.map Prod.fst).map textItem := by
      simp
    rw [hsame, List.nodup_map_iff textItem_injective]
  have hfield : ∀ {field : String × List UInt8} {entry : List UInt8 × List UInt8},
      boundField field = .ok entry ↔ ((Utf8.bytes field.1).length < 2 ^ 64 ∧
        ∃ value, decode field.2 = .ok value) ∧ (textItem field.1, field.2) = entry := by
    intro field entry
    rw [boundField_eq_ok, and_assoc]
  simp only [encodeBoundMap, bind_eq_ok, pure_eq_ok, collect_eq_ok_iff_map hfield,
    rejectIf_eq_ok, exists_const, encodeLength_eq_ok]
  refine ⟨fun h => ?_, fun h => ?_⟩
  · obtain ⟨_, ⟨hall, hentries⟩, hdup, _, ⟨hlen, hhead⟩, houtput⟩ := h
    subst hentries hhead houtput
    rw [windowsAny_encodings, hnodup] at hdup
    have hdecodable : Decodable fields := fun field hf => (hall field hf).2
    rw [hsorted, List.length_map, sortedFields, (Sorting.sortBy_perm fields).length_eq] at hlen
    refine ⟨fun field hf => (hall field hf).1, hdecodable, hdup, hlen, ?_⟩
    rw [hdecodable.serialize_canon, hsorted, List.flatMap_map, List.length_map, sortedFields,
      (Sorting.sortBy_perm fields).length_eq]
  · obtain ⟨hkeys, hdecodable, hdup, hlen, houtput⟩ := h
    have hlength : ((sortedFields fields).map fun field =>
        (textItem field.1, field.2)).length = fields.length := by
      rw [List.length_map, sortedFields, (Sorting.sortBy_perm fields).length_eq]
    refine ⟨_, ⟨fun field hf => ⟨hkeys field hf, hdecodable field hf⟩, rfl⟩,
      windowsAny_encodings.mpr (hnodup.mpr hdup), _, ⟨?_, rfl⟩, ?_⟩
    · rwa [hsorted, hlength]
    · rw [← houtput, hdecodable.serialize_canon, hsorted, hlength, List.flatMap_map]

/-- A map within the limits is assembled from its separately encoded values. -/
theorem encodeBoundMap_encoded {members : List (String × Value)}
    (hnodup : (Value.map members).NoDup) (hlimits : WithinLimits (.map members)) :
    encodeBoundMap (members.map fun e => (e.1, e.2.canon.serialize)) =
      .ok (Value.map members).canon.serialize := by
  have hfits : maxBytes < 2 ^ 64 := by decide
  have hsize := hlimits.size
  rw [Value.serialize, List.length_append] at hsize
  have hlen := length_le_serializeEntries members
  rw [noDup_map] at hnodup
  have hdecode : ∀ e ∈ members, decode e.2.canon.serialize = .ok e.2.canon := by
    intro e he
    exact decode_eq_ok.mpr ⟨canonical_canon (hnodup.2 e he), rfl,
      withinLimits_canon.mpr (hlimits.of_mem_map he)⟩
  have hvalue : boundValue (members.map fun e => (e.1, e.2.canon.serialize)) =
      .map (members.map fun e => (e.1, e.2.canon)) := by
    rw [boundValue, List.map_map]
    congr 1
    refine List.map_congr_left fun e he => ?_
    rw [Function.comp_apply, fieldValue_eq (hdecode e he)]
  have hcanon : (Value.map (members.map fun e => (e.1, e.2.canon))).canon =
      (Value.map members).canon := by
    rw [canon_map, canon_map, sorted, sorted, List.map_map]
    congr 2
    refine List.map_congr_left fun e he => ?_
    rw [Function.comp_apply, (canonical_canon (hnodup.2 e he)).canon_eq]
  refine encodeBoundMap_eq_ok.mpr ⟨?_, ?_, ?_, ?_, ?_⟩
  · intro field hfield
    obtain ⟨e, he, rfl⟩ := List.mem_map.mp hfield
    have hentry := length_entry_le_of_mem he
    rw [textItem, List.length_append] at hentry
    show (Utf8.bytes e.1).length < 2 ^ 64
    omega
  · intro field hfield
    obtain ⟨e, he, rfl⟩ := List.mem_map.mp hfield
    exact ⟨_, hdecode e he⟩
  · rw [List.map_map]
    exact hnodup.1
  · rw [List.length_map]
    omega
  · rw [hvalue, hcanon]

/-- The limits of the decoder, on the fields. -/
theorem Decodable.withinLimits_iff (h : Decodable fields) :
    WithinLimits (boundValue fields).canon ↔ BoundMapFits fields := by
  have hsize : (boundValue fields).canon.serialize.length =
      (lengthHead 5 fields.length).length +
        (fields.map fun field => (textItem field.1).length + field.2.length).sum := by
    rw [h.serialize_canon, List.length_append, List.length_flatMap]
    congr 1
    simp only [List.length_append]
    exact ((Sorting.sortBy_perm fields).map _).sum_eq
  have hitems : (boundValue fields).canon.items =
      1 + (fields.map fun field => 1 + (fieldValue field.2).items).sum := by
    rw [items_canon, boundValue, Value.items, itemsEntries_eq, List.map_map]
    rfl
  have hdepth : (boundValue fields).canon.depth ≤ maxDepth ↔
      ∀ field ∈ fields, (fieldValue field.2).depth + 1 ≤ maxDepth := by
    rw [depth_canon, boundValue, Value.depth, depthEntries_le, List.forall_mem_map]
  refine ⟨fun hl => ⟨?_, ?_, hdepth.mp hl.depth⟩, fun hf => ⟨?_, hdepth.mpr hf.depth, ?_⟩⟩
  · exact hsize ▸ hl.size
  · exact hitems ▸ hl.items
  · exact hsize ▸ hf.size
  · exact hitems ▸ hf.items

/-- The entries of the assembled map bind the keys to the decoded values. -/
theorem Decodable.mem_sortedFields (h : Decodable fields) {key : String} :
    (key, value) ∈ (sortedFields fields).map (fun field => (field.1, fieldValue field.2)) ↔
      ∃ bytes, (key, bytes) ∈ fields ∧ decode bytes = .ok value := by
  simp only [List.mem_map, sortedFields, Sorting.mem_sortBy, Prod.mk.injEq, Prod.exists]
  constructor
  · rintro ⟨k, bytes, hmem, rfl, hvalue⟩
    obtain ⟨value', hvalue'⟩ := h _ hmem
    rw [fieldValue_eq hvalue'] at hvalue
    exact ⟨bytes, hmem, hvalue ▸ hvalue'⟩
  · rintro ⟨bytes, hmem, hvalue⟩
    exact ⟨key, bytes, hmem, rfl, fieldValue_eq hvalue⟩

/-- The assembled map is decoded, to the decoded values under their keys,
exactly when it fits the limits of the decoder as a whole. -/
theorem encodeBoundMap_decodable_iff (fields : List (String × List UInt8))
    (output : List UInt8) (h : encodeBoundMap fields = .ok output) :
    (∃ entries, decode output = .ok (.map entries) ∧ (entries.map Prod.fst).Nodup ∧
      ∀ key value, (key, value) ∈ entries ↔
        ∃ bytes, (key, bytes) ∈ fields ∧ decode bytes = .ok value) ↔
      BoundMapFits fields := by
  obtain ⟨_, hdecodable, hkeys, _, houtput⟩ := encodeBoundMap_eq_ok.mp h
  have hcanonical := canonical_canon (hdecodable.noDup hkeys)
  have hcanon := hdecodable.canon_boundValue
  rw [← hdecodable.withinLimits_iff]
  refine ⟨fun ⟨entries, hdecode, _, hmem⟩ => ?_, fun hlimits => ?_⟩
  · obtain ⟨hcanonical', _, hlimits⟩ := decode_eq_ok.mp hdecode
    rw [hcanon] at hcanonical ⊢
    -- Both lists are in strict order and bind the same keys, so they are equal.
    have hsame : entries = (sortedFields fields).map fun field =>
        (field.1, fieldValue field.2) :=
      hcanonical'.1.eq_of_mem_iff hcanonical.1 fun (key, value) =>
        (hmem key value).trans hdecodable.mem_sortedFields.symm
    rwa [← hsame]
  · have hdecode : decode output = .ok _ :=
      decode_eq_ok.mpr ⟨hcanonical, houtput, hlimits⟩
    rw [hcanon] at hdecode hcanonical
    exact ⟨_, hdecode, pairwise_entryCmp_ne.mp hcanonical.1.pairwise_ne,
      fun key value => hdecodable.mem_sortedFields⟩

theorem encodeBoundMap_decodable_two_fields :
    ∃ entries, decode ([0xa2, 0x61, 97, 0x65, 118, 97, 108, 117, 101] ++
        [0x66, 108, 111, 110, 103, 101, 114, 0x1a, 0, 1, 0, 0]) = .ok (.map entries) ∧
      (entries.map Prod.fst).Nodup ∧
      ∀ key value, (key, value) ∈ entries ↔ ∃ bytes,
        (key, bytes) ∈ [("longer", [0x1a, 0, 1, 0, 0]), ("a", [0x65, 118, 97, 108, 117, 101])] ∧
          decode bytes = .ok value :=
  (encodeBoundMap_decodable_iff
    [("longer", [0x1a, 0, 1, 0, 0]), ("a", [0x65, 118, 97, 108, 117, 101])] _ rfl).mpr
    ⟨by decide, by decide, by decide⟩

set_option maxRecDepth 4000 in
/-- Each field is checked alone.  A field of the greatest depth is accepted,
and the map around it is too deep for the decoder. -/
theorem encodeBoundMap_deep_field :
    encodeBoundMap [("k", List.replicate 128 0x81 ++ [0x80])] =
        .ok (0xa1 :: 0x61 :: 0x6b :: (List.replicate 128 0x81 ++ [0x80])) ∧
      decode (0xa1 :: 0x61 :: 0x6b :: (List.replicate 128 0x81 ++ [0x80])) =
        .error .limitExceeded :=
  ⟨rfl, rfl⟩

end ProofboundRuntime.Core.WireV2
