import ProofboundRuntime.Lib.Cbor.KeyOrder
import ProofboundRuntime.Launcher.Codec

/-!
# The round trip of launcher messages

A method of the decoder `Reads` some bytes when it moves over them, wherever they
stand in the input, and returns a value.  Such methods compose, so the reader of a
data item follows the item: every item within the limits (`Decodable`) is read
from its serialization.  The encoder writes the serialization of the canonical
item, and a message is found again in the canonical item of its value.
-/

namespace ProofboundRuntime.Launcher

open ProofboundRuntime.Core Cbor Result

/-! ## Reading -/

/-- The method moves over the bytes and returns the value. -/
def Reads {α : Type} (method : DecoderM α) (bytes : List UInt8) (a : α) : Prop :=
  ∀ input position, input.length < 2 ^ 64 → position ≤ input.length →
    bytes <+: input.drop position →
      method ⟨input, position⟩ = (.ok a, ⟨input, position + bytes.length⟩)

theorem reads_pure {α : Type} (a : α) : Reads (pure a) [] a :=
  fun _ _ _ _ _ => rfl

variable {α β : Type} {a : α} {method : DecoderM α}

theorem reads_lift {result : Except LauncherError α} (h : result = .ok a) :
    Reads (Mut.lift result) [] a := by
  subst h
  exact fun _ _ _ _ _ => rfl

theorem Reads.bind {next : α → DecoderM β} {x y : List UInt8} {b : β} (hfirst : Reads method x a)
    (hnext : Reads (next a) y b) : Reads (method >>= next) (x ++ y) b := by
  intro input position hfits hin hprefix
  obtain ⟨rest, hrest⟩ := hprefix
  have hx : x <+: input.drop position := ⟨y ++ rest, by rw [← List.append_assoc, hrest]⟩
  have hlength := hx.length_le
  rw [List.length_drop] at hlength
  have hy : y <+: input.drop (position + x.length) := by
    refine ⟨rest, ?_⟩
    rw [← List.drop_drop, ← hrest, List.append_assoc, List.drop_left]
  rw [Mut.bind_eq_ok]
  refine ⟨a, _, hfirst input position hfits hin hx, ?_⟩
  rw [hnext input _ hfits (by omega) hy, List.length_append, Nat.add_assoc]

/-- A step that reads nothing comes first. -/
theorem Reads.lift_bind {result : Except LauncherError α} {next : α → DecoderM β} {y : List UInt8}
    {b : β} (h : result = .ok a) (hnext : Reads (next a) y b) :
    Reads (Mut.lift result >>= next) y b :=
  (reads_lift h).bind hnext

/-- A pure step comes last. -/
theorem Reads.then_pure {f : α → β} {x : List UInt8} (h : Reads method x a) :
    Reads (method >>= fun a => pure (f a)) x (f a) := by
  have hbind : Reads (method >>= fun a => pure (f a)) (x ++ []) (f a) := h.bind (reads_pure (f a))
  rwa [List.append_nil] at hbind

theorem reads_byte (b : UInt8) : Reads Decoder.byte [b] b := by
  intro input position _ _ hprefix
  have hget : input[position]? = some b := by
    obtain ⟨rest, hrest⟩ := hprefix
    rw [← List.head?_drop, ← hrest]
    rfl
  simp only [Decoder.byte, Mut.bind_eq_ok, Mut.get_eq_ok, Mut.lift_eq_ok, Mut.modify_eq_ok,
    Mut.pure_eq_ok, okOr_eq_ok]
  exact ⟨_, _, ⟨rfl, rfl⟩, b, _, ⟨hget, rfl⟩, (), _, rfl, rfl, rfl⟩

theorem reads_bytes (bytes : List UInt8) : Reads (Decoder.bytes bytes.length) bytes bytes := by
  intro input position hfits hin hprefix
  have hlength := hprefix.length_le
  rw [List.length_drop] at hlength
  have htake : (input.drop position).take bytes.length = bytes :=
    (List.prefix_iff_eq_take.mp hprefix).symm
  simp only [Decoder.bytes, Mut.bind_eq_ok, Mut.get_eq_ok, Mut.lift_eq_ok, Mut.modify_eq_ok,
    Mut.pure_eq_ok, rejectIf_eq_ok]
  refine ⟨_, _, ⟨rfl, rfl⟩, (), _, ⟨?_, rfl⟩, (), _, ⟨?_, rfl⟩, (), _, rfl, htake, rfl⟩
  · simp only
    omega
  · simp only
    omega

variable {argument : UInt64}

theorem reads_integer {width : Nat} (h : argument.toNat < 256 ^ width) :
    Reads (Decoder.integer width) (BigEndian.toBytes width argument.toNat) argument := by
  have hread := reads_bytes (BigEndian.toBytes width argument.toNat)
  rw [BigEndian.length_toBytes] at hread
  have hpure := hread.then_pure (f := fun bytes => UInt64.ofNat (BigEndian.ofBytes bytes))
  rwa [BigEndian.ofBytes_toBytes h, UInt64.ofNat_toNat] at hpure

/-- The argument of a head is read from the bytes after the initial byte. -/
theorem reads_argument (argument : UInt64) :
    Reads (Decoder.argument (argumentInfo argument)) (argumentBytes argument) argument := by
  unfold Decoder.argument argumentBytes
  simp only [UInt8.lt_iff_toNat_lt, ← UInt8.toNat_inj, UInt8.reduceToNat]
  rcases argument_cases argument with ⟨hlt, hinfo, hwidth⟩ | ⟨-, hlt, hinfo, hwidth⟩ |
    ⟨-, hlt, hinfo, hwidth⟩ | ⟨-, hlt, hinfo, hwidth⟩ | ⟨-, hlt, hinfo, hwidth⟩
  · rw [if_pos (by omega), hwidth]
    have heq : (argumentInfo argument).toUInt64 = argument := by
      apply UInt64.toNat_inj.mp
      rw [UInt8.toNat_toUInt64, hinfo]
    rw [heq]
    exact reads_pure argument
  · rw [if_neg (by omega), if_pos hinfo, hwidth]
    have hbyte := (reads_byte (UInt8.ofNat argument.toNat)).then_pure (f := UInt8.toUInt64)
    have heq : (UInt8.ofNat argument.toNat).toUInt64 = argument := by
      apply UInt64.toNat_inj.mp
      rw [UInt8.toNat_toUInt64, UInt8.toNat_ofNat_of_lt' (by omega)]
    rwa [heq] at hbyte
  · rw [if_neg (by omega), if_neg (by omega), if_pos hinfo, hwidth]
    exact reads_integer hlt
  · rw [if_neg (by omega), if_neg (by omega), if_neg (by omega), if_pos hinfo, hwidth]
    exact reads_integer hlt
  · rw [if_neg (by omega), if_neg (by omega), if_neg (by omega), if_neg (by omega),
      if_pos hinfo, hwidth]
    exact reads_integer hlt

/-! ## Items within the limits -/

/-- The items that the decoder returns within so many levels. -/
inductive Decodable : Nat → Value → Prop
  | unsigned {levels : Nat} (value : UInt64) : Decodable (levels + 1) (.unsigned value)
  | bytes {levels : Nat} (value : List UInt8) : Decodable (levels + 1) (.bytes value)
  | text {levels : Nat} (value : String) : Decodable (levels + 1) (.text value)
  | array {levels : Nat} {values : List Value} (hcount : values.length ≤ maxCollectionItems)
      (hvalues : ∀ value ∈ values, Decodable levels value) :
      Decodable (levels + 1) (.array values)
  | map {levels : Nat} {entries : List (String × Value)}
      (hcount : entries.length ≤ maxCollectionItems) (hkeys : (entries.map Prod.fst).Nodup)
      (hvalues : ∀ e ∈ entries, Decodable levels e.2) :
      Decodable (levels + 1) (.map entries)

variable {levels : Nat}

theorem Decodable.levels_pos {value : Value} (h : Decodable levels value) : 0 < levels := by
  cases h <;> exact Nat.succ_pos _

/-- Reordering the maps changes no limit. -/
theorem Decodable.canon {value : Value} (h : Decodable levels value) :
    Decodable levels value.canon := by
  induction h with
  | unsigned value => exact .unsigned value
  | bytes value => exact .bytes value
  | text value => exact .text value
  | array hcount _ ih =>
    rw [canon_array]
    refine .array (by rwa [List.length_map]) ?_
    simp only [List.forall_mem_map]
    exact ih
  | map hcount hkeys _ ih =>
    rw [canon_map]
    refine .map (by rwa [length_sorted]) ?_ ?_
    · rwa [sorted, ((Sorting.sortBy_perm _).map _).nodup_iff, map_fst_canon]
    · simp only [sorted, Sorting.mem_sortBy, List.forall_mem_map]
      exact ih

theorem reads_items {value : DecoderM Value} {values : List Value}
    (h : ∀ v ∈ values, Reads value v.serialize v) :
    Reads (Decoder.items value values.length) (serializeList values) values := by
  induction values with
  | nil => exact reads_pure []
  | cons v values ih =>
    rw [List.forall_mem_cons] at h
    exact h.1.bind (ih h.2).then_pure

theorem reads_entries {value : DecoderM Value} (seen : List (String × Value))
    {entries : List (String × Value)}
    (hkeys : ((seen ++ entries).map Prod.fst).Nodup)
    (h : ∀ e ∈ entries, Reads value (textItem e.1) (.text e.1) ∧
      Reads value e.2.serialize e.2) :
    Reads (Decoder.entries value seen entries.length) (serializeEntries entries)
      (seen ++ entries) := by
  induction entries generalizing seen with
  | nil =>
    rw [List.append_nil]
    exact reads_pure seen
  | cons e entries ih =>
    obtain ⟨key, v⟩ := e
    obtain ⟨⟨hkey, hvalue⟩, hrest⟩ := List.forall_mem_cons.mp h
    have hnew : ¬(seen.any fun e => e.1 == key) = true := by
      rw [List.map_append, List.nodup_append] at hkeys
      simp only [List.any_eq_true, beq_iff_eq, not_exists, not_and]
      intro d hd
      exact hkeys.2.2 _ (List.mem_map_of_mem hd) _ List.mem_cons_self
    have hcheck : rejectIf ((seen.any fun e => e.1 == key) = true) LauncherError.duplicateKey =
        .ok () := rejectIf_false hnew
    have hnext : Reads (Decoder.entries value (seen ++ [(key, v)]) entries.length)
        (serializeEntries entries) (seen ++ [(key, v)] ++ entries) := by
      apply ih (seen ++ [(key, v)]) _ hrest
      rwa [List.append_assoc]
    rw [List.append_assoc] at hnext
    rw [serializeEntries, List.append_assoc]
    exact hkey.bind (Reads.lift_bind rfl (Reads.lift_bind hcheck (hvalue.bind hnext)))

/-- Bytes that stand in an input are not too long for it. -/
theorem reads_of_length_lt {bytes : List UInt8}
    (h : bytes.length < 2 ^ 64 → Reads method bytes a) : Reads method bytes a := by
  intro input position hfits hin hprefix
  have hlength := hprefix.length_le
  rw [List.length_drop] at hlength
  exact h (by omega) input position hfits hin hprefix

variable {v : Value}

theorem reads_head {major : UInt8} {payload : List UInt8} (hmajor : major < 8)
    (h : Reads (Decoder.content (Decoder.value levels) major argument) payload v) :
    Reads (Decoder.value (levels + 1)) (head major argument ++ payload) v := by
  have hlt : argumentInfo argument < 32 := Std.lt_trans (argumentInfo_lt argument) (by decide)
  obtain ⟨hparts, hinfo⟩ := initialByte_parts hmajor hlt
  have hne : ¬argumentInfo argument = 31 := by
    have hsmall := UInt8.lt_iff_toNat_lt.mp (argumentInfo_lt argument)
    intro heq
    rw [heq] at hsmall
    exact absurd hsmall (by decide)
  have hrest : Reads
      (Decoder.argument (argumentInfo argument) >>= Decoder.content (Decoder.value levels) major)
      (argumentBytes argument ++ payload) v := (reads_argument argument).bind h
  refine (reads_byte (initialByte major (argumentInfo argument))).bind ?_
  simp only [hparts, hinfo, if_neg hne]
  exact hrest

/-- An item of so many bytes, elements or entries. -/
theorem reads_lengthHead {major : UInt8} {length : Nat} {payload : List UInt8} (hmajor : major < 8)
    (hlength : length ≤ payload.length)
    (h : ∀ argument : UInt64, argument.toNat = length →
      Reads (Decoder.content (Decoder.value levels) major argument) payload v) :
    Reads (Decoder.value (levels + 1)) (lengthHead major length ++ payload) v := by
  refine reads_of_length_lt fun hlt => reads_head hmajor (h _ ?_)
  rw [List.length_append] at hlt
  have hsize : length < UInt64.size := by
    show length < 2 ^ 64
    omega
  exact UInt64.toNat_ofNat_of_lt' hsize

theorem boundedCount_eq_ok {count : Nat} (hargument : argument.toNat = count)
    (hcount : count ≤ maxCollectionItems) : Decoder.boundedCount argument = .ok count := by
  subst hargument
  simp only [Decoder.boundedCount, rejectIf_false (not_lt.mpr hcount)]
  rfl

theorem reads_text (value : String) :
    Reads (Decoder.value (levels + 1)) (textItem value) (.text value) := by
  refine reads_lengthHead (by decide) le_rfl fun argument hargument => ?_
  have htext : okOr (Utf8.fromUtf8 (Utf8.bytes value)) LauncherError.malformed = .ok value := by
    rw [Utf8.fromUtf8_bytes]
    rfl
  have hread := reads_bytes (Utf8.bytes value)
  rw [← hargument] at hread
  rw [← List.append_nil (Utf8.bytes value)]
  exact hread.bind (Reads.lift_bind htext (reads_pure _))

/-- Every item within the limits is read from its serialization. -/
theorem reads_value (h : Decodable levels v) : Reads (Decoder.value levels) v.serialize v := by
  induction h with
  | @unsigned levels value =>
    have hread : Reads (Decoder.value (levels + 1)) (head 0 value ++ []) (.unsigned value) :=
      reads_head (by decide) (reads_pure _)
    rwa [List.append_nil] at hread
  | bytes value =>
    refine reads_lengthHead (by decide) le_rfl fun argument hargument => ?_
    have hread := (reads_bytes value).then_pure (f := Value.bytes)
    rwa [← hargument] at hread
  | text value => exact reads_text value
  | array hcount _ ih =>
    refine reads_lengthHead (by decide) (length_le_serializeList _) fun argument hargument => ?_
    have hitems := (reads_items ih).then_pure (f := Value.array)
    exact Reads.lift_bind (boundedCount_eq_ok hargument hcount) hitems
  | map hcount hkeys hvalues ih =>
    refine reads_lengthHead (by decide) (length_le_serializeEntries _) fun argument hargument => ?_
    have hread := reads_entries [] hkeys fun e he => ⟨?_, ih e he⟩
    · exact Reads.lift_bind (boundedCount_eq_ok hargument hcount) (hread.then_pure (f := Value.map))
    · obtain ⟨_, hlevels⟩ := Nat.exists_eq_add_one.mpr (hvalues e he).levels_pos
      rw [hlevels]
      exact reads_text e.1

/-! ## Writing -/

theorem encodeItems_eq (items : List Value) : encodeItems items = items.map encodeValue := by
  induction items with
  | nil => rfl
  | cons item items ih => rw [encodeItems, ih, List.map_cons]

/-- The method that writes an entry. -/
def encodeEntry (e : String × Value) : Append := fun output => do
  let output ← encodeText e.1 output
  encodeValue e.2 output

theorem encodeEntries_eq (entries : List (String × Value)) :
    encodeEntries entries = entries.map fun e => (e.1, encodeEntry e) := by
  induction entries with
  | nil => rfl
  | cons e entries ih =>
    rw [encodeEntries, ih, List.map_cons]
    rfl

variable {output out : List UInt8}

theorem checkFrame_eq_ok :
    checkFrame output = .ok out ↔ output.length ≤ maxLauncherFrameBytes ∧ output = out := by
  simp only [checkFrame, bind_eq_ok, rejectIf_eq_ok, pure_eq_ok, exists_const, not_lt]

theorem encodeText_eq_ok {text : String} (h : encodeText text output = .ok out) :
    (Utf8.bytes text).length < 2 ^ 64 ∧ out = output ++ textItem text := by
  simp only [encodeText, bind_eq_ok, Wire.encodeText_eq_ok, checkFrame_eq_ok] at h
  obtain ⟨item, ⟨hlt, rfl⟩, -, rfl⟩ := h
  exact ⟨hlt, rfl⟩

/-- A list of methods writes what each of them writes. -/
theorem appendAll_eq_ok {append : α → Append} {write : α → List UInt8} {l : List α}
    (h : ∀ a ∈ l, ∀ output out, append a output = .ok out → out = output ++ write a)
    (hout : appendAll (l.map append) output = .ok out) : out = output ++ l.flatMap write := by
  induction l generalizing output with
  | nil =>
    cases hout
    rw [List.flatMap_nil, List.append_nil]
  | cons a l ih =>
    rw [List.forall_mem_cons] at h
    obtain ⟨middle, hfirst, hrest⟩ := bind_eq_ok.mp hout
    rw [ih h.2 hrest, h.1 _ _ hfirst, List.flatMap_cons, List.append_assoc]

/-- Each of them succeeds somewhere. -/
theorem exists_of_appendAll {append : α → Append} {l : List α}
    (hout : appendAll (l.map append) output = .ok out) (ha : a ∈ l) :
    ∃ before after, append a before = .ok after := by
  induction l generalizing output with
  | nil => exact absurd ha List.not_mem_nil
  | cons b l ih =>
    obtain ⟨middle, hfirst, hrest⟩ := bind_eq_ok.mp hout
    rcases List.mem_cons.mp ha with rfl | ha
    · exact ⟨output, middle, hfirst⟩
    · exact ih hrest ha

/-- Entries whose keys were written are in canonical order. -/
theorem sortBy_canonicalKeyOrder {entries : List (String × Value)}
    (h : ∀ e ∈ entries, (Utf8.bytes e.1).length < 2 ^ 64) :
    Sorting.sortBy (fun d e => canonicalKeyOrder d.1 e.1) entries =
      Sorting.sortBy entryCmp entries := by
  have hsame := List.map_insertionSort (fun d e => (canonicalKeyOrder d.1 e.1).isLE)
    (fun d e => (entryCmp d e).isLE) id entries fun d hd e he => by
      rw [id, id, entryCmp, keyCmp_eq (h d hd) (h e he)]
      rfl
  rwa [List.map_id, List.map_id] at hsame

/-- The encoder writes the canonical item. -/
theorem encodeValue_eq_ok (h : encodeValue v output = .ok out) :
    out = output ++ v.canon.serialize := by
  induction v generalizing output out with
  | unsigned number =>
    simp only [encodeValue, checkFrame_eq_ok, Wire.encodeArgument_eq] at h
    exact h.2.symm
  | bytes value =>
    simp only [encodeValue, bind_eq_ok, Wire.encodeBytes_eq_ok, checkFrame_eq_ok] at h
    obtain ⟨item, ⟨-, rfl⟩, -, rfl⟩ := h
    rfl
  | text value => exact (encodeText_eq_ok h).2
  | array values ih =>
    simp only [encodeValue, bind_eq_ok, Wire.encodeLength_eq_ok, checkFrame_eq_ok,
      encodeItems_eq] at h
    obtain ⟨header, ⟨-, rfl⟩, middle, hitems, -, rfl⟩ := h
    rw [appendAll_eq_ok (fun v hv _ _ => ih v hv) hitems, canon_array, Value.serialize,
      serializeList_eq, List.length_map, List.flatMap_map, List.append_assoc]
  | map entries ih =>
    simp only [encodeValue, bind_eq_ok, Wire.encodeLength_eq_ok, checkFrame_eq_ok,
      encodeEntries_eq, Sorting.sortBy_map, List.map_map, List.length_map] at h
    obtain ⟨header, ⟨-, rfl⟩, middle, hentries, -, rfl⟩ := h
    have hwritten : appendAll ((Sorting.sortBy (fun d e => canonicalKeyOrder d.1 e.1)
        entries).map encodeEntry) (output ++ lengthHead 5 _) = .ok middle := hentries
    have hkeys : ∀ e ∈ entries, (Utf8.bytes e.1).length < 2 ^ 64 := by
      intro e he
      obtain ⟨_, _, hentry⟩ := exists_of_appendAll hwritten (Sorting.mem_sortBy.mpr he)
      obtain ⟨_, htext, -⟩ := bind_eq_ok.mp hentry
      exact (encodeText_eq_ok htext).1
    have hwrite : ∀ e ∈ Sorting.sortBy (fun d e => canonicalKeyOrder d.1 e.1) entries,
        ∀ before after, encodeEntry e before = .ok after →
          after = before ++ (textItem e.1 ++ e.2.canon.serialize) := by
      intro e he before after hentry
      obtain ⟨middle, htext, hvalue⟩ := bind_eq_ok.mp hentry
      rw [ih e (Sorting.mem_sortBy.mp he) hvalue, (encodeText_eq_ok htext).2, List.append_assoc]
    have hsorted : sorted entries =
        (Sorting.sortBy entryCmp entries).map fun e => (e.1, e.2.canon) :=
      Sorting.sortBy_map _ _
    rw [appendAll_eq_ok hwrite hwritten, sortBy_canonicalKeyOrder hkeys, canon_map,
      Value.serialize, serializeEntries_eq, hsorted, List.length_map, List.flatMap_map,
      List.append_assoc]
  | negative argument => cases h
  | bool value => cases h
  | null => cases h

/-- What was encoded is within the frame and is the canonical item. -/
theorem encodeLauncherMessage_eq_ok {message : LauncherMessage}
    (h : encodeLauncherMessage message = .ok output) :
    output = (messageToValue message).canon.serialize ∧
      output.length ≤ maxLauncherFrameBytes := by
  simp only [encodeLauncherMessage, bind_eq_ok, checkFrame_eq_ok] at h
  obtain ⟨_, hvalue, hlength, rfl⟩ := h
  exact ⟨encodeValue_eq_ok hvalue, hlength⟩

/-! ## Messages -/

/-- A map with few declared keys, all different. -/
theorem Decodable.members {members : List (String × Value)} {names : List String}
    (hkeys : members.map Prod.fst = names)
    (hnames : names.length ≤ maxCollectionItems ∧ names.Nodup)
    (h : ∀ e ∈ members, Decodable levels e.2) : Decodable (levels + 1) (.map members) := by
  subst hkeys
  rw [List.length_map] at hnames
  exact .map hnames.1 hnames.2 h

/-- The canonical map of declared members passes the check of its keys, in
whatever order they are declared, and its fields are found. -/
theorem sorted_members {members : List (String × Value)} {names expected : List String}
    (hkeys : members.map Prod.fst = names) (hnames : names.Nodup ∧ names.Perm expected) :
    requireKeys (sorted members) expected = .ok () ∧
      ∀ e ∈ members, field (sorted members) e.1 = .ok e.2.canon := by
  obtain ⟨hnodup, hperm⟩ := hnames
  have hexact := hasExactly_sorted hkeys
  refine ⟨rejectIf_false ?_, fun e he => ?_⟩
  · rw [Bool.not_eq_false]
    simp only [hasExactly, Bool.and_eq_true, beq_iff_eq, List.all_eq_true] at hexact ⊢
    exact ⟨hexact.1.trans hperm.length_eq, fun name hname =>
      hexact.2 name (hperm.mem_iff.mpr hname)⟩
  · subst hkeys
    rw [field, lookup_sorted hnodup, lookup_of_mem hnodup he]
    rfl

theorem collect_map_self {parse : β → Except LauncherError α} {value : α → β} {l : List α}
    (h : ∀ a ∈ l, parse (value a) = .ok a) : collect parse (l.map value) = .ok l := by
  rw [collect_eq_ok, List.forall₂_map_left_iff]
  exact List.forall₂_same.mpr h

theorem asArrayOf_toList {size : Nat} (bytes : Vector UInt8 size) :
    asArrayOf size bytes.toList = .ok bytes := by
  obtain ⟨⟨bytes⟩, hsize⟩ := bytes
  exact dif_pos hsize

theorem decodable_digestValue (digest : Sha256Digest) :
    Decodable (levels + 2) (digestValue digest) := by
  refine @Decodable.members _ _ ["algorithm", "digest"] rfl (by decide) ?_
  simp only [List.forall_mem_cons, forall_mem_nil, and_true]
  exact ⟨.text _, .bytes _⟩

theorem decodeDigest_digestValue (digest : Sha256Digest) :
    decodeDigest (digestValue digest).canon = .ok digest := by
  obtain ⟨hkeys, hfield⟩ := @sorted_members
    [("algorithm", .text "sha256"), ("digest", .bytes digest.toList)]
    ["algorithm", "digest"] ["algorithm", "digest"] rfl (by decide)
  simp only [List.forall_mem_cons, forall_mem_nil, and_true, canon_text, canon_bytes] at hfield
  rw [digestValue, canon_map, decodeDigest]
  simp only [asMap, ok_bind, hkeys, hfield, asText, asBytes, asArrayOf_toList,
    rejectIf_false (not_not.mpr rfl)]

theorem decodable_cgroupValue (identity : CgroupIdentity) :
    Decodable (levels + 2) (cgroupValue identity) := by
  refine @Decodable.members _ _ ["mount_id", "inode"] rfl (by decide) ?_
  simp only [List.forall_mem_cons, forall_mem_nil, and_true]
  exact ⟨.unsigned _, .unsigned _⟩

theorem decodeCgroup_cgroupValue (identity : CgroupIdentity) :
    decodeCgroup (cgroupValue identity).canon = .ok identity := by
  obtain ⟨hkeys, hfield⟩ := @sorted_members
    [("mount_id", .unsigned identity.mountId), ("inode", .unsigned identity.inode)]
    ["mount_id", "inode"] ["mount_id", "inode"] rfl (by decide)
  simp only [List.forall_mem_cons, forall_mem_nil, and_true, canon_unsigned] at hfield
  rw [cgroupValue, canon_map, decodeCgroup]
  simp only [asMap, ok_bind, hkeys, hfield, asUnsigned]
  rfl

theorem decodable_artifactValue (identity : ArtifactIdentity) :
    Decodable (levels + 3) (artifactValue identity) := by
  refine @Decodable.members _ _ ["role", "digest", "size", "mode"] rfl (by decide) ?_
  simp only [List.forall_mem_cons, forall_mem_nil, and_true]
  exact ⟨.text _, decodable_digestValue _, .unsigned _, .unsigned _⟩

theorem decodeMode_toUInt64 (mode : FileMode) : decodeMode mode.get.toUInt64 = .ok mode := by
  have hlt := mode.get.toNat_lt
  have hback : mode.get.toUInt64.toUInt16 = mode.get := by simp
  rw [decodeMode, if_neg (by rw [UInt16.toNat_toUInt64]; omega), hback, FileMode.new,
    dif_pos mode.get_le]
  rfl

theorem decodeArtifact_artifactValue {identity : ArtifactIdentity}
    (hrole : identity.role = .runtimeExecutable) :
    decodeArtifact (artifactValue identity).canon = .ok identity := by
  obtain ⟨hkeys, hfield⟩ := @sorted_members
    [("role", .text identity.role.asStr), ("digest", digestValue identity.digest),
     ("size", .unsigned identity.size), ("mode", .unsigned identity.mode.get.toUInt64)]
    ["role", "digest", "size", "mode"] ["role", "digest", "size", "mode"] rfl (by decide)
  simp only [List.forall_mem_cons, forall_mem_nil, and_true, canon_unsigned, canon_text] at hfield
  rw [artifactValue, canon_map, decodeArtifact]
  simp only [asMap, ok_bind, hkeys, hfield, asUnsigned, asText, decodeMode_toUInt64,
    decodeDigest_digestValue, rejectIf_false (not_not.mpr (congrArg ArtifactRole.asStr hrole))]
  obtain ⟨_, _, _, _⟩ := identity
  cases hrole
  rfl

theorem asU32_toUInt64 (value : UInt32) : asU32 (.unsigned value.toUInt64) = .ok value := by
  have hlt := value.toNat_lt
  have hrange : ¬2 ^ 32 ≤ value.toUInt64.toNat := by
    rw [UInt32.toNat_toUInt64]
    omega
  have hback : value.toUInt64.toUInt32 = value := by simp
  simp only [asU32, asUnsigned, ok_bind, rejectIf_false hrange, hback]
  rfl

theorem length_access_le (rule : LauncherFilesystemRule) :
    rule.access.length ≤ maxCollectionItems := by
  have hnodup := rule.strict.nodup
  have hsub : rule.access ⊆ [.read, .write, .execute] := by
    intro access _
    cases access <;> decide
  exact (hnodup.subperm hsub).length_le.trans (by decide)

theorem decodable_filesystemRuleValue (rule : LauncherFilesystemRule) :
    Decodable (levels + 3) (filesystemRuleValue rule) := by
  refine @Decodable.members _ _ ["fd", "access"] rfl (by decide) ?_
  simp only [List.forall_mem_cons, forall_mem_nil, and_true]
  refine ⟨.unsigned _, .array ?_ ?_⟩
  · rw [List.length_map]
    exact length_access_le rule
  · simp only [List.forall_mem_map]
    exact fun _ _ => .text _

theorem decodeFilesystemRule_value (rule : LauncherFilesystemRule) :
    decodeFilesystemRule (filesystemRuleValue rule).canon = .ok rule := by
  obtain ⟨hkeys, hfield⟩ := @sorted_members
    [("fd", .unsigned rule.descriptor.toUInt64),
     ("access", .array (rule.access.map fun item => .text (accessName item)))]
    ["fd", "access"] ["fd", "access"] rfl (by decide)
  simp only [List.forall_mem_cons, forall_mem_nil, and_true, canon_unsigned, canon_array,
    List.map_map] at hfield
  have haccess : collect (fun value => asText value >>= parseAccess)
      (rule.access.map (Value.canon ∘ fun item => .text (accessName item))) = .ok rule.access :=
    collect_map_self fun access _ => parseAccess_accessName access
  rw [filesystemRuleValue, canon_map, decodeFilesystemRule]
  simp only [asMap, ok_bind, hkeys, hfield, asArray, haccess, asU32_toUInt64,
    LauncherFilesystemRule.new_self]

theorem decodable_identityEntries (identity : LauncherIdentity) :
    ∀ e ∈ identityEntries identity, Decodable (levels + 2) e.2 := by
  simp only [identityEntries, List.forall_mem_cons, forall_mem_nil, and_true]
  exact ⟨.bytes _, decodable_digestValue _, decodable_cgroupValue _⟩

theorem fromBytes_bytes (executionId : ExecutionId) :
    ExecutionId.fromBytes executionId.bytes = .ok executionId := by
  rw [ExecutionId.fromBytes, dif_neg (not_not.mpr executionId.version),
    dif_neg (not_not.mpr executionId.variant)]

theorem decodeIdentity_of_field {map : List (String × Value)} {identity : LauncherIdentity}
    (hfield : ∀ e ∈ identityEntries identity, field map e.1 = .ok e.2.canon) :
    decodeIdentity map = .ok identity := by
  simp only [identityEntries, List.forall_mem_cons, forall_mem_nil, and_true, canon_bytes] at hfield
  rw [decodeIdentity]
  simp only [hfield, ok_bind, asBytes, asArrayOf_toList, fromBytes_bytes,
    decodeDigest_digestValue, decodeCgroup_cgroupValue]
  rfl

/-! ## Environments -/

/-- Collecting the entries of a map, in any order, gives the map. -/
theorem ofList_of_perm [DecidableEq α] {cmp : α → α → Ordering} [Std.TransCmp cmp]
    [Std.LawfulEqCmp cmp] {t : Std.ExtTreeMap α β cmp} {l : List (α × β)} (h : l.Perm t.toList) :
    Std.ExtTreeMap.ofList l cmp = t := by
  have hdistinct : l.Pairwise fun a b => ¬cmp a.1 b.1 = .eq :=
    h.symm.pairwise Std.ExtTreeMap.distinct_keys_toList fun hne heq =>
      hne (Std.OrientedCmp.eq_symm heq)
  apply Std.ExtTreeMap.ext_getElem?
  intro key
  cases hget : t[key]? with
  | some value =>
    have hmem : (key, value) ∈ l :=
      h.mem_iff.mpr (Std.ExtTreeMap.mem_toList_iff_getElem?_eq_some.mpr hget)
    exact Std.ExtTreeMap.getElem?_ofList_of_mem Std.ReflCmp.compare_self hdistinct hmem
  | none =>
    apply Std.ExtTreeMap.getElem?_ofList_of_contains_eq_false
    rw [List.contains_eq_mem, decide_eq_false_iff_not, List.mem_map]
    rintro ⟨⟨_, value⟩, hmem, rfl⟩
    have hsome := Std.ExtTreeMap.mem_toList_iff_getElem?_eq_some.mp (h.mem_iff.mp hmem)
    simp [hget] at hsome

theorem map_fst_environment (environment : Environment) :
    ((environment.toList.map fun (name, value) => (name, Value.text value)).map Prod.fst).Nodup := by
  rw [List.map_map]
  refine List.pairwise_map.mpr (Std.ExtTreeMap.distinct_keys_toList.imp fun hne heq => hne ?_)
  exact Std.LawfulEqCmp.compare_eq_iff_eq.mpr heq

theorem decodable_environmentValue {environment : Environment}
    (hsize : environment.size ≤ maxCollectionItems) :
    Decodable (levels + 2) (environmentValue environment) := by
  refine .map ?_ (map_fst_environment environment) ?_
  · rwa [List.length_map, Std.ExtTreeMap.length_toList]
  · simp only [List.forall_mem_map]
    exact fun _ _ => .text _

theorem asMap_environmentValue (environment : Environment) :
    asMap (environmentValue environment).canon =
      .ok (sorted (environment.toList.map fun (name, value) => (name, .text value))) := by
  rw [environmentValue, canon_map]
  rfl

theorem decodeEnvironment_value (environment : Environment) :
    decodeEnvironment (sorted (environment.toList.map fun (name, value) => (name, .text value))) =
      .ok environment := by
  have hsorted : sorted (environment.toList.map fun (name, value) => (name, .text value)) =
      (Sorting.sortBy (fun a b => keyCmp a.1 b.1) environment.toList).map
        fun e => (e.1, Value.text e.2) := by
    rw [sorted, List.map_map]
    exact Sorting.sortBy_map _ _
  have hcollect : collect (fun e : String × Value => do
      let value ← asText e.2
      pure (e.1, value)) ((Sorting.sortBy (fun a b => keyCmp a.1 b.1) environment.toList).map
        fun e => (e.1, Value.text e.2)) =
      .ok (Sorting.sortBy (fun a b => keyCmp a.1 b.1) environment.toList) :=
    collect_map_self fun _ _ => rfl
  rw [decodeEnvironment, hsorted, hcollect, ok_bind, ofList_of_perm (Sorting.sortBy_perm _)]
  rfl

/-! ## Messages with a state -/

/-- The members of a message with a schema and a state. -/
def stateEntries (identity : LauncherIdentity) (schema state : String) : List (String × Value) :=
  identityEntries identity ++ [("schema", .text schema), ("state", .text state)]

theorem decodable_stateEntries (identity : LauncherIdentity) (schema state : String) :
    Decodable (levels + 3) (.map (stateEntries identity schema state)) := by
  refine @Decodable.members _ _
    ["execution_id", "policy_id", "cgroup_id", "schema", "state"] rfl (by decide) ?_
  refine List.forall_mem_append.mpr ⟨decodable_identityEntries _, ?_⟩
  simp only [List.forall_mem_cons, forall_mem_nil, and_true]
  exact ⟨.text _, .text _⟩

/-- What the decoders of such messages read. -/
theorem sorted_stateEntries (identity : LauncherIdentity) (schema state : String) :
    let map := sorted (stateEntries identity schema state)
    requireKeys map ["schema", "execution_id", "policy_id", "cgroup_id", "state"] = .ok () ∧
      field map "schema" = .ok (.text schema) ∧ requireState map state = .ok () ∧
      decodeIdentity map = .ok identity := by
  obtain ⟨hkeys, hfields⟩ := @sorted_members (stateEntries identity schema state)
    ["execution_id", "policy_id", "cgroup_id", "schema", "state"]
    ["schema", "execution_id", "policy_id", "cgroup_id", "state"] rfl (by decide)
  obtain ⟨hidentity, hfield⟩ := List.forall_mem_append.mp hfields
  simp only [List.forall_mem_cons, forall_mem_nil, and_true, canon_text] at hfield
  refine ⟨hkeys, hfield.1, ?_, decodeIdentity_of_field hidentity⟩
  simp only [requireState, hfield.2, ok_bind, asText, rejectIf_false (not_not.mpr rfl)]

/-! ## The round trip -/

theorem decodable_messageToValue (message : LauncherMessage) :
    Decodable maxNestingDepth (messageToValue message) := by
  cases message with
  | install request =>
    have hrange := request.inRange
    simp only [InstallFields.OutOfRange, not_or, not_lt] at hrange
    obtain ⟨-, -, -, -, -, -, -, -, -, -, harguments, henvironment, -, hfilesystem, -⟩ := hrange
    refine @Decodable.members _ _
      ["execution_id", "policy_id", "cgroup_id", "schema", "executable_id", "executable_fd",
        "working_directory_fd", "arguments", "environment", "filesystem", "seccomp_program",
        "close_file_descriptors_from"] rfl (by decide) ?_
    refine List.forall_mem_append.mpr ⟨decodable_identityEntries _, ?_⟩
    simp only [List.forall_mem_cons, forall_mem_nil, and_true]
    refine ⟨.text _, decodable_artifactValue _, .unsigned _, .unsigned _, .array ?_ ?_,
      decodable_environmentValue henvironment, .array ?_ ?_, .bytes _, .unsigned _⟩
    · rwa [List.length_map]
    · simp only [List.forall_mem_map]
      exact fun _ _ => .text _
    · rwa [List.length_map]
    · simp only [List.forall_mem_map]
      exact fun rule _ => decodable_filesystemRuleValue rule
  | boundaryInstalled installed | execRelease release => exact decodable_stateEntries _ _ _
  | failure failure =>
    refine @Decodable.members _ _
      ["execution_id", "policy_id", "cgroup_id", "schema", "stage", "error_code"] rfl
      (by decide) ?_
    refine List.forall_mem_append.mpr ⟨decodable_identityEntries _, ?_⟩
    simp only [List.forall_mem_cons, forall_mem_nil, and_true]
    exact ⟨.text _, .text _, .text _⟩

theorem valueToMessage_install (request : InstallRequest) :
    valueToMessage (messageToValue (.install request)).canon = .ok (.install request) := by
  have hrole : request.executableId.role = .runtimeExecutable :=
    not_not.mp (not_or.mp request.inRange).1
  obtain ⟨hkeys, hfields⟩ := @sorted_members (installEntries request)
    ["execution_id", "policy_id", "cgroup_id", "schema", "executable_id", "executable_fd",
      "working_directory_fd", "arguments", "environment", "filesystem", "seccomp_program",
      "close_file_descriptors_from"]
    ["schema", "execution_id", "policy_id", "cgroup_id", "executable_id", "executable_fd",
     "working_directory_fd", "arguments", "environment", "filesystem", "seccomp_program",
     "close_file_descriptors_from"] rfl (by decide)
  obtain ⟨hidentity, hfield⟩ := List.forall_mem_append.mp hfields
  simp only [List.forall_mem_cons, forall_mem_nil, and_true, canon_unsigned, canon_text,
    canon_bytes, canon_array, List.map_map] at hfield
  have harguments : collect asText (request.arguments.map (Value.canon ∘ .text)) =
      .ok request.arguments := collect_map_self fun _ _ => rfl
  have hfilesystem : collect decodeFilesystemRule
      (request.filesystem.map (Value.canon ∘ filesystemRuleValue)) = .ok request.filesystem :=
    collect_map_self fun rule _ => decodeFilesystemRule_value rule
  rw [messageToValue, canon_map, valueToMessage, asMap, ok_bind]
  simp only [ok_bind, hfield, asText, if_true, decodeInstall, hkeys,
    decodeIdentity_of_field hidentity, decodeArtifact_artifactValue hrole, asU32_toUInt64,
    asArray, harguments, asMap_environmentValue, decodeEnvironment_value, hfilesystem, asBytes]
  rw [InstallRequest.new_self request]
  rfl

theorem valueToMessage_boundaryInstalled (installed : BoundaryInstalled) :
    valueToMessage (messageToValue (.boundaryInstalled installed)).canon =
      .ok (.boundaryInstalled installed) := by
  obtain ⟨hkeys, hschema, hstate, hidentity⟩ :=
    sorted_stateEntries installed.identity boundarySchema "installed"
  have hinstall : ¬boundarySchema = installSchema := by decide
  rw [messageToValue, canon_map, valueToMessage, asMap, ok_bind, ← stateEntries]
  simp only [ok_bind, hschema, asText, if_neg hinstall, if_true, decodeBoundary, hkeys, hstate,
    hidentity]
  rfl

theorem valueToMessage_execRelease (release : ExecRelease) :
    valueToMessage (messageToValue (.execRelease release)).canon =
      .ok (.execRelease release) := by
  obtain ⟨hkeys, hschema, hstate, hidentity⟩ :=
    sorted_stateEntries release.identity releaseSchema "released"
  have hinstall : ¬releaseSchema = installSchema := by decide
  have hboundary : ¬releaseSchema = boundarySchema := by decide
  rw [messageToValue, canon_map, valueToMessage, asMap, ok_bind, ← stateEntries]
  simp only [ok_bind, hschema, asText, if_neg hinstall, if_neg hboundary, if_true, decodeRelease,
    hkeys, hstate, hidentity]
  rfl

theorem valueToMessage_failure (failure : LauncherFailure) :
    valueToMessage (messageToValue (.failure failure)).canon = .ok (.failure failure) := by
  obtain ⟨hkeys, hfields⟩ := @sorted_members
    (identityEntries failure.identity ++
      [("schema", .text failureSchema), ("stage", .text failure.stage.asStr),
       ("error_code", .text failure.errorCode)])
    ["execution_id", "policy_id", "cgroup_id", "schema", "stage", "error_code"]
    ["schema", "execution_id", "policy_id", "cgroup_id", "stage", "error_code"] rfl (by decide)
  obtain ⟨hidentity, hfield⟩ := List.forall_mem_append.mp hfields
  simp only [List.forall_mem_cons, forall_mem_nil, and_true, canon_text] at hfield
  have hinstall : ¬failureSchema = installSchema := by decide
  have hboundary : ¬failureSchema = boundarySchema := by decide
  have hrelease : ¬failureSchema = releaseSchema := by decide
  rw [messageToValue, canon_map, valueToMessage, asMap, ok_bind]
  simp only [ok_bind, hfield, asText, if_neg hinstall, if_neg hboundary, if_neg hrelease,
    if_true, decodeFailure, hkeys, decodeIdentity_of_field hidentity,
    LauncherStage.parse_asStr, LauncherFailure.new_self]
  rfl

/-- A message is found again in its canonical value. -/
theorem valueToMessage_canon (message : LauncherMessage) :
    valueToMessage (messageToValue message).canon = .ok message := by
  cases message with
  | install request => exact valueToMessage_install request
  | boundaryInstalled installed => exact valueToMessage_boundaryInstalled installed
  | execRelease release => exact valueToMessage_execRelease release
  | failure failure => exact valueToMessage_failure failure

theorem decode_encode {message : LauncherMessage} (h : encodeLauncherMessage message = .ok output) :
    decodeLauncherMessage output = .ok message := by
  obtain ⟨houtput, hlength⟩ := encodeLauncherMessage_eq_ok h
  have hread := reads_value (decodable_messageToValue message).canon
  rw [← houtput] at hread
  have hsome : output ≠ [] := by
    rw [houtput]
    exact List.ne_nil_of_length_pos (serialize_pos _)
  have hfits : output.length < 2 ^ 64 := lt_of_le_of_lt hlength (by decide)
  have hvalue := hread output 0 hfits (Nat.zero_le _) (by rw [List.drop_zero])
  rw [Nat.zero_add] at hvalue
  simp only [decodeLauncherMessage, rejectIf_false hsome, rejectIf_false (not_lt.mpr hlength),
    ok_bind, hvalue, valueToMessage_canon, h, rejectIf_false (not_not.mpr rfl)]
  rfl

/-- The decoder inverts the encoder, and a message has one accepted wire form. -/
theorem encodeLauncherMessage_iff (message : LauncherMessage) (bytes : List UInt8) :
    encodeLauncherMessage message = .ok bytes ↔ decodeLauncherMessage bytes = .ok message := by
  refine ⟨decode_encode, fun h => ?_⟩
  simp only [decodeLauncherMessage, bind_eq_ok, rejectIf_eq_ok, pure_eq_ok, exists_const,
    ne_eq, not_not] at h
  obtain ⟨-, -, value, -, -, decoded, -, canonical, hcanonical, rfl, rfl⟩ := h
  exact hcanonical

example : (encodeLauncherMessage (.execRelease ⟨sampleIdentity⟩)).isOk = true := by decide +kernel

end ProofboundRuntime.Launcher
