import ProofboundRuntime.Linux.Cgroup

/-!
# Counters of a cgroup

What `parse_named_counters` accepts, and `ResourceSnapshot::checked_delta`.  The loop over the
lines keeps one slot for each name; after some lines the slots are a function of the entries
read so far (`slots`), so what is accepted is a list of entries, one a line, in which each
required name occurs once and each ignored one at most once (`parseNamedCounters_eq_ok`).
-/

namespace ProofboundRuntime.Linux.Cgroup

open Result

/-! ## One counter -/

/-- `parse_canonical_u64` reads the spelling of a number without leading zeros. -/
theorem parseCanonicalU64_eq_ok {text : String} {value : UInt64} :
    parseCanonicalU64 text = .ok value ↔ text = Decimal.text value.toNat := by
  rw [parseCanonicalU64]
  constructor
  · intro h
    split at h
    next => cases h
    next hform =>
      split at h
      next hlt =>
        push Not at hform
        cases h
        rw [UInt64.toNat_ofNat_of_lt' hlt, ← Utf8.bytes_inj,
          Decimal.bytes_text_value hform.1 (List.all_eq_true.mp hform.2.2) hform.2.1]
      next => cases h
  · rintro rfl
    have hlt : Decimal.value (Utf8.bytes (Decimal.text value.toNat)) < 2 ^ 64 := by
      rw [Decimal.value_text]
      exact value.toNat_lt
    rw [if_neg, if_pos hlt, Decimal.value_text, UInt64.ofNat_toNat]
    rintro (hnil | ⟨hlength, hhead⟩ | hdigits)
    · exact Decimal.text_ne_nil _ hnil
    · rw [Decimal.eq_zero_of_head _ hhead] at hlength
      revert hlength
      decide
    · exact hdigits (List.all_eq_true.mpr (Decimal.isDigit_text _))

/-- The names of the counters in a file. -/
structure CounterNames where
  required : List String
  ignored : List String
  nodup : (required ++ ignored).Nodup

/-- The names in `memory.swap.events`. -/
def swapNames : CounterNames := ⟨["max", "fail"], ["high"], by decide⟩

/-- The line is one name and one canonical decimal `u64` with white space between them. -/
def CounterLine (line : String) (entry : String × UInt64) : Prop :=
  Words.IsPair line entry.1 (Decimal.text entry.2.toNat)

variable {entry : String × UInt64} {line : String}

theorem counterLine_iff :
    CounterLine line entry ↔
      ∃ text, Words.words line = [entry.1, text] ∧ parseCanonicalU64 text = .ok entry.2 := by
  simp only [parseCanonicalU64_eq_ok, exists_eq_right, Words.words_eq_pair]
  exact Iff.rfl

/-! ## The slots -/

section Slots

variable {α β : Type} [DecidableEq α] {l : List α} {a : α} {index : Nat} {f : α → β}

/-- The slot of a name, among the slots of names that are all different. -/
theorem getD_map_of_idxOf? (h : l.idxOf? a = some index) (default : β) :
    (l.map f).getD index default = f a := by
  obtain ⟨hlt, ha, -⟩ := List.idxOf?_eq_some_iff.mp h
  rw [List.getD_eq_getElem?_getD, List.getElem?_map, List.getElem?_eq_getElem hlt, ha]
  rfl

theorem set_map_of_idxOf? (hnodup : l.Nodup) (h : l.idxOf? a = some index) (value : β) :
    (l.map f).set index value = l.map (Function.update f a value) := by
  have hmem : a ∈ l := List.isSome_idxOf?.mp (by rw [h]; rfl)
  have hindex : l.idxOf a = index := by
    rw [List.idxOf_eq_getD_idxOf?, h]
    rfl
  rw [hnodup.map_update, if_pos hmem, hindex]

theorem map_update_of_notMem (hmem : a ∉ l) (value : β) :
    l.map (Function.update f a value) = l.map f := by
  refine List.map_congr_left fun b hb => Function.update_of_ne ?_ _ _
  rintro rfl
  exact hmem hb

end Slots

/-- The counters and the ignored names seen after some entries. -/
def slots (names : CounterNames) (entries : List (String × UInt64)) :
    List (Option UInt64) × List Bool :=
  (names.required.map fun name => entries.lookup name,
    names.ignored.map fun name => (entries.lookup name).isSome)

theorem lookup_concat {entries : List (String × UInt64)} (h : entries.lookup entry.1 = none) :
    (fun name => (entries ++ [entry]).lookup name) =
      Function.update (fun name => entries.lookup name) entry.1 (some entry.2) := by
  funext name
  rw [List.lookup_append]
  by_cases hname : name = entry.1
  · rw [hname, Function.update_self, h, Option.none_or, List.lookup_cons_self]
  · have hne : (name == entry.1) = false := beq_eq_false_iff_ne.mpr hname
    rw [Function.update_of_ne hname, List.lookup_cons, hne]
    exact Option.or_none

theorem isSome_lookup_concat {entries : List (String × UInt64)}
    (h : entries.lookup entry.1 = none) :
    (fun name => ((entries ++ [entry]).lookup name).isSome) =
      Function.update (fun name => (entries.lookup name).isSome) entry.1 true := by
  funext name
  rw [show (entries ++ [entry]).lookup name = _ from congrFun (lookup_concat h) name]
  by_cases hname : name = entry.1
  · rw [hname, Function.update_self, Function.update_self]
    rfl
  · rw [Function.update_of_ne hname, Function.update_of_ne hname]

/-! ## The loop -/

variable {names : CounterNames} {entries : List (String × UInt64)}

theorem slots_concat_required {index : Nat} (hindex : names.required.idxOf? entry.1 = some index)
    (h : entries.lookup entry.1 = none) :
    slots names (entries ++ [entry]) =
      ((slots names entries).1.set index (some entry.2), (slots names entries).2) := by
  have hnodup := List.nodup_append.mp names.nodup
  have hmem : entry.1 ∈ names.required := List.isSome_idxOf?.mp (by rw [hindex]; rfl)
  have hnot : entry.1 ∉ names.ignored := fun h' => hnodup.2.2 _ hmem _ h' rfl
  rw [slots, lookup_concat h, isSome_lookup_concat h, map_update_of_notMem hnot, slots,
    set_map_of_idxOf? hnodup.1 hindex]

theorem slots_concat_ignored {index : Nat} (hrequired : entry.1 ∉ names.required)
    (hindex : names.ignored.idxOf? entry.1 = some index) (h : entries.lookup entry.1 = none) :
    slots names (entries ++ [entry]) =
      ((slots names entries).1, (slots names entries).2.set index true) := by
  have hnodup := List.nodup_append.mp names.nodup
  rw [slots, lookup_concat h, isSome_lookup_concat h, map_update_of_notMem hrequired, slots,
    set_map_of_idxOf? hnodup.2.1 hindex]

/-- The entry can come next. -/
def Fresh (names : CounterNames) (entries : List (String × UInt64)) (entry : String × UInt64) :
    Prop :=
  entry.1 ∈ names.required ++ names.ignored ∧ entries.lookup entry.1 = none

/-- One line adds one entry with a name that is known and new. -/
theorem readCounter_eq_ok {seen : List (Option UInt64) × List Bool} :
    readCounter names.required names.ignored (slots names entries) line = .ok seen ↔
      ∃ entry, CounterLine line entry ∧ Fresh names entries entry ∧
        slots names (entries ++ [entry]) = seen := by
  simp only [counterLine_iff]
  rw [readCounter]
  split
  next name text hwords =>
    have hentry : (∃ entry : String × UInt64,
        (∃ text, Words.words line = [entry.1, text] ∧ parseCanonicalU64 text = .ok entry.2) ∧
          Fresh names entries entry ∧ slots names (entries ++ [entry]) = seen) ↔
        ∃ counter, parseCanonicalU64 text = .ok counter ∧ Fresh names entries (name, counter) ∧
          slots names (entries ++ [(name, counter)]) = seen := by
      rw [hwords]
      constructor
      · rintro ⟨⟨name, counter⟩, ⟨text, heq, hparse⟩, hfresh⟩
        cases heq
        exact ⟨counter, hparse, hfresh⟩
      · rintro ⟨counter, hparse, hfresh⟩
        exact ⟨(name, counter), ⟨text, rfl, hparse⟩, hfresh⟩
    rw [hentry]
    cases hindex : names.required.idxOf? name with
    | some index =>
      have hmem : name ∈ names.required := List.isSome_idxOf?.mp (by rw [hindex]; rfl)
      have hslot : (slots names entries).1.getD index none = entries.lookup name :=
        getD_map_of_idxOf? hindex none
      dsimp only
      rw [check_bind_eq_ok, rejectIf_eq_ok, hslot, Option.not_isSome_iff_eq_none]
      simp only [bind_eq_ok, pure_eq_ok, Fresh, List.mem_append, hmem, true_or, true_and]
      constructor
      · rintro ⟨hnone, counter, hparse, heq⟩
        exact ⟨counter, hparse, hnone, (slots_concat_required hindex hnone).trans heq⟩
      · rintro ⟨counter, hparse, hnone, heq⟩
        exact ⟨hnone, counter, hparse, (slots_concat_required hindex hnone).symm.trans heq⟩
    | none =>
      have hrequired : name ∉ names.required := List.idxOf?_eq_none_iff.mp hindex
      cases hindex' : names.ignored.idxOf? name with
      | some index =>
        have hmem : name ∈ names.ignored := List.isSome_idxOf?.mp (by rw [hindex']; rfl)
        have hslot : (slots names entries).2.getD index false = (entries.lookup name).isSome :=
          getD_map_of_idxOf? hindex' false
        dsimp only
        rw [check_bind_eq_ok, rejectIf_eq_ok, hslot, Option.not_isSome_iff_eq_none]
        simp only [bind_eq_ok, pure_eq_ok, Fresh, List.mem_append, hmem, or_true, true_and]
        constructor
        · rintro ⟨hnone, counter, hparse, heq⟩
          exact ⟨counter, hparse, hnone, (slots_concat_ignored hrequired hindex' hnone).trans heq⟩
        · rintro ⟨counter, hparse, hnone, heq⟩
          exact ⟨hnone, counter, hparse,
            (slots_concat_ignored hrequired hindex' hnone).symm.trans heq⟩
      | none =>
        have hignored : name ∉ names.ignored := List.idxOf?_eq_none_iff.mp hindex'
        simp [Fresh, hrequired, hignored]
  next hwords =>
    constructor
    · rintro ⟨⟩
    · rintro ⟨entry, ⟨text, heq, -⟩, -⟩
      exact absurd heq (hwords _ _)

/-- The entries can come next, one after the other. -/
def Adds (names : CounterNames) (entries added : List (String × UInt64)) : Prop :=
  (∀ entry ∈ added, Fresh names entries entry) ∧ (added.map Prod.fst).Nodup

theorem fresh_concat {entry entry' : String × UInt64} :
    Fresh names (entries ++ [entry]) entry' ↔ Fresh names entries entry' ∧ entry'.1 ≠ entry.1 := by
  rw [Fresh, Fresh, List.lookup_append, Option.or_eq_none_iff, and_assoc, List.lookup_eq_none_iff,
    List.lookup_eq_none_iff]
  simp

theorem adds_cons {added : List (String × UInt64)} :
    Adds names entries (entry :: added) ↔
      Fresh names entries entry ∧ Adds names (entries ++ [entry]) added := by
  simp only [Adds, List.forall_mem_cons, fresh_concat, List.map_cons, List.nodup_cons,
    List.mem_map, not_exists, not_and]
  constructor
  · rintro ⟨⟨hfresh, hadded⟩, hnot, hnodup⟩
    exact ⟨hfresh, fun entry' h => ⟨hadded entry' h, hnot entry' h⟩, hnodup⟩
  · rintro ⟨hfresh, hadded, hnodup⟩
    exact ⟨⟨hfresh, fun entry' h => (hadded entry' h).1⟩, fun entry' h => (hadded entry' h).2,
      hnodup⟩

/-- The lines add one entry each. -/
theorem foldlM_readCounter_eq_ok {lines : List String}
    {seen : List (Option UInt64) × List Bool} :
    lines.foldlM (readCounter names.required names.ignored) (slots names entries) = .ok seen ↔
      ∃ added, List.Forall₂ CounterLine lines added ∧ Adds names entries added ∧
        slots names (entries ++ added) = seen := by
  induction lines generalizing entries with
  | nil =>
    rw [List.foldlM_nil, pure_eq_ok]
    constructor
    · intro h
      exact ⟨[], .nil, ⟨by simp, List.nodup_nil⟩, by rwa [List.append_nil]⟩
    · rintro ⟨added, hlines, -, h⟩
      cases hlines
      rwa [List.append_nil] at h
  | cons line lines ih =>
    rw [List.foldlM_cons, bind_eq_ok]
    simp only [readCounter_eq_ok]
    constructor
    · rintro ⟨_, ⟨entry, hline, hfresh, rfl⟩, hrest⟩
      obtain ⟨added, hlines, hadds, h⟩ := ih.mp hrest
      refine ⟨entry :: added, .cons hline hlines, adds_cons.mpr ⟨hfresh, hadds⟩, ?_⟩
      rwa [List.append_assoc] at h
    · rintro ⟨_, hlines, hadds, h⟩
      cases hlines with
      | @cons _ entry _ added hline hlines =>
        obtain ⟨hfresh, hadds⟩ := adds_cons.mp hadds
        refine ⟨_, ⟨entry, hline, hfresh, rfl⟩, ih.mpr ⟨added, hlines, hadds, ?_⟩⟩
        rwa [List.append_assoc]

/-! ## A file -/

/-- Each required name occurs once, each ignored name at most once, and no other name occurs. -/
structure Counters (names : CounterNames) (entries : List (String × UInt64)) : Prop where
  required : ∀ name ∈ names.required, (entries.map Prod.fst).count name = 1
  ignored : ∀ name ∈ names.ignored, (entries.map Prod.fst).count name ≤ 1
  known : ∀ entry ∈ entries, entry.1 ∈ names.required ++ names.ignored

theorem isSome_lookup_iff {name : String} :
    (entries.lookup name).isSome ↔ name ∈ entries.map Prod.fst := by
  rw [List.lookup_isSome_iff, List.mem_map]
  exact exists_congr fun entry => and_congr_right fun _ => beq_iff_eq.trans eq_comm

theorem Counters.nodup (h : Counters names entries) : (entries.map Prod.fst).Nodup := by
  rw [List.nodup_iff_count_le_one]
  intro name
  by_cases hname : name ∈ entries.map Prod.fst
  · obtain ⟨entry, hentry, rfl⟩ := List.mem_map.mp hname
    rcases List.mem_append.mp (h.known entry hentry) with hrequired | hignored
    · exact (h.required _ hrequired).le
    · exact h.ignored _ hignored
  · rw [List.count_eq_zero_of_not_mem hname]
    exact Nat.zero_le 1

theorem counters_iff : Counters names entries ↔
    Adds names [] entries ∧ ∀ name ∈ names.required, (entries.lookup name).isSome := by
  simp only [isSome_lookup_iff]
  constructor
  · intro h
    refine ⟨⟨fun entry hentry => ⟨h.known entry hentry, rfl⟩, h.nodup⟩, fun name hname => ?_⟩
    rw [← List.count_pos_iff, h.required name hname]
    exact Nat.one_pos
  · rintro ⟨⟨hfresh, hnodup⟩, hrequired⟩
    refine ⟨fun name hname => ?_, fun name _ => ?_, fun entry hentry => (hfresh entry hentry).1⟩
    · exact List.count_eq_one_of_mem hnodup (hrequired name hname)
    · exact List.nodup_iff_count_le_one.mp hnodup name

theorem Counters.lookup_eq_some (h : Counters names entries) {name : String} {value : UInt64} :
    entries.lookup name = some value ↔ (name, value) ∈ entries := by
  constructor
  · intro hlookup
    obtain ⟨before, after, rfl, -⟩ := List.lookup_eq_some_iff.mp hlookup
    simp
  · intro hmem
    obtain ⟨before, after, rfl⟩ := List.append_of_mem hmem
    refine List.lookup_eq_some_iff.mpr ⟨before, after, rfl, fun entry hentry => ?_⟩
    -- another entry of that name before it would make two of them
    have hnodup := h.nodup
    rw [List.map_append, List.nodup_append] at hnodup
    have hne := hnodup.2.2 entry.1 (List.mem_map_of_mem hentry) name (by simp)
    exact bne_iff_ne.mpr hne.symm

/-- The text lists the entries, one a line. -/
def Lists (names : CounterNames) (input : String) (entries : List (String × UInt64)) : Prop :=
  List.Forall₂ CounterLine (Words.lines input) entries ∧ Counters names entries

/-- The values are those of the required names, in their order. -/
def Values (names : CounterNames) (entries : List (String × UInt64)) (values : List UInt64) :
    Prop :=
  List.Forall₂ (fun name value => (name, value) ∈ entries) names.required values

theorem filterMap_eq_iff {α β : Type} {f : α → Option β} {as : List α}
    (h : ∀ a ∈ as, (f a).isSome) {bs : List β} :
    as.filterMap f = bs ↔ List.Forall₂ (fun a b => f a = some b) as bs := by
  induction as generalizing bs with
  | nil => simp [eq_comm]
  | cons a as ih =>
    obtain ⟨hsome, hrest⟩ := List.forall_mem_cons.mp h
    obtain ⟨b, hb⟩ := Option.isSome_iff_exists.mp hsome
    rw [List.filterMap_cons_some hb]
    constructor
    · rintro rfl
      exact .cons hb ((ih hrest).mp rfl)
    · intro hall
      cases hall with
      | cons hhead htail =>
        rw [hb, Option.some_inj] at hhead
        rw [hhead, (ih hrest).mpr htail]

theorem any_isNone_slots : ¬ (slots names entries).1.any Option.isNone = true ↔
    ∀ name ∈ names.required, (entries.lookup name).isSome := by
  rw [slots, List.any_map, List.any_eq_true]
  push Not
  refine forall₂_congr fun name _ => ?_
  rw [Function.comp_apply, Option.ne_none_iff_isSome.symm, ne_eq, Option.isNone_iff_eq_none]

variable {values : List UInt64}

theorem parseNamedCounters_eq_ok {input : String} :
    parseNamedCounters names.required names.ignored input = .ok values ↔
      ∃ entries, Lists names input entries ∧ Values names entries values := by
  have hstart : (names.required.map (fun _ => none), names.ignored.map fun _ => false) =
      slots names [] := rfl
  rw [parseNamedCounters, hstart, bind_eq_ok]
  simp only [foldlM_readCounter_eq_ok, List.nil_append]
  constructor
  · rintro ⟨_, ⟨entries, hlines, hadds, rfl⟩, h⟩
    obtain ⟨hsome, h⟩ := check_bind_eq_ok.mp h
    have hrequired := any_isNone_slots.mp (rejectIf_eq_ok.mp hsome)
    have hcounters := counters_iff.mpr ⟨hadds, hrequired⟩
    refine ⟨entries, ⟨hlines, hcounters⟩, ?_⟩
    have hvalues := pure_eq_ok.mp h
    rw [slots, List.filterMap_map, Function.id_comp, filterMap_eq_iff hrequired] at hvalues
    exact hvalues.imp fun name value => hcounters.lookup_eq_some.mp
  · rintro ⟨entries, ⟨hlines, hcounters⟩, hvalues⟩
    obtain ⟨hadds, hrequired⟩ := counters_iff.mp hcounters
    refine ⟨_, ⟨entries, hlines, hadds, rfl⟩, check_bind_eq_ok.mpr ⟨?_, pure_eq_ok.mpr ?_⟩⟩
    · exact rejectIf_eq_ok.mpr (any_isNone_slots.mpr hrequired)
    · rw [slots, List.filterMap_map, Function.id_comp]
      refine (filterMap_eq_iff hrequired).mpr ?_
      exact hvalues.imp fun name value => hcounters.lookup_eq_some.mpr

/-! ## The order of the lines -/

theorem counterLine_unique {entry entry' : String × UInt64} (h : CounterLine line entry)
    (h' : CounterLine line entry') : entry = entry' := by
  obtain ⟨text, hwords, hparse⟩ := counterLine_iff.mp h
  obtain ⟨text', hwords', hparse'⟩ := counterLine_iff.mp h'
  rw [hwords] at hwords'
  simp only [List.cons.injEq] at hwords'
  obtain ⟨hname, htext, -⟩ := hwords'
  rw [htext, hparse'] at hparse
  exact Prod.ext hname (Except.ok.inj hparse).symm

theorem Lists.unique {input : String} {entries entries' : List (String × UInt64)}
    (h : Lists names input entries) (h' : Lists names input entries') : entries = entries' := by
  have hunique : Relator.RightUnique CounterLine := fun _ _ _ => counterLine_unique
  exact List.right_unique_forall₂' hunique h.1 h'.1

theorem Counters.perm {entries' : List (String × UInt64)} (hperm : entries.Perm entries')
    (h : Counters names entries) : Counters names entries' := by
  have hcount : ∀ name, (entries'.map Prod.fst).count name = (entries.map Prod.fst).count name :=
    fun name => ((hperm.map Prod.fst).count_eq name).symm
  refine ⟨fun name hname => ?_, fun name hname => ?_, fun entry hentry => ?_⟩
  · rw [hcount]
    exact h.required name hname
  · rw [hcount]
    exact h.ignored name hname
  · exact h.known entry (hperm.mem_iff.mpr hentry)

theorem Values.perm {entries' : List (String × UInt64)} (hperm : entries.Perm entries')
    (h : Values names entries values) : Values names entries' values :=
  h.imp fun _ _ => hperm.mem_iff.mp

/-- What is accepted, and with which values, does not depend on the order of the lines. -/
theorem parseNamedCounters_ok_of_perm {input input' : String}
    (hperm : (Words.lines input).Perm (Words.lines input'))
    (h : parseNamedCounters names.required names.ignored input = .ok values) :
    parseNamedCounters names.required names.ignored input' = .ok values := by
  obtain ⟨entries, ⟨hlines, hcounters⟩, hvalues⟩ := parseNamedCounters_eq_ok.mp h
  obtain ⟨entries', hlines', hentries⟩ := List.perm_comp_forall₂ hperm.symm hlines
  exact parseNamedCounters_eq_ok.mpr
    ⟨entries', ⟨hlines', hcounters.perm hentries.symm⟩, hvalues.perm hentries.symm⟩

theorem readCounter_fails (required ignored : List String)
    (seen : List (Option UInt64) × List Bool) (line : String) :
    FailsOnlyWith .observationInvalid (readCounter required ignored seen line) := by
  have hparse : ∀ text, FailsOnlyWith .observationInvalid (parseCanonicalU64 text) := by
    intro text
    rw [parseCanonicalU64]
    split
    · exact .throws
    · split
      · exact .ok _
      · exact .throws
  rw [readCounter]
  split
  · split
    · exact (FailsOnlyWith.rejectIf _).bind fun _ => (hparse _).bind fun _ => .ok _
    · split
      · exact (FailsOnlyWith.rejectIf _).bind fun _ => (hparse _).bind fun _ => .ok _
      · exact .throws
  · exact .throws

theorem parseNamedCounters_fails (required ignored : List String) (input : String) :
    FailsOnlyWith .observationInvalid (parseNamedCounters required ignored input) := by
  rw [parseNamedCounters]
  refine (FailsOnlyWith.foldlM (readCounter_fails required ignored) _ _).bind fun seen => ?_
  exact (FailsOnlyWith.rejectIf _).bind fun _ => .ok _

theorem parseNamedCounters_perm {input input' : String}
    (hperm : (Words.lines input).Perm (Words.lines input')) :
    parseNamedCounters names.required names.ignored input =
      parseNamedCounters names.required names.ignored input' :=
  FailsOnlyWith.eq_of_ok_iff (parseNamedCounters_fails _ _ _) (parseNamedCounters_fails _ _ _)
    fun _ => ⟨parseNamedCounters_ok_of_perm hperm, parseNamedCounters_ok_of_perm hperm.symm⟩

/-! ## Differences of snapshots -/

/-- `u64::checked_sub`. -/
def checkedSub (value initial : UInt64) : Option UInt64 :=
  if initial ≤ value then some (value - initial) else none

def MemoryEvents.checkedSub (events initial : MemoryEvents) : Option MemoryEvents := do
  let low ← Cgroup.checkedSub events.low initial.low
  let high ← Cgroup.checkedSub events.high initial.high
  let max ← Cgroup.checkedSub events.max initial.max
  let oom ← Cgroup.checkedSub events.oom initial.oom
  let oomKill ← Cgroup.checkedSub events.oomKill initial.oomKill
  let oomGroupKill ← Cgroup.checkedSub events.oomGroupKill initial.oomGroupKill
  pure ⟨low, high, max, oom, oomKill, oomGroupKill⟩

def SwapEvents.checkedSub (events initial : SwapEvents) : Option SwapEvents := do
  let max ← Cgroup.checkedSub events.max initial.max
  let fail ← Cgroup.checkedSub events.fail initial.fail
  pure ⟨max, fail⟩

structure TerminalResources where
  configured : ConfiguredResources
  memoryPeakBytes : UInt64
  swapPeakBytes : UInt64
  memoryEvents : MemoryEvents
  swapEvents : SwapEvents
deriving DecidableEq

def ResourceSnapshot.checkedDelta (snapshot initial : ResourceSnapshot)
    (configured : ConfiguredResources) : Except CgroupError TerminalResources := do
  rejectIf (snapshot.memoryPeakBytes < initial.memoryPeakBytes ∨
    snapshot.swapPeakBytes < initial.swapPeakBytes) .observationRegression
  let memoryEvents ← okOr (snapshot.memoryEvents.checkedSub initial.memoryEvents)
    .observationRegression
  let swapEvents ← okOr (snapshot.swapEvents.checkedSub initial.swapEvents) .observationRegression
  pure ⟨configured, snapshot.memoryPeakBytes, snapshot.swapPeakBytes, memoryEvents, swapEvents⟩

/-- The counters of `memory.events`. -/
def MemoryEvents.counters (events : MemoryEvents) : List UInt64 :=
  [events.low, events.high, events.max, events.oom, events.oomKill, events.oomGroupKill]

/-- The counters of `memory.swap.events`. -/
def SwapEvents.counters (events : SwapEvents) : List UInt64 := [events.max, events.fail]

/-- No peak and no counter decreased. -/
structure Monotonic (initial final : ResourceSnapshot) : Prop where
  memoryPeak : initial.memoryPeakBytes ≤ final.memoryPeakBytes
  swapPeak : initial.swapPeakBytes ≤ final.swapPeakBytes
  memory : List.Forall₂ (· ≤ ·) initial.memoryEvents.counters final.memoryEvents.counters
  swap : List.Forall₂ (· ≤ ·) initial.swapEvents.counters final.swapEvents.counters

/-- The deltas are what was counted between the two lists of counters. -/
def Deltas (initial final deltas : List UInt64) : Prop :=
  List.Forall₂ (fun delta (counts : UInt64 × UInt64) =>
    counts.1.toNat + delta.toNat = counts.2.toNat) deltas (initial.zip final)

/-- The final peaks and what was counted in between. -/
structure IsDelta (initial final : ResourceSnapshot) (configured : ConfiguredResources)
    (resources : TerminalResources) : Prop where
  configured : resources.configured = configured
  memoryPeak : resources.memoryPeakBytes = final.memoryPeakBytes
  swapPeak : resources.swapPeakBytes = final.swapPeakBytes
  memory : Deltas initial.memoryEvents.counters final.memoryEvents.counters
    resources.memoryEvents.counters
  swap : Deltas initial.swapEvents.counters final.swapEvents.counters
    resources.swapEvents.counters

theorem checkedSub_eq_some {value initial delta : UInt64} :
    checkedSub value initial = some delta ↔ initial.toNat + delta.toNat = value.toNat := by
  rw [checkedSub]
  by_cases hle : initial ≤ value
  · rw [if_pos hle, Option.some_inj, ← UInt64.toNat_inj, UInt64.toNat_sub_of_le _ _ hle]
    have := UInt64.le_iff_toNat_le.mp hle
    omega
  · rw [if_neg hle]
    have := UInt64.le_iff_toNat_le.not.mp hle
    constructor
    · rintro ⟨⟩
    · intro h
      omega

theorem MemoryEvents.checkedSub_eq_some {events initial deltas : MemoryEvents} :
    events.checkedSub initial = some deltas ↔
      Deltas initial.counters events.counters deltas.counters := by
  cases deltas
  simp [MemoryEvents.checkedSub, Option.bind_eq_some_iff, Cgroup.checkedSub_eq_some, Deltas,
    MemoryEvents.counters]

theorem SwapEvents.checkedSub_eq_some {events initial deltas : SwapEvents} :
    events.checkedSub initial = some deltas ↔
      Deltas initial.counters events.counters deltas.counters := by
  cases deltas
  simp [SwapEvents.checkedSub, Option.bind_eq_some_iff, Cgroup.checkedSub_eq_some, Deltas,
    SwapEvents.counters]

theorem Deltas.le {initial final deltas : List UInt64} (hlength : initial.length = final.length)
    (h : Deltas initial final deltas) : List.Forall₂ (· ≤ ·) initial final := by
  induction initial generalizing final deltas with
  | nil =>
    cases final with
    | nil => exact .nil
    | cons => cases hlength
  | cons count initial ih =>
    cases final with
    | nil => cases hlength
    | cons count' final =>
      cases h with
      | cons hcount hrest =>
        refine .cons (UInt64.le_iff_toNat_le.mpr ?_) (ih (Nat.succ.inj hlength) hrest)
        dsimp only at hcount
        omega

theorem deltas_sub {initial final : List UInt64} (h : List.Forall₂ (· ≤ ·) initial final) :
    Deltas initial final (List.zipWith (· - ·) final initial) := by
  induction h with
  | nil => exact .nil
  | @cons count count' _ _ hle hrest ih =>
    refine .cons ?_ ih
    show count.toNat + (count' - count).toNat = count'.toNat
    rw [UInt64.toNat_sub_of_le _ _ hle]
    have := UInt64.le_iff_toNat_le.mp hle
    omega

/-- The delta is returned when no peak decreased and the counters have differences. -/
theorem checkedDelta_eq_ok {snapshot initial : ResourceSnapshot}
    {configured : ConfiguredResources} {resources : TerminalResources} :
    snapshot.checkedDelta initial configured = .ok resources ↔
      Monotonic initial snapshot ∧ IsDelta initial snapshot configured resources := by
  rw [ResourceSnapshot.checkedDelta, check_bind_eq_ok, rejectIf_eq_ok, not_or, UInt64.not_lt,
    UInt64.not_lt]
  simp only [bind_eq_ok, okOr_eq_ok, MemoryEvents.checkedSub_eq_some,
    SwapEvents.checkedSub_eq_some, pure_eq_ok]
  constructor
  · rintro ⟨hpeaks, memory, hmemory, swap, hswap, rfl⟩
    exact ⟨⟨hpeaks.1, hpeaks.2, hmemory.le rfl, hswap.le rfl⟩, rfl, rfl, rfl, hmemory, hswap⟩
  · rintro ⟨hmonotonic, rfl, hmemoryPeak, hswapPeak, hmemory, hswap⟩
    refine ⟨⟨hmonotonic.memoryPeak, hmonotonic.swapPeak⟩, _, hmemory, _, hswap, ?_⟩
    rw [← hmemoryPeak, ← hswapPeak]

theorem exists_checkedDelta {snapshot initial : ResourceSnapshot}
    (configured : ConfiguredResources) (h : Monotonic initial snapshot) :
    ∃ resources, snapshot.checkedDelta initial configured = .ok resources := by
  have hmemory := deltas_sub h.memory
  have hswap := deltas_sub h.swap
  exact ⟨⟨configured, _, _, ⟨_, _, _, _, _, _⟩, ⟨_, _⟩⟩,
    checkedDelta_eq_ok.mpr ⟨h, rfl, rfl, rfl, hmemory, hswap⟩⟩

theorem checkedDelta_fails (snapshot initial : ResourceSnapshot)
    (configured : ConfiguredResources) :
    FailsOnlyWith .observationRegression (snapshot.checkedDelta initial configured) := by
  have hokOr : ∀ {α : Type} (value : Option α),
      FailsOnlyWith CgroupError.observationRegression (okOr value .observationRegression) := by
    intro α value
    cases value with
    | none => exact .throws
    | some a => exact .ok a
  exact (FailsOnlyWith.rejectIf _).bind fun _ => (hokOr _).bind fun _ => (hokOr _).bind fun _ =>
    .ok _

/-- The lines of a counter file are read exactly and in any order, and the delta of two
snapshots is what was counted between them. -/
theorem counters_exact :
    (∀ (names : CounterNames) (input : String),
      ((∃ values, parseNamedCounters names.required names.ignored input = .ok values) ↔
        ∃ entries, Lists names input entries) ∧
      ∀ values entries, parseNamedCounters names.required names.ignored input = .ok values →
        Lists names input entries → Values names entries values) ∧
    (∀ (names : CounterNames) (input input' : String),
      (Words.lines input).Perm (Words.lines input') →
      parseNamedCounters names.required names.ignored input =
        parseNamedCounters names.required names.ignored input') ∧
    ∀ (final initial : ResourceSnapshot) (configured : ConfiguredResources),
      (¬ Monotonic initial final ∧
        final.checkedDelta initial configured = .error .observationRegression) ∨
      (Monotonic initial final ∧ ∃ resources,
        final.checkedDelta initial configured = .ok resources ∧
          IsDelta initial final configured resources) := by
  refine ⟨fun names input => ⟨⟨?_, ?_⟩, ?_⟩, fun names input input' hperm => ?_,
    fun final initial configured => ?_⟩
  · rintro ⟨values, h⟩
    obtain ⟨entries, hlists, -⟩ := parseNamedCounters_eq_ok.mp h
    exact ⟨entries, hlists⟩
  · rintro ⟨entries, hlists⟩
    have hrequired := (counters_iff.mp hlists.2).2
    refine ⟨names.required.filterMap fun name => entries.lookup name,
      parseNamedCounters_eq_ok.mpr ⟨entries, hlists, ?_⟩⟩
    exact ((filterMap_eq_iff hrequired).mp rfl).imp fun _ _ => hlists.2.lookup_eq_some.mp
  · intro values entries h hlists
    obtain ⟨entries', hlists', hvalues⟩ := parseNamedCounters_eq_ok.mp h
    rwa [hlists.unique hlists']
  · exact parseNamedCounters_perm hperm
  · by_cases hmonotonic : Monotonic initial final
    · obtain ⟨resources, h⟩ := exists_checkedDelta configured hmonotonic
      exact .inr ⟨hmonotonic, resources, h, (checkedDelta_eq_ok.mp h).2⟩
    · refine .inl ⟨hmonotonic, ?_⟩
      cases h : final.checkedDelta initial configured with
      | ok resources => exact absurd (checkedDelta_eq_ok.mp h).1 hmonotonic
      | error e => rw [checkedDelta_fails _ _ _ e h]

theorem counters_exact_swapped :
    parseNamedCounters ["max", "fail"] ["high"] "high 1\nmax 4\nfail 5\n" = .ok [4, 5] ∧
      parseNamedCounters ["max", "fail"] ["high"] "fail 5\nhigh 1\nmax 4\n" = .ok [4, 5] := by
  have hread : parseNamedCounters ["max", "fail"] ["high"] "high 1\nmax 4\nfail 5\n" =
      .ok [4, 5] := by
    decide +kernel
  have hperm : (Words.lines "fail 5\nhigh 1\nmax 4\n").Perm
      (Words.lines "high 1\nmax 4\nfail 5\n") := by
    decide +kernel
  exact ⟨hread, (counters_exact.2.1 swapNames _ _ hperm).trans hread⟩

end ProofboundRuntime.Linux.Cgroup
