import ProofboundRuntime.Connector.Resolution
import ProofboundRuntime.Lib.Sha256

/-!
# Soundness of resolution

What a successful resolution says about the responses it is made of
(`resolution_sound`).  `Found` is what one lookup has seen: the names it asked along
its chain, each with the response that has the next alias.  Two chains are compared by
their paths, so that what is known of one of them holds of the merged one.
-/

namespace ProofboundRuntime.Connector.Dns

open Result
open ProofboundRuntime.Core (ServiceName Sha256Digest)

/-! ## Chains of aliases -/

/-- The names of a lookup, from the service on. -/
def names (service : ServiceName) (chain : List DnsCnameObservation) : List ServiceName :=
  service :: chain.map DnsCnameObservation.target

/-- Each alias is one of the name before it. -/
def Follows (service : ServiceName) (chain : List DnsCnameObservation) : Prop :=
  chain.map DnsCnameObservation.owner = (names service chain).dropLast

theorem names_eq (service : ServiceName) (chain : List DnsCnameObservation) :
    names service chain = (names service chain).dropLast ++ [terminal service chain] := by
  rcases List.eq_nil_or_concat chain with rfl | ⟨chain, link, rfl⟩
  · rfl
  · simp [names, terminal, List.dropLast_cons_of_ne_nil]

theorem names_append (service : ServiceName) (chain : List DnsCnameObservation)
    (link : DnsCnameObservation) :
    names service (chain ++ [link]) = names service chain ++ [link.target] := by
  simp [names]

theorem Follows.append {service : ServiceName} {chain : List DnsCnameObservation}
    {link : DnsCnameObservation} (h : Follows service chain)
    (howner : link.owner = terminal service chain) : Follows service (chain ++ [link]) := by
  rw [Follows, names_append, List.dropLast_concat, names_eq, ← h, List.map_append,
    List.map_singleton, howner]

/-- The loop of a lookup has followed the aliases to `current`. -/
structure Followed (resolver : Resolver) (service current : ServiceName)
    (chain : List DnsCnameObservation) : Prop where
  follows : Follows service chain
  ends : terminal service chain = current
  distinct : (names service chain).Nodup
  bounded : chain.length ≤ resolver.maximumCnameDepth

theorem Followed.append {resolver : Resolver} {service current : ServiceName}
    {chain : List DnsCnameObservation} {link : DnsCnameObservation}
    (h : Followed resolver service current chain) (howner : link.owner = current)
    (hnew : link.target ∉ names service chain)
    (hdepth : chain.length < resolver.maximumCnameDepth) :
    Followed resolver service link.target (chain ++ [link]) where
  follows := h.follows.append (howner.trans h.ends.symm)
  ends := by simp [terminal]
  distinct := by
    rw [names_append, List.nodup_append_comm, List.singleton_append, List.nodup_cons]
    exact ⟨hnew, h.distinct⟩
  bounded := by
    rw [List.length_append, List.length_singleton]
    omega

/-! ## What a lookup has seen -/

/-- The queries of one type that were answered, with their names and responses. -/
inductive Exchanged (resolver : Resolver) (type : RecordType) :
    List DnsMessageObservation → List (ServiceName × ParsedResponse) →
      List DnsMessageObservation → Prop
  | nil (messages) : Exchanged resolver type messages [] messages
  | cons {messages messages' messages'' name response steps} :
    exchangeQuery resolver name type messages = (.ok response, messages') →
    Exchanged resolver type messages' steps messages'' →
    Exchanged resolver type messages ((name, response) :: steps) messages''

/-- A response has just this alias for the name that was asked. -/
def Aliased (step : ServiceName × ParsedResponse) (link : DnsCnameObservation) : Prop :=
  step.2.cnames.lookup step.1 = some [link]

/-- A lookup that had followed `chain` asked along the rest, `links`, where each
response has the next alias; its answers are those of the last response. -/
structure Found (resolver : Resolver) (type : RecordType) (service : ServiceName)
    (chain links : List DnsCnameObservation) (messages : List DnsMessageObservation)
    (resolution : RecordResolution) (messages' : List DnsMessageObservation)
    (asked : List (ServiceName × ParsedResponse)) (last : ParsedResponse) : Prop where
  chain : resolution.chain = chain ++ links
  followed : Followed resolver service (terminal service resolution.chain) resolution.chain
  exchanged : Exchanged resolver type messages
    (asked ++ [(terminal service resolution.chain, last)]) messages'
  aliased : List.Forall₂ Aliased asked links
  answers : resolution.answers =
    canonicalizeAnswers (last.addressesOf (terminal service resolution.chain))

theorem keptByOwner_exchangeQuery {resolver : Resolver} {name : ServiceName} {type : RecordType}
    {response : ParsedResponse} {messages messages' : List DnsMessageObservation}
    (h : exchangeQuery resolver name type messages = (.ok response, messages')) :
    KeptByOwner response.cnames := by
  simp only [exchangeQuery, Mut.bind_eq_ok, Mut.lift_eq_ok, Mut.pure_eq_ok] at h
  obtain ⟨_, _, -, _, _, -, reply, _, -, _, _, -, parsed, _, ⟨hparse, -⟩, _, _, -, rfl, -⟩ := h
  exact keptByOwner_parseResponse hparse

theorem validatedOwnerRecords_eq_ok {response : ParsedResponse} {current : ServiceName}
    {records : List DnsAnswer × Option DnsCnameObservation}
    (h : validatedOwnerRecords response current = .ok records) :
    records.1 = response.addressesOf current ∧
      ∀ record ∈ records.2, response.cnames.lookup current = some [record] := by
  simp only [validatedOwnerRecords, check_bind_eq_ok] at h
  obtain ⟨-, h⟩ := h
  split at h
  · cases h
    exact ⟨rfl, by simp⟩
  · cases h
    exact ⟨rfl, by simp⟩
  next record hlookup =>
    cases h
    exact ⟨rfl, by simp [hlookup]⟩
  · cases h

theorem owner_of_lookup {cnames : List (ServiceName × List DnsCnameObservation)}
    (hkept : KeptByOwner cnames) {name : ServiceName} {record : DnsCnameObservation}
    (h : cnames.lookup name = some [record]) : record.owner = name := by
  obtain ⟨before, after, hsplit, -⟩ := List.lookup_eq_some_iff.mp h
  have hmem : (name, [record]) ∈ cnames := by simp [hsplit]
  exact hkept _ hmem record List.mem_cons_self

section Lookups

variable {resolver : Resolver} {type : RecordType} {service : ServiceName}
  {messages messages' : List DnsMessageObservation} {resolution : RecordResolution}

/-- The lookup ends with this response. -/
theorem found_last {current : ServiceName} {chain : List DnsCnameObservation}
    {response : ParsedResponse} (hfollowed : Followed resolver service current chain)
    (hexchange : exchangeQuery resolver current type messages = (.ok response, messages')) :
    Found resolver type service chain [] messages
      ⟨chain, canonicalizeAnswers (response.addressesOf current)⟩ messages' [] response := by
  obtain rfl := hfollowed.ends
  exact {
    chain := (List.append_nil chain).symm
    followed := hfollowed
    exchanged := .cons hexchange (.nil _)
    aliased := .nil
    answers := rfl }

/-- The lookup goes on with the alias of this response. -/
theorem Found.cons {current : ServiceName} {chain links : List DnsCnameObservation}
    {link : DnsCnameObservation} {messages₁ : List DnsMessageObservation}
    {response last : ParsedResponse} {asked : List (ServiceName × ParsedResponse)}
    (hexchange : exchangeQuery resolver current type messages = (.ok response, messages₁))
    (halias : response.cnames.lookup current = some [link])
    (h : Found resolver type service (chain ++ [link]) links messages₁ resolution messages' asked
      last) :
    Found resolver type service chain (link :: links) messages resolution messages'
      ((current, response) :: asked) last where
  chain := by rw [h.chain, List.append_assoc, List.singleton_append]
  followed := h.followed
  exchanged := .cons hexchange h.exchanged
  aliased := .cons halias h.aliased
  answers := h.answers

/-- The rounds that are left ask along the rest of the chain. -/
theorem found_of_followAliases {rounds : Nat} {current : ServiceName}
    {chain : List DnsCnameObservation} {seen : List ServiceName}
    (hfollowed : Followed resolver service current chain) (hseen : names service chain ⊆ seen)
    (h : followAliases resolver type rounds current chain seen messages =
      (.ok resolution, messages')) :
    ∃ links asked last,
      Found resolver type service chain links messages resolution messages' asked last := by
  induction rounds generalizing current chain seen messages with
  | zero => cases h
  | succ rounds ih =>
    rw [followAliases] at h
    simp only [Mut.bind_eq_ok, Mut.lift_eq_ok] at h
    obtain ⟨response, messages₁, hexchange, ⟨answers, next⟩, _, ⟨hrecords, rfl⟩, h⟩ := h
    obtain ⟨hanswers, halias⟩ := validatedOwnerRecords_eq_ok hrecords
    have hlast := found_last hfollowed hexchange
    rw [← hanswers] at hlast
    split at h
    · simp only [Mut.bind_eq_ok, Mut.lift_eq_ok, Mut.pure_eq_ok] at h
      obtain ⟨_, _, ⟨-, rfl⟩, rfl, rfl⟩ := h
      exact ⟨[], [], response, hlast⟩
    next hempty =>
      rw [ne_eq, not_not] at hempty
      rw [hempty] at hlast
      cases next with
      | none =>
        obtain ⟨rfl, rfl⟩ := Mut.pure_eq_ok.mp h
        exact ⟨[], [], response, hlast⟩
      | some link =>
        simp only [Mut.bind_eq_ok, Mut.lift_eq_ok, rejectIf_eq_ok, not_le] at h
        obtain ⟨_, _, ⟨hdepth, rfl⟩, _, _, ⟨hnew, rfl⟩, h⟩ := h
        have hlookup := halias link rfl
        have howner := owner_of_lookup (keptByOwner_exchangeQuery hexchange) hlookup
        have hnext := hfollowed.append howner (fun hmem => hnew (hseen hmem)) hdepth
        have hnames : names service (chain ++ [link]) ⊆ link.target :: seen := by
          rw [names_append]
          refine List.append_subset.mpr ⟨List.subset_cons_of_subset _ hseen, ?_⟩
          exact List.cons_subset_cons _ (List.nil_subset _)
        obtain ⟨links, asked, last, hfound⟩ := ih hnext hnames h
        exact ⟨link :: links, (current, response) :: asked, last, hfound.cons hexchange hlookup⟩

theorem found_of_resolveRecordType
    (h : resolveRecordType resolver service type messages = (.ok resolution, messages')) :
    ∃ asked last, Found resolver type service [] resolution.chain messages resolution messages'
      asked last := by
  have hstart : Followed resolver service service [] :=
    ⟨rfl, rfl, List.nodup_singleton service, Nat.zero_le _⟩
  obtain ⟨links, asked, last, hfound⟩ := found_of_followAliases hstart (List.Subset.refl _) h
  rw [hfound.chain]
  exact ⟨asked, last, hfound⟩

end Lookups

/-! ## Chains along one path -/

section Paths

variable {left right chain chain' : List DnsCnameObservation} {service : ServiceName}

def SamePath (left right : List DnsCnameObservation) : Prop :=
  left.map DnsCnameObservation.owner = right.map DnsCnameObservation.owner ∧
    left.map DnsCnameObservation.target = right.map DnsCnameObservation.target

theorem SamePath.symm (h : SamePath left right) : SamePath right left :=
  ⟨h.1.symm, h.2.symm⟩

theorem SamePath.trans (h : SamePath left right) (h' : SamePath right chain) :
    SamePath left chain :=
  ⟨h.1.trans h'.1, h.2.trans h'.2⟩

theorem sameCnamePath_iff : sameCnamePath left right = true ↔ SamePath left right := by
  induction left generalizing right with
  | nil => cases right <;> simp [sameCnamePath, SamePath]
  | cons link left ih =>
    cases right with
    | nil => simp [sameCnamePath, SamePath]
    | cons link' right =>
      have hiff := @ih right
      simp only [sameCnamePath, SamePath, Bool.and_eq_true, beq_iff_eq] at hiff
      simp only [sameCnamePath, SamePath, List.length_cons, List.zip_cons_cons, List.all_cons,
        List.map_cons, List.cons.injEq, Bool.and_eq_true, beq_iff_eq, Nat.add_right_cancel_iff]
      tauto

theorem names_congr (h : SamePath chain chain') : names service chain = names service chain' := by
  rw [names, names, h.2]

theorem terminal_congr (h : SamePath chain chain') :
    terminal service chain = terminal service chain' := by
  rw [terminal, terminal, ← List.getLast?_map, ← List.getLast?_map, h.2]

theorem Followed.congr {resolver : Resolver}
    (h : Followed resolver service (terminal service chain) chain) (hsame : SamePath chain chain') :
    Followed resolver service (terminal service chain') chain' where
  follows := by rw [Follows, ← hsame.1, ← names_congr hsame, h.follows]
  ends := rfl
  distinct := names_congr hsame ▸ h.distinct
  bounded := by
    have hlength := congrArg List.length hsame.1
    rw [List.length_map, List.length_map] at hlength
    exact hlength ▸ h.bounded

/-- A chain along a path whose links stand for those of two others. -/
structure Covers (chain left right : List DnsCnameObservation) : Prop where
  subset : chain ⊆ left ++ right
  earliest : ∀ link ∈ left ++ right, ∃ link' ∈ chain, link'.expiresNs ≤ link.expiresNs

theorem earlier_cases (a b : DnsCnameObservation) :
    (earlier a b = a ∨ earlier a b = b) ∧ (earlier a b).expiresNs ≤ a.expiresNs ∧
      (earlier a b).expiresNs ≤ b.expiresNs := by
  unfold earlier
  split
  · exact ⟨.inl rfl, le_rfl, by omega⟩
  · exact ⟨.inr rfl, by omega, le_rfl⟩

theorem zipWith_earlier (h : SamePath left right) :
    SamePath (List.zipWith earlier left right) left ∧
      Covers (List.zipWith earlier left right) left right := by
  induction left generalizing right with
  | nil =>
    cases right with
    | nil => exact ⟨h, by simp, by simp⟩
    | cons link right => simp [SamePath] at h
  | cons a left ih =>
    cases right with
    | nil => simp [SamePath] at h
    | cons b right =>
      simp only [SamePath, List.map_cons, List.cons.injEq] at h
      obtain ⟨⟨howner, howners⟩, htarget, htargets⟩ := h
      obtain ⟨hpath, hcovers⟩ := ih ⟨howners, htargets⟩
      obtain ⟨hcases, hleft, hright⟩ := earlier_cases a b
      rw [List.zipWith_cons_cons]
      refine ⟨⟨?_, ?_⟩, ?_, ?_⟩
      · rw [List.map_cons, List.map_cons, hpath.1]
        rcases hcases with hcase | hcase <;> simp [hcase, howner]
      · rw [List.map_cons, List.map_cons, hpath.2]
        rcases hcases with hcase | hcase <;> simp [hcase, htarget]
      · refine List.cons_subset.mpr ⟨?_, fun link hlink => ?_⟩
        · rcases hcases with hcase | hcase <;> simp [hcase]
        · have hmem := hcovers.subset hlink
          simp only [List.mem_append, List.mem_cons] at hmem ⊢
          tauto
      · intro link hlink
        simp only [List.mem_append, List.mem_cons] at hlink
        rcases hlink with (rfl | hlink) | rfl | hlink
        · exact ⟨_, List.mem_cons_self, hleft⟩
        · obtain ⟨link', hmem, hle⟩ := hcovers.earliest link (List.mem_append_left _ hlink)
          exact ⟨link', List.mem_cons_of_mem _ hmem, hle⟩
        · exact ⟨_, List.mem_cons_self, hright⟩
        · obtain ⟨link', hmem, hle⟩ := hcovers.earliest link (List.mem_append_right _ hlink)
          exact ⟨link', List.mem_cons_of_mem _ hmem, hle⟩

/-- The paths that merging can take. -/
def MergedPath (chain left right : List DnsCnameObservation) : Prop :=
  left = [] ∧ chain = right ∨ right = [] ∧ chain = left ∨ SamePath chain left ∧ SamePath chain right

/-- Merged chains go along a third that neither of them leaves. -/
theorem MergedPath.samePath {reference : List DnsCnameObservation}
    (h : MergedPath chain left right) (hreference : reference = left ∨ reference = right)
    (hleft : left ≠ [] → SamePath left reference) (hright : right ≠ [] → SamePath right reference) :
    SamePath chain reference := by
  rcases h with ⟨rfl, rfl⟩ | ⟨rfl, rfl⟩ | ⟨hchain, hchain'⟩
  · by_cases hempty : chain = []
    · rcases hreference with rfl | rfl
      · exact hempty ▸ ⟨rfl, rfl⟩
      · exact ⟨rfl, rfl⟩
    · exact hright hempty
  · by_cases hempty : chain = []
    · rcases hreference with rfl | rfl
      · exact ⟨rfl, rfl⟩
      · exact hempty ▸ ⟨rfl, rfl⟩
    · exact hleft hempty
  · rcases hreference with rfl | rfl
    · exact hchain
    · exact hchain'

theorem mergeCnameObservations_eq_ok (h : mergeCnameObservations left right = .ok chain) :
    Covers chain left right ∧ MergedPath chain left right := by
  unfold mergeCnameObservations at h
  split at h
  next hleft =>
    cases h
    exact ⟨⟨by simp, fun link hlink => ⟨link, by simpa [hleft] using hlink, le_rfl⟩⟩,
      .inl ⟨hleft, rfl⟩⟩
  · split at h
    next hright =>
      cases h
      exact ⟨⟨by simp, fun link hlink => ⟨link, by simpa [hright] using hlink, le_rfl⟩⟩,
        .inr (.inl ⟨hright, rfl⟩)⟩
    · simp only [check_bind_eq_ok, rejectIf_eq_ok, not_not, pure_eq_ok] at h
      obtain ⟨hsame, rfl⟩ := h
      rw [sameCnamePath_iff] at hsame
      obtain ⟨hpath, hcovers⟩ := zipWith_earlier hsame
      exact ⟨hcovers, .inr (.inr ⟨hpath, hpath.trans hsame⟩)⟩

variable {ipv4 ipv6 : RecordResolution} {maximumDepth : Nat}

theorem referenceChain_eq_ok (h : referenceChain ipv4 ipv6 = .ok chain) :
    chain = ipv4.chain ∨ chain = ipv6.chain := by
  unfold referenceChain at h
  split at h
  · cases h
    exact .inr rfl
  · split at h
    · cases h
      exact .inl rfl
    · cases h

/-- The chain goes along that of each family with answers, and of one family at
least. -/
theorem reconcileChains_eq_ok (h : reconcileChains service ipv4 ipv6 maximumDepth = .ok chain) :
    Covers chain ipv4.chain ipv6.chain ∧
      (ipv4.answers ≠ [] → SamePath chain ipv4.chain) ∧
      (ipv6.answers ≠ [] → SamePath chain ipv6.chain) ∧
      (SamePath chain ipv4.chain ∨ SamePath chain ipv6.chain) := by
  simp only [reconcileChains, bind_eq_ok, rejectIf_eq_ok, sameCnamePath_iff, not_and, not_not] at h
  obtain ⟨reference, hreference, _, -, _, h4, _, h6, hmerge⟩ := h
  obtain ⟨hcovers, hcases⟩ := mergeCnameObservations_eq_ok hmerge
  -- the merged chain goes along the one the others were compared with
  have hpath : SamePath chain reference :=
    hcases.samePath (referenceChain_eq_ok hreference) h4 h6
  refine ⟨hcovers, ?_⟩
  unfold referenceChain at hreference
  split at hreference
  next hempty =>
    cases hreference
    exact ⟨fun hne => absurd hempty hne, fun _ => hpath, .inr hpath⟩
  · split at hreference
    next hsame =>
      cases hreference
      refine ⟨fun _ => hpath, fun hne => ?_, .inl hpath⟩
      rw [sameCnamePath_iff] at hsame
      rcases hsame with hempty | hsame
      · exact absurd hempty hne
      · exact hpath.trans hsame
    · cases hreference

end Paths

/-! ## Soundness -/

/-- The records for a name in the responses that answered it. -/
def recordsFor (name : ServiceName) (steps : List (ServiceName × ParsedResponse)) :
    List DnsAnswer :=
  (steps.filter (·.1 = name)).flatMap fun step => step.2.addressesOf name

/-- The chain and the answers that were made of two lookups, whose last responses are
`last4` and `last6`. -/
structure Sound (resolver : Resolver) (service : ServiceName) (ipv4 ipv6 : RecordResolution)
    (last4 last6 : ParsedResponse) (chain : List DnsCnameObservation) (answers : List DnsAnswer) :
    Prop where
  follows : Follows service chain
  distinct : (names service chain).Nodup
  bounded : chain.length ≤ resolver.maximumCnameDepth
  owned : ∀ answer ∈ answers, answer.name = terminal service chain
  found : ∀ answer ∈ answers, ∃ record ∈ recordsFor (terminal service chain)
      [(terminal service ipv4.chain, last4), (terminal service ipv6.chain, last6)],
    { record with effectiveExpiresNs := answer.effectiveExpiresNs } = answer
  complete : ∀ record ∈ last4.addressesOf (terminal service ipv4.chain) ++
      last6.addressesOf (terminal service ipv6.chain),
    ∃ answer ∈ answers, answer.address = record.address
  increasing : answers.Pairwise fun a b => a.address.Before b.address
  expiry : ∀ answer ∈ answers, IsLeast
    (expiriesOf (recordsFor (terminal service chain)
        [(terminal service ipv4.chain, last4), (terminal service ipv6.chain, last6)])
        answer.address ∪
      {expiry | ∃ link ∈ ipv4.chain ++ ipv6.chain, link.expiresNs = expiry})
    answer.effectiveExpiresNs

section Soundness

variable {resolver : Resolver} {service : ServiceName} {ipv4 ipv6 : RecordResolution}
  {last4 last6 : ParsedResponse} {chain : List DnsCnameObservation}

theorem mem_recordsFor {name name4 name6 : ServiceName} {record : DnsAnswer} :
    record ∈ recordsFor name [(name4, last4), (name6, last6)] ↔
      name4 = name ∧ record ∈ last4.addressesOf name ∨
        name6 = name ∧ record ∈ last6.addressesOf name := by
  by_cases h4 : name4 = name <;> by_cases h6 : name6 = name <;> simp [recordsFor, h4, h6]

theorem recordsFor_subset {name name4 name6 : ServiceName} :
    recordsFor name [(name4, last4), (name6, last6)] ⊆
      last4.addressesOf name4 ++ last6.addressesOf name6 := by
  intro record h
  rcases mem_recordsFor.mp h with ⟨rfl, hmem⟩ | ⟨rfl, hmem⟩
  · exact List.mem_append_left _ hmem
  · exact List.mem_append_right _ hmem

/-- A family's answers are records of its last response for the end of the chain. -/
theorem mem_addressesOf {resolution : RecordResolution} {last : ParsedResponse}
    (hanswers : resolution.answers =
      canonicalizeAnswers (last.addressesOf (terminal service resolution.chain)))
    (hpath : resolution.answers ≠ [] → SamePath chain resolution.chain) {answer : DnsAnswer}
    (h : answer ∈ resolution.answers) :
    terminal service resolution.chain = terminal service chain ∧
      answer ∈ last.addressesOf (terminal service chain) := by
  have hterminal : terminal service resolution.chain = terminal service chain :=
    (terminal_congr (hpath (List.ne_nil_of_mem h))).symm
  rw [hanswers, hterminal] at h
  exact ⟨hterminal, mem_of_mem_canonicalizeAnswers h⟩

theorem name_of_mem_recordsFor {name : ServiceName} {steps : List (ServiceName × ParsedResponse)}
    {record : DnsAnswer} (h : record ∈ recordsFor name steps) : record.name = name := by
  obtain ⟨step, -, hrecord⟩ := List.mem_flatMap.mp h
  exact of_decide_eq_true (List.mem_filter.mp hrecord).2

section Families

variable
  (hanswers4 : ipv4.answers =
    canonicalizeAnswers (last4.addressesOf (terminal service ipv4.chain)))
  (hanswers6 : ipv6.answers =
    canonicalizeAnswers (last6.addressesOf (terminal service ipv6.chain)))

include hanswers4 hanswers6

/-- Both lookups keep an answer for each record. -/
theorem exists_mem_answers {record : DnsAnswer}
    (h : record ∈ last4.addressesOf (terminal service ipv4.chain) ++
      last6.addressesOf (terminal service ipv6.chain)) :
    ∃ answer ∈ ipv4.answers ++ ipv6.answers,
      answer.address = record.address ∧ answer.recordExpiresNs ≤ record.recordExpiresNs := by
  rw [hanswers4, hanswers6]
  rcases List.mem_append.mp h with hmem | hmem
  · obtain ⟨answer, hanswer, hkeeps⟩ := exists_mem_canonicalizeAnswers hmem
    exact ⟨answer, List.mem_append_left _ hanswer, hkeeps⟩
  · obtain ⟨answer, hanswer, hkeeps⟩ := exists_mem_canonicalizeAnswers hmem
    exact ⟨answer, List.mem_append_right _ hanswer, hkeeps⟩

variable (hpath4 : ipv4.answers ≠ [] → SamePath chain ipv4.chain)
  (hpath6 : ipv6.answers ≠ [] → SamePath chain ipv6.chain)

include hpath4 hpath6

theorem answers_subset_recordsFor :
    ipv4.answers ++ ipv6.answers ⊆ recordsFor (terminal service chain)
      [(terminal service ipv4.chain, last4), (terminal service ipv6.chain, last6)] := by
  refine List.append_subset.mpr ⟨fun answer h => ?_, fun answer h => ?_⟩
  · exact mem_recordsFor.mpr (.inl (mem_addressesOf hanswers4 hpath4 h))
  · exact mem_recordsFor.mpr (.inr (mem_addressesOf hanswers6 hpath6 h))

/-- The filter for the end of the chain drops nothing. -/
theorem filter_terminal :
    (ipv4.answers ++ ipv6.answers).filter (·.name = terminal service chain) =
      ipv4.answers ++ ipv6.answers := by
  rw [List.filter_eq_self]
  intro answer h
  have hmem := answers_subset_recordsFor hanswers4 hanswers6 hpath4 hpath6 h
  exact decide_eq_true (name_of_mem_recordsFor hmem)

end Families

/-- The expiry of an answer, from those of its records and of the merged aliases. -/
theorem isLeast_union {records : Set Nat} {left right : List DnsCnameObservation}
    {recordExpiry expiry : Nat} (hrecords : IsLeast records recordExpiry)
    (hexpiry : IsLeast (insert recordExpiry {expiry | ∃ link ∈ chain, link.expiresNs = expiry})
      expiry) (hcovers : Covers chain left right) :
    IsLeast (records ∪ {expiry | ∃ link ∈ left ++ right, link.expiresNs = expiry}) expiry := by
  obtain ⟨hmem, hle⟩ := hexpiry
  constructor
  · rcases hmem with rfl | ⟨link, hlink, rfl⟩
    · exact .inl hrecords.1
    · exact .inr ⟨link, hcovers.subset hlink, rfl⟩
  · rintro other (hother | ⟨link, hlink, rfl⟩)
    · exact (hle (.inl rfl)).trans (hrecords.2 hother)
    · obtain ⟨link', hlink', hearlier⟩ := hcovers.earliest link hlink
      exact (hle (.inr ⟨link', hlink', rfl⟩)).trans hearlier

variable {messages messages₁ messages₂ : List DnsMessageObservation}

theorem sound_of_found {asked4 asked6 : List (ServiceName × ParsedResponse)}
    (hfound4 : Found resolver .a service [] ipv4.chain messages ipv4 messages₁ asked4 last4)
    (hfound6 : Found resolver .aaaa service [] ipv6.chain messages₁ ipv6 messages₂ asked6 last6)
    (hchain : reconcileChains service ipv4 ipv6 resolver.maximumCnameDepth = .ok chain) :
    Sound resolver service ipv4 ipv6 last4 last6 chain
      (terminalAnswers service ipv4 ipv6 chain) := by
  obtain ⟨hcovers, hpath4, hpath6, hpath⟩ := reconcileChains_eq_ok hchain
  have hfollowed : Followed resolver service (terminal service chain) chain := by
    rcases hpath with hpath | hpath
    · exact hfound4.followed.congr hpath.symm
    · exact hfound6.followed.congr hpath.symm
  have hsubset := answers_subset_recordsFor hfound4.answers hfound6.answers hpath4 hpath6
  have hanswers : terminalAnswers service ipv4 ipv6 chain =
      applyChainExpiry (canonicalizeAnswers (ipv4.answers ++ ipv6.answers)) chain := by
    rw [terminalAnswers, filter_terminal hfound4.answers hfound6.answers hpath4 hpath6]
  rw [hanswers]
  exact {
    follows := hfollowed.follows
    distinct := hfollowed.distinct
    bounded := hfollowed.bounded
    owned := by
      intro answer h
      obtain ⟨record, hrecord, rfl⟩ := List.mem_map.mp h
      have hmem := hsubset (mem_of_mem_canonicalizeAnswers hrecord)
      exact (name_of_mem_recordsFor hmem :)
    found := by
      intro answer h
      obtain ⟨record, hrecord, rfl⟩ := List.mem_map.mp h
      exact ⟨record, hsubset (mem_of_mem_canonicalizeAnswers hrecord), rfl⟩
    complete := by
      intro record h
      obtain ⟨answer, hanswer, hsame, -⟩ := exists_mem_answers hfound4.answers hfound6.answers h
      obtain ⟨kept, hkept, haddress, -⟩ := exists_mem_canonicalizeAnswers hanswer
      exact ⟨_, List.mem_map_of_mem hkept, haddress.trans hsame⟩
    increasing := List.pairwise_map.mpr (canonicalizeAnswers_before _)
    expiry := by
      intro answer h
      obtain ⟨record, hrecord, haddress, hexpiry⟩ := isLeast_applyChainExpiry h
      have hleast := isLeast_recordExpiresNs
        (fun _ h => exists_mem_answers hfound4.answers hfound6.answers (recordsFor_subset h))
        hsubset hrecord
      rw [haddress] at hleast
      exact isLeast_union hleast hexpiry hcovers }

/-- The answers of a resolution are those of its two lookups. -/
theorem resolution_sound {messages messages₁ messages₂ : List DnsMessageObservation}
    (h4 : resolveRecordType resolver service .a messages = (.ok ipv4, messages₁))
    (h6 : resolveRecordType resolver service .aaaa messages₁ = (.ok ipv6, messages₂))
    (hchain : reconcileChains service ipv4 ipv6 resolver.maximumCnameDepth = .ok chain) :
    ∃ asked4 last4 asked6 last6,
      Found resolver .a service [] ipv4.chain messages ipv4 messages₁ asked4 last4 ∧
      Found resolver .aaaa service [] ipv6.chain messages₁ ipv6 messages₂ asked6 last6 ∧
      Sound resolver service ipv4 ipv6 last4 last6 chain
        (terminalAnswers service ipv4 ipv6 chain) := by
  obtain ⟨asked4, last4, hfound4⟩ := found_of_resolveRecordType h4
  obtain ⟨asked6, last6, hfound6⟩ := found_of_resolveRecordType h6
  exact ⟨asked4, last4, asked6, last6, hfound4, hfound6, sound_of_found hfound4 hfound6 hchain⟩

/-- The answers that `resolve_service` returns are those of its two lookups, not
expired when they were checked. -/
theorem resolveService_sound {clock : FinalClock} {resolution : DnsResolution}
    (h : resolveService resolver service clock messages = (.ok resolution, messages₂)) :
    (∃ ipv4 ipv6 messages₁ asked4 last4 asked6 last6,
      Found resolver .a service [] ipv4.chain messages ipv4 messages₁ asked4 last4 ∧
      Found resolver .aaaa service [] ipv6.chain messages₁ ipv6 messages₂ asked6 last6 ∧
      Sound resolver service ipv4 ipv6 last4 last6 resolution.cnameChain resolution.answers) ∧
    resolution.messages = messages₂ ∧ resolution.answers ≠ [] ∧
    resolution.answers.length ≤ resolver.maximumAnswerCount ∧
    (∀ answer ∈ resolution.answers.zipIdx,
      clock.elapsedNs answer.2 < answer.1.effectiveExpiresNs) ∧ clock.pastDeadline = false := by
  simp only [resolveService, Mut.bind_eq_ok, Mut.lift_eq_ok, Mut.get_eq_ok, Mut.pure_eq_ok,
    rejectIf_eq_ok, not_or, not_lt, Bool.not_eq_true, List.any_eq_false, decide_eq_true_eq,
    not_le] at h
  obtain ⟨ipv4, messages₁, h4, ipv6, _, h6, chain, _, ⟨hchain, rfl⟩, _, _, ⟨⟨hne, hcount⟩, rfl⟩, _,
    _, ⟨hlive, rfl⟩, _, _, ⟨hdeadline, rfl⟩, _, _, ⟨rfl, rfl⟩, rfl, rfl⟩ := h
  obtain ⟨asked4, last4, hfound4⟩ := found_of_resolveRecordType h4
  obtain ⟨asked6, last6, hfound6⟩ := found_of_resolveRecordType h6
  refine ⟨⟨ipv4, ipv6, messages₁, asked4, last4, asked6, last6, hfound4, hfound6, ?_⟩, rfl, hne,
    hcount, hlive, hdeadline⟩
  exact sound_of_found hfound4 hfound6 hchain

end Soundness

/-- A response about `a.example` or `b.example`, by the letter: its code, one record
after the other. -/
def sampleMessage (letter code : UInt8) (records : List (List UInt8)) : List UInt8 :=
  [0, 7, 0x81, 0x80, 0, 1, 0, UInt8.ofNat records.length, 0, 0, 0, 0] ++
    [1, letter, 7, 0x65, 0x78, 0x61, 0x6d, 0x70, 0x6c, 0x65, 0, 0, code, 0, 1] ++
    records.flatten

/-- A record of the name that was asked, with a time to live and its data. -/
def sampleRecord (code ttl : UInt8) (data : List UInt8) : List UInt8 :=
  [0xc0, 12, 0, code, 0, 1, 0, 0, 0, ttl, 0, UInt8.ofNat data.length] ++ data

/-- `a.example` is an alias of `b.example`, which has two IPv4 addresses and an IPv6
address. -/
def sampleReplies : List (List UInt8) :=
  [sampleMessage 0x61 1 [sampleRecord 5 60 [1, 0x62, 0xc0, 14]],
   sampleMessage 0x62 1 [sampleRecord 1 50 [192, 0, 2, 2], sampleRecord 1 70 [192, 0, 2, 1]],
   sampleMessage 0x61 28 [sampleRecord 5 40 [1, 0x62, 0xc0, 14]],
   sampleMessage 0x62 28 [sampleRecord 28 90 (0x20 :: 1 :: List.replicate 14 0)]]

def sampleResolver : Resolver where
  maximumCnameDepth := 2
  maximumAnswerCount := 4
  maximumResponseBytes := 512
  maximumMessages := 8
  digest := Sha256.hash
  reply sent := .ok ⟨sampleReplies.getD sent [], 7, 1000 * sent⟩

theorem sampleService_accepted : ServiceName.accepts "a.example" = true := by decide +kernel

def sampleService : ServiceName := ⟨"a.example", sampleService_accepted⟩

def sampleIpv4 : Except DnsError RecordResolution × List DnsMessageObservation :=
  resolveRecordType sampleResolver sampleService .a []

def sampleIpv6 : Except DnsError RecordResolution × List DnsMessageObservation :=
  resolveRecordType sampleResolver sampleService .aaaa sampleIpv4.2

theorem resolution_sound_sample :
    ∃ ipv4 ipv6 chain, sampleIpv4 = (.ok ipv4, sampleIpv4.2) ∧
      sampleIpv6 = (.ok ipv6, sampleIpv6.2) ∧
      reconcileChains sampleService ipv4 ipv6 2 = .ok chain ∧ chain.length = 1 ∧
      (terminalAnswers sampleService ipv4 ipv6 chain).length = 3 ∧
      ∃ asked4 last4 asked6 last6,
        Found sampleResolver .a sampleService [] ipv4.chain [] ipv4 sampleIpv4.2 asked4 last4 ∧
        Found sampleResolver .aaaa sampleService [] ipv6.chain sampleIpv4.2 ipv6 sampleIpv6.2
          asked6 last6 ∧
        Sound sampleResolver sampleService ipv4 ipv6 last4 last6 chain
          (terminalAnswers sampleService ipv4 ipv6 chain) := by
  let ipv4 := sampleIpv4.1.toOption.getD ⟨[], []⟩
  let ipv6 := sampleIpv6.1.toOption.getD ⟨[], []⟩
  let chain := (reconcileChains sampleService ipv4 ipv6 2).toOption.getD []
  have h4 : sampleIpv4 = (.ok ipv4, sampleIpv4.2) := by decide +kernel
  have h6 : sampleIpv6 = (.ok ipv6, sampleIpv6.2) := by decide +kernel
  have hchain : reconcileChains sampleService ipv4 ipv6 2 = .ok chain := by decide +kernel
  exact ⟨ipv4, ipv6, chain, h4, h6, hchain, by decide +kernel, by decide +kernel,
    resolution_sound h4 h6 hchain⟩

end ProofboundRuntime.Connector.Dns
