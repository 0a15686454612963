import ProofboundRuntime.Connector.DnsMessage
import ProofboundRuntime.Lib.Cbor.KeyOrder
import ProofboundRuntime.Lib.Mut

/-!
# Resolution of a service

`resolve_service` of the connector: the lookups of the IPv4 and of the IPv6
addresses, each of which follows aliases, and what is made of the two.

The sockets, the clock and the random transaction numbers are a parameter,
`Resolver.reply`: what comes of each query that is sent.  A failure there is a failure
of the lookup.
-/

namespace ProofboundRuntime.Connector.Dns

open Result
open ProofboundRuntime.Core (ServiceName Sha256Digest)

/-! ## Answers -/

/-- `address_key`. -/
def addressKey : IpAddr → List UInt8
  | .v4 octets => 0 :: (octets.toList ++ List.replicate 12 0)
  | .v6 octets => 1 :: octets.toList

/-- The order of `canonicalize_answers`. -/
def answerCmp : DnsAnswer → DnsAnswer → Ordering :=
  compareLex (compareOn fun answer => addressKey answer.address)
    (compareLex (compareOn DnsAnswer.recordExpiresNs)
      (compareLex (compareOn fun answer => answer.messageIdentity.toList)
        (compareOn DnsAnswer.ttlSeconds)))

/-- `canonicalize_answers`. -/
def canonicalizeAnswers (answers : List DnsAnswer) : List DnsAnswer :=
  Sorting.dedupBy (fun a b => a.address == b.address) (Sorting.sortBy answerCmp answers)

/-- `apply_chain_expiry`. -/
def applyChainExpiry (answers : List DnsAnswer) (chain : List DnsCnameObservation) :
    List DnsAnswer :=
  let aliasExpiry := (chain.map DnsCnameObservation.expiresNs).min?
  answers.map fun answer => { answer with
    effectiveExpiresNs := (aliasExpiry.map fun expiry => min answer.recordExpiresNs expiry).getD
      answer.recordExpiresNs }

/-! ## Lookups -/

/-- What came of one query: the message, the transaction it must name, and when it
was read. -/
structure Reply where
  bytes : List UInt8
  transaction : Nat
  observedNs : Nat

/-- The policy of the authority, the digest of a message, and what comes of a query
after so many messages. -/
structure Resolver where
  maximumCnameDepth : Nat
  maximumAnswerCount : Nat
  maximumResponseBytes : Nat
  maximumMessages : Nat
  digest : List UInt8 → Sha256Digest
  reply : Nat → Except DnsError Reply

structure DnsMessageObservation where
  identity : Sha256Digest
  size : Nat
  observedNs : Nat
deriving DecidableEq

/-- A method on the messages of the `ResolverState`. -/
abbrev Lookup := Mut (List DnsMessageObservation) DnsError

structure RecordResolution where
  chain : List DnsCnameObservation
  answers : List DnsAnswer
deriving DecidableEq

/-- `exchange_query`. -/
def exchangeQuery (resolver : Resolver) (name : ServiceName) (type : RecordType) :
    Lookup ParsedResponse := do
  let messages ← Mut.get
  Mut.lift (rejectIf (resolver.maximumMessages ≤ messages.length) .messageLimit)
  let reply ← Mut.lift (resolver.reply messages.length)
  Mut.lift (rejectIf
    (reply.bytes.length = 0 ∨ resolver.maximumResponseBytes < reply.bytes.length)
    .responseTooLarge)
  let identity := resolver.digest reply.bytes
  let parsed ← Mut.lift
    (parseResponse reply.bytes ⟨reply.transaction, name, type, identity, reply.observedNs⟩)
  Mut.modify (· ++ [⟨identity, reply.bytes.length, reply.observedNs⟩])
  pure parsed

/-- The address records of a response for one name. -/
def ParsedResponse.addressesOf (response : ParsedResponse) (name : ServiceName) : List DnsAnswer :=
  response.addresses.filter (·.name = name)

/-- `validated_owner_records`. -/
def validatedOwnerRecords (response : ParsedResponse) (current : ServiceName) :
    Except DnsError (List DnsAnswer × Option DnsCnameObservation) := do
  let answers := response.addressesOf current
  let aliases := response.cnames.lookup current
  rejectIf (answers ≠ [] ∧ aliases.any (· ≠ [])) .invalidCnameChain
  match aliases with
  | none => pure (answers, none)
  | some [] => pure (answers, none)
  | some [record] => pure (answers, some record)
  | some _ => .error .invalidCnameChain

/-- The loop of `resolve_record_type`.  A round adds one alias, and the test at its
start, that there are at most `maximumCnameDepth` of them, is the bound on the rounds. -/
def followAliases (resolver : Resolver) (type : RecordType) :
    (rounds : Nat) → ServiceName → List DnsCnameObservation → List ServiceName →
      Lookup RecordResolution
  | 0, _, _, _ => Mut.fail .invalidCnameChain
  | rounds + 1, current, chain, seen => do
    let response ← exchangeQuery resolver current type
    let records ← Mut.lift (validatedOwnerRecords response current)
    if records.1 ≠ [] then
      Mut.lift (rejectIf (resolver.maximumAnswerCount < records.1.length) .invalidAnswerSet)
      pure ⟨chain, canonicalizeAnswers records.1⟩
    else
      match records.2 with
      | none => pure ⟨chain, []⟩
      | some record =>
        Mut.lift (rejectIf (resolver.maximumCnameDepth ≤ chain.length) .invalidCnameChain)
        Mut.lift (rejectIf (record.target ∈ seen) .invalidCnameChain)
        followAliases resolver type rounds record.target (chain ++ [record])
          (record.target :: seen)

/-- `resolve_record_type`. -/
def resolveRecordType (resolver : Resolver) (service : ServiceName) (type : RecordType) :
    Lookup RecordResolution :=
  followAliases resolver type (resolver.maximumCnameDepth + 1) service [] [service]

/-! ## Both families -/

/-- `same_cname_path`. -/
def sameCnamePath (left right : List DnsCnameObservation) : Bool :=
  left.length == right.length &&
    (left.zip right).all fun links =>
      links.1.owner == links.2.owner && links.1.target == links.2.target

/-- The one of two observations of an alias that expires first. -/
def earlier (ipv4 ipv6 : DnsCnameObservation) : DnsCnameObservation :=
  if ipv4.expiresNs ≤ ipv6.expiresNs then ipv4 else ipv6

/-- `merge_cname_observations`. -/
def mergeCnameObservations (ipv4 ipv6 : List DnsCnameObservation) :
    Except DnsError (List DnsCnameObservation) := do
  if ipv4 = [] then pure ipv6
  else if ipv6 = [] then pure ipv4
  else
    rejectIf (¬sameCnamePath ipv4 ipv6) .invalidCnameChain
    pure (List.zipWith earlier ipv4 ipv6)

/-- The chain that the others are compared with. -/
def referenceChain (ipv4 ipv6 : RecordResolution) : Except DnsError (List DnsCnameObservation) :=
  if ipv4.answers = [] then .ok ipv6.chain
  else if ipv6.answers = [] ∨ sameCnamePath ipv4.chain ipv6.chain then .ok ipv4.chain
  else .error .invalidCnameChain

/-- `reconcile_chains`. -/
def reconcileChains (service : ServiceName) (ipv4 ipv6 : RecordResolution) (maximumDepth : Nat) :
    Except DnsError (List DnsCnameObservation) := do
  let chain ← referenceChain ipv4 ipv6
  rejectIf (maximumDepth < chain.length ∨ chain.head?.any (·.owner ≠ service)) .invalidCnameChain
  rejectIf (ipv4.chain ≠ [] ∧ ¬sameCnamePath ipv4.chain chain) .invalidCnameChain
  rejectIf (ipv6.chain ≠ [] ∧ ¬sameCnamePath ipv6.chain chain) .invalidCnameChain
  mergeCnameObservations ipv4.chain ipv6.chain

/-- The name that a chain of aliases ends with. -/
def terminal (service : ServiceName) (chain : List DnsCnameObservation) : ServiceName :=
  (chain.getLast?.map DnsCnameObservation.target).getD service

/-- The answers that `resolve_service` makes of both lookups. -/
def terminalAnswers (service : ServiceName) (ipv4 ipv6 : RecordResolution)
    (chain : List DnsCnameObservation) : List DnsAnswer :=
  let answers := (ipv4.answers ++ ipv6.answers).filter (·.name = terminal service chain)
  applyChainExpiry (canonicalizeAnswers answers) chain

structure DnsResolution where
  messages : List DnsMessageObservation
  cnameChain : List DnsCnameObservation
  answers : List DnsAnswer
deriving DecidableEq

/-- The clock at the end of `resolve_service`: when each answer is checked, and
whether the deadline has passed after that. -/
structure FinalClock where
  elapsedNs : Nat → Nat
  pastDeadline : Bool

/-- `resolve_service`. -/
def resolveService (resolver : Resolver) (service : ServiceName) (clock : FinalClock) :
    Lookup DnsResolution := do
  let ipv4 ← resolveRecordType resolver service .a
  let ipv6 ← resolveRecordType resolver service .aaaa
  let chain ← Mut.lift (reconcileChains service ipv4 ipv6 resolver.maximumCnameDepth)
  let answers := terminalAnswers service ipv4 ipv6 chain
  Mut.lift (rejectIf (answers = [] ∨ resolver.maximumAnswerCount < answers.length)
    .invalidAnswerSet)
  Mut.lift (rejectIf (answers.zipIdx.any fun answer =>
    answer.1.effectiveExpiresNs ≤ clock.elapsedNs answer.2) .expiredAnswer)
  Mut.lift (rejectIf clock.pastDeadline .deadline)
  let messages ← Mut.get
  pure ⟨messages, chain, answers⟩

/-! ## The order of answers -/

/-- IPv4 before IPv6, and each by its bytes. -/
def IpAddr.Before : IpAddr → IpAddr → Prop
  | .v4 a, .v4 b => compare a.toList b.toList = .lt
  | .v4 _, .v6 _ => True
  | .v6 _, .v4 _ => False
  | .v6 a, .v6 b => compare a.toList b.toList = .lt

theorem addressKey_injective : Function.Injective addressKey := by
  intro a b h
  cases a <;> cases b <;> simp_all [addressKey, Vector.toList_inj]

theorem before_iff {a b : IpAddr} :
    a.Before b ↔ compare (addressKey a) (addressKey b) = .lt := by
  cases a with
  | v4 a =>
    cases b with
    | v4 b =>
      have hlength : a.toList.length = b.toList.length := by simp
      show _ ↔ compare ([0] ++ (a.toList ++ _)) ([0] ++ (b.toList ++ _)) = .lt
      rw [compare_append_left, compare_append_right hlength]
      rfl
    | v6 b =>
      refine ⟨fun _ => ?_, fun _ => trivial⟩
      rw [addressKey, addressKey, List.compare_cons_cons]
      rfl
  | v6 a =>
    cases b with
    | v4 b =>
      refine ⟨False.elim, fun h => ?_⟩
      rw [addressKey, addressKey, List.compare_cons_cons] at h
      cases h
    | v6 b =>
      show _ ↔ compare ([1] ++ a.toList) ([1] ++ b.toList) = .lt
      rw [compare_append_left]
      rfl

instance : Std.TransCmp answerCmp := by
  unfold answerCmp
  infer_instance

theorem answerCmp_isLE {a b : DnsAnswer} (h : (answerCmp a b).isLE) :
    (compare (addressKey a.address) (addressKey b.address)).isLE ∧
      (a.address = b.address → a.recordExpiresNs ≤ b.recordExpiresNs) := by
  change ((compare (addressKey a.address) (addressKey b.address)).then
    ((compare a.recordExpiresNs b.recordExpiresNs).then _)).isLE at h
  refine ⟨Ordering.isLE_left_of_isLE_then h, fun heq => ?_⟩
  rw [heq, Std.ReflOrd.compare_self, Ordering.eq_then] at h
  exact Nat.isLE_compare.mp (Ordering.isLE_left_of_isLE_then h)

theorem same_address_iff (a b : DnsAnswer) :
    (a.address == b.address) = true ↔ addressKey a.address = addressKey b.address := by
  rw [beq_iff_eq, addressKey_injective.eq_iff]

theorem canonicalizeAnswers_before (answers : List DnsAnswer) :
    (canonicalizeAnswers answers).Pairwise fun a b => a.address.Before b.address := by
  have hsorted : (Sorting.sortBy answerCmp answers).Pairwise fun a b =>
      (compare (addressKey a.address) (addressKey b.address)).isLE :=
    (Sorting.sortBy_pairwise answers).imp fun h => (answerCmp_isLE h).1
  have hstrict := Sorting.dedupBy_strict same_address_iff hsorted
  rw [Sorting.Strict, List.pairwise_map] at hstrict
  exact hstrict.imp before_iff.mpr

variable {answers : List DnsAnswer} {a : DnsAnswer}

theorem mem_of_mem_canonicalizeAnswers (h : a ∈ canonicalizeAnswers answers) : a ∈ answers :=
  Sorting.mem_sortBy.mp (Sorting.mem_of_mem_dedupBy h)

/-- Each address stays, with its earliest expiry. -/
theorem exists_mem_canonicalizeAnswers (h : a ∈ answers) : ∃ b ∈ canonicalizeAnswers answers,
      b.address = a.address ∧ b.recordExpiresNs ≤ a.recordExpiresNs := by
  have hsorted : (Sorting.sortBy answerCmp answers).Pairwise fun a b => (answerCmp a b).isLE :=
    Sorting.sortBy_pairwise answers
  obtain ⟨b, hb, hkey, hle⟩ :=
    Sorting.exists_mem_dedupBy same_address_iff hsorted (Sorting.mem_sortBy.mpr h)
  have haddress := addressKey_injective hkey
  refine ⟨b, hb, haddress, ?_⟩
  rcases hle with rfl | hle
  · exact le_rfl
  · exact (answerCmp_isLE hle).2 haddress

/-- An address has one answer. -/
theorem eq_of_mem_canonicalizeAnswers {a b : DnsAnswer} (ha : a ∈ canonicalizeAnswers answers)
    (hb : b ∈ canonicalizeAnswers answers) (h : a.address = b.address) : a = b := by
  have hnodup : ((canonicalizeAnswers answers).map DnsAnswer.address).Nodup := by
    rw [List.Nodup, List.pairwise_map]
    refine (canonicalizeAnswers_before answers).imp fun hbefore heq => ?_
    rw [heq, before_iff, Std.ReflOrd.compare_self] at hbefore
    cases hbefore
  exact List.inj_on_of_nodup_map hnodup ha hb h

/-- The expiries of the records of an address. -/
def expiriesOf (records : List DnsAnswer) (address : IpAddr) : Set Nat :=
  {expiry | ∃ record ∈ records, record.address = address ∧ record.recordExpiresNs = expiry}

/-- The kept answer of an address expires with the earliest of its records, also where
the answers come from other lists that were made canonical. -/
theorem isLeast_recordExpiresNs {records answers : List DnsAnswer}
    (hfound : ∀ record ∈ records, ∃ answer ∈ answers,
      answer.address = record.address ∧ answer.recordExpiresNs ≤ record.recordExpiresNs)
    (hsub : answers ⊆ records) (ha : a ∈ canonicalizeAnswers answers) :
    IsLeast (expiriesOf records a.address) a.recordExpiresNs := by
  constructor
  · exact ⟨a, hsub (mem_of_mem_canonicalizeAnswers ha), rfl, rfl⟩
  · rintro expiry ⟨record, hrecord, haddress, rfl⟩
    obtain ⟨answer, hanswer, hsame, hle⟩ := hfound record hrecord
    obtain ⟨b, hb, hbaddress, hble⟩ := exists_mem_canonicalizeAnswers hanswer
    have hab : b = a := eq_of_mem_canonicalizeAnswers hb ha (by rw [hbaddress, hsame, haddress])
    rw [hab] at hble
    omega

/-- The answer of an address expires as its kept record or as an alias, if that is
earlier. -/
theorem isLeast_applyChainExpiry {chain : List DnsCnameObservation}
    (ha : a ∈ applyChainExpiry answers chain) :
    ∃ answer ∈ answers, answer.address = a.address ∧
      IsLeast (insert answer.recordExpiresNs {expiry | ∃ link ∈ chain, link.expiresNs = expiry})
        a.effectiveExpiresNs := by
  obtain ⟨answer, hanswer, rfl⟩ := List.mem_map.mp ha
  refine ⟨answer, hanswer, rfl, ?_⟩
  rcases hmin : (chain.map DnsCnameObservation.expiresNs).min? with _ | expiry
  · rw [List.min?_eq_none_iff, List.map_eq_nil_iff] at hmin
    subst hmin
    simp
  · obtain ⟨hmem, hle⟩ := List.min?_eq_some_iff.mp hmin
    have hleast : IsLeast {expiry | ∃ link ∈ chain, link.expiresNs = expiry} expiry := by
      refine ⟨List.mem_map.mp hmem, ?_⟩
      rintro _ ⟨link, hlink, rfl⟩
      exact hle _ (List.mem_map_of_mem hlink)
    exact hleast.insert answer.recordExpiresNs

end ProofboundRuntime.Connector.Dns
