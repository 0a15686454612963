import ProofboundRuntime.Lib.Files
import ProofboundRuntime.Lib.Text

/-!
# Publication of a pair of files

`pbr-diagnose` publishes a receipt together with a draft.  Both are staged as
temporary files, the draft is linked to its target and then the receipt to its
own, so that a receipt is never seen without its draft; a failure takes back what
was done.

This is all or nothing up to the last step: a failed sync of a directory is
reported when both targets are there.  And a target may have the name of one of
the temporary files, which then is seen as the target.
-/

namespace ProofboundRuntime.Publish.Pair

open Files Program

inductive Side where
  | receipt
  | draft
deriving DecidableEq

inductive Label where
  | metadata (side : Side)
  | create (side : Side)
  | write (side : Side)
  | sync (side : Side)
  | link (side : Side)
  | remove
  | openParent (side : Side)
  | syncParent (side : Side)
deriving DecidableEq

structure DiagnoseError where
  exitCode : Nat
  code : String
deriving DecidableEq

namespace DiagnoseError

def invalid (code : String) : DiagnoseError := ⟨2, code⟩

def output (code : String) : DiagnoseError := ⟨6, code⟩

end DiagnoseError

/-! ## The targets -/

section Targets

open Result

variable (currentDirectory : Option (List UInt8))
  (canonicalize : List Path.Component → Option (List Path.Component))

/-- The canonical place of a target, by the working directory and `fs::canonicalize`. -/
def targetLocation (path : List UInt8) : Except DiagnoseError Location := do
  let absolute ←
    if Path.isAbsolute path then pure path
    else do
      let directory ← okOr currentDirectory (.invalid "diagnostic.output.parent-unavailable")
      pure (Path.join directory path)
  let parent ← okOr (Path.parent absolute) (.invalid "diagnostic.output.parent-unavailable")
  let parent ← okOr (canonicalize parent) (.invalid "diagnostic.output.parent-unavailable")
  let leaf ← okOr (Path.fileName absolute) (.invalid "diagnostic.output.path-invalid")
  pure (parent, leaf)

def Side.existsCode : Side → String
  | .receipt => "diagnostic.receipt.exists"
  | .draft => "diagnostic.draft.exists"

/-- `prepare_absent_target`. -/
def prepareAbsentTarget (side : Side) (path : List UInt8) :
    FileProgram Label DiagnoseError Location := do
  let target ← lift (targetLocation currentDirectory canonicalize path)
  match ← perform (.symlinkMetadata (.metadata side) (some target)) with
  | .ok () => fail (.invalid side.existsCode)
  | .error .notFound => pure target
  | .error _ => fail (.invalid "diagnostic.output.unavailable")

/-- The two targets, as `execute` prepares them. -/
def prepareTargets (receipt draft : List UInt8) :
    FileProgram Label DiagnoseError (Location × Location) := do
  let receiptTarget ← prepareAbsentTarget currentDirectory canonicalize .receipt receipt
  let draftTarget ← prepareAbsentTarget currentDirectory canonicalize .draft draft
  if receiptTarget = draftTarget then fail (.invalid "diagnostic.output.targets-identical")
  pure (receiptTarget, draftTarget)

variable {currentDirectory canonicalize} {faults : Faults Label} {disk : Disk}

theorem prepareAbsentTarget_eq_ok {side : Side} {path : List UInt8} {target : Location}
    {disk' : Disk} (h : run (handle faults)
      (prepareAbsentTarget currentDirectory canonicalize side path) disk = (.ok target, disk')) :
    disk' = disk ∧ disk.entries target = none := by
  unfold prepareAbsentTarget at h
  obtain ⟨location, _, hlocation, h⟩ := run_bind_eq_ok h
  obtain ⟨-, rfl⟩ := Prod.mk.inj hlocation
  cases hmetadata : faults.fails (.metadata side) <;>
    cases hentry : disk.entries location <;> simp_all [handle]

/-- The targets are distinct, and nothing is there. -/
theorem prepareTargets_eq_ok {receipt draft : List UInt8} {disk' : Disk}
    {receiptTarget draftTarget : Location}
    (h : run (handle faults) (prepareTargets currentDirectory canonicalize receipt draft) disk =
      (.ok (receiptTarget, draftTarget), disk')) :
    disk' = disk ∧ receiptTarget ≠ draftTarget ∧ disk.entries receiptTarget = none ∧
      disk.entries draftTarget = none := by
  unfold prepareTargets at h
  obtain ⟨first, _, hfirst, h₁⟩ := run_bind_eq_ok h
  obtain ⟨rfl, hfirst⟩ := prepareAbsentTarget_eq_ok hfirst
  obtain ⟨second, _, hsecond, h₂⟩ := run_bind_eq_ok h₁
  obtain ⟨rfl, hsecond⟩ := prepareAbsentTarget_eq_ok hsecond
  by_cases heq : first = second
  · rw [if_pos heq] at h₂
    cases h₂
  · rw [if_neg heq] at h₂
    cases h₂
    exact ⟨rfl, heq, hfirst, hsecond⟩

end Targets

/-! ## The program -/

def temporaryName (suffix : List UInt8) : List UInt8 :=
  Utf8.bytes ".pbr-diagnose-" ++ suffix ++ Utf8.bytes ".tmp"

/-- `stage_output`. -/
def stageOutput (side : Side) (target : Location) (bytes suffix : List UInt8) :
    FileProgram Label DiagnoseError Location := do
  let temporary : Location := (target.1, temporaryName suffix)
  expect (.output "diagnostic.output.create-failed")
    (← perform (.createNew (.create side) temporary))
  let written : FileProgram Label DiagnoseError Unit := do
    expect (.output "diagnostic.output.write-failed")
      (← perform (.writeAll (.write side) temporary bytes))
    expect (.output "diagnostic.output.write-failed")
      (← perform (.syncAll (.sync side) temporary))
  match ← written.attempt with
  | .ok () => pure temporary
  | .error e =>
    let _ ← perform (.removeFile .remove temporary)
    fail e

/-- `sync_parent`. -/
def syncParent (side : Side) (target : Location) : FileProgram Label DiagnoseError Unit := do
  expect (.output "diagnostic.output.sync-failed")
    (← perform (.openDirectory (.openParent side) target.1))
  expect (.output "diagnostic.output.sync-failed") (← perform (.syncDirectory (.syncParent side)))

/-- The end of `publish_pair`: two targets in one directory are synced once. -/
def syncParents (receiptTarget draftTarget : Location) : FileProgram Label DiagnoseError Unit := do
  syncParent .receipt receiptTarget
  if receiptTarget.1 ≠ draftTarget.1 then syncParent .draft draftTarget

/-- `publish_pair` after both files are staged. -/
def publishStaged (receiptTarget draftTarget receiptTemp draftTemp : Location) :
    FileProgram Label DiagnoseError Unit := do
  match ← perform (.hardLink (.link .draft) draftTemp (some draftTarget)) with
  | .error _ =>
    let _ ← perform (.removeFile .remove receiptTemp)
    let _ ← perform (.removeFile .remove draftTemp)
    fail (.output "diagnostic.draft.publish-failed")
  | .ok () =>
    match ← perform (.hardLink (.link .receipt) receiptTemp (some receiptTarget)) with
    | .error _ =>
      let _ ← perform (.removeFile .remove draftTarget)
      let _ ← perform (.removeFile .remove receiptTemp)
      let _ ← perform (.removeFile .remove draftTemp)
      fail (.output "diagnostic.receipt.publish-failed")
    | .ok () =>
      expect (.output "diagnostic.output.cleanup-failed")
        (← perform (.removeFile .remove receiptTemp))
      expect (.output "diagnostic.output.cleanup-failed")
        (← perform (.removeFile .remove draftTemp))
      syncParents receiptTarget draftTarget

/-- `publish_pair`. -/
def publishPair (receiptTarget : Location) (receipt : List UInt8) (draftTarget : Location)
    (draft executionId : List UInt8) : FileProgram Label DiagnoseError Unit := do
  let suffix := Hex.ascii executionId
  let receiptTemp ← stageOutput .receipt receiptTarget receipt (Utf8.bytes "receipt-" ++ suffix)
  match ← (stageOutput .draft draftTarget draft (Utf8.bytes "draft-" ++ suffix)).attempt with
  | .ok draftTemp => publishStaged receiptTarget draftTarget receiptTemp draftTemp
  | .error e =>
    let _ ← perform (.removeFile .remove receiptTemp)
    fail e

/-! ## Staging -/

section Stage

variable {faults : Faults Label} {J : Disk → Prop}
  {Q : Except DiagnoseError Location → Disk → Prop} {side : Side} {target : Location}
  {bytes suffix : List UInt8} {disk : Disk}

theorem throughout_stageOutput_of_taken
    (h : faults.fails (.create side) ∨ disk.entries (target.1, temporaryName suffix) ≠ none) :
    Throughout (handle faults) J Q (stageOutput side target bytes suffix) disk ↔
      J disk ∧ Q (.error (.output "diagnostic.output.create-failed")) disk := by
  by_cases hcreate : faults.fails (.create side)
  · simp [stageOutput, handle, hcreate]
  · obtain ⟨entry, hentry⟩ := Option.ne_none_iff_exists'.mp (h.resolve_left hcreate)
    simp [stageOutput, handle, hcreate, hentry]

theorem throughout_stageOutput_of_written (hcreate : ¬faults.fails (.create side))
    (hfree : disk.entries (target.1, temporaryName suffix) = none)
    (hwrite : ¬faults.fails (.write side)) (hsync : ¬faults.fails (.sync side)) :
    Throughout (handle faults) J Q (stageOutput side target bytes suffix) disk ↔
      let temporary := (target.1, temporaryName suffix)
      let created := disk.create temporary (some (.file []))
      let written := created.put temporary (some (.file bytes))
      J disk ∧ J created ∧ J written ∧ Q (.ok temporary) written := by
  simp [stageOutput, handle, hcreate, hfree, hwrite, hsync]

/-- The file is created but not written: it is removed again. -/
theorem throughout_stageOutput_of_unwritten (hcreate : ¬faults.fails (.create side))
    (hfree : disk.entries (target.1, temporaryName suffix) = none)
    (h : faults.fails (.write side) ∨ faults.fails (.sync side)) :
    ∃ content, Throughout (handle faults) J Q (stageOutput side target bytes suffix) disk ↔
      let temporary := (target.1, temporaryName suffix)
      let created := disk.create temporary (some (.file []))
      let written := created.put temporary (some (.file content))
      J disk ∧ J created ∧ J written ∧ J (written.put temporary none) ∧
        Q (.error (.output "diagnostic.output.write-failed")) (written.put temporary none) := by
  by_cases hwrite : faults.fails (.write side)
  · refine ⟨bytes.take (faults.written (.write side)), ?_⟩
    simp [stageOutput, handle, hcreate, hfree, hwrite]
  · refine ⟨bytes, ?_⟩
    simp [stageOutput, handle, hcreate, hfree, hwrite, h.resolve_left hwrite]

end Stage

/-! ## Links -/

section Links

/-- The open or the sync of a directory fails. -/
def SideFails (faults : Faults Label) (side : Side) (parent : List Path.Component) : Prop :=
  faults.fails (.openParent side) ∨ parent = [] ∨ faults.fails (.syncParent side)

/-- The sync after the links fails. -/
def SyncFails (faults : Faults Label) (receiptTarget draftTarget : Location) : Prop :=
  SideFails faults .receipt receiptTarget.1 ∨
    receiptTarget.1 ≠ draftTarget.1 ∧ SideFails faults .draft draftTarget.1

instance (faults : Faults Label) (side : Side) (parent : List Path.Component) :
    Decidable (SideFails faults side parent) :=
  inferInstanceAs (Decidable (_ ∨ _ ∨ _))

instance (faults : Faults Label) (receiptTarget draftTarget : Location) :
    Decidable (SyncFails faults receiptTarget draftTarget) :=
  inferInstanceAs (Decidable (_ ∨ _ ∧ _))

variable {faults : Faults Label} {J : Disk → Prop} {Q : Except DiagnoseError Unit → Disk → Prop}
  {receiptTarget draftTarget receiptTemp draftTemp : Location} {receipt draft : List UInt8}
  {disk : Disk}

/-- A file that is there is not at a free path. -/
theorem ne_of_entries {path free : Location} {entry : Entry}
    (hentry : disk.entries path = some entry) (hfree : disk.entries free = none) :
    path ≠ free := by
  intro h
  rw [h, hfree] at hentry
  cases hentry

theorem throughout_syncParent {side : Side} {target : Location} :
    Throughout (handle faults) J Q (syncParent side target) disk ↔
      J disk ∧ Q (if SideFails faults side target.1
        then .error (.output "diagnostic.output.sync-failed") else .ok ()) disk := by
  by_cases hopen : faults.fails (.openParent side) ∨ target.1 = []
  · have hfails : SideFails faults side target.1 := by
      unfold SideFails
      tauto
    simp [syncParent, handle, hopen, hfails]
  · cases hsync : faults.fails (.syncParent side) <;>
      simp_all [syncParent, handle, SideFails]

theorem throughout_syncParents :
    Throughout (handle faults) J Q (syncParents receiptTarget draftTarget) disk ↔
      J disk ∧ Q (if SyncFails faults receiptTarget draftTarget
        then .error (.output "diagnostic.output.sync-failed") else .ok ()) disk := by
  rw [syncParents, throughout_bind, throughout_syncParent]
  by_cases hreceipt : SideFails faults .receipt receiptTarget.1
  · have hfails : SyncFails faults receiptTarget draftTarget := .inl hreceipt
    simp only [if_pos hreceipt, if_pos hfails]
  rw [if_neg hreceipt]
  by_cases hparent : receiptTarget.1 = draftTarget.1
  · have hfails : ¬SyncFails faults receiptTarget draftTarget := by
      rintro (h | ⟨h, -⟩)
      · exact hreceipt h
      · exact h hparent
    simp [hparent, hfails]
  · have hiff : SyncFails faults receiptTarget draftTarget ↔
        SideFails faults .draft draftTarget.1 := by
      simp [SyncFails, hreceipt, hparent]
    simp [hparent, hiff, throughout_syncParent]

variable (hreceipt : disk.entries receiptTemp = some (.file receipt))
  (hdraft : disk.entries draftTemp = some (.file draft))
  (hown : receiptTemp ∈ disk.created ∧ draftTemp ∈ disk.created) (hne : receiptTemp ≠ draftTemp)

include hreceipt hdraft hown hne

theorem throughout_publishStaged_of_draft_failed
    (h : faults.fails (.link .draft) ∨ disk.entries draftTarget ≠ none) :
    Throughout (handle faults) J Q
        (publishStaged receiptTarget draftTarget receiptTemp draftTemp) disk ↔
      let removed := (disk.put receiptTemp none).put draftTemp none
      J disk ∧ J (disk.put receiptTemp none) ∧ J removed ∧
        Q (.error (.output "diagnostic.draft.publish-failed")) removed := by
  have hkept := disk.put_entries_of_ne none hne.symm
  by_cases hlink : faults.fails (.link .draft)
  · simp [publishStaged, handle, hlink, hreceipt, hdraft, hown, hkept]
  · obtain ⟨entry, hentry⟩ := Option.ne_none_iff_exists'.mp (h.resolve_left hlink)
    simp [publishStaged, handle, hlink, hentry, hreceipt, hdraft, hown, hkept]

variable (hdraftLink : ¬faults.fails (.link .draft)) (hdraftFree : disk.entries draftTarget = none)

include hdraftLink hdraftFree

theorem throughout_publishStaged_of_receipt_failed
    (h : faults.fails (.link .receipt) ∨
      (disk.create draftTarget (some (.file draft))).entries receiptTarget ≠ none) :
    Throughout (handle faults) J Q
        (publishStaged receiptTarget draftTarget receiptTemp draftTemp) disk ↔
      let linked := disk.create draftTarget (some (.file draft))
      let unlinked := linked.put draftTarget none
      let removed := (unlinked.put receiptTemp none).put draftTemp none
      J disk ∧ J linked ∧ J unlinked ∧ J (unlinked.put receiptTemp none) ∧ J removed ∧
        Q (.error (.output "diagnostic.receipt.publish-failed")) removed := by
  have hreceiptNe := ne_of_entries hreceipt hdraftFree
  have hdraftNe := ne_of_entries hdraft hdraftFree
  by_cases hlink : faults.fails (.link .receipt)
  · simp [publishStaged, handle, hdraftLink, hdraftFree, hlink, hreceipt, hdraft, hown,
      Disk.put_entries_of_ne, Disk.create_entries_of_ne, hne.symm, hreceiptNe, hdraftNe]
  · obtain ⟨entry, hentry⟩ := Option.ne_none_iff_exists'.mp (h.resolve_left hlink)
    simp [publishStaged, handle, hdraftLink, hdraftFree, hlink, hentry, hreceipt, hdraft, hown,
      Disk.put_entries_of_ne, Disk.create_entries_of_ne, hne.symm, hreceiptNe, hdraftNe]

theorem throughout_publishStaged_of_linked (hreceiptLink : ¬faults.fails (.link .receipt))
    (hreceiptFree : (disk.create draftTarget (some (.file draft))).entries receiptTarget = none) :
    Throughout (handle faults) J Q
        (publishStaged receiptTarget draftTarget receiptTemp draftTemp) disk ↔
      let linked := disk.create draftTarget (some (.file draft))
      let both := linked.create receiptTarget (some (.file receipt))
      let removed := (both.put receiptTemp none).put draftTemp none
      J disk ∧ J linked ∧ J both ∧ J (both.put receiptTemp none) ∧ J removed ∧
        Q (if SyncFails faults receiptTarget draftTarget
          then .error (.output "diagnostic.output.sync-failed") else .ok ()) removed := by
  have hreceiptNe := ne_of_entries hreceipt hdraftFree
  have hdraftNe := ne_of_entries hdraft hdraftFree
  have hkept := disk.create_entries_of_ne (some (.file draft)) hreceiptNe
  have hkept' := disk.create_entries_of_ne (some (.file draft)) hdraftNe
  have hreceiptNe' := ne_of_entries (hkept.trans hreceipt) hreceiptFree
  have hdraftNe' := ne_of_entries (hkept'.trans hdraft) hreceiptFree
  simp [publishStaged, handle, hdraftLink, hdraftFree, hreceiptLink, hreceiptFree, hreceipt,
    hdraft, hown, Disk.put_entries_of_ne, Disk.create_entries_of_ne, hne.symm, hreceiptNe, hdraftNe,
    hreceiptNe', hdraftNe', throughout_syncParents]

end Links

/-! ## The pair -/

def receiptTemporary (receiptTarget : Location) (executionId : List UInt8) : Location :=
  (receiptTarget.1, temporaryName (Utf8.bytes "receipt-" ++ Hex.ascii executionId))

def draftTemporary (draftTarget : Location) (executionId : List UInt8) : Location :=
  (draftTarget.1, temporaryName (Utf8.bytes "draft-" ++ Hex.ascii executionId))

theorem receiptTemporary_ne_draftTemporary (receiptTarget draftTarget : Location)
    (executionId : List UInt8) :
    receiptTemporary receiptTarget executionId ≠ draftTemporary draftTarget executionId := by
  intro h
  have hlength := congrArg (fun location => location.2.length) h
  have hreceipt : (Utf8.bytes "receipt-").length = 8 := by decide
  have hdraft : (Utf8.bytes "draft-").length = 6 := by decide
  simp only [receiptTemporary, draftTemporary, temporaryName, List.length_append, hreceipt,
    hdraft] at hlength
  omega

/-- The receipt is there only if the draft is. -/
def DraftFirst (receiptTarget draftTarget : Location) (disk : Disk) : Prop :=
  disk.entries receiptTarget ≠ none → disk.entries draftTarget ≠ none

variable {receiptTarget draftTarget : Location}

theorem draftFirst_of_absent {disk : Disk} (h : disk.entries receiptTarget = none) :
    DraftFirst receiptTarget draftTarget disk :=
  fun hthere => absurd h hthere

theorem draftFirst_of_draft {disk : Disk} {entry : Entry}
    (h : disk.entries draftTarget = some entry) : DraftFirst receiptTarget draftTarget disk := by
  intro _ habsent
  rw [h] at habsent
  cases habsent

/-- Both targets are there with their bytes, or all is as before. -/
def Outcome (entries : Location → Option Entry) (receiptTarget : Location) (receipt : List UInt8)
    (draftTarget : Location) (draft : List UInt8) : Except DiagnoseError Unit → Disk → Prop
  | .ok (), disk => disk.entries = Function.update
      (Function.update entries draftTarget (some (.file draft))) receiptTarget
      (some (.file receipt))
  | .error _, disk => disk.entries = entries

def AllOrNothing (faults : Faults Label) (entries : Location → Option Entry)
    (receiptTarget : Location) (receipt : List UInt8) (draftTarget : Location)
    (draft executionId : List UInt8) : Prop :=
  Throughout (handle faults) (DraftFirst receiptTarget draftTarget)
    (Outcome entries receiptTarget receipt draftTarget draft)
    (publishPair receiptTarget receipt draftTarget draft executionId) (.start entries)

theorem not_allOrNothing_of_left {faults : Faults Label} {entries : Location → Option Entry}
    {receipt draft executionId : List UInt8} (location : Location)
    (hfails : (run (handle faults)
      (publishPair receiptTarget receipt draftTarget draft executionId)
      (.start entries)).1.isOk = false)
    (hleft : (run (handle faults)
      (publishPair receiptTarget receipt draftTarget draft executionId)
      (.start entries)).2.entries location ≠ entries location) :
    ¬AllOrNothing faults entries receiptTarget receipt draftTarget draft executionId := by
  intro h
  have houtcome := h.2
  cases hresult : (run (handle faults)
      (publishPair receiptTarget receipt draftTarget draft executionId) (.start entries)).1 with
  | ok result =>
    rw [hresult] at hfails
    cases hfails
  | error e =>
    rw [hresult] at houtcome
    exact hleft (congrFun houtcome location)

/-- A file is staged. -/
def Stages (faults : Faults Label) (entries : Location → Option Entry) (side : Side)
    (temporary : Location) : Prop :=
  ¬faults.fails (.create side) ∧ entries temporary = none ∧ ¬faults.fails (.write side) ∧
    ¬faults.fails (.sync side)

section Conditions

variable (faults : Faults Label) (entries : Location → Option Entry)
  (receiptTarget draftTarget : Location) (executionId : List UInt8)

/-- The receipt's target has the name of its temporary file. -/
def StagedAsReceipt : Prop :=
  receiptTarget = receiptTemporary receiptTarget executionId ∧ ¬faults.fails (.create .receipt)

/-- The receipt's target has the name of the draft's temporary file.  When also the
draft's target has the name of the receipt's temporary file, the two are there in
the right order until both are staged. -/
def StagedAsDraft : Prop :=
  receiptTarget = draftTemporary draftTarget executionId ∧
    Stages faults entries .receipt (receiptTemporary receiptTarget executionId) ∧
    ¬faults.fails (.create .draft) ∧
    (draftTarget = receiptTemporary receiptTarget executionId →
      ¬faults.fails (.write .draft) ∧ ¬faults.fails (.sync .draft))

/-- Both targets are linked, and then the sync of a directory fails. -/
def FailsAfterLinks : Prop :=
  Stages faults entries .receipt (receiptTemporary receiptTarget executionId) ∧
    Stages faults entries .draft (draftTemporary draftTarget executionId) ∧
    (∀ side, ¬faults.fails (.link side)) ∧
    (∀ target ∈ [receiptTarget, draftTarget],
      target ≠ receiptTemporary receiptTarget executionId ∧
        target ≠ draftTemporary draftTarget executionId) ∧
    SyncFails faults receiptTarget draftTarget

/-- The inputs for which the publication is not all or nothing. -/
def Breaks : Prop :=
  StagedAsReceipt faults receiptTarget executionId ∨
    StagedAsDraft faults entries receiptTarget draftTarget executionId ∨
    FailsAfterLinks faults entries receiptTarget draftTarget executionId

end Conditions

section

variable {faults : Faults Label} {entries : Location → Option Entry}
  {receiptTarget draftTarget : Location} {receipt draft executionId : List UInt8}

/-- The receipt cannot be staged: nothing is there, or nothing is left. -/
theorem allOrNothing_of_receipt_taken (hreceipt : entries receiptTarget = none)
    (h : faults.fails (.create .receipt) ∨
      entries (receiptTemporary receiptTarget executionId) ≠ none) :
    AllOrNothing faults entries receiptTarget receipt draftTarget draft executionId ∧
      ¬Breaks faults entries receiptTarget draftTarget executionId := by
  refine ⟨?_, ?_⟩
  · rw [AllOrNothing, publishPair, throughout_bind, throughout_stageOutput_of_taken h]
    exact ⟨fun habsent => absurd hreceipt habsent, rfl⟩
  · rintro (⟨hname, hcreate⟩ | ⟨-, ⟨hcreate, hfree, -⟩, -⟩ | ⟨⟨hcreate, hfree, -⟩, -⟩)
    · rw [← hname] at h
      exact h.elim hcreate (absurd hreceipt)
    · exact h.elim hcreate (absurd hfree)
    · exact h.elim hcreate (absurd hfree)

/-- The receipt is seen as soon as it is created. -/
theorem not_allOrNothing_of_stagedAsReceipt (hne : receiptTarget ≠ draftTarget)
    (hdraft : entries draftTarget = none) (hcreate : ¬faults.fails (.create .receipt))
    (hfree : entries (receiptTemporary receiptTarget executionId) = none)
    (hname : receiptTarget = receiptTemporary receiptTarget executionId) :
    ¬AllOrNothing faults entries receiptTarget receipt draftTarget draft executionId := by
  rw [AllOrNothing, publishPair, throughout_bind]
  intro h
  have hcreated : DraftFirst receiptTarget draftTarget ((Disk.start entries).create
      (receiptTemporary receiptTarget executionId) (some (.file []))) := by
    by_cases hwritten : faults.fails (.write .receipt) ∨ faults.fails (.sync .receipt)
    · have hstart : (Disk.start entries).entries _ = none := hfree
      obtain ⟨content, hiff⟩ := throughout_stageOutput_of_unwritten hcreate hstart hwritten
      exact (hiff.mp h).2.1
    · rw [not_or] at hwritten
      exact ((throughout_stageOutput_of_written hcreate hfree hwritten.1 hwritten.2).mp h).2.1
  rw [← hname] at hcreated
  refine hcreated (by simp) ?_
  rwa [Disk.create_entries_of_ne _ _ hne.symm]

/-- The disk when the receipt is staged, and when the draft is staged as well. -/
def receiptStaged (entries : Location → Option Entry) (receiptTemp : Location)
    (receipt : List UInt8) : Disk :=
  ((Disk.start entries).create receiptTemp (some (.file []))).put receiptTemp
    (some (.file receipt))

def bothStaged (entries : Location → Option Entry) (receiptTemp : Location)
    (receipt : List UInt8) (draftTemp : Location) (draft : List UInt8) : Disk :=
  ((receiptStaged entries receiptTemp receipt).create draftTemp (some (.file []))).put draftTemp
    (some (.file draft))

theorem receiptStaged_entries (entries : Location → Option Entry) (receiptTemp : Location)
    (receipt : List UInt8) :
    (receiptStaged entries receiptTemp receipt).entries =
      Function.update entries receiptTemp (some (.file receipt)) := by
  simp [receiptStaged, Disk.put_entries, Disk.create_entries, Disk.start]

theorem staged_receiptStaged (entries : Location → Option Entry) (receiptTemp : Location)
    (receipt : List UInt8) :
    Staged entries receiptTemp receipt (receiptStaged entries receiptTemp receipt) :=
  (Staged.create (.start entries) receiptTemp).write receipt

/-- What is left of `publish_pair` when both files are staged. -/
def EndsAllOrNothing (faults : Faults Label) (entries : Location → Option Entry)
    (receiptTarget : Location) (receipt : List UInt8) (draftTarget : Location)
    (draft : List UInt8) (receiptTemp draftTemp : Location) : Prop :=
  Throughout (handle faults) (DraftFirst receiptTarget draftTarget)
    (Outcome entries receiptTarget receipt draftTarget draft)
    (publishStaged receiptTarget draftTarget receiptTemp draftTemp)
    (bothStaged entries receiptTemp receipt draftTemp draft)

theorem bothStaged_entries (entries : Location → Option Entry) (receiptTemp : Location)
    (receipt : List UInt8) (draftTemp : Location) (draft : List UInt8) :
    (bothStaged entries receiptTemp receipt draftTemp draft).entries =
      Function.update (Function.update entries receiptTemp (some (.file receipt))) draftTemp
        (some (.file draft)) := by
  simp [bothStaged, Disk.put_entries, Disk.create_entries, receiptStaged_entries]

section

variable (hreceipt : entries receiptTarget = none)
  (hname : receiptTarget ≠ receiptTemporary receiptTarget executionId)
  (hfree : entries (receiptTemporary receiptTarget executionId) = none)

include hreceipt hname hfree

theorem allOrNothing_of_receipt_unwritten (hcreate : ¬faults.fails (.create .receipt))
    (hwritten : faults.fails (.write .receipt) ∨ faults.fails (.sync .receipt)) :
    AllOrNothing faults entries receiptTarget receipt draftTarget draft executionId := by
  rw [AllOrNothing, publishPair, throughout_bind]
  have hstart : (Disk.start entries).entries _ = none := hfree
  obtain ⟨content, hiff⟩ := throughout_stageOutput_of_unwritten hcreate hstart hwritten
  unfold receiptTemporary at hname hfree
  -- The receipt's target is never there.
  refine hiff.mpr ⟨?_, ?_, ?_, ?_, ?_⟩
  iterate 4
    apply draftFirst_of_absent
    simpa [Disk.put_entries, Disk.create_entries, Disk.start, hname] using hreceipt
  show _ = entries
  simpa [Disk.put_entries, Disk.create_entries, Disk.start] using hfree.symm

/-- What is left of the program when the receipt is staged. -/
theorem allOrNothing_iff_of_receipt_staged
    (hstages : Stages faults entries .receipt (receiptTemporary receiptTarget executionId)) :
    AllOrNothing faults entries receiptTarget receipt draftTarget draft executionId ↔
      Throughout (handle faults) (DraftFirst receiptTarget draftTarget)
        (Outcome entries receiptTarget receipt draftTarget draft) (do
          match ← (stageOutput .draft draftTarget draft
            (Utf8.bytes "draft-" ++ Hex.ascii executionId)).attempt with
          | .ok draftTemp =>
            publishStaged receiptTarget draftTarget (receiptTemporary receiptTarget executionId)
              draftTemp
          | .error e =>
            let _ ← perform (.removeFile .remove (receiptTemporary receiptTarget executionId))
            fail e)
        (receiptStaged entries (receiptTemporary receiptTarget executionId) receipt) := by
  obtain ⟨hcreate, -, hwrite, hsync⟩ := hstages
  rw [AllOrNothing, publishPair, throughout_bind]
  refine (throughout_stageOutput_of_written hcreate hfree hwrite hsync).trans ?_
  unfold receiptTemporary at hname
  refine ⟨fun h => h.2.2.2, fun h => ⟨?_, ?_, ?_, h⟩⟩
  iterate 3
    apply draftFirst_of_absent
    simpa [Disk.put_entries, Disk.create_entries, Disk.start, hname] using hreceipt

variable (hstages : Stages faults entries .receipt (receiptTemporary receiptTarget executionId))

include hstages

/-- The draft cannot be created: the staged receipt is removed. -/
theorem allOrNothing_of_draft_taken
    (h : faults.fails (.create .draft) ∨
      entries (draftTemporary draftTarget executionId) ≠ none) :
    AllOrNothing faults entries receiptTarget receipt draftTarget draft executionId := by
  have htemps := receiptTemporary_ne_draftTemporary receiptTarget draftTarget executionId
  set receiptTemp := receiptTemporary receiptTarget executionId
  set draftTemp := draftTemporary draftTarget executionId
  have htaken : faults.fails (.create .draft) ∨
      (receiptStaged entries receiptTemp receipt).entries draftTemp ≠ none := by
    rwa [receiptStaged_entries, Function.update_of_ne htemps.symm]
  have hstaged : (receiptStaged entries receiptTemp receipt).entries receiptTarget = none := by
    rw [receiptStaged_entries, Function.update_of_ne hname, hreceipt]
  rw [allOrNothing_iff_of_receipt_staged hreceipt hname hfree hstages, throughout_attempt_bind]
  refine (throughout_stageOutput_of_taken htaken).mpr ⟨?_, ?_⟩
  · exact draftFirst_of_absent hstaged
  · obtain ⟨hremove, hentries⟩ :=
      (staged_receiptStaged entries _ receipt).remove hfree faults Label.remove
    rw [throughout_perform_bind, hremove, throughout_fail]
    refine ⟨draftFirst_of_absent hstaged, draftFirst_of_absent ?_, hentries⟩
    rw [hentries, hreceipt]

end

section

variable (hne : receiptTarget ≠ draftTarget) (hreceipt : entries receiptTarget = none)
  (hdraft : entries draftTarget = none)
  (hname : receiptTarget ≠ receiptTemporary receiptTarget executionId)

include hne hreceipt hdraft hname

/-- A receipt target at the draft's temporary file is seen, unless the draft's target
is at the receipt's. -/
theorem draftFirst_iff_of_staged (disk : Disk) {content : List UInt8}
    (hentries : disk.entries = Function.update
      (Function.update entries (receiptTemporary receiptTarget executionId)
        (some (.file receipt)))
      (draftTemporary draftTarget executionId) (some (.file content))) :
    DraftFirst receiptTarget draftTarget disk ↔
      (receiptTarget = draftTemporary draftTarget executionId →
        draftTarget = receiptTemporary receiptTarget executionId) := by
  rw [DraftFirst, hentries]
  by_cases hseen : receiptTarget = draftTemporary draftTarget executionId
  · have hdraftNe : draftTarget ≠ draftTemporary draftTarget executionId :=
      fun h => hne (hseen.trans h.symm)
    simp [hseen, hdraftNe, Function.update_apply, hdraft]
  · simp [hseen, hname, hreceipt]

variable (hstages : Stages faults entries .receipt (receiptTemporary receiptTarget executionId))
  (hcreate : ¬faults.fails (.create .draft))
  (hfree : entries (draftTemporary draftTarget executionId) = none)

include hstages hcreate hfree

theorem allOrNothing_iff_of_draft_unwritten
    (hwritten : faults.fails (.write .draft) ∨ faults.fails (.sync .draft)) :
    AllOrNothing faults entries receiptTarget receipt draftTarget draft executionId ↔
      (receiptTarget = draftTemporary draftTarget executionId →
        draftTarget = receiptTemporary receiptTarget executionId) := by
  have htemps := receiptTemporary_ne_draftTemporary receiptTarget draftTarget executionId
  set receiptTemp := receiptTemporary receiptTarget executionId
  set draftTemp := draftTemporary draftTarget executionId
  have hstaged := staged_receiptStaged entries receiptTemp receipt
  have hfree' := (hstaged.others _ htemps.symm).trans hfree
  have habsent := (hstaged.others _ hname).trans hreceipt
  rw [allOrNothing_iff_of_receipt_staged hreceipt hname hstages.2.1 hstages,
    throughout_attempt_bind]
  obtain ⟨content, hiff⟩ := throughout_stageOutput_of_unwritten hcreate hfree' hwritten
  set created := (receiptStaged entries receiptTemp receipt).create draftTemp (some (.file []))
    with hcreated
  have hcreatedFirst := draftFirst_iff_of_staged hne hreceipt hdraft hname created
    (by rw [hcreated, Disk.create_entries, receiptStaged_entries])
  set written := created.put draftTemp (some (.file content)) with hwrittenDisk
  have hwrittenFirst := draftFirst_iff_of_staged hne hreceipt hdraft hname written
    (by rw [hwrittenDisk, hcreated, Disk.put_entries, Disk.create_entries, receiptStaged_entries,
      Function.update_idem])
  -- When the draft is removed again, only the receipt is staged.
  have hremoved : Staged entries receiptTemp receipt (written.put draftTemp none) := by
    have hentries : (written.put draftTemp none).entries =
        (receiptStaged entries receiptTemp receipt).entries := by
      rw [hwrittenDisk, hcreated, Disk.put_entries, Disk.put_entries, Disk.create_entries,
        Function.update_idem, Function.update_idem, ← hfree', Function.update_eq_self]
    exact ⟨by rw [hentries, hstaged.file], List.mem_cons_of_mem _ hstaged.own,
      fun path hpath => by rw [hentries, hstaged.others path hpath]⟩
  have hremovedFirst : DraftFirst receiptTarget draftTarget (written.put draftTemp none) :=
    draftFirst_of_absent (by rw [hremoved.others _ hname, hreceipt])
  refine hiff.trans ⟨fun h => hcreatedFirst.mp h.2.1, fun h =>
    ⟨draftFirst_of_absent habsent, hcreatedFirst.mpr h, hwrittenFirst.mpr h, hremovedFirst, ?_⟩⟩
  obtain ⟨hremove, hentries⟩ := hremoved.remove hstages.2.1 faults Label.remove
  show Throughout (handle faults) _ _ (perform _ >>= _) (written.put draftTemp none)
  rw [throughout_perform_bind, hremove, throughout_fail]
  refine ⟨hremovedFirst, draftFirst_of_absent ?_, hentries⟩
  rw [hentries, hreceipt]

/-- What is left of the program when both files are staged. -/
theorem allOrNothing_iff_of_staged (hwrite : ¬faults.fails (.write .draft))
    (hsync : ¬faults.fails (.sync .draft)) :
    AllOrNothing faults entries receiptTarget receipt draftTarget draft executionId ↔
      (receiptTarget = draftTemporary draftTarget executionId →
        draftTarget = receiptTemporary receiptTarget executionId) ∧
      EndsAllOrNothing faults entries receiptTarget receipt draftTarget draft
        (receiptTemporary receiptTarget executionId) (draftTemporary draftTarget executionId) := by
  have htemps := receiptTemporary_ne_draftTemporary receiptTarget draftTarget executionId
  set receiptTemp := receiptTemporary receiptTarget executionId
  set draftTemp := draftTemporary draftTarget executionId
  have hstaged := staged_receiptStaged entries receiptTemp receipt
  have hfree' := (hstaged.others _ htemps.symm).trans hfree
  have habsent := (hstaged.others _ hname).trans hreceipt
  rw [allOrNothing_iff_of_receipt_staged hreceipt hname hstages.2.1 hstages,
    throughout_attempt_bind]
  refine (throughout_stageOutput_of_written hcreate hfree' hwrite hsync).trans ?_
  set created := (receiptStaged entries receiptTemp receipt).create draftTemp (some (.file []))
    with hcreated
  have hcreatedFirst := draftFirst_iff_of_staged hne hreceipt hdraft hname created
    (by rw [hcreated, Disk.create_entries, receiptStaged_entries])
  have hbothFirst := draftFirst_iff_of_staged hne hreceipt hdraft hname _
    (bothStaged_entries entries receiptTemp receipt draftTemp draft)
  exact ⟨fun h => ⟨hcreatedFirst.mp h.2.1, h.2.2.2⟩, fun h =>
    ⟨draftFirst_of_absent habsent, hcreatedFirst.mpr h.1, hbothFirst.mpr h.1, h.2⟩⟩

end

theorem bothStaged_elsewhere (receipt draft : List UInt8) {receiptTemp draftTemp path : Location}
    (h : path ≠ receiptTemp) (h' : path ≠ draftTemp) :
    (bothStaged entries receiptTemp receipt draftTemp draft).entries path = entries path := by
  rw [bothStaged_entries, Function.update_of_ne h', Function.update_of_ne h]

section

variable {receiptTemp draftTemp : Location} (htemps : receiptTemp ≠ draftTemp)

include htemps

theorem bothStaged_spec (entries : Location → Option Entry) (receipt draft : List UInt8) :
    (bothStaged entries receiptTemp receipt draftTemp draft).entries receiptTemp =
        some (.file receipt) ∧
      (bothStaged entries receiptTemp receipt draftTemp draft).entries draftTemp =
        some (.file draft) ∧
      receiptTemp ∈ (bothStaged entries receiptTemp receipt draftTemp draft).created ∧
      draftTemp ∈ (bothStaged entries receiptTemp receipt draftTemp draft).created := by
  refine ⟨?_, ?_, ?_, ?_⟩
  · rw [bothStaged_entries, Function.update_of_ne htemps, Function.update_self]
  · rw [bothStaged_entries, Function.update_self]
  · simp [bothStaged, receiptStaged]
  · simp [bothStaged]

/-- The names are crossed: the staged receipt is removed first, and the draft is seen
as the receipt. -/
theorem not_throughout_publishStaged_of_crossed
    (hseen : receiptTarget = draftTemp) (hcrossed : draftTarget = receiptTemp) :
    ¬EndsAllOrNothing faults entries receiptTarget receipt draftTarget draft receiptTemp
      draftTemp := by
  subst hseen hcrossed
  obtain ⟨hreceipt, hdraft, hown⟩ := bothStaged_spec htemps entries receipt draft
  rw [EndsAllOrNothing, throughout_publishStaged_of_draft_failed hreceipt hdraft hown htemps
    (.inr (by rw [hreceipt]; exact nofun))]
  rintro ⟨-, hremoved, -⟩
  refine hremoved ?_ (by simp)
  rw [Disk.put_entries_of_ne _ _ htemps.symm, hdraft]
  exact nofun

variable (hreceipt : entries receiptTarget = none) (hfree : entries receiptTemp = none)
  (hdraftFree : entries draftTemp = none) (hname : receiptTarget ≠ receiptTemp)
  (hname' : receiptTarget ≠ draftTemp)

include hreceipt hfree hdraftFree hname hname'

theorem throughout_publishStaged_of_draft_unlinked
    (h : faults.fails (.link .draft) ∨ draftTarget = receiptTemp ∨ draftTarget = draftTemp) :
    EndsAllOrNothing faults entries receiptTarget receipt draftTarget draft receiptTemp
      draftTemp := by
  obtain ⟨hreceiptFile, hdraftFile, hown⟩ := bothStaged_spec htemps entries receipt draft
  have hfails : faults.fails (.link .draft) ∨
      (bothStaged entries receiptTemp receipt draftTemp draft).entries draftTarget ≠ none := by
    rcases h with h | rfl | rfl
    · exact .inl h
    · exact .inr (by rw [hreceiptFile]; exact nofun)
    · exact .inr (by rw [hdraftFile]; exact nofun)
  rw [EndsAllOrNothing,
    throughout_publishStaged_of_draft_failed hreceiptFile hdraftFile hown htemps hfails]
  refine ⟨?_, ?_, ?_, ?_⟩
  iterate 3
    apply draftFirst_of_absent
    simp [Disk.put_entries, bothStaged_entries, hname, hname', hreceipt]
  funext path
  simp only [Disk.put_entries, bothStaged_entries, Function.update_apply]
  split_ifs <;> simp_all

variable (hne : receiptTarget ≠ draftTarget) (hdraft : entries draftTarget = none)

include hne hdraft

theorem throughout_publishStaged_of_receipt_unlinked (hdraftLink : ¬faults.fails (.link .draft))
    (hdraftName : draftTarget ≠ receiptTemp) (hdraftName' : draftTarget ≠ draftTemp)
    (h : faults.fails (.link .receipt)) :
    EndsAllOrNothing faults entries receiptTarget receipt draftTarget draft receiptTemp
      draftTemp := by
  obtain ⟨hreceiptFile, hdraftFile, hown⟩ := bothStaged_spec htemps entries receipt draft
  have hdraftAbsent := (bothStaged_elsewhere receipt draft hdraftName hdraftName').trans hdraft
  rw [EndsAllOrNothing, throughout_publishStaged_of_receipt_failed hreceiptFile hdraftFile hown
    htemps hdraftLink hdraftAbsent (.inl h)]
  refine ⟨?_, ?_, ?_, ?_, ?_, ?_⟩
  iterate 5
    apply draftFirst_of_absent
    simp [Disk.put_entries, Disk.create_entries, bothStaged_entries, hname, hname', hne, hreceipt]
  funext path
  simp only [Disk.put_entries, Disk.create_entries, bothStaged_entries, Function.update_apply]
  split_ifs <;> simp_all

/-- Both targets are linked: only a failed sync is not all or nothing. -/
theorem throughout_publishStaged_of_links (hdraftLink : ¬faults.fails (.link .draft))
    (hdraftName : draftTarget ≠ receiptTemp) (hdraftName' : draftTarget ≠ draftTemp)
    (hreceiptLink : ¬faults.fails (.link .receipt)) :
    EndsAllOrNothing faults entries receiptTarget receipt draftTarget draft receiptTemp
        draftTemp ↔
      ¬SyncFails faults receiptTarget draftTarget := by
  obtain ⟨hreceiptFile, hdraftFile, hown⟩ := bothStaged_spec htemps entries receipt draft
  have hdraftAbsent := (bothStaged_elsewhere receipt draft hdraftName hdraftName').trans hdraft
  have hreceiptAbsent : ((bothStaged entries receiptTemp receipt draftTemp draft).create
      draftTarget (some (.file draft))).entries receiptTarget = none := by
    rw [Disk.create_entries_of_ne _ _ hne, bothStaged_elsewhere _ _ hname hname', hreceipt]
  rw [EndsAllOrNothing, throughout_publishStaged_of_linked hreceiptFile hdraftFile hown htemps
    hdraftLink hdraftAbsent hreceiptLink hreceiptAbsent]
  by_cases hsync : SyncFails faults receiptTarget draftTarget
  · refine iff_of_false ?_ (not_not_intro hsync)
    rintro ⟨-, -, -, -, -, houtcome⟩
    rw [if_pos hsync] at houtcome
    have htarget := congrFun houtcome receiptTarget
    simp [Disk.put_entries, Disk.create_entries, hname, hname', hreceipt] at htarget
  · refine iff_of_true ⟨?_, ?_, ?_, ?_, ?_, ?_⟩ hsync
    · exact draftFirst_of_absent ((bothStaged_elsewhere _ _ hname hname').trans hreceipt)
    · exact draftFirst_of_absent hreceiptAbsent
    iterate 3
      refine draftFirst_of_draft (?_ : _ = some (Entry.file draft))
      simp [Disk.put_entries, Disk.create_entries, hne.symm, hdraftName, hdraftName']
    rw [if_neg hsync]
    funext path
    simp only [Disk.put_entries, Disk.create_entries, bothStaged_entries, Function.update_apply]
    split_ifs <;> simp_all

end

/-- The inputs that break the publication once both files are staged. -/
theorem breaks_iff_of_staged
    (hname : receiptTarget ≠ receiptTemporary receiptTarget executionId)
    (hname' : receiptTarget ≠ draftTemporary draftTarget executionId)
    (hstages : Stages faults entries .receipt (receiptTemporary receiptTarget executionId))
    (hdraftStages : Stages faults entries .draft (draftTemporary draftTarget executionId)) :
    Breaks faults entries receiptTarget draftTarget executionId ↔
      (∀ side, ¬faults.fails (.link side)) ∧
        (draftTarget ≠ receiptTemporary receiptTarget executionId ∧
          draftTarget ≠ draftTemporary draftTarget executionId) ∧
        SyncFails faults receiptTarget draftTarget := by
  have hreceipt : ¬StagedAsReceipt faults receiptTarget executionId := fun h => hname h.1
  have hdraft : ¬StagedAsDraft faults entries receiptTarget draftTarget executionId :=
    fun h => hname' h.1
  simp [Breaks, hreceipt, hdraft, FailsAfterLinks, hstages, hdraftStages, hname, hname']

/-- The publication of a pair is all or nothing, and the receipt is never there
without the draft, unless the inputs break it. -/
theorem publishPair_allOrNothing_iff (hne : receiptTarget ≠ draftTarget)
    (hreceipt : entries receiptTarget = none) (hdraft : entries draftTarget = none) :
    AllOrNothing faults entries receiptTarget receipt draftTarget draft executionId ↔
      ¬Breaks faults entries receiptTarget draftTarget executionId := by
  have htemps := receiptTemporary_ne_draftTemporary receiptTarget draftTarget executionId
  by_cases htaken : faults.fails (.create .receipt) ∨
      entries (receiptTemporary receiptTarget executionId) ≠ none
  · obtain ⟨hholds, hbreaks⟩ := allOrNothing_of_receipt_taken hreceipt htaken
    exact iff_of_true hholds hbreaks
  rw [not_or, not_not] at htaken
  obtain ⟨hcreate, hfree⟩ := htaken
  by_cases hname : receiptTarget = receiptTemporary receiptTarget executionId
  · refine iff_of_false ?_ (not_not_intro (.inl ⟨hname, hcreate⟩))
    exact not_allOrNothing_of_stagedAsReceipt hne hdraft hcreate hfree hname
  have hreceiptSeen : ¬StagedAsReceipt faults receiptTarget executionId := fun h => hname h.1
  by_cases hwritten : faults.fails (.write .receipt) ∨ faults.fails (.sync .receipt)
  · refine iff_of_true
      (allOrNothing_of_receipt_unwritten hreceipt hname hfree hcreate hwritten) ?_
    have hstages : ¬Stages faults entries .receipt (receiptTemporary receiptTarget executionId) :=
      fun h => hwritten.elim h.2.2.1 h.2.2.2
    simp [Breaks, hreceiptSeen, StagedAsDraft, FailsAfterLinks, hstages]
  rw [not_or] at hwritten
  have hstages : Stages faults entries .receipt (receiptTemporary receiptTarget executionId) :=
    ⟨hcreate, hfree, hwritten⟩
  by_cases hdraftTaken : faults.fails (.create .draft) ∨
      entries (draftTemporary draftTarget executionId) ≠ none
  · refine iff_of_true (allOrNothing_of_draft_taken hreceipt hname hfree hstages hdraftTaken) ?_
    rintro (h | ⟨hseen, -, hdraftCreate, -⟩ | ⟨-, ⟨hdraftCreate, hdraftFree, -⟩, -⟩)
    · exact hreceiptSeen h
    · rw [← hseen] at hdraftTaken
      exact hdraftTaken.elim hdraftCreate (absurd hreceipt)
    · exact hdraftTaken.elim hdraftCreate (absurd hdraftFree)
  rw [not_or, not_not] at hdraftTaken
  obtain ⟨hdraftCreate, hdraftFree⟩ := hdraftTaken
  by_cases hdraftWritten : faults.fails (.write .draft) ∨ faults.fails (.sync .draft)
  · rw [allOrNothing_iff_of_draft_unwritten hne hreceipt hdraft hname hstages hdraftCreate
      hdraftFree hdraftWritten]
    have hdraftStages : ¬Stages faults entries .draft (draftTemporary draftTarget executionId) :=
      fun h => hdraftWritten.elim h.2.2.1 h.2.2.2
    have hboth : ¬(¬faults.fails (.write .draft) ∧ ¬faults.fails (.sync .draft)) :=
      fun h => hdraftWritten.elim h.1 h.2
    simp only [Breaks, hreceiptSeen, StagedAsDraft, FailsAfterLinks, hstages, hdraftStages,
      hdraftCreate, hboth]
    simp only [Bool.false_eq_true, not_false_eq_true, false_and, and_false, true_and, or_false,
      false_or, not_and, imp_false, Classical.not_not]
  rw [not_or] at hdraftWritten
  have hdraftStages : Stages faults entries .draft (draftTemporary draftTarget executionId) :=
    ⟨hdraftCreate, hdraftFree, hdraftWritten⟩
  rw [allOrNothing_iff_of_staged hne hreceipt hdraft hname hstages hdraftCreate hdraftFree
    hdraftWritten.1 hdraftWritten.2]
  by_cases hseen : receiptTarget = draftTemporary draftTarget executionId
  · refine iff_of_false (fun h => ?_)
      (not_not_intro (.inr (.inl ⟨hseen, hstages, hdraftCreate, fun _ => hdraftWritten⟩)))
    exact not_throughout_publishStaged_of_crossed htemps hseen (h.1 hseen) h.2
  rw [breaks_iff_of_staged hname hseen hstages hdraftStages]
  simp only [hseen, false_imp_iff, true_and]
  by_cases hdraftLink : faults.fails (.link .draft) ∨
      draftTarget = receiptTemporary receiptTarget executionId ∨
      draftTarget = draftTemporary draftTarget executionId
  · refine iff_of_true (throughout_publishStaged_of_draft_unlinked htemps hreceipt hfree hdraftFree
      hname hseen hdraftLink) ?_
    rintro ⟨hlinks, ⟨hother, hother'⟩, -⟩
    exact hdraftLink.elim (hlinks .draft) (Or.elim · hother hother')
  rw [not_or, not_or] at hdraftLink
  obtain ⟨hdraftLink, hother, hother'⟩ := hdraftLink
  by_cases hreceiptLink : faults.fails (.link .receipt)
  · refine iff_of_true (throughout_publishStaged_of_receipt_unlinked htemps hreceipt hfree
      hdraftFree hname hseen hne hdraft hdraftLink hother hother' hreceiptLink) ?_
    exact fun h => h.1 .receipt hreceiptLink
  · rw [throughout_publishStaged_of_links htemps hreceipt hfree hdraftFree hname hseen hne hdraft
      hdraftLink hother hother' hreceiptLink]
    have hlinks : ∀ side, ¬faults.fails (.link side) := by
      rintro (_ | _)
      · exact hreceiptLink
      · exact hdraftLink
    exact not_congr ⟨fun h => ⟨hlinks, ⟨hother, hother'⟩, h⟩, fun h => h.2.2⟩

/-- An empty directory, and no operation fails. -/
theorem publishPair_allOrNothing_sample :
    let faults : Faults Label := ⟨fun _ => false, fun _ => 0, fun _ => false⟩
    let directory := [Path.Component.rootDir, .normal (Utf8.bytes "out")]
    AllOrNothing faults (fun _ => none) (directory, Utf8.bytes "receipt.cbor") [1]
      (directory, Utf8.bytes "draft.json") [2] (List.replicate 16 7) := by
  intro faults directory
  have hne : (directory, Utf8.bytes "receipt.cbor") ≠ (directory, Utf8.bytes "draft.json") := by
    decide
  rw [publishPair_allOrNothing_iff hne rfl rfl]
  rintro (⟨hname, -⟩ | ⟨hname, -⟩ | ⟨-, -, -, -, hsync⟩)
  · exact absurd hname (by decide)
  · exact absurd hname (by decide)
  · exact absurd hsync (by decide)

/-- The sync of the directory fails when both targets are there; and the receipt's
target has the name of its temporary file. -/
theorem publishPair_not_allOrNothing :
    let noFaults : Faults Label := ⟨fun _ => false, fun _ => 0, fun _ => false⟩
    let syncFault : Faults Label :=
      ⟨fun label => label = .syncParent .receipt, fun _ => 0, fun _ => false⟩
    let directory := [Path.Component.rootDir, .normal (Utf8.bytes "out")]
    let executionId := List.replicate 16 7
    let draftTarget := (directory, Utf8.bytes "draft.json")
    ¬AllOrNothing syncFault (fun _ => none) (directory, Utf8.bytes "receipt.cbor") [1] draftTarget
        [2] executionId ∧
      ¬AllOrNothing noFaults (fun _ => none)
        (directory, Utf8.bytes ".pbr-diagnose-receipt-07070707070707070707070707070707.tmp") [1]
        draftTarget [2] executionId := by
  intro noFaults syncFault directory executionId draftTarget
  refine ⟨?_, ?_⟩
  · exact not_allOrNothing_of_left (directory, Utf8.bytes "receipt.cbor") (by decide +kernel)
      (by decide +kernel)
  · exact not_allOrNothing_of_stagedAsReceipt (by decide) rfl nofun rfl (by decide)

end

end ProofboundRuntime.Publish.Pair
