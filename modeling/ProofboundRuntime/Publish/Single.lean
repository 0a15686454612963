import ProofboundRuntime.Lib.Files
import ProofboundRuntime.Lib.Text

/-!
# Publication of one file

`pbr run` publishes its receipt, and `pbr-accept` and `pbr-compose` their decision,
in the same way: a temporary file in the directory of the target is written,
synced and linked to the target, and then removed.  They differ in who removes the
temporary file and in what follows the link.

`Published` says that this is all or nothing.  It fails in two ways.  The guard of
`persistReceipt` exists before the temporary file does, and removes a file that was
there before; and `publishNoReplace` reports a failed sync of the directory when
the target is already there.
-/

namespace ProofboundRuntime.Publish

open Files Program

/-- The operations of a publication, in their order. -/
inductive Label where
  | metadata
  | create (attempt : Nat)
  | write
  | sync
  | link
  | openParent
  | syncParent
  | remove
  | guard
deriving DecidableEq

/-- All or nothing, and nothing else: what a publication may leave of the entries
before it. -/
structure Published {ε : Type} (before after : Location → Option Entry)
    (target : Option Location) (bytes : List UInt8) (result : Except ε Unit) : Prop where
  ok : result = .ok () → ∃ path, target = some path ∧ after path = some (.file bytes) ∧
    ∀ other, other ≠ path → after other = before other
  error : ∀ e, result = .error e → ∀ path, target = some path → after path = before path
  kept : ∀ path entry, before path = some entry → after path = some entry

/-- The program, started with these entries, publishes or leaves everything as it
was. -/
def AllOrNothing {ε : Type} (faults : Faults Label) (entries : Location → Option Entry)
    (program : FileProgram Label ε Unit) (target : Option Location) (bytes : List UInt8) : Prop :=
  Published entries (program.run (handle faults) (.start entries)).2.entries target bytes
    (program.run (handle faults) (.start entries)).1

section Outcomes

variable {ε : Type} {faults : Faults Label} {entries : Location → Option Entry}
  {program : FileProgram Label ε Unit} {target : Option Location} {path : Location}
  {bytes : List UInt8} {disk : Disk}

theorem allOrNothing_of_error {e : ε}
    (h : program.run (handle faults) (.start entries) = (.error e, disk))
    (hentries : disk.entries = entries) : AllOrNothing faults entries program target bytes := by
  rw [AllOrNothing, h, hentries]
  exact ⟨nofun, fun _ _ _ _ => rfl, fun _ _ hbefore => hbefore⟩

theorem allOrNothing_of_ok (h : program.run (handle faults) (.start entries) = (.ok (), disk))
    (hentries : disk.entries = Function.update entries path (some (.file bytes)))
    (habsent : entries path = none) :
    AllOrNothing faults entries program (some path) bytes := by
  rw [AllOrNothing, h, hentries]
  refine ⟨fun _ => ⟨path, rfl, Function.update_self .., fun other hne => ?_⟩, nofun, ?_⟩
  · exact Function.update_of_ne hne ..
  · intro other entry hbefore
    have hne : other ≠ path := by
      rintro rfl
      simp [habsent] at hbefore
    rw [Function.update_of_ne hne, hbefore]

/-- A failure after the target is there is not all or nothing. -/
theorem not_allOrNothing_of_error {e : ε}
    (h : program.run (handle faults) (.start entries) = (.error e, disk))
    (hentries : disk.entries = Function.update entries path (some (.file bytes)))
    (habsent : entries path = none) :
    ¬AllOrNothing faults entries program (some path) bytes := by
  rw [AllOrNothing, h, hentries]
  intro hpublished
  have hpath := hpublished.error e rfl path rfl
  simp [Function.update_self, habsent] at hpath

end Outcomes

/-! ## The temporary file becomes the target -/

section

variable {ε : Type}

/-- Write the temporary file, sync it and link the target to it. -/
def linkWritten (temporary : Location) (target : Option Location) (bytes : List UInt8)
    (writeFailed : ε) (linkFailed : IoError → ε) : FileProgram Label ε Unit := do
  expect writeFailed (← perform (.writeAll .write temporary bytes))
  expect writeFailed (← perform (.syncAll .sync temporary))
  match ← perform (.hardLink .link temporary target) with
  | .ok () => pure ()
  | .error kind => fail (linkFailed kind)

/-- The write, the sync and the link at `path` succeed. -/
def Links (faults : Faults Label) (entries : Location → Option Entry) (temporary : Location)
    (target : Option Location) (path : Location) : Prop :=
  ¬faults.fails .write ∧ ¬faults.fails .sync ∧ ¬faults.fails .link ∧ target = some path ∧
    path ≠ temporary ∧ entries path = none

variable {faults : Faults Label} {entries : Location → Option Entry} {temporary path : Location}
  {target : Option Location} {content : List UInt8} {disk : Disk} (bytes : List UInt8)
  (writeFailed : ε) (linkFailed : IoError → ε)

theorem run_linkWritten_of_links (h : Links faults entries temporary target path)
    (hstaged : Staged entries temporary content disk) :
    ∃ disk', run (handle faults) (linkWritten temporary target bytes writeFailed linkFailed) disk =
        (.ok (), disk') ∧
      Staged (Function.update entries path (some (.file bytes))) temporary bytes disk' := by
  obtain ⟨hwrite, hsync, hlink, rfl, hne, habsent⟩ := h
  have hwritten := hstaged.write bytes
  refine ⟨_, ?_, hwritten.link hne⟩
  have hfree := hwritten.others path hne
  rw [habsent] at hfree
  simp [linkWritten, handle, hwrite, hsync, hlink, hfree]

/-- Otherwise the program fails, and only the temporary file is there. -/
theorem run_linkWritten_of_not (h : ∀ path, ¬Links faults entries temporary target path)
    (hstaged : Staged entries temporary content disk) :
    ∃ e disk' content', run (handle faults)
        (linkWritten temporary target bytes writeFailed linkFailed) disk = (.error e, disk') ∧
      Staged entries temporary content' disk' := by
  by_cases hwrite : faults.fails .write
  · refine ⟨writeFailed, _, _, ?_, hstaged.write (bytes.take (faults.written .write))⟩
    simp [linkWritten, handle, hwrite]
  have hwritten := hstaged.write bytes
  by_cases hsync : faults.fails .sync
  · refine ⟨writeFailed, _, _, ?_, hwritten⟩
    simp [linkWritten, handle, hwrite, hsync]
  by_cases hlink : faults.fails .link
  · refine ⟨linkFailed .other, _, _, ?_, hwritten⟩
    simp [linkWritten, handle, hwrite, hsync, hlink]
  cases htarget : target with
  | none =>
    refine ⟨linkFailed (if faults.missing .link then .notFound else .alreadyExists), _, _, ?_,
      hwritten⟩
    simp [linkWritten, handle, hwrite, hsync, hlink]
  | some path =>
    -- Something is at the target: what was there before, or the temporary file itself.
    have hthere : ∃ entry, (disk.put temporary (some (.file bytes))).entries path = some entry := by
      by_cases hne : path = temporary
      · subst hne
        exact ⟨_, hwritten.file⟩
      · rw [hwritten.others path hne]
        refine Option.ne_none_iff_exists'.mp fun habsent => ?_
        exact h path ⟨hwrite, hsync, hlink, htarget, hne, habsent⟩
    obtain ⟨entry, hentry⟩ := hthere
    refine ⟨linkFailed .alreadyExists, _, _, ?_, hwritten⟩
    simp [linkWritten, handle, hwrite, hsync, hlink, hentry]

end

/-! ## The receipt of a run -/

/-- A `RunError` of the receipt publication phase. -/
structure RunError where
  exitCode : Nat
  code : String
deriving DecidableEq

def RunError.receipt (code : String) : RunError := ⟨6, code⟩

def receiptTemporaryName (executionId : List UInt8) : List UInt8 :=
  Utf8.bytes ".pbr-receipt-" ++ Hex.ascii executionId ++ Utf8.bytes ".tmp"

/-- `persist_receipt`, as far as the guard of the temporary file watches it. -/
def persistGuarded (temporary : Location) (target : Option Location) (bytes : List UInt8) :
    FileProgram Label RunError Unit := do
  expect (.receipt "receipt.output.create-failed") (← perform (.createNew (.create 0) temporary))
  linkWritten temporary target bytes (.receipt "receipt.output.write-failed")
    fun _ => .receipt "receipt.output.publish-failed"
  expect (.receipt "receipt.output.cleanup-failed") (← perform (.removeFile .remove temporary))

/-- `persist_receipt`.  The guard `TemporaryReceipt` is made before the file is
created, and every failure drops it. -/
def persistReceipt (target executionId bytes : List UInt8) : FileProgram Label RunError Unit :=
  match Path.parent target with
  | none => fail (.receipt "receipt.output.parent-unavailable")
  | some parent =>
    let temporary : Location := (parent, receiptTemporaryName executionId)
    (persistGuarded temporary (Path.location target) bytes).onError fun e => do
      let _ ← perform (.removeFile .guard temporary)
      fail e

/-- A file or a link that the guard removes is already at the name of the temporary
file. -/
def ForeignTemporary (faults : Faults Label) (entries : Location → Option Entry)
    (target executionId : List UInt8) : Prop :=
  ∃ parent entry, Path.parent target = some parent ∧
    entries (parent, receiptTemporaryName executionId) = some entry ∧ entry ≠ .directory ∧
    ¬faults.fails .guard

section

variable {faults : Faults Label} {entries : Location → Option Entry} {bytes : List UInt8}

section

variable {temporary path : Location} {target : Option Location}

theorem run_persistGuarded_of_taken
    (h : faults.fails (.create 0) ∨ entries temporary ≠ none) :
    run (handle faults) (persistGuarded temporary target bytes) (.start entries) =
      (.error (.receipt "receipt.output.create-failed"), .start entries) := by
  by_cases hcreate : faults.fails (.create 0)
  · simp [persistGuarded, handle, hcreate]
  · obtain ⟨entry, hentry⟩ := Option.ne_none_iff_exists'.mp (h.resolve_left hcreate)
    simp [persistGuarded, handle, hcreate, Disk.start, hentry]

variable (hcreate : ¬faults.fails (.create 0)) (hfree : entries temporary = none)

include hcreate hfree

theorem run_persistGuarded_of_links (bytes : List UInt8)
    (h : Links faults entries temporary target path) :
    ∃ disk, run (handle faults) (persistGuarded temporary target bytes) (.start entries) =
        (.ok (), disk) ∧
      disk.entries = Function.update entries path (some (.file bytes)) := by
  obtain ⟨disk, hrun, hstaged⟩ := run_linkWritten_of_links bytes
    (RunError.receipt "receipt.output.write-failed")
    (fun _ => RunError.receipt "receipt.output.publish-failed") h
    (Staged.create (.start entries) temporary)
  have hne : path ≠ temporary := h.2.2.2.2.1
  obtain ⟨hremove, hentries⟩ :=
    hstaged.remove (by rw [Function.update_of_ne hne.symm, hfree]) faults .remove
  refine ⟨_, ?_, hentries⟩
  have hfree' : (Disk.start entries).entries temporary = none := hfree
  simp only [persistGuarded, run_perform_bind]
  simp only [handle, hcreate, hfree', Bool.false_eq_true, if_false, run_expect_ok_bind]
  rw [run_bind_of_ok hrun, run_perform_bind, hremove]
  rfl

theorem run_persistGuarded_of_not (bytes : List UInt8)
    (h : ∀ path, ¬Links faults entries temporary target path) :
    ∃ e disk content, run (handle faults) (persistGuarded temporary target bytes) (.start entries) =
        (.error e, disk) ∧ Staged entries temporary content disk := by
  obtain ⟨e, disk, content, hrun, hstaged⟩ := run_linkWritten_of_not bytes
    (RunError.receipt "receipt.output.write-failed")
    (fun _ => RunError.receipt "receipt.output.publish-failed") h
    (Staged.create (.start entries) temporary)
  refine ⟨e, disk, content, ?_, hstaged⟩
  have hfree' : (Disk.start entries).entries temporary = none := hfree
  simp only [persistGuarded, run_perform_bind]
  simp only [handle, hcreate, hfree', Bool.false_eq_true, if_false, run_expect_ok_bind]
  exact run_bind_of_error hrun

end

variable {target executionId : List UInt8} {parent : List Path.Component}

/-- What the guard does when the temporary file was not created. -/
theorem persistReceipt_allOrNothing_iff_of_taken (hparent : Path.parent target = some parent)
    (h : faults.fails (.create 0) ∨ entries (parent, receiptTemporaryName executionId) ≠ none) :
    AllOrNothing faults entries (persistReceipt target executionId bytes) (Path.location target)
      bytes ↔ ¬ForeignTemporary faults entries target executionId := by
  set temporary : Location := (parent, receiptTemporaryName executionId) with htemporary
  have hrun : run (handle faults) (persistReceipt target executionId bytes) (.start entries) =
      (.error (.receipt "receipt.output.create-failed"),
        (handle faults (.start entries) (.removeFile .guard temporary)).2) := by
    simp only [persistReceipt, hparent]
    rw [run_onError_of_error (run_persistGuarded_of_taken h)]
    rfl
  by_cases hforeign : ForeignTemporary faults entries target executionId
  · refine iff_of_false (fun hpublished => ?_) (not_not_intro hforeign)
    obtain ⟨parent', entry, hparent', hentry, hdirectory, hguard⟩ := hforeign
    rw [hparent] at hparent'
    cases hparent'
    rw [AllOrNothing, hrun] at hpublished
    have hkept := hpublished.kept temporary entry hentry
    have hstart : (Disk.start entries).entries temporary = some entry := hentry
    cases entry <;> simp_all [handle]
  · refine iff_of_true (allOrNothing_of_error hrun ?_) hforeign
    simp only [handle]
    cases hentry : (Disk.start entries).entries temporary with
    | none => rfl
    | some entry =>
      have hguard : entry = .directory ∨ faults.fails .guard = true := by
        by_contra hcontra
        rw [not_or] at hcontra
        exact hforeign ⟨parent, entry, hparent, hentry, hcontra.1, hcontra.2⟩
      rcases hguard with rfl | hguard
      · rfl
      · cases entry <;> simp [hguard, Disk.start]

theorem persistReceipt_allOrNothing_iff :
    AllOrNothing faults entries (persistReceipt target executionId bytes) (Path.location target)
      bytes ↔ ¬ForeignTemporary faults entries target executionId := by
  cases hparent : Path.parent target with
  | none =>
    have hrun : run (handle faults) (persistReceipt target executionId bytes) (.start entries) =
        (.error (.receipt "receipt.output.parent-unavailable"), .start entries) := by
      simp [persistReceipt, hparent]
    refine iff_of_true (allOrNothing_of_error hrun rfl) ?_
    rintro ⟨parent, entry, hsome, -⟩
    simp [hparent] at hsome
  | some parent =>
    by_cases htaken : faults.fails (.create 0) ∨
        entries (parent, receiptTemporaryName executionId) ≠ none
    · exact persistReceipt_allOrNothing_iff_of_taken hparent htaken
    rw [not_or, not_not] at htaken
    obtain ⟨hcreate, hfree⟩ := htaken
    have hforeign : ¬ForeignTemporary faults entries target executionId := by
      rintro ⟨parent', entry, hsome, hentry, -⟩
      rw [hparent] at hsome
      cases hsome
      simp [hfree] at hentry
    refine iff_of_true ?_ hforeign
    by_cases hlinks : ∃ path, Links faults entries (parent, receiptTemporaryName executionId)
        (Path.location target) path
    · obtain ⟨path, hlinks⟩ := hlinks
      obtain ⟨disk, hrun, hentries⟩ := run_persistGuarded_of_links hcreate hfree bytes hlinks
      have hlocation : Path.location target = some path := hlinks.2.2.2.1
      rw [hlocation]
      refine allOrNothing_of_ok ?_ hentries hlinks.2.2.2.2.2
      simp only [persistReceipt, hparent]
      exact run_onError_of_ok hrun
    · obtain ⟨e, disk, content, hrun, hstaged⟩ :=
        run_persistGuarded_of_not hcreate hfree bytes (not_exists.mp hlinks)
      obtain ⟨hremove, hentries⟩ := hstaged.remove hfree faults .guard
      have hguard : run (handle faults) (persistReceipt target executionId bytes)
          (.start entries) =
          (.error e, disk.put (parent, receiptTemporaryName executionId) none) := by
        simp only [persistReceipt, hparent]
        rw [run_onError_of_error hrun, run_perform_bind, hremove]
        rfl
      exact allOrNothing_of_error hguard hentries

end

/-! ## The decision of `pbr-accept` and of `pbr-compose` -/

/-- What the two commands have of their own: the mark of the temporary file and the
errors. -/
structure Command (ε : Type) where
  mark : String
  outputExists : ε
  outputWriteFailed : ε

section

variable {ε : Type} (command : Command ε)

/-- `require_absent`. -/
def requireAbsent (target : Option Location) : FileProgram Label ε Unit := do
  match ← perform (.symlinkMetadata .metadata target) with
  | .ok () => fail command.outputExists
  | .error .notFound => pure ()
  | .error _ => fail command.outputWriteFailed

/-- The name of the temporary file in one attempt. -/
def candidate (processId : Nat) (parent : List Path.Component) (name : List UInt8)
    (attempt : Nat) : Location :=
  (parent, Utf8.bytes "." ++ name ++ Utf8.bytes command.mark ++
    Utf8.bytes (Decimal.text processId) ++ Utf8.bytes "." ++ Utf8.bytes (Decimal.text attempt))

/-- The attempts to create the temporary file, `attempts` of them from `attempt`
on. -/
def createTemporary (candidate : Nat → Location) :
    (attempts attempt : Nat) → FileProgram Label ε (Option Location)
  | 0, _ => pure none
  | attempts + 1, attempt => do
    match ← perform (.createNew (.create attempt) (candidate attempt)) with
    | .ok () => pure (some (candidate attempt))
    | .error .alreadyExists => createTemporary candidate attempts (attempt + 1)
    | .error _ => fail command.outputWriteFailed

/-- The part of `publish_no_replace` after which the temporary file is removed. -/
def linkAndSync (temporary : Location) (target : Option Location) (parent : List Path.Component)
    (bytes : List UInt8) : FileProgram Label ε Unit := do
  linkWritten temporary target bytes command.outputWriteFailed fun kind =>
    if kind = .alreadyExists then command.outputExists else command.outputWriteFailed
  expect command.outputWriteFailed (← perform (.openDirectory .openParent parent))
  expect command.outputWriteFailed (← perform (.syncDirectory .syncParent))

/-- `publish_no_replace`. -/
def publishNoReplace (processId : Nat) (path bytes : List UInt8) : FileProgram Label ε Unit := do
  requireAbsent command (Path.location path)
  let parent := (Path.parent path).getD [.curDir]
  match (Path.fileName path).filter fun name => (Utf8.fromUtf8 name).isSome with
  | none => fail command.outputWriteFailed
  | some name =>
    match ← createTemporary command (candidate command processId parent name) 100 0 with
    | none => fail command.outputWriteFailed
    | some temporary =>
      let result ← (linkAndSync command temporary (Path.location path) parent bytes).attempt
      let _ ← perform (.removeFile .remove temporary)
      lift result

variable {command} {faults : Faults Label} {entries : Location → Option Entry} {disk : Disk}

theorem run_requireAbsent (command : Command ε) (faults : Faults Label) (disk : Disk)
    (target : Option Location) :
    (run (handle faults) (requireAbsent command target) disk = (.ok (), disk) ∧
      ∀ path, target = some path → ¬faults.fails .metadata ∧ disk.entries path = none) ∨
    ∃ e, run (handle faults) (requireAbsent command target) disk = (.error e, disk) := by
  by_cases hmetadata : faults.fails .metadata
  · exact .inr ⟨command.outputWriteFailed, by simp [requireAbsent, handle, hmetadata]⟩
  cases target with
  | none =>
    cases hmissing : faults.missing .metadata with
    | true => exact .inl ⟨by simp [requireAbsent, handle, hmetadata, hmissing], by simp⟩
    | false =>
      exact .inr ⟨command.outputExists, by simp [requireAbsent, handle, hmetadata, hmissing]⟩
  | some path =>
    cases hentry : disk.entries path with
    | none =>
      refine .inl ⟨by simp [requireAbsent, handle, hmetadata, hentry], ?_⟩
      rintro _ ⟨⟩
      exact ⟨hmetadata, hentry⟩
    | some entry =>
      exact .inr ⟨command.outputExists, by simp [requireAbsent, handle, hmetadata, hentry]⟩

/-- The attempt in which the temporary file is created: the names of the attempts
before it are taken. -/
structure Creates (faults : Faults Label) (entries : Location → Option Entry)
    (candidate : Nat → Location) (first bound attempt : Nat) : Prop where
  first_le : first ≤ attempt
  lt_bound : attempt < bound
  free : entries (candidate attempt) = none
  opens : ∀ i, first ≤ i → i ≤ attempt → ¬faults.fails (.create i)
  taken : ∀ i, first ≤ i → i < attempt → entries (candidate i) ≠ none

/-- A taken name moves the first attempt on. -/
theorem Creates.iff_succ {candidate : Nat → Location} {first bound attempt : Nat} {entry : Entry}
    (hopens : ¬faults.fails (.create first)) (hentry : entries (candidate first) = some entry) :
    Creates faults entries candidate first bound attempt ↔
      Creates faults entries candidate (first + 1) bound attempt := by
  constructor
  · intro h
    have hne : attempt ≠ first := by
      rintro rfl
      have hfree := h.free
      simp [hentry] at hfree
    exact ⟨by have := h.first_le; omega, h.lt_bound, h.free, fun i hi => h.opens i (by omega),
      fun i hi => h.taken i (by omega)⟩
  · intro h
    refine ⟨by have := h.first_le; omega, h.lt_bound, h.free, fun i hi hle => ?_,
      fun i hi hlt => ?_⟩
    · by_cases hfirst : i = first
      · rwa [hfirst]
      · exact h.opens i (by omega) hle
    · by_cases hfirst : i = first
      · rw [hfirst, hentry]
        exact nofun
      · exact h.taken i (by omega) hlt

theorem run_createTemporary (command : Command ε) (faults : Faults Label) (disk : Disk)
    (candidate : Nat → Location) (attempts first : Nat) :
    (∃ attempt, Creates faults disk.entries candidate first (first + attempts) attempt ∧
      run (handle faults) (createTemporary command candidate attempts first) disk =
        (.ok (some (candidate attempt)), disk.create (candidate attempt) (some (.file [])))) ∨
    (∀ attempt, ¬Creates faults disk.entries candidate first (first + attempts) attempt) ∧
      (run (handle faults) (createTemporary command candidate attempts first) disk =
          (.ok none, disk) ∨
        ∃ e, run (handle faults) (createTemporary command candidate attempts first) disk =
          (.error e, disk)) := by
  induction attempts generalizing first with
  | zero =>
    refine .inr ⟨fun attempt h => ?_, .inl rfl⟩
    have := h.first_le
    have := h.lt_bound
    omega
  | succ attempts ih =>
    by_cases hopens : faults.fails (.create first)
    · refine .inr ⟨fun attempt h => h.opens first le_rfl h.first_le hopens, .inr ?_⟩
      exact ⟨command.outputWriteFailed, by simp [createTemporary, handle, hopens]⟩
    cases hentry : disk.entries (candidate first) with
    | none =>
      refine .inl ⟨first, ⟨le_rfl, by omega, hentry, fun i hi hle => ?_, fun i hi hlt => ?_⟩, ?_⟩
      · rwa [le_antisymm hle hi]
      · omega
      · simp [createTemporary, handle, hopens, hentry]
    | some entry =>
      -- The name is taken: the attempts go on, from the next one.
      have hrun : run (handle faults) (createTemporary command candidate (attempts + 1) first) disk =
          run (handle faults) (createTemporary command candidate attempts (first + 1)) disk := by
        simp [createTemporary, handle, hopens, hentry]
      have hbound : first + (attempts + 1) = first + 1 + attempts := by omega
      rw [hrun, hbound]
      simp only [Creates.iff_succ hopens hentry]
      exact ih (first + 1)

/-- The sync of the directory after the link fails.  A relative path without a
directory has the empty parent, which cannot be opened. -/
def SyncFails (faults : Faults Label) (parent : List Path.Component) : Prop :=
  faults.fails .openParent ∨ parent = [] ∨ faults.fails .syncParent

instance (faults : Faults Label) (parent : List Path.Component) :
    Decidable (SyncFails faults parent) :=
  inferInstanceAs (Decidable (_ ∨ _ ∨ _))

section

variable {temporary path : Location} {target : Option Location} {parent : List Path.Component}
  {content : List UInt8} (command) (bytes : List UInt8)

theorem run_linkAndSync_of_not (parent : List Path.Component)
    (h : ∀ path, ¬Links faults entries temporary target path)
    (hstaged : Staged entries temporary content disk) :
    ∃ e disk' content', run (handle faults) (linkAndSync command temporary target parent bytes)
        disk = (.error e, disk') ∧ Staged entries temporary content' disk' := by
  obtain ⟨e, disk', content', hrun, hstaged'⟩ := run_linkWritten_of_not bytes
    command.outputWriteFailed _ h hstaged
  exact ⟨e, disk', content', run_bind_of_error hrun, hstaged'⟩

theorem run_linkAndSync_of_links (h : Links faults entries temporary target path)
    (hstaged : Staged entries temporary content disk) :
    ∃ disk', run (handle faults) (linkAndSync command temporary target parent bytes) disk =
        (if SyncFails faults parent then .error command.outputWriteFailed else .ok (), disk') ∧
      Staged (Function.update entries path (some (.file bytes))) temporary bytes disk' := by
  obtain ⟨disk', hrun, hstaged'⟩ := run_linkWritten_of_links bytes command.outputWriteFailed
    (fun kind => if kind = .alreadyExists then command.outputExists else command.outputWriteFailed)
    h hstaged
  refine ⟨disk', (run_bind_of_ok hrun).trans ?_, hstaged'⟩
  by_cases hopen : faults.fails .openParent ∨ parent = []
  · have hfails : SyncFails faults parent := by
      unfold SyncFails
      tauto
    simp [handle, hopen, hfails]
  · cases hsync : faults.fails .syncParent <;> simp_all [handle, SyncFails]

end

/-- The target is linked. -/
structure Reaches (command : Command ε) (processId : Nat) (faults : Faults Label)
    (entries : Location → Option Entry) (path : List UInt8) (target : Location) : Prop where
  location : Path.location path = some target
  metadata : ¬faults.fails .metadata
  absent : entries target = none
  unicode : (Utf8.fromUtf8 target.2).isSome
  creates : ∃ attempt,
    Creates faults entries (candidate command processId target.1 target.2) 0 100 attempt
  writes : ¬faults.fails .write
  syncs : ¬faults.fails .sync
  links : ¬faults.fails .link

/-- The target is linked, and then the sync of its directory fails. -/
def FailsAfterLink (command : Command ε) (processId : Nat) (faults : Faults Label)
    (entries : Location → Option Entry) (path : List UInt8) : Prop :=
  ∃ target, Reaches command processId faults entries path target ∧ SyncFails faults target.1

theorem candidate_ne (processId : Nat) (target : Location) (attempt : Nat) :
    target ≠ candidate command processId target.1 target.2 attempt := by
  intro h
  have hlength := congrArg (fun location => location.2.length) h
  have hdot : (Utf8.bytes ".").length = 1 := by decide
  simp only [candidate, List.length_append, hdot] at hlength
  omega

section

variable {processId : Nat} {path : List UInt8} (bytes : List UInt8)

/-- What follows the creation of the temporary file: whatever comes of the link, the
temporary file is removed. -/
theorem run_removing {temporary : Location} {content : List UInt8} {disk' : Disk}
    {program : FileProgram Label ε Unit} {result : Except ε Unit}
    (hrun : run (handle faults) program disk = (result, disk'))
    (hstaged : Staged entries temporary content disk') (hfree : entries temporary = none) :
    ∃ disk'', run (handle faults) (do
        let result ← program.attempt
        let _ ← perform (.removeFile .remove temporary)
        lift result : FileProgram Label ε Unit) disk = (result, disk'') ∧
      disk''.entries = entries := by
  obtain ⟨hremove, hentries⟩ := hstaged.remove hfree faults .remove
  refine ⟨disk'.put temporary none, ?_, hentries⟩
  rw [run_attempt_bind, hrun, run_perform_bind, hremove]
  rfl

theorem run_publishNoReplace_of_reaches {target : Location}
    (h : Reaches command processId faults entries path target) :
    ∃ disk, run (handle faults) (publishNoReplace command processId path bytes) (.start entries) =
        (if SyncFails faults target.1 then .error command.outputWriteFailed else .ok (), disk) ∧
      disk.entries = Function.update entries target (some (.file bytes)) := by
  obtain ⟨hparent, hname⟩ := Path.parent_of_location_eq_some h.location
  have habsent : run (handle faults) (requireAbsent command (Path.location path))
      (.start entries) = (.ok (), .start entries) := by
    have hentry : (Disk.start entries).entries target = none := h.absent
    simp [requireAbsent, h.location, handle, h.metadata, hentry]
  have hunicode : (Path.fileName path).filter (fun name => (Utf8.fromUtf8 name).isSome) =
      some target.2 := by
    rw [hname, Option.filter_some, if_pos h.unicode]
  rcases run_createTemporary command faults (.start entries)
    (candidate command processId target.1 target.2) 100 0 with ⟨attempt, hcreates, hcreate⟩ | hnot
  · set temporary := candidate command processId target.1 target.2 attempt with htemporary
    have hne : target ≠ temporary := candidate_ne processId target attempt
    have hfree : entries temporary = none := hcreates.free
    have hlinks : Links faults entries temporary (Path.location path) target :=
      ⟨h.writes, h.syncs, h.links, h.location, hne, h.absent⟩
    obtain ⟨disk, hrun, hstaged⟩ := run_linkAndSync_of_links command bytes hlinks
      (Staged.create (.start entries) temporary)
    obtain ⟨disk', hremoved, hentries⟩ := run_removing hrun hstaged
      (by rw [Function.update_of_ne hne.symm, hfree])
    refine ⟨disk', ?_, hentries⟩
    rw [publishNoReplace, run_bind_of_ok habsent, hunicode, hparent]
    exact (run_bind_of_ok hcreate).trans hremoved
  · obtain ⟨attempt, hcreates⟩ := h.creates
    exact absurd hcreates (hnot.1 attempt)

theorem run_publishNoReplace_of_not
    (h : ∀ target, ¬Reaches command processId faults entries path target) :
    ∃ e disk, run (handle faults) (publishNoReplace command processId path bytes)
        (.start entries) = (.error e, disk) ∧ disk.entries = entries := by
  rcases run_requireAbsent command faults (.start entries) (Path.location path) with
    ⟨habsent, htarget⟩ | ⟨e, hfails⟩
  swap
  · exact ⟨e, _, run_bind_of_error hfails, rfl⟩
  rw [publishNoReplace, run_bind_of_ok habsent]
  cases hunicode : (Path.fileName path).filter fun name => (Utf8.fromUtf8 name).isSome with
  | none => exact ⟨command.outputWriteFailed, _, rfl, rfl⟩
  | some name =>
    rw [Option.filter_eq_some_iff] at hunicode
    set parent := (Path.parent path).getD [.curDir] with hparent
    rcases run_createTemporary command faults (.start entries)
      (candidate command processId parent name) 100 0 with
      ⟨attempt, hcreates, hcreate⟩ | ⟨-, hcreate | ⟨e, hcreate⟩⟩
    · set temporary := candidate command processId parent name attempt with htemporary
      have hlinks : ∀ target, ¬Links faults entries temporary (Path.location path) target := by
        rintro target ⟨hwrite, hsync, hlink, hlocation, -, -⟩
        obtain ⟨hparent', hname⟩ := Path.parent_of_location_eq_some hlocation
        rw [hunicode.1] at hname
        rw [hparent'] at hparent
        cases hname
        obtain ⟨hmetadata, hentry⟩ := htarget target hlocation
        refine h target ⟨hlocation, hmetadata, hentry, hunicode.2, ⟨attempt, ?_⟩, hwrite, hsync,
          hlink⟩
        have hparents : parent = target.1 := hparent
        rwa [← hparents]
      obtain ⟨e, disk, content, hrun, hstaged⟩ := run_linkAndSync_of_not command bytes parent hlinks
        (Staged.create (.start entries) temporary)
      obtain ⟨disk', hremoved, hentries⟩ := run_removing hrun hstaged hcreates.free
      exact ⟨e, disk', (run_bind_of_ok hcreate).trans hremoved, hentries⟩
    · exact ⟨command.outputWriteFailed, _, run_bind_of_ok hcreate, rfl⟩
    · exact ⟨e, _, run_bind_of_error hcreate, rfl⟩

theorem publishNoReplace_allOrNothing_iff :
    AllOrNothing faults entries (publishNoReplace command processId path bytes)
      (Path.location path) bytes ↔ ¬FailsAfterLink command processId faults entries path := by
  by_cases hreaches : ∃ target, Reaches command processId faults entries path target
  · obtain ⟨target, hreaches⟩ := hreaches
    obtain ⟨disk, hrun, hentries⟩ := run_publishNoReplace_of_reaches bytes hreaches
    rw [hreaches.location]
    by_cases hsync : SyncFails faults target.1
    · rw [if_pos hsync] at hrun
      refine iff_of_false (not_allOrNothing_of_error hrun hentries hreaches.absent) ?_
      exact not_not_intro ⟨target, hreaches, hsync⟩
    · rw [if_neg hsync] at hrun
      refine iff_of_true (allOrNothing_of_ok hrun hentries hreaches.absent) ?_
      rintro ⟨target', hreaches', hsync'⟩
      have htarget : target = target' :=
        Option.some.inj (hreaches.location.symm.trans hreaches'.location)
      rw [htarget] at hsync
      exact hsync hsync'
  · obtain ⟨e, disk, hrun, hentries⟩ := run_publishNoReplace_of_not bytes (not_exists.mp hreaches)
    refine iff_of_true (allOrNothing_of_error hrun hentries) ?_
    rintro ⟨target, htarget, -⟩
    exact hreaches ⟨target, htarget⟩

end

end

namespace Accept

structure CliError where
  code : String
deriving DecidableEq

def command : Command CliError where
  mark := ".pbr-accept."
  outputExists := ⟨"acceptance.output.exists"⟩
  outputWriteFailed := ⟨"acceptance.output.write-failed"⟩

/-- `publish_no_replace` of `pbr-accept`. -/
def publishNoReplace (processId : Nat) (path bytes : List UInt8) :
    FileProgram Label CliError Unit :=
  Publish.publishNoReplace command processId path bytes

end Accept

namespace Compose

structure CliError where
  exitCode : Nat
  code : String
deriving DecidableEq

def CliError.invalid (code : String) : CliError := ⟨2, code⟩

def command : Command CliError where
  mark := ".pbr-compose."
  outputExists := .invalid "composition.output.exists"
  outputWriteFailed := .invalid "composition.output.write-failed"

/-- `publish_no_replace` of `pbr-compose`. -/
def publishNoReplace (processId : Nat) (path bytes : List UInt8) :
    FileProgram Label CliError Unit :=
  Publish.publishNoReplace command processId path bytes

end Compose

/-- The three publications are all or nothing, but for a file of another at the
name of the receipt's temporary file, and for a failed sync after the link of a
decision. -/
theorem publication_allOrNothing_iff (faults : Faults Label) (entries : Location → Option Entry)
    (target executionId bytes : List UInt8) (processId : Nat) :
    (AllOrNothing faults entries (persistReceipt target executionId bytes) (Path.location target)
        bytes ↔ ¬ForeignTemporary faults entries target executionId) ∧
      (AllOrNothing faults entries (Accept.publishNoReplace processId target bytes)
        (Path.location target) bytes ↔
          ¬FailsAfterLink Accept.command processId faults entries target) ∧
      (AllOrNothing faults entries (Compose.publishNoReplace processId target bytes)
        (Path.location target) bytes ↔
          ¬FailsAfterLink Compose.command processId faults entries target) :=
  ⟨persistReceipt_allOrNothing_iff, publishNoReplace_allOrNothing_iff bytes,
    publishNoReplace_allOrNothing_iff bytes⟩

/-- No operation fails.  A receipt is published in a directory that has a file at the
name of the temporary file, and decisions are published under a relative name. -/
theorem publication_not_allOrNothing :
    let faults : Faults Label := ⟨fun _ => false, fun _ => 0, fun _ => false⟩
    let executionId := List.replicate 16 7
    let taken : Location :=
      ([.rootDir, .normal (Utf8.bytes "out")], receiptTemporaryName executionId)
    let receipt := Utf8.bytes "/out/receipt.json"
    let decision := Utf8.bytes "decision"
    ¬AllOrNothing faults (Function.update (fun _ => none) taken (some (.file [1])))
        (persistReceipt receipt executionId [2]) (Path.location receipt) [2] ∧
      ¬AllOrNothing faults (fun _ => none) (Accept.publishNoReplace 9 decision [2])
        (Path.location decision) [2] ∧
      ¬AllOrNothing faults (fun _ => none) (Compose.publishNoReplace 9 decision [2])
        (Path.location decision) [2] := by
  intro faults executionId taken receipt decision
  have hcreates : ∀ candidate, Creates faults (fun _ => none) candidate 0 100 0 := fun _ =>
    ⟨le_rfl, by decide, rfl, fun _ _ _ => nofun, fun _ _ h => absurd h (Nat.not_lt_zero _)⟩
  have hfails : ∀ {ε : Type} (command : Command ε),
      FailsAfterLink command 9 faults (fun _ => none) decision := fun command =>
    ⟨([], decision), ⟨by decide, nofun, rfl, by decide, ⟨0, hcreates _⟩, nofun, nofun, nofun⟩,
      .inr (.inl rfl)⟩
  refine ⟨?_, ?_, ?_⟩
  · rw [persistReceipt_allOrNothing_iff, not_not]
    exact ⟨taken.1, .file [1], by decide, Function.update_self .., nofun, nofun⟩
  · exact fun h => (publishNoReplace_allOrNothing_iff [2]).mp h (hfails Accept.command)
  · exact fun h => (publishNoReplace_allOrNothing_iff [2]).mp h (hfails Compose.command)

end ProofboundRuntime.Publish
