import RemindiCore.Proof.DirectoryPrograms

/-!
# The calls of a restore

Beside the download of the candidate, the backup that it makes before and the
installation of the candidate, a restore changes no pair of files, and uses no
temporary file of a backup but to remove it (`Routine`).
-/

namespace RemindiCore.Admin.Directory

open Fallible

variable {Page Write : Type}

/-- A step of a restore among other operations. -/
abbrev SiteStep (Page Write : Type) :=
  Step (Call Page Write) (Fallible.Turn (Operation Page Write) (Reply Page Write) Int)
    (Site Page Write)

abbrev SiteTrace (Page Write : Type) :=
  Config (Call Page Write) (Fallible.Turn (Operation Page Write) (Reply Page Write) Int)
    (Site Page Write)

/-- No pair is changed, no temporary file used, and no candidate installed. -/
structure Plain (k : Call Page Write) : Prop where
  spares : ∀ name, ¬ touches (.backup name) k ∧ ¬ touches (.manifest name) k
  database : ∀ name, ¬ mentions (.temporaryDatabase name) k
  sidecar : ∀ name, ¬ mentions (.temporaryManifest name) k
  installs : ∀ operation,
    k ≠ .fs (.installDatabase .candidate) (.rename (.staged operation) .live)

/-- The same, but for the removal of a temporary file. -/
structure Routine (k : Call Page Write) : Prop where
  spares : ∀ name, ¬ touches (.backup name) k ∧ ¬ touches (.manifest name) k
  database : ∀ name, mentions (.temporaryDatabase name) k →
    k = .fs .backups (.remove (.temporaryDatabase name))
  sidecar : ∀ name, mentions (.temporaryManifest name) k →
    k = .fs .backups (.remove (.temporaryManifest name))
  installs : ∀ operation,
    k ≠ .fs (.installDatabase .candidate) (.rename (.staged operation) .live)

theorem Plain.routine {k : Call Page Write} (h : Plain k) : Routine k where
  spares := h.spares
  database := fun name hmentions => absurd hmentions (h.database name)
  sidecar := fun name hmentions => absurd hmentions (h.sidecar name)
  installs := h.installs

/-- A call that uses no file of a backup. -/
theorem Plain.of_mentions {k : Call Page Write} (hbackup : ∀ name, ¬ mentions (.backup name) k)
    (hmanifest : ∀ name, ¬ mentions (.manifest name) k)
    (hdatabase : ∀ name, ¬ mentions (.temporaryDatabase name) k)
    (hsidecar : ∀ name, ¬ mentions (.temporaryManifest name) k)
    (hinstalls : ∀ operation,
      k ≠ .fs (.installDatabase .candidate) (.rename (.staged operation) .live)) : Plain k where
  spares := fun name => ⟨fun h => hbackup name (mentions_of_touches h),
    fun h => hmanifest name (mentions_of_touches h)⟩
  database := hdatabase
  sidecar := hsidecar
  installs := hinstalls

theorem Routine.of_mentions {k : Call Page Write} (hbackup : ∀ name, ¬ mentions (.backup name) k)
    (hmanifest : ∀ name, ¬ mentions (.manifest name) k)
    (hdatabase : ∀ name, ¬ mentions (.temporaryDatabase name) k)
    (hsidecar : ∀ name, ¬ mentions (.temporaryManifest name) k)
    (hinstalls : ∀ operation,
      k ≠ .fs (.installDatabase .candidate) (.rename (.staged operation) .live)) : Routine k :=
  (Plain.of_mentions hbackup hmanifest hdatabase hsidecar hinstalls).routine

/-! ## The journal and the swap of files -/

theorem plain_writeJournal (journal : RestoreJournal) :
    (writeJournal journal : Program Page Write Unit).Makes Plain := by
  unfold writeJournal
  refine Prog.Makes.bind (Prog.Makes.perform (.of_mentions nofun nofun nofun nofun nofun))
    fun _ => ?_
  refine Prog.Makes.bind (Prog.Makes.perform (.of_mentions nofun nofun nofun nofun nofun))
    fun _ => ?_
  refine Prog.Makes.bind (Prog.Makes.perform (.of_mentions nofun nofun nofun nofun nofun))
    fun _ => ?_
  refine Prog.Makes.bind (Prog.Makes.perform (.of_mentions nofun nofun nofun nofun nofun))
    fun _ => ?_
  refine Prog.Makes.bind (Prog.Makes.perform (.of_mentions nofun nofun nofun nofun nofun))
    fun _ => ?_
  exact Prog.Makes.perform (.of_mentions nofun nofun nofun nofun nofun)

theorem plain_tryWriteJournal (journal : RestoreJournal) :
    (tryWriteJournal journal : Program Page Write Unit).Makes Plain :=
  Prog.Makes.bind (Prog.Makes.attempt (plain_writeJournal journal)) fun _ => trivial

theorem plain_removeJournal : (removeJournal : Program Page Write Unit).Makes Plain := by
  unfold removeJournal
  refine Prog.Makes.bind (Prog.Makes.ignore (.of_mentions nofun nofun nofun nofun nofun))
    fun _ => ?_
  exact Prog.Makes.perform (.of_mentions nofun nofun nofun nofun nofun)

theorem plain_failIf (fault seam : RestoreFault) :
    (failIf fault seam : Program Page Write Unit).Makes Plain := by
  unfold failIf
  split <;> trivial

/-- The copy of a backup reads the backup. -/
theorem plain_copy (caller : Caller) (name operation : String) :
    Plain (.fs caller (.copy (.backup name) (.staged operation)) : Call Page Write) where
  spares := fun _ => ⟨nofun, nofun⟩
  database := nofun
  sidecar := nofun
  installs := nofun

theorem plain_installPreRestore (name operation : String) :
    (installDatabase .preRestore (.backup name) operation : Program Page Write Unit).Makes
      Plain := by
  unfold installDatabase
  refine Prog.Makes.bind (Prog.Makes.ignore (.of_mentions nofun nofun nofun nofun nofun))
    fun _ => ?_
  refine Prog.Makes.bind (Prog.Makes.perform (plain_copy _ _ _)) fun _ => ?_
  refine Prog.Makes.bind (Prog.Makes.perform (.of_mentions nofun nofun nofun nofun nofun))
    fun _ => ?_
  refine Prog.Makes.bind (Prog.Makes.perform (.of_mentions nofun nofun nofun nofun nofun))
    fun _ => ?_
  refine Prog.Makes.bind (Prog.Makes.perform (.of_mentions nofun nofun nofun nofun nofun))
    fun _ => ?_
  exact Prog.Makes.perform (.of_mentions nofun nofun nofun nofun nofun)

/-! ## The end of a restore -/

theorem plain_reinstall (journal : RestoreJournal) (name : String) :
    (reinstall journal (.backup name) : Program Page Write Unit).Makes Plain := by
  unfold reinstall
  refine Prog.Makes.bind (Prog.Makes.ignore (.of_mentions nofun nofun nofun nofun nofun))
    fun _ => ?_
  refine Prog.Makes.bind (plain_installPreRestore _ _) fun _ => ?_
  refine Prog.Makes.bind (plain_tryWriteJournal _) fun _ => ?_
  refine Prog.Makes.bind (Prog.Makes.perform (.of_mentions nofun nofun nofun nofun nofun))
    fun _ => ?_
  refine Prog.Makes.bind (plain_tryWriteJournal _) fun _ => ?_
  exact Prog.Makes.perform (.of_mentions nofun nofun nofun nofun nofun)

theorem plain_rollBack (journal : RestoreJournal) (name : String) :
    (rollBack journal (.backup name) : Program Page Write RestoreOutcome).Makes Plain := by
  unfold rollBack
  refine Prog.Makes.bind (Prog.Makes.attempt (plain_reinstall _ _)) fun _ => ?_
  refine Prog.Makes.bind (Prog.Makes.ignore (.of_mentions nofun nofun nofun nofun nofun))
    fun _ => ?_
  refine Prog.Makes.bind Prog.Makes.ofExcept fun _ => ?_
  refine Prog.Makes.bind (Prog.Makes.attempt
    (Prog.Makes.perform (.of_mentions nofun nofun nofun nofun nofun))) fun _ => ?_
  refine Prog.Makes.bind (plain_tryWriteJournal _) fun _ => ?_
  refine Prog.Makes.bind (Prog.Makes.perform (.of_mentions nofun nofun nofun nofun nofun))
    fun _ => ?_
  refine Prog.Makes.bind (plain_tryWriteJournal _) fun _ => ?_
  refine Prog.Makes.bind plain_removeJournal fun _ => ?_
  exact Prog.Makes.bind Prog.Makes.ofExcept fun _ => trivial

theorem routine_removal {path : FilePath} (hpath : path = .temporaryDatabase name ∨
    path = .temporaryManifest name) : Routine (.fs .backups (.remove path) : Call Page Write) where
  spares := fun _ => by rcases hpath with rfl | rfl <;> exact ⟨nofun, nofun⟩
  database := fun _ h => by rw [show path = .temporaryDatabase _ from h]
  sidecar := fun _ h => by rw [show path = .temporaryManifest _ from h]
  installs := nofun

theorem routine_reconcileEntry (path : FilePath) :
    (reconcileEntry path : Program Page Write Unit).Makes Routine := by
  cases path with
  | temporaryDatabase other => exact Prog.Makes.ignore (routine_removal (Or.inl rfl))
  | temporaryManifest other => exact Prog.Makes.ignore (routine_removal (Or.inr rfl))
  | manifest name =>
    unfold reconcileEntry
    refine Prog.Makes.bind (Prog.Makes.attempt
      (Prog.Makes.perform ⟨fun _ => ⟨nofun, nofun⟩, nofun, nofun, nofun⟩)) fun read => ?_
    cases read with
    | error e => trivial
    | ok manifest =>
      dsimp only
      split
      · trivial
      refine Prog.Makes.bind (Prog.Makes.attempt
        (Prog.Makes.perform ⟨fun _ => ⟨nofun, nofun⟩, nofun, nofun, nofun⟩))
        fun verified => ?_
      cases verified with
      | error e => trivial
      | ok verified =>
        dsimp only
        split
        · trivial
        · exact Prog.Makes.perform ⟨fun _ => ⟨nofun, nofun⟩, nofun, nofun, nofun⟩
  | _ => trivial

theorem routine_reconcileEntries (paths : List FilePath) :
    (reconcileEntries paths : Program Page Write Unit).Makes Routine := by
  induction paths with
  | nil => trivial
  | cons path paths ih => exact Prog.Makes.bind (routine_reconcileEntry path) fun _ => ih

theorem routine_complete : (complete : Program Page Write Unit).Makes Routine := by
  unfold complete reconcile
  refine Prog.Makes.bind ?_ fun _ =>
    Prog.Makes.perform (.of_mentions nofun nofun nofun nofun nofun)
  refine Prog.Makes.bind (Prog.Makes.perform (.of_mentions nofun nofun nofun nofun nofun))
    fun _ => ?_
  refine Prog.Makes.bind (Prog.Makes.perform (.of_mentions nofun nofun nofun nofun nofun))
    fun _ => ?_
  refine Prog.Makes.bind (Prog.Makes.ignore (.of_mentions nofun nofun nofun nofun nofun))
    fun _ => ?_
  refine Prog.Makes.bind (Prog.Makes.perform (.of_mentions nofun nofun nofun nofun nofun))
    fun _ => ?_
  exact routine_reconcileEntries _

theorem plain_succeed (journal : RestoreJournal) (candidate : BackupRecord) :
    (succeed journal candidate : Program Page Write RestoreOutcome).Makes Plain := by
  unfold succeed
  refine Prog.Makes.bind (plain_writeJournal _) fun _ => ?_
  refine Prog.Makes.bind (Prog.Makes.perform (.of_mentions nofun nofun nofun nofun nofun))
    fun _ => ?_
  refine Prog.Makes.bind (plain_writeJournal _) fun _ => ?_
  exact Prog.Makes.bind plain_removeJournal fun _ => trivial

/-- What follows the replacement, which may have failed. -/
def conclusion (journal : RestoreJournal) (candidate : BackupRecord) (preRestorePath : FilePath) :
    Except BackupError Unit → Program Page Write RestoreOutcome
  | .ok () => (ignore .endMaintenance).bind fun _ => complete.attempt.bind fun completed =>
      match completed with
      | .ok () => succeed journal candidate
      | .error _ => (ignore .quiesceAgain).bind fun _ =>
          (tryWriteJournal { journal with phase := .rollbackStarted }).bind fun _ =>
            (ignore .beginMaintenance).bind fun _ => rollBack journal preRestorePath
  | .error _ => (tryWriteJournal { journal with phase := .rollbackStarted }).bind fun _ =>
      rollBack journal preRestorePath

theorem replace_eq (journal : RestoreJournal) (candidate : BackupRecord)
    (candidatePath preRestorePath : FilePath) (fault : RestoreFault) :
    (replace journal candidate candidatePath preRestorePath fault :
      Program Page Write RestoreOutcome) =
        (ignore .beginMaintenance).bind fun _ =>
          (replaceLive journal candidatePath fault).attempt.bind
            (conclusion journal candidate preRestorePath) := by
  unfold replace
  refine congrArg (Prog.bind _) (funext fun _ => congrArg (Prog.bind _) (funext fun replaced => ?_))
  cases replaced <;> rfl

theorem routine_conclusion (journal : RestoreJournal) (candidate : BackupRecord) (name : String)
    (replaced : Except BackupError Unit) :
    (conclusion journal candidate (.backup name) replaced :
      Program Page Write RestoreOutcome).Makes Routine := by
  have hended : (rollBack journal (.backup name) : Program Page Write RestoreOutcome).Makes
      Routine := (plain_rollBack _ _).mono fun _ => Plain.routine
  have hjournal : (tryWriteJournal { journal with phase := .rollbackStarted } :
      Program Page Write Unit).Makes Routine :=
    (plain_tryWriteJournal _).mono fun _ => Plain.routine
  cases replaced with
  | error e => exact Prog.Makes.bind hjournal fun _ => hended
  | ok done =>
    refine Prog.Makes.bind (Prog.Makes.ignore (.of_mentions nofun nofun nofun nofun nofun))
      fun _ => ?_
    refine Prog.Makes.bind (Prog.Makes.attempt routine_complete) fun completed => ?_
    cases completed with
    | ok done => exact (plain_succeed _ _).mono fun _ => Plain.routine
    | error e =>
      refine Prog.Makes.bind (Prog.Makes.ignore (.of_mentions nofun nofun nofun nofun nofun))
        fun _ => ?_
      refine Prog.Makes.bind hjournal fun _ => ?_
      refine Prog.Makes.bind (Prog.Makes.ignore (.of_mentions nofun nofun nofun nofun nofun))
        fun _ => ?_
      exact hended

/-! ## Download -/

theorem findBackup_id {records : List BackupRecord} {id : Uuid} {record : BackupRecord}
    (h : findBackup records id.text = some record) : record ∈ records ∧ record.id = id := by
  have hfound := List.find?_some h
  simp only [Bool.and_eq_true, decide_eq_true_eq] at hfound
  refine ⟨List.mem_of_find?_eq_some h, ?_⟩
  apply backupFileName_injective
  unfold backupFileName
  rw [hfound.1]

theorem plain_download (id : String) :
    (download id : Program Page Write (BackupRecord × FilePath)).Makes Plain := by
  unfold download
  refine Prog.Makes.bind (Prog.Makes.perform (.of_mentions nofun nofun nofun nofun nofun))
    fun records => ?_
  cases findBackup records id with
  | none => trivial
  | some record =>
    dsimp only
    split
    · trivial
    refine Prog.Makes.bind
      (Prog.Makes.perform ⟨fun _ => ⟨nofun, nofun⟩, nofun, nofun, nofun⟩) fun _ => ?_
    refine Prog.Makes.bind
      (Prog.Makes.perform ⟨fun _ => ⟨nofun, nofun⟩, nofun, nofun, nofun⟩) fun _ => ?_
    split <;> trivial

/-- The file that is downloaded has the name of the identifier. -/
theorem yields_download (id : String) :
    (download id : Program Page Write (BackupRecord × FilePath)).Yields fun found =>
      found.1.id.text = id ∧ found.2 = .backup (backupFileName found.1.id) := by
  unfold download
  refine Prog.Yields.bind Prog.Yields.any fun records _ => ?_
  cases hfound : findBackup records id with
  | none => trivial
  | some record =>
    have hrecord := List.find?_some hfound
    simp only [Bool.and_eq_true, decide_eq_true_eq] at hrecord
    dsimp only
    split
    · trivial
    refine Prog.Yields.bind Prog.Yields.any fun _ _ => ?_
    refine Prog.Yields.bind Prog.Yields.any fun _ _ => ?_
    split
    · trivial
    · exact ⟨hrecord.1, rfl⟩

theorem yields_orRemoveJournal {α : Type} {Q : α → Prop} {m : Program Page Write α}
    (hm : m.Yields Q) : (orRemoveJournal m).Yields Q := by
  unfold orRemoveJournal
  refine Prog.Yields.bind hm.attempt fun result hresult => ?_
  cases result with
  | ok a => exact hresult a rfl
  | error e => exact Prog.Yields.bind Prog.Yields.any fun _ _ => trivial

/-! ## From the record on -/

/-- `restore` once it has found the record. -/
def proceed (backupId : String) (requested : BackupRecord) (fault : RestoreFault) :
    Program Page Write RestoreOutcome := do
  let operationId ← Admin.perform .nextId .database
  let journal : RestoreJournal :=
    { operationId := operationId.text
      phase := .requested
      candidateFile := requested.fileName
      preRestoreFile := "" }
  writeJournal journal
  let (candidate, candidatePath) ← orRemoveJournal (download backupId)
  writeJournal { journal with phase := .candidateVerified }
  let preRestore ← orRemoveJournal (Admin.create .preRestore)
  let (_, preRestorePath) ← orRemoveJournal (download preRestore.id.text)
  let journal : RestoreJournal :=
    { journal with phase := .preRestoreBackupVerified, preRestoreFile := preRestore.fileName }
  writeJournal journal
  orRemoveJournal (Admin.perform .quiesceForMaintenance .workload)
  replace journal candidate candidatePath preRestorePath fault

theorem restore_eq (backupId confirmation : String) (fault : RestoreFault) :
    (restore backupId confirmation fault : Program Page Write RestoreOutcome) =
      if confirmation ≠ restoreConfirmation then .throw .restoreConfirmation
      else listBackups.bind fun records => match findBackup records backupId with
        | none => .throw .notFound
        | some requested =>
          if !safeFileName requested.fileName then .throw .invalid
          else proceed backupId requested fault := rfl

end RemindiCore.Admin.Directory
