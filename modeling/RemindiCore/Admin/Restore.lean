import RemindiCore.Admin.Backup
import RemindiCore.Service.Listing

/-!
# Restoring a backup

`restore` replaces the live database by a backup under exclusive maintenance,
keeps a journal of its phases, and rolls back to a snapshot of its own when a
step fails.  `recoverInterrupted` runs at startup, before the database is
opened, and finishes what a journal says was interrupted.
-/

namespace RemindiCore.Admin

open PageLog Fallible

variable {Page Write : Type}

/-! ## The journal and the swap of files -/

def writeJournal (journal : RestoreJournal) : Program Page Write Unit := do
  let caller := Caller.writeJournal journal.phase
  fs caller (.create .journalTemporary)
  fs caller (.write .journalTemporary (.journal journal))
  fs caller (.sync .journalTemporary)
  fs caller (.protect .journalTemporary)
  fs caller (.rename .journalTemporary .journal)
  fs caller .syncDirectory

/-- `let _ = write_journal(..)` -/
def tryWriteJournal (journal : RestoreJournal) : Program Page Write Unit := do
  let _ ← (writeJournal journal).attempt
  .pure ()

def removeJournal : Program Page Write Unit := do
  removeIfExists .removeJournal .journal
  fs .removeJournal .syncDirectory

/-- Put a copy of the source in the place of the live file; the sidecars of the
live file stay. -/
def installDatabase (role : Role) (source : FilePath) (operationId : String) :
    Program Page Write Unit := do
  let caller := Caller.installDatabase role
  let staged := FilePath.staged operationId
  removeIfExists caller staged
  fs caller (.copy source staged)
  fs caller (.protect staged)
  fs caller (.sync staged)
  fs caller (.rename staged .live)
  fs caller .syncDirectory

/-! ## Restore -/

inductive RestoreFault where
  | none
  | beforeSwap
  | duringReopen
  | afterSwap
deriving DecidableEq

structure RestoreOutcome where
  operationId : String
  backupId : String
  restored : Bool
  rolledBack : Bool
deriving DecidableEq

def restoreConfirmation : String := "RESTORE REMINDI"

/-- An error removes the journal on its way out. -/
def orRemoveJournal {α : Type} (m : Program Page Write α) : Program Page Write α := do
  match ← m.attempt with
  | .ok a => .pure a
  | .error e => do
    removeJournal
    .throw e

/-- `Err` if the seam is the one that is asked for. -/
def failIf (fault seam : RestoreFault) : Program Page Write Unit :=
  if fault = seam then .throw .restoreFailed else .pure ()

/-- The replacement, under maintenance. -/
def replaceLive (journal : RestoreJournal) (candidate : FilePath) (fault : RestoreFault) :
    Program Page Write Unit := do
  writeJournal { journal with phase := .workloadsQuiesced }
  perform .checkpointAndClose .restoreFailed
  failIf fault .beforeSwap
  installDatabase .candidate candidate journal.operationId
  writeJournal { journal with phase := .liveReplaced }
  failIf fault .duringReopen
  perform .reopen .restoreFailed
  writeJournal { journal with phase := .replacementVerified }
  failIf fault .afterSwap
  perform (.clearSchedulerLeases .candidate) .restoreFailed

/-- The pre-restore backup is put back, under maintenance. -/
def reinstall (journal : RestoreJournal) (preRestore : FilePath) : Program Page Write Unit := do
  ignore .checkpointAndClose
  installDatabase .preRestore preRestore journal.operationId
  tryWriteJournal { journal with phase := .preRestoreReinstalled }
  perform .reopen .restoreFailed
  tryWriteJournal { journal with phase := .rollbackVerified }
  perform (.clearSchedulerLeases .preRestore) .restoreFailed

/-- The rest of a failed restore; the maintenance lock falls with `reinstall`. -/
def rollBack (journal : RestoreJournal) (preRestore : FilePath) :
    Program Page Write RestoreOutcome := do
  let reinstalled ← (reinstall journal preRestore).attempt
  ignore .endMaintenance
  Prog.ofExcept reinstalled
  let restart ← (perform .restartFromPersisted .workload).attempt
  tryWriteJournal { journal with phase := .workloadsRestartedOrHeld }
  perform (.auditAppend .restoreFailed) .database
  tryWriteJournal { journal with phase := .failed }
  removeJournal
  Prog.ofExcept restart
  .throw .restoreFailed

/-- The replacement is in use: register the backups again and restart the workloads. -/
def complete : Program Page Write Unit := do
  reconcile
  perform .restartFromPersisted .workload

def succeed (journal : RestoreJournal) (candidate : BackupRecord) :
    Program Page Write RestoreOutcome := do
  writeJournal { journal with phase := .workloadsRestarted }
  perform (.auditAppend .restoreSucceeded) .database
  writeJournal { journal with phase := .succeeded }
  removeJournal
  .pure { operationId := journal.operationId
          backupId := candidate.id.text
          restored := true
          rolledBack := false }

/-- The part of a restore after the workloads have been stopped. -/
def replace (journal : RestoreJournal) (candidate : BackupRecord)
    (candidatePath preRestorePath : FilePath) (fault : RestoreFault) :
    Program Page Write RestoreOutcome := do
  ignore .beginMaintenance
  match ← (replaceLive journal candidatePath fault).attempt with
  | .ok () => do
    ignore .endMaintenance
    match ← complete.attempt with
    | .ok () => succeed journal candidate
    | .error _ => do
      ignore .quiesceAgain
      tryWriteJournal { journal with phase := .rollbackStarted }
      ignore .beginMaintenance
      rollBack journal preRestorePath
  | .error _ => do
    tryWriteJournal { journal with phase := .rollbackStarted }
    rollBack journal preRestorePath

/-- Restore one verified backup under exclusive maintenance. -/
def restore (backupId confirmation : String) (fault : RestoreFault) :
    Program Page Write RestoreOutcome :=
  if confirmation ≠ restoreConfirmation then .throw .restoreConfirmation
  else do
    let records ← listBackups
    match findBackup records backupId with
    | none => .throw .notFound
    | some requested =>
      if !safeFileName requested.fileName then .throw .invalid
      else do
        let operationId ← perform .nextId .database
        let journal : RestoreJournal :=
          { operationId := operationId.text
            phase := .requested
            candidateFile := requested.fileName
            preRestoreFile := "" }
        writeJournal journal
        let (candidate, candidatePath) ← orRemoveJournal (download backupId)
        writeJournal { journal with phase := .candidateVerified }
        let preRestore ← orRemoveJournal (create .preRestore)
        let (_, preRestorePath) ← orRemoveJournal (download preRestore.id.text)
        let journal : RestoreJournal :=
          { journal with phase := .preRestoreBackupVerified, preRestoreFile := preRestore.fileName }
        writeJournal journal
        orRemoveJournal (perform .quiesceForMaintenance .workload)
        replace journal candidate candidatePath preRestorePath fault

/-! ## Recovery at startup -/

def RestorePhase.early (phase : RestorePhase) : Bool :=
  phase = .requested || phase = .candidateVerified

/-- The phases from which recovery puts the pre-restore backup back. -/
def RestorePhase.reinstalls (phase : RestorePhase) : Bool :=
  !phase.early && phase ≠ .succeeded

def RestoreJournal.valid (journal : RestoreJournal) : Bool :=
  (Uuid.parse journal.operationId).isSome && safeFileName journal.candidateFile &&
    (journal.phase.early || safeFileName journal.preRestoreFile)

/-- The work that the phase of the journal asks for. -/
def recover (journal : RestoreJournal) : Program Page Write Unit :=
  if journal.phase.early then do
    let _ ← verifyDatabase .live
    .pure ()
  else if journal.phase ≠ .succeeded then do
    let preRestore := FilePath.backup journal.preRestoreFile
    let _ ← verifyDatabase preRestore
    installDatabase .preRestore preRestore journal.operationId
    let _ ← verifyDatabase .live
    .pure ()
  else .pure ()

/-- Repair an interrupted restore before the live database is opened. -/
def recoverInterrupted : Program Page Write Bool := do
  match ← perform .readJournal .io with
  | none => .pure false
  | some journal =>
    if !journal.valid then .throw .invalid
    else do
      recover journal
      fs .recoverInterrupted (.remove .journal)
      fs .recoverInterrupted .syncDirectory
      .pure true

end RemindiCore.Admin
