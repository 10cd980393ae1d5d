import RemindiCore.Domain.Model
import RemindiCore.Lib.Fallible
import RemindiCore.Lib.PageLog

/-!
# Files, the live database and the process

The world in which a restore runs: the files it names, the live database (a main
file and the frames of its write-ahead log), the connection pool with its
maintenance lock, and the service, which commits whenever it can get a
connection.  A process crash loses neither files nor frames.

A page is known by the writes that have made it what it is, so a write is lost
when no page of the database holds it any more.
-/

namespace RemindiCore.Admin

open PageLog Fallible

/-! ## Backups and the restore journal -/

inductive BackupSource where
  | manual
  | automatic
  | upload
  | preRestore
deriving DecidableEq

inductive BackupStatus where
  | ready
  | invalid
  | restored
  | expired
  | failed
deriving DecidableEq

/-- What is known of a database file that has been verified. -/
structure VerifiedFile where
  sha256 : String
  sizeBytes : Int
deriving DecidableEq

def backupFileName (id : Uuid) : String := "remindi-" ++ id.text ++ ".sqlite3"

/-- The sidecar of a backup; `validate_manifest` admits one file name only. -/
structure BackupManifest where
  id : Uuid
  source : BackupSource
  file : VerifiedFile
deriving DecidableEq

def BackupManifest.fileName (manifest : BackupManifest) : String := backupFileName manifest.id

/-- A row of `backup_records`. -/
structure BackupRecord where
  id : Uuid
  source : BackupSource
  status : BackupStatus
  file : VerifiedFile
deriving DecidableEq

def BackupRecord.fileName (record : BackupRecord) : String := backupFileName record.id

def BackupManifest.toRecord (manifest : BackupManifest) : BackupRecord where
  id := manifest.id
  source := manifest.source
  status := .ready
  file := manifest.file

inductive RestorePhase where
  | requested
  | candidateVerified
  | preRestoreBackupVerified
  | workloadsQuiesced
  | liveReplaced
  | replacementVerified
  | workloadsRestarted
  | succeeded
  | rollbackStarted
  | preRestoreReinstalled
  | rollbackVerified
  | workloadsRestartedOrHeld
  | failed
deriving DecidableEq

structure RestoreJournal where
  operationId : String
  phase : RestorePhase
  candidateFile : String
  preRestoreFile : String

/-! ## Files -/

inductive FilePath where
  | live
  | staged (operationId : String)
  | journal
  | journalTemporary
  | backup (fileName : String)
  | manifest (fileName : String)
  | temporaryDatabase (id : String)
  | temporaryManifest (id : String)
deriving DecidableEq

variable {Page Write : Type}

/-- Every page with the writes that have made it. -/
abbrev Image (Page Write : Type) := PageLog.Image Page (List Write)

def Image.Holds (image : Image Page Write) (write : Write) : Prop := ∃ page, write ∈ image page

inductive File (Page Write : Type) where
  | incomplete
  | database (image : Image Page Write)
  | journal (journal : RestoreJournal)
  | manifest (manifest : BackupManifest)

/-- The SQLite and hashing code that is called. -/
structure Sqlite (Page Write : Type) where
  /-- `VACUUM INTO` may lay the pages out anew, and keeps what they say. -/
  vacuum : Image Page Write → Image Page Write
  holds_vacuum : ∀ image write, Image.Holds (vacuum image) write ↔ Image.Holds image write
  /-- Header, integrity, schema version, owner and invariants. -/
  verifies : Image Page Write → Bool
  hashFile : Image Page Write → VerifiedFile

/-- Which database is put in the place of the live one. -/
inductive Role where
  | candidate
  | preRestore
deriving DecidableEq

structure State (Page Write : Type) where
  files : FilePath → Option (File Page Write)
  log : List (Frame Page (List Write))
  records : List BackupRecord
  pool : Bool
  maintenance : Bool
  /-- The writes that the service has acknowledged. -/
  committed : List Write
  /-- The same, when the pre-restore snapshot was taken. -/
  atSnapshot : Option (List Write)
  /-- The same, when maintenance was first entered. -/
  atMaintenance : Option (List Write)
  /-- What was last installed as the live database. -/
  installed : Option Role

namespace State

variable [DecidableEq Page]

def put (s : State Page Write) (path : FilePath) (file : Option (File Page Write)) :
    State Page Write :=
  { s with files := Function.update s.files path file }

def image (s : State Page Write) (path : FilePath) : Option (Image Page Write) :=
  match s.files path with
  | some (.database image) => some image
  | _ => none

/-- The main file; SQLite creates a missing one. -/
def main (s : State Page Write) : Image Page Write := (s.image .live).getD fun _ => []

/-- What opening the live path yields. -/
def content (s : State Page Write) : Image Page Write := PageLog.replay s.main s.log

/-- A connection is to be had. -/
def available (s : State Page Write) : Bool := s.pool && !s.maintenance

/-- Copy some of the frames into the main file. -/
def backfill (s : State Page Write) (frames : Nat) : State Page Write :=
  s.put .live (some (.database (PageLog.replay s.main (s.log.take frames))))

/-- Copy all frames, and start the log anew. -/
def resetLog (s : State Page Write) : State Page Write :=
  { s.put .live (some (.database s.content)) with log := [] }

/-- The frames of one transaction. -/
def frames (image : Image Page Write) : List (Page × Write) → List (Frame Page (List Write))
  | [] => []
  | (page, write) :: changes =>
    (page, image page ++ [write]) ::
      frames (Function.update image page (image page ++ [write])) changes

def append (s : State Page Write) (changes : List (Page × Write)) : State Page Write :=
  { s with log := s.log ++ frames s.content changes }

end State

/-! ## Calls -/

inductive FsCall (Page Write : Type) where
  | create (path : FilePath)
  | write (path : FilePath) (file : File Page Write)
  | sync (path : FilePath)
  | protect (path : FilePath)
  | copy (source target : FilePath)
  | rename (source target : FilePath)
  | remove (path : FilePath)
  | syncDirectory
  | createDirectory
  | protectDirectory

/-- The function that makes a file system call. -/
inductive Caller where
  | writeJournal (phase : RestorePhase)
  | removeJournal
  | installDatabase (role : Role)
  | recoverInterrupted
  | backups
deriving DecidableEq

inductive RestoreEvent where
  | restoreSucceeded
  | restoreFailed
deriving DecidableEq

inductive Call (Page Write : Type) where
  | fs (caller : Caller) (call : FsCall Page Write)
  | nextId
  | timestamp
  | listBackups
  | surplusBackups
  | vacuumInto (path : FilePath)
  | verifyDatabase (path : FilePath)
  | readManifest (path : FilePath)
  | readDirectory
  | readJournal
  | insertManifest (manifest : BackupManifest)
  | expireBackup (id : Uuid)
  | auditAppend (event : RestoreEvent)
  | beginMaintenance
  | endMaintenance
  | checkpointAndClose
  | reopen
  | clearSchedulerLeases (role : Role)
  | quiesceForMaintenance
  | restartFromPersisted
  | quiesceAgain

abbrev Value : Call Page Write → Type
  | .nextId => Uuid
  | .listBackups | .surplusBackups => List BackupRecord
  | .verifyDatabase _ => VerifiedFile
  | .readManifest _ => BackupManifest
  | .readDirectory => List FilePath
  | .readJournal => Option RestoreJournal
  | _ => Unit

/-- What the surroundings decide about one call. -/
structure Answer (Page Write : Type) where
  ok : Bool
  /-- A generated identifier. -/
  id : Uuid
  /-- Directory entries. -/
  entries : List FilePath
  /-- The backups past the retention count. -/
  surplus : List Uuid
  /-- The backup records of a database that is opened. -/
  records : List BackupRecord
  /-- What a transaction of the call's own writes. -/
  changes : List (Page × Write)
  /-- The closing pool has emptied the log. -/
  truncated : Bool

section

variable [DecidableEq Page]

/-- A call without a value that may fail, and then changes nothing. -/
def settle (ok : Bool) (s t : State Page Write) : Option Unit × State Page Write :=
  if ok then (some (), t) else (none, s)

def serveFs (caller : Caller) (call : FsCall Page Write) (ok : Bool) (s : State Page Write) :
    Option Unit × State Page Write :=
  match call with
  | .create path => settle ok s (s.put path (some .incomplete))
  | .write path file => if ok then (some (), s.put path (some file))
    else (none, s.put path (some .incomplete))
  | .copy source target =>
    match s.files source with
    | none => (none, s)
    | some file => if ok then (some (), s.put target (some file))
      else (none, s.put target (some .incomplete))
  | .rename source target =>
    match s.files source with
    | none => (none, s)
    | some file =>
      let moved := (s.put target (some file)).put source none
      settle ok s (match caller, target with
        | .installDatabase role, .live => { moved with installed := some role }
        | _, _ => moved)
  | .remove path => settle ok s (s.put path none)
  | .sync _ | .protect _ | .syncDirectory | .createDirectory | .protectDirectory => settle ok s s

def verify (x : Sqlite Page Write) (path : FilePath) (s : State Page Write) :
    Option VerifiedFile :=
  match s.image path with
  | none => none
  | some image =>
    -- a connection to the live path reads through the log
    if x.verifies (if path = .live then s.content else image) then some (x.hashFile image) else none

/-- `INSERT OR IGNORE` -/
def insertRecord (records : List BackupRecord) (record : BackupRecord) : List BackupRecord :=
  if records.any (·.id = record.id) then records else records ++ [record]

def expireRecord (records : List BackupRecord) (id : Uuid) : List BackupRecord :=
  records.map fun record =>
    if record.id = id ∧ record.status = .ready then { record with status := .expired } else record

/-- The retention query: ready backups that were not made by hand or before a restore. -/
def surplusOf (records : List BackupRecord) (surplus : List Uuid) : List BackupRecord :=
  records.filter fun record => record.status = .ready &&
    (record.source = .automatic || record.source = .upload) && surplus.contains record.id

def serve (x : Sqlite Page Write) : (k : Call Page Write) → Answer Page Write →
    State Page Write → Option (Value k) × State Page Write
  | .fs caller call, a, s => serveFs caller call a.ok s
  | .nextId, a, s => (some a.id, s)
  | .timestamp, a, s => settle a.ok s s
  | .listBackups, a, s => (if a.ok && s.available then some s.records else none, s)
  | .surplusBackups, a, s =>
    (if a.ok && s.available then some (surplusOf s.records a.surplus) else none, s)
  | .vacuumInto path, a, s =>
    settle (a.ok && s.available && (s.files path).isNone) s
      { s.put path (some (.database (x.vacuum s.content))) with atSnapshot := some s.committed }
  | .verifyDatabase path, a, s => (if a.ok then verify x path s else none, s)
  | .readManifest path, a, s =>
    match s.files path with
    | some (.manifest manifest) => (if a.ok then some manifest else none, s)
    | _ => (none, s)
  | .readDirectory, a, s => (if a.ok then some a.entries else none, s)
  | .readJournal, a, s =>
    match s.files .journal with
    | none => (if a.ok then some none else none, s)
    | some (.journal journal) => (if a.ok then some (some journal) else none, s)
    | _ => (none, s)
  | .insertManifest manifest, a, s =>
    settle (a.ok && s.available) s
      { s.append a.changes with records := insertRecord s.records manifest.toRecord }
  | .expireBackup id, a, s =>
    settle (a.ok && s.available) s
      { s.append a.changes with records := expireRecord s.records id }
  | .auditAppend _, a, s => settle (a.ok && s.available) s (s.append a.changes)
  | .beginMaintenance, _, s =>
    (some (), { s with maintenance := true
                       atMaintenance := some (s.atMaintenance.getD s.committed) })
  | .endMaintenance, _, s => (some (), { s with maintenance := false })
  | .checkpointAndClose, a, s =>
    if s.pool then
      let closed := { (if a.truncated then s.resetLog else s) with pool := false }
      (if a.ok then some () else none, closed)
    else (none, s)
  | .reopen, a, s =>
    let migrated := s.append a.changes
    if a.ok then (some (), { migrated with pool := true, records := a.records })
    else (none, if a.truncated then migrated.resetLog else migrated)
  | .clearSchedulerLeases _, a, s => settle (a.ok && s.pool) s (s.append a.changes)
  | .quiesceForMaintenance, a, s => settle a.ok s s
  | .restartFromPersisted, a, s => settle (a.ok && s.available) s s
  | .quiesceAgain, a, s => settle a.ok s s

/-! ## The service -/

inductive Event (Page Write : Type) where
  | commit (changes : List (Page × Write))
  | backfill (frames : Nat)
  | resetLog

/-- The service commits and acknowledges, and SQLite checkpoints, while there are
connections. -/
def interfere (event : Event Page Write) (s : State Page Write) : State Page Write :=
  match event with
  | .commit changes =>
    if s.available then
      { s.append changes with committed := s.committed ++ changes.map Prod.snd }
    else s
  | .backfill frames => if s.pool then s.backfill frames else s
  | .resetLog => if s.pool then s.resetLog else s

def world (x : Sqlite Page Write) :
    World (@Value Page Write) (State Page Write) (Answer Page Write) (Event Page Write) where
  serve := serve x
  interfere := interfere

end

end RemindiCore.Admin
