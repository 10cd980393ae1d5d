import RemindiCore.Admin.Restore
import RemindiCore.Lib.Leaders
import RemindiCore.Lib.Pool
import Mathlib.Data.Prod.Lex
import Mathlib.Data.String.Basic

/-!
# The backup directory under failures and at the same time

The world of the backup and the restore manager in which any call may fail, and
a call that fails may have left something: a file that `VACUUM INTO` has begun,
a commit that has taken effect.  Other backup operations run between the calls
of a restore.  The mutex of the backup manager is left out, which only adds
orders of the calls.
-/

namespace RemindiCore.Admin

open Fallible Leaders

/-- A row of `backup_records` with its creation time. -/
structure BackupRow where
  record : BackupRecord
  createdAt : String
deriving DecidableEq

structure Directory (Page Write : Type) where
  files : FilePath → Option (File Page Write)
  /-- The files that have `-wal` and `-shm` files of SQLite beside them. -/
  walFiles : FilePath → Bool
  /-- `backup_records` of the live database. -/
  rows : List BackupRow
  /-- `CAST(value_json AS INTEGER)` of `backups.retention_count`. -/
  retention : Option Int
  pool : Bool
  maintenance : Bool
  /-- The identifiers that were ever generated. -/
  used : List Uuid

namespace Directory

variable {Page Write : Type}

def put (s : Directory Page Write) (path : FilePath) (file : Option (File Page Write)) :
    Directory Page Write :=
  { s with files := Function.update s.files path file }

/-- SQLite leaves its files beside this one, as it does when it has read a database in
WAL mode that it may not write. -/
def leaveWal (s : Directory Page Write) (path : FilePath) : Directory Page Write :=
  { s with walFiles := Function.update s.walFiles path true }

def image (s : Directory Page Write) (path : FilePath) : Option (Image Page Write) :=
  match s.files path with
  | some (.database image) => some image
  | _ => none

def available (s : Directory Page Write) : Bool := s.pool && !s.maintenance

/-! ## Retention -/

/-- `status = 'ready' AND source IN ('automatic', 'upload')` -/
def eligible (row : BackupRow) : Bool :=
  row.record.status = .ready && (row.record.source = .automatic || row.record.source = .upload)

def rank (row : BackupRow) : String ×ₗ String := toLex (row.createdAt, row.record.id.text)

/-- `ORDER BY created_at DESC, id DESC LIMIT -1 OFFSET ?` -/
def surplus (rows : List BackupRow) (retention : Int) : List BackupRow :=
  (descending rank (rows.filter eligible)).drop retention.toNat

/-- What the query of `apply_retention` selects. -/
def selected (s : Directory Page Write) : List BackupRecord :=
  match s.retention with
  | some retention => (surplus s.rows retention).map (·.record)
  | none => []

/-- `INSERT OR IGNORE` -/
def register (s : Directory Page Write) (record : BackupRecord) (createdAt : String) :
    Directory Page Write :=
  if s.rows.any (·.record.id = record.id) then s
  else { s with rows := s.rows ++ [⟨record, createdAt⟩] }

def expire (s : Directory Page Write) (id : Uuid) : Directory Page Write :=
  { s with rows := s.rows.map fun row =>
      if row.record.id = id ∧ row.record.status = .ready then
        { row with record := { row.record with status := .expired } }
      else row }

/-! ## Calls -/

/-- What the surroundings decide about one call. -/
structure Reply (Page Write : Type) where
  ok : Bool
  /-- A call that fails leaves what it has begun; a verification, the files of SQLite. -/
  leaves : Bool
  /-- A generated identifier. -/
  id : Uuid
  /-- The clock reading of a backup that is registered. -/
  createdAt : String
  /-- What `VACUUM INTO` writes. -/
  snapshot : Image Page Write
  /-- Directory entries. -/
  entries : List FilePath
  /-- `backup_records` of a database that is opened. -/
  rows : List BackupRow

/-- A call without a value that changes nothing when it fails. -/
def settle (ok : Bool) (s t : Directory Page Write) : Option Unit × Directory Page Write :=
  if ok then (some (), t) else (none, s)

/-- A call without a value that may have taken effect when it fails. -/
def attempt (ok leaves : Bool) (s t left : Directory Page Write) :
    Option Unit × Directory Page Write :=
  if ok then (some (), t) else (none, if leaves then left else s)

def serveFs (call : FsCall Page Write) (ok : Bool) (s : Directory Page Write) :
    Option Unit × Directory Page Write :=
  match call with
  | .create path =>
    -- `create_new`, but for the journal, which is truncated
    if (s.files path).isSome && path ≠ .journalTemporary then (none, s)
    else settle ok s (s.put path (some .incomplete))
  | .write path file => if ok then (some (), s.put path (some file))
    else (none, s.put path (some .incomplete))
  | .copy source target =>
    match s.files source with
    | none => (none, s)
    | some file => if ok then (some (), s.put target (some file))
      else (none, s.put target (some .incomplete))
  | .rename source target =>
    match s.files source with
    | none => (none, s)
    | some file => settle ok s ((s.put target (some file)).put source none)
  | .remove path => settle ok s (s.put path none)
  | .sync _ | .protect _ | .syncDirectory | .createDirectory | .protectDirectory => settle ok s s

/-- `x` is what `verify_database` makes of a file. -/
def verify (x : Image Page Write → Option VerifiedFile) (s : Directory Page Write)
    (path : FilePath) : Option VerifiedFile :=
  (s.image path).bind x

def serve (x : Image Page Write → Option VerifiedFile) : (k : Call Page Write) →
    Reply Page Write → Directory Page Write → Option (Value k) × Directory Page Write
  | .fs _ call, a, s => serveFs call a.ok s
  | .nextId, a, s =>
    if a.id ∈ s.used then (none, s) else (some a.id, { s with used := a.id :: s.used })
  | .timestamp, a, s => settle a.ok s s
  | .listBackups, a, s =>
    (if a.ok && s.available then some (s.rows.map (·.record)) else none, s)
  | .surplusBackups, a, s =>
    (if a.ok && s.available && s.retention.isSome then some s.selected else none, s)
  | .vacuumInto path, a, s =>
    if s.available && (s.files path).isNone then
      attempt a.ok a.leaves s (s.put path (some (.database a.snapshot)))
        (s.put path (some .incomplete))
    else (none, s)
  | .verifyDatabase path, a, s =>
    (if a.ok then s.verify x path else none,
      if a.leaves && (s.files path).isSome then s.leaveWal path else s)
  | .readManifest path, a, s =>
    match s.files path with
    | some (.manifest manifest) => (if a.ok then some manifest else none, s)
    | _ => (none, s)
  | .readDirectory, a, s => (if a.ok then some a.entries else none, s)
  | .readJournal, a, s =>
    match s.files .journal with
    | none => (if a.ok then some none else none, s)
    | some (.journal journal) => (if a.ok then some (some journal) else none, s)
    | _ => (none, s)
  | .insertManifest manifest, a, s =>
    let registered := s.register manifest.toRecord a.createdAt
    if s.available then attempt a.ok a.leaves s registered registered else (none, s)
  | .expireBackup id, a, s =>
    let expired := s.expire id
    if s.available then attempt a.ok a.leaves s expired expired else (none, s)
  | .auditAppend _, a, s => settle (a.ok && s.available) s s
  | .beginMaintenance, _, s => (some (), { s with maintenance := true })
  | .endMaintenance, _, s => (some (), { s with maintenance := false })
  | .checkpointAndClose, a, s =>
    if s.pool then (if a.ok then some () else none, { s with pool := false }) else (none, s)
  | .reopen, a, s => settle a.ok s { s with pool := true, rows := a.rows }
  | .clearSchedulerLeases _, a, s => settle (a.ok && s.pool) s s
  | .quiesceForMaintenance, a, s => settle a.ok s s
  | .restartFromPersisted, a, s => settle (a.ok && s.available) s s
  | .quiesceAgain, a, s => settle a.ok s s

/-- The administrator changes the retention count. -/
def setRetention (count : Int) (s : Directory Page Write) : Directory Page Write :=
  { s with retention := some count }

def world (x : Image Page Write → Option VerifiedFile) :
    World (@Value Page Write) (Directory Page Write) (Reply Page Write) Int where
  serve := serve x
  interfere := setRetention

/-! ## Operations -/

/-- What may run beside a restore. -/
inductive Operation (Page Write : Type) where
  | create (source : BackupSource)
  | upload (chunks : List (Option (Chunk Page Write))) (maximumBytes : Nat)
  | applyRetention

def Operation.program : Operation Page Write → Program Page Write Unit
  | .create source => do
    let _ ← Admin.create source
    .pure ()
  | .upload chunks maximumBytes => do
    let _ ← Admin.upload chunks maximumBytes
    .pure ()
  | .applyRetention => Admin.applyRetention

/-- The directory, with the operations that run. -/
abbrev Site (Page Write : Type) := Pool (@Value Page Write) (Directory Page Write) BackupError Unit

def site (x : Image Page Write → Option VerifiedFile) :
    World (@Value Page Write) (Site Page Write) (Reply Page Write)
      (Fallible.Turn (Operation Page Write) (Reply Page Write) Int) :=
  pooled (world x) (world x) Operation.program

end Directory

end RemindiCore.Admin
