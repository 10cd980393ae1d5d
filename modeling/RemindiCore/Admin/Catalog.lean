import RemindiCore.Admin.Service
import RemindiCore.Admin.Verify
import RemindiCore.Lib.Leaders
import Mathlib.Data.Prod.Lex
import Mathlib.Data.String.Basic

/-!
# Backup records with all their columns

The rows of `backup_records`, the audit events of the backup manager and the
files of the backup directory by their names, and `apply_retention`
(`admin/backup.rs`) over them.  `Admin/Machine.lean` has the same records with
the columns that a restore looks at.
-/

namespace RemindiCore.Admin.Catalog

open CivilTime JsonText KeyedTable Leaders

/-! ## Records -/

structure BackupManifest where
  id : String
  fileName : String
  source : BackupSource
  sha256 : String
  sizeBytes : I64
  schemaVersion : I64
  createdAt : String
  verifiedAt : String
  createdBy : String
  details : Json

/-- A row of `backup_records`. -/
structure BackupRecord where
  id : String
  fileName : String
  source : BackupSource
  status : BackupStatus
  sha256 : String
  sizeBytes : I64
  schemaVersion : I64
  createdAt : String
  verifiedAt : Option String
  createdBy : String
  details : Json

def BackupManifest.toRecord (manifest : BackupManifest) : BackupRecord where
  id := manifest.id
  fileName := manifest.fileName
  source := manifest.source
  status := .ready
  sha256 := manifest.sha256
  sizeBytes := manifest.sizeBytes
  schemaVersion := manifest.schemaVersion
  createdAt := manifest.createdAt
  verifiedAt := some manifest.verifiedAt
  createdBy := manifest.createdBy
  details := manifest.details

inductive BackupEventType where
  | backupCreated
  | backupUploaded
  | backupVerified
  | backupExpired
deriving DecidableEq

/-- A row of `admin_events` about a backup. -/
structure BackupEvent where
  eventId : Uuid
  eventType : BackupEventType
  actorId : String
  requestId : Option String
  occurredAt : String
  outcome : AdminOutcome
  backupId : String
deriving DecidableEq

/-- A file of the backup directory. -/
inductive Content where
  | database (file : DatabaseFile)
  | text (content : String)

structure Store where
  /-- The backup directory. -/
  files : String → Option Content
  records : Table BackupRecord.id
  events : List BackupEvent
  /-- `CAST(value_json AS INTEGER)` of `backups.retention_count`. -/
  retention : Option Int

namespace Store

def put (s : Store) (name : String) (content : Content) : Store :=
  { s with files := Function.update s.files name (some content) }

def remove (s : Store) (name : String) : Store :=
  { s with files := Function.update s.files name none }

end Store

/-- `manifest_path`: the last extension is replaced. -/
def manifestPath (name : String) : String :=
  let reversed := name.toList.reverse
  let extension := reversed.takeWhile (· ≠ '.')
  let stem := (reversed.drop (extension.length + 1)).reverse
  -- a name without a dot, or with a dot in front only, has no extension
  if stem.isEmpty then name ++ ".sqlite3.json" else String.ofList stem ++ ".sqlite3.json"

/-! ## Retention -/

/-- What the surroundings decide about the transaction that expires a record. -/
structure ExpireEnv where
  begin : Bool
  update : Bool
  insert : Bool
  commit : Bool
  /-- A failed commit has taken effect all the same. -/
  applied : Bool
  now : OffsetDateTime
  eventId : Uuid

structure RetentionEnv where
  /-- The connection and both queries succeed. -/
  reads : Bool
  expire : Nat → ExpireEnv
  /-- The files that the file system will not remove. -/
  refused : String → Bool
  sync : Bool

/-- `status = 'ready' AND source IN ('automatic', 'upload')` -/
def BackupRecord.eligible (record : BackupRecord) : Bool :=
  decide (record.status = .ready) &&
    (decide (record.source = .automatic) || decide (record.source = .upload))

/-- The order of retention: creation time, then identifier. -/
def BackupRecord.rank (record : BackupRecord) : String ×ₗ String :=
  toLex (record.createdAt, record.id)

/-- `ORDER BY created_at DESC, id DESC LIMIT -1 OFFSET ?` of the eligible records. -/
def surplus (records : Table BackupRecord.id) (retention : Int) : List BackupRecord :=
  (descending BackupRecord.rank (records.rows.filter (·.eligible))).drop retention.toNat

def BackupRecord.expire (record : BackupRecord) : BackupRecord := { record with status := .expired }

/-- Expire the chosen records of a table. -/
def expireWhere (chosen : BackupRecord → Bool) (records : Table BackupRecord.id) :
    Table BackupRecord.id where
  rows := records.rows.map fun record => if chosen record then record.expire else record
  nodup := by
    have hid : (fun record : BackupRecord => (if chosen record then record.expire else record).id) =
        BackupRecord.id := by
      funext record
      split <;> rfl
    rw [List.map_map, Function.comp_def, hid]
    exact records.nodup

/-- `UPDATE backup_records SET status = 'expired' WHERE id = ? AND status = 'ready'` -/
def expireRecord (id : String) (records : Table BackupRecord.id) : Table BackupRecord.id :=
  expireWhere (fun record => decide (record.id = id ∧ record.status = .ready)) records

def expiredEvent (actor : AdminActor) (env : ExpireEnv) (occurredAt id : String) : BackupEvent where
  eventId := env.eventId
  eventType := .backupExpired
  actorId := actor.actorId
  requestId := actor.requestId
  occurredAt := occurredAt
  outcome := .succeeded
  backupId := id

/-- The transaction of one record; a failure is a failure of the database. -/
def expireTransaction (env : ExpireEnv) (actor : AdminActor) (id : String) (s : Store) :
    Except BackupError Unit × Store :=
  if !env.begin || !env.update then (.error .database, s)
  else
    match canonicalTimestamp env.now with
    | .error _ => (.error .database, s)
    | .ok occurredAt =>
      let expired := { s with
        records := expireRecord id s.records
        events := s.events ++ [expiredEvent actor env occurredAt id] }
      if !env.insert then (.error .database, s)
      else if !env.commit then (.error .database, if env.applied then expired else s)
      else (.ok (), expired)

/-- `remove_if_exists`: a refusal is logged. -/
def removeIfExists (refused : String → Bool) (name : String) (s : Store) : Store :=
  if refused name then s else s.remove name

/-- The loop over the rows of the query. -/
def expireAll (env : RetentionEnv) (actor : AdminActor) :
    Nat → List BackupRecord → Store → Except BackupError Unit × Store
  | _, [], s => (.ok (), s)
  | n, row :: rows, s =>
    match expireTransaction (env.expire n) actor row.id s with
    | (.error e, s) => (.error e, s)
    | (.ok (), s) =>
      let s := removeIfExists env.refused row.fileName s
      let s := removeIfExists env.refused (manifestPath row.fileName) s
      expireAll env actor (n + 1) rows s

def applyRetention (env : RetentionEnv) (actor : AdminActor) (s : Store) :
    Except BackupError Nat × Store :=
  match env.reads, s.retention with
  | true, some retention =>
    let rows := surplus s.records retention
    match expireAll env actor 0 rows s with
    | (.error e, s) => (.error e, s)
    | (.ok (), s) =>
      if rows.isEmpty || env.sync then (.ok rows.length, s) else (.error .io, s)
  | _, _ => (.error .database, s)

end RemindiCore.Admin.Catalog
