import RemindiCore.Admin.Backup
import RemindiCore.Service.Database

/-!
# The verification of a database file

`verify_database_at` (`admin/backup.rs`): the header, the integrity check of
SQLite, the schema version, the owner and the cross-table invariants.
-/

namespace RemindiCore.Admin

def SQLITE_HEADER : List UInt8 :=
  [83, 81, 76, 105, 116, 101, 32, 102, 111, 114, 109, 97, 116, 32, 51, 0]

def CURRENT_SCHEMA_VERSION : Int := 2

/-- What the queries of the verification see of a file. -/
structure DatabaseFile where
  bytes : List UInt8
  /-- The first row of `PRAGMA integrity_check`; none when SQLite cannot read the file. -/
  integrityCheck : Option String
  /-- The versions in `schema_migrations`. -/
  schemaMigrations : List Int
  db : Db

/-- The first 18 bytes: the magic text and a page size. -/
def verifyHeader (bytes : List UInt8) : Except BackupError Unit :=
  if bytes.length < 18 then .error .invalid
  else if bytes.take 16 ≠ SQLITE_HEADER then .error .invalid
  else
    let encoded := (bytes.getD 16 0).toNat * 256 + (bytes.getD 17 0).toNat
    let pageSize := if encoded = 1 then 65536 else encoded
    if ¬(512 ≤ pageSize ∧ pageSize ≤ 65536) ∨ ¬2 ^ Nat.log2 pageSize = pageSize then
      .error .invalid
    else .ok ()

/-- `COALESCE(MAX(version), 0)` -/
def schemaVersion (file : DatabaseFile) : Int := file.schemaMigrations.max?.getD 0

def evidenceCount (db : Db) (id : Uuid) : Nat :=
  db.evidence.rows.countP fun evidence => evidence.remindiId = id

/-- Rows that are completed without evidence, or the other way round. -/
def evidenceViolations (db : Db) : Nat :=
  db.remindi.rows.countP fun row =>
    decide (row.state = .completed) != decide (evidenceCount db row.id = 1)

def snoozeViolations (db : Db) : Nat :=
  db.remindi.rows.countP fun row => row.snoozeUntil.isNone != row.snoozedFromState.isNone

def wrongOwner (db : Db) (ownerId : String) : Nat :=
  db.remindi.rows.countP fun row => row.ownerId ≠ ownerId

def verifyDatabaseAt (hashFile : DatabaseFile → VerifiedFile) (file : DatabaseFile)
    (ownerId : String) : Except BackupError VerifiedFile := do
  verifyHeader file.bytes
  if file.integrityCheck ≠ some "ok" then .error .invalid
  else if ¬(1 ≤ schemaVersion file ∧ schemaVersion file ≤ CURRENT_SCHEMA_VERSION) then
    .error .invalid
  else if wrongOwner file.db ownerId ≠ 0 ∨
      evidenceViolations file.db + snoozeViolations file.db ≠ 0 then
    .error .invalid
  else .ok (hashFile file)

/-- What `VACUUM INTO` writes for a store at the current schema version: pages
of 4096 bytes, and every row. -/
def snapshot (db : Db) : DatabaseFile where
  bytes := SQLITE_HEADER ++ [16, 0]
  integrityCheck := some "ok"
  schemaMigrations := [1, 2]
  db := db

theorem snapshot_accepted {hashFile : DatabaseFile → VerifiedFile} {db : Db} {ownerId : String}
    (howner : wrongOwner db ownerId = 0) (hevidence : evidenceViolations db = 0)
    (hsnooze : snoozeViolations db = 0) :
    verifyDatabaseAt hashFile (snapshot db) ownerId = .ok (hashFile (snapshot db)) := by
  have hheader : verifyHeader (snapshot db).bytes = .ok () := by
    show verifyHeader (SQLITE_HEADER ++ [16, 0]) = .ok ()
    decide +kernel
  have hversion : schemaVersion (snapshot db) = 2 := by
    show ([1, 2] : List Int).max?.getD 0 = 2
    decide
  have hok : (snapshot db).integrityCheck = some "ok" := rfl
  have hdb : (snapshot db).db = db := rfl
  unfold verifyDatabaseAt
  rw [hheader, hversion, hok, hdb, howner, hevidence, hsnooze]
  rfl

end RemindiCore.Admin
