import RemindiCore.Admin.Startup
import RemindiCore.Admin.Verify

/-!
# Opening a database

What `open_pool` (`db/manager.rs`) asks of a database and makes of it: the migrations
that it has had, the rows that are seeded, and the checks of the rows that are there
(`db/migrations.rs`).  A restore opens the copy of a backup this way, and the next
startup opens it again.
-/

namespace RemindiCore.Admin

open JsonText KeyedTable Triggers

/-! ## Files -/

/-- The tables of the second migration. -/
structure AdminTables where
  runtimeSettings : Table SettingRow.settingKey
  adapterConfigs : Table AdapterRow.adapterName
  /-- The components. -/
  serviceRuntime : Table (id : String → String)
  /-- The `version`, `enabled`, `updated_at` and `updated_by` of every row, and of every
  row that is seeded, have the types that the administration reads.  The migrations
  name these columns without reading them. -/
  typed : Bool

/-- What there is of the tables of the second migration. -/
inductive AdminSchema where
  | absent
  | present (tables : AdminTables)
  /-- Some of them, so that they can be neither created nor seeded. -/
  | incomplete

/-- A database file; the tables of the first migration, which its verification reads,
are there. -/
structure StoredDatabase where
  bytes : List UInt8
  integrityCheck : Option String
  /-- `PRAGMA quick_check` says `ok`; the rows that are seeded do not change that. -/
  quickCheck : Bool
  /-- `schema_migrations`, in the order of the versions. -/
  applied : List (Int × String)
  db : Db
  admin : AdminSchema

/-- What the verification sees. -/
def StoredDatabase.databaseFile (database : StoredDatabase) : DatabaseFile where
  bytes := database.bytes
  integrityCheck := database.integrityCheck
  schemaMigrations := database.applied.map Prod.fst
  db := database.db

/-! ## Rows -/

inductive DatabaseError where
  | newerSchema (version : Int)
  | migrationDrift (version : Int)
  | invalidBootstrapRows
  | integrity
  | sql
deriving DecidableEq

def serviceComponents : List String := ["mcp", "scheduler"]

/-- `serde_json::from_str::<Value>(config).is_ok_and(|value| value.is_object())` -/
def ConfigJson.isObject : ConfigJson → Bool
  | .empty => true
  | .written _ => true
  | .other value => value.isObject

/-- `validate_adapters` -/
def validateAdapters (rows : List AdapterRow) : Except DatabaseError Unit :=
  if rows.length ≠ seededAdapters.length ∨
      rows.any fun row => !seededAdapters.contains row.adapterName || !row.configJson.isObject then
    .error .invalidBootstrapRows
  else .ok ()

/-- `validate_service_runtime` -/
def validateServiceRuntime (components : List String) : Except DatabaseError Unit :=
  if components.length ≠ serviceComponents.length ∨
      components.any fun component => !serviceComponents.contains component then
    .error .invalidBootstrapRows
  else .ok ()

/-- The rows that are missing. -/
def seed (now : String) (tables : AdminTables) : AdminTables where
  runtimeSettings := tables.runtimeSettings.insertMissing (seededSettings.map (seededSetting now))
  adapterConfigs := tables.adapterConfigs.insertMissing (seededAdapters.map (seededAdapter now))
  serviceRuntime := tables.serviceRuntime.insertMissing serviceComponents
  typed := tables.typed

def seedAndValidate (now : String) (tables : AdminTables) : Except DatabaseError AdminTables := do
  let tables := seed now tables
  (validateRuntimeSettings tables.runtimeSettings.rows).mapError fun _ => .invalidBootstrapRows
  validateAdapters tables.adapterConfigs.rows
  validateServiceRuntime tables.serviceRuntime.rows
  .ok tables

/-! ## Migrations -/

structure Migration where
  version : Int
  /-- `migration_identity`: the name and the digest of the statements. -/
  identity : String
  sql : String → StoredDatabase → Except DatabaseError StoredDatabase

/-- The tables of the first migration are there, so they cannot be created. -/
def initial : Migration where
  version := 1
  identity := "initial:481319d5aa0a4247be844444bebe90ed22e1aa8aa98f2833ddbfba9719019d21"
  sql := fun _ _ => .error .sql

def adminWebui : Migration where
  version := 2
  identity := "admin_webui:9fcb78d230e428a98d92499ee01728fe06ba4dd9cc6e66def25a290a9244cfc3"
  sql := fun now database =>
    match database.admin with
    | .absent =>
      let empty : AdminTables :=
        { runtimeSettings := .empty
          adapterConfigs := .empty
          serviceRuntime := .empty
          typed := true }
      .ok { database with admin := .present (seed now empty) }
    | _ => .error .sql

def MIGRATIONS : List Migration := [initial, adminWebui]

/-- One migration: it is recorded under its identity, or it is run and recorded. -/
def applyMigration (applied : List (Int × String)) (now : String) (database : StoredDatabase)
    (migration : Migration) : Except DatabaseError StoredDatabase :=
  match applied.find? (·.1 = migration.version) with
  | some (_, actualName) =>
    if actualName ≠ migration.identity then .error (.migrationDrift migration.version)
    else .ok database
  | none => do
    let database ← migration.sql now database
    .ok { database with
      applied := database.applied ++ [(migration.version, migration.identity)] }

/-- No migration on record is newer than the program. -/
def supportedSchema (applied : List (Int × String)) : Except DatabaseError Unit :=
  match applied.getLast? with
  | some (version, _) =>
    if version > (MIGRATIONS.length : Int) then .error (.newerSchema version) else .ok ()
  | none => .ok ()

/-- `migrations::apply`: one transaction. -/
def applyMigrations (now : String) (database : StoredDatabase) :
    Except DatabaseError StoredDatabase := do
  supportedSchema database.applied
  let migrated ← MIGRATIONS.foldlM (applyMigration database.applied now) database
  match migrated.admin with
  | .present tables => do
    let tables ← seedAndValidate now tables
    .ok { migrated with admin := .present tables }
  | _ => .error .sql

def quickCheck (database : StoredDatabase) : Except DatabaseError Unit :=
  if database.quickCheck then .ok () else .error .integrity

def openPool (now : String) (database : StoredDatabase) : Except DatabaseError StoredDatabase := do
  quickCheck database
  let database ← applyMigrations now database
  quickCheck database
  .ok database

/-! ## Restore and startup -/

/-- The database that a restore of this file leaves: the file is verified, and its copy is
opened in the place of the live database.  Its other steps read no settings and no
adapters, and write none. -/
def restoredDatabase (hashFile : DatabaseFile → VerifiedFile) (ownerId now : String)
    (backup : StoredDatabase) : Except BackupError StoredDatabase := do
  let _ ← verifyDatabaseAt hashFile backup.databaseFile ownerId
  (openPool now backup).mapError fun _ => .restoreFailed

inductive StartupFailure where
  | database (e : DatabaseError)
  | admin (e : AdminError)
  | config (e : StartupError)
  | scheduler

/-- What `main` makes of a database: the adapters, and the configuration of the scheduler. -/
def startUp (x : UrlCrate) (files : FileSystem) (now : String) (database : StoredDatabase) :
    Except StartupFailure (AdapterSnapshot x × SchedulerConfig) := do
  let database ← (openPool now database).mapError .database
  match database.admin with
  | .present tables =>
    if !tables.typed then .error (.admin .database)
    else do
      let adapters ← (load x files tables.runtimeSettings.rows
        tables.adapterConfigs.rows).mapError .admin
      let settings ← (decodeSettings tables.runtimeSettings.rows).mapError .admin
      let config ← (schedulerConfig settings).mapError .config
      config.validate.mapError fun _ => .scheduler
      .ok (adapters, config)
  | _ => .error (.database .sql)

end RemindiCore.Admin
