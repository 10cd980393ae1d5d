import RemindiCore.Admin.Catalog
import RemindiCore.Service.Listing
import RemindiCore.Triggers.Adapters

/-!
# Manifests

What a manifest is written as and read back from, `create` and `upload` of the
backup manager when none of their calls fails, and `reconcile`
(`admin/backup.rs`).  A manifest file is a text, a database file what the
verification sees of it.
-/

namespace RemindiCore.Admin.Catalog

open CivilTime JsonText KeyedTable Triggers

/-! ## Actors -/

/-- `AdminActor::new` -/
def newActor (actorId : String) (requestId : Option String) : Except AdminError AdminActor :=
  if trim actorId = "" ∨ 256 < actorId.utf8ByteSize ∨ actorId.toList.any isControl = true ∨
      ∃ id ∈ requestId, id = "" ∨ 128 < id.utf8ByteSize ∨ id.toList.any isControl = true then
    .error .validation
  else .ok ⟨actorId, requestId⟩

/-! ## The text of a manifest -/

def sourceText : BackupSource → String
  | .manual => "manual"
  | .automatic => "automatic"
  | .upload => "upload"
  | .preRestore => "pre_restore"

def BackupManifest.toJson (manifest : BackupManifest) : Json :=
  .object [("id", .string manifest.id), ("file_name", .string manifest.fileName),
    ("source", .string (sourceText manifest.source)), ("sha256", .string manifest.sha256),
    ("size_bytes", .ofInt manifest.sizeBytes.val),
    ("schema_version", .ofInt manifest.schemaVersion.val),
    ("created_at", .string manifest.createdAt), ("verified_at", .string manifest.verifiedAt),
    ("created_by", .string manifest.createdBy), ("details", manifest.details)]

/-- The JSON reader and the digest. -/
structure Libraries where
  /-- `serde_json::from_slice` up to a JSON value. -/
  parse : String → Option Json
  /-- A manifest that the code writes; its details are always empty. -/
  parse_text : ∀ manifest : BackupManifest, manifest.details = .ofMap [] →
    parse manifest.toJson.text = some manifest.toJson
  sha256 : List UInt8 → String
  /-- `{:x}` of 32 bytes -/
  sha256_length : ∀ bytes, (sha256 bytes).toList.length = 64
  sha256_hex : ∀ bytes, ∀ c ∈ (sha256 bytes).toList, ('0' ≤ c ∧ c ≤ '9') ∨ ('a' ≤ c ∧ c ≤ 'f')

/-- The one member of this name; a second one is an error. -/
def theMember (name : String) (members : List (String × Json)) : Option Json :=
  match members.filter (·.1 = name) with
  | [(_, value)] => some value
  | _ => none

def asText : Json → Option String
  | .string s => some s
  | _ => none

/-- A unit variant is a text, or an object with `null` under the text. -/
def asSource (value : Json) : Option BackupSource :=
  let name := match value with
    | .string s => some s
    | .object [(s, .null)] => some s
    | _ => none
  [BackupSource.manual, .automatic, .upload, .preRestore].find? fun source =>
    name = some (sourceText source)

/-- The ten fields, as an object or in their order. -/
def manifestFields : Json → Option (List Json)
  | .object members =>
    ["id", "file_name", "source", "sha256", "size_bytes", "schema_version", "created_at",
      "verified_at", "created_by", "details"].mapM fun name => theMember name members
  | .array items => if items.length = 10 then some items else none
  | _ => none

def BackupManifest.ofJson (value : Json) : Option BackupManifest := do
  match ← manifestFields value with
  | [id, fileName, source, sha256, sizeBytes, schemaVersion, createdAt, verifiedAt, createdBy,
      details] =>
    return { id := ← asText id
             fileName := ← asText fileName
             source := ← asSource source
             sha256 := ← asText sha256
             sizeBytes := ← asI64 sizeBytes
             schemaVersion := ← asI64 schemaVersion
             createdAt := ← asText createdAt
             verifiedAt := ← asText verifiedAt
             createdBy := ← asText createdBy
             details := details }
  | _ => none

def isHexDigit (c : Char) : Bool := ('0' ≤ c && c ≤ '9') || ('a' ≤ c && c ≤ 'f')

def validateManifest (manifest : BackupManifest) : Bool :=
  (Uuid.parse manifest.id).isSome &&
    decide (manifest.fileName = "remindi-" ++ manifest.id ++ ".sqlite3") &&
    safeFileName manifest.fileName &&
    decide (manifest.sha256.utf8ByteSize = 64) && manifest.sha256.toList.all isHexDigit &&
    decide (0 < manifest.sizeBytes.val) &&
    decide (1 ≤ manifest.schemaVersion.val ∧ manifest.schemaVersion.val ≤ CURRENT_SCHEMA_VERSION) &&
    decide (manifest.createdBy ≠ "" ∧ manifest.createdBy.utf8ByteSize ≤ 256) &&
    !manifest.createdBy.toList.any isControl && manifest.details.isObject &&
    decide (manifest.details.text.utf8ByteSize ≤ 1024)

def readManifest (x : Libraries) (content : Option Content) : Option BackupManifest :=
  match content with
  | some (.text text) =>
    if 16 * 1024 < text.utf8ByteSize then none
    else
      match (x.parse text).bind BackupManifest.ofJson with
      | some manifest => if validateManifest manifest then some manifest else none
      | none => none
  | _ => none

/-! ## Verification -/

/-- The digest, the size and the schema version of a file that verifies. -/
structure Verified where
  sha256 : String
  sizeBytes : I64
  schemaVersion : I64

/-- `verify_database` but for the time of the verification. -/
def verifyFile (x : Libraries) (ownerId : String) (content : Option Content) : Option Verified :=
  match content with
  | some (.database file) =>
    match verifyDatabaseAt (fun file => ⟨x.sha256 file.bytes, file.bytes.length⟩) file ownerId with
    | .ok verified =>
      if hsize : -(2 ^ 63) ≤ verified.sizeBytes ∧ verified.sizeBytes < 2 ^ 63 then
        if hschema : -(2 ^ 63) ≤ schemaVersion file ∧ schemaVersion file < 2 ^ 63 then
          some
            { sha256 := verified.sha256
              sizeBytes := ⟨verified.sizeBytes, hsize.1, hsize.2⟩
              schemaVersion := ⟨schemaVersion file, hschema.1, hschema.2⟩ }
        else none
      else none
    | .error _ => none
  | _ => none

/-- `verify_database`; the time needs a timestamp. -/
def verifyDatabase (x : Libraries) (ownerId : String) (now : OffsetDateTime)
    (content : Option Content) : Option (Verified × String) :=
  match verifyFile x ownerId content, canonicalText now with
  | some verified, some verifiedAt => some (verified, verifiedAt)
  | _, _ => none

/-! ## Creating and uploading -/

/-- What the surroundings give to `create` or `upload`; every call succeeds but for
those whose answer depends on these. -/
structure PublishEnv where
  id : Uuid
  now : OffsetDateTime
  verifiedAt : OffsetDateTime
  registeredAt : OffsetDateTime
  eventId : Uuid
  /-- What `VACUUM INTO` or the chunks write. -/
  file : DatabaseFile
  retention : RetentionEnv

def temporaryDatabase (id : String) : String := ".tmp-" ++ id ++ ".sqlite3"
def temporaryManifest (id : String) : String := ".tmp-" ++ id ++ ".manifest.json"

/-- `PendingBackup::finish` of `identity` -/
def finishManifest (env : PublishEnv) (source : BackupSource) (actor : AdminActor)
    (createdAt : String) (verified : Verified) (verifiedAt : String) : BackupManifest where
  id := env.id.text
  fileName := backupFileName env.id
  source := source
  sha256 := verified.sha256
  sizeBytes := verified.sizeBytes
  schemaVersion := verified.schemaVersion
  createdAt := createdAt
  verifiedAt := verifiedAt
  createdBy := actor.actorId
  details := .ofMap []

namespace Store

def rename (s : Store) (source target : String) : Option Store :=
  (s.files source).map fun content => (s.put target content).remove source

end Store

/-- The `CHECK`s of `backup_records` that a manifest may break. -/
def recordChecks (record : BackupRecord) : Bool :=
  decide (sqlLength record.sha256 = 64) && decide (0 < record.sizeBytes.val) &&
    decide (1 ≤ record.schemaVersion.val)

/-- `INSERT OR IGNORE`; `none` when the row is ignored. -/
def insertManifest (manifest : BackupManifest) (records : Table BackupRecord.id) :
    Option (Table BackupRecord.id) :=
  let record := manifest.toRecord
  if records.rows.any (·.fileName = record.fileName) || !recordChecks record then none
  else records.insert? record

/-- `publish` -/
def publish (manifest : BackupManifest) (s : Store) : Option Store := do
  let temporary := temporaryManifest manifest.id
  if (s.files temporary).isSome then none
  else
    let s := s.put temporary (.text manifest.toJson.text)
    let s ← s.rename (temporaryDatabase manifest.id) manifest.fileName
    s.rename temporary (manifestPath manifest.fileName)

/-- `register` -/
def register (env : PublishEnv) (eventType : BackupEventType) (actor : AdminActor)
    (manifest : BackupManifest) (s : Store) : Option Store := do
  let occurredAt ← canonicalText env.registeredAt
  return { s with
    records := (insertManifest manifest s.records).getD s.records
    events := s.events ++ [
      { eventId := env.eventId
        eventType := eventType
        actorId := actor.actorId
        requestId := actor.requestId
        occurredAt := occurredAt
        outcome := .succeeded
        backupId := manifest.id }] }

/-- What `create` and `upload` do once the temporary file is written. -/
def publishFile (x : Libraries) (ownerId : String) (env : PublishEnv) (source : BackupSource)
    (eventType : BackupEventType) (actor : AdminActor) (createdAt : String) (s : Store) :
    Option (BackupRecord × Store) := do
  let (verified, verifiedAt) ← verifyDatabase x ownerId env.verifiedAt
    (s.files (temporaryDatabase env.id.text))
  let manifest := finishManifest env source actor createdAt verified verifiedAt
  let s ← publish manifest s
  let s ← register env eventType actor manifest s
  match applyRetention env.retention actor s with
  | (.ok _, s) => return (manifest.toRecord, s)
  | (.error _, _) => none

inductive Publication where
  | create (source : BackupSource)
  | upload (maximumBytes : Nat)

/-- `create` or `upload`, when it returns a record. -/
def perform (x : Libraries) (ownerId : String) (env : PublishEnv) (actor : AdminActor)
    (s : Store) (publication : Publication) : Option (BackupRecord × Store) := do
  let createdAt ← canonicalText env.now
  let temporary := temporaryDatabase env.id.text
  if (s.files temporary).isSome then none
  else
    let s := s.put temporary (.database env.file)
    match publication with
    | .create source =>
      if source = .upload then none
      else publishFile x ownerId env source .backupCreated actor createdAt s
    | .upload maximumBytes =>
      if maximumBytes < env.file.bytes.length then none
      else publishFile x ownerId env .upload .backupUploaded actor createdAt s

/-! ## Reconciling -/

structure ReconcileEnv where
  /-- The clock reading at the `n`-th directory entry. -/
  now : Nat → OffsetDateTime
  refused : String → Bool

def isTemporaryName (name : String) : Bool :=
  ".tmp-".toList.isPrefixOf name.toList &&
    (".sqlite3".toList.isSuffixOf name.toList || ".manifest.json".toList.isSuffixOf name.toList)

/-- `path.extension() == Some("json")` -/
def hasJsonExtension (name : String) : Bool :=
  ".json".toList.isSuffixOf name.toList && decide (name ≠ ".json")

/-- One directory entry; whether a record was inserted. -/
def reconcileEntry (x : Libraries) (ownerId : String) (env : ReconcileEnv) (n : Nat)
    (name : String) (s : Store) : Bool × Store :=
  if isTemporaryName name then (false, removeIfExists env.refused name s)
  else if !hasJsonExtension name then (false, s)
  else
    match readManifest x (s.files name) with
    | none => (false, s)
    | some manifest =>
      if name ≠ manifestPath manifest.fileName then (false, s)
      else
        match verifyDatabase x ownerId (env.now n) (s.files manifest.fileName) with
        | none => (false, s)
        | some (verified, _) =>
          if manifest.sha256 ≠ verified.sha256 ∨ manifest.sizeBytes ≠ verified.sizeBytes ∨
              manifest.schemaVersion ≠ verified.schemaVersion then (false, s)
          else
            match insertManifest manifest s.records with
            | none => (false, s)
            | some records => (true, { s with records := records })

def reconcileEntries (x : Libraries) (ownerId : String) (env : ReconcileEnv) :
    Nat → List String → Store → Nat × Store
  | _, [], s => (0, s)
  | n, name :: names, s =>
    let (inserted, s) := reconcileEntry x ownerId env n name s
    let (reconciled, s) := reconcileEntries x ownerId env (n + 1) names s
    (reconciled + inserted.toNat, s)

/-- `reconcile` over the entries that the directory lists. -/
def reconcile (x : Libraries) (ownerId : String) (env : ReconcileEnv) (entries : List String)
    (s : Store) : Nat × Store :=
  reconcileEntries x ownerId env 0 entries (removeIfExists env.refused ".restore-journal.tmp" s)

end RemindiCore.Admin.Catalog
