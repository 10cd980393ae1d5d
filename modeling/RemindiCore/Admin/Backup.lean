import RemindiCore.Admin.Machine

/-!
# Backups

What the backup manager does: `list`, `download`, `create` with its publication,
registration and retention, `upload`, and `reconcile`.
-/

namespace RemindiCore.Admin

open PageLog Fallible

inductive BackupError where
  | invalid
  | limitExceeded
  | notFound
  | database
  | io
  | restoreConfirmation
  | restoreFailed
  | workload
deriving DecidableEq

variable {Page Write : Type}

abbrev Program (Page Write α : Type) := Prog (@Value Page Write) BackupError α

/-- A call, with the error that its failure is mapped to. -/
def perform (k : Call Page Write) (e : BackupError) : Program Page Write (Value k) :=
  Prog.perform k e

/-- A call whose failure is not looked at. -/
def ignore (k : Call Page Write) : Program Page Write Unit := Prog.ignore k

def fs (caller : Caller) (call : FsCall Page Write) : Program Page Write Unit :=
  perform (.fs caller call) .io

def removeIfExists (caller : Caller) (path : FilePath) : Program Page Write Unit :=
  ignore (.fs caller (.remove path))

def verifyDatabase (path : FilePath) : Program Page Write VerifiedFile :=
  perform (.verifyDatabase path) .invalid

/-- One component of at most 128 bytes with the fixed prefix and suffix. -/
def safeFileName (name : String) : Bool :=
  !name.toList.isEmpty && decide (name.utf8ByteSize ≤ 128) && !name.toList.contains '/' &&
    "remindi-".toList.isPrefixOf name.toList && ".sqlite3".toList.isSuffixOf name.toList

def listBackups : Program Page Write (List BackupRecord) := perform .listBackups .database

def findBackup (records : List BackupRecord) (id : String) : Option BackupRecord :=
  records.find? fun record => record.id.text = id && record.status ≠ .expired

/-- The record of a backup and its file, verified. -/
def download (id : String) : Program Page Write (BackupRecord × FilePath) := do
  let records ← listBackups
  match findBackup records id with
  | none => .throw .notFound
  | some record =>
    if !safeFileName record.fileName then .throw .invalid
    else do
      let path := FilePath.backup record.fileName
      let manifest ← perform (.readManifest (.manifest record.fileName)) .invalid
      let verified ← verifyDatabase path
      if manifest.id ≠ record.id ∨ manifest.file.sha256 ≠ record.file.sha256 ∨
          verified.sha256 ≠ record.file.sha256 ∨ verified.sizeBytes ≠ record.file.sizeBytes then
        .throw .invalid
      else .pure (record, path)

/-- Move the verified database and its manifest to their names. -/
def publish (temporary : FilePath) (manifest : BackupManifest) : Program Page Write Unit := do
  let temporaryManifest := FilePath.temporaryManifest manifest.id.text
  fs .backups (.create temporaryManifest)
  fs .backups (.write temporaryManifest (.manifest manifest))
  fs .backups (.sync temporaryManifest)
  fs .backups (.protect temporaryManifest)
  fs .backups (.sync temporaryManifest)
  fs .backups (.rename temporary (.backup manifest.fileName))
  fs .backups (.rename temporaryManifest (.manifest manifest.fileName))
  fs .backups .syncDirectory

def expireBackups : List BackupRecord → Program Page Write Unit
  | [] => .pure ()
  | record :: records => do
    perform (.expireBackup record.id) .database
    removeIfExists .backups (.backup record.fileName)
    removeIfExists .backups (.manifest record.fileName)
    expireBackups records

def applyRetention : Program Page Write Unit := do
  let rows ← perform .surplusBackups .database
  expireBackups rows
  if rows.isEmpty then .pure () else fs .backups .syncDirectory

/-- A snapshot of the live database, published and registered. -/
def create (source : BackupSource) : Program Page Write BackupRecord :=
  if source = .upload then .throw .invalid
  else do
    let id ← perform .nextId .database
    perform .timestamp .database
    let temporary := FilePath.temporaryDatabase id.text
    perform (.vacuumInto temporary) .database
    fs .backups (.protect temporary)
    fs .backups (.sync temporary)
    let verified ← verifyDatabase temporary
    let manifest : BackupManifest := { id := id, source := source, file := verified }
    publish temporary manifest
    perform (.insertManifest manifest) .database
    applyRetention
    .pure manifest.toRecord

/-- A chunk of an upload: its length and what the file is with it. -/
structure Chunk (Page Write : Type) where
  length : Nat
  file : File Page Write

/-- Write the chunks, up to the limit; a stream may break off. -/
def receive (temporary : FilePath) (maximumBytes : Nat) :
    Nat → List (Option (Chunk Page Write)) → Program Page Write Unit
  | _, [] => .pure ()
  | _, none :: _ => .throw .invalid
  | written, some chunk :: chunks =>
    if 2 ^ 64 ≤ written + chunk.length then .throw .limitExceeded
    else if maximumBytes < written + chunk.length then do
      removeIfExists .backups temporary
      .throw .limitExceeded
    else do
      fs .backups (.write temporary chunk.file)
      receive temporary maximumBytes (written + chunk.length) chunks

/-- An uploaded database, published and registered when it verifies. -/
def upload (chunks : List (Option (Chunk Page Write))) (maximumBytes : Nat) :
    Program Page Write BackupRecord := do
  let id ← perform .nextId .database
  perform .timestamp .database
  let temporary := FilePath.temporaryDatabase id.text
  fs .backups (.create temporary)
  fs .backups (.protect temporary)
  receive temporary maximumBytes 0 chunks
  fs .backups (.sync temporary)
  match ← (verifyDatabase temporary).attempt with
  | .error e => do
    removeIfExists .backups temporary
    .throw e
  | .ok verified => do
    let manifest : BackupManifest := { id := id, source := .upload, file := verified }
    publish temporary manifest
    perform (.insertManifest manifest) .database
    applyRetention
    .pure manifest.toRecord

/-- One directory entry of `reconcile`. -/
def reconcileEntry (path : FilePath) : Program Page Write Unit :=
  match path with
  | .temporaryDatabase _ | .temporaryManifest _ => removeIfExists .backups path
  | .manifest _ => do
    match ← (perform (.readManifest path) .invalid).attempt with
    | .error _ => .pure ()
    | .ok manifest =>
      if path ≠ .manifest manifest.fileName then .pure ()
      else do
        match ← (verifyDatabase (.backup manifest.fileName)).attempt with
        | .error _ => .pure ()
        | .ok verified =>
          if manifest.file ≠ verified then .pure ()
          else perform (.insertManifest manifest) .database
  | _ => .pure ()

def reconcileEntries : List FilePath → Program Page Write Unit
  | [] => .pure ()
  | path :: paths => do
    reconcileEntry path
    reconcileEntries paths

/-- Register the verified backups that the database does not know. -/
def reconcile : Program Page Write Unit := do
  fs .backups .createDirectory
  fs .backups .protectDirectory
  removeIfExists .backups .journalTemporary
  let entries ← perform .readDirectory .io
  reconcileEntries entries

end RemindiCore.Admin
