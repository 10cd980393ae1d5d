import RemindiCore.Service.RequestHash
import RemindiCore.Lib.Table
import Mathlib.Data.List.Sort

/-!
# The store

The tables of `migrations/0001_initial.sql` and the statements of
`remindi/repository.rs`.  A row keeps what its columns are read as
(`Remindi.stored`): instants in UTC, cut off to milliseconds, and in a JSON
column every number as the reader takes it, which for a fraction may be the
number next to the one written.  Writing fails when a value cannot be bound
(`invalidData`) or a constraint of the schema refuses the row (`sql`); reading
fails on a year before 0, which the parser does not accept.
-/

namespace RemindiCore

open CivilTime JsonText KeyedTable Transaction

inductive RepositoryError where
  | busy
  | sql
  | invalidData
deriving DecidableEq

def mapRepository : RepositoryError → ServiceError
  | .busy => .databaseBusy
  | .sql | .invalidData => .internal

/-! ## Code of other packages -/

/-- Position of a page in the ready list. -/
structure CheckCursor where
  readiness : Nat
  priority : Nat
  nextFireAt : Option String
  id : String

/-- Code of other packages: the digest, the sealed cursor, and the number that
`serde_json` reads where it has written one. -/
structure Externals where
  sha256 : String → String
  encodeCursor : CheckCursor → String
  decodeCursor : String → Option CheckCursor
  readNumber : NumberText → NumberText

/-! ## Rows -/

structure CompletionEvidence where
  id : Uuid
  remindiId : Uuid
  evidenceType : EvidenceType
  summary : String
  referenceUri : Option String
  contentHash : Option String
  observedAt : OffsetDateTime
  recordedAt : OffsetDateTime
  recordedBy : String
  metadata : Option Json

structure MutationResult where
  remindi : Remindi

/-- How deep `serde_json` reads: its limit is met at the 128th value inside another. -/
def depthLimit : Nat := 127

/-- The response that `serde_json` reads where it has written this one.  The
parameters of a condition stand in the trigger of the item of the response. -/
def MutationResult.read (x : Externals) (response : MutationResult) : Option MutationResult :=
  let item := response.remindi
  if item.trigger.depth + 3 ≤ depthLimit then
    some { remindi := { item with trigger := item.trigger.mapNumbers x.readNumber } }
  else none

/-- One idempotency record; the response is kept as the value it serialises. -/
structure IdempotencyRecord where
  actorId : String
  toolName : String
  key : String
  requestHash : String
  response : MutationResult
  remindiId : Uuid
  createdAt : OffsetDateTime
  expiresAt : OffsetDateTime

def IdempotencyRecord.primaryKey (r : IdempotencyRecord) : String × String × String :=
  (r.actorId, r.toolName, r.key)

/-- A row of `remindi_links`. -/
structure LinkRow where
  remindiId : Uuid
  link : RemindiLink

def LinkRow.primaryKey (r : LinkRow) : Uuid × LinkType × String :=
  (r.remindiId, r.link.linkType, r.link.value)

structure Db where
  remindi : Table Remindi.id
  links : Table LinkRow.primaryKey
  events : Table RemindiEvent.eventId
  evidence : Table CompletionEvidence.remindiId
  idempotency : Table IdempotencyRecord.primaryKey

def Db.empty : Db where
  remindi := .empty
  links := .empty
  events := .empty
  evidence := .empty
  idempotency := .empty

/-! ## Binding and reading columns -/

def timestamp (value : OffsetDateTime) : Except RepositoryError OffsetDateTime :=
  match canonicalTimestamp value with
  | .ok _ => .ok value.truncateMillis
  | .error _ => .error .invalidData

def optionalTimestamp (value : Option OffsetDateTime) :
    Except RepositoryError (Option OffsetDateTime) :=
  value.mapM timestamp

def i64FromU64 (value : Nat) : Except RepositoryError Nat :=
  if value ≤ i64Max then .ok value else .error .invalidData

def jsonString (value : Option Json) : Except RepositoryError Unit :=
  if value.isSome then .ok () else .error .invalidData

/-- The parser accepts the years 0 to 9999 only. -/
def parseInstant (value : OffsetDateTime) : Except RepositoryError Unit :=
  if 0 ≤ value.year then .ok () else .error .invalidData

def parseOptional (value : Option OffsetDateTime) : Except RepositoryError Unit :=
  match value with
  | none => .ok ()
  | some value => parseInstant value

/-- Every instant cut off to milliseconds. -/
def Remindi.truncateMillis (item : Remindi) : Remindi :=
  { item with
    nextFireAt := item.nextFireAt.map .truncateMillis
    nextEvaluationAt := item.nextEvaluationAt.map .truncateMillis
    originalNextFireAt := item.originalNextFireAt.map .truncateMillis
    dueSince := item.dueSince.map .truncateMillis
    snoozeUntil := item.snoozeUntil.map .truncateMillis
    lastCheckedAt := item.lastCheckedAt.map .truncateMillis
    createdAt := item.createdAt.truncateMillis
    updatedAt := item.updatedAt.truncateMillis
    completedAt := item.completedAt.map .truncateMillis
    cancelledAt := item.cancelledAt.map .truncateMillis }

/-- The row of an item, as it is read. -/
def Remindi.stored (x : Externals) (item : Remindi) : Remindi :=
  { item.truncateMillis with trigger := item.trigger.mapNumbers x.readNumber }

/-- The row after an `UPDATE`, which does not set every column. -/
def Remindi.writtenOver (x : Externals) (item old : Remindi) : Remindi :=
  { item.stored x with
    projectId := old.projectId
    taskId := old.taskId
    createdAt := old.createdAt }

/-- The columns bound by `UPDATE`. -/
def Remindi.bindUpdate (item : Remindi) : Except RepositoryError Unit := do
  jsonString item.trigger.toJson
  jsonString (orNull RecurrenceSpec.toJson item.recurrence)
  let _ ← optionalTimestamp item.nextFireAt
  let _ ← optionalTimestamp item.nextEvaluationAt
  let _ ← optionalTimestamp item.originalNextFireAt
  let _ ← optionalTimestamp item.dueSince
  let _ ← optionalTimestamp item.snoozeUntil
  let _ ← i64FromU64 item.overdueAfterSeconds
  let _ ← i64FromU64 item.occurrenceNo
  let _ ← optionalTimestamp item.lastCheckedAt
  let _ ← i64FromU64 item.snoozeCount
  let _ ← i64FromU64 item.version
  let _ ← timestamp item.updatedAt
  let _ ← optionalTimestamp item.completedAt
  let _ ← optionalTimestamp item.cancelledAt

/-- The columns bound by `INSERT`. -/
def Remindi.bindInsert (item : Remindi) : Except RepositoryError Unit := do
  item.bindUpdate
  let _ ← timestamp item.createdAt

def remindiFromRow (row : Remindi) : Except RepositoryError Remindi := do
  parseOptional row.nextFireAt
  parseOptional row.nextEvaluationAt
  parseOptional row.originalNextFireAt
  parseOptional row.dueSince
  parseOptional row.snoozeUntil
  parseOptional row.lastCheckedAt
  parseInstant row.createdAt
  parseInstant row.updatedAt
  parseOptional row.completedAt
  parseOptional row.cancelledAt
  return row

/-! ## Constraints of the schema -/

/-- `length` of a text counts the characters before the first NUL. -/
def sqlLength (value : String) : Nat := (value.toList.takeWhile (· ≠ Char.ofNat 0)).length

/-- The CHECK constraints of the table `remindi`. -/
def remindiChecks (row : Remindi) : Bool :=
  (1 ≤ sqlLength row.message && sqlLength row.message ≤ 8192) &&
    row.instructions.all (fun text => sqlLength text ≤ 32768) &&
    row.snoozedFromState.all (fun s => s == .due || s == .overdue) &&
    1 ≤ row.occurrenceNo && 1 ≤ row.version &&
    (row.state == .completed && row.completedAt.isSome && row.cancelledAt.isNone ||
      row.state == .cancelled && row.cancelledAt.isSome && row.completedAt.isNone ||
      row.state.isActive && row.completedAt.isNone && row.cancelledAt.isNone) &&
    (row.state == .snoozed && row.snoozeUntil.isSome && row.snoozedFromState.isSome ||
      row.state != .snoozed && row.snoozeUntil.isNone && row.snoozedFromState.isNone)

def linkChecks (link : RemindiLink) : Bool :=
  1 ≤ sqlLength link.value && sqlLength link.value ≤ 2048

def evidenceChecks (row : CompletionEvidence) : Bool :=
  (1 ≤ sqlLength row.summary && sqlLength row.summary ≤ 4096) &&
    (row.referenceUri.isSome || row.contentHash.isSome)

/-- A foreign key to `remindi(id)`. -/
def references (db : Db) (id : Uuid) : Bool := (db.remindi.find? id).isSome

def orSql {α : Type} : Option α → Except RepositoryError α
  | some a => .ok a
  | none => .error .sql

def constraint (holds : Bool) : Except RepositoryError Unit :=
  if holds then .ok () else .error .sql

/-! ## Statements -/

namespace Repository

def find (ownerId : String) (id : Uuid) (db : Db) : Except RepositoryError (Option Remindi) :=
  match db.remindi.find? id with
  | none => .ok none
  | some row => if row.ownerId = ownerId then (remindiFromRow row).map some else .ok none

def insert (x : Externals) (item : Remindi) (db : Db) : Except RepositoryError Db := do
  item.bindInsert
  constraint (remindiChecks (item.stored x))
  let remindi ← orSql (db.remindi.insert? (item.stored x))
  return { db with remindi := remindi }

/-- `UPDATE … WHERE owner_id = ? AND id = ? AND version = ?`; whether a row was changed. -/
def updateCas (x : Externals) (item : Remindi) (expectedVersion : Nat) (db : Db) :
    Except RepositoryError (Bool × Db) := do
  item.bindUpdate
  let _ ← i64FromU64 expectedVersion
  match db.remindi.find? item.id with
  | none => return (false, db)
  | some old =>
    if old.ownerId = item.ownerId ∧ old.version = expectedVersion then
      constraint (remindiChecks (item.writtenOver x old))
      return (true, { db with remindi := db.remindi.replace (item.writtenOver x old) })
    else return (false, db)

def insertLinks (id : Uuid) : List RemindiLink → Db → Except RepositoryError Db
  | [], db => .ok db
  | link :: rest, db => do
    let createdAt ← timestamp link.createdAt
    constraint (linkChecks link && references db id)
    let links ← orSql (db.links.insert?
      { remindiId := id, link := { link with createdAt := createdAt } })
    insertLinks id rest { db with links := links }

def replaceLinks (item : Remindi) (links : List RemindiLink) (db : Db) :
    Except RepositoryError Db :=
  insertLinks item.id links { db with links := db.links.filter fun row => row.remindiId ≠ item.id }

/-- `AUTOINCREMENT`: one more than the last number. -/
def nextSequence (db : Db) : Nat := (db.events.rows.getLast?.map (·.sequence)).getD 0 + 1

def appendEvent (event : RemindiEvent) (db : Db) : Except RepositoryError Db := do
  let occurredAt ← timestamp event.occurredAt
  let priorVersion ← event.priorVersion.mapM i64FromU64
  let newVersion ← event.newVersion.mapM i64FromU64
  constraint (references db event.remindiId)
  let events ← orSql (db.events.insert? { event with
    sequence := nextSequence db
    occurredAt := occurredAt
    priorVersion := priorVersion
    newVersion := newVersion })
  return { db with events := events }

/-- The identifier is the primary key, and an item has at most one evidence. -/
def insertEvidence (x : Externals) (evidence : CompletionEvidence) (db : Db) :
    Except RepositoryError Db := do
  let observedAt ← timestamp evidence.observedAt
  let recordedAt ← timestamp evidence.recordedAt
  let row := { evidence with
    observedAt := observedAt
    recordedAt := recordedAt
    metadata := evidence.metadata.map (·.mapNumbers x.readNumber) }
  constraint (evidenceChecks row && references db row.remindiId)
  constraint (db.evidence.rows.all fun other => other.id ≠ row.id)
  let rows ← orSql (db.evidence.insert? row)
  return { db with evidence := rows }

def idempotency (actorId toolName key : String) (db : Db) : Option IdempotencyRecord :=
  db.idempotency.find? (actorId, toolName, key)

def insertIdempotency (record : IdempotencyRecord) (db : Db) : Except RepositoryError Db := do
  let createdAt ← timestamp record.createdAt
  let expiresAt ← timestamp record.expiresAt
  let rows ← orSql (db.idempotency.insert?
    { record with createdAt := createdAt, expiresAt := expiresAt })
  return { db with idempotency := rows }

/-! ## Candidate queries -/

/-- `column <= now` on canonical texts; a NULL column does not match. -/
def textReached (column : Option OffsetDateTime) (now : OffsetDateTime) : Bool :=
  match column.bind canonicalText, canonicalText now with
  | some text, some limit => decide (text ≤ limit)
  | _, _ => false

def checkCandidates (ownerId projectId : String) (taskId : Option String) (now : OffsetDateTime)
    (includeScheduled : Bool) (db : Db) : Except RepositoryError (List Remindi) := do
  let inScope := fun (row : Remindi) => row.ownerId == ownerId && row.projectId == projectId &&
    taskId.all fun task => row.taskId == some task
  let rows := db.remindi.rows.filter inScope
  if includeScheduled then (rows.filter fun row => row.state.isActive).mapM remindiFromRow
  else
    let _ ← timestamp now
    let ready := rows.filter fun row => row.state == .due || row.state == .overdue
    let awake := rows.filter fun row => row.state == .snoozed && textReached row.snoozeUntil now
    let timed := rows.filter fun row =>
      row.state == .scheduled && row.trigger.isTimed && textReached row.nextFireAt now
    let contextual := rows.filter fun row => row.state == .scheduled && !row.trigger.isTimed
    (ready ++ awake ++ timed ++ contextual).mapM remindiFromRow

/-- `julianday(column) <= julianday(now)`: the day numbers keep milliseconds apart. -/
def dayReached (column : Option OffsetDateTime) (now : OffsetDateTime) : Bool :=
  column.any fun value => value.utc / 1000000 ≤ now.utc / 1000000

def manualCheckAt : Trigger → Option OffsetDateTime
  | .condition _ _ _ manualCheckAt => manualCheckAt
  | _ => none

@[simp] theorem manualCheckAt_mapNumbers (f : NumberText → NumberText) (t : Trigger) :
    manualCheckAt (t.mapNumbers f) = manualCheckAt t := by
  cases t <;> rfl

/-- The WHERE clause of the scheduler's query. -/
def schedulerSelects (now : OffsetDateTime) (row : Remindi) : Bool :=
  match row.state with
  | .snoozed => dayReached row.snoozeUntil now
  | .due => dayReached (row.dueSince.map (·.addSeconds row.overdueAfterSeconds)) now
  | .scheduled =>
    row.trigger.isTimed && dayReached row.nextFireAt now ||
      row.trigger.isCondition &&
        (dayReached row.nextEvaluationAt now || dayReached (manualCheckAt row.trigger) now)
  | .overdue | .completed | .cancelled => false

/-- The text a row is ordered by: canonical, or the RFC 3339 text in the trigger. -/
def waitingText (row : Remindi) : Option String :=
  match row.state with
  | .snoozed => row.snoozeUntil.bind canonicalText
  | .due => row.dueSince.bind canonicalText
  | _ =>
    if row.trigger.isCondition then
      match row.nextEvaluationAt, manualCheckAt row.trigger with
      | none, manual => manual.bind rfc3339
      | some next, none => canonicalText next
      | some next, some manual =>
        if next.utc / 1000000 ≤ manual.utc / 1000000 then canonicalText next else rfc3339 manual
    else row.nextFireAt.bind canonicalText

/-- NULL comes first; equal texts are ordered by the identifier. -/
def waitsBefore (a b : Remindi) : Prop :=
  match waitingText a, waitingText b with
  | none, none => a.id.text ≤ b.id.text
  | none, some _ => True
  | some _, none => False
  | some x, some y => x < y ∨ (x = y ∧ a.id.text ≤ b.id.text)

instance : DecidableRel waitsBefore := fun a b => by
  unfold waitsBefore
  split <;> infer_instance

def schedulerCandidates (ownerId : String) (now : OffsetDateTime) (limit : Nat) (db : Db) :
    Except RepositoryError (List Remindi) := do
  let _ ← timestamp now
  let _ ← i64FromU64 limit
  let rows := db.remindi.rows.filter fun row => row.ownerId == ownerId && schedulerSelects now row
  ((rows.insertionSort waitsBefore).take limit).mapM remindiFromRow

end Repository

end RemindiCore
