import RemindiCore.Service.Database

/-!
# Transactions of the service

The parts of `RemindiService` (`remindi/service.rs`) that every operation
shares: the calls it makes on the clock, the identifier generator and the
database, events, idempotency records, and `mutate`.  Everything between
`BEGIN IMMEDIATE` and `COMMIT` is one `Tx`; an error on the way rolls it back.
-/

namespace RemindiCore

open CivilTime JsonText KeyedTable Transaction

/-! ## Surroundings -/

inductive DatabaseError where
  | maintenanceActive
  | closed
  | busy
  | other
deriving DecidableEq

def mapDatabase : DatabaseError → ServiceError
  | .maintenanceActive | .closed => .maintenanceActive
  | .busy => .databaseBusy
  | .other => .internal

/-- A failing statement as the repository reports it. -/
def DatabaseError.ofStatement : DatabaseError → RepositoryError
  | .busy => .busy
  | .maintenanceActive | .closed | .other => .sql

/-- The clock, the identifier generator and the failures of the database, by
the number of the call. -/
structure Env where
  clock : Nat → OffsetDateTime
  ids : Nat → Uuid
  fault : Nat → Option DatabaseError

structure RemindiService where
  externals : Externals
  ownerId : String

abbrev Tx := Txn Env ServiceError Db

namespace Tx

def now : Tx OffsetDateTime := .ask fun env n => env.clock n
def nextId : Tx Uuid := .ask fun env n => env.ids n

/-- `begin_immediate`, `commit`, `rollback` and taking a connection. -/
def database : Tx Unit := .call (fun env n => (env.fault n).map mapDatabase) fun db => .ok ((), db)

/-- A statement of the repository. -/
def statement {α : Type} (f : Db → Except RepositoryError (α × Db)) : Tx α :=
  .call (fun env n => (env.fault n).map fun e => mapRepository e.ofStatement)
    fun db => (f db).mapError mapRepository

def query {α : Type} (f : Db → Except RepositoryError α) : Tx α :=
  statement fun db => (f db).map fun a => (a, db)

def execute (f : Db → Except RepositoryError Db) : Tx Unit :=
  statement fun db => (f db).map fun db => ((), db)

end Tx

/-! ## Events, links and idempotency records -/

structure EventAppend where
  actor : Actor
  item : Remindi
  eventType : EventType
  priorVersion : Option Nat
  newVersion : Option Nat
  details : Json

def appendEvent (event : EventAppend) : Tx Unit := do
  let eventId ← Tx.nextId
  let occurredAt ← Tx.now
  Tx.execute <| Repository.appendEvent
    { sequence := 0
      eventId := eventId
      remindiId := event.item.id
      eventType := event.eventType
      actorType := event.actor.actorType
      actorId := event.actor.actorId
      requestId := event.actor.requestId
      occurredAt := occurredAt
      priorVersion := event.priorVersion
      newVersion := event.newVersion
      details := event.details }

def links (values : List LinkInput) (now : OffsetDateTime) : List RemindiLink :=
  values.map fun link => { linkType := link.linkType, value := link.value, createdAt := now }

/-- The stored response of an earlier call with this key and this request. -/
def replay (x : Externals) (actor : Actor) (toolName key requestHash : String) :
    Tx (Option MutationResult) := do
  let record ← Tx.query fun db => .ok (Repository.idempotency actor.actorId toolName key db)
  match record with
  | none => return none
  | some record =>
    if record.requestHash ≠ requestHash then .throw .idempotencyKeyReused
    else
      match record.response.read x with
      | none => .throw .internal
      | some response => return some response

def idempotencyRetentionSeconds : Int := 30 * 86400

def storeIdempotency (actor : Actor) (toolName key requestHash : String)
    (response : MutationResult) (now : OffsetDateTime) : Tx Unit := do
  let item := response.remindi
  if item.trigger.toJson.isNone ∨ (orNull RecurrenceSpec.toJson item.recurrence).isNone then
    .throw .internal
  else
    Tx.execute <| Repository.insertIdempotency
      { actorId := actor.actorId
        toolName := toolName
        key := key
        requestHash := requestHash
        response := response
        remindiId := item.id
        createdAt := now
        expiresAt := now.addSeconds idempotencyRetentionSeconds }

/-! ## Mutations of one item -/

structure MutationCall where
  actor : Actor
  toolName : String
  id : Uuid
  expectedVersion : Nat
  idempotencyKey : String
  requestHash : String

/-- What the closure of a mutation returns. -/
structure Mutation where
  item : Remindi
  eventType : EventType
  details : Json
  evidence : Option ValidatedEvidence
  replacementLinks : Option (List RemindiLink)

/-- Records the evidence and notes its identifier in the event's details. -/
def recordEvidence (x : Externals) (actor : Actor) (item : Remindi) (details : Json)
    (now : OffsetDateTime) : Option ValidatedEvidence → Tx Json
  | none => return details
  | some evidence => do
    let id ← Tx.nextId
    match details with
    | .object members =>
      Tx.execute <| Repository.insertEvidence x
        { id := id
          remindiId := item.id
          evidenceType := evidence.input.evidenceType
          summary := evidence.input.summary
          referenceUri := evidence.input.referenceUri
          contentHash := evidence.input.contentHash
          observedAt := evidence.input.observedAt
          recordedAt := now
          recordedBy := actor.actorId
          metadata := evidence.input.metadata }
      return .object (Json.insertMember "evidence_id" (.string id.text) members)
    | _ => .throw .internal

namespace RemindiService

def findItem (service : RemindiService) (id : Uuid) : Tx Remindi := do
  let found ← Tx.query (Repository.find service.ownerId id)
  match found with
  | some item => return item
  | none => .throw .notFound

def replaceLinks (item : Remindi) : Option (List RemindiLink) → Tx Unit
  | none => return ()
  | some links => Tx.execute (Repository.replaceLinks item links)

/-- The part of `mutate` after the lookup of the idempotency record. -/
def mutateItem (service : RemindiService) (call : MutationCall) (now : OffsetDateTime)
    (operation : Remindi → Except ServiceError Mutation) : Tx MutationResult := do
  let item ← service.findItem call.id
  if item.version ≠ call.expectedVersion then .throw (.versionConflict item.version)
  else
    let mutation ← Txn.ofExcept (operation item)
    let updated ← Tx.statement (Repository.updateCas service.externals mutation.item item.version)
    if !updated then
      let current ← service.findItem call.id
      .throw (.versionConflict current.version)
    else
      replaceLinks mutation.item mutation.replacementLinks
      let details ← recordEvidence service.externals call.actor mutation.item mutation.details now
        mutation.evidence
      appendEvent
        { actor := call.actor
          item := mutation.item
          eventType := mutation.eventType
          priorVersion := some item.version
          newVersion := some mutation.item.version
          details := details }
      let response : MutationResult := { remindi := mutation.item }
      storeIdempotency call.actor call.toolName call.idempotencyKey call.requestHash response now
      Tx.database
      return response

def mutate (service : RemindiService) (call : MutationCall)
    (operation : Remindi → Except ServiceError Mutation) : Tx MutationResult := do
  let now ← Tx.now
  Tx.database
  let replayed ← replay service.externals call.actor call.toolName call.idempotencyKey
    call.requestHash
  match replayed with
  | some response =>
    Tx.database
    return response
  | none => service.mutateItem call now operation

end RemindiService

end RemindiCore
