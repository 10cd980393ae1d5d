import RemindiCore.Service.Service

/-!
# Add, complete, snooze, cancel and update

The five mutating operations of `remindi/service.rs`.  Four of them are
`mutate` applied to a closure on the stored item (`completeItem`, `snoozeItem`,
`cancelItem`, `updateItem`); `add` inserts a new one.
-/

namespace RemindiCore

open CivilTime JsonText Transaction

/-! ## Details of events -/

def optionText : Option String → Json := Json.ofOption Json.string

def canonicalJson (value : Option OffsetDateTime) : Except ServiceError Json := do
  let text ← value.mapM fun value => domain (canonicalTimestamp value)
  return optionText text

def triggerSummary (item : Remindi) : Except ServiceError Json := do
  let nextFireAt ← canonicalJson item.nextFireAt
  let nextEvaluationAt ← canonicalJson item.nextEvaluationAt
  return .ofMap [("type", .string item.trigger.name), ("next_fire_at", nextFireAt),
    ("next_evaluation_at", nextEvaluationAt)]

/-! ## Closures -/

def completeItem (request : CompleteRequest) (evidence : ValidatedEvidence) (now : OffsetDateTime)
    (item : Remindi) : Except ServiceError Mutation := do
  let (item, eventType) ← domain (item.complete evidence now)
  return { item := item
           eventType := eventType
           details := .ofMap [("completion_note", optionText request.completionNote)]
           evidence := some evidence
           replacementLinks := none }

def snoozeItem (request : SnoozeRequest) (now : OffsetDateTime) (item : Remindi) :
    Except ServiceError Mutation := do
  let prior := item.nextFireAt
  let (item, eventType) ← domain (item.snooze request.snoozeUntil request.reason now)
  let prior ← canonicalJson prior
  let snoozeUntil ← canonicalJson (some request.snoozeUntil)
  return { item := item
           eventType := eventType
           details := .ofMap [("prior_next_fire_at", prior), ("snooze_until", snoozeUntil),
             ("reason", .string request.reason)]
           evidence := none
           replacementLinks := none }

def cancelItem (request : CancelRequest) (now : OffsetDateTime) (item : Remindi) :
    Except ServiceError Mutation := do
  let (item, eventType) ← domain (item.cancel request.reason now)
  return { item := item
           eventType := eventType
           details := .ofMap [("reason", .string request.reason)]
           evidence := none
           replacementLinks := none }

/-- The simple fields of an update. -/
def applyFields (request : UpdateRequest) (item : Remindi) : Remindi :=
  { item with
    message := request.message.getD item.message
    instructions := request.instructions.getD item.instructions
    priority := request.priority.getD item.priority
    overdueAfterSeconds := request.overdueAfterSeconds.getD item.overdueAfterSeconds }

/-- A new trigger starts its own schedule. -/
def applyTrigger (request : UpdateRequest) (now : OffsetDateTime) (item : Remindi) :
    Except ServiceError Remindi :=
  match request.trigger with
  | none => .ok item
  | some trigger => do
    let next ← initialNextFireAt trigger now
    let (item, _) ← domain (item.replaceTrigger trigger next now)
    return { item with nextEvaluationAt := initialNextEvaluationAt trigger now }

/-- A new or cleared recurrence; what is left has to fit the trigger. -/
def applyRecurrence (request : UpdateRequest) (item : Remindi) : Except ServiceError Remindi := do
  let item := { item with recurrence := request.recurrence.getD item.recurrence }
  match item.recurrence with
  | none => return item
  | some spec =>
    domain (spec.validateForTrigger item.trigger)
    return item

/-- A disposition moves the schedule on; the second part is the skipped count. -/
def applyDisposition (request : UpdateRequest) (now : OffsetDateTime) (item : Remindi) :
    Except ServiceError (Remindi × Nat) :=
  match request.occurrenceDisposition with
  | none => .ok (item, 0)
  | some disposition =>
    match item.recurrence, item.nextFireAt with
    | some recurrence, some anchor => do
      let advance ← domain (recurrence.advance anchor item.occurrenceNo now disposition)
      return ({ item with
        nextFireAt := some advance.nextFireAt
        originalNextFireAt := some advance.nextFireAt
        occurrenceNo := advance.occurrenceNo
        dueSince := none
        state := .scheduled }, advance.skippedCount)
    | _, _ => .error .invalidState

/-- One step of the version for an update that has not taken it yet. -/
def bumpVersion (priorVersion : Nat) (now : OffsetDateTime) (item : Remindi) : Remindi :=
  if item.version = priorVersion then
    { item with version := item.version + 1, updatedAt := now }
  else item

def changedFields (request : UpdateRequest) : List String :=
  (if request.message.isSome then ["message"] else []) ++
    (if request.instructions.isSome then ["instructions"] else []) ++
    (if request.priority.isSome then ["priority"] else []) ++
    (if request.overdueAfterSeconds.isSome then ["overdue_after_seconds"] else []) ++
    (if request.trigger.isSome then ["trigger"] else []) ++
    (if request.recurrence.isSome then ["recurrence"] else []) ++
    (if request.occurrenceDisposition.isSome then ["occurrence_disposition"] else []) ++
    (if request.links.isSome then ["links"] else [])

def updateDetails (request : UpdateRequest) (prior item : Remindi) (priorTrigger : Json)
    (skippedCount : Nat) : Except ServiceError Json :=
  if request.occurrenceDisposition.isSome then do
    let priorSchedule ← canonicalJson prior.nextFireAt
    let nextSchedule ← canonicalJson item.nextFireAt
    return .ofMap [("reason", .string request.reason),
      ("previous_occurrence_no", .ofNat prior.occurrenceNo),
      ("next_occurrence_no", .ofNat item.occurrenceNo),
      ("previous_schedule", priorSchedule), ("next_schedule", nextSchedule),
      ("skipped_count", .ofNat skippedCount)]
  else do
    let afterTrigger ← triggerSummary item
    return .ofMap [("reason", .string request.reason),
      ("changed_fields", .array ((changedFields request).map .string)),
      ("before_trigger", priorTrigger), ("after_trigger", afterTrigger)]

/-- The closure of `update` up to the links: the changed item and the skipped count. -/
def updateFields (request : UpdateRequest) (now : OffsetDateTime) (item : Remindi) :
    Except ServiceError (Remindi × Nat) := do
  let changed ← applyTrigger request now (applyFields request item)
  let changed ← applyRecurrence request changed
  let (changed, skippedCount) ← applyDisposition request now changed
  return (bumpVersion item.version now changed, skippedCount)

def updateItem (request : UpdateRequest) (now : OffsetDateTime) (item : Remindi) :
    Except ServiceError Mutation :=
  if item.state.isTerminal then .error .invalidState
  else if request.occurrenceDisposition.isSome ∧ ¬(item.state = .due ∨ item.state = .overdue) then
    .error .invalidState
  else do
    let priorTrigger ← triggerSummary item
    let (changed, skippedCount) ← updateFields request now item
    whenSome request.links fun values => validateGoalLink changed.trigger values
    let details ← updateDetails request item changed priorTrigger skippedCount
    return { item := changed
             eventType :=
               if request.occurrenceDisposition.isSome then .occurrenceAdvanced else .updated
             details := details
             evidence := none
             replacementLinks := request.links.map fun values => links values now }

/-! ## Operations -/

namespace RemindiService

/-- The item a prepared request describes. -/
def newItem (ownerId : String) (id : Uuid) (request : AddRequest)
    (nextFireAt : Option OffsetDateTime) (now : OffsetDateTime) : Remindi where
  id := id
  ownerId := ownerId
  projectId := request.projectId
  taskId := request.taskId
  message := request.message
  instructions := request.instructions
  state := .scheduled
  priority := request.priority
  trigger := request.trigger
  recurrence := request.recurrence
  nextFireAt := nextFireAt
  nextEvaluationAt := initialNextEvaluationAt request.trigger now
  originalNextFireAt := nextFireAt
  dueSince := none
  snoozeUntil := none
  snoozedFromState := none
  overdueAfterSeconds := request.overdueAfterSeconds
  occurrenceNo := 1
  sourceSessionId := request.sessionId
  sourceTaskLineageId := request.taskLineageId
  lastCheckedAt := none
  lastConditionStatus := none
  lastConditionDetail := none
  snoozeCount := 0
  version := 1
  createdAt := now
  updatedAt := now
  completedAt := none
  cancelledAt := none

/-- The part of `add` after the lookup of the idempotency record. -/
def addItem (service : RemindiService) (actor : Actor) (request : AddRequest)
    (requestHash : String) (now : OffsetDateTime) : Tx MutationResult := do
  let nextFireAt ← Txn.ofExcept (initialNextFireAt request.trigger now)
  let id ← Tx.nextId
  let item := newItem service.ownerId id request nextFireAt now
  Tx.execute (Repository.insert service.externals item)
  Tx.execute (Repository.replaceLinks item (links request.links now))
  appendEvent
    { actor := actor
      item := item
      eventType := .created
      priorVersion := none
      newVersion := some 1
      details := .ofMap [("trigger_type", .string item.trigger.name),
        ("project_id", .string item.projectId), ("task_id", optionText item.taskId)] }
  let response : MutationResult := { remindi := item }
  storeIdempotency actor "remindi_add" request.idempotencyKey requestHash response now
  Tx.database
  return response

def add (service : RemindiService) (actor : Actor) (request : AddRequest) : Tx MutationResult := do
  let request ← Txn.ofExcept (prepareAdd actor request)
  let hash ← Txn.ofExcept (requestHash service.externals.sha256 request.toJson)
  let now ← Tx.now
  Tx.database
  let replayed ← replay service.externals actor "remindi_add" request.idempotencyKey hash
  match replayed with
  | some response =>
    Tx.database
    return response
  | none => service.addItem actor request hash now

def complete (service : RemindiService) (actor : Actor) (request : CompleteRequest)
    (maximumFutureSkew : Nat) : Tx MutationResult := do
  let request ← Txn.ofExcept (prepareComplete actor request)
  let hash ← Txn.ofExcept (requestHash service.externals.sha256 request.toJson)
  let now ← Tx.now
  let evidence ← Txn.ofExcept (domain (request.evidence.validate now maximumFutureSkew))
  service.mutate
    { actor := actor
      toolName := "remindi_complete"
      id := request.remindiId
      expectedVersion := request.expectedVersion
      idempotencyKey := request.idempotencyKey
      requestHash := hash }
    (completeItem request evidence now)

/-- The deadline lies within the horizon (nanoseconds; a signed duration holds
at most `i64::MAX` seconds). -/
def checkHorizon (snoozeUntil now : OffsetDateTime) (maximumHorizon : Nat) :
    Except ServiceError Unit :=
  if i64Max < maximumHorizon / 1000000000 then .error .validation
  else if now.utc + maximumHorizon < snoozeUntil.utc then .error .validation
  else .ok ()

def snooze (service : RemindiService) (actor : Actor) (request : SnoozeRequest)
    (maximumHorizon : Nat) : Tx MutationResult := do
  let request ← Txn.ofExcept (prepareSnooze actor request)
  let hash ← Txn.ofExcept (requestHash service.externals.sha256 request.toJson)
  let now ← Tx.now
  Txn.ofExcept (checkHorizon request.snoozeUntil now maximumHorizon)
  service.mutate
    { actor := actor
      toolName := "remindi_snooze"
      id := request.remindiId
      expectedVersion := request.expectedVersion
      idempotencyKey := request.idempotencyKey
      requestHash := hash }
    (snoozeItem request now)

def cancel (service : RemindiService) (actor : Actor) (request : CancelRequest) :
    Tx MutationResult := do
  let request ← Txn.ofExcept (prepareCancel actor request)
  let hash ← Txn.ofExcept (requestHash service.externals.sha256 request.toJson)
  let now ← Tx.now
  service.mutate
    { actor := actor
      toolName := "remindi_cancel"
      id := request.remindiId
      expectedVersion := request.expectedVersion
      idempotencyKey := request.idempotencyKey
      requestHash := hash }
    (cancelItem request now)

def update (service : RemindiService) (actor : Actor) (request : UpdateRequest) :
    Tx MutationResult := do
  let request ← Txn.ofExcept (prepareUpdate actor request)
  let hash ← Txn.ofExcept (requestHash service.externals.sha256 request.toJson)
  let now ← Tx.now
  service.mutate
    { actor := actor
      toolName := "remindi_update"
      id := request.remindiId
      expectedVersion := request.expectedVersion
      idempotencyKey := request.idempotencyKey
      requestHash := hash }
    (updateItem request now)

end RemindiService

end RemindiCore
