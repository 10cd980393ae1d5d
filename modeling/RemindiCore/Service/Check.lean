import RemindiCore.Service.Service

/-!
# Checks and scheduler evaluations

`check` and `evaluate_one` of `remindi/service.rs`.  Both evaluate rows read
earlier, outside the transaction that persists the outcome: `checkRead` selects
and previews, `checkPersist` stores what the previews changed; the scheduler
reads its candidates with `schedulerCandidates` and later evaluates them one by
one with `applySchedulerEvaluation`.  A `ReadyItem` can only be built from an
evaluation of its prior row.
-/

namespace RemindiCore

open CivilTime JsonText Transaction

/-! ## Requests and results -/

structure CheckRequest where
  projectId : String
  taskId : Option String
  sessionId : Option String
  taskLineageId : Option String
  lifecycleEvent : LifecycleEvent
  activeGoalIds : List String
  includeScheduled : Bool
  limit : Nat
  cursor : Option String

structure CheckedItem where
  remindi : Remindi
  readiness : Readiness

structure CheckResult where
  checkedAt : OffsetDateTime
  items : List CheckedItem
  nextCursor : Option String

/-- A candidate that turned out ready: the row read, its preview, and the events
of the evaluation that made the preview. -/
structure ReadyItem (now : OffsetDateTime) (context : CheckContext) where
  prior : Remindi
  checked : CheckedItem
  events : List EventType
  evaluated : prior.evaluate now context .notEvaluated =
    .ok (checked.remindi, { readiness := some checked.readiness, events := events })

/-! ## Order and paging -/

def readinessRank : Readiness → Nat
  | .overdue => 0
  | .due => 1
  | .manualVerification => 2

def priorityRank : Priority → Nat
  | .low => 0
  | .normal => 1
  | .high => 2
  | .critical => 3

def checkOrder (left right : CheckedItem) : Ordering :=
  (compare (readinessRank left.readiness) (readinessRank right.readiness)).then <|
    (compare (priorityRank right.remindi.priority) (priorityRank left.remindi.priority)).then <|
      (match left.remindi.nextFireAt, right.remindi.nextFireAt with
      | some left, some right => compare left.utc right.utc
      | some _, none => .lt
      | none, some _ => .gt
      | none, none => .eq).then <|
        compare left.remindi.id.text right.remindi.id.text

def checkCursor (item : CheckedItem) : Except ServiceError CheckCursor := do
  let nextFireAt ← item.remindi.nextFireAt.mapM fun value => domain (canonicalTimestamp value)
  return { readiness := readinessRank item.readiness
           priority := priorityRank item.remindi.priority
           nextFireAt := nextFireAt
           id := item.remindi.id.text }

/-- Readiness, priority (descending), absent fire times last, fire time, identifier. -/
def checkAfterCursor (item : CheckedItem) (cursor : CheckCursor) : Bool :=
  let nextFireAt := item.remindi.nextFireAt.bind canonicalText
  let order := (compare (readinessRank item.readiness) cursor.readiness).then <|
    (compare cursor.priority (priorityRank item.remindi.priority)).then <|
      (compare nextFireAt.isNone cursor.nextFireAt.isNone).then <|
        (compare (nextFireAt.getD "") (cursor.nextFireAt.getD "")).then <|
          compare item.remindi.id.text cursor.id
  order == .gt

def maxPage : Nat := 200

def pageLimit (value default' : Nat) : Except ServiceError Nat :=
  let value := if value = 0 then default' else value
  if value ≤ maxPage then .ok value else .error .validation

section

variable {now : OffsetDateTime} {context : CheckContext}

/-- The ready candidates with their previews; a failing evaluation fails the check. -/
def previews (now : OffsetDateTime) (context : CheckContext) :
    List Remindi → Except ServiceError (List (ReadyItem now context))
  | [] => .ok []
  | candidate :: rest =>
    match h : candidate.evaluate now context .notEvaluated with
    | .error e => .error (mapDomain e)
    | .ok (_, { readiness := none, events := _ }) => previews now context rest
    | .ok (preview, { readiness := some readiness, events := events }) => do
      let ready ← previews now context rest
      return { prior := candidate
               checked := { remindi := preview, readiness := readiness }
               events := events
               evaluated := h } :: ready

def sortReady (ready : List (ReadyItem now context)) : List (ReadyItem now context) :=
  ready.insertionSort fun left right => checkOrder left.checked right.checked ≠ .gt

def afterCursor (cursor : Option CheckCursor) (ready : List (ReadyItem now context)) :
    List (ReadyItem now context) :=
  match cursor with
  | none => ready
  | some cursor => ready.filter fun item => checkAfterCursor item.checked cursor

/-- An item whose evaluation changed nothing is reported as it was read. -/
def ReadyItem.unchanged (item : ReadyItem now context) : CheckedItem :=
  { remindi := item.prior, readiness := item.checked.readiness }

end

namespace RemindiService

/-! ## Persisting an evaluation -/

def appendEvaluated (actor : Actor) (prior candidate : Remindi) (context : CheckContext)
    (conditionDetail : Option String) : List EventType → Tx Unit
  | [] => return ()
  | eventType :: rest => do
    appendEvent
      { actor := actor
        item := candidate
        eventType := eventType
        priorVersion := some prior.version
        newVersion := some candidate.version
        details := .ofMap [("lifecycle_event", .string context.lifecycleEvent.text),
          ("condition", Json.ofOption (fun s => .string s.text) candidate.lastConditionStatus),
          ("condition_detail", Json.ofOption Json.string conditionDetail)] }
    appendEvaluated actor prior candidate context conditionDetail rest

/-- Stores the evaluated candidate unless the row has moved on since it was read. -/
def persistEvaluated (service : RemindiService) (actor : Actor) (prior candidate : Remindi)
    (readiness : Option Readiness) (events : List EventType) (context : CheckContext)
    (conditionDetail : Option String) : Tx (Option CheckedItem) := do
  let current ← service.findItem candidate.id
  if current.version ≠ prior.version then return none
  else
    let updated ← Tx.statement (Repository.updateCas service.externals candidate prior.version)
    if !updated then return none
    else
      appendEvaluated actor prior candidate context conditionDetail events
      return readiness.map fun readiness => { remindi := candidate, readiness := readiness }

/-! ## Checks -/

/-- A check between its read and its transaction. -/
structure PendingCheck where
  service : RemindiService
  actor : Actor
  now : OffsetDateTime
  context : CheckContext
  ready : List (ReadyItem now context)
  nextCursor : Option String

def decodeCursor (service : RemindiService) (cursor : Option String) :
    Except ServiceError (Option CheckCursor) :=
  match cursor with
  | none => .ok none
  | some text =>
    match service.externals.decodeCursor text with
    | some cursor => .ok (some cursor)
    | none => .error .invalidCursor

/-- The cursor of the last item when the page was cut off. -/
def pageCursor (service : RemindiService) (hasMore : Bool) (last : Option CheckedItem) :
    Except ServiceError (Option String) :=
  if hasMore then
    last.mapM fun item => do
      let cursor ← checkCursor item
      return service.externals.encodeCursor cursor
  else .ok none

/-- The first half of `check`: select, preview, sort, cut the page. -/
def checkRead (service : RemindiService) (actor : Actor) (request : CheckRequest) :
    Tx PendingCheck := do
  Txn.ofExcept (validateActor actor)
  let projectId ← Txn.ofExcept (requiredText request.projectId 512)
  let taskId ← Txn.ofExcept (optionalText request.taskId 512)
  let sessionId ← Txn.ofExcept (optionalContext request.sessionId 512)
  let taskLineageId ← Txn.ofExcept (optionalContext request.taskLineageId 512)
  let limit ← Txn.ofExcept (pageLimit request.limit 50)
  let cursor ← Txn.ofExcept (service.decodeCursor request.cursor)
  let now ← Tx.now
  Tx.database
  let candidates ← Tx.query
    (Repository.checkCandidates service.ownerId projectId taskId now request.includeScheduled)
  let context : CheckContext :=
    { sessionId := sessionId
      taskLineageId := taskLineageId
      lifecycleEvent := request.lifecycleEvent
      activeGoalIds := request.activeGoalIds }
  let ready ← Txn.ofExcept (previews now context candidates)
  let ready := afterCursor cursor (sortReady ready)
  let page := ready.take limit
  let nextCursor ← Txn.ofExcept
    (service.pageCursor (decide (limit < ready.length)) (page.getLast?.map (·.checked)))
  return { service := service
           actor := actor
           now := now
           context := context
           ready := page
           nextCursor := nextCursor }

/-- Nothing to persist: the check answers without a transaction. -/
def PendingCheck.settled (pending : PendingCheck) : Bool :=
  pending.ready.all fun item => item.events.isEmpty

def PendingCheck.result (pending : PendingCheck) (items : List CheckedItem) : CheckResult :=
  { checkedAt := pending.now, items := items, nextCursor := pending.nextCursor }

def persistReady (service : RemindiService) (actor : Actor) {now : OffsetDateTime}
    {context : CheckContext} : List (ReadyItem now context) → Tx (List CheckedItem)
  | [] => return []
  | item :: rest => do
    if item.events.isEmpty then
      let items ← persistReady service actor rest
      return item.unchanged :: items
    else
      let checked ← service.persistEvaluated actor item.prior item.checked.remindi
        (some item.checked.readiness) item.events context none
      let items ← persistReady service actor rest
      return checked.toList ++ items

/-- The second half of `check`: one transaction over the page. -/
def checkPersist (pending : PendingCheck) : Tx CheckResult := do
  Tx.database
  let items ← persistReady pending.service pending.actor pending.ready
  Tx.database
  return pending.result items

/-! ## Scheduler evaluations -/

inductive AdapterStatus where
  | satisfied | unsatisfied | unknown | error
deriving DecidableEq

def mapStatus : AdapterStatus → ConditionEvaluation
  | .satisfied => .satisfied
  | .unsatisfied => .unsatisfied
  | .unknown => .unknown
  | .error => .error

structure AdapterResult where
  status : AdapterStatus
  summary : String

/-- The configured adapters, as they answer at the time. -/
abbrev AdapterProvider := String → Option (Json → AdapterResult)

/-- Only a condition trigger asks an adapter. -/
def evaluateCondition (adapters : AdapterProvider) (candidate : Remindi) : Option AdapterResult :=
  match candidate.trigger with
  | .condition adapter parameters _ _ =>
    match adapters adapter with
    | none =>
      some { status := .unknown, summary := "Configured condition adapter is unavailable." }
    | some evaluate => some (evaluate parameters)
  | _ => none

/-- An evaluation with events takes one step of the version. -/
def evaluatedVersion (prior candidate : Remindi) (now : OffsetDateTime) : Remindi :=
  if candidate.version = prior.version then
    { candidate with version := candidate.version + 1, updatedAt := now }
  else candidate

/-- The part of `evaluate_one` before its transaction. -/
def evaluateCandidate (prior : Remindi) (now : OffsetDateTime) (context : CheckContext)
    (condition : ConditionEvaluation) (conditionDetail : Option String) :
    Except ServiceError (Remindi × EvaluationResult) := do
  let (candidate, result) ← domain (prior.evaluate now context condition)
  let candidate :=
    if condition ≠ .notEvaluated then { candidate with lastConditionDetail := conditionDetail }
    else candidate
  if result.events.isEmpty then return (prior, result)
  else return (evaluatedVersion prior candidate now, result)

def evaluateOne (service : RemindiService) (actor : Actor) (prior : Remindi)
    (now : OffsetDateTime) (context : CheckContext) (condition : ConditionEvaluation)
    (conditionDetail : Option String) : Tx (Option CheckedItem) := do
  let (candidate, result) ← Txn.ofExcept
    (evaluateCandidate prior now context condition conditionDetail)
  if result.events.isEmpty then
    return result.readiness.map fun readiness => { remindi := prior, readiness := readiness }
  else
    Tx.database
    let evaluated ← service.persistEvaluated actor prior candidate result.readiness result.events
      context conditionDetail
    Tx.database
    return evaluated

/-- The context of the scheduler: no session, no goals. -/
def schedulerContext : CheckContext :=
  { sessionId := none, taskLineageId := none, lifecycleEvent := .checkpoint, activeGoalIds := [] }

def applySchedulerEvaluation (service : RemindiService) (actor : Actor) (candidate : Remindi)
    (now : OffsetDateTime) (adapters : AdapterProvider) : Tx Unit := do
  let result := evaluateCondition adapters candidate
  let condition := (result.map fun result => mapStatus result.status).getD .notEvaluated
  let _ ← service.evaluateOne actor candidate now schedulerContext condition
    (result.map (·.summary))
  return ()

/-- The scheduler's read: the clock reading of the poll and its candidates. -/
def schedulerCandidates (service : RemindiService) (limit : Nat) :
    Tx (OffsetDateTime × List Remindi) := do
  let now ← Tx.now
  Tx.database
  let candidates ← Tx.query (Repository.schedulerCandidates service.ownerId now limit)
  return (now, candidates)

end RemindiService

end RemindiCore
