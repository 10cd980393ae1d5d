import RemindiCore.Domain.Recurrence
import RemindiCore.Domain.Evaluator

/-!
# Requests of the service

The request records of `remindi/service.rs`, the checks and normalisations each
operation makes before it computes the request hash (`prepareAdd`,
`prepareComplete`, …), and the serialised form that is hashed.
-/

namespace RemindiCore

open CivilTime JsonText Transaction

inductive ServiceError where
  | validation
  | notFound
  | invalidState
  | versionConflict (currentVersion : Nat)
  | idempotencyKeyReused
  | invalidCursor
  | databaseBusy
  | maintenanceActive
  | internal
deriving DecidableEq

def mapDomain : DomainError → ServiceError
  | .terminalState | .snoozeRequiresReadyState | .finalOccurrence => .invalidState
  | _ => .validation

/-- A domain result inside the service. -/
def domain {α : Type} (x : Except DomainError α) : Except ServiceError α := x.mapError mapDomain

theorem domain_ok {α : Type} {x : Except DomainError α} {a : α} : domain x = .ok a ↔ x = .ok a :=
  except_mapError_ok

/-! ## Records -/

structure Actor where
  actorType : ActorType
  actorId : String
  requestId : Option String

structure LinkInput where
  linkType : LinkType
  value : String
deriving DecidableEq

structure AddRequest where
  projectId : String
  taskId : Option String
  message : String
  instructions : Option String
  priority : Priority
  trigger : Trigger
  recurrence : Option RecurrenceSpec
  overdueAfterSeconds : Nat
  links : List LinkInput
  sessionId : Option String
  taskLineageId : Option String
  idempotencyKey : String

structure CompleteRequest where
  remindiId : Uuid
  expectedVersion : Nat
  evidence : EvidenceInput
  completionNote : Option String
  idempotencyKey : String

structure SnoozeRequest where
  remindiId : Uuid
  expectedVersion : Nat
  snoozeUntil : OffsetDateTime
  reason : String
  idempotencyKey : String

/-- `none` leaves a field as it is; `some none` clears the instructions or the recurrence. -/
structure UpdateRequest where
  remindiId : Uuid
  expectedVersion : Nat
  message : Option String
  instructions : Option (Option String)
  priority : Option Priority
  trigger : Option Trigger
  recurrence : Option (Option RecurrenceSpec)
  overdueAfterSeconds : Option Nat
  links : Option (List LinkInput)
  occurrenceDisposition : Option OccurrenceDisposition
  reason : String
  idempotencyKey : String

structure CancelRequest where
  remindiId : Uuid
  expectedVersion : Nat
  reason : String
  idempotencyKey : String

/-! ## Field checks -/

def validateActor (actor : Actor) : Except ServiceError Unit :=
  if trim actor.actorId = "" then .error .validation else .ok ()

def validateIdempotencyKey (key : String) : Except ServiceError Unit :=
  if 8 ≤ key.utf8ByteSize ∧ key.utf8ByteSize ≤ 128 ∧
      key.toList.all (fun c => c.isAlphanum || c == '.' || c == '_' || c == ':' || c == '-') then
    .ok ()
  else .error .validation

def validateExpectedVersion (version : Nat) : Except ServiceError Unit :=
  if version = 0 then .error .validation else .ok ()

def requiredText (value : String) (maximum : Nat) : Except ServiceError String :=
  let trimmed := trim value
  if trimmed = "" ∨ maximum < trimmed.length then .error .validation else .ok trimmed

def optionalText (value : Option String) (maximum : Nat) : Except ServiceError (Option String) :=
  value.mapM fun value => requiredText value maximum

/-- A blank context is no context. -/
def optionalContext (value : Option String) (maximum : Nat) :
    Except ServiceError (Option String) :=
  match value with
  | none => .ok none
  | some value =>
    let trimmed := trim value
    if maximum < trimmed.length then .error .validation
    else if trimmed = "" then .ok none
    else .ok (some trimmed)

def optionalBounded (value : Option String) (maximum : Nat) :
    Except ServiceError (Option String) :=
  match value with
  | none => .ok none
  | some value => if value.length ≤ maximum then .ok (some value) else .error .validation

/-- Each link has a value that is not blank, and no link stands twice. -/
def validateLinksFrom : List LinkInput → List LinkInput → Except ServiceError Unit
  | _, [] => .ok ()
  | prior, link :: rest =>
    if trim link.value = "" ∨ 2048 < link.value.length ∨ link ∈ prior then .error .validation
    else validateLinksFrom (prior ++ [link]) rest

def validateLinks (links : List LinkInput) : Except ServiceError Unit :=
  if 100 < links.length then .error .validation else validateLinksFrom [] links

/-- A goal trigger has exactly one goal link, its own. -/
def validateGoalLink (trigger : Trigger) (links : List LinkInput) : Except ServiceError Unit :=
  match trigger with
  | .goalActive goalId =>
    let matching := links.countP fun link => link.linkType = .goal && link.value = goalId
    let allGoals := links.countP fun link => link.linkType = .goal
    if matching = 1 ∧ allGoals = 1 then .ok () else .error .validation
  | _ => .ok ()

/-- A new goal trigger needs new links. -/
def validateNewGoal (trigger : Option Trigger) (links : Option (List LinkInput)) :
    Except ServiceError Unit :=
  match trigger with
  | some (.goalActive goalId) =>
    match links with
    | none => .error .validation
    | some links => validateGoalLink (.goalActive goalId) links
  | _ => .ok ()

/-- A check of an optional field. -/
def whenSome {α : Type} (value : Option α) (check : α → Except ServiceError Unit) :
    Except ServiceError Unit :=
  match value with
  | none => .ok ()
  | some a => check a

def checkThat (condition : Bool) : Except ServiceError Unit :=
  if condition then .ok () else .error .validation

/-! ## Instants and triggers -/

/-- UTC, cut off to milliseconds. -/
def normalizeInstant (value : OffsetDateTime) : OffsetDateTime := value.truncateMillis

def normalizeTrigger : Trigger → Trigger
  | .atTime at' => .atTime (normalizeInstant at')
  | .interval firstAt everySeconds => .interval (normalizeInstant firstAt) everySeconds
  | .condition adapter parameters poll manualCheckAt =>
    .condition adapter parameters poll (manualCheckAt.map normalizeInstant)
  | .afterElapsed afterSeconds => .afterElapsed afterSeconds
  | .nextSession => .nextSession
  | .nextContinuation => .nextContinuation
  | .goalActive goalId => .goalActive goalId

def normalizeRecurrence (recurrence : RecurrenceSpec) : RecurrenceSpec :=
  { recurrence with endAt := recurrence.endAt.map normalizeInstant }

def initialNextFireAt (trigger : Trigger) (now : OffsetDateTime) :
    Except ServiceError (Option OffsetDateTime) :=
  match trigger with
  | .atTime at' => .ok (some at')
  | .afterElapsed afterSeconds =>
    if afterSeconds ≤ i64Max then .ok (some (now.addSeconds afterSeconds)) else .error .validation
  | .interval firstAt _ => .ok (some firstAt)
  | .nextSession | .nextContinuation | .goalActive _ | .condition _ _ _ _ => .ok none

def initialNextEvaluationAt (trigger : Trigger) (now : OffsetDateTime) : Option OffsetDateTime :=
  match trigger with
  | .condition _ _ pollIntervalSeconds manualCheckAt =>
    let seconds := pollIntervalSeconds.getD 30
    let poll := if seconds ≤ i64Max then some (now.addSeconds seconds) else none
    match poll, manualCheckAt with
    | some poll, some manual => some (if manual.utc < poll.utc then manual else poll)
    | poll, manual => poll.or manual
  | _ => none

/-! ## Preparation: what each operation does before it hashes the request -/

def prepareAdd (actor : Actor) (request : AddRequest) : Except ServiceError AddRequest := do
  validateActor actor
  validateIdempotencyKey request.idempotencyKey
  let projectId ← requiredText request.projectId 512
  let message ← requiredText request.message 8192
  let taskId ← optionalText request.taskId 512
  let instructions ← optionalBounded request.instructions 32768
  let sessionId ← optionalContext request.sessionId 512
  let taskLineageId ← optionalContext request.taskLineageId 512
  let trigger := normalizeTrigger request.trigger
  let recurrence := request.recurrence.map normalizeRecurrence
  domain trigger.validate
  whenSome recurrence fun spec => domain (spec.validateForTrigger trigger)
  checkThat (request.overdueAfterSeconds ≤ 31536000)
  validateLinks request.links
  validateGoalLink trigger request.links
  return { request with
    projectId := projectId
    message := message
    taskId := taskId
    instructions := instructions
    sessionId := sessionId
    taskLineageId := taskLineageId
    trigger := trigger
    recurrence := recurrence }

def prepareComplete (actor : Actor) (request : CompleteRequest) :
    Except ServiceError CompleteRequest := do
  validateActor actor
  validateIdempotencyKey request.idempotencyKey
  validateExpectedVersion request.expectedVersion
  let completionNote ← optionalBounded request.completionNote 4096
  return { request with completionNote := completionNote }

def prepareSnooze (actor : Actor) (request : SnoozeRequest) :
    Except ServiceError SnoozeRequest := do
  validateActor actor
  validateIdempotencyKey request.idempotencyKey
  validateExpectedVersion request.expectedVersion
  let reason ← requiredText request.reason 4096
  return { request with reason := reason, snoozeUntil := normalizeInstant request.snoozeUntil }

def prepareCancel (actor : Actor) (request : CancelRequest) :
    Except ServiceError CancelRequest := do
  validateActor actor
  validateIdempotencyKey request.idempotencyKey
  validateExpectedVersion request.expectedVersion
  let reason ← requiredText request.reason 4096
  return { request with reason := reason }

def hasUpdate (request : UpdateRequest) : Bool :=
  request.message.isSome || request.instructions.isSome || request.priority.isSome ||
    request.trigger.isSome || request.recurrence.isSome || request.overdueAfterSeconds.isSome ||
    request.links.isSome || request.occurrenceDisposition.isSome

def prepareUpdate (actor : Actor) (request : UpdateRequest) :
    Except ServiceError UpdateRequest := do
  validateActor actor
  validateIdempotencyKey request.idempotencyKey
  validateExpectedVersion request.expectedVersion
  let reason ← requiredText request.reason 4096
  checkThat (hasUpdate request)
  let message ← request.message.mapM fun message => requiredText message 8192
  let instructions ← request.instructions.mapM fun instructions => optionalBounded instructions 32768
  whenSome request.trigger fun trigger => domain trigger.validate
  let trigger := request.trigger.map normalizeTrigger
  let recurrence := request.recurrence.map fun recurrence => recurrence.map normalizeRecurrence
  checkThat (request.overdueAfterSeconds.all (· ≤ 31536000))
  whenSome request.links validateLinks
  validateNewGoal trigger request.links
  return { request with
    reason := reason
    message := message
    instructions := instructions
    trigger := trigger
    recurrence := recurrence }

end RemindiCore
