import RemindiCore.Lib.Serde
import RemindiCore.Service.Listing
import RemindiCore.Service.System

/-!
# The arguments of the tools

`mcp/schemas.rs` and the conversions of `mcp/tools`: how the arguments of each tool are read
and what request they become.  The readers that the Web interface has of its own, for the same
JSON, are those with another `keep` (what becomes of a free JSON value) or another `instant`
(how a timestamp is read).
-/

namespace RemindiCore.Mcp

open CivilTime JsonText Serde

/-! ## Names -/

def priorityNames : List (String × Priority) :=
  [("low", .low), ("normal", .normal), ("high", .high), ("critical", .critical)]

def missedPolicyNames : List (String × MissedPolicy) :=
  [("coalesce", .coalesce), ("catch_up", .catchUp), ("skip", .skip)]

def linkTypeNames : List (String × LinkType) :=
  [("goal", .goal), ("memory", .memory), ("issue", .issue), ("url", .url), ("artifact", .artifact)]

def evidenceTypeNames : List (String × EvidenceType) :=
  [("observation", .observation), ("test_result", .testResult), ("artifact", .artifact),
    ("log_reference", .logReference), ("change_reference", .changeReference),
    ("user_confirmation", .userConfirmation), ("external_reference", .externalReference)]

def lifecycleEventNames : List (String × LifecycleEvent) :=
  [("task_start", .taskStart), ("checkpoint", .checkpoint), ("continuation", .continuation),
    ("final_review", .finalReview)]

def occurrenceDispositionNames : List (String × OccurrenceDisposition) :=
  [("acknowledged", .acknowledged), ("skipped", .skipped)]

def remindiStateNames : List (String × RemindiState) :=
  [("scheduled", .scheduled), ("due", .due), ("overdue", .overdue), ("snoozed", .snoozed),
    ("completed", .completed), ("cancelled", .cancelled)]

/-- A trigger type is passed on by its name. -/
def triggerTypeNames : List (String × String) :=
  ["at_time", "after_elapsed", "interval", "next_session", "next_continuation", "goal_active",
    "condition"].map fun name => (name, name)

def eventTypeNames : List (String × EventType) :=
  [("created", .created), ("checked", .checked), ("became_due", .becameDue),
    ("became_overdue", .becameOverdue), ("condition_evaluated", .conditionEvaluated),
    ("occurrence_advanced", .occurrenceAdvanced), ("snoozed", .snoozed), ("updated", .updated),
    ("completed", .completed), ("cancelled", .cancelled),
    ("delivery_attempted", .deliveryAttempted), ("delivery_succeeded", .deliverySucceeded),
    ("delivery_failed", .deliveryFailed)]

/-! ## Parts of the arguments -/

def asUuid (json : Json) : Option Uuid := (asText json).bind Uuid.parse

inductive TriggerInput where
  | atTime (at' : String)
  | afterElapsed (afterSeconds : Nat)
  | interval (firstAt : String) (everySeconds : Nat)
  | nextSession
  | nextContinuation
  | goalActive (goalId : String)
  | condition (adapter : String) (parameters : Json) (pollIntervalSeconds : Option Nat)
      (manualCheckAt : Option String)

def TriggerInput.read (keep : Json → Json) (json : Json) : Option TriggerInput := do
  let tag ← tagOf "type" json
  match tag with
  | "at_time" =>
    let fields ← structFields true ["type", "at"] json
    let at' ← fields.required 1 asText
    return .atTime at'
  | "after_elapsed" =>
    let fields ← structFields true ["type", "after_seconds"] json
    let afterSeconds ← fields.required 1 (asUnsigned 64)
    return .afterElapsed afterSeconds
  | "interval" =>
    let fields ← structFields true ["type", "first_at", "every_seconds"] json
    let firstAt ← fields.required 1 asText
    let everySeconds ← fields.required 2 (asUnsigned 64)
    return .interval firstAt everySeconds
  | "next_session" => if tagOnly json then some .nextSession else none
  | "next_continuation" => if tagOnly json then some .nextContinuation else none
  | "goal_active" =>
    let fields ← structFields true ["type", "goal_id"] json
    let goalId ← fields.required 1 asText
    return .goalActive goalId
  | "condition" =>
    let fields ← structFields true
      ["type", "adapter", "parameters", "poll_interval_seconds", "manual_check_at"] json
    let adapter ← fields.required 1 asText
    let parameters ← fields.required 2 fun json => some (keep json)
    let pollIntervalSeconds ← fields.optional 3 (asUnsigned 64)
    let manualCheckAt ← fields.optional 4 asText
    return .condition adapter parameters pollIntervalSeconds manualCheckAt
  | _ => none

/-- `trigger` of `mcp/tools/mod.rs` -/
def TriggerInput.trigger : TriggerInput → Except DomainError Trigger
  | atTime at' => return .atTime (← parseTimestamp at')
  | afterElapsed afterSeconds => return .afterElapsed afterSeconds
  | interval firstAt everySeconds => return .interval (← parseTimestamp firstAt) everySeconds
  | nextSession => return .nextSession
  | nextContinuation => return .nextContinuation
  | goalActive goalId => return .goalActive goalId
  | condition adapter parameters pollIntervalSeconds manualCheckAt =>
    return .condition adapter parameters pollIntervalSeconds (← manualCheckAt.mapM parseTimestamp)

structure RecurrenceInput where
  everySeconds : Nat
  missedPolicy : MissedPolicy
  maxOccurrences : Option Nat
  endAt : Option String

def RecurrenceInput.read (json : Json) : Option RecurrenceInput := do
  let fields ← structFields true
    ["every_seconds", "missed_policy", "max_occurrences", "end_at"] json
  let everySeconds ← fields.required 0 (asUnsigned 64)
  let missedPolicy ← fields.defaulted 1 .coalesce (asUnit missedPolicyNames)
  let maxOccurrences ← fields.optional 2 (asUnsigned 64)
  let endAt ← fields.optional 3 asText
  return { everySeconds, missedPolicy, maxOccurrences, endAt }

def RecurrenceInput.recurrence (input : RecurrenceInput) : Except DomainError RecurrenceSpec :=
  return { everySeconds := input.everySeconds
           missedPolicy := input.missedPolicy
           maxOccurrences := input.maxOccurrences
           endAt := ← input.endAt.mapM parseTimestamp }

def readLink (json : Json) : Option LinkInput := do
  let fields ← structFields true ["type", "value"] json
  let linkType ← fields.required 0 (asUnit linkTypeNames)
  let value ← fields.required 1 asText
  return { linkType, value }

/-- The evidence of a completion, with its time as it was read. -/
structure EvidenceArguments (τ : Type) where
  evidenceType : EvidenceType
  summary : String
  referenceUri : Option String
  contentHash : Option String
  observedAt : τ
  metadata : Option Json

def EvidenceArguments.read {τ : Type} (keep : Json → Json) (instant : Json → Option τ)
    (json : Json) : Option (EvidenceArguments τ) := do
  let fields ← structFields true
    ["type", "summary", "reference_uri", "content_hash", "observed_at", "metadata"] json
  let evidenceType ← fields.required 0 (asUnit evidenceTypeNames)
  let summary ← fields.required 1 asText
  let referenceUri ← fields.optional 2 asText
  let contentHash ← fields.optional 3 asText
  let observedAt ← fields.required 4 instant
  let metadata ← fields.optional 5 fun json => some (keep json)
  return { evidenceType, summary, referenceUri, contentHash, observedAt, metadata }

def EvidenceArguments.evidence (input : EvidenceArguments OffsetDateTime) : EvidenceInput where
  evidenceType := input.evidenceType
  summary := input.summary
  referenceUri := input.referenceUri
  contentHash := input.contentHash
  observedAt := input.observedAt
  metadata := input.metadata
  source := .authenticatedActor

/-! ## Arguments -/

structure AddInput where
  projectId : String
  taskId : Option String
  message : String
  instructions : Option String
  priority : Priority
  trigger : TriggerInput
  recurrence : Option RecurrenceInput
  overdueAfterSeconds : Nat
  links : List LinkInput
  sessionId : Option String
  taskLineageId : Option String
  idempotencyKey : String

def AddInput.read (keep : Json → Json) (json : Json) : Option AddInput := do
  let fields ← structFields true
    ["project_id", "task_id", "message", "instructions", "priority", "trigger", "recurrence",
      "overdue_after_seconds", "links", "session_id", "task_lineage_id", "idempotency_key"] json
  let projectId ← fields.required 0 asText
  let taskId ← fields.optional 1 asText
  let message ← fields.required 2 asText
  let instructions ← fields.optional 3 asText
  let priority ← fields.defaulted 4 .normal (asUnit priorityNames)
  let trigger ← fields.required 5 (TriggerInput.read keep)
  let recurrence ← fields.optional 6 RecurrenceInput.read
  let overdueAfterSeconds ← fields.defaulted 7 0 (asUnsigned 64)
  let links ← fields.defaulted 8 [] (asList readLink)
  let sessionId ← fields.optional 9 asText
  let taskLineageId ← fields.optional 10 asText
  let idempotencyKey ← fields.required 11 asText
  return { projectId, taskId, message, instructions, priority, trigger, recurrence,
           overdueAfterSeconds, links, sessionId, taskLineageId, idempotencyKey }

inductive InputSemanticError where
  | recurrenceRequiresInterval
  | recurrenceIntervalMismatch
  | updateRequiresMutableField
deriving DecidableEq

def AddInput.validateSemantics (input : AddInput) : Except InputSemanticError Unit :=
  match input.trigger, input.recurrence with
  | .interval _ everySeconds, some recurrence =>
    if everySeconds = recurrence.everySeconds then .ok () else .error .recurrenceIntervalMismatch
  | _, none => .ok ()
  | _, some _ => .error .recurrenceRequiresInterval

/-- The request of the arguments, once their instants are read. -/
def AddInput.request (input : AddInput) : Except DomainError AddRequest :=
  return { projectId := input.projectId
           taskId := input.taskId
           message := input.message
           instructions := input.instructions
           priority := input.priority
           trigger := ← input.trigger.trigger
           recurrence := ← input.recurrence.mapM RecurrenceInput.recurrence
           overdueAfterSeconds := input.overdueAfterSeconds
           links := input.links
           sessionId := input.sessionId
           taskLineageId := input.taskLineageId
           idempotencyKey := input.idempotencyKey }

/-- The arguments of an update but for the item. -/
structure UpdateFields where
  expectedVersion : Nat
  message : Option String
  instructions : Option (Option String)
  priority : Option Priority
  trigger : Option TriggerInput
  recurrence : Option (Option RecurrenceInput)
  overdueAfterSeconds : Option Nat
  links : Option (List LinkInput)
  occurrenceDisposition : Option OccurrenceDisposition
  reason : String
  idempotencyKey : String

/-- A `Patch`: nothing where the member is missing. -/
def patch {α : Type} (fields : Fields) (i : Nat) (read : Json → Option α) :
    Option (Option (Option α)) :=
  fields.defaulted i none fun json => (asOption read json).map some

def updateNames : List String :=
  ["expected_version", "message", "instructions", "priority", "trigger", "recurrence",
    "overdue_after_seconds", "links", "occurrence_disposition", "reason", "idempotency_key"]

/-- The fields of an update from position `i` on. -/
def UpdateFields.read (keep : Json → Json) (fields : Fields) (i : Nat) : Option UpdateFields := do
  let expectedVersion ← fields.required i (asUnsigned 64)
  let message ← fields.optional (i + 1) asText
  let instructions ← patch fields (i + 2) asText
  let priority ← fields.optional (i + 3) (asUnit priorityNames)
  let trigger ← fields.optional (i + 4) (TriggerInput.read keep)
  let recurrence ← patch fields (i + 5) RecurrenceInput.read
  let overdueAfterSeconds ← fields.optional (i + 6) (asUnsigned 64)
  let links ← fields.optional (i + 7) (asList readLink)
  let occurrenceDisposition ← fields.optional (i + 8) (asUnit occurrenceDispositionNames)
  let reason ← fields.required (i + 9) asText
  let idempotencyKey ← fields.required (i + 10) asText
  return { expectedVersion, message, instructions, priority, trigger, recurrence,
           overdueAfterSeconds, links, occurrenceDisposition, reason, idempotencyKey }

def UpdateFields.validateSemantics (input : UpdateFields) : Except InputSemanticError Unit :=
  if input.message.isSome || input.instructions.isSome || input.priority.isSome ||
      input.trigger.isSome || input.recurrence.isSome || input.overdueAfterSeconds.isSome ||
      input.links.isSome || input.occurrenceDisposition.isSome then .ok ()
  else .error .updateRequiresMutableField

def UpdateFields.request (input : UpdateFields) (id : Uuid) : Except DomainError UpdateRequest :=
  return { remindiId := id
           expectedVersion := input.expectedVersion
           message := input.message
           instructions := input.instructions
           priority := input.priority
           recurrence := ← input.recurrence.mapM fun recurrence =>
             recurrence.mapM RecurrenceInput.recurrence
           trigger := ← input.trigger.mapM TriggerInput.trigger
           overdueAfterSeconds := input.overdueAfterSeconds
           links := input.links
           occurrenceDisposition := input.occurrenceDisposition
           reason := input.reason
           idempotencyKey := input.idempotencyKey }

/-- The arguments of a completion but for the item. -/
structure CompleteFields (τ : Type) where
  expectedVersion : Nat
  evidence : EvidenceArguments τ
  completionNote : Option String
  idempotencyKey : String

def completeNames : List String :=
  ["expected_version", "evidence", "completion_note", "idempotency_key"]

def CompleteFields.read {τ : Type} (keep : Json → Json) (instant : Json → Option τ)
    (fields : Fields) (i : Nat) : Option (CompleteFields τ) := do
  let expectedVersion ← fields.required i (asUnsigned 64)
  let evidence ← fields.required (i + 1) (EvidenceArguments.read keep instant)
  let completionNote ← fields.optional (i + 2) asText
  let idempotencyKey ← fields.required (i + 3) asText
  return { expectedVersion, evidence, completionNote, idempotencyKey }

def CompleteFields.request (input : CompleteFields OffsetDateTime) (id : Uuid) :
    CompleteRequest where
  remindiId := id
  expectedVersion := input.expectedVersion
  evidence := input.evidence.evidence
  completionNote := input.completionNote
  idempotencyKey := input.idempotencyKey

/-- The arguments of a snooze but for the item. -/
structure SnoozeFields (τ : Type) where
  expectedVersion : Nat
  snoozeUntil : τ
  reason : String
  idempotencyKey : String

def snoozeNames : List String := ["expected_version", "snooze_until", "reason", "idempotency_key"]

def SnoozeFields.read {τ : Type} (instant : Json → Option τ) (fields : Fields) (i : Nat) :
    Option (SnoozeFields τ) := do
  let expectedVersion ← fields.required i (asUnsigned 64)
  let snoozeUntil ← fields.required (i + 1) instant
  let reason ← fields.required (i + 2) asText
  let idempotencyKey ← fields.required (i + 3) asText
  return { expectedVersion, snoozeUntil, reason, idempotencyKey }

def SnoozeFields.request (input : SnoozeFields OffsetDateTime) (id : Uuid) : SnoozeRequest where
  remindiId := id
  expectedVersion := input.expectedVersion
  snoozeUntil := input.snoozeUntil
  reason := input.reason
  idempotencyKey := input.idempotencyKey

def cancelNames : List String := ["expected_version", "reason", "idempotency_key"]

/-- `CancelInput` has no part that has to be read further. -/
def readCancel (fields : Fields) (i : Nat) (id : Uuid) : Option CancelRequest := do
  let expectedVersion ← fields.required i (asUnsigned 64)
  let reason ← fields.required (i + 1) asText
  let idempotencyKey ← fields.required (i + 2) asText
  return { remindiId := id, expectedVersion, reason, idempotencyKey }

/-! ## The requests of the tools -/

inductive HandlerError where
  | validation
  | service (error : ServiceError)
  | serialization

/-- `parse` -/
def parse {α : Type} (read : Json → Option α) (json : Json) : Except HandlerError α :=
  match read json with
  | some input => .ok input
  | none => .error .validation

/-- `timestamp` and the conversions with one in them -/
def converted {α : Type} (result : Except DomainError α) : Except HandlerError α :=
  result.mapError fun _ => .validation

def semantics (result : Except InputSemanticError Unit) : Except HandlerError Unit :=
  result.mapError fun _ => .validation

/-- What `execute` hands to the service. -/
inductive ToolCall where
  | mutate (call : RemindiCore.Call)
  | check (request : CheckRequest)
  | list (request : ListRequest)
  | history (request : HistoryRequest)

/-- What the call does in a state of the system; reading changes nothing. -/
def ToolCall.perform (x : Externals) (ownerId : String) (actor : Actor) (env : Env) (s : System) :
    ToolCall → System × Response
  | .mutate call => step x s (.call ownerId actor call env)
  | .check request => step x s (.checkRead ownerId actor request env)
  | .list _ | .history _ => (s, .idle)

def addCall (arguments : Json) : Except HandlerError ToolCall := do
  let input ← parse (AddInput.read id) arguments
  semantics input.validateSemantics
  let request ← converted input.request
  return .mutate (.add request)

/-- The fields of the arguments that name an item. -/
def itemFields (names : List String) (arguments : Json) : Option (Uuid × Fields) := do
  let fields ← structFields true ("remindi_id" :: names) arguments
  let id ← fields.required 0 asUuid
  return (id, fields)

def updateCall (arguments : Json) : Except HandlerError ToolCall := do
  let (id, input) ← parse (fun arguments => do
    let (id, fields) ← itemFields updateNames arguments
    let input ← UpdateFields.read (fun json => json) fields 1
    return (id, input)) arguments
  semantics input.validateSemantics
  let request ← converted (input.request id)
  return .mutate (.update request)

/-- Five minutes, in nanoseconds. -/
def futureSkew : Nat := 300 * 1000000000

/-- A year, in nanoseconds. -/
def snoozeHorizon : Nat := 31536000 * 1000000000

def completeCall (arguments : Json) : Except HandlerError ToolCall := do
  let (id, input) ← parse (fun arguments => do
    let (id, fields) ← itemFields completeNames arguments
    let input ← CompleteFields.read (fun json => json) asText fields 1
    return (id, input)) arguments
  let observedAt ← converted (parseTimestamp input.evidence.observedAt)
  let evidence : EvidenceArguments OffsetDateTime :=
    { input.evidence with observedAt := observedAt }
  let fields : CompleteFields OffsetDateTime := { input with evidence := evidence }
  return .mutate (.complete (fields.request id) futureSkew)

def snoozeCall (arguments : Json) : Except HandlerError ToolCall := do
  let (id, input) ← parse (fun arguments => do
    let (id, fields) ← itemFields snoozeNames arguments
    let input ← SnoozeFields.read asText fields 1
    return (id, input)) arguments
  let snoozeUntil ← converted (parseTimestamp input.snoozeUntil)
  let fields : SnoozeFields OffsetDateTime := { input with snoozeUntil := snoozeUntil }
  return .mutate (.snooze (fields.request id) snoozeHorizon)

def cancelCall (arguments : Json) : Except HandlerError ToolCall := do
  let request ← parse (fun arguments => do
    let (id, fields) ← itemFields cancelNames arguments
    readCancel fields 1 id) arguments
  return .mutate (.cancel request)

/-- `evaluate_conditions` is read and not used. -/
def checkCall (arguments : Json) : Except HandlerError ToolCall := do
  let request ← parse (fun arguments => do
    let fields ← structFields true
      ["project_id", "task_id", "session_id", "task_lineage_id", "lifecycle_event",
        "active_goal_ids", "include_scheduled", "evaluate_conditions", "limit", "cursor"] arguments
    let projectId ← fields.required 0 asText
    let taskId ← fields.optional 1 asText
    let sessionId ← fields.optional 2 asText
    let taskLineageId ← fields.optional 3 asText
    let lifecycleEvent ← fields.required 4 (asUnit lifecycleEventNames)
    let activeGoalIds ← fields.defaulted 5 [] (asList asText)
    let includeScheduled ← fields.defaulted 6 false asBool
    let _ ← fields.defaulted 7 true asBool
    let limit ← fields.defaulted 8 50 (asUnsigned 16)
    let cursor ← fields.optional 9 asText
    let request : CheckRequest :=
      { projectId, taskId, sessionId, taskLineageId, lifecycleEvent, activeGoalIds,
        includeScheduled, limit, cursor }
    return request) arguments
  return .check request

def listCall (arguments : Json) : Except HandlerError ToolCall := do
  let request ← parse (fun arguments => do
    let fields ← structFields true
      ["project_id", "task_id", "states", "trigger_types", "linked_goal_id", "linked_memory_hash",
        "limit", "cursor"] arguments
    let projectId ← fields.optional 0 asText
    let taskId ← fields.optional 1 asText
    let states ← fields.defaulted 2 [] (asList (asUnit remindiStateNames))
    let triggerTypes ← fields.defaulted 3 [] (asList (asUnit triggerTypeNames))
    let linkedGoalId ← fields.optional 4 asText
    let linkedMemoryHash ← fields.optional 5 asText
    let limit ← fields.defaulted 6 50 (asUnsigned 16)
    let cursor ← fields.optional 7 asText
    let request : ListRequest :=
      { projectId, taskId, states, triggerTypes, linkedGoalId, linkedMemoryHash, limit, cursor }
    return request) arguments
  return .list request

def historyCall (arguments : Json) : Except HandlerError ToolCall := do
  let (request, afterSequence) ← parse (fun arguments => do
    let (id, fields) ← itemFields ["after_sequence", "event_types", "limit", "cursor"] arguments
    let afterSequence ← fields.optional 1 (asUnsigned 64)
    let eventTypes ← fields.defaulted 2 [] (asList (asUnit eventTypeNames))
    let limit ← fields.defaulted 3 100 (asUnsigned 16)
    let cursor ← fields.optional 4 asText
    let request : HistoryRequest :=
      { remindiId := id, afterSequence := afterSequence.map Int.ofNat, eventTypes, limit, cursor }
    return (request, afterSequence)) arguments
  if afterSequence.any (2 ^ 63 ≤ ·) then .error .validation
  return .history request

/-- `execute` up to the call of the service. -/
def toolCall (name : String) (arguments : Json) : Except HandlerError ToolCall :=
  match name with
  | "remindi_add" => addCall arguments
  | "remindi_check" => checkCall arguments
  | "remindi_complete" => completeCall arguments
  | "remindi_snooze" => snoozeCall arguments
  | "remindi_update" => updateCall arguments
  | "remindi_list" => listCall arguments
  | "remindi_cancel" => cancelCall arguments
  | "remindi_history" => historyCall arguments
  | _ => .error .validation

end RemindiCore.Mcp
