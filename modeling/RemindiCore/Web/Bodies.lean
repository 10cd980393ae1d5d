import RemindiCore.Mcp.Schemas

/-!
# The bodies of the Web interface

The bodies of the operations of `http/api/remindi.rs`, read from the text of the request: a
free JSON value is built in memory (`toValue`), and the times of evidence and of a snooze are
read by `time::serde::rfc3339`, which keeps their offset.
-/

namespace RemindiCore.Web

open CivilTime JsonText Serde Mcp

/-- `time::serde::rfc3339` -/
def asRfc3339 (json : Json) : Option OffsetDateTime := (asText json).bind parseRfc3339

/-- The operations that change something, with the item of their path. -/
inductive Route where
  | add
  | check
  | update (id : Uuid)
  | complete (id : Uuid)
  | snooze (id : Uuid)
  | cancel (id : Uuid)

inductive Body where
  | add (body : AddInput)
  | check (request : CheckRequest)
  | update (id : Uuid) (body : UpdateFields)
  | complete (id : Uuid) (body : CompleteFields OffsetDateTime)
  | snooze (id : Uuid) (body : SnoozeFields OffsetDateTime)
  | cancel (request : CancelRequest)

def readCheckBody (json : Json) : Option CheckRequest := do
  let fields ← structFields true
    ["project_id", "task_id", "session_id", "task_lineage_id", "lifecycle_event",
      "active_goal_ids", "include_scheduled", "limit", "cursor"] json
  let projectId ← fields.required 0 asText
  let taskId ← fields.optional 1 asText
  let sessionId ← fields.optional 2 asText
  let taskLineageId ← fields.optional 3 asText
  let lifecycleEvent ← fields.required 4 (asUnit lifecycleEventNames)
  let activeGoalIds ← fields.defaulted 5 [] (asList asText)
  let includeScheduled ← fields.defaulted 6 false asBool
  let limit ← fields.defaulted 7 50 (asUnsigned 64)
  let cursor ← fields.optional 8 asText
  return { projectId, taskId, sessionId, taskLineageId, lifecycleEvent, activeGoalIds,
           includeScheduled, limit, cursor }

/-- The extractor in front of a handler; without a body the request goes no further. -/
def Route.read (route : Route) (json : Json) : Option Body :=
  match route with
  | .add => (AddInput.read toValue json).map .add
  | .check => (readCheckBody json).map .check
  | .update id => do
    let fields ← structFields true updateNames json
    let body ← UpdateFields.read toValue fields 0
    return .update id body
  | .complete id => do
    let fields ← structFields true completeNames json
    let body ← CompleteFields.read toValue asRfc3339 fields 0
    return .complete id body
  | .snooze id => do
    let fields ← structFields true snoozeNames json
    let body ← SnoozeFields.read asRfc3339 fields 0
    return .snooze id body
  | .cancel id => do
    let fields ← structFields true cancelNames json
    let request ← readCancel fields 0 id
    return .cancel request

/-- `into_domain` and the request around it -/
def Body.call : Body → Except ServiceError ToolCall
  | .add body => return .mutate (.add (← body.request.mapError fun _ => .validation))
  | .check request => return .check request
  | .update id body => return .mutate (.update (← (body.request id).mapError fun _ => .validation))
  | .complete id body => return .mutate (.complete (body.request id) futureSkew)
  | .snooze id body => return .mutate (.snooze (body.request id) snoozeHorizon)
  | .cancel request => return .mutate (.cancel request)

end RemindiCore.Web
