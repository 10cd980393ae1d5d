import RemindiCore.Service.Operations
import RemindiCore.Service.Check
import RemindiCore.Lib.Machine
import Mathlib.Algebra.GroupWithZero.Nat

/-!
# The service as a system

One store and the work in flight over it: checks between their read and their
transaction, scheduler polls with candidates still to apply.  A label is one
step of one caller; any caller may take its next step at any time, so a run is
an interleaving at the granularity of transactions, and what a check or a poll
persists may rest on rows read long before.  Each step has its own clock
readings, fresh identifiers and database failures.
-/

namespace RemindiCore

open CivilTime Transaction Machine

/-- A call of one of the five mutating tools. -/
inductive Call where
  | add (request : AddRequest)
  | complete (request : CompleteRequest) (maximumFutureSkew : Nat)
  | snooze (request : SnoozeRequest) (maximumHorizon : Nat)
  | cancel (request : CancelRequest)
  | update (request : UpdateRequest)

namespace Call

def toolName : Call → String
  | add _ => "remindi_add"
  | complete _ _ => "remindi_complete"
  | snooze _ _ => "remindi_snooze"
  | cancel _ => "remindi_cancel"
  | update _ => "remindi_update"

def idempotencyKey : Call → String
  | add request => request.idempotencyKey
  | complete request _ => request.idempotencyKey
  | snooze request _ => request.idempotencyKey
  | cancel request => request.idempotencyKey
  | update request => request.idempotencyKey

/-- The item a call is about and the version its caller has read. -/
def target : Call → Option (Uuid × Nat)
  | add _ => none
  | complete request _ => some (request.remindiId, request.expectedVersion)
  | snooze request _ => some (request.remindiId, request.expectedVersion)
  | cancel request => some (request.remindiId, request.expectedVersion)
  | update request => some (request.remindiId, request.expectedVersion)

end Call

def RemindiService.perform (service : RemindiService) (actor : Actor) : Call → Tx MutationResult
  | .add request => service.add actor request
  | .complete request maximumFutureSkew => service.complete actor request maximumFutureSkew
  | .snooze request maximumHorizon => service.snooze actor request maximumHorizon
  | .cancel request => service.cancel actor request
  | .update request => service.update actor request

/-- A scheduler poll and the candidates it has still to apply. -/
structure PendingPoll where
  service : RemindiService
  actor : Actor
  now : OffsetDateTime
  candidates : List Remindi

structure System where
  db : Db
  checks : List RemindiService.PendingCheck
  polls : List PendingPoll

def System.start : System where
  db := .empty
  checks := []
  polls := []

inductive Label where
  | call (ownerId : String) (actor : Actor) (call : Call) (env : Env)
  | checkRead (ownerId : String) (actor : Actor) (request : CheckRequest) (env : Env)
  | checkPersist (index : Nat) (env : Env)
  | pollRead (ownerId : String) (actor : Actor) (limit : Nat) (env : Env)
  | pollApply (index : Nat) (adapters : RemindiService.AdapterProvider) (env : Env)

inductive Response where
  | mutation (result : Except ServiceError MutationResult)
  | check (result : Except ServiceError CheckResult)
  | poll (result : Except ServiceError Unit)
  | reading
  | idle

def step (x : Externals) (s : System) : Label → System × Response
  | .call ownerId actor call env =>
    let service : RemindiService := { externals := x, ownerId := ownerId }
    let (result, db) := (service.perform actor call).run env s.db
    ({ s with db := db }, .mutation result)
  | .checkRead ownerId actor request env =>
    let service : RemindiService := { externals := x, ownerId := ownerId }
    match (service.checkRead actor request).run env s.db with
    | (.error e, _) => (s, .check (.error e))
    | (.ok pending, _) =>
      if pending.settled then
        (s, .check (.ok (pending.result (pending.ready.map fun item => item.unchanged))))
      else ({ s with checks := s.checks ++ [pending] }, .reading)
  | .checkPersist index env =>
    match s.checks[index]? with
    | none => (s, .idle)
    | some pending =>
      let (result, db) := (RemindiService.checkPersist pending).run env s.db
      ({ s with db := db, checks := s.checks.eraseIdx index }, .check result)
  | .pollRead ownerId actor limit env =>
    let service : RemindiService := { externals := x, ownerId := ownerId }
    match (service.schedulerCandidates limit).run env s.db with
    | (.error e, _) => (s, .poll (.error e))
    | (.ok (now, candidates), _) =>
      let poll : PendingPoll :=
        { service := service, actor := actor, now := now, candidates := candidates }
      ({ s with polls := s.polls ++ [poll] }, .reading)
  | .pollApply index adapters env =>
    match s.polls[index]? with
    | none => (s, .idle)
    | some poll =>
      match poll.candidates with
      | [] => ({ s with polls := s.polls.eraseIdx index }, .idle)
      | candidate :: rest =>
        let (result, db) := (poll.service.applySchedulerEvaluation poll.actor candidate poll.now
          adapters).run env s.db
        ({ s with db := db, polls := s.polls.set index { poll with candidates := rest } },
          .poll result)

abbrev StepRecord := Entry System Label Response

/-- The run of a list of labels from an empty store. -/
def runOf (x : Externals) (labels : List Label) : System := final (step x) .start labels

def historyOf (x : Externals) (labels : List Label) : List StepRecord :=
  history (step x) .start labels

/-! ## A sample service -/

namespace Sample

instance tenIdentifiers : NeZero 10 := ⟨by decide⟩

/-- Ten identifiers. -/
def uuid (digit : Fin 10) : Uuid where
  text := "00000000-0000-4000-8000-00000000000" ++ toString digit.val
  wellFormed := by
    revert digit
    decide +kernel

/-- A digest without collisions, cursors that are never accepted, and numbers that
are read as they were written. -/
def externals : Externals where
  sha256 := id
  encodeCursor := fun cursor => cursor.id
  decodeCursor := fun _ => none
  readNumber := id

def agent : Actor where
  actorType := .agent
  actorId := "agent"
  requestId := none

def second (n : Int) : OffsetDateTime := { utc := n * secondNanos, offset := 0 }

/-- One clock reading, one identifier, no failures. -/
def env (now : Int) (digit : Fin 10) : Env where
  clock := fun _ => second now
  ids := fun _ => uuid digit
  fault := fun _ => none

def call (call : Call) (now : Int) (digit : Fin 10) : Label :=
  .call "owner" agent call (env now digit)

/-- A reminder with an interval trigger: every minute from second 1000 on. -/
def everyMinute : AddRequest where
  projectId := "project"
  taskId := none
  message := "message"
  instructions := none
  priority := .normal
  trigger := .interval (second 1000) 60
  recurrence := some
    { everySeconds := 60, missedPolicy := .coalesce, maxOccurrences := none, endAt := none }
  overdueAfterSeconds := 600
  links := []
  sessionId := none
  taskLineageId := none
  idempotencyKey := "add-0001"

/-- An update that changes nothing yet. -/
def update (version : Nat) (key : String) : UpdateRequest where
  remindiId := uuid 0
  expectedVersion := version
  message := none
  instructions := none
  priority := none
  trigger := none
  recurrence := none
  overdueAfterSeconds := none
  links := none
  occurrenceDisposition := none
  reason := "reason"
  idempotencyKey := key

/-- A check of the project, one item a page. -/
def checkRequest : CheckRequest where
  projectId := "project"
  taskId := none
  sessionId := none
  taskLineageId := none
  lifecycleEvent := .checkpoint
  activeGoalIds := []
  includeScheduled := false
  limit := 1
  cursor := none

def pollRead (now : Int) : Label := .pollRead "owner" agent 10 (env now 9)

/-- No adapters are configured. -/
def pollApply (now : Int) (digit : Fin 10) : Label :=
  .pollApply 0 (fun _ => none) (env now digit)

end Sample

end RemindiCore
