import RemindiCore.Domain.StateMachine

/-!
# Evaluation of an item

`evaluate` (`triggers/evaluator.rs`) decides whether an item is ready and moves
it between scheduled, due, overdue and snoozed.  `Evaluation` lists what a
success can be, one constructor for each way through the code, and
`evaluate_ok` says that there is nothing else.
-/

namespace RemindiCore

open CivilTime JsonText

/-- Lifecycle context of the caller. -/
structure CheckContext where
  sessionId : Option String
  taskLineageId : Option String
  lifecycleEvent : LifecycleEvent
  activeGoalIds : List String

/-- The adapter's answer, or that none was asked. -/
inductive ConditionEvaluation where
  | notEvaluated | satisfied | unsatisfied | unknown | error
deriving DecidableEq

def ConditionEvaluation.status : ConditionEvaluation → Option ConditionStatus
  | notEvaluated => none
  | satisfied => some .satisfied
  | unsatisfied => some .unsatisfied
  | unknown => some .unknown
  | error => some .error

structure EvaluationResult where
  readiness : Option Readiness
  events : List EventType
deriving DecidableEq

def ready (readiness : Readiness) (events : List EventType) : EvaluationResult :=
  { readiness := some readiness, events := events }

def nonempty (value : Option String) : Bool := value.any (· ≠ "")

/-- `i64::MAX`. -/
def i64Max : Nat := 9223372036854775807

namespace Remindi

/-! ## Snoozed and due items -/

def evaluateSnooze (r : Remindi) (now : OffsetDateTime) :
    Except DomainError (Remindi × EvaluationResult) :=
  match r.snoozeUntil with
  | none => .error .snoozeRequiresReadyState
  | some deadline =>
    if now.utc < deadline.utc then .ok (r, { readiness := none, events := [] })
    else
      let grace := min r.overdueAfterSeconds i64Max
      let overdue := r.dueSince.any fun dueSince => (dueSince.addSeconds grace).utc ≤ now.utc
      .ok ({ r.clearSnooze with
          state := if overdue then .overdue else .due
          updatedAt := now
          version := r.version + 1 },
        ready (if overdue then .overdue else .due) [if overdue then .becameOverdue else .becameDue])

def evaluateDue (r : Remindi) (now : OffsetDateTime) (events : List EventType) :
    Remindi × EvaluationResult :=
  match r.dueSince with
  | none => (r, ready .due events)
  | some dueSince =>
    let grace := min r.overdueAfterSeconds i64Max
    if (dueSince.addSeconds grace).utc ≤ now.utc then
      ({ r with state := .overdue, updatedAt := now, version := r.version + 1 },
        ready .overdue (events ++ [.becameOverdue]))
    else (r, ready .due events)

/-! ## Scheduled items -/

/-- Whether the trigger is satisfied, the readiness it gives, and the events
so far; a condition trigger records the adapter's answer and its next poll. -/
def triggerSatisfaction (r : Remindi) (now : OffsetDateTime) (context : CheckContext)
    (condition : ConditionEvaluation) :
    Except DomainError (Remindi × Bool × Readiness × List EventType) :=
  match r.trigger with
  | .atTime _ | .afterElapsed _ | .interval _ _ =>
    .ok (r, r.nextFireAt.any (fun anchor => anchor.utc ≤ now.utc), .due, [])
  | .nextSession =>
    .ok (r, nonempty context.sessionId && context.sessionId != r.sourceSessionId, .due, [])
  | .nextContinuation =>
    .ok (r, context.lifecycleEvent = .continuation && nonempty context.sessionId &&
      context.sessionId != r.sourceSessionId &&
      context.taskLineageId == r.sourceTaskLineageId && r.sourceTaskLineageId.isSome, .due, [])
  | .goalActive goalId => .ok (r, context.activeGoalIds.contains goalId, .due, [])
  | .condition _ parameters pollIntervalSeconds manualCheckAt =>
    if !parameters.isObject then .error .conditionParametersMustBeObject
    else
      let evaluated := condition ≠ .notEvaluated
      let manual := condition ≠ .satisfied && manualCheckAt.any (·.utc ≤ now.utc)
      let poll := pollIntervalSeconds.getD 30
      let seconds := if poll ≤ i64Max then poll else 86400
      let nextEvaluationAt :=
        if evaluated then
          if condition = .satisfied ∨ manual then none else some (now.addSeconds seconds)
        else if manual then none
        else r.nextEvaluationAt
      .ok ({ r with lastConditionStatus := condition.status, nextEvaluationAt := nextEvaluationAt },
        condition = .satisfied || manual, if manual then .manualVerification else .due,
        if evaluated then [.conditionEvaluated] else [])

/-! ## Evaluation -/

def checkedAt (r : Remindi) (now : OffsetDateTime) : Remindi := { r with lastCheckedAt := some now }

/-- Evaluates an item without completing it or advancing its occurrence. -/
def evaluate (r : Remindi) (now : OffsetDateTime) (context : CheckContext)
    (condition : ConditionEvaluation) : Except DomainError (Remindi × EvaluationResult) :=
  match r.state with
  | .completed | .cancelled => .error .terminalState
  | .snoozed => evaluateSnooze (r.checkedAt now) now
  | .overdue => .ok (r.checkedAt now, ready .overdue [])
  | .due => .ok (evaluateDue (r.checkedAt now) now [])
  | .scheduled =>
    match triggerSatisfaction (r.checkedAt now) now context condition with
    | .error e => .error e
    | .ok (r, satisfied, readiness, events) =>
      if satisfied then
        .ok ({ r with state := .due, dueSince := some now, updatedAt := now, version := r.version + 1 },
          ready readiness (events ++ [.becameDue]))
      else .ok (r, { readiness := none, events := events })

/-! ## What an evaluation can be -/

/-- What asking the trigger leaves behind: for a condition the answer and the
next poll, for every other trigger nothing. -/
structure Observation (r : Remindi) (now : OffsetDateTime) (condition : ConditionEvaluation)
    (observed : Remindi) (satisfied : Bool) (events : List EventType) : Prop where
  only : observed = { r with
    lastConditionStatus := observed.lastConditionStatus
    nextEvaluationAt := observed.nextEvaluationAt }
  polled : satisfied = false → observed.nextEvaluationAt = r.nextEvaluationAt ∨
    observed.nextEvaluationAt.isSome = true
  plain : r.trigger.isCondition = false → observed = r
  reached : r.trigger.isTimed = true → satisfied = true →
    ∃ anchor, r.nextFireAt = some anchor ∧ anchor.utc ≤ now.utc
  events : events = [] ∨ condition ≠ .notEvaluated ∧ events = [.conditionEvaluated]

variable {r observed : Remindi} {now : OffsetDateTime} {context : CheckContext}
  {condition : ConditionEvaluation} {satisfied : Bool} {readiness : Readiness}
  {events : List EventType}

theorem reached_of_any (h : r.nextFireAt.any (fun anchor => anchor.utc ≤ now.utc) = true) :
    ∃ anchor, r.nextFireAt = some anchor ∧ anchor.utc ≤ now.utc := by
  cases hfire : r.nextFireAt with
  | none =>
    rw [hfire] at h
    cases h
  | some anchor =>
    rw [hfire] at h
    exact ⟨anchor, rfl, by simpa using h⟩

theorem triggerSatisfaction_ok
    (h : r.triggerSatisfaction now context condition = .ok (observed, satisfied, readiness, events)) :
    Observation r now condition observed satisfied events := by
  unfold triggerSatisfaction at h
  cases htrigger : r.trigger with
  | condition adapter parameters poll manualCheckAt =>
    simp only [htrigger] at h
    split at h
    · cases h
    · cases h
      refine ⟨by simp only [htrigger], fun hsat => ?_, ?_, ?_, ?_⟩
      · -- an unsatisfied condition is asked again
        obtain ⟨hc, hmanual⟩ := Bool.or_eq_false_iff.mp hsat
        rw [decide_eq_false_iff_not] at hc
        dsimp only
        rw [hmanual]
        split
        · exact Or.inr (by simp [hc])
        · exact Or.inl (by simp)
      · simp [htrigger, Trigger.isCondition]
      · simp [htrigger, Trigger.isTimed]
      · by_cases hc : condition = .notEvaluated <;> simp [hc]
  | atTime | afterElapsed | interval =>
    simp only [htrigger] at h
    cases h
    exact ⟨rfl, fun _ => Or.inl rfl, fun _ => rfl, fun _ => reached_of_any, Or.inl rfl⟩
  | nextSession | nextContinuation | goalActive =>
    simp only [htrigger] at h
    cases h
    refine ⟨rfl, fun _ => Or.inl rfl, fun _ => rfl, ?_, Or.inl rfl⟩
    simp [htrigger, Trigger.isTimed]

/-- The ways through `evaluate`. -/
inductive Evaluation (r : Remindi) (now : OffsetDateTime) (condition : ConditionEvaluation) :
    Remindi → EvaluationResult → Prop
  | asleep (hstate : r.state = .snoozed) :
      Evaluation r now condition (r.checkedAt now) { readiness := none, events := [] }
  | awoken (hstate : r.state = .snoozed) (overdue : Bool) :
      Evaluation r now condition
        { (r.checkedAt now).clearSnooze with
          state := if overdue then .overdue else .due
          updatedAt := now
          version := r.version + 1 }
        (ready (if overdue then .overdue else .due)
          [if overdue then .becameOverdue else .becameDue])
  | stays (hstate : r.state = .due ∨ r.state = .overdue) (readiness : Readiness) :
      Evaluation r now condition (r.checkedAt now) (ready readiness [])
  | becomesOverdue (hstate : r.state = .due) :
      Evaluation r now condition
        { r.checkedAt now with state := .overdue, updatedAt := now, version := r.version + 1 }
        (ready .overdue [.becameOverdue])
  | waits (hstate : r.state = .scheduled) {observed : Remindi} {events : List EventType}
      (observation : Observation (r.checkedAt now) now condition observed false events) :
      Evaluation r now condition observed { readiness := none, events := events }
  | becomesDue (hstate : r.state = .scheduled) {observed : Remindi} {events : List EventType}
      (observation : Observation (r.checkedAt now) now condition observed true events)
      (readiness : Readiness) :
      Evaluation r now condition
        { observed with
          state := .due
          dueSince := some now
          updatedAt := now
          version := observed.version + 1 }
        (ready readiness (events ++ [.becameDue]))

/-- **An evaluation that succeeds is one of these.** -/
theorem evaluate_ok {r' : Remindi} {result : EvaluationResult}
    (h : r.evaluate now context condition = .ok (r', result)) :
    Evaluation r now condition r' result := by
  unfold evaluate at h
  split at h
  · cases h
  · cases h
  · next hstate =>
    unfold evaluateSnooze at h
    split at h
    · cases h
    · dsimp only at h
      split at h
      · cases h
        exact .asleep hstate
      · cases h
        exact .awoken hstate _
  · next hstate =>
    cases h
    exact .stays (Or.inr hstate) .overdue
  · next hstate =>
    unfold evaluateDue at h
    split at h
    · cases h
      exact .stays (Or.inl hstate) .due
    · dsimp only at h
      split at h
      · cases h
        exact .becomesOverdue hstate
      · cases h
        exact .stays (Or.inl hstate) .due
  · next hstate =>
    split at h
    · cases h
    · next hsatisfaction =>
      have observation := triggerSatisfaction_ok hsatisfaction
      split at h
      · next hsat =>
        cases h
        rw [hsat] at observation
        exact .becomesDue hstate observation _
      · next hsat =>
        cases h
        rw [Bool.not_eq_true] at hsat
        rw [hsat] at observation
        exact .waits hstate observation

end Remindi

end RemindiCore
