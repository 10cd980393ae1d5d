import RemindiCore.Proof.Selection

/-!
# Evaluations converge

Whatever the clock shows, an evaluation of an active item succeeds, keeps its
schedule and never takes it back to scheduled.  At one clock reading an item
settles with its second evaluation: a due or overdue item at once (`OneStep`),
and the first evaluation of any other item leads there or changes nothing
(`evaluations_converge`).
-/

namespace RemindiCore

open CivilTime JsonText

/-! ## Successive evaluations -/

/-- What one evaluation is given. -/
structure EvaluationInput where
  now : OffsetDateTime
  context : CheckContext
  condition : ConditionEvaluation

namespace Remindi

/-- One evaluation after the other, with what they return. -/
def evaluateAll (r : Remindi) : List EvaluationInput → Except DomainError (Remindi × List EvaluationResult)
  | [] => .ok (r, [])
  | reading :: readings => do
    let (next, result) ← r.evaluate reading.now reading.context reading.condition
    let (last, results) ← next.evaluateAll readings
    .ok (last, result :: results)

/-- An active item that satisfies the invariant of the stored items. -/
structure Evaluable (r : Remindi) : Prop where
  coherent : Coherent r
  valid : r.trigger.validate = .ok ()
  active : r.state.isActive = true

/-- What no evaluation changes. -/
structure SameOccurrence (r r' : Remindi) : Prop where
  nextFireAt : r'.nextFireAt = r.nextFireAt
  originalNextFireAt : r'.originalNextFireAt = r.originalNextFireAt
  occurrenceNo : r'.occurrenceNo = r.occurrenceNo
  trigger : r'.trigger = r.trigger
  recurrence : r'.recurrence = r.recurrence
  snoozeCount : r'.snoozeCount = r.snoozeCount

section

variable {r r' : Remindi} {now : OffsetDateTime} {context : CheckContext}
  {condition : ConditionEvaluation} {result : EvaluationResult}

theorem SameOccurrence.refl (r : Remindi) : SameOccurrence r r := ⟨rfl, rfl, rfl, rfl, rfl, rfl⟩

theorem SameOccurrence.trans {r'' : Remindi} (h : SameOccurrence r r')
    (h' : SameOccurrence r' r'') : SameOccurrence r r'' where
  nextFireAt := h'.nextFireAt.trans h.nextFireAt
  originalNextFireAt := h'.originalNextFireAt.trans h.originalNextFireAt
  occurrenceNo := h'.occurrenceNo.trans h.occurrenceNo
  trigger := h'.trigger.trans h.trigger
  recurrence := h'.recurrence.trans h.recurrence
  snoozeCount := h'.snoozeCount.trans h.snoozeCount

theorem Observation.sameOccurrence {observed : Remindi} {satisfied : Bool} {events : List EventType}
    (h : r.Observation now condition observed satisfied events) : SameOccurrence r observed := by
  rw [h.only]
  exact ⟨rfl, rfl, rfl, rfl, rfl, rfl⟩

theorem Evaluation.sameOccurrence (h : r.Evaluation now condition r' result) :
    SameOccurrence r r' := by
  cases h with
  | waits hstate observation =>
    exact (⟨rfl, rfl, rfl, rfl, rfl, rfl⟩ : SameOccurrence r (r.checkedAt now)).trans
      observation.sameOccurrence
  | becomesDue hstate observation readiness =>
    have h := observation.sameOccurrence
    exact ⟨h.nextFireAt, h.originalNextFireAt, h.occurrenceNo, h.trigger, h.recurrence,
      h.snoozeCount⟩
  | _ => exact ⟨rfl, rfl, rfl, rfl, rfl, rfl⟩

/-- The version counts the changes of the state; no change leads back to scheduled. -/
theorem Evaluation.state (h : r.Evaluation now condition r' result) :
    r'.version = r.version + (if r'.state = r.state then 0 else 1) ∧
      (r.state ≠ .scheduled → r'.state ≠ .scheduled) ∧ r'.state.isActive = true := by
  cases h with
  | asleep hstate =>
    refine ⟨(if_pos rfl).symm ▸ rfl, fun hne => hne, ?_⟩
    show r.state.isActive = true
    rw [hstate]
    rfl
  | stays hstate readiness =>
    refine ⟨(if_pos rfl).symm ▸ rfl, fun hne => hne, ?_⟩
    show r.state.isActive = true
    rcases hstate with hstate | hstate <;> rw [hstate] <;> rfl
  | awoken hstate overdue =>
    cases overdue <;> simp [hstate, RemindiState.isActive]
  | becomesOverdue hstate => simp [hstate, RemindiState.isActive]
  | waits hstate observation =>
    rw [observation.only]
    refine ⟨(if_pos rfl).symm ▸ rfl, fun hne => hne, ?_⟩
    show r.state.isActive = true
    rw [hstate]
    rfl
  | @becomesDue hstate observed events observation readiness =>
    refine ⟨?_, fun hne => absurd hstate hne, rfl⟩
    show observed.version + 1 = r.version + (if RemindiState.due = r.state then 0 else 1)
    rw [observation.only, hstate]
    rfl

theorem Evaluable.evaluation (h : r.Evaluable) (hop : r.Evaluation now condition r' result) :
    r'.Evaluable where
  coherent := h.coherent.evaluation hop
  valid := hop.sameOccurrence.trigger ▸ h.valid
  active := hop.state.2.2

/-- **An evaluation of an active item succeeds.** -/
theorem Evaluable.evaluate (h : r.Evaluable) (now : OffsetDateTime) (context : CheckContext)
    (condition : ConditionEvaluation) :
    ∃ r' result, r.evaluate now context condition = .ok (r', result) := by
  unfold Remindi.evaluate
  cases hstate : r.state with
  | completed | cancelled =>
    have hactive := h.active
    rw [hstate] at hactive
    cases hactive
  | overdue => exact ⟨_, _, rfl⟩
  | due => exact ⟨_, _, rfl⟩
  | snoozed =>
    obtain ⟨deadline, hdeadline⟩ :=
      Option.isSome_iff_exists.mp (h.coherent.snoozeUntil.mpr hstate)
    simp only [evaluateSnooze]
    rw [show (r.checkedAt now).snoozeUntil = some deadline from hdeadline]
    dsimp only
    split
    · exact ⟨_, _, rfl⟩
    · exact ⟨_, _, rfl⟩
  | scheduled =>
    have hsatisfaction : ∃ answer,
        (r.checkedAt now).triggerSatisfaction now context condition = .ok answer := by
      unfold triggerSatisfaction
      rw [show (r.checkedAt now).trigger = r.trigger from rfl]
      cases htrigger : r.trigger with
      | condition adapter parameters poll manualCheckAt =>
        obtain ⟨hobject, -⟩ := poll_ahead (htrigger ▸ h.valid)
        simp only [hobject]
        exact ⟨_, rfl⟩
      | _ => exact ⟨_, rfl⟩
    obtain ⟨⟨observed, satisfied, readiness, events⟩, hsatisfaction⟩ := hsatisfaction
    simp only [hsatisfaction]
    split
    · exact ⟨_, _, rfl⟩
    · exact ⟨_, _, rfl⟩

/-- **The run lemma.**  Every run of evaluations succeeds and keeps the occurrence. -/
theorem Evaluable.evaluateAll (h : r.Evaluable) (readings : List EvaluationInput) :
    ∃ r' results, r.evaluateAll readings = .ok (r', results) ∧ r'.Evaluable ∧
      SameOccurrence r r' ∧ (r.state ≠ .scheduled → r'.state ≠ .scheduled) := by
  induction readings generalizing r with
  | nil => exact ⟨r, [], rfl, h, .refl r, fun hne => hne⟩
  | cons reading readings ih =>
    obtain ⟨next, result, hnext⟩ := h.evaluate reading.now reading.context reading.condition
    have hop := evaluate_ok hnext
    obtain ⟨last, results, hlast, hevaluable, hsame, hstate⟩ := ih (h.evaluation hop)
    refine ⟨last, result :: results, ?_, hevaluable, hop.sameOccurrence.trans hsame,
      fun hne => hstate (hop.state.2.1 hne)⟩
    unfold Remindi.evaluateAll
    rw [hnext]
    show (next.evaluateAll readings).bind _ = _
    rw [hlast]
    rfl

/-! ## Settling at one clock reading -/

/-- An evaluation without an answer changes nothing and is no event. -/
def Settled (r : Remindi) (now : OffsetDateTime) (context : CheckContext)
    (readiness : Option Readiness) : Prop :=
  r.evaluate now context .notEvaluated = .ok (r, { readiness := readiness, events := [] })

/-- The item has settled after one evaluation. -/
def OneStep (r : Remindi) (now : OffsetDateTime) (context : CheckContext) : Prop :=
  ∃ r' result, r.evaluate now context .notEvaluated = .ok (r', result) ∧
    r'.Settled now context result.readiness

/-- An evaluation writes its clock reading first. -/
theorem evaluate_checkedAt (r : Remindi) (now : OffsetDateTime) (context : CheckContext)
    (condition : ConditionEvaluation) :
    (r.checkedAt now).evaluate now context condition = r.evaluate now context condition := rfl

/-- An evaluation that only writes its clock reading has settled the item. -/
theorem oneStep_of_checkedAt {e : Option Readiness}
    (h : r.evaluate now context .notEvaluated =
      .ok (r.checkedAt now, { readiness := e, events := [] })) :
    r.OneStep now context :=
  ⟨_, _, h, (evaluate_checkedAt r now context .notEvaluated).trans h⟩

theorem oneStep_overdue (h : r.state = .overdue) : r.OneStep now context := by
  apply oneStep_of_checkedAt (e := some .overdue)
  unfold Remindi.evaluate
  rw [h]
  rfl

theorem evaluateDue_reached {dueSince : OffsetDateTime} {events : List EventType}
    (hdue : r.dueSince = some dueSince)
    (h : (dueSince.addSeconds (min r.overdueAfterSeconds i64Max : Nat)).utc ≤ now.utc) :
    evaluateDue r now events =
      ({ r with state := .overdue, updatedAt := now, version := r.version + 1 },
        ready .overdue (events ++ [.becameOverdue])) := by
  unfold evaluateDue
  split
  · next hnone =>
    rw [hdue] at hnone
    cases hnone
  · next since hsince =>
    obtain rfl := Option.some.inj (hdue.symm.trans hsince)
    exact if_pos h

theorem evaluateDue_waits {events : List EventType}
    (h : ∀ dueSince, r.dueSince = some dueSince →
      now.utc < (dueSince.addSeconds (min r.overdueAfterSeconds i64Max : Nat)).utc) :
    evaluateDue r now events = (r, ready .due events) := by
  unfold evaluateDue
  split
  · rfl
  · next since hsince => exact if_neg (not_le.mpr (h since hsince))

theorem oneStep_due (h : r.state = .due) : r.OneStep now context := by
  have hevaluate : r.evaluate now context .notEvaluated =
      .ok (evaluateDue (r.checkedAt now) now []) := by
    unfold Remindi.evaluate
    rw [h]
  by_cases hreached : ∃ dueSince, r.dueSince = some dueSince ∧
      (dueSince.addSeconds (min r.overdueAfterSeconds i64Max : Nat)).utc ≤ now.utc
  · -- it becomes overdue, and an overdue item stays so
    obtain ⟨dueSince, hdue, hreached⟩ := hreached
    rw [evaluateDue_reached (r := r.checkedAt now) hdue hreached] at hevaluate
    exact ⟨_, _, hevaluate, rfl⟩
  · apply oneStep_of_checkedAt (e := some .due)
    rw [hevaluate, evaluateDue_waits fun dueSince hdue => ?_]
    · rfl
    · by_contra hle
      exact hreached ⟨dueSince, hdue, not_lt.mp hle⟩

/-- An item settles with its second evaluation. -/
def TwoSteps (r : Remindi) (now : OffsetDateTime) (context : CheckContext) : Prop :=
  ∃ r' result, r.evaluate now context .notEvaluated = .ok (r', result) ∧ r'.OneStep now context

theorem OneStep.twoSteps (h : r.OneStep now context) : r.TwoSteps now context := by
  obtain ⟨r', result, hfirst, hsettled⟩ := h
  exact ⟨r', result, hfirst, r', _, hsettled, hsettled⟩

theorem twoSteps_snoozed (h : r.Evaluable) (hstate : r.state = .snoozed) :
    r.TwoSteps now context := by
  obtain ⟨deadline, hdeadline⟩ := Option.isSome_iff_exists.mp (h.coherent.snoozeUntil.mpr hstate)
  have hevaluate : r.evaluate now context .notEvaluated = evaluateSnooze (r.checkedAt now) now := by
    unfold Remindi.evaluate
    rw [hstate]
  by_cases hasleep : now.utc < deadline.utc
  · apply OneStep.twoSteps
    apply oneStep_of_checkedAt (e := none)
    rw [hevaluate]
    unfold evaluateSnooze
    rw [show (r.checkedAt now).snoozeUntil = some deadline from hdeadline]
    exact if_pos hasleep
  · obtain ⟨r', result, hfirst⟩ := h.evaluate now context .notEvaluated
    refine ⟨r', result, hfirst, ?_⟩
    rw [hevaluate] at hfirst
    unfold evaluateSnooze at hfirst
    rw [show (r.checkedAt now).snoozeUntil = some deadline from hdeadline] at hfirst
    dsimp only at hfirst
    rw [if_neg hasleep] at hfirst
    obtain ⟨rfl, -⟩ := Prod.mk.inj (Except.ok.inj hfirst)
    by_cases hoverdue : (r.checkedAt now).dueSince.any (fun dueSince =>
        decide ((dueSince.addSeconds (min r.overdueAfterSeconds i64Max : Nat)).utc ≤ now.utc)) = true
    · exact oneStep_overdue (if_pos hoverdue)
    · exact oneStep_due (if_neg hoverdue)

/-- A trigger that is asked again without an answer says the same. -/
theorem triggerSatisfaction_again {observed : Remindi} {readiness : Readiness}
    {events : List EventType}
    (h : r.triggerSatisfaction now context .notEvaluated =
      .ok (observed, false, readiness, events)) :
    events = [] ∧ observed.state = r.state ∧ observed.lastCheckedAt = r.lastCheckedAt ∧
      observed.triggerSatisfaction now context .notEvaluated =
        .ok (observed, false, readiness, []) := by
  have hagain := h
  unfold triggerSatisfaction at h
  cases htrigger : r.trigger with
  | condition adapter parameters poll manualCheckAt =>
    simp only [htrigger] at h
    split at h
    · cases h
    · next hobject =>
      simp only [ne_eq, not_true_eq_false, decide_false, reduceCtorEq, not_false_eq_true,
        decide_true, Bool.true_and, Bool.false_or, if_false, Except.ok.injEq, Prod.mk.injEq] at h
      obtain ⟨rfl, hmanual, hreadiness, rfl⟩ := h
      refine ⟨rfl, rfl, rfl, ?_⟩
      unfold triggerSatisfaction
      dsimp only
      rw [if_neg hobject]
      simp [hmanual, ← hreadiness]
  | _ =>
    simp only [htrigger] at h
    simp only [Except.ok.injEq, Prod.mk.injEq] at h
    obtain ⟨rfl, -, -, rfl⟩ := h
    exact ⟨rfl, rfl, rfl, hagain⟩

theorem twoSteps_scheduled (h : r.Evaluable) (hstate : r.state = .scheduled) :
    r.TwoSteps now context := by
  obtain ⟨r', result, hfirst⟩ := h.evaluate now context .notEvaluated
  have hevaluate := hfirst
  unfold Remindi.evaluate at hevaluate
  rw [hstate] at hevaluate
  dsimp only at hevaluate
  split at hevaluate
  · cases hevaluate
  · next observed satisfied readiness events hsatisfaction =>
    cases satisfied with
    | true =>
      obtain ⟨rfl, -⟩ := Prod.mk.inj (Except.ok.inj hevaluate)
      exact ⟨_, _, hfirst, oneStep_due rfl⟩
    | false =>
      obtain ⟨rfl, rfl⟩ := Prod.mk.inj (Except.ok.inj hevaluate)
      obtain ⟨rfl, hsame, hchecked, hagain⟩ := triggerSatisfaction_again hsatisfaction
      have hself : observed.checkedAt now = observed := by
        unfold checkedAt
        rw [← show observed.lastCheckedAt = some now from hchecked]
      have hsettled : observed.Settled now context none := by
        unfold Settled Remindi.evaluate
        rw [show observed.state = .scheduled from hsame.trans hstate, hself]
        simp only [hagain]
        rfl
      exact OneStep.twoSteps ⟨_, _, hfirst, hsettled⟩

theorem Evaluable.twoSteps (h : r.Evaluable) (now : OffsetDateTime) (context : CheckContext) :
    r.TwoSteps now context := by
  cases hstate : r.state with
  | scheduled => exact twoSteps_scheduled h hstate
  | due => exact (oneStep_due hstate).twoSteps
  | overdue => exact (oneStep_overdue hstate).twoSteps
  | snoozed => exact twoSteps_snoozed h hstate
  | completed | cancelled =>
    have hactive := h.active
    rw [hstate] at hactive
    cases hactive

/-- A settled item stays as it is, however often it is evaluated. -/
theorem Settled.evaluateAll {readiness : Option Readiness} (h : r.Settled now context readiness)
    (n : Nat) : r.evaluateAll (List.replicate n ⟨now, context, .notEvaluated⟩) =
      .ok (r, List.replicate n { readiness := readiness, events := [] }) := by
  induction n with
  | zero => rfl
  | succ n ih =>
    rw [List.replicate_succ, List.replicate_succ]
    unfold Remindi.evaluateAll
    rw [show r.evaluate now context .notEvaluated = _ from h]
    show (r.evaluateAll _).bind _ = _
    rw [ih]
    rfl

end

end Remindi

/-- **Evaluations converge and never move back.**  Every run of evaluations of an
active item succeeds, whatever the clock shows; it keeps the occurrence and never
returns to scheduled, and each evaluation counts a change of the state in the
version.  At one clock reading and without an adapter's answer, only the first two
evaluations can be events or change anything, and the readiness is that of the
second. -/
theorem evaluations_converge {r : Remindi} (h : r.Evaluable) :
    (∀ readings : List EvaluationInput, ∃ r' results, r.evaluateAll readings = .ok (r', results) ∧
      r.SameOccurrence r' ∧ (r.state ≠ .scheduled → r'.state ≠ .scheduled) ∧
      ∀ now context condition, ∃ next result,
        r'.evaluate now context condition = .ok (next, result) ∧ r.SameOccurrence next ∧
        (r'.state ≠ .scheduled → next.state ≠ .scheduled) ∧
        next.version = r'.version + (if next.state = r'.state then 0 else 1)) ∧
    ∀ now context, ∃ r₁ r₂ first second,
      r.evaluate now context .notEvaluated = .ok (r₁, first) ∧
      r₁.evaluate now context .notEvaluated = .ok (r₂, second) ∧
      ∀ n, r.evaluateAll (List.replicate (n + 2) ⟨now, context, .notEvaluated⟩) =
        .ok (r₂, first :: second ::
          List.replicate n { readiness := second.readiness, events := [] }) := by
  constructor
  · intro readings
    obtain ⟨r', results, hrun, hevaluable, hsame, hstate⟩ := h.evaluateAll readings
    refine ⟨r', results, hrun, hsame, hstate, ?_⟩
    intro now context condition
    obtain ⟨next, result, hnext⟩ := hevaluable.evaluate now context condition
    have hop := Remindi.evaluate_ok hnext
    exact ⟨next, result, hnext, hsame.trans hop.sameOccurrence, hop.state.2.1, hop.state.1⟩
  · intro now context
    obtain ⟨r₁, first, hfirst, r₂, second, hsecond, hsettled⟩ := h.twoSteps now context
    refine ⟨r₁, r₂, first, second, hfirst, hsecond, ?_⟩
    intro n
    have hrest := hsettled.evaluateAll n
    rw [List.replicate_succ, List.replicate_succ]
    unfold Remindi.evaluateAll
    rw [hfirst]
    show (r₁.evaluateAll _).bind _ = _
    unfold Remindi.evaluateAll
    rw [hsecond]
    show ((r₂.evaluateAll _).bind _).bind _ = _
    rw [hrest]
    rfl

/-- The item that waits for a condition settles half a minute later. -/
theorem sample_evaluations_converge :
    ∃ r, Sample.waiting.remindi.find? (Sample.uuid 0) = some r ∧
      ∃ r₁ r₂ first second,
        r.evaluate (Sample.second 1030) RemindiService.schedulerContext .notEvaluated =
          .ok (r₁, first) ∧
        r₁.evaluate (Sample.second 1030) RemindiService.schedulerContext .notEvaluated =
          .ok (r₂, second) ∧
        ∀ n, r.evaluateAll (List.replicate (n + 2)
            ⟨Sample.second 1030, RemindiService.schedulerContext, .notEvaluated⟩) =
          .ok (r₂, first :: second ::
            List.replicate n { readiness := second.readiness, events := [] }) := by
  have hactive : (Sample.waiting.remindi.find? (Sample.uuid 0)).map (·.state.isActive) =
      some true := by
    decide +kernel
  obtain ⟨r, hfound, hactive⟩ := Option.map_eq_some_iff.mp hactive
  refine ⟨r, hfound, (evaluations_converge ?_).2 _ _⟩
  exact
    { coherent := stored_items_coherent Sample.externals _ _ r hfound
      valid := rows_invariant (x := Sample.externals) Change.validTrigger _ _ r hfound
      active := hactive }

end RemindiCore
