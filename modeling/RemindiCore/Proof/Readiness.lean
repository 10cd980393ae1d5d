import RemindiCore.Proof.CheckOrder
import RemindiCore.Proof.Evaluations

/-!
# When an item is ready

`ReadyBy` says for each state what makes an item ready in a check; `evaluate`
agrees with it (`readyBy_iff`).  A ready item stays ready as the clock goes on,
and its readiness changes only from due to overdue, when the grace period ends
(`ReadyBy.later`).  The row an evaluation leaves behind is ready at least as
early (`SettledAs.readyBy`).
-/

namespace RemindiCore

open CivilTime

namespace Remindi

/-- The grace period of the occurrence has ended. -/
def pastGrace (r : Remindi) (now : OffsetDateTime) : Bool :=
  let grace := min r.overdueAfterSeconds i64Max
  r.dueSince.any fun dueSince => (dueSince.addSeconds grace).utc ≤ now.utc

def dueReadiness (r : Remindi) (now : OffsetDateTime) : Readiness :=
  if r.pastGrace now then .overdue else .due

/-- The item is ready at `now`, with this readiness. -/
inductive ReadyBy (r : Remindi) (now : OffsetDateTime) (context : CheckContext) : Readiness → Prop
  | due (hstate : r.state = .due) : ReadyBy r now context (r.dueReadiness now)
  | overdue (hstate : r.state = .overdue) : ReadyBy r now context .overdue
  | awake (hstate : r.state = .snoozed) {deadline : OffsetDateTime}
      (hsnooze : r.snoozeUntil = some deadline) (hreached : deadline.utc ≤ now.utc) :
      ReadyBy r now context (r.dueReadiness now)
  | satisfied (hstate : r.state = .scheduled) {observed : Remindi} {readiness : Readiness}
      {events : List EventType} (htrigger : (r.checkedAt now).triggerSatisfaction now context
        .notEvaluated = .ok (observed, true, readiness, events)) :
      ReadyBy r now context readiness

variable {r r' : Remindi} {now now' : OffsetDateTime} {context : CheckContext}
  {condition : ConditionEvaluation} {readiness : Readiness} {events : List EventType}

/-! ## The evaluator -/

theorem dueReadiness_ne_manual : r.dueReadiness now ≠ .manualVerification := by
  unfold dueReadiness
  split <;> simp

/-- A due item is ready as due, or becomes overdue. -/
theorem evaluateDue_eq (r : Remindi) (now : OffsetDateTime) : ∃ r' events, evaluateDue (r.checkedAt now) now [] =
    (r', ready (r.dueReadiness now) events) := by
  unfold evaluateDue dueReadiness pastGrace
  cases hsince : (r.checkedAt now).dueSince with
  | none =>
    have hsince : r.dueSince = none := hsince
    rw [hsince]
    exact ⟨_, _, rfl⟩
  | some dueSince =>
    have hsince : r.dueSince = some dueSince := hsince
    rw [hsince]
    dsimp only [Option.any_some, checkedAt]
    split
    · next hpast => exact ⟨_, _, by rw [if_pos (decide_eq_true hpast)]⟩
    · next hpast => exact ⟨_, _, by rw [if_neg (mt of_decide_eq_true hpast)]⟩

/-- An expired snooze ends as due or overdue. -/
theorem evaluateSnooze_eq {deadline : OffsetDateTime} (hsnooze : r.snoozeUntil = some deadline)
    (hreached : deadline.utc ≤ now.utc) : ∃ r' events, evaluateSnooze (r.checkedAt now) now =
      .ok (r', ready (r.dueReadiness now) events) := by
  unfold evaluateSnooze
  rw [show (r.checkedAt now).snoozeUntil = some deadline from hsnooze]
  dsimp only
  rw [if_neg (not_lt.mpr hreached)]
  exact ⟨_, _, rfl⟩

/-- **The evaluator's readiness.** -/
theorem readyBy_iff : r.ReadyBy now context readiness ↔
    ∃ r' events, r.evaluate now context .notEvaluated =
      .ok (r', { readiness := some readiness, events := events }) := by
  constructor
  · intro h
    cases h with
    | due hstate =>
      obtain ⟨r', events, h⟩ := evaluateDue_eq r now
      exact ⟨r', events, by simp only [evaluate, hstate, h]; rfl⟩
    | overdue hstate => exact ⟨_, _, by simp only [evaluate, hstate]; rfl⟩
    | @awake hstate deadline hsnooze hreached =>
      obtain ⟨r', events, h⟩ := evaluateSnooze_eq hsnooze hreached
      exact ⟨r', events, by simp only [evaluate, hstate, h]; rfl⟩
    | satisfied hstate htrigger =>
      exact ⟨_, _, by simp only [evaluate, hstate, htrigger]; rfl⟩
  · rintro ⟨r', events, h⟩
    unfold evaluate at h
    split at h
    · cases h
    · cases h
    · next hstate =>
      unfold evaluateSnooze at h
      split at h
      · cases h
      next deadline hsnooze =>
      dsimp only at h
      split at h
      · cases h
      next hreached =>
      cases h
      exact ReadyBy.awake (r := r) hstate hsnooze (not_lt.mp hreached)
    · next hstate =>
      cases h
      exact .overdue hstate
    · next hstate =>
      obtain ⟨r'', events', hdue⟩ := evaluateDue_eq r now
      rw [hdue] at h
      cases h
      exact .due hstate
    · next hstate =>
      split at h
      · cases h
      next observed satisfied readiness' events' htrigger =>
      split at h
      · next hsatisfied =>
        cases h
        rw [hsatisfied] at htrigger
        exact .satisfied hstate htrigger
      · cases h

/-- What an evaluation may change. -/
theorem Evaluation.only {result : EvaluationResult} (h : r.Evaluation now condition r' result) :
    r' = { r with
      state := r'.state
      dueSince := r'.dueSince
      snoozeUntil := r'.snoozeUntil
      snoozedFromState := r'.snoozedFromState
      lastCheckedAt := r'.lastCheckedAt
      lastConditionStatus := r'.lastConditionStatus
      nextEvaluationAt := r'.nextEvaluationAt
      updatedAt := r'.updatedAt
      version := r'.version } := by
  cases h with
  | waits hstate observation =>
    rw [observation.only]
    rfl
  | becomesDue hstate observation readiness =>
    dsimp only
    rw [observation.only]
    rfl
  | _ => rfl

/-- A ready item is left due or overdue, as its readiness says. -/
theorem evaluate_ready_ok (h : r.evaluate now context condition =
      .ok (r', { readiness := some readiness, events := events })) :
    (r'.state = .overdue ∧ readiness = .overdue ∨ r'.state = .due ∧ readiness ≠ .overdue) ∧
      (r'.snoozeUntil = r.snoozeUntil ∨ r'.snoozeUntil = none) ∧
      (events = [] → r.state = r'.state) := by
  unfold evaluate at h
  split at h
  · cases h
  · cases h
  · next hstate =>
    unfold evaluateSnooze at h
    split at h
    · cases h
    dsimp only at h
    split at h
    · cases h
    · cases h
      refine ⟨?_, Or.inr rfl, fun h => absurd h (by simp)⟩
      dsimp only
      split
      · exact Or.inl ⟨rfl, rfl⟩
      · exact Or.inr ⟨rfl, by simp⟩
  · next hstate =>
    cases h
    exact ⟨Or.inl ⟨hstate, rfl⟩, Or.inl rfl, fun _ => rfl⟩
  · next hstate =>
    unfold evaluateDue at h
    split at h
    · cases h
      exact ⟨Or.inr ⟨hstate, by simp⟩, Or.inl rfl, fun _ => rfl⟩
    · dsimp only at h
      split at h
      · cases h
        exact ⟨Or.inl ⟨rfl, rfl⟩, Or.inl rfl, fun h => absurd h (by simp)⟩
      · cases h
        exact ⟨Or.inr ⟨hstate, by simp⟩, Or.inl rfl, fun _ => rfl⟩
  · next hstate =>
    split at h
    · cases h
    next observed satisfied readiness' events' htrigger =>
    split at h
    · have hobservation := triggerSatisfaction_ok htrigger
      cases h
      refine ⟨Or.inr ⟨rfl, ?_⟩, Or.inl ?_, fun h => absurd h (by simp)⟩
      · unfold triggerSatisfaction at htrigger
        split at htrigger <;> first | (cases htrigger; simp) | skip
        dsimp only at htrigger
        split at htrigger
        · cases htrigger
        · cases htrigger
          split <;> simp
      · dsimp only
        rw [hobservation.only]
        rfl
    · cases h

/-! ## As the clock goes on -/

theorem pastGrace_mono (hle : now.utc ≤ now'.utc) (h : r.pastGrace now = true) :
    r.pastGrace now' = true := by
  unfold pastGrace at h ⊢
  cases hsince : r.dueSince with
  | none =>
    rw [hsince] at h
    cases h
  | some dueSince =>
    rw [hsince, Option.any_some, decide_eq_true_eq] at h
    rw [Option.any_some, decide_eq_true_eq]
    exact le_trans h hle

theorem any_reached_mono {value : Option OffsetDateTime} (hle : now.utc ≤ now'.utc)
    (h : value.any (fun t => t.utc ≤ now.utc) = true) :
    value.any (fun t => t.utc ≤ now'.utc) = true := by
  cases value with
  | none => cases h
  | some t =>
    rw [Option.any_some, decide_eq_true_eq] at h ⊢
    exact le_trans h hle

/-- A trigger that is satisfied without an adapter stays satisfied. -/
theorem triggerSatisfaction_later {observed : Remindi} (hle : now.utc ≤ now'.utc)
    (h : (r.checkedAt now).triggerSatisfaction now context .notEvaluated =
      .ok (observed, true, readiness, events)) :
    ∃ observed', (r.checkedAt now').triggerSatisfaction now' context .notEvaluated =
      .ok (observed', true, readiness, events) := by
  unfold triggerSatisfaction at h ⊢
  have htrigger : ∀ now, (r.checkedAt now).trigger = r.trigger := fun _ => rfl
  cases hkind : r.trigger with
  | atTime | afterElapsed | interval =>
    simp only [htrigger, hkind, Except.ok.injEq, Prod.mk.injEq] at h ⊢
    obtain ⟨-, hreached, hrest⟩ := h
    exact ⟨_, rfl, any_reached_mono hle hreached, hrest⟩
  | nextSession | nextContinuation | goalActive =>
    simp only [htrigger, hkind, Except.ok.injEq, Prod.mk.injEq] at h ⊢
    obtain ⟨-, hreached, hrest⟩ := h
    exact ⟨_, rfl, hreached, hrest⟩
  | condition adapter parameters poll manualCheckAt =>
    simp only [htrigger, hkind] at h ⊢
    split at h
    · cases h
    next hobject =>
    rw [if_neg hobject]
    simp only [Except.ok.injEq, Prod.mk.injEq] at h ⊢
    obtain ⟨-, hsatisfied, hreadiness, hevents⟩ := h
    have hmanual : manualCheckAt.any (fun t => t.utc ≤ now.utc) = true := by
      simpa using hsatisfied
    have hmanual' := any_reached_mono hle hmanual
    rw [hmanual] at hreadiness
    rw [hmanual']
    exact ⟨_, rfl, by simp, hreadiness, hevents⟩

/-- The grace period of an item that is due again ends between two readings. -/
structure FallsOverdue (r : Remindi) (now now' : OffsetDateTime) : Prop where
  state : r.state = .due ∨ r.state = .snoozed
  before : r.pastGrace now = false
  after : r.pastGrace now' = true

theorem dueReadiness_later (hstate : r.state = .due ∨ r.state = .snoozed)
    (hle : now.utc ≤ now'.utc) :
    r.dueReadiness now' = r.dueReadiness now ∨
      r.dueReadiness now = .due ∧ r.dueReadiness now' = .overdue ∧ r.FallsOverdue now now' := by
  unfold dueReadiness
  cases hbefore : r.pastGrace now with
  | true =>
    rw [pastGrace_mono hle hbefore]
    exact Or.inl rfl
  | false =>
    cases hafter : r.pastGrace now' with
    | false => exact Or.inl rfl
    | true => exact Or.inr ⟨rfl, rfl, hstate, hbefore, hafter⟩

/-- **A ready item stays ready**, and only a due one changes its readiness. -/
theorem ReadyBy.later (h : r.ReadyBy now context readiness) (hle : now.utc ≤ now'.utc) :
    ∃ readiness', r.ReadyBy now' context readiness' ∧ (readiness' = readiness ∨
      readiness = .due ∧ readiness' = .overdue ∧ r.FallsOverdue now now') := by
  cases h with
  | due hstate => exact ⟨_, .due hstate, dueReadiness_later (Or.inl hstate) hle⟩
  | overdue hstate => exact ⟨_, .overdue hstate, Or.inl rfl⟩
  | awake hstate hsnooze hreached =>
    exact ⟨_, .awake hstate hsnooze (le_trans hreached hle), dueReadiness_later (Or.inr hstate) hle⟩
  | satisfied hstate htrigger =>
    obtain ⟨observed', h'⟩ := triggerSatisfaction_later hle htrigger
    exact ⟨_, .satisfied hstate h', Or.inl rfl⟩

theorem ReadyBy.unique {readiness' : Readiness} (h : r.ReadyBy now context readiness)
    (h' : r.ReadyBy now context readiness') : readiness = readiness' := by
  obtain ⟨_, _, h⟩ := readyBy_iff.mp h
  obtain ⟨_, _, h'⟩ := readyBy_iff.mp h'
  have := (Prod.mk.inj (Except.ok.inj (h.symm.trans h'))).2
  exact Option.some.inj (congrArg EvaluationResult.readiness this)

/-- An item ready as due whose grace period ends by `now'` is then overdue. -/
theorem ReadyBy.falls (h : r.ReadyBy now context readiness) (hfalls : r.FallsOverdue now now')
    (hle : now.utc ≤ now'.utc) : readiness = .due ∧ r.ReadyBy now' context .overdue := by
  have hbefore : r.dueReadiness now = .due := by
    unfold dueReadiness
    rw [hfalls.before]
    rfl
  have hafter : r.dueReadiness now' = .overdue := by
    unfold dueReadiness
    rw [hfalls.after]
    rfl
  cases h with
  | due hstate => exact ⟨hbefore, hafter ▸ .due hstate⟩
  | awake hstate hsnooze hreached =>
    exact ⟨hbefore, hafter ▸ .awake hstate hsnooze (le_trans hreached hle)⟩
  | overdue hstate => rcases hfalls.state with h | h <;> rw [hstate] at h <;> cases h
  | satisfied hstate htrigger => rcases hfalls.state with h | h <;> rw [hstate] at h <;> cases h

theorem ReadyBy.isActive (h : r.ReadyBy now context readiness) : r.state.isActive = true := by
  cases h with
  | due hstate => rw [hstate]; rfl
  | overdue hstate => rw [hstate]; rfl
  | awake hstate hsnooze hreached => rw [hstate]; rfl
  | satisfied hstate htrigger => rw [hstate]; rfl

/-- The state a ready item is left in: overdue if it was reported overdue, else due. -/
def SettledAs (r : Remindi) (readiness : Readiness) : Prop :=
  r.state = .overdue ∧ readiness = .overdue ∨ r.state = .due ∧ readiness ≠ .overdue

/-- **What was reported is ready from then on**, and never ranks behind its report. -/
theorem SettledAs.readyBy (h : r.SettledAs readiness) (now : OffsetDateTime)
    (context : CheckContext) : ∃ readiness', r.ReadyBy now context readiness' ∧
      readinessRank readiness' ≤ readinessRank readiness := by
  rcases h with ⟨hstate, rfl⟩ | ⟨hstate, hne⟩
  · exact ⟨_, .overdue hstate, Nat.le_refl _⟩
  · refine ⟨_, .due hstate, ?_⟩
    unfold dueReadiness
    split <;> cases readiness <;> simp [readinessRank] at hne ⊢

end Remindi

end RemindiCore
