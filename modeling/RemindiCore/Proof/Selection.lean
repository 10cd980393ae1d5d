import RemindiCore.Proof.KeyReuse
import RemindiCore.Proof.Narrowed
import RemindiCore.Proof.YearZero

/-!
# What the scheduler's query selects

The query selects the items that an evaluation without an adapter's answer would
change and the conditions whose next poll is reached (`schedulerSelects_iff`).
An evaluation of such an item is an event, whatever the adapter answers, and
leaves fewer steps (`evaluation_progress`): two for an item that is not due yet,
one for a due item.
-/

namespace RemindiCore

open CivilTime JsonText KeyedTable Transaction

/-! ## Items that need an evaluation -/

/-- An evaluation at `now` that asks no adapter calls for events. -/
def Remindi.ChangesUnasked (r : Remindi) (now : OffsetDateTime) : Prop :=
  ∃ candidate result, RemindiService.evaluateCandidate r now RemindiService.schedulerContext
    .notEvaluated none = .ok (candidate, result) ∧ result.events ≠ []

/-- The next poll of a scheduled condition is reached. -/
def Remindi.PollReached (r : Remindi) (now : OffsetDateTime) : Prop :=
  r.state = .scheduled ∧ r.trigger.isCondition = true ∧
    ∃ t, r.nextEvaluationAt = some t ∧ t.utc ≤ now.utc

def Remindi.NeedsEvaluation (r : Remindi) (now : OffsetDateTime) : Prop :=
  r.ChangesUnasked now ∨ r.PollReached now

/-- What holds of every stored item while the clock shows the year 0 or later. -/
structure Drainable (r : Remindi) : Prop where
  coherent : Coherent r
  valid : r.trigger.validate = .ok ()
  bound : r.Bound
  whole : ∀ t ∈ r.trigger.instants, t.truncateMillis = t
  years : r.InYears


/-! ## The query -/

section

variable {r r' old : Remindi} {now t : OffsetDateTime} {context : CheckContext}
  {condition : ConditionEvaluation} {detail : Option String} {result : EvaluationResult}

theorem dayReached_whole (h : t.truncateMillis = t) :
    Repository.dayReached (some t) now = true ↔ t.utc ≤ now.utc := by
  have hutc : t.utc / 1000000 * 1000000 = t.utc := congrArg OffsetDateTime.utc h
  simp only [Repository.dayReached, Option.any_some, decide_eq_true_eq]
  omega

/-- The steps an item has left at `now`. -/
def Remindi.remaining (now : OffsetDateTime) (r : Remindi) : Nat :=
  if Repository.schedulerSelects now r then if r.state = .due then 1 else 2 else 0

theorem remaining_le_two (now : OffsetDateTime) (r : Remindi) : r.remaining now ≤ 2 := by
  unfold Remindi.remaining
  split
  · split <;> omega
  · omega

theorem remaining_pos : 0 < r.remaining now ↔ Repository.schedulerSelects now r = true := by
  unfold Remindi.remaining
  split
  · next h =>
    refine iff_of_true ?_ h
    split <;> omega
  · next h => exact iff_of_false (by omega) h

theorem remaining_due (h : r.state = .due) : r.remaining now ≤ 1 := by
  unfold Remindi.remaining
  rw [if_pos h]
  split <;> omega

theorem remaining_overdue (h : r.state = .overdue) : r.remaining now = 0 := by
  have hnot : Repository.schedulerSelects now r = false := by
    simp only [Repository.schedulerSelects, h]
  unfold Remindi.remaining
  rw [hnot]
  rfl

theorem remaining_undue (h : Repository.schedulerSelects now r = true) (hstate : r.state ≠ .due) :
    r.remaining now = 2 := by
  unfold Remindi.remaining
  rw [if_pos h, if_neg hstate]

/-! ## The candidate of an evaluation -/

/-- The outcome that `evaluate_one` makes of an evaluation with events. -/
theorem evaluateCandidate_of (h : r.evaluate now context condition = .ok (r', result))
    (hevents : result.events ≠ []) :
    RemindiService.evaluateCandidate r now context condition detail =
      .ok (RemindiService.evaluatedVersion r
        (if condition ≠ .notEvaluated then { r' with lastConditionDetail := detail } else r') now,
        result) := by
  have hempty : result.events.isEmpty = false := List.isEmpty_eq_false_iff.mpr hevents
  unfold RemindiService.evaluateCandidate
  rw [h]
  simp only [domain, Except.mapError, bind, Except.bind, pure, Except.pure, hempty]
  rfl

theorem evaluate_of_candidate {candidate : Remindi}
    (h : RemindiService.evaluateCandidate r now context condition detail =
      .ok (candidate, result)) : ∃ r', r.evaluate now context condition = .ok (r', result) := by
  unfold RemindiService.evaluateCandidate at h
  obtain ⟨⟨evaluated, result'⟩, hevaluate, h⟩ := except_bind_ok.mp h
  refine ⟨evaluated, ?_⟩
  rw [domain_ok.mp hevaluate]
  dsimp only at h
  split at h <;> cases h <;> rfl

/-- The numbers in the parameters of a condition have nothing to do with the query. -/
theorem remaining_stored (x : Externals) (r : Remindi) :
    (r.stored x).remaining now = r.truncateMillis.remaining now := by
  have hselects : Repository.schedulerSelects now (r.stored x) =
      Repository.schedulerSelects now r.truncateMillis := by
    simp [Repository.schedulerSelects, Remindi.stored, Remindi.truncateMillis]
  unfold Remindi.remaining
  rw [hselects]
  rfl

/-- Nor have the detail and the version. -/
theorem remaining_candidate (x : Externals) :
    ((RemindiService.evaluatedVersion r
      (if condition ≠ .notEvaluated then { r' with lastConditionDetail := detail } else r')
        now).writtenOver x old).remaining now = r'.truncateMillis.remaining now := by
  rw [← remaining_stored x]
  unfold RemindiService.evaluatedVersion
  split
  · split <;> rfl
  · split <;> rfl

end

/-! ## An evaluation of a selected item -/

section

variable {r : Remindi} {now : OffsetDateTime} {context : CheckContext}
  {condition : ConditionEvaluation}

/-- An evaluation that is an event and leaves fewer steps. -/
def Progresses (r : Remindi) (now : OffsetDateTime) (context : CheckContext)
    (condition : ConditionEvaluation) : Prop :=
  ∃ r' result, r.evaluate now context condition = .ok (r', result) ∧ result.events ≠ [] ∧
    r'.truncateMillis.remaining now < r.remaining now

/-- The instants of a stored item are whole milliseconds. -/
theorem Remindi.Bound.whole (h : r.Bound) {field : Remindi → Option OffsetDateTime}
    {t : OffsetDateTime} (ht : field r = some t)
    (hfield : field r.truncateMillis = (field r).map OffsetDateTime.truncateMillis) :
    t.truncateMillis = t := by
  rw [h.stored, ht] at hfield
  exact (Option.some.inj hfield).symm

theorem Remindi.Bound.overdueAfterSeconds (h : r.Bound) : r.overdueAfterSeconds ≤ i64Max := by
  have hupdate := (Remindi.bindInsert_ok.mp h.bound).1
  unfold Remindi.bindUpdate at hupdate
  simp only [except_bind_ok] at hupdate
  obtain ⟨_, -, _, -, _, -, _, -, _, -, _, -, _, -, seconds, hseconds, -⟩ := hupdate
  unfold i64FromU64 at hseconds
  split at hseconds
  · assumption
  · cases hseconds

theorem remaining_lt_two {a : Remindi} (h : a.state = .due) : a.remaining now < 2 :=
  Nat.lt_succ_of_le (remaining_due h)

theorem progresses_snoozed (h : Drainable r) (hstate : r.state = .snoozed)
    (hselected : Repository.schedulerSelects now r = true) : Progresses r now context condition := by
  have htwo := remaining_undue hselected (by rw [hstate]; decide)
  obtain ⟨deadline, hdeadline⟩ := Option.isSome_iff_exists.mp (h.coherent.snoozeUntil.mpr hstate)
  have hwhole := h.bound.whole hdeadline rfl
  have hreached : ¬ now.utc < deadline.utc := by
    simp only [Repository.schedulerSelects, hstate, hdeadline] at hselected
    rw [dayReached_whole hwhole] at hselected
    omega
  unfold Progresses
  simp only [Remindi.evaluate, hstate, Remindi.evaluateSnooze]
  rw [show (r.checkedAt now).snoozeUntil = some deadline from hdeadline]
  dsimp only
  rw [if_neg hreached]
  refine ⟨_, _, rfl, by simp [ready], ?_⟩
  rw [htwo]
  split
  · rw [remaining_overdue rfl]
    omega
  · exact remaining_lt_two rfl

theorem progresses_due (h : Drainable r) (hstate : r.state = .due)
    (hselected : Repository.schedulerSelects now r = true) : Progresses r now context condition := by
  have hpos := remaining_pos.mpr hselected
  obtain ⟨dueSince, hdue⟩ := Option.isSome_iff_exists.mp (h.coherent.dueSince (Or.inl hstate))
  have hwhole := h.bound.whole hdue rfl
  have hgrace : min r.overdueAfterSeconds i64Max = r.overdueAfterSeconds :=
    Nat.min_eq_left h.bound.overdueAfterSeconds
  have hreached : (dueSince.addSeconds r.overdueAfterSeconds).utc ≤ now.utc := by
    simp only [Repository.schedulerSelects, hstate, hdue, Option.map_some] at hselected
    rwa [dayReached_whole (OffsetDateTime.truncateMillis_addSeconds hwhole _)] at hselected
  unfold Progresses
  simp only [Remindi.evaluate, hstate, Remindi.evaluateDue]
  rw [show (r.checkedAt now).dueSince = some dueSince from hdue,
    show (r.checkedAt now).overdueAfterSeconds = r.overdueAfterSeconds from rfl]
  dsimp only
  rw [hgrace, if_pos hreached]
  refine ⟨_, _, rfl, by simp [ready], ?_⟩
  rw [remaining_overdue rfl]
  exact hpos

theorem progresses_timed (h : Drainable r) (hstate : r.state = .scheduled)
    (htimed : r.trigger.isTimed = true) (hselected : Repository.schedulerSelects now r = true) :
    Progresses r now context condition := by
  have htwo := remaining_undue hselected (by rw [hstate]; decide)
  obtain ⟨anchor, hanchor⟩ := Option.isSome_iff_exists.mp (h.coherent.nextFireAt.mpr htimed)
  have hwhole := h.bound.whole hanchor rfl
  have hcondition : r.trigger.isCondition = false := by
    cases htrigger : r.trigger with
    | condition =>
      rw [htrigger] at htimed
      cases htimed
    | _ => rfl
  have hreached : anchor.utc ≤ now.utc := by
    simp only [Repository.schedulerSelects, hstate, htimed, hcondition, hanchor, Bool.true_and,
      Bool.false_and, Bool.or_false] at hselected
    rwa [dayReached_whole hwhole] at hselected
  have hsatisfaction : (r.checkedAt now).triggerSatisfaction now context condition =
      .ok (r.checkedAt now, true, .due, []) := by
    have hany : (r.checkedAt now).nextFireAt.any (fun anchor => anchor.utc ≤ now.utc) = true := by
      rw [show (r.checkedAt now).nextFireAt = some anchor from hanchor]
      simpa using hreached
    unfold Remindi.triggerSatisfaction
    rw [show (r.checkedAt now).trigger = r.trigger from rfl]
    cases htrigger : r.trigger with
    | atTime | afterElapsed | interval =>
      dsimp only
      rw [hany]
    | _ =>
      rw [htrigger] at htimed
      cases htimed
  unfold Progresses
  simp only [Remindi.evaluate, hstate, hsatisfaction, if_true]
  refine ⟨_, _, rfl, by simp [ready], ?_⟩
  rw [htwo]
  exact remaining_lt_two rfl

/-- The next poll of a valid condition lies ahead. -/
theorem poll_ahead {adapter : String} {parameters : Json} {poll : Option Nat}
    {manualCheckAt : Option OffsetDateTime}
    (h : (Trigger.condition adapter parameters poll manualCheckAt).validate = .ok ()) :
    parameters.isObject = true ∧
      30 ≤ (if poll.getD 30 ≤ i64Max then poll.getD 30 else 86400) := by
  simp only [Trigger.validate] at h
  split at h
  · cases h
  split at h
  · cases h
  next hobject =>
  split at h
  · cases h
  next hbound =>
  refine ⟨by simpa using hobject, ?_⟩
  split
  · cases poll with
    | none => simp
    | some seconds =>
      simp at hbound
      simp only [Option.getD_some]
      omega
  · omega

/-- A condition that is asked again is not selected until its next poll. -/
theorem remaining_waits {adapter : String} {parameters : Json} {poll : Option Nat}
    {manualCheckAt : Option OffsetDateTime} {seconds : Nat} (hstate : r.state = .scheduled)
    (htrigger : r.trigger = .condition adapter parameters poll manualCheckAt)
    (hnext : r.nextEvaluationAt = some (now.addSeconds seconds)) (hpos : 1 ≤ seconds)
    (hmanual : ∀ t, manualCheckAt = some t → t.truncateMillis = t ∧ now.utc < t.utc) :
    r.truncateMillis.remaining now = 0 := by
  have hahead : Repository.dayReached (some (now.addSeconds seconds).truncateMillis) now = false := by
    simp only [Repository.dayReached, Option.any_some, OffsetDateTime.truncateMillis,
      OffsetDateTime.addSeconds_utc, secondNanos, decide_eq_false_iff_not]
    omega
  have hlater : Repository.dayReached manualCheckAt now = false := by
    cases manualCheckAt with
    | none => rfl
    | some t =>
      obtain ⟨hwhole, hlt⟩ := hmanual t rfl
      rw [← Bool.not_eq_true, dayReached_whole hwhole]
      omega
  have hnot : Repository.schedulerSelects now r.truncateMillis = false := by
    simp only [Repository.schedulerSelects, Remindi.truncateMillis, hstate, htrigger, hnext,
      Option.map_some, hahead, Repository.manualCheckAt, hlater, Trigger.isTimed]
    rfl
  unfold Remindi.remaining
  rw [hnot]
  rfl

theorem progresses_condition (h : Drainable r) (hstate : r.state = .scheduled)
    (hcondition : r.trigger.isCondition = true) (hasked : condition ≠ .notEvaluated)
    (hselected : Repository.schedulerSelects now r = true) : Progresses r now context condition := by
  have htwo := remaining_undue hselected (by rw [hstate]; decide)
  cases htrigger : r.trigger with
  | condition adapter parameters poll manualCheckAt =>
    have hvalid := h.valid
    rw [htrigger] at hvalid
    obtain ⟨hobject, hseconds⟩ := poll_ahead hvalid
    unfold Progresses
    simp only [Remindi.evaluate, hstate, Remindi.triggerSatisfaction]
    rw [show (r.checkedAt now).trigger = .condition adapter parameters poll manualCheckAt from htrigger]
    simp only [hobject, Bool.not_true, Bool.false_eq_true, if_false]
    split
    · -- satisfied, or a manual check is due
      refine ⟨_, _, rfl, by simp [ready], ?_⟩
      rw [htwo]
      exact remaining_lt_two rfl
    · next hunsatisfied =>
      rw [Bool.or_eq_true, not_or, decide_eq_true_eq] at hunsatisfied
      obtain ⟨hsatisfied, hmanual⟩ := hunsatisfied
      refine ⟨_, _, rfl, by simp, ?_⟩
      have hnot : ¬ (condition = .satisfied ∨ (decide (condition ≠ .satisfied) &&
          manualCheckAt.any fun t => decide (t.utc ≤ now.utc)) = true) :=
        not_or.mpr ⟨hsatisfied, hmanual⟩
      refine lt_of_eq_of_lt (remaining_waits hstate rfl (if_neg hnot) (by omega) ?_) (by omega)
      rintro t rfl
      refine ⟨h.whole t ?_, ?_⟩
      · rw [htrigger]
        exact List.mem_singleton_self t
      · rw [Option.any_some, Bool.and_eq_true, not_and, decide_eq_true_eq, decide_eq_true_eq] at hmanual
        have := hmanual hsatisfied
        omega
  | _ =>
    rw [htrigger] at hcondition
    cases hcondition

/-- The scheduler asks the adapter of a condition, and of nothing else. -/
theorem asked_of_condition (adapters : RemindiService.AdapterProvider)
    (h : r.trigger.isCondition = true) :
    conditionOf (RemindiService.evaluateCondition adapters r) ≠ .notEvaluated := by
  unfold RemindiService.evaluateCondition
  cases htrigger : r.trigger with
  | condition adapter parameters poll manualCheckAt =>
    have hmapped : ∀ status, RemindiService.mapStatus status ≠ .notEvaluated := by
      intro status
      cases status <;> simp [RemindiService.mapStatus]
    dsimp only
    split
    · exact hmapped .unknown
    · next evaluate hadapter => exact hmapped (evaluate parameters).status
  | _ =>
    rw [htrigger] at h
    cases h

variable (context) in
/-- **Every evaluation of a selected item is an event and leaves fewer steps**,
whatever its adapter answers. -/
theorem evaluation_progress (h : Drainable r)
    (hselected : Repository.schedulerSelects now r = true)
    (adapters : RemindiService.AdapterProvider) :
    Progresses r now context (conditionOf (RemindiService.evaluateCondition adapters r)) := by
  cases hstate : r.state with
  | snoozed => exact progresses_snoozed h hstate hselected
  | due => exact progresses_due h hstate hselected
  | scheduled =>
    by_cases htimed : r.trigger.isTimed = true
    · exact progresses_timed h hstate htimed hselected
    · have hcondition : r.trigger.isCondition = true := by
        simp only [Repository.schedulerSelects, hstate, Bool.or_eq_true, Bool.and_eq_true] at hselected
        rcases hselected with hselected | hselected
        · exact absurd hselected.1 htimed
        · exact hselected.1
      exact progresses_condition h hstate hcondition (asked_of_condition adapters hcondition) hselected
  | overdue | completed | cancelled =>
    simp only [Repository.schedulerSelects, hstate] at hselected
    cases hselected

theorem Progresses.unasked (h : Progresses r now RemindiService.schedulerContext .notEvaluated) :
    r.ChangesUnasked now := by
  obtain ⟨r', result, hevaluate, hevents, -⟩ := h
  exact ⟨_, result, evaluateCandidate_of hevaluate hevents, hevents⟩

/-- A selected item needs an evaluation. -/
theorem needsEvaluation_of_selected (h : Drainable r)
    (hselected : Repository.schedulerSelects now r = true) : r.NeedsEvaluation now := by
  cases hstate : r.state with
  | snoozed => exact Or.inl (progresses_snoozed h hstate hselected).unasked
  | due => exact Or.inl (progresses_due h hstate hselected).unasked
  | overdue | completed | cancelled =>
    simp only [Repository.schedulerSelects, hstate] at hselected
    cases hselected
  | scheduled =>
    by_cases htimed : r.trigger.isTimed = true
    · exact Or.inl (progresses_timed h hstate htimed hselected).unasked
    simp only [Repository.schedulerSelects, hstate, Bool.or_eq_true, Bool.and_eq_true] at hselected
    obtain ⟨hcondition, hpoll | hmanual⟩ := hselected.resolve_left fun hleft => htimed hleft.1
    · right
      obtain ⟨t, ht⟩ := Option.isSome_iff_exists.mp (h.coherent.polled hstate hcondition)
      rw [ht, dayReached_whole (h.bound.whole ht rfl)] at hpoll
      exact ⟨hstate, hcondition, t, ht, hpoll⟩
    · left
      cases htrigger : r.trigger with
      | condition adapter parameters poll manualCheckAt =>
        obtain ⟨hobject, -⟩ := poll_ahead (htrigger ▸ h.valid)
        rw [htrigger] at hmanual
        have hany : manualCheckAt.any (fun t => decide (t.utc ≤ now.utc)) = true := by
          cases manualCheckAt with
          | none => exact hmanual
          | some t =>
            have hwhole : t.truncateMillis = t := by
              apply h.whole
              rw [htrigger]
              exact List.mem_singleton_self t
            simpa using (dayReached_whole hwhole).mp hmanual
        have hevaluate : ∃ r', r.evaluate now RemindiService.schedulerContext .notEvaluated =
            .ok (r', ready .manualVerification [.becameDue]) := by
          simp only [Remindi.evaluate, hstate, Remindi.triggerSatisfaction]
          rw [show (r.checkedAt now).trigger = .condition adapter parameters poll manualCheckAt
            from htrigger]
          simp [hobject, hany]
        obtain ⟨r', hevaluate⟩ := hevaluate
        exact ⟨_, _, evaluateCandidate_of hevaluate (by simp [ready]), by simp [ready]⟩
      | _ =>
        rw [htrigger] at hcondition
        cases hcondition

/-- An item that needs an evaluation is selected. -/
theorem selected_of_needsEvaluation (h : Drainable r) (hneeds : r.NeedsEvaluation now) :
    Repository.schedulerSelects now r = true := by
  rcases hneeds with ⟨candidate, result, hcandidate, hevents⟩ | ⟨hstate, hcondition, t, ht, hreached⟩
  · obtain ⟨r', hevaluate⟩ := evaluate_of_candidate hcandidate
    cases hstate : r.state with
    | completed | cancelled | overdue =>
      simp only [Remindi.evaluate, hstate] at hevaluate
      cases hevaluate
      try exact absurd rfl hevents
    | snoozed =>
      obtain ⟨deadline, hdeadline⟩ := Option.isSome_iff_exists.mp (h.coherent.snoozeUntil.mpr hstate)
      simp only [Remindi.evaluate, hstate, Remindi.evaluateSnooze] at hevaluate
      rw [show (r.checkedAt now).snoozeUntil = some deadline from hdeadline] at hevaluate
      dsimp only at hevaluate
      split at hevaluate
      · cases hevaluate
        exact absurd rfl hevents
      · next hreached =>
        simp only [Repository.schedulerSelects, hstate, hdeadline]
        rw [dayReached_whole (h.bound.whole hdeadline rfl)]
        omega
    | due =>
      obtain ⟨dueSince, hdue⟩ := Option.isSome_iff_exists.mp (h.coherent.dueSince (Or.inl hstate))
      have hgrace : min r.overdueAfterSeconds i64Max = r.overdueAfterSeconds :=
        Nat.min_eq_left h.bound.overdueAfterSeconds
      simp only [Remindi.evaluate, hstate, Remindi.evaluateDue] at hevaluate
      rw [show (r.checkedAt now).dueSince = some dueSince from hdue,
        show (r.checkedAt now).overdueAfterSeconds = r.overdueAfterSeconds from rfl] at hevaluate
      dsimp only at hevaluate
      rw [hgrace] at hevaluate
      split at hevaluate
      · next hreached =>
        simp only [Repository.schedulerSelects, hstate, hdue, Option.map_some]
        rwa [dayReached_whole (OffsetDateTime.truncateMillis_addSeconds (h.bound.whole hdue rfl) _)]
      · cases hevaluate
        exact absurd rfl hevents
    | scheduled =>
      simp only [Remindi.evaluate, hstate, Remindi.triggerSatisfaction] at hevaluate
      rw [show (r.checkedAt now).trigger = r.trigger from rfl] at hevaluate
      cases htrigger : r.trigger with
      | atTime | afterElapsed | interval =>
        have htimed : r.trigger.isTimed = true := by
          rw [htrigger]
          rfl
        obtain ⟨anchor, hanchor⟩ := Option.isSome_iff_exists.mp (h.coherent.nextFireAt.mpr htimed)
        rw [htrigger] at hevaluate
        rw [show (r.checkedAt now).nextFireAt = some anchor from hanchor] at hevaluate
        simp only [Option.any_some] at hevaluate
        split at hevaluate
        · next hreached =>
          simp only [Repository.schedulerSelects, hstate, htimed, hanchor, Bool.true_and,
            Bool.or_eq_true]
          left
          rw [dayReached_whole (h.bound.whole hanchor rfl)]
          exact of_decide_eq_true hreached
        · cases hevaluate
          exact absurd rfl hevents
      | nextSession | nextContinuation | goalActive =>
        rw [htrigger] at hevaluate
        simp [RemindiService.schedulerContext, nonempty] at hevaluate
        obtain ⟨-, rfl⟩ := hevaluate
        exact absurd rfl hevents
      | condition adapter parameters poll manualCheckAt =>
        rw [htrigger] at hevaluate
        obtain ⟨hobject, -⟩ := poll_ahead (htrigger ▸ h.valid)
        simp only [hobject] at hevaluate
        cases manualCheckAt with
        | none =>
          simp at hevaluate
          obtain ⟨-, rfl⟩ := hevaluate
          exact absurd rfl hevents
        | some t =>
          have hwhole : t.truncateMillis = t := by
            apply h.whole
            rw [htrigger]
            exact List.mem_singleton_self t
          by_cases hreached : t.utc ≤ now.utc
          · simp only [Repository.schedulerSelects, hstate, htrigger, Trigger.isCondition,
              Bool.true_and, Bool.or_eq_true]
            right
            right
            exact (dayReached_whole hwhole).mpr hreached
          · simp [hreached] at hevaluate
            obtain ⟨-, rfl⟩ := hevaluate
            exact absurd rfl hevents
  · simp only [Repository.schedulerSelects, hstate, hcondition, ht, Bool.true_and, Bool.or_eq_true]
    right
    left
    exact (dayReached_whole (h.bound.whole ht rfl)).mpr hreached

/-- **The query selects exactly the items that need an evaluation.** -/
theorem schedulerSelects_iff (h : Drainable r) :
    Repository.schedulerSelects now r = true ↔ r.NeedsEvaluation now :=
  ⟨needsEvaluation_of_selected h, selected_of_needsEvaluation h⟩

end

end RemindiCore
