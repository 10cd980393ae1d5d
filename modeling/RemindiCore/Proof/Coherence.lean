import RemindiCore.Proof.Steps

/-!
# Coherence of the stored items

`Coherent` ties the nine fields of an item that depend on its state and its
trigger to each other.  Every transition, every step of an update and every
evaluation keeps it, and so does storing the row.
-/

namespace RemindiCore

open CivilTime Transaction

/-! ## The invariant -/

/-- What the state and the trigger of an item say about its other fields. -/
structure Lifecycle (r : Remindi) : Prop where
  snoozeUntil : r.snoozeUntil.isSome = true ↔ r.state = .snoozed
  snoozedFromState : r.snoozedFromState.isSome = true ↔ r.state = .snoozed
  resumes : ∀ state, r.snoozedFromState = some state → state = .due ∨ state = .overdue
  completedAt : r.completedAt.isSome = true ↔ r.state = .completed
  cancelledAt : r.cancelledAt.isSome = true ↔ r.state = .cancelled
  nextFireAt : r.nextFireAt.isSome = true ↔ r.trigger.isTimed = true
  originalNextFireAt : r.originalNextFireAt = r.nextFireAt
  undue : r.state = .scheduled → r.dueSince = none
  dueSince : r.state = .due ∨ r.state = .overdue ∨ r.state = .snoozed → r.dueSince.isSome = true
  polled : r.state = .scheduled → r.trigger.isCondition = true →
    r.nextEvaluationAt.isSome = true
  occurrenceNo : 1 ≤ r.occurrenceNo

/-- A recurrence stands beside an interval trigger of the same period. -/
def RecurrenceFits (r : Remindi) : Prop :=
  ∀ spec, r.recurrence = some spec → ∃ firstAt, r.trigger = .interval firstAt spec.everySeconds

/-- The coupled fields of an item agree. -/
structure Coherent (r : Remindi) : Prop extends Lifecycle r where
  recurrence : RecurrenceFits r

theorem RecurrenceFits.of_eq {a b : Remindi} (h : RecurrenceFits b)
    (htrigger : a.trigger = b.trigger) (hrecurrence : a.recurrence = b.recurrence) :
    RecurrenceFits a := by
  unfold RecurrenceFits
  rw [htrigger, hrecurrence]
  exact h

variable {r r' : Remindi} {now : OffsetDateTime}

/-! ## New items and new triggers -/

theorem initialNextFireAt_isSome {trigger : Trigger} {next : Option OffsetDateTime}
    (h : initialNextFireAt trigger now = .ok next) :
    next.isSome = true ↔ trigger.isTimed = true := by
  cases trigger with
  | afterElapsed afterSeconds =>
    simp only [initialNextFireAt] at h
    split at h
    · cases h
      simp [Trigger.isTimed]
    · cases h
  | _ =>
    cases h
    simp [Trigger.isTimed]

/-- A condition with a valid poll interval has a first poll. -/
theorem initialNextEvaluationAt_isSome {trigger : Trigger} (hvalid : trigger.validate = .ok ())
    (hcondition : trigger.isCondition = true) :
    (initialNextEvaluationAt trigger now).isSome = true := by
  cases trigger with
  | condition adapter parameters poll manualCheckAt =>
    have hpoll : poll.getD 30 ≤ i64Max := by
      simp only [Trigger.validate] at hvalid
      split at hvalid
      · cases hvalid
      split at hvalid
      · cases hvalid
      split at hvalid
      · cases hvalid
      next hbound =>
      cases poll with
      | none => decide
      | some seconds =>
        simp at hbound
        simp only [Option.getD_some, i64Max]
        omega
    simp only [initialNextEvaluationAt, if_pos hpoll]
    cases manualCheckAt <;> rfl
  | _ => cases hcondition

theorem newItem_coherent {ownerId : String} {id : Uuid} {request : AddRequest}
    {next : Option OffsetDateTime} (hnext : initialNextFireAt request.trigger now = .ok next)
    (hvalid : request.trigger.validate = .ok ())
    (hfits : ∀ spec, request.recurrence = some spec →
      spec.validateForTrigger request.trigger = .ok ()) :
    Coherent (RemindiService.newItem ownerId id request next now) where
  snoozeUntil := by simp [RemindiService.newItem]
  snoozedFromState := by simp [RemindiService.newItem]
  resumes := by simp [RemindiService.newItem]
  completedAt := by simp [RemindiService.newItem]
  cancelledAt := by simp [RemindiService.newItem]
  nextFireAt := initialNextFireAt_isSome hnext
  originalNextFireAt := rfl
  undue := fun _ => rfl
  dueSince := by simp [RemindiService.newItem]
  polled := fun _ hcondition => initialNextEvaluationAt_isSome hvalid hcondition
  occurrenceNo := Nat.le_refl 1
  recurrence := fun spec hspec => RecurrenceSpec.validateForTrigger_ok (hfits spec hspec)

/-! ## Snooze, complete and cancel -/

theorem Coherent.snooze {snoozeUntil : OffsetDateTime} {reason : String} {e : EventType}
    (h : Coherent r) (hop : r.snooze snoozeUntil reason now = .ok (r', e)) : Coherent r' := by
  obtain ⟨hstate, -, rfl⟩ := Remindi.snooze_ok hop
  exact
    { h with
      snoozeUntil := by simp
      snoozedFromState := by simp
      resumes := fun state hresume => by
        obtain rfl := Option.some.inj hresume
        exact hstate
      completedAt := by have := h.completedAt; rcases hstate with hs | hs <;> simpa [hs] using this
      cancelledAt := by have := h.cancelledAt; rcases hstate with hs | hs <;> simpa [hs] using this
      undue := by simp
      dueSince := fun _ => h.dueSince (hstate.imp_right Or.inl)
      polled := by simp
      recurrence := h.recurrence.of_eq rfl rfl }

/-- An active item is neither completed nor cancelled. -/
theorem Lifecycle.open_of_active (h : Lifecycle r) (hactive : r.state.isActive = true) :
    r.completedAt = none ∧ r.cancelledAt = none := by
  constructor
  · rw [← Option.not_isSome_iff_eq_none, h.completedAt]
    rintro hstate
    rw [hstate] at hactive
    cases hactive
  · rw [← Option.not_isSome_iff_eq_none, h.cancelledAt]
    rintro hstate
    rw [hstate] at hactive
    cases hactive

theorem Coherent.complete {evidence : ValidatedEvidence} {e : EventType} (h : Coherent r)
    (hop : r.complete evidence now = .ok (r', e)) : Coherent r' := by
  obtain ⟨hactive, rfl⟩ := Remindi.complete_ok hop
  obtain ⟨-, hcancelled⟩ := h.open_of_active hactive
  exact
    { h with
      snoozeUntil := by simp [Remindi.clearSnooze]
      snoozedFromState := by simp [Remindi.clearSnooze]
      resumes := by simp [Remindi.clearSnooze]
      completedAt := by simp
      cancelledAt := by simp [Remindi.clearSnooze, hcancelled]
      undue := by simp
      dueSince := by simp
      polled := by simp
      recurrence := h.recurrence.of_eq rfl rfl }

theorem Coherent.cancel {reason : String} {e : EventType} (h : Coherent r)
    (hop : r.cancel reason now = .ok (r', e)) : Coherent r' := by
  obtain ⟨hactive, rfl⟩ := Remindi.cancel_ok hop
  obtain ⟨hcompleted, -⟩ := h.open_of_active hactive
  exact
    { h with
      snoozeUntil := by simp [Remindi.clearSnooze]
      snoozedFromState := by simp [Remindi.clearSnooze]
      resumes := by simp [Remindi.clearSnooze]
      completedAt := by simp [Remindi.clearSnooze, hcompleted]
      cancelledAt := by simp
      undue := by simp
      dueSince := by simp
      polled := by simp
      recurrence := h.recurrence.of_eq rfl rfl }

/-! ## Updates -/

section

variable {request : UpdateRequest}

theorem Lifecycle.applyFields (h : Lifecycle r) : Lifecycle (applyFields request r) :=
  { h with }

/-- A new trigger starts its own schedule; a due item stays due. -/
theorem Lifecycle.triggerStep (h : Lifecycle r) (hstep : TriggerStep request now r r') :
    Lifecycle r' := by
  cases hstep with
  | keep hnone => exact h
  | @install trigger next hsome hnext hactive hvalid =>
    obtain ⟨hcompleted, hcancelled⟩ := h.open_of_active hactive
    have hfires := initialNextFireAt_isSome hnext
    have hpolled : trigger.isCondition = true →
        (initialNextEvaluationAt trigger now).isSome = true :=
      initialNextEvaluationAt_isSome hvalid
    by_cases hstate : r.state = .snoozed
    · simp only [installed, Remindi.resetSnooze, hstate, if_pos, Remindi.clearSnooze]
      constructor <;> simp_all [h.occurrenceNo]
    · have hawake := mt h.snoozeUntil.mp hstate
      have hstays := mt h.snoozedFromState.mp hstate
      simp only [installed, Remindi.resetSnooze, if_neg hstate]
      exact
        { h with
          nextFireAt := hfires
          originalNextFireAt := rfl
          polled := fun _ => hpolled }

theorem Lifecycle.recurrenceStep (h : Lifecycle r) (hstep : RecurrenceStep request r r') :
    Coherent r' := by
  have hfits : RecurrenceFits r' := fun spec hspec =>
    RecurrenceSpec.validateForTrigger_ok (hstep.fits spec hspec)
  have heq := hstep.eq
  rw [heq] at hfits ⊢
  exact { h with recurrence := hfits }

/-- A disposition of a due item schedules the next occurrence. -/
theorem Coherent.dispositionStep (h : Coherent r) (hstep : DispositionStep request now r r')
    (hready : request.occurrenceDisposition.isSome = true → r.state = .due ∨ r.state = .overdue) :
    Coherent r' := by
  cases hstep with
  | keep hnone => exact h
  | @advance disposition spec anchor advance hsome hspec hanchor hadvance =>
    have hstate := hready (by rw [hsome]; rfl)
    obtain ⟨firstAt, htrigger⟩ := h.recurrence spec hspec
    obtain ⟨k, hadvanced, -⟩ := RecurrenceSpec.advance_ok hadvance
    have hawake : r.state ≠ .snoozed := by rcases hstate with hs | hs <;> simp [hs]
    obtain ⟨hcompleted, hcancelled⟩ := h.open_of_active (by
      rcases hstate with hs | hs <;> simp [hs, RemindiState.isActive])
    exact
      { h with
        snoozeUntil := by simpa [advancedTo] using mt h.snoozeUntil.mp hawake
        snoozedFromState := by simpa [advancedTo] using mt h.snoozedFromState.mp hawake
        completedAt := by simp [advancedTo, hcompleted]
        cancelledAt := by simp [advancedTo, hcancelled]
        nextFireAt := by simp [advancedTo, htrigger, Trigger.isTimed]
        originalNextFireAt := rfl
        undue := fun _ => rfl
        dueSince := by simp [advancedTo]
        polled := by simp [advancedTo, htrigger, Trigger.isCondition]
        occurrenceNo := by
          have := hadvanced.occurrenceNo
          have := h.occurrenceNo
          simp only [advancedTo]
          omega
        recurrence := h.recurrence.of_eq rfl rfl }

theorem Coherent.bumpVersion (h : Coherent r) (version : Nat) :
    Coherent (bumpVersion version now r) := by
  unfold RemindiCore.bumpVersion
  split
  · exact { h with recurrence := h.recurrence.of_eq rfl rfl }
  · exact h

/-- A new trigger leaves a due or overdue item in its state. -/
theorem TriggerStep.state (h : TriggerStep request now r r') (hawake : r.state ≠ .snoozed) :
    r'.state = r.state := by
  cases h with
  | keep hnone => rfl
  | install hsome hnext hactive hvalid =>
    simp only [installed, Remindi.resetSnooze, if_neg hawake]

theorem Coherent.update {mutation : Mutation} (h : Coherent r)
    (hop : updateItem request now r = .ok mutation) : Coherent mutation.item := by
  obtain ⟨triggered, recurred, moved, steps, hitem, -, -⟩ := updateItem_ok hop
  have htriggered := h.toLifecycle.applyFields.triggerStep steps.trigger
  have hrecurred := htriggered.recurrenceStep steps.recurrence
  rw [hitem]
  refine (hrecurred.dispositionStep steps.disposition fun hsome => ?_).bumpVersion _
  have hready := steps.ready hsome
  have hstate : recurred.state = r.state := by
    rw [steps.recurrence.eq]
    refine (steps.trigger.state ?_).trans rfl
    rcases hready with hs | hs <;> simp [RemindiCore.applyFields, hs]
  rw [hstate]
  exact hready

end

/-! ## Evaluations -/

theorem Coherent.checkedAt (h : Coherent r) (now : OffsetDateTime) : Coherent (r.checkedAt now) :=
  { h with recurrence := h.recurrence.of_eq rfl rfl }

theorem Coherent.evaluation {condition : ConditionEvaluation} {result : EvaluationResult}
    (h : Coherent r) (hop : r.Evaluation now condition r' result) : Coherent r' := by
  cases hop with
  | asleep hstate => exact h.checkedAt now
  | stays hstate readiness => exact h.checkedAt now
  | awoken hstate overdue =>
    obtain ⟨hcompleted, hcancelled⟩ := h.open_of_active (by simp [hstate, RemindiState.isActive])
    have hsince := h.dueSince (Or.inr (Or.inr hstate))
    cases overdue
    all_goals
      exact
        { h with
          snoozeUntil := by simp [Remindi.clearSnooze]
          snoozedFromState := by simp [Remindi.clearSnooze]
          resumes := by simp [Remindi.clearSnooze]
          completedAt := by simp [Remindi.clearSnooze, Remindi.checkedAt, hcompleted]
          cancelledAt := by simp [Remindi.clearSnooze, Remindi.checkedAt, hcancelled]
          undue := by simp
          dueSince := fun _ => hsince
          polled := by simp
          recurrence := h.recurrence.of_eq rfl rfl }
  | becomesOverdue hstate =>
    have hsince := h.dueSince (Or.inl hstate)
    exact
      { h with
        snoozeUntil := by simpa [Remindi.checkedAt, hstate] using h.snoozeUntil
        snoozedFromState := by simpa [Remindi.checkedAt, hstate] using h.snoozedFromState
        completedAt := by simpa [Remindi.checkedAt, hstate] using h.completedAt
        cancelledAt := by simpa [Remindi.checkedAt, hstate] using h.cancelledAt
        undue := by simp
        dueSince := fun _ => hsince
        polled := by simp
        recurrence := h.recurrence.of_eq rfl rfl }
  | waits hstate observation =>
    have hpolled := observation.polled rfl
    rw [observation.only]
    exact
      { h with
        polled := fun _ hcondition => by
          rcases hpolled with heq | hsome
          · rw [heq]
            exact h.polled hstate hcondition
          · exact hsome
        recurrence := h.recurrence.of_eq rfl rfl }
  | becomesDue hstate observation readiness =>
    rw [observation.only]
    exact
      { h with
        snoozeUntil := by simpa [Remindi.checkedAt, hstate] using h.snoozeUntil
        snoozedFromState := by simpa [Remindi.checkedAt, hstate] using h.snoozedFromState
        completedAt := by simpa [Remindi.checkedAt, hstate] using h.completedAt
        cancelledAt := by simpa [Remindi.checkedAt, hstate] using h.cancelledAt
        undue := by simp
        dueSince := fun _ => rfl
        polled := by simp
        recurrence := h.recurrence.of_eq rfl rfl }

theorem Coherent.evaluated {events : List EventType} (h : Coherent r)
    (hop : Evaluated r now r' events) : Coherent r' := by
  obtain ⟨evaluation, -, detail⟩ := hop
  have h := h.evaluation evaluation
  unfold RemindiService.evaluatedVersion
  split <;> exact { h with recurrence := h.recurrence.of_eq rfl rfl }

/-! ## Storing -/

theorem Coherent.stored {x : Externals} (h : Coherent r) : Coherent (r.stored x) where
  snoozeUntil := by simpa [Remindi.stored, Remindi.truncateMillis] using h.snoozeUntil
  snoozedFromState := h.snoozedFromState
  resumes := h.resumes
  completedAt := by simpa [Remindi.stored, Remindi.truncateMillis] using h.completedAt
  cancelledAt := by simpa [Remindi.stored, Remindi.truncateMillis] using h.cancelledAt
  nextFireAt := by simpa [Remindi.stored, Remindi.truncateMillis] using h.nextFireAt
  originalNextFireAt := by simp [Remindi.stored, Remindi.truncateMillis, h.originalNextFireAt]
  undue := fun hstate => by simp [Remindi.stored, Remindi.truncateMillis, h.undue hstate]
  dueSince := fun hstate => by simpa [Remindi.stored, Remindi.truncateMillis] using h.dueSince hstate
  polled := fun hstate hcondition => by
    have hcondition : r.trigger.isCondition = true := by
      rw [← Trigger.isCondition_mapNumbers x.readNumber]
      exact hcondition
    simpa [Remindi.stored, Remindi.truncateMillis] using h.polled hstate hcondition
  occurrenceNo := h.occurrenceNo
  recurrence spec hspec := by
    obtain ⟨firstAt, htrigger⟩ := h.recurrence spec hspec
    exact ⟨firstAt, (Trigger.mapNumbers_eq_other _ rfl).mpr htrigger⟩

theorem Coherent.writtenOver {x : Externals} (h : Coherent r) (old : Remindi) :
    Coherent (r.writtenOver x old) :=
  have h := h.stored (x := x)
  { h with recurrence := h.recurrence.of_eq rfl rfl }

/-! ## Every run -/

theorem Operates.coherent {actor : Actor} {call : Call} {mutation : Mutation} (h : Coherent r)
    (hop : Operates actor now r call mutation) : Coherent mutation.item := by
  cases hop with
  | complete prepared validated ok => exact h.complete (completeItem_ok ok).1
  | snooze prepared ok => exact h.snooze (snoozeItem_ok ok).1
  | cancel prepared ok => exact h.cancel (cancelItem_ok ok).1
  | update prepared ok => exact h.update ok

theorem Change.coherent {x : Externals} {s : System} {label : Label} {before : Option Remindi}
    {after : Remindi} {types : List EventType} (hop : Change x s label before after types)
    (h : ∀ prior, before = some prior → Coherent prior) : Coherent after := by
  cases hop with
  | add prepared fires =>
    obtain ⟨-, -, -, hvalid, hfits⟩ := prepareAdd_ok prepared
    exact (newItem_coherent fires hvalid hfits).stored
  | operate target operates => exact (operates.coherent (h _ rfl)).writtenOver _
  | check hpending hitem evaluated => exact ((h _ rfl).evaluated evaluated).writtenOver _
  | poll hpoll hcandidates evaluated => exact ((h _ rfl).evaluated evaluated).writtenOver _

/-- **Every stored item is coherent, in every state of every run.** -/
theorem stored_items_coherent (x : Externals) (labels : List Label) :
    ∀ id row, (runOf x labels).db.remindi.find? id = some row → Coherent row :=
  rows_invariant Change.coherent labels

/-- A new reminder is stored, and coherent. -/
theorem sample_item_coherent :
    ∃ row, (runOf Sample.externals
        [Sample.call (.add Sample.everyMinute) 500 0]).db.remindi.find? (Sample.uuid 0) = some row ∧
      Coherent row := by
  have hsome : ((runOf Sample.externals
      [Sample.call (.add Sample.everyMinute) 500 0]).db.remindi.find? (Sample.uuid 0)).isSome =
        true := by
    decide +kernel
  obtain ⟨row, hrow⟩ := Option.isSome_iff_exists.mp hsome
  exact ⟨row, hrow, stored_items_coherent _ _ _ row hrow⟩

end RemindiCore
