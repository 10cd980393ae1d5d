import RemindiCore.Service.Operations

/-!
# What the closures of the mutations do

Success lemmas for `completeItem`, `snoozeItem`, `cancelItem` and `updateItem`.
An update is three steps after its simple fields: a trigger (`TriggerStep`), a
recurrence (`RecurrenceStep`) and a disposition (`DispositionStep`).
`updateItem_ok` gives all three, so what an update keeps is shown step by step.
-/

namespace RemindiCore

open CivilTime JsonText Transaction

variable {now : OffsetDateTime} {prior : Remindi} {mutation : Mutation}

/-! ## Complete, snooze and cancel -/

theorem completeItem_ok {request : CompleteRequest} {evidence : ValidatedEvidence}
    (h : completeItem request evidence now prior = .ok mutation) :
    prior.complete evidence now = .ok (mutation.item, mutation.eventType) ∧
      mutation.evidence = some evidence ∧ mutation.replacementLinks = none := by
  unfold completeItem at h
  obtain ⟨⟨item, e⟩, hc, h⟩ := except_bind_ok.mp h
  cases h
  exact ⟨domain_ok.mp hc, rfl, rfl⟩

theorem snoozeItem_ok {request : SnoozeRequest} (h : snoozeItem request now prior = .ok mutation) :
    prior.snooze request.snoozeUntil request.reason now =
        .ok (mutation.item, mutation.eventType) ∧
      mutation.evidence = none ∧ mutation.replacementLinks = none := by
  unfold snoozeItem at h
  obtain ⟨⟨item, e⟩, hs, h⟩ := except_bind_ok.mp h
  obtain ⟨_, -, h⟩ := except_bind_ok.mp h
  obtain ⟨_, -, h⟩ := except_bind_ok.mp h
  cases h
  exact ⟨domain_ok.mp hs, rfl, rfl⟩

theorem cancelItem_ok {request : CancelRequest} (h : cancelItem request now prior = .ok mutation) :
    prior.cancel request.reason now = .ok (mutation.item, mutation.eventType) ∧
      mutation.evidence = none ∧ mutation.replacementLinks = none := by
  unfold cancelItem at h
  obtain ⟨⟨item, e⟩, hc, h⟩ := except_bind_ok.mp h
  cases h
  exact ⟨domain_ok.mp hc, rfl, rfl⟩

/-! ## The steps of an update -/

/-- The item with a new trigger on its own schedule. -/
def installed (item : Remindi) (trigger : Trigger) (next : Option OffsetDateTime)
    (now : OffsetDateTime) : Remindi :=
  { Remindi.resetSnooze { item with
      trigger := trigger
      nextFireAt := next
      originalNextFireAt := next
      nextEvaluationAt := none } with
    version := item.version + 1
    updatedAt := now
    nextEvaluationAt := initialNextEvaluationAt trigger now }

inductive TriggerStep (request : UpdateRequest) (now : OffsetDateTime) (item : Remindi) :
    Remindi → Prop
  | keep (h : request.trigger = none) : TriggerStep request now item item
  | install {trigger : Trigger} {next : Option OffsetDateTime} (h : request.trigger = some trigger)
      (hnext : initialNextFireAt trigger now = .ok next) (hactive : item.state.isActive = true)
      (hvalid : trigger.validate = .ok ()) :
      TriggerStep request now item (installed item trigger next now)

/-- The new recurrence, or the old one, which fits the trigger. -/
structure RecurrenceStep (request : UpdateRequest) (item item' : Remindi) : Prop where
  eq : item' = { item with recurrence := request.recurrence.getD item.recurrence }
  fits : ∀ spec, item'.recurrence = some spec → spec.validateForTrigger item'.trigger = .ok ()

/-- The item at the occurrence `advance` has found. -/
def advancedTo (item : Remindi) (advance : RecurrenceAdvance) : Remindi :=
  { item with
    nextFireAt := some advance.nextFireAt
    originalNextFireAt := some advance.nextFireAt
    occurrenceNo := advance.occurrenceNo
    dueSince := none
    state := .scheduled }

inductive DispositionStep (request : UpdateRequest) (now : OffsetDateTime) (item : Remindi) :
    Remindi → Prop
  | keep (h : request.occurrenceDisposition = none) : DispositionStep request now item item
  | advance {disposition : OccurrenceDisposition} {spec : RecurrenceSpec} {anchor : OffsetDateTime}
      {advance : RecurrenceAdvance} (h : request.occurrenceDisposition = some disposition)
      (hspec : item.recurrence = some spec) (hanchor : item.nextFireAt = some anchor)
      (hadvance : spec.advance anchor item.occurrenceNo now disposition = .ok advance) :
      DispositionStep request now item (advancedTo item advance)

variable {request : UpdateRequest} {item item' : Remindi}

theorem applyTrigger_ok (h : applyTrigger request now item = .ok item') :
    TriggerStep request now item item' := by
  unfold applyTrigger at h
  split at h
  · next hnone =>
    cases h
    exact .keep hnone
  · next trigger hsome =>
    obtain ⟨next, hnext, h⟩ := except_bind_ok.mp h
    obtain ⟨⟨replaced, e⟩, hreplace, h⟩ := except_bind_ok.mp h
    cases h
    obtain ⟨hactive, hvalid, rfl⟩ := Remindi.replaceTrigger_ok (domain_ok.mp hreplace)
    exact .install hsome hnext hactive hvalid

theorem applyRecurrence_ok (h : applyRecurrence request item = .ok item') :
    RecurrenceStep request item item' := by
  unfold applyRecurrence at h
  dsimp only at h
  split at h
  · next hnone =>
    cases h
    refine ⟨rfl, fun spec hspec => ?_⟩
    rw [hnone] at hspec
    cases hspec
  · next spec hsome =>
    obtain ⟨_, hfit, h⟩ := except_bind_ok.mp h
    cases h
    refine ⟨rfl, fun spec' hspec => ?_⟩
    obtain rfl : spec = spec' := Option.some.inj (hsome.symm.trans hspec)
    exact domain_ok.mp hfit

theorem applyDisposition_ok {skipped : Nat}
    (h : applyDisposition request now item = .ok (item', skipped)) :
    DispositionStep request now item item' := by
  unfold applyDisposition at h
  split at h
  · next hnone =>
    cases h
    exact .keep hnone
  · next disposition hsome =>
    split at h
    · next spec anchor hspec hanchor =>
      obtain ⟨advance, hadvance, h⟩ := except_bind_ok.mp h
      cases h
      exact .advance hsome hspec hanchor (domain_ok.mp hadvance)
    · cases h

/-- Everything an update does to the item. -/
structure UpdateSteps (request : UpdateRequest) (now : OffsetDateTime) (prior : Remindi)
    (triggered recurred moved : Remindi) : Prop where
  active : prior.state.isActive = true
  ready : request.occurrenceDisposition.isSome = true → prior.state = .due ∨ prior.state = .overdue
  trigger : TriggerStep request now (applyFields request prior) triggered
  recurrence : RecurrenceStep request triggered recurred
  disposition : DispositionStep request now recurred moved

theorem updateItem_ok (h : updateItem request now prior = .ok mutation) :
    ∃ triggered recurred moved, UpdateSteps request now prior triggered recurred moved ∧
      mutation.item = bumpVersion prior.version now moved ∧
      mutation.eventType =
        (if request.occurrenceDisposition.isSome then .occurrenceAdvanced else .updated) ∧
      mutation.evidence = none := by
  unfold updateItem at h
  split at h
  · cases h
  next hactive =>
  split at h
  · cases h
  next hready =>
  obtain ⟨priorTrigger, -, h⟩ := except_bind_ok.mp h
  obtain ⟨⟨changed, skipped⟩, hfields, h⟩ := except_bind_ok.mp h
  obtain ⟨_, -, h⟩ := except_bind_ok.mp h
  obtain ⟨details, -, h⟩ := except_bind_ok.mp h
  cases h
  unfold updateFields at hfields
  obtain ⟨triggered, htrigger, hfields⟩ := except_bind_ok.mp hfields
  obtain ⟨recurred, hrecurrence, hfields⟩ := except_bind_ok.mp hfields
  obtain ⟨⟨moved, skipped'⟩, hdisposition, hfields⟩ := except_bind_ok.mp hfields
  cases hfields
  refine ⟨triggered, recurred, moved, ?_, rfl, rfl, rfl⟩
  exact
    { active := by simpa using hactive
      ready := fun hsome => by
        rw [not_and, Decidable.not_not] at hready
        exact hready hsome
      trigger := applyTrigger_ok htrigger
      recurrence := applyRecurrence_ok hrecurrence
      disposition := applyDisposition_ok hdisposition }

/-! ## What every step keeps -/

/-- The same item of the same owner. -/
structure SameItem (a b : Remindi) : Prop where
  id : a.id = b.id
  ownerId : a.ownerId = b.ownerId

theorem SameItem.trans {a b c : Remindi} (hab : SameItem a b) (hbc : SameItem b c) :
    SameItem a c := ⟨hab.id.trans hbc.id, hab.ownerId.trans hbc.ownerId⟩

@[simp] theorem resetSnooze_id (r : Remindi) : r.resetSnooze.id = r.id := by
  unfold Remindi.resetSnooze
  split <;> rfl

@[simp] theorem resetSnooze_ownerId (r : Remindi) : r.resetSnooze.ownerId = r.ownerId := by
  unfold Remindi.resetSnooze
  split <;> rfl

theorem TriggerStep.sameItem (h : TriggerStep request now item item') : SameItem item' item := by
  cases h with
  | keep h => exact ⟨rfl, rfl⟩
  | install h hnext hactive hvalid => exact ⟨resetSnooze_id _, resetSnooze_ownerId _⟩

theorem DispositionStep.sameItem (h : DispositionStep request now item item') :
    SameItem item' item := by
  cases h <;> exact ⟨rfl, rfl⟩

theorem bumpVersion_sameItem (version : Nat) (now : OffsetDateTime) (item : Remindi) :
    SameItem (bumpVersion version now item) item := by
  unfold bumpVersion
  split <;> exact ⟨rfl, rfl⟩

theorem updateItem_sameItem (h : updateItem request now prior = .ok mutation) :
    SameItem mutation.item prior := by
  obtain ⟨triggered, recurred, moved, steps, hitem, -, -⟩ := updateItem_ok h
  have hrecurred : SameItem recurred triggered := by
    rw [steps.recurrence.eq]
    exact ⟨rfl, rfl⟩
  rw [hitem]
  exact (bumpVersion_sameItem _ _ _).trans <| steps.disposition.sameItem.trans <|
    hrecurred.trans <| steps.trigger.sameItem.trans ⟨rfl, rfl⟩

theorem TriggerStep.trigger (h : TriggerStep request now item item') :
    item'.trigger = request.trigger.getD item.trigger := by
  cases h with
  | keep hnone => rw [hnone, Option.getD_none]
  | install hsome hnext hactive hvalid =>
    rw [hsome, Option.getD_some]
    unfold installed Remindi.resetSnooze
    split <;> rfl

/-- An update ends with the trigger it asks for, or the one that was there. -/
theorem updateItem_trigger (h : updateItem request now prior = .ok mutation) :
    mutation.item.trigger = request.trigger.getD prior.trigger := by
  obtain ⟨triggered, recurred, moved, steps, hitem, -, -⟩ := updateItem_ok h
  have hmoved : moved.trigger = recurred.trigger := by
    cases steps.disposition <;> rfl
  have hbumped : (bumpVersion prior.version now moved).trigger = moved.trigger := by
    unfold bumpVersion
    split <;> rfl
  rw [hitem, hbumped, hmoved, steps.recurrence.eq]
  exact steps.trigger.trigger

/-- The same item with the same schedule. -/
structure SameSchedule (a b : Remindi) : Prop extends SameItem a b where
  trigger : a.trigger = b.trigger
  recurrence : a.recurrence = b.recurrence
  nextFireAt : a.nextFireAt = b.nextFireAt
  occurrenceNo : a.occurrenceNo = b.occurrenceNo

theorem completeItem_sameSchedule {request : CompleteRequest} {evidence : ValidatedEvidence}
    (h : completeItem request evidence now prior = .ok mutation) :
    SameSchedule mutation.item prior := by
  rw [(Remindi.complete_ok (completeItem_ok h).1).2]
  exact ⟨⟨rfl, rfl⟩, rfl, rfl, rfl, rfl⟩

theorem snoozeItem_sameSchedule {request : SnoozeRequest}
    (h : snoozeItem request now prior = .ok mutation) : SameSchedule mutation.item prior := by
  rw [(Remindi.snooze_ok (snoozeItem_ok h).1).2.2]
  exact ⟨⟨rfl, rfl⟩, rfl, rfl, rfl, rfl⟩

theorem cancelItem_sameSchedule {request : CancelRequest}
    (h : cancelItem request now prior = .ok mutation) : SameSchedule mutation.item prior := by
  rw [(Remindi.cancel_ok (cancelItem_ok h).1).2]
  exact ⟨⟨rfl, rfl⟩, rfl, rfl, rfl, rfl⟩

end RemindiCore
