import RemindiCore.Domain.Evidence

/-!
# The item's transitions

Snooze, complete, cancel and trigger replacement (`remindi/state_machine.rs`).
Each returns the changed item and the event it calls for; the `_ok` lemma
beside it says what a success is.
-/

namespace RemindiCore

open CivilTime

namespace Remindi

def clearSnooze (r : Remindi) : Remindi :=
  { r with snoozeUntil := none, snoozedFromState := none }

/-- Snoozes a ready occurrence without moving its schedule. -/
def snooze (r : Remindi) (snoozeUntil : OffsetDateTime) (reason : String) (now : OffsetDateTime) :
    Except DomainError (Remindi × EventType) :=
  if r.state.isTerminal then .error .terminalState
  else if ¬(r.state = .due ∨ r.state = .overdue) then .error .snoozeRequiresReadyState
  else if trim reason = "" then .error .reasonRequired
  else if snoozeUntil.utc ≤ now.utc then .error .snoozeMustBeFuture
  else
    .ok ({ r with
      snoozedFromState := some r.state
      snoozeUntil := some snoozeUntil
      state := .snoozed
      snoozeCount := r.snoozeCount + 1
      version := r.version + 1
      updatedAt := now }, .snoozed)

/-- Completes an active item. -/
def complete (r : Remindi) (evidence : ValidatedEvidence) (now : OffsetDateTime) :
    Except DomainError (Remindi × EventType) :=
  if !r.state.isActive then .error .terminalState
  else if evidence.input.summary = "" then .error .completionEvidenceRequired
  else
    .ok ({ r.clearSnooze with
      state := .completed
      completedAt := some now
      version := r.version + 1
      updatedAt := now }, .completed)

/-- Cancels an active item, keeping its record. -/
def cancel (r : Remindi) (reason : String) (now : OffsetDateTime) :
    Except DomainError (Remindi × EventType) :=
  if !r.state.isActive then .error .terminalState
  else if trim reason = "" then .error .reasonRequired
  else
    .ok ({ r.clearSnooze with
      state := .cancelled
      cancelledAt := some now
      version := r.version + 1
      updatedAt := now }, .cancelled)

/-- A snoozed item goes back to a fresh schedule; a due or overdue one stays as it is. -/
def resetSnooze (r : Remindi) : Remindi :=
  if r.state = .snoozed then { r.clearSnooze with dueSince := none, state := .scheduled } else r

/-- Replaces the trigger of an active item. -/
def replaceTrigger (r : Remindi) (trigger : Trigger) (nextFireAt : Option OffsetDateTime)
    (now : OffsetDateTime) : Except DomainError (Remindi × EventType) :=
  if !r.state.isActive then .error .terminalState
  else
    match trigger.validate with
    | .error e => .error e
    | .ok () =>
      let replaced := resetSnooze { r with
        trigger := trigger
        nextFireAt := nextFireAt
        originalNextFireAt := nextFireAt
        nextEvaluationAt := none }
      .ok ({ replaced with version := r.version + 1, updatedAt := now }, .updated)

/-! ## Successes -/

variable {r r' : Remindi} {now : OffsetDateTime} {e : EventType}

theorem snooze_ok {snoozeUntil : OffsetDateTime} {reason : String}
    (h : r.snooze snoozeUntil reason now = .ok (r', e)) :
    (r.state = .due ∨ r.state = .overdue) ∧ now.utc < snoozeUntil.utc ∧
      r' = { r with
        snoozedFromState := some r.state
        snoozeUntil := some snoozeUntil
        state := .snoozed
        snoozeCount := r.snoozeCount + 1
        version := r.version + 1
        updatedAt := now } := by
  unfold snooze at h
  split at h
  · cases h
  split at h
  · cases h
  next hs =>
  split at h
  · cases h
  split at h
  · cases h
  next hu =>
  simp only [Except.ok.injEq, Prod.mk.injEq] at h
  exact ⟨Decidable.not_not.mp hs, by omega, h.1.symm⟩

theorem complete_ok {evidence : ValidatedEvidence}
    (h : r.complete evidence now = .ok (r', e)) :
    r.state.isActive = true ∧
      r' = { r.clearSnooze with
        state := .completed
        completedAt := some now
        version := r.version + 1
        updatedAt := now } := by
  unfold complete at h
  split at h
  · cases h
  next ha =>
  split at h
  · cases h
  simp only [Except.ok.injEq, Prod.mk.injEq] at h
  exact ⟨by simpa using ha, h.1.symm⟩

theorem cancel_ok {reason : String} (h : r.cancel reason now = .ok (r', e)) :
    r.state.isActive = true ∧
      r' = { r.clearSnooze with
        state := .cancelled
        cancelledAt := some now
        version := r.version + 1
        updatedAt := now } := by
  unfold cancel at h
  split at h
  · cases h
  next ha =>
  split at h
  · cases h
  simp only [Except.ok.injEq, Prod.mk.injEq] at h
  exact ⟨by simpa using ha, h.1.symm⟩

theorem replaceTrigger_ok {trigger : Trigger} {nextFireAt : Option OffsetDateTime}
    (h : r.replaceTrigger trigger nextFireAt now = .ok (r', e)) :
    r.state.isActive = true ∧ trigger.validate = .ok () ∧
      r' = { resetSnooze { r with
          trigger := trigger
          nextFireAt := nextFireAt
          originalNextFireAt := nextFireAt
          nextEvaluationAt := none } with
        version := r.version + 1
        updatedAt := now } := by
  unfold replaceTrigger at h
  split at h
  · cases h
  next ha =>
  split at h
  · cases h
  next hv =>
  simp only [Except.ok.injEq, Prod.mk.injEq] at h
  exact ⟨by simpa using ha, hv, h.1.symm⟩

end Remindi

end RemindiCore
