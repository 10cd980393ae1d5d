import RemindiCore.Domain.Model
import RemindiCore.Lib.Transaction

/-!
# Recurrence

`RecurrenceSpec.advance` and its neighbours (`remindi/recurrence.rs`).  The
loop over missed occurrences runs at most as often as there are grid times up
to `now`; `advance_ok` says what it returns: the anchor moved on by `k` periods
and the number by `k`, where for coalesce and skip every grid time before the
new one has passed and the new one has not.
-/

namespace RemindiCore

open CivilTime Transaction

/-- The next anchored occurrence after a disposition. -/
structure RecurrenceAdvance where
  nextFireAt : OffsetDateTime
  occurrenceNo : Nat
  skippedCount : Nat
deriving DecidableEq

namespace RecurrenceSpec

/-! ## Validation -/

def validate (spec : RecurrenceSpec) : Except DomainError Unit :=
  if ¬(60 ≤ spec.everySeconds ∧ spec.everySeconds ≤ 31536000) then
    .error .invalidRecurrenceInterval
  else if spec.maxOccurrences.any (fun maximum => !(1 ≤ maximum && maximum ≤ 1000000)) then
    .error .invalidMaxOccurrences
  else .ok ()

/-- The recurrence belongs to an interval trigger with the same period. -/
def validateForTrigger (spec : RecurrenceSpec) (trigger : Trigger) : Except DomainError Unit := do
  spec.validate
  match trigger with
  | .interval _ everySeconds =>
    if everySeconds = spec.everySeconds then .ok () else .error .recurrenceIntervalMismatch
  | _ => .error .recurrenceRequiresIntervalTrigger

def ensurePermitted (spec : RecurrenceSpec) (nextFireAt : OffsetDateTime) (occurrenceNo : Nat) :
    Except DomainError Unit :=
  if spec.maxOccurrences.any (fun maximum => maximum < occurrenceNo) ||
      spec.endAt.any (fun endAt => endAt.utc < nextFireAt.utc) then
    .error .finalOccurrence
  else .ok ()

/-! ## Advancing -/

/-- How many grid times from `next` on have passed at `now`. -/
def passed (spec : RecurrenceSpec) (next now : OffsetDateTime) : Nat :=
  ((now.utc - next.utc) / (spec.everySeconds * secondNanos) + 1).toNat

/-- The `while next <= now` of `advance`. -/
def advanceLoop (spec : RecurrenceSpec) (now : OffsetDateTime) :
    Nat → RecurrenceAdvance → Except DomainError RecurrenceAdvance
  | 0, acc => .ok acc
  | fuel + 1, acc =>
    if acc.nextFireAt.utc ≤ now.utc then do
      let next := acc.nextFireAt.addSeconds spec.everySeconds
      spec.ensurePermitted next (acc.occurrenceNo + 1)
      advanceLoop spec now fuel
        { nextFireAt := next
          occurrenceNo := acc.occurrenceNo + 1
          skippedCount :=
            if spec.missedPolicy = .skip then acc.skippedCount + 1 else acc.skippedCount }
    else .ok acc

/-- The next occurrence after the anchor, never after `now`. -/
def advance (spec : RecurrenceSpec) (previousNextFireAt : OffsetDateTime) (occurrenceNo : Nat)
    (now : OffsetDateTime) (_disposition : OccurrenceDisposition) :
    Except DomainError RecurrenceAdvance := do
  spec.validate
  let next := previousNextFireAt.addSeconds spec.everySeconds
  spec.ensurePermitted next (occurrenceNo + 1)
  let first : RecurrenceAdvance :=
    { nextFireAt := next, occurrenceNo := occurrenceNo + 1, skippedCount := 0 }
  if spec.missedPolicy = .coalesce ∨ spec.missedPolicy = .skip then
    spec.advanceLoop now (spec.passed next now) first
  else .ok first

/-- The loop of `readyOccurrences`; it stops at the first occurrence that is not permitted. -/
def readyLoop (spec : RecurrenceSpec) (now : OffsetDateTime) :
    Nat → OffsetDateTime → Nat → Nat → Nat
  | 0, _, _, ready => ready
  | fuel + 1, anchor, number, ready =>
    if anchor.utc ≤ now.utc then
      match spec.ensurePermitted anchor number with
      | .error _ => ready
      | .ok () => readyLoop spec now fuel (anchor.addSeconds spec.everySeconds) (number + 1) (ready + 1)
    else ready

/-- Ready catch-up occurrences, at most `maximum`. -/
def readyOccurrences (spec : RecurrenceSpec) (currentAnchor : OffsetDateTime) (occurrenceNo : Nat)
    (now : OffsetDateTime) (maximum : Nat) : Except DomainError Nat := do
  spec.validate
  if maximum = 0 then .error .invalidCatchUpLimit
  else .ok (spec.readyLoop now maximum currentAnchor occurrenceNo 0)

/-! ## Lemmas -/

/-- The limits of a recurrence. -/
def Permitted (spec : RecurrenceSpec) (nextFireAt : OffsetDateTime) (occurrenceNo : Nat) : Prop :=
  (∀ maximum, spec.maxOccurrences = some maximum → occurrenceNo ≤ maximum) ∧
    (∀ endAt, spec.endAt = some endAt → nextFireAt.utc ≤ endAt.utc)

theorem validate_ok {spec : RecurrenceSpec} (h : spec.validate = .ok ()) :
    60 ≤ spec.everySeconds ∧ spec.everySeconds ≤ 31536000 := by
  unfold validate at h
  split at h
  · cases h
  · next hb => exact Decidable.not_not.mp hb

theorem validateForTrigger_ok {spec : RecurrenceSpec} {trigger : Trigger}
    (h : spec.validateForTrigger trigger = .ok ()) :
    ∃ firstAt, trigger = .interval firstAt spec.everySeconds := by
  unfold validateForTrigger at h
  obtain ⟨_, -, h⟩ := except_bind_ok.mp h
  cases trigger with
  | interval firstAt everySeconds =>
    simp only at h
    split at h
    · next he => exact ⟨firstAt, by rw [he]⟩
    · cases h
  | _ => cases h

theorem ensurePermitted_ok {spec : RecurrenceSpec} {t : OffsetDateTime} {n : Nat} :
    spec.ensurePermitted t n = .ok () ↔ spec.Permitted t n := by
  unfold ensurePermitted Permitted
  cases spec.maxOccurrences with
  | none =>
    cases spec.endAt with
    | none => simp
    | some e => simp
  | some m =>
    cases spec.endAt with
    | none => simp
    | some e => simp

/-- `k` periods from an anchor. -/
theorem addSeconds_periods (spec : RecurrenceSpec) (anchor : OffsetDateTime) (k : Nat) :
    (anchor.addSeconds (k * spec.everySeconds)).addSeconds spec.everySeconds =
      anchor.addSeconds ((k + 1 : Nat) * spec.everySeconds) := by
  rw [OffsetDateTime.addSeconds_addSeconds, Int.natCast_succ, Int.add_mul, Int.one_mul]

section

variable {spec : RecurrenceSpec} {anchor now : OffsetDateTime} {n : Nat}

/-- `acc` is the occurrence `k` periods after the anchor with the number `n`. -/
structure AdvancedBy (spec : RecurrenceSpec) (anchor : OffsetDateTime) (n k : Nat)
    (acc : RecurrenceAdvance) : Prop where
  pos : 1 ≤ k
  nextFireAt : acc.nextFireAt = anchor.addSeconds (k * spec.everySeconds)
  occurrenceNo : acc.occurrenceNo = n + k
  permitted : spec.Permitted acc.nextFireAt acc.occurrenceNo
  skippedCount : acc.skippedCount = if spec.missedPolicy = .skip then k - 1 else 0

/-- The grid times strictly between the anchor and `k` periods after it have passed. -/
def PassedBefore (spec : RecurrenceSpec) (anchor now : OffsetDateTime) (k : Nat) : Prop :=
  ∀ j : Nat, 1 ≤ j → j < k → (anchor.addSeconds (j * spec.everySeconds)).utc ≤ now.utc

theorem period_pos (h : spec.validate = .ok ()) : 0 < (spec.everySeconds : Int) * secondNanos := by
  have hb := (validate_ok h).1
  unfold secondNanos
  omega

theorem passed_eq_zero (hp : 0 < (spec.everySeconds : Int) * secondNanos) {next : OffsetDateTime}
    (h : spec.passed next now = 0) : now.utc < next.utc := by
  unfold passed at h
  have hneg : (now.utc - next.utc) / (spec.everySeconds * secondNanos) < 0 := by omega
  by_contra hle
  have hnn : 0 ≤ now.utc - next.utc := by omega
  have := Int.ediv_nonneg hnn (Int.le_of_lt hp)
  omega

theorem passed_addSeconds (hp : 0 < (spec.everySeconds : Int) * secondNanos)
    {next : OffsetDateTime} :
    spec.passed (next.addSeconds spec.everySeconds) now = spec.passed next now - 1 := by
  unfold passed
  have h : now.utc - (next.addSeconds spec.everySeconds).utc =
      now.utc - next.utc + (-1) * (spec.everySeconds * secondNanos) := by
    rw [OffsetDateTime.addSeconds_utc]
    omega
  rw [h, Int.add_mul_ediv_right _ _ (by omega)]
  omega

/-- One pass of the loop moves on by one period. -/
theorem AdvancedBy.step {k : Nat} {acc : RecurrenceAdvance} (h : AdvancedBy spec anchor n k acc)
    (hok : spec.ensurePermitted (acc.nextFireAt.addSeconds spec.everySeconds)
      (acc.occurrenceNo + 1) = .ok ()) :
    AdvancedBy spec anchor n (k + 1)
      { nextFireAt := acc.nextFireAt.addSeconds spec.everySeconds
        occurrenceNo := acc.occurrenceNo + 1
        skippedCount :=
          if spec.missedPolicy = .skip then acc.skippedCount + 1 else acc.skippedCount } := by
  have hpos := h.pos
  refine ⟨by omega, ?_, ?_, ensurePermitted_ok.mp hok, ?_⟩
  · rw [h.nextFireAt, addSeconds_periods]
  · show acc.occurrenceNo + 1 = n + (k + 1)
    rw [h.occurrenceNo]
    omega
  · show (if spec.missedPolicy = .skip then acc.skippedCount + 1 else acc.skippedCount) = _
    rw [h.skippedCount]
    split
    · omega
    · rfl

theorem advanceLoop_ok (hp : 0 < (spec.everySeconds : Int) * secondNanos) {fuel k : Nat}
    {acc r : RecurrenceAdvance} (hacc : AdvancedBy spec anchor n k acc)
    (hpast : PassedBefore spec anchor now k) (hfuel : spec.passed acc.nextFireAt now ≤ fuel)
    (h : spec.advanceLoop now fuel acc = .ok r) :
    ∃ k, AdvancedBy spec anchor n k r ∧ PassedBefore spec anchor now k ∧
      now.utc < r.nextFireAt.utc := by
  induction fuel generalizing k acc with
  | zero =>
    simp only [advanceLoop, Except.ok.injEq] at h
    subst h
    exact ⟨k, hacc, hpast, passed_eq_zero hp (by omega)⟩
  | succ fuel ih =>
    simp only [advanceLoop] at h
    split at h
    · next hle =>
      obtain ⟨_, hok, h⟩ := except_bind_ok.mp h
      refine ih (hacc.step hok) ?_ ?_ h
      · intro j hj hjk
        rcases Nat.lt_succ_iff_lt_or_eq.mp hjk with hjk | rfl
        · exact hpast j hj hjk
        · rw [← hacc.nextFireAt]
          exact hle
      · show spec.passed (acc.nextFireAt.addSeconds spec.everySeconds) now ≤ fuel
        rw [passed_addSeconds hp]
        omega
    · next hlt =>
      cases h
      exact ⟨k, hacc, hpast, by omega⟩

/-- **What `advance` returns.**  `k` periods on, inside the limits; for coalesce
and skip the first grid time after `now`, for catch-up the next one. -/
theorem advance_ok {d : OccurrenceDisposition} {r : RecurrenceAdvance}
    (h : spec.advance anchor n now d = .ok r) :
    ∃ k, AdvancedBy spec anchor n k r ∧ PassedBefore spec anchor now k ∧
      (spec.missedPolicy = .catchUp ∧ k = 1 ∨
        spec.missedPolicy ≠ .catchUp ∧ now.utc < r.nextFireAt.utc) := by
  unfold advance at h
  obtain ⟨_, hv, h⟩ := except_bind_ok.mp h
  obtain ⟨_, hok, h⟩ := except_bind_ok.mp h
  have first : AdvancedBy spec anchor n 1
      { nextFireAt := anchor.addSeconds spec.everySeconds
        occurrenceNo := n + 1
        skippedCount := 0 } :=
    ⟨by omega, by simp, rfl, ensurePermitted_ok.mp hok, by simp⟩
  have none : PassedBefore spec anchor now 1 := by
    intro j h1 h2
    omega
  split at h
  · next hm =>
    obtain ⟨k, hk, hpast, hnow⟩ := advanceLoop_ok (period_pos hv) first none (Nat.le_refl _) h
    refine ⟨k, hk, hpast, Or.inr ⟨?_, hnow⟩⟩
    rcases hm with hm | hm <;> rw [hm] <;> decide
  · next hm =>
    cases h
    refine ⟨1, first, none, Or.inl ⟨?_, rfl⟩⟩
    cases hpolicy : spec.missedPolicy <;> simp_all

end

end RecurrenceSpec

end RemindiCore
