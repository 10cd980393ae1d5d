import RemindiCore.Proof.ClosedForm

/-!
# Ready occurrences are a chain of advances

`readyOccurrences` checks an occurrence before it counts it and steps afterwards;
`advance` steps first and checks where it arrives.  Both go along the grid, so
the count is the length of the longest chain of catch-up advances whose elements
are permitted and not after `now`, cut off at the maximum
(`ready_agrees_with_advance`).
-/

namespace RemindiCore

namespace RecurrenceSpec

open CivilTime Transaction

/-- The specification with the policy of catching up. -/
def catchingUp (spec : RecurrenceSpec) : RecurrenceSpec := { spec with missedPolicy := .catchUp }

/-- `k` occurrences from the given one on, each permitted and not after `now`, and each the
catch-up advance of the one before. -/
inductive ReadyChain (spec : RecurrenceSpec) (now : OffsetDateTime) :
    OffsetDateTime → Nat → Nat → Prop where
  | empty (anchor : OffsetDateTime) (n : Nat) : ReadyChain spec now anchor n 0
  | last {anchor : OffsetDateTime} {n : Nat} (hpermitted : spec.ensurePermitted anchor n = .ok ())
      (hpast : anchor.utc ≤ now.utc) : ReadyChain spec now anchor n 1
  | next {anchor : OffsetDateTime} {n k : Nat} {r : RecurrenceAdvance}
      (hpermitted : spec.ensurePermitted anchor n = .ok ()) (hpast : anchor.utc ≤ now.utc)
      (d : OccurrenceDisposition) (hadvance : spec.catchingUp.advance anchor n now d = .ok r)
      (h : ReadyChain spec now r.nextFireAt r.occurrenceNo k) : ReadyChain spec now anchor n (k + 1)

/-- The occurrence `i` periods on is permitted and not after `now`. -/
def ReadyAt (spec : RecurrenceSpec) (anchor : OffsetDateTime) (n : Nat) (now : OffsetDateTime)
    (i : Nat) : Prop :=
  spec.Permitted (spec.gridTime anchor i) (n + i) ∧ (spec.gridTime anchor i).utc ≤ now.utc

section

variable {spec : RecurrenceSpec} {anchor now now' : OffsetDateTime} {n k fuel ready : Nat}

/-! ## The grid -/

theorem gridTime_zero : spec.gridTime anchor 0 = anchor := by
  show anchor.addSeconds ((0 : Int) * spec.everySeconds) = anchor
  rw [Int.zero_mul, OffsetDateTime.addSeconds_zero]

theorem gridTime_gridTime (i j : Nat) :
    spec.gridTime (spec.gridTime anchor i) j = spec.gridTime anchor (i + j) := by
  unfold gridTime
  rw [OffsetDateTime.addSeconds_addSeconds, ← Int.add_mul, Int.natCast_add]

/-- The same occurrence, seen from one period on. -/
theorem readyAt_succ (i : Nat) :
    ReadyAt spec (spec.gridTime anchor 1) (n + 1) now i ↔ ReadyAt spec anchor n now (i + 1) := by
  unfold ReadyAt
  rw [gridTime_gridTime, Nat.add_comm 1 i, Nat.add_assoc, Nat.add_comm 1 i]

theorem readyAt_zero :
    ReadyAt spec anchor n now 0 ↔
      spec.ensurePermitted anchor n = .ok () ∧ anchor.utc ≤ now.utc := by
  unfold ReadyAt
  rw [gridTime_zero, Nat.add_zero, ensurePermitted_ok]

/-- All of `k + 1` occurrences: the first, and `k` from the second on. -/
theorem all_readyAt_succ :
    (∀ i, i < k + 1 → ReadyAt spec anchor n now i) ↔
      ReadyAt spec anchor n now 0 ∧
        ∀ i, i < k → ReadyAt spec (spec.gridTime anchor 1) (n + 1) now i := by
  constructor
  · intro h
    refine ⟨h 0 (Nat.succ_pos k), fun i hi => ?_⟩
    rw [readyAt_succ]
    exact h (i + 1) (Nat.succ_lt_succ hi)
  · rintro ⟨hfirst, hrest⟩ i hi
    cases i with
    | zero => exact hfirst
    | succ i => exact (readyAt_succ i).mp (hrest i (Nat.lt_of_succ_lt_succ hi))

/-! ## Chains -/

/-- A catch-up advance goes one period on, if that is permitted. -/
theorem catchingUp_advance (h : spec.validate = .ok ()) (d : OccurrenceDisposition) :
    spec.catchingUp.advance anchor n now d =
      (spec.ensurePermitted (spec.gridTime anchor 1) (n + 1)).bind fun _ =>
        .ok { nextFireAt := spec.gridTime anchor 1, occurrenceNo := n + 1, skippedCount := 0 } := by
  have hvalid : spec.catchingUp.validate = .ok () := h
  rw [advance_eq hvalid]
  rfl

/-- **A chain is a row of ready occurrences.** -/
theorem readyChain_iff (h : spec.validate = .ok ()) :
    ReadyChain spec now anchor n k ↔ ∀ i, i < k → ReadyAt spec anchor n now i := by
  constructor
  · intro hchain
    induction hchain with
    | empty => exact fun i hi => absurd hi (Nat.not_lt_zero i)
    | last hpermitted hpast =>
      intro i hi
      obtain rfl : i = 0 := by omega
      exact readyAt_zero.mpr ⟨hpermitted, hpast⟩
    | next hpermitted hpast d hadvance _ ih =>
      rw [catchingUp_advance h] at hadvance
      obtain ⟨_, -, hr⟩ := except_bind_ok.mp hadvance
      cases hr
      exact all_readyAt_succ.mpr ⟨readyAt_zero.mpr ⟨hpermitted, hpast⟩, ih⟩
  · intro hall
    induction k generalizing anchor n with
    | zero => exact .empty anchor n
    | succ k ih =>
      obtain ⟨hfirst, hrest⟩ := all_readyAt_succ.mp hall
      obtain ⟨hpermitted, hpast⟩ := readyAt_zero.mp hfirst
      cases k with
      | zero => exact .last hpermitted hpast
      | succ k =>
        have hnext : spec.ensurePermitted (spec.gridTime anchor 1) (n + 1) = .ok () :=
          (readyAt_zero.mp (hrest 0 (Nat.succ_pos k))).1
        have hadvance : spec.catchingUp.advance anchor n now .acknowledged =
            .ok { nextFireAt := spec.gridTime anchor 1, occurrenceNo := n + 1, skippedCount := 0 } := by
          rw [catchingUp_advance h, hnext]
          rfl
        exact .next hpermitted hpast .acknowledged hadvance (ih hrest)

/-! ## The loop -/

/-- **What the loop counts.** -/
theorem readyLoop_greatest (spec : RecurrenceSpec) (anchor now : OffsetDateTime)
    (n fuel ready : Nat) :
    ∃ count, spec.readyLoop now fuel anchor n ready = ready + count ∧
      IsGreatest { k | k ≤ fuel ∧ ∀ i, i < k → ReadyAt spec anchor n now i } count := by
  induction fuel generalizing anchor n ready with
  | zero =>
    refine ⟨0, rfl, ⟨le_refl 0, fun i hi => absurd hi (Nat.not_lt_zero i)⟩, ?_⟩
    rintro k ⟨hk, -⟩
    exact hk
  | succ fuel ih =>
    by_cases hready : ReadyAt spec anchor n now 0
    · obtain ⟨hpermitted, hpast⟩ := readyAt_zero.mp hready
      have hstep : spec.readyLoop now (fuel + 1) anchor n ready =
          spec.readyLoop now fuel (spec.gridTime anchor 1) (n + 1) (ready + 1) := by
        rw [← gridTime_succ, gridTime_zero]
        simp only [readyLoop]
        rw [if_pos hpast, hpermitted]
      obtain ⟨count, hcount, ⟨hle, hall⟩, hgreatest⟩ :=
        ih (spec.gridTime anchor 1) (n + 1) (ready + 1)
      refine ⟨count + 1, ?_, ⟨Nat.succ_le_succ hle, all_readyAt_succ.mpr ⟨hready, hall⟩⟩, ?_⟩
      · rw [hstep, hcount]
        omega
      · rintro k ⟨hk, hall'⟩
        cases k with
        | zero => exact Nat.zero_le _
        | succ k =>
          have hrest := (all_readyAt_succ.mp hall').2
          exact Nat.succ_le_succ (hgreatest ⟨Nat.le_of_succ_le_succ hk, hrest⟩)
    · have hstop : spec.readyLoop now (fuel + 1) anchor n ready = ready := by
        simp only [readyLoop]
        by_cases hpast : anchor.utc ≤ now.utc
        · rw [if_pos hpast]
          cases hpermitted : spec.ensurePermitted anchor n with
          | error e => rfl
          | ok u => exact absurd (readyAt_zero.mpr ⟨hpermitted, hpast⟩) hready
        · rw [if_neg hpast]
      refine ⟨0, hstop, ⟨Nat.zero_le _, fun i hi => absurd hi (Nat.not_lt_zero i)⟩, ?_⟩
      rintro k ⟨-, hall⟩
      by_contra hpos
      exact hready (hall 0 (by omega))

theorem passed_gridTime (hp : 0 < (spec.everySeconds : Int) * secondNanos) (i : Nat) :
    spec.passed (spec.gridTime anchor i) now = spec.passed anchor now - i := by
  induction i with
  | zero => rw [gridTime_zero, Nat.sub_zero]
  | succ i ih =>
    rw [← gridTime_succ, passed_addSeconds hp, ih]
    omega

/-- No more occurrences are ready than grid times have passed. -/
theorem ready_le_passed (hp : 0 < (spec.everySeconds : Int) * secondNanos)
    (hall : ∀ i, i < k → ReadyAt spec anchor n now i) : k ≤ spec.passed anchor now := by
  cases k with
  | zero => exact Nat.zero_le _
  | succ k =>
    have hlast := (passed_pos hp).mpr (hall k (Nat.lt_succ_self k)).2
    rw [passed_gridTime hp] at hlast
    omega

theorem readyOccurrences_eq (h : spec.validate = .ok ()) {maximum : Nat} (hmaximum : 1 ≤ maximum) :
    spec.readyOccurrences anchor n now maximum = .ok (spec.readyLoop now maximum anchor n 0) := by
  have hpos : maximum ≠ 0 := by omega
  unfold readyOccurrences
  rw [h]
  dsimp only [bind, Except.bind]
  rw [if_neg hpos]

theorem readyOccurrences_ok {maximum count : Nat}
    (h : spec.readyOccurrences anchor n now maximum = .ok count) :
    IsGreatest { k | k ≤ maximum ∧ ∀ i, i < k → ReadyAt spec anchor n now i } count := by
  unfold readyOccurrences at h
  obtain ⟨_, -, h⟩ := except_bind_ok.mp h
  split at h
  · cases h
  · obtain ⟨counted, hcounted, hgreatest⟩ := readyLoop_greatest spec anchor now n
      maximum 0
    rw [hcounted, Nat.zero_add] at h
    exact Except.ok.inj h ▸ hgreatest

theorem ReadyAt.later {i : Nat} (h : ReadyAt spec anchor n now i) (hle : now.utc ≤ now'.utc) :
    ReadyAt spec anchor n now' i :=
  ⟨h.1, le_trans h.2 hle⟩

end

/-- **The count of ready occurrences** is the length of the longest chain of catch-up
advances, or the maximum; it grows with `now`, and what is counted is permitted and not
after `now`. -/
theorem ready_agrees_with_advance (spec : RecurrenceSpec) (h : spec.validate = .ok ())
    (anchor : OffsetDateTime) (n maximum : Nat) (hmaximum : 1 ≤ maximum) :
    (∀ now, ∃ longest, IsGreatest { k | ReadyChain spec now anchor n k } longest ∧
      spec.readyOccurrences anchor n now maximum = .ok (min maximum longest)) ∧
    (∀ now now' count count', now.utc ≤ now'.utc →
      spec.readyOccurrences anchor n now maximum = .ok count →
      spec.readyOccurrences anchor n now' maximum = .ok count' → count ≤ count') ∧
    ∀ now count, spec.readyOccurrences anchor n now maximum = .ok count → ∀ i, i < count →
      (∀ last, spec.maxOccurrences = some last → n + i ≤ last) ∧
      (∀ endAt, spec.endAt = some endAt → (spec.gridTime anchor i).utc ≤ endAt.utc) ∧
      (spec.gridTime anchor i).utc ≤ now.utc := by
  have hp := period_pos h
  refine ⟨fun now => ?_, ?_, ?_⟩
  · -- with fuel for every grid time that has passed, the loop counts the longest chain
    obtain ⟨longest, -, ⟨-, hall⟩, hgreatest⟩ := readyLoop_greatest spec
      anchor now n (spec.passed anchor now) 0
    have hlongest : ∀ k, (∀ i, i < k → ReadyAt spec anchor n now i) → k ≤ longest :=
      fun k hk => hgreatest ⟨ready_le_passed hp hk, hk⟩
    refine ⟨longest, ⟨(readyChain_iff h).mpr hall, fun k hk => ?_⟩, ?_⟩
    · exact hlongest k ((readyChain_iff h).mp hk)
    · have hcount : spec.readyOccurrences anchor n now maximum =
          .ok (spec.readyLoop now maximum anchor n 0) := readyOccurrences_eq h hmaximum
      rw [hcount]
      have hmin : IsGreatest { k | k ≤ maximum ∧ ∀ i, i < k → ReadyAt spec anchor n now i }
          (min maximum longest) := by
        refine ⟨⟨Nat.min_le_left _ _, fun i hi => hall i (by omega)⟩, ?_⟩
        rintro k ⟨hk, hready⟩
        exact Nat.le_min.mpr ⟨hk, hlongest k hready⟩
      rw [(readyOccurrences_ok hcount).unique hmin]
  · intro now now' count count' hle hcount hcount'
    obtain ⟨⟨hmax, hall⟩, -⟩ := readyOccurrences_ok hcount
    exact (readyOccurrences_ok hcount').2 ⟨hmax, fun i hi => (hall i hi).later hle⟩
  · intro now count hcount i hi
    obtain ⟨⟨hnumber, hend⟩, hpast⟩ := (readyOccurrences_ok hcount).1.2 i hi
    exact ⟨hnumber, hend, hpast⟩

/-- The chain stops at the fourth occurrence, though five grid times have passed. -/
theorem sample_ready_agrees_with_advance :
    Sample.hourly.validate = .ok () ∧
      Sample.hourly.readyOccurrences ⟨0, 0⟩ 1 ⟨14400000000000, 0⟩ 10 = .ok 4 ∧
      (Sample.hourly.gridTime ⟨0, 0⟩ 3).utc ≤ 14400000000000 := by
  have hvalid : Sample.hourly.validate = .ok () := by decide
  have hcount : Sample.hourly.readyOccurrences ⟨0, 0⟩ 1 ⟨14400000000000, 0⟩ 10 = .ok 4 := by
    decide +kernel
  obtain ⟨-, -, hcounted⟩ := ready_agrees_with_advance Sample.hourly hvalid ⟨0, 0⟩ 1 10 (by decide)
  exact ⟨hvalid, hcount, (hcounted _ 4 hcount 3 (by decide)).2.2⟩

end RecurrenceSpec

end RemindiCore
