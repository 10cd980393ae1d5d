import RemindiCore.Domain.Recurrence
import Mathlib.Data.Nat.Find
import Mathlib.Order.Bounds.Basic

/-!
# The closed form of an advance

`advance` moves on by one period, or for coalesce and skip by the least number
of periods whose grid time lies after `now`.  It returns that grid time exactly
when every occurrence on the way is permitted (`advance_closed_form`), and its
loop has left the condition by itself (`advanceLoop_fuel`).
-/

namespace RemindiCore

namespace RecurrenceSpec

open CivilTime Transaction

/-- The anchor, `k` periods on. -/
def gridTime (spec : RecurrenceSpec) (anchor : OffsetDateTime) (k : Nat) : OffsetDateTime :=
  anchor.addSeconds (k * spec.everySeconds)

/-- The occurrence `k` periods on. -/
def occurrenceAt (spec : RecurrenceSpec) (anchor : OffsetDateTime) (n k : Nat) :
    RecurrenceAdvance where
  nextFireAt := spec.gridTime anchor k
  occurrenceNo := n + k
  skippedCount := if spec.missedPolicy = .skip then k - 1 else 0

/-- The number of periods that an advance moves on by. -/
def AdvancesBy (spec : RecurrenceSpec) (anchor now : OffsetDateTime) (k : Nat) : Prop :=
  if spec.missedPolicy = .catchUp then k = 1
  else IsLeast { k : Nat | 1 ≤ k ∧ now.utc < (spec.gridTime anchor k).utc } k

section

variable {spec : RecurrenceSpec} {anchor now : OffsetDateTime} {n k : Nat}

theorem gridTime_utc (spec : RecurrenceSpec) (anchor : OffsetDateTime) (k : Nat) :
    (spec.gridTime anchor k).utc = anchor.utc + k * (spec.everySeconds * secondNanos) := by
  unfold gridTime
  rw [OffsetDateTime.addSeconds_utc, Int.mul_assoc]

theorem gridTime_succ (spec : RecurrenceSpec) (anchor : OffsetDateTime) (k : Nat) :
    (spec.gridTime anchor k).addSeconds spec.everySeconds = spec.gridTime anchor (k + 1) :=
  addSeconds_periods spec anchor k

/-- A grid time has passed exactly when one is left to count. -/
theorem passed_pos (hp : 0 < (spec.everySeconds : Int) * secondNanos) {next : OffsetDateTime} :
    0 < spec.passed next now ↔ next.utc ≤ now.utc := by
  constructor
  · intro hpos
    by_contra hlt
    have hneg : (now.utc - next.utc) / (spec.everySeconds * secondNanos) < 0 :=
      Int.ediv_neg_of_neg_of_pos (by omega) hp
    unfold passed at hpos
    omega
  · intro hle
    have hnn : 0 ≤ (now.utc - next.utc) / (spec.everySeconds * secondNanos) :=
      Int.ediv_nonneg (by omega) (Int.le_of_lt hp)
    unfold passed
    omega

/-! ## The loop -/

/-- Fuel beyond the grid times that have passed is not used: the loop ends by its
own condition. -/
theorem advanceLoop_fuel (hp : 0 < (spec.everySeconds : Int) * secondNanos) {fuel fuel' : Nat}
    {acc : RecurrenceAdvance} (h : spec.passed acc.nextFireAt now ≤ fuel)
    (h' : spec.passed acc.nextFireAt now ≤ fuel') :
    spec.advanceLoop now fuel acc = spec.advanceLoop now fuel' acc := by
  induction fuel generalizing fuel' acc with
  | zero =>
    have hlt := passed_eq_zero hp (Nat.le_zero.mp h)
    cases fuel' with
    | zero => rfl
    | succ fuel' =>
      simp only [advanceLoop]
      rw [if_neg (by omega)]
  | succ fuel ih =>
    by_cases hle : acc.nextFireAt.utc ≤ now.utc
    · have hpos := (passed_pos hp).mpr hle
      cases fuel' with
      | zero => omega
      | succ fuel' =>
        simp only [advanceLoop]
        rw [if_pos hle, if_pos hle]
        congr 1
        funext _
        apply ih
        · show spec.passed (acc.nextFireAt.addSeconds spec.everySeconds) now ≤ fuel
          rw [passed_addSeconds hp]
          omega
        · show spec.passed (acc.nextFireAt.addSeconds spec.everySeconds) now ≤ fuel'
          rw [passed_addSeconds hp]
          omega
    · cases fuel' with
      | zero =>
        simp only [advanceLoop]
        rw [if_neg hle]
      | succ fuel' =>
        simp only [advanceLoop]
        rw [if_neg hle, if_neg hle]

/-- An occurrence that is not permitted ends the advance. -/
theorem ensurePermitted_error {t : OffsetDateTime} (h : ¬ spec.Permitted t n) :
    spec.ensurePermitted t n = .error .finalOccurrence := by
  cases hok : spec.ensurePermitted t n with
  | ok u => exact absurd (ensurePermitted_ok.mp hok) h
  | error e =>
    unfold ensurePermitted at hok
    split at hok
    · exact hok.symm
    · cases hok

theorem occurrenceAt_succ (hk : 1 ≤ k) :
    spec.occurrenceAt anchor n (k + 1) =
      { nextFireAt := (spec.occurrenceAt anchor n k).nextFireAt.addSeconds spec.everySeconds
        occurrenceNo := (spec.occurrenceAt anchor n k).occurrenceNo + 1
        skippedCount := if spec.missedPolicy = .skip then
          (spec.occurrenceAt anchor n k).skippedCount + 1
          else (spec.occurrenceAt anchor n k).skippedCount } := by
  unfold occurrenceAt
  rw [gridTime_succ]
  by_cases hskip : spec.missedPolicy = .skip
  · simp only [hskip, if_true]
    have hcount : k + 1 - 1 = k - 1 + 1 := by omega
    rw [hcount, Nat.add_assoc]
  · simp only [hskip, if_false, Nat.add_assoc]

/-- The loop from the occurrence `k` periods on, with `d` periods to go. -/
theorem advanceLoop_to {d fuel : Nat} (hk : 1 ≤ k)
    (hpassed : ∀ j, j < d → (spec.gridTime anchor (k + j)).utc ≤ now.utc)
    (hnext : now.utc < (spec.gridTime anchor (k + d)).utc) (hfuel : d ≤ fuel) :
    ((∀ j, 1 ≤ j → j ≤ d → spec.Permitted (spec.gridTime anchor (k + j)) (n + (k + j))) →
        spec.advanceLoop now fuel (spec.occurrenceAt anchor n k) =
          .ok (spec.occurrenceAt anchor n (k + d))) ∧
      ((∃ j, 1 ≤ j ∧ j ≤ d ∧ ¬ spec.Permitted (spec.gridTime anchor (k + j)) (n + (k + j))) →
        spec.advanceLoop now fuel (spec.occurrenceAt anchor n k) = .error .finalOccurrence) := by
  induction d generalizing k fuel with
  | zero =>
    have hexit : spec.advanceLoop now fuel (spec.occurrenceAt anchor n k) =
        .ok (spec.occurrenceAt anchor n (k + 0)) := by
      cases fuel with
      | zero => rfl
      | succ fuel =>
        have hstop : ¬ (spec.occurrenceAt anchor n k).nextFireAt.utc ≤ now.utc := by
          show ¬ (spec.gridTime anchor k).utc ≤ now.utc
          rw [Nat.add_zero] at hnext
          omega
        simp only [advanceLoop]
        rw [if_neg hstop]
        rfl
    refine ⟨fun _ => hexit, ?_⟩
    rintro ⟨j, hone, hzero, -⟩
    omega
  | succ d ih =>
    cases fuel with
    | zero => omega
    | succ fuel =>
      have hgo : (spec.occurrenceAt anchor n k).nextFireAt.utc ≤ now.utc := by
        have hfirst := hpassed 0 (Nat.succ_pos d)
        rwa [Nat.add_zero] at hfirst
      have hunfold : spec.advanceLoop now (fuel + 1) (spec.occurrenceAt anchor n k) =
          (spec.ensurePermitted (spec.gridTime anchor (k + 1)) (n + (k + 1))).bind fun _ =>
            spec.advanceLoop now fuel (spec.occurrenceAt anchor n (k + 1)) := by
        simp only [advanceLoop]
        rw [if_pos hgo, occurrenceAt_succ hk]
        show (spec.ensurePermitted ((spec.gridTime anchor k).addSeconds spec.everySeconds)
          (n + k + 1)).bind _ = _
        rw [gridTime_succ, Nat.add_assoc]
      rw [hunfold]
      have hshift : ∀ j, k + 1 + j = k + (j + 1) := by
        intro j
        omega
      obtain ⟨hok, herror⟩ := ih (k := k + 1) (by omega)
        (fun j hj => by
          rw [hshift]
          exact hpassed (j + 1) (by omega))
        (by rwa [hshift]) (Nat.le_of_succ_le_succ hfuel)
      constructor
      · intro hall
        rw [ensurePermitted_ok.mpr (hall 1 (le_refl _) (by omega))]
        show spec.advanceLoop now fuel _ = _
        rw [hok fun j hone hle => by
          rw [hshift]
          exact hall (j + 1) (by omega) (by omega), hshift]
      · rintro ⟨j, hone, hle, hnot⟩
        by_cases hfirst : spec.Permitted (spec.gridTime anchor (k + 1)) (n + (k + 1))
        · rw [ensurePermitted_ok.mpr hfirst]
          refine herror ⟨j - 1, ?_, by omega, ?_⟩
          · by_contra hzero
            obtain rfl : j = 1 := by omega
            exact hnot hfirst
          · rw [hshift, show j - 1 + 1 = j by omega]
            exact hnot
        · rw [ensurePermitted_error hfirst]
          rfl

/-! ## The closed form -/

/-- There is one number of periods to move on by. -/
theorem advancesBy_unique (h : spec.validate = .ok ()) (anchor now : OffsetDateTime) :
    ∃! k, spec.AdvancesBy anchor now k := by
  have hp := period_pos h
  unfold AdvancesBy
  by_cases hpolicy : spec.missedPolicy = .catchUp
  · simp only [hpolicy, if_true]
    exact ⟨1, rfl, fun k hk => hk⟩
  · simp only [hpolicy, if_false]
    have hexists : ∃ k : Nat, 1 ≤ k ∧ now.utc < (spec.gridTime anchor k).utc := by
      refine ⟨(now.utc - anchor.utc).toNat + 1, by omega, ?_⟩
      rw [gridTime_utc]
      have hmul : (((now.utc - anchor.utc).toNat + 1 : Nat) : Int) * 1 ≤
          (((now.utc - anchor.utc).toNat + 1 : Nat) : Int) * (spec.everySeconds * secondNanos) :=
        Int.mul_le_mul_of_nonneg_left (by omega) (by omega)
      omega
    classical
    refine ⟨Nat.find hexists, ⟨Nat.find_spec hexists, fun k hk => Nat.find_min' hexists hk⟩, ?_⟩
    intro k hk
    exact hk.unique ⟨Nat.find_spec hexists, fun k hk => Nat.find_min' hexists hk⟩

theorem occurrenceAt_one : spec.occurrenceAt anchor n 1 =
    { nextFireAt := anchor.addSeconds spec.everySeconds, occurrenceNo := n + 1, skippedCount := 0 } := by
  unfold occurrenceAt gridTime
  simp

/-- The advance before its loop. -/
theorem advance_eq (h : spec.validate = .ok ()) (disposition : OccurrenceDisposition) :
    spec.advance anchor n now disposition =
      (spec.ensurePermitted (spec.gridTime anchor 1) (n + 1)).bind fun _ =>
        if spec.missedPolicy = .catchUp then .ok (spec.occurrenceAt anchor n 1)
        else spec.advanceLoop now (spec.passed (spec.gridTime anchor 1) now)
          (spec.occurrenceAt anchor n 1) := by
  have hgrid : spec.gridTime anchor 1 = anchor.addSeconds spec.everySeconds := by
    unfold gridTime
    simp
  unfold advance
  rw [h, hgrid, occurrenceAt_one]
  cases hpolicy : spec.missedPolicy <;> simp [bind, Except.bind]

end

/-- **The closed form of an advance.**  It moves on by the `k` periods of its
policy, if every occurrence up to that one is permitted, and otherwise reports the
final occurrence; more fuel for its loop changes nothing. -/
theorem advance_closed_form (spec : RecurrenceSpec) (h : spec.validate = .ok ())
    (anchor now : OffsetDateTime) (n : Nat) (disposition : OccurrenceDisposition) :
    (∃! k, spec.AdvancesBy anchor now k) ∧
    (∀ k, spec.AdvancesBy anchor now k → 1 ≤ k ∧
      ((∀ j, 1 ≤ j → j ≤ k → spec.Permitted (spec.gridTime anchor j) (n + j)) →
        spec.advance anchor n now disposition = .ok (spec.occurrenceAt anchor n k)) ∧
      (¬ (∀ j, 1 ≤ j → j ≤ k → spec.Permitted (spec.gridTime anchor j) (n + j)) →
        spec.advance anchor n now disposition = .error .finalOccurrence)) ∧
    ∀ fuel, spec.passed (spec.gridTime anchor 1) now ≤ fuel →
      spec.advanceLoop now fuel (spec.occurrenceAt anchor n 1) =
        spec.advanceLoop now (spec.passed (spec.gridTime anchor 1) now)
          (spec.occurrenceAt anchor n 1) := by
  have hp := period_pos h
  refine ⟨advancesBy_unique h anchor now, ?_, ?_⟩
  · intro k hk
    rw [advance_eq h]
    unfold AdvancesBy at hk
    by_cases hpolicy : spec.missedPolicy = .catchUp
    · rw [if_pos hpolicy] at hk
      subst hk
      rw [if_pos hpolicy]
      refine ⟨le_refl 1, ?_, ?_⟩
      · intro hall
        rw [ensurePermitted_ok.mpr (hall 1 (le_refl 1) (le_refl 1))]
        rfl
      · intro hnot
        have hfirst : ¬ spec.Permitted (spec.gridTime anchor 1) (n + 1) := by
          intro hfirst
          refine hnot fun j hone hle => ?_
          obtain rfl : j = 1 := by omega
          exact hfirst
        rw [ensurePermitted_error hfirst]
        rfl
    · rw [if_neg hpolicy] at hk
      rw [if_neg hpolicy]
      obtain ⟨⟨hone, hnext⟩, hleast⟩ := hk
      have hpassed : ∀ j, j < k - 1 → (spec.gridTime anchor (1 + j)).utc ≤ now.utc := by
        intro j hj
        by_contra hlt
        have hle : k ≤ 1 + j := hleast ⟨by omega, by omega⟩
        omega
      have hk : 1 + (k - 1) = k := by omega
      -- as many grid times have passed as the loop takes turns
      have hfuel : k - 1 ≤ spec.passed (spec.gridTime anchor 1) now := by
        rcases Nat.eq_zero_or_pos (k - 1) with hzero | hpos
        · omega
        · have hlast := hpassed (k - 2) (by omega)
          rw [gridTime_utc] at hlast
          unfold passed
          rw [gridTime_utc]
          have hdiv : ((k - 2 : Nat) : Int) ≤
              (now.utc - (anchor.utc + (1 : Nat) * (spec.everySeconds * secondNanos))) /
                (spec.everySeconds * secondNanos) := by
            rw [Int.le_ediv_iff_mul_le hp]
            rw [Int.natCast_add, Int.add_mul] at hlast
            omega
          omega
      obtain ⟨hok, herror⟩ := advanceLoop_to (n := n) (le_refl 1) hpassed (by rwa [hk]) hfuel
      rw [hk] at hok
      refine ⟨hone, ?_, ?_⟩
      · intro hall
        rw [ensurePermitted_ok.mpr (hall 1 (le_refl 1) hone)]
        exact hok fun j _ hle => hall (1 + j) (by omega) (by omega)
      · intro hnot
        by_cases hfirst : spec.Permitted (spec.gridTime anchor 1) (n + 1)
        · rw [ensurePermitted_ok.mpr hfirst]
          refine herror ?_
          by_contra hnone
          refine hnot fun j hj hle => ?_
          by_contra hj'
          rcases Nat.eq_or_lt_of_le hj with rfl | hlt
          · exact hj' hfirst
          · refine hnone ⟨j - 1, by omega, by omega, ?_⟩
            rwa [show 1 + (j - 1) = j by omega]
        · rw [ensurePermitted_error hfirst]
          rfl
  · intro fuel hfuel
    exact advanceLoop_fuel hp hfuel (le_refl _)

/-- Every hour from second 0 on, at most four times. -/
def Sample.hourly : RecurrenceSpec where
  everySeconds := 3600
  missedPolicy := .skip
  maxOccurrences := some 4
  endAt := none

/-- After two and a half hours the third occurrence is next, and one is skipped. -/
theorem sample_advance_closed_form :
    Sample.hourly.validate = .ok () ∧
      Sample.hourly.advance ⟨0, 0⟩ 1 ⟨9000000000000, 0⟩ .acknowledged =
        .ok (Sample.hourly.occurrenceAt ⟨0, 0⟩ 1 3) := by
  refine ⟨by decide, ?_⟩
  refine ((advance_closed_form Sample.hourly (by decide) ⟨0, 0⟩ ⟨9000000000000, 0⟩ 1 _).2.1 3
    ?_).2.1 ?_
  · refine ⟨by decide, ?_⟩
    rintro k ⟨hone, hnext⟩
    rw [gridTime_utc] at hnext
    simp only [Sample.hourly, secondNanos] at hnext
    omega
  · intro j hone hle
    refine ⟨?_, by intro endAt hend; cases hend⟩
    intro maximum hmax
    obtain rfl := Option.some.inj hmax
    omega

end RecurrenceSpec

end RemindiCore
