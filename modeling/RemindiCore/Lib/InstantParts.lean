import RemindiCore.Lib.Rfc3339

/-!
# An instant from its row of numbers

`ofComponents` reads the nine numbers that `components` writes and refuses those that
no calendar, clock or offset has.

    t.Valid → ofComponents (components t) = some t                (ofComponents_components)
-/

namespace CivilTime

/-! ## Days of a year -/

def daysInYear (year : Int) : Int :=
  if year % 4 = 0 ∧ (year % 100 ≠ 0 ∨ year % 400 = 0) then 366 else 365

theorem daysOfCivil_first (year : Int) :
    daysOfCivil { year := year, month := 1, day := 1 } = daysBefore (year - 1) - 719162 := by
  unfold daysOfCivil
  dsimp only
  rw [if_pos (by decide), if_neg (by decide)]
  omega

/-- January and February belong to the year that was counted from the March before. -/
theorem year_civilOfDays (z : Int) : (civilOfDays z).year =
    if (yearDay (z + 719468)).day < 306 then (yearDay (z + 719468)).year
    else (yearDay (z + 719468)).year + 1 := by
  have hday := yearDay_day_bounds (z + 719468)
  unfold civilOfDays civilOfYearDay
  dsimp only
  by_cases hmonth : (yearDay (z + 719468)).day < 306
  · rw [if_pos hmonth, if_pos (show (5 * (yearDay (z + 719468)).day + 2) / 153 < 10 by omega),
      if_neg (by omega)]
  · rw [if_neg hmonth, if_neg (show ¬ (5 * (yearDay (z + 719468)).day + 2) / 153 < 10 by omega),
      if_pos (by omega)]

theorem ordinal_bounds (z : Int) :
    1 ≤ ordinal z ∧ ordinal z ≤ daysInYear (civilOfDays z).year := by
  have hday := yearDay_day_bounds (z + 719468)
  have hz := daysBefore_yearDay (z + 719468)
  unfold ordinal daysInYear
  rw [daysOfCivil_first, year_civilOfDays]
  generalize yearDay (z + 719468) = date at *
  unfold daysBefore at *
  by_cases hmonth : date.day < 306
  · simp only [if_pos hmonth]
    split <;> omega
  · simp only [if_neg hmonth]
    split <;> omega

/-! ## The offset -/

/-- Hours, minutes and seconds of one sign: that of the first that has one. -/
def offsetOfParts (hours minutes seconds : Int) : Int :=
  let minutes :=
    if 0 < hours ∧ minutes < 0 ∨ hours < 0 ∧ 0 < minutes then -minutes else minutes
  let seconds :=
    if 0 < hours ∧ seconds < 0 ∨ hours < 0 ∧ 0 < seconds ∨ 0 < minutes ∧ seconds < 0 ∨
        minutes < 0 ∧ 0 < seconds then -seconds else seconds
  hours * 3600 + minutes * 60 + seconds

theorem offsetOfParts_nonneg {hours minutes seconds : Int} (hh : 0 ≤ hours) (hm : 0 ≤ minutes)
    (hs : 0 ≤ seconds) :
    offsetOfParts hours minutes seconds = hours * 3600 + minutes * 60 + seconds := by
  unfold offsetOfParts
  dsimp only
  rw [if_neg (by omega), if_neg (by omega)]

theorem offsetOfParts_nonpos {hours minutes seconds : Int} (hh : hours ≤ 0) (hm : minutes ≤ 0)
    (hs : seconds ≤ 0) :
    offsetOfParts hours minutes seconds = hours * 3600 + minutes * 60 + seconds := by
  unfold offsetOfParts
  dsimp only
  rw [if_neg (by omega), if_neg (by omega)]

theorem offsetOfParts_parts (offset : Int) :
    offsetOfParts (offset.tdiv 3600) ((offset.tdiv 60).tmod 60) (offset.tmod 60) = offset := by
  have hminutes := Int.tmod_add_mul_tdiv (offset.tdiv 60) 60
  have hseconds := Int.tmod_add_mul_tdiv offset 60
  rw [tdiv_sixty_tdiv_sixty] at hminutes
  have hsum : offset.tdiv 3600 * 3600 + (offset.tdiv 60).tmod 60 * 60 + offset.tmod 60 =
      offset := by omega
  rcases Int.le_total 0 offset with hsign | hsign
  · rw [offsetOfParts_nonneg (Int.tdiv_nonneg hsign (by decide))
      (Int.tmod_nonneg _ (Int.tdiv_nonneg hsign (by decide))) (Int.tmod_nonneg _ hsign), hsum]
  · obtain ⟨size, rfl⟩ : ∃ size, offset = -size := ⟨-offset, by omega⟩
    have hsize : 0 ≤ size := by omega
    have hdiv : ∀ k, 0 ≤ k → (-size).tdiv k ≤ 0 := by
      intro k hk
      have := Int.tdiv_nonneg hsize hk
      rw [Int.neg_tdiv]
      omega
    have hmod : ∀ n, 0 ≤ n → (-n).tmod 60 ≤ 0 := by
      intro n hn
      have := Int.tmod_nonneg 60 hn
      rw [Int.neg_tmod]
      omega
    have hminute : ((-size).tdiv 60).tmod 60 ≤ 0 := by
      rw [Int.neg_tdiv]
      exact hmod _ (Int.tdiv_nonneg hsize (by decide))
    rw [offsetOfParts_nonpos (hdiv 3600 (by decide)) hminute (hmod size hsize), hsum]

/-! ## The instant -/

/-- What a date-time with an offset can hold. -/
structure OffsetDateTime.Valid (t : OffsetDateTime) : Prop where
  year : -9999 ≤ t.year ∧ t.year ≤ 9999
  offset : t.offset.natAbs ≤ 93599

def ofComponents : List Int → Option OffsetDateTime
  | [year, day, hour, minute, second, nanosecond, hours, minutes, seconds] =>
    if (-9999 ≤ year ∧ year ≤ 9999) ∧ (1 ≤ day ∧ day ≤ daysInYear year) ∧
        (0 ≤ hour ∧ hour ≤ 23) ∧ (0 ≤ minute ∧ minute ≤ 59) ∧ (0 ≤ second ∧ second ≤ 59) ∧
        (0 ≤ nanosecond ∧ nanosecond ≤ 999999999) ∧ (-25 ≤ hours ∧ hours ≤ 25) ∧
        (-59 ≤ minutes ∧ minutes ≤ 59) ∧ (-59 ≤ seconds ∧ seconds ≤ 59) then
      some (.ofLocal (daysOfCivil { year := year, month := 1, day := 1 } + day - 1)
        (hour * 3600000000000 + minute * 60000000000 + second * 1000000000 + nanosecond).toNat
        (offsetOfParts hours minutes seconds))
    else none
  | _ => none

theorem ofLocal_self (t : OffsetDateTime) :
    OffsetDateTime.ofLocal t.localDay t.nanoOfDay t.offset = t := by
  have hnanos : (t.nanoOfDay : Int) = t.localNanos % dayNanos := by
    unfold OffsetDateTime.nanoOfDay dayNanos
    omega
  ext
  · show t.localDay * dayNanos + (t.nanoOfDay : Int) - t.offset * secondNanos = t.utc
    rw [hnanos]
    unfold OffsetDateTime.localDay
    have hlocal : t.localNanos = t.utc + t.offset * secondNanos := rfl
    unfold dayNanos
    omega
  · rfl

/-- **An instant is read back from its row of numbers.** -/
theorem ofComponents_components {t : OffsetDateTime} (h : t.Valid) :
    ofComponents (components t) = some t := by
  have hyear := h.year
  have hday : 1 ≤ ordinal t.localDay ∧ ordinal t.localDay ≤ daysInYear t.year :=
    ordinal_bounds t.localDay
  have hnanos := t.nanoOfDay_lt
  have hoffset := offsetOfParts_parts t.offset
  have hdate : daysOfCivil { year := t.year, month := 1, day := 1 } + ordinal t.localDay - 1 =
      t.localDay := by
    have hordinal : ordinal t.localDay =
      t.localDay - daysOfCivil { year := t.year, month := 1, day := 1 } + 1 := rfl
    omega
  have hclock : ((t.nanoOfDay / 3600000000000 : Nat) * 3600000000000 +
      (t.nanoOfDay / 60000000000 % 60 : Nat) * 60000000000 +
      (t.nanoOfDay / 1000000000 % 60 : Nat) * 1000000000 +
      (t.nanoOfDay % 1000000000 : Nat) : Int).toNat = t.nanoOfDay := by omega
  have hparts : (-25 ≤ t.offset.tdiv 3600 ∧ t.offset.tdiv 3600 ≤ 25) ∧
      (-59 ≤ (t.offset.tdiv 60).tmod 60 ∧ (t.offset.tdiv 60).tmod 60 ≤ 59) ∧
      -59 ≤ t.offset.tmod 60 ∧ t.offset.tmod 60 ≤ 59 := by
    have hbound := h.offset
    have hhours : (t.offset.tdiv 3600).natAbs = t.offset.natAbs / 3600 := Int.natAbs_tdiv _ _
    have hminutes : ((t.offset.tdiv 60).tmod 60).natAbs = (t.offset.tdiv 60).natAbs % 60 :=
      Int.natAbs_tmod _ _
    have hseconds : (t.offset.tmod 60).natAbs = t.offset.natAbs % 60 := Int.natAbs_tmod _ _
    omega
  unfold components ofComponents
  refine (if_pos ⟨hyear, hday, by omega, by omega, by omega, by omega, hparts⟩).trans ?_
  rw [hdate, hclock, hoffset, ofLocal_self]

end CivilTime
