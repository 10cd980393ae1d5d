import RemindiCore.Lib.Digits

/-!
# Instants, civil dates and their texts

An `OffsetDateTime` is an instant (nanoseconds since the Unix epoch) shown at
a UTC offset.  `civilOfDays` splits a day number into year, month and day of
the Gregorian calendar and `daysOfCivil` puts them together again
(`daysOfCivil_civilOfDays`).

`rfc3339` prints an instant the way the `time` crate does: fraction digits
without trailing zeros, `Z` for the offset zero, no text for a year outside
0 to 9999 or an offset with seconds.  The text determines the instant and its
offset (`rfc3339_injective`).  `components` is the same as a row of numbers
(`components_injective`).
-/

namespace CivilTime

open DigitText

/-! ## Instants -/

/-- Nanoseconds in a second and in a day. -/
def secondNanos : Int := 1000000000
def dayNanos : Int := 86400000000000

/-- An instant (nanoseconds since the epoch) at a UTC offset (seconds). -/
@[ext]
structure OffsetDateTime where
  utc : Int
  offset : Int
deriving DecidableEq, Repr

namespace OffsetDateTime

/-- The same instant at the UTC offset. -/
def toUtc (t : OffsetDateTime) : OffsetDateTime := ⟨t.utc, 0⟩

/-- Nanoseconds since the epoch on the local clock. -/
def localNanos (t : OffsetDateTime) : Int := t.utc + t.offset * secondNanos

def addSeconds (t : OffsetDateTime) (seconds : Int) : OffsetDateTime :=
  ⟨t.utc + seconds * secondNanos, t.offset⟩

def addNanos (t : OffsetDateTime) (nanos : Int) : OffsetDateTime := ⟨t.utc + nanos, t.offset⟩

@[simp] theorem addNanos_utc (t : OffsetDateTime) (n : Int) : (t.addNanos n).utc = t.utc + n := rfl

@[simp] theorem addSeconds_utc (t : OffsetDateTime) (n : Int) :
    (t.addSeconds n).utc = t.utc + n * secondNanos := rfl

@[simp] theorem addSeconds_offset (t : OffsetDateTime) (n : Int) :
    (t.addSeconds n).offset = t.offset := rfl

theorem addSeconds_zero (t : OffsetDateTime) : t.addSeconds 0 = t := by
  ext <;> simp

theorem addSeconds_addSeconds (t : OffsetDateTime) (m n : Int) :
    (t.addSeconds m).addSeconds n = t.addSeconds (m + n) := by
  ext
  · simp only [addSeconds_utc]
    rw [Int.add_mul, Int.add_assoc]
  · rfl

end OffsetDateTime

/-! ## Civil dates -/

/-- A year counted from March and a day in it. -/
structure YearDay where
  year : Int
  day : Int

/-- Day 0 is the first of March of the year 0. -/
def yearDay (z : Int) : YearDay :=
  let r := z % 146097
  let n100 := min 3 (r / 36524)
  let r1 := r - n100 * 36524
  let n4 := r1 / 1461
  let r4 := r1 % 1461
  let n1 := min 3 (r4 / 365)
  { year := z / 146097 * 400 + n100 * 100 + n4 * 4 + n1, day := r4 - n1 * 365 }

def daysBefore (year : Int) : Int := year * 365 + year / 4 - year / 100 + year / 400

theorem daysBefore_parts {e c q y : Int} (hc : 0 ≤ c ∧ c ≤ 3) (hq : 0 ≤ q ∧ q ≤ 24)
    (hy : 0 ≤ y ∧ y ≤ 3) :
    daysBefore (e * 400 + c * 100 + q * 4 + y) = e * 146097 + c * 36524 + q * 1461 + y * 365 := by
  unfold daysBefore
  have h4 : (e * 400 + c * 100 + q * 4 + y) / 4 = e * 100 + c * 25 + q := by omega
  have h100 : (e * 400 + c * 100 + q * 4 + y) / 100 = e * 4 + c := by omega
  have h400 : (e * 400 + c * 100 + q * 4 + y) / 400 = e := by omega
  rw [h4, h100, h400]
  omega

theorem daysBefore_yearDay (z : Int) : daysBefore (yearDay z).year + (yearDay z).day = z := by
  simp only [yearDay]
  have hr : 0 ≤ z % 146097 ∧ z % 146097 < 146097 := by omega
  rw [daysBefore_parts (by omega) (by omega) (by omega)]
  omega

theorem yearDay_day_bounds (z : Int) : 0 ≤ (yearDay z).day ∧ (yearDay z).day ≤ 365 := by
  simp only [yearDay]
  omega

structure Civil where
  year : Int
  month : Int
  day : Int
deriving DecidableEq, Repr

/-- The months from March on have 31, 30, 31, 30, 31, 31, 30, 31, 30, 31, 31 days. -/
def civilOfYearDay (date : YearDay) : Civil :=
  let mp := (5 * date.day + 2) / 153
  let month := if mp < 10 then mp + 3 else mp - 9
  { year := if month ≤ 2 then date.year + 1 else date.year
    month := month
    day := date.day - (153 * mp + 2) / 5 + 1 }

/-- Gregorian date of a day number (day 0 is 1970-01-01). -/
def civilOfDays (z : Int) : Civil := civilOfYearDay (yearDay (z + 719468))

def daysOfCivil (c : Civil) : Int :=
  let year := if c.month ≤ 2 then c.year - 1 else c.year
  let mp := if 2 < c.month then c.month - 3 else c.month + 9
  daysBefore year + (153 * mp + 2) / 5 + c.day - 1 - 719468

theorem daysOfCivil_civilOfYearDay (date : YearDay) (hb : 0 ≤ date.day ∧ date.day ≤ 365) :
    daysOfCivil (civilOfYearDay date) = daysBefore date.year + date.day - 719468 := by
  simp only [civilOfYearDay, daysOfCivil]
  by_cases hm : (5 * date.day + 2) / 153 < 10
  · simp only [if_pos hm]
    rw [if_neg (by omega), if_neg (by omega), if_pos (by omega)]
    omega
  · simp only [if_neg hm]
    rw [if_pos (by omega), if_pos (by omega), if_neg (by omega), Int.add_sub_cancel]
    omega

theorem daysOfCivil_civilOfDays (z : Int) : daysOfCivil (civilOfDays z) = z := by
  unfold civilOfDays
  rw [daysOfCivil_civilOfYearDay _ (yearDay_day_bounds _), daysBefore_yearDay]
  omega

theorem civilOfDays_injective {y z : Int} (h : civilOfDays y = civilOfDays z) : y = z := by
  rw [← daysOfCivil_civilOfDays y, h, daysOfCivil_civilOfDays]

theorem civilOfDays_bounds (z : Int) : 1 ≤ (civilOfDays z).month ∧ (civilOfDays z).month ≤ 12 ∧
    1 ≤ (civilOfDays z).day ∧ (civilOfDays z).day ≤ 31 := by
  have hb := yearDay_day_bounds (z + 719468)
  simp only [civilOfDays, civilOfYearDay]
  split <;> omega

/-- Day of the year, from 1. -/
def ordinal (z : Int) : Int :=
  z - daysOfCivil { year := (civilOfDays z).year, month := 1, day := 1 } + 1

theorem days_eq_of_ordinal {y z : Int} (hy : (civilOfDays y).year = (civilOfDays z).year)
    (ho : ordinal y = ordinal z) : y = z := by
  unfold ordinal at ho
  rw [hy] at ho
  omega

/-! ## Local date and clock -/

namespace OffsetDateTime

/-- Day number and nanosecond of the day on the local clock. -/
def localDay (t : OffsetDateTime) : Int := t.localNanos / dayNanos
def nanoOfDay (t : OffsetDateTime) : Nat := (t.localNanos % dayNanos).toNat

def year (t : OffsetDateTime) : Int := (civilOfDays t.localDay).year

theorem nanoOfDay_lt (t : OffsetDateTime) : t.nanoOfDay < 86400000000000 := by
  unfold nanoOfDay dayNanos
  omega

/-- Day, clock and offset determine the instant. -/
theorem ext_local {s t : OffsetDateTime} (hd : s.localDay = t.localDay)
    (hn : s.nanoOfDay = t.nanoOfDay) (ho : s.offset = t.offset) : s = t := by
  have hl : s.localNanos = t.localNanos := by
    unfold localDay at hd
    unfold nanoOfDay at hn
    simp only [dayNanos] at hd hn
    omega
  apply OffsetDateTime.ext _ ho
  unfold localNanos at hl
  rw [ho] at hl
  omega

end OffsetDateTime

/-! ## RFC 3339 -/

def fractionText (nanos : Nat) : List Char :=
  if nanos = 0 then [] else '.' :: trimmed 9 nanos

/-- `hh:mm:ss` and the fraction. -/
def clockText (n : Nat) : List Char :=
  pad 2 (n / 3600000000000) ++ ':' :: (pad 2 (n / 60000000000 % 60) ++ ':' ::
    (pad 2 (n / 1000000000 % 60) ++ fractionText (n % 1000000000)))

def offsetText (offset : Int) : List Char :=
  if offset = 0 then ['Z']
  else (if offset < 0 then '-' else '+') :: (pad 2 (offset.natAbs / 3600) ++ ':' ::
    pad 2 (offset.natAbs / 60 % 60))

def dateText (c : Civil) : List Char :=
  pad 4 c.year.toNat ++ '-' :: (pad 2 c.month.toNat ++ '-' :: pad 2 c.day.toNat)

/-- What the RFC 3339 text can express. -/
def Printable (t : OffsetDateTime) : Prop :=
  0 ≤ t.year ∧ t.year < 10000 ∧ t.offset.natAbs / 3600 ≤ 23 ∧ t.offset % 60 = 0

instance (t : OffsetDateTime) : Decidable (Printable t) := by
  unfold Printable
  infer_instance

def rfc3339 (t : OffsetDateTime) : Option String :=
  if Printable t then
    some (String.ofList (dateText (civilOfDays t.localDay) ++ 'T' ::
      (clockText t.nanoOfDay ++ offsetText t.offset)))
  else none

theorem fractionText_append_inj {m n : Nat} {s t : List Char} (hm : m < 1000000000)
    (hn : n < 1000000000) (hs : ∀ c r, s = c :: r → c.isDigit = false ∧ c ≠ '.')
    (ht : ∀ c r, t = c :: r → c.isDigit = false ∧ c ≠ '.')
    (h : fractionText m ++ s = fractionText n ++ t) : m = n ∧ s = t := by
  unfold fractionText at h
  by_cases h1 : m = 0 <;> by_cases h2 : n = 0
  · rw [if_pos h1, if_pos h2] at h
    exact ⟨h1.trans h2.symm, h⟩
  · rw [if_pos h1, if_neg h2] at h
    exact absurd rfl (hs '.' _ h).2
  · rw [if_neg h1, if_pos h2] at h
    exact absurd rfl (ht '.' _ h.symm).2
  · rw [if_neg h1, if_neg h2] at h
    simp only [List.cons_append, List.cons.injEq, true_and] at h
    obtain ⟨h3, h4⟩ := run_append_inj Char.isDigit (fun c hc => isDigit_of_mem_trimmed hc)
      (fun c hc => isDigit_of_mem_trimmed hc) (fun c r e => (hs c r e).1)
      (fun c r e => (ht c r e).1) h
    exact ⟨trimmed_injective (by decide) hm hn h3, h4⟩

theorem clockText_append_inj {m n : Nat} {s t : List Char} (hm : m < 86400000000000)
    (hn : n < 86400000000000) (hs : ∀ c r, s = c :: r → c.isDigit = false ∧ c ≠ '.')
    (ht : ∀ c r, t = c :: r → c.isDigit = false ∧ c ≠ '.')
    (h : clockText m ++ s = clockText n ++ t) : m = n ∧ s = t := by
  simp only [clockText, List.append_assoc, List.cons_append] at h
  obtain ⟨hhour, h⟩ := pad_append_inj (by decide) (by omega) (by omega) h
  obtain ⟨hmin, h⟩ := pad_append_inj (by decide) (by omega) (by omega) (List.cons.inj h).2
  obtain ⟨hsec, h⟩ := pad_append_inj (by decide) (by omega) (by omega) (List.cons.inj h).2
  obtain ⟨hfrac, h⟩ := fractionText_append_inj (by omega) (by omega) hs ht h
  exact ⟨by omega, h⟩

theorem offsetText_head (offset : Int) (c : Char) (r : List Char) (h : offsetText offset = c :: r) :
    c.isDigit = false ∧ c ≠ '.' := by
  unfold offsetText at h
  split at h
  · cases h
    decide
  · split at h <;> cases h <;> decide

theorem offsetText_injective {a b : Int} (ha : a.natAbs / 3600 ≤ 23 ∧ a % 60 = 0)
    (hb : b.natAbs / 3600 ≤ 23 ∧ b % 60 = 0) (h : offsetText a = offsetText b) : a = b := by
  unfold offsetText at h
  by_cases h1 : a = 0 <;> by_cases h2 : b = 0
  · rw [h1, h2]
  · rw [if_pos h1, if_neg h2] at h
    split at h <;> simp at h
  · rw [if_neg h1, if_pos h2] at h
    split at h <;> simp at h
  · rw [if_neg h1, if_neg h2] at h
    simp only [List.cons.injEq] at h
    obtain ⟨hsign, h⟩ := h
    obtain ⟨hhour, h⟩ := pad_append_inj (by decide) (by omega) (by omega) h
    have hmin := pad_injective (List.cons.inj h).2
    split at hsign <;> split at hsign <;> simp at hsign <;> omega

theorem dateText_append_inj {b c : Civil} {s t : List Char} (hb : 0 ≤ b.year ∧ b.year < 10000)
    (hb' : 1 ≤ b.month ∧ b.month ≤ 12 ∧ 1 ≤ b.day ∧ b.day ≤ 31)
    (hc : 0 ≤ c.year ∧ c.year < 10000)
    (hc' : 1 ≤ c.month ∧ c.month ≤ 12 ∧ 1 ≤ c.day ∧ c.day ≤ 31)
    (h : dateText b ++ s = dateText c ++ t) : b = c ∧ s = t := by
  simp only [dateText, List.append_assoc, List.cons_append] at h
  obtain ⟨hyear, h⟩ := pad_append_inj (by decide) (by omega) (by omega) h
  obtain ⟨hmonth, h⟩ := pad_append_inj (by decide) (by omega) (by omega) (List.cons.inj h).2
  obtain ⟨hday, h⟩ := pad_append_inj (by decide) (by omega) (by omega) (List.cons.inj h).2
  refine ⟨?_, h⟩
  obtain ⟨_, _, _⟩ := b
  obtain ⟨_, _, _⟩ := c
  simp only [Civil.mk.injEq] at *
  omega

/-- **The RFC 3339 text determines the instant and its offset.** -/
theorem rfc3339_injective {s t : OffsetDateTime} {x : String} (hs : rfc3339 s = some x)
    (ht : rfc3339 t = some x) : s = t := by
  unfold rfc3339 at hs ht
  split at hs
  · next ps =>
    split at ht
    · next pt =>
      have h := String.ofList_injective (Option.some.inj (hs.trans ht.symm))
      obtain ⟨hdate, h⟩ := dateText_append_inj ⟨ps.1, ps.2.1⟩ (civilOfDays_bounds _)
        ⟨pt.1, pt.2.1⟩ (civilOfDays_bounds _) h
      obtain ⟨hclock, hoff⟩ := clockText_append_inj s.nanoOfDay_lt t.nanoOfDay_lt
        (offsetText_head _) (offsetText_head _) (List.cons.inj h).2
      exact OffsetDateTime.ext_local (civilOfDays_injective hdate) hclock
        (offsetText_injective ps.2.2 pt.2.2 hoff)
    · cases ht
  · cases hs

/-! ## The instant as a row of numbers -/

/-- Year, day of the year, clock, nanosecond and the parts of the offset. -/
def components (t : OffsetDateTime) : List Int :=
  [t.year, ordinal t.localDay, (t.nanoOfDay / 3600000000000 : Nat),
    (t.nanoOfDay / 60000000000 % 60 : Nat), (t.nanoOfDay / 1000000000 % 60 : Nat),
    (t.nanoOfDay % 1000000000 : Nat), t.offset.tdiv 3600, (t.offset.tdiv 60).tmod 60,
    t.offset.tmod 60]

theorem tdiv_sixty_tdiv_sixty (x : Int) : (x.tdiv 60).tdiv 60 = x.tdiv 3600 := by
  rcases Int.le_total 0 x with hx | hx
  · rw [Int.tdiv_eq_ediv_of_nonneg hx, Int.tdiv_eq_ediv_of_nonneg hx,
      Int.tdiv_eq_ediv_of_nonneg (by omega)]
    omega
  · obtain ⟨y, rfl⟩ : ∃ y, x = -y := ⟨-x, by omega⟩
    have hy : 0 ≤ y := by omega
    rw [Int.neg_tdiv, Int.neg_tdiv, Int.neg_tdiv, Int.tdiv_eq_ediv_of_nonneg hy,
      Int.tdiv_eq_ediv_of_nonneg hy, Int.tdiv_eq_ediv_of_nonneg (by omega)]
    omega

theorem components_injective {s t : OffsetDateTime} (h : components s = components t) : s = t := by
  simp only [components, List.cons.injEq, and_true] at h
  obtain ⟨hyear, hday, hhour, hmin, hsec, hnano, hoh, hom, hos⟩ := h
  refine OffsetDateTime.ext_local (days_eq_of_ordinal hyear hday) (by omega) ?_
  have h1 := Int.tmod_add_mul_tdiv s.offset 60
  have h2 := Int.tmod_add_mul_tdiv t.offset 60
  have h3 := Int.tmod_add_mul_tdiv (s.offset.tdiv 60) 60
  have h4 := Int.tmod_add_mul_tdiv (t.offset.tdiv 60) 60
  rw [tdiv_sixty_tdiv_sixty] at h3 h4
  omega

/-! ## Canonical timestamps -/

/-- The part of an instant that a timestamp with milliseconds keeps. -/
def OffsetDateTime.truncateMillis (t : OffsetDateTime) : OffsetDateTime :=
  ⟨t.utc / 1000000 * 1000000, 0⟩

@[simp] theorem OffsetDateTime.truncateMillis_truncateMillis (t : OffsetDateTime) :
    t.truncateMillis.truncateMillis = t.truncateMillis := by
  simp [truncateMillis]

/-- Whole seconds from a whole millisecond lead to a whole millisecond. -/
theorem OffsetDateTime.truncateMillis_addSeconds {t : OffsetDateTime} (h : t.truncateMillis = t)
    (n : Int) : (t.addSeconds n).truncateMillis = t.addSeconds n := by
  obtain ⟨hutc, hoffset⟩ := OffsetDateTime.ext_iff.mp h
  simp only [truncateMillis] at hutc hoffset
  ext
  · simp only [truncateMillis, addSeconds_utc, secondNanos]
    omega
  · exact hoffset

/-- `YYYY-MM-DDThh:mm:ss.mmmZ`, for the years -9999 to 9999. -/
def canonicalText (t : OffsetDateTime) : Option String :=
  let date := civilOfDays t.toUtc.localDay
  let n := t.toUtc.nanoOfDay
  if -9999 ≤ date.year ∧ date.year ≤ 9999 then
    some (String.ofList ((if date.year < 0 then ['-'] else []) ++ pad 4 date.year.natAbs ++ '-' ::
      (pad 2 date.month.toNat ++ '-' :: (pad 2 date.day.toNat ++ 'T' ::
        (pad 2 (n / 3600000000000) ++ ':' :: (pad 2 (n / 60000000000 % 60) ++ ':' ::
          (pad 2 (n / 1000000000 % 60) ++ '.' :: (pad 3 (n % 1000000000 / 1000000) ++ ['Z']))))))))
  else none

example : canonicalText ⟨1785585600123456789, 3600⟩ = some "2026-08-01T12:00:00.123Z" := by
  decide

end CivilTime
