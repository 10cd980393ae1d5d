import RemindiCore.Lib.CivilTime
import Mathlib.Data.String.Basic
import Mathlib.Tactic.Ring

/-!
# The order of canonical timestamps

Numbers padded to one width are ordered as texts are (`pad_lt`), days as their
civil dates (`civilOfDays_lt`), so instants of the years 0 to 9999 are ordered
as their canonical timestamps (`canonicalText_lt`, `canonicalText_le_iff`).  A
year before 0 sorts before all of them.
-/

namespace DigitText

theorem append_lt_of_lt {u v s t : List Char} (hlength : u.length = v.length) (h : u < v) :
    u ++ s < v ++ t := by
  induction u generalizing v with
  | nil =>
    obtain rfl : v = [] := List.eq_nil_of_length_eq_zero hlength.symm
    exact absurd h (lt_irrefl _)
  | cons c u ih =>
    cases v with
    | nil => cases hlength
    | cons d v =>
      rw [List.cons_append, List.cons_append, List.cons_lt_cons_iff]
      rcases List.cons_lt_cons_iff.mp h with hlt | ⟨rfl, htail⟩
      · exact Or.inl hlt
      · exact Or.inr ⟨rfl, ih (Nat.succ.inj hlength) htail⟩

theorem ofDigitChars_init (u : List Char) (init : Nat) :
    Nat.ofDigitChars 10 u init = init * 10 ^ u.length + Nat.ofDigitChars 10 u 0 := by
  induction u generalizing init with
  | nil => simp
  | cons c u ih =>
    rw [Nat.ofDigitChars_cons, Nat.ofDigitChars_cons, ih, ih (10 * 0 + _), List.length_cons,
      Nat.pow_succ]
    ring

theorem isDigit_toNat {c : Char} (h : c.isDigit = true) : 48 ≤ c.toNat ∧ c.toNat ≤ 57 := by
  simp only [Char.isDigit, ge_iff_le, Bool.and_eq_true, decide_eq_true_eq] at h
  exact h

/-- The digits are below the next power of ten. -/
theorem ofDigitChars_lt {u : List Char} (hu : ∀ c ∈ u, c.isDigit = true) :
    Nat.ofDigitChars 10 u 0 < 10 ^ u.length := by
  induction u with
  | nil => simp
  | cons c u ih =>
    obtain ⟨hc, hu⟩ := List.forall_mem_cons.mp hu
    have hdigit := isDigit_toNat hc
    have htail := ih hu
    rw [Nat.ofDigitChars_cons, ofDigitChars_init, List.length_cons, Nat.pow_succ]
    have hzero : '0'.toNat = 48 := rfl
    have hle : (10 * 0 + (c.toNat - '0'.toNat)) * 10 ^ u.length ≤ 9 * 10 ^ u.length :=
      Nat.mul_le_mul_right _ (by omega)
    omega

/-- Digits of one length are ordered as the numbers that they write. -/
theorem ofDigitChars_lt_of_lt {u v : List Char} (hu : ∀ c ∈ u, c.isDigit = true)
    (hv : ∀ c ∈ v, c.isDigit = true) (hlength : u.length = v.length) (h : u < v) :
    Nat.ofDigitChars 10 u 0 < Nat.ofDigitChars 10 v 0 := by
  induction u generalizing v with
  | nil =>
    obtain rfl : v = [] := List.eq_nil_of_length_eq_zero hlength.symm
    exact absurd h (lt_irrefl _)
  | cons c u ih =>
    cases v with
    | nil => cases hlength
    | cons d v =>
      obtain ⟨hc, hu'⟩ := List.forall_mem_cons.mp hu
      obtain ⟨hd, hv'⟩ := List.forall_mem_cons.mp hv
      have hrest : u.length = v.length := Nat.succ.inj hlength
      have hzero : '0'.toNat = 48 := rfl
      have hcbound := isDigit_toNat hc
      have hdbound := isDigit_toNat hd
      rw [Nat.ofDigitChars_cons, Nat.ofDigitChars_cons, ofDigitChars_init,
        ofDigitChars_init v, hrest]
      rcases List.cons_lt_cons_iff.mp h with hlt | ⟨rfl, htail⟩
      · have hlt : c.toNat < d.toNat := hlt
        have htail : Nat.ofDigitChars 10 u 0 < 10 ^ v.length := hrest ▸ ofDigitChars_lt hu'
        have hle : (10 * 0 + (c.toNat - '0'.toNat) + 1) * 10 ^ v.length ≤
            (10 * 0 + (d.toNat - '0'.toNat)) * 10 ^ v.length :=
          Nat.mul_le_mul_right _ (by omega)
        rw [Nat.add_mul, Nat.one_mul] at hle
        omega
      · have := ih hu' hv' hrest htail
        omega

/-- **Padded numbers are ordered as their texts.** -/
theorem pad_lt {w m n : Nat} (hw : 0 < w) (hn : n < 10 ^ w) (h : m < n) : pad w m < pad w n := by
  have hlength : (pad w n).length = (pad w m).length := by
    rw [length_pad hw hn, length_pad hw (Nat.lt_trans h hn)]
  rcases lt_trichotomy (pad w m) (pad w n) with hlt | heq | hgt
  · exact hlt
  · exact absurd (pad_injective heq) (Nat.ne_of_lt h)
  · have hvalue := ofDigitChars_lt_of_lt (fun c hc => isDigit_of_mem_pad hc)
      (fun c hc => isDigit_of_mem_pad hc) hlength hgt
    rw [value_pad, value_pad] at hvalue
    exact absurd hvalue (Nat.lt_asymm h)

/-- A padded number decides before what follows it. -/
theorem pad_append_lt {w m n : Nat} {s t : List Char} (hw : 0 < w) (hn : n < 10 ^ w)
    (h : m < n ∨ m = n ∧ s < t) : pad w m ++ s < pad w n ++ t := by
  rcases h with hlt | ⟨rfl, htail⟩
  · refine append_lt_of_lt ?_ (pad_lt hw hn hlt)
    rw [length_pad hw hn, length_pad hw (Nat.lt_trans hlt hn)]
  · exact List.append_left_lt htail

end DigitText

namespace CivilTime

open DigitText

/-! ## The order of days -/

theorem daysBefore_mono {y z : Int} (h : y ≤ z) : daysBefore y ≤ daysBefore z := by
  unfold daysBefore
  omega

/-- A day lies in its year. -/
theorem yearDay_day_lt (z : Int) :
    (yearDay z).day < daysBefore ((yearDay z).year + 1) - daysBefore (yearDay z).year := by
  have hr : 0 ≤ z % 146097 ∧ z % 146097 < 146097 := by omega
  simp only [yearDay]
  set e := z / 146097
  set r := z % 146097
  set c := min 3 (r / 36524) with hc
  set q := (r - c * 36524) / 1461 with hq
  set y := min 3 ((r - c * 36524) % 1461 / 365) with hy
  have hcb : 0 ≤ c ∧ c ≤ 3 := by omega
  have hqb : 0 ≤ q ∧ q ≤ 24 := by omega
  have hyb : 0 ≤ y ∧ y ≤ 3 := by omega
  rw [daysBefore_parts hcb hqb hyb]
  rcases lt_or_eq_of_le hyb.2 with hy3 | hy3
  · have := daysBefore_parts (e := e) hcb hqb (y := y + 1) (by omega)
    rw [show e * 400 + c * 100 + q * 4 + y + 1 = e * 400 + c * 100 + q * 4 + (y + 1) by omega, this]
    omega
  rcases lt_or_eq_of_le hqb.2 with hq24 | hq24
  · have := daysBefore_parts (e := e) hcb (q := q + 1) (y := 0) (by omega) (by omega)
    rw [show e * 400 + c * 100 + q * 4 + y + 1 = e * 400 + c * 100 + (q + 1) * 4 + 0 by omega, this]
    omega
  rcases lt_or_eq_of_le hcb.2 with hc3 | hc3
  · have := daysBefore_parts (e := e) (c := c + 1) (q := 0) (y := 0) (by omega) (by omega) (by omega)
    rw [show e * 400 + c * 100 + q * 4 + y + 1 = e * 400 + (c + 1) * 100 + 0 * 4 + 0 by omega, this]
    omega
  · have := daysBefore_parts (e := e + 1) (c := 0) (q := 0) (y := 0) (by omega) (by omega) (by omega)
    rw [show e * 400 + c * 100 + q * 4 + y + 1 = (e + 1) * 400 + 0 * 100 + 0 * 4 + 0 by omega, this]
    omega

theorem yearDay_lt {y z : Int} (h : y < z) :
    (yearDay y).year < (yearDay z).year ∨
      (yearDay y).year = (yearDay z).year ∧ (yearDay y).day < (yearDay z).day := by
  have hy := daysBefore_yearDay y
  have hz := daysBefore_yearDay z
  rcases lt_trichotomy (yearDay y).year (yearDay z).year with hlt | heq | hgt
  · exact Or.inl hlt
  · rw [heq] at hy
    exact Or.inr ⟨heq, by omega⟩
  · have hmono := daysBefore_mono (y := (yearDay z).year + 1) (z := (yearDay y).year) (by omega)
    have := yearDay_day_lt z
    have := yearDay_day_bounds y
    omega

/-- **Days are ordered as their dates.** -/
theorem civilOfDays_lt {y z : Int} (h : y < z) :
    (civilOfDays y).year < (civilOfDays z).year ∨ (civilOfDays y).year = (civilOfDays z).year ∧
      ((civilOfDays y).month < (civilOfDays z).month ∨
        (civilOfDays y).month = (civilOfDays z).month ∧
          (civilOfDays y).day < (civilOfDays z).day) := by
  have hlt := yearDay_lt (y := y + 719468) (z := z + 719468) (by omega)
  have hby := yearDay_day_bounds (y + 719468)
  have hbz := yearDay_day_bounds (z + 719468)
  unfold civilOfDays
  generalize yearDay (y + 719468) = a at *
  generalize yearDay (z + 719468) = b at *
  obtain ⟨ya, da⟩ := a
  obtain ⟨yb, db⟩ := b
  simp only [civilOfYearDay] at *
  split <;> split <;> split <;> split <;> omega

/-! ## The order of timestamps -/

/-- What follows the year in a canonical timestamp. -/
def afterYear (t : OffsetDateTime) : List Char :=
  '-' :: (pad 2 (civilOfDays t.toUtc.localDay).month.toNat ++ '-' ::
    (pad 2 (civilOfDays t.toUtc.localDay).day.toNat ++ 'T' ::
      (pad 2 (t.toUtc.nanoOfDay / 3600000000000) ++ ':' ::
        (pad 2 (t.toUtc.nanoOfDay / 60000000000 % 60) ++ ':' ::
          (pad 2 (t.toUtc.nanoOfDay / 1000000000 % 60) ++ '.' ::
            (pad 3 (t.toUtc.nanoOfDay % 1000000000 / 1000000) ++ ['Z']))))))

theorem canonicalText_parts {t : OffsetDateTime} {x : String} (h : canonicalText t = some x) :
    x.toList = (if t.toUtc.year < 0 then ['-'] else []) ++ pad 4 t.toUtc.year.natAbs ++ afterYear t := by
  unfold canonicalText at h
  dsimp only at h
  split at h
  · obtain rfl := Option.some.inj h
    rw [String.toList_ofList]
    rfl
  · cases h

/-- A canonical timestamp of a year from 0 on. -/
theorem canonicalText_eq (t : OffsetDateTime) (h : 0 ≤ t.toUtc.year ∧ t.toUtc.year ≤ 9999) :
    canonicalText t = some (String.ofList (pad 4 (t.toUtc.year.toNat) ++ afterYear t)) := by
  unfold canonicalText
  dsimp only
  have hyear : (civilOfDays t.toUtc.localDay).year = t.toUtc.year := rfl
  have hnat : t.toUtc.year.natAbs = t.toUtc.year.toNat := by omega
  rw [hyear, if_pos ⟨by omega, h.2⟩, if_neg (by omega), hnat, List.nil_append]
  rfl

/-- The later instant has the later day, or the later millisecond of the same day. -/
theorem localDay_lt {s t : OffsetDateTime} (h : s.utc / 1000000 < t.utc / 1000000) :
    s.toUtc.localDay < t.toUtc.localDay ∨ s.toUtc.localDay = t.toUtc.localDay ∧
      s.toUtc.nanoOfDay / 1000000 < t.toUtc.nanoOfDay / 1000000 := by
  simp only [OffsetDateTime.localDay, OffsetDateTime.nanoOfDay, OffsetDateTime.localNanos,
    OffsetDateTime.toUtc, dayNanos]
  omega

/-- Instants of one year are ordered as what follows it. -/
theorem afterYear_lt {s t : OffsetDateTime} (hyear : s.toUtc.year = t.toUtc.year)
    (h : s.utc / 1000000 < t.utc / 1000000) : afterYear s < afterYear t := by
  have hcons : ∀ (c : Char) {u v : List Char}, u < v → c :: u < c :: v :=
    fun c _ _ huv => List.cons_lt_cons_iff.mpr (Or.inr ⟨rfl, huv⟩)
  have hbs := civilOfDays_bounds s.toUtc.localDay
  have hbt := civilOfDays_bounds t.toUtc.localDay
  have hns := s.toUtc.nanoOfDay_lt
  have hnt := t.toUtc.nanoOfDay_lt
  have hyears : (civilOfDays s.toUtc.localDay).year = (civilOfDays t.toUtc.localDay).year := hyear
  refine hcons '-' ?_
  rcases localDay_lt h with hday | ⟨hday, hclock⟩
  · rcases civilOfDays_lt hday with hless | ⟨-, hmonth | ⟨hmonth, hdate⟩⟩
    · omega
    · exact pad_append_lt (by decide) (by omega) (Or.inl (by omega))
    · refine pad_append_lt (by decide) (by omega) (Or.inr ⟨by omega, hcons '-' ?_⟩)
      exact pad_append_lt (by decide) (by omega) (Or.inl (by omega))
  · -- one day: hours, minutes, seconds, milliseconds
    rw [hday]
    refine pad_append_lt (by decide) (by omega) (Or.inr ⟨rfl, hcons '-' ?_⟩)
    refine pad_append_lt (by decide) (by omega) (Or.inr ⟨rfl, hcons 'T' ?_⟩)
    refine pad_append_lt (by decide) (by omega) ?_
    by_cases hhour : s.toUtc.nanoOfDay / 3600000000000 < t.toUtc.nanoOfDay / 3600000000000
    · exact Or.inl hhour
    refine Or.inr ⟨by omega, hcons ':' (pad_append_lt (by decide) (by omega) ?_)⟩
    by_cases hminute : s.toUtc.nanoOfDay / 60000000000 % 60 < t.toUtc.nanoOfDay / 60000000000 % 60
    · exact Or.inl hminute
    refine Or.inr ⟨by omega, hcons ':' (pad_append_lt (by decide) (by omega) ?_)⟩
    by_cases hsecond : s.toUtc.nanoOfDay / 1000000000 % 60 < t.toUtc.nanoOfDay / 1000000000 % 60
    · exact Or.inl hsecond
    refine Or.inr ⟨by omega, hcons '.' (pad_append_lt (by decide) (by omega) (Or.inl ?_))⟩
    omega

/-- **Instants of one year, also of a negative one, are ordered as their canonical
timestamps.** -/
theorem canonicalText_lt_of_year {s t : OffsetDateTime} (hyear : s.toUtc.year = t.toUtc.year)
    (h : s.utc / 1000000 < t.utc / 1000000) {x y : String} (hx : canonicalText s = some x)
    (hy : canonicalText t = some y) : x < y := by
  rw [String.lt_iff_toList_lt, canonicalText_parts hx, canonicalText_parts hy, hyear]
  exact List.append_left_lt (afterYear_lt hyear h)

/-- **Instants of the years 0 to 9999 are ordered as their canonical timestamps.** -/
theorem canonicalText_lt {s t : OffsetDateTime} (hs : 0 ≤ s.toUtc.year ∧ s.toUtc.year ≤ 9999)
    (ht : 0 ≤ t.toUtc.year ∧ t.toUtc.year ≤ 9999) (h : s.utc / 1000000 < t.utc / 1000000)
    {x y : String} (hx : canonicalText s = some x) (hy : canonicalText t = some y) : x < y := by
  by_cases hyear : s.toUtc.year = t.toUtc.year
  · exact canonicalText_lt_of_year hyear h hx hy
  · have hless : s.toUtc.year < t.toUtc.year := by
      rcases localDay_lt h with hday | ⟨hday, -⟩
      · rcases civilOfDays_lt hday with hless | ⟨hsame, -⟩
        · exact hless
        · exact absurd hsame hyear
      · refine absurd ?_ hyear
        show (civilOfDays s.toUtc.localDay).year = (civilOfDays t.toUtc.localDay).year
        rw [hday]
    rw [canonicalText_eq s hs] at hx
    rw [canonicalText_eq t ht] at hy
    obtain rfl := Option.some.inj hx
    obtain rfl := Option.some.inj hy
    rw [String.lt_iff_toList_lt, String.toList_ofList, String.toList_ofList]
    exact pad_append_lt (by decide) (by omega) (Or.inl (by omega))

/-- A year before 0 sorts before them. -/
theorem canonicalText_negative_lt {s t : OffsetDateTime} (hs : s.toUtc.year < 0)
    (ht : 0 ≤ t.toUtc.year ∧ t.toUtc.year ≤ 9999) {x y : String} (hx : canonicalText s = some x)
    (hy : canonicalText t = some y) : x < y := by
  rw [canonicalText_eq t ht] at hy
  unfold canonicalText at hx
  dsimp only at hx
  split at hx
  · rw [if_pos (by exact hs)] at hx
    obtain rfl := Option.some.inj hx
    obtain rfl := Option.some.inj hy
    rw [String.lt_iff_toList_lt, String.toList_ofList, String.toList_ofList]
    have hdigits : ∀ c ∈ pad 4 t.toUtc.year.toNat, c.isDigit = true :=
      fun c hc => isDigit_of_mem_pad hc
    have hlength : (pad 4 t.toUtc.year.toNat).length = 4 := length_pad (by decide) (by omega)
    cases hpad : pad 4 t.toUtc.year.toNat with
    | nil => simp [hpad] at hlength
    | cons c u =>
      have hc := isDigit_toNat (hdigits c (by rw [hpad]; exact List.mem_cons_self))
      refine List.cons_lt_cons_iff.mpr (Or.inl ?_)
      show '-'.toNat < c.toNat
      have hminus : '-'.toNat = 45 := rfl
      omega
  · cases hx

theorem canonicalText_isSome {t : OffsetDateTime} :
    (canonicalText t).isSome = true ↔ -9999 ≤ t.toUtc.year ∧ t.toUtc.year ≤ 9999 := by
  unfold canonicalText
  dsimp only
  split
  · exact iff_of_true rfl ‹_›
  · exact iff_of_false (by simp) ‹_›

/-- The text depends on the millisecond only. -/
theorem canonicalText_congr {s t : OffsetDateTime} (h : s.utc / 1000000 = t.utc / 1000000) :
    canonicalText s = canonicalText t := by
  have hday : s.toUtc.localDay = t.toUtc.localDay := by
    simp only [OffsetDateTime.localDay, OffsetDateTime.localNanos, OffsetDateTime.toUtc, dayNanos]
    omega
  have hmillis : s.toUtc.nanoOfDay / 1000000 = t.toUtc.nanoOfDay / 1000000 := by
    simp only [OffsetDateTime.nanoOfDay, OffsetDateTime.localNanos, OffsetDateTime.toUtc, dayNanos]
    omega
  unfold canonicalText
  dsimp only
  have hhour : s.toUtc.nanoOfDay / 3600000000000 = t.toUtc.nanoOfDay / 3600000000000 := by omega
  have hminute : s.toUtc.nanoOfDay / 60000000000 = t.toUtc.nanoOfDay / 60000000000 := by omega
  have hsecond : s.toUtc.nanoOfDay / 1000000000 = t.toUtc.nanoOfDay / 1000000000 := by omega
  have hmilli : s.toUtc.nanoOfDay % 1000000000 / 1000000 =
      t.toUtc.nanoOfDay % 1000000000 / 1000000 := by omega
  rw [hday, hhour, hminute, hsecond, hmilli]

theorem year_mono {s t : OffsetDateTime} (h : s.utc / 1000000 ≤ t.utc / 1000000) :
    s.toUtc.year ≤ t.toUtc.year := by
  have hday : s.toUtc.localDay ≤ t.toUtc.localDay := by
    simp only [OffsetDateTime.localDay, OffsetDateTime.localNanos, OffsetDateTime.toUtc, dayNanos]
    omega
  show (civilOfDays s.toUtc.localDay).year ≤ (civilOfDays t.toUtc.localDay).year
  rcases lt_or_eq_of_le hday with hlt | heq
  · rcases civilOfDays_lt hlt with hyear | ⟨hyear, _⟩
    · exact le_of_lt hyear
    · exact le_of_eq hyear
  · rw [heq]

/-- **Comparing timestamps of the years 0 to 9999 compares milliseconds**; the later
one may be of any year that has a timestamp. -/
theorem canonicalText_le_iff {s t : OffsetDateTime} {x y : String}
    (hs : 0 ≤ s.toUtc.year) (hx : canonicalText s = some x) (hy : canonicalText t = some y) :
    x ≤ y ↔ s.utc / 1000000 ≤ t.utc / 1000000 := by
  have hs' : 0 ≤ s.toUtc.year ∧ s.toUtc.year ≤ 9999 :=
    ⟨hs, (canonicalText_isSome.mp (by rw [hx]; rfl)).2⟩
  have hyear : t.toUtc.year ≤ 9999 := (canonicalText_isSome.mp (by rw [hy]; rfl)).2
  by_cases ht : t.toUtc.year < 0
  · -- the other instant is the earlier one
    have hlt := canonicalText_negative_lt ht hs' hy hx
    exact iff_of_false (not_le.mpr hlt) fun hle => absurd (year_mono hle) (by omega)
  rcases lt_trichotomy (s.utc / 1000000) (t.utc / 1000000) with hlt | heq | hgt
  · exact iff_of_true (le_of_lt (canonicalText_lt hs' ⟨by omega, hyear⟩ hlt hx hy)) (le_of_lt hlt)
  · refine iff_of_true (le_of_eq ?_) (le_of_eq heq)
    exact Option.some.inj (hx.symm.trans ((canonicalText_congr heq).trans hy))
  · exact iff_of_false (not_le.mpr (canonicalText_lt ⟨by omega, hyear⟩ hs' hgt hy hx))
      (not_le.mpr hgt)

end CivilTime
