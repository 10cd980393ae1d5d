import RemindiCore.Lib.TextOrder

/-!
# The order of timestamps with fractions of different lengths

RFC 3339 leaves the zeros at the end of a fraction out, canonical timestamps
have three digits always.  Both are `stampText` with a number of digits.  In one
second the first digits that both have decide; where these are equal, the longer
text is the smaller one, for `Z` comes after the digits and after the point.  So
a later instant is written below a shortened one exactly as long as it lies in
the span that its digits leave open (`stampText_overtaken`, `stampText_above`).
-/

namespace DigitText

/-- A number is its padded digits. -/
theorem eq_pad {w n : Nat} {u : List Char} (hw : 0 < w) (hn : n < 10 ^ w)
    (hu : ∀ c ∈ u, c.isDigit = true) (hlength : u.length = w)
    (hvalue : Nat.ofDigitChars 10 u 0 = n) : u = pad w n := by
  have hpad : ∀ c ∈ pad w n, c.isDigit = true := fun c hc => isDigit_of_mem_pad hc
  have hsame : u.length = (pad w n).length := by rw [hlength, length_pad hw hn]
  rcases lt_trichotomy u (pad w n) with hlt | heq | hgt
  · have hless := ofDigitChars_lt_of_lt hu hpad hsame hlt
    rw [hvalue, value_pad] at hless
    exact absurd hless (lt_irrefl n)
  · exact heq
  · have hless := ofDigitChars_lt_of_lt hpad hu hsame.symm hgt
    rw [hvalue, value_pad] at hless
    exact absurd hless (lt_irrefl n)

/-- The first `i` of `i + j` digits. -/
theorem pad_split {i j n : Nat} (hi : 0 < i) (hj : 0 < j) (hn : n < 10 ^ (i + j)) :
    pad (i + j) n = pad i (n / 10 ^ j) ++ pad j (n % 10 ^ j) := by
  have hpos : 0 < 10 ^ j := Nat.pow_pos (by decide)
  have hfirst : n / 10 ^ j < 10 ^ i := by
    rw [Nat.div_lt_iff_lt_mul hpos, ← Nat.pow_add]
    exact hn
  have hlast : n % 10 ^ j < 10 ^ j := Nat.mod_lt _ hpos
  refine (eq_pad (by omega) hn ?_ ?_ ?_).symm
  · intro c hc
    rcases List.mem_append.mp hc with hc | hc
    · exact isDigit_of_mem_pad hc
    · exact isDigit_of_mem_pad hc
  · rw [List.length_append, length_pad hi hfirst, length_pad hj hlast]
  · rw [Nat.ofDigitChars_append, value_pad, ofDigitChars_init, length_pad hj hlast, value_pad]
    exact Nat.div_add_mod' n (10 ^ j)

/-- Zeros at the end are left out. -/
theorem trimmed_mul {i n : Nat} (j : Nat) (hi : 0 < i) (hn : n < 10 ^ i) :
    trimmed (i + j) (n * 10 ^ j) = trimmed i n := by
  have hdrop : ∀ (k : Nat) (u : List Char),
      (u ++ List.replicate k '0').rdropWhile (· == '0') = u.rdropWhile (· == '0') := by
    intro k u
    induction k with
    | zero => rw [List.replicate_zero, List.append_nil]
    | succ k ih =>
      rw [List.replicate_succ', ← List.append_assoc, List.rdropWhile_concat_pos _ _ _ rfl, ih]
  cases j with
  | zero => rw [Nat.pow_zero, Nat.mul_one, Nat.add_zero]
  | succ j =>
    have hpos : 0 < 10 ^ (j + 1) := Nat.pow_pos (by decide)
    have hbound : n * 10 ^ (j + 1) < 10 ^ (i + (j + 1)) := by
      rw [Nat.pow_add 10 i (j + 1)]
      exact Nat.mul_lt_mul_of_pos_right hn hpos
    have hzeros : pad (j + 1) 0 = List.replicate (j + 1) '0' := by
      refine (eq_pad (Nat.succ_pos j) hpos ?_ List.length_replicate ?_).symm
      · intro c hc
        rw [List.eq_of_mem_replicate hc]
        rfl
      · rw [Nat.ofDigitChars_replicate_zero, Nat.mul_zero]
    unfold trimmed
    rw [pad_split hi (Nat.succ_pos j) hbound, Nat.mul_div_cancel _ hpos, Nat.mul_mod_left, hzeros,
      hdrop]

/-- A last digit that is not 0 is kept. -/
theorem trimmed_eq_pad {w n : Nat} (hn : n < 10 ^ (w + 1)) (hlast : n % 10 ≠ 0) :
    trimmed (w + 1) n = pad (w + 1) n := by
  have hkeep : ∀ (u : List Char) (d : Nat), d < 10 → d ≠ 0 →
      (u ++ pad 1 d).rdropWhile (· == '0') = u ++ pad 1 d := by
    intro u d hd hne
    obtain ⟨c, hc⟩ := List.length_eq_one_iff.mp (length_pad (w := 1) (n := d) (by decide) hd)
    rw [hc]
    refine List.rdropWhile_concat_neg _ _ _ ?_
    intro hzero
    have hvalue := value_pad 1 d
    rw [hc, eq_of_beq hzero] at hvalue
    exact hne hvalue.symm
  unfold trimmed
  cases w with
  | zero =>
    rw [Nat.zero_add] at hn ⊢
    have hkept := hkeep [] n hn (by rintro rfl; exact hlast rfl)
    rwa [List.nil_append] at hkept
  | succ w =>
    rw [pad_split (Nat.succ_pos w) (by decide) hn]
    exact hkeep _ _ (Nat.mod_lt _ (by decide)) hlast

theorem digit_lt_zulu {c : Char} (h : c.isDigit = true) : c < 'Z' := by
  have hbound := isDigit_toNat h
  show c.toNat < 'Z'.toNat
  have hzulu : 'Z'.toNat = 90 := rfl
  omega

end DigitText

namespace CivilTime

open DigitText

/-! ## Seconds -/

/-- `YYYY-MM-DDThh:mm:ss` -/
def secondText (t : OffsetDateTime) : List Char :=
  dateText (civilOfDays t.localDay) ++ 'T' :: (pad 2 (t.nanoOfDay / 3600000000000) ++ ':' ::
    (pad 2 (t.nanoOfDay / 60000000000 % 60) ++ ':' :: pad 2 (t.nanoOfDay / 1000000000 % 60)))

/-- The millisecond in its second. -/
def milliOf (t : OffsetDateTime) : Nat := t.nanoOfDay % 1000000000 / 1000000

/-- The first `digits` of the three digits of a millisecond, and the zone. -/
def fractionTail (digits milli : Nat) : List Char :=
  if digits = 0 then ['Z'] else '.' :: (pad digits (milli / 10 ^ (3 - digits)) ++ ['Z'])

def stampText (digits : Nat) (t : OffsetDateTime) : String :=
  String.ofList (secondText t ++ fractionTail digits (milliOf t))

/-- The number of digits that a millisecond needs. -/
def fractionDigits (milli : Nat) : Nat :=
  if milli = 0 then 0 else if milli % 100 = 0 then 1 else if milli % 10 = 0 then 2 else 3

section

variable {s t : OffsetDateTime}

/-- An instant in UTC with whole milliseconds, in a year of four digits. -/
structure Stamped (t : OffsetDateTime) : Prop where
  whole : t.truncateMillis = t
  year : 0 ≤ t.year ∧ t.year ≤ 9999

theorem Stamped.offset (h : Stamped t) : t.offset = 0 := by
  rw [← h.whole]
  rfl

theorem Stamped.toUtc (h : Stamped t) : t.toUtc = t :=
  OffsetDateTime.ext rfl h.offset.symm

theorem Stamped.localNanos (h : Stamped t) : t.localNanos = t.utc := by
  unfold OffsetDateTime.localNanos
  rw [h.offset, Int.zero_mul, Int.add_zero]

theorem milliOf_lt (t : OffsetDateTime) : milliOf t < 1000 := by
  unfold milliOf
  omega

/-- A stamped instant is its second and its millisecond. -/
theorem Stamped.utc (h : Stamped t) : t.utc = t.utc / 1000000000 * 1000000000 + milliOf t * 1000000 := by
  have hwhole : t.utc / 1000000 * 1000000 = t.utc := congrArg OffsetDateTime.utc h.whole
  simp only [milliOf, OffsetDateTime.nanoOfDay, h.localNanos, dayNanos]
  omega

theorem Stamped.canonicalText (h : Stamped t) : canonicalText t = some (stampText 3 t) := by
  have hyear : 0 ≤ t.toUtc.year ∧ t.toUtc.year ≤ 9999 := by
    rw [h.toUtc]
    exact h.year
  rw [canonicalText_eq t hyear]
  unfold afterYear stampText secondText dateText fractionTail milliOf
  rw [h.toUtc]
  simp [List.append_assoc, OffsetDateTime.year]

/-- Three, two, one or no digits are left of a whole millisecond. -/
theorem fractionText_milli {m : Nat} (hm : m < 1000) :
    fractionText (m * 1000000) ++ ['Z'] = fractionTail (fractionDigits m) m := by
  unfold fractionText fractionDigits
  by_cases hzero : m = 0
  · rw [if_pos hzero, if_pos (by omega)]
    rfl
  rw [if_neg hzero, if_neg (by omega)]
  have htrimmed : trimmed 9 (m * 1000000) = trimmed 3 m := trimmed_mul 6 (by decide) hm
  rw [htrimmed]
  by_cases htenth : m % 100 = 0
  · obtain ⟨d, rfl⟩ := Nat.dvd_of_mod_eq_zero htenth
    rw [if_pos htenth, Nat.mul_comm]
    rw [show trimmed 3 (d * 100) = trimmed 1 d from trimmed_mul 2 (by decide) (by omega),
      trimmed_eq_pad (by omega) (by omega)]
    unfold fractionTail
    rw [if_neg (by decide), show d * 100 / 10 ^ (3 - 1) = d by omega]
    rfl
  rw [if_neg htenth]
  by_cases hhundredth : m % 10 = 0
  · obtain ⟨d, rfl⟩ := Nat.dvd_of_mod_eq_zero hhundredth
    rw [if_pos hhundredth, Nat.mul_comm]
    rw [show trimmed 3 (d * 10) = trimmed 2 d from trimmed_mul 1 (by decide) (by omega),
      trimmed_eq_pad (by omega) (by omega)]
    unfold fractionTail
    rw [if_neg (by decide), show d * 10 / 10 ^ (3 - 2) = d by omega]
    rfl
  · rw [if_neg hhundredth, trimmed_eq_pad (by omega) hhundredth]
    unfold fractionTail
    rw [if_neg (by decide), show m / 10 ^ (3 - 3) = m by omega]
    rfl

theorem Stamped.rfc3339 (h : Stamped t) :
    rfc3339 t = some (stampText (fractionDigits (milliOf t)) t) := by
  have hprintable : Printable t := by
    have hyear := h.year
    unfold Printable
    rw [h.offset]
    exact ⟨hyear.1, by omega, by decide, by decide⟩
  have hfraction : t.nanoOfDay % 1000000000 = milliOf t * 1000000 := by
    have hwhole : t.utc / 1000000 * 1000000 = t.utc := congrArg OffsetDateTime.utc h.whole
    simp only [milliOf, OffsetDateTime.nanoOfDay, h.localNanos, dayNanos]
    omega
  unfold CivilTime.rfc3339 stampText secondText clockText
  rw [if_pos hprintable, h.offset, ← fractionText_milli (milliOf_lt t), hfraction]
  simp [offsetText, List.append_assoc]

/-! ## Order -/

theorem length_secondText (h : Stamped t) : (secondText t).length = 19 := by
  have hb := civilOfDays_bounds t.localDay
  have hn := t.nanoOfDay_lt
  have hyear : 0 ≤ (civilOfDays t.localDay).year ∧ (civilOfDays t.localDay).year ≤ 9999 := h.year
  unfold secondText dateText
  simp only [List.length_append, List.length_cons]
  rw [length_pad (by decide) (by omega), length_pad (by decide) (by omega),
    length_pad (by decide) (by omega), length_pad (by decide) (by omega),
    length_pad (by decide) (by omega), length_pad (by decide) (by omega)]

/-- The second, in milliseconds. -/
def floorSecond (t : OffsetDateTime) : OffsetDateTime := ⟨t.utc / 1000000000 * 1000000000, 0⟩

theorem Stamped.floorSecond (h : Stamped t) : Stamped (floorSecond t) where
  whole := by
    unfold CivilTime.floorSecond OffsetDateTime.truncateMillis
    ext
    · dsimp only
      omega
    · rfl
  year := by
    have hday : (CivilTime.floorSecond t).localDay = t.localDay := by
      simp only [OffsetDateTime.localDay, h.localNanos]
      simp only [CivilTime.floorSecond, OffsetDateTime.localNanos, dayNanos]
      omega
    show 0 ≤ (civilOfDays (CivilTime.floorSecond t).localDay).year ∧ _
    unfold OffsetDateTime.year
    rw [hday]
    exact h.year

theorem secondText_congr (hs : Stamped s) (ht : Stamped t)
    (h : s.utc / 1000000000 = t.utc / 1000000000) : secondText s = secondText t := by
  have hday : s.localDay = t.localDay := by
    simp only [OffsetDateTime.localDay, hs.localNanos, ht.localNanos, dayNanos]
    omega
  have hsecond : s.nanoOfDay / 1000000000 = t.nanoOfDay / 1000000000 := by
    simp only [OffsetDateTime.nanoOfDay, hs.localNanos, ht.localNanos, dayNanos]
    omega
  have hminute : s.nanoOfDay / 60000000000 = t.nanoOfDay / 60000000000 := by omega
  have hhour : s.nanoOfDay / 3600000000000 = t.nanoOfDay / 3600000000000 := by omega
  unfold secondText
  rw [hday, hsecond, hminute, hhour]

/-- **Seconds are ordered as their texts.** -/
theorem secondText_lt (hs : Stamped s) (ht : Stamped t)
    (h : s.utc / 1000000000 < t.utc / 1000000000) : secondText s < secondText t := by
  have hfloor : ∀ {r : OffsetDateTime}, Stamped r →
      secondText (floorSecond r) = secondText r ∧ milliOf (floorSecond r) = 0 := by
    intro r hr
    refine ⟨secondText_congr hr.floorSecond hr ?_, ?_⟩
    · show r.utc / 1000000000 * 1000000000 / 1000000000 = r.utc / 1000000000
      omega
    · have hutc := hr.floorSecond.utc
      simp only [floorSecond] at hutc ⊢
      omega
  -- the canonical timestamps of the two seconds
  have hlt : stampText 3 (floorSecond s) < stampText 3 (floorSecond t) := by
    refine canonicalText_lt ?_ ?_ ?_ hs.floorSecond.canonicalText ht.floorSecond.canonicalText
    · rw [hs.floorSecond.toUtc]
      exact hs.floorSecond.year
    · rw [ht.floorSecond.toUtc]
      exact ht.floorSecond.year
    · simp only [floorSecond]
      omega
  unfold stampText at hlt
  rw [String.lt_iff_toList_lt, String.toList_ofList, String.toList_ofList, (hfloor hs).1,
    (hfloor hs).2, (hfloor ht).1, (hfloor ht).2] at hlt
  have hlength : (secondText s).length = (secondText t).length := by
    rw [length_secondText hs, length_secondText ht]
  rcases lt_trichotomy (secondText s) (secondText t) with hless | heq | hgreater
  · exact hless
  · rw [heq] at hlt
    exact absurd hlt (lt_irrefl _)
  · exact absurd (append_lt_of_lt hlength.symm hgreater) (lt_asymm hlt)

theorem stampText_lt_of_second (hs : Stamped s) (ht : Stamped t)
    (h : s.utc / 1000000000 < t.utc / 1000000000) (i j : Nat) : stampText i s < stampText j t := by
  unfold stampText
  rw [String.lt_iff_toList_lt, String.toList_ofList, String.toList_ofList]
  refine append_lt_of_lt ?_ (secondText_lt hs ht h)
  rw [length_secondText hs, length_secondText ht]

theorem stampText_lt_of_tail (hs : Stamped s) (ht : Stamped t)
    (h : s.utc / 1000000000 = t.utc / 1000000000) {i j : Nat}
    (htail : fractionTail i (milliOf s) < fractionTail j (milliOf t)) :
    stampText i s < stampText j t := by
  unfold stampText
  rw [String.lt_iff_toList_lt, String.toList_ofList, String.toList_ofList,
    secondText_congr hs ht h]
  exact List.append_left_lt htail

/-- A year before 0 sorts before them. -/
theorem negative_lt_stampText (hs : s.toUtc.year < 0) {x : String} (hx : canonicalText s = some x)
    (ht : Stamped t) (j : Nat) : x < stampText j t := by
  have hyear : 0 ≤ (civilOfDays t.localDay).year ∧ (civilOfDays t.localDay).year ≤ 9999 := ht.year
  have hlength : (pad 4 (civilOfDays t.localDay).year.toNat).length = 4 :=
    length_pad (by decide) (by omega)
  rw [String.lt_iff_toList_lt, canonicalText_parts hx, if_pos hs]
  unfold stampText secondText dateText
  rw [String.toList_ofList]
  cases hpad : pad 4 (civilOfDays t.localDay).year.toNat with
  | nil =>
    rw [hpad] at hlength
    cases hlength
  | cons c u =>
    have hc := isDigit_toNat (isDigit_of_mem_pad (show c ∈ pad 4 _ by rw [hpad]; exact List.mem_cons_self))
    refine List.cons_lt_cons_iff.mpr (Or.inl ?_)
    show '-'.toNat < c.toNat
    have hminus : '-'.toNat = 45 := rfl
    omega

/-- The first digits of a fraction. -/
theorem fractionTail_split {i j m : Nat} (hm : m < 1000) (hi : 0 < i) (hij : i < j) (hj : j ≤ 3) :
    ∃ rest, fractionTail j m = '.' :: (pad i (m / 10 ^ (3 - i)) ++ rest) ∧ rest < ['Z'] := by
  obtain ⟨k, rfl⟩ := Nat.exists_eq_add_of_le hij.le
  have hk : 0 < k := by omega
  have hbound : m / 10 ^ (3 - (i + k)) < 10 ^ (i + k) := by
    rw [Nat.div_lt_iff_lt_mul (Nat.pow_pos (by decide)), ← Nat.pow_add,
      show i + k + (3 - (i + k)) = 3 by omega]
    omega
  have hdiv : m / 10 ^ (3 - (i + k)) / 10 ^ k = m / 10 ^ (3 - i) := by
    rw [Nat.div_div_eq_div_mul, ← Nat.pow_add, show 3 - (i + k) + k = 3 - i by omega]
  refine ⟨pad k (m / 10 ^ (3 - (i + k)) % 10 ^ k) ++ ['Z'], ?_, ?_⟩
  · unfold fractionTail
    rw [if_neg (by omega), pad_split hi hk hbound, List.append_assoc, hdiv]
  · have hlength : (pad k (m / 10 ^ (3 - (i + k)) % 10 ^ k)).length = k :=
      length_pad hk (Nat.mod_lt _ (Nat.pow_pos (by decide)))
    cases hpad : pad k (m / 10 ^ (3 - (i + k)) % 10 ^ k) with
    | nil =>
      rw [hpad] at hlength
      simp only [List.length_nil] at hlength
      omega
    | cons c u =>
      have hc : c.isDigit = true := isDigit_of_mem_pad (by rw [hpad]; exact List.mem_cons_self)
      exact List.cons_lt_cons_iff.mpr (Or.inl (digit_lt_zulu hc))

/-- **Fractions are ordered by the digits that both have, and then by their lengths.** -/
theorem fractionTail_lt {i j m n : Nat} (hm : m < 1000) (hn : n < 1000) (hi : i ≤ 3) (hj : j ≤ 3)
    (h : m / 10 ^ (3 - min i j) < n / 10 ^ (3 - min i j) ∨
      m / 10 ^ (3 - min i j) = n / 10 ^ (3 - min i j) ∧ j < i) :
    fractionTail i m < fractionTail j n := by
  have hpoint : '.' < 'Z' := by decide
  -- the first is not shorter, or the second is not
  rcases Nat.lt_trichotomy i j with hij | rfl | hji
  · rw [Nat.min_eq_left (le_of_lt hij)] at h
    have hless : m / 10 ^ (3 - i) < n / 10 ^ (3 - i) := h.resolve_right fun h => by omega
    have hpos : i ≠ 0 := by
      rintro rfl
      have : m / 10 ^ 3 = 0 ∧ n / 10 ^ 3 = 0 := by omega
      omega
    obtain ⟨rest, hrest, -⟩ := fractionTail_split hn (Nat.pos_of_ne_zero hpos) hij hj
    rw [hrest]
    unfold fractionTail
    rw [if_neg hpos]
    refine List.cons_lt_cons_iff.mpr (Or.inr ⟨rfl, ?_⟩)
    refine pad_append_lt (Nat.pos_of_ne_zero hpos) ?_ (Or.inl hless)
    rw [Nat.div_lt_iff_lt_mul (Nat.pow_pos (by decide)), ← Nat.pow_add,
      show i + (3 - i) = 3 by omega]
    omega
  · rw [Nat.min_self] at h
    have hless : m / 10 ^ (3 - i) < n / 10 ^ (3 - i) := h.resolve_right fun h => by omega
    have hpos : i ≠ 0 := by
      rintro rfl
      have : m / 10 ^ 3 = 0 ∧ n / 10 ^ 3 = 0 := by omega
      omega
    unfold fractionTail
    rw [if_neg hpos, if_neg hpos]
    refine List.cons_lt_cons_iff.mpr (Or.inr ⟨rfl, ?_⟩)
    refine pad_append_lt (Nat.pos_of_ne_zero hpos) ?_ (Or.inl hless)
    rw [Nat.div_lt_iff_lt_mul (Nat.pow_pos (by decide)), ← Nat.pow_add,
      show i + (3 - i) = 3 by omega]
    omega
  · rw [Nat.min_eq_right (le_of_lt hji)] at h
    by_cases hpos : j = 0
    · -- the point comes before the zone
      subst hpos
      unfold fractionTail
      rw [if_neg (by omega), if_pos rfl]
      exact List.cons_lt_cons_iff.mpr (Or.inl hpoint)
    · obtain ⟨rest, hrest, hzone⟩ := fractionTail_split hm (Nat.pos_of_ne_zero hpos) hji hi
      rw [hrest]
      unfold fractionTail
      rw [if_neg hpos]
      refine List.cons_lt_cons_iff.mpr (Or.inr ⟨rfl, ?_⟩)
      refine pad_append_lt (Nat.pos_of_ne_zero hpos) ?_ ?_
      · rw [Nat.div_lt_iff_lt_mul (Nat.pow_pos (by decide)), ← Nat.pow_add,
          show j + (3 - j) = 3 by omega]
        omega
      · rcases h with hless | ⟨heq, -⟩
        · exact Or.inl hless
        · exact Or.inr ⟨heq, hzone⟩

/-! ## Shortened fractions -/

/-- What is left open by the digits that a whole millisecond is written with, in nanoseconds. -/
def openSpan (t : OffsetDateTime) : Int :=
  if t.utc % 1000000000 = 0 then 1000000000
  else if t.utc % 100000000 = 0 then 100000000
  else if t.utc % 10000000 = 0 then 10000000
  else 0

/-- The instant is written with three digits, or with those it needs. -/
def WrittenWith (digits : Nat) (t : OffsetDateTime) : Prop :=
  digits = 3 ∨ digits = fractionDigits (milliOf t)

/-- Digits and open span of an instant. -/
theorem fractionDigits_cases (h : Stamped t) :
    (milliOf t = 0 ∧ fractionDigits (milliOf t) = 0 ∧ openSpan t = 1000000000) ∨
    (milliOf t ≠ 0 ∧ milliOf t % 100 = 0 ∧ fractionDigits (milliOf t) = 1 ∧
      openSpan t = 100000000) ∨
    (milliOf t % 100 ≠ 0 ∧ milliOf t % 10 = 0 ∧ fractionDigits (milliOf t) = 2 ∧
      openSpan t = 10000000) ∨
    (milliOf t % 10 ≠ 0 ∧ fractionDigits (milliOf t) = 3 ∧ openSpan t = 0) := by
  have hutc := h.utc
  have hlt := milliOf_lt t
  unfold fractionDigits openSpan
  by_cases hzero : milliOf t = 0
  · left
    rw [if_pos hzero, if_pos (by omega)]
    exact ⟨hzero, rfl, rfl⟩
  by_cases htenth : milliOf t % 100 = 0
  · right
    left
    rw [if_neg hzero, if_pos htenth, if_neg (by omega), if_pos (by omega)]
    exact ⟨hzero, htenth, rfl, rfl⟩
  by_cases hhundredth : milliOf t % 10 = 0
  · right
    right
    left
    rw [if_neg hzero, if_neg htenth, if_pos hhundredth, if_neg (by omega), if_neg (by omega),
      if_pos (by omega)]
    exact ⟨htenth, hhundredth, rfl, rfl⟩
  · right
    right
    right
    rw [if_neg hzero, if_neg htenth, if_neg hhundredth, if_neg (by omega), if_neg (by omega),
      if_neg (by omega)]
    exact ⟨hhundredth, rfl, rfl⟩

theorem WrittenWith.le_three {i : Nat} (hs : Stamped s) (h : WrittenWith i s) : i ≤ 3 := by
  rcases h with rfl | rfl
  · exact le_refl 3
  · rcases fractionDigits_cases hs with h | h | h | h <;> omega

/-- **Overtaken.**  An instant in the open span of a shortened one is written below it,
unless it is the same text. -/
theorem stampText_overtaken (hs : Stamped s) (ht : Stamped t) {j : Nat} (hj : WrittenWith j t)
    (hle : s.utc ≤ t.utc) (hopen : t.utc < s.utc + openSpan s) (hsame : t.utc = s.utc → j = 3) :
    stampText j t < stampText (fractionDigits (milliOf s)) s := by
  have hsutc := hs.utc
  have htutc := ht.utc
  have hm := milliOf_lt s
  have hn := milliOf_lt t
  have hj3 := hj.le_three ht
  -- the later instant has more digits
  have hlonger : fractionDigits (milliOf s) < j ∧
      t.utc / 1000000000 = s.utc / 1000000000 ∧
      milliOf t / 10 ^ (3 - fractionDigits (milliOf s)) =
        milliOf s / 10 ^ (3 - fractionDigits (milliOf s)) := by
    rcases fractionDigits_cases hs with ⟨hzero, hdigits, hspan⟩ | ⟨hnot, hmod, hdigits, hspan⟩ |
      ⟨hnot, hmod, hdigits, hspan⟩ | ⟨-, -, hspan⟩
    · rw [hdigits]
      rw [hspan] at hopen
      refine ⟨?_, by omega, by omega⟩
      by_contra hshort
      have hne : t.utc ≠ s.utc := fun h => by have := hsame h; omega
      rcases hj with rfl | rfl
      · omega
      · rcases fractionDigits_cases ht with h | h | h | h <;> omega
    · rw [hdigits]
      rw [hspan] at hopen
      refine ⟨?_, by omega, by omega⟩
      by_contra hshort
      have hne : t.utc ≠ s.utc := fun h => by have := hsame h; omega
      rcases hj with rfl | rfl
      · omega
      · rcases fractionDigits_cases ht with h | h | h | h <;> omega
    · rw [hdigits]
      rw [hspan] at hopen
      refine ⟨?_, by omega, by omega⟩
      by_contra hshort
      have hne : t.utc ≠ s.utc := fun h => by have := hsame h; omega
      rcases hj with rfl | rfl
      · omega
      · rcases fractionDigits_cases ht with h | h | h | h <;> omega
    · omega
  obtain ⟨hless, hsecond, hdigits⟩ := hlonger
  refine stampText_lt_of_tail ht hs hsecond (fractionTail_lt hn hm hj3 (by omega) (Or.inr ?_))
  rw [Nat.min_eq_right hless.le]
  exact ⟨hdigits, hless⟩

/-- **Not overtaken.**  Any other later instant is written above. -/
theorem stampText_above (hs : Stamped s) (ht : Stamped t) {i j : Nat} (hi : WrittenWith i s)
    (hj : WrittenWith j t) (hlt : s.utc < t.utc) (hclosed : i = 3 ∨ s.utc + openSpan s ≤ t.utc) :
    stampText i s < stampText j t := by
  have hsutc := hs.utc
  have htutc := ht.utc
  have hm := milliOf_lt s
  have hn := milliOf_lt t
  by_cases hsecond : s.utc / 1000000000 = t.utc / 1000000000
  · refine stampText_lt_of_tail hs ht hsecond
      (fractionTail_lt hm hn (hi.le_three hs) (hj.le_three ht) ?_)
    have hmilli : milliOf s < milliOf t := by omega
    have hdigits : (i = 3 ∨ i = 0 ∧ milliOf s = 0 ∧ openSpan s = 1000000000 ∨
        i = 1 ∧ milliOf s % 100 = 0 ∧ openSpan s = 100000000 ∨
        i = 2 ∧ milliOf s % 10 = 0 ∧ openSpan s = 10000000) := by
      rcases hi with rfl | rfl
      · exact Or.inl rfl
      · rcases fractionDigits_cases hs with h | h | h | h <;> omega
    have hdigits' : (j = 3 ∨ j = 0 ∧ milliOf t = 0 ∨ j = 1 ∧ milliOf t % 100 = 0 ∨
        j = 2 ∧ milliOf t % 10 = 0) := by
      rcases hj with rfl | rfl
      · exact Or.inl rfl
      · rcases fractionDigits_cases ht with h | h | h | h <;> omega
    left
    rcases Nat.le_total i j with hij | hji
    · rw [Nat.min_eq_left hij]
      rcases hdigits with rfl | ⟨rfl, h⟩ | ⟨rfl, h⟩ | ⟨rfl, h⟩ <;> omega
    · rw [Nat.min_eq_right hji]
      rcases hdigits' with rfl | ⟨rfl, h⟩ | ⟨rfl, h⟩ | ⟨rfl, h⟩ <;> omega
  · exact stampText_lt_of_second hs ht (by omega) i j

/-- One instant: three digits are not above fewer. -/
theorem stampText_three_le (hs : Stamped s) {j : Nat} (hj : WrittenWith j s) :
    stampText 3 s < stampText j s ∨ j = 3 := by
  by_cases hthree : j = 3
  · exact Or.inr hthree
  · have hle := hj.le_three hs
    refine Or.inl (stampText_lt_of_tail hs hs rfl
      (fractionTail_lt (milliOf_lt s) (milliOf_lt s) (le_refl 3) hle (Or.inr ⟨rfl, by omega⟩)))

end

end CivilTime
