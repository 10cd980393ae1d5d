import RemindiCore.Domain.Model
import RemindiCore.Lib.TextOrder

/-!
# The timestamp codec

`parse_timestamp` converts what it has read to UTC, which panics after the year
9999, and an instant before the year 0 is printed with a sign and not read again.
Every other text is kept by the codec (`timestamp_codec_iff`); the canonical
texts are ordered as the instants without exception.
-/

namespace TextReader

open DigitText

variable {α β : Type}

theorem Reader.bind_eq_some {p : Reader α} {f : α → Reader β} {s rest : List Char} {b : β} :
    (p >>= f) s = some (b, rest) ↔ ∃ a s', p s = some (a, s') ∧ f a s' = some (b, rest) := by
  show (p s).bind (fun x => f x.1 x.2) = some (b, rest) ↔ _
  rw [Option.bind_eq_some_iff]
  constructor
  · rintro ⟨⟨a, s'⟩, hp, hf⟩
    exact ⟨a, s', hp, hf⟩
  · rintro ⟨a, s', hp, hf⟩
    exact ⟨⟨a, s'⟩, hp, hf⟩

theorem number_lt {w n : Nat} {s rest : List Char} (h : number w s = some (n, rest)) : n < 10 ^ w := by
  unfold number at h
  split at h
  · next hall =>
    obtain ⟨rfl, -⟩ := Prod.mk.inj (Option.some.inj h)
    have hlt := ofDigitChars_lt (u := s.take w) fun c hc => List.all_eq_true.mp hall.2 c hc
    rwa [hall.1] at hlt
  · cases h

theorem require_eq_some {b : Bool} {s rest : List Char} {u : Unit}
    (h : require b s = some (u, rest)) : b = true ∧ rest = s := by
  unfold require at h
  split at h
  · next hb => exact ⟨hb, (Prod.mk.inj (Option.some.inj h)).2.symm⟩
  · cases h

theorem pure_eq_some {a b : α} {s rest : List Char}
    (h : (pure a : Reader α) s = some (b, rest)) : b = a :=
  (Prod.mk.inj (Option.some.inj h)).1.symm

end TextReader

namespace CivilTime

open DigitText TextReader

/-! ## What a text can denote -/

theorem date_eq_some {s rest : List Char} {c : Civil} (h : date s = some (c, rest)) :
    0 ≤ c.year ∧ c.year ≤ 9999 ∧ civilOfDays (daysOfCivil c) = c := by
  unfold date at h
  obtain ⟨year, _, hyear, h⟩ := Reader.bind_eq_some.mp h
  obtain ⟨_, _, -, h⟩ := Reader.bind_eq_some.mp h
  obtain ⟨month, _, -, h⟩ := Reader.bind_eq_some.mp h
  obtain ⟨_, _, -, h⟩ := Reader.bind_eq_some.mp h
  obtain ⟨day, _, -, h⟩ := Reader.bind_eq_some.mp h
  obtain ⟨_, _, hvalid, h⟩ := Reader.bind_eq_some.mp h
  have hlt := number_lt hyear
  obtain rfl := pure_eq_some h
  refine ⟨?_, ?_, of_decide_eq_true (require_eq_some hvalid).1⟩
  · show (0 : Int) ≤ (year : Nat)
    omega
  · show ((year : Nat) : Int) ≤ 9999
    omega

theorem zone_eq_some {s rest : List Char} {offset : Int} (h : zone s = some (offset, rest)) :
    -86400 < offset ∧ offset < 86400 := by
  unfold zone orElse at h
  rcases hz : (do
    let _ ← satisfy fun c => c == 'Z' || c == 'z'
    pure 0 : Reader Int) s with _ | ⟨a, r⟩
  · rw [hz, Option.none_or] at h
    obtain ⟨sign, _, -, h⟩ := Reader.bind_eq_some.mp h
    obtain ⟨hours, _, -, h⟩ := Reader.bind_eq_some.mp h
    obtain ⟨_, _, hh, h⟩ := Reader.bind_eq_some.mp h
    obtain ⟨_, _, -, h⟩ := Reader.bind_eq_some.mp h
    obtain ⟨minutes, _, -, h⟩ := Reader.bind_eq_some.mp h
    obtain ⟨_, _, hm, h⟩ := Reader.bind_eq_some.mp h
    have hhours := of_decide_eq_true (require_eq_some hh).1
    have hminutes := of_decide_eq_true (require_eq_some hm).1
    obtain rfl := pure_eq_some h
    split <;> omega
  · rw [hz, Option.some_or] at h
    obtain ⟨rfl, -⟩ := Prod.mk.inj (Option.some.inj h)
    obtain ⟨_, _, -, hz⟩ := Reader.bind_eq_some.mp hz
    obtain rfl := pure_eq_some hz
    omega

theorem fractionNanos_lt {ds : List Char} (h : ∀ c ∈ ds, c.isDigit = true) :
    fractionNanos ds < 1000000000 := by
  have hlt := ofDigitChars_lt (u := ds.take 9) fun c hc => h c (List.mem_of_mem_take hc)
  rw [List.length_take] at hlt
  unfold fractionNanos
  have hpow : 10 ^ min 9 ds.length * 10 ^ (9 - ds.length) = 1000000000 := by
    rw [← Nat.pow_add, show min 9 ds.length + (9 - ds.length) = 9 by omega]
  calc Nat.ofDigitChars 10 (ds.take 9) 0 * 10 ^ (9 - ds.length)
      < 10 ^ min 9 ds.length * 10 ^ (9 - ds.length) :=
        Nat.mul_lt_mul_of_pos_right hlt (Nat.pow_pos (by decide))
    _ = 1000000000 := hpow

theorem fraction_eq_some {s rest : List Char} {nanos : Nat} (h : fraction s = some (nanos, rest)) :
    nanos < 1000000000 := by
  unfold fraction orElse at h
  rcases hpoint : (do
    let _ ← char '.'
    let ds ← digits
    pure (fractionNanos ds) : Reader Nat) s with _ | ⟨a, r⟩
  · rw [hpoint, Option.none_or] at h
    obtain rfl := pure_eq_some h
    decide
  · rw [hpoint, Option.some_or] at h
    obtain ⟨rfl, -⟩ := Prod.mk.inj (Option.some.inj h)
    obtain ⟨_, s', -, hpoint⟩ := Reader.bind_eq_some.mp hpoint
    obtain ⟨ds, _, hds, hpoint⟩ := Reader.bind_eq_some.mp hpoint
    obtain rfl := pure_eq_some hpoint
    unfold digits at hds
    split at hds
    · cases hds
    · obtain ⟨rfl, -⟩ := Prod.mk.inj (Option.some.inj hds)
      exact fractionNanos_lt fun c hc => List.mem_takeWhile_imp hc

/-- The date of an instant put together from a date, a clock and an offset. -/
theorem ofLocal_localDay {day : Int} {nanos : Nat} (h : nanos < 86400000000000) (offset : Int) :
    (OffsetDateTime.ofLocal day nanos offset).localDay = day := by
  simp only [OffsetDateTime.ofLocal, OffsetDateTime.localDay, OffsetDateTime.localNanos, dayNanos]
  omega

/-- The local date of a text is in the years 0 to 9999, at an offset below a day. -/
theorem parseRfc3339_local {text : String} {t : OffsetDateTime} (h : parseRfc3339 text = some t) :
    0 ≤ t.year ∧ t.year ≤ 9999 ∧ -86400 < t.offset ∧ t.offset < 86400 := by
  unfold parseRfc3339 Reader.parse at h
  split at h
  · next a hread =>
    obtain rfl := Option.some.inj h
    unfold timestamp at hread
    obtain ⟨c, _, hdate, hread⟩ := Reader.bind_eq_some.mp hread
    obtain ⟨_, _, -, hread⟩ := Reader.bind_eq_some.mp hread
    obtain ⟨hour, _, -, hread⟩ := Reader.bind_eq_some.mp hread
    obtain ⟨_, _, hh, hread⟩ := Reader.bind_eq_some.mp hread
    obtain ⟨_, _, -, hread⟩ := Reader.bind_eq_some.mp hread
    obtain ⟨minute, _, -, hread⟩ := Reader.bind_eq_some.mp hread
    obtain ⟨_, _, hm, hread⟩ := Reader.bind_eq_some.mp hread
    obtain ⟨_, _, -, hread⟩ := Reader.bind_eq_some.mp hread
    obtain ⟨second, _, -, hread⟩ := Reader.bind_eq_some.mp hread
    obtain ⟨_, _, hs, hread⟩ := Reader.bind_eq_some.mp hread
    obtain ⟨nanos, _, hnanos, hread⟩ := Reader.bind_eq_some.mp hread
    obtain ⟨offset, _, hzone, hread⟩ := Reader.bind_eq_some.mp hread
    obtain ⟨_, _, -, hread⟩ := Reader.bind_eq_some.mp hread
    obtain ⟨hyear, hyear', hcivil⟩ := date_eq_some hdate
    have hhour := of_decide_eq_true (require_eq_some hh).1
    have hminute := of_decide_eq_true (require_eq_some hm).1
    have hsecond := of_decide_eq_true (require_eq_some hs).1
    have hfraction := fraction_eq_some hnanos
    obtain rfl := pure_eq_some hread
    have hnanos : (if second = 60 then hour * 3600000000000 + minute * 60000000000 + 59999999999
        else hour * 3600000000000 + minute * 60000000000 + second * 1000000000 + nanos) <
          86400000000000 := by
      split <;> omega
    have hday := @ofLocal_localDay (daysOfCivil c) _ hnanos offset
    refine ⟨?_, ?_, zone_eq_some hzone⟩
    · unfold OffsetDateTime.year
      rw [hday, hcivil]
      exact hyear
    · unfold OffsetDateTime.year
      rw [hday, hcivil]
      exact hyear'
  · cases h

theorem year_le_of_day {y z : Int} (h : y ≤ z) : (civilOfDays y).year ≤ (civilOfDays z).year := by
  rcases lt_or_eq_of_le h with hlt | heq
  · rcases civilOfDays_lt hlt with hyear | ⟨hyear, _⟩
    · exact le_of_lt hyear
    · exact le_of_eq hyear
  · rw [heq]

/-- In UTC it may be in the year before, or in the year after. -/
theorem parseRfc3339_utcYear {text : String} {t : OffsetDateTime}
    (h : parseRfc3339 text = some t) : -1 ≤ t.toUtc.year ∧ t.toUtc.year ≤ 10000 := by
  obtain ⟨hyear, hyear', hoffset, hoffset'⟩ := parseRfc3339_local h
  have hdays : t.localDay - 1 ≤ t.toUtc.localDay ∧ t.toUtc.localDay ≤ t.localDay + 1 := by
    simp only [OffsetDateTime.localDay, OffsetDateTime.localNanos, OffsetDateTime.toUtc, dayNanos,
      secondNanos]
    omega
  -- the first day of the year 0 and the first of the year 10000
  have hfirst : -719528 ≤ t.localDay := by
    by_contra hlt
    have hle : t.year ≤ (civilOfDays (-719529)).year := year_le_of_day (by omega)
    have hbefore : (civilOfDays (-719529)).year = -1 := by decide
    omega
  have hlast : t.localDay < 2932897 := by
    by_contra hge
    have hle : (civilOfDays 2932897).year ≤ t.year := year_le_of_day (by omega)
    have hafter : (civilOfDays 2932897).year = 10000 := by decide
    omega
  constructor
  · have hle : (civilOfDays (-719529)).year ≤ t.toUtc.year := year_le_of_day (by omega)
    have hbefore : (civilOfDays (-719529)).year = -1 := by decide
    omega
  · have hle : t.toUtc.year ≤ (civilOfDays 2932897).year := year_le_of_day (by omega)
    have hafter : (civilOfDays 2932897).year = 10000 := by decide
    omega

end CivilTime

namespace RemindiCore

open CivilTime

/-! ## Conversions that panic -/

/-- `to_offset(UTC)`; the conversion panics where there is no such date. -/
def toUtcChecked (t : OffsetDateTime) : Option OffsetDateTime :=
  if -9999 ≤ t.toUtc.year ∧ t.toUtc.year ≤ 9999 then some t.toUtc else none

/-- `parse_timestamp` with its panics, where it yields nothing. -/
def parseTimestampChecked (value : String) : Option (Except DomainError OffsetDateTime) :=
  if !hasExplicitOffset value then some (.error .timestampOffsetRequired)
  else
    match parseRfc3339 value with
    | some t => (toUtcChecked t).map .ok
    | none => some (.error .invalidTimestamp)

/-- The two parsers differ in the panic only. -/
theorem parseTimestamp_of_checked {value : String} {result : Except DomainError OffsetDateTime}
    (h : parseTimestampChecked value = some result) : parseTimestamp value = result := by
  unfold parseTimestampChecked at h
  unfold parseTimestamp
  split at h
  · next hoffset =>
    rw [if_pos hoffset]
    exact Option.some.inj h
  · next hoffset =>
    rw [if_neg hoffset]
    cases hparse : parseRfc3339 value with
    | some t =>
      rw [hparse] at h
      dsimp only at h ⊢
      unfold toUtcChecked at h
      split at h
      · next hyear =>
        rw [if_pos hyear.2]
        exact Option.some.inj h
      · cases h
    | none =>
      rw [hparse] at h
      exact Option.some.inj h

/-! ## The codec -/

/-- The text is read or refused, and what is read is printed, read again to the
millisecond and printed alike. -/
def Codec (value : String) : Prop :=
  ∃ result, parseTimestampChecked value = some result ∧
    ∀ t, result = .ok t → ∃ text, canonicalTimestamp t = .ok text ∧
      parseTimestampChecked text = some (.ok t.truncateMillis) ∧
      canonicalTimestamp t.truncateMillis = .ok text

theorem checked_canonical {t : OffsetDateTime} {text : String}
    (h : canonicalTimestamp t = .ok text) (hyear : 0 ≤ t.toUtc.year) :
    parseTimestampChecked text = some (.ok t.truncateMillis) := by
  have htext := canonicalTimestamp_ok.mp h
  have hexplicit : hasExplicitOffset text = true := by
    simp [hasExplicitOffset, getLast?_canonicalText htext]
  have hrange := year_of_canonicalText htext
  have hparse := parse_canonicalText htext hyear
  unfold parseTimestampChecked toUtcChecked
  rw [hexplicit, hparse]
  dsimp only
  rw [year_truncateMillis, if_pos hrange]
  rfl

theorem canonicalTimestamp_truncateMillis (t : OffsetDateTime) :
    canonicalTimestamp t.truncateMillis = canonicalTimestamp t := by
  have hcongr : canonicalText t.truncateMillis = canonicalText t := by
    apply canonicalText_congr
    show t.utc / 1000000 * 1000000 / 1000000 = t.utc / 1000000
    omega
  unfold canonicalTimestamp
  rw [hcongr]

theorem codec_of_year {value : String}
    (h : hasExplicitOffset value = true → ∀ t, parseRfc3339 value = some t →
      0 ≤ t.toUtc.year ∧ t.toUtc.year ≤ 9999) : Codec value := by
  unfold Codec parseTimestampChecked
  by_cases hoffset : hasExplicitOffset value = true
  · rw [hoffset]
    cases hparse : parseRfc3339 value with
    | none => exact ⟨_, rfl, fun t ht => by cases ht⟩
    | some t =>
      obtain ⟨hlow, hhigh⟩ := h hoffset t hparse
      have hutc : toUtcChecked t = some t.toUtc := if_pos ⟨by omega, hhigh⟩
      obtain ⟨text, htext⟩ := Option.isSome_iff_exists.mp
        (canonicalText_isSome (t := t.toUtc).mpr ⟨by show -9999 ≤ t.toUtc.year; omega, hhigh⟩)
      refine ⟨.ok t.toUtc, by simp [hutc], ?_⟩
      intro u hu
      obtain rfl := Except.ok.inj hu
      have hprinted := canonicalTimestamp_ok.mpr htext
      refine ⟨text, hprinted, checked_canonical hprinted hlow, ?_⟩
      rw [canonicalTimestamp_truncateMillis]
      exact hprinted
  · rw [Bool.not_eq_true] at hoffset
    rw [hoffset]
    exact ⟨_, rfl, fun t ht => by cases ht⟩

theorem year_of_codec {value : String} (h : Codec value) (hoffset : hasExplicitOffset value = true)
    {t : OffsetDateTime} (ht : parseRfc3339 value = some t) :
    0 ≤ t.toUtc.year ∧ t.toUtc.year ≤ 9999 := by
  obtain ⟨result, hresult, hcodec⟩ := h
  have hread : parseTimestampChecked value = (toUtcChecked t).map .ok := by
    unfold parseTimestampChecked
    rw [hoffset, ht]
    rfl
  rw [hread] at hresult
  unfold toUtcChecked at hresult
  split at hresult
  · next hrange =>
    obtain rfl := Option.some.inj hresult
    obtain ⟨text, htext, hagain, -⟩ := hcodec t.toUtc rfl
    refine ⟨?_, hrange.2⟩
    by_contra hneg
    have hrefused := parseTimestamp_negative htext (by show t.toUtc.year < 0; omega)
    rw [parseTimestamp_of_checked hagain] at hrefused
    cases hrefused
  · cases hresult

theorem parsed_year {value : String} {t : OffsetDateTime}
    (h : parseTimestampChecked value = some (.ok t)) : -1 ≤ t.toUtc.year := by
  unfold parseTimestampChecked at h
  split at h
  · cases h
  · split at h
    · next u hu =>
      unfold toUtcChecked at h
      split at h
      · obtain rfl := Except.ok.inj (Option.some.inj h)
        exact (parseRfc3339_utcYear hu).1
      · cases h
    · cases h

/-- Canonical texts of instants that a text denotes are ordered as the instants. -/
theorem canonical_lt_iff {v w : String} {s t : OffsetDateTime} {x y : String}
    (hs : parseTimestampChecked v = some (.ok s)) (ht : parseTimestampChecked w = some (.ok t))
    (hx : canonicalTimestamp s = .ok x) (hy : canonicalTimestamp t = .ok y) :
    x < y ↔ s.truncateMillis.utc < t.truncateMillis.utc := by
  have hsyear := parsed_year hs
  have htyear := parsed_year ht
  have hx := canonicalTimestamp_ok.mp hx
  have hy := canonicalTimestamp_ok.mp hy
  have hmillis : s.truncateMillis.utc < t.truncateMillis.utc ↔
      s.utc / 1000000 < t.utc / 1000000 := by
    show s.utc / 1000000 * 1000000 < t.utc / 1000000 * 1000000 ↔ _
    omega
  rw [hmillis]
  by_cases htneg : t.toUtc.year < 0
  · by_cases hsneg : s.toUtc.year < 0
    · -- both in the last year before the year 0
      have hyear : s.toUtc.year = t.toUtc.year := by omega
      rcases lt_trichotomy (s.utc / 1000000) (t.utc / 1000000) with hlt | heq | hgt
      · exact iff_of_true (canonicalText_lt_of_year hyear hlt hx hy) hlt
      · have hsame : x = y :=
          Option.some.inj (hx.symm.trans ((canonicalText_congr heq).trans hy))
        exact iff_of_false (not_lt_of_ge (le_of_eq hsame.symm)) (by omega)
      · exact iff_of_false (not_lt_of_gt (canonicalText_lt_of_year hyear.symm hgt hy hx)) (by omega)
    · have hle := canonicalText_le_iff (by omega) hx hy
      have hlater : ¬ s.utc / 1000000 ≤ t.utc / 1000000 :=
        fun hle => absurd (year_mono hle) (by omega)
      exact iff_of_false (fun hlt => hlater (hle.mp (le_of_lt hlt))) (by omega)
  · rw [← not_le, canonicalText_le_iff (by omega) hy hx, not_le]

/-- **The timestamp codec.**  A text is kept by the codec exactly when it denotes no
instant outside the UTC years 0 to 9999; the order of canonical texts is always that
of the instants. -/
theorem timestamp_codec_iff (value : String) :
    (Codec value ↔ (hasExplicitOffset value = true → ∀ t, parseRfc3339 value = some t →
      0 ≤ t.toUtc.year ∧ t.toUtc.year ≤ 9999)) ∧
    ∀ v w s t x y, parseTimestampChecked v = some (.ok s) → parseTimestampChecked w = some (.ok t) →
      canonicalTimestamp s = .ok x → canonicalTimestamp t = .ok y →
      (x < y ↔ s.truncateMillis.utc < t.truncateMillis.utc) :=
  ⟨⟨fun h hoffset _ ht => year_of_codec h hoffset ht, codec_of_year⟩,
    fun _ _ _ _ _ _ hs ht hx hy => canonical_lt_iff hs ht hx hy⟩

/-- The last second of the year 9999 west of Greenwich panics; the first of the year 0
east of it is printed with a sign and not read again. -/
theorem codec_fails :
    ¬ Codec "9999-12-31T23:59:59-00:01" ∧ ¬ Codec "0000-01-01T00:00:00+00:01" := by
  constructor
  · rintro ⟨result, hresult, -⟩
    have hpanic : parseTimestampChecked "9999-12-31T23:59:59-00:01" = none := by decide +kernel
    rw [hpanic] at hresult
    cases hresult
  · intro h
    have hread : parseRfc3339 "0000-01-01T00:00:00+00:01" = some ⟨-62167219260000000000, 60⟩ := by
      decide +kernel
    have hyear := (year_of_codec h (by decide +kernel) hread).1
    have hbefore : (OffsetDateTime.toUtc ⟨-62167219260000000000, 60⟩).year = -1 := by decide +kernel
    omega

end RemindiCore
