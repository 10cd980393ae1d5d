import RemindiCore.Lib.CivilTime

/-!
# Reading RFC 3339 texts

A `Reader` takes a value off the front of a text.  `Reads p u a` says that `p`
reads `a` from `u` whatever follows; readers and texts are put together by
`Reads.bind`, so that a printer and a reader are compared field by field.

`parseRfc3339` reads a timestamp as the `time` crate does: four digits of a
year, any separator between date and clock, fraction digits of any number, a
leap second at the end of a month, an offset.  It reads back what
`canonicalText` printed of a year from 0 on, to the millisecond
(`parse_canonicalText`), and nothing of a year before (`parse_canonicalText_negative`).
-/

namespace TextReader

open DigitText

/-! ## Readers -/

/-- Takes a value off the front of a text. -/
def Reader (α : Type) : Type := List Char → Option (α × List Char)

instance : Monad Reader where
  pure a := fun s => some (a, s)
  bind p f := fun s => (p s).bind fun (a, rest) => f a rest

/-- One character that satisfies `p`. -/
def satisfy (p : Char → Bool) : Reader Char
  | [] => none
  | c :: rest => if p c then some (c, rest) else none

def char (c : Char) : Reader Char := satisfy (· == c)

/-- Exactly `w` digits. -/
def number (w : Nat) : Reader Nat := fun s =>
  if (s.take w).length = w ∧ (s.take w).all Char.isDigit then
    some (Nat.ofDigitChars 10 (s.take w) 0, s.drop w)
  else none

/-- All digits at the front, at least one. -/
def digits : Reader (List Char) := fun s =>
  if (s.takeWhile Char.isDigit).isEmpty then none
  else some (s.takeWhile Char.isDigit, s.dropWhile Char.isDigit)

/-- Fail unless the value is accepted. -/
def require (b : Bool) : Reader Unit := fun s => if b then some ((), s) else none

/-- The first reader that accepts. -/
def orElse {α : Type} (p q : Reader α) : Reader α := fun s => (p s).or (q s)

/-- The value of a text read to its end. -/
def Reader.parse {α : Type} (p : Reader α) (text : String) : Option α :=
  match p text.toList with
  | some (a, []) => some a
  | _ => none

/-! ## What a reader reads -/

variable {α β : Type}

/-- `p` reads `a` from `u`, whatever follows. -/
def Reads (p : Reader α) (u : List Char) (a : α) : Prop := ∀ rest, p (u ++ rest) = some (a, rest)

theorem Reads.pure (a : α) : Reads (pure a : Reader α) [] a := fun _ => rfl

theorem Reads.bind {p : Reader α} {f : α → Reader β} {u v : List Char} {a : α} {b : β}
    (hp : Reads p u a) (hf : Reads (f a) v b) : Reads (p >>= f) (u ++ v) b := by
  intro rest
  show (p (u ++ v ++ rest)).bind _ = _
  rw [List.append_assoc, hp]
  exact hf rest

/-- As `Reads.bind`, for a reader that looks at the next character. -/
theorem Reads.bind_before {p : Reader α} {f : α → Reader β} {u v : List Char} {a : α} {b : β}
    {c : Char} (hp : ∀ rest, p (u ++ c :: rest) = some (a, c :: rest))
    (hf : Reads (f a) (c :: v) b) : Reads (p >>= f) (u ++ c :: v) b := by
  intro rest
  show (p (u ++ c :: v ++ rest)).bind _ = _
  rw [List.append_assoc, List.cons_append, hp]
  exact hf rest

theorem Reads.parse {p : Reader α} {u : List Char} {a : α} (h : Reads p u a) :
    p.parse (String.ofList u) = some a := by
  unfold Reader.parse
  have hall := h []
  rw [List.append_nil] at hall
  rw [String.toList_ofList, hall]

theorem Reads.satisfy {p : Char → Bool} {c : Char} {f : Char → Reader β} {v : List Char} {b : β}
    (h : p c = true) (hf : Reads (f c) v b) : Reads (satisfy p >>= f) (c :: v) b := by
  intro rest
  show (if p c = true then some (c, v ++ rest) else none).bind _ = _
  rw [if_pos h]
  exact hf rest

theorem Reads.char {c : Char} {f : Char → Reader β} {v : List Char} {b : β}
    (hf : Reads (f c) v b) : Reads (char c >>= f) (c :: v) b :=
  Reads.satisfy (beq_self_eq_true c) hf

theorem Reads.require {p : Bool} {f : Unit → Reader β} {v : List Char} {b : β} (h : p = true)
    (hf : Reads (f ()) v b) : Reads (require p >>= f) v b := by
  intro rest
  show (if p = true then some ((), v ++ rest) else none).bind _ = _
  rw [if_pos h]
  exact hf rest

/-- **A padded number is read back.** -/
theorem reads_pad {w n : Nat} (hw : 0 < w) (h : n < 10 ^ w) : Reads (number w) (pad w n) n := by
  intro rest
  have hlength := length_pad hw h
  unfold number
  rw [List.take_left' hlength, List.drop_left' hlength, value_pad, if_pos]
  exact ⟨hlength, List.all_eq_true.mpr fun c hc => isDigit_of_mem_pad hc⟩

theorem Reads.orElse_left {p q : Reader α} {u : List Char} {a : α} (h : Reads p u a) :
    Reads (orElse p q) u a := by
  intro rest
  unfold orElse
  rw [h]
  rfl

end TextReader

namespace CivilTime

open DigitText TextReader

/-! ## The fields of a timestamp -/

/-- The date, when the calendar has it. -/
def date : Reader Civil := do
  let year ← number 4
  let _ ← char '-'
  let month ← number 2
  let _ ← char '-'
  let day ← number 2
  let date : Civil := { year := year, month := month, day := day }
  require (decide (civilOfDays (daysOfCivil date) = date))
  pure date

/-- Nanoseconds of the fraction; digits after the ninth are dropped. -/
def fractionNanos (ds : List Char) : Nat :=
  Nat.ofDigitChars 10 (ds.take 9) 0 * 10 ^ (9 - ds.length)

def fraction : Reader Nat :=
  orElse (do
    let _ ← char '.'
    let ds ← digits
    pure (fractionNanos ds)) (pure 0)

/-- Seconds east of Greenwich. -/
def zone : Reader Int :=
  orElse (do
    let _ ← satisfy fun c => c == 'Z' || c == 'z'
    pure 0) (do
    let sign ← satisfy fun c => c == '+' || c == '-'
    let hours ← number 2
    require (decide (hours ≤ 23))
    let _ ← char ':'
    let minutes ← number 2
    require (decide (minutes ≤ 59))
    let seconds : Int := (hours * 3600 + minutes * 60 : Nat)
    pure (if sign == '-' then -seconds else seconds))

/-- The last nanosecond of a month in UTC, which stands for a leap second. -/
def leapSecondStandIn (t : OffsetDateTime) : Bool :=
  decide (t.toUtc.nanoOfDay = 86399999999999 ∧ (civilOfDays (t.toUtc.localDay + 1)).day = 1)

/-- A date and a clock at an offset. -/
def OffsetDateTime.ofLocal (day : Int) (nanos : Nat) (offset : Int) : OffsetDateTime :=
  ⟨day * dayNanos + nanos - offset * secondNanos, offset⟩

def timestamp : Reader OffsetDateTime := do
  let date ← date
  -- any one-byte separator
  let _ ← satisfy fun c => c.toNat < 128
  let hour ← number 2
  require (decide (hour ≤ 23))
  let _ ← char ':'
  let minute ← number 2
  require (decide (minute ≤ 59))
  let _ ← char ':'
  let second ← number 2
  require (decide (second ≤ 60))
  let nanos ← fraction
  let offset ← zone
  let minutes := hour * 3600000000000 + minute * 60000000000
  let clock := if second = 60 then minutes + 59999999999 else minutes + second * 1000000000 + nanos
  let t := OffsetDateTime.ofLocal (daysOfCivil date) clock offset
  require (decide (second ≠ 60) || leapSecondStandIn t)
  pure t

def parseRfc3339 (text : String) : Option OffsetDateTime := timestamp.parse text

example : parseRfc3339 "2026-08-01 13:00:00.1234567891+01:00" =
    some ⟨1785585600123456789, 3600⟩ := by
  decide

/-! ## Reading canonical timestamps -/

theorem reads_date {c : Civil} (hyear : 0 ≤ c.year ∧ c.year ≤ 9999)
    (hc : 1 ≤ c.month ∧ c.month ≤ 12 ∧ 1 ≤ c.day ∧ c.day ≤ 31)
    (h : civilOfDays (daysOfCivil c) = c) : Reads date (dateText c) c := by
  have hcivil : (⟨(c.year.toNat : Nat), (c.month.toNat : Nat), (c.day.toNat : Nat)⟩ : Civil) =
      c := by
    rw [Int.toNat_of_nonneg hyear.1, Int.toNat_of_nonneg (by omega), Int.toNat_of_nonneg (by omega)]
  unfold date
  refine Reads.bind (reads_pad (by decide) (by omega)) (Reads.char ?_)
  refine Reads.bind (reads_pad (by decide) (by omega)) (Reads.char ?_)
  rw [← List.append_nil (pad 2 c.day.toNat)]
  refine Reads.bind (u := pad 2 c.day.toNat) (reads_pad (by decide) (by omega)) ?_
  simp only [hcivil]
  exact Reads.require (decide_eq_true h) (Reads.pure c)

/-- Three digits after the point are milliseconds. -/
theorem reads_fraction {m : Nat} (h : m < 1000) (c : Char) (hc : c.isDigit = false)
    (rest : List Char) :
    fraction (('.' :: pad 3 m) ++ c :: rest) = some (m * 1000000, c :: rest) := by
  have hlength := length_pad (w := 3) (by decide) h
  have hdigits : (pad 3 m ++ c :: rest).takeWhile Char.isDigit = pad 3 m := by
    rw [List.takeWhile_append_of_pos fun d hd => isDigit_of_mem_pad hd, List.takeWhile_cons, hc]
    simp
  have hrest : (pad 3 m ++ c :: rest).dropWhile Char.isDigit = c :: rest := by
    rw [List.dropWhile_append_of_pos fun d hd => isDigit_of_mem_pad hd, List.dropWhile_cons, hc]
    simp
  have hread : digits (pad 3 m ++ c :: rest) = some (pad 3 m, c :: rest) := by
    unfold digits
    rw [hdigits, hrest, if_neg]
    intro hempty
    rw [List.isEmpty_iff.mp hempty] at hlength
    cases hlength
  have hnanos : fractionNanos (pad 3 m) = m * 1000000 := by
    unfold fractionNanos
    have hsix : 9 - (pad 3 m).length = 6 := by omega
    simp [List.take_of_length_le (show (pad 3 m).length ≤ 9 by omega), value_pad, hsix]
  show Option.or (Option.bind (digits (pad 3 m ++ c :: rest)) _) _ = _
  rw [hread]
  show Option.or (some (fractionNanos (pad 3 m), c :: rest)) _ = _
  rw [hnanos]
  rfl

/-- The instant that a canonical timestamp denotes. -/
theorem ofLocal_millis (t : OffsetDateTime) :
    OffsetDateTime.ofLocal t.toUtc.localDay (t.toUtc.nanoOfDay / 1000000 * 1000000) 0 =
      t.truncateMillis := by
  ext
  · simp only [OffsetDateTime.ofLocal, OffsetDateTime.localDay, OffsetDateTime.nanoOfDay,
      OffsetDateTime.localNanos, OffsetDateTime.toUtc, OffsetDateTime.truncateMillis, dayNanos]
    omega
  · rfl

theorem reads_zone : Reads zone ['Z'] 0 :=
  Reads.orElse_left (Reads.satisfy rfl (Reads.pure 0))

/-- **A canonical timestamp of a year from 0 on is read back to the millisecond.** -/
theorem parse_canonicalText {t : OffsetDateTime} {text : String} (h : canonicalText t = some text)
    (hyear : 0 ≤ t.toUtc.year) : parseRfc3339 text = some t.truncateMillis := by
  have hn := t.toUtc.nanoOfDay_lt
  have hinstant := ofLocal_millis t
  have hyears : (civilOfDays t.toUtc.localDay).year = t.toUtc.year := rfl
  unfold canonicalText at h
  dsimp only at h
  rw [hyears] at h
  generalize t.toUtc.nanoOfDay = n at *
  generalize hday : t.toUtc.localDay = day at *
  split at h
  · next hrange =>
    rw [if_neg (by omega), List.nil_append, show t.toUtc.year.natAbs = t.toUtc.year.toNat by omega]
      at h
    obtain rfl := Option.some.inj h
    have hsecond : n / 1000000000 % 60 ≠ 60 := by omega
    have hread : Reads timestamp (dateText (civilOfDays day) ++ 'T' ::
        (pad 2 (n / 3600000000000) ++ ':' :: (pad 2 (n / 60000000000 % 60) ++ ':' ::
          (pad 2 (n / 1000000000 % 60) ++ (('.' :: pad 3 (n % 1000000000 / 1000000)) ++ ['Z'])))))
        t.truncateMillis := by
      have hdate : civilOfDays (daysOfCivil (civilOfDays day)) = civilOfDays day := by
        rw [daysOfCivil_civilOfDays]
      refine Reads.bind (reads_date (by omega) (civilOfDays_bounds day) hdate) ?_
      refine Reads.satisfy rfl (Reads.bind (reads_pad (by decide) (by omega)) ?_)
      refine Reads.require (decide_eq_true (by omega)) (Reads.char ?_)
      refine Reads.bind (reads_pad (by decide) (by omega)) ?_
      refine Reads.require (decide_eq_true (by omega)) (Reads.char ?_)
      refine Reads.bind (reads_pad (by decide) (by omega)) ?_
      refine Reads.require (decide_eq_true (by omega)) ?_
      refine Reads.bind_before (reads_fraction (by omega) 'Z' rfl) ?_
      rw [← List.append_nil ['Z']]
      refine Reads.bind reads_zone ?_
      simp only [if_neg hsecond, daysOfCivil_civilOfDays, decide_eq_true hsecond, Bool.true_or]
      refine Reads.require rfl ?_
      have hclock : n / 3600000000000 * 3600000000000 + n / 60000000000 % 60 * 60000000000 +
          n / 1000000000 % 60 * 1000000000 + n % 1000000000 / 1000000 * 1000000 =
          n / 1000000 * 1000000 := by omega
      rw [hclock, hinstant]
      exact Reads.pure _
    rw [← hread.parse, parseRfc3339, dateText, hyears]
    simp only [List.append_assoc, List.cons_append]
  · cases h

theorem year_of_canonicalText {t : OffsetDateTime} {text : String}
    (h : canonicalText t = some text) : -9999 ≤ t.toUtc.year ∧ t.toUtc.year ≤ 9999 := by
  unfold canonicalText at h
  dsimp only at h
  split at h
  · next hrange => exact hrange
  · cases h

theorem year_truncateMillis (t : OffsetDateTime) :
    t.truncateMillis.toUtc.year = t.toUtc.year := by
  have hday : t.truncateMillis.toUtc.localDay = t.toUtc.localDay := by
    simp only [OffsetDateTime.localDay, OffsetDateTime.localNanos, OffsetDateTime.toUtc,
      OffsetDateTime.truncateMillis, dayNanos]
    omega
  unfold OffsetDateTime.year
  rw [hday]

theorem getLast?_canonicalText {t : OffsetDateTime} {text : String}
    (h : canonicalText t = some text) : text.toList.getLast? = some 'Z' := by
  unfold canonicalText at h
  dsimp only at h
  split at h
  · obtain rfl := Option.some.inj h
    rw [String.toList_ofList]
    simp [List.getLast?_append, List.getLast?_cons]
  · cases h

/-- A year before 0 has a canonical timestamp that no reader accepts. -/
theorem parse_canonicalText_negative {t : OffsetDateTime} {text : String}
    (h : canonicalText t = some text) (hyear : t.toUtc.year < 0) : parseRfc3339 text = none := by
  unfold canonicalText at h
  dsimp only at h
  split at h
  · rw [if_pos (by exact hyear)] at h
    obtain rfl := Option.some.inj h
    have hnumber : ∀ s, number 4 ('-' :: s) = none := by
      intro s
      refine if_neg fun hall => ?_
      have hminus : ('-' :: s.take 3).all Char.isDigit = true := hall.2
      cases hminus
    have hnone : ∀ s, timestamp ('-' :: s) = none := by
      intro s
      show Option.bind (Option.bind (number 4 ('-' :: s)) _) _ = none
      rw [hnumber]
      rfl
    unfold parseRfc3339 Reader.parse
    rw [String.toList_ofList, List.append_assoc, List.cons_append, hnone]
  · cases h

end CivilTime
