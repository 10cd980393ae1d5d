import Mathlib.Algebra.Group.Int.Defs
import Mathlib.Algebra.Group.Nat.Defs
import Mathlib.Data.List.Basic
import Mathlib.Data.List.DropRight

/-!
# Decimal digits

`decimal n` are the digits of `n`, `pad w n` the same filled up with zeros to
the width `w`.  Both determine `n`; `pad w n` has exactly `w` characters when
`n < 10 ^ w`, so a row of padded fields can be cut apart again.
-/

namespace DigitText

/-- Two runs of `p` characters cut off by the texts after them are equal. -/
theorem run_append_inj (p : Char → Bool) {u v s t : List Char} (hu : ∀ c ∈ u, p c = true)
    (hv : ∀ c ∈ v, p c = true) (hs : ∀ c r, s = c :: r → p c = false)
    (ht : ∀ c r, t = c :: r → p c = false) (h : u ++ s = v ++ t) : u = v ∧ s = t := by
  induction u generalizing v with
  | nil =>
    cases v with
    | nil => exact ⟨rfl, h⟩
    | cons d v =>
      have h1 := hs d (v ++ t) h
      rw [hv d List.mem_cons_self] at h1
      cases h1
  | cons c u ih =>
    cases v with
    | nil =>
      have h1 := ht c (u ++ s) h.symm
      rw [hu c List.mem_cons_self] at h1
      cases h1
    | cons d v =>
      simp only [List.cons_append, List.cons.injEq] at h
      obtain ⟨rfl, h⟩ := h
      obtain ⟨rfl, h2⟩ := ih (fun c hc => hu c (List.mem_cons_of_mem _ hc))
        (fun c hc => hv c (List.mem_cons_of_mem _ hc)) h
      exact ⟨rfl, h2⟩

def decimal (n : Nat) : List Char := Nat.toDigits 10 n

theorem decimal_ne_nil (n : Nat) : decimal n ≠ [] := Nat.toDigits_ne_nil

theorem isDigit_of_mem_decimal {n : Nat} {c : Char} (h : c ∈ decimal n) : c.isDigit = true :=
  Nat.isDigit_of_mem_toDigits (by decide) (by decide) h

/-- The value read from the digits. -/
theorem value_decimal (n : Nat) : Nat.ofDigitChars 10 (decimal n) 0 = n :=
  Nat.ofDigitChars_ten_toDigits

theorem decimal_injective {m n : Nat} (h : decimal m = decimal n) : m = n := by
  rw [← value_decimal m, h, value_decimal]

/-- The digits of `n`, filled up with zeros to the width `w`. -/
def pad (w n : Nat) : List Char := List.replicate (w - (decimal n).length) '0' ++ decimal n

theorem value_pad (w n : Nat) : Nat.ofDigitChars 10 (pad w n) 0 = n := by
  unfold pad
  rw [Nat.ofDigitChars_append, Nat.ofDigitChars_replicate_zero, Nat.mul_zero]
  exact value_decimal n

theorem pad_injective {w m n : Nat} (h : pad w m = pad w n) : m = n := by
  rw [← value_pad w m, h, value_pad]

theorem length_pad {w n : Nat} (hw : 0 < w) (h : n < 10 ^ w) : (pad w n).length = w := by
  have hl : (decimal n).length ≤ w := (Nat.length_toDigits_le_iff (by decide) hw).mpr h
  simp only [pad, List.length_append, List.length_replicate]
  omega

theorem isDigit_of_mem_pad {w n : Nat} {c : Char} (h : c ∈ pad w n) : c.isDigit = true := by
  rcases List.mem_append.mp h with h | h
  · rw [List.eq_of_mem_replicate h]
    rfl
  · exact isDigit_of_mem_decimal h

/-- A padded field is cut off the front of a text. -/
theorem pad_append_inj {w m n : Nat} {s t : List Char} (hw : 0 < w) (hm : m < 10 ^ w)
    (hn : n < 10 ^ w) (h : pad w m ++ s = pad w n ++ t) : m = n ∧ s = t := by
  obtain ⟨h1, h2⟩ := List.append_inj h (by rw [length_pad hw hm, length_pad hw hn])
  exact ⟨pad_injective h1, h2⟩

/-! ## Digits after the point -/

/-- The digits after the point of `n / 10 ^ w`, without the zeros at the end. -/
def trimmed (w n : Nat) : List Char := (pad w n).rdropWhile (· == '0')

theorem isDigit_of_mem_trimmed {w n : Nat} {c : Char} (h : c ∈ trimmed w n) :
    c.isDigit = true :=
  isDigit_of_mem_pad ((List.rdropWhile_prefix _ _).subset h)

theorem trimmed_append_zeros (w n : Nat) :
    ∃ k, pad w n = trimmed w n ++ List.replicate k '0' := by
  refine ⟨(pad w n).reverse.takeWhile (· == '0') |>.length, ?_⟩
  have hz : (pad w n).reverse.takeWhile (· == '0') =
      List.replicate ((pad w n).reverse.takeWhile (· == '0')).length '0' := by
    apply List.eq_replicate_of_mem
    intro c hc
    simpa using List.mem_takeWhile_imp hc
  rw [← hz]
  unfold trimmed List.rdropWhile
  have h := List.takeWhile_append_dropWhile (p := (· == '0')) (l := (pad w n).reverse)
  have h2 := congrArg List.reverse h
  rw [List.reverse_append, List.reverse_reverse] at h2
  rw [hz] at h2 ⊢
  simpa using h2.symm

theorem trimmed_injective {w m n : Nat} (hw : 0 < w) (hm : m < 10 ^ w) (hn : n < 10 ^ w)
    (h : trimmed w m = trimmed w n) : m = n := by
  obtain ⟨j, hj⟩ := trimmed_append_zeros w m
  obtain ⟨k, hk⟩ := trimmed_append_zeros w n
  have lm := length_pad hw hm
  have ln := length_pad hw hn
  rw [hj, List.length_append, List.length_replicate] at lm
  rw [hk, List.length_append, List.length_replicate] at ln
  have hjk : j = k := by
    rw [h] at lm
    omega
  apply pad_injective (w := w)
  rw [hj, hk, h, hjk]

end DigitText
