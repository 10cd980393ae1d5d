import RemindiCore.Service.Check
import RemindiCore.Lib.TextOrder
import Mathlib.Data.Int.ConditionallyCompleteOrder
import Mathlib.Data.Prod.Lex
import Mathlib.Order.ConditionallyCompleteLattice.Basic
import Mathlib.Order.WithBot

/-!
# The order of a check and its cursor

`check_order` compares instants and identifiers, `check_after_cursor` canonical
texts.  Both are the order of one key (`checkOrder_compares`,
`checkAfterCursor_iff`), as far as the fire times are whole milliseconds of the
years 0 to 9999, which the columns of the store hold.
-/

namespace RemindiCore

open CivilTime

/-! ## Keys -/

/-- Readiness, priority from high to low, fire time with none last, identifier. -/
abbrev CheckKey := ℕ ×ₗ ℕᵒᵈ ×ₗ WithTop ℤ ×ₗ String

def fireKey (value : Option OffsetDateTime) : WithTop ℤ := value.elim ⊤ fun t => (t.utc : WithTop ℤ)

/-- The part of the key that an evaluation does not change. -/
def itemKey (item : Remindi) : ℕᵒᵈ ×ₗ WithTop ℤ ×ₗ String :=
  toLex (OrderDual.toDual (priorityRank item.priority),
    toLex (fireKey item.nextFireAt, item.id.text))

def checkKey (item : CheckedItem) : CheckKey :=
  toLex (readinessRank item.readiness, itemKey item.remindi)

/-- Comparing lexicographically. -/
theorem compares_then {α β : Type} [LinearOrder α] [LinearOrder β] {a a' : α} {b b' : β}
    {o o' : Ordering} (h : o.Compares a a') (h' : o'.Compares b b') :
    (o.then o').Compares (toLex (a, b)) (toLex (a', b')) := by
  cases o with
  | lt => exact Prod.Lex.toLex_lt_toLex.mpr (Or.inl h)
  | gt => exact Prod.Lex.toLex_lt_toLex.mpr (Or.inl h)
  | eq =>
    obtain rfl : a = a' := h
    cases o' with
    | lt => exact Prod.Lex.toLex_lt_toLex.mpr (Or.inr ⟨rfl, h'⟩)
    | gt => exact Prod.Lex.toLex_lt_toLex.mpr (Or.inr ⟨rfl, h'⟩)
    | eq =>
      obtain rfl : b = b' := h'
      rfl

theorem compare_compares {α : Type} [LinearOrder α] (a b : α) : (compare a b).Compares a b := by
  rw [← cmp_eq_compare]
  exact cmp_compares a b

theorem compare_compares_dual (a b : ℕ) :
    (compare b a).Compares (OrderDual.toDual a) (OrderDual.toDual b) :=
  toDual_compares_toDual.mpr (compare_compares b a)

theorem compares_coe {o : Ordering} {a b : ℤ} (h : o.Compares a b) :
    o.Compares (a : WithTop ℤ) (b : WithTop ℤ) := by
  cases o with
  | lt => exact WithTop.coe_lt_coe.mpr h
  | eq => exact congrArg _ h
  | gt => exact WithTop.coe_lt_coe.mpr h

/-- **`check_order` is the order of the keys.** -/
theorem checkOrder_compares (left right : CheckedItem) :
    (checkOrder left right).Compares (checkKey left) (checkKey right) := by
  refine compares_then (compare_compares _ _) (compares_then (compare_compares_dual _ _)
    (compares_then ?_ (compare_compares _ _)))
  cases hleft : left.remindi.nextFireAt <;> cases hright : right.remindi.nextFireAt
  · exact rfl
  · exact WithTop.coe_lt_top _
  · exact WithTop.coe_lt_top _
  · next s t => exact compares_coe (compare_compares s.utc t.utc)

theorem checkOrder_eq_lt {left right : CheckedItem} :
    checkOrder left right = .lt ↔ checkKey left < checkKey right :=
  (checkOrder_compares left right).eq_lt

theorem checkOrder_ne_gt {left right : CheckedItem} :
    checkOrder left right ≠ .gt ↔ checkKey left ≤ checkKey right :=
  (checkOrder_compares left right).ne_gt

/-! ## Cursors -/

/-- A fire time as a column of the store holds it, in the years 0 to 9999. -/
def Canonical (value : OffsetDateTime) : Prop :=
  value.truncateMillis = value ∧ 0 ≤ value.toUtc.year ∧ value.toUtc.year ≤ 9999

def Fires (item : Remindi) : Prop := ∀ value, item.nextFireAt = some value → Canonical value

theorem Canonical.text {t : OffsetDateTime} (h : Canonical t) : ∃ text, canonicalText t = some text :=
  Option.isSome_iff_exists.mp (canonicalText_isSome.mpr ⟨by have := h.2.1; omega, h.2.2⟩)

theorem Canonical.compares {s t : OffsetDateTime} (hs : Canonical s) (ht : Canonical t)
    {x y : String} (hx : canonicalText s = some x) (hy : canonicalText t = some y) :
    (compare x y).Compares s.utc t.utc := by
  have hmillis : ∀ {r : OffsetDateTime}, Canonical r → r.utc / 1000000 * 1000000 = r.utc :=
    fun h => congrArg OffsetDateTime.utc h.1
  have hsm := hmillis hs
  have htm := hmillis ht
  rcases lt_trichotomy s.utc t.utc with hlt | heq | hgt
  · rw [compare_lt_iff_lt.mpr (canonicalText_lt hs.2 ht.2 (by omega) hx hy)]
    exact hlt
  · have hxy : x = y :=
      Option.some.inj (hx.symm.trans ((canonicalText_congr (by rw [heq])).trans hy))
    rw [compare_eq_iff_eq.mpr hxy]
    exact heq
  · rw [compare_gt_iff_gt.mpr (canonicalText_lt ht.2 hs.2 (by omega) hy hx)]
    exact hgt

/-- The columns of a cursor are those of its item. -/
structure CursorOf (cursor : CheckCursor) (item : CheckedItem) : Prop where
  readiness : cursor.readiness = readinessRank item.readiness
  priority : cursor.priority = priorityRank item.remindi.priority
  nextFireAt : cursor.nextFireAt = item.remindi.nextFireAt.bind canonicalText
  id : cursor.id = item.remindi.id.text

theorem checkCursor_ok {item : CheckedItem} {cursor : CheckCursor}
    (h : checkCursor item = .ok cursor) : CursorOf cursor item := by
  unfold checkCursor at h
  obtain ⟨nextFireAt, hfire, h⟩ := Transaction.except_bind_ok.mp h
  cases h
  refine ⟨rfl, rfl, ?_, rfl⟩
  dsimp only
  cases hvalue : item.remindi.nextFireAt with
  | none =>
    rw [hvalue] at hfire
    exact (Except.ok.inj hfire).symm
  | some value =>
    rw [hvalue] at hfire
    obtain ⟨text, htext, rfl⟩ := Transaction.except_map_ok.mp hfire
    have htext := domain_ok.mp htext
    unfold canonicalTimestamp at htext
    split at htext
    · next text' hcanonical =>
      obtain rfl := Except.ok.inj htext
      exact hcanonical.symm
    · cases htext

/-- **`check_after_cursor` means after the item of the cursor in `check_order`.** -/
theorem checkAfterCursor_iff {item last : CheckedItem} {cursor : CheckCursor}
    (hcursor : checkCursor last = .ok cursor) (hitem : Fires item.remindi)
    (hlast : Fires last.remindi) :
    checkAfterCursor item cursor = true ↔ checkKey last < checkKey item := by
  obtain ⟨hreadiness, hpriority, hfire, hid⟩ := checkCursor_ok hcursor
  unfold checkAfterCursor
  rw [hreadiness, hpriority, hfire, hid]
  have hcompares : ((compare (item.remindi.nextFireAt.bind canonicalText).isNone
      (last.remindi.nextFireAt.bind canonicalText).isNone).then
        (compare ((item.remindi.nextFireAt.bind canonicalText).getD "")
          ((last.remindi.nextFireAt.bind canonicalText).getD ""))).Compares
        (fireKey item.remindi.nextFireAt) (fireKey last.remindi.nextFireAt) := by
    cases hs : item.remindi.nextFireAt with
    | none =>
      cases ht : last.remindi.nextFireAt with
      | none => exact rfl
      | some t =>
        obtain ⟨y, hy⟩ := (hlast t ht).text
        simp only [Option.bind_none, Option.bind_some, hy]
        exact WithTop.coe_lt_top _
    | some s =>
      obtain ⟨x, hx⟩ := (hitem s hs).text
      cases ht : last.remindi.nextFireAt with
      | none =>
        simp only [Option.bind_none, Option.bind_some, hx]
        exact WithTop.coe_lt_top _
      | some t =>
        obtain ⟨y, hy⟩ := (hlast t ht).text
        simp only [Option.bind_some, hx, hy]
        exact compares_coe ((hitem s hs).compares (hlast t ht) hx hy)
  have h := compares_then (compare_compares (readinessRank item.readiness)
      (readinessRank last.readiness))
    (compares_then (compare_compares_dual (priorityRank item.remindi.priority)
        (priorityRank last.remindi.priority))
      (compares_then hcompares (compare_compares item.remindi.id.text last.remindi.id.text)))
  rw [Ordering.then_assoc] at h
  rw [beq_iff_eq]
  exact h.eq_gt

end RemindiCore
