import RemindiCore.Lib.Table
import Mathlib.Algebra.BigOperators.Group.List.Basic
import Mathlib.Algebra.GroupWithZero.Nat

/-!
# Steps left in a table

Every row has a number of steps left.  `work` adds them up; a row that is
replaced by one with fewer steps left lowers the sum by the difference
(`work_replace`), so work that is taken up again and again comes to an end.
-/

namespace KeyedTable

namespace Table

variable {α κ : Type} {key : α → κ}

/-- The steps left in all rows. -/
def work (left : α → Nat) (t : Table key) : Nat := (t.rows.map left).sum

/-- At most `bound` steps for each row with steps left. -/
theorem work_le {left : α → Nat} {bound : Nat} (hbound : ∀ a, left a ≤ bound) (t : Table key) :
    t.work left ≤ bound * t.rows.countP fun a => decide (0 < left a) := by
  unfold work
  induction t.rows with
  | nil => simp
  | cons a rest ih =>
    rw [List.map_cons, List.sum_cons, List.countP_cons, Nat.mul_add]
    have ha := hbound a
    by_cases hleft : 0 < left a
    · simp only [hleft, decide_true, if_true]
      omega
    · simp only [hleft, decide_false, Bool.false_eq_true, if_false]
      omega

variable [DecidableEq κ]

theorem map_replace_of_notMem {a : α} {l : List α} (h : key a ∉ l.map key) :
    l.map (fun c => if key c = key a then a else c) = l := by
  induction l with
  | nil => rfl
  | cons c l ih =>
    rw [List.map_cons, List.mem_cons, not_or] at h
    rw [List.map_cons, if_neg (Ne.symm h.1), ih h.2]

/-- **A replacement** takes off what the old row had left and adds what the new one has. -/
theorem work_replace (left : α → Nat) {t : Table key} {a b : α}
    (hb : t.find? (key a) = some b) : (t.replace a).work left + left b = t.work left + left a := by
  obtain ⟨hmem, hkey⟩ := find?_eq_some.mp hb
  obtain ⟨pre, post, hrows⟩ := List.append_of_mem hmem
  have hnodup := t.nodup
  rw [hrows, List.map_append, List.map_cons] at hnodup
  obtain ⟨-, hcons, hdisjoint⟩ := List.nodup_append.mp hnodup
  have hpre := map_replace_of_notMem (a := a) (l := pre) fun hin =>
    hdisjoint _ hin (key b) List.mem_cons_self hkey.symm
  have hpost := map_replace_of_notMem (a := a) (l := post) fun hin =>
    (List.nodup_cons.mp hcons).1 (hkey ▸ hin)
  have hreplaced : (t.replace a).rows = pre ++ a :: post := by
    show t.rows.map _ = _
    rw [hrows, List.map_append, List.map_cons, hpre, hpost, if_pos hkey]
  unfold work
  rw [hreplaced, hrows]
  simp only [List.map_append, List.map_cons, List.sum_append, List.sum_cons]
  omega

end Table

end KeyedTable
