import Mathlib.Data.List.Perm.Basic
import Mathlib.Algebra.Order.Group.Nat

/-!
# Jobs on a bounded number of slots

`finish slots jobs` is the time at which the last of the jobs ends when each
starts, in order, on the slot that is free first.  Jobs of length zero do not
count; `k` others of length at most `T` end by `⌈k / slots⌉ * T` (`finish_le`),
and of length at least `T` not before (`le_finish`).

Both follow from how many slots are free only after the `m`-th multiple of `T`.
-/

namespace Workers

/-- The first time at which a slot is free. -/
def first (free : List Nat) : Nat := free.min?.getD 0

/-- Run a job on the slot that is free first. -/
def assign (free : List Nat) (job : Nat) : List Nat :=
  (first free + job) :: free.erase (first free)

/-- When the slots are free after all jobs. -/
def schedule (slots : Nat) (jobs : List Nat) : List Nat :=
  jobs.foldl assign (List.replicate slots 0)

def finish (slots : Nat) (jobs : List Nat) : Nat := (schedule slots jobs).max?.getD 0

example : finish 2 [3, 5, 0, 4, 1] = 7 := by decide

/-- Jobs that take time. -/
def busy (jobs : List Nat) : Nat := jobs.countP fun job => decide (0 < job)

/-- `k` jobs in rows of `slots`. -/
def rows (slots k : Nat) : Nat := (k + slots - 1) / slots

theorem rows_le {slots k : Nat} (hslots : 0 < slots) : k ≤ rows slots k * slots := by
  unfold rows
  have := Nat.div_add_mod (k + slots - 1) slots
  have := Nat.mod_lt (k + slots - 1) hslots
  rw [Nat.mul_comm]
  omega

theorem lt_of_rows {slots k m : Nat} (hslots : 0 < slots) (h : rows slots k = m + 1) :
    m * slots < k := by
  unfold rows at h
  have := Nat.div_add_mod (k + slots - 1) slots
  rw [h, Nat.mul_succ, Nat.mul_comm] at this
  omega

/-! ## One job -/

variable {free : List Nat}

theorem first_mem (h : free ≠ []) : first free ∈ free := by
  unfold first
  cases hmin : free.min? with
  | none => exact absurd (List.min?_eq_none_iff.mp hmin) h
  | some t => exact (List.min?_eq_some_iff.mp hmin).1

theorem first_le {f : Nat} (hf : f ∈ free) : first free ≤ f := by
  unfold first
  cases hmin : free.min? with
  | none =>
    rw [List.min?_eq_none_iff.mp hmin] at hf
    cases hf
  | some t => exact (List.min?_eq_some_iff.mp hmin).2 f hf

theorem length_assign (h : free ≠ []) (job : Nat) : (assign free job).length = free.length := by
  have hperm := (List.perm_cons_erase (first_mem h)).length_eq
  rw [List.length_cons] at hperm
  rw [assign, List.length_cons, hperm]

/-- What a job changes in a count of slots. -/
theorem countP_assign (p : Nat → Bool) (h : free ≠ []) (job : Nat) :
    (assign free job).countP p + (if p (first free) then 1 else 0) =
      free.countP p + (if p (first free + job) then 1 else 0) := by
  rw [(List.perm_cons_erase (first_mem h)).countP_eq p, assign, List.countP_cons, List.countP_cons]
  omega

theorem countP_assign_le (p : Nat → Bool) (h : free ≠ []) (job : Nat) :
    (assign free job).countP p ≤ free.countP p + 1 := by
  have hcount := countP_assign p h job
  have hone : (if p (first free + job) then 1 else 0) ≤ 1 := by
    split <;> omega
  omega

theorem countP_assign_zero (p : Nat → Bool) (h : free ≠ []) :
    (assign free 0).countP p = free.countP p := by
  have := countP_assign p h 0
  rw [Nat.add_zero] at this
  omega

/-- All slots are free after a time when the first is. -/
theorem countP_eq_length (p : Nat → Bool) (hp : ∀ f, first free ≤ f → p f = true) :
    free.countP p = free.length :=
  List.countP_eq_length.mpr fun f hf => hp f (first_le hf)

/-! ## An upper bound -/

/-- At most `k - m * slots` slots are taken beyond the `m`-th multiple of `T`. -/
structure Within (slots T k : Nat) (free : List Nat) : Prop where
  length : free.length = slots
  late : ∀ m, free.countP (fun f => decide (m * T < f)) ≤ k - m * slots

theorem Within.assign {slots T k job : Nat} (hslots : 0 < slots) (h : Within slots T k free)
    (hjob : job ≤ T) : Within slots T (k + if 0 < job then 1 else 0) (assign free job) := by
  have hne : free ≠ [] := by
    intro hnil
    rw [← h.length, hnil] at hslots
    exact absurd hslots (by decide)
  refine ⟨(length_assign hne job).trans h.length, fun m => ?_⟩
  have hlate := h.late m
  by_cases hzero : 0 < job
  · rw [if_pos hzero]
    have hle := countP_assign_le (fun f => decide (m * T < f)) hne job
    by_cases hbeyond : m * T < first free + job
    · cases m with
      | zero =>
        rw [Nat.zero_mul] at hle hlate ⊢
        omega
      | succ m =>
        -- every slot is free only after the multiple before
        have hfirst : m * T < first free := by
          rw [Nat.succ_mul] at hbeyond
          omega
        have hall := h.late m
        rw [countP_eq_length _ fun f hf => decide_eq_true (by omega), h.length] at hall
        have hrow : (m + 1) * slots = m * slots + slots := Nat.succ_mul m slots
        omega
    · have hcount := countP_assign (fun f => decide (m * T < f)) hne job
      simp only [decide_eq_true_eq, if_neg hbeyond] at hcount
      omega
  · obtain rfl : job = 0 := by omega
    rw [countP_assign_zero _ hne]
    simpa using hlate

theorem Within.schedule {slots T : Nat} (hslots : 0 < slots) :
    ∀ {jobs : List Nat} {free : List Nat} {k : Nat}, Within slots T k free →
      (∀ job ∈ jobs, job ≤ T) → Within slots T (k + busy jobs) (jobs.foldl Workers.assign free)
  | [], _, _, h, _ => h
  | job :: jobs, _, k, h, hjobs => by
    obtain ⟨hjob, hjobs⟩ := List.forall_mem_cons.mp hjobs
    have hrest := Within.schedule hslots (h.assign hslots hjob) hjobs
    have hbusy : busy (job :: jobs) = busy jobs + if 0 < job then 1 else 0 := by
      simp [busy, List.countP_cons]
    rw [hbusy, Nat.add_comm (busy jobs), ← Nat.add_assoc]
    exact hrest

theorem le_of_mem_max {l : List Nat} {f : Nat} (hf : f ∈ l) : f ≤ l.max?.getD 0 := by
  cases hmax : l.max? with
  | none =>
    rw [List.max?_eq_none_iff.mp hmax] at hf
    cases hf
  | some t => exact (List.max?_eq_some_iff.mp hmax).2 f hf

theorem max_le_of_forall {l : List Nat} {b : Nat} (h : ∀ f ∈ l, f ≤ b) : l.max?.getD 0 ≤ b := by
  cases hmax : l.max? with
  | none => exact Nat.zero_le b
  | some t => exact h t (List.max?_eq_some_iff.mp hmax).1

/-- **Short jobs end row by row.** -/
theorem finish_le {slots T : Nat} {jobs : List Nat} (hslots : 0 < slots)
    (hjobs : ∀ job ∈ jobs, job ≤ T) : finish slots jobs ≤ rows slots (busy jobs) * T := by
  have hstart : Within slots T 0 (List.replicate slots 0) :=
    ⟨List.length_replicate, fun m => by simp [List.countP_replicate]⟩
  have hend := hstart.schedule hslots hjobs
  rw [Nat.zero_add] at hend
  refine max_le_of_forall fun f hf => ?_
  have hnone := hend.late (rows slots (busy jobs))
  have hrows := rows_le (k := busy jobs) hslots
  rw [Nat.sub_eq_zero_of_le hrows, Nat.le_zero, List.countP_eq_zero] at hnone
  have := hnone f hf
  simpa using this

/-! ## A lower bound -/

/-- At least `k - m * slots` slots, or all, are taken up to the `m + 1`-th multiple. -/
structure Beyond (slots T k : Nat) (free : List Nat) : Prop where
  length : free.length = slots
  late : ∀ m, min slots (k - m * slots) ≤ free.countP fun f => decide ((m + 1) * T ≤ f)

theorem Beyond.assign {slots T k job : Nat} (hslots : 0 < slots) (h : Beyond slots T k free)
    (hjob : job = 0 ∨ T ≤ job) :
    Beyond slots T (k + if 0 < job then 1 else 0) (assign free job) := by
  have hne : free ≠ [] := by
    intro hnil
    rw [← h.length, hnil] at hslots
    exact absurd hslots (by decide)
  refine ⟨(length_assign hne job).trans h.length, fun m => ?_⟩
  have hlate := h.late m
  by_cases hzero : 0 < job
  · rw [if_pos hzero]
    have hjob : T ≤ job := by omega
    have hcount := countP_assign (fun f => decide ((m + 1) * T ≤ f)) hne job
    have hnext : (m + 1) * T = m * T + T := Nat.succ_mul m T
    simp only [decide_eq_true_eq] at hcount
    by_cases hfar : (m + 1) * T ≤ first free
    · -- all slots are taken that far
      have hall : free.countP (fun f => decide ((m + 1) * T ≤ f)) = free.length :=
        countP_eq_length _ fun f hf => decide_eq_true (by omega)
      rw [h.length] at hall
      rw [if_pos hfar, if_pos (by omega)] at hcount
      omega
    rw [if_neg hfar] at hcount
    by_cases hnear : m * T ≤ first free
    · rw [if_pos (by omega)] at hcount
      omega
    · -- a slot is free before the `m`-th multiple: fewer than `m * slots` jobs so far
      cases m with
      | zero => omega
      | succ m =>
        have hfew : free.countP (fun f => decide ((m + 1) * T ≤ f)) < free.length := by
          refine lt_of_le_of_ne List.countP_le_length fun heq => ?_
          exact absurd (List.countP_eq_length.mp heq _ (first_mem hne)) (by simpa using hnear)
        have hprior := h.late m
        rw [h.length] at hfew
        have hrow : (m + 1) * slots = m * slots + slots := Nat.succ_mul m slots
        omega
  · obtain rfl : job = 0 := by omega
    rw [countP_assign_zero _ hne]
    simpa using hlate

theorem Beyond.schedule {slots T : Nat} (hslots : 0 < slots) :
    ∀ {jobs : List Nat} {free : List Nat} {k : Nat}, Beyond slots T k free →
      (∀ job ∈ jobs, job = 0 ∨ T ≤ job) →
        Beyond slots T (k + busy jobs) (jobs.foldl Workers.assign free)
  | [], _, _, h, _ => h
  | job :: jobs, _, k, h, hjobs => by
    obtain ⟨hjob, hjobs⟩ := List.forall_mem_cons.mp hjobs
    have hrest := Beyond.schedule hslots (h.assign hslots hjob) hjobs
    have hbusy : busy (job :: jobs) = busy jobs + if 0 < job then 1 else 0 := by
      simp [busy, List.countP_cons]
    rw [hbusy, Nat.add_comm (busy jobs), ← Nat.add_assoc]
    exact hrest

/-- **Long jobs do not end before.** -/
theorem le_finish {slots T : Nat} {jobs : List Nat} (hslots : 0 < slots)
    (hjobs : ∀ job ∈ jobs, job = 0 ∨ T ≤ job) : rows slots (busy jobs) * T ≤ finish slots jobs := by
  have hstart : Beyond slots T 0 (List.replicate slots 0) :=
    ⟨List.length_replicate, fun m => by simp⟩
  have hend := hstart.schedule hslots hjobs
  rw [Nat.zero_add] at hend
  cases hrows : rows slots (busy jobs) with
  | zero =>
    rw [Nat.zero_mul]
    exact Nat.zero_le _
  | succ m =>
    have hlate := hend.late m
    have hlt := lt_of_rows hslots hrows
    have hpos : 0 < (jobs.foldl Workers.assign (List.replicate slots 0)).countP
        fun f => decide ((m + 1) * T ≤ f) := by omega
    obtain ⟨f, hf, hfar⟩ := List.countP_pos_iff.mp hpos
    exact le_trans (of_decide_eq_true hfar) (le_of_mem_max hf)

end Workers
