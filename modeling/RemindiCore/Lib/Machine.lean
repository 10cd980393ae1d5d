import Mathlib.Data.List.Induction

/-!
# Runs of a machine

A machine is a function `step : σ → ι → σ × ρ`: a state and a label give the
next state and a response.  `final` is the state after a list of labels and
`history` what happened on the way.  `run_induction` proves a property of all
runs from one step at the end, `invariant_final` is its case for states.
-/

namespace Machine

variable {σ ι ρ : Type}

/-- One step of a run. -/
structure Entry (σ ι ρ : Type) where
  before : σ
  label : ι
  response : ρ
  after : σ

def entry (step : σ → ι → σ × ρ) (s : σ) (l : ι) : Entry σ ι ρ :=
  { before := s, label := l, response := (step s l).2, after := (step s l).1 }

def final (step : σ → ι → σ × ρ) : σ → List ι → σ
  | s, [] => s
  | s, l :: ls => final step (step s l).1 ls

def history (step : σ → ι → σ × ρ) : σ → List ι → List (Entry σ ι ρ)
  | _, [] => []
  | s, l :: ls => entry step s l :: history step (step s l).1 ls

variable {step : σ → ι → σ × ρ} {s : σ}

theorem final_append (ks ls : List ι) :
    final step s (ks ++ ls) = final step (final step s ks) ls := by
  induction ks generalizing s with
  | nil => rfl
  | cons k ks ih => exact ih

theorem history_append (ks ls : List ι) :
    history step s (ks ++ ls) = history step s ks ++ history step (final step s ks) ls := by
  induction ks generalizing s with
  | nil => rfl
  | cons k ks ih =>
    simp only [List.cons_append, history, final]
    rw [ih]

theorem length_history (ls : List ι) : (history step s ls).length = ls.length := by
  induction ls generalizing s with
  | nil => rfl
  | cons l ls ih => simp [history, ih]

/-- **The run rule.**  A property of the history so far and the state reached
holds of every run when it holds at the start and every step keeps it. -/
theorem run_induction {P : List (Entry σ ι ρ) → σ → Prop} (start : P [] s)
    (next : ∀ h t l, P h t → P (h ++ [entry step t l]) (step t l).1) (ls : List ι) :
    P (history step s ls) (final step s ls) := by
  induction ls using List.reverseRecOn with
  | nil => exact start
  | append_singleton ls l ih =>
    rw [history_append, final_append]
    exact next _ _ l ih

/-- The run rule with the labels so far. -/
theorem run_induction_on {P : List ι → List (Entry σ ι ρ) → σ → Prop} (start : P [] [] s)
    (next : ∀ ks h t l, P ks h t → P (ks ++ [l]) (h ++ [entry step t l]) (step t l).1)
    (ls : List ι) : P ls (history step s ls) (final step s ls) := by
  induction ls using List.reverseRecOn with
  | nil => exact start
  | append_singleton ls l ih =>
    rw [history_append, final_append]
    exact next ls _ _ l ih

/-- An invariant of the states. -/
theorem invariant_final {I : σ → Prop} (start : I s) (next : ∀ t l, I t → I (step t l).1)
    (ls : List ι) : I (final step s ls) :=
  run_induction (P := fun _ t => I t) start (fun _ t l ht => next t l ht) ls

/-- Every step of a run starts in the final state of the run before it. -/
theorem mem_history {ls : List ι} {e : Entry σ ι ρ} (h : e ∈ history step s ls) :
    ∃ ks l, (ks ++ [l]) <+: ls ∧ e = entry step (final step s ks) l := by
  induction ls generalizing s with
  | nil => cases h
  | cons l ls ih =>
    rcases List.mem_cons.mp h with rfl | h
    · exact ⟨[], l, ⟨ls, rfl⟩, rfl⟩
    · obtain ⟨ks, k, hk, rfl⟩ := ih h
      exact ⟨l :: ks, k, (List.prefix_cons_inj l).mpr hk, rfl⟩

/-- A history is cut where its run is cut. -/
theorem history_eq_append {ls : List ι} {pre post : List (Entry σ ι ρ)}
    (h : history step s ls = pre ++ post) :
    ∃ ks js, ls = ks ++ js ∧ pre = history step s ks ∧ post = history step (final step s ks) js := by
  induction pre generalizing s ls with
  | nil => exact ⟨[], ls, rfl, rfl, h.symm⟩
  | cons e pre ih =>
    cases ls with
    | nil => cases h
    | cons l ls =>
      obtain ⟨rfl, hrest⟩ := List.cons.inj h
      obtain ⟨ks, js, rfl, hpre, hpost⟩ := ih hrest
      exact ⟨l :: ks, js, rfl, by rw [hpre]; rfl, hpost⟩

/-- A step of a run starts where the steps before it end. -/
theorem history_eq_cons {ls : List ι} {pre post : List (Entry σ ι ρ)} {e : Entry σ ι ρ}
    (h : history step s ls = pre ++ e :: post) :
    ∃ ks l js, ls = ks ++ l :: js ∧ pre = history step s ks ∧
      e = entry step (final step s ks) l := by
  obtain ⟨ks, js, rfl, hpre, htail⟩ := history_eq_append h
  cases js with
  | nil => cases htail
  | cons l js =>
    obtain ⟨rfl, -⟩ := List.cons.inj htail
    exact ⟨ks, l, js, rfl, hpre, rfl⟩

/-- A run ends where its last step ends. -/
theorem final_of_last {ls : List ι} {pre : List (Entry σ ι ρ)} {e : Entry σ ι ρ}
    (h : history step s ls = pre ++ [e]) : final step s ls = e.after := by
  obtain ⟨ks, js, rfl, -, hlast⟩ := history_eq_append h
  rw [final_append]
  cases js with
  | nil => cases hlast
  | cons l js =>
    obtain ⟨rfl, hnil⟩ := List.cons.inj hlast
    cases js with
    | nil => rfl
    | cons l' js => cases hnil

/-- **Between two steps.**  What holds after the first of two steps, and is kept
by every step `Q` of the run, holds before the second. -/
theorem invariant_between {I : σ → Prop} {Q : Entry σ ι ρ → Prop} {ls : List ι}
    {pre mid post : List (Entry σ ι ρ)} {e e' : Entry σ ι ρ}
    (h : history step s ls = pre ++ e :: (mid ++ e' :: post)) (start : I e.after)
    (next : ∀ t l, I t → Q (entry step t l) → I (step t l).1) (hmid : ∀ k ∈ mid, Q k) :
    I e'.before := by
  obtain ⟨ks, js, -, -, htail⟩ := history_eq_append h
  cases js with
  | nil => cases htail
  | cons l js =>
    obtain ⟨rfl, hrest⟩ := List.cons.inj htail
    obtain ⟨ks', js', -, rfl, hlast⟩ := history_eq_append hrest.symm
    have hbefore : I (final step (step (final step s ks) l).1 ks') := by
      refine run_induction (P := fun h t => (∀ k ∈ h, Q k) → I t) (fun _ => start) ?_ ks' hmid
      intro h t k ih hall
      refine next t k (ih fun j hj => hall j (List.mem_append_left _ hj)) ?_
      exact hall _ (List.mem_append_right _ (List.mem_singleton_self _))
    cases js' with
    | nil => cases hlast
    | cons l' js' =>
      obtain ⟨rfl, -⟩ := List.cons.inj hlast
      exact hbefore

/-- The steps of a run are those of its labels. -/
theorem label_mem_of_history {ls : List ι} {e : Entry σ ι ρ} (h : e ∈ history step s ls) :
    e.label ∈ ls := by
  obtain ⟨ks, l, hls, rfl⟩ := mem_history h
  exact hls.subset (List.mem_append_right _ (List.mem_singleton_self l))

/-- An invariant holds before every step of a run. -/
theorem invariant_before {I : σ → Prop} (start : I s) (next : ∀ t l, I t → I (step t l).1)
    {ls : List ι} {e : Entry σ ι ρ} (h : e ∈ history step s ls) :
    I e.before ∧ e = entry step e.before e.label := by
  obtain ⟨ks, l, -, rfl⟩ := mem_history h
  exact ⟨invariant_final start next ks, rfl⟩

/-- **Runs with the same steps.**  Labels that do the same in every state do the same in a run. -/
theorem run_congr {step : σ → ι → σ × ρ} {R : ι → ι → Prop} {s : σ} {ls ls' : List ι}
    (hstep : ∀ l l', R l l' → ∀ s, step s l = step s l') (h : List.Forall₂ R ls ls') :
    final step s ls = final step s ls' ∧
      (history step s ls).map (·.response) = (history step s ls').map (·.response) := by
  induction h generalizing s with
  | nil => exact ⟨rfl, rfl⟩
  | @cons l l' ls ls' hl _ ih =>
    obtain ⟨hfinal, hresponses⟩ := @ih (step s l).1
    have hsame := hstep l l' hl s
    constructor
    · show final step (step s l).1 ls = final step (step s l').1 ls'
      rw [hfinal, hsame]
    · show (step s l).2 :: _ = (step s l').2 :: _
      rw [hresponses, hsame]

end Machine
