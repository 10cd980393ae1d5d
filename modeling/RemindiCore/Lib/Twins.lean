import RemindiCore.Lib.Fallible

/-!
# One program in two worlds

A run is compared with the run on the same moves in a second world: while the
steps of the first are good, a relation that both worlds keep makes the second
reply the same (`Twins.run`).
-/

namespace Fallible

variable {Call : Type} {Value : Call → Type} {σ σ' Answer Event ε α : Type}
  {w : World Value σ Answer Event} {w' : World Value σ' Answer Event}

/-- What has happened stays in the history. -/
theorem mem_run_history {step : Step Call Event σ} (moves : List (Move Answer Event))
    {c : Config Call Event σ} (m : Prog Value ε α) (h : step ∈ c.history) :
    step ∈ (run w moves c m).1.history := by
  induction moves generalizing c m with
  | nil => cases m <;> exact h
  | cons move moves ih =>
    cases m with
    | pure a => exact h
    | throw e => exact h
    | call k next =>
      cases move with
      | event e => exact ih (c := c.event w e) (.call k next) (List.mem_append_left _ h)
      | answer a => exact ih (c := c.served w k a) _ (List.mem_append_left _ h)

/-- Both worlds keep the relation between what is left of the program and their states. -/
structure Twins (w : World Value σ Answer Event) (w' : World Value σ' Answer Event)
    (good : Step Call Event σ → Prop) (R : Prog Value ε α → σ → σ' → Prop) : Prop where
  event : ∀ m s t e, R m s t → good ⟨s, .event e, w.interfere e s⟩ →
    R m (w.interfere e s) (w'.interfere e t)
  call : ∀ k next s t a, R (.call k next) s t →
    good ⟨s, .call k (w.serve k a s).1.isNone, (w.serve k a s).2⟩ →
      (w'.serve k a t).1 = (w.serve k a s).1 ∧
        R (next (w.serve k a s).1) (w.serve k a s).2 (w'.serve k a t).2

/-- **The second world replies the same.** -/
theorem Twins.run {good : Step Call Event σ → Prop} {R : Prog Value ε α → σ → σ' → Prop}
    (h : Twins w w' good R) (moves : List (Move Answer Event)) {c : Config Call Event σ}
    {d : Config Call Event σ'} {m : Prog Value ε α} (hR : R m c.state d.state)
    (hgood : ∀ step ∈ (run w moves c m).1.history, good step) :
    (Fallible.run w' moves d m).2 = (Fallible.run w moves c m).2 ∧
      ∃ m', R m' (Fallible.run w moves c m).1.state (Fallible.run w' moves d m).1.state := by
  induction moves generalizing c d m with
  | nil => cases m <;> exact ⟨rfl, _, hR⟩
  | cons move moves ih =>
    cases m with
    | pure a => exact ⟨rfl, _, hR⟩
    | throw e => exact ⟨rfl, _, hR⟩
    | call k next =>
      cases move with
      | event e =>
        have hlast := hgood _ (mem_run_history moves (c := c.event w e) (.call k next)
          (List.mem_append_right _ (List.mem_singleton_self _)))
        exact ih (c := c.event w e) (d := d.event w' e) (h.event _ _ _ e hR hlast) hgood
      | answer a =>
        have hlast := hgood _ (mem_run_history moves (c := c.served w k a) _
          (List.mem_append_right _ (List.mem_singleton_self _)))
        obtain ⟨hreply, hnext⟩ := h.call k next _ _ a hR hlast
        have hsame : Fallible.run w' (.answer a :: moves) d (.call k next) =
            Fallible.run w' moves (d.served w' k a) (next (w.serve k a c.state).1) := by
          show Fallible.run w' moves (d.served w' k a) (next (w'.serve k a d.state).1) = _
          rw [hreply]
        rw [hsame]
        exact ih (c := c.served w k a) (d := d.served w' k a) hnext hgood

end Fallible
