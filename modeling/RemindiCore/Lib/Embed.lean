import RemindiCore.Lib.Fallible
import Mathlib.Data.List.Infix

/-!
# Programs inside programs

`Prog.embed` lets a program make its calls as calls of a larger kind.  Where the larger
world answers them as the smaller one does, as far as a relation between the two states
goes, everything the smaller world ensures carries over (`Ensures.embed`).

`Admitted P log` says of a log that each entry was allowed by what stood before it.
-/

namespace Fallible

section

variable {Call Call' : Type} {Value : Call → Type} {Value' : Call' → Type} {ε α : Type}

/-- The program with its calls made through `f`. -/
def Prog.embed (f : Call → Call') (read : ∀ k, Value' (f k) → Value k) :
    Prog Value ε α → Prog Value' ε α
  | .pure a => .pure a
  | .throw e => .throw e
  | .call k next => .call (f k) fun reply => (next (reply.map (read k))).embed f read

variable {σ σ' Answer Answer' Event Event' : Type} {w : World Value σ Answer Event}
  {w' : World Value' σ' Answer' Event'} {f : Call → Call'} {read : ∀ k, Value' (f k) → Value k}
  {allowed : Answer → Prop} {allowed' : Answer' → Prop} {R : σ → σ' → Prop}

/-- **The larger world ensures what the smaller one does.** -/
theorem Ensures.embed (g : Answer' → Answer) (hallowed : ∀ a, allowed' a → allowed (g a))
    (hserve : ∀ k a s s', R s s' → (w'.serve (f k) a s').1.map (read k) = (w.serve k (g a) s).1 ∧
      R (w.serve k (g a) s).2 (w'.serve (f k) a s').2)
    {stop : σ → Prop} {post : Except ε α → σ → Prop} {m : Prog Value ε α} {s : σ} {s' : σ'}
    (hs : R s s') (h : Ensures w allowed stop post m s) :
    Ensures w' allowed' (fun t' => ∃ t, R t t' ∧ stop t) (fun result t' => ∃ t, R t t' ∧ post result t)
      (m.embed f read) s' := by
  induction m generalizing s s' with
  | pure a => exact ⟨s, hs, h⟩
  | throw e => exact ⟨s, hs, h⟩
  | call k next ih =>
    refine ⟨⟨s, hs, h.1⟩, fun a ha => ?_⟩
    obtain ⟨hreply, hafter⟩ := hserve k a s s' hs
    have hnext := h.2 (g a) (hallowed a ha)
    rw [← hreply] at hnext
    exact ih _ hafter hnext

/-- What holds wherever the program is stopped holds when it is started. -/
theorem Ensures.holds {stop : σ → Prop} {post : Except ε α → σ → Prop} {m : Prog Value ε α} {s : σ}
    (h : Ensures w allowed stop post m s) (hpost : ∀ result t, post result t → stop t) : stop s := by
  cases m with
  | pure a => exact hpost _ _ h
  | throw e => exact hpost _ _ h
  | call k next => exact h.1

theorem Ensures.and {stop stop' : σ → Prop} {post post' : Except ε α → σ → Prop}
    {m : Prog Value ε α} {s : σ} (h : Ensures w allowed stop post m s)
    (h' : Ensures w allowed stop' post' m s) :
    Ensures w allowed (fun t => stop t ∧ stop' t) (fun result t => post result t ∧ post' result t)
      m s := by
  induction m generalizing s with
  | pure a => exact ⟨h, h'⟩
  | throw e => exact ⟨h, h'⟩
  | call k next ih => exact ⟨⟨h.1, h'.1⟩, fun a ha => ih _ (h.2 a ha) (h'.2 a ha)⟩

theorem Prog.makes_any (m : Prog Value ε α) : m.Makes fun _ => True := by
  induction m with
  | pure a => trivial
  | throw e => trivial
  | call k next ih => exact ⟨trivial, ih⟩

theorem Ensures.stop_mono {stop stop' : σ → Prop} {post : Except ε α → σ → Prop}
    {m : Prog Value ε α} {s : σ} (h : Ensures w allowed stop post m s)
    (hstop : ∀ t, stop t → stop' t) : Ensures w allowed stop' post m s := by
  induction m generalizing s with
  | pure a => exact h
  | throw e => exact h
  | call k next ih => exact ⟨hstop s h.1, fun a ha => ih _ (h.2 a ha)⟩

end

/-! ## Logs -/

section

variable {α : Type} {P Q : List α → α → Prop} {log : List α} {e : α}

/-- Each entry is allowed by those before it. -/
def Admitted (P : List α → α → Prop) (log : List α) : Prop :=
  ∀ before e after, log = before ++ e :: after → P before e

theorem Admitted.nil : Admitted P [] := by
  intro before e after h
  cases before <;> cases h

theorem Admitted.snoc (h : Admitted P log) (he : P log e) : Admitted P (log ++ [e]) := by
  intro before c after hsplit
  rcases List.eq_nil_or_concat after with rfl | ⟨rest, last, rfl⟩
  · obtain ⟨rfl, hlast⟩ := List.append_inj' hsplit rfl
    obtain ⟨rfl, -⟩ := List.cons.inj hlast
    exact he
  · rw [List.concat_eq_append] at hsplit
    have hassoc : before ++ c :: (rest ++ [last]) = (before ++ c :: rest) ++ [last] := by simp
    rw [hassoc] at hsplit
    exact h before c rest (List.append_inj' hsplit rfl).1

theorem Admitted.mono (h : Admitted P log) (hPQ : ∀ before e, P before e → Q before e) :
    Admitted Q log :=
  fun before e after hsplit => hPQ before e (h before e after hsplit)

end

end Fallible
