import RemindiCore.Lib.Fallible

/-!
# Programs under a rely

Between two calls of a program the state may change, but only as a relation `rely`
allows; and the answer to a call is one that `allowed` admits for this call.  `Relies`
says what holds before each call and what holds at the return, so that a property may
be broken between two calls of the program and hold at all others.

    Relies m s → rely s t → Relies m t                  (Relies.changed)
    Relies m s (f continues) → Relies (m >>= f) s       (Relies.bind)
-/

namespace Fallible

variable {Call : Type} {Value : Call → Type} {σ Answer Event ε α β : Type}

/-- The assumptions about the surroundings of a program, and what holds before a call. -/
structure Rely (Call σ Answer : Type) where
  changes : σ → σ → Prop
  refl : ∀ s, changes s s
  trans : ∀ s t u, changes s t → changes t u → changes s u
  allowed : Call → Answer → Prop
  before : Call → σ → Prop

/-- Before each call `before` holds of it, and `post` holds when the program returns. -/
def Relies (w : World Value σ Answer Event) (r : Rely Call σ Answer)
    (post : Except ε α → σ → Prop) : Prog Value ε α → σ → Prop
  | .pure a, s => post (.ok a) s
  | .throw e, s => post (.error e) s
  | .call k next, s => ∀ t, r.changes s t → r.before k t ∧
    ∀ a, r.allowed k a → Relies w r post (next (w.serve k a t).1) (w.serve k a t).2

variable {w : World Value σ Answer Event} {r : Rely Call σ Answer}
  {post post' : Except ε α → σ → Prop} {m : Prog Value ε α} {k : Call} {s t : σ}

/-- What the surroundings change is of no consequence to a program that is at a call. -/
theorem Relies.changed {next : Option (Value k) → Prog Value ε α}
    (h : Relies w r post (.call k next) s) (hst : r.changes s t) :
    Relies w r post (.call k next) t := by
  intro u htu
  exact h u (r.trans s t u hst htu)

theorem Relies.now {next : Option (Value k) → Prog Value ε α}
    (h : Relies w r post (.call k next) s) : r.before k s :=
  (h s (r.refl s)).1

/-- **One step.** -/
theorem Relies.served {next : Option (Value k) → Prog Value ε α} {a : Answer}
    (h : Relies w r post (.call k next) s) (ha : r.allowed k a) :
    Relies w r post (next (w.serve k a s).1) (w.serve k a s).2 :=
  (h s (r.refl s)).2 a ha

theorem Relies.bind {post : Except ε β → σ → Prop} {f : α → Prog Value ε β}
    (h : Relies w r (fun result t => match result with
      | .ok a => Relies w r post (f a) t
      | .error e => post (.error e) t) m s) : Relies w r post (m.bind f) s := by
  induction m generalizing s with
  | pure a => exact h
  | throw e => exact h
  | call k next ih =>
    intro t hst
    obtain ⟨hbefore, hserve⟩ := h t hst
    exact ⟨hbefore, fun a ha => ih _ (hserve a ha)⟩

/-- One call: `P` holds before it, whatever has changed. -/
theorem Relies.perform {e : ε} {P : σ → Prop} {post : Except ε (Value k) → σ → Prop} (hs : P s)
    (hstable : ∀ s t, P s → r.changes s t → P t) (hbefore : ∀ t, P t → r.before k t)
    (hok : ∀ t a value, P t → r.allowed k a → (w.serve k a t).1 = some value →
      post (.ok value) (w.serve k a t).2)
    (herror : ∀ t a, P t → r.allowed k a → (w.serve k a t).1 = none →
      post (.error e) (w.serve k a t).2) : Relies w r post (.perform k e) s := by
  intro t hst
  have ht := hstable s t hs hst
  refine ⟨hbefore t ht, fun a ha => ?_⟩
  cases hreply : (w.serve k a t).1 with
  | none => exact herror t a ht ha hreply
  | some value => exact hok t a value ht ha hreply

/-- **What the surroundings and every call keep, the program keeps.** -/
theorem Relies.keep {K : Call → Prop} {P : σ → Prop} (hm : m.Makes K) (hs : P s)
    (hstable : ∀ s t, P s → r.changes s t → P t) (hbefore : ∀ k t, K k → P t → r.before k t)
    (hkeep : ∀ k a t, K k → r.allowed k a → P t → P (w.serve k a t).2) :
    Relies w r (fun _ => P) m s := by
  induction m generalizing s with
  | pure a => exact hs
  | throw e => exact hs
  | call k next ih =>
    intro t hst
    have ht := hstable s t hs hst
    exact ⟨hbefore k t hm.1 ht, fun a ha => ih _ (hm.2 _) (hkeep k a t hm.1 ha ht)⟩

end Fallible
