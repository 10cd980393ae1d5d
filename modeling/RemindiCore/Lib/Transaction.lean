import Mathlib.Data.List.Basic

/-!
# Transactions

`Txn ρ ε σ α` is a computation inside one transaction: it reads an environment
`ρ`, counts the calls it makes, and changes the state `σ` or fails with an
`ε`.  The environment answers by the number of the call, so it can give every
clock reading another value and let any single call fail.

`run` is a whole transaction: a failure leaves the state as it was (`run_error`).
A success is taken apart call by call with `bind_ok`.
-/

namespace Transaction

variable {ρ ε σ α β : Type}

theorem except_bind_ok {x : Except ε α} {f : α → Except ε β} {b : β} :
    (x >>= f) = .ok b ↔ ∃ a, x = .ok a ∧ f a = .ok b := by
  cases x with
  | error e => simp [bind, Except.bind]
  | ok a => simp [bind, Except.bind]

theorem except_map_ok {x : Except ε α} {f : α → β} {b : β} :
    (f <$> x) = .ok b ↔ ∃ a, x = .ok a ∧ f a = b := by
  cases x with
  | error e => simp [Functor.map, Except.map]
  | ok a => simp [Functor.map, Except.map]

theorem except_mapError_ok {δ : Type} {x : Except ε α} {f : ε → δ} {a : α} :
    x.mapError f = .ok a ↔ x = .ok a := by
  cases x <;> simp [Except.mapError]

theorem except_mapM_ok {f : α → Except ε β} {l : List α} (h : ∀ a ∈ l, ∃ b, f a = .ok b) :
    ∃ bs, l.mapM f = .ok bs := by
  induction l with
  | nil => exact ⟨[], rfl⟩
  | cons a l ih =>
    obtain ⟨⟨b, hb⟩, hrest⟩ := List.forall_mem_cons.mp h
    obtain ⟨bs, hbs⟩ := ih hrest
    refine ⟨b :: bs, ?_⟩
    rw [List.mapM_cons, hb]
    show (l.mapM f >>= fun rest => pure (b :: rest)) = _
    rw [hbs]
    rfl

/-- Every element has its image at its own place. -/
theorem forall₂_of_mapM_ok {f : α → Except ε β} {l : List α} {bs : List β}
    (h : l.mapM f = .ok bs) : List.Forall₂ (fun a b => f a = .ok b) l bs := by
  induction l generalizing bs with
  | nil =>
    cases h
    exact .nil
  | cons a l ih =>
    rw [List.mapM_cons] at h
    obtain ⟨b, hb, h⟩ := except_bind_ok.mp h
    obtain ⟨rest, hrest, h⟩ := except_bind_ok.mp h
    cases h
    exact .cons hb (ih hrest)

theorem mem_of_mapM_ok {f : α → Except ε β} {l : List α} {bs : List β} (h : l.mapM f = .ok bs)
    {b : β} (hb : b ∈ bs) : ∃ a ∈ l, f a = .ok b := by
  have hall := forall₂_of_mapM_ok h
  clear h
  induction hall with
  | nil => cases hb
  | @cons a b' l bs hab _ ih =>
    rcases List.mem_cons.mp hb with rfl | hb
    · exact ⟨a, List.mem_cons_self, hab⟩
    · obtain ⟨a', ha', heq⟩ := ih hb
      exact ⟨a', List.mem_cons_of_mem a ha', heq⟩

theorem exists_of_mapM_ok {f : α → Except ε β} {l : List α} {bs : List β} (h : l.mapM f = .ok bs)
    {a : α} (ha : a ∈ l) : ∃ b ∈ bs, f a = .ok b := by
  have hall := forall₂_of_mapM_ok h
  clear h
  induction hall with
  | nil => cases ha
  | @cons a' b l bs hab _ ih =>
    rcases List.mem_cons.mp ha with rfl | ha
    · exact ⟨b, List.mem_cons_self, hab⟩
    · obtain ⟨b', hb', heq⟩ := ih ha
      exact ⟨b', List.mem_cons_of_mem b hb', heq⟩

/-- What the function keeps of every element, it keeps of the list. -/
theorem map_of_mapM_ok {γ : Type} {f : α → Except ε β} {g : α → γ} {g' : β → γ} {l : List α}
    {bs : List β} (h : l.mapM f = .ok bs) (hg : ∀ a b, f a = .ok b → g' b = g a) :
    bs.map g' = l.map g := by
  have hall := forall₂_of_mapM_ok h
  clear h
  induction hall with
  | nil => rfl
  | cons hab _ ih => rw [List.map_cons, List.map_cons, hg _ _ hab, ih]

/-! ## The monad -/

/-- A computation with an environment, a call counter and a state. -/
def Txn (ρ ε σ α : Type) : Type := ρ → Nat → σ → Except ε (α × Nat × σ)

namespace Txn

instance : Monad (Txn ρ ε σ) where
  pure a := fun _ n s => .ok (a, n, s)
  bind x f := fun r n s =>
    match x r n s with
    | .ok (a, m, t) => f a r m t
    | .error e => .error e

/-- Fail, undoing the transaction. -/
def throw (e : ε) : Txn ρ ε σ α := fun _ _ _ => .error e

/-- A computation that does not touch the state. -/
def ofExcept (x : Except ε α) : Txn ρ ε σ α := fun _ n s =>
  match x with
  | .ok a => .ok (a, n, s)
  | .error e => .error e

/-- What the environment answers to this call. -/
def ask (f : ρ → Nat → α) : Txn ρ ε σ α := fun r n s => .ok (f r n, n + 1, s)

/-- A call on the state; the environment may let it fail. -/
def call (fault : ρ → Nat → Option ε) (f : σ → Except ε (α × σ)) : Txn ρ ε σ α := fun r n s =>
  match fault r n with
  | some e => .error e
  | none =>
    match f s with
    | .ok (a, t) => .ok (a, n + 1, t)
    | .error e => .error e

/-- A whole transaction: committed, or undone by a failure. -/
def run (x : Txn ρ ε σ α) (r : ρ) (s : σ) : Except ε α × σ :=
  match x r 0 s with
  | .ok (a, _, t) => (.ok a, t)
  | .error e => (.error e, s)

/-! ## Taking a success apart -/

variable {r : ρ} {n m : Nat} {s t : σ} {a : α} {b : β}

theorem bind_ok {x : Txn ρ ε σ α} {f : α → Txn ρ ε σ β} :
    (x >>= f) r n s = .ok (b, m, t) ↔
      ∃ a k u, x r n s = .ok (a, k, u) ∧ f a r k u = .ok (b, m, t) := by
  simp only [bind]
  cases h : x r n s with
  | error e => simp
  | ok y =>
    obtain ⟨a, k, u⟩ := y
    simp

theorem bind_of_ok {x : Txn ρ ε σ α} {f : α → Txn ρ ε σ β} (h : x r n s = .ok (a, m, t)) :
    (x >>= f) r n s = f a r m t := by
  simp only [bind, h]

theorem bind_of_error {x : Txn ρ ε σ α} {f : α → Txn ρ ε σ β} {e : ε} (h : x r n s = .error e) :
    (x >>= f) r n s = .error e := by
  simp only [bind, h]

theorem bind_assoc {γ : Type} {x : Txn ρ ε σ γ} {f : γ → Txn ρ ε σ β} {g : β → Txn ρ ε σ α} :
    (x >>= f >>= g) r n s = (x >>= fun c => f c >>= g) r n s := by
  cases h : x r n s with
  | error e => rw [bind_of_error (bind_of_error h), bind_of_error h]
  | ok done =>
    obtain ⟨c, k, u⟩ := done
    rw [bind_of_ok h]
    simp only [bind, h]

theorem pure_ok {c : α} : (pure c : Txn ρ ε σ α) r n s = .ok (a, m, t) ↔ c = a ∧ n = m ∧ s = t := by
  simp [pure]

theorem throw_ok {e : ε} : (throw e : Txn ρ ε σ α) r n s ≠ .ok (a, m, t) := by
  simp [throw]

theorem ofExcept_ok {x : Except ε α} :
    (ofExcept x : Txn ρ ε σ α) r n s = .ok (a, m, t) ↔ x = .ok a ∧ n = m ∧ s = t := by
  cases x with
  | error e => simp [ofExcept]
  | ok c => simp [ofExcept]

theorem ask_ok {f : ρ → Nat → α} :
    (ask f : Txn ρ ε σ α) r n s = .ok (a, m, t) ↔ f r n = a ∧ n + 1 = m ∧ s = t := by
  simp [ask]

theorem call_ok {fault : ρ → Nat → Option ε} {f : σ → Except ε (α × σ)} :
    (call fault f) r n s = .ok (a, m, t) ↔ fault r n = none ∧ f s = .ok (a, t) ∧ n + 1 = m := by
  unfold call
  cases fault r n with
  | some e => simp
  | none =>
    cases f s with
    | error e => simp
    | ok y =>
      obtain ⟨c, u⟩ := y
      simp only [true_and, Except.ok.injEq, Prod.mk.injEq]
      exact ⟨fun ⟨h1, h2, h3⟩ => ⟨⟨h1, h3⟩, h2⟩, fun ⟨⟨h1, h3⟩, h2⟩ => ⟨h1, h2, h3⟩⟩

/-! ## The same computation -/

theorem bind_congr {x : Txn ρ ε σ α} {f g : α → Txn ρ ε σ β}
    (h : ∀ a m t, x r n s = .ok (a, m, t) → f a r m t = g a r m t) :
    (x >>= f) r n s = (x >>= g) r n s := by
  simp only [bind]
  cases hx : x r n s with
  | error e => rfl
  | ok y =>
    obtain ⟨a, m, t⟩ := y
    exact h a m t hx

/-- Two calls that both succeed, and go on alike, fail in the same environments. -/
theorem call_bind_congr {γ : Type} {fault : ρ → Nat → Option ε} {f : σ → Except ε (α × σ)}
    {g : σ → Except ε (β × σ)} {k : α → Txn ρ ε σ γ} {l : β → Txn ρ ε σ γ} {u : σ}
    (hf : f s = .ok (a, t)) (hg : g s = .ok (b, u)) (h : k a r (n + 1) t = l b r (n + 1) u) :
    (call fault f >>= k) r n s = (call fault g >>= l) r n s := by
  simp only [bind, call]
  cases fault r n with
  | some e => rfl
  | none =>
    rw [hf, hg]
    exact h

/-! ## Invariants of the state -/

/-- Every success keeps `I`. -/
def Preserves (I : σ → Prop) (x : Txn ρ ε σ α) : Prop :=
  ∀ r n s a m t, x r n s = .ok (a, m, t) → I s → I t

variable {I : σ → Prop}

theorem Preserves.bind {x : Txn ρ ε σ α} {f : α → Txn ρ ε σ β} (hx : Preserves I x)
    (hf : ∀ a, Preserves I (f a)) : Preserves I (x >>= f) := by
  intro r n s b m t h hs
  obtain ⟨a, k, u, h1, h2⟩ := bind_ok.mp h
  exact hf a _ _ _ _ _ _ h2 (hx _ _ _ _ _ _ h1 hs)

theorem Preserves.pure (a : α) : Preserves I (pure a : Txn ρ ε σ α) := by
  intro r n s b m t h hs
  obtain ⟨-, -, rfl⟩ := pure_ok.mp h
  exact hs

theorem Preserves.throw (e : ε) : Preserves I (throw e : Txn ρ ε σ α) := by
  intro r n s b m t h
  exact absurd h throw_ok

theorem Preserves.ofExcept (x : Except ε α) : Preserves I (ofExcept x : Txn ρ ε σ α) := by
  intro r n s b m t h hs
  obtain ⟨-, -, rfl⟩ := ofExcept_ok.mp h
  exact hs

theorem Preserves.ask (f : ρ → Nat → α) : Preserves I (ask f : Txn ρ ε σ α) := by
  intro r n s b m t h hs
  obtain ⟨-, -, rfl⟩ := ask_ok.mp h
  exact hs

/-! ## Failures -/

/-- Every failure is one of `P`. -/
def Fails (P : ε → Prop) (x : Txn ρ ε σ α) : Prop := ∀ r n s e, x r n s = .error e → P e

variable {P : ε → Prop}

theorem Fails.bind {x : Txn ρ ε σ α} {f : α → Txn ρ ε σ β} (hx : Fails P x)
    (hf : ∀ a, Fails P (f a)) : Fails P (x >>= f) := by
  intro r n s e h
  cases hfirst : x r n s with
  | error e' =>
    rw [bind_of_error hfirst] at h
    obtain rfl := Except.error.inj h
    exact hx r n s e' hfirst
  | ok done =>
    obtain ⟨a, m, t⟩ := done
    rw [bind_of_ok hfirst] at h
    exact hf a r m t e h

theorem Fails.pure (a : α) : Fails P (pure a : Txn ρ ε σ α) := by
  intro r n s e h
  cases h

theorem Fails.ask (f : ρ → Nat → α) : Fails P (ask f : Txn ρ ε σ α) := by
  intro r n s e h
  cases h

theorem Fails.call {fault : ρ → Nat → Option ε} {f : σ → Except ε (α × σ)}
    (hfault : ∀ r n e, fault r n = some e → P e) (hf : ∀ s e, f s = .error e → P e) :
    Fails P (call fault f) := by
  intro r n s e h
  unfold Txn.call at h
  cases hanswer : fault r n with
  | some e' =>
    rw [hanswer] at h
    obtain rfl := Except.error.inj h
    exact hfault r n e' hanswer
  | none =>
    rw [hanswer] at h
    cases hmade : f s with
    | error e' =>
      rw [hmade] at h
      obtain rfl := Except.error.inj h
      exact hf s e' hmade
    | ok done =>
      rw [hmade] at h
      cases h

/-! ## Whole transactions -/

theorem run_ok {x : Txn ρ ε σ α} :
    x.run r s = (.ok a, t) ↔ ∃ m, x r 0 s = .ok (a, m, t) := by
  unfold run
  cases h : x r 0 s with
  | error e => simp
  | ok y =>
    obtain ⟨c, k, u⟩ := y
    simp

theorem run_fst {x : Txn ρ ε σ α} : (x.run r s).1 = (x r 0 s).map Prod.fst := by
  unfold run
  cases x r 0 s <;> rfl

/-- **A failed transaction changes nothing.** -/
theorem run_error {x : Txn ρ ε σ α} {e : ε} (h : x.run r s = (.error e, t)) : t = s := by
  unfold run at h
  cases hx : x r 0 s with
  | error d =>
    rw [hx] at h
    exact (Prod.mk.inj h).2.symm
  | ok y =>
    obtain ⟨c, k, u⟩ := y
    rw [hx] at h
    cases (Prod.mk.inj h).1

theorem Preserves.run {x : Txn ρ ε σ α} (hx : Preserves I x) (hs : I s) : I (x.run r s).2 := by
  unfold Txn.run
  cases h : x r 0 s with
  | error e => exact hs
  | ok y =>
    obtain ⟨a, m, t⟩ := y
    exact hx _ _ _ _ _ _ h hs

end Txn

end Transaction
