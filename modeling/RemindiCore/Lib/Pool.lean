import RemindiCore.Lib.Fallible

/-!
# Other programs in the world

`pooled` is the world of one program among others: between two of its calls an
operation may be started, a program that runs may make its next call, and the
world below may change by itself.

A program that `Obeys` makes only some calls, provided that the replies it gets
are of an allowed kind.  What such calls keep is kept while all programs obey
(`Pool.Kept.turn`), in every run whose steps are good (`Under.stable`).
-/

namespace Fallible

variable {Call : Type} {Value : Call → Type} {σ Op Answer Event ε α β : Type}

/-! ## Pools -/

structure Pool (Value : Call → Type) (σ ε α : Type) where
  state : σ
  /-- What the programs that were started have left to do. -/
  tasks : List (Prog Value ε α)

inductive Turn (Op Answer Event : Type) where
  | start (op : Op)
  | advance (task : Nat) (a : Answer)
  | event (e : Event)

def Pool.turn (w : World Value σ Answer Event) (program : Op → Prog Value ε α)
    (turn : Turn Op Answer Event) (p : Pool Value σ ε α) : Pool Value σ ε α :=
  match turn with
  | .start op => { p with tasks := p.tasks ++ [program op] }
  | .advance task a =>
    match p.tasks[task]? with
    | some (.call k next) =>
      { state := (w.serve k a p.state).2
        tasks := p.tasks.set task (next (w.serve k a p.state).1) }
    | _ => p
  | .event e => { p with state := w.interfere e p.state }

/-- The world of one more program, which `main` answers. -/
def pooled (main w : World Value σ Answer Event) (program : Op → Prog Value ε α) :
    World Value (Pool Value σ ε α) Answer (Turn Op Answer Event) where
  serve := fun k a p => ((main.serve k a p.state).1, { p with state := (main.serve k a p.state).2 })
  interfere := Pool.turn w program

/-- The call that a turn makes. -/
def Pool.calls (p : Pool Value σ ε α) : Turn Op Answer Event → Option Call
  | .advance task _ =>
    match p.tasks[task]? with
    | some (.call k _) => some k
    | _ => none
  | _ => none

/-- The call that a step makes. -/
def Step.calls (step : Step Call (Turn Op Answer Event) (Pool Value σ ε α)) : Option Call :=
  match step.action with
  | .call k _ => some k
  | .event turn => step.before.calls turn

/-! ## Programs that obey -/

/-- The calls that the program may make satisfy `K`, while replies are allowed. -/
def Prog.Obeys (allow : (k : Call) → Value k → Prop) (K : Call → Prop) : Prog Value ε α → Prop
  | .pure _ => True
  | .throw _ => True
  | .call k next => K k ∧ (next none).Obeys allow K ∧ ∀ v, allow k v → (next (some v)).Obeys allow K

section

variable {allow : (k : Call) → Value k → Prop} {K : Call → Prop} {m : Prog Value ε α}

theorem Prog.Makes.obeys (h : m.Makes K) : m.Obeys allow K := by
  induction m with
  | pure a => trivial
  | throw e => trivial
  | call k next ih => exact ⟨h.1, ih none (h.2 none), fun v _ => ih (some v) (h.2 (some v))⟩

theorem Prog.Makes.mono {K' : Call → Prop} (h : m.Makes K) (hK : ∀ k, K k → K' k) :
    m.Makes K' := by
  induction m with
  | pure a => trivial
  | throw e => trivial
  | call k next ih => exact ⟨hK k h.1, fun reply => ih reply (h.2 reply)⟩

theorem Prog.Obeys.bind {f : α → Prog Value ε β} (hm : m.Obeys allow K)
    (hf : ∀ a, (f a).Obeys allow K) : (m.bind f).Obeys allow K := by
  induction m with
  | pure a => exact hf a
  | throw e => trivial
  | call k next ih => exact ⟨hm.1, ih none hm.2.1, fun v hv => ih (some v) (hm.2.2 v hv)⟩

theorem Prog.Obeys.attempt (hm : m.Obeys allow K) : m.attempt.Obeys allow K := by
  induction m with
  | pure a => trivial
  | throw e => trivial
  | call k next ih => exact ⟨hm.1, ih none hm.2.1, fun v hv => ih (some v) (hm.2.2 v hv)⟩

theorem Prog.Obeys.mono {K' : Call → Prop} (hm : m.Obeys allow K) (hK : ∀ k, K k → K' k) :
    m.Obeys allow K' := by
  induction m with
  | pure a => trivial
  | throw e => trivial
  | call k next ih =>
    exact ⟨hK k hm.1, ih none hm.2.1, fun v hv => ih (some v) (hm.2.2 v hv)⟩

theorem Prog.Obeys.allow_mono {allow' : (k : Call) → Value k → Prop} (hm : m.Obeys allow K)
    (h : ∀ k v, allow' k v → allow k v) : m.Obeys allow' K := by
  induction m with
  | pure a => trivial
  | throw e => trivial
  | call k next ih =>
    exact ⟨hm.1, ih none hm.2.1, fun v hv => ih (some v) (hm.2.2 v (h k v hv))⟩

/-- What follows a call may rely on its reply. -/
theorem Prog.Obeys.perform {k : Call} {e : ε} {f : Value k → Prog Value ε β} (hk : K k)
    (hf : ∀ v, allow k v → (f v).Obeys allow K) : ((Prog.perform k e).bind f).Obeys allow K :=
  ⟨hk, trivial, fun v hv => hf v hv⟩

theorem Prog.Obeys.reply {k : Call} {next : Option (Value k) → Prog Value ε α}
    (h : (Prog.call k next).Obeys allow K) {reply : Option (Value k)}
    (hreply : ∀ v, reply = some v → allow k v) : (next reply).Obeys allow K := by
  cases reply with
  | none => exact h.2.1
  | some v => exact h.2.2 v (hreply v rfl)

end

/-! ## What a pool keeps -/

/-- The state satisfies `P`, and the programs obey. -/
structure Pool.Kept (P : σ → Prop) (allow : (k : Call) → Value k → Prop) (K : Call → Prop)
    (p : Pool Value σ ε α) : Prop where
  state : P p.state
  tasks : ∀ m ∈ p.tasks, m.Obeys allow K

/-- What an answer to a call keeps, when the call is a good one in its state. -/
def Keeps (w : World Value σ Answer Event) (good : Call → σ → Prop) (P : σ → Prop)
    (allow : (k : Call) → Value k → Prop) (K : Call → Prop) : Prop :=
  ∀ k a s, K k → good k s → P s →
    P (w.serve k a s).2 ∧ ∀ v, (w.serve k a s).1 = some v → allow k v

variable {w main : World Value σ Answer Event} {program : Op → Prog Value ε α}
  {P : σ → Prop} {allow : (k : Call) → Value k → Prop} {K : Call → Prop}
  {good : Call → σ → Prop} {p : Pool Value σ ε α}

/-- **A turn of the others.** -/
theorem Pool.Kept.turn (h : p.Kept P allow K) (hkeeps : Keeps w good P allow K)
    (hprogram : ∀ op, (program op).Obeys allow K) (hinterfere : ∀ e s, P s → P (w.interfere e s))
    (turn : Turn Op Answer Event) (hgood : ∀ k, p.calls turn = some k → good k p.state) :
    (p.turn w program turn).Kept P allow K := by
  cases turn with
  | start op =>
    refine ⟨h.state, fun m hm => ?_⟩
    rcases List.mem_append.mp hm with hm | hm
    · exact h.tasks m hm
    · rw [List.mem_singleton.mp hm]
      exact hprogram op
  | event e => exact ⟨hinterfere e _ h.state, h.tasks⟩
  | advance task a =>
    unfold Pool.turn
    dsimp only
    unfold Pool.calls at hgood
    dsimp only at hgood
    split
    · next k next htask =>
      rw [htask] at hgood
      have hobeys : (Prog.call k next).Obeys allow K := h.tasks _ (List.mem_of_getElem? htask)
      obtain ⟨hstate, hreply⟩ := hkeeps k a p.state hobeys.1 (hgood k rfl) h.state
      refine ⟨hstate, fun m hm => ?_⟩
      rcases List.mem_or_eq_of_mem_set hm with hm | rfl
      · exact h.tasks m hm
      · exact hobeys.reply hreply
    · exact h

/-! ## Runs whose steps are good -/

/-- `P` holds if all steps so far were good. -/
def Under (good : Step Call Event σ → Prop) (P : Config Call Event σ → Prop)
    (c : Config Call Event σ) : Prop :=
  (∀ step ∈ c.history, good step) → P c

theorem Under.stable {w : World Value σ Answer Event} {good : Step Call Event σ → Prop}
    {P : Config Call Event σ → Prop}
    (h : ∀ c e, P c → good ⟨c.state, .event e, w.interfere e c.state⟩ → P (c.event w e)) :
    Stable w (Under good P) := by
  intro c e hP hall
  refine h c e (hP fun step hstep => hall step (List.mem_append_left _ hstep)) ?_
  exact hall _ (List.mem_append_right _ (List.mem_singleton_self _))

/-- A step of the program itself. -/
theorem Under.served {w : World Value σ Answer Event} {good : Step Call Event σ → Prop}
    {P Q : Config Call Event σ → Prop} {c : Config Call Event σ} {k : Call} {a : Answer}
    (hP : Under good P c)
    (h : P c → good ⟨c.state, .call k (w.serve k a c.state).1.isNone, (w.serve k a c.state).2⟩ →
      Q (c.served w k a)) : Under good Q (c.served w k a) := by
  intro hall
  refine h (hP fun step hstep => hall step (List.mem_append_left _ hstep)) ?_
  exact hall _ (List.mem_append_right _ (List.mem_singleton_self _))

/-- Some step was not good. -/
def Spoilt (good : Step Call Event σ → Prop) (c : Config Call Event σ) : Prop :=
  ∃ step ∈ c.history, ¬ good step

theorem Spoilt.under {good : Step Call Event σ → Prop} {P : Config Call Event σ → Prop}
    {c : Config Call Event σ} (h : Spoilt good c) : Under good P c := by
  intro hall
  obtain ⟨step, hstep, hbad⟩ := h
  exact absurd (hall step hstep) hbad

theorem Spoilt.triple {w : World Value σ Answer Event} {good : Step Call Event σ → Prop}
    {post : Except ε α → Config Call Event σ → Prop} {crash : Config Call Event σ → Prop}
    (m : Prog Value ε α) (hpost : ∀ result c, Spoilt good c → post result c)
    (hcrash : ∀ c, Spoilt good c → crash c) : Triple w (Spoilt good) m post crash := by
  have hmore : ∀ (c : Config Call Event σ) (step : Step Call Event σ) (s : σ), Spoilt good c →
      Spoilt good ⟨c.history ++ [step], s⟩ := by
    rintro c step s ⟨bad, hmem, hbad⟩
    exact ⟨bad, List.mem_append_left _ hmem, hbad⟩
  have hmakes : m.Makes fun _ => True := by
    induction m with
    | pure a => trivial
    | throw e => trivial
    | call k next ih => exact ⟨trivial, ih⟩
  refine (Triple.keep hmakes (fun c e h => hmore c _ _ h) hcrash
    (fun k _ c a h => hmore c _ _ h)).weaken (fun _ h => h) ?_
  exact fun result c h => hpost result c h

/-- What has been found out about a run whose steps were good. -/
theorem Triple.under_exists {ι : Type} {w : World Value σ Answer Event}
    {good : Step Call Event σ → Prop} {P : ι → Config Call Event σ → Prop} {m : Prog Value ε α}
    {post : Except ε α → Config Call Event σ → Prop} {crash : Config Call Event σ → Prop}
    (h : ∀ i, Triple w (Under good (P i)) m post crash)
    (hpost : ∀ result c, Spoilt good c → post result c) (hcrash : ∀ c, Spoilt good c → crash c) :
    Triple w (Under good fun c => ∃ i, P i c) m post crash := by
  intro c hP
  by_cases hall : ∀ step ∈ c.history, good step
  · obtain ⟨i, hi⟩ := hP hall
    exact h i c fun _ => hi
  · obtain ⟨step, hstep⟩ := not_forall.mp hall
    exact Spoilt.triple m hpost hcrash c ⟨step, Classical.not_imp.mp hstep⟩

/-- **What a program that obeys keeps**, in runs whose steps are good. -/
theorem Triple.obey {w : World Value σ Answer Event} {good : Step Call Event σ → Prop}
    {P : Config Call Event σ → Prop} {allow : (k : Call) → Value k → Prop} {K : Call → Prop}
    {m : Prog Value ε α} (hm : m.Obeys allow K) (hstable : Stable w (Under good P))
    (hkeep : ∀ k a c, K k → P c →
      good ⟨c.state, .call k (w.serve k a c.state).1.isNone, (w.serve k a c.state).2⟩ →
        P (c.served w k a) ∧ ∀ v, (w.serve k a c.state).1 = some v → allow k v) :
    Triple w (Under good P) m (fun _ => Under good P) (Under good P) := by
  induction m with
  | pure a => exact fun c h => h
  | throw e => exact fun c h => h
  | call k next ih =>
    -- a reply that is not allowed comes with a step that is not good
    refine Triple.call (R := fun reply c => Under good P c ∧
      ((∀ v, reply = some v → allow k v) ∨ Spoilt good c)) hstable (fun c h => h) ?_ ?_
    · intro c a h
      refine ⟨Under.served h fun hP hgood => (hkeep k a c hm.1 hP hgood).1, ?_⟩
      by_cases hall : ∀ step ∈ (c.served w k a).history, good step
      · have hbefore : ∀ step ∈ c.history, good step := fun step hstep =>
          hall step (List.mem_append_left _ hstep)
        have hlast := hall _ (List.mem_append_right _ (List.mem_singleton_self _))
        exact Or.inl (hkeep k a c hm.1 (h hbefore) hlast).2
      · obtain ⟨step, hstep⟩ := not_forall.mp hall
        exact Or.inr ⟨step, Classical.not_imp.mp hstep⟩
    · intro reply
      by_cases hallowed : ∀ v, reply = some v → allow k v
      · have hobeys : (next reply).Obeys allow K := by
          cases reply with
          | none => exact hm.2.1
          | some v => exact hm.2.2 v (hallowed v rfl)
        exact (ih reply hobeys).weaken (fun c h => h.1) fun _ _ h => h
      · refine (Spoilt.triple (next reply) (fun _ _ h => h.under) fun _ h => h.under).weaken ?_
          fun _ _ h => h
        rintro c ⟨-, hother⟩
        exact hother.resolve_left hallowed

/-! ## What a program returns -/

/-- Every value that the program may return satisfies `Q`. -/
def Prog.Yields (Q : α → Prop) : Prog Value ε α → Prop
  | .pure a => Q a
  | .throw _ => True
  | .call _ next => ∀ reply, (next reply).Yields Q

theorem Prog.Yields.bind {Q : α → Prop} {R : β → Prop} {m : Prog Value ε α}
    {f : α → Prog Value ε β} (hm : m.Yields Q) (hf : ∀ a, Q a → (f a).Yields R) :
    (m.bind f).Yields R := by
  induction m with
  | pure a => exact hf a hm
  | throw e => trivial
  | call k next ih => exact fun reply => ih reply (hm reply)

theorem Prog.Yields.any {m : Prog Value ε α} : m.Yields fun _ => True := by
  induction m with
  | pure a => trivial
  | throw e => trivial
  | call k next ih => exact ih

theorem Prog.Yields.attempt {Q : α → Prop} {m : Prog Value ε α} (hm : m.Yields Q) :
    m.attempt.Yields fun result => ∀ a, result = .ok a → Q a := by
  induction m with
  | pure a => exact fun b hb => (Except.ok.inj hb) ▸ hm
  | throw e => exact fun b hb => by cases hb
  | call k next ih => exact fun reply => ih reply (hm reply)

theorem wp_yields {w : World Value σ Answer Event}
    {post : Except ε α → Config Call Event σ → Prop} {crash : Config Call Event σ → Prop}
    {m : Prog Value ε α} {Q : α → Prop} {c : Config Call Event σ} (hm : m.Yields Q)
    (h : wp w post crash m c) :
    wp w (fun result c => post result c ∧ ∀ a, result = .ok a → Q a) crash m c := by
  induction m generalizing c with
  | pure a => exact ⟨h, fun b hb => Except.ok.inj hb ▸ hm⟩
  | throw e => exact ⟨h, fun b hb => by cases hb⟩
  | call k next ih =>
    exact fun events => ⟨(h events).1, fun a => ih _ (hm _) ((h events).2 a)⟩

theorem Prog.Obeys.bind_yields {allow : (k : Call) → Value k → Prop} {K : Call → Prop}
    {m : Prog Value ε α} {f : α → Prog Value ε β} {Q : α → Prop} (hm : m.Obeys allow K)
    (hQ : m.Yields Q) (hf : ∀ a, Q a → (f a).Obeys allow K) : (m.bind f).Obeys allow K := by
  induction m with
  | pure a => exact hf a hQ
  | throw e => trivial
  | call k next ih =>
    exact ⟨hm.1, ih none hm.2.1 (hQ none), fun v hv => ih (some v) (hm.2.2 v hv) (hQ (some v))⟩

/-- An invariant is kept along a value that may be returned. -/
theorem Triple.bind_yields {w : World Value σ Answer Event} {P : Config Call Event σ → Prop}
    {m : Prog Value ε α} {f : α → Prog Value ε β} {Q : α → Prop}
    (hm : Triple w P m (fun _ => P) P) (hQ : m.Yields Q)
    (hf : ∀ a, Q a → Triple w P (f a) (fun _ => P) P) : Triple w P (m.bind f) (fun _ => P) P := by
  intro c hP
  refine wp_bind.mpr (wp_mono ?_ (wp_yields hQ (hm c hP)))
  rintro (e | a) c ⟨h, hvalue⟩
  · exact h
  · exact hf a (hvalue a rfl) c h

theorem Triple.bind_keeps {w : World Value σ Answer Event} {P : Config Call Event σ → Prop}
    {m : Prog Value ε α} {f : α → Prog Value ε β} (hm : Triple w P m (fun _ => P) P)
    (hf : ∀ a, Triple w P (f a) (fun _ => P) P) : Triple w P (m.bind f) (fun _ => P) P :=
  Triple.bind_yields hm Prog.Yields.any fun a _ => hf a

end Fallible
