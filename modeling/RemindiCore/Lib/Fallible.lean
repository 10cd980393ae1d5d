import Mathlib.Data.List.Basic

/-!
# Programs of fallible calls

A `Prog` makes calls that may fail.  It runs in a world that answers the calls,
may change by itself between two of them, and may stop at any of them: `run`
plays a list of moves, and a program that has not returned when the moves are
used up has been stopped there, so the lists of moves give every interleaving
and every crash.

A `Triple` says what holds when the program has returned and what holds wherever
it is stopped.  What holds at a call must be stable under the world's own
changes (`Triple.call`); triples compose along `>>=` (`Triple.bind`).

Where the world only answers, `Ensures` says the same of the states alone, for
every answer of an allowed kind (`Ensures.run`).
-/

namespace Fallible

/-! ## Programs -/

/-- A program.  The reply to a call is a value, or nothing when the call fails. -/
inductive Prog {Call : Type} (Value : Call → Type) (ε α : Type) where
  | pure (a : α)
  | throw (e : ε)
  | call (k : Call) (next : Option (Value k) → Prog Value ε α)

namespace Prog

variable {Call : Type} {Value : Call → Type} {ε α β : Type}

def bind : Prog Value ε α → (α → Prog Value ε β) → Prog Value ε β
  | .pure a, f => f a
  | .throw e, _ => .throw e
  | .call k next, f => .call k fun reply => (next reply).bind f

instance : Monad (Prog Value ε) where
  pure := .pure
  bind := .bind

/-- A call whose failure is the error `e`. -/
def perform (k : Call) (e : ε) : Prog Value ε (Value k) :=
  .call k fun reply => match reply with
    | some value => .pure value
    | none => .throw e

/-- A call whose failure the program does not look at. -/
def ignore (k : Call) : Prog Value ε Unit := .call k fun _ => .pure ()

/-- Run a program and return its result, an error too. -/
def attempt : Prog Value ε α → Prog Value ε (Except ε α)
  | .pure a => .pure (.ok a)
  | .throw e => .pure (.error e)
  | .call k next => .call k fun reply => (next reply).attempt

def ofExcept : Except ε α → Prog Value ε α
  | .ok a => .pure a
  | .error e => .throw e

/-- All the calls the program may make satisfy `K`. -/
def Makes (K : Call → Prop) : Prog Value ε α → Prop
  | .pure _ => True
  | .throw _ => True
  | .call k next => K k ∧ ∀ reply, (next reply).Makes K

variable {K : Call → Prop}

@[simp] theorem pure_eq (a : α) : (Pure.pure a : Prog Value ε α) = .pure a := rfl

@[simp] theorem bind_eq (m : Prog Value ε α) (f : α → Prog Value ε β) : m >>= f = m.bind f := rfl

@[simp] theorem makes_pure (a : α) : (Prog.pure a : Prog Value ε α).Makes K := trivial

@[simp] theorem makes_throw (e : ε) : (Prog.throw e : Prog Value ε α).Makes K := trivial

theorem bind_assoc {γ : Type} (m : Prog Value ε α) (f : α → Prog Value ε β)
    (g : β → Prog Value ε γ) : (m.bind f).bind g = m.bind fun a => (f a).bind g := by
  induction m with
  | pure a => rfl
  | throw e => rfl
  | call k next ih => exact congrArg (Prog.call k) (funext ih)

theorem Makes.bind {m : Prog Value ε α} {f : α → Prog Value ε β} (hm : m.Makes K)
    (hf : ∀ a, (f a).Makes K) : (m.bind f).Makes K := by
  induction m with
  | pure a => exact hf a
  | throw e => trivial
  | call k next ih => exact ⟨hm.1, fun reply => ih reply (hm.2 reply)⟩

theorem Makes.attempt {m : Prog Value ε α} (hm : m.Makes K) : m.attempt.Makes K := by
  induction m with
  | pure a => trivial
  | throw e => trivial
  | call k next ih => exact ⟨hm.1, fun reply => ih reply (hm.2 reply)⟩

theorem Makes.perform {k : Call} {e : ε} (hk : K k) :
    (Prog.perform k e : Prog Value ε _).Makes K :=
  ⟨hk, fun reply => by cases reply <;> trivial⟩

theorem Makes.ignore {k : Call} (hk : K k) : (Prog.ignore k : Prog Value ε Unit).Makes K :=
  ⟨hk, fun _ => trivial⟩

theorem Makes.ofExcept {x : Except ε α} : (Prog.ofExcept x : Prog Value ε α).Makes K := by
  cases x <;> trivial

end Prog

/-! ## Running a program -/

/-- How the world answers a call, and how it changes by itself. -/
structure World {Call : Type} (Value : Call → Type) (σ Answer Event : Type) where
  serve : (k : Call) → Answer → σ → Option (Value k) × σ
  interfere : Event → σ → σ

inductive Move (Answer Event : Type) where
  | answer (a : Answer)
  | event (e : Event)

inductive Action (Call Event : Type) where
  | call (k : Call) (failed : Bool)
  | event (e : Event)

/-- One step of a run. -/
structure Step (Call Event σ : Type) where
  before : σ
  action : Action Call Event
  after : σ

/-- The steps so far, and the state they have led to. -/
structure Config (Call Event σ : Type) where
  history : List (Step Call Event σ)
  state : σ

section

variable {Call : Type} {Value : Call → Type} {σ Answer Event ε α β : Type}

def Config.start (s : σ) : Config Call Event σ where
  history := []
  state := s

def Config.event (w : World Value σ Answer Event) (c : Config Call Event σ) (e : Event) :
    Config Call Event σ where
  history := c.history ++ [⟨c.state, .event e, w.interfere e c.state⟩]
  state := w.interfere e c.state

def Config.served (w : World Value σ Answer Event) (c : Config Call Event σ) (k : Call)
    (a : Answer) : Config Call Event σ where
  history := c.history ++
    [⟨c.state, .call k (w.serve k a c.state).1.isNone, (w.serve k a c.state).2⟩]
  state := (w.serve k a c.state).2

/-- Play the moves: the result is missing when the program is stopped at a call. -/
def run (w : World Value σ Answer Event) :
    List (Move Answer Event) → Config Call Event σ → Prog Value ε α →
      Config Call Event σ × Option (Except ε α)
  | _, c, .pure a => (c, some (.ok a))
  | _, c, .throw e => (c, some (.error e))
  | [], c, .call _ _ => (c, none)
  | .event e :: moves, c, .call k next => run w moves (c.event w e) (.call k next)
  | .answer a :: moves, c, .call k next =>
    run w moves (c.served w k a) (next (w.serve k a c.state).1)

/-- A call that fails ends the program. -/
theorem run_perform_none {w : World Value σ Answer Event} {k : Call} {e : ε} {a : Answer}
    {c : Config Call Event σ} {f : Value k → Prog Value ε α} (h : (w.serve k a c.state).1 = none)
    (moves : List (Move Answer Event)) :
    run w (.answer a :: moves) c ((Prog.perform k e).bind f) =
      (c.served w k a, some (.error e)) := by
  show run w moves (c.served w k a) (Prog.bind _ f) = _
  rw [h]
  cases moves <;> rfl

/-! ## Triples -/

variable {w : World Value σ Answer Event}

/-- An assertion that the world's own changes keep. -/
def Stable (w : World Value σ Answer Event) (P : Config Call Event σ → Prop) : Prop :=
  ∀ c e, P c → P (c.event w e)

/-- What must hold for `post` to hold at the return of the program, and `crash`
wherever it is stopped. -/
def wp (w : World Value σ Answer Event) (post : Except ε α → Config Call Event σ → Prop)
    (crash : Config Call Event σ → Prop) : Prog Value ε α → Config Call Event σ → Prop
  | .pure a, c => post (.ok a) c
  | .throw e, c => post (.error e) c
  | .call k next, c => ∀ events : List Event,
    crash (events.foldl (Config.event w) c) ∧
      ∀ a, wp w post crash (next (w.serve k a (events.foldl (Config.event w) c).state).1)
        ((events.foldl (Config.event w) c).served w k a)

def Triple (w : World Value σ Answer Event) (P : Config Call Event σ → Prop)
    (m : Prog Value ε α) (post : Except ε α → Config Call Event σ → Prop)
    (crash : Config Call Event σ → Prop) : Prop :=
  ∀ c, P c → wp w post crash m c

variable {P P' : Config Call Event σ → Prop} {m : Prog Value ε α}
  {post post' : Except ε α → Config Call Event σ → Prop} {crash : Config Call Event σ → Prop}

/-- **A triple speaks about every run.** -/
theorem Triple.run (h : Triple w P m post crash) (moves : List (Move Answer Event))
    {c : Config Call Event σ} (hP : P c) :
    (∀ result, (run w moves c m).2 = some result → post result (Fallible.run w moves c m).1) ∧
      ((Fallible.run w moves c m).2 = none → crash (Fallible.run w moves c m).1) := by
  suffices hwp : ∀ (moves : List (Move Answer Event)) c (m : Prog Value ε α), wp w post crash m c →
      (∀ result, (Fallible.run w moves c m).2 = some result →
        post result (Fallible.run w moves c m).1) ∧
      ((Fallible.run w moves c m).2 = none → crash (Fallible.run w moves c m).1) from
    hwp moves c m (h c hP)
  intro moves
  induction moves with
  | nil =>
    intro c m hwp
    cases m with
    | pure a => exact ⟨fun result hr => Option.some.inj hr ▸ hwp, fun hn => by cases hn⟩
    | throw e => exact ⟨fun result hr => Option.some.inj hr ▸ hwp, fun hn => by cases hn⟩
    | call k next => exact ⟨fun result hr => (by cases hr), fun _ => (hwp []).1⟩
  | cons move moves ih =>
    intro c m hwp
    cases m with
    | pure a => exact ⟨fun result hr => Option.some.inj hr ▸ hwp, fun hn => by cases hn⟩
    | throw e => exact ⟨fun result hr => Option.some.inj hr ▸ hwp, fun hn => by cases hn⟩
    | call k next =>
      cases move with
      | event e => exact ih (c.event w e) (.call k next) fun events => hwp (e :: events)
      | answer a => exact ih (c.served w k a) _ ((hwp []).2 a)

theorem Triple.pure {a : α} (h : ∀ c, P c → post (.ok a) c) : Triple w P (.pure a) post crash := h

theorem Triple.throw {e : ε} (h : ∀ c, P c → post (.error e) c) :
    Triple w P (.throw e) post crash := h

/-- What holds at a call holds at every crash there, and is kept until it is answered. -/
theorem Triple.call {k : Call} {next : Option (Value k) → Prog Value ε α}
    {R : Option (Value k) → Config Call Event σ → Prop} (hstable : Stable w P)
    (hcrash : ∀ c, P c → crash c)
    (hserve : ∀ c a, P c → R (w.serve k a c.state).1 (c.served w k a))
    (hnext : ∀ reply, Triple w (R reply) (next reply) post crash) :
    Triple w P (.call k next) post crash := by
  intro c hP events
  have hkept : P (events.foldl (Config.event w) c) := by
    induction events generalizing c with
    | nil => exact hP
    | cons e events ih => exact ih (c.event w e) (hstable c e hP)
  exact ⟨hcrash _ hkept, fun a => hnext _ _ (hserve _ a hkept)⟩

theorem wp_bind {m : Prog Value ε α} {f : α → Prog Value ε β}
    {post : Except ε β → Config Call Event σ → Prop} {c : Config Call Event σ} :
    wp w post crash (m.bind f) c ↔
      wp w (fun result => match result with
        | .ok a => wp w post crash (f a)
        | .error e => post (.error e)) crash m c := by
  induction m generalizing c with
  | pure a => rfl
  | throw e => rfl
  | call k next ih => exact forall_congr' fun _ => and_congr_right fun _ => forall_congr' fun _ => ih _

theorem wp_attempt {m : Prog Value ε α} {post : Except ε (Except ε α) → Config Call Event σ → Prop}
    {c : Config Call Event σ} :
    wp w post crash m.attempt c ↔ wp w (fun result => post (.ok result)) crash m c := by
  induction m generalizing c with
  | pure a => rfl
  | throw e => rfl
  | call k next ih => exact forall_congr' fun _ => and_congr_right fun _ => forall_congr' fun _ => ih _

theorem wp_mono {m : Prog Value ε α} {c : Config Call Event σ}
    (hpost : ∀ result c, post result c → post' result c) (h : wp w post crash m c) :
    wp w post' crash m c := by
  induction m generalizing c with
  | pure a => exact hpost _ _ h
  | throw e => exact hpost _ _ h
  | call k next ih => exact fun events => ⟨(h events).1, fun a => ih _ ((h events).2 a)⟩

theorem Triple.bind {m : Prog Value ε α} {f : α → Prog Value ε β}
    {post : Except ε β → Config Call Event σ → Prop} {R : α → Config Call Event σ → Prop}
    (hm : Triple w P m (fun result => match result with
      | .ok a => R a
      | .error e => post (.error e)) crash)
    (hf : ∀ a, Triple w (R a) (f a) post crash) : Triple w P (m.bind f) post crash := by
  intro c hP
  refine wp_bind.mpr (wp_mono ?_ (hm c hP))
  rintro (e | a) c h
  · exact h
  · exact hf a c h

theorem Triple.attempt {post : Except ε (Except ε α) → Config Call Event σ → Prop}
    (h : Triple w P m (fun result => post (.ok result)) crash) :
    Triple w P m.attempt post crash :=
  fun c hP => wp_attempt.mpr (h c hP)

theorem Triple.ofExcept {x : Except ε α} (h : ∀ c, P c → post x c) :
    Triple w P (.ofExcept x) post crash := by
  cases x with
  | ok a => exact h
  | error e => exact h

theorem Triple.weaken (h : Triple w P m post crash) (hP : ∀ c, P' c → P c)
    (hpost : ∀ result c, post result c → post' result c) : Triple w P' m post' crash :=
  fun c hP' => wp_mono hpost (h c (hP c hP'))

theorem wp_stop_mono {crash' : Config Call Event σ → Prop} {m : Prog Value ε α}
    {c : Config Call Event σ} (hcrash : ∀ c, crash c → crash' c) (h : wp w post crash m c) :
    wp w post crash' m c := by
  induction m generalizing c with
  | pure a => exact h
  | throw e => exact h
  | call k next ih => exact fun events => ⟨hcrash _ (h events).1, fun a => ih _ ((h events).2 a)⟩

theorem Triple.stop_mono {crash' : Config Call Event σ → Prop} (h : Triple w P m post crash)
    (hcrash : ∀ c, crash c → crash' c) : Triple w P m post crash' :=
  fun c hP => wp_stop_mono hcrash (h c hP)

/-- One call with an error for its failure. -/
theorem Triple.perform {k : Call} {e : ε} {post : Except ε (Value k) → Config Call Event σ → Prop}
    (hstable : Stable w P) (hcrash : ∀ c, P c → crash c)
    (hok : ∀ c a value, P c → (w.serve k a c.state).1 = some value → post (.ok value) (c.served w k a))
    (herror : ∀ c a, P c → (w.serve k a c.state).1 = none → post (.error e) (c.served w k a)) :
    Triple w P (.perform k e) post crash := by
  refine Triple.call (R := fun reply c => match reply with
    | some value => post (.ok value) c
    | none => post (.error e) c) hstable hcrash (fun c a hP => ?_) fun reply => ?_
  · split
    · exact hok c a _ hP ‹_›
    · exact herror c a hP ‹_›
  · cases reply with
    | none => exact fun c h => h
    | some value => exact fun c h => h

theorem Triple.ignore {k : Call} {post : Except ε Unit → Config Call Event σ → Prop}
    (hstable : Stable w P) (hcrash : ∀ c, P c → crash c)
    (hserve : ∀ c a, P c → post (.ok ()) (c.served w k a)) :
    Triple w P (.ignore k) post crash :=
  Triple.call (R := fun _ => post (.ok ())) hstable hcrash hserve fun _ _ h => h

/-- **What every call keeps, the program keeps.** -/
theorem Triple.keep {K : Call → Prop} (hm : m.Makes K) (hstable : Stable w P)
    (hcrash : ∀ c, P c → crash c) (hkeep : ∀ k, K k → ∀ c a, P c → P (c.served w k a)) :
    Triple w P m (fun _ => P) crash := by
  induction m with
  | pure a => exact fun c h => h
  | throw e => exact fun c h => h
  | call k next ih =>
    exact Triple.call (R := fun _ => P) hstable hcrash (fun c a hP => hkeep k hm.1 c a hP)
      fun reply => ih reply (hm.2 reply)

end

/-! ## Programs that run by themselves -/

section

variable {Call : Type} {Value : Call → Type} {σ Answer Event ε α β : Type}

/-- Whichever allowed answers the program is given, `stop` holds at each of its calls
and `post` when it returns. -/
def Ensures (w : World Value σ Answer Event) (allowed : Answer → Prop) (stop : σ → Prop)
    (post : Except ε α → σ → Prop) : Prog Value ε α → σ → Prop
  | .pure a, s => post (.ok a) s
  | .throw e, s => post (.error e) s
  | .call k next, s => stop s ∧ ∀ a, allowed a →
    Ensures w allowed stop post (next (w.serve k a s).1) (w.serve k a s).2

variable {w : World Value σ Answer Event} {allowed : Answer → Prop} {stop : σ → Prop}
  {post post' : Except ε α → σ → Prop} {m : Prog Value ε α} {s t : σ}

/-- **`Ensures` speaks about every run.** -/
theorem Ensures.run (h : Ensures w allowed stop post m s) (answers : List Answer)
    (hallowed : ∀ a ∈ answers, allowed a) :
    (∀ result, (run w (answers.map .answer) (.start s) m).2 = some result →
        post result (Fallible.run w (answers.map .answer) (.start s) m).1.state) ∧
      ((Fallible.run w (answers.map .answer) (.start s) m).2 = none →
        stop (Fallible.run w (answers.map .answer) (.start s) m).1.state) := by
  suffices hall : ∀ (answers : List Answer) (m : Prog Value ε α) (c : Config Call Event σ),
      Ensures w allowed stop post m c.state → (∀ a ∈ answers, allowed a) →
      (∀ result, (Fallible.run w (answers.map .answer) c m).2 = some result →
          post result (Fallible.run w (answers.map .answer) c m).1.state) ∧
        ((Fallible.run w (answers.map .answer) c m).2 = none →
          stop (Fallible.run w (answers.map .answer) c m).1.state) from
    hall answers m (.start s) h hallowed
  clear h hallowed
  intro answers
  induction answers with
  | nil =>
    intro m c h _
    cases m with
    | pure a => exact ⟨fun result hr => Option.some.inj hr ▸ h, fun hn => by cases hn⟩
    | throw e => exact ⟨fun result hr => Option.some.inj hr ▸ h, fun hn => by cases hn⟩
    | call k next => exact ⟨fun result hr => (by cases hr), fun _ => h.1⟩
  | cons a answers ih =>
    intro m c h hallowed
    obtain ⟨hfirst, hrest⟩ := List.forall_mem_cons.mp hallowed
    cases m with
    | pure a => exact ⟨fun result hr => Option.some.inj hr ▸ h, fun hn => by cases hn⟩
    | throw e => exact ⟨fun result hr => Option.some.inj hr ▸ h, fun hn => by cases hn⟩
    | call k next => exact ih _ (c.served w k a) (h.2 a hfirst) hrest

/-- What has happened before is not looked at. -/
theorem run_state (moves : List (Move Answer Event)) (c d : Config Call Event σ)
    (m : Prog Value ε α) (h : c.state = d.state) :
    (run w moves c m).1.state = (run w moves d m).1.state ∧
      (run w moves c m).2 = (run w moves d m).2 := by
  induction moves generalizing c d m with
  | nil => cases m <;> exact ⟨h, rfl⟩
  | cons move moves ih =>
    cases m with
    | pure a => exact ⟨h, rfl⟩
    | throw e => exact ⟨h, rfl⟩
    | call k next =>
      cases move with
      | event e => exact ih _ _ _ (congrArg (w.interfere e) h)
      | answer a =>
        have hserved := ih (c.served w k a) (d.served w k a) (next (w.serve k a c.state).1)
          (congrArg (fun s => (w.serve k a s).2) h)
        rw [h] at hserved
        simp only [run]
        rw [h]
        exact hserved

/-- A call that succeeds goes on with its value. -/
theorem run_perform_some {k : Call} {e : ε} {a : Answer} {c : Config Call Event σ}
    {f : Value k → Prog Value ε α} {v : Value k} (h : (w.serve k a c.state).1 = some v)
    (moves : List (Move Answer Event)) :
    run w (.answer a :: moves) c ((Prog.perform k e).bind f) =
      run w moves (c.served w k a) (f v) := by
  show run w moves (c.served w k a) (Prog.bind _ f) = _
  rw [h]
  rfl

theorem Ensures.mono (h : Ensures w allowed stop post m s)
    (hpost : ∀ result t, post result t → post' result t) : Ensures w allowed stop post' m s := by
  induction m generalizing s with
  | pure a => exact hpost _ _ h
  | throw e => exact hpost _ _ h
  | call k next ih => exact ⟨h.1, fun a ha => ih _ (h.2 a ha)⟩

theorem Ensures.bind {post : Except ε β → σ → Prop} {f : α → Prog Value ε β}
    (h : Ensures w allowed stop (fun result t => match result with
      | .ok a => Ensures w allowed stop post (f a) t
      | .error e => post (.error e) t) m s) : Ensures w allowed stop post (m.bind f) s := by
  induction m generalizing s with
  | pure a => exact h
  | throw e => exact h
  | call k next ih => exact ⟨h.1, fun a ha => ih _ (h.2 a ha)⟩

theorem Ensures.attempt {post : Except ε (Except ε α) → σ → Prop}
    (h : Ensures w allowed stop (fun result => post (.ok result)) m s) :
    Ensures w allowed stop post m.attempt s := by
  induction m generalizing s with
  | pure a => exact h
  | throw e => exact h
  | call k next ih => exact ⟨h.1, fun a ha => ih _ (h.2 a ha)⟩

theorem Ensures.perform {k : Call} {e : ε} {post : Except ε (Value k) → σ → Prop} (hstop : stop s)
    (hok : ∀ a value, allowed a → (w.serve k a s).1 = some value →
      post (.ok value) (w.serve k a s).2)
    (herror : ∀ a, allowed a → (w.serve k a s).1 = none → post (.error e) (w.serve k a s).2) :
    Ensures w allowed stop post (.perform k e) s := by
  refine ⟨hstop, fun a ha => ?_⟩
  cases hreply : (w.serve k a s).1 with
  | none => exact herror a ha hreply
  | some value => exact hok a value ha hreply

theorem Ensures.ignore {k : Call} {post : Except ε Unit → σ → Prop} (hstop : stop s)
    (hserve : ∀ a, allowed a → post (.ok ()) (w.serve k a s).2) :
    Ensures w allowed stop post (.ignore k) s :=
  ⟨hstop, fun a ha => hserve a ha⟩

theorem Ensures.ofExcept {x : Except ε α} (h : post x s) :
    Ensures w allowed stop post (.ofExcept x) s := by
  cases x with
  | ok a => exact h
  | error e => exact h

/-- What every call keeps, the program keeps. -/
theorem Ensures.keep {K : Call → Prop} {P : σ → Prop} (hm : m.Makes K)
    (hstop : ∀ t, P t → stop t) (hkeep : ∀ k, K k → ∀ t a, allowed a → P t → P (w.serve k a t).2)
    (hs : P s) : Ensures w allowed stop (fun _ => P) m s := by
  induction m generalizing s with
  | pure a => exact hs
  | throw e => exact hs
  | call k next ih =>
    exact ⟨hstop s hs, fun a ha => ih _ (hm.2 _) (hkeep k hm.1 s a ha hs)⟩

/-- The calls of a run are those that the program may make. -/
theorem Prog.Makes.history {K : Call → Prop} (hm : m.Makes K)
    (moves : List (Move Answer Event)) (s : σ) {step : Step Call Event σ}
    (hstep : step ∈ (Fallible.run w moves (.start s) m).1.history) {k : Call} {failed : Bool}
    (hk : step.action = .call k failed) : K k := by
  let P : Config Call Event σ → Prop := fun c =>
    ∀ step ∈ c.history, ∀ k failed, step.action = .call k failed → K k
  have htriple : Triple w P m (fun _ => P) P := by
    refine Triple.keep hm ?_ (fun _ h => h) ?_
    · intro c e h step hstep k failed hk
      rcases List.mem_append.mp hstep with hstep | hstep
      · exact h step hstep k failed hk
      · obtain rfl := List.mem_singleton.mp hstep
        cases hk
    · intro k hk c a h step hstep k' failed hk'
      rcases List.mem_append.mp hstep with hstep | hstep
      · exact h step hstep k' failed hk'
      · obtain rfl := List.mem_singleton.mp hstep
        cases hk'
        exact hk
  have hstart : P (.start s) := fun step hstep => (List.not_mem_nil hstep).elim
  have hrun := htriple.run moves hstart
  have hP : P (Fallible.run w moves (.start s) m).1 := by
    cases hresult : (Fallible.run w moves (.start s) m).2 with
    | none => exact hrun.2 hresult
    | some result => exact hrun.1 result hresult
  exact hP step hstep k failed hk

/-! ### The number of calls -/

/-- The program makes at most `n` calls. -/
def Prog.Within : Nat → Prog Value ε α → Prop
  | _, .pure _ => True
  | _, .throw _ => True
  | 0, .call _ _ => False
  | n + 1, .call _ next => ∀ reply, (next reply).Within n

theorem Prog.Within.mono {n n' : Nat} (h : m.Within n) (hle : n ≤ n') : m.Within n' := by
  induction m generalizing n n' with
  | pure a => cases n' <;> trivial
  | throw e => cases n' <;> trivial
  | call k next ih =>
    cases n with
    | zero => cases h
    | succ n =>
      cases n' with
      | zero => omega
      | succ n' => exact fun reply => ih reply (h reply) (by omega)

theorem Prog.Within.bind {n k : Nat} {f : α → Prog Value ε β} (h : m.Within n)
    (hf : ∀ a, (f a).Within k) : (m.bind f).Within (n + k) := by
  induction m generalizing n with
  | pure a => exact (hf a).mono (by omega)
  | throw e => cases hn : n + k <;> trivial
  | call k next ih =>
    cases n with
    | zero => cases h
    | succ n =>
      rw [Nat.succ_add]
      exact fun reply => ih reply (h reply)

theorem Prog.Within.perform {k : Call} {e : ε} : (Prog.perform k e : Prog Value ε _).Within 1 :=
  fun reply => by cases reply <;> trivial

theorem Prog.Within.ignore {k : Call} : (Prog.ignore k : Prog Value ε Unit).Within 1 :=
  fun _ => trivial

/-- **Enough answers let the program return.** -/
theorem Prog.Within.returns {n : Nat} (h : m.Within n) (answers : List Answer)
    (hlength : n ≤ answers.length) (c : Config Call Event σ) :
    ∃ result, (run w (answers.map .answer) c m).2 = some result := by
  induction m generalizing n answers c with
  | pure a => cases answers <;> exact ⟨_, rfl⟩
  | throw e => cases answers <;> exact ⟨_, rfl⟩
  | call k next ih =>
    cases n with
    | zero => cases h
    | succ n =>
      cases answers with
      | nil => cases hlength
      | cons a answers => exact ih _ (h _) _ (Nat.le_of_succ_le_succ hlength) (c.served w k a)

end

end Fallible
