import RemindiCore.Proof.DirectoryPrograms

/-!
# Whose files they are

An operation that has drawn an identifier owns the files of that name until it
has registered the backup.  From then on no operation uses them
(`Prepared.clean`), but for a retention run that has selected the record.
-/

namespace RemindiCore.Admin.Directory

open Fallible

variable {Page Write : Type} {x : Image Page Write → Option VerifiedFile}
  {s : Directory Page Write} {id : Uuid} {α : Type}

/-! ## Calls -/

/-- The pair of a backup, and what a restore puts into the place of the live database. -/
def Reserved (id : Uuid) (path : FilePath) : Prop :=
  path = .backup (backupFileName id) ∨ path = .manifest (backupFileName id) ∨ path = .live ∨
    ∃ operation, path = .staged operation

/-- A retention query does not select the backup. -/
def Unselected (id : Uuid) (k : Call Page Write) (s : Directory Page Write) : Prop :=
  k = .surplusBackups → ∀ record ∈ s.selected, record.id ≠ id

/-- What a retention query may reply. -/
def spared (id : Uuid) : (k : Call Page Write) → Value k → Prop
  | .surplusBackups, rows => ∀ record ∈ rows, record.id ≠ id
  | _, _ => True

/-- What is replied once the identifier has been drawn. -/
def allowed (id : Uuid) : (k : Call Page Write) → Value k → Prop
  | .surplusBackups, rows => ∀ record ∈ rows, record.id ≠ id
  | .nextId, other => other ≠ id
  | _, _ => True

theorem spared_of_allowed {k : Call Page Write} {v : Value k} (h : allowed id k v) :
    spared id k v := by
  cases k with
  | surplusBackups => exact h
  | _ => trivial

theorem spared_serve {k : Call Page Write} {a : Reply Page Write} {v : Value k}
    (h : Unselected id k s) (hv : (serve x k a s).1 = some v) : spared id k v := by
  cases k with
  | surplusBackups =>
    unfold serve at hv
    dsimp only at hv
    split at hv
    · rw [← Option.some.inj hv]
      exact h rfl
    · cases hv
  | _ => trivial

theorem allowed_serve {k : Call Page Write} {a : Reply Page Write} {v : Value k}
    (hused : id ∈ s.used) (h : Unselected id k s) (hv : (serve x k a s).1 = some v) :
    allowed id k v := by
  cases k with
  | surplusBackups => exact spared_serve (k := .surplusBackups) h hv
  | nextId =>
    rcases serve_nextId (x := x) a s with ⟨hnew, hserve⟩ | hserve
    · rw [hserve] at hv
      obtain rfl : a.id = v := Option.some.inj hv
      exact fun heq => hnew (heq ▸ hused)
    · rw [hserve] at hv
      cases hv
  | _ => trivial

theorem not_addsRecord {k : Call Page Write} (h : Avoids (Reserved id) k) : ¬ AddsRecord id k := by
  intro hadds
  cases k with
  | insertManifest manifest =>
    obtain rfl : manifest.id = id := hadds
    exact h (.manifest (backupFileName manifest.id)) (Or.inr (Or.inl rfl)) rfl
  | reopen => exact h .live (Or.inr (Or.inr (Or.inl rfl))) rfl
  | _ => exact hadds

theorem free_reserved {other : Uuid} (h : other ≠ id) : Free (Reserved id) other where
  temporary := by rintro (h | h | h | ⟨operation, h⟩) <;> cases h
  sidecar := by rintro (h | h | h | ⟨operation, h⟩) <;> cases h
  backup := by
    rintro (heq | heq | heq | ⟨operation, heq⟩)
    · exact h (backupFileName_injective (FilePath.backup.inj heq))
    all_goals cases heq
  manifest := by
    rintro (heq | heq | heq | ⟨operation, heq⟩)
    · cases heq
    · exact h (backupFileName_injective (FilePath.manifest.inj heq))
    all_goals cases heq

theorem freeRows_reserved {allow : (k : Call Page Write) → Value k → Prop}
    (hallow : ∀ k v, allow k v → spared id k v) : FreeRows allow (Reserved id) := by
  intro rows hrows record hrecord
  have hother : record.id ≠ id := hallow .surplusBackups rows hrows record hrecord
  exact ⟨(free_reserved hother).backup, (free_reserved hother).manifest⟩

/-! ## Programs -/

/-- The program uses nothing that is reserved, once the identifier is drawn. -/
def Clean (id : Uuid) (m : Program Page Write α) : Prop :=
  m.Obeys (allowed id) (Avoids (Reserved id))

/-- The program uses nothing that is reserved, whatever it draws. -/
def Quiet (id : Uuid) (m : Program Page Write α) : Prop :=
  m.Obeys (spared id) (Avoids (Reserved id))

/-- The program uses nothing that is reserved after it has registered the backup. -/
def Owns (id : Uuid) : Program Page Write α → Prop
  | .pure _ => True
  | .throw _ => True
  | .call k next =>
    (AddsRecord id k → ∀ reply, Clean id (next reply)) ∧
      (¬ AddsRecord id k → ∀ reply, Owns id (next reply))

theorem Quiet.clean {m : Program Page Write α} (h : Quiet id m) : Clean id m :=
  h.allow_mono fun _ _ => spared_of_allowed

theorem clean_operation (operation : Operation Page Write) : Clean id operation.program :=
  obeys_operation ⟨fun _ h => free_reserved h, freeRows_reserved fun _ _ => spared_of_allowed⟩
    operation

/-- What happens before the registration. -/
theorem Owns.past {β : Type} {m : Program Page Write α} {f : α → Program Page Write β}
    (hm : m.Makes fun k => ¬ AddsRecord id k) (hf : ∀ a, Owns id (f a)) :
    Owns id (m.bind f) := by
  induction m with
  | pure a => exact hf a
  | throw e => trivial
  | call k next ih => exact ⟨fun hadds => absurd hadds hm.1, fun _ reply => ih reply (hm.2 reply)⟩

theorem makes_publish_quietly (temporary : FilePath) (manifest : BackupManifest) :
    (publish temporary manifest : Program Page Write Unit).Makes fun k => ¬ AddsRecord id k := by
  unfold publish
  refine Prog.Makes.bind (Prog.Makes.perform fun h => h) fun _ => ?_
  refine Prog.Makes.bind (Prog.Makes.perform fun h => h) fun _ => ?_
  refine Prog.Makes.bind (Prog.Makes.perform fun h => h) fun _ => ?_
  refine Prog.Makes.bind (Prog.Makes.perform fun h => h) fun _ => ?_
  refine Prog.Makes.bind (Prog.Makes.perform fun h => h) fun _ => ?_
  refine Prog.Makes.bind (Prog.Makes.perform fun h => h) fun _ => ?_
  refine Prog.Makes.bind (Prog.Makes.perform fun h => h) fun _ => ?_
  exact Prog.Makes.perform fun h => h

theorem owns_registered {manifest : BackupManifest} {f : Unit → Program Page Write α}
    (hid : manifest.id = id) (hf : ∀ u, Clean id (f u)) :
    Owns id ((publish (.temporaryDatabase manifest.id.text) manifest).bind fun _ =>
      (Admin.perform (.insertManifest manifest) .database).bind fun _ => applyRetention.bind f) := by
  refine Owns.past (makes_publish_quietly _ _) fun _ => ⟨fun _ reply => ?_, fun h => absurd hid h⟩
  cases reply with
  | none => trivial
  | some u =>
    show Clean id (applyRetention.bind f)
    exact Prog.Obeys.bind (obeys_applyRetention (freeRows_reserved fun _ _ => spared_of_allowed)) hf

theorem owns_createAs (source : BackupSource) {f : BackupRecord → Program Page Write α}
    (hf : ∀ record, Clean id (f record)) : Owns id ((createAs source id).bind f) := by
  unfold createAs
  simp only [Prog.bind_eq, Prog.bind_assoc]
  refine Owns.past (Prog.Makes.perform fun h => h) fun _ => ?_
  refine Owns.past (Prog.Makes.perform fun h => h) fun _ => ?_
  refine Owns.past (Prog.Makes.perform fun h => h) fun _ => ?_
  refine Owns.past (Prog.Makes.perform fun h => h) fun _ => ?_
  refine Owns.past (Prog.Makes.perform fun h => h) fun _ => ?_
  exact owns_registered rfl fun _ => hf _

theorem makes_receive_quietly (temporary : FilePath) (maximumBytes length : Nat)
    (chunks : List (Option (Chunk Page Write))) :
    (receive temporary maximumBytes length chunks).Makes fun k => ¬ AddsRecord id k := by
  induction chunks generalizing length with
  | nil => trivial
  | cons chunk chunks ih =>
    cases chunk with
    | none => trivial
    | some chunk =>
      unfold receive
      split
      · trivial
      split
      · exact Prog.Makes.bind (Prog.Makes.ignore fun h => h) fun _ => trivial
      · exact Prog.Makes.bind (Prog.Makes.perform fun h => h) fun _ => ih _

theorem owns_uploadAs (chunks : List (Option (Chunk Page Write))) (maximumBytes : Nat)
    {f : BackupRecord → Program Page Write α} (hf : ∀ record, Clean id (f record)) :
    Owns id ((uploadAs chunks maximumBytes id).bind f) := by
  unfold uploadAs conclude
  simp only [Prog.bind_assoc]
  refine Owns.past (Prog.Makes.perform fun h => h) fun _ => ?_
  refine Owns.past (Prog.Makes.perform fun h => h) fun _ => ?_
  refine Owns.past (Prog.Makes.perform fun h => h) fun _ => ?_
  refine Owns.past (makes_receive_quietly _ _ _ _) fun _ => ?_
  refine Owns.past (Prog.Makes.perform fun h => h) fun _ => ?_
  refine Owns.past (Prog.Makes.attempt (Prog.Makes.perform fun h => h)) fun verified => ?_
  cases verified with
  | error e =>
    show Owns id (((removeIfExists .backups _).bind fun _ => .throw e).bind f)
    rw [Prog.bind_assoc]
    exact Owns.past (Prog.Makes.ignore fun h => h) fun _ => trivial
  | ok verified =>
    dsimp only
    simp only [Prog.bind_assoc]
    exact owns_registered rfl fun _ => hf _

/-- An operation draws one identifier first, or none. -/
inductive Virgin (id : Uuid) : Program Page Write α → Prop where
  | quiet {m : Program Page Write α} (h : Quiet id m) : Virgin id m
  | draws (rest : Uuid → Program Page Write α) (howns : Owns id (rest id))
      (hquiet : ∀ other, other ≠ id → Quiet id (rest other)) :
      Virgin id ((Admin.perform .nextId .database).bind rest)

theorem virgin_operation (operation : Operation Page Write) : Virgin id operation.program := by
  have hrows : FreeRows (spared id : (k : Call Page Write) → Value k → Prop) (Reserved id) :=
    freeRows_reserved fun _ _ h => h
  cases operation with
  | create source =>
    show Virgin id ((Admin.create source).bind fun _ => .pure ())
    rw [create_eq]
    split
    · exact .quiet trivial
    · rw [Admin.perform, Prog.bind_assoc]
      refine .draws _ (owns_createAs source fun _ => trivial) fun other hother => ?_
      exact Prog.Obeys.bind (obeys_createAs hrows (free_reserved hother) source) fun _ => trivial
  | upload chunks maximumBytes =>
    show Virgin id ((Admin.upload chunks maximumBytes).bind fun _ => .pure ())
    rw [upload_eq, Admin.perform, Prog.bind_assoc]
    refine .draws _ (owns_uploadAs chunks maximumBytes fun _ => trivial) fun other hother => ?_
    exact Prog.Obeys.bind (obeys_uploadAs hrows (free_reserved hother) chunks maximumBytes)
      fun _ => trivial
  | applyRetention => exact .quiet (obeys_applyRetention hrows)

/-! ## Every interleaving -/

/-- The identifier has not been drawn. -/
structure Undrawn (id : Uuid) (p : Site Page Write) : Prop where
  used : id ∉ p.state.used
  unrecorded : ¬ Recorded p.state id
  tasks : ∀ m ∈ p.tasks, Virgin id m

/-- It has been drawn, and at most one program may still register the backup. -/
structure Drawn (id : Uuid) (owner : Nat) (p : Site Page Write) : Prop where
  used : id ∈ p.state.used
  tasks : ∀ task m, p.tasks[task]? = some m →
    Clean id m ∨ task = owner ∧ Owns id m ∧ ¬ Recorded p.state id

def Prepared (id : Uuid) (p : Site Page Write) : Prop := Undrawn id p ∨ ∃ owner, Drawn id owner p

theorem Virgin.clean {m : Program Page Write α} (h : Virgin id m) : Clean id m := by
  cases h with
  | quiet h => exact h.clean
  | draws rest howns hquiet =>
    exact Prog.Obeys.perform (fun _ _ h => h) fun other hother => (hquiet other hother).clean

variable {p : Site Page Write} {owner : Nat}

theorem getElem?_set_cases {m m' : Program Page Write α} {tasks : List (Program Page Write α)}
    {i j : Nat} (h : (tasks.set i m)[j]? = some m') :
    i = j ∧ m' = m ∨ i ≠ j ∧ tasks[j]? = some m' := by
  by_cases hij : i = j
  · left
    subst hij
    rw [List.getElem?_set, if_pos rfl] at h
    split at h
    · exact ⟨rfl, (Option.some.inj h).symm⟩
    · cases h
  · right
    rw [List.getElem?_set_ne hij] at h
    exact ⟨hij, h⟩

/-- One call of a program that may still register the backup, or of another. -/
theorem Drawn.advance (h : Drawn id owner p) {task : Nat} {k : Call Page Write}
    {next : Option (Value k) → Program Page Write Unit} (htask : p.tasks[task]? = some (.call k next))
    (hgood : Unselected id k p.state) (a : Reply Page Write) :
    Drawn id owner ⟨(serve x k a p.state).2, p.tasks.set task (next (serve x k a p.state).1)⟩ where
  used := mem_used_serve k a h.used
  tasks := by
    have hreply : ∀ v, (serve x k a p.state).1 = some v → allowed id k v :=
      fun v hv => allowed_serve h.used hgood hv
    have hadvanced := h.tasks task _ htask
    intro other m hm
    rcases getElem?_set_cases hm with ⟨rfl, rfl⟩ | ⟨hne, hm⟩
    · -- the program that has made the call
      rcases hadvanced with hclean | ⟨rfl, howns, hunrecorded⟩
      · exact Or.inl (hclean.reply hreply)
      · by_cases hadds : AddsRecord id k
        · exact Or.inl (howns.1 hadds _)
        · exact Or.inr ⟨rfl, howns.2 hadds _, unrecorded_serve hadds a hunrecorded⟩
    · rcases h.tasks other m hm with hclean | ⟨rfl, howns, hunrecorded⟩
      · exact Or.inl hclean
      · -- the call is one of a program that is clean
        rcases hadvanced with hclean | ⟨heq, -, -⟩
        · exact Or.inr ⟨rfl, howns, unrecorded_serve (not_addsRecord hclean.1) a hunrecorded⟩
        · exact absurd heq hne

theorem Undrawn.advance (h : Undrawn id p) {task : Nat} {k : Call Page Write}
    {next : Option (Value k) → Program Page Write Unit} (htask : p.tasks[task]? = some (.call k next))
    (hgood : Unselected id k p.state) (a : Reply Page Write) :
    Prepared id ⟨(serve x k a p.state).2, p.tasks.set task (next (serve x k a p.state).1)⟩ := by
  have hvirgin := h.tasks _ (List.mem_of_getElem? htask)
  have hclean : ∀ m ∈ p.tasks, Clean id m := fun m hm => (h.tasks m hm).clean
  have hunrecorded : ¬ Recorded (serve x k a p.state).2 id :=
    unrecorded_serve (not_addsRecord (hclean _ (List.mem_of_getElem? htask)).1) a h.unrecorded
  by_cases hdrawn : id ∈ (serve x k a p.state).2.used
  · -- the call has drawn the identifier
    refine Or.inr ⟨task, hdrawn, fun other m hm => ?_⟩
    rcases getElem?_set_cases hm with ⟨rfl, rfl⟩ | ⟨-, hm⟩
    · cases hvirgin with
      | quiet hquiet =>
        exact Or.inl (Quiet.clean (hquiet.reply fun v hv => spared_serve hgood hv))
      | draws rest howns hquiet =>
        rcases serve_nextId (x := x) a p.state with ⟨hnew, hserve⟩ | hserve
        · rw [hserve] at hdrawn ⊢
          rcases List.mem_cons.mp hdrawn with rfl | hdrawn
          · rw [hserve] at hunrecorded
            exact Or.inr ⟨rfl, howns, hunrecorded⟩
          · exact absurd hdrawn h.used
        · rw [hserve] at hdrawn
          exact absurd hdrawn h.used
    · exact Or.inl (hclean m (List.mem_of_getElem? hm))
  · refine Or.inl ⟨hdrawn, hunrecorded, fun m hm => ?_⟩
    rcases List.mem_or_eq_of_mem_set hm with hm | rfl
    · exact h.tasks m hm
    · cases hvirgin with
      | quiet hquiet => exact .quiet (hquiet.reply fun v hv => spared_serve hgood hv)
      | draws rest howns hquiet =>
        rcases serve_nextId (x := x) a p.state with ⟨hnew, hserve⟩ | hserve
        · rw [hserve] at hdrawn ⊢
          refine .quiet (hquiet a.id fun heq => hdrawn ?_)
          rw [heq]
          exact List.mem_cons_self
        · rw [hserve]
          exact .quiet trivial

/-- **A turn of the operations.** -/
theorem Prepared.turn (h : Prepared id p)
    (turn : Fallible.Turn (Operation Page Write) (Reply Page Write) Int)
    (hgood : ∀ k, p.calls turn = some k → Unselected id k p.state) :
    Prepared id (p.turn (world x) Operation.program turn) := by
  cases turn with
  | start operation =>
    rcases h with h | ⟨owner, h⟩
    · refine Or.inl ⟨h.used, h.unrecorded, fun m hm => ?_⟩
      rcases List.mem_append.mp hm with hm | hm
      · exact h.tasks m hm
      · rw [List.mem_singleton.mp hm]
        exact virgin_operation operation
    · refine Or.inr ⟨owner, h.used, fun task m hm => ?_⟩
      by_cases hlt : task < p.tasks.length
      · refine h.tasks task m ?_
        rwa [← List.getElem?_append_left hlt]
      · left
        have hm := List.mem_of_getElem? ((List.getElem?_append_right (Nat.not_lt.mp hlt)) ▸ hm)
        rw [List.mem_singleton.mp hm]
        exact clean_operation operation
  | event count =>
    rcases h with h | ⟨owner, h⟩
    · exact Or.inl ⟨h.used, h.unrecorded, h.tasks⟩
    · exact Or.inr ⟨owner, h.used, h.tasks⟩
  | advance task a =>
    unfold Pool.turn
    dsimp only
    unfold Pool.calls at hgood
    dsimp only at hgood
    split
    · next k next htask =>
      rw [htask] at hgood
      rcases h with h | ⟨owner, h⟩
      · exact h.advance htask (hgood k rfl) a
      · exact Or.inr ⟨owner, h.advance htask (hgood k rfl) a⟩
    · exact h

/-- **No operation uses the files of a backup that is registered.** -/
theorem Prepared.clean (h : Prepared id p) (hrecorded : Recorded p.state id) :
    id ∈ p.state.used ∧ ∀ m ∈ p.tasks, Clean id m := by
  rcases h with h | ⟨owner, h⟩
  · exact absurd hrecorded h.unrecorded
  · refine ⟨h.used, fun m hm => ?_⟩
    obtain ⟨task, hlt, rfl⟩ := List.mem_iff_getElem.mp hm
    rcases h.tasks task _ (List.getElem?_eq_getElem hlt) with hclean | ⟨-, -, hunrecorded⟩
    · exact hclean
    · exact absurd hrecorded hunrecorded

end RemindiCore.Admin.Directory
