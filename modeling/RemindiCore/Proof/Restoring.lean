import RemindiCore.Proof.Evolution

/-!
# Steps that a restore does not get over

Of the failures inside a restore some leave a journal behind that a later
startup acts on (`undoes`), and some, with some crashes and some ways to put the
pre-restore backup back, lose acknowledged writes (`loses`).  The triples of this
module follow the functions of a restore and keep, as long as no such step has
been taken, what they know of the state.
-/

namespace RemindiCore.Admin

open PageLog Fallible

variable {Page Write : Type}

abbrev Conf (Page Write : Type) := Config (Call Page Write) (Event Page Write) (State Page Write)

abbrev RestoreStep (Page Write : Type) := Step (Call Page Write) (Event Page Write) (State Page Write)

/-- Recovery would put a pre-restore backup back. -/
def State.reinstalls (s : State Page Write) : Bool :=
  match s.files .journal with
  | some (.journal journal) => journal.phase.reinstalls
  | _ => false

/-- A failure after which the restore returns, the database stays open, and the
journal on disk still asks for the pre-restore backup. -/
def undoes (step : RestoreStep Page Write) : Prop :=
  match step.action with
  | .call (.fs (.writeJournal .preRestoreBackupVerified) .syncDirectory) true => True
  | .call (.fs (.writeJournal .workloadsRestarted) _) true => True
  | .call (.fs (.writeJournal .succeeded) .syncDirectory) true => False
  | .call (.fs (.writeJournal .succeeded) _) true => True
  | .call (.fs .removeJournal (.remove .journal)) true => step.before.reinstalls = true
  | .call (.clearSchedulerLeases .preRestore) true => True
  | .call (.auditAppend _) true => True
  | _ => False

/-- The pre-restore backup is put back beside frames of the log, or although the
service has committed since its snapshot; or the restore fails for good while
the candidate is the live database. -/
def loses (step : RestoreStep Page Write) : Prop :=
  match step.action with
  | .call (.fs (.installDatabase .preRestore) (.rename _ .live)) false =>
    ¬ (step.before.log = [] ∧ step.before.atSnapshot = some step.before.guarded)
  | .call (.fs (.installDatabase .preRestore) .syncDirectory) true => False
  | .call (.fs (.installDatabase .preRestore) (.remove _)) true => False
  | .call (.fs (.installDatabase .preRestore) _) true => step.before.installed = some .candidate
  | .call (.fs (.writeJournal .workloadsRestarted) _) true => True
  | .call (.fs (.writeJournal .succeeded) _) true => True
  | .call (.auditAppend .restoreSucceeded) true => True
  | .call (.fs .removeJournal .syncDirectory) true => step.before.installed = some .candidate
  | _ => False

def Undone (c : Conf Page Write) : Prop := ∃ step ∈ c.history, undoes step

def Lossy (c : Conf Page Write) : Prop := ∃ step ∈ c.history, loses step

section

variable [DecidableEq Page] {x : Sqlite Page Write} {c : Conf Page Write}
  {F F' G G' : State Page Write → Prop} {crash : Conf Page Write → Prop}

/-- The step of a call. -/
def stepOf (x : Sqlite Page Write) (c : Conf Page Write) (k : Call Page Write)
    (a : Answer Page Write) : RestoreStep Page Write :=
  ⟨c.state, .call k (serve x k a c.state).1.isNone, (serve x k a c.state).2⟩

theorem undone_event {e : Event Page Write} : Undone (c.event (world x) e) ↔ Undone c := by
  simp [Undone, Config.event, undoes, or_and_right, exists_or]

theorem lossy_event {e : Event Page Write} : Lossy (c.event (world x) e) ↔ Lossy c := by
  simp [Lossy, Config.event, loses, or_and_right, exists_or]

theorem undone_served {k : Call Page Write} {a : Answer Page Write} :
    Undone (c.served (world x) k a) ↔ Undone c ∨ undoes (stepOf x c k a) := by
  simp [Undone, Config.served, or_and_right, exists_or, stepOf, world]

theorem lossy_served {k : Call Page Write} {a : Answer Page Write} :
    Lossy (c.served (world x) k a) ↔ Lossy c ∨ loses (stepOf x c k a) := by
  simp [Lossy, Config.served, or_and_right, exists_or, stepOf, world]

/-! ## Assertions -/

/-- What the service and quiet calls keep. -/
def Lasting (F : State Page Write → Prop) : Prop := ∀ s t, Evolves s t → F s → F t

/-- Nothing undoes the restore so far, `F` holds, and so does `G` unless a step has
lost a write. -/
def Clean (F G : State Page Write → Prop) (c : Conf Page Write) : Prop :=
  ¬ Undone c ∧ F c.state ∧ (Lossy c ∨ G c.state)

theorem Lasting.and (hF : Lasting F) (hG : Lasting G) : Lasting fun s => F s ∧ G s :=
  fun s t h hs => ⟨hF s t h hs.1, hG s t h hs.2⟩

theorem Lasting.or (hF : Lasting F) (hG : Lasting G) : Lasting fun s => F s ∨ G s :=
  fun s t h hs => hs.imp (hF s t h) (hG s t h)

theorem lasting_holds : Lasting (State.Holds : State Page Write → Prop) :=
  fun _ _ h => h.holds

omit [DecidableEq Page] in
theorem Clean.mono (hF : ∀ s, F s → F' s) (hG : ∀ s, F s → G s → G' s) (h : Clean F G c) :
    Clean F' G' c :=
  ⟨h.1, hF _ h.2.1, h.2.2.imp_right (hG _ h.2.1)⟩

theorem Clean.stable (hF : Lasting F) (hG : Lasting G) : Stable (world x) (Clean F G) := by
  rintro c e ⟨hundone, hf, hg⟩
  have hevolves := interfere_evolves e c.state
  exact ⟨mt undone_event.mp hundone, hF _ _ hevolves hf,
    hg.imp lossy_event.mpr (hG _ _ hevolves)⟩

/-- A call that undoes nothing. -/
theorem Clean.served {k : Call Page Write} {a : Answer Page Write} (h : Clean F G c)
    (hundoes : ¬ undoes (stepOf x c k a)) (hF : F c.state → F' (serve x k a c.state).2)
    (hG : F c.state → G c.state → loses (stepOf x c k a) ∨ G' (serve x k a c.state).2) :
    Clean F' G' (c.served (world x) k a) := by
  obtain ⟨hundone, hf, hg⟩ := h
  refine ⟨fun hu => (undone_served.mp hu).elim hundone hundoes, hF hf, ?_⟩
  rcases hg with hlossy | hg
  · exact Or.inl (lossy_served.mpr (Or.inl hlossy))
  · rcases hG hf hg with hloses | hg'
    · exact Or.inl (lossy_served.mpr (Or.inr hloses))
    · exact Or.inr hg'

/-- What evolves is kept. -/
theorem Clean.evolved {k : Call Page Write} {a : Answer Page Write} (hF : Lasting F)
    (hG : Lasting G) (h : Clean F G c) (hundoes : ¬ undoes (stepOf x c k a))
    (hevolves : Evolves c.state (serve x k a c.state).2) : Clean F G (c.served (world x) k a) :=
  h.served hundoes (hF _ _ hevolves) fun _ hg => Or.inr (hG _ _ hevolves hg)

theorem not_undoes_of_quiet {k : Call Page Write} {a : Answer Page Write} (h : k.quiet = true) :
    ¬ undoes (stepOf x c k a) := by
  unfold undoes stepOf
  split
  all_goals first | exact id | skip
  all_goals
    rename_i heq
    injection heq with hk
    subst hk
    cases h

theorem not_undoes_of_ok {k : Call Page Write} {a : Answer Page Write} {value : Value k}
    (h : (serve x k a c.state).1 = some value) : ¬ undoes (stepOf x c k a) := by
  unfold undoes stepOf
  rw [h]
  split
  all_goals first | exact id | skip
  all_goals
    rename_i heq
    injection heq with hk hfailed
    cases hfailed

/-- **Quiet calls keep what lasts.** -/
theorem Clean.quiet {k : Call Page Write} {a : Answer Page Write} (hF : Lasting F)
    (hG : Lasting G) (hk : k.quiet = true) (h : Clean F G c) :
    Clean F G (c.served (world x) k a) :=
  h.evolved hF hG (not_undoes_of_quiet hk) (quiet_evolves x hk a c.state)

theorem triple_quiet {α : Type} {m : Program Page Write α} (hm : m.Makes fun k => k.quiet = true)
    (hF : Lasting F) (hG : Lasting G) (hcrash : ∀ c, Clean F G c → crash c) :
    Triple (world x) (Clean F G) m (fun _ => Clean F G) crash :=
  Triple.keep hm (Clean.stable hF hG) hcrash fun _ hk _ _ h => h.quiet hF hG hk

/-! ## Writing the journal -/

def FsCall.isSyncDirectory : FsCall Page Write → Bool
  | .syncDirectory => true
  | _ => false

/-- `write_journal` has failed at this call, before its rename or after it. -/
inductive WriteFailed (x : Sqlite Page Write) (phase : RestorePhase)
    (F G F' G' : State Page Write → Prop) : Conf Page Write → Prop
  | before {c : Conf Page Write} {call : FsCall Page Write} {a : Answer Page Write}
      (hcall : call.isSyncDirectory = false)
      (failed : (serve x (.fs (.writeJournal phase) call) a c.state).1 = none)
      (h : Clean F G c) (evolves : Evolves c.state (serve x (.fs (.writeJournal phase) call) a c.state).2) :
      WriteFailed x phase F G F' G' (c.served (world x) (.fs (.writeJournal phase) call) a)
  | after {c : Conf Page Write} {a : Answer Page Write}
      (failed : (serve x (.fs (.writeJournal phase) .syncDirectory) a c.state).1 = none)
      (h : Clean F' G' c) :
      WriteFailed x phase F G F' G' (c.served (world x) (.fs (.writeJournal phase) .syncDirectory) a)

/-- The state after the journal has been renamed into its place. -/
def State.journaled (s : State Page Write) (journal : RestoreJournal) : State Page Write :=
  (s.put .journal (some (.journal journal))).put .journalTemporary none

theorem rename_journal {caller : Caller} {journal : RestoreJournal} {a : Answer Page Write}
    {s : State Page Write} (hfile : s.files .journalTemporary = some (.journal journal))
    (hcaller : ∀ role, caller ≠ .installDatabase role) :
    serve x (.fs caller (.rename .journalTemporary .journal)) a s =
      settle a.ok s (s.journaled journal) := by
  simp only [serve, serveFs, hfile, State.journaled]

theorem writeJournal_triple {journal : RestoreJournal} (hF : Lasting F) (hG : Lasting G)
    (hF' : Lasting F') (hG' : Lasting G') (hFF : ∀ s, F s → F' (s.journaled journal))
    (hGG : ∀ s, F s → G s → G' (s.journaled journal)) (hcrash : ∀ c, Clean F G c → crash c)
    (hcrash' : ∀ c, Clean F' G' c → crash c) :
    Triple (world x) (Clean F G) (writeJournal journal) (fun result c => match result with
      | .ok () => Clean F' G' c
      | .error _ => WriteFailed x journal.phase F G F' G' c) crash := by
  -- a scratch call that has succeeded keeps what lasts
  have hscratch : ∀ (call : FsCall Page Write), call.scratch = true → ∀ c a value, Clean F G c →
      (serve x (.fs (.writeJournal journal.phase) call) a c.state).1 = some value →
        Clean F G (c.served (world x) (.fs (.writeJournal journal.phase) call) a) :=
    fun call hcall c a value h hok =>
      h.evolved hF hG (not_undoes_of_ok hok) (serveFs_evolves hcall a.ok c.state)
  have hfailed : ∀ (call : FsCall Page Write), call.scratch = true →
      call.isSyncDirectory = false → ∀ c a, Clean F G c →
      (serve x (.fs (.writeJournal journal.phase) call) a c.state).1 = none →
        WriteFailed x journal.phase F G F' G'
          (c.served (world x) (.fs (.writeJournal journal.phase) call) a) :=
    fun call hcall hsync c a h hnone =>
      .before hsync hnone h (serveFs_evolves hcall a.ok c.state)
  -- from the second call on the temporary file holds the journal
  let T : Conf Page Write → Prop := fun c =>
    Clean F G c ∧ c.state.files .journalTemporary = some (.journal journal)
  have hT : Stable (world x) T := by
    rintro c e ⟨h, hfile⟩
    exact ⟨Clean.stable hF hG c e h, (interfere_files e c.state (by simp)).trans hfile⟩
  refine Triple.bind (R := fun _ => Clean F G) (Triple.perform (Clean.stable hF hG) hcrash
    (fun c a value h hok => hscratch _ rfl c a value h hok)
    (fun c a h hnone => hfailed _ rfl rfl c a h hnone)) fun _ => ?_
  refine Triple.bind (R := fun _ => T) (Triple.perform (Clean.stable hF hG) hcrash
    (fun c a value h hok => ⟨hscratch _ rfl c a value h hok, ?_⟩)
    (fun c a h hnone => hfailed _ rfl rfl c a h hnone)) fun _ => ?_
  · have hwritten : a.ok = true := by
      cases hok' : a.ok with
      | true => rfl
      | false => simp [world, serve, serveFs, hok'] at hok
    simp [Config.served, world, serve, serveFs, hwritten]
  refine Triple.bind (R := fun _ => T) (Triple.perform hT (fun c h => hcrash c h.1)
    (fun c a value h hok => ⟨hscratch _ rfl c a value h.1 hok, ?_⟩)
    (fun c a h hnone => hfailed _ rfl rfl c a h.1 hnone)) fun _ => ?_
  · cases hok' : a.ok <;> simp [Config.served, world, serve, serveFs, settle, hok', h.2]
  refine Triple.bind (R := fun _ => T) (Triple.perform hT (fun c h => hcrash c h.1)
    (fun c a value h hok => ⟨hscratch _ rfl c a value h.1 hok, ?_⟩)
    (fun c a h hnone => hfailed _ rfl rfl c a h.1 hnone)) fun _ => ?_
  · cases hok' : a.ok <;> simp [Config.served, world, serve, serveFs, settle, hok', h.2]
  have hrename : ∀ c a, T c →
      serve x (.fs (.writeJournal journal.phase) (.rename .journalTemporary .journal)) a c.state =
        settle a.ok c.state (c.state.journaled journal) :=
    fun c a h => rename_journal h.2 fun role => by simp
  refine Triple.bind (R := fun _ => Clean F' G') (Triple.perform hT (fun c h => hcrash c h.1)
    (fun c a value h hok => ?_) (fun c a h hnone => ?_)) fun _ => ?_
  · have hafter : (serve x (.fs (.writeJournal journal.phase)
        (.rename .journalTemporary .journal)) a c.state).2 = c.state.journaled journal := by
      rw [show (world x).serve = serve x from rfl, hrename c a h] at hok
      rw [hrename c a h]
      cases hok' : a.ok with
      | true => rfl
      | false => simp [settle, hok'] at hok
    refine h.1.served (not_undoes_of_ok hok) (fun hf => ?_) fun hf hg => Or.inr ?_
    · rw [hafter]
      exact hFF _ hf
    · rw [hafter]
      exact hGG _ hf hg
  · refine .before rfl hnone h.1 ?_
    rw [show (world x).serve = serve x from rfl, hrename c a h] at hnone
    rw [hrename c a h]
    cases hok' : a.ok with
    | true => simp [settle, hok'] at hnone
    | false => exact Evolves.refl _
  exact Triple.perform (Clean.stable hF' hG') hcrash'
    (fun c a value h hok => h.evolved hF' hG' (not_undoes_of_ok hok)
      (serveFs_evolves rfl a.ok c.state))
    (fun c a h hnone => .after hnone h)

/-- The phases whose journal a restore can do without. -/
def RestorePhase.plain (phase : RestorePhase) : Bool :=
  phase ≠ .preRestoreBackupVerified && phase ≠ .workloadsRestarted && phase ≠ .succeeded

theorem not_undoes_of_plain {phase : RestorePhase} (h : phase.plain = true)
    (call : FsCall Page Write) (a : Answer Page Write) :
    ¬ undoes (stepOf x c (.fs (.writeJournal phase) call) a) := by
  unfold undoes stepOf
  cases phase <;> first | (cases h; done) | simp

theorem writeJournal_plain {journal : RestoreJournal} (hphase : journal.phase.plain = true)
    (hF : Lasting F) (hG : Lasting G) (hFF : ∀ s, F s → F (s.journaled journal))
    (hGG : ∀ s, F s → G s → G (s.journaled journal)) (hcrash : ∀ c, Clean F G c → crash c) :
    Triple (world x) (Clean F G) (writeJournal journal) (fun _ => Clean F G) crash := by
  refine (writeJournal_triple hF hG hF hG hFF hGG hcrash hcrash).weaken (fun _ h => h) ?_
  rintro (e | ⟨⟩) c h
  · cases h with
    | before hcall failed h evolves =>
      exact h.evolved hF hG (not_undoes_of_plain hphase _ _) evolves
    | after failed h =>
      exact h.evolved hF hG (not_undoes_of_plain hphase _ _) (serveFs_evolves rfl _ _)
  · exact h

theorem tryWriteJournal_triple {journal : RestoreJournal} (hphase : journal.phase.plain = true)
    {post : Except BackupError Unit → Conf Page Write → Prop}
    (hF : Lasting F) (hG : Lasting G) (hFF : ∀ s, F s → F (s.journaled journal))
    (hGG : ∀ s, F s → G s → G (s.journaled journal)) (hcrash : ∀ c, Clean F G c → crash c)
    (hpost : ∀ c, Clean F G c → post (.ok ()) c) :
    Triple (world x) (Clean F G) (tryWriteJournal journal) post crash :=
  Triple.bind (R := fun _ => Clean F G)
    (Triple.attempt (writeJournal_plain hphase hF hG hFF hGG hcrash)) fun _ =>
      Triple.pure hpost

/-! ## Installing a database -/

/-- The state after the staged copy has been renamed into the place of the live file. -/
def State.replaced (s : State Page Write) (role : Role) (operationId : String)
    (file : File Page Write) : State Page Write :=
  { (s.put .live (some file)).put (.staged operationId) none with installed := some role }

theorem not_undoes_install {role : Role} (call : FsCall Page Write) (a : Answer Page Write) :
    ¬ undoes (stepOf x c (.fs (.installDatabase role) call) a) := by
  unfold undoes stepOf
  simp

/-- `install_database`: `S` is what is known of a copy of the source, `E` what is
left when the install fails before the rename. -/
theorem installDatabase_triple (role : Role) (source : FilePath) (operationId : String)
    {E : State Page Write → Prop} {S : State Page Write → File Page Write → Prop}
    (hF : Lasting F) (hG : Lasting G) (hF' : Lasting F') (hG' : Lasting G')
    (hS : ∀ file, Lasting fun s => S s file)
    (hcopy : ∀ s file, F s → s.files source = some file → S s file)
    (hFF : ∀ s file, F s → F' (s.replaced role operationId file))
    (hGG : ∀ c a file, F c.state → G c.state → S c.state file →
      loses (stepOf x c (.fs (.installDatabase role) (.rename (.staged operationId) .live)) a) ∨
        (serve x (.fs (.installDatabase role) (.rename (.staged operationId) .live)) a c.state).1 =
          none ∨ G' (c.state.replaced role operationId file))
    (hE : ∀ s, F s → G s → E s ∨ role = .preRestore ∧ s.installed = some .candidate)
    (hlasting : Lasting E) (hcrash : ∀ c, Clean F G c → crash c)
    (hcrash' : ∀ c, Clean F' G' c → crash c) :
    Triple (world x) (Clean F G) (installDatabase role source operationId)
      (fun result c => match result with
        | .ok () => Clean F' G' c
        | .error _ => Clean F E c ∨ Clean F' G' c) crash := by
  have hkeep : ∀ (call : FsCall Page Write), call.scratch = true → ∀ c a, Clean F G c →
      Clean F G (c.served (world x) (.fs (.installDatabase role) call) a) :=
    fun call hcall c a h =>
      h.evolved hF hG (not_undoes_install call a) (serveFs_evolves hcall a.ok c.state)
  -- a failure before the rename
  have hfailed : ∀ (call : FsCall Page Write) c a, call.isSyncDirectory = false →
      (∀ path, call ≠ .remove path) →
      Evolves c.state (serve x (.fs (.installDatabase role) call) a c.state).2 → Clean F G c →
      (serve x (.fs (.installDatabase role) call) a c.state).1 = none →
        Clean F E (c.served (world x) (.fs (.installDatabase role) call) a) := by
    intro call c a hsync hremove hevolves h hnone
    refine h.served (not_undoes_install call a) (hF _ _ hevolves) fun hf hg => ?_
    rcases hE _ hf hg with he | ⟨rfl, hcandidate⟩
    · exact Or.inr (hlasting _ _ hevolves he)
    · left
      simp only [loses, stepOf, hnone, Option.isNone_none]
      cases call with
      | remove path => exact absurd rfl (hremove path)
      | syncDirectory => cases hsync
      | rename source target => cases target <;> exact hcandidate
      | _ => exact hcandidate
  -- the staged copy
  let T : Conf Page Write → Prop := fun c =>
    Clean F G c ∧ ∃ file, c.state.files (.staged operationId) = some file ∧ S c.state file
  have hT : Stable (world x) T := by
    rintro c e ⟨h, file, hfile, hs⟩
    exact ⟨Clean.stable hF hG c e h, file, (interfere_files e c.state (by simp)).trans hfile,
      hS file _ _ (interfere_evolves e c.state) hs⟩
  refine Triple.bind (R := fun _ => Clean F G) (Triple.ignore (Clean.stable hF hG) hcrash
    fun c a h => hkeep _ rfl c a h) fun _ => ?_
  refine Triple.bind (R := fun _ => T) (Triple.perform (Clean.stable hF hG) hcrash
    (fun c a value h hok => ⟨hkeep _ rfl c a h, ?_⟩)
    (fun c a h hnone => Or.inl (hfailed _ c a rfl (by simp) (serveFs_evolves rfl _ _) h hnone)))
    fun _ => ?_
  · cases hfile : c.state.files source with
    | none => simp [world, serve, serveFs, hfile] at hok
    | some file =>
      cases hok' : a.ok with
      | false => simp [world, serve, serveFs, hfile, hok'] at hok
      | true =>
        have hevolves : Evolves c.state (serveFs (.installDatabase role)
            (.copy source (.staged operationId)) a.ok c.state).2 :=
          serveFs_evolves rfl a.ok c.state
        have hs := hS file _ _ hevolves (hcopy _ file h.2.1 hfile)
        refine ⟨file, ?_, hs⟩
        simp [Config.served, world, serve, serveFs, hfile, hok']
  have hsame : ∀ (call : FsCall Page Write) c a, T c → call.scratch = true →
      (serveFs (.installDatabase role) call a.ok c.state).2 = c.state →
        T (c.served (world x) (.fs (.installDatabase role) call) a) := by
    rintro call c a ⟨h, file, hfile, hs⟩ hcall hstate
    refine ⟨hkeep call hcall c a h, file, ?_⟩
    show (serveFs (.installDatabase role) call a.ok c.state).2.files _ = _ ∧
      S (serveFs (.installDatabase role) call a.ok c.state).2 file
    rw [hstate]
    exact ⟨hfile, hs⟩
  refine Triple.bind (R := fun _ => T) (Triple.perform hT (fun c h => hcrash c h.1)
    (fun c a value h hok => hsame _ c a h rfl (by cases a.ok <;> rfl))
    (fun c a h hnone => Or.inl (hfailed _ c a rfl (by simp) (serveFs_evolves rfl _ _) h.1 hnone)))
    fun _ => ?_
  refine Triple.bind (R := fun _ => T) (Triple.perform hT (fun c h => hcrash c h.1)
    (fun c a value h hok => hsame _ c a h rfl (by cases a.ok <;> rfl))
    (fun c a h hnone => Or.inl (hfailed _ c a rfl (by simp) (serveFs_evolves rfl _ _) h.1 hnone)))
    fun _ => ?_
  refine Triple.bind (R := fun _ => Clean F' G') (Triple.perform hT (fun c h => hcrash c h.1)
    (fun c a value h hok => ?_) (fun c a h hnone => Or.inl ?_)) fun _ => ?_
  · obtain ⟨h, file, hfile, hs⟩ := h
    have hafter : (serve x (.fs (.installDatabase role) (.rename (.staged operationId) .live)) a
        c.state).2 = c.state.replaced role operationId file := by
      cases hok' : a.ok with
      | false => simp [world, serve, serveFs, hfile, hok', settle] at hok
      | true => simp [serve, serveFs, hfile, hok', settle, State.replaced]
    refine h.served (not_undoes_install _ _) (fun hf => ?_) fun hf hg => ?_
    · rw [hafter]
      exact hFF _ file hf
    · rw [hafter]
      rcases hGG c a file hf hg hs with hloses | hnone | hg'
      · exact Or.inl hloses
      · rw [show (world x).serve = serve x from rfl, hnone] at hok
        cases hok
      · exact Or.inr hg'
  · obtain ⟨h, file, hfile, hs⟩ := h
    refine hfailed _ c a rfl (by simp) ?_ h hnone
    cases hok' : a.ok with
    | false => simp only [serve, serveFs, hfile, hok', settle]; exact Evolves.refl _
    | true => simp [world, serve, serveFs, hfile, hok', settle] at hnone
  have hsync : ∀ c a, Clean F' G' c →
      Clean F' G' (c.served (world x) (.fs (.installDatabase role) .syncDirectory) a) :=
    fun c a h => h.evolved hF' hG' (not_undoes_install _ a) (serveFs_evolves rfl a.ok c.state)
  exact Triple.perform (Clean.stable hF' hG') hcrash' (fun c a value h _ => hsync c a h)
    (fun c a h _ => Or.inr (hsync c a h))

end

end RemindiCore.Admin
