import RemindiCore.Proof.Rollback

/-!
# A whole restore

The triples of the functions put together: wherever a restore returns it has
`Ended`, and wherever it is stopped a later startup finds it `Stopped`
(`restore_triple`).
-/

namespace RemindiCore.Admin

open PageLog Fallible

variable {Page Write : Type} [DecidableEq Page] {x : Sqlite Page Write} {s t : State Page Write}
  {c : Conf Page Write} {F G : State Page Write → Prop} {pre : String} {journal : RestoreJournal}

/-! ## The replacement -/

/-- Nothing is known of the guarded writes any more. -/
def Anything (_ : State Page Write) : Prop := True

theorem lasting_anything : Lasting (Anything : State Page Write → Prop) :=
  fun _ _ _ _ => trivial

/-- The candidate is the live database. -/
def ServingCandidate (x : Sqlite Page Write) (pre : String) (s : State Page Write) : Prop :=
  Serving x pre s ∧ s.installed = some .candidate

def ClosedCandidate (x : Sqlite Page Write) (pre : String) (s : State Page Write) : Prop :=
  HeldClosed x pre s ∧ s.installed = some .candidate

def OpenCandidate (x : Sqlite Page Write) (pre : String) (s : State Page Write) : Prop :=
  HeldOpen x pre s ∧ s.installed = some .candidate

/-- The journal asks for nothing, and the candidate is the live database. -/
def SettledCandidate (s : State Page Write) : Prop :=
  s.reinstalls = false ∧ s.pool = true ∧ s.maintenance = false ∧ s.installed = some .candidate

theorem lasting_servingCandidate : Lasting (ServingCandidate x pre) :=
  lasting_serving.and lasting_installed

theorem lasting_closedCandidate : Lasting (ClosedCandidate x pre) :=
  lasting_heldClosed.and lasting_installed

theorem lasting_openCandidate : Lasting (OpenCandidate x pre) :=
  lasting_heldOpen.and lasting_installed

theorem lasting_settledCandidate : Lasting (SettledCandidate : State Page Write → Prop) :=
  fun _ _ h hs => ⟨(State.reinstalls_of_files h.journal).trans hs.1, h.pool.trans hs.2.1,
    h.maintenance.trans hs.2.2.1, h.installed.trans hs.2.2.2⟩

/-- A replacement that fails can be rolled back. -/
theorem Clean.intact (h : Clean F G c) (hF : ∀ s, F s → Held x pre s ∧ s.installed = some .candidate) :
    Clean (Held x pre) Intact c :=
  h.mono (fun s hf => (hF s hf).1) fun s hf _ => Or.inr (hF s hf).2

theorem failIf_triple {fault seam : RestoreFault} {P : Conf Page Write → Prop}
    {post : Except BackupError Unit → Conf Page Write → Prop} {crash : Conf Page Write → Prop}
    (hok : ∀ c, P c → post (.ok ()) c) (herror : ∀ c, P c → post (.error .restoreFailed) c) :
    Triple (world x) P (failIf fault seam) post crash := by
  unfold failIf
  split
  · exact Triple.throw herror
  · exact Triple.pure hok

theorem replaceLive_triple (hj : JournalFor pre journal) (candidate : FilePath)
    (fault : RestoreFault) :
    Triple (world x) (Clean (HeldOpen x pre) State.Holds) (replaceLive journal candidate fault)
      (fun result c => match result with
        | .ok () => Clean (OpenCandidate x pre) Anything c
        | .error _ => Clean (Held x pre) Intact c) (Stopped x) := by
  have hopen : ∀ c, Clean (HeldOpen x pre) State.Holds c → Clean (Held x pre) Intact c :=
    fun c h => h.mono (fun s hf => hf.1) fun s _ hg => Or.inl hg
  have hclosed : ∀ c, Clean (HeldClosed x pre) State.Holds c → Clean (Held x pre) Intact c :=
    fun c h => h.mono (fun s hf => hf.1) fun s _ hg => Or.inl hg
  have hcandidate : ∀ c, Clean (ClosedCandidate x pre) Anything c → Clean (Held x pre) Intact c :=
    fun c h => h.intact fun s hf => ⟨hf.1.1, hf.2⟩
  have hreopened : ∀ c, Clean (OpenCandidate x pre) Anything c → Clean (Held x pre) Intact c :=
    fun c h => h.intact fun s hf => ⟨hf.1.1, hf.2⟩
  have hclose : ∀ c a, Clean (HeldOpen x pre) State.Holds c →
      Clean (HeldClosed x pre) State.Holds (c.served (world x) .checkpointAndClose a) := by
    intro c a h
    obtain ⟨t, hevolves, hafter⟩ := checkpointAndClose_state (x := x) a c.state
    refine h.served (by simp [undoes, stepOf]) (fun hf => HeldClosed.of_close hf.1) fun _ hg => ?_
    rw [hafter]
    exact Or.inr (State.holds_of (hevolves.holds hg) rfl rfl)
  refine Triple.bind (R := fun _ => Clean (HeldOpen x pre) State.Holds)
    ((writeJournal_plain rfl lasting_heldOpen lasting_holds
      (fun s h => ⟨h.1.journaled (hj.withPhase _) rfl, h.2⟩) (fun s _ h => Holds.journaled h)
      fun c h => h.2.1.1.1.stopped).weaken (fun c h => h) ?_) fun _ => ?_
  · rintro (e | ⟨⟩) c h
    · exact hopen c h
    · exact h
  refine Triple.bind (R := fun _ => Clean (HeldClosed x pre) State.Holds)
    (Triple.perform (Clean.stable lasting_heldOpen lasting_holds) (fun c h => h.2.1.1.1.stopped)
      (fun c a _ h _ => hclose c a h) fun c a h _ => hclosed _ (hclose c a h)) fun _ => ?_
  refine Triple.bind (R := fun _ => Clean (HeldClosed x pre) State.Holds)
    (failIf_triple (fun c h => h) hclosed) fun _ => ?_
  refine Triple.bind (R := fun _ => Clean (ClosedCandidate x pre) Anything)
    ((installDatabase_triple (x := x) .candidate candidate journal.operationId
      (F := HeldClosed x pre) (G := State.Holds) (E := State.Holds) (S := fun _ _ => True)
      lasting_heldClosed lasting_holds lasting_closedCandidate
      lasting_anything (fun _ _ _ _ _ => trivial) (fun _ _ _ _ => trivial)
      (fun s file h => ⟨⟨h.1.replaced, h.2⟩, rfl⟩) (fun _ _ _ _ _ _ => Or.inr (Or.inr trivial))
      (fun s _ h => Or.inl h) lasting_holds (fun c h => h.2.1.1.1.stopped)
      fun c h => h.2.1.1.1.1.stopped).weaken (fun c h => h) ?_) fun _ => ?_
  · rintro (e | ⟨⟩) c h
    · exact h.elim (hclosed c) (hcandidate c)
    · exact h
  refine Triple.bind (R := fun _ => Clean (ClosedCandidate x pre) Anything)
    ((writeJournal_plain rfl lasting_closedCandidate lasting_anything
      (fun s h => ⟨⟨h.1.1.journaled (hj.withPhase _) rfl, h.1.2⟩, h.2⟩) (fun s _ h => h)
      fun c h => h.2.1.1.1.1.stopped).weaken (fun c h => h) ?_) fun _ => ?_
  · rintro (e | ⟨⟩) c h
    · exact hcandidate c h
    · exact h
  refine Triple.bind (R := fun _ => Clean (ClosedCandidate x pre) Anything)
    (failIf_triple (fun c h => h) hcandidate) fun _ => ?_
  refine Triple.bind (R := fun _ => Clean (OpenCandidate x pre) Anything)
    (Triple.perform (Clean.stable lasting_closedCandidate lasting_anything)
      (fun c h => h.2.1.1.1.1.stopped) (fun c a value h hok => ?_) (fun c a h hnone => ?_))
    fun _ => ?_
  · obtain ⟨t, hevolves, hafter | hafter⟩ := reopen_state (x := x) a c.state
    · have hstate : (serve x .reopen a c.state).2 = { t with pool := true } := by rw [hafter]
      refine h.served (not_undoes_of_ok hok) (fun hf => ?_) fun _ hg => Or.inr trivial
      rw [hstate]
      have hkept := lasting_closedCandidate _ t hevolves hf
      exact ⟨⟨hkept.1.1.withPool true, rfl⟩, hkept.2⟩
    · rw [show (world x).serve = serve x from rfl, hafter] at hok
      cases hok
  · obtain ⟨t, hevolves, hafter | hafter⟩ := reopen_state (x := x) a c.state
    · rw [show (world x).serve = serve x from rfl, hafter] at hnone
      cases hnone
    · refine hcandidate _ (h.evolved lasting_closedCandidate lasting_anything
        (by simp [undoes, stepOf]) ?_)
      rw [hafter]
      exact hevolves
  refine Triple.bind (R := fun _ => Clean (OpenCandidate x pre) Anything)
    ((writeJournal_plain rfl lasting_openCandidate lasting_anything
      (fun s h => ⟨⟨h.1.1.journaled (hj.withPhase _) rfl, h.1.2⟩, h.2⟩) (fun s _ h => h)
      fun c h => h.2.1.1.1.1.stopped).weaken (fun c h => h) ?_) fun _ => ?_
  · rintro (e | ⟨⟩) c h
    · exact hreopened c h
    · exact h
  refine Triple.bind (R := fun _ => Clean (OpenCandidate x pre) Anything)
    (failIf_triple (fun c h => h) hreopened) fun _ => ?_
  refine (triple_quiet (Prog.Makes.perform rfl) lasting_openCandidate lasting_anything
    fun c h => h.2.1.1.1.1.stopped).weaken (fun c h => h) ?_
  rintro (e | ⟨⟩) c h
  · exact hreopened c h
  · exact h

/-! ## The replacement in use -/

omit [DecidableEq Page] in
theorem reconcileEntry_quiet (path : FilePath) :
    (reconcileEntry path : Program Page Write Unit).Makes fun k => k.quiet = true := by
  unfold reconcileEntry
  split
  · exact Prog.Makes.ignore rfl
  · exact Prog.Makes.ignore rfl
  · refine Prog.Makes.bind (Prog.Makes.attempt (Prog.Makes.perform rfl)) fun read => ?_
    cases read with
    | error e => trivial
    | ok manifest =>
      dsimp only
      split
      · trivial
      · refine Prog.Makes.bind (Prog.Makes.attempt (Prog.Makes.perform rfl)) fun verified => ?_
        cases verified with
        | error e => trivial
        | ok verified =>
          dsimp only
          split
          · trivial
          · exact Prog.Makes.perform rfl
  · trivial

omit [DecidableEq Page] in
theorem complete_quiet : (complete : Program Page Write Unit).Makes fun k => k.quiet = true := by
  have hentries : ∀ paths,
      (reconcileEntries paths : Program Page Write Unit).Makes fun k => k.quiet = true := by
    intro paths
    induction paths with
    | nil => trivial
    | cons path paths ih => exact Prog.Makes.bind (reconcileEntry_quiet path) fun _ => ih
  have hreconcile : (reconcile : Program Page Write Unit).Makes fun k => k.quiet = true :=
    Prog.Makes.bind (Prog.Makes.perform rfl) fun _ =>
      Prog.Makes.bind (Prog.Makes.perform rfl) fun _ =>
        Prog.Makes.bind (Prog.Makes.ignore rfl) fun _ =>
          Prog.Makes.bind (Prog.Makes.perform rfl) fun entries => hentries entries
  exact Prog.Makes.bind hreconcile fun _ => Prog.Makes.perform rfl

/-- A failure that undoes the restore and loses writes. -/
theorem ServingCandidate.ended {result : Except BackupError RestoreOutcome} {k : Call Page Write}
    {a : Answer Page Write} (h : Clean (ServingCandidate x pre) Anything c)
    (hevolves : Evolves c.state (serve x k a c.state).2) (hundoes : undoes (stepOf x c k a))
    (hloses : loses (stepOf x c k a)) : Ended x result (c.served (world x) k a) :=
  Serving.ended (lasting_serving _ _ hevolves h.2.1.1) (undone_served.mpr (Or.inr hundoes))
    (Or.inl (lossy_served.mpr (Or.inr hloses)))

theorem SettledCandidate.ended {result : Except BackupError RestoreOutcome}
    (h : Clean SettledCandidate Anything c) (hkept : ∀ e, result = .error e → Lossy c) :
    Ended x result c :=
  ⟨h.2.1.2.2.1, Or.inr ⟨h.1, Or.inl h.2.1.1⟩, fun e he => Or.inl (hkept e he)⟩

theorem SettledCandidate.stopped (h : Clean SettledCandidate Anything c) : Stopped x c :=
  Or.inr (Or.inl ⟨h.2.1.1, Or.inr h.2.1.2.2.2⟩)

theorem succeed_triple (hj : JournalFor pre journal) (candidate : BackupRecord) :
    Triple (world x) (Clean (ServingCandidate x pre) Anything) (succeed journal candidate)
      (fun result c => Ended x result c) (Stopped x) := by
  have hstopped : ∀ c, Clean (ServingCandidate x pre) Anything c → Stopped x c :=
    fun c h => h.2.1.1.1.stopped
  have hsettled : ∀ c, Clean SettledCandidate Anything c → Stopped x c :=
    fun c h => SettledCandidate.stopped h
  refine Triple.bind (R := fun _ => Clean (ServingCandidate x pre) Anything)
    ((writeJournal_triple lasting_servingCandidate lasting_anything lasting_servingCandidate
      lasting_anything (fun s h => ⟨h.1.journaled (hj.withPhase _) rfl, h.2⟩) (fun s _ h => h)
      hstopped hstopped).weaken (fun c h => h) ?_) fun _ => ?_
  · rintro (e | ⟨⟩) c h
    · cases h with
      | before hcall failed h evolves =>
        exact ServingCandidate.ended h evolves (by simp [undoes, stepOf, failed])
          (by simp [loses, stepOf, failed])
      | after failed h =>
        exact ServingCandidate.ended h (serveFs_evolves rfl _ _) (by simp [undoes, stepOf, failed])
          (by simp [loses, stepOf, failed])
    · exact h
  refine Triple.bind (R := fun _ => Clean (ServingCandidate x pre) Anything)
    (Triple.perform (Clean.stable lasting_servingCandidate lasting_anything) hstopped
      (fun c a value h hok => ?_) (fun c a h hnone => ?_)) fun _ => ?_
  · exact h.evolved lasting_servingCandidate lasting_anything (not_undoes_of_ok hok)
      (settle_evolves (append_evolves _))
  · rw [show (world x).serve = serve x from rfl] at hnone
    exact ServingCandidate.ended h (settle_evolves (append_evolves _))
      (by simp [undoes, stepOf, hnone]) (by simp [loses, stepOf, hnone])
  refine Triple.bind (R := fun _ => Clean SettledCandidate Anything)
    ((writeJournal_triple lasting_servingCandidate lasting_anything lasting_settledCandidate
      lasting_anything (fun s h => ⟨by simp [State.reinstalls, State.journaled, RestorePhase.reinstalls],
        h.1.2.1, h.1.2.2, h.2⟩) (fun s _ h => h) hstopped hsettled).weaken (fun c h => h) ?_)
    fun _ => ?_
  · rintro (e | ⟨⟩) c h
    · cases h with
      | @before c call a hcall failed h evolves =>
        refine ServingCandidate.ended h evolves ?_ (by simp [loses, stepOf, failed])
        cases call <;> first | (cases hcall; done) | simp [undoes, stepOf, failed]
      | after failed h =>
        refine SettledCandidate.ended (h.evolved lasting_settledCandidate lasting_anything
          (by simp [undoes, stepOf, failed]) (serveFs_evolves rfl _ _)) fun _ _ => ?_
        exact lossy_served.mpr (Or.inr (by simp [loses, stepOf, failed]))
    · exact h
  refine Triple.bind (R := fun _ => Clean SettledCandidate Anything)
    (Triple.bind (R := fun _ => Clean SettledCandidate Anything)
      (Triple.ignore (Clean.stable lasting_settledCandidate lasting_anything) hsettled
        fun c a h => ?_) fun _ =>
      Triple.perform (Clean.stable lasting_settledCandidate lasting_anything) hsettled
        (fun c a _ h _ => h.quiet lasting_settledCandidate lasting_anything rfl)
        fun c a h hnone => SettledCandidate.ended
          (h.quiet lasting_settledCandidate lasting_anything rfl) fun _ _ => ?_) fun _ => ?_
  · -- the journal is removed, or left as it is
    refine h.served ?_ (fun hf => ?_) fun _ _ => Or.inr trivial
    · have hsettled := h.2.1.1
      cases hreply : (serve x (.fs .removeJournal (.remove .journal)) a c.state).1 <;>
        simp [undoes, stepOf, hreply, hsettled]
    · simp only [serve, serveFs, settle]
      split
      · exact ⟨by simp [State.reinstalls], hf.2⟩
      · exact hf
  · rw [show (world x).serve = serve x from rfl] at hnone
    have hinstalled := h.2.1.2.2.2
    exact lossy_served.mpr (Or.inr (by simp [loses, stepOf, hnone, hinstalled]))
  exact Triple.pure fun c h => SettledCandidate.ended h fun _ he => by cases he

/-! ## The replacement and its rollback -/

theorem beginMaintenance_served {a : Answer Page Write} {G' : State Page Write → Prop}
    (h : Clean (Serving x pre) G c)
    (hG : ∀ s, G s → G' { s with maintenance := true
                                 atMaintenance := some (s.atMaintenance.getD s.committed) }) :
    Clean (HeldOpen x pre) G' (c.served (world x) .beginMaintenance a) :=
  h.served (by simp [undoes, stepOf])
    (fun hf => ⟨⟨hf.1.of_files rfl rfl rfl, rfl⟩, hf.2.1⟩) fun _ hg => Or.inr (hG _ hg)

theorem State.holds_beginMaintenance (h : s.Holds) :
    State.Holds { s with maintenance := true
                         atMaintenance := some (s.atMaintenance.getD s.committed) } :=
  State.holds_of h rfl rfl

theorem replace_triple (hj : JournalFor pre journal) (candidate : BackupRecord)
    (candidatePath : FilePath) (fault : RestoreFault) :
    Triple (world x) (Clean (Serving x pre) State.Holds)
      (replace journal candidate candidatePath (.backup pre) fault)
      (fun result c => Ended x result c) (Stopped x) := by
  refine Triple.bind (R := fun _ => Clean (HeldOpen x pre) State.Holds)
    (Triple.ignore (Clean.stable lasting_serving lasting_holds) (fun c h => h.2.1.1.stopped)
      fun c a h => beginMaintenance_served h fun s hs => State.holds_beginMaintenance hs)
    fun _ => ?_
  refine Triple.bind (R := fun result c => match result with
    | .ok () => Clean (OpenCandidate x pre) Anything c
    | .error _ => Clean (Held x pre) Intact c)
    (Triple.attempt (replaceLive_triple hj candidatePath fault)) fun result => ?_
  have htry : ∀ F G : State Page Write → Prop, Lasting F → Lasting G →
      (∀ s, F s → F (s.journaled { journal with phase := .rollbackStarted })) →
      (∀ s, F s → G s → G (s.journaled { journal with phase := .rollbackStarted })) →
      (∀ s, F s → Ready x pre s) → ∀ post : Except BackupError Unit → Conf Page Write → Prop,
      (∀ c, Clean F G c → post (.ok ()) c) →
      Triple (world x) (Clean F G) (tryWriteJournal { journal with phase := .rollbackStarted }) post
        (Stopped x) := fun F G hF hG hFF hGG hready post hpost =>
    tryWriteJournal_triple rfl hF hG hFF hGG (fun c h => (hready _ h.2.1).stopped) hpost
  cases result with
  | error e =>
    exact Triple.bind (R := fun _ => Clean (Held x pre) Intact)
      (htry _ _ lasting_held lasting_intact (fun s h => h.journaled (hj.withPhase _) rfl)
        (fun s _ h => h.journaled) (fun s h => h.1) _ fun c h => h) fun _ => rollBack_triple hj
  | ok value =>
    refine Triple.bind (R := fun _ => Clean (ServingCandidate x pre) Anything)
      (Triple.ignore (Clean.stable lasting_openCandidate lasting_anything)
        (fun c h => h.2.1.1.1.1.stopped) fun c a h => h.served (by simp [undoes, stepOf])
          (fun hf => ⟨⟨hf.1.1.1.of_files rfl rfl rfl, hf.1.2, rfl⟩, hf.2⟩) fun _ hg => Or.inr hg)
      fun _ => ?_
    have hstopped : ∀ c, Clean (ServingCandidate x pre) Anything c → Stopped x c :=
      fun c h => h.2.1.1.1.stopped
    refine Triple.bind (R := fun _ => Clean (ServingCandidate x pre) Anything)
      (Triple.attempt (triple_quiet complete_quiet lasting_servingCandidate lasting_anything
        hstopped)) fun completed => ?_
    cases completed with
    | ok value => exact succeed_triple hj candidate
    | error e =>
      -- the rollback of a candidate that is already in use
      refine Triple.bind (R := fun _ => Clean (ServingCandidate x pre) Anything)
        (Triple.ignore (Clean.stable lasting_servingCandidate lasting_anything) hstopped
          fun c a h => h.quiet lasting_servingCandidate lasting_anything rfl) fun _ => ?_
      refine Triple.bind (R := fun _ => Clean (ServingCandidate x pre) Anything)
        (htry _ _ lasting_servingCandidate lasting_anything
          (fun s h => ⟨h.1.journaled (hj.withPhase _) rfl, h.2⟩) (fun s _ h => h)
          (fun s h => h.1.1) _ fun c h => h) fun _ => ?_
      refine Triple.bind (R := fun _ => Clean (Held x pre) Intact)
        (Triple.ignore (Clean.stable lasting_servingCandidate lasting_anything) hstopped
          fun c a h => ?_) fun _ => rollBack_triple hj
      have hbegun : Clean (Serving x pre) Intact c :=
        h.mono (fun s hf => hf.1) fun s hf _ => Or.inr hf.2
      refine (beginMaintenance_served hbegun fun s hs => ?_).mono (fun s hf => hf.1)
        fun s _ hg => hg
      exact hs.imp_left State.holds_beginMaintenance

/-! ## Restore -/

theorem Early.ended {result : Except BackupError RestoreOutcome} (h : Clean Early G c) :
    Ended x result c :=
  ⟨h.2.1.released, Or.inr ⟨h.1, Or.inl h.2.1.settled⟩, fun _ _ => Or.inr h.2.1.holds⟩

theorem Early.journaled (h : Early s) (hphase : journal.phase.reinstalls = false) :
    Early (s.journaled journal) where
  settled := by
    simp only [State.reinstalls, State.journaled, State.files_put]
    exact hphase
  pool := h.pool
  released := h.released
  outside := h.outside
  kept := by
    rw [State.content_journaled]
    exact h.kept

theorem Ended.error {e e' : BackupError} (h : Ended x (.error e) c) : Ended x (.error e') c :=
  ⟨h.released, h.final, fun _ _ => h.kept e rfl⟩

/-- The journal of the pre-restore backup is written. -/
theorem Published.journaled {image : Image Page Write} (h : Early s)
    (hin : SnapshotIn pre s) (himage : s.image (.backup pre) = some image)
    (hverifies : x.verifies image = true) (hj : JournalFor pre journal)
    (hphase : journal.phase.reinstalls = true) : Serving x pre (s.journaled journal) := by
  refine ⟨⟨⟨journal, by simp [State.journaled], ?_, hphase, hj.file⟩, image, ?_, hverifies, ?_⟩,
    h.pool, h.released⟩
  · simp only [RestoreJournal.valid, hj.operation, hj.candidate, hj.preRestore, Bool.or_true,
      Bool.and_self]
  · rw [← himage]
    exact State.image_of_files (by simp [State.journaled])
  · exact hin image himage

theorem orRemoveJournal_triple {α : Type} {m : Program Page Write α}
    {P : Conf Page Write → Prop} {R : α → Conf Page Write → Prop} {E : Conf Page Write → Prop}
    {post : Except BackupError α → Conf Page Write → Prop}
    (hm : Triple (world x) P m (fun result => match result with
      | .ok a => R a
      | .error _ => E) (Stopped x))
    (hremove : ∀ e, Triple (world x) E removeJournal (fun _ => post (.error e)) (Stopped x))
    (herror : ∀ e e' c, post (.error e) c → post (.error e') c)
    (hok : ∀ a c, R a c → post (.ok a) c) :
    Triple (world x) P (orRemoveJournal m) post (Stopped x) := by
  refine Triple.bind (R := fun result => match result with
      | .ok a => R a
      | .error _ => E) (Triple.attempt hm) fun result => ?_
  cases result with
  | ok a => exact Triple.pure (hok a)
  | error e =>
    refine Triple.bind (R := fun _ => post (.error e)) ((hremove e).weaken (fun c h => h) ?_)
      fun _ => Triple.throw fun c h => h
    rintro (e' | ⟨⟩) c h
    · exact herror e e' c h
    · exact h

/-- What follows the download of the pre-restore backup. -/
theorem swap_triple (hj : JournalFor pre journal) (hphase : journal.phase = .preRestoreBackupVerified)
    (candidate : BackupRecord) (candidatePath : FilePath) (fault : RestoreFault) :
    Triple (world x) (Clean (fun s => Published pre s ∧ Verified x pre s) State.Holds)
      (do writeJournal journal
          orRemoveJournal (perform .quiesceForMaintenance .workload)
          replace journal candidate candidatePath (.backup pre) fault)
      (fun result c => Ended x result c) (Stopped x) := by
  have hlasting : Lasting fun s => Published pre s ∧ Verified x pre s :=
    lasting_published.and lasting_verified
  have hserving : ∀ c, Clean (Serving x pre) State.Holds c → Stopped x c :=
    fun c h => h.2.1.1.stopped
  have hwritten : ∀ s : State Page Write, (Published pre s ∧ Verified x pre s) →
      Serving x pre (s.journaled journal) := by
    rintro s ⟨⟨hearly, hin⟩, image, himage, hverifies⟩
    exact Published.journaled hearly hin himage hverifies hj (by rw [hphase]; rfl)
  refine Triple.bind (R := fun _ => Clean (Serving x pre) State.Holds)
    ((writeJournal_triple hlasting lasting_holds (lasting_serving : Lasting (Serving x pre))
      lasting_holds hwritten (fun s _ h => Holds.journaled h)
      (fun c h => Published.stopped (h.mono (fun s hf => hf.1) fun s _ hg => hg)) hserving).weaken
      (fun c h => h) ?_) fun _ => ?_
  · rintro (e | ⟨⟩) c h
    · rw [hphase] at h
      cases h with
      | @before c call a hcall failed h evolves =>
        refine Early.ended (G := State.Holds) ((h.evolved hlasting lasting_holds ?_ evolves).mono
          (fun s hf => hf.1.1) fun s _ hg => hg)
        cases call <;> first | (cases hcall; done) | simp [undoes, stepOf]
      | @after c a failed h =>
        have hevolves : Evolves c.state (serve x (.fs (.writeJournal .preRestoreBackupVerified)
          .syncDirectory) a c.state).2 := serveFs_evolves rfl a.ok c.state
        refine (lasting_serving _ _ hevolves h.2.1).ended (undone_served.mpr (Or.inr ?_))
          (h.2.2.imp (fun hl => lossy_served.mpr (Or.inl hl)) hevolves.holds)
        simp [undoes, stepOf, failed]
    · exact h
  refine Triple.bind (R := fun _ => Clean (Serving x pre) State.Holds)
    (orRemoveJournal_triple (R := fun _ => Clean (Serving x pre) State.Holds)
      (E := Clean (Serving x pre) State.Holds) ((triple_quiet (Prog.Makes.perform rfl) lasting_serving lasting_holds hserving).weaken
        (fun c h => h) ?_)
      (fun e => removeJournal_serving.weaken (fun c h => h) fun _ c h => h.ended)
      (fun _ _ _ h => h.error) fun _ _ h => h) fun _ => replace_triple hj candidate candidatePath fault
  rintro (e | ⟨⟩) c h
  · exact h
  · exact h

/-- **A restore ends or is stopped**, whatever fails and whatever the service commits. -/
theorem restore_triple (backupId confirmation : String) (fault : RestoreFault) :
    Triple (world x) (Clean Early State.Holds) (restore backupId confirmation fault)
      (fun result c => Ended x result c) (Stopped x) := by
  have hended : ∀ (result : Except BackupError RestoreOutcome) c, Clean Early State.Holds c →
      Ended x result c := fun result c h => Early.ended h
  have hstopped : ∀ c, Clean Early State.Holds c → Stopped x c := fun c h => Early.stopped h
  have hstable := Clean.stable (x := x) lasting_early lasting_holds
  have hquiet : ∀ (k : Call Page Write) c a, k.quiet = true → Clean Early State.Holds c →
      Clean Early State.Holds (c.served (world x) k a) :=
    fun k c a hk h => h.quiet lasting_early lasting_holds hk
  have hjournal : ∀ journal : RestoreJournal, journal.phase.plain = true →
      journal.phase.reinstalls = false → Triple (world x) (Clean Early State.Holds)
        (writeJournal journal) (fun _ => Clean Early State.Holds) (Stopped x) :=
    fun journal hplain hphase => writeJournal_plain hplain lasting_early lasting_holds
      (fun s h => h.journaled hphase) (fun s _ h => Holds.journaled h) hstopped
  unfold restore
  split
  · exact Triple.throw fun c h => hended _ c h
  refine Triple.bind (R := fun _ => Clean Early State.Holds) (Triple.perform hstable hstopped
    (fun c a _ h _ => hquiet _ c a rfl h) (fun c a h _ => hended _ _ (hquiet _ c a rfl h)))
    fun records => ?_
  cases findBackup records backupId with
  | none => exact Triple.throw fun c h => hended _ c h
  | some requested =>
    dsimp only
    cases hsafe : safeFileName requested.fileName with
    | false => exact Triple.throw fun c h => hended _ c h
    | true =>
      refine Triple.bind (R := fun _ => Clean Early State.Holds) (Triple.perform hstable hstopped
        (fun c a _ h _ => hquiet _ c a rfl h) (fun c a h _ => hended _ _ (hquiet _ c a rfl h)))
        fun operationId => ?_
      refine Triple.bind (R := fun _ => Clean Early State.Holds)
        ((hjournal _ rfl rfl).weaken (fun c h => h) ?_) fun _ => ?_
      · rintro (e | ⟨⟩) c h
        · exact hended _ c h
        · exact h
      have hremove : ∀ e : BackupError, Triple (world x) (Clean Early State.Holds) removeJournal
          (fun _ => Ended x (.error e)) (Stopped x) :=
        fun e => removeJournal_early.weaken (fun c h => h) fun _ c h => hended _ c h
      refine Triple.bind (R := fun _ => Clean Early State.Holds)
        (orRemoveJournal_triple (R := fun _ => Clean Early State.Holds)
          ((download_triple lasting_early lasting_holds hstopped).weaken (fun c h => h) ?_)
          hremove (fun _ _ _ h => h.error) fun _ _ h => h) fun candidate => ?_
      · rintro (e | ⟨record, path⟩) c h
        · exact h
        · exact h.2.2.2.mono (fun s hf => hf.1) fun s _ hg => hg
      refine Triple.bind (R := fun _ => Clean Early State.Holds)
        ((hjournal _ rfl rfl).weaken (fun c h => h) ?_) fun _ => ?_
      · rintro (e | ⟨⟩) c h
        · exact hended _ c h
        · exact h
      refine Triple.bind (R := fun record => Clean (Published record.fileName) State.Holds)
        (orRemoveJournal_triple (R := fun record => Clean (Published record.fileName) State.Holds)
          (create_triple.weaken (fun c h => h) ?_) hremove (fun _ _ _ h => h.error) fun _ _ h => h)
        fun preRestore => ?_
      · rintro (e | record) c h
        · exact h
        · exact h
      refine Triple.bind (R := fun found c => safeFileName preRestore.fileName = true ∧
          found.2 = .backup preRestore.fileName ∧
          Clean (fun s => Published preRestore.fileName s ∧ Verified x preRestore.fileName s)
            State.Holds c)
        (orRemoveJournal_triple (R := fun found c => safeFileName preRestore.fileName = true ∧
          found.2 = .backup preRestore.fileName ∧
          Clean (fun s => Published preRestore.fileName s ∧ Verified x preRestore.fileName s)
            State.Holds c) (E := Clean Early State.Holds)
          ((download_triple lasting_published lasting_holds
            (fun c h => Published.stopped h)).weaken (fun c h => h) ?_)
          hremove (fun _ _ _ h => h.error) fun _ _ h => h) fun found => ?_
      · rintro (e | ⟨record, path⟩) c h
        · exact Published.error h
        · obtain ⟨hid, hsafe', rfl, hclean⟩ := h
          have hname : record.fileName = preRestore.fileName := by
            unfold BackupRecord.fileName
            unfold backupFileName
            rw [hid]
          rw [hname] at hsafe' hclean
          exact ⟨hsafe', by rw [hname], hclean⟩
      obtain ⟨record, path⟩ := found
      intro c hc
      obtain ⟨hsafe', hpath, hclean⟩ := hc
      obtain rfl : path = .backup preRestore.fileName := hpath
      let journal : RestoreJournal :=
        { operationId := operationId.text
          phase := .preRestoreBackupVerified
          candidateFile := requested.fileName
          preRestoreFile := preRestore.fileName }
      have hj : JournalFor preRestore.fileName journal :=
        ⟨Option.isSome_iff_exists.mpr ⟨operationId, Uuid.parse_text operationId⟩, hsafe, hsafe', rfl⟩
      exact swap_triple hj rfl candidate.1 candidate.2 fault c hclean

end RemindiCore.Admin
