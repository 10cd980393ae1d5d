import RemindiCore.Proof.Leftovers
import RemindiCore.Proof.Owners
import RemindiCore.Proof.RestoreCalls

/-!
# The candidate of a restore

Between its verification and its installation the candidate of a restore is a backup
like any other: the retention run of the pre-restore backup, or of another operation,
may expire it.  As long as no retention query selects it, no step changes its pair of
files, and what is installed is what was verified (`candidate_kept`).
-/

namespace RemindiCore.Admin.Directory

open Fallible

variable {Page Write : Type} {x : Image Page Write → Option VerifiedFile}
  {id : Uuid} {α β : Type}

/-! ## The claim -/

/-- The restore has verified its candidate. -/
def VerifiesCandidate (id : Uuid) (step : SiteStep Page Write) : Prop :=
  step.action = .call (.verifyDatabase (.backup (backupFileName id))) false

/-- The restore has put the candidate into the place of the live database. -/
def InstallsCandidate (step : SiteStep Page Write) : Prop :=
  ∃ operation, step.action =
    .call (.fs (.installDatabase .candidate) (.rename (.staged operation) .live)) false

/-- The step leaves the pair of the candidate as it was verified, and installs nothing else. -/
structure Undisturbed (x : Image Page Write → Option VerifiedFile) (id : Uuid)
    (verified step : SiteStep Page Write) : Prop where
  database : step.after.state.files (.backup (backupFileName id)) =
    verified.before.state.files (.backup (backupFileName id))
  manifest : step.after.state.files (.manifest (backupFileName id)) =
    verified.before.state.files (.manifest (backupFileName id))
  installed : InstallsCandidate step → step.after.state.verify x .live =
    verified.before.state.verify x (.backup (backupFileName id))

/-- **From its verification to its installation the candidate is not disturbed.** -/
def CandidateKept (x : Image Page Write → Option VerifiedFile) (id : Uuid)
    (history : List (SiteStep Page Write)) : Prop :=
  ∀ (i j : Nat) (verified step : SiteStep Page Write), i < j → history[i]? = some verified →
    history[j]? = some step → VerifiesCandidate id verified →
    (∀ n between, i < n → n < j → history[n]? = some between → ¬ InstallsCandidate between) →
    Undisturbed x id verified step

/-- No retention query of the step selects the candidate. -/
def SparesCandidate (id : Uuid) (step : SiteStep Page Write) : Prop :=
  ∀ k, step.calls = some k → Unselected id k step.before.state

/-! ## Pinned files -/

/-- The identifier is drawn, and the guarded files are what they were. -/
structure Steady (id : Uuid) (guarded : FilePath → Prop)
    (content : FilePath → Option (File Page Write)) (s : Directory Page Write) : Prop where
  used : id ∈ s.used
  files : ∀ path, guarded path → s.files path = content path

/-- The pair of a backup. -/
def Pair (id : Uuid) (path : FilePath) : Prop :=
  path = .backup (backupFileName id) ∨ path = .manifest (backupFileName id)

/-- The pair, and the copy that is about to be installed. -/
def PairAndCopy (id : Uuid) (operation : String) (path : FilePath) : Prop :=
  Pair id path ∨ path = .staged operation

section

variable {guarded : FilePath → Prop} {content : FilePath → Option (File Page Write)}
  {s : Directory Page Write}

theorem Pair.reserved {path : FilePath} (h : Pair id path) : Reserved id path := by
  rcases h with h | h
  · exact Or.inl h
  · exact Or.inr (Or.inl h)

theorem PairAndCopy.reserved {operation : String} {path : FilePath}
    (h : PairAndCopy id operation path) : Reserved id path := by
  rcases h with h | h
  · exact h.reserved
  · exact Or.inr (Or.inr (Or.inr ⟨operation, h⟩))

theorem Steady.serve {k : Call Page Write} (h : Steady id guarded content s)
    (hk : Spares guarded k) (a : Reply Page Write) :
    Steady id guarded content (Directory.serve x k a s).2 where
  used := mem_used_serve k a h.used
  files := fun path hpath => (files_serve (hk path hpath) a).trans (h.files path hpath)

theorem keeps_steady (hguarded : ∀ path, guarded path → Reserved id path) :
    Keeps (world x) (Unselected id) (Steady id guarded content) (allowed id)
      (Avoids (Reserved id)) := by
  intro k a s hk hgood hs
  refine ⟨hs.serve (fun path hpath => hk.spares path (hguarded path hpath)) a, fun v hv => ?_⟩
  exact allowed_serve hs.used hgood hv

end

/-! ## What the restore keeps -/

/-- A step that the pair of the candidate is not changed by. -/
structure Fine (id : Uuid) (content : FilePath → Option (File Page Write))
    (step : SiteStep Page Write) : Prop where
  before : ∀ path, Pair id path → step.before.state.files path = content path
  after : ∀ path, Pair id path → step.after.state.files path = content path
  installed : InstallsCandidate step →
    step.after.state.files .live = content (.backup (backupFileName id))

/-- The guarded files stay, and have stayed since the restore has found the record. -/
structure Guarded (id : Uuid) (guarded : FilePath → Prop)
    (content : FilePath → Option (File Page Write)) (earlier : List (SiteStep Page Write))
    (c : SiteTrace Page Write) : Prop where
  state : c.state.Kept (Steady id guarded content) (allowed id) (Avoids (Reserved id))
  history : ∃ later, c.history = earlier ++ later ∧ ∀ step ∈ later, Fine id content step

section

variable {guarded guarded' : FilePath → Prop} {content : FilePath → Option (File Page Write)}
  {earlier : List (SiteStep Page Write)} {c : SiteTrace Page Write}

/-- Fewer files are guarded. -/
theorem Guarded.mono (h : Guarded id guarded content earlier c)
    (hguarded : ∀ path, guarded' path → guarded path) : Guarded id guarded' content earlier c where
  state := ⟨⟨h.state.state.used, fun path hpath => h.state.state.files path (hguarded path hpath)⟩,
    h.state.tasks⟩
  history := h.history

theorem Guarded.extend (h : Guarded id guarded content earlier c) {step : SiteStep Page Write}
    {p : Site Page Write} (hfine : Fine id content step)
    (hp : p.Kept (Steady id guarded' content) (allowed id) (Avoids (Reserved id))) :
    Guarded id guarded' content earlier ⟨c.history ++ [step], p⟩ where
  state := hp
  history := by
    obtain ⟨later, hlater, hall⟩ := h.history
    refine ⟨later ++ [step], by rw [hlater, List.append_assoc], fun step' hstep' => ?_⟩
    rcases List.mem_append.mp hstep' with hstep' | hstep'
    · exact hall step' hstep'
    · rw [List.mem_singleton.mp hstep']
      exact hfine

theorem stable_guarded (hpair : ∀ path, Pair id path → guarded path)
    (hguarded : ∀ path, guarded path → Reserved id path) :
    Stable (site x) (Under (SparesCandidate id) (Guarded id guarded content earlier)) := by
  refine Under.stable fun c turn h hgood => ?_
  have hturned := h.state.turn (keeps_steady (x := x) hguarded) clean_operation
    (fun _ _ hs => ⟨hs.used, hs.files⟩) turn (fun k hk => hgood k hk)
  refine h.extend ⟨?_, ?_, ?_⟩ hturned
  · exact fun path hpath => h.state.state.files path (hpair path hpath)
  · exact fun path hpath => hturned.state.files path (hpair path hpath)
  · rintro ⟨operation, haction⟩
    cases haction

/-- The call changes no guarded file and installs no candidate. -/
structure Harmless (guarded : FilePath → Prop) (k : Call Page Write) : Prop where
  spares : Spares guarded k
  installs : ∀ operation,
    k ≠ .fs (.installDatabase .candidate) (.rename (.staged operation) .live)

theorem Guarded.served (hpair : ∀ path, Pair id path → guarded path) {k : Call Page Write}
    (hk : Harmless guarded k) (a : Reply Page Write) (h : Guarded id guarded content earlier c) :
    Guarded id guarded content earlier (c.served (site x) k a) := by
  have hsteady : Steady id guarded content (serve x k a c.state.state).2 :=
    h.state.state.serve hk.spares a
  refine h.extend ⟨?_, ?_, ?_⟩ ⟨hsteady, h.state.tasks⟩
  · exact fun path hpath => h.state.state.files path (hpair path hpath)
  · exact fun path hpath => hsteady.files path (hpair path hpath)
  · rintro ⟨operation, haction⟩
    exact absurd (Action.call.inj haction).1 (hk.installs operation)

theorem triple_harmless (hpair : ∀ path, Pair id path → guarded path)
    (hguarded : ∀ path, guarded path → Reserved id path) {m : Program Page Write α}
    (hm : m.Obeys (allowed id) (Harmless guarded)) :
    Triple (site x) (Under (SparesCandidate id) (Guarded id guarded content earlier)) m
      (fun _ => Under (SparesCandidate id) (Guarded id guarded content earlier))
      (Under (SparesCandidate id) (Guarded id guarded content earlier)) := by
  refine Triple.obey hm (stable_guarded hpair hguarded) fun k a c hk h hgood => ?_
  refine ⟨h.served hpair hk a, fun v hv => ?_⟩
  exact allowed_serve h.state.state.used (hgood k rfl) hv

end

/-! ## The calls of the restore -/

theorem Routine.harmless {k : Call Page Write} (h : Routine k) : Harmless (Pair id) k where
  spares := by
    rintro path (rfl | rfl) htouches
    · exact (h.spares _).1 htouches
    · exact (h.spares _).2 htouches
  installs := h.installs

theorem Avoids.harmless {k : Call Page Write} (h : Avoids (Reserved id) k) :
    Harmless (Pair id) k where
  spares := fun path hpath => h.spares path hpath.reserved
  installs := by
    rintro operation rfl
    exact h .live (Or.inr (Or.inr (Or.inl rfl))) (Or.inr rfl)

/-- The restore, its journal and its pre-restore backup change no pair. -/
abbrev Gentle (id : Uuid) (m : Program Page Write α) : Prop :=
  m.Obeys (allowed id) (Harmless (Pair id))

theorem gentle_routine {m : Program Page Write α} (h : m.Makes Routine) : Gentle id m :=
  h.obeys.mono fun _ hk => hk.harmless

theorem gentle_plain {m : Program Page Write α} (h : m.Makes Plain) : Gentle id m :=
  gentle_routine (h.mono fun _ => Plain.routine)

theorem gentle_orRemoveJournal {m : Program Page Write α} (h : Gentle id m) :
    Gentle id (orRemoveJournal m) := by
  unfold orRemoveJournal
  refine Prog.Obeys.bind h.attempt fun result => ?_
  cases result with
  | ok a => trivial
  | error e => exact gentle_plain (Prog.Makes.bind plain_removeJournal fun _ => trivial)

theorem gentle_create (source : BackupSource) :
    Gentle id (Admin.create source : Program Page Write BackupRecord) :=
  (obeys_create ⟨fun _ h => free_reserved h, freeRows_reserved fun _ _ => spared_of_allowed⟩
    source).mono fun _ hk => hk.harmless

/-! ## The installation -/

section

variable {content : FilePath → Option (File Page Write)} {earlier : List (SiteStep Page Write)}

/-- Good runs in which the pair is guarded. -/
abbrev Kept (id : Uuid) (content : FilePath → Option (File Page Write))
    (earlier : List (SiteStep Page Write)) : SiteTrace Page Write → Prop :=
  Under (SparesCandidate id) (Guarded id (Pair id) content earlier)

/-- Good runs in which the copy of the candidate is guarded too. -/
abbrev KeptCopy (id : Uuid) (operation : String) (content : FilePath → Option (File Page Write))
    (earlier : List (SiteStep Page Write)) : SiteTrace Page Write → Prop :=
  Under (SparesCandidate id) (Guarded id (PairAndCopy id operation) content earlier)

theorem kept_gentle {m : Program Page Write α} (h : Gentle id m) :
    Triple (site x) (Kept id content earlier) m (fun _ => Kept id content earlier)
      (Kept id content earlier) :=
  triple_harmless (fun _ h => h) (fun _ => Pair.reserved) h

theorem KeptCopy.kept {operation : String} {c : SiteTrace Page Write}
    (h : KeptCopy id operation content earlier c) : Kept id content earlier c :=
  fun hall => (h hall).mono fun _ => Or.inl

/-- A call about the copy that does not change it. -/
theorem keptCopy_bind {operation : String} {caller : Caller} {call : FsCall Page Write}
    {f : Unit → Program Page Write Unit}
    (hk : Harmless (PairAndCopy id operation) (.fs caller call))
    (hf : Triple (site x) (KeptCopy id operation content earlier) (f ())
      (fun _ => Kept id content earlier) (Kept id content earlier)) :
    Triple (site x) (KeptCopy id operation content earlier) ((fs caller call).bind f)
      (fun _ => Kept id content earlier) (Kept id content earlier) := by
  have hserved : ∀ (c : SiteTrace Page Write) (a : Reply Page Write),
      KeptCopy id operation content earlier c →
        KeptCopy id operation content earlier (c.served (site x) (.fs caller call) a) :=
    fun c a h => Under.served h fun h _ => h.served (fun _ => Or.inl) hk a
  refine Triple.bind (R := fun _ => KeptCopy id operation content earlier) (Triple.perform
    (stable_guarded (fun _ => Or.inl) fun _ => PairAndCopy.reserved) (fun c h => h.kept) ?_ ?_)
    fun _ => hf
  · intro c a _ h _
    exact hserved c a h
  · intro c a h _
    exact (hserved c a h).kept

/-- The copy holds what the candidate holds. -/
theorem copied (hstaged : ∀ operation, content (.staged operation) =
    content (.backup (backupFileName id))) {operation : String} {c : SiteTrace Page Write}
    {a : Reply Page Write} (h : Guarded id (Pair id) content earlier c)
    (hok : ((site x).serve (.fs (.installDatabase .candidate)
      (.copy (.backup (backupFileName id)) (.staged operation))) a c.state).1 = some ()) :
    Guarded id (PairAndCopy id operation) content earlier
      (c.served (site x) (.fs (.installDatabase .candidate)
        (.copy (.backup (backupFileName id)) (.staged operation))) a) := by
  have hspares : Spares (Pair id) (.fs (.installDatabase .candidate)
      (.copy (.backup (backupFileName id)) (.staged operation)) : Call Page Write) :=
    (plain_copy _ _ _).routine.harmless.spares
  have hsteady := h.state.state.serve (x := x) hspares a
  have hcopy : (serve x (.fs (.installDatabase .candidate)
      (.copy (.backup (backupFileName id)) (.staged operation))) a c.state.state).2.files
        (.staged operation) = content (.staged operation) := by
    have hreply : (serveFs (.copy (.backup (backupFileName id)) (.staged operation)) a.ok
      c.state.state).1 = some () := hok
    have hsource := h.state.state.files _ (Or.inl rfl)
    rw [hstaged, ← hsource]
    show (serveFs (.copy (.backup (backupFileName id)) (.staged operation)) a.ok
      c.state.state).2.files (.staged operation) = _
    unfold serveFs at hreply ⊢
    dsimp only at hreply ⊢
    cases hfile : c.state.state.files (.backup (backupFileName id)) with
    | none =>
      rw [hfile] at hreply
      cases hreply
    | some file =>
      rw [hfile] at hreply
      dsimp only at hreply ⊢
      by_cases haok : a.ok = true
      · rw [if_pos haok]
        exact Function.update_self ..
      · rw [if_neg haok] at hreply
        cases hreply
  refine h.extend ⟨h.state.state.files, ?_, ?_⟩ ⟨⟨hsteady.used, ?_⟩, h.state.tasks⟩
  · exact hsteady.files
  · rintro ⟨operation', haction⟩
    cases haction
  · rintro path (hpair | rfl)
    · exact hsteady.files path hpair
    · exact hcopy

/-- The copy becomes the live database. -/
theorem renamed (hstaged : ∀ operation, content (.staged operation) =
    content (.backup (backupFileName id))) {operation : String} {c : SiteTrace Page Write}
    (h : Guarded id (PairAndCopy id operation) content earlier c) (a : Reply Page Write) :
    Guarded id (Pair id) content earlier
      (c.served (site x) (.fs (.installDatabase .candidate)
        (.rename (.staged operation) .live)) a) := by
  have hspares : Spares (Pair id) (.fs (.installDatabase .candidate)
      (.rename (.staged operation) .live) : Call Page Write) := by
    rintro path (rfl | rfl) htouches
    · rcases htouches with htouches | htouches <;> cases htouches
    · rcases htouches with htouches | htouches <;> cases htouches
  have hpair : Guarded id (Pair id) content earlier c := h.mono fun _ => Or.inl
  have hsteady := hpair.state.state.serve (x := x) hspares a
  refine hpair.extend ⟨hpair.state.state.files, hsteady.files, ?_⟩ ⟨hsteady, h.state.tasks⟩
  rintro ⟨operation', haction⟩
  have hreply : (serveFs (.rename (.staged operation) .live) a.ok c.state.state).1.isNone =
    false := (Action.call.inj haction).2
  show (serveFs (.rename (.staged operation) .live) a.ok c.state.state).2.files .live = _
  have hcopy := h.state.state.files _ (Or.inr rfl)
  rw [hstaged] at hcopy
  cases hfile : c.state.state.files (.staged operation) with
  | none =>
    unfold serveFs at hreply
    dsimp only at hreply
    rw [hfile] at hreply
    cases hreply
  | some file =>
    rw [serveFs_rename hfile] at hreply ⊢
    rw [← hcopy, hfile]
    by_cases hok : a.ok = true
    · rw [if_pos hok]
      show ((c.state.state.put .live (some file)).put (.staged operation) none).files .live = _
      rw [files_put _ (show FilePath.staged operation ≠ .live from nofun)]
      show Function.update c.state.state.files .live (some file) .live = some file
      rw [Function.update_self]
    · rw [if_neg hok] at hreply
      cases hreply

/-- **The candidate is installed as it was verified.** -/
theorem kept_install (hstaged : ∀ operation, content (.staged operation) =
    content (.backup (backupFileName id))) (operation : String) :
    Triple (site x) (Kept id content earlier)
      (installDatabase .candidate (.backup (backupFileName id)) operation)
      (fun _ => Kept id content earlier) (Kept id content earlier) := by
  unfold installDatabase
  have hstable : Stable (site x) (Kept id content earlier) :=
    stable_guarded (fun _ h => h) fun _ => Pair.reserved
  refine Triple.bind_keeps (kept_gentle (Prog.Makes.obeys (Prog.Makes.ignore
    ⟨fun _ h htouches => ?_, nofun⟩))) fun _ => ?_
  · rcases h with rfl | rfl <;> cases htouches
  -- the copy
  refine Triple.bind (R := fun _ => KeptCopy id operation content earlier)
    (Triple.perform hstable (fun _ h => h) ?_ ?_) fun _ => ?_
  · intro c a _ h hok
    exact Under.served h fun h _ => copied hstaged h hok
  · intro c a h _
    exact Under.served h fun h _ => h.served (fun _ h => h) (plain_copy _ _ _).routine.harmless a
  refine keptCopy_bind ?_ ?_
  · exact ⟨fun _ _ h => h, nofun⟩
  refine keptCopy_bind ?_ ?_
  · exact ⟨fun _ _ h => h, nofun⟩
  -- the rename
  refine Triple.bind (R := fun _ => Kept id content earlier) (Triple.perform
    (stable_guarded (fun _ => Or.inl) fun _ => PairAndCopy.reserved) (fun c h => h.kept) ?_ ?_)
    fun _ => ?_
  · intro c a _ h _
    exact Under.served h fun h _ => renamed hstaged h a
  · intro c a h _
    exact Under.served h fun h _ => renamed hstaged h a
  · exact kept_gentle (gentle_routine
      (Prog.Makes.perform (.of_mentions nofun nofun nofun nofun nofun)))

theorem kept_routine {m : Program Page Write α} (h : m.Makes Routine) :
    Triple (site x) (Kept id content earlier) m (fun _ => Kept id content earlier)
      (Kept id content earlier) :=
  kept_gentle (gentle_routine h)

theorem kept_plain {m : Program Page Write α} (h : m.Makes Plain) :
    Triple (site x) (Kept id content earlier) m (fun _ => Kept id content earlier)
      (Kept id content earlier) :=
  kept_gentle (gentle_plain h)

theorem kept_call {k : Call Page Write} {e : BackupError}
    (h : ∀ path, ¬ mentions path k) (hinstalls : ∀ operation,
      k ≠ .fs (.installDatabase .candidate) (.rename (.staged operation) .live)) :
    Triple (site x) (Kept id content earlier) (Admin.perform k e)
      (fun _ => Kept id content earlier) (Kept id content earlier) :=
  kept_routine (Prog.Makes.perform (.of_mentions (fun _ => h _) (fun _ => h _) (fun _ => h _)
    (fun _ => h _) hinstalls))

/-! ## The restore -/

theorem kept_replaceLive (hstaged : ∀ operation, content (.staged operation) =
    content (.backup (backupFileName id))) (journal : RestoreJournal) (fault : RestoreFault) :
    Triple (site x) (Kept id content earlier)
      (replaceLive journal (.backup (backupFileName id)) fault)
      (fun _ => Kept id content earlier) (Kept id content earlier) := by
  unfold replaceLive
  refine Triple.bind_keeps (kept_plain (plain_writeJournal _)) fun _ => ?_
  refine Triple.bind_keeps (kept_call (fun _ h => h) nofun) fun _ => ?_
  refine Triple.bind_keeps (kept_plain (plain_failIf _ _)) fun _ => ?_
  refine Triple.bind_keeps (kept_install hstaged _) fun _ => ?_
  refine Triple.bind_keeps (kept_plain (plain_writeJournal _)) fun _ => ?_
  refine Triple.bind_keeps (kept_plain (plain_failIf _ _)) fun _ => ?_
  refine Triple.bind_keeps (kept_routine (Prog.Makes.perform
    (.of_mentions nofun nofun nofun nofun nofun))) fun _ => ?_
  refine Triple.bind_keeps (kept_plain (plain_writeJournal _)) fun _ => ?_
  refine Triple.bind_keeps (kept_plain (plain_failIf _ _)) fun _ => ?_
  exact kept_call (fun _ h => h) nofun

theorem kept_proceed (hstaged : ∀ operation, content (.staged operation) =
    content (.backup (backupFileName id))) (requested : BackupRecord) (fault : RestoreFault) :
    Triple (site x) (Kept id content earlier) (proceed id.text requested fault)
      (fun _ => Kept id content earlier) (Kept id content earlier) := by
  unfold proceed
  refine Triple.bind_keeps (kept_call (fun _ h => h) nofun) fun operationId => ?_
  refine Triple.bind_keeps (kept_plain (plain_writeJournal _)) fun _ => ?_
  refine Triple.bind_yields (kept_gentle (gentle_orRemoveJournal (gentle_plain
    (plain_download _)))) (yields_orRemoveJournal (yields_download _)) ?_
  rintro ⟨candidate, path⟩ ⟨hid, hpath⟩
  dsimp only at hid hpath
  subst hpath
  obtain rfl : candidate.id = id := by
    apply backupFileName_injective
    unfold backupFileName
    rw [hid]
  refine Triple.bind_keeps (kept_plain (plain_writeJournal _)) fun _ => ?_
  -- the pre-restore backup, with its retention run
  refine Triple.bind_keeps (kept_gentle (gentle_orRemoveJournal (gentle_create _)))
    fun preRestore => ?_
  refine Triple.bind_yields (kept_gentle (gentle_orRemoveJournal (gentle_plain
    (plain_download _)))) (yields_orRemoveJournal (yields_download _)) ?_
  rintro ⟨downloaded, path⟩ ⟨-, hpath⟩
  dsimp only at hpath
  subst hpath
  refine Triple.bind_keeps (kept_plain (plain_writeJournal _)) fun _ => ?_
  refine Triple.bind_keeps (kept_gentle (gentle_orRemoveJournal (gentle_plain
    (Prog.Makes.perform (.of_mentions nofun nofun nofun nofun nofun))))) fun _ => ?_
  -- the replacement
  show Triple (site x) _ (replace _ candidate _ _ fault) _ _
  rw [replace_eq]
  refine Triple.bind_keeps (kept_routine (Prog.Makes.ignore
    (.of_mentions nofun nofun nofun nofun nofun))) fun _ => ?_
  refine Triple.bind_keeps (Triple.attempt (kept_replaceLive hstaged _ _)) fun replaced => ?_
  exact kept_routine (routine_conclusion _ _ _ _)

/-- Nothing has been disturbed since the verification. -/
theorem Guarded.candidateKept {c : SiteTrace Page Write}
    (h : Guarded id (Pair id) content earlier c)
    (hearlier : ∀ step ∈ earlier, ¬ VerifiesCandidate id step) :
    CandidateKept x id c.history := by
  intro i j verified step hij hi hj hverifies _
  obtain ⟨later, hlater, hall⟩ := h.history
  rw [hlater] at hi hj
  have hle : earlier.length ≤ i := by
    by_contra hlt
    rw [List.getElem?_append_left (Nat.not_le.mp hlt)] at hi
    exact hearlier verified (List.mem_of_getElem? hi) hverifies
  rw [List.getElem?_append_right hle] at hi
  rw [List.getElem?_append_right (by omega)] at hj
  have hbefore := (hall verified (List.mem_of_getElem? hi)).before
  have hstep := hall step (List.mem_of_getElem? hj)
  refine ⟨?_, ?_, fun hinstalls => ?_⟩
  · exact (hstep.after _ (Or.inl rfl)).trans (hbefore _ (Or.inl rfl)).symm
  · exact (hstep.after _ (Or.inr rfl)).trans (hbefore _ (Or.inr rfl)).symm
  · unfold Directory.verify Directory.image
    rw [hstep.installed hinstalls, hbefore _ (Or.inl rfl)]

end

/-! ## Every run -/

/-- The restore has not found the record yet. -/
structure Requested (id : Uuid) (c : SiteTrace Page Write) : Prop where
  prepared : Prepared id c.state
  unverified : ∀ step ∈ c.history, ¬ VerifiesCandidate id step

theorem Requested.candidateKept {c : SiteTrace Page Write} (h : Requested id c) :
    CandidateKept x id c.history := by
  intro i j verified step _ hi _ hverifies _
  exact absurd hverifies (h.unverified verified (List.mem_of_getElem? hi))

theorem stable_requested :
    Stable (site x) (Under (SparesCandidate id) (Requested id : SiteTrace Page Write → Prop)) := by
  refine Under.stable fun c turn h hgood => ⟨h.prepared.turn turn fun k hk => hgood k hk, ?_⟩
  intro step hstep hverifies
  rcases List.mem_append.mp hstep with hstep | hstep
  · exact h.unverified step hstep hverifies
  · rw [List.mem_singleton.mp hstep] at hverifies
    cases hverifies

/-- What the pair, and a copy of the candidate, hold now. -/
def pinned (id : Uuid) (s : Directory Page Write) : FilePath → Option (File Page Write)
  | .staged _ => s.files (.backup (backupFileName id))
  | path => s.files path

/-- The record is found: from now on the pair is guarded. -/
theorem Requested.guarded {c : SiteTrace Page Write} (h : Requested id c)
    (hrecorded : Recorded c.state.state id) :
    Guarded id (Pair id) (pinned id c.state.state) c.history c := by
  obtain ⟨hused, hclean⟩ := h.prepared.clean hrecorded
  refine ⟨⟨⟨hused, ?_⟩, hclean⟩, [], (List.append_nil _).symm, fun _ h => ?_⟩
  swap
  · exact (List.not_mem_nil h).elim
  rintro path (rfl | rfl)
  · rfl
  · rfl

/-- Good runs in which the candidate has been kept. -/
abbrev Good (x : Image Page Write → Option VerifiedFile) (id : Uuid) :
    SiteTrace Page Write → Prop :=
  Under (SparesCandidate id) fun c => CandidateKept x id c.history

theorem listBackups_recorded {s : Directory Page Write} {a : Reply Page Write}
    {records : List BackupRecord} {record : BackupRecord}
    (hserve : (serve x .listBackups a s).1 = some records)
    (hfound : findBackup records id.text = some record) : Recorded s id := by
  obtain ⟨hmem, hid⟩ := findBackup_id hfound
  unfold serve at hserve
  dsimp only at hserve
  split at hserve
  · rw [← Option.some.inj hserve] at hmem
    obtain ⟨row, hrow, rfl⟩ := List.mem_map.mp hmem
    exact ⟨row, hrow, hid⟩
  · cases hserve

theorem good_restore (confirmation : String) (fault : RestoreFault) :
    Triple (site x) (Under (SparesCandidate id) (Requested id))
      (restore id.text confirmation fault) (fun _ => Good x id) (Good x id) := by
  have hgood : ∀ c : SiteTrace Page Write,
      Under (SparesCandidate id) (Requested id) c → Good x id c :=
    fun c h hall => (h hall).candidateKept
  rw [restore_eq]
  split
  · exact Triple.throw hgood
  -- the record is looked up
  have hserved : ∀ (c : SiteTrace Page Write) (a : Reply Page Write),
      Requested id c → Requested id (c.served (site x) .listBackups a) := by
    intro c a h
    refine ⟨h.prepared, fun step hstep hverifies => ?_⟩
    rcases List.mem_append.mp hstep with hstep | hstep
    · exact h.unverified step hstep hverifies
    · rw [List.mem_singleton.mp hstep] at hverifies
      cases (Action.call.inj hverifies).1
  refine Triple.bind (R := fun records => Under (SparesCandidate id) fun c => Requested id c ∧
    ∀ record, findBackup records id.text = some record → Recorded c.state.state id)
    (Triple.perform stable_requested hgood ?_ ?_) fun records => ?_
  · intro c a records h hserve
    refine Under.served h fun h _ => ⟨hserved c a h, fun record hfound => ?_⟩
    exact listBackups_recorded (x := x) hserve hfound
  · intro c a h _
    exact hgood _ (Under.served h fun h _ => hserved c a h)
  cases hfound : findBackup records id.text with
  | none => exact Triple.throw fun c h hall => (h hall).1.candidateKept
  | some requested =>
    dsimp only
    split
    · exact Triple.throw fun c h hall => (h hall).1.candidateKept
    -- what the pair holds now is what will be installed
    have hindexed : Triple (site x) (Under (SparesCandidate id)
        fun c => ∃ i : SiteTrace Page Write, (∀ step ∈ i.history, ¬ VerifiesCandidate id step) ∧
          Guarded id (Pair id) (pinned id i.state.state) i.history c)
        (proceed id.text requested fault) (fun _ => Good x id) (Good x id) := by
      refine Triple.under_exists (fun i => ?_) (fun _ c h => h.under) fun c h => h.under
      by_cases hunverified : ∀ step ∈ i.history, ¬ VerifiesCandidate id step
      · have hkept : ∀ c, Kept id (pinned id i.state.state) i.history c → Good x id c :=
          fun c h hall => (h hall).candidateKept hunverified
        have htriple : Triple (site x) (Kept id (pinned id i.state.state) i.history)
            (proceed id.text requested fault) (fun _ => Kept id (pinned id i.state.state) i.history)
            (Kept id (pinned id i.state.state) i.history) :=
          kept_proceed (fun _ => rfl) requested fault
        exact (htriple.stop_mono hkept).weaken (fun c h hall => (h hall).2) fun _ c h => hkept c h
      · refine (Spoilt.triple _ (fun _ c h => h.under) fun c h => h.under).weaken
          (P := Spoilt (SparesCandidate id)) (fun c h => ?_) fun _ _ h => h
        by_contra hspared
        refine hunverified (h fun step hstep => ?_).1
        by_contra hbad
        exact hspared ⟨step, hstep, hbad⟩
    refine hindexed.weaken (fun c h hall => ⟨c, ?_⟩) fun _ _ h => h
    obtain ⟨hrequested, hrecorded⟩ := h hall
    exact ⟨hrequested.unverified, hrequested.guarded (hrecorded requested rfl)⟩

theorem prepared_start {s : Directory Page Write} (hused : ∀ row ∈ s.rows, row.record.id ∈ s.used) :
    Prepared id (⟨s, []⟩ : Site Page Write) := by
  by_cases hdrawn : id ∈ s.used
  · exact Or.inr ⟨0, hdrawn, fun task m hm => (by cases hm)⟩
  · refine Or.inl ⟨hdrawn, ?_, fun _ h => (List.not_mem_nil h).elim⟩
    rintro ⟨row, hrow, rfl⟩
    exact hdrawn (hused row hrow)

/-- The steps of a restore among other operations. -/
def restoreSteps (x : Image Page Write → Option VerifiedFile) (s : Directory Page Write)
    (moves : List (Move (Reply Page Write)
      (Fallible.Turn (Operation Page Write) (Reply Page Write) Int)))
    (id : Uuid) (confirmation : String) (fault : RestoreFault) : List (SiteStep Page Write) :=
  (run (site x) moves (.start ⟨s, []⟩) (restore id.text confirmation fault)).1.history

/-- **The verified candidate is the one installed**, in every run in which no retention
query selects it. -/
theorem candidate_kept (s : Directory Page Write)
    (moves : List (Move (Reply Page Write)
      (Fallible.Turn (Operation Page Write) (Reply Page Write) Int)))
    (id : Uuid) (confirmation : String) (fault : RestoreFault)
    (hused : ∀ row ∈ s.rows, row.record.id ∈ s.used)
    (hspares : ∀ step ∈ restoreSteps x s moves id confirmation fault, SparesCandidate id step) :
    CandidateKept x id (restoreSteps x s moves id confirmation fault) := by
  have hstart : Requested id (.start ⟨s, []⟩) :=
    ⟨prepared_start hused, fun _ h => (List.not_mem_nil h).elim⟩
  have hrun := (good_restore (x := x) confirmation fault).run moves
    (c := .start ⟨s, []⟩) fun _ => hstart
  unfold restoreSteps at hspares ⊢
  cases hresult : (run (site x) moves (.start ⟨s, []⟩) (restore id.text confirmation fault)).2 with
  | none => exact hrun.2 hresult hspares
  | some result => exact hrun.1 result hresult hspares

/-! ## An expired candidate -/

/-- The step is the verification of the candidate. -/
def verifies (id : Uuid) (step : SiteStep Page Write) : Bool :=
  match step.action with
  | .call (.verifyDatabase (.backup name)) false => name = backupFileName id
  | _ => false

/-- The step is an installation of the candidate. -/
def installsNow (step : SiteStep Page Write) : Bool :=
  match step.action with
  | .call (.fs (.installDatabase .candidate) (.rename (.staged _) .live)) false => true
  | _ => false

theorem verifiesCandidate_of_verifies {step : SiteStep Page Write} (h : verifies id step = true) :
    VerifiesCandidate id step := by
  unfold verifies at h
  split at h
  · next name haction =>
    unfold VerifiesCandidate
    rw [haction, of_decide_eq_true h]
  · cases h

theorem not_installsCandidate {step : SiteStep Page Write} (h : installsNow step = false) :
    ¬ InstallsCandidate step := by
  rintro ⟨operation, haction⟩
  unfold installsNow at h
  rw [haction] at h
  cases h

theorem sparesCandidate_of_all {step : SiteStep Page Write}
    (h : (step.before.state.selected.all fun record => decide (record.id ≠ id)) = true) :
    SparesCandidate id step :=
  fun _ _ _ record hrecord => of_decide_eq_true (List.all_eq_true.mp h record hrecord)

namespace Sample

/-- A reply with a generated identifier. -/
def replyWith (digit : Fin 10) : Reply Unit Unit :=
  { reply true with id := RemindiCore.Sample.uuid digit }

def backup (digit : Fin 10) (createdAt : String) : BackupRow where
  record :=
    { id := RemindiCore.Sample.uuid digit
      source := .automatic
      status := .ready
      file := ⟨"", 1⟩ }
  createdAt := createdAt

/-- Two automatic backups, of which two are to be kept; the files are those of the older. -/
def backedUp : Directory Unit Unit where
  files := fun path =>
    if path = .backup (backupFileName (RemindiCore.Sample.uuid 1)) then
      some (.database fun _ => [])
    else if path = .manifest (backupFileName (RemindiCore.Sample.uuid 1)) then
      some (.manifest ⟨RemindiCore.Sample.uuid 1, .automatic, ⟨"", 1⟩⟩)
    else none
  walFiles := fun _ => false
  rows := [backup 1 "2026-01-01T00:00:00.000Z", backup 2 "2026-01-02T00:00:00.000Z"]
  retention := some 2
  pool := true
  maintenance := false
  used := [RemindiCore.Sample.uuid 1, RemindiCore.Sample.uuid 2]

abbrev SiteMove :=
  Move (Reply Unit Unit) (Fallible.Turn (Operation Unit Unit) (Reply Unit Unit) Int)

/-- Every call succeeds. -/
def succeeding (calls : Nat) : List SiteMove :=
  (List.replicate 17 (replyWith 3) ++ List.replicate calls (replyWith 4)).map .answer

/-- The administrator lowers the retention count before the restore. -/
def lowered : List SiteMove := .event (.event 1) :: succeeding 18

def steps (moves : List SiteMove) : List (SiteStep Unit Unit) :=
  restoreSteps accepting backedUp moves (RemindiCore.Sample.uuid 1) restoreConfirmation .none

theorem backedUp_used : ∀ row ∈ backedUp.rows, row.record.id ∈ backedUp.used := by
  decide +kernel

end Sample

/-- A restore of the older backup, while both are kept. -/
theorem sample_candidate_kept :
    CandidateKept Sample.accepting (RemindiCore.Sample.uuid 1)
      (Sample.steps (Sample.succeeding 60)) := by
  refine candidate_kept Sample.backedUp (Sample.succeeding 60) (RemindiCore.Sample.uuid 1)
    restoreConfirmation .none Sample.backedUp_used fun step hstep => ?_
  have hall : (Sample.steps (Sample.succeeding 60)).all (fun step =>
      step.before.state.selected.all fun record =>
        decide (record.id ≠ RemindiCore.Sample.uuid 1)) = true := by decide +kernel
  exact sparesCandidate_of_all (List.all_eq_true.mp hall step hstep)

/-- **The pre-restore backup of the restore expires the candidate.** -/
theorem candidate_expired :
    ¬ CandidateKept Sample.accepting (RemindiCore.Sample.uuid 1) (Sample.steps Sample.lowered) := by
  intro h
  let path : FilePath := .backup (backupFileName (RemindiCore.Sample.uuid 1))
  -- the verification, and the removal by the retention run
  have hthere : ((Sample.steps Sample.lowered)[11]?.map fun verified =>
      verifies (RemindiCore.Sample.uuid 1) verified &&
        (verified.before.state.files path).isSome) = some true := by decide +kernel
  have hgone : ((Sample.steps Sample.lowered)[35]?.map fun step =>
      (step.after.state.files path).isSome) = some false := by decide +kernel
  have hinstalls : (Sample.steps Sample.lowered).all (fun step => !installsNow step) = true := by
    decide +kernel
  obtain ⟨verified, hverified, hverifies⟩ := Option.map_eq_some_iff.mp hthere
  obtain ⟨step, hstep, hremoved⟩ := Option.map_eq_some_iff.mp hgone
  rw [Bool.and_eq_true] at hverifies
  have hkept := h 11 35 verified step (by decide) hverified hstep
    (verifiesCandidate_of_verifies hverifies.1) fun n between _ _ hbetween => by
      have hnot := List.all_eq_true.mp hinstalls between (List.mem_of_getElem? hbetween)
      exact not_installsCandidate (Bool.not_eq_true' _ ▸ hnot)
  rw [hkept.database, hverifies.2] at hremoved
  cases hremoved

end RemindiCore.Admin.Directory
