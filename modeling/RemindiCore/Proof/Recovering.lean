import RemindiCore.Proof.RestoreRun

/-!
# Recovery at startup

No database is open while `recover_interrupted` runs, so only its own calls
change the state.  A recovery that succeeds has put the pre-restore backup in
the place of the main file when the journal asks for it, beside the log that it
has found there, and has changed nothing else (`recovery_triple`).
-/

namespace RemindiCore.Admin

open PageLog Fallible

variable {Page Write : Type} [DecidableEq Page] {x : Sqlite Page Write}
  {before s : State Page Write} {c : Conf Page Write}

/-! ## The files that recovery touches -/

/-- Only files differ, and the role of the live one. -/
def Files (before : State Page Write) (installed : Option Role)
    (live journal : Option (File Page Write)) (s : State Page Write) : Prop :=
  ∃ files, s = { before with files := files, installed := installed } ∧ files .live = live ∧
    files .journal = journal ∧ ∀ name, files (.backup name) = before.files (.backup name)

def Untouched (before : State Page Write) : State Page Write → Prop :=
  Files before before.installed (before.files .live) (before.files .journal)

omit [DecidableEq Page] in
theorem Untouched.refl : Untouched before before := ⟨before.files, rfl, rfl, rfl, fun _ => rfl⟩

omit [DecidableEq Page] in
theorem serveFs_scratch {caller : Caller} {call : FsCall Page Write} (h : call.scratch = true)
    (ok : Bool) (s : State Page Write) :
    ∃ files, (serveFs caller call ok s).2 = { s with files := files } := by
  cases call with
  | copy source target =>
    cases hfile : s.files source with
    | none => exact ⟨s.files, by simp only [serveFs, hfile]⟩
    | some file => cases ok <;> exact ⟨_, by simp only [serveFs, hfile]; rfl⟩
  | rename source target =>
    cases hfile : s.files source with
    | none => exact ⟨s.files, by simp only [serveFs, hfile]⟩
    | some file =>
      cases ok with
      | false => exact ⟨s.files, by simp only [serveFs, hfile]; rfl⟩
      | true =>
        refine ⟨((s.put target (some file)).put source none).files, ?_⟩
        simp only [serveFs, hfile, settle, if_true]
        obtain ⟨-, htarget⟩ := Bool.and_eq_true_iff.mp h
        cases caller <;> cases target <;> first | rfl | cases htarget
  | _ => cases ok <;> first | exact ⟨s.files, rfl⟩ | exact ⟨_, rfl⟩

omit [DecidableEq Page] in
theorem FsCall.not_touches_of_scratch {call : FsCall Page Write} (h : call.scratch = true)
    {path : FilePath} (hpath : path.scratch = false) : ¬ call.touches path := by
  have hne : ∀ other : FilePath, other.scratch = true → other ≠ path := by
    rintro other hother rfl
    rw [hpath] at hother
    cases hother
  cases call with
  | rename source target =>
    obtain ⟨hsource, htarget⟩ := Bool.and_eq_true_iff.mp h
    exact not_or.mpr ⟨hne _ hsource, hne _ htarget⟩
  | create path' => exact hne _ h
  | write path' file => exact hne _ h
  | remove path' => exact hne _ h
  | copy source target => exact hne _ h
  | _ => exact id

omit [DecidableEq Page] in
/-- Temporary files do not matter. -/
theorem Files.scratch {installed : Option Role} {live journal : Option (File Page Write)}
    {caller : Caller} {call : FsCall Page Write} (h : Files before installed live journal s)
    (hcall : call.scratch = true) (ok : Bool) :
    Files before installed live journal (serveFs caller call ok s).2 := by
  have hsame : ∀ path : FilePath, path.scratch = false →
      (serveFs caller call ok s).2.files path = s.files path :=
    fun path hpath => serveFs_files (FsCall.not_touches_of_scratch hcall hpath) ok s
  obtain ⟨files', hafter⟩ := serveFs_scratch hcall ok s
  rw [hafter] at hsame ⊢
  obtain ⟨files, rfl, hlive, hjournal, hbackup⟩ := h
  exact ⟨files', rfl, (hsame .live rfl).trans hlive, (hsame .journal rfl).trans hjournal,
    fun name => (hsame (.backup name) rfl).trans (hbackup name)⟩

theorem interfere_closed (event : Event Page Write) (h : s.pool = false) :
    interfere event s = s := by
  cases event <;> simp [interfere, State.available, h]

section

variable {installed : Option Role} {live journal : Option (File Page Write)} {G : Prop}

/-- No database is open, and `G` holds unless a step has lost a write. -/
def Offline (before : State Page Write) (installed : Option Role)
    (live journal : Option (File Page Write)) (G : Prop) (c : Conf Page Write) : Prop :=
  before.pool = false ∧ Files before installed live journal c.state ∧ (Lossy c ∨ G)

omit [DecidableEq Page] in
theorem Files.pool (h : Files before installed live journal s) : s.pool = before.pool := by
  obtain ⟨files, rfl, -⟩ := h
  rfl

theorem offline_stable : Stable (world x) (Offline before installed live journal G) := by
  rintro c e ⟨hpool, hfiles, hkept⟩
  refine ⟨hpool, ?_, hkept.imp_left lossy_event.mpr⟩
  show Files before installed live journal (interfere e c.state)
  rwa [interfere_closed e (hfiles.pool.trans hpool)]

theorem Offline.served {k : Call Page Write} {a : Answer Page Write}
    {installed' : Option Role} {live' journal' : Option (File Page Write)}
    (h : Offline before installed live journal G c)
    (hfiles : Files before installed' live' journal' (serve x k a c.state).2) :
    Offline before installed' live' journal' G (c.served (world x) k a) :=
  ⟨h.1, hfiles, h.2.2.imp_left fun hl => lossy_served.mpr (Or.inl hl)⟩

/-- What recovery leaves wherever it stops. -/
def Interrupted (before : State Page Write) (c : Conf Page Write) : Prop :=
  (∃ installed live journal, Files before installed live journal c.state) ∧
    (before.reinstalls = false → ∃ journal, (journal = before.files .journal ∨ journal = none) ∧
      Files before before.installed (before.files .live) journal c.state)

/-- The pre-restore backup is the main file, beside the log that was there. -/
def Reinstalled (x : Sqlite Page Write) (before : State Page Write) (c : Conf Page Write) : Prop :=
  ∃ journal image, before.files .journal = some (.journal journal) ∧
    before.image (.backup journal.preRestoreFile) = some image ∧ x.verifies image = true ∧
    Files before (some .preRestore) (some (.database image)) none c.state ∧
    (Lossy c ∨ before.log = [] ∧ before.atSnapshot = some before.guarded)

omit [DecidableEq Page] in
theorem Offline.untouched (h : Offline before before.installed (before.files .live)
    (before.files .journal) G c) : Interrupted before c :=
  ⟨⟨_, _, _, h.2.1⟩, fun _ => ⟨_, Or.inl rfl, h.2.1⟩⟩

omit [DecidableEq Page] in
theorem Offline.swapped (h : Offline before installed live journal G c)
    (hreinstalls : before.reinstalls = true) : Interrupted before c :=
  ⟨⟨_, _, _, h.2.1⟩, fun hr => by rw [hreinstalls] at hr; cases hr⟩

/-! ## Putting the pre-restore backup back -/

/-- `install_database` with no database open. -/
theorem install_triple {name operationId : String} {image : Image Page Write}
    (hreinstalls : before.reinstalls = true) (himage : before.files (.backup name) =
      some (.database image)) :
    Triple (world x) (Offline before before.installed (before.files .live) (before.files .journal)
        True) (installDatabase .preRestore (.backup name) operationId)
      (fun result c => match result with
        | .ok () => Offline before (some .preRestore) (some (.database image))
            (before.files .journal) (before.log = [] ∧ before.atSnapshot = some before.guarded) c
        | .error _ => Interrupted before c) (Interrupted before) := by
  let U : Conf Page Write → Prop := Offline before before.installed (before.files .live)
    (before.files .journal) True
  let T : Conf Page Write → Prop := fun c =>
    U c ∧ c.state.files (.staged operationId) = some (.database image)
  have hU : Stable (world x) U := offline_stable
  have hT : Stable (world x) T := by
    rintro c e ⟨h, hfile⟩
    exact ⟨hU c e h, (interfere_files e c.state (by simp)).trans hfile⟩
  have hscratch : ∀ (call : FsCall Page Write), call.scratch = true → ∀ c a, U c →
      U (c.served (world x) (.fs (.installDatabase .preRestore) call) a) :=
    fun call hcall c a h => h.served (h.2.1.scratch hcall a.ok)
  have hcrash : ∀ c, U c → Interrupted before c := fun c h => h.untouched
  refine Triple.bind (R := fun _ => U) (Triple.ignore hU hcrash fun c a h => hscratch _ rfl c a h)
    fun _ => ?_
  refine Triple.bind (R := fun _ => T) (Triple.perform hU hcrash
    (fun c a value h hok => ⟨hscratch _ rfl c a h, ?_⟩)
    (fun c a h _ => hcrash _ (hscratch _ rfl c a h))) fun _ => ?_
  · have hfile : c.state.files (.backup name) = some (.database image) := by
      obtain ⟨files, hstate, -, -, hbackup⟩ := h.2.1
      rw [hstate]
      exact (hbackup name).trans himage
    cases hok' : a.ok with
    | false => simp [world, serve, serveFs, hfile, hok'] at hok
    | true => simp [Config.served, world, serve, serveFs, hfile, hok']
  have hsame : ∀ (call : FsCall Page Write) c a, call.scratch = true →
      (serveFs (.installDatabase .preRestore) call a.ok c.state).2 = c.state → T c →
        T (c.served (world x) (.fs (.installDatabase .preRestore) call) a) := by
    rintro call c a hcall hstate ⟨h, hfile⟩
    refine ⟨hscratch call hcall c a h, ?_⟩
    show (serveFs (.installDatabase .preRestore) call a.ok c.state).2.files _ = _
    rw [hstate]
    exact hfile
  refine Triple.bind (R := fun _ => T) (Triple.perform hT (fun c h => hcrash c h.1)
    (fun c a _ h _ => hsame _ c a rfl (by cases a.ok <;> rfl) h)
    (fun c a h _ => hcrash _ (hscratch _ rfl c a h.1))) fun _ => ?_
  refine Triple.bind (R := fun _ => T) (Triple.perform hT (fun c h => hcrash c h.1)
    (fun c a _ h _ => hsame _ c a rfl (by cases a.ok <;> rfl) h)
    (fun c a h _ => hcrash _ (hscratch _ rfl c a h.1))) fun _ => ?_
  have hcall : ∀ c a, T c → (serve x (.fs (.installDatabase .preRestore)
      (.rename (.staged operationId) .live)) a c.state) =
        settle a.ok c.state (c.state.replaced .preRestore operationId (.database image)) := by
    rintro c a ⟨-, hfile⟩
    simp [serve, serveFs, hfile, State.replaced]
  refine Triple.bind (R := fun _ => Offline before (some .preRestore) (some (.database image))
      (before.files .journal) (before.log = [] ∧ before.atSnapshot = some before.guarded))
    (Triple.perform hT (fun c h => hcrash c h.1) (fun c a value h hok => ?_)
      (fun c a h hnone => ?_)) fun _ => ?_
  · rw [show (world x).serve = serve x from rfl, hcall c a h] at hok
    cases hok' : a.ok with
    | false =>
      rw [hok'] at hok
      cases hok
    | true =>
      obtain ⟨⟨hpool, ⟨files, hstate, hlive, hjournal, hbackup⟩, -⟩, hfile⟩ := h
      refine ⟨hpool, ?_, ?_⟩
      · show Files before _ _ _ (serve x _ a c.state).2
        rw [hcall c a ⟨⟨hpool, ⟨files, hstate, hlive, hjournal, hbackup⟩, Or.inr trivial⟩, hfile⟩,
          hok', hstate]
        refine ⟨_, rfl, ?_, ?_, fun name => ?_⟩
        · simp
        · simpa using hjournal
        · simpa using hbackup name
      · by_cases hgood : before.log = [] ∧ before.atSnapshot = some before.guarded
        · exact Or.inr hgood
        · refine Or.inl (lossy_served.mpr (Or.inr ?_))
          have hsome : (serve x (.fs (.installDatabase .preRestore)
              (.rename (.staged operationId) .live)) a c.state).1 = some () := by
            rw [hcall c a ⟨⟨hpool, ⟨files, hstate, hlive, hjournal, hbackup⟩, Or.inr trivial⟩,
              hfile⟩, hok']
            rfl
          simp only [loses, stepOf, hsome, Option.isNone_some]
          rw [hstate]
          exact hgood
  · rw [show (world x).serve = serve x from rfl, hcall c a h] at hnone
    cases hok' : a.ok with
    | true =>
      rw [hok'] at hnone
      cases hnone
    | false =>
      refine hcrash _ (h.1.served ?_)
      rw [hcall c a h, hok']
      exact h.1.2.1
  have hsync : ∀ c a, Offline before (some .preRestore) (some (.database image))
      (before.files .journal) (before.log = [] ∧ before.atSnapshot = some before.guarded) c →
      Offline before (some .preRestore) (some (.database image)) (before.files .journal)
        (before.log = [] ∧ before.atSnapshot = some before.guarded)
        (c.served (world x) (.fs (.installDatabase .preRestore) .syncDirectory) a) :=
    fun c a h => h.served (h.2.1.scratch rfl a.ok)
  exact Triple.perform offline_stable (fun c h => h.swapped hreinstalls)
    (fun c a _ h _ => hsync c a h) fun c a h _ => (hsync c a h).swapped hreinstalls

/-! ## Recovery -/

omit [DecidableEq Page] in
theorem State.reinstalls_of_journal {journal : RestoreJournal}
    (h : s.files .journal = some (.journal journal)) :
    s.reinstalls = journal.phase.reinstalls := by
  unfold State.reinstalls
  rw [h]

/-- The end of a recovery: the journal is removed. -/
theorem endRecovery_triple {post : Except BackupError Bool → Conf Page Write → Prop}
    {crash : Conf Page Write → Prop}
    (hkept : ∀ c, Offline before installed live journal G c → crash c ∧ post (.error .io) c)
    (hremoved : ∀ c, Offline before installed live none G c →
      crash c ∧ post (.error .io) c ∧ post (.ok true) c) :
    Triple (world x) (Offline before installed live journal G) (do
      fs .recoverInterrupted (.remove .journal)
      fs .recoverInterrupted .syncDirectory
      .pure true) post crash := by
  refine Triple.bind (R := fun _ => Offline before installed live none G)
    (Triple.perform offline_stable (fun c h => (hkept c h).1) (fun c a value h hok => ?_)
      (fun c a h hnone => ?_)) fun _ => ?_
  · refine h.served ?_
    cases hok' : a.ok with
    | false => simp [world, serve, serveFs, settle, hok'] at hok
    | true =>
      obtain ⟨-, ⟨files, hstate, hlive, -, hbackup⟩, -⟩ := h
      simp only [serve, serveFs, settle, hok', if_true, hstate]
      refine ⟨_, rfl, ?_, ?_, fun name => ?_⟩
      · simpa using hlive
      · simp
      · simpa using hbackup name
  · refine (hkept _ (h.served ?_)).2
    cases hok' : a.ok with
    | false =>
      simp only [serve, serveFs, settle, hok']
      exact h.2.1
    | true => simp [world, serve, serveFs, settle, hok'] at hnone
  have hsync : ∀ c a, Offline before installed live none G c →
      Offline before installed live none G
        (c.served (world x) (.fs .recoverInterrupted .syncDirectory) a) :=
    fun c a h => h.served (h.2.1.scratch rfl a.ok)
  exact Triple.bind (R := fun _ => Offline before installed live none G)
    (Triple.perform offline_stable (fun c h => (hremoved c h).1) (fun c a _ h _ => hsync c a h)
      fun c a h _ => (hremoved _ (hsync c a h)).2.1) fun _ => Triple.pure fun c h => (hremoved c h).2.2

/-- What a recovery has done when it returns. -/
def Recovered (x : Sqlite Page Write) (before : State Page Write) (result : Except BackupError Bool)
    (c : Conf Page Write) : Prop :=
  Interrupted before c ∧ ∀ b, result = .ok b → before.reinstalls = true → Reinstalled x before c

/-- **A recovery that succeeds has put the pre-restore backup back or has changed
nothing that is read.** -/
theorem recovery_triple (x : Sqlite Page Write) (before : State Page Write) :
    Triple (world x) (Offline before before.installed (before.files .live) (before.files .journal)
      True) recoverInterrupted (fun result c => Recovered x before result c)
      (Interrupted before) := by
  let U : Conf Page Write → Prop := Offline before before.installed (before.files .live)
    (before.files .journal) True
  have hU : Stable (world x) U := offline_stable
  have hcrash : ∀ c, U c → Interrupted before c := fun c h => h.untouched
  have hjournal : ∀ c, U c → c.state.files .journal = before.files .journal := by
    rintro c ⟨-, ⟨files, hstate, -, hjournal, -⟩, -⟩
    rw [hstate]
    exact hjournal
  have hverify : ∀ path c a, U c → U (c.served (world x) (.verifyDatabase path) a) :=
    fun path c a h => h.served h.2.1
  have herror : ∀ (e : BackupError) c, Interrupted before c → Recovered x before (.error e) c :=
    fun e c h => ⟨h, fun _ he => by cases he⟩
  have hread : ∀ c a, U c → U (c.served (world x) .readJournal a) := by
    intro c a h
    refine h.served ?_
    have hafter : (serve x .readJournal a c.state).2 = c.state := by
      simp only [serve]
      split <;> rfl
    rw [hafter]
    exact h.2.1
  refine Triple.bind (R := fun found c => U c ∧ before.files .journal = found.map .journal)
    (Triple.perform hU hcrash (fun c a found h hok => ⟨hread c a h, ?_⟩)
      fun c a h _ => herror _ _ (hcrash _ (hread c a h))) fun found => ?_
  · rw [← hjournal c h]
    rw [show (world x).serve = serve x from rfl] at hok
    cases hfile : c.state.files .journal with
    | none =>
      cases hok' : a.ok with
      | false => simp [serve, hfile, hok'] at hok
      | true =>
        obtain rfl : none = found := by simpa [serve, hfile, hok'] using hok
        rfl
    | some file =>
      cases file with
      | journal journal =>
        cases hok' : a.ok with
        | false => simp [serve, hfile, hok'] at hok
        | true =>
          obtain rfl : some journal = found := by simpa [serve, hfile, hok'] using hok
          rfl
      | _ => simp [serve, hfile] at hok
  intro c hc
  obtain ⟨h, hfound⟩ := hc
  revert c
  show Triple (world x) U _ _ _
  cases found with
  | none =>
    refine Triple.pure fun c h => ⟨hcrash c h, fun _ _ hr => ?_⟩
    unfold State.reinstalls at hr
    rw [hfound] at hr
    cases hr
  | some journal =>
    have hphase : before.reinstalls = journal.phase.reinstalls :=
      State.reinstalls_of_journal hfound
    dsimp only
    split
    · exact Triple.throw fun c h => herror _ c (hcrash c h)
    cases hreinstalls : journal.phase.reinstalls with
    | false =>
      rw [hreinstalls] at hphase
      refine Triple.bind (R := fun _ => U) ?_ fun _ => endRecovery_triple
        (fun c h => ⟨hcrash c h, herror _ c (hcrash c h)⟩) fun c h => ?_
      · unfold recover
        split
        · exact Triple.bind (R := fun _ => U) (Triple.perform hU hcrash
            (fun c a _ h _ => hverify _ c a h)
            fun c a h _ => herror _ _ (hcrash _ (hverify _ c a h))) fun _ => Triple.pure fun c h => h
        · split
          · rename_i hearly hsucceeded
            unfold RestorePhase.reinstalls at hreinstalls
            simp only [hsucceeded, ne_eq, not_false_eq_true, decide_true, Bool.and_true,
              Bool.not_eq_false'] at hreinstalls
            exact absurd hreinstalls hearly
          · exact Triple.pure fun c h => h
      · have hinterrupted : Interrupted before c :=
          ⟨⟨_, _, _, h.2.1⟩, fun _ => ⟨_, Or.inr rfl, h.2.1⟩⟩
        exact ⟨hinterrupted, herror _ c hinterrupted, hinterrupted, fun _ _ hr => by
          rw [hphase] at hr
          cases hr⟩
    | true =>
      rw [hreinstalls] at hphase
      have hearly : ¬ journal.phase.early = true := fun he => by
        simp [RestorePhase.reinstalls, he] at hreinstalls
      have hsucceeded : journal.phase ≠ .succeeded := fun hs => by
        simp [RestorePhase.reinstalls, hs] at hreinstalls
      let S : Image Page Write → Conf Page Write → Prop := fun image =>
        Offline before (some .preRestore) (some (.database image)) (before.files .journal)
          (before.log = [] ∧ before.atSnapshot = some before.guarded)
      have hswapped : ∀ image c, S image c → Interrupted before c :=
        fun image c h => h.swapped hphase
      refine Triple.bind (R := fun _ c => ∃ image, before.image (.backup journal.preRestoreFile) =
        some image ∧ x.verifies image = true ∧ S image c) ?_ fun _ => ?_
      · unfold recover
        rw [if_neg hearly, if_pos hsucceeded]
        refine Triple.bind (R := fun _ c => U c ∧ Verified x journal.preRestoreFile before)
          (Triple.perform hU hcrash (fun c a value h hok => ⟨hverify _ c a h, ?_⟩)
            fun c a h _ => herror _ _ (hcrash _ (hverify _ c a h))) fun _ => ?_
        · obtain ⟨files, hstate, -, -, hbackup⟩ := h.2.1
          have hverified : Verified x journal.preRestoreFile c.state := by
            cases hok' : a.ok with
            | false => simp [world, serve, hok'] at hok
            | true => exact verify_backup (by simpa [world, serve, hok'] using hok)
          obtain ⟨image, himage, hverifies⟩ := hverified
          refine ⟨image, ?_, hverifies⟩
          rw [← himage]
          refine (State.image_of_files ?_).symm
          rw [hstate]
          exact hbackup _
        intro c hc
        obtain ⟨h, image, himage, hverifies⟩ := hc
        have hfile : before.files (.backup journal.preRestoreFile) = some (.database image) := by
          unfold State.image at himage
          split at himage
          · rw [← Option.some.inj himage]
            assumption
          · cases himage
        refine Triple.bind (P := U) (R := fun _ => S image)
          ((install_triple hphase hfile).weaken (fun c h => h) ?_) (fun _ => ?_) c h
        · rintro (e | ⟨⟩) c h
          · exact herror _ c h
          · exact h
        have hlive : ∀ c a, S image c → S image (c.served (world x) (.verifyDatabase .live) a) :=
          fun c a h => h.served h.2.1
        exact Triple.bind (R := fun _ => S image) (Triple.perform offline_stable (hswapped image)
          (fun c a _ h _ => hlive c a h) fun c a h _ => herror _ _ (hswapped image _ (hlive c a h)))
          fun _ => Triple.pure fun c h => ⟨image, himage, hverifies, h⟩
      · intro c hc
        obtain ⟨image, himage, hverifies, h⟩ := hc
        refine endRecovery_triple (fun c h => ⟨hswapped image c h, herror _ c (hswapped image c h)⟩)
          (fun c h => ?_) c h
        have hinterrupted : Interrupted before c := h.swapped hphase
        exact ⟨hinterrupted, herror _ c hinterrupted, hinterrupted, fun _ _ _ =>
          ⟨journal, image, hfound, himage, hverifies, h.2.1, h.2.2⟩⟩

end

end RemindiCore.Admin
