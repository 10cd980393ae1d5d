import RemindiCore.Proof.Recovering
import RemindiCore.Service.System

/-!
# What a restore may cost

Three results over every run of `restore`, with every interleaving of service
commits, every failure and every crash: which acknowledged writes a restore that
does not succeed keeps (`failed_restore_keeps_writes`), what a later startup can
still undo (`finished_restore_is_not_undone`), and when recovery yields one
database and not pages of one under the log of another
(`recovery_yields_one_database_iff`).
-/

namespace RemindiCore.Admin

open PageLog Fallible

variable {Page Write : Type} [DecidableEq Page] {x : Sqlite Page Write} {s t : State Page Write}

/-! ## Runs -/

/-- Where a call of `restore` starts: the database is in use, it holds what has
been acknowledged, and no earlier restore has left a journal that asks for its
backup. -/
structure Started (s : State Page Write) : Prop extends Early s where
  installed : s.installed = none
  atSnapshot : s.atSnapshot = none

def restoreRun (x : Sqlite Page Write) (s : State Page Write) (backupId confirmation : String)
    (fault : RestoreFault) (moves : List (Move (Answer Page Write) (Event Page Write))) :
    Conf Page Write × Option (Except BackupError RestoreOutcome) :=
  run (world x) moves (.start s) (restore backupId confirmation fault)

def recoveryRun (x : Sqlite Page Write) (s : State Page Write)
    (moves : List (Move (Answer Page Write) (Event Page Write))) :
    Conf Page Write × Option (Except BackupError Bool) :=
  run (world x) moves (.start s) recoverInterrupted

/-- The process is gone; files and frames stay. -/
def State.crashed (s : State Page Write) : State Page Write :=
  { s with pool := false, maintenance := false }

variable {backupId confirmation : String} {fault : RestoreFault}
  {moves moves' : List (Move (Answer Page Write) (Event Page Write))}

theorem restoreRun_ended {result : Except BackupError RestoreOutcome} (hs : Early s)
    (h : (restoreRun x s backupId confirmation fault moves).2 = some result) :
    Ended x result (restoreRun x s backupId confirmation fault moves).1 :=
  ((restore_triple backupId confirmation fault).run moves
    ⟨fun ⟨_, hstep, _⟩ => List.not_mem_nil hstep, hs, Or.inr hs.holds⟩).1 result h

theorem restoreRun_stopped (hs : Early s)
    (h : (restoreRun x s backupId confirmation fault moves).2 = none) :
    Stopped x (restoreRun x s backupId confirmation fault moves).1 :=
  ((restore_triple backupId confirmation fault).run moves
    ⟨fun ⟨_, hstep, _⟩ => List.not_mem_nil hstep, hs, Or.inr hs.holds⟩).2 h

theorem recoveryRun_interrupted (x : Sqlite Page Write)
    (moves : List (Move (Answer Page Write) (Event Page Write))) (hs : s.pool = false) :
    Interrupted s (recoveryRun x s moves).1 := by
  have hrun := (recovery_triple x s).run moves
    (c := .start s) ⟨hs, Untouched.refl, Or.inr trivial⟩
  cases hresult : (recoveryRun x s moves).2 with
  | none => exact hrun.2 hresult
  | some result => exact (hrun.1 result hresult).1

theorem recoveryRun_ok {b : Bool} (hs : s.pool = false)
    (h : (recoveryRun x s moves).2 = some (.ok b)) (hreinstalls : s.reinstalls = true) :
    Reinstalled x s (recoveryRun x s moves).1 :=
  (((recovery_triple x s).run moves
    (c := .start s) ⟨hs, Untouched.refl, Or.inr trivial⟩).1 _ h).2 b rfl hreinstalls

/-! ## What recovery reads -/

theorem Files.content {installed : Option Role} {journal : Option (File Page Write)}
    (h : Files s installed (s.files .live) journal t) : t.content = s.content := by
  obtain ⟨files, rfl, hlive, -⟩ := h
  exact State.content_of_files hlive rfl

omit [DecidableEq Page] in
theorem Files.guarded {installed : Option Role} {live journal : Option (File Page Write)}
    (h : Files s installed live journal t) : t.guarded = s.guarded := by
  obtain ⟨files, rfl, -⟩ := h
  rfl

theorem Files.content_database {installed : Option Role} {image : Image Page Write}
    {journal : Option (File Page Write)}
    (h : Files s installed (some (.database image)) journal t) : t.content = PageLog.replay image s.log := by
  obtain ⟨files, rfl, hlive, -⟩ := h
  unfold State.content State.main State.image
  dsimp only
  rw [hlive]
  rfl

omit [DecidableEq Page] in
theorem Files.settled {installed : Option Role} {live journal : Option (File Page Write)}
    (h : Files s installed live journal t) (hs : s.reinstalls = false)
    (hjournal : journal = s.files .journal ∨ journal = none) : t.reinstalls = false := by
  obtain ⟨files, rfl, -, hfile, -⟩ := h
  unfold State.reinstalls
  dsimp only
  rw [hfile]
  rcases hjournal with rfl | rfl
  · exact hs
  · rfl

/-! ## Acknowledged writes -/

/-- **A restore that does not succeed loses no write** that was acknowledged before
it entered maintenance, as long as no step of it and of the recovery loses one,
and it is not stopped after its journal has settled on the candidate. -/
theorem failed_restore_keeps_writes (x : Sqlite Page Write) (s : State Page Write)
    (hs : Started s) (backupId confirmation : String) (fault : RestoreFault)
    (moves : List (Move (Answer Page Write) (Event Page Write)))
    (hkeeps : ∀ step ∈ (restoreRun x s backupId confirmation fault moves).1.history, ¬ loses step) :
    (∀ e, (restoreRun x s backupId confirmation fault moves).2 = some (.error e) →
      (restoreRun x s backupId confirmation fault moves).1.state.Holds) ∧
    ((restoreRun x s backupId confirmation fault moves).2 = none →
      ¬ ((restoreRun x s backupId confirmation fault moves).1.state.reinstalls = false ∧
        (restoreRun x s backupId confirmation fault moves).1.state.installed = some .candidate) →
      ∀ moves' b,
        (recoveryRun x (restoreRun x s backupId confirmation fault moves).1.state.crashed moves').2 =
          some (.ok b) →
        (∀ step ∈ (recoveryRun x
          (restoreRun x s backupId confirmation fault moves).1.state.crashed moves').1.history,
            ¬ loses step) →
        (recoveryRun x
          (restoreRun x s backupId confirmation fault moves).1.state.crashed moves').1.state.Holds) := by
  have hlossy : ¬ Lossy (restoreRun x s backupId confirmation fault moves).1 :=
    fun ⟨step, hstep, hloses⟩ => hkeeps step hstep hloses
  refine ⟨fun e he => ((restoreRun_ended hs.toEarly he).kept e rfl).resolve_left hlossy, ?_⟩
  intro hnone hcandidate moves' b hok hkeeps'
  generalize hc : (restoreRun x s backupId confirmation fault moves).1 = c at *
  have hstopped : Stopped x c := hc ▸ restoreRun_stopped hs.toEarly hnone
  have hpool : c.state.crashed.pool = false := rfl
  rcases hstopped with hl | ⟨hsettled, hholds⟩ | ⟨pre, hready⟩
  · exact absurd hl hlossy
  · -- recovery leaves the live database alone
    have hheld : c.state.Holds := hholds.resolve_right fun hinstalled => hcandidate ⟨hsettled, hinstalled⟩
    obtain ⟨journal, -, hfiles⟩ := (recoveryRun_interrupted x moves' hpool).2 hsettled
    exact State.holds_of hheld hfiles.content hfiles.guarded
  · -- recovery puts the pre-restore backup back
    obtain ⟨journal, image, hjournal, himage, -, hfiles, hgood⟩ :=
      recoveryRun_ok hpool hok hready.reinstalls
    obtain ⟨hlog, hsnapshot⟩ := hgood.resolve_left
      fun ⟨step, hstep, hloses⟩ => hkeeps' step hstep hloses
    obtain ⟨⟨journal', hjournal', -, -, rfl⟩, image', himage', -, hheld⟩ := hready
    obtain rfl : journal' = journal := by
      have hsame := hjournal'.symm.trans hjournal
      injection hsame with hsame
      injection hsame
    obtain rfl : image' = image := Option.some.inj (himage'.symm.trans himage)
    intro write hw
    rw [hfiles.guarded] at hw
    rw [hfiles.content_database, hlog, replay_nil]
    exact hheld _ hsnapshot write hw

/-! ## Later startups -/

/-- What may follow a restore that has returned: the service goes on, the process
stops, and later startups recover and open the database. -/
inductive Later (x : Sqlite Page Write) (s : State Page Write) : State Page Write → Prop
  | returned : Later x s s
  | service {t : State Page Write} (h : Later x s t) (event : Event Page Write) :
      Later x s (interfere event t)
  | stopped {t : State Page Write} (h : Later x s t) : Later x s t.crashed
  | recovery {t : State Page Write} (h : Later x s t) (closed : t.pool = false)
      (moves : List (Move (Answer Page Write) (Event Page Write))) :
      Later x s (recoveryRun x t moves).1.state
  | startup {t : State Page Write} (h : Later x s t) (closed : t.pool = false)
      (moves : List (Move (Answer Page Write) (Event Page Write))) {b : Bool}
      (ok : (recoveryRun x t moves).2 = some (.ok b)) (a : Answer Page Write) :
      Later x s (serve x .reopen a (recoveryRun x t moves).1.state).2

/-- Every write acknowledged after `s` is in the live database of `t`. -/
def KeepsSince (s t : State Page Write) : Prop :=
  ∃ writes, t.committed = s.committed ++ writes ∧ ∀ write ∈ writes, t.content.Holds write

/-- The journal asks for nothing, or the database is closed and nothing has been
acknowledged since. -/
def Final (s t : State Page Write) : Prop :=
  KeepsSince s t ∧ (t.reinstalls = false ∨ t.pool = false ∧ t.committed = s.committed)

theorem KeepsSince.evolves {u : State Page Write} (h : KeepsSince s t) (hevolves : Evolves t u) :
    KeepsSince s u := by
  obtain ⟨writes, hcommitted, hheld⟩ := h
  obtain ⟨writes', hcommitted', hheld'⟩ := hevolves.committed
  refine ⟨writes ++ writes', by rw [hcommitted', hcommitted, List.append_assoc], ?_⟩
  intro write hw
  rcases List.mem_append.mp hw with hw | hw
  · exact hevolves.content write (hheld write hw)
  · exact hheld' write hw

theorem KeepsSince.of_committed (h : t.committed = s.committed) : KeepsSince s t :=
  ⟨[], by simp [h], by simp⟩

theorem KeepsSince.of_content {u : State Page Write} (h : KeepsSince s t)
    (hcontent : u.content = t.content) (hcommitted : u.committed = t.committed) :
    KeepsSince s u := by
  obtain ⟨writes, hwrites, hheld⟩ := h
  exact ⟨writes, hcommitted.trans hwrites, fun write hw => hcontent ▸ hheld write hw⟩

omit [DecidableEq Page] in
theorem Files.committed {installed : Option Role} {live journal : Option (File Page Write)}
    (h : Files s installed live journal t) : t.committed = s.committed := by
  obtain ⟨files, rfl, -⟩ := h
  rfl

/-- A startup whose recovery has changed nothing that is read, or has found nothing
acknowledged since. -/
theorem Final.recovery (h : Final s t) (x : Sqlite Page Write)
    (moves : List (Move (Answer Page Write) (Event Page Write))) (closed : t.pool = false) :
    Final s (recoveryRun x t moves).1.state := by
  obtain ⟨⟨installed, live, journal, hfiles⟩, hsettled⟩ :=
    recoveryRun_interrupted x moves closed
  obtain ⟨hkeeps, hreinstalls | ⟨-, hcommitted⟩⟩ := h
  · obtain ⟨journal', hjournal, hfiles'⟩ := hsettled hreinstalls
    exact ⟨hkeeps.of_content hfiles'.content hfiles'.committed,
      Or.inl (hfiles'.settled hreinstalls hjournal)⟩
  · have hcommitted' := hfiles.committed.trans hcommitted
    exact ⟨.of_committed hcommitted', Or.inr ⟨hfiles.pool.trans closed, hcommitted'⟩⟩

theorem recovered_settled {b : Bool} (closed : t.pool = false)
    (ok : (recoveryRun x t moves).2 = some (.ok b)) :
    (recoveryRun x t moves).1.state.reinstalls = false := by
  cases hreinstalls : t.reinstalls with
  | false =>
    obtain ⟨journal, hjournal, hfiles⟩ :=
      (recoveryRun_interrupted x moves closed).2 hreinstalls
    exact hfiles.settled hreinstalls hjournal
  | true =>
    obtain ⟨-, -, -, -, -, ⟨files, hstate, -, hfile, -⟩, -⟩ := recoveryRun_ok closed ok hreinstalls
    unfold State.reinstalls
    rw [hstate]
    dsimp only
    rw [hfile]

theorem Later.final {u : State Page Write} (hs : Final s s) (h : Later x s u) : Final s u := by
  induction h with
  | returned => exact hs
  | @service t h event ih =>
    have hevolves := interfere_evolves event t
    refine ⟨ih.1.evolves hevolves, ih.2.imp (State.reinstalls_of_files hevolves.journal).trans ?_⟩
    rintro ⟨hpool, hcommitted⟩
    rw [interfere_closed event hpool]
    exact ⟨hpool, hcommitted⟩
  | @stopped t h ih =>
    exact ⟨ih.1.of_content rfl rfl, ih.2.imp id fun hclosed => ⟨rfl, hclosed.2⟩⟩
  | recovery h closed moves ih => exact ih.recovery x moves closed
  | @startup t h closed moves b ok a ih =>
    have hrecovered := ih.recovery x moves closed
    have hsettled := recovered_settled closed ok
    obtain ⟨u, hevolves, hopened | hfailed⟩ :=
      reopen_state (x := x) a (recoveryRun x t moves).1.state
    · rw [hopened]
      exact ⟨(hrecovered.1.evolves hevolves).of_content rfl rfl,
        Or.inl ((State.reinstalls_of_files hevolves.journal).trans hsettled)⟩
    · rw [hfailed]
      exact ⟨hrecovered.1.evolves hevolves,
        Or.inl ((State.reinstalls_of_files hevolves.journal).trans hsettled)⟩

/-- **A finished restore leaves nothing that a later startup can undo**, as long as
no step of it has left its journal behind. -/
theorem finished_restore_is_not_undone (x : Sqlite Page Write) (s : State Page Write)
    (hs : Early s) (backupId confirmation : String) (fault : RestoreFault)
    (moves : List (Move (Answer Page Write) (Event Page Write)))
    (result : Except BackupError RestoreOutcome)
    (hreturned : (restoreRun x s backupId confirmation fault moves).2 = some result)
    (hundoes : ∀ step ∈ (restoreRun x s backupId confirmation fault moves).1.history,
      ¬ undoes step)
    (u : State Page Write)
    (hlater : Later x (restoreRun x s backupId confirmation fault moves).1.state u) :
    KeepsSince (restoreRun x s backupId confirmation fault moves).1.state u := by
  have hended := restoreRun_ended hs hreturned
  have hundone : ¬ Undone (restoreRun x s backupId confirmation fault moves).1 :=
    fun ⟨step, hstep, hu⟩ => hundoes step hstep hu
  refine (Later.final ⟨.of_committed rfl, ?_⟩ hlater).1
  rcases hended.final with ⟨hu, -⟩ | ⟨-, hsettled | hclosed⟩
  · exact absurd hu hundone
  · exact Or.inl hsettled
  · exact Or.inr ⟨hclosed, rfl⟩

/-! ## One database -/

/-- The state that a crash leaves, with these frames beside the live file. -/
def State.crashedWith (s : State Page Write) (frames : List (Frame Page (List Write))) :
    State Page Write :=
  { s.crashed with log := frames }

/-- Opening the live path yields the database before the crash, the pre-restore
backup or the candidate, and not pages of one with frames of another. -/
def OneDatabase (crashed t : State Page Write) : Prop :=
  t.content = crashed.content ∨
    ∃ journal image, crashed.files .journal = some (.journal journal) ∧ t.content = image ∧
      (crashed.image (.backup journal.preRestoreFile) = some image ∨
        crashed.image (.backup journal.candidateFile) = some image)

/-- Every last frame holds the page of `target`, and every page without a frame is
the page of `target` in `main`. -/
def ReadsAs (main target : Image Page Write) (frames : List (Frame Page (List Write))) : Prop :=
  (∀ page cell, latest frames page = some cell → cell = target page) ∧
    ∀ page, latest frames page = none → main page = target page

/-- The frames beside the live file go with the pre-restore backup that is to be put
there: recovery puts none there, or no frame differs from it, or the live file
differs from it in framed pages only, or frames and backup make up the candidate. -/
def FramesFit (crashed : State Page Write) : Prop :=
  crashed.reinstalls = false ∨
    ∃ journal image, crashed.files .journal = some (.journal journal) ∧
      crashed.image (.backup journal.preRestoreFile) = some image ∧
      ((∀ page cell, latest crashed.log page = some cell → cell = image page) ∨
        (∀ page, latest crashed.log page = none → image page = crashed.main page) ∨
        ∃ candidate, crashed.image (.backup journal.candidateFile) = some candidate ∧
          ReadsAs image candidate crashed.log)

theorem oneDatabase_iff {b : Bool} (closed : s.pool = false)
    (ok : (recoveryRun x s moves).2 = some (.ok b)) :
    OneDatabase s (recoveryRun x s moves).1.state ↔ FramesFit s := by
  cases hreinstalls : s.reinstalls with
  | false =>
    obtain ⟨journal, -, hfiles⟩ :=
      (recoveryRun_interrupted x moves closed).2 hreinstalls
    exact ⟨fun _ => Or.inl hreinstalls, fun _ => Or.inl hfiles.content⟩
  | true =>
    obtain ⟨journal, image, hjournal, himage, -, hfiles, -⟩ := recoveryRun_ok closed ok hreinstalls
    have hcontent := hfiles.content_database
    have hlive : PageLog.replay image s.log = s.content ↔
        ∀ page, latest s.log page = none → image page = s.main page := replay_eq_iff _ _ _
    have hbackup : PageLog.replay image s.log = image ↔
        ∀ page cell, latest s.log page = some cell → cell = image page := by
      rw [replay_eq_iff_target]
      exact and_iff_left fun _ _ => rfl
    constructor
    · rintro (hsame | ⟨journal', image', hjournal', hsame, hwhich⟩)
      · exact Or.inr ⟨journal, image, hjournal, himage,
          Or.inr (Or.inl (hlive.mp (hcontent.symm.trans hsame)))⟩
      · obtain rfl : journal = journal' := by
          have hsame := hjournal.symm.trans hjournal'
          injection hsame with hsame
          injection hsame
        refine Or.inr ⟨journal, image, hjournal, himage, ?_⟩
        rcases hwhich with hpre | hcandidate
        · obtain rfl : image = image' := Option.some.inj (himage.symm.trans hpre)
          exact Or.inl (hbackup.mp (hcontent.symm.trans hsame))
        · exact Or.inr (Or.inr ⟨image', hcandidate,
            (replay_eq_iff_target _ _ _).mp (hcontent.symm.trans hsame)⟩)
    · rintro (hsettled | ⟨journal', image', hjournal', himage', hfit⟩)
      · rw [hreinstalls] at hsettled
        cases hsettled
      · obtain rfl : journal = journal' := by
          have hsame := hjournal.symm.trans hjournal'
          injection hsame with hsame
          injection hsame
        obtain rfl : image = image' := Option.some.inj (himage.symm.trans himage')
        rcases hfit with hpre | hmain | ⟨candidate, hcandidate, hreads⟩
        · exact Or.inr ⟨journal, image, hjournal, hcontent.trans (hbackup.mpr hpre), Or.inl himage⟩
        · exact Or.inl (hcontent.trans (hlive.mpr hmain))
        · exact Or.inr ⟨journal, candidate, hjournal,
            hcontent.trans ((replay_eq_iff_target _ _ _).mpr hreads), Or.inr hcandidate⟩

/-- **Crash recovery yields one complete database exactly when** the frames that the
crash has left beside the live file fit what recovery puts there. -/
theorem recovery_yields_one_database_iff (x : Sqlite Page Write) (s : State Page Write)
    (backupId confirmation : String) (fault : RestoreFault)
    (moves : List (Move (Answer Page Write) (Event Page Write)))
    (frames : List (Frame Page (List Write)))
    (moves' : List (Move (Answer Page Write) (Event Page Write))) (b : Bool)
    (hok : (recoveryRun x ((restoreRun x s backupId confirmation fault moves).1.state.crashedWith
      frames) moves').2 = some (.ok b)) :
    OneDatabase ((restoreRun x s backupId confirmation fault moves).1.state.crashedWith frames)
        (recoveryRun x ((restoreRun x s backupId confirmation fault moves).1.state.crashedWith
          frames) moves').1.state ↔
      FramesFit ((restoreRun x s backupId confirmation fault moves).1.state.crashedWith frames) :=
  oneDatabase_iff rfl hok

/-! ## Samples -/

instance [DecidableEq Write] (step : RestoreStep Page Write) : Decidable (loses step) := by
  unfold loses
  split <;> infer_instance

omit [DecidableEq Page] in
instance (step : RestoreStep Page Write) : Decidable (undoes step) := by
  unfold undoes
  split <;> infer_instance

namespace Sample

def sqlite : Sqlite Bool Nat where
  vacuum := id
  holds_vacuum := fun _ _ => Iff.rfl
  verifies := fun _ => true
  hashFile := fun _ => { sha256 := "0", sizeBytes := 1 }

def candidate : BackupManifest :=
  { id := Sample.uuid 0, source := .manual, file := { sha256 := "0", sizeBytes := 1 } }

/-- One acknowledged write, and an empty database as the candidate. -/
def started : State Bool Nat where
  files := fun path => match path with
    | .live => some (.database fun _ => [0])
    | .backup name => if name = candidate.fileName then some (.database fun _ => []) else none
    | .manifest name => if name = candidate.fileName then some (.manifest candidate) else none
    | _ => none
  log := []
  records := [candidate.toRecord]
  pool := true
  maintenance := false
  committed := [0]
  atSnapshot := none
  atMaintenance := none
  installed := none

theorem started_started : Started started where
  settled := rfl
  pool := rfl
  released := rfl
  outside := rfl
  kept := by
    intro write hw
    exact ⟨false, hw⟩
  installed := rfl
  atSnapshot := rfl

def answer (ok : Bool) : Answer Bool Nat where
  ok := ok
  id := Sample.uuid 1
  entries := []
  surplus := []
  records := []
  changes := []
  truncated := true

def answers (n : Nat) : List (Move (Answer Bool Nat) (Event Bool Nat)) :=
  List.replicate n (.answer (answer true))

def restored (moves : List (Move (Answer Bool Nat) (Event Bool Nat))) :
    Conf Bool Nat × Option (Except BackupError RestoreOutcome) :=
  restoreRun sqlite started candidate.id.text restoreConfirmation .none moves

/-- A write, a checkpoint, a crash and the next startup. -/
def beforeStartup (s : State Bool Nat) : State Bool Nat :=
  (interfere .resetLog (interfere (.commit [(false, 9)]) s)).crashed

def startedAgain (s : State Bool Nat) : State Bool Nat :=
  (serve sqlite .reopen (answer true) (recoveryRun sqlite (beforeStartup s) (answers 20)).1.state).2

theorem later {s : State Bool Nat} {b : Bool}
    (h : (recoveryRun sqlite (beforeStartup s) (answers 20)).2 = some (.ok b)) :
    Later sqlite s (startedAgain s) :=
  .startup (.stopped (.service (.service .returned _) _)) rfl _ h _

instance (image : Image Bool Nat) (write : Nat) : Decidable (image.Holds write) :=
  inferInstanceAs (Decidable (∃ page, write ∈ image page))

instance (s : State Bool Nat) : Decidable s.Holds :=
  inferInstanceAs (Decidable (∀ write ∈ s.guarded, ∃ page, write ∈ s.content page))

end Sample

/-- The checkpoint fails, and the rollback keeps what was acknowledged. -/
theorem sample_checkpoint_failure :
    (Sample.restored (Sample.answers 50 ++ .answer (Sample.answer false) ::
      Sample.answers 50)).1.state.Holds :=
  (failed_restore_keeps_writes Sample.sqlite Sample.started Sample.started_started
    Sample.candidate.id.text restoreConfirmation .none _ (by decide +kernel)).1 .restoreFailed
    (by decide +kernel)

/-- The same with a write that is acknowledged between the snapshot and maintenance. -/
theorem sample_lost_write :
    Started Sample.started ∧
      (Sample.restored (Sample.answers 20 ++ .event (.commit [(false, 7)]) :: Sample.answers 30 ++
        .answer (Sample.answer false) :: Sample.answers 50)).2 = some (.error .restoreFailed) ∧
      ¬ (Sample.restored (Sample.answers 20 ++ .event (.commit [(false, 7)]) :: Sample.answers 30 ++
        .answer (Sample.answer false) :: Sample.answers 50)).1.state.Holds :=
  ⟨Sample.started_started, by decide +kernel, by decide +kernel⟩

/-- A write after a restore that has succeeded is there after the next startup. -/
theorem sample_write_kept :
    KeepsSince (Sample.restored (Sample.answers 100)).1.state
      (Sample.startedAgain (Sample.restored (Sample.answers 100)).1.state) :=
  finished_restore_is_not_undone Sample.sqlite Sample.started Sample.started_started.toEarly
    Sample.candidate.id.text restoreConfirmation .none (Sample.answers 100)
    (.ok ⟨(Sample.uuid 1).text, Sample.candidate.id.text, true, false⟩) (by decide +kernel)
    (by decide +kernel) _ (Sample.later (b := false) (by decide +kernel))

/-- The audit event of the success cannot be written: the next startup undoes the
restore, and the write after it. -/
theorem sample_write_undone :
    (Sample.restored (Sample.answers 83 ++ [.answer (Sample.answer false)])).2 =
        some (.error .database) ∧
      Later Sample.sqlite
        (Sample.restored (Sample.answers 83 ++ [.answer (Sample.answer false)])).1.state
        (Sample.startedAgain
          (Sample.restored (Sample.answers 83 ++ [.answer (Sample.answer false)])).1.state) ∧
      ¬ KeepsSince (Sample.restored (Sample.answers 83 ++ [.answer (Sample.answer false)])).1.state
        (Sample.startedAgain
          (Sample.restored (Sample.answers 83 ++ [.answer (Sample.answer false)])).1.state) := by
  refine ⟨by decide +kernel, Sample.later (b := true) (by decide +kernel), ?_⟩
  rintro ⟨writes, hcommitted, hheld⟩
  have hwrites : writes = [9] := by
    refine List.append_cancel_left (hcommitted.symm.trans ?_)
    decide +kernel
  have hlost : ¬ (Sample.startedAgain (Sample.restored
      (Sample.answers 83 ++ [.answer (Sample.answer false)])).1.state).content.Holds 9 := by
    decide +kernel
  exact hlost (hheld 9 (by simp [hwrites]))

/-- A crash with an empty log. -/
theorem sample_one_database :
    OneDatabase ((Sample.restored (Sample.answers 45)).1.state.crashedWith [])
        (recoveryRun Sample.sqlite ((Sample.restored (Sample.answers 45)).1.state.crashedWith [])
          (Sample.answers 20)).1.state ↔
      FramesFit ((Sample.restored (Sample.answers 45)).1.state.crashedWith []) :=
  recovery_yields_one_database_iff Sample.sqlite Sample.started Sample.candidate.id.text
    restoreConfirmation .none (Sample.answers 45) [] (Sample.answers 20) true (by decide +kernel)

/-- After the snapshot one write is checkpointed, and another stays in the log. -/
def Sample.halfLogged : List (Move (Answer Bool Nat) (Event Bool Nat)) :=
  Sample.answers 20 ++ .event (.commit [(true, 5)]) :: .event .resetLog ::
    .event (.commit [(false, 7)]) :: Sample.answers 25

def Sample.mixed : State Bool Nat :=
  (Sample.restored Sample.halfLogged).1.state.crashedWith
    (Sample.restored Sample.halfLogged).1.state.log

/-- No backup that the journal names has this page. -/
def Sample.unnamed (s : State Bool Nat) (cell : List Nat) : Bool :=
  match s.files .journal with
  | some (.journal journal) =>
    (s.image (.backup journal.preRestoreFile)).all (fun image => image false ≠ cell) &&
      (s.image (.backup journal.candidateFile)).all (fun image => image false ≠ cell)
  | _ => true

/-- Recovery puts the backup beside the log: one page is of the backup, the other of
the log. -/
theorem sample_mixed_database :
    (Sample.restored Sample.halfLogged).2 = none ∧
      (recoveryRun Sample.sqlite Sample.mixed (Sample.answers 20)).2 = some (.ok true) ∧
      ¬ OneDatabase Sample.mixed
        (recoveryRun Sample.sqlite Sample.mixed (Sample.answers 20)).1.state := by
  refine ⟨by decide +kernel, by decide +kernel, ?_⟩
  have hunnamed : Sample.unnamed Sample.mixed ((recoveryRun Sample.sqlite Sample.mixed
      (Sample.answers 20)).1.state.content false) = true := by
    decide +kernel
  rintro (hlive | ⟨journal, image, hjournal, hsame, hwhich⟩)
  · have hdiffers : (recoveryRun Sample.sqlite Sample.mixed
        (Sample.answers 20)).1.state.content true ≠ Sample.mixed.content true := by
      decide +kernel
    exact hdiffers (congrFun hlive true)
  · unfold Sample.unnamed at hunnamed
    rw [hjournal, hsame] at hunnamed
    rcases hwhich with hpre | hcandidate
    · simp [hpre] at hunnamed
    · simp [hcandidate] at hunnamed

end RemindiCore.Admin
