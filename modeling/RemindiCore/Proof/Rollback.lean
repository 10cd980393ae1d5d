import RemindiCore.Proof.Preparing

/-!
# Rolling back

What holds while the journal asks for the pre-restore backup, and how a restore
ends: with a journal that asks for nothing, with a closed database, or after a
step that undoes it (`Ended`).  A rollback puts every guarded write back unless
a step has lost one (`rollBack_triple`).
-/

namespace RemindiCore.Admin

open PageLog Fallible

variable {Page Write : Type} [DecidableEq Page] {x : Sqlite Page Write} {s t : State Page Write}
  {c : Conf Page Write} {pre : String} {journal : RestoreJournal}

/-! ## Stages -/

/-- The journal of one restore, whatever its phase. -/
structure JournalFor (pre : String) (journal : RestoreJournal) : Prop where
  operation : (Uuid.parse journal.operationId).isSome = true
  candidate : safeFileName journal.candidateFile = true
  preRestore : safeFileName journal.preRestoreFile = true
  file : journal.preRestoreFile = pre

/-- The live database is in use. -/
def Serving (x : Sqlite Page Write) (pre : String) (s : State Page Write) : Prop :=
  Ready x pre s ∧ s.pool = true ∧ s.maintenance = false

/-- Maintenance is held. -/
def Held (x : Sqlite Page Write) (pre : String) (s : State Page Write) : Prop :=
  Ready x pre s ∧ s.maintenance = true

def HeldClosed (x : Sqlite Page Write) (pre : String) (s : State Page Write) : Prop :=
  Held x pre s ∧ s.pool = false

def HeldOpen (x : Sqlite Page Write) (pre : String) (s : State Page Write) : Prop :=
  Held x pre s ∧ s.pool = true

/-- Every guarded write is there, unless the candidate is in its place. -/
def Intact (s : State Page Write) : Prop := s.Holds ∨ s.installed = some .candidate

omit [DecidableEq Page] in
theorem JournalFor.withPhase (h : JournalFor pre journal) (phase : RestorePhase) :
    JournalFor pre { journal with phase := phase } :=
  ⟨h.operation, h.candidate, h.preRestore, h.file⟩

theorem lasting_held : Lasting (Held x pre) :=
  fun s t h hs => ⟨lasting_ready s t h hs.1, h.maintenance.trans hs.2⟩

theorem lasting_serving : Lasting (Serving x pre) :=
  fun s t h hs => ⟨lasting_ready s t h hs.1, h.pool.trans hs.2.1, h.maintenance.trans hs.2.2⟩

theorem lasting_heldClosed : Lasting (HeldClosed x pre) :=
  fun s t h hs => ⟨lasting_held s t h hs.1, h.pool.trans hs.2⟩

theorem lasting_heldOpen : Lasting (HeldOpen x pre) :=
  fun s t h hs => ⟨lasting_held s t h hs.1, h.pool.trans hs.2⟩

omit [DecidableEq Page] in
theorem Held.withPool (h : Held x pre s) (pool : Bool) : Held x pre { s with pool := pool } :=
  ⟨h.1.of_files rfl rfl rfl, h.2⟩

theorem lasting_installed {role : Role} :
    Lasting fun s : State Page Write => s.installed = some role :=
  fun _ _ h hs => h.installed.trans hs

theorem lasting_intact : Lasting (Intact : State Page Write → Prop) :=
  lasting_holds.or lasting_installed

theorem Ready.stopped (h : Ready x pre c.state) : Stopped x c := Or.inr (Or.inr ⟨pre, h⟩)

omit [DecidableEq Page] in
theorem Ready.reinstalls (h : Ready x pre s) : s.reinstalls = true := by
  obtain ⟨journal, hfile, -, hphase, -⟩ := h.journal
  unfold State.reinstalls
  rw [hfile]
  exact hphase

theorem State.holds_of (h : s.Holds) (hcontent : t.content = s.content)
    (hguarded : t.guarded = s.guarded) : t.Holds := by
  intro write hw
  rw [hguarded] at hw
  rw [hcontent]
  exact h write hw

/-! ## The journal in its place -/

theorem State.content_journaled : (s.journaled journal).content = s.content :=
  State.content_of_files (by simp [State.journaled]) rfl

omit [DecidableEq Page] in
theorem Ready.journaled (h : Ready x pre s) (hj : JournalFor pre journal)
    (hphase : journal.phase.reinstalls = true) : Ready x pre (s.journaled journal) where
  journal := by
    refine ⟨journal, by simp [State.journaled], ?_, hphase, hj.file⟩
    simp only [RestoreJournal.valid, hj.operation, hj.candidate, hj.preRestore, Bool.or_true,
      Bool.and_self]
  backup := (h.of_files rfl rfl rfl).backup

theorem Holds.journaled (h : s.Holds) : (s.journaled journal).Holds :=
  State.holds_of h State.content_journaled rfl

theorem Intact.journaled (h : Intact s) : Intact (s.journaled journal) :=
  h.imp_left Holds.journaled

omit [DecidableEq Page] in
theorem Held.journaled (h : Held x pre s) (hj : JournalFor pre journal)
    (hphase : journal.phase.reinstalls = true) : Held x pre (s.journaled journal) :=
  ⟨h.1.journaled hj hphase, h.2⟩

omit [DecidableEq Page] in
theorem Serving.journaled (h : Serving x pre s) (hj : JournalFor pre journal)
    (hphase : journal.phase.reinstalls = true) : Serving x pre (s.journaled journal) :=
  ⟨h.1.journaled hj hphase, h.2⟩

/-! ## How a restore ends -/

/-- Nothing is left to a later startup, or a step has undone the restore. -/
structure Ended (x : Sqlite Page Write) (result : Except BackupError RestoreOutcome)
    (c : Conf Page Write) : Prop where
  released : c.state.maintenance = false
  final : Undone c ∧ c.state.pool = true ∧ (∃ pre, Ready x pre c.state) ∨
    ¬ Undone c ∧ (c.state.reinstalls = false ∨ c.state.pool = false)
  kept : ∀ e, result = .error e → Lossy c ∨ c.state.Holds

/-- The journal has been removed, or its removal has failed. -/
def Removed (x : Sqlite Page Write) (c : Conf Page Write) : Prop :=
  (Undone c ∧ (∃ pre, Ready x pre c.state) ∨ ¬ Undone c ∧ c.state.reinstalls = false) ∧
    (Lossy c ∨ c.state.Holds) ∧ c.state.pool = true ∧ c.state.maintenance = false

theorem Removed.ended {result : Except BackupError RestoreOutcome} (h : Removed x c) :
    Ended x result c where
  released := h.2.2.2
  final := h.1.imp (fun h' => ⟨h'.1, h.2.2.1, h'.2⟩) fun h' => ⟨h'.1, Or.inl h'.2⟩
  kept _ _ := h.2.1

theorem Removed.stopped (h : Removed x c) : Stopped x c := by
  obtain ⟨⟨-, hready⟩ | ⟨-, hsettled⟩, hkept, -⟩ := h
  · exact Or.inr (Or.inr hready)
  · exact hkept.imp_right fun hholds => Or.inl ⟨hsettled, Or.inl hholds⟩

theorem Removed.evolved {d : Conf Page Write} (h : Removed x c) (hevolves : Evolves c.state d.state)
    (hundone : Undone d ↔ Undone c) (hlossy : Lossy c → Lossy d) : Removed x d := by
  obtain ⟨hcase, hkept, hpool, hmaintenance⟩ := h
  refine ⟨?_, hkept.imp hlossy hevolves.holds, hevolves.pool.trans hpool,
    hevolves.maintenance.trans hmaintenance⟩
  rw [hundone, State.reinstalls_of_files hevolves.journal]
  refine hcase.imp_left fun ⟨hu, pre, hready⟩ => ⟨hu, pre, lasting_ready _ _ hevolves hready⟩

theorem removed_stable : Stable (world x) (Removed x) :=
  fun c e h => h.evolved (interfere_evolves e c.state) undone_event lossy_event.mpr

/-- A restore that fails while the database is in use. -/
theorem Serving.ended {result : Except BackupError RestoreOutcome} (h : Serving x pre c.state)
    (hundone : Undone c) (hkept : Lossy c ∨ c.state.Holds) : Ended x result c :=
  ⟨h.2.2, Or.inl ⟨hundone, h.2.1, pre, h.1⟩, fun _ _ => hkept⟩

/-! ## Removing the journal -/

theorem removeJournal_early :
    Triple (world x) (Clean Early State.Holds) removeJournal (fun _ => Clean Early State.Holds)
      (Stopped x) := by
  have hstable := Clean.stable (x := x) lasting_early lasting_holds
  have hsync : ∀ c a, Clean Early State.Holds c →
      Clean Early State.Holds (c.served (world x) (.fs .removeJournal .syncDirectory) a) :=
    fun c a h => h.quiet lasting_early lasting_holds rfl
  refine Triple.bind (R := fun _ => Clean Early State.Holds)
    (Triple.ignore hstable (fun c h => Early.stopped h) fun c a h => ?_) fun _ =>
      Triple.perform hstable (fun c h => Early.stopped h) (fun c a _ h _ => hsync c a h)
        fun c a h _ => hsync c a h
  have hearly : ∀ s : State Page Write, Early s →
      Early (serve x (.fs .removeJournal (.remove .journal)) a s).2 := by
    intro s hs
    simp only [serve, serveFs, settle]
    split
    · refine ⟨by simp [State.reinstalls], hs.pool, hs.released, hs.outside, ?_⟩
      have hcontent : (s.put .journal none).content = s.content :=
        State.content_of_files (by simp) rfl
      show ∀ write ∈ s.committed, (s.put .journal none).content.Holds write
      rw [hcontent]
      exact hs.kept
    · exact hs
  refine h.served ?_ (hearly _) fun hf _ => Or.inr (hearly _ hf).holds
  have hsettled := h.2.1.settled
  cases hreply : (serve x (.fs .removeJournal (.remove .journal)) a c.state).1 <;>
    simp [undoes, stepOf, hreply, hsettled]

theorem removeJournal_serving :
    Triple (world x) (Clean (Serving x pre) State.Holds) removeJournal (fun _ => Removed x)
      (Stopped x) := by
  have hsync : ∀ c a, Removed x c →
      Removed x (c.served (world x) (.fs .removeJournal .syncDirectory) a) := by
    intro c a h
    refine h.evolved (serveFs_evolves rfl a.ok c.state) ?_ fun hl => lossy_served.mpr (Or.inl hl)
    rw [undone_served, or_iff_left (not_undoes_of_quiet rfl)]
  refine Triple.bind (R := fun _ => Removed x)
    (Triple.ignore (Clean.stable lasting_serving lasting_holds) (fun c h => h.2.1.1.stopped)
      fun c a h => ?_) fun _ =>
      Triple.perform removed_stable (fun c h => h.stopped) (fun c a _ h _ => hsync c a h)
        fun c a h _ => hsync c a h
  obtain ⟨hundone, hserving, hkept⟩ := h
  cases hok : a.ok with
  | true =>
    -- removed
    have hafter : serve x (.fs .removeJournal (.remove .journal)) a c.state =
        (some (), c.state.put .journal none) := by
      simp [serve, serveFs, settle, hok]
    refine ⟨Or.inr ⟨fun hu => ?_, ?_⟩, ?_, ?_, ?_⟩
    · exact (undone_served.mp hu).elim hundone (not_undoes_of_ok (by rw [hafter]))
    · simp [Config.served, world, hafter, State.reinstalls]
    · rw [lossy_served]
      refine hkept.imp Or.inl fun hh => ?_
      show (serve x _ a c.state).2.Holds
      rw [hafter]
      exact State.holds_of hh (State.content_of_files (by simp) rfl) rfl
    · simpa [Config.served, world, hafter] using hserving.2.1
    · simpa [Config.served, world, hafter] using hserving.2.2
  | false =>
    -- still there
    have hafter : serve x (.fs .removeJournal (.remove .journal)) a c.state = (none, c.state) := by
      simp [serve, serveFs, settle, hok]
    have hstate : (c.served (world x) (.fs .removeJournal (.remove .journal)) a).state = c.state := by
      simp [Config.served, world, hafter]
    show Removed x _
    unfold Removed
    rw [hstate]
    refine ⟨Or.inl ⟨undone_served.mpr (Or.inr ?_), pre, hserving.1⟩,
      hkept.imp_left fun hl => lossy_served.mpr (Or.inl hl), hserving.2⟩
    simp [undoes, stepOf, hafter, hserving.1.reinstalls]

/-! ## Putting the pre-restore backup back -/

/-- The rollback itself has failed. -/
def RollbackFailed (x : Sqlite Page Write) (pre : String) (c : Conf Page Write) : Prop :=
  Ready x pre c.state ∧ (Undone c ∧ c.state.pool = true ∨ ¬ Undone c ∧ c.state.pool = false) ∧
    (Lossy c ∨ c.state.Holds)

theorem RollbackFailed.stable : Stable (world x) (RollbackFailed x pre) := by
  rintro c e ⟨hready, hcase, hkept⟩
  have hevolves := interfere_evolves e c.state
  have hpool : (c.event (world x) e).state.pool = c.state.pool := hevolves.pool
  refine ⟨lasting_ready _ _ hevolves hready, ?_, hkept.imp lossy_event.mpr hevolves.holds⟩
  rwa [hpool, undone_event]

/-- Closing the pool keeps what the live database holds. -/
theorem checkpointAndClose_state (a : Answer Page Write) (s : State Page Write) :
    ∃ t, Evolves s t ∧ (serve x .checkpointAndClose a s).2 = { t with pool := false } := by
  simp only [serve]
  cases hpool : s.pool with
  | false => exact ⟨s, Evolves.refl s, by rw [if_neg (by simp)]; cases s; cases hpool; rfl⟩
  | true =>
    rw [if_pos rfl]
    cases a.truncated with
    | false => exact ⟨s, Evolves.refl s, rfl⟩
    | true => exact ⟨s.resetLog, resetLog_evolves, rfl⟩

theorem HeldClosed.of_close {a : Answer Page Write} (h : Held x pre s) :
    HeldClosed x pre (serve x .checkpointAndClose a s).2 := by
  obtain ⟨t, hevolves, hafter⟩ := checkpointAndClose_state (x := x) a s
  rw [hafter]
  exact ⟨(lasting_held s t hevolves h).withPool false, rfl⟩

theorem Intact.of_close {a : Answer Page Write} (h : Intact s) :
    Intact (serve x .checkpointAndClose a s).2 := by
  obtain ⟨t, hevolves, hafter⟩ := checkpointAndClose_state (x := x) a s
  rw [hafter]
  exact (lasting_intact s t hevolves h).imp_left fun hh => State.holds_of hh rfl rfl

/-- Opening the live path again. -/
theorem reopen_state (a : Answer Page Write) (s : State Page Write) :
    ∃ t, Evolves s t ∧ (serve x .reopen a s = (some (), { t with pool := true }) ∨
      serve x .reopen a s = (none, t)) := by
  simp only [serve]
  cases a.ok with
  | true => exact ⟨_, (append_evolves a.changes).withRecords a.records, Or.inl rfl⟩
  | false =>
    cases a.truncated with
    | false => exact ⟨_, append_evolves a.changes, Or.inr rfl⟩
    | true =>
      have hreset := resetLog_evolves (s := s.append a.changes)
      have happend := append_evolves (s := s) a.changes
      refine ⟨(s.append a.changes).resetLog, ?_, Or.inr rfl⟩
      exact ⟨hreset.journal, hreset.backup, rfl, rfl, rfl, rfl, rfl,
        fun write hw => hreset.content write (happend.content write hw), [],
        by simp [State.resetLog, State.put, State.append]⟩

omit [DecidableEq Page] in
/-- The files of the journal and of the backups are not touched by the swap. -/
theorem Held.replaced {role : Role} {operationId : String} {file : File Page Write}
    (h : Held x pre s) : Held x pre (s.replaced role operationId file) :=
  ⟨h.1.of_files (by simp [State.replaced]) (by simp [State.replaced]) rfl, h.2⟩

theorem State.content_replaced {role : Role} {operationId : String} {image : Image Page Write}
    (h : s.log = []) : (s.replaced role operationId (.database image)).content = image := by
  have hmain : (s.replaced role operationId (.database image)).main = image := by
    simp [State.main, State.image, State.replaced]
  show PageLog.replay (State.main _) s.log = image
  rw [h, hmain, replay_nil]

/-- What is known of a copy of the pre-restore backup. -/
def Copied (s : State Page Write) (file : File Page Write) : Prop :=
  ∃ image, file = .database image ∧
    ∀ snapshot, s.atSnapshot = some snapshot → ∀ write ∈ snapshot, image.Holds write

theorem reinstall_triple (hj : JournalFor pre journal) :
    Triple (world x) (Clean (Held x pre) Intact) (reinstall journal (.backup pre))
      (fun result c => match result with
        | .ok () => Clean (HeldOpen x pre) State.Holds c
        | .error _ => c.state.maintenance = true ∧ RollbackFailed x pre c) (Stopped x) := by
  have hclosed : ∀ c, Clean (HeldClosed x pre) State.Holds c →
      c.state.maintenance = true ∧ RollbackFailed x pre c :=
    fun c h => ⟨h.2.1.1.2, h.2.1.1.1, Or.inr ⟨h.1, h.2.1.2⟩, h.2.2⟩
  refine Triple.bind (R := fun _ => Clean (HeldClosed x pre) Intact)
    (Triple.ignore (Clean.stable lasting_held lasting_intact) (fun c h => h.2.1.1.stopped)
      fun c a h => h.served (by simp [undoes, stepOf]) (fun hf => HeldClosed.of_close hf)
        fun _ hg => Or.inr (Intact.of_close hg)) fun _ => ?_
  refine Triple.bind (R := fun _ => Clean (HeldClosed x pre) State.Holds) ?_ fun _ => ?_
  · have hinstall := installDatabase_triple (x := x) .preRestore (.backup pre)
      journal.operationId (F := HeldClosed x pre) (G := Intact) (E := State.Holds) (S := Copied)
      lasting_heldClosed lasting_intact lasting_heldClosed lasting_holds ?_ ?_
      (fun s file h => ⟨h.1.replaced, h.2⟩) ?_ ?_ lasting_holds (fun c h => h.2.1.1.1.stopped)
      (fun c h => h.2.1.1.1.stopped)
    · refine hinstall.weaken (fun c h => h) ?_
      rintro (e | ⟨⟩) c h
      · exact hclosed c (h.elim id id)
      · exact h
    · rintro file s t hevolves ⟨image, rfl, hheld⟩
      exact ⟨image, rfl, fun snapshot hs => hheld snapshot (hevolves.atSnapshot.symm.trans hs)⟩
    · rintro s file h hfile
      obtain ⟨image, himage, -, hheld⟩ := h.1.1.backup
      refine ⟨image, ?_, hheld⟩
      unfold State.image at himage
      rw [hfile] at himage
      cases file <;> first | (cases himage; done) | rw [Option.some.inj himage]
    · rintro c a file - - ⟨image, rfl, hheld⟩
      cases hreply : (serve x (.fs (.installDatabase .preRestore)
          (.rename (.staged journal.operationId) .live)) a c.state).1 with
      | none => exact Or.inr (Or.inl rfl)
      | some value =>
        by_cases hgood : c.state.log = [] ∧ c.state.atSnapshot = some c.state.guarded
        · refine Or.inr (Or.inr fun write hw => ?_)
          rw [State.content_replaced hgood.1]
          exact hheld _ hgood.2 write hw
        · left
          simpa [loses, stepOf, hreply] using hgood
    · rintro s - (hholds | hcandidate)
      · exact Or.inl hholds
      · exact Or.inr ⟨rfl, hcandidate⟩
  refine Triple.bind (R := fun _ => Clean (HeldClosed x pre) State.Holds)
    (tryWriteJournal_triple rfl lasting_heldClosed lasting_holds
      (fun s h => ⟨h.1.journaled (hj.withPhase _) rfl, h.2⟩) (fun s _ h => Holds.journaled h)
      (fun c h => h.2.1.1.1.stopped) fun c h => h) fun _ => ?_
  refine Triple.bind (R := fun _ => Clean (HeldOpen x pre) State.Holds)
    (Triple.perform (Clean.stable lasting_heldClosed lasting_holds) (fun c h => h.2.1.1.1.stopped)
      (fun c a value h hok => ?_) (fun c a h hnone => ?_)) fun _ => ?_
  · obtain ⟨t, hevolves, hafter | hafter⟩ := reopen_state (x := x) a c.state
    · have hstate : (serve x .reopen a c.state).2 = { t with pool := true } := by rw [hafter]
      refine h.served (not_undoes_of_ok hok) (fun hf => ?_) fun _ hg => Or.inr ?_
      · rw [hstate]
        exact ⟨(lasting_held _ t hevolves hf.1).withPool true, rfl⟩
      · rw [hstate]
        exact State.holds_of (hevolves.holds hg) rfl rfl
    · rw [show (world x).serve = serve x from rfl, hafter] at hok
      cases hok
  · obtain ⟨t, hevolves, hafter | hafter⟩ := reopen_state (x := x) a c.state
    · rw [show (world x).serve = serve x from rfl, hafter] at hnone
      cases hnone
    · refine hclosed _ (h.evolved lasting_heldClosed lasting_holds (by simp [undoes, stepOf]) ?_)
      rw [hafter]
      exact hevolves
  refine Triple.bind (R := fun _ => Clean (HeldOpen x pre) State.Holds)
    (tryWriteJournal_triple rfl lasting_heldOpen lasting_holds
      (fun s h => ⟨h.1.journaled (hj.withPhase _) rfl, h.2⟩) (fun s _ h => Holds.journaled h)
      (fun c h => h.2.1.1.1.stopped) fun c h => h) fun _ => ?_
  refine Triple.perform (Clean.stable lasting_heldOpen lasting_holds)
    (fun c h => h.2.1.1.1.stopped) (fun c a value h hok => ?_) (fun c a h hnone => ?_)
  · exact h.evolved lasting_heldOpen lasting_holds (not_undoes_of_ok hok)
      (settle_evolves (append_evolves _))
  · have hevolves : Evolves c.state (serve x (.clearSchedulerLeases .preRestore) a c.state).2 :=
      settle_evolves (append_evolves _)
    have hheld := lasting_heldOpen _ _ hevolves h.2.1
    refine ⟨hheld.1.2, hheld.1.1, Or.inl ⟨undone_served.mpr (Or.inr ?_), hheld.2⟩,
      h.2.2.imp (fun hl => lossy_served.mpr (Or.inl hl)) hevolves.holds⟩
    rw [show (world x).serve = serve x from rfl] at hnone
    simp [undoes, stepOf, hnone]

theorem serving_endMaintenance {a : Answer Page Write} (h : Clean (HeldOpen x pre) State.Holds c) :
    Clean (Serving x pre) State.Holds (c.served (world x) .endMaintenance a) :=
  h.served (by simp [undoes, stepOf]) (fun hf => ⟨hf.1.1.of_files rfl rfl rfl, hf.2, rfl⟩)
    fun _ hg => Or.inr (State.holds_of hg rfl rfl)

theorem RollbackFailed.endMaintenance {a : Answer Page Write} (h : RollbackFailed x pre c) :
    RollbackFailed x pre (c.served (world x) .endMaintenance a) := by
  obtain ⟨hready, hcase, hkept⟩ := h
  have hundone : Undone (c.served (world x) .endMaintenance a) ↔ Undone c := by
    rw [undone_served, or_iff_left (by simp [undoes, stepOf])]
  refine ⟨hready.of_files rfl rfl rfl, ?_, hkept.imp (fun hl => lossy_served.mpr (Or.inl hl))
    fun hh => State.holds_of hh rfl rfl⟩
  rw [hundone]
  exact hcase

/-- **A rollback puts every guarded write back**, or a step has lost one. -/
theorem rollBack_triple (hj : JournalFor pre journal) :
    Triple (world x) (Clean (Held x pre) Intact) (rollBack journal (.backup pre))
      (fun result c => Ended x result c) (Stopped x) := by
  have hserving := Clean.stable (x := x) (lasting_serving : Lasting (Serving x pre)) lasting_holds
  have hstopped : ∀ c, Clean (Serving x pre) State.Holds c → Stopped x c := fun c h => h.2.1.1.stopped
  refine Triple.bind (R := fun result c => match result with
    | .ok () => Clean (HeldOpen x pre) State.Holds c
    | .error _ => c.state.maintenance = true ∧ RollbackFailed x pre c)
    (Triple.attempt (reinstall_triple hj)) fun result => ?_
  cases result with
  | error e =>
    refine Triple.bind (R := fun _ c => c.state.maintenance = false ∧ RollbackFailed x pre c)
      (Triple.ignore (fun c e h => ⟨(interfere_evolves e c.state).maintenance.trans h.1,
        RollbackFailed.stable c e h.2⟩) (fun c h => h.2.1.stopped)
        fun c a h => ⟨rfl, h.2.endMaintenance⟩) fun _ => ?_
    refine Triple.throw fun c h => ⟨h.1, ?_, fun _ _ => h.2.2.2⟩
    exact h.2.2.1.imp (fun hu => ⟨hu.1, hu.2, pre, h.2.1⟩) fun hu => ⟨hu.1, Or.inr hu.2⟩
  | ok value =>
    refine Triple.bind (R := fun _ => Clean (Serving x pre) State.Holds)
      (Triple.ignore (Clean.stable lasting_heldOpen lasting_holds) (fun c h => h.2.1.1.1.stopped)
        fun c a h => serving_endMaintenance h) fun _ => ?_
    refine Triple.bind (R := fun _ => Clean (Serving x pre) State.Holds)
      (Triple.pure fun c h => h) fun _ => ?_
    refine Triple.bind (R := fun _ => Clean (Serving x pre) State.Holds)
      (Triple.attempt (triple_quiet (Prog.Makes.perform rfl) lasting_serving lasting_holds hstopped))
      fun restart => ?_
    have htry : ∀ (phase : RestorePhase) (post : Except BackupError Unit → Conf Page Write → Prop),
        phase.plain = true → phase.reinstalls = true →
        (∀ c, Clean (Serving x pre) State.Holds c → post (.ok ()) c) →
        Triple (world x) (Clean (Serving x pre) State.Holds)
          (tryWriteJournal { journal with phase := phase }) post (Stopped x) :=
      fun phase post hplain hphase hpost =>
        tryWriteJournal_triple hplain lasting_serving lasting_holds
          (fun s h => h.journaled (hj.withPhase _) hphase) (fun s _ h => Holds.journaled h)
          hstopped hpost
    refine Triple.bind (R := fun _ => Clean (Serving x pre) State.Holds)
      (htry .workloadsRestartedOrHeld _ rfl rfl fun c h => h) fun _ => ?_
    refine Triple.bind (R := fun _ => Clean (Serving x pre) State.Holds)
      (Triple.perform hserving hstopped (fun c a value h hok => ?_) (fun c a h hnone => ?_))
      fun _ => ?_
    · exact h.evolved lasting_serving lasting_holds (not_undoes_of_ok hok)
        (settle_evolves (append_evolves _))
    · have hevolves : Evolves c.state (serve x (.auditAppend .restoreFailed) a c.state).2 :=
        settle_evolves (append_evolves _)
      rw [show (world x).serve = serve x from rfl] at hnone
      refine (lasting_serving _ _ hevolves h.2.1).ended (undone_served.mpr (Or.inr ?_))
        (h.2.2.imp (fun hl => lossy_served.mpr (Or.inl hl)) hevolves.holds)
      simp [undoes, stepOf, hnone]
    refine Triple.bind (R := fun _ => Clean (Serving x pre) State.Holds)
      (htry .failed _ rfl rfl fun c h => h) fun _ => ?_
    refine Triple.bind (R := fun _ => Removed x)
      (removeJournal_serving.weaken (fun c h => h) ?_) fun _ => ?_
    · rintro (e | ⟨⟩) c h
      · exact h.ended
      · exact h
    exact Triple.bind (R := fun _ => Removed x) (Triple.ofExcept fun c h => by
      cases restart
      · exact h.ended
      · exact h) fun _ => Triple.throw fun c h => h.ended

end RemindiCore.Admin
