import RemindiCore.Proof.Restoring

/-!
# Before the live database is touched

The journal of an early phase, the download of the candidate, the creation of
the pre-restore backup: none of them changes what the live database holds, and
the pre-restore backup holds every write that had been acknowledged when its
snapshot was taken (`create_triple`).
-/

namespace RemindiCore.Admin

open PageLog Fallible

variable {Page Write : Type} [DecidableEq Page] {x : Sqlite Page Write} {s t : State Page Write}
  {F G : State Page Write → Prop} {crash : Conf Page Write → Prop} {pre : String}

/-! ## Stages -/

/-- No journal asks for a pre-restore backup, and every acknowledged write is in
the live database. -/
structure Early (s : State Page Write) : Prop where
  settled : s.reinstalls = false
  pool : s.pool = true
  released : s.maintenance = false
  outside : s.atMaintenance = none
  kept : ∀ write ∈ s.committed, s.content.Holds write

/-- The journal asks for the pre-restore backup `pre`, which is there, verifies
and holds what its snapshot was to hold. -/
structure Ready (x : Sqlite Page Write) (pre : String) (s : State Page Write) : Prop where
  journal : ∃ journal, s.files .journal = some (.journal journal) ∧ journal.valid = true ∧
    journal.phase.reinstalls = true ∧ journal.preRestoreFile = pre
  backup : ∃ image, s.image (.backup pre) = some image ∧ x.verifies image = true ∧
    ∀ snapshot, s.atSnapshot = some snapshot → ∀ write ∈ snapshot, image.Holds write

/-- A backup of this name holds what the snapshot was to hold. -/
def SnapshotIn (name : String) (s : State Page Write) : Prop :=
  ∀ image, s.image (.backup name) = some image →
    ∀ snapshot, s.atSnapshot = some snapshot → ∀ write ∈ snapshot, image.Holds write

def Verified (x : Sqlite Page Write) (name : String) (s : State Page Write) : Prop :=
  ∃ image, s.image (.backup name) = some image ∧ x.verifies image = true

/-- Where a run may be stopped. -/
def Stopped (x : Sqlite Page Write) (c : Conf Page Write) : Prop :=
  Lossy c ∨ c.state.reinstalls = false ∧
    (c.state.Holds ∨ c.state.installed = some .candidate) ∨ ∃ pre, Ready x pre c.state

theorem Early.holds (h : Early s) : s.Holds := by
  intro write hw
  unfold State.guarded at hw
  rw [h.outside] at hw
  exact h.kept write hw

theorem Early.stopped {c : Conf Page Write} (h : Clean Early G c) : Stopped x c :=
  Or.inr (Or.inl ⟨h.2.1.settled, Or.inl h.2.1.holds⟩)

omit [DecidableEq Page] in
theorem State.image_of_files {path : FilePath} (h : t.files path = s.files path) :
    t.image path = s.image path := by
  unfold State.image
  rw [h]

omit [DecidableEq Page] in
theorem State.reinstalls_of_files (h : t.files .journal = s.files .journal) :
    t.reinstalls = s.reinstalls := by
  unfold State.reinstalls
  rw [h]

theorem Early.of_files (h : Early s) (hjournal : t.files .journal = s.files .journal)
    (hlive : t.files .live = s.files .live) (hlog : t.log = s.log) (hpool : t.pool = s.pool)
    (hmaintenance : t.maintenance = s.maintenance) (houtside : t.atMaintenance = s.atMaintenance)
    (hcommitted : t.committed = s.committed) : Early t where
  settled := (State.reinstalls_of_files hjournal).trans h.settled
  pool := hpool.trans h.pool
  released := hmaintenance.trans h.released
  outside := houtside.trans h.outside
  kept := by
    rw [hcommitted, State.content_of_files hlive hlog]
    exact h.kept

theorem lasting_early : Lasting (Early : State Page Write → Prop) := by
  intro s t hevolves h
  obtain ⟨writes, hcommitted, hnew⟩ := hevolves.committed
  refine ⟨(State.reinstalls_of_files hevolves.journal).trans h.settled, hevolves.pool.trans h.pool,
    hevolves.maintenance.trans h.released, hevolves.atMaintenance.trans h.outside, ?_⟩
  intro write hw
  rw [hcommitted, List.mem_append] at hw
  exact hw.elim (fun hw => hevolves.content write (h.kept write hw)) (hnew write)

omit [DecidableEq Page] in
theorem Ready.of_files (h : Ready x pre s) (hjournal : t.files .journal = s.files .journal)
    (hbackup : t.files (.backup pre) = s.files (.backup pre))
    (hsnapshot : t.atSnapshot = s.atSnapshot) : Ready x pre t where
  journal := by
    rw [hjournal]
    exact h.journal
  backup := by
    rw [State.image_of_files hbackup, hsnapshot]
    exact h.backup

theorem lasting_ready : Lasting (Ready x pre) :=
  fun _ _ hevolves h => h.of_files hevolves.journal (hevolves.backup pre) hevolves.atSnapshot

theorem lasting_snapshotIn : Lasting (SnapshotIn pre : State Page Write → Prop) := by
  intro s t hevolves h image himage snapshot hsnapshot
  rw [State.image_of_files (hevolves.backup pre)] at himage
  exact h image himage snapshot (hevolves.atSnapshot.symm.trans hsnapshot)

theorem lasting_verified : Lasting (Verified x pre) := by
  rintro s t hevolves ⟨image, himage, hverifies⟩
  exact ⟨image, (State.image_of_files (hevolves.backup pre)).trans himage, hverifies⟩

/-! ## Files that a call does not touch -/

def FsCall.touches (path : FilePath) : FsCall Page Write → Prop
  | .create p | .write p _ | .remove p | .copy _ p => p = path
  | .rename source target => source = path ∨ target = path
  | _ => False

omit [DecidableEq Page] in
theorem serveFs_files {caller : Caller} {call : FsCall Page Write} {path : FilePath}
    (h : ¬ call.touches path) (ok : Bool) (s : State Page Write) :
    (serveFs caller call ok s).2.files path = s.files path := by
  have hput : ∀ (p : FilePath) (file : Option (File Page Write)), p ≠ path →
      (s.put p file).files path = s.files path :=
    fun p file hp => Function.update_of_ne (Ne.symm hp) _ _
  cases call with
  | create p => cases ok <;> first | rfl | exact hput p _ h
  | write p file => cases ok <;> exact hput p _ h
  | remove p => cases ok <;> first | rfl | exact hput p _ h
  | copy source target =>
    cases hfile : s.files source with
    | none => simp only [serveFs, hfile]
    | some file => simp only [serveFs, hfile]; cases ok <;> exact hput target _ h
  | rename source target =>
    obtain ⟨hsource, htarget⟩ := not_or.mp h
    have hmoved : ∀ file, ((s.put target file).put source none).files path = s.files path :=
      fun file => (Function.update_of_ne (Ne.symm hsource) _ _).trans (hput target file htarget)
    cases hfile : s.files source with
    | none => simp only [serveFs, hfile]
    | some file =>
      cases ok with
      | false => simp only [serveFs, hfile, settle]; rfl
      | true =>
        simp only [serveFs, hfile, settle, if_true]
        split <;> exact hmoved _
  | _ => cases ok <;> rfl

/-! ## Download -/

theorem verify_backup {name : String} {file : VerifiedFile}
    (h : verify x (.backup name) s = some file) : Verified x name s := by
  unfold verify at h
  cases himage : s.image (.backup name) with
  | none =>
    rw [himage] at h
    cases h
  | some image =>
    rw [himage] at h
    simp only [reduceCtorEq, if_false, Option.ite_none_right_eq_some] at h
    exact ⟨image, himage, h.1⟩

theorem findBackup_some {records : List BackupRecord} {id : String} {record : BackupRecord}
    (h : findBackup records id = some record) : record.id.text = id := by
  have hfound := List.find?_some h
  simp only [Bool.and_eq_true, decide_eq_true_eq] at hfound
  exact hfound.1

theorem download_triple {id : String} (hF : Lasting F) (hG : Lasting G)
    (hcrash : ∀ c, Clean F G c → crash c) :
    Triple (world x) (Clean F G) (download id) (fun result c => match result with
      | .ok (record, path) => record.id.text = id ∧ safeFileName record.fileName = true ∧
          path = .backup record.fileName ∧
          Clean (fun s => F s ∧ Verified x record.fileName s) G c
      | .error _ => Clean F G c) crash := by
  have hstable := Clean.stable (x := x) hF hG
  have hquiet : ∀ (k : Call Page Write) c a, k.quiet = true → Clean F G c →
      Clean F G (c.served (world x) k a) := fun k c a hk h => h.quiet hF hG hk
  refine Triple.bind (R := fun _ => Clean F G) (Triple.perform hstable hcrash
    (fun c a value h _ => hquiet _ c a rfl h) (fun c a h _ => hquiet _ c a rfl h)) fun records => ?_
  cases hfound : findBackup records id with
  | none => exact Triple.throw fun c h => h
  | some record =>
    have hid := findBackup_some hfound
    dsimp only
    cases hsafe : safeFileName record.fileName with
    | false => exact Triple.throw fun c h => h
    | true =>
      refine Triple.bind (R := fun _ => Clean F G) (Triple.perform hstable hcrash
        (fun c a value h _ => hquiet _ c a rfl h) (fun c a h _ => hquiet _ c a rfl h))
        fun manifest => ?_
      refine Triple.bind (R := fun _ => Clean (fun s => F s ∧ Verified x record.fileName s) G)
        (Triple.perform hstable hcrash (fun c a value h hok => ?_)
          (fun c a h _ => hquiet _ c a rfl h)) fun verified => ?_
      · -- verified: the file is there
        have hverified : Verified x record.fileName c.state := by
          cases hok' : a.ok with
          | false => simp [world, serve, hok'] at hok
          | true => exact verify_backup (by simpa [world, serve, hok'] using hok)
        exact h.served (not_undoes_of_ok hok) (fun hf => ⟨hf, hverified⟩) fun _ hg => Or.inr hg
      · split
        · exact Triple.throw fun c h => h.mono (fun _ hf => hf.1) fun _ _ hg => hg
        · exact Triple.pure fun c h => ⟨hid, hsafe, rfl, h⟩

/-! ## The pre-restore backup -/

/-- The temporary file of a backup holds what its snapshot was to hold. -/
def SnapshotTaken (id : String) (s : State Page Write) : Prop :=
  ∃ image, s.files (.temporaryDatabase id) = some (.database image) ∧
    ∀ snapshot, s.atSnapshot = some snapshot → ∀ write ∈ snapshot, image.Holds write

omit [DecidableEq Page] in
theorem SnapshotTaken.of_files {id : String} (h : SnapshotTaken id s)
    (hfile : t.files (.temporaryDatabase id) = s.files (.temporaryDatabase id))
    (hsnapshot : t.atSnapshot = s.atSnapshot) : SnapshotTaken id t := by
  obtain ⟨image, himage, hheld⟩ := h
  exact ⟨image, hfile.trans himage, fun snapshot hs => hheld snapshot (hsnapshot.symm.trans hs)⟩

/-- The snapshot holds every write acknowledged so far. -/
theorem vacuumInto_taken {id : String} {a : Answer Page Write} {value : Unit} (h : Early s)
    (hok : (serve x (.vacuumInto (.temporaryDatabase id)) a s).1 = some value) :
    Early (serve x (.vacuumInto (.temporaryDatabase id)) a s).2 ∧
      SnapshotTaken id (serve x (.vacuumInto (.temporaryDatabase id)) a s).2 := by
  simp only [serve, settle] at hok ⊢
  split at hok
  · rename_i hcondition
    rw [if_pos hcondition]
    refine ⟨h.of_files ?_ ?_ rfl rfl rfl rfl rfl, x.vacuum s.content, by simp, ?_⟩
    · simp
    · simp
    · rintro snapshot hsnapshot write hw
      rw [← Option.some.inj hsnapshot] at hw
      exact (x.holds_vacuum _ _).mpr (h.kept write hw)
  · cases hok

/-- The verified snapshot gets its name. -/
theorem rename_snapshot {id name : String} {a : Answer Page Write} {value : Unit} (h : Early s)
    (htaken : SnapshotTaken id s)
    (hok : (serve x (.fs .backups (.rename (.temporaryDatabase id) (.backup name))) a s).1 =
      some value) :
    Early (serve x (.fs .backups (.rename (.temporaryDatabase id) (.backup name))) a s).2 ∧
      SnapshotIn name (serve x (.fs .backups (.rename (.temporaryDatabase id) (.backup name))) a s).2 := by
  obtain ⟨image, himage, hheld⟩ := htaken
  simp only [serve, serveFs, himage, settle] at hok ⊢
  split at hok
  · rename_i hcondition
    rw [if_pos hcondition]
    refine ⟨h.of_files (by simp) (by simp) rfl rfl rfl rfl rfl, fun image' himage' => ?_⟩
    obtain rfl : image = image' := by simpa [State.image] using himage'
    exact hheld
  · cases hok

theorem remove_backup {name other : String} {a : Answer Page Write} (h : Early s)
    (hin : SnapshotIn other s) :
    Early (serve x (.fs .backups (.remove (.backup name))) a s).2 ∧
      SnapshotIn other (serve x (.fs .backups (.remove (.backup name))) a s).2 := by
  simp only [serve, serveFs, settle]
  split
  · refine ⟨h.of_files (by simp) (by simp) rfl rfl rfl rfl rfl, fun image himage => ?_⟩
    refine hin image ?_
    by_cases hname : name = other
    · subst hname
      simp [State.image] at himage
    · rw [← himage]
      refine (State.image_of_files ?_).symm
      exact Function.update_of_ne (by simpa using Ne.symm hname) _ _
  · exact ⟨h, hin⟩

/-- The stage after the publication of the pre-restore backup. -/
def Published (name : String) (s : State Page Write) : Prop := Early s ∧ SnapshotIn name s

theorem lasting_published {name : String} :
    Lasting (Published name : State Page Write → Prop) :=
  lasting_early.and lasting_snapshotIn

theorem Published.stopped {name : String} {c : Conf Page Write}
    (h : Clean (Published name) State.Holds c) : Stopped x c :=
  Early.stopped (h.mono (fun _ hf => hf.1) fun _ _ hg => hg)

theorem Published.error {name : String} {c : Conf Page Write}
    (h : Clean (Published name) State.Holds c) : Clean Early State.Holds c :=
  h.mono (fun _ hf => hf.1) fun _ _ hg => hg

theorem expireBackups_triple {name : String} (rows : List BackupRecord) :
    Triple (world x) (Clean (Published name) State.Holds) (expireBackups rows)
      (fun _ => Clean (Published name) State.Holds) (Stopped x) := by
  have hstable := Clean.stable (x := x) (lasting_published : Lasting (Published name)) lasting_holds
  have hquiet : ∀ (k : Call Page Write) c a, k.quiet = true →
      Clean (Published name) State.Holds c →
      Clean (Published name) State.Holds (c.served (world x) k a) :=
    fun k c a hk h => h.quiet lasting_published lasting_holds hk
  induction rows with
  | nil => exact Triple.pure fun c h => h
  | cons row rows ih =>
    refine Triple.bind (R := fun _ => Clean (Published name) State.Holds)
      (Triple.perform hstable (fun c h => Published.stopped h)
        (fun c a value h _ => hquiet _ c a rfl h) (fun c a h _ => hquiet _ c a rfl h)) fun _ => ?_
    refine Triple.bind (R := fun _ => Clean (Published name) State.Holds)
      (Triple.ignore hstable (fun c h => Published.stopped h) fun c a h => ?_) fun _ => ?_
    · refine h.served (by simp [undoes, stepOf]) (fun hf => remove_backup hf.1 hf.2) fun hf hg => ?_
      exact Or.inr (remove_backup hf.1 hf.2).1.holds
    exact Triple.bind (R := fun _ => Clean (Published name) State.Holds)
      (Triple.ignore hstable (fun c h => Published.stopped h) fun c a h => hquiet _ c a rfl h)
      fun _ => ih

/-- **A pre-restore backup holds what its snapshot was to hold.** -/
theorem create_triple :
    Triple (world x) (Clean Early State.Holds) (create .preRestore)
      (fun result c => match result with
        | .ok record => Clean (fun s => Early s ∧ SnapshotIn record.fileName s) State.Holds c
        | .error _ => Clean Early State.Holds c) (Stopped x) := by
  have hstable := Clean.stable (x := x) lasting_early lasting_holds
  have hcrash : ∀ c, Clean Early State.Holds c → Stopped x c := fun c h => Early.stopped h
  have hquiet : ∀ (k : Call Page Write) c a, k.quiet = true → Clean Early State.Holds c →
      Clean Early State.Holds (c.served (world x) k a) :=
    fun k c a hk h => h.quiet lasting_early lasting_holds hk
  unfold create
  rw [if_neg (by decide)]
  refine Triple.bind (R := fun _ => Clean Early State.Holds) (Triple.perform hstable hcrash
    (fun c a value h _ => hquiet _ c a rfl h) (fun c a h _ => hquiet _ c a rfl h)) fun backupId => ?_
  refine Triple.bind (R := fun _ => Clean Early State.Holds) (Triple.perform hstable hcrash
    (fun c a value h _ => hquiet _ c a rfl h) (fun c a h _ => hquiet _ c a rfl h)) fun _ => ?_
  -- the snapshot is taken
  let T : Conf Page Write → Prop := fun c =>
    Clean Early State.Holds c ∧ SnapshotTaken (Uuid.text backupId) c.state
  have hT : Stable (world x) T := by
    rintro c e ⟨h, htaken⟩
    exact ⟨hstable c e h, htaken.of_files (interfere_files e c.state (by simp))
      (interfere_evolves e c.state).atSnapshot⟩
  have hcrashT : ∀ c, T c → Stopped x c := fun c h => hcrash c h.1
  have hkeep : ∀ (call : FsCall Page Write) c a, call.scratch = true →
      ¬ call.touches (.temporaryDatabase (Uuid.text backupId)) → T c →
      T (c.served (world x) (.fs .backups call) a) := by
    rintro call c a hscratch htouches ⟨h, htaken⟩
    exact ⟨hquiet _ c a hscratch h, htaken.of_files (serveFs_files htouches a.ok c.state)
      (show Evolves c.state (serveFs .backups call a.ok c.state).2 from
        serveFs_evolves hscratch a.ok c.state).atSnapshot⟩
  refine Triple.bind (R := fun _ => T) (Triple.perform hstable hcrash
    (fun c a value h hok => ?_) (fun c a h hnone => ?_)) fun _ => ?_
  · have htaken := vacuumInto_taken h.2.1 hok
    exact ⟨h.served (not_undoes_of_ok hok) (fun _ => htaken.1) fun _ _ => Or.inr htaken.1.holds,
      htaken.2⟩
  · refine h.evolved lasting_early lasting_holds (by simp [undoes, stepOf]) ?_
    simp only [world, serve, settle] at hnone ⊢
    split at hnone
    · cases hnone
    · rename_i hcondition
      rw [if_neg hcondition]
      exact Evolves.refl _
  have hfs : ∀ (call : FsCall Page Write), call.scratch = true →
      ¬ call.touches (.temporaryDatabase (Uuid.text backupId)) →
      ∀ post : Except BackupError Unit → Conf Page Write → Prop, (∀ c, T c → post (.ok ()) c) →
      (∀ e c, Clean Early State.Holds c → post (.error e) c) →
      Triple (world x) T (fs .backups call) post (Stopped x) :=
    fun call hscratch htouches post hok herror => Triple.perform hT hcrashT
      (fun c a value h _ => hok _ (hkeep call c a hscratch htouches h))
      (fun c a h _ => herror _ _ (hkeep call c a hscratch htouches h).1)
  refine Triple.bind (R := fun _ => T) (hfs (.protect _) rfl (by simp [FsCall.touches]) _
    (fun _ h => h) (fun _ _ h => h)) fun _ => ?_
  refine Triple.bind (R := fun _ => T) (hfs (.sync _) rfl (by simp [FsCall.touches]) _
    (fun _ h => h) (fun _ _ h => h)) fun _ => ?_
  refine Triple.bind (R := fun _ => T) (Triple.perform hT hcrashT
    (fun c a value h _ => ⟨hquiet _ c a rfl h.1, h.2⟩) (fun c a h _ => hquiet _ c a rfl h.1))
    fun verified => ?_
  -- the publication
  refine Triple.bind (R := fun _ => Clean (Published (backupFileName backupId)) State.Holds) ?_
    fun _ => ?_
  · refine Triple.bind (R := fun _ => T) (hfs (.create (.temporaryManifest _)) rfl (by simp [FsCall.touches]) _
      (fun _ h => h) (fun _ _ h => h)) fun _ => ?_
    refine Triple.bind (R := fun _ => T) (hfs (.write (.temporaryManifest _) _) rfl (by simp [FsCall.touches]) _
      (fun _ h => h) (fun _ _ h => h)) fun _ => ?_
    refine Triple.bind (R := fun _ => T) (hfs (.sync _) rfl (by simp [FsCall.touches]) _
      (fun _ h => h) (fun _ _ h => h)) fun _ => ?_
    refine Triple.bind (R := fun _ => T) (hfs (.protect _) rfl (by simp [FsCall.touches]) _
      (fun _ h => h) (fun _ _ h => h)) fun _ => ?_
    refine Triple.bind (R := fun _ => T) (hfs (.sync _) rfl (by simp [FsCall.touches]) _
      (fun _ h => h) (fun _ _ h => h)) fun _ => ?_
    refine Triple.bind (R := fun _ => Clean (Published (backupFileName backupId)) State.Holds)
      (Triple.perform hT hcrashT (fun c a value h hok => ?_) (fun c a h hnone => ?_)) fun _ => ?_
    · have hpublished := rename_snapshot (x := x) h.1.2.1 h.2 hok
      exact h.1.served (not_undoes_of_ok hok) (fun _ => hpublished)
        fun _ _ => Or.inr hpublished.1.holds
    · refine h.1.evolved lasting_early lasting_holds (by simp [undoes, stepOf]) ?_
      obtain ⟨image, himage, -⟩ := h.2
      simp only [world, serve, serveFs, himage, settle] at hnone ⊢
      split at hnone
      · cases hnone
      · rename_i hcondition
        rw [if_neg hcondition]
        exact Evolves.refl _
    · refine (triple_quiet ?_ lasting_published lasting_holds
        fun c h => Published.stopped h).weaken (fun c h => h) ?_
      · exact Prog.Makes.bind (Prog.Makes.perform rfl) fun _ => Prog.Makes.perform rfl
      · rintro (e | ⟨⟩) c h
        · exact Published.error h
        · exact h
  have hpublished := Clean.stable (x := x)
    (lasting_published : Lasting (Published (backupFileName backupId))) lasting_holds
  have hquiet' : ∀ (k : Call Page Write) c a, k.quiet = true →
      Clean (Published (backupFileName backupId)) State.Holds c →
      Clean (Published (backupFileName backupId)) State.Holds (c.served (world x) k a) :=
    fun k c a hk h => h.quiet lasting_published lasting_holds hk
  refine Triple.bind (R := fun _ => Clean (Published (backupFileName backupId)) State.Holds)
    (Triple.perform hpublished (fun c h => Published.stopped h)
      (fun c a value h _ => hquiet' _ c a rfl h)
      (fun c a h _ => Published.error (hquiet' _ c a rfl h))) fun _ => ?_
  -- the retention
  refine Triple.bind (R := fun _ => Clean (Published (backupFileName backupId)) State.Holds) ?_
    fun _ => Triple.pure fun c h => h
  refine Triple.bind (R := fun _ => Clean (Published (backupFileName backupId)) State.Holds)
    (Triple.perform hpublished (fun c h => Published.stopped h)
      (fun c a value h _ => hquiet' _ c a rfl h)
      (fun c a h _ => Published.error (hquiet' _ c a rfl h))) fun rows => ?_
  refine Triple.bind (R := fun _ => Clean (Published (backupFileName backupId)) State.Holds) ?_
    fun _ => ?_
  · refine (expireBackups_triple rows).weaken (fun c h => h) ?_
    rintro (e | ⟨⟩) c h
    · exact Published.error h
    · exact h
  · split
    · exact Triple.pure fun c h => h
    · exact Triple.perform hpublished (fun c h => Published.stopped h)
        (fun c a value h _ => hquiet' _ c a rfl h)
        (fun c a h _ => Published.error (hquiet' _ c a rfl h))

end RemindiCore.Admin
