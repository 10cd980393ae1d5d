import RemindiCore.Admin.Restore

/-!
# What the service and quiet calls leave alone

While a restore waits between two calls the service may commit and checkpoint,
and most of its calls touch temporary files only.  Both let the state evolve:
the journal, the backups and the process state stay, and the live database keeps
every write that it holds (`interfere_evolves`, `quiet_evolves`).
-/

namespace RemindiCore.Admin

open PageLog Fallible

variable {Page Write : Type} {s t : State Page Write}

/-! ## The content of the live database -/

@[simp] theorem State.files_put (path : FilePath) (file : Option (File Page Write)) :
    (s.put path file).files = Function.update s.files path file := rfl

@[simp] theorem State.log_put (path : FilePath) (file : Option (File Page Write)) :
    (s.put path file).log = s.log := rfl

@[simp] theorem State.pool_put (path : FilePath) (file : Option (File Page Write)) :
    (s.put path file).pool = s.pool := rfl

@[simp] theorem State.maintenance_put (path : FilePath) (file : Option (File Page Write)) :
    (s.put path file).maintenance = s.maintenance := rfl

theorem State.main_of_files (h : t.files .live = s.files .live) : t.main = s.main := by
  unfold State.main State.image
  rw [h]

theorem State.main_put_live (image : Image Page Write) :
    (s.put .live (some (.database image))).main = image := by
  simp [State.main, State.image]

variable [DecidableEq Page]

theorem State.content_of_files (h : t.files .live = s.files .live) (hlog : t.log = s.log) :
    t.content = s.content := by
  unfold State.content
  rw [State.main_of_files h, hlog]

/-- **A checkpoint changes nothing that is read.** -/
theorem State.content_backfill (frames : Nat) : (s.backfill frames).content = s.content := by
  unfold State.content State.backfill
  rw [State.main_put_live]
  exact replay_checkpoint _ _ _

theorem State.content_resetLog : s.resetLog.content = s.content :=
  State.main_put_live (s := s) s.content

theorem holds_frames (image : Image Page Write) (changes : List (Page × Write)) (write : Write) :
    Image.Holds (PageLog.replay image (State.frames image changes)) write ↔
      image.Holds write ∨ write ∈ changes.map Prod.snd := by
  induction changes generalizing image with
  | nil => simp [State.frames]
  | cons change changes ih =>
    obtain ⟨page, w⟩ := change
    have hupdate : Image.Holds (Function.update image page (image page ++ [w])) write ↔
        image.Holds write ∨ write = w := by
      constructor
      · rintro ⟨p, hp⟩
        by_cases hpage : p = page
        · subst hpage
          rw [Function.update_self, List.mem_append, List.mem_singleton] at hp
          exact hp.imp_left fun hp => ⟨p, hp⟩
        · rw [Function.update_of_ne hpage] at hp
          exact Or.inl ⟨p, hp⟩
      · rintro (⟨p, hp⟩ | rfl)
        · by_cases hpage : p = page
          · subst hpage
            exact ⟨p, by rw [Function.update_self]; exact List.mem_append_left _ hp⟩
          · exact ⟨p, by rwa [Function.update_of_ne hpage]⟩
        · exact ⟨page, by simp⟩
    show Image.Holds (PageLog.replay (Function.update image page (image page ++ [w]))
      (State.frames _ changes)) write ↔ _
    rw [ih, hupdate, List.map_cons, List.mem_cons, or_assoc]

/-- A transaction adds its writes to what the database holds. -/
theorem State.holds_append (changes : List (Page × Write)) (write : Write) :
    (s.append changes).content.Holds write ↔
      s.content.Holds write ∨ write ∈ changes.map Prod.snd := by
  rw [← holds_frames]
  unfold State.content State.append
  rw [replay_append]
  rfl

/-! ## Guarded writes -/

/-- The writes acknowledged before maintenance was entered. -/
def State.guarded (s : State Page Write) : List Write := s.atMaintenance.getD s.committed

/-- The live database holds every one of them. -/
def State.Holds (s : State Page Write) : Prop := ∀ write ∈ s.guarded, s.content.Holds write

/-! ## Evolution -/

/-- Only the live database may have changed, and it has kept its writes. -/
structure Evolves (s t : State Page Write) : Prop where
  journal : t.files .journal = s.files .journal
  backup : ∀ name, t.files (.backup name) = s.files (.backup name)
  pool : t.pool = s.pool
  maintenance : t.maintenance = s.maintenance
  atSnapshot : t.atSnapshot = s.atSnapshot
  atMaintenance : t.atMaintenance = s.atMaintenance
  installed : t.installed = s.installed
  content : ∀ write, s.content.Holds write → t.content.Holds write
  committed : ∃ writes, t.committed = s.committed ++ writes ∧
    ∀ write ∈ writes, t.content.Holds write

theorem Evolves.refl (s : State Page Write) : Evolves s s :=
  ⟨rfl, fun _ => rfl, rfl, rfl, rfl, rfl, rfl, fun _ h => h, [], by simp⟩

/-- A file outside the database, the journal and the backups. -/
def FilePath.scratch : FilePath → Bool
  | .live | .journal | .backup _ => false
  | _ => true

theorem put_evolves {path : FilePath} (h : path.scratch = true) (file : Option (File Page Write)) :
    Evolves s (s.put path file) := by
  have hne : ∀ other : FilePath, other.scratch = false →
      (s.put path file).files other = s.files other := by
    intro other hother
    refine Function.update_of_ne ?_ _ _
    rintro rfl
    rw [h] at hother
    cases hother
  have hcontent : (s.put path file).content = s.content :=
    State.content_of_files (hne .live rfl) rfl
  exact ⟨hne .journal rfl, fun name => hne (.backup name) rfl, rfl, rfl, rfl, rfl, rfl,
    fun write hw => hcontent ▸ hw, [], by simp [State.put]⟩

theorem append_evolves (changes : List (Page × Write)) : Evolves s (s.append changes) :=
  ⟨rfl, fun _ => rfl, rfl, rfl, rfl, rfl, rfl,
    fun write hw => (State.holds_append changes write).mpr (Or.inl hw), [], by simp [State.append]⟩

theorem Evolves.of_content (hcontent : t.content = s.content)
    (hfiles : ∀ path, path ≠ .live → t.files path = s.files path) (hpool : t.pool = s.pool)
    (hmaintenance : t.maintenance = s.maintenance) (hsnapshot : t.atSnapshot = s.atSnapshot)
    (hentered : t.atMaintenance = s.atMaintenance) (hinstalled : t.installed = s.installed)
    (hcommitted : t.committed = s.committed) : Evolves s t :=
  ⟨hfiles _ (by simp), fun name => hfiles _ (by simp), hpool, hmaintenance, hsnapshot, hentered,
    hinstalled, fun write hw => hcontent ▸ hw, [], by simp [hcommitted]⟩

theorem backfill_evolves (frames : Nat) : Evolves s (s.backfill frames) :=
  .of_content (State.content_backfill frames) (fun _ hpath => Function.update_of_ne hpath _ _)
    rfl rfl rfl rfl rfl rfl

theorem resetLog_evolves : Evolves s s.resetLog :=
  .of_content State.content_resetLog (fun _ hpath => Function.update_of_ne hpath _ _)
    rfl rfl rfl rfl rfl rfl

/-- **The service lets the state evolve.** -/
theorem interfere_evolves (event : Event Page Write) (s : State Page Write) :
    Evolves s (interfere event s) := by
  cases event with
  | commit changes =>
    show Evolves s (if s.available then
      { s.append changes with committed := s.committed ++ changes.map Prod.snd } else s)
    split
    · refine { append_evolves (s := s) changes with committed := ⟨changes.map Prod.snd, rfl, ?_⟩ }
      exact fun write hw => (State.holds_append (s := s) changes write).mpr (Or.inr hw)
    · exact Evolves.refl s
  | backfill frames =>
    show Evolves s (if s.pool then s.backfill frames else s)
    split
    · exact backfill_evolves frames
    · exact Evolves.refl s
  | resetLog =>
    show Evolves s (if s.pool then s.resetLog else s)
    split
    · exact resetLog_evolves
    · exact Evolves.refl s

/-- The service writes to no other file. -/
theorem interfere_files (event : Event Page Write) (s : State Page Write) {path : FilePath}
    (h : path ≠ .live) : (interfere event s).files path = s.files path := by
  have hlive : ∀ file : Option (File Page Write), (s.put .live file).files path = s.files path :=
    fun file => Function.update_of_ne h _ _
  cases event with
  | commit changes =>
    show (if s.available then
      { s.append changes with committed := s.committed ++ changes.map Prod.snd } else s).files path =
        _
    split <;> rfl
  | backfill frames =>
    show (if s.pool then s.backfill frames else s).files path = _
    split
    · exact hlive _
    · rfl
  | resetLog =>
    show (if s.pool then s.resetLog else s).files path = _
    split
    · exact hlive _
    · rfl

/-- What is held stays held. -/
theorem Evolves.holds (h : Evolves s t) (hs : s.Holds) : t.Holds := by
  obtain ⟨writes, hcommitted, hnew⟩ := h.committed
  intro write hw
  unfold State.guarded at hw
  rw [h.atMaintenance] at hw
  cases hentered : s.atMaintenance with
  | some before =>
    rw [hentered] at hw
    exact h.content write (hs write (by unfold State.guarded; rwa [hentered]))
  | none =>
    rw [hentered, Option.getD_none, hcommitted, List.mem_append] at hw
    rcases hw with hw | hw
    · exact h.content write (hs write (by unfold State.guarded; rwa [hentered]))
    · exact hnew write hw

/-! ## Quiet calls -/

/-- The call touches scratch files only. -/
def FsCall.scratch : FsCall Page Write → Bool
  | .create path | .write path _ | .remove path | .copy _ path => path.scratch
  | .rename source target => source.scratch && target.scratch
  | _ => true

theorem serveFs_evolves {caller : Caller} {call : FsCall Page Write} (h : call.scratch = true)
    (ok : Bool) (s : State Page Write) : Evolves s (serveFs caller call ok s).2 := by
  cases call with
  | create path => cases ok <;> first | exact Evolves.refl s | exact put_evolves h _
  | write path file => cases ok <;> exact put_evolves h _
  | remove path => cases ok <;> first | exact Evolves.refl s | exact put_evolves h _
  | copy source target =>
    cases hfile : s.files source with
    | none => simp only [serveFs, hfile]; exact Evolves.refl s
    | some file => simp only [serveFs, hfile]; cases ok <;> exact put_evolves h _
  | rename source target =>
    obtain ⟨hsource, htarget⟩ := Bool.and_eq_true_iff.mp h
    cases hfile : s.files source with
    | none => simp only [serveFs, hfile]; exact Evolves.refl s
    | some file =>
      have hmoved : ∀ t : State Page Write, t = (s.put target (some file)).put source none →
          Evolves s t := by
        rintro t rfl
        have h1 := put_evolves (s := s) htarget (some file)
        have h2 := put_evolves (s := s.put target (some file)) hsource none
        exact ⟨h2.journal.trans h1.journal, fun name => (h2.backup name).trans (h1.backup name),
          rfl, rfl, rfl, rfl, rfl, fun write hw => h2.content write (h1.content write hw), [],
          by simp [State.put]⟩
      cases ok with
      | false => simp only [serveFs, hfile]; exact Evolves.refl s
      | true =>
        refine hmoved _ ?_
        simp only [serveFs, hfile, settle, if_true]
        cases caller <;> cases target <;> first | rfl | cases htarget
  | _ => cases ok <;> exact Evolves.refl s

/-- A call of a restore that touches neither the journal, the backups nor the
process state, and whose failure the restore gets over. -/
def Call.quiet : Call Page Write → Bool
  | .fs (.writeJournal .preRestoreBackupVerified) _ | .fs (.writeJournal .workloadsRestarted) _
  | .fs (.writeJournal .succeeded) _ => false
  | .fs _ call => call.scratch
  | .vacuumInto _ | .auditAppend _ | .beginMaintenance | .endMaintenance | .checkpointAndClose
  | .reopen | .clearSchedulerLeases .preRestore => false
  | _ => true

theorem settle_evolves {ok : Bool} (h : Evolves s t) : Evolves s (settle ok s t).2 := by
  cases ok
  · exact Evolves.refl s
  · exact h

theorem Evolves.withRecords (h : Evolves s t) (records : List BackupRecord) :
    Evolves s { t with records := records } :=
  ⟨h.journal, h.backup, h.pool, h.maintenance, h.atSnapshot, h.atMaintenance, h.installed,
    h.content, h.committed⟩

/-- **Quiet calls let the state evolve.** -/
theorem quiet_evolves (x : Sqlite Page Write) {k : Call Page Write} (h : k.quiet = true)
    (a : Answer Page Write) (s : State Page Write) : Evolves s (serve x k a s).2 := by
  cases k with
  | fs caller call =>
    refine serveFs_evolves ?_ a.ok s
    cases caller with
    | writeJournal phase => cases phase <;> first | exact h | cases h
    | _ => exact h
  | readManifest path =>
    simp only [serve]
    split <;> exact Evolves.refl s
  | readJournal =>
    simp only [serve]
    split <;> exact Evolves.refl s
  | insertManifest manifest => exact settle_evolves ((append_evolves _).withRecords _)
  | expireBackup id => exact settle_evolves ((append_evolves _).withRecords _)
  | clearSchedulerLeases role =>
    cases role with
    | candidate => exact settle_evolves (append_evolves _)
    | preRestore => cases h
  | timestamp => exact settle_evolves (Evolves.refl s)
  | quiesceForMaintenance => exact settle_evolves (Evolves.refl s)
  | restartFromPersisted => exact settle_evolves (Evolves.refl s)
  | quiesceAgain => exact settle_evolves (Evolves.refl s)
  | nextId => exact Evolves.refl s
  | listBackups => exact Evolves.refl s
  | surplusBackups => exact Evolves.refl s
  | verifyDatabase path => exact Evolves.refl s
  | readDirectory => exact Evolves.refl s
  | _ => cases h

end RemindiCore.Admin
