import RemindiCore.Lib.Twins
import RemindiCore.Proof.CandidateKept

/-!
# The temporary files of running operations

The `reconcile` of a restore removes every temporary file that it finds in the
directory, also one that a running `create` or `upload` is about to publish.
A run is compared with the run on the same moves in which these removals do
nothing: the operations end alike as long as no file is removed that a running
operation may still use (`work_kept`).

A write to a file that was removed makes a new file here, where the code writes to
one that has no name any more.  The runs in which that happens do not meet the
condition.
-/

namespace RemindiCore.Admin.Directory

open Fallible

variable {Page Write : Type} {x : Image Page Write → Option VerifiedFile}
  {s : Directory Page Write} {path : FilePath} {name : String} {α β : Type}

/-! ## The claim -/

/-- `is_temporary_name`, for the files of a backup -/
def temporaryName : FilePath → Option String
  | .temporaryDatabase name | .temporaryManifest name => some name
  | _ => none

/-- The removal of a temporary file. -/
def removesTemporary : Call Page Write → Bool
  | .fs .backups (.remove path) => (temporaryName path).isSome
  | _ => false

/-- The directory, for a restore whose `reconcile` removes no temporary file. -/
def sparing (x : Image Page Write → Option VerifiedFile) :
    World (@Value Page Write) (Directory Page Write) (Reply Page Write) Int where
  serve := fun k a s => ((serve x k a s).1, if removesTemporary k then s else (serve x k a s).2)
  interfere := setRetention

def lenient (x : Image Page Write → Option VerifiedFile) :
    World (@Value Page Write) (Site Page Write) (Reply Page Write)
      (Fallible.Turn (Operation Page Write) (Reply Page Write) Int) :=
  pooled (sparing x) (world x) Operation.program

/-- A restore among other operations. -/
def restoreRun
    (w : World (@Value Page Write) (Site Page Write) (Reply Page Write)
      (Fallible.Turn (Operation Page Write) (Reply Page Write) Int)) (s : Directory Page Write)
    (moves : List (Move (Reply Page Write)
      (Fallible.Turn (Operation Page Write) (Reply Page Write) Int)))
    (backupId confirmation : String) (fault : RestoreFault) :
    SiteTrace Page Write × Option (Except BackupError RestoreOutcome) :=
  run w moves (.start ⟨s, []⟩) (restore backupId confirmation fault)

/-- The operation has returned without an error. -/
def Succeeded (p : Site Page Write) (task : Nat) : Prop := p.tasks[task]? = some (.pure ())

/-- **Every operation that succeeds without the removals succeeds with them.** -/
def WorkKept (x : Image Page Write → Option VerifiedFile) (s : Directory Page Write)
    (moves : List (Move (Reply Page Write)
      (Fallible.Turn (Operation Page Write) (Reply Page Write) Int)))
    (backupId confirmation : String) (fault : RestoreFault) : Prop :=
  ∀ task, Succeeded (restoreRun (lenient x) s moves backupId confirmation fault).1.state task →
    Succeeded (restoreRun (site x) s moves backupId confirmation fault).1.state task

/-- No identifier of this name is drawn. -/
def clear (name : String) : (k : Call Page Write) → Value k → Prop
  | .nextId, id => id.text ≠ name
  | _, _ => True

/-- The program does not use the file any more. -/
def DoneWith (path : FilePath) (m : Program Page Write α) : Prop :=
  ∀ name, temporaryName path = some name → m.Obeys (clear name) fun k => ¬ mentions path k

/-- The restore removes no temporary file that a running operation may still use. -/
def RemovesAbandoned (step : SiteStep Page Write) : Prop :=
  ∀ path failed, step.action = .call (.fs .backups (.remove path)) failed →
    (temporaryName path).isSome → (step.before.state.files path).isSome →
      ∀ m ∈ step.before.tasks, DoneWith path m

/-! ## The same call on other files -/

/-- The same reply, and the same state but for files that are not named. -/
structure Agrees {V : Type} (named : FilePath → Prop) (r r' : Option V × Directory Page Write) :
    Prop where
  reply : r'.1 = r.1
  state : ∃ g, r'.2 = { r.2 with files := g } ∧ ∀ path, named path → g path = r.2.files path

section

variable {V : Type} {named : FilePath → Prop} {v : Option V} {t : Directory Page Write}
  {g : FilePath → Option (File Page Write)}

theorem agrees_of (h : ∀ path, named path → g path = s.files path) :
    Agrees named (v, s) (v, { s with files := g }) :=
  ⟨rfl, g, rfl, h⟩

theorem agree_put (h : ∀ path, named path → g path = s.files path) (target : FilePath)
    (file : Option (File Page Write)) (path : FilePath) (hpath : named path) :
    Function.update g target file path = (s.put target file).files path := by
  show _ = Function.update s.files target file path
  by_cases htarget : path = target
  · rw [htarget, Function.update_self, Function.update_self]
  · rw [Function.update_of_ne htarget, Function.update_of_ne htarget]
    exact h path hpath

theorem agrees_put (h : ∀ path, named path → g path = s.files path) (target : FilePath)
    (file : Option (File Page Write)) :
    Agrees named (v, s.put target file)
      (v, ({ s with files := g } : Directory Page Write).put target file) :=
  ⟨rfl, Function.update g target file, rfl, agree_put h target file⟩

theorem agrees_settle (h : ∀ path, named path → g path = s.files path) (ht : t.files = s.files)
    (ok : Bool) : Agrees named (settle ok s t) (settle ok { s with files := g }
      { t with files := g }) := by
  unfold settle
  split
  · exact agrees_of fun path hpath => (h path hpath).trans (congrFun ht path).symm
  · exact agrees_of h

theorem agrees_attempt (h : ∀ path, named path → g path = s.files path) (ht : t.files = s.files)
    (ok leaves : Bool) : Agrees named (attempt ok leaves s t t) (attempt ok leaves
      { s with files := g } { t with files := g } { t with files := g }) := by
  have hother : ∀ path, named path → g path = t.files path :=
    fun path hpath => (h path hpath).trans (congrFun ht path).symm
  unfold attempt
  split
  · exact agrees_of hother
  · split
    · exact agrees_of hother
    · exact agrees_of h

theorem files_register (record : BackupRecord) (createdAt : String) :
    (s.register record createdAt).files = s.files := by
  unfold Directory.register
  split <;> rfl

theorem register_agree (record : BackupRecord) (createdAt : String) :
    ({ s with files := g } : Directory Page Write).register record createdAt =
      { s.register record createdAt with files := g } := by
  unfold Directory.register
  dsimp only
  split <;> rfl

theorem serveFs_agrees (caller : Caller) (call : FsCall Page Write) (ok : Bool)
    (h : ∀ path, mentions path (.fs caller call) → g path = s.files path) :
    Agrees (mentions · (.fs caller call : Call Page Write)) (serveFs call ok s)
      (serveFs call ok { s with files := g }) := by
  cases call with
  | create target =>
    have htarget : g target = s.files target := h target rfl
    unfold serveFs settle
    simp only [htarget]
    split
    · exact agrees_of h
    · split
      · exact agrees_put h target _
      · exact agrees_of h
  | write target file =>
    unfold serveFs
    dsimp only
    split
    · exact agrees_put h target _
    · exact agrees_put h target _
  | copy source target =>
    have hsource : g source = s.files source := h source (Or.inl rfl)
    unfold serveFs
    dsimp only
    rw [hsource]
    split
    · exact agrees_of h
    · split
      · exact agrees_put h target _
      · exact agrees_put h target _
  | rename source target =>
    have hsource : g source = s.files source := h source (Or.inl rfl)
    unfold serveFs settle
    dsimp only
    rw [hsource]
    split
    · exact agrees_of h
    · split
      · exact ⟨rfl, _, rfl, agree_put (agree_put h target _) source none⟩
      · exact agrees_of h
  | remove target =>
    unfold serveFs settle
    dsimp only
    split
    · exact agrees_put h target _
    · exact agrees_of h
  | sync _ | protect _ | syncDirectory | createDirectory | protectDirectory =>
    unfold serveFs settle
    dsimp only
    split
    · exact agrees_of h
    · exact agrees_of h

/-- **Where the files that it names agree, a call replies and does the same.** -/
theorem serve_agrees (k : Call Page Write) (a : Reply Page Write)
    (h : ∀ path, mentions path k → g path = s.files path) :
    Agrees (mentions · k) (serve x k a s) (serve x k a { s with files := g }) := by
  have havailable : ({ s with files := g } : Directory Page Write).available = s.available := rfl
  cases k with
  | fs caller call => exact serveFs_agrees caller call a.ok h
  | nextId =>
    unfold serve
    dsimp only
    split
    · exact agrees_of h
    · exact ⟨rfl, g, rfl, h⟩
  | vacuumInto target =>
    have htarget : g target = s.files target := h target rfl
    unfold serve attempt
    simp only [htarget, havailable]
    split
    · split
      · exact agrees_put h target _
      · split
        · exact agrees_put h target _
        · exact agrees_of h
    · exact agrees_of h
  | verifyDatabase target =>
    have htarget : g target = s.files target := h target rfl
    unfold serve Directory.verify Directory.image
    simp only [htarget]
    by_cases hleaves : (a.leaves && (s.files target).isSome) = true
    · rw [if_pos hleaves, if_pos hleaves]
      exact ⟨rfl, g, rfl, h⟩
    · rw [if_neg hleaves, if_neg hleaves]
      exact agrees_of h
  | readManifest target =>
    have htarget : g target = s.files target := h target rfl
    unfold serve
    simp only [htarget]
    split
    · exact agrees_of h
    · exact agrees_of h
  | readJournal =>
    have htarget : g .journal = s.files .journal := h .journal rfl
    unfold serve
    simp only [htarget]
    split
    · exact agrees_of h
    · exact agrees_of h
    · exact agrees_of h
  | insertManifest manifest =>
    unfold serve
    simp only [havailable, register_agree]
    split
    · exact agrees_attempt h (files_register _ _) a.ok a.leaves
    · exact agrees_of h
  | expireBackup id =>
    unfold serve
    simp only [havailable]
    split
    · exact agrees_attempt (t := s.expire id) h rfl a.ok a.leaves
    · exact agrees_of h
  | checkpointAndClose =>
    unfold serve
    dsimp only
    split
    · exact ⟨rfl, g, rfl, h⟩
    · exact agrees_of h
  | reopen => exact agrees_settle (t := { s with pool := true, rows := a.rows }) h rfl _
  | timestamp | auditAppend _ | clearSchedulerLeases _ | quiesceForMaintenance
  | restartFromPersisted | quiesceAgain => exact agrees_settle (t := s) h rfl _
  | beginMaintenance | endMaintenance => exact ⟨rfl, g, rfl, h⟩
  | listBackups | surplusBackups | readDirectory => exact agrees_of h

theorem serve_twin (k : Call Page Write) (a : Reply Page Write)
    (h : ∀ path, mentions path k → g path = s.files path) :
    (serve x k a { s with files := g }).1 = (serve x k a s).1 ∧
      ∃ g', (serve x k a { s with files := g }).2 = { (serve x k a s).2 with files := g' } ∧
        ∀ path, g' path ≠ (serve x k a s).2.files path → g path ≠ s.files path := by
  obtain ⟨hreply, g', hstate, hnamed⟩ := serve_agrees (x := x) k a h
  refine ⟨hreply, g', hstate, fun path hdiffers => ?_⟩
  have hunnamed : ¬ touches path k :=
    fun htouches => hdiffers (hnamed path (mentions_of_touches htouches))
  have hbefore := files_serve (x := x) (s := { s with files := g }) hunnamed a
  rw [hstate] at hbefore
  have hafter : g' path = g path := hbefore
  rw [hafter, files_serve hunnamed a] at hdiffers
  exact hdiffers

end

/-! ## The names that programs use -/

def Temporary (name : String) (path : FilePath) : Prop := temporaryName path = some name

/-- The call uses the temporary files of this name only to remove them. -/
def Sweeping (name : String) (k : Call Page Write) : Prop :=
  ∀ path, Temporary name path → mentions path k → k = .fs .backups (.remove path)

def Sweeps (k : Call Page Write) : Prop := ∀ name, Sweeping name k

theorem guard_temporary :
    Guard (clear name : (k : Call Page Write) → Value k → Prop) (Temporary name) where
  ids := fun _ hid =>
    { temporary := fun h => hid (Option.some.inj h)
      sidecar := fun h => hid (Option.some.inj h)
      backup := nofun
      manifest := nofun }
  rows := fun _ _ _ _ => ⟨nofun, nofun⟩

/-- An operation that has not drawn the name does not use its files. -/
theorem avoids_operation (operation : Operation Page Write) :
    operation.program.Obeys (clear name) (Avoids (Temporary name)) :=
  obeys_operation guard_temporary operation

theorem doneWith_operation (operation : Operation Page Write) : DoneWith path operation.program :=
  fun _ hname => (avoids_operation operation).mono fun _ hk => hk path hname

theorem Routine.sweeps {k : Call Page Write} (h : Routine k) : Sweeps k := by
  intro name path hpath hmentions
  cases path with
  | temporaryDatabase other => exact h.database other hmentions
  | temporaryManifest other => exact h.sidecar other hmentions
  | _ => cases hpath

theorem Plain.sweeps {k : Call Page Write} (h : Plain k) : Sweeps k := h.routine.sweeps

theorem Plain.keeps {k : Call Page Write} (h : Plain k) : removesTemporary k = false := by
  unfold removesTemporary
  split
  · next path =>
    cases path with
    | temporaryDatabase other => exact absurd rfl (h.database other)
    | temporaryManifest other => exact absurd rfl (h.sidecar other)
    | _ => rfl
  · rfl

theorem makes_installCandidate {K : Call Page Write → Prop} (source operation : String)
    (hplain : ∀ k, Plain k → K k)
    (hrename : K (.fs (.installDatabase .candidate) (.rename (.staged operation) .live))) :
    (installDatabase .candidate (.backup source) operation).Makes K := by
  unfold installDatabase
  refine Prog.Makes.bind (Prog.Makes.ignore (hplain _ ?_)) fun _ => ?_
  · exact .of_mentions nofun nofun nofun nofun nofun
  refine Prog.Makes.bind (Prog.Makes.perform (hplain _ (plain_copy _ _ _))) fun _ => ?_
  refine Prog.Makes.bind (Prog.Makes.perform (hplain _ ?_)) fun _ => ?_
  · exact .of_mentions nofun nofun nofun nofun nofun
  refine Prog.Makes.bind (Prog.Makes.perform (hplain _ ?_)) fun _ => ?_
  · exact .of_mentions nofun nofun nofun nofun nofun
  refine Prog.Makes.bind (Prog.Makes.perform hrename) fun _ => ?_
  refine Prog.Makes.perform (hplain _ ?_)
  exact .of_mentions nofun nofun nofun nofun nofun

theorem makes_replaceLive {K : Call Page Write → Prop} (journal : RestoreJournal) (source : String)
    (fault : RestoreFault) (hplain : ∀ k, Plain k → K k)
    (hrename : ∀ operation,
      K (.fs (.installDatabase .candidate) (.rename (.staged operation) .live))) :
    (replaceLive journal (.backup source) fault).Makes K := by
  have hjournal : ∀ journal, (writeJournal journal : Program Page Write Unit).Makes K :=
    fun journal => (plain_writeJournal journal).mono hplain
  have hfault : ∀ seam, (failIf fault seam : Program Page Write Unit).Makes K :=
    fun seam => (plain_failIf fault seam).mono hplain
  unfold replaceLive
  refine Prog.Makes.bind (hjournal _) fun _ => ?_
  refine Prog.Makes.bind (Prog.Makes.perform (hplain _ ?_)) fun _ => ?_
  · exact .of_mentions nofun nofun nofun nofun nofun
  refine Prog.Makes.bind (hfault _) fun _ => ?_
  refine Prog.Makes.bind (makes_installCandidate source _ hplain (hrename _)) fun _ => ?_
  refine Prog.Makes.bind (hjournal _) fun _ => ?_
  refine Prog.Makes.bind (hfault _) fun _ => ?_
  refine Prog.Makes.bind (Prog.Makes.perform (hplain _ ?_)) fun _ => ?_
  · exact .of_mentions nofun nofun nofun nofun nofun
  refine Prog.Makes.bind (hjournal _) fun _ => ?_
  refine Prog.Makes.bind (hfault _) fun _ => ?_
  refine Prog.Makes.perform (hplain _ ?_)
  exact .of_mentions nofun nofun nofun nofun nofun

theorem makes_orRemoveJournal {K : Call Page Write → Prop} {m : Program Page Write α}
    (hplain : ∀ k, Plain k → K k) (hm : m.Makes K) : (orRemoveJournal m).Makes K := by
  unfold orRemoveJournal
  refine Prog.Makes.bind hm.attempt fun result => ?_
  cases result with
  | ok a => trivial
  | error e => exact Prog.Makes.bind (plain_removeJournal.mono hplain) fun _ => trivial

theorem sweeping_orRemoveJournal {m : Program Page Write α}
    (hm : m.Obeys (clear name) (Sweeping name)) :
    (orRemoveJournal m).Obeys (clear name) (Sweeping name) := by
  unfold orRemoveJournal
  refine Prog.Obeys.bind hm.attempt fun result => ?_
  cases result with
  | ok a => trivial
  | error e =>
    refine Prog.Makes.obeys (Prog.Makes.bind ?_ fun _ => trivial)
    exact plain_removeJournal.mono fun _ hk => hk.sweeps name

theorem sweeping_plain {m : Program Page Write α} (h : m.Makes Plain) :
    m.Obeys (clear name) (Sweeping name) :=
  (h.mono fun _ hk => hk.sweeps name).obeys

theorem sweeping_proceed (backupId : String) (requested : BackupRecord) (fault : RestoreFault) :
    (proceed backupId requested fault : Program Page Write RestoreOutcome).Obeys (clear name)
      (Sweeping name) := by
  unfold proceed
  refine Prog.Obeys.bind (sweeping_plain (Prog.Makes.perform
    (.of_mentions nofun nofun nofun nofun nofun))) fun operationId => ?_
  refine Prog.Obeys.bind (sweeping_plain (plain_writeJournal _)) fun _ => ?_
  refine Prog.Obeys.bind_yields (sweeping_orRemoveJournal (sweeping_plain (plain_download _)))
    (yields_orRemoveJournal (yields_download _)) ?_
  rintro ⟨candidate, path⟩ ⟨-, hpath⟩
  dsimp only at hpath
  subst hpath
  refine Prog.Obeys.bind (sweeping_plain (plain_writeJournal _)) fun _ => ?_
  refine Prog.Obeys.bind (sweeping_orRemoveJournal ?_) fun preRestore => ?_
  · exact (obeys_create guard_temporary _).mono fun _ hk path hpath hmentions =>
      absurd hmentions (hk path hpath)
  refine Prog.Obeys.bind_yields (sweeping_orRemoveJournal (sweeping_plain (plain_download _)))
    (yields_orRemoveJournal (yields_download _)) ?_
  rintro ⟨downloaded, path⟩ ⟨-, hpath⟩
  dsimp only at hpath
  subst hpath
  refine Prog.Obeys.bind (sweeping_plain (plain_writeJournal _)) fun _ => ?_
  refine Prog.Obeys.bind (sweeping_orRemoveJournal (sweeping_plain (Prog.Makes.perform
    (.of_mentions nofun nofun nofun nofun nofun)))) fun _ => ?_
  show (replace _ candidate _ _ fault).Obeys _ _
  rw [replace_eq]
  have hplain : ∀ k : Call Page Write, Plain k → Sweeping name k := fun _ hk => hk.sweeps name
  refine Prog.Makes.obeys (Prog.Makes.bind (Prog.Makes.ignore (hplain _ ?_)) fun _ => ?_)
  · exact .of_mentions nofun nofun nofun nofun nofun
  refine Prog.Makes.bind (Prog.Makes.attempt (makes_replaceLive _ _ _ hplain ?_)) fun replaced => ?_
  · rintro operation path hpath (rfl | rfl)
    · cases hpath
    · cases hpath
  · exact (routine_conclusion _ _ _ _).mono fun _ hk => hk.sweeps name

/-- **A restore uses the files of a name only to remove them**, unless it draws it. -/
theorem sweeping_restore (backupId confirmation : String) (fault : RestoreFault) :
    (restore backupId confirmation fault : Program Page Write RestoreOutcome).Obeys (clear name)
      (Sweeping name) := by
  rw [restore_eq]
  split
  · trivial
  refine Prog.Obeys.bind (sweeping_plain (Prog.Makes.perform
    (.of_mentions nofun nofun nofun nofun nofun))) fun records => ?_
  split
  · trivial
  split
  · trivial
  · exact sweeping_proceed _ _ _

/-! ## After the first removal -/

/-- Once it has removed a temporary file, the program uses such files only to remove them. -/
def Settles : Program Page Write α → Prop
  | .pure _ => True
  | .throw _ => True
  | .call k next => (removesTemporary k = true → ∀ reply, (next reply).Makes Sweeps) ∧
      ∀ reply, Settles (next reply)

theorem Settles.of_makes {m : Program Page Write α} (h : m.Makes Sweeps) : Settles m := by
  induction m with
  | pure a => trivial
  | throw e => trivial
  | call k next ih => exact ⟨fun _ => h.2, fun reply => ih reply (h.2 reply)⟩

/-- What happens before it. -/
theorem Settles.past {Q : α → Prop} {m : Program Page Write α} {f : α → Program Page Write β}
    (hm : m.Makes fun k => removesTemporary k = false) (hQ : m.Yields Q)
    (hf : ∀ a, Q a → Settles (f a)) : Settles (m.bind f) := by
  induction m with
  | pure a => exact hf a hQ
  | throw e => trivial
  | call k next ih =>
    refine ⟨fun hremoves => ?_, fun reply => ih reply (hm.2 reply) (hQ reply)⟩
    rw [hm.1] at hremoves
    cases hremoves

theorem keeps_create (source : BackupSource) :
    (Admin.create source : Program Page Write BackupRecord).Makes
      fun k => removesTemporary k = false := by
  unfold Admin.create
  split
  · trivial
  refine Prog.Makes.bind (Prog.Makes.perform rfl) fun _ => ?_
  refine Prog.Makes.bind (Prog.Makes.perform rfl) fun _ => ?_
  refine Prog.Makes.bind (Prog.Makes.perform rfl) fun _ => ?_
  refine Prog.Makes.bind (Prog.Makes.perform rfl) fun _ => ?_
  refine Prog.Makes.bind (Prog.Makes.perform rfl) fun _ => ?_
  refine Prog.Makes.bind (Prog.Makes.perform rfl) fun _ => ?_
  refine Prog.Makes.bind ?_ fun _ => ?_
  · unfold publish
    refine Prog.Makes.bind (Prog.Makes.perform rfl) fun _ => ?_
    refine Prog.Makes.bind (Prog.Makes.perform rfl) fun _ => ?_
    refine Prog.Makes.bind (Prog.Makes.perform rfl) fun _ => ?_
    refine Prog.Makes.bind (Prog.Makes.perform rfl) fun _ => ?_
    refine Prog.Makes.bind (Prog.Makes.perform rfl) fun _ => ?_
    refine Prog.Makes.bind (Prog.Makes.perform rfl) fun _ => ?_
    refine Prog.Makes.bind (Prog.Makes.perform rfl) fun _ => ?_
    exact Prog.Makes.perform rfl
  refine Prog.Makes.bind (Prog.Makes.perform rfl) fun _ => ?_
  refine Prog.Makes.bind ?_ fun _ => trivial
  unfold applyRetention
  refine Prog.Makes.bind (Prog.Makes.perform rfl) fun rows => ?_
  refine Prog.Makes.bind (makes_expireBackups rows (fun _ _ => rfl) fun _ _ => ⟨rfl, rfl⟩)
    fun _ => ?_
  split
  · trivial
  · exact Prog.Makes.perform rfl

theorem settles_proceed (backupId : String) (requested : BackupRecord) (fault : RestoreFault) :
    Settles (proceed backupId requested fault : Program Page Write RestoreOutcome) := by
  have hplain : ∀ k : Call Page Write, Plain k → removesTemporary k = false := fun _ => Plain.keeps
  have hjournal : ∀ journal, (writeJournal journal : Program Page Write Unit).Makes
      fun k => removesTemporary k = false := fun journal => (plain_writeJournal journal).mono hplain
  have hdownload : ∀ id, (orRemoveJournal (download id) :
      Program Page Write (BackupRecord × FilePath)).Makes fun k => removesTemporary k = false :=
    fun id => makes_orRemoveJournal hplain ((plain_download id).mono hplain)
  unfold proceed
  refine Settles.past (Prog.Makes.perform rfl) Prog.Yields.any fun operationId _ => ?_
  refine Settles.past (hjournal _) Prog.Yields.any fun _ _ => ?_
  refine Settles.past (hdownload _) (yields_orRemoveJournal (yields_download _)) ?_
  rintro ⟨candidate, path⟩ ⟨-, hpath⟩
  dsimp only at hpath
  subst hpath
  refine Settles.past (hjournal _) Prog.Yields.any fun _ _ => ?_
  refine Settles.past (makes_orRemoveJournal hplain (keeps_create _)) Prog.Yields.any
    fun preRestore _ => ?_
  refine Settles.past (hdownload _) (yields_orRemoveJournal (yields_download _)) ?_
  rintro ⟨downloaded, path⟩ ⟨-, hpath⟩
  dsimp only at hpath
  subst hpath
  refine Settles.past (hjournal _) Prog.Yields.any fun _ _ => ?_
  refine Settles.past (makes_orRemoveJournal hplain (Prog.Makes.perform rfl)) Prog.Yields.any
    fun _ _ => ?_
  show Settles (replace _ candidate _ _ fault)
  rw [replace_eq]
  refine Settles.past (Prog.Makes.ignore rfl) Prog.Yields.any fun _ _ => ?_
  refine Settles.past (Prog.Makes.attempt (makes_replaceLive _ _ _ hplain fun _ => rfl))
    Prog.Yields.any fun replaced _ => ?_
  exact Settles.of_makes ((routine_conclusion _ _ _ _).mono fun _ => Routine.sweeps)

theorem settles_restore (backupId confirmation : String) (fault : RestoreFault) :
    Settles (restore backupId confirmation fault : Program Page Write RestoreOutcome) := by
  rw [restore_eq]
  split
  · trivial
  refine Settles.past (Prog.Makes.perform rfl) Prog.Yields.any fun records _ => ?_
  split
  · trivial
  split
  · trivial
  · exact settles_proceed _ _ _

/-! ## The two runs -/

/-- No program uses the file any more, and its name was drawn. -/
structure Lost (p : Site Page Write) (path : FilePath) : Prop where
  name : ∃ name, Temporary name path ∧ ∀ id : Uuid, id.text = name → id ∈ p.state.used
  tasks : ∀ m ∈ p.tasks, DoneWith path m

/-- There is no file of the name, and no program uses one before it has drawn it. -/
structure Unseen (p : Site Page Write) (m : Program Page Write RestoreOutcome) (id : Uuid) :
    Prop where
  files : ∀ path, Temporary id.text path → p.state.files path = none
  tasks : ∀ t ∈ p.tasks, t.Obeys (clear id.text) (Avoids (Temporary id.text))
  main : m.Obeys (clear id.text) (Sweeping id.text)

/-- The runs differ in files that no program uses any more. -/
structure Twin (m : Program Page Write RestoreOutcome) (p q : Site Page Write) : Prop where
  tasks : q.tasks = p.tasks
  state : ∃ g, q.state = { p.state with files := g } ∧
    ∀ path, g path ≠ p.state.files path → Lost p path ∧ m.Makes Sweeps
  settles : Settles m
  unseen : ∀ id, id ∉ p.state.used → Unseen p m id

/-- A reply does not draw a name that was drawn, or that is not drawn afterwards. -/
theorem clear_serve {k : Call Page Write} {a : Reply Page Write} {v : Value k}
    (h : ∀ id : Uuid, id.text = name → id ∈ s.used ∨ id ∉ (serve x k a s).2.used)
    (hv : (serve x k a s).1 = some v) : clear name k v := by
  cases k with
  | nextId =>
    rcases serve_nextId (x := x) a s with ⟨hnew, hserve⟩ | hserve
    · rw [hserve] at hv h
      obtain rfl : a.id = v := Option.some.inj hv
      intro hname
      rcases h a.id hname with hused | hunused
      · exact hnew hused
      · exact hunused List.mem_cons_self
    · rw [hserve] at hv
      cases hv
  | _ => trivial

theorem text_ne {id other : Uuid} (h : other ≠ id) : other.text ≠ id.text := by
  intro htext
  refine h (backupFileName_injective ?_)
  unfold backupFileName
  rw [htext]

section

variable {p q : Site Page Write} {m : Program Page Write RestoreOutcome} {id : Uuid}

/-- More identifiers are drawn, and the programs go on. -/
theorem Lost.next (h : Lost p path) {p' : Site Page Write}
    (hused : ∀ id, id ∈ p.state.used → id ∈ p'.state.used)
    (htasks : ∀ m ∈ p'.tasks, DoneWith path m) : Lost p' path where
  name := by
    obtain ⟨name, hname, hids⟩ := h.name
    exact ⟨name, hname, fun id hid => hused id (hids id hid)⟩
  tasks := htasks

/-- An operation is started. -/
theorem Twin.start (h : Twin m p q) (operation : Operation Page Write) :
    Twin m (p.turn (world x) Operation.program (.start operation))
      (q.turn (world x) Operation.program (.start operation)) where
  tasks := by
    show q.tasks ++ [operation.program] = p.tasks ++ [operation.program]
    rw [h.tasks]
  state := by
    obtain ⟨g, hstate, hdiffers⟩ := h.state
    refine ⟨g, hstate, fun path hpath => ?_⟩
    obtain ⟨hlost, hsweeps⟩ := hdiffers path hpath
    refine ⟨hlost.next (fun _ h => h) fun t ht => ?_, hsweeps⟩
    rcases List.mem_append.mp ht with ht | ht
    · exact hlost.tasks t ht
    · rw [List.mem_singleton.mp ht]
      exact doneWith_operation operation
  settles := h.settles
  unseen := fun id hid =>
    { files := (h.unseen id hid).files
      tasks := fun t ht => by
        rcases List.mem_append.mp ht with ht | ht
        · exact (h.unseen id hid).tasks t ht
        · rw [List.mem_singleton.mp ht]
          exact avoids_operation operation
      main := (h.unseen id hid).main }

theorem Twin.retention (h : Twin m p q) (count : Int) :
    Twin m (p.turn (world x) Operation.program (.event count))
      (q.turn (world x) Operation.program (.event count)) where
  tasks := h.tasks
  state := by
    obtain ⟨g, hstate, hdiffers⟩ := h.state
    refine ⟨g, ?_, fun path hpath => ?_⟩
    · show setRetention count q.state = _
      rw [hstate]
      rfl
    · obtain ⟨hlost, hsweeps⟩ := hdiffers path hpath
      exact ⟨⟨hlost.name, hlost.tasks⟩, hsweeps⟩
  settles := h.settles
  unseen := fun id hid => ⟨(h.unseen id hid).files, (h.unseen id hid).tasks, (h.unseen id hid).main⟩

/-- A file of a name that is not drawn is left alone. -/
theorem Unseen.files_serve (h : Unseen p m id) {k : Call Page Write}
    (hk : Avoids (Temporary id.text) k) (a : Reply Page Write) {path : FilePath}
    (hpath : Temporary id.text path) : (serve x k a p.state).2.files path = none := by
  rw [Directory.files_serve (fun htouches => hk path hpath (mentions_of_touches htouches)) a]
  exact h.files path hpath

/-- An operation makes its next call. -/
theorem Twin.advance (h : Twin m p q) {task : Nat} {k : Call Page Write}
    {next : Option (Value k) → Program Page Write Unit}
    (htask : p.tasks[task]? = some (.call k next)) (a : Reply Page Write) :
    Twin m ⟨(serve x k a p.state).2, p.tasks.set task (next (serve x k a p.state).1)⟩
      ⟨(serve x k a q.state).2, q.tasks.set task (next (serve x k a q.state).1)⟩ := by
  obtain ⟨g, hstate, hdiffers⟩ := h.state
  have hmem := List.mem_of_getElem? htask
  -- the operation has done with the files that differ
  have hagree : ∀ path, mentions path k → g path = p.state.files path := by
    intro path hmentions
    by_contra hne
    obtain ⟨hlost, -⟩ := hdiffers path hne
    obtain ⟨name, hname, -⟩ := hlost.name
    exact (hlost.tasks _ hmem name hname).1 hmentions
  obtain ⟨hreply, g', hafter, hsame⟩ := serve_twin (x := x) k a hagree
  rw [← hstate] at hreply hafter
  refine ⟨?_, ⟨g', hafter, fun path hpath => ?_⟩, h.settles, fun id hid => ?_⟩
  · show q.tasks.set task (next (serve x k a q.state).1) = _
    rw [hreply, h.tasks]
  · obtain ⟨hlost, hsweeps⟩ := hdiffers path (hsame path hpath)
    refine ⟨hlost.next (fun _ hused => mem_used_serve k a hused) fun t ht => ?_, hsweeps⟩
    rcases List.mem_or_eq_of_mem_set ht with ht | rfl
    · exact hlost.tasks t ht
    · intro name hname
      obtain ⟨name', hname', hids⟩ := hlost.name
      obtain rfl : name' = name := Option.some.inj (hname'.symm.trans hname)
      exact (hlost.tasks _ hmem name' hname).reply fun v hv =>
        clear_serve (fun id hid => Or.inl (hids id hid)) hv
  · have hbefore : id ∉ p.state.used := fun hused => hid (mem_used_serve k a hused)
    have hunseen := h.unseen id hbefore
    refine ⟨fun path hpath => hunseen.files_serve (hunseen.tasks _ hmem).1 a hpath,
      fun t ht => ?_, hunseen.main⟩
    rcases List.mem_or_eq_of_mem_set ht with ht | rfl
    · exact hunseen.tasks t ht
    · refine (hunseen.tasks _ hmem).reply fun v hv => ?_
      refine clear_serve (s := p.state) (fun other hother => ?_) hv
      by_cases hsame : other = id
      · rw [hsame]
        exact Or.inr hid
      · exact absurd hother (text_ne hsame)

/-- **A turn of the operations.** -/
theorem Twin.turn (h : Twin m p q)
    (turn : Fallible.Turn (Operation Page Write) (Reply Page Write) Int) :
    Twin m (p.turn (world x) Operation.program turn) (q.turn (world x) Operation.program turn) := by
  cases turn with
  | start operation => exact h.start operation
  | event count => exact h.retention count
  | advance task a =>
    unfold Pool.turn
    dsimp only
    rw [h.tasks]
    split
    · next k next htask =>
      have hnext := h.advance (x := x) htask a
      rw [h.tasks] at hnext
      exact hnext
    · exact h

variable {k : Call Page Write} {next : Option (Value k) → Program Page Write RestoreOutcome}

/-- What the program has left to do, when nothing but files has changed. -/
theorem Unseen.reply (h : Unseen p (.call k next) id) {s : Directory Page Write}
    {reply : Option (Value k)} (hfiles : ∀ path, Temporary id.text path → s.files path = none)
    (hreply : ∀ v, reply = some v → clear id.text k v) : Unseen ⟨s, p.tasks⟩ (next reply) id :=
  ⟨hfiles, h.tasks, h.main.reply hreply⟩

/-- `reconcile` removes a temporary file, in the first of the runs. -/
theorem Twin.removal
    {next : Option (Value (.fs .backups (.remove path) : Call Page Write)) →
      Program Page Write RestoreOutcome}
    (h : Twin (.call (.fs .backups (.remove path)) next) p q)
    (htemporary : (temporaryName path).isSome) (a : Reply Page Write)
    (hgood : (p.state.files path).isSome → ∀ m ∈ p.tasks, DoneWith path m) :
    Twin (next (serve x (.fs .backups (.remove path)) a p.state).1)
      ⟨(serve x (.fs .backups (.remove path)) a p.state).2, p.tasks⟩ q := by
  obtain ⟨g, hstate, hdiffers⟩ := h.state
  have hsweeps := h.settles.1 htemporary
  have hserve : serve x (.fs .backups (.remove path)) a p.state =
    settle a.ok p.state (p.state.put path none) := rfl
  have hused : (serve x (.fs .backups (.remove path)) a p.state).2.used = p.state.used := by
    rw [hserve]
    unfold settle
    split <;> rfl
  have hgone : ∀ other, (serve x (.fs .backups (.remove path)) a p.state).2.files other =
      p.state.files other ∨ other = path := by
    intro other
    by_cases hother : other = path
    · exact Or.inr hother
    · exact Or.inl (files_serve (x := x) (k := .fs .backups (.remove path)) (Ne.symm hother) a)
  refine ⟨h.tasks, ⟨g, ?_, fun other hother => ⟨?_, hsweeps _⟩⟩, h.settles.2 _, fun id hid => ?_⟩
  · rw [hstate, hserve]
    unfold settle
    split <;> rfl
  · rcases hgone other with hsame | rfl
    · rw [hsame] at hother
      exact (hdiffers other hother).1.next (fun _ h => hused ▸ h) (hdiffers other hother).1.tasks
    · -- the file that is removed
      by_cases hfile : (p.state.files other).isSome
      · obtain ⟨name, hname⟩ := Option.isSome_iff_exists.mp htemporary
        refine ⟨⟨name, hname, fun id hid => ?_⟩, hgood hfile⟩
        show id ∈ (serve x (.fs .backups (.remove other)) a p.state).2.used
        rw [hused]
        by_contra hunused
        have hnone := (h.unseen id hunused).files other (hid ▸ hname)
        rw [hnone] at hfile
        cases hfile
      · have hnone : p.state.files other = none := Option.not_isSome_iff_eq_none.mp hfile
        have hafter : (serve x (.fs .backups (.remove other)) a p.state).2.files other = none := by
          rw [hserve]
          unfold settle
          split
          · show Function.update p.state.files other none other = none
            rw [Function.update_self]
          · exact hnone
        rw [hafter] at hother
        rw [← hnone] at hother
        exact (hdiffers other hother).1.next (fun _ h => hused ▸ h) (hdiffers other hother).1.tasks
  · have hunseen := h.unseen id (hused ▸ hid)
    refine hunseen.reply (fun other hother => ?_) fun _ _ => trivial
    rcases hgone other with hsame | rfl
    · rw [hsame]
      exact hunseen.files other hother
    · rw [hserve]
      unfold settle
      split
      · show Function.update p.state.files other none other = none
        rw [Function.update_self]
      · exact hunseen.files other hother

/-- Another call of the restore. -/
theorem Twin.call (h : Twin (.call k next) p q) (hk : removesTemporary k = false)
    (a : Reply Page Write) :
    (serve x k a q.state).1 = (serve x k a p.state).1 ∧
      Twin (next (serve x k a p.state).1) ⟨(serve x k a p.state).2, p.tasks⟩
        ⟨(serve x k a q.state).2, q.tasks⟩ := by
  obtain ⟨g, hstate, hdiffers⟩ := h.state
  have hunused : ∀ name, Sweeping name k → Avoids (Temporary name) k := by
    intro name hsweeping path hpath hmentions
    rw [hsweeping path hpath hmentions] at hk
    have hremoves : (temporaryName path).isSome = false := hk
    rw [show temporaryName path = some name from hpath] at hremoves
    cases hremoves
  have hagree : ∀ path, mentions path k → g path = p.state.files path := by
    intro path hmentions
    by_contra hne
    obtain ⟨hlost, hsweeps⟩ := hdiffers path hne
    obtain ⟨name, hname, -⟩ := hlost.name
    exact hunused name (hsweeps.1 name) path hname hmentions
  obtain ⟨hreply, g', hafter, hsame⟩ := serve_twin (x := x) k a hagree
  rw [← hstate] at hreply hafter
  refine ⟨hreply, h.tasks, ⟨g', hafter, fun path hpath => ?_⟩, h.settles.2 _, fun id hid => ?_⟩
  · obtain ⟨hlost, hsweeps⟩ := hdiffers path (hsame path hpath)
    exact ⟨hlost.next (fun _ hused => mem_used_serve k a hused) hlost.tasks, hsweeps.2 _⟩
  · have hunseen := h.unseen id fun hused => hid (mem_used_serve k a hused)
    refine hunseen.reply (fun path hpath => ?_) fun v hv => ?_
    · exact hunseen.files_serve (hunused _ hunseen.main.1) a hpath
    · refine clear_serve (s := p.state) (fun other hother => ?_) hv
      by_cases hsame : other = id
      · rw [hsame]
        exact Or.inr hid
      · exact absurd hother (text_ne hsame)

end

theorem removesTemporary_eq {k : Call Page Write} (h : removesTemporary k = true) :
    ∃ path, k = .fs .backups (.remove path) ∧ (temporaryName path).isSome := by
  unfold removesTemporary at h
  split at h
  · exact ⟨_, rfl, h⟩
  · cases h

theorem twins_restore :
    Twins (site x) (lenient x) (RemovesAbandoned : SiteStep Page Write → Prop) Twin where
  event := fun _ _ _ turn h _ => h.turn turn
  call := by
    intro k next p q a h hgood
    by_cases hk : removesTemporary k = true
    · obtain ⟨path, rfl, htemporary⟩ := removesTemporary_eq hk
      have hreply : ((lenient x).serve (.fs .backups (.remove path)) a q).1 =
          ((site x).serve (.fs .backups (.remove path)) a p).1 := by
        show (settle a.ok q.state (q.state.put path none)).1 =
          (settle a.ok p.state (p.state.put path none)).1
        unfold settle
        split <;> rfl
      have hstate : ((lenient x).serve (.fs .backups (.remove path)) a q).2 = q := by
        show ({ q with state := if removesTemporary (.fs .backups (.remove path)) then q.state
          else (serve x (.fs .backups (.remove path)) a q.state).2 } : Site Page Write) = q
        rw [if_pos hk]
      refine ⟨hreply, ?_⟩
      rw [hstate]
      exact h.removal htemporary a (hgood path _ rfl htemporary)
    · have hkept := Bool.not_eq_true _ ▸ hk
      obtain ⟨hreply, hnext⟩ := h.call (x := x) hkept a
      have hserve : (lenient x).serve k a q =
          ((serve x k a q.state).1, ⟨(serve x k a q.state).2, q.tasks⟩) := by
        show ((serve x k a q.state).1, ({ q with state := if removesTemporary k then q.state
          else (serve x k a q.state).2 } : Site Page Write)) = _
        rw [if_neg hk]
      rw [hserve]
      exact ⟨hreply, hnext⟩

/-- **Reconcile destroys no work in progress**, in every run in which it removes only
files that no running operation may still use. -/
theorem work_kept (s : Directory Page Write)
    (moves : List (Move (Reply Page Write)
      (Fallible.Turn (Operation Page Write) (Reply Page Write) Int)))
    (backupId confirmation : String) (fault : RestoreFault)
    (hused : ∀ path (id : Uuid), temporaryName path = some id.text → (s.files path).isSome →
      id ∈ s.used)
    (hgood : ∀ step ∈ (restoreRun (site x) s moves backupId confirmation fault).1.history,
      RemovesAbandoned step) :
    WorkKept x s moves backupId confirmation fault := by
  have hstart : Twin (restore backupId confirmation fault) (⟨s, []⟩ : Site Page Write) ⟨s, []⟩ := by
    refine ⟨rfl, ⟨s.files, rfl, fun path hpath => absurd rfl hpath⟩, settles_restore _ _ _,
      fun id hid => ⟨fun path hpath => ?_, fun t ht => ?_, sweeping_restore _ _ _⟩⟩
    · by_contra hfile
      exact hid (hused path id hpath (Option.isSome_iff_ne_none.mpr hfile))
    · exact (List.not_mem_nil ht).elim
  obtain ⟨-, m, htwin⟩ := (twins_restore (x := x)).run moves
    (c := .start ⟨s, []⟩) (d := .start ⟨s, []⟩) hstart hgood
  intro task hsucceeded
  unfold Succeeded at hsucceeded ⊢
  rw [← hsucceeded]
  exact congrArg (·[task]?) htwin.tasks.symm

/-! ## An upload beside a restore -/

def returned : Program Page Write Unit → Bool
  | .pure () => true
  | _ => false

theorem succeeded_iff {p : Site Page Write} {task : Nat} :
    Succeeded p task ↔ p.tasks[task]?.map returned = some true := by
  unfold Succeeded
  constructor
  · intro h
    rw [h]
    rfl
  · intro h
    obtain ⟨m, hm, hreturned⟩ := Option.map_eq_some_iff.mp h
    cases m with
    | pure u => exact hm
    | throw e => cases hreturned
    | call k next => cases hreturned

/-- The step removes no temporary file, or all operations have returned. -/
def removesNone (step : SiteStep Page Write) : Bool :=
  match step.action with
  | .call k _ => !removesTemporary k || step.before.tasks.all returned
  | .event _ => true

theorem removesAbandoned_of_none {step : SiteStep Page Write} (h : removesNone step = true) :
    RemovesAbandoned step := by
  intro path failed haction htemporary _ m hm name _
  unfold removesNone at h
  rw [haction] at h
  dsimp only at h
  have hremoves : removesTemporary (.fs .backups (.remove path) : Call Page Write) = true :=
    htemporary
  rw [hremoves] at h
  have hreturned := List.all_eq_true.mp h m hm
  cases m with
  | pure u => trivial
  | throw e => cases hreturned
  | call k next => cases hreturned

namespace Sample

/-- A file of an upload that was interrupted long ago. -/
def interrupted : Directory Unit Unit where
  files := Function.update backedUp.files (.temporaryDatabase (RemindiCore.Sample.uuid 9).text)
    (some .incomplete)
  walFiles := backedUp.walFiles
  rows := backedUp.rows
  retention := some 7
  pool := true
  maintenance := false
  used := [RemindiCore.Sample.uuid 1, RemindiCore.Sample.uuid 2, RemindiCore.Sample.uuid 9]

theorem interrupted_used (path : FilePath) (id : Uuid) (hname : temporaryName path = some id.text)
    (hfile : (interrupted.files path).isSome) : id ∈ interrupted.used := by
  by_cases hpath : path = .temporaryDatabase (RemindiCore.Sample.uuid 9).text
  · subst hpath
    have htext : (RemindiCore.Sample.uuid 9).text = id.text := Option.some.inj hname
    by_cases hid : id = RemindiCore.Sample.uuid 9
    · rw [hid]
      decide +kernel
    · exact absurd htext.symm (text_ne hid)
  · have hbacked : interrupted.files path = backedUp.files path := Function.update_of_ne hpath _ _
    rw [hbacked] at hfile
    unfold backedUp at hfile
    dsimp only at hfile
    split at hfile
    · next heq =>
      subst heq
      cases hname
    · split at hfile
      · next heq =>
        subst heq
        cases hname
      · cases hfile

def upload (calls : Nat) : List SiteMove :=
  List.replicate calls (.event (.advance 0 (replyWith 5)))

/-- The restore, with what its `reconcile` finds in the directory. -/
def restoring (calls : Nat) (found : Fin 10) : List SiteMove :=
  (List.replicate 17 (replyWith 3) ++ List.replicate calls
    { replyWith 4 with entries := [.temporaryDatabase (RemindiCore.Sample.uuid found).text] }).map
      .answer

def uploading : SiteMove := .event (.start (.upload [some ⟨1, .database fun _ => []⟩] 10))

/-- The upload ends before the restore begins. -/
def before : List SiteMove := uploading :: upload 17 ++ restoring 62 9

/-- The upload has yet to verify its file when `reconcile` finds it. -/
def between : List SiteMove := uploading :: upload 6 ++ restoring 60 5 ++ upload 11

def restored (w : World (@Value Unit Unit) (Site Unit Unit) (Reply Unit Unit)
      (Fallible.Turn (Operation Unit Unit) (Reply Unit Unit) Int)) (moves : List SiteMove) :
    SiteTrace Unit Unit × Option (Except BackupError RestoreOutcome) :=
  restoreRun w interrupted moves (RemindiCore.Sample.uuid 1).text restoreConfirmation .none

end Sample

/-- An upload that ends before the restore begins. -/
theorem sample_work_kept :
    WorkKept Sample.accepting Sample.interrupted Sample.before (RemindiCore.Sample.uuid 1).text
      restoreConfirmation .none := by
  refine work_kept Sample.interrupted Sample.before (RemindiCore.Sample.uuid 1).text
    restoreConfirmation .none Sample.interrupted_used fun step hstep => ?_
  have hall : (Sample.restored (site Sample.accepting) Sample.before).1.history.all
    removesNone = true := by decide +kernel
  exact removesAbandoned_of_none (List.all_eq_true.mp hall step hstep)

/-- **The file of an upload is removed before it is verified.** -/
theorem upload_destroyed :
    ¬ WorkKept Sample.accepting Sample.interrupted Sample.between (RemindiCore.Sample.uuid 1).text
      restoreConfirmation .none := by
  intro h
  have hwithout : ((Sample.restored (lenient Sample.accepting) Sample.between).1.state.tasks[0]?.map
    returned) = some true := by decide +kernel
  have hwith : ((Sample.restored (site Sample.accepting) Sample.between).1.state.tasks[0]?.map
    returned) = some false := by decide +kernel
  have hkept := succeeded_iff.mp (h 0 (succeeded_iff.mpr hwithout))
  exact absurd (hwith.symm.trans hkept) (by decide)

end RemindiCore.Admin.Directory
