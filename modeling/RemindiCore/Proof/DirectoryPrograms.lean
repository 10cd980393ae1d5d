import RemindiCore.Proof.DirectoryCalls

/-!
# The files that a backup operation uses

`create` and `upload` use the files that are named after the identifier they
have drawn; their retention run removes the pairs of the records it has
selected.  Files that are guarded from these are used by no call of theirs.
-/

namespace RemindiCore.Admin.Directory

open Fallible

variable {Page Write : Type} {allow : (k : Call Page Write) → Value k → Prop}
  {guarded : FilePath → Prop}

/-! ## Calls -/

def mentionsFs (path : FilePath) : FsCall Page Write → Prop
  | .create target | .write target _ | .sync target | .protect target | .remove target =>
    target = path
  | .copy source target | .rename source target => source = path ∨ target = path
  | .syncDirectory | .createDirectory | .protectDirectory => False

/-- The call names the file: it opens, moves, removes or registers it. -/
def mentions (path : FilePath) : Call Page Write → Prop
  | .fs _ call => mentionsFs path call
  | .vacuumInto target | .verifyDatabase target | .readManifest target => target = path
  | .insertManifest manifest => .manifest manifest.fileName = path
  | .readJournal => .journal = path
  | .reopen => .live = path
  | _ => False

theorem mentions_of_touches {path : FilePath} {k : Call Page Write} (h : touches path k) :
    mentions path k := by
  cases k with
  | fs caller call =>
    cases call with
    | copy source target => exact Or.inr h
    | create | write | rename | remove => exact h
    | sync | protect | syncDirectory | createDirectory | protectDirectory => exact h.elim
  | vacuumInto target => exact h
  | _ => exact h.elim

/-- The call uses no guarded file. -/
def Avoids (guarded : FilePath → Prop) (k : Call Page Write) : Prop :=
  ∀ path, guarded path → ¬ mentions path k

/-- The call changes no guarded file. -/
def Spares (guarded : FilePath → Prop) (k : Call Page Write) : Prop :=
  ∀ path, guarded path → ¬ touches path k

theorem Avoids.spares {k : Call Page Write} (h : Avoids guarded k) : Spares guarded k :=
  fun path hpath htouches => h path hpath (mentions_of_touches htouches)

/-- A call with one file. -/
theorem avoids_fs {caller : Caller} {call : FsCall Page Write} {target : FilePath}
    (htarget : ¬ guarded target) (h : ∀ path, mentionsFs path call → target = path) :
    Avoids guarded (.fs caller call) := by
  intro path hpath hmentions
  rw [h path hmentions] at htarget
  exact htarget hpath

/-! ## Programs -/

/-- No file with the name of the identifier is guarded. -/
structure Free (guarded : FilePath → Prop) (id : Uuid) : Prop where
  temporary : ¬ guarded (.temporaryDatabase id.text)
  sidecar : ¬ guarded (.temporaryManifest id.text)
  backup : ¬ guarded (.backup (backupFileName id))
  manifest : ¬ guarded (.manifest (backupFileName id))

/-- No record that is selected names a guarded file. -/
def FreeRows (allow : (k : Call Page Write) → Value k → Prop) (guarded : FilePath → Prop) : Prop :=
  ∀ rows, allow .surplusBackups rows → ∀ record ∈ rows,
    ¬ guarded (.backup record.fileName) ∧ ¬ guarded (.manifest record.fileName)

/-- No allowed reply names a guarded file. -/
structure Guard (allow : (k : Call Page Write) → Value k → Prop) (guarded : FilePath → Prop) :
    Prop where
  ids : ∀ id, allow .nextId id → Free guarded id
  rows : FreeRows allow guarded

theorem makes_publish {manifest : BackupManifest} (hfree : Free guarded manifest.id) :
    (publish (.temporaryDatabase manifest.id.text) manifest : Program Page Write Unit).Makes
      (Avoids guarded) := by
  obtain ⟨htemporary, hsidecar, hbackup, hmanifest⟩ := hfree
  unfold publish
  refine Prog.Makes.bind (Prog.Makes.perform (avoids_fs hsidecar fun _ h => h)) fun _ => ?_
  refine Prog.Makes.bind (Prog.Makes.perform (avoids_fs hsidecar fun _ h => h)) fun _ => ?_
  refine Prog.Makes.bind (Prog.Makes.perform (avoids_fs hsidecar fun _ h => h)) fun _ => ?_
  refine Prog.Makes.bind (Prog.Makes.perform (avoids_fs hsidecar fun _ h => h)) fun _ => ?_
  refine Prog.Makes.bind (Prog.Makes.perform (avoids_fs hsidecar fun _ h => h)) fun _ => ?_
  refine Prog.Makes.bind (Prog.Makes.perform ?_) fun _ => ?_
  · rintro path hpath (rfl | rfl)
    · exact htemporary hpath
    · exact hbackup hpath
  refine Prog.Makes.bind (Prog.Makes.perform ?_) fun _ => ?_
  · rintro path hpath (rfl | rfl)
    · exact hsidecar hpath
    · exact hmanifest hpath
  exact Prog.Makes.perform fun _ _ h => h

theorem obeys_applyRetention (hfree : FreeRows allow guarded) :
    (applyRetention : Program Page Write Unit).Obeys allow (Avoids guarded) := by
  unfold applyRetention
  refine Prog.Obeys.perform (fun _ _ h => h) fun rows hrows => ?_
  have hpairs := hfree rows hrows
  refine Prog.Makes.obeys (Prog.Makes.bind (makes_expireBackups rows ?_ ?_) fun _ => ?_)
  · exact fun _ _ _ _ h => h
  · intro record hrecord
    obtain ⟨hbackup, hmanifest⟩ := hpairs record hrecord
    exact ⟨avoids_fs hbackup fun _ h => h, avoids_fs hmanifest fun _ h => h⟩
  · split
    · trivial
    · exact Prog.Makes.perform fun _ _ h => h

/-- Publication, registration and retention. -/
theorem obeys_registered {manifest : BackupManifest} {f : Unit → Program Page Write BackupRecord}
    (hrows : FreeRows allow guarded) (hfree : Free guarded manifest.id)
    (hf : ∀ u, (f u).Obeys allow (Avoids guarded)) :
    ((publish (.temporaryDatabase manifest.id.text) manifest).bind fun _ =>
      (Admin.perform (.insertManifest manifest) .database).bind fun _ =>
        applyRetention.bind f).Obeys allow (Avoids guarded) := by
  refine Prog.Obeys.bind (makes_publish hfree).obeys fun _ => ?_
  refine Prog.Obeys.perform ?_ fun _ _ => ?_
  · rintro path hpath rfl
    exact hfree.manifest hpath
  · exact Prog.Obeys.bind (obeys_applyRetention hrows) hf

/-- `create` with the identifier that it has drawn. -/
def createAs (source : BackupSource) (id : Uuid) : Program Page Write BackupRecord := do
  Admin.perform .timestamp .database
  let temporary := FilePath.temporaryDatabase id.text
  Admin.perform (.vacuumInto temporary) .database
  fs .backups (.protect temporary)
  fs .backups (.sync temporary)
  let verified ← verifyDatabase temporary
  let manifest : BackupManifest := { id := id, source := source, file := verified }
  publish temporary manifest
  Admin.perform (.insertManifest manifest) .database
  applyRetention
  .pure manifest.toRecord

theorem create_eq (source : BackupSource) :
    (Admin.create source : Program Page Write BackupRecord) =
      if source = .upload then .throw .invalid
      else (Admin.perform .nextId .database).bind (createAs source) := rfl

theorem obeys_createAs (hrows : FreeRows allow guarded) {id : Uuid} (hfree : Free guarded id)
    (source : BackupSource) :
    (createAs source id : Program Page Write BackupRecord).Obeys allow (Avoids guarded) := by
  have htemporary := hfree.temporary
  unfold createAs
  refine Prog.Obeys.perform (fun _ _ h => h) fun _ _ => ?_
  refine Prog.Obeys.perform ?_ fun _ _ => ?_
  · rintro path hpath rfl
    exact htemporary hpath
  refine Prog.Obeys.perform (avoids_fs htemporary fun _ h => h) fun _ _ => ?_
  refine Prog.Obeys.perform (avoids_fs htemporary fun _ h => h) fun _ _ => ?_
  refine Prog.Obeys.perform ?_ fun verified _ => ?_
  · rintro path hpath rfl
    exact htemporary hpath
  exact obeys_registered hrows hfree fun _ => trivial

theorem obeys_create (hguard : Guard allow guarded) (source : BackupSource) :
    (Admin.create source : Program Page Write BackupRecord).Obeys allow (Avoids guarded) := by
  rw [create_eq]
  split
  · trivial
  · exact Prog.Obeys.perform (fun _ _ h => h) fun id hid =>
      obeys_createAs hguard.rows (hguard.ids id hid) source

/-- What `upload` does with the file once it is written. -/
def conclude (id : Uuid) : Program Page Write BackupRecord :=
  let temporary := FilePath.temporaryDatabase id.text
  (fs .backups (.sync temporary)).bind fun _ =>
    (verifyDatabase temporary).attempt.bind fun verified =>
      match verified with
      | .error e => (removeIfExists .backups temporary).bind fun _ => .throw e
      | .ok verified =>
        let manifest : BackupManifest := { id := id, source := .upload, file := verified }
        (publish temporary manifest).bind fun _ =>
          (Admin.perform (.insertManifest manifest) .database).bind fun _ =>
            applyRetention.bind fun _ => .pure manifest.toRecord

/-- `upload` with the identifier that it has drawn. -/
def uploadAs (chunks : List (Option (Chunk Page Write))) (maximumBytes : Nat) (id : Uuid) :
    Program Page Write BackupRecord :=
  (Admin.perform .timestamp .database).bind fun _ =>
    (fs .backups (.create (.temporaryDatabase id.text))).bind fun _ =>
      (fs .backups (.protect (.temporaryDatabase id.text))).bind fun _ =>
        (receive (.temporaryDatabase id.text) maximumBytes 0 chunks).bind fun _ => conclude id

theorem upload_eq (chunks : List (Option (Chunk Page Write))) (maximumBytes : Nat) :
    Admin.upload chunks maximumBytes =
      (Admin.perform .nextId .database).bind (uploadAs chunks maximumBytes) := rfl

theorem makes_receive {temporary : FilePath} (htemporary : ¬ guarded temporary)
    (maximumBytes length : Nat) (chunks : List (Option (Chunk Page Write))) :
    (receive temporary maximumBytes length chunks).Makes (Avoids guarded) := by
  induction chunks generalizing length with
  | nil => trivial
  | cons chunk chunks ih =>
    cases chunk with
    | none => trivial
    | some chunk =>
      unfold receive
      split
      · trivial
      split
      · exact Prog.Makes.bind (Prog.Makes.ignore (avoids_fs htemporary fun _ h => h)) fun _ =>
          trivial
      · exact Prog.Makes.bind (Prog.Makes.perform (avoids_fs htemporary fun _ h => h)) fun _ =>
          ih _

theorem obeys_uploadAs (hrows : FreeRows allow guarded) {id : Uuid} (hfree : Free guarded id)
    (chunks : List (Option (Chunk Page Write))) (maximumBytes : Nat) :
    (uploadAs chunks maximumBytes id).Obeys allow (Avoids guarded) := by
  have htemporary := hfree.temporary
  unfold uploadAs
  refine Prog.Obeys.perform (fun _ _ h => h) fun _ _ => ?_
  refine Prog.Obeys.perform (avoids_fs htemporary fun _ h => h) fun _ _ => ?_
  refine Prog.Obeys.perform (avoids_fs htemporary fun _ h => h) fun _ _ => ?_
  refine Prog.Obeys.bind (makes_receive htemporary maximumBytes 0 chunks).obeys fun _ => ?_
  refine Prog.Obeys.perform (avoids_fs htemporary fun _ h => h) fun _ _ => ?_
  refine Prog.Obeys.bind (Prog.Makes.obeys (Prog.Makes.attempt (Prog.Makes.perform ?_)))
    fun verified => ?_
  · rintro path hpath rfl
    exact htemporary hpath
  cases verified with
  | error e =>
    refine Prog.Makes.obeys ?_
    exact Prog.Makes.bind (Prog.Makes.ignore (avoids_fs htemporary fun _ h => h)) fun _ => trivial
  | ok verified => exact obeys_registered hrows hfree fun _ => trivial

theorem obeys_upload (hguard : Guard allow guarded) (chunks : List (Option (Chunk Page Write)))
    (maximumBytes : Nat) : (Admin.upload chunks maximumBytes).Obeys allow (Avoids guarded) := by
  rw [upload_eq]
  exact Prog.Obeys.perform (fun _ _ h => h) fun id hid =>
    obeys_uploadAs hguard.rows (hguard.ids id hid) chunks maximumBytes

/-- **An operation uses files of its own.** -/
theorem obeys_operation (hguard : Guard allow guarded) (operation : Operation Page Write) :
    operation.program.Obeys allow (Avoids guarded) := by
  cases operation with
  | create source => exact Prog.Obeys.bind (obeys_create hguard source) fun _ => trivial
  | upload chunks maximumBytes =>
    exact Prog.Obeys.bind (obeys_upload hguard chunks maximumBytes) fun _ => trivial
  | applyRetention => exact obeys_applyRetention hguard.rows

end RemindiCore.Admin.Directory
