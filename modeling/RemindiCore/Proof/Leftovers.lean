import RemindiCore.Proof.DirectoryPrograms
import RemindiCore.Service.System

/-!
# What a failed backup leaves

A `create` or an `upload` that fails leaves nothing behind when it fails before
it has begun its file, and an `upload` also when it takes its file away: over
the limit, or when the file does not verify and SQLite has left nothing beside it.
At every other call a file or a record of it stays (`leaves_nothing_iff`).
-/

namespace RemindiCore.Admin.Directory

open Fallible

variable {Page Write : Type} {x : Image Page Write → Option VerifiedFile}
  {s t u : Directory Page Write} {id : Uuid} {α β : Type}

/-! ## The claim -/

inductive Publication (Page Write : Type) where
  | create (source : BackupSource)
  | upload (chunks : List (Option (Chunk Page Write))) (maximumBytes : Nat)

def Publication.program : Publication Page Write → Program Page Write BackupRecord
  | .create source => Admin.create source
  | .upload chunks maximumBytes => Admin.upload chunks maximumBytes

/-- The identifier is a new one. -/
structure Fresh (s : Directory Page Write) (id : Uuid) : Prop where
  used : id ∉ s.used
  rows : ∀ row ∈ s.rows, row.record.id ≠ id
  database : s.files (.temporaryDatabase id.text) = none
  manifest : s.files (.temporaryManifest id.text) = none
  backup : s.files (.backup (backupFileName id)) = none
  sidecar : s.files (.manifest (backupFileName id)) = none
  wal : s.walFiles (.temporaryDatabase id.text) = false

/-- No new file, and no record of the backup now or after the next `reconcile`. -/
structure LeavesNothing (x : Image Page Write → Option VerifiedFile) (s t : Directory Page Write)
    (id : Uuid) : Prop where
  files : ∀ path, (t.files path).isSome → (s.files path).isSome
  walFiles : ∀ path, t.walFiles path = true → s.walFiles path = true
  rows : ∀ row ∈ t.rows, row.record.id ≠ id
  reconciled : ∀ replies : List (Reply Page Write),
    ∀ row ∈ (run (world x) (replies.map .answer) (.start t) reconcile).1.state.rows,
      row.record.id ≠ id

/-! ## When it holds -/

def accepted (x : Image Page Write → Option VerifiedFile) : File Page Write → Bool
  | .database image => (x image).isSome
  | _ => false

/-- The reading of the clock fails, or `VACUUM INTO` before it has begun a file. -/
def createTidy (available : Bool) (source : BackupSource) : List (Reply Page Write) → Bool
  | timestamp :: vacuum :: _ =>
    source = .upload || !timestamp.ok || !available || (!vacuum.ok && !vacuum.leaves)
  | timestamp :: [] => source = .upload || !timestamp.ok
  | [] => source = .upload

/-- The chunks exceed the limit, or all are written and the file does not verify, which
leaves nothing beside it; and the file is removed.  `file` is what has been written. -/
def receiveTidy (x : Image Page Write → Option VerifiedFile) (maximumBytes : Nat) :
    File Page Write → Nat → List (Option (Chunk Page Write)) → List (Reply Page Write) → Bool
  | file, _, [], sync :: verify :: removal :: _ =>
    sync.ok && !(verify.ok && accepted x file) && !verify.leaves && removal.ok
  | _, _, none :: _, _ => false
  | _, written, some chunk :: chunks, reply :: replies =>
    if 2 ^ 64 ≤ written + chunk.length then false
    else if maximumBytes < written + chunk.length then reply.ok
    else reply.ok && receiveTidy x maximumBytes chunk.file (written + chunk.length) chunks replies
  | _, _, _, _ => false

/-- The file is not begun, or `receiveTidy`. -/
def uploadTidy (x : Image Page Write → Option VerifiedFile)
    (chunks : List (Option (Chunk Page Write))) (maximumBytes : Nat) :
    List (Reply Page Write) → Bool
  | timestamp :: create :: protect :: replies =>
    !timestamp.ok || !create.ok ||
      (protect.ok && receiveTidy x maximumBytes .incomplete 0 chunks replies)
  | timestamp :: create :: [] => !timestamp.ok || !create.ok
  | timestamp :: [] => !timestamp.ok
  | [] => false

/-- What goes wrong first, goes wrong at a call after which nothing is left. -/
def Publication.tidy (x : Image Page Write → Option VerifiedFile) (s : Directory Page Write)
    (replies : List (Reply Page Write)) : Publication Page Write → Bool
  | .create source => createTidy s.available source replies
  | .upload chunks maximumBytes => uploadTidy x chunks maximumBytes replies

/-! ## What stays -/

/-- A file or a record of the backup is there. -/
def Dirty (s : Directory Page Write) (id : Uuid) : Prop :=
  (s.files (.temporaryDatabase id.text)).isSome ∨ (s.files (.backup (backupFileName id))).isSome ∨
    s.walFiles (.temporaryDatabase id.text) = true ∨ ∃ row ∈ s.rows, row.record.id = id

theorem Dirty.not_leavesNothing (h : Dirty t id) (hfresh : Fresh s id) :
    ¬ LeavesNothing x s t id := by
  intro hnothing
  rcases h with h | h | h | ⟨row, hrow, hid⟩
  · have hbefore := hnothing.files _ h
    rw [hfresh.database] at hbefore
    cases hbefore
  · have hbefore := hnothing.files _ h
    rw [hfresh.backup] at hbefore
    cases hbefore
  · have hbefore := hnothing.walFiles _ h
    rw [hfresh.wal] at hbefore
    cases hbefore
  · exact hnothing.rows row hrow hid

/-- Whatever is replied, an error leaves something. -/
def Leaves (x : Image Page Write → Option VerifiedFile) (id : Uuid) (m : Program Page Write α)
    (s : Directory Page Write) : Prop :=
  Ensures (world x) (fun _ => True) (fun _ => True)
    (fun result t => ∀ e, result = .error e → Dirty t id) m s

theorem Leaves.perform {k : Call Page Write} {e : BackupError} {f : Value k → Program Page Write α}
    (hfail : ∀ a, (serve x k a s).1 = none → Dirty (serve x k a s).2 id)
    (hok : ∀ a v, (serve x k a s).1 = some v → Leaves x id (f v) (serve x k a s).2) :
    Leaves x id ((Admin.perform k e).bind f) s := by
  refine Ensures.bind (Ensures.perform trivial ?_ ?_)
  · intro a v _ hv
    exact hok a v hv
  · intro a _ hnone e' _
    exact hfail a hnone

/-- A record stays through the retention run. -/
theorem leaves_applyRetention {f : Unit → Program Page Write α} (h : Recorded s id)
    (hf : ∀ u, (f u).Makes KeepsRecords) : Leaves x id (applyRetention.bind f) s := by
  have hkept : Ensures (world x) (fun _ => True) (fun _ => True) (fun _ t => Recorded t id)
      ((applyRetention : Program Page Write Unit).bind f) s :=
    Ensures.keep (makes_applyRetention.bind hf) (fun _ _ => trivial)
      (fun k hk t a _ ht => ht.serve hk a) h
  exact hkept.mono fun _ t ht e _ => Or.inr (Or.inr (Or.inr ht))

/-- The two files of which one is there until the record is. -/
def Own (id : Uuid) (path : FilePath) : Prop :=
  path = .temporaryDatabase id.text ∨ path = .backup (backupFileName id)

theorem Own.dirty {path : FilePath} (hpath : Own id path) (h : (s.files path).isSome) :
    Dirty s id := by
  rcases hpath with rfl | rfl
  · exact Or.inl h
  · exact Or.inr (Or.inl h)

/-- A call that leaves the file alone. -/
theorem Leaves.past {path : FilePath} {k : Call Page Write} {e : BackupError}
    {f : Value k → Program Page Write α} (hpath : Own id path) (hk : ¬ touches path k)
    (h : (s.files path).isSome)
    (hf : ∀ v t, (t.files path).isSome → Leaves x id (f v) t) :
    Leaves x id ((Admin.perform k e).bind f) s := by
  have hkept : ∀ a, ((serve x k a s).2.files path).isSome := by
    intro a
    rw [files_serve hk a]
    exact h
  exact Leaves.perform (fun a _ => hpath.dirty (hkept a)) fun a v _ => hf v _ (hkept a)

theorem leaves_publish {manifest : BackupManifest} {f : Unit → Program Page Write α}
    (hid : manifest.id = id) (h : (s.files (.temporaryDatabase id.text)).isSome)
    (hf : ∀ t, (t.files (.backup (backupFileName id))).isSome → Leaves x id (f ()) t) :
    Leaves x id ((publish (.temporaryDatabase id.text) manifest).bind f) s := by
  subst hid
  unfold publish
  simp only [Prog.bind_eq, Prog.bind_assoc]
  have htemporary : Own manifest.id (.temporaryDatabase manifest.id.text) := Or.inl rfl
  have hbackup : Own manifest.id (.backup (backupFileName manifest.id)) := Or.inr rfl
  refine Leaves.past htemporary nofun h fun _ s h => ?_
  refine Leaves.past htemporary nofun h fun _ s h => ?_
  refine Leaves.past htemporary nofun h fun _ s h => ?_
  refine Leaves.past htemporary nofun h fun _ s h => ?_
  refine Leaves.past htemporary nofun h fun _ s h => ?_
  -- the database changes its name
  obtain ⟨file, hfile⟩ := Option.isSome_iff_exists.mp h
  have hrename : ∀ a : Reply Page Write, (serve x (.fs .backups (.rename
      (.temporaryDatabase manifest.id.text) (.backup manifest.fileName))) a s) =
        if a.ok then (some (), (s.put (.backup manifest.fileName) (some file)).put
          (.temporaryDatabase manifest.id.text) none) else (none, s) :=
    fun a => serveFs_rename hfile
  refine Leaves.perform ?_ ?_
  · intro a hfail
    rw [hrename] at hfail ⊢
    by_cases hok : a.ok = true
    · rw [if_pos hok] at hfail
      cases hfail
    · rw [if_neg hok]
      exact Or.inl h
  · intro a _ hreply
    have hmoved : ((serve x (.fs .backups (.rename (.temporaryDatabase manifest.id.text)
        (.backup manifest.fileName))) a s).2.files
          (.backup (backupFileName manifest.id))).isSome := by
      rw [hrename] at hreply ⊢
      by_cases hok : a.ok = true
      · rw [if_pos hok]
        show (((s.put (.backup manifest.fileName) (some file)).put
          (.temporaryDatabase manifest.id.text) none).files
            (.backup (backupFileName manifest.id))).isSome = true
        have hdistinct : FilePath.temporaryDatabase manifest.id.text ≠
          .backup (backupFileName manifest.id) := nofun
        rw [files_put _ hdistinct]
        show (Function.update s.files (.backup (backupFileName manifest.id)) (some file)
          (.backup (backupFileName manifest.id))).isSome = true
        rw [Function.update_self]
        rfl
      · rw [if_neg hok] at hreply
        cases hreply
    refine Leaves.past hbackup nofun hmoved fun _ s h => ?_
    exact Leaves.past hbackup nofun h fun _ s h => hf s h

/-- From the verification on, every error leaves something. -/
theorem leaves_registered {manifest : BackupManifest} {f : Unit → Program Page Write α}
    (hid : manifest.id = id) (h : (s.files (.temporaryDatabase id.text)).isSome)
    (hf : ∀ u, (f u).Makes KeepsRecords) :
    Leaves x id ((publish (.temporaryDatabase id.text) manifest).bind fun _ =>
      (Admin.perform (.insertManifest manifest) .database).bind fun _ => applyRetention.bind f)
      s := by
  refine leaves_publish hid h fun t ht => ?_
  refine Leaves.perform ?_ ?_
  · intro a _
    have hkept : ¬ touches (.backup (backupFileName id)) (Call.insertManifest manifest :
      Call Page Write) := fun h => h
    refine Or.inr (Or.inl ?_)
    rw [files_serve hkept a]
    exact ht
  · intro a _ hok
    refine leaves_applyRetention ?_ hf
    subst hid
    show Recorded (serve x (.insertManifest manifest) a t).2 manifest.id
    have hreply : (serve x (.insertManifest manifest) a t).1 = some () := hok
    unfold serve at hreply ⊢
    dsimp only at hreply ⊢
    by_cases havailable : t.available = true
    · rw [if_pos havailable] at hreply ⊢
      unfold attempt at hreply ⊢
      by_cases hcommitted : a.ok = true
      · rw [if_pos hcommitted]
        exact recorded_register t manifest.toRecord a.createdAt
      · rw [if_neg hcommitted] at hreply
        cases hreply
    · rw [if_neg havailable] at hreply
      cases hreply

/-- A run of this world. -/
abbrev Trace (Page Write : Type) := Config (Call Page Write) Int (Directory Page Write)

theorem Leaves.run {m : Program Page Write α} {c d : Trace Page Write} {e : BackupError}
    {replies : List (Reply Page Write)} (h : Leaves x id m c.state)
    (hrun : run (world x) (replies.map .answer) c m = (d, some (.error e))) : Dirty d.state id := by
  have hstate := run_state (w := world x) (replies.map .answer) c (.start c.state) m rfl
  have hensures := (Ensures.run h replies fun _ _ => trivial).1 (.error e)
  rw [← hstate.2, hrun] at hensures
  have hdirty := hensures rfl e rfl
  rw [← hstate.1, hrun] at hdirty
  exact hdirty

/-! ## What is taken away -/

/-- No manifest for the identifier, and no record of it. -/
structure Unknown (s : Directory Page Write) (id : Uuid) : Prop where
  sidecar : s.files (.manifest (backupFileName id)) = none
  rows : ∀ row ∈ s.rows, row.record.id ≠ id

theorem Unknown.kept {k : Call Page Write} (h : Unknown s id)
    (hk : ¬ touches (.manifest (backupFileName id)) k) (hadds : ¬ AddsRecord id k)
    (a : Reply Page Write) : Unknown (serve x k a s).2 id where
  sidecar := by
    rw [files_serve hk a]
    exact h.sidecar
  rows := by
    have hunrecorded : ¬ Recorded s id := fun ⟨row, hrow, hid⟩ => h.rows row hrow hid
    exact fun row hrow hid => unrecorded_serve hadds a hunrecorded ⟨row, hrow, hid⟩

theorem Unknown.register {manifest : BackupManifest} (h : Unknown s id) (hid : manifest.id ≠ id)
    (a : Reply Page Write) : Unknown (serve x (.insertManifest manifest) a s).2 id :=
  h.kept (k := .insertManifest manifest) (fun h => h) hid a

theorem Unknown.removed {path : FilePath} (h : Unknown s id)
    (hpath : path ≠ .manifest (backupFileName id)) (a : Reply Page Write) :
    Unknown (serve x (.fs .backups (.remove path)) a s).2 id :=
  h.kept (k := .fs .backups (.remove path)) hpath (fun h => h) a

theorem ensures_reconcileEntry (path : FilePath) (h : Unknown s id) :
    Ensures (world x) (fun _ => True) (Unknown · id) (fun _ => (Unknown · id))
      (reconcileEntry path) s := by
  cases path with
  | temporaryDatabase other =>
    have hother : FilePath.temporaryDatabase other ≠ .manifest (backupFileName id) := nofun
    exact Ensures.ignore h fun a _ => Unknown.removed (x := x) h hother a
  | temporaryManifest other =>
    have hother : FilePath.temporaryManifest other ≠ .manifest (backupFileName id) := nofun
    exact Ensures.ignore h fun a _ => Unknown.removed (x := x) h hother a
  | manifest name =>
    unfold reconcileEntry
    refine Ensures.bind (Ensures.attempt (Ensures.perform h ?_ ?_))
    · intro a manifest _ hread
      have hsame : ((world x).serve (.readManifest (.manifest name)) a s).2 = s :=
        readManifest_state (x := x) _ a
      have hfile := readManifest_file (x := x) hread
      dsimp only
      rw [hsame]
      by_cases hname : FilePath.manifest name ≠ .manifest manifest.fileName
      · rw [if_pos hname]
        exact h
      rw [if_neg hname]
      have hid : manifest.id ≠ id := by
        rintro rfl
        rw [not_not.mp hname] at hfile
        exact absurd (h.sidecar.symm.trans hfile) nofun
      have hverify := fun a : Reply Page Write => h.kept (x := x)
        (k := .verifyDatabase (.backup manifest.fileName)) (fun h => h) (fun h => h) a
      refine Ensures.bind (Ensures.attempt
        (Ensures.perform (k := Call.verifyDatabase (.backup manifest.fileName)) h ?_ ?_))
      · intro a verified _ _
        have h := hverify a
        dsimp only
        by_cases hdiffers : manifest.file ≠ verified
        · rw [if_pos hdiffers]
          exact h
        rw [if_neg hdiffers]
        exact Ensures.perform (k := Call.insertManifest manifest) h
          (fun a _ _ _ => Unknown.register (x := x) h hid a)
          fun a _ _ => Unknown.register (x := x) h hid a
      · exact fun a _ _ => hverify a
    · intro a _ _
      show Unknown ((world x).serve (.readManifest (.manifest name)) a s).2 id
      rw [show ((world x).serve (.readManifest (.manifest name)) a s).2 = s from
        readManifest_state (x := x) _ a]
      exact h
  | _ => exact h

theorem ensures_reconcileEntries (paths : List FilePath) (h : Unknown s id) :
    Ensures (world x) (fun _ => True) (Unknown · id) (fun _ => (Unknown · id))
      (reconcileEntries paths) s := by
  induction paths generalizing s with
  | nil => exact h
  | cons path paths ih =>
    unfold reconcileEntries
    refine Ensures.bind ((ensures_reconcileEntry path h).mono ?_)
    rintro (e | a) t ht
    · exact ht
    · exact ih ht

/-- `reconcile` makes no record of it. -/
theorem ensures_reconcile (h : Unknown s id) :
    Ensures (world x) (fun _ => True) (Unknown · id) (fun _ => (Unknown · id)) reconcile s := by
  unfold reconcile
  have hsettled : ∀ call : FsCall Page Write, ¬ touchesFs (.manifest (backupFileName id)) call →
      ∀ {s : Directory Page Write}, Unknown s id → ∀ a : Reply Page Write,
        Unknown (serve x (.fs .backups call) a s).2 id := by
    intro call hcall s h a
    exact h.kept (k := .fs .backups call) hcall (fun h => h) a
  refine Ensures.bind (Ensures.perform (k := Call.fs .backups .createDirectory) h ?_ ?_)
  · intro a _ _ _
    have h := hsettled .createDirectory (fun h => h) h a
    refine Ensures.bind (Ensures.perform (k := Call.fs .backups .protectDirectory) h ?_ ?_)
    · intro a _ _ _
      have h := hsettled .protectDirectory (fun h => h) h a
      have hother : ¬ touchesFs (.manifest (backupFileName id))
        (.remove .journalTemporary : FsCall Page Write) := nofun
      refine Ensures.bind (Ensures.ignore h fun a _ => ?_)
      have h := hsettled (.remove .journalTemporary) hother h a
      refine Ensures.bind (Ensures.perform h ?_ ?_)
      · intro a entries _ _
        exact ensures_reconcileEntries entries h
      · exact fun a _ _ => h
    · exact fun a _ _ => hsettled .protectDirectory (fun h => h) h a
  · exact fun a _ _ => hsettled .createDirectory (fun h => h) h a

theorem leavesNothing_of_same (hfresh : Fresh s id)
    (hfiles : ∀ path, (t.files path).isSome → (s.files path).isSome)
    (hwal : t.walFiles = s.walFiles) (hrows : t.rows = s.rows) :
    LeavesNothing x s t id := by
  have hunknown : Unknown t id := by
    refine ⟨?_, fun row hrow => hfresh.rows row (hrows ▸ hrow)⟩
    cases hfile : t.files (.manifest (backupFileName id)) with
    | none => rfl
    | some file =>
      have hbefore := hfiles _ (by rw [hfile]; rfl)
      rw [hfresh.sidecar] at hbefore
      cases hbefore
  refine ⟨hfiles, fun path hpath => hwal ▸ hpath, hunknown.rows, fun replies row hrow => ?_⟩
  obtain ⟨hreturned, hstopped⟩ := (ensures_reconcile (x := x) hunknown).run replies fun _ _ => trivial
  cases hresult : (run (world x) (replies.map .answer) (.start t) reconcile).2 with
  | none => exact (hstopped hresult).rows row hrow
  | some result => exact (hreturned result hresult).rows row hrow

/-! ## The first calls -/

theorem not_run_nil {k : Call Page Write} {e : BackupError} {f : Value k → Program Page Write α}
    {c d : Trace Page Write} {result : Except BackupError α} :
    ¬ run (world x) (([] : List (Reply Page Write)).map .answer) c ((Admin.perform k e).bind f) =
      (d, some result) := by
  intro h
  cases h

/-- A call is answered: the run ends there, or goes on with the value. -/
theorem run_perform {k : Call Page Write} {e : BackupError} {f : Value k → Program Page Write α}
    {c d : Trace Page Write} {reply : Reply Page Write} {replies : List (Reply Page Write)}
    {result : Except BackupError α}
    (h : run (world x) ((reply :: replies).map .answer) c ((Admin.perform k e).bind f) =
      (d, some result)) :
    (serve x k reply c.state).1 = none ∧ d.state = (serve x k reply c.state).2 ∧
        result = .error e ∨
      ∃ v c', (serve x k reply c.state).1 = some v ∧ c'.state = (serve x k reply c.state).2 ∧
        run (world x) (replies.map .answer) c' (f v) = (d, some result) := by
  cases hreply : (serve x k reply c.state).1 with
  | none =>
    have hrun := run_perform_none (w := world x) (e := e) (f := f) hreply (replies.map .answer)
    have heq := hrun.symm.trans h
    cases heq
    exact Or.inl ⟨rfl, rfl, rfl⟩
  | some v =>
    have hrun := run_perform_some (w := world x) (e := e) (f := f) hreply (replies.map .answer)
    exact Or.inr ⟨v, _, rfl, rfl, hrun.symm.trans h⟩

/-- The state once the identifier is generated. -/
def drawn (s : Directory Page Write) (id : Uuid) : Directory Page Write :=
  { s with used := id :: s.used }

theorem leavesNothing_drawn (hfresh : Fresh s id) : LeavesNothing x s (s.drawn id) id :=
  leavesNothing_of_same hfresh (fun _ h => h) rfl rfl

/-- The identifier and the reading of the clock. -/
theorem run_identity {f : Uuid → Program Page Write α} {first : Reply Page Write}
    {replies : List (Reply Page Write)} {d : Trace Page Write} {result : Except BackupError α}
    (hfresh : Fresh s first.id)
    (h : run (world x) ((first :: replies).map .answer) (.start s)
      ((Admin.perform .nextId .database).bind fun id =>
        (Admin.perform .timestamp .database).bind fun _ => f id) = (d, some result)) :
    ∃ timestamp rest, replies = timestamp :: rest ∧
      (timestamp.ok = false ∧ d.state = s.drawn first.id ∨
        timestamp.ok = true ∧ ∃ c, c.state = s.drawn first.id ∧
          run (world x) (rest.map .answer) c (f first.id) = (d, some result)) := by
  have hserve : serve x .nextId first s = (some first.id, s.drawn first.id) := by
    unfold serve
    exact if_neg hfresh.used
  rcases run_perform h with ⟨hnone, -, -⟩ | ⟨id, c, hid, hc, h⟩
  · rw [show (Config.start s : Trace Page Write).state = s from rfl, hserve] at hnone
    cases hnone
  rw [show (Config.start s : Trace Page Write).state = s from rfl, hserve] at hid hc
  obtain rfl := Option.some.inj hid
  cases replies with
  | nil => exact absurd h not_run_nil
  | cons timestamp replies =>
    refine ⟨timestamp, replies, rfl, ?_⟩
    rcases run_perform h with ⟨hfailed, hd, -⟩ | ⟨_, c', hread, hc', h⟩
    · obtain ⟨hok, hstate⟩ := settle_none hfailed
      exact Or.inl ⟨hok, (hd.trans hstate).trans hc⟩
    · obtain ⟨hok, hstate⟩ := settle_some hread
      exact Or.inr ⟨hok, c', (hc'.trans hstate).trans hc, h⟩

/-- Once the file is begun, every error of `create` leaves something. -/
theorem leaves_created (source : BackupSource)
    (h : (s.files (.temporaryDatabase id.text)).isSome) :
    Leaves x id ((fs .backups (.protect (.temporaryDatabase id.text))).bind fun _ =>
      (fs .backups (.sync (.temporaryDatabase id.text))).bind fun _ =>
      (verifyDatabase (.temporaryDatabase id.text)).bind fun verified =>
      (publish (.temporaryDatabase id.text) { id := id, source := source, file := verified }).bind
        fun _ =>
      (Admin.perform (.insertManifest { id := id, source := source, file := verified })
        .database).bind fun _ =>
      applyRetention.bind fun _ =>
      .pure (BackupManifest.toRecord { id := id, source := source, file := verified })) s := by
  have hown : Own id (.temporaryDatabase id.text) := Or.inl rfl
  refine Leaves.past hown (fun h => h) h fun _ s h => ?_
  refine Leaves.past hown (fun h => h) h fun _ s h => ?_
  refine Leaves.past hown (fun h => h) h fun verified s h => ?_
  exact leaves_registered rfl h fun _ => trivial

theorem create_iff {source : BackupSource} {first : Reply Page Write}
    {replies : List (Reply Page Write)} {d : Trace Page Write} {e : BackupError}
    (hfresh : Fresh s first.id)
    (h : run (world x) ((first :: replies).map .answer) (.start s) (Admin.create source) =
      (d, some (.error e))) :
    LeavesNothing x s d.state first.id ↔ createTidy s.available source replies = true := by
  unfold Admin.create at h
  by_cases hupload : source = .upload
  · rw [if_pos hupload] at h
    cases h
    refine iff_of_true (leavesNothing_of_same hfresh (fun _ h => h) rfl rfl) ?_
    unfold createTidy
    rw [decide_eq_true hupload]
    split <;> rfl
  rw [if_neg hupload] at h
  simp only [Prog.bind_eq] at h
  have hsource : decide (source = .upload) = false := decide_eq_false hupload
  obtain ⟨timestamp, rest, rfl, ⟨hok, hd⟩ | ⟨hok, c, hc, h⟩⟩ := run_identity hfresh h
  · rw [hd]
    refine iff_of_true (leavesNothing_drawn hfresh) ?_
    unfold createTidy
    cases rest <;> simp [hok]
  cases rest with
  | nil => exact absurd h not_run_nil
  | cons vacuum rest =>
    have htidy : createTidy s.available source (timestamp :: vacuum :: rest) =
        (!s.available || (!vacuum.ok && !vacuum.leaves)) := by
      show (decide (source = .upload) || !timestamp.ok || !s.available ||
        (!vacuum.ok && !vacuum.leaves)) = _
      rw [hsource, hok]
      rfl
    have hserve : serve x (.vacuumInto (.temporaryDatabase first.id.text)) vacuum c.state =
        if s.available then attempt vacuum.ok vacuum.leaves (s.drawn first.id)
          ((s.drawn first.id).put (.temporaryDatabase first.id.text)
            (some (.database vacuum.snapshot)))
          ((s.drawn first.id).put (.temporaryDatabase first.id.text) (some .incomplete))
        else (none, s.drawn first.id) := by
      rw [hc]
      unfold serve
      dsimp only
      have hfree : ((s.drawn first.id).files (.temporaryDatabase first.id.text)).isNone = true := by
        show (s.files _).isNone = true
        rw [hfresh.database]
        rfl
      rw [hfree, Bool.and_true]
      rfl
    rw [htidy]
    rcases run_perform h with ⟨hfailed, hd, -⟩ | ⟨_, c', hbegun, hc', h⟩
    · rw [hserve] at hfailed hd
      by_cases havailable : s.available = true
      · rw [if_pos havailable] at hfailed hd
        unfold attempt at hfailed hd
        by_cases hvacuum : vacuum.ok = true
        · rw [if_pos hvacuum] at hfailed
          cases hfailed
        rw [if_neg hvacuum] at hd
        by_cases hleaves : vacuum.leaves = true
        · -- a part of the copy stays
          rw [if_pos hleaves] at hd
          have hdirty : Dirty d.state first.id := by
            rw [hd]
            exact Or.inl (isSome_put _ _ _)
          refine iff_of_false (hdirty.not_leavesNothing hfresh) ?_
          simp [havailable, hleaves]
        · rw [if_neg hleaves] at hd
          rw [hd]
          refine iff_of_true (leavesNothing_drawn hfresh) ?_
          simp [hvacuum, hleaves]
      · rw [if_neg havailable] at hd
        rw [hd]
        refine iff_of_true (leavesNothing_drawn hfresh) ?_
        simp [havailable]
    · rw [hserve] at hbegun hc'
      by_cases havailable : s.available = true
      · rw [if_pos havailable] at hbegun hc'
        unfold attempt at hbegun hc'
        by_cases hvacuum : vacuum.ok = true
        · rw [if_pos hvacuum] at hc'
          have hexists : (c'.state.files (.temporaryDatabase first.id.text)).isSome := by
            rw [hc']
            exact isSome_put _ _ _
          have hdirty := (leaves_created source hexists).run h
          refine iff_of_false (hdirty.not_leavesNothing hfresh) ?_
          simp [havailable, hvacuum]
        · rw [if_neg hvacuum] at hbegun
          cases hbegun
      · rw [if_neg havailable] at hbegun
        cases hbegun

/-- A call whose error is looked at. -/
theorem run_attempt {k : Call Page Write} {e : BackupError}
    {f : Except BackupError (Value k) → Program Page Write α} {c d : Trace Page Write}
    {reply : Reply Page Write} {replies : List (Reply Page Write)} {result : Except BackupError α}
    (h : run (world x) ((reply :: replies).map .answer) c ((Admin.perform k e).attempt.bind f) =
      (d, some result)) :
    ∃ c', c'.state = (serve x k reply c.state).2 ∧
      ((serve x k reply c.state).1 = none ∧
          run (world x) (replies.map .answer) c' (f (.error e)) = (d, some result) ∨
        ∃ v, (serve x k reply c.state).1 = some v ∧
          run (world x) (replies.map .answer) c' (f (.ok v)) = (d, some result)) := by
  refine ⟨c.served (world x) k reply, rfl, ?_⟩
  cases hreply : (serve x k reply c.state).1 with
  | none =>
    refine Or.inl ⟨rfl, ?_⟩
    rw [← h]
    show _ = run (world x) (replies.map .answer) (c.served (world x) k reply) (Prog.bind _ f)
    rw [show ((world x).serve k reply c.state).1 = none from hreply]
    rfl
  | some v =>
    refine Or.inr ⟨v, rfl, ?_⟩
    rw [← h]
    show _ = run (world x) (replies.map .answer) (c.served (world x) k reply) (Prog.bind _ f)
    rw [show ((world x).serve k reply c.state).1 = some v from hreply]
    rfl

/-! ## Uploads -/

/-- The state with what has been written. -/
def written (s : Directory Page Write) (id : Uuid) (file : File Page Write) :
    Directory Page Write :=
  (s.drawn id).put (.temporaryDatabase id.text) (some file)

theorem put_written (s : Directory Page Write) (id : Uuid) (file : File Page Write)
    (next : Option (File Page Write)) :
    (s.written id file).put (.temporaryDatabase id.text) next =
      (s.drawn id).put (.temporaryDatabase id.text) next := by
  unfold written put
  simp only [Function.update_idem]

theorem verify_written (file : File Page Write) :
    (s.written id file).verify x (.temporaryDatabase id.text) =
      match file with
      | .database image => x image
      | _ => none := by
  have hfile : (s.written id file).files (.temporaryDatabase id.text) = some file :=
    Function.update_self _ _ _
  unfold verify image
  rw [hfile]
  cases file <;> rfl

/-- The state once the file has been verified. -/
def verified (s : Directory Page Write) (id : Uuid) (file : File Page Write) (leaves : Bool) :
    Directory Page Write :=
  if leaves then (s.written id file).leaveWal (.temporaryDatabase id.text) else s.written id file

theorem isSome_verified (file : File Page Write) (leaves : Bool) :
    ((s.verified id file leaves).files (.temporaryDatabase id.text)).isSome := by
  unfold verified
  split <;> exact isSome_put _ _ _

theorem dirty_written (file : File Page Write) : Dirty (s.written id file) id :=
  Or.inl (isSome_put _ _ _)

/-- The file is taken away again. -/
theorem leavesNothing_removed (hfresh : Fresh s id) :
    LeavesNothing x s ((s.drawn id).put (.temporaryDatabase id.text) none) id := by
  refine leavesNothing_of_same hfresh (fun path hpath => ?_) rfl rfl
  by_cases hown : FilePath.temporaryDatabase id.text = path
  · subst hown
    have hgone : ((s.drawn id).put (.temporaryDatabase id.text) none).files
        (.temporaryDatabase id.text) = none := Function.update_self _ _ _
    rw [hgone] at hpath
    cases hpath
  · rw [files_put _ hown] at hpath
    exact hpath

/-- The removal that is not looked at decides what is left, but for the files of SQLite. -/
theorem removal_iff {file : File Page Write} {leaves : Bool} {c d : Trace Page Write}
    {e e' : BackupError} {replies : List (Reply Page Write)} (hfresh : Fresh s id)
    (hc : c.state = s.verified id file leaves)
    (h : run (world x) (replies.map .answer) c ((removeIfExists .backups
      (.temporaryDatabase id.text)).bind fun _ => (.throw e' : Program Page Write α)) =
        (d, some (.error e))) :
    ∃ removal rest, replies = removal :: rest ∧
      (LeavesNothing x s d.state id ↔ (!leaves && removal.ok) = true) := by
  cases replies with
  | nil => cases h
  | cons removal rest =>
    refine ⟨removal, rest, rfl, ?_⟩
    have hd : d.state = (serve x (.fs .backups (.remove (.temporaryDatabase id.text))) removal
        c.state).2 := by
      have hrun : run (world x) ((removal :: rest).map .answer) c ((removeIfExists .backups
        (.temporaryDatabase id.text)).bind fun _ => (.throw e' : Program Page Write α)) =
          (c.served (world x) (.fs .backups (.remove (.temporaryDatabase id.text))) removal,
            some (.error e')) := by
        cases rest <;> rfl
      rw [hrun] at h
      cases h
      rfl
    have hserve : serve x (.fs .backups (.remove (.temporaryDatabase id.text))) removal c.state =
        settle removal.ok (s.verified id file leaves)
          ((s.verified id file leaves).put (.temporaryDatabase id.text) none) := by
      rw [hc]
      rfl
    rw [hd, hserve]
    cases leaves with
    | true =>
      -- the removal is that of the database alone
      have hdirty : Dirty (settle removal.ok (s.verified id file true)
          ((s.verified id file true).put (.temporaryDatabase id.text) none)).2 id := by
        have hwal : (s.verified id file true).walFiles (.temporaryDatabase id.text) = true :=
          Function.update_self _ _ _
        unfold settle
        split <;> exact Or.inr (Or.inr (Or.inl hwal))
      exact iff_of_false (hdirty.not_leavesNothing hfresh) Bool.false_ne_true
    | false =>
      show LeavesNothing x s (settle removal.ok (s.written id file)
        ((s.written id file).put (.temporaryDatabase id.text) none)).2 id ↔ removal.ok = true
      rw [put_written]
      unfold settle
      by_cases hok : removal.ok = true
      · rw [if_pos hok]
        exact iff_of_true (leavesNothing_removed hfresh) hok
      · rw [if_neg hok]
        exact iff_of_false ((dirty_written file).not_leavesNothing hfresh) hok

theorem conclude_iff {file : File Page Write} {c d : Trace Page Write} {e : BackupError}
    {replies : List (Reply Page Write)} {maximumBytes length : Nat} (hfresh : Fresh s id)
    (hc : c.state = s.written id file)
    (h : run (world x) (replies.map .answer) c (conclude id) = (d, some (.error e))) :
    LeavesNothing x s d.state id ↔
      receiveTidy x maximumBytes file length [] replies = true := by
  unfold conclude at h
  dsimp only at h
  cases replies with
  | nil => exact absurd h not_run_nil
  | cons sync replies =>
    rcases run_perform h with ⟨hfailed, hd, -⟩ | ⟨_, c', hsynced, hc', h⟩
    · obtain ⟨hok, hstate⟩ := settle_none hfailed
      have hdirty : Dirty d.state id := by
        rw [(hd.trans hstate).trans hc]
        exact dirty_written file
      refine iff_of_false (hdirty.not_leavesNothing hfresh) ?_
      unfold receiveTidy
      split <;> simp_all
    obtain ⟨hok, hstate⟩ := settle_some hsynced
    have hc' : c'.state = s.written id file := (hc'.trans hstate).trans hc
    cases replies with
    | nil => cases h
    | cons verify replies =>
      obtain ⟨c'', hc'', hverified⟩ := run_attempt h
      have hserve : serve x (.verifyDatabase (.temporaryDatabase id.text)) verify c'.state =
          (if verify.ok then (match file with
            | .database image => x image
            | _ => none) else none, s.verified id file verify.leaves) := by
        have hexists : ((s.written id file).files (.temporaryDatabase id.text)).isSome = true :=
          isSome_put _ _ _
        rw [hc']
        show (if verify.ok then Directory.verify x (s.written id file) _ else none,
          if (verify.leaves && ((s.written id file).files (.temporaryDatabase id.text)).isSome) = true
            then _ else _) = _
        rw [verify_written, hexists, Bool.and_true]
        rfl
      have haccepted : (serve x (.verifyDatabase (.temporaryDatabase id.text)) verify
          c'.state).1.isSome = (verify.ok && accepted x file) := by
        rw [hserve]
        cases verify.ok <;> cases file <;> rfl
      rw [hserve] at hc''
      rcases hverified with ⟨hnone, h⟩ | ⟨verified, hsome, h⟩
      · -- it does not verify
        rw [hnone] at haccepted
        obtain ⟨removal, rest, rfl, hiff⟩ := removal_iff hfresh hc'' h
        rw [hiff]
        show _ ↔ (sync.ok && !(verify.ok && accepted x file) && !verify.leaves && removal.ok) = true
        rw [← haccepted, hok]
        simp
      · rw [hsome] at haccepted
        have hexists : (c''.state.files (.temporaryDatabase id.text)).isSome := by
          rw [hc'']
          exact isSome_verified _ _
        have hdirty := (leaves_registered (f := fun _ => .pure (BackupManifest.toRecord
          { id := id, source := .upload, file := verified })) rfl hexists
          fun _ => trivial).run h
        refine iff_of_false (hdirty.not_leavesNothing hfresh) ?_
        cases replies with
        | nil => exact Bool.false_ne_true
        | cons removal rest =>
          show ¬ (sync.ok && !(verify.ok && accepted x file) && !verify.leaves && removal.ok) = true
          rw [← haccepted]
          simp

theorem receive_iff {file : File Page Write} {c d : Trace Page Write} {e : BackupError}
    {replies : List (Reply Page Write)} {maximumBytes length : Nat}
    {chunks : List (Option (Chunk Page Write))} (hfresh : Fresh s id)
    (hc : c.state = s.written id file)
    (h : run (world x) (replies.map .answer) c
      ((receive (.temporaryDatabase id.text) maximumBytes length chunks).bind fun _ =>
        conclude id) = (d, some (.error e))) :
    LeavesNothing x s d.state id ↔
      receiveTidy x maximumBytes file length chunks replies = true := by
  induction chunks generalizing file length replies c with
  | nil => exact conclude_iff hfresh hc h
  | cons chunk chunks ih =>
    cases chunk with
    | none =>
      -- the stream breaks off
      have hd : d.state = s.written id file := by
        unfold receive at h
        cases replies <;> (cases h; exact hc)
      rw [hd]
      refine iff_of_false ((dirty_written file).not_leavesNothing hfresh) ?_
      cases replies <;> exact Bool.false_ne_true
    | some chunk =>
      unfold receive at h
      by_cases hoverflow : 2 ^ 64 ≤ length + chunk.length
      · rw [if_pos hoverflow] at h
        have hd : d.state = s.written id file := by
          cases replies <;> (cases h; exact hc)
        rw [hd]
        refine iff_of_false ((dirty_written file).not_leavesNothing hfresh) ?_
        cases replies with
        | nil => exact Bool.false_ne_true
        | cons reply replies =>
          unfold receiveTidy
          rw [if_pos hoverflow]
          exact Bool.false_ne_true
      rw [if_neg hoverflow] at h
      by_cases hlimit : maximumBytes < length + chunk.length
      · rw [if_pos hlimit] at h
        simp only [Prog.bind_eq, Prog.bind_assoc] at h
        have hc : c.state = s.verified id file false := hc
        obtain ⟨removal, rest, rfl, hiff⟩ := removal_iff hfresh hc h
        rw [hiff]
        unfold receiveTidy
        rw [if_neg hoverflow, if_pos hlimit]
        rfl
      · rw [if_neg hlimit] at h
        simp only [Prog.bind_eq, Prog.bind_assoc] at h
        cases replies with
        | nil => exact absurd h not_run_nil
        | cons reply replies =>
          unfold receiveTidy
          rw [if_neg hoverflow, if_neg hlimit]
          have hserve : serve x (.fs .backups (.write (.temporaryDatabase id.text) chunk.file))
              reply c.state = if reply.ok then (some (), s.written id chunk.file)
                else (none, s.written id .incomplete) := by
            rw [hc]
            show (if reply.ok then (some (), _) else (none, _)) = _
            rw [put_written, put_written]
            rfl
          rcases run_perform h with ⟨hfailed, hd, -⟩ | ⟨_, c', hwritten, hc', h⟩
          · rw [hserve] at hfailed hd
            by_cases hok : reply.ok = true
            · rw [if_pos hok] at hfailed
              cases hfailed
            · rw [if_neg hok] at hd
              rw [hd]
              refine iff_of_false ((dirty_written _).not_leavesNothing hfresh) ?_
              simp [hok]
          · rw [hserve] at hwritten hc'
            by_cases hok : reply.ok = true
            · rw [if_pos hok] at hc'
              rw [ih hc' h, hok, Bool.true_and]
            · rw [if_neg hok] at hwritten
              cases hwritten

theorem upload_iff {chunks : List (Option (Chunk Page Write))} {maximumBytes : Nat}
    {first : Reply Page Write} {replies : List (Reply Page Write)} {d : Trace Page Write}
    {e : BackupError} (hfresh : Fresh s first.id)
    (h : run (world x) ((first :: replies).map .answer) (.start s)
      (Admin.upload chunks maximumBytes) = (d, some (.error e))) :
    LeavesNothing x s d.state first.id ↔
      uploadTidy x chunks maximumBytes replies = true := by
  rw [upload_eq] at h
  obtain ⟨timestamp, rest, rfl, ⟨hok, hd⟩ | ⟨hok, c, hc, h⟩⟩ := run_identity hfresh h
  · rw [hd]
    refine iff_of_true (leavesNothing_drawn hfresh) ?_
    unfold uploadTidy
    split <;> simp_all
  cases rest with
  | nil => exact absurd h not_run_nil
  | cons create rest =>
    have hserve : serve x (.fs .backups (.create (.temporaryDatabase first.id.text))) create
        c.state = settle create.ok (s.drawn first.id) (s.written first.id .incomplete) := by
      have hfree : (s.drawn first.id).files (.temporaryDatabase first.id.text) = none :=
        hfresh.database
      rw [hc]
      show (if (_ : Bool) = true then _ else _) = _
      rw [hfree]
      rfl
    rcases run_perform h with ⟨hfailed, hd, -⟩ | ⟨_, c', hcreated, hc', h⟩
    · rw [hserve] at hfailed hd
      obtain ⟨hcreate, hstate⟩ := settle_none hfailed
      rw [hd.trans hstate]
      refine iff_of_true (leavesNothing_drawn hfresh) ?_
      unfold uploadTidy
      cases rest <;> simp [hcreate]
    rw [hserve] at hcreated hc'
    obtain ⟨hcreate, hstate⟩ := settle_some hcreated
    have hc' : c'.state = s.written first.id .incomplete := hc'.trans hstate
    cases rest with
    | nil => exact absurd h not_run_nil
    | cons protect rest =>
      have htidy : uploadTidy x chunks maximumBytes (timestamp :: create :: protect :: rest) =
          (protect.ok && receiveTidy x maximumBytes .incomplete 0 chunks rest) := by
        show (!timestamp.ok || !create.ok || (protect.ok && _)) = _
        rw [hok, hcreate]
        rfl
      rw [htidy]
      rcases run_perform h with ⟨hfailed, hd, -⟩ | ⟨_, c'', hprotected, hc'', h⟩
      · obtain ⟨hprotect, hstate⟩ := settle_none hfailed
        rw [(hd.trans hstate).trans hc']
        refine iff_of_false ((dirty_written _).not_leavesNothing hfresh) ?_
        simp [hprotect]
      · obtain ⟨hprotect, hstate⟩ := settle_some hprotected
        rw [receive_iff hfresh ((hc''.trans hstate).trans hc') h, hprotect, Bool.true_and]

/-- **A failed backup leaves nothing exactly when it fails in one of these ways**:
before its file is begun, or, for an upload, over the limit or at the
verification, when that leaves nothing of its own and the file can be removed. -/
theorem leaves_nothing_iff {publication : Publication Page Write} {first : Reply Page Write}
    {replies : List (Reply Page Write)} {d : Trace Page Write} {e : BackupError}
    (hfresh : Fresh s first.id)
    (h : run (world x) ((first :: replies).map .answer) (.start s) publication.program =
      (d, some (.error e))) :
    LeavesNothing x s d.state first.id ↔ publication.tidy x s replies = true := by
  cases publication with
  | create source => exact create_iff hfresh h
  | upload chunks maximumBytes => exact upload_iff hfresh h

namespace Sample

/-- A reply to a call that succeeds. -/
def reply (ok : Bool) : Reply Unit Unit where
  ok := ok
  leaves := false
  id := RemindiCore.Sample.uuid 1
  createdAt := "2026-01-01T00:00:00.000Z"
  snapshot := fun _ => []
  entries := []
  rows := []

def empty : Directory Unit Unit where
  files := fun _ => none
  walFiles := fun _ => false
  rows := []
  retention := some 7
  pool := true
  maintenance := false
  used := []

theorem empty_fresh (id : Uuid) : Fresh empty id :=
  ⟨List.not_mem_nil, fun _ h => absurd h List.not_mem_nil, rfl, rfl, rfl, rfl, rfl⟩

/-- Every file verifies. -/
def accepting : Image Unit Unit → Option VerifiedFile := fun _ => some ⟨"", 1⟩

def replies : List (Reply Unit Unit) := List.replicate 4 (reply true)

/-- An upload of five bytes where four are allowed. -/
def tooLarge : Publication Unit Unit := .upload [some ⟨5, .incomplete⟩] 4

/-- The stream of an upload breaks off. -/
def brokenOff : Publication Unit Unit := .upload [none] 4

/-- The run of an upload on an empty directory, every call of which succeeds. -/
def uploaded (publication : Publication Unit Unit) :
    Trace Unit Unit × Option (Except BackupError BackupRecord) :=
  run (world accepting) ((reply true :: replies).map .answer) (.start empty) publication.program

end Sample

/-- An upload over the limit leaves nothing. -/
theorem sample_leaves_nothing :
    LeavesNothing Sample.accepting Sample.empty (Sample.uploaded Sample.tooLarge).1.state
      (Sample.reply true).id := by
  have hresult : (Sample.uploaded Sample.tooLarge).2 = some (.error .limitExceeded) := rfl
  have hrun : run (world Sample.accepting)
      ((Sample.reply true :: Sample.replies).map .answer) (.start Sample.empty)
      Sample.tooLarge.program = ((Sample.uploaded Sample.tooLarge).1, some (.error .limitExceeded)) :=
    Prod.ext rfl hresult
  exact (leaves_nothing_iff (Sample.empty_fresh _) hrun).mpr (by decide +kernel)

/-- **The file of a stream that breaks off stays.** -/
theorem broken_stream_leaves_file :
    ¬ ∀ (publication : Publication Unit Unit) (first : Reply Unit Unit)
      (replies : List (Reply Unit Unit)) (d : Trace Unit Unit) (e : BackupError),
      Fresh Sample.empty first.id →
        run (world Sample.accepting) ((first :: replies).map .answer) (.start Sample.empty)
          publication.program = (d, some (.error e)) →
            LeavesNothing Sample.accepting Sample.empty d.state first.id := by
  intro h
  have hresult : (Sample.uploaded Sample.brokenOff).2 = some (.error .invalid) := rfl
  have hnothing := h Sample.brokenOff (Sample.reply true) Sample.replies
    (Sample.uploaded Sample.brokenOff).1 .invalid (Sample.empty_fresh _) (Prod.ext rfl hresult)
  have hstays : ((Sample.uploaded Sample.brokenOff).1.state.files
      (.temporaryDatabase (Sample.reply true).id.text)).isSome = true := by decide +kernel
  exact absurd (hnothing.files _ hstays) (by decide)

end RemindiCore.Admin.Directory
