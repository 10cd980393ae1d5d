import RemindiCore.Proof.RestoreSafety

/-!
# Recovery again and again

A recovery that has been stopped, or has failed at a call, is run again at the next
startup.  Wherever it stops, a further run ends with the same journal and the same
live file (`Progress.after`).  What it leaves is read off the journal, the backup
that it names and the frames beside the live file (`liveAfter`, `journalAfter`).

The one thing that goes wrong is the last verification: it reads the backup that
has just been installed through frames of the database before it, and may reject
what it has put in the place of the live file (`recovery_restartable_iff`).
-/

namespace RemindiCore.Admin

open PageLog Fallible

variable {Page Write : Type} [DecidableEq Page]

/-! ## What a recovery leaves -/

namespace State

/-- The image that recovery puts in the place of the live file. -/
def installs (x : Sqlite Page Write) (s : State Page Write) : Option (Image Page Write) :=
  match s.files .journal with
  | some (.journal journal) =>
    if journal.valid && journal.phase.reinstalls then
      (s.image (.backup journal.preRestoreFile)).filter x.verifies
    else none
  | _ => none

/-- Recovery has nothing to reject. -/
def accepts (x : Sqlite Page Write) (s : State Page Write) : Bool :=
  match s.files .journal with
  | none => true
  | some (.journal journal) =>
    journal.valid && (
      if journal.phase.early then (verify x .live s).isSome
      else if journal.phase.reinstalls then
        (s.installs x).any fun image => x.verifies (PageLog.replay image s.log)
      else true)
  | _ => false

def liveAfter (x : Sqlite Page Write) (s : State Page Write) : Option (File Page Write) :=
  match s.installs x with
  | some image => some (.database image)
  | none => s.files .live

def journalAfter (x : Sqlite Page Write) (s : State Page Write) : Option (File Page Write) :=
  if s.accepts x then none else s.files .journal

end State

/-- How far a recovery has come. -/
inductive Progress (x : Sqlite Page Write) (s t : State Page Write) : Prop
  | untouched (files : Untouched s t)
  | replaced (image : Image Page Write) (installs : s.installs x = some image)
      (files : Files s (some .preRestore) (some (.database image)) (s.files .journal) t)
  | removed (installed : Option Role) (accepts : s.accepts x = true)
      (files : Files s installed (s.liveAfter x) none t)

variable {x : Sqlite Page Write} {s t u : State Page Write} {image : Image Page Write}
  {journal : RestoreJournal} {installed : Option Role}

/-! ## The same decision -/

omit [DecidableEq Page] in
theorem Files.image_backup {live journal : Option (File Page Write)}
    (h : Files s installed live journal t) (name : String) :
    t.image (.backup name) = s.image (.backup name) := by
  obtain ⟨files, rfl, -, -, hbackup⟩ := h
  unfold State.image
  rw [show ({ s with files := files, installed := installed } : State Page Write).files
    (.backup name) = s.files (.backup name) from hbackup name]

omit [DecidableEq Page] in
theorem Files.installs {live : Option (File Page Write)}
    (h : Files s installed live (s.files .journal) t) : t.installs x = s.installs x := by
  have himage := h.image_backup
  obtain ⟨files, rfl, -, hjournal, -⟩ := h
  unfold State.installs
  dsimp only
  rw [hjournal]
  split
  · rw [himage]
  · rfl

omit [DecidableEq Page] in
theorem State.liveAfter_of_some (h : s.installs x = some image) :
    s.liveAfter x = some (.database image) := by
  unfold State.liveAfter
  rw [h]

omit [DecidableEq Page] in
theorem State.liveAfter_of_none (h : s.installs x = none) : s.liveAfter x = s.files .live := by
  unfold State.liveAfter
  rw [h]

omit [DecidableEq Page] in
theorem State.installs_eq_some (h : s.installs x = some image) :
    ∃ journal, s.files .journal = some (.journal journal) ∧ journal.valid = true ∧
      journal.phase.reinstalls = true ∧ s.image (.backup journal.preRestoreFile) = some image ∧
      x.verifies image = true := by
  unfold State.installs at h
  split at h
  · next journal hjournal =>
    split at h
    · next hvalid =>
      rw [Bool.and_eq_true] at hvalid
      rw [Option.filter_eq_some_iff] at h
      exact ⟨journal, hjournal, hvalid.1, hvalid.2, h.1, h.2⟩
    · cases h
  · cases h

theorem RestorePhase.not_early {phase : RestorePhase} (h : phase.reinstalls = true) :
    phase.early = false := by
  cases phase <;> first | rfl | cases h

/-- Whether the backup that is put back passes the last verification. -/
theorem State.accepts_of_installs (h : s.installs x = some image) :
    s.accepts x = x.verifies (PageLog.replay image s.log) := by
  obtain ⟨journal, hjournal, hvalid, hreinstalls, -⟩ := State.installs_eq_some h
  unfold State.accepts
  simp only [hjournal, hvalid, hreinstalls, RestorePhase.not_early hreinstalls, h, Option.any_some,
    Bool.true_and, if_true, Bool.false_eq_true, if_false]

/-- **From wherever a recovery has stopped, the next one ends as it would have.** -/
theorem Progress.after (h : Progress x s t) :
    t.liveAfter x = s.liveAfter x ∧ t.journalAfter x = s.journalAfter x := by
  cases h with
  | untouched files =>
    have hinstalls : t.installs x = s.installs x := files.installs
    have hverify : verify x .live t = verify x .live s := by
      have hcontent : t.content = s.content := files.content
      obtain ⟨_, rfl, hlive, -⟩ := files
      unfold verify
      rw [hcontent, State.image_of_files hlive]
    obtain ⟨files, rfl, hlive, hjournal, -⟩ := files
    have haccepts : State.accepts x { s with files := files, installed := s.installed } =
        s.accepts x := by
      unfold State.accepts
      rw [hinstalls, hverify]
      dsimp only
      rw [hjournal]
    unfold State.liveAfter State.journalAfter
    rw [hinstalls, haccepts]
    dsimp only
    rw [hlive, hjournal]
    exact ⟨rfl, rfl⟩
  | replaced image installs files =>
    have hinstalls : t.installs x = some image := files.installs.trans installs
    have haccepts : t.accepts x = s.accepts x := by
      rw [State.accepts_of_installs hinstalls, State.accepts_of_installs installs]
      obtain ⟨files, rfl, -⟩ := files
      rfl
    constructor
    · rw [State.liveAfter_of_some hinstalls, State.liveAfter_of_some installs]
    · unfold State.journalAfter
      rw [haccepts]
      obtain ⟨files, rfl, -, hjournal, -⟩ := files
      dsimp only
      rw [hjournal]
  | removed installed accepts files =>
    obtain ⟨files, rfl, hlive, hjournal, -⟩ := files
    have hinstalls : State.installs x { s with files := files, installed := installed } = none := by
      unfold State.installs
      dsimp only
      rw [hjournal]
    constructor
    · rw [State.liveAfter_of_none hinstalls]
      exact hlive
    · unfold State.journalAfter
      rw [accepts]
      dsimp only
      rw [hjournal]
      split <;> rfl

/-! ## One recovery -/

/-- What a recovery has done when it returns; without a failing call it has come to
its end. -/
structure Outcome (x : Sqlite Page Write) (faultless : Prop) (s : State Page Write)
    (result : Except BackupError Bool) (t : State Page Write) : Prop where
  progress : Progress x s t
  ok : ∀ b, result = .ok b → s.accepts x = true ∧ t.files .live = s.liveAfter x ∧
    t.files .journal = none
  error : ∀ e, result = .error e → faultless → s.accepts x = false ∧
    t.files .live = s.liveAfter x ∧ t.files .journal = s.files .journal

/-- Wherever the program stops the recovery has come so far, and `post` holds when
it returns; when the recovery is faultless no call fails by itself. -/
abbrev Proceeds {α : Type} (x : Sqlite Page Write) (faultless : Prop) (s : State Page Write)
    (post : Except BackupError α → State Page Write → Prop) (m : Program Page Write α)
    (t : State Page Write) : Prop :=
  Ensures (world x) (fun a => faultless → a.ok = true) (Progress x s) post m t

section

variable {faultless : Prop} {α : Type}

omit [DecidableEq Page] in
theorem settle_state (ok : Bool) (s : State Page Write) : (settle ok s s).2 = s := by
  cases ok <;> rfl

theorem isSome_verify {path : FilePath} : (verify x path s).isSome =
    (s.image path).any fun image => x.verifies (if path = .live then s.content else image) := by
  unfold verify
  cases s.image path with
  | none => rfl
  | some image =>
    show (if _ then some (x.hashFile image) else none).isSome = x.verifies _
    cases x.verifies (if path = .live then s.content else image) <;> rfl

theorem proceeds_verify {path : FilePath} (hprogress : Progress x s t) :
    Proceeds x faultless s (fun result u => u = t ∧ match result with
      | .ok _ => (verify x path t).isSome = true
      | .error _ => faultless → (verify x path t).isSome = false) (verifyDatabase path) t := by
  refine Ensures.perform (k := Call.verifyDatabase path) hprogress (fun a verified _ hverified => ?_)
    fun a ha hnone => ⟨rfl, fun hf => ?_⟩
  · have hreply : (if a.ok then verify x path t else none) = some verified := hverified
    rw [Option.ite_none_right_eq_some] at hreply
    exact ⟨rfl, Option.isSome_iff_exists.mpr ⟨verified, hreply.2⟩⟩
  · have hreply : (if a.ok then verify x path t else none) = none := hnone
    rw [ha hf, if_pos rfl] at hreply
    exact Option.isSome_eq_false_iff.mpr (Option.isNone_iff_eq_none.mpr hreply)

theorem proceeds_fs {caller : Caller} {call : FsCall Page Write}
    {post : Except BackupError Unit → State Page Write → Prop} (hprogress : Progress x s t)
    (hok : ∀ ok, (serveFs caller call ok t).1 = some () →
      post (.ok ()) (serveFs caller call ok t).2)
    (herror : ∀ ok, (faultless → ok = true) → (serveFs caller call ok t).1 = none →
      post (.error .io) (serveFs caller call ok t).2) :
    Proceeds x faultless s post (fs caller call) t :=
  Ensures.perform (k := Call.fs caller call) hprogress (fun a _ _ hvalue => hok a.ok hvalue)
    fun a ha hnone => herror a.ok ha hnone

/-- A file system call that only syncs or protects. -/
theorem proceeds_settling {caller : Caller} {call : FsCall Page Write}
    {post : Except BackupError Unit → State Page Write → Prop} (hprogress : Progress x s t)
    (hcall : ∀ ok, serveFs caller call ok t = settle ok t t) (hok : post (.ok ()) t)
    (herror : ¬ faultless → post (.error .io) t) :
    Proceeds x faultless s post (fs caller call) t := by
  refine proceeds_fs hprogress (fun ok _ => ?_) fun ok hfaultless hnone => ?_
  · rw [hcall, settle_state]
    exact hok
  · rw [hcall, settle_state]
    refine herror fun hf => ?_
    rw [hcall, hfaultless hf] at hnone
    cases hnone

/-- The copy is made. -/
theorem proceeds_copy {caller : Caller} {source staged : FilePath} {file : File Page Write}
    (huntouched : Untouched s t) (hsource : t.files source = some file)
    (hstaged : staged.scratch = true) :
    Proceeds x faultless s (fun result u => match result with
      | .ok () => Untouched s u ∧ u.files staged = some file
      | .error _ => Progress x s u ∧ ¬ faultless) (fs caller (.copy source staged)) t := by
  have hcall : (FsCall.copy source staged : FsCall Page Write).scratch = true := hstaged
  have hfiles : ∀ ok, Untouched s (serveFs caller (.copy source staged) ok t).2 :=
    fun ok => huntouched.scratch hcall ok
  refine proceeds_fs (.untouched huntouched) (fun ok hvalue => ⟨hfiles ok, ?_⟩)
    fun ok hfaultless hnone => ⟨.untouched (hfiles ok), fun hf => ?_⟩
  · cases ok with
    | false => simp [serveFs, hsource] at hvalue
    | true => simp [serveFs, hsource]
  · simp [serveFs, hsource, hfaultless hf] at hnone

/-- The copy takes the place of the live file. -/
theorem proceeds_swap {operationId : String} (huntouched : Untouched s t)
    (hstaged : t.files (.staged operationId) = some (.database image)) :
    Proceeds x faultless s (fun result u => match result with
      | .ok () => Files s (some .preRestore) (some (.database image)) (s.files .journal) u
      | .error _ => Progress x s u ∧ ¬ faultless)
      (fs (.installDatabase .preRestore) (.rename (.staged operationId) .live)) t := by
  have hcall : ∀ ok, serveFs (.installDatabase .preRestore) (.rename (.staged operationId) .live)
      ok t = settle ok t (t.replaced .preRestore operationId (.database image)) := by
    intro ok
    simp [serveFs, hstaged, State.replaced]
  refine proceeds_fs (.untouched huntouched) (fun ok hvalue => ?_)
    fun ok hfaultless hnone => ?_
  · rw [hcall] at hvalue ⊢
    cases ok with
    | false => cases hvalue
    | true =>
      obtain ⟨files, rfl, -, hjournal, hbackup⟩ := huntouched
      refine ⟨_, rfl, ?_, ?_, fun name => ?_⟩
      · simp
      · simpa using hjournal
      · simpa using hbackup name
  · rw [hcall] at hnone ⊢
    cases ok with
    | false => exact ⟨.untouched huntouched, fun hf => by cases hfaultless hf⟩
    | true => cases hnone

/-- `install_database`, from a state in which nothing that is read has changed. -/
theorem proceeds_install {name operationId : String} (huntouched : Untouched s t)
    (hbackup : s.files (.backup name) = some (.database image))
    (hinstalls : s.installs x = some image) :
    Proceeds x faultless s (fun result u => match result with
      | .ok () => Files s (some .preRestore) (some (.database image)) (s.files .journal) u
      | .error _ => Progress x s u ∧ ¬ faultless)
      (installDatabase .preRestore (.backup name) operationId) t := by
  unfold installDatabase
  simp only [Prog.bind_eq]
  refine Ensures.bind (Ensures.ignore (.untouched huntouched) fun a _ => ?_)
  have hremoved : Untouched s (serveFs (.installDatabase .preRestore)
      (.remove (.staged operationId)) a.ok t).2 := huntouched.scratch rfl a.ok
  show Proceeds x faultless s _ _ (serveFs _ _ a.ok t).2
  generalize (serveFs (.installDatabase .preRestore) (.remove (.staged operationId)) a.ok t).2 = u
    at hremoved ⊢
  have hsource : u.files (.backup name) = some (.database image) := by
    obtain ⟨files, rfl, -, -, hsame⟩ := hremoved
    exact (hsame name).trans hbackup
  refine Ensures.bind ((proceeds_copy hremoved hsource rfl).mono ?_)
  rintro (e | ⟨⟩) u hu
  · exact hu
  obtain ⟨hu, hstaged⟩ := hu
  have hpoint : Progress x s u := .untouched hu
  refine Ensures.bind (proceeds_settling hpoint (fun ok => rfl) ?_ fun hf => ⟨hpoint, hf⟩)
  refine Ensures.bind (proceeds_settling hpoint (fun ok => rfl) ?_ fun hf => ⟨hpoint, hf⟩)
  refine Ensures.bind ((proceeds_swap hu hstaged).mono ?_)
  rintro (e | ⟨⟩) u hu
  · exact hu
  exact proceeds_settling (.replaced image hinstalls hu) (fun ok => rfl) hu
    fun hf => ⟨.replaced image hinstalls hu, hf⟩

/-- The end of a recovery that rejects nothing. -/
theorem proceeds_end (hprogress : Progress x s t) (haccepts : s.accepts x = true)
    (hfiles : Files s installed (s.liveAfter x) (s.files .journal) t) :
    Proceeds x faultless s (Outcome x faultless s) (do
      fs .recoverInterrupted (.remove .journal)
      fs .recoverInterrupted .syncDirectory
      .pure true) t := by
  simp only [Prog.bind_eq]
  refine Ensures.bind (proceeds_fs hprogress (fun ok hvalue => ?_) fun ok hfaultless hnone => ?_)
  · cases ok with
    | false => cases hvalue
    | true =>
      have hremoved : Files s installed (s.liveAfter x) none
          (serveFs .recoverInterrupted (.remove .journal) true t).2 := by
        obtain ⟨files, rfl, hlive, -, hbackup⟩ := hfiles
        simp only [serveFs, settle, if_true]
        refine ⟨_, rfl, ?_, ?_, fun name => ?_⟩
        · simpa using hlive
        · simp
        · simpa using hbackup name
      have hpoint := Progress.removed (x := x) installed haccepts hremoved
      refine Ensures.bind (proceeds_settling hpoint (fun ok => rfl) ?_ fun hf => ?_)
      · refine ⟨hpoint, fun b _ => ⟨haccepts, ?_⟩, fun e he => by cases he⟩
        obtain ⟨files, hstate, hlive, hjournal, -⟩ := hremoved
        rw [hstate]
        exact ⟨hlive, hjournal⟩
      · exact ⟨hpoint, fun b hb => (by cases hb), fun e _ hfaultless => absurd hfaultless hf⟩
  · cases ok with
    | true => cases hnone
    | false =>
      exact ⟨hprogress, fun b hb => (by cases hb), fun e _ hf => by cases hfaultless hf⟩

omit [DecidableEq Page] in
theorem image_eq_some_iff {path : FilePath} :
    s.image path = some image ↔ s.files path = some (.database image) := by
  unfold State.image
  constructor
  · intro h
    split at h
    · next himage =>
      obtain rfl := Option.some.inj h
      exact himage
    · cases h
  · intro h
    rw [h]

theorem Outcome.rejected {e : BackupError} (hprogress : Progress x s t)
    (h : faultless → s.accepts x = false ∧ t.files .live = s.liveAfter x ∧
      t.files .journal = s.files .journal) : Outcome x faultless s (.error e) t where
  progress := hprogress
  ok := fun _ hb => (nomatch hb)
  error := fun _ _ hf => h hf

/-- A recovery that rejects the journal or a file has touched nothing. -/
theorem Outcome.untouched {e : BackupError}
    (h : faultless → s.accepts x = false ∧ s.installs x = none) :
    Outcome x faultless s (.error e) s :=
  .rejected (.untouched .refl) fun hf =>
    ⟨(h hf).1, (State.liveAfter_of_none (h hf).2).symm, rfl⟩

theorem Files.content_live {live journal : Option (File Page Write)}
    (h : Files s installed live journal t) (hlive : live = some (.database image)) :
    (verify x .live t).isSome = x.verifies (PageLog.replay image s.log) := by
  obtain rfl := hlive
  have hcontent := h.content_database
  obtain ⟨files, rfl, hfile, -⟩ := h
  rw [isSome_verify]
  simp only [if_true, hcontent]
  unfold State.image
  dsimp only
  rw [hfile]
  rfl

/-- The work that the journal asks for. -/
theorem proceeds_recover (hjournal : s.files .journal = some (.journal journal))
    (hvalid : journal.valid = true) :
    Proceeds x faultless s (fun result t => match result with
      | .ok () => s.accepts x = true ∧ Progress x s t ∧
        ∃ installed, Files s installed (s.liveAfter x) (s.files .journal) t
      | .error e => Outcome x faultless s (.error e) t) (recover journal) s := by
  have hpoint : Progress x s s := .untouched .refl
  unfold recover
  cases hearly : journal.phase.early with
  | true =>
    have hnone : s.installs x = none := by
      unfold State.installs
      simp [hjournal, RestorePhase.reinstalls, hearly]
    have haccepts : s.accepts x = (verify x .live s).isSome := by
      unfold State.accepts
      simp [hjournal, hvalid, hearly]
    rw [if_pos rfl]
    refine Ensures.bind ((proceeds_verify hpoint).mono ?_)
    rintro (e | verified) u ⟨rfl, hverified⟩
    · exact .untouched fun hf => ⟨haccepts.trans (hverified hf), hnone⟩
    · refine ⟨haccepts.trans hverified, hpoint, u.installed, ?_⟩
      rw [State.liveAfter_of_none hnone]
      exact Untouched.refl
  | false =>
    rw [if_neg Bool.false_ne_true]
    by_cases hsucceeded : journal.phase = .succeeded
    · rw [if_neg (not_not.mpr hsucceeded)]
      have hnone : s.installs x = none := by
        unfold State.installs
        simp [hjournal, RestorePhase.reinstalls, hsucceeded]
      refine ⟨?_, hpoint, s.installed, ?_⟩
      · unfold State.accepts
        simp [hjournal, hvalid, RestorePhase.reinstalls, RestorePhase.early, hsucceeded]
      · rw [State.liveAfter_of_none hnone]
        exact Untouched.refl
    rw [if_pos hsucceeded]
    have hreinstalls : journal.phase.reinstalls = true := by
      simp [RestorePhase.reinstalls, hearly, hsucceeded]
    have hinstalls : s.installs x =
        (s.image (.backup journal.preRestoreFile)).filter x.verifies := by
      unfold State.installs
      simp [hjournal, hvalid, hreinstalls]
    refine Ensures.bind ((proceeds_verify hpoint).mono ?_)
    rintro (e | verified) u ⟨rfl, hverified⟩
    · rw [isSome_verify] at hverified
      have hnone : faultless → u.installs x = none := by
        intro hf
        rw [hinstalls, Option.filter_eq_none_iff]
        intro image himage hverifies
        have hfalse := hverified hf
        rw [himage] at hfalse
        exact Bool.false_ne_true (hfalse.symm.trans hverifies)
      refine .untouched fun hf => ⟨?_, hnone hf⟩
      unfold State.accepts
      simp [hjournal, hvalid, hreinstalls, hearly, hnone hf]
    obtain ⟨image, himage, hverifies⟩ : ∃ image,
        u.image (.backup journal.preRestoreFile) = some image ∧ x.verifies image = true := by
      rw [isSome_verify, Option.any_eq_true] at hverified
      exact hverified
    have hsome : u.installs x = some image := by
      rw [hinstalls, himage]
      exact Option.filter_some_pos hverifies
    refine Ensures.bind ((proceeds_install .refl (image_eq_some_iff.mp himage) hsome).mono ?_)
    rintro (e | ⟨⟩) t ht
    · exact .rejected ht.1 fun hf => absurd hf ht.2
    have hreplaced : Progress x u t := .replaced image hsome ht
    refine Ensures.bind ((proceeds_verify hreplaced).mono ?_)
    rintro (e | verified) v ⟨rfl, hverified⟩
    · refine .rejected hreplaced fun hf => ⟨?_, ?_⟩
      · rw [State.accepts_of_installs hsome, ← ht.content_live rfl]
        exact hverified hf
      · rw [State.liveAfter_of_some hsome]
        obtain ⟨files, rfl, hlive, hsame, -⟩ := ht
        exact ⟨hlive, hsame⟩
    · refine ⟨?_, hreplaced, some .preRestore, ?_⟩
      · rw [State.accepts_of_installs hsome, ← ht.content_live rfl]
        exact hverified
      · rw [State.liveAfter_of_some hsome]
        exact ht

theorem readJournal_state (a : Answer Page Write) : (serve x .readJournal a s).2 = s := by
  simp only [serve]
  split <;> rfl

theorem readJournal_found {a : Answer Page Write} {found : Option RestoreJournal}
    (h : (serve x .readJournal a s).1 = some found) : s.files .journal = found.map .journal := by
  simp only [serve] at h
  split at h
  · next hnone =>
    obtain ⟨-, hfound⟩ := Option.ite_none_right_eq_some.mp h
    obtain rfl := Option.some.inj hfound
    exact hnone
  · next journal hjournal =>
    obtain ⟨-, hfound⟩ := Option.ite_none_right_eq_some.mp h
    obtain rfl := Option.some.inj hfound
    exact hjournal
  · cases h

theorem readJournal_failed {a : Answer Page Write} (ha : a.ok = true)
    (h : (serve x .readJournal a s).1 = none) : s.accepts x = false ∧ s.installs x = none := by
  unfold State.accepts State.installs
  cases hfile : s.files .journal with
  | none => simp [serve, hfile, ha] at h
  | some file =>
    cases file with
    | journal journal => simp [serve, hfile, ha] at h
    | _ => exact ⟨rfl, rfl⟩

/-- **What one recovery does**, with whatever answers. -/
theorem proceeds_recoverInterrupted :
    Proceeds x faultless s (Outcome x faultless s) recoverInterrupted s := by
  have hpoint : Progress x s s := .untouched .refl
  unfold recoverInterrupted
  refine Ensures.bind (Ensures.perform (k := Call.readJournal) hpoint
    (fun a found _ hfound => ?_) fun a ha hnone => ?_)
  · rw [show (world x).serve = serve x from rfl] at hfound ⊢
    rw [readJournal_state]
    have hread : s.files .journal = found.map .journal := readJournal_found hfound
    cases found with
    | none =>
      have hinstalls : s.installs x = none := by
        unfold State.installs
        rw [hread]
        rfl
      refine ⟨hpoint, fun b _ => ⟨?_, ?_, hread⟩, fun e he => (nomatch he)⟩
      · unfold State.accepts
        rw [hread]
        rfl
      · exact (State.liveAfter_of_none hinstalls).symm
    | some journal =>
      have hjournal : s.files .journal = some (.journal journal) := hread
      dsimp only
      cases hvalid : journal.valid with
      | false =>
        refine .untouched fun _ => ?_
        unfold State.accepts State.installs
        simp [hjournal, hvalid]
      | true =>
        simp only [Bool.not_true, Bool.false_eq_true, if_false, Prog.bind_eq]
        refine Ensures.bind ((proceeds_recover hjournal hvalid).mono ?_)
        rintro (e | ⟨⟩) t ht
        · exact ht
        obtain ⟨haccepts, hprogress, installed, hfiles⟩ := ht
        exact proceeds_end hprogress haccepts hfiles
  · rw [show (world x).serve = serve x from rfl] at hnone ⊢
    rw [readJournal_state]
    exact .untouched fun hf => readJournal_failed (ha hf) hnone

end

/-! ### The number of calls -/

omit [DecidableEq Page] in
theorem within_fs {caller : Caller} {call : FsCall Page Write} :
    Prog.Within 1 (fs caller call) :=
  fun reply => by cases reply <;> trivial

omit [DecidableEq Page] in
theorem installDatabase_within {role : Role} {source : FilePath} {operationId : String} :
    Prog.Within 6 (installDatabase role source operationId : Program Page Write Unit) := by
  unfold installDatabase
  simp only [Prog.bind_eq]
  apply Prog.Within.bind (n := 1) (k := 5) Prog.Within.ignore
  intro _
  apply Prog.Within.bind (n := 1) (k := 4) within_fs
  intro _
  apply Prog.Within.bind (n := 1) (k := 3) within_fs
  intro _
  apply Prog.Within.bind (n := 1) (k := 2) within_fs
  intro _
  apply Prog.Within.bind (n := 1) (k := 1) within_fs
  intro _
  exact within_fs

omit [DecidableEq Page] in
theorem within_verify {path : FilePath} :
    Prog.Within 1 (verifyDatabase path : Program Page Write VerifiedFile) :=
  fun reply => by cases reply <;> trivial

omit [DecidableEq Page] in
theorem recover_within : Prog.Within 8 (recover journal : Program Page Write Unit) := by
  unfold recover
  split
  · apply Prog.Within.bind (n := 1) (k := 7) within_verify
    intro _
    trivial
  split
  · apply Prog.Within.bind (n := 1) (k := 7) within_verify
    intro _
    apply Prog.Within.bind (n := 6) (k := 1) installDatabase_within
    intro _
    apply Prog.Within.bind (n := 1) (k := 0) within_verify
    intro _
    trivial
  · trivial

omit [DecidableEq Page] in
/-- A recovery makes eleven calls at most. -/
theorem recoverInterrupted_within :
    Prog.Within 11 (recoverInterrupted : Program Page Write Bool) := by
  unfold recoverInterrupted
  simp only [Prog.bind_eq]
  apply Prog.Within.bind (n := 1) (k := 10) Prog.Within.perform
  intro found
  cases found with
  | none => trivial
  | some journal =>
    dsimp only
    split
    · trivial
    apply Prog.Within.bind (n := 8) (k := 2) recover_within
    intro _
    apply Prog.Within.bind (n := 1) (k := 1) within_fs
    intro _
    apply Prog.Within.bind (n := 1) (k := 0) within_fs
    intro _
    trivial

/-! ## Every run -/

/-- A recovery with these answers. -/
abbrev attempt (x : Sqlite Page Write) (s : State Page Write)
    (answers : List (Answer Page Write)) : Conf Page Write × Option (Except BackupError Bool) :=
  recoveryRun x s (answers.map .answer)

/-- Recoveries that have been stopped, or have returned, one after another. -/
inductive Attempts (x : Sqlite Page Write) (s : State Page Write) : State Page Write → Prop
  | first : Attempts x s s
  | again {t : State Page Write} (h : Attempts x s t) (answers : List (Answer Page Write)) :
      Attempts x s (attempt x t answers).1.state

/-- A recovery that is not interrupted, and none of whose calls fails by itself. -/
def Completes (x : Sqlite Page Write) (s : State Page Write) (result : Except BackupError Bool)
    (t : State Page Write) : Prop :=
  ∃ answers : List (Answer Page Write), (∀ a ∈ answers, a.ok = true) ∧
    (attempt x s answers).2 = some result ∧ (attempt x s answers).1.state = t

/-- **Recovery can be interrupted and run again.** -/
structure Restartable (x : Sqlite Page Write) (s : State Page Write) : Prop where
  completes : ∀ t, Attempts x s t → ∃ result u, Completes x t result u
  /-- The journal and the live file are those of one uninterrupted recovery. -/
  same : ∀ t, Attempts x s t → ∀ result u, Completes x t result u →
    ∀ result' u', Completes x s result' u' →
      u.files .journal = u'.files .journal ∧ u.files .live = u'.files .live
  /-- A recovery that rejects what it finds has not touched the live file. -/
  rejected : ∀ t, Attempts x s t → ∀ e u, Completes x t (.error e) u →
    u.files .live = s.files .live
  /-- After a recovery that has succeeded a further one changes nothing. -/
  settled : ∀ t, Attempts x s t → ∀ answers b, (attempt x t answers).2 = some (.ok b) →
    ∀ answers', (attempt x (attempt x t answers).1.state answers').1.state =
      (attempt x t answers).1.state

variable {answers : List (Answer Page Write)}

theorem attempt_progress (x : Sqlite Page Write) (s : State Page Write)
    (answers : List (Answer Page Write)) : Progress x s (attempt x s answers).1.state := by
  have hproceeds : Proceeds x False s (Outcome x False s) recoverInterrupted s :=
    proceeds_recoverInterrupted
  have hrun := hproceeds.run answers fun a _ hf => hf.elim
  cases hresult : (attempt x s answers).2 with
  | none => exact hrun.2 hresult
  | some result => exact (hrun.1 result hresult).progress

theorem attempt_ok {b : Bool} (h : (attempt x s answers).2 = some (.ok b)) :
    s.accepts x = true ∧ (attempt x s answers).1.state.files .live = s.liveAfter x ∧
      (attempt x s answers).1.state.files .journal = none := by
  have hproceeds : Proceeds x False s (Outcome x False s) recoverInterrupted s :=
    proceeds_recoverInterrupted
  exact ((hproceeds.run answers fun _ _ hf => hf.elim).1 _ h).ok b rfl

theorem Attempts.after (h : Attempts x s t) :
    t.liveAfter x = s.liveAfter x ∧ t.journalAfter x = s.journalAfter x := by
  induction h with
  | first => exact ⟨rfl, rfl⟩
  | @again t h answers ih =>
    have hafter := (attempt_progress x t answers).after
    exact ⟨hafter.1.trans ih.1, hafter.2.trans ih.2⟩

theorem Completes.outcome {result : Except BackupError Bool} (h : Completes x s result t) :
    Outcome x True s result t := by
  obtain ⟨answers, hok, hresult, rfl⟩ := h
  have hproceeds : Proceeds x True s (Outcome x True s) recoverInterrupted s :=
    proceeds_recoverInterrupted
  exact (hproceeds.run answers fun a ha _ => hok a ha).1 result hresult

theorem Completes.files {result : Except BackupError Bool} (h : Completes x s result t) :
    t.files .live = s.liveAfter x ∧ t.files .journal = s.journalAfter x := by
  have houtcome := h.outcome
  unfold State.journalAfter
  cases result with
  | ok b =>
    obtain ⟨haccepts, hlive, hjournal⟩ := houtcome.ok b rfl
    rw [haccepts]
    exact ⟨hlive, hjournal⟩
  | error e =>
    obtain ⟨haccepts, hlive, hjournal⟩ := houtcome.error e rfl trivial
    rw [haccepts]
    exact ⟨hlive, hjournal⟩

theorem exists_completes (x : Sqlite Page Write) (s : State Page Write) :
    ∃ result t, Completes x s result t := by
  let a : Answer Page Write :=
    { ok := true, id := Sample.uuid 0, entries := [], surplus := [], records := [], changes := [],
      truncated := false }
  obtain ⟨result, hresult⟩ := recoverInterrupted_within.returns (w := world x)
    (List.replicate 11 a) (by simp) (.start s)
  exact ⟨result, _, List.replicate 11 a, fun a' ha' => by rw [List.eq_of_mem_replicate ha'],
    hresult, rfl⟩

/-- What recovery puts in the place of the live file passes the last verification, or
is there already. -/
def Fits (x : Sqlite Page Write) (s : State Page Write) : Prop :=
  ∀ image, s.installs x = some image →
    x.verifies (PageLog.replay image s.log) = true ∨ s.files .live = some (.database image)

/-- A journal that is gone is accepted. -/
theorem State.accepts_of_none (h : s.files .journal = none) : s.accepts x = true := by
  unfold State.accepts
  rw [h]

theorem Fits.rejected {e : BackupError} (h : Fits x s) (hattempts : Attempts x s t)
    (hcompletes : Completes x t (.error e) u) : u.files .live = s.files .live := by
  have hlive : u.files .live = s.liveAfter x := hcompletes.files.1.trans hattempts.after.1
  cases hinstalls : s.installs x with
  | none => rw [hlive, State.liveAfter_of_none hinstalls]
  | some image =>
    rcases h image hinstalls with hverifies | hsame
    · -- the recovery accepts, so that no attempt can reject
      have haccepts : s.accepts x = true := (State.accepts_of_installs hinstalls).trans hverifies
      have hafter : t.journalAfter x = none := by
        rw [hattempts.after.2]
        unfold State.journalAfter
        rw [haccepts]
        rfl
      obtain ⟨hrejects, -, hjournal⟩ := hcompletes.outcome.error e rfl trivial
      unfold State.journalAfter at hafter
      rw [hrejects] at hafter
      have hcontra := State.accepts_of_none (x := x) hafter
      rw [hrejects] at hcontra
      cases hcontra
    · rw [hlive, State.liveAfter_of_some hinstalls, hsame]

/-- Without a journal a recovery changes nothing. -/
theorem attempt_of_none (h : s.files .journal = none) (answers : List (Answer Page Write)) :
    (attempt x s answers).1.state = s := by
  have hensures : Ensures (world x) (fun _ => True) (fun t => t = s)
      (fun (_ : Except BackupError Bool) t => t = s) recoverInterrupted s := by
    unfold recoverInterrupted
    refine Ensures.bind (Ensures.perform (k := Call.readJournal) rfl (fun a found _ hfound => ?_)
      fun a _ _ => ?_)
    · have hread := readJournal_found (x := x) hfound
      rw [h] at hread
      cases found with
      | none => exact readJournal_state (x := x) a
      | some journal => cases hread
    · exact readJournal_state (x := x) a
  have hrun := hensures.run answers fun _ _ => trivial
  cases hresult : (attempt x s answers).2 with
  | none => exact hrun.2 hresult
  | some result => exact hrun.1 result hresult

/-- **Recovery can be interrupted and run again exactly when** what it puts in the
place of the live file passes the last verification, or is there already. -/
theorem recovery_restartable_iff (x : Sqlite Page Write) (s : State Page Write) :
    Restartable x s ↔ Fits x s := by
  constructor
  · intro h image hinstalls
    by_contra hnot
    rw [not_or, Bool.not_eq_true] at hnot
    obtain ⟨hverifies, hlive⟩ := hnot
    have haccepts : s.accepts x = false := (State.accepts_of_installs hinstalls).trans hverifies
    obtain ⟨result, t, hcompletes⟩ := exists_completes x s
    have hafter := hcompletes.files.1
    rw [State.liveAfter_of_some hinstalls] at hafter
    cases result with
    | ok b =>
      have hok := (hcompletes.outcome.ok b rfl).1
      rw [haccepts] at hok
      cases hok
    | error e => exact hlive ((h.rejected s .first e t hcompletes).symm.trans hafter)
  · intro h
    refine ⟨fun t _ => exists_completes x t, ?_, fun t ht e u hu => h.rejected ht hu, ?_⟩
    · intro t ht result u hu result' u' hu'
      obtain ⟨hlive, hjournal⟩ := hu.files
      obtain ⟨hlive', hjournal'⟩ := hu'.files
      rw [hlive, hjournal, hlive', hjournal', ht.after.1, ht.after.2]
      exact ⟨rfl, rfl⟩
    · intro t _ answers b hok answers'
      exact attempt_of_none (attempt_ok hok).2.2 answers'

/-! ## Samples -/

namespace Sample

/-- A database whose two pages differ is not a valid one. -/
def checked : Sqlite Bool Nat where
  vacuum := id
  holds_vacuum := sqlite.holds_vacuum
  verifies := fun image => image false = image true
  hashFile := fun _ => { sha256 := "0", sizeBytes := 1 }

def interrupted : RestoreJournal where
  operationId := (Sample.uuid 1).text
  phase := .workloadsQuiesced
  candidateFile := candidate.fileName
  preRestoreFile := backupFileName (Sample.uuid 2)

/-- A restore stopped after its journal: the log still holds a transaction. -/
def stopped : State Bool Nat where
  files := fun path => match path with
    | .live => some (.database fun _ => [0])
    | .backup name => if name = interrupted.preRestoreFile then some (.database fun _ => []) else none
    | .journal => some (.journal interrupted)
    | _ => none
  log := [(false, [0])]
  records := []
  pool := false
  maintenance := false
  committed := [0]
  atSnapshot := some []
  atMaintenance := some [0]
  installed := none

end Sample

/-- The backup is valid, and so is what the live path yields; the backup under the log
is rejected after it has taken the place of the live file. -/
theorem sample_rejected_too_late : ¬ Restartable Sample.checked Sample.stopped := by
  intro h
  have hlive := h.rejected Sample.stopped .first .invalid _
    ⟨List.replicate 11 (Sample.answer true), fun a ha => by rw [List.eq_of_mem_replicate ha]; rfl,
      by decide +kernel, rfl⟩
  have hchanged : (attempt Sample.checked Sample.stopped
      (List.replicate 11 (Sample.answer true))).1.state.main true ≠ Sample.stopped.main true := by
    decide +kernel
  refine hchanged ?_
  unfold State.main State.image
  rw [hlive]

end RemindiCore.Admin
