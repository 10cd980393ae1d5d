import RemindiCore.Admin.Directory

/-!
# What a call leaves alone

The files that a call may write, and the records it keeps, in the world of the
backup directory.
-/

namespace RemindiCore.Admin.Directory

open Fallible

variable {Page Write : Type} {x : Image Page Write → Option VerifiedFile}
  {s t : Directory Page Write} {id : Uuid} {path : FilePath}

/-! ## Names -/

theorem backupFileName_injective {a b : Uuid} (h : backupFileName a = backupFileName b) : a = b := by
  have htext := congrArg String.toList h
  unfold backupFileName at htext
  rw [String.toList_append, String.toList_append, String.toList_append, String.toList_append] at htext
  have hab : a.text.toList = b.text.toList :=
    List.append_cancel_left (List.append_cancel_right htext)
  cases a
  cases b
  obtain rfl := String.toList_inj.mp hab
  rfl

/-! ## Files -/

/-- The call may write, move or remove the file. -/
def touchesFs (path : FilePath) : FsCall Page Write → Prop
  | .create target => target = path
  | .write target _ => target = path
  | .copy _ target => target = path
  | .rename source target => source = path ∨ target = path
  | .remove target => target = path
  | _ => False

def touches (path : FilePath) : Call Page Write → Prop
  | .fs _ call => touchesFs path call
  | .vacuumInto target => target = path
  | _ => False

theorem files_put {target : FilePath} (file : Option (File Page Write)) (h : target ≠ path) :
    (s.put target file).files path = s.files path :=
  Function.update_of_ne h.symm _ _

theorem isSome_put (s : Directory Page Write) (target : FilePath) (file : File Page Write) :
    ((s.put target (some file)).files target).isSome := by
  show (Function.update s.files target (some file) target).isSome = true
  rw [Function.update_self]
  rfl

theorem settle_none {ok : Bool} (h : (settle ok s t).1 = none) :
    ok = false ∧ (settle ok s t).2 = s := by
  unfold settle at h ⊢
  cases ok with
  | false => exact ⟨rfl, rfl⟩
  | true => cases h

theorem settle_some {ok : Bool} {v : Unit} (h : (settle ok s t).1 = some v) :
    ok = true ∧ (settle ok s t).2 = t := by
  unfold settle at h ⊢
  cases ok with
  | false => cases h
  | true => exact ⟨rfl, rfl⟩

/-- A rename does nothing, or moves the file. -/
theorem serveFs_rename {source target : FilePath} {ok : Bool} {file : File Page Write}
    (h : s.files source = some file) :
    serveFs (.rename source target) ok s =
      if ok then (some (), (s.put target (some file)).put source none) else (none, s) := by
  unfold serveFs settle
  dsimp only
  rw [h]

/-! ## What a call changes -/

inductive Change (s : Directory Page Write) : Call Page Write → Directory Page Write → Prop where
  | none (k : Call Page Write) : Change s k s
  | put (path : FilePath) (file : Option (File Page Write)) {k : Call Page Write}
      (h : touches path k) : Change s k (s.put path file)
  | move (caller : Caller) (source target : FilePath) (file : File Page Write) :
      Change s (.fs caller (.rename source target)) ((s.put target (some file)).put source .none)
  | draw (id : Uuid) : id ∉ s.used → Change s .nextId { s with used := id :: s.used }
  | register (manifest : BackupManifest) (createdAt : String) :
      Change s (.insertManifest manifest) (s.register manifest.toRecord createdAt)
  | expire (id : Uuid) : Change s (.expireBackup id) (s.expire id)
  | leaveWal (path : FilePath) : Change s (.verifyDatabase path) (s.leaveWal path)
  | reopen (rows : List BackupRow) : Change s .reopen { s with pool := true, rows := rows }
  | flags (k : Call Page Write) (pool maintenance : Bool) :
      Change s k { s with pool := pool, maintenance := maintenance }

theorem change_settle {k : Call Page Write} {ok : Bool} (h : Change s k t) :
    Change s k (settle ok s t).2 := by
  unfold settle
  split
  · exact h
  · exact .none k

theorem change_attempt {k : Call Page Write} {ok leaves : Bool} {left : Directory Page Write}
    (h : Change s k t) (hleft : Change s k left) : Change s k (attempt ok leaves s t left).2 := by
  unfold attempt
  split
  · exact h
  · dsimp only
    split
    · exact hleft
    · exact .none k

theorem change_serveFs (caller : Caller) (call : FsCall Page Write) (ok : Bool)
    (s : Directory Page Write) : Change s (.fs caller call) (serveFs call ok s).2 := by
  cases call with
  | create target =>
    unfold serveFs
    dsimp only
    split
    · exact .none _
    · exact change_settle (.put target _ (by rfl))
  | write target file =>
    unfold serveFs
    dsimp only
    split
    · exact .put target _ (by rfl)
    · exact .put target _ (by rfl)
  | copy source target =>
    unfold serveFs
    dsimp only
    split
    · exact .none _
    · split
      · exact .put target _ (by rfl)
      · exact .put target _ (by rfl)
  | rename source target =>
    unfold serveFs
    dsimp only
    split
    · exact .none _
    · exact change_settle (.move caller source target _)
  | remove target => exact change_settle (.put target _ (by rfl))
  | _ => exact change_settle (.none _)

/-- **What a call can do.** -/
theorem change_serve (k : Call Page Write) (a : Reply Page Write) (s : Directory Page Write) :
    Change s k (serve x k a s).2 := by
  cases k with
  | fs caller call => exact change_serveFs caller call a.ok s
  | nextId =>
    unfold serve
    dsimp only
    split
    · exact .none _
    · exact .draw a.id ‹_›
  | vacuumInto target =>
    unfold serve
    dsimp only
    split
    · exact change_attempt (.put target _ (by rfl)) (.put target _ (by rfl))
    · exact .none _
  | insertManifest manifest =>
    unfold serve
    dsimp only
    split
    · exact change_attempt (.register manifest _) (.register manifest _)
    · exact .none _
  | expireBackup id =>
    unfold serve
    dsimp only
    split
    · exact change_attempt (.expire id) (.expire id)
    · exact .none _
  | readManifest path =>
    unfold serve
    dsimp only
    split <;> exact .none _
  | readJournal =>
    unfold serve
    dsimp only
    split <;> exact .none _
  | checkpointAndClose =>
    unfold serve
    dsimp only
    split
    · exact .flags _ false s.maintenance
    · exact .none _
  | beginMaintenance => exact .flags _ s.pool true
  | endMaintenance => exact .flags _ s.pool false
  | reopen => exact change_settle (.reopen a.rows)
  | timestamp | auditAppend event | clearSchedulerLeases role | quiesceForMaintenance
  | restartFromPersisted | quiesceAgain => exact change_settle (.none _)
  | verifyDatabase path =>
    unfold serve
    dsimp only
    split
    · exact .leaveWal path
    · exact .none _
  | listBackups | surplusBackups | readDirectory => exact .none _

theorem Change.files {k : Call Page Write} (h : Change s k t) (hk : ¬ touches path k) :
    t.files path = s.files path := by
  cases h with
  | none | draw | expire | leaveWal | reopen | flags => rfl
  | put target file htouches => exact files_put file fun heq => hk (heq ▸ htouches)
  | move caller source target file =>
    rw [files_put _ fun heq => hk (Or.inl heq), files_put _ fun heq => hk (Or.inr heq)]
  | register manifest createdAt =>
    unfold Directory.register
    split <;> rfl

/-- **A file that a call does not touch stays.** -/
theorem files_serve {k : Call Page Write} (h : ¬ touches path k) (a : Reply Page Write) :
    (serve x k a s).2.files path = s.files path :=
  (change_serve k a s).files h

theorem readManifest_state (path : FilePath) (a : Reply Page Write) :
    (serve x (.readManifest path) a s).2 = s := by
  unfold serve
  dsimp only
  split <;> rfl

/-- What is read is in the file. -/
theorem readManifest_file {a : Reply Page Write} {manifest : BackupManifest}
    (h : (serve x (.readManifest path) a s).1 = some manifest) :
    s.files path = some (.manifest manifest) := by
  unfold serve at h
  dsimp only at h
  split at h
  · next found hfile =>
    by_cases hok : a.ok = true
    · rw [if_pos hok] at h
      rw [hfile, Option.some.inj h]
    · rw [if_neg hok] at h
      cases h
  · cases h

/-! ## Records -/

/-- A record with this identifier. -/
def Recorded (s : Directory Page Write) (id : Uuid) : Prop := ∃ row ∈ s.rows, row.record.id = id

theorem Recorded.register (h : Recorded s id) (record : BackupRecord) (createdAt : String) :
    Recorded (s.register record createdAt) id := by
  obtain ⟨row, hrow, hid⟩ := h
  unfold Directory.register
  split
  · exact ⟨row, hrow, hid⟩
  · exact ⟨row, List.mem_append_left _ hrow, hid⟩

theorem recorded_register (s : Directory Page Write) (record : BackupRecord) (createdAt : String) :
    Recorded (s.register record createdAt) record.id := by
  unfold Directory.register
  by_cases hany : s.rows.any (fun row => decide (row.record.id = record.id)) = true
  · rw [if_pos hany]
    obtain ⟨row, hrow, hid⟩ := List.any_eq_true.mp hany
    exact ⟨row, hrow, of_decide_eq_true hid⟩
  · rw [if_neg hany]
    exact ⟨⟨record, createdAt⟩, List.mem_append_right _ (List.mem_singleton_self _), rfl⟩

theorem Recorded.expire (h : Recorded s id) (other : Uuid) : Recorded (s.expire other) id := by
  obtain ⟨row, hrow, hid⟩ := h
  refine ⟨_, List.mem_map_of_mem hrow, ?_⟩
  split
  · exact hid
  · exact hid

/-- Records go only when another database is opened. -/
def KeepsRecords : Call Page Write → Prop
  | .reopen => False
  | _ => True

theorem Recorded.change {k : Call Page Write} (h : Recorded s id) (hk : KeepsRecords k)
    (hchange : Change s k t) : Recorded t id := by
  cases hchange with
  | register manifest createdAt => exact h.register _ createdAt
  | expire other => exact h.expire other
  | reopen => cases hk
  | none | put | move | draw | leaveWal | flags => exact h

theorem Recorded.serve {k : Call Page Write} (hk : KeepsRecords k) (h : Recorded s id)
    (a : Reply Page Write) : Recorded (serve x k a s).2 id :=
  h.change hk (change_serve k a s)

/-- The call may make a record of the backup. -/
def AddsRecord (id : Uuid) : Call Page Write → Prop
  | .insertManifest manifest => manifest.id = id
  | .reopen => True
  | _ => False

/-- A record does not come by itself. -/
theorem Change.unrecorded {k : Call Page Write} (hchange : Change s k t) (hk : ¬ AddsRecord id k)
    (h : ¬ Recorded s id) : ¬ Recorded t id := by
  rintro ⟨row, hrow, hid⟩
  cases hchange with
  | none | put | move | draw | leaveWal | flags => exact h ⟨row, hrow, hid⟩
  | reopen => exact absurd trivial hk
  | register manifest createdAt =>
    unfold Directory.register at hrow
    split at hrow
    · exact h ⟨row, hrow, hid⟩
    · rcases List.mem_append.mp hrow with hrow | hrow
      · exact h ⟨row, hrow, hid⟩
      · obtain rfl := List.mem_singleton.mp hrow
        exact hk hid
  | expire other =>
    obtain ⟨before, hbefore, rfl⟩ := List.mem_map.mp hrow
    refine h ⟨before, hbefore, ?_⟩
    revert hid
    split
    · exact fun hid => hid
    · exact fun hid => hid

theorem unrecorded_serve {k : Call Page Write} (hk : ¬ AddsRecord id k) (a : Reply Page Write)
    (h : ¬ Recorded s id) : ¬ Recorded (serve x k a s).2 id :=
  (change_serve k a s).unrecorded hk h

/-! ## Identifiers -/

theorem Change.used {k : Call Page Write} (h : Change s k t) (hk : k ≠ .nextId) :
    t.used = s.used := by
  cases h with
  | draw => exact absurd rfl hk
  | none | put | move | expire | leaveWal | reopen | flags => rfl
  | register manifest createdAt =>
    unfold Directory.register
    split <;> rfl

theorem used_serve {k : Call Page Write} (hk : k ≠ .nextId) (a : Reply Page Write) :
    (serve x k a s).2.used = s.used :=
  (change_serve k a s).used hk

/-- A new identifier is drawn, or none. -/
theorem serve_nextId (a : Reply Page Write) (s : Directory Page Write) :
    a.id ∉ s.used ∧ serve x .nextId a s = (some a.id, { s with used := a.id :: s.used }) ∨
      serve x .nextId a s = (none, s) := by
  unfold serve
  by_cases h : a.id ∈ s.used
  · right
    exact if_pos h
  · left
    exact ⟨h, if_neg h⟩

/-- An identifier stays drawn. -/
theorem mem_used_serve (k : Call Page Write) (a : Reply Page Write) (h : id ∈ s.used) :
    id ∈ (serve x k a s).2.used := by
  by_cases hk : k = .nextId
  · subst hk
    rcases serve_nextId (x := x) a s with ⟨-, hserve⟩ | hserve
    · rw [hserve]
      exact List.mem_cons_of_mem _ h
    · rw [hserve]
      exact h
  · rw [used_serve hk]
    exact h

/-! ## Calls of the programs -/

theorem makes_expireBackups {K : Call Page Write → Prop} (rows : List BackupRecord)
    (hexpire : ∀ r ∈ rows, K (.expireBackup r.id))
    (hremove : ∀ r ∈ rows, K (.fs .backups (.remove (.backup r.fileName))) ∧
      K (.fs .backups (.remove (.manifest r.fileName)))) : (expireBackups rows).Makes K := by
  induction rows with
  | nil => trivial
  | cons row rows ih =>
    obtain ⟨hfirst, hrest⟩ := List.forall_mem_cons.mp hexpire
    obtain ⟨hfiles, hothers⟩ := List.forall_mem_cons.mp hremove
    unfold expireBackups
    refine Prog.Makes.bind (Prog.Makes.perform hfirst) fun _ => ?_
    refine Prog.Makes.bind (Prog.Makes.ignore hfiles.1) fun _ => ?_
    exact Prog.Makes.bind (Prog.Makes.ignore hfiles.2) fun _ => ih hrest hothers

theorem makes_applyRetention :
    (applyRetention : Program Page Write Unit).Makes KeepsRecords := by
  unfold applyRetention
  refine Prog.Makes.bind (Prog.Makes.perform trivial) fun rows => ?_
  refine Prog.Makes.bind ?_ fun _ => ?_
  · exact makes_expireBackups rows (fun _ _ => trivial) fun _ _ => ⟨trivial, trivial⟩
  · split
    · trivial
    · exact Prog.Makes.perform trivial

end RemindiCore.Admin.Directory
