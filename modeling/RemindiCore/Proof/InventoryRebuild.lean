import RemindiCore.Lib.JsonReader
import RemindiCore.Proof.ManifestText
import RemindiCore.Proof.Retention

/-!
# The inventory is rebuilt from the directory

Of the backups that `create` and `upload` have published, `reconcile` inserts
those whose records are missing, each as it was registered, and nothing for a
file that is not the sidecar of a database it agrees with; a second run inserts
nothing (`inventory_rebuilt`).
-/

namespace RemindiCore.Admin.Catalog

open CivilTime JsonText KeyedTable

variable {x : Libraries} {ownerId name : String} {s t u : Store} {manifest : BackupManifest}

/-! ## Names -/

/-- A name of the backup manager. -/
def Owned (name : String) : Prop := "remindi-".toList <+: name.toList

theorem owned_append (id suffix : String) : Owned ("remindi-" ++ id ++ suffix) := by
  unfold Owned
  rw [String.toList_append, String.toList_append, List.append_assoc]
  exact List.prefix_append _ _

theorem Owned.not_dot {rest : List Char} (h : Owned name) : name.toList ≠ '.' :: rest := by
  obtain ⟨tail, htail⟩ := h
  rw [← htail]
  intro heq
  exact absurd (List.cons.inj heq).1 (by decide)

theorem Owned.not_temporary (h : Owned name) : isTemporaryName name = false := by
  by_contra htemporary
  unfold isTemporaryName at htemporary
  simp only [Bool.not_eq_false, Bool.and_eq_true, List.isPrefixOf_iff_prefix] at htemporary
  obtain ⟨rest, hrest⟩ := htemporary.1
  exact h.not_dot hrest.symm

theorem Owned.not_journal (h : Owned name) : name ≠ ".restore-journal.tmp" := by
  rintro rfl
  exact h.not_dot (show _ = '.' :: "restore-journal.tmp".toList from rfl)

theorem manifestPath_eq (id : String) :
    manifestPath ("remindi-" ++ id ++ ".sqlite3") = "remindi-" ++ id ++ ".sqlite3.json" := by
  have hreversed : ("remindi-" ++ id ++ ".sqlite3").toList.reverse =
      ['3', 'e', 't', 'i', 'l', 'q', 's'] ++ '.' :: ("remindi-" ++ id).toList.reverse := by
    rw [String.toList_append, List.reverse_append]
    rfl
  have hextension : (['3', 'e', 't', 'i', 'l', 'q', 's'] ++
      '.' :: ("remindi-" ++ id).toList.reverse).takeWhile (· ≠ '.') =
      ['3', 'e', 't', 'i', 'l', 'q', 's'] := by
    have hname : ∀ c ∈ ['3', 'e', 't', 'i', 'l', 'q', 's'], decide (c ≠ '.') = true := by
      simp
    rw [List.takeWhile_append_of_pos hname, List.takeWhile_cons_of_neg (by simp), List.append_nil]
  have hstem : ("remindi-" ++ id).toList.isEmpty = false := by
    rw [String.toList_append]
    rfl
  unfold manifestPath
  dsimp only
  rw [hreversed, hextension]
  show (if ("remindi-" ++ id).toList.reverse.reverse.isEmpty then _ else
    String.ofList ("remindi-" ++ id).toList.reverse.reverse ++ ".sqlite3.json") = _
  rw [List.reverse_reverse, hstem, if_neg (by decide), String.ofList_toList]

theorem name_injective {a b suffix : String}
    (h : "remindi-" ++ a ++ suffix = "remindi-" ++ b ++ suffix) : a = b := by
  have hchars := congrArg String.toList h
  simp only [String.toList_append, List.append_cancel_right_eq, List.append_cancel_left_eq]
    at hchars
  exact String.toList_injective hchars

theorem hasJsonExtension_sidecar (id : String) :
    hasJsonExtension ("remindi-" ++ id ++ ".sqlite3.json") = true := by
  have hsuffix : ".json".toList <:+ ("remindi-" ++ id ++ ".sqlite3.json").toList := by
    rw [String.toList_append]
    exact (List.suffix_append (".sqlite3".toList) (".json".toList)).trans (List.suffix_append _ _)
  have hne : "remindi-" ++ id ++ ".sqlite3.json" ≠ ".json" := by
    intro h
    have howned := owned_append id ".sqlite3.json"
    rw [h] at howned
    exact howned.not_dot (show _ = '.' :: "json".toList from rfl)
  unfold hasJsonExtension
  rw [List.isSuffixOf_iff_suffix.mpr hsuffix, decide_eq_true hne]
  rfl

/-! ## One directory entry -/

/-- The file of this name is the sidecar of a database that it agrees with. -/
structure Consistent (x : Libraries) (ownerId : String) (s : Store) (name : String)
    (manifest : BackupManifest) : Prop where
  reads : readManifest x (s.files name) = some manifest
  sidecar : name = manifestPath manifest.fileName
  verifies : verifyFile x ownerId (s.files manifest.fileName) =
    some ⟨manifest.sha256, manifest.sizeBytes, manifest.schemaVersion⟩

/-- A record takes the identifier or the file name of the manifest. -/
def Taken (records : Table BackupRecord.id) (manifest : BackupManifest) : Prop :=
  ∃ row ∈ records.rows, row.id = manifest.id ∨ row.fileName = manifest.fileName

/-- The same files under the names of the backup manager. -/
def SameFiles (s t : Store) : Prop := ∀ name, Owned name → t.files name = s.files name

theorem SameFiles.trans (h : SameFiles s t) (h' : SameFiles t u) : SameFiles s u :=
  fun name hname => (h' name hname).trans (h name hname)

theorem readManifest_valid {content : Option Content}
    (h : readManifest x content = some manifest) : validateManifest manifest = true := by
  unfold readManifest at h
  split at h
  · next text =>
    by_cases hlarge : 16 * 1024 < text.utf8ByteSize
    · rw [if_pos hlarge] at h
      cases h
    rw [if_neg hlarge] at h
    split at h
    · next read hread =>
      by_cases hvalid : validateManifest read = true
      · rw [if_pos hvalid] at h
        cases h
        exact hvalid
      · rw [if_neg hvalid] at h
        cases h
    · cases h
  · cases h

theorem fileName_of_valid (h : validateManifest manifest = true) :
    manifest.fileName = "remindi-" ++ manifest.id ++ ".sqlite3" :=
  (validateManifest_iff.mp h).2.1

namespace Consistent

variable (h : Consistent x ownerId s name manifest)
include h

theorem fileName_eq : manifest.fileName = "remindi-" ++ manifest.id ++ ".sqlite3" :=
  fileName_of_valid (readManifest_valid h.reads)

theorem name_eq : name = "remindi-" ++ manifest.id ++ ".sqlite3.json" := by
  rw [h.sidecar, h.fileName_eq, manifestPath_eq]

theorem owned_fileName : Owned manifest.fileName := by
  rw [h.fileName_eq]
  exact owned_append _ _

theorem owned_name : Owned name := by
  rw [h.name_eq]
  exact owned_append _ _

theorem of_sameFiles (hfiles : SameFiles t s) : Consistent x ownerId t name manifest where
  reads := by rw [← hfiles name h.owned_name]; exact h.reads
  sidecar := h.sidecar
  verifies := by rw [← hfiles manifest.fileName h.owned_fileName]; exact h.verifies

end Consistent

theorem removeIfExists_sameFiles {refused : String → Bool} (hname : ¬ Owned name) :
    SameFiles s (removeIfExists refused name s) := by
  intro kept hkept
  unfold removeIfExists Store.remove
  by_cases hrefused : refused name = true
  · rw [if_pos hrefused]
  · rw [if_neg hrefused]
    refine Function.update_of_ne ?_ _ _
    rintro rfl
    exact hname hkept

/-- A valid manifest passes the checks of the table. -/
theorem recordChecks_of_valid (h : validateManifest manifest = true) :
    recordChecks manifest.toRecord = true := by
  obtain ⟨-, -, -, hbytes, hhex, hsize, hschema, -⟩ := validateManifest_iff.mp h
  have hdigit : ∀ c ∈ manifest.sha256.toList, ('0' ≤ c ∧ c ≤ '9') ∨ ('a' ≤ c ∧ c ≤ 'f') := by
    intro c hc
    simpa [isHexDigit] using List.all_eq_true.mp hhex c hc
  have hplain : Plain manifest.sha256.toList := fun c hc => plain_hex (hdigit c hc)
  have hall : manifest.sha256.toList.takeWhile (· ≠ Char.ofNat 0) = manifest.sha256.toList := by
    refine List.takeWhile_eq_self_iff.mpr fun c hc => decide_eq_true ?_
    rintro rfl
    exact absurd (hplain _ hc).1 (by decide)
  have hlength : sqlLength manifest.sha256 = 64 := by
    unfold sqlLength
    rw [hall, ← hplain.utf8ByteSize, hbytes]
  unfold recordChecks
  show (decide (sqlLength manifest.sha256 = 64) && decide (0 < manifest.sizeBytes.val) &&
    decide (1 ≤ manifest.schemaVersion.val)) = true
  rw [hlength, decide_eq_true hsize, decide_eq_true hschema.1]
  rfl

/-- `INSERT OR IGNORE` of a valid manifest. -/
theorem insertManifest_some {records inserted : Table BackupRecord.id}
    (h : insertManifest manifest records = some inserted) :
    ¬ Taken records manifest ∧ inserted.rows = records.rows ++ [manifest.toRecord] := by
  unfold insertManifest at h
  dsimp only at h
  by_cases hignored : (records.rows.any (·.fileName = manifest.toRecord.fileName) ||
      !recordChecks manifest.toRecord) = true
  · rw [if_pos hignored] at h
    cases h
  rw [if_neg hignored] at h
  obtain ⟨hfree, hrows⟩ := Table.insert?_eq_some h
  refine ⟨?_, hrows⟩
  rintro ⟨row, hrow, hid | hname⟩
  · exact Table.find?_eq_none.mp hfree row hrow hid
  · refine hignored (Bool.or_eq_true_iff.mpr (Or.inl (List.any_eq_true.mpr ⟨row, hrow, ?_⟩)))
    exact decide_eq_true hname

theorem insertManifest_none {records : Table BackupRecord.id}
    (hvalid : validateManifest manifest = true) (h : insertManifest manifest records = none) :
    Taken records manifest := by
  unfold insertManifest at h
  dsimp only at h
  by_cases hname : records.rows.any (·.fileName = manifest.toRecord.fileName) = true
  · obtain ⟨row, hrow, hsame⟩ := List.any_eq_true.mp hname
    exact ⟨row, hrow, Or.inr (of_decide_eq_true hsame)⟩
  have hchecks := recordChecks_of_valid hvalid
  rw [if_neg (by simp [hname, hchecks])] at h
  by_contra hfree
  have hkey : records.find? (BackupRecord.id manifest.toRecord) = none :=
    Table.find?_eq_none.mpr fun row hrow hid => hfree ⟨row, hrow, Or.inl hid⟩
  obtain ⟨u, hu⟩ := Table.exists_insert? hkey
  rw [hu] at h
  cases h

/-- What one directory entry does. -/
inductive Entry (x : Libraries) (ownerId name : String) (s : Store) : Bool → Store → Prop
  | passed {t : Store} (records : t.records = s.records) (files : SameFiles s t)
      (settled : ∀ m, Consistent x ownerId s name m → Taken s.records m) :
      Entry x ownerId name s false t
  | inserted {m : BackupManifest} {records : Table BackupRecord.id}
      (consistent : Consistent x ownerId s name m) (free : ¬ Taken s.records m)
      (rows : records.rows = s.records.rows ++ [m.toRecord]) :
      Entry x ownerId name s true { s with records := records }

theorem reconcileEntry_cases {env : ReconcileEnv} {n : Nat} {inserted : Bool}
    (hclock : (canonicalText (env.now n)).isSome)
    (h : reconcileEntry x ownerId env n name s = (inserted, t)) :
    Entry x ownerId name s inserted t := by
  have hstays : (∀ m, ¬ Consistent x ownerId s name m) → Entry x ownerId name s false s :=
    fun hnone => .passed rfl (fun _ _ => rfl) fun m hm => absurd hm (hnone m)
  unfold reconcileEntry at h
  by_cases htemporary : isTemporaryName name = true
  · rw [if_pos htemporary] at h
    cases h
    have hname : ¬ Owned name := by
      intro howned
      rw [howned.not_temporary] at htemporary
      cases htemporary
    refine .passed ?_ (removeIfExists_sameFiles hname) fun m hm => absurd hm.owned_name hname
    unfold removeIfExists
    split <;> rfl
  rw [if_neg htemporary] at h
  by_cases hextension : (!hasJsonExtension name) = true
  · rw [if_pos hextension] at h
    cases h
    refine hstays fun m hm => ?_
    rw [hm.name_eq, hasJsonExtension_sidecar] at hextension
    cases hextension
  rw [if_neg hextension] at h
  cases hread : readManifest x (s.files name) with
  | none =>
    rw [hread] at h
    cases h
    refine hstays fun m hm => ?_
    rw [hm.reads] at hread
    cases hread
  | some manifest =>
    rw [hread] at h
    dsimp only at h
    have hsame : ∀ m, Consistent x ownerId s name m → m = manifest := by
      intro m hm
      have hreads := hm.reads
      rw [hread] at hreads
      exact (Option.some.inj hreads).symm
    by_cases hsidecar : name ≠ manifestPath manifest.fileName
    · rw [if_pos hsidecar] at h
      cases h
      refine hstays fun m hm => hsidecar ?_
      rw [← hsame m hm]
      exact hm.sidecar
    rw [if_neg hsidecar] at h
    obtain ⟨verifiedAt, hverifiedAt⟩ := Option.isSome_iff_exists.mp hclock
    cases hverify : verifyDatabase x ownerId (env.now n) (s.files manifest.fileName) with
    | none =>
      rw [hverify] at h
      cases h
      refine hstays fun m hm => ?_
      obtain rfl := hsame m hm
      rw [verifyDatabase_ok.mpr ⟨hm.verifies, hverifiedAt⟩] at hverify
      cases hverify
    | some verified =>
      obtain ⟨verified, at'⟩ := verified
      rw [hverify] at h
      dsimp only at h
      have hfile := (verifyDatabase_ok.mp hverify).1
      by_cases hdiffers : manifest.sha256 ≠ verified.sha256 ∨
          manifest.sizeBytes ≠ verified.sizeBytes ∨
          manifest.schemaVersion ≠ verified.schemaVersion
      · rw [if_pos hdiffers] at h
        cases h
        refine hstays fun m hm => ?_
        obtain rfl := hsame m hm
        have hverifies := hm.verifies
        rw [hfile] at hverifies
        cases hverifies
        rcases hdiffers with hdiffers | hdiffers | hdiffers <;> exact hdiffers rfl
      rw [if_neg hdiffers] at h
      simp only [not_or, not_not] at hdiffers
      have hconsistent : Consistent x ownerId s name manifest := by
        refine ⟨hread, not_not.mp hsidecar, ?_⟩
        rw [hfile, hdiffers.1, hdiffers.2.1, hdiffers.2.2]
      cases hinsert : insertManifest manifest s.records with
      | none =>
        rw [hinsert] at h
        cases h
        refine .passed rfl (fun _ _ => rfl) fun m hm => ?_
        obtain rfl := hsame m hm
        exact insertManifest_none (readManifest_valid hread) hinsert
      | some records =>
        rw [hinsert] at h
        cases h
        obtain ⟨hfree, hrows⟩ := insertManifest_some hinsert
        exact .inserted hconsistent hfree hrows

/-! ## The directory -/

/-- What `reconcile` has done: the manifests it has inserted. -/
structure Reconciled (x : Libraries) (ownerId : String) (s t : Store)
    (inserted : List BackupManifest) : Prop where
  rows : t.records.rows = s.records.rows ++ inserted.map (·.toRecord)
  files : SameFiles s t
  consistent : ∀ m ∈ inserted, Consistent x ownerId s (manifestPath m.fileName) m
  free : ∀ m ∈ inserted, ¬ Taken s.records m

theorem Taken.mono {records records' : Table BackupRecord.id} (h : Taken records manifest)
    (hrows : ∀ row ∈ records.rows, row ∈ records'.rows) : Taken records' manifest := by
  obtain ⟨row, hrow, hsame⟩ := h
  exact ⟨row, hrows row hrow, hsame⟩

theorem Reconciled.mono {inserted : List BackupManifest} (h : Reconciled x ownerId s t inserted) :
    ∀ row ∈ s.records.rows, row ∈ t.records.rows := by
  intro row hrow
  rw [h.rows]
  exact List.mem_append_left _ hrow

theorem Reconciled.refl : Reconciled x ownerId s s [] where
  rows := (List.append_nil _).symm
  files := fun _ _ => rfl
  consistent := fun _ h => absurd h List.not_mem_nil
  free := fun _ h => absurd h List.not_mem_nil

theorem Reconciled.trans {first later : List BackupManifest}
    (h : Reconciled x ownerId s t first) (h' : Reconciled x ownerId t u later) :
    Reconciled x ownerId s u (first ++ later) where
  rows := by
    rw [h'.rows, h.rows, List.map_append, List.append_assoc]
  files := h.files.trans h'.files
  consistent := by
    intro m hm
    rcases List.mem_append.mp hm with hm | hm
    · exact h.consistent m hm
    · exact (h'.consistent m hm).of_sameFiles h.files
  free := by
    intro m hm htaken
    rcases List.mem_append.mp hm with hm | hm
    · exact h.free m hm htaken
    · exact h'.free m hm (htaken.mono h.mono)

theorem sameFiles_symm (h : SameFiles s t) : SameFiles t s := fun name hname => (h name hname).symm

/-- One entry, and its own manifest if it has one is taken afterwards. -/
theorem Entry.reconciled {inserted : Bool} (h : Entry x ownerId name s inserted t) :
    ∃ ms, Reconciled x ownerId s t ms ∧ ms.length = inserted.toNat ∧
      ∀ m, Consistent x ownerId s name m → Taken t.records m := by
  cases h with
  | passed hrecords hfiles hsettled =>
    refine ⟨[], ⟨?_, hfiles, ?_, ?_⟩, rfl, ?_⟩
    · rw [hrecords]
      exact (List.append_nil _).symm
    · exact fun _ h => absurd h List.not_mem_nil
    · exact fun _ h => absurd h List.not_mem_nil
    · intro m hm
      rw [hrecords]
      exact hsettled m hm
  | @inserted m records hconsistent hfree hrows =>
    refine ⟨[m], ⟨hrows, fun _ _ => rfl, ?_, ?_⟩, rfl, ?_⟩
    · intro m' hm'
      obtain rfl := List.mem_singleton.mp hm'
      rw [← hconsistent.sidecar]
      exact hconsistent
    · intro m' hm'
      rw [List.mem_singleton.mp hm']
      exact hfree
    · intro m' hm'
      have hreads := hm'.reads
      rw [hconsistent.reads] at hreads
      obtain rfl := Option.some.inj hreads
      refine ⟨m.toRecord, ?_, Or.inl rfl⟩
      show m.toRecord ∈ records.rows
      rw [hrows]
      exact List.mem_append_right _ (List.mem_singleton_self _)

theorem reconcileEntries_reconciled {env : ReconcileEnv} {names : List String} {n count : Nat}
    (hclock : ∀ n, (canonicalText (env.now n)).isSome)
    (h : reconcileEntries x ownerId env n names s = (count, t)) :
    ∃ inserted, Reconciled x ownerId s t inserted ∧ inserted.length = count ∧
      ∀ name ∈ names, ∀ m, Consistent x ownerId s name m → Taken t.records m := by
  induction names generalizing n s count with
  | nil =>
    cases h
    exact ⟨[], .refl, rfl, fun _ h => absurd h List.not_mem_nil⟩
  | cons name names ih =>
    unfold reconcileEntries at h
    rcases hentry : reconcileEntry x ownerId env n name s with ⟨first, s₁⟩
    rw [hentry] at h
    dsimp only at h
    rcases hrest : reconcileEntries x ownerId env (n + 1) names s₁ with ⟨later, s₂⟩
    rw [hrest] at h
    cases h
    obtain ⟨ms, hfirst, hcount, hsettled⟩ := (reconcileEntry_cases (hclock n) hentry).reconciled
    obtain ⟨inserted, hdone, hlength, htaken⟩ := ih hrest
    refine ⟨ms ++ inserted, hfirst.trans hdone, ?_, ?_⟩
    · rw [List.length_append, hcount, hlength, Nat.add_comm]
    · intro name' hname' m hm
      rcases List.mem_cons.mp hname' with rfl | hname'
      · exact (hsettled m hm).mono hdone.mono
      · exact htaken name' hname' m (hm.of_sameFiles (sameFiles_symm hfirst.files))

/-- **One run** over a listing. -/
theorem reconcile_reconciled {env : ReconcileEnv} {entries : List String} {count : Nat}
    (hclock : ∀ n, (canonicalText (env.now n)).isSome)
    (h : reconcile x ownerId env entries s = (count, t)) :
    ∃ inserted, Reconciled x ownerId s t inserted ∧ inserted.length = count ∧
      ∀ name ∈ entries, ∀ m, Consistent x ownerId s name m → Taken t.records m := by
  have hjournal : ¬ Owned ".restore-journal.tmp" := fun h => h.not_journal rfl
  obtain ⟨inserted, hdone, hlength, htaken⟩ := reconcileEntries_reconciled hclock h
  have hprepared : Reconciled x ownerId s
      (removeIfExists env.refused ".restore-journal.tmp" s) [] := by
    refine ⟨?_, removeIfExists_sameFiles hjournal, fun _ h => absurd h List.not_mem_nil,
      fun _ h => absurd h List.not_mem_nil⟩
    unfold removeIfExists
    split <;> exact (List.append_nil _).symm
  refine ⟨inserted, hprepared.trans hdone, hlength, ?_⟩
  intro name hname m hm
  exact htaken name hname m (hm.of_sameFiles (sameFiles_symm hprepared.files))

/-- **A second run inserts nothing**, whatever it lists. -/
theorem reconcile_twice {first second : ReconcileEnv} {entries entries' : List String}
    {count again : Nat} (hclock : ∀ n, (canonicalText (first.now n)).isSome)
    (hclock' : ∀ n, (canonicalText (second.now n)).isSome)
    (hlisted : ∀ name, (s.files name).isSome → name ∈ entries)
    (h : reconcile x ownerId first entries s = (count, t))
    (h' : reconcile x ownerId second entries' t = (again, u)) :
    again = 0 ∧ u.records.rows = t.records.rows := by
  obtain ⟨inserted, hdone, -, htaken⟩ := reconcile_reconciled hclock h
  obtain ⟨later, hlater, hlength, -⟩ := reconcile_reconciled hclock' h'
  have hnone : later = [] := by
    refine List.eq_nil_iff_forall_not_mem.mpr fun m hm => ?_
    have hconsistent := (hlater.consistent m hm).of_sameFiles hdone.files
    have hexists : (s.files (manifestPath m.fileName)).isSome := by
      cases hfile : s.files (manifestPath m.fileName) with
      | some content => rfl
      | none =>
        have hreads := hconsistent.reads
        rw [hfile] at hreads
        cases hreads
    exact hlater.free m hm (htaken _ (hlisted _ hexists) m hconsistent)
  subst hnone
  exact ⟨hlength.symm, by rw [hlater.rows]; exact List.append_nil _⟩

/-! ## Publishing -/

/-- No record has the identifier or the file name of the new backup. -/
def Fresh (env : PublishEnv) (records : Table BackupRecord.id) : Prop :=
  ∀ row ∈ records.rows, row.id ≠ env.id.text ∧ row.fileName ≠ backupFileName env.id

/-- A file that is gone or as before. -/
def GoneOr (s t : Store) (name : String) : Prop := t.files name = none ∨ t.files name = s.files name

/-- A pair of published files is gone or as it was written. -/
structure Pair (x : Libraries) (ownerId : String) (s : Store) (manifest : BackupManifest) :
    Prop where
  file : s.files manifest.fileName = none ∨ verifyFile x ownerId (s.files manifest.fileName) =
    some ⟨manifest.sha256, manifest.sizeBytes, manifest.schemaVersion⟩
  sidecar : s.files (manifestPath manifest.fileName) = none ∨
    s.files (manifestPath manifest.fileName) = some (.text manifest.toJson.text)

theorem Pair.goneOr (h : Pair x ownerId s manifest) (hfile : GoneOr s t manifest.fileName)
    (hsidecar : GoneOr s t (manifestPath manifest.fileName)) : Pair x ownerId t manifest where
  file := by
    rcases hfile with hgone | hsame
    · exact Or.inl hgone
    · rw [hsame]
      exact h.file
  sidecar := by
    rcases hsidecar with hgone | hsame
    · exact Or.inl hgone
    · rw [hsame]
      exact h.sidecar

theorem applyRetention_keeps {env : RetentionEnv} {actor : AdminActor} {count : Nat}
    (h : applyRetention env actor s = (.ok count, t)) :
    (∀ name, GoneOr s t name) ∧ ∃ ids, t.records = mark ids s.records := by
  cases hset : s.retention with
  | none =>
    unfold applyRetention at h
    rw [hset] at h
    cases hreads : env.reads <;> (rw [hreads] at h; cases h)
  | some retention =>
    obtain ⟨done, -, -, hprogress, -⟩ := applyRetention_progress hset rfl h
    obtain ⟨names, -, hfiles⟩ := hprogress.files
    refine ⟨fun name => ?_, _, hprogress.records⟩
    unfold GoneOr
    rw [hfiles]
    unfold without
    by_cases hgone : name ∈ names ∧ env.refused name = false
    · exact Or.inl (if_pos hgone)
    · exact Or.inr (if_neg hgone)

theorem mem_mark {ids : List String} {records : Table BackupRecord.id} {row : BackupRecord}
    (h : row ∈ (mark ids records).rows) :
    ∃ row' ∈ records.rows, row.id = row'.id ∧ row.fileName = row'.fileName := by
  obtain ⟨row', hrow', heq⟩ := List.mem_map.mp h
  refine ⟨row', hrow', ?_⟩
  rw [← heq]
  split
  · exact ⟨rfl, rfl⟩
  · exact ⟨rfl, rfl⟩

theorem mark_of_mem {ids : List String} {records : Table BackupRecord.id} {row : BackupRecord}
    (h : row ∈ records.rows) : row ∈ (mark ids records).rows ∨ row.expire ∈ (mark ids records).rows := by
  by_cases hid : row.id ∈ ids
  · exact Or.inr (List.mem_map.mpr ⟨row, h, by simp [hid]⟩)
  · exact Or.inl (List.mem_map.mpr ⟨row, h, by simp [hid]⟩)

/-- What a publication leaves: the pair of the new backup, its record, and of
everything else the files that retention has not removed. -/
structure Published (x : Libraries) (ownerId : String) (env : PublishEnv) (s t : Store)
    (manifest : BackupManifest) : Prop where
  id : manifest.id = env.id.text
  fileName : manifest.fileName = backupFileName env.id
  readable : manifest.Readable
  pair : Pair x ownerId t manifest
  files : ∀ name, Owned name → name ≠ manifest.fileName →
    name ≠ manifestPath manifest.fileName → GoneOr s t name
  records : ∀ row ∈ t.records.rows, (∃ row' ∈ s.records.rows, row.id = row'.id ∧
    row.fileName = row'.fileName) ∨ row.id = manifest.id ∧ row.fileName = manifest.fileName
  kept : ∀ row ∈ s.records.rows, row ∈ t.records.rows ∨ row.expire ∈ t.records.rows
  registered : manifest.toRecord ∈ t.records.rows ∨ manifest.toRecord.expire ∈ t.records.rows

theorem not_owned_temporary (id : String) :
    ¬ Owned (temporaryDatabase id) ∧ ¬ Owned (temporaryManifest id) := by
  unfold temporaryDatabase temporaryManifest
  constructor
  · intro h
    refine h.not_dot (?_ : _ = '.' :: ("tmp-".toList ++ id.toList ++ ".sqlite3".toList))
    rw [String.toList_append, String.toList_append]
    rfl
  · intro h
    refine h.not_dot (?_ : _ = '.' :: ("tmp-".toList ++ id.toList ++ ".manifest.json".toList))
    rw [String.toList_append, String.toList_append]
    rfl

theorem ne_of_owned {a b : String} (ha : Owned a) (hb : ¬ Owned b) : a ≠ b := by
  rintro rfl
  exact hb ha

theorem sidecar_ne (id id' : String) :
    "remindi-" ++ id ++ ".sqlite3.json" ≠ "remindi-" ++ id' ++ ".sqlite3" := by
  intro h
  have hlast := congrArg (fun text => text.toList.getLast?) h
  simp only [String.toList_append, List.getLast?_append] at hlast
  have hchars : some 'n' = some '3' := hlast
  exact absurd (Option.some.inj hchars) (by decide)

theorem temporary_ne (id : String) : temporaryManifest id ≠ temporaryDatabase id := by
  intro h
  unfold temporaryManifest temporaryDatabase at h
  have hlengths := congrArg (fun text => text.toList.length) h
  simp only [String.toList_append, List.length_append] at hlengths
  have hlong : ".manifest.json".toList.length = 14 := rfl
  have hshort : ".sqlite3".toList.length = 8 := rfl
  omega

theorem rename_ok {source target : String} (h : s.rename source target = some t) :
    ∃ content, s.files source = some content ∧
      t = { s with files :=
        Function.update (Function.update s.files target (some content)) source none } := by
  unfold Store.rename at h
  obtain ⟨content, hcontent, rfl⟩ := Option.map_eq_some_iff.mp h
  exact ⟨content, hcontent, rfl⟩

/-- Two renames put the pair in its place. -/
theorem publish_ok (hname : manifest.fileName = "remindi-" ++ manifest.id ++ ".sqlite3")
    (h : publish manifest s = some t) :
    t.records = s.records ∧
      t.files manifest.fileName = s.files (temporaryDatabase manifest.id) ∧
      t.files (manifestPath manifest.fileName) = some (.text manifest.toJson.text) ∧
      ∀ name, Owned name → name ≠ manifest.fileName → name ≠ manifestPath manifest.fileName →
        t.files name = s.files name := by
  obtain ⟨hdatabase, htext⟩ := not_owned_temporary manifest.id
  have hfile : Owned manifest.fileName := by
    rw [hname]
    exact owned_append _ _
  have hsidecar : Owned (manifestPath manifest.fileName) := by
    rw [hname, manifestPath_eq]
    exact owned_append _ _
  have hpair : manifestPath manifest.fileName ≠ manifest.fileName := by
    rw [hname, manifestPath_eq]
    exact sidecar_ne _ _
  unfold publish at h
  dsimp only at h
  by_cases hexists : (s.files (temporaryManifest manifest.id)).isSome = true
  · rw [if_pos hexists] at h
    cases h
  rw [if_neg hexists] at h
  obtain ⟨s₁, hfirst, hsecond⟩ := Option.bind_eq_some_iff.mp h
  obtain ⟨content, hcontent, rfl⟩ := rename_ok hfirst
  obtain ⟨text, htextContent, rfl⟩ := rename_ok hsecond
  dsimp only [Store.put] at hcontent htextContent ⊢
  rw [Function.update_of_ne (temporary_ne _).symm] at hcontent
  rw [Function.update_of_ne (temporary_ne _), Function.update_of_ne (ne_of_owned hfile htext).symm,
    Function.update_self] at htextContent
  cases htextContent
  refine ⟨rfl, ?_, ?_, ?_⟩
  · rw [Function.update_of_ne (ne_of_owned hfile htext), Function.update_of_ne hpair.symm,
      Function.update_of_ne (ne_of_owned hfile hdatabase), Function.update_self, hcontent]
  · rw [Function.update_of_ne (ne_of_owned hsidecar htext), Function.update_self]
  · intro name howned hnotFile hnotSidecar
    rw [Function.update_of_ne (ne_of_owned howned htext), Function.update_of_ne hnotSidecar,
      Function.update_of_ne (ne_of_owned howned hdatabase), Function.update_of_ne hnotFile,
      Function.update_of_ne (ne_of_owned howned htext)]

theorem publishFile_published {env : PublishEnv} {source : BackupSource}
    {eventType : BackupEventType} {actorId : String} {requestId : Option String}
    {actor : AdminActor} {createdAt : String} {record : BackupRecord}
    (hactor : newActor actorId requestId = .ok actor)
    (hcreated : canonicalText env.now = some createdAt) (hfresh : Fresh env s.records)
    (h : publishFile x ownerId env source eventType actor createdAt s = some (record, t)) :
    ∃ manifest, record = manifest.toRecord ∧ Published x ownerId env s t manifest := by
  unfold publishFile at h
  obtain ⟨⟨verified, verifiedAt⟩, hverify, h⟩ := Option.bind_eq_some_iff.mp h
  dsimp only at h
  obtain ⟨s₁, hpublish, h⟩ := Option.bind_eq_some_iff.mp h
  obtain ⟨s₂, hregister, h⟩ := Option.bind_eq_some_iff.mp h
  have hreadable : (finishManifest env source actor createdAt verified verifiedAt).Readable :=
    finishManifest_readable hactor hcreated hverify
  have hfile := (verifyDatabase_ok.mp hverify).1
  generalize hmanifest : finishManifest env source actor createdAt verified verifiedAt = manifest
    at h hreadable hpublish hregister
  have hid : manifest.id = env.id.text := by rw [← hmanifest]; rfl
  have hname : manifest.fileName = backupFileName env.id := by rw [← hmanifest]; rfl
  have hverified : verifyFile x ownerId (s.files (temporaryDatabase manifest.id)) =
      some ⟨manifest.sha256, manifest.sizeBytes, manifest.schemaVersion⟩ := by
    rw [hid, hfile, ← hmanifest]
    rfl
  obtain ⟨hrecords, hnewFile, hnewSidecar, hothers⟩ :=
    publish_ok (fileName_of_valid hreadable.valid) hpublish
  obtain ⟨occurredAt, -, hregistered⟩ := Option.bind_eq_some_iff.mp hregister
  cases hregistered
  have hfree : ¬ Taken s₁.records manifest := by
    rintro ⟨row, hrow, htaken⟩
    rw [hrecords] at hrow
    obtain ⟨hrowId, hrowName⟩ := hfresh row hrow
    rcases htaken with htaken | htaken
    · exact hrowId (htaken.trans hid)
    · exact hrowName (htaken.trans hname)
  cases hinsert : insertManifest manifest s₁.records with
  | none => exact absurd (insertManifest_none hreadable.valid hinsert) hfree
  | some records =>
    rw [hinsert] at h
    obtain ⟨-, hrows⟩ := insertManifest_some hinsert
    rw [hrecords] at hrows
    dsimp only [Option.getD] at h
    split at h
    · next count t' hretention =>
      cases h
      obtain ⟨hgone, ids, hmark⟩ := applyRetention_keeps hretention
      dsimp only at hmark
      refine ⟨manifest, rfl, hid, hname, hreadable, ?_, ?_, ?_, ?_, ?_⟩
      · refine Pair.goneOr (s := s₁) ⟨Or.inr ?_, Or.inr hnewSidecar⟩ (hgone _) (hgone _)
        rw [hnewFile, hverified]
      · intro name howned hnotFile hnotSidecar
        rcases hgone name with hnone | hsame
        · exact Or.inl hnone
        · exact Or.inr (hsame.trans (hothers name howned hnotFile hnotSidecar))
      · intro row hrow
        rw [hmark] at hrow
        obtain ⟨row', hrow', hsame⟩ := mem_mark hrow
        rw [hrows] at hrow'
        rcases List.mem_append.mp hrow' with hold | hnew
        · exact Or.inl ⟨row', hold, hsame⟩
        · rw [List.mem_singleton.mp hnew] at hsame
          exact Or.inr hsame
      · intro row hrow
        rw [hmark]
        refine mark_of_mem ?_
        rw [hrows]
        exact List.mem_append_left _ hrow
      · rw [hmark]
        refine mark_of_mem ?_
        rw [hrows]
        exact List.mem_append_right _ (List.mem_singleton_self _)
    · cases h

/-- The temporary file is none of the backup manager's own names. -/
theorem Published.of_put {env : PublishEnv} {content : Content}
    (h : Published x ownerId env (s.put (temporaryDatabase env.id.text) content) t manifest) :
    Published x ownerId env s t manifest where
  id := h.id
  fileName := h.fileName
  readable := h.readable
  pair := h.pair
  files := by
    intro name howned hnotFile hnotSidecar
    rcases h.files name howned hnotFile hnotSidecar with hnone | hsame
    · exact Or.inl hnone
    · refine Or.inr (hsame.trans ?_)
      exact Function.update_of_ne (ne_of_owned howned (not_owned_temporary _).1) _ _
  records := h.records
  kept := h.kept
  registered := h.registered

/-- **`create` and `upload`** leave a pair that is read back and its record. -/
theorem perform_published {env : PublishEnv} {actorId : String} {requestId : Option String}
    {actor : AdminActor} {publication : Publication} {record : BackupRecord}
    (hactor : newActor actorId requestId = .ok actor) (hfresh : Fresh env s.records)
    (h : perform x ownerId env actor s publication = some (record, t)) :
    ∃ manifest, record = manifest.toRecord ∧ Published x ownerId env s t manifest := by
  unfold perform at h
  obtain ⟨createdAt, hcreated, h⟩ := Option.bind_eq_some_iff.mp h
  dsimp only at h
  by_cases hexists : (s.files (temporaryDatabase env.id.text)).isSome = true
  · rw [if_pos hexists] at h
    cases h
  rw [if_neg hexists] at h
  cases publication with
  | create source =>
    dsimp only at h
    by_cases hupload : source = .upload
    · rw [if_pos hupload] at h
      cases h
    rw [if_neg hupload] at h
    obtain ⟨manifest, hrecord, hpublished⟩ := publishFile_published
      (s := s.put (temporaryDatabase env.id.text) (.database env.file)) hactor hcreated hfresh h
    exact ⟨manifest, hrecord, hpublished.of_put⟩
  | upload maximumBytes =>
    dsimp only at h
    by_cases hlarge : maximumBytes < env.file.bytes.length
    · rw [if_pos hlarge] at h
      cases h
    rw [if_neg hlarge] at h
    obtain ⟨manifest, hrecord, hpublished⟩ := publishFile_published
      (s := s.put (temporaryDatabase env.id.text) (.database env.file)) hactor hcreated hfresh h
    exact ⟨manifest, hrecord, hpublished.of_put⟩

/-! ## Runs -/

/-- A state that `create` and `upload` reach with the records they returned, the
latest last; the count of retention may change between them. -/
inductive Runs (x : Libraries) (ownerId : String) : Store → List BackupRecord → Prop
  | start (s : Store) : Runs x ownerId s []
  | publish {s t : Store} {made : List BackupRecord} {env : PublishEnv} {actorId : String}
      {requestId : Option String} {actor : AdminActor} {publication : Publication}
      {record : BackupRecord} (run : Runs x ownerId s made)
      (accepted : newActor actorId requestId = .ok actor) (fresh : Fresh env s.records)
      (performed : perform x ownerId env actor s publication = some (record, t)) :
      Runs x ownerId t (made ++ [record])
  | retention {s : Store} {made : List BackupRecord} (run : Runs x ownerId s made)
      (count : Option Int) : Runs x ownerId { s with retention := count } made

/-- What holds of a returned record: its manifest is read back, its pair is gone
or as written, its record is registered, and no other record has its names. -/
structure Kept (x : Libraries) (ownerId : String) (s : Store) (record : BackupRecord)
    (manifest : BackupManifest) : Prop where
  made : record = manifest.toRecord
  readable : manifest.Readable
  pair : Pair x ownerId s manifest
  registered : record ∈ s.records.rows ∨ record.expire ∈ s.records.rows
  names : ∀ row ∈ s.records.rows, row.fileName = manifest.fileName → row.id = manifest.id

theorem Pair.of_files (h : Pair x ownerId s manifest) (hfiles : t.files = s.files) :
    Pair x ownerId t manifest :=
  h.goneOr (Or.inr (congrFun hfiles _)) (Or.inr (congrFun hfiles _))

namespace Kept

variable {record : BackupRecord} (h : Kept x ownerId s record manifest)
include h

theorem fileName_eq : manifest.fileName = "remindi-" ++ manifest.id ++ ".sqlite3" :=
  fileName_of_valid h.readable.valid

/-- The row that has been registered. -/
theorem row : ∃ row ∈ s.records.rows, row.id = manifest.id := by
  rcases h.registered with hrow | hrow
  · exact ⟨record, hrow, by rw [h.made]; rfl⟩
  · exact ⟨record.expire, hrow, by rw [h.made]; rfl⟩

/-- A later publication keeps it. -/
theorem published {env : PublishEnv} {new : BackupManifest} (hfresh : Fresh env s.records)
    (hnew : Published x ownerId env s t new) : Kept x ownerId t record manifest := by
  have hid : manifest.id ≠ new.id := by
    obtain ⟨row, hrow, hsame⟩ := h.row
    rw [← hsame, hnew.id]
    exact (hfresh row hrow).1
  have hname : manifest.fileName ≠ new.fileName := by
    rw [h.fileName_eq, fileName_of_valid hnew.readable.valid]
    exact fun heq => hid (name_injective heq)
  have hsidecar : manifestPath manifest.fileName ≠ manifestPath new.fileName := by
    rw [h.fileName_eq, fileName_of_valid hnew.readable.valid, manifestPath_eq, manifestPath_eq]
    exact fun heq => hid (name_injective heq)
  have hfile : GoneOr s t manifest.fileName := by
    refine hnew.files _ ?_ hname ?_
    · rw [h.fileName_eq]
      exact owned_append _ _
    · rw [h.fileName_eq, fileName_of_valid hnew.readable.valid, manifestPath_eq]
      exact (sidecar_ne _ _).symm
  have hpath : GoneOr s t (manifestPath manifest.fileName) := by
    refine hnew.files _ ?_ ?_ hsidecar
    · rw [h.fileName_eq, manifestPath_eq]
      exact owned_append _ _
    · rw [h.fileName_eq, fileName_of_valid hnew.readable.valid, manifestPath_eq]
      exact sidecar_ne _ _
  refine ⟨h.made, h.readable, h.pair.goneOr hfile hpath, ?_, ?_⟩
  · rcases h.registered with hrow | hrow
    · exact hnew.kept record hrow
    · exact Or.inr ((hnew.kept record.expire hrow).elim id id)
  · intro row hrow hsame
    rcases hnew.records row hrow with ⟨row', hrow', hid', hname'⟩ | ⟨-, hother⟩
    · rw [hid']
      exact h.names row' hrow' (hname'.symm.trans hsame)
    · exact absurd (hsame.symm.trans hother) hname

end Kept

theorem runs_kept {made : List BackupRecord} (h : Runs x ownerId s made) :
    ∀ record ∈ made, ∃ manifest, Kept x ownerId s record manifest := by
  induction h with
  | start s => exact fun _ h => absurd h List.not_mem_nil
  | retention run count ih =>
    intro record hrecord
    obtain ⟨manifest, hkept⟩ := ih record hrecord
    exact ⟨manifest, hkept.made, hkept.readable, hkept.pair.of_files rfl, hkept.registered,
      hkept.names⟩
  | @publish s t made env actorId requestId actor publication record run accepted fresh
      performed ih =>
    obtain ⟨new, hnew, hpublished⟩ := perform_published accepted fresh performed
    intro earlier hearlier
    rcases List.mem_append.mp hearlier with hearlier | hlast
    · obtain ⟨manifest, hkept⟩ := ih earlier hearlier
      exact ⟨manifest, hkept.published fresh hpublished⟩
    · obtain rfl := List.mem_singleton.mp hlast
      refine ⟨new, hnew, hpublished.readable, hpublished.pair, ?_, ?_⟩
      · rw [hnew]
        exact hpublished.registered
      · intro row hrow hname
        rcases hpublished.records row hrow with ⟨row', hrow', -, hsame⟩ | ⟨hid, -⟩
        · refine absurd ?_ (fresh row' hrow').2
          rw [← hsame, hname, hpublished.fileName]
        · exact hid

/-- Clock readings within the years that a timestamp can have. -/
def ReconcileEnv.Dated (env : ReconcileEnv) : Prop := ∀ n, (canonicalText (env.now n)).isSome

/-- The state once some records are lost: the pairs of the backups are as they
were, and under other names there may be any files. -/
structure Lost (s t : Store) (made : List BackupRecord) : Prop where
  records : t.records.rows.Sublist s.records.rows
  files : ∀ record ∈ made, t.files record.fileName = s.files record.fileName ∧
    t.files (manifestPath record.fileName) = s.files (manifestPath record.fileName)

/-- A published backup whose record is missing. -/
structure Missing (s : Store) (record : BackupRecord) : Prop where
  file : (s.files record.fileName).isSome
  sidecar : (s.files (manifestPath record.fileName)).isSome
  record : ∀ row ∈ s.records.rows, row.id ≠ record.id

theorem Kept.consistent {made : List BackupRecord} {record : BackupRecord}
    (h : Kept x ownerId s record manifest) (hlost : Lost s t made) (hmade : record ∈ made)
    (hmissing : Missing t record) :
    Consistent x ownerId t (manifestPath manifest.fileName) manifest := by
  have hname : record.fileName = manifest.fileName := by rw [h.made]; rfl
  obtain ⟨hfile, hsidecar⟩ := hlost.files record hmade
  have hfileExists := hmissing.file
  have hsidecarExists := hmissing.sidecar
  rw [hname] at hfile hsidecar hfileExists hsidecarExists
  have hverifies : verifyFile x ownerId (t.files manifest.fileName) =
      some ⟨manifest.sha256, manifest.sizeBytes, manifest.schemaVersion⟩ := by
    rcases h.pair.file with hgone | hverifies
    · rw [hfile, hgone] at hfileExists
      cases hfileExists
    · rw [hfile]
      exact hverifies
  have hreads : t.files (manifestPath manifest.fileName) = some (.text manifest.toJson.text) := by
    rcases h.pair.sidecar with hgone | htext
    · rw [hsidecar, hgone] at hsidecarExists
      cases hsidecarExists
    · rw [hsidecar]
      exact htext
  refine ⟨?_, rfl, hverifies⟩
  rw [hreads]
  exact h.readable.readManifest x

/-- **The inventory is rebuilt.**  A run inserts manifests of sidecars that agree
with their databases and have no record, for every backup that was published and
lost its record the one record it was registered with, and a second run none. -/
theorem inventory_rebuilt {made : List BackupRecord} {env : ReconcileEnv} {entries : List String}
    {count : Nat} (hruns : Runs x ownerId s made) (hlost : Lost s t made) (hdated : env.Dated)
    (hlisted : ∀ name, (t.files name).isSome → name ∈ entries)
    (h : reconcile x ownerId env entries t = (count, u)) :
    (∀ record ∈ made, record ∈ s.records.rows ∨ record.expire ∈ s.records.rows) ∧
      (∃ inserted, Reconciled x ownerId t u inserted ∧ inserted.length = count ∧
        ∀ record ∈ made, Missing t record → record ∈ inserted.map (·.toRecord) ∧
          ∀ row ∈ u.records.rows, row.id = record.id ∨ row.fileName = record.fileName →
            row = record) ∧
      ∀ second entries' again v, second.Dated → reconcile x ownerId second entries' u = (again, v) →
        again = 0 ∧ v.records.rows = u.records.rows := by
  have hkept := runs_kept hruns
  refine ⟨?_, ?_, ?_⟩
  · intro record hrecord
    obtain ⟨manifest, hmanifest⟩ := hkept record hrecord
    exact hmanifest.registered
  · obtain ⟨inserted, hdone, hlength, htaken⟩ := reconcile_reconciled hdated h
    refine ⟨inserted, hdone, hlength, ?_⟩
    intro record hrecord hmissing
    obtain ⟨manifest, hmanifest⟩ := hkept record hrecord
    have hconsistent := hmanifest.consistent hlost hrecord hmissing
    have hid : record.id = manifest.id := by rw [hmanifest.made]; rfl
    have hname : record.fileName = manifest.fileName := by rw [hmanifest.made]; rfl
    -- a row with one of the names is inserted now, for the manifest of this backup
    have hunique : ∀ row ∈ u.records.rows, row.id = manifest.id ∨
        row.fileName = manifest.fileName → row ∈ inserted.map (·.toRecord) ∧ row = record := by
      intro row hrow hnames
      rw [hdone.rows] at hrow
      rcases List.mem_append.mp hrow with hold | hnew
      · have hsame : row.id = manifest.id := by
          rcases hnames with hsame | hsame
          · exact hsame
          · exact hmanifest.names row (hlost.records.subset hold) hsame
        exact absurd (hsame.trans hid.symm) (hmissing.record row hold)
      · obtain ⟨m, hm, rfl⟩ := List.mem_map.mp hnew
        have hm' := hdone.consistent m hm
        have hsame : m.id = manifest.id := by
          rcases hnames with hsame | hsame
          · exact hsame
          · have hfiles : m.fileName = manifest.fileName := hsame
            rw [hm'.fileName_eq, hmanifest.fileName_eq] at hfiles
            exact name_injective hfiles
        have hfiles : m.fileName = manifest.fileName := by
          rw [hm'.fileName_eq, hmanifest.fileName_eq, hsame]
        have hreads := hm'.reads
        rw [hfiles, hconsistent.reads] at hreads
        obtain rfl := Option.some.inj hreads
        exact ⟨hnew, hmanifest.made.symm⟩
    have hexists : (t.files (manifestPath manifest.fileName)).isSome := by
      rw [← hname]
      exact hmissing.sidecar
    obtain ⟨row, hrow, hnames⟩ := htaken _ (hlisted _ hexists) manifest hconsistent
    obtain ⟨hinserted, rfl⟩ := hunique row hrow hnames
    refine ⟨hinserted, ?_⟩
    intro row' hrow' hnames'
    rw [hid, hname] at hnames'
    exact (hunique row' hrow' hnames').2
  · intro second entries' again v hdated' h'
    exact reconcile_twice hdated hdated' hlisted h h'

namespace Sample

/-- The digest of the bytes of an empty snapshot. -/
def digest : String :=
  "5756bb13943b4698d0de97f02e358121ef2380eaf44936f5f3815298d06c471b"

theorem digest_digits : digest.toList.all isHexDigit = true := by decide +kernel

theorem digest_hex : ∀ c ∈ digest.toList, ('0' ≤ c ∧ c ≤ '9') ∨ ('a' ≤ c ∧ c ≤ 'f') := by
  intro c hc
  have h := List.all_eq_true.mp digest_digits c hc
  simp only [isHexDigit, Bool.or_eq_true, Bool.and_eq_true, decide_eq_true_eq] at h
  exact h

def libraries : Libraries where
  parse := read
  parse_text := fun _ _ => read_text _
  sha256 := fun _ => digest
  sha256_length := fun _ => by decide +kernel
  sha256_hex := fun _ => digest_hex

def publishEnv : PublishEnv where
  id := RemindiCore.Sample.uuid 1
  now := RemindiCore.Sample.second 1000
  verifiedAt := RemindiCore.Sample.second 1001
  registeredAt := RemindiCore.Sample.second 1002
  eventId := RemindiCore.Sample.uuid 2
  file := snapshot Db.empty
  retention := retentionEnv fun _ => false

def emptyStore : Store where
  files := fun _ => none
  records := ⟨[], List.nodup_nil⟩
  events := []
  retention := some 3

/-- One manual backup. -/
noncomputable def published : Option (BackupRecord × Store) :=
  perform libraries "owner" publishEnv admin emptyStore (.create .manual)

theorem published_isSome : published.isSome = true := rfl

def reconcileEnv : ReconcileEnv where
  now := fun _ => RemindiCore.Sample.second 2000
  refused := fun _ => false

end Sample

/-- The record of a manual backup is lost and found again. -/
theorem sample_rebuilt : ∃ record s t u count entries, Runs Sample.libraries "owner" s [record] ∧
    t.records.rows = [] ∧
    reconcile Sample.libraries "owner" Sample.reconcileEnv entries t = (count, u) ∧
    record ∈ u.records.rows := by
  obtain ⟨⟨record, s⟩, hpublished⟩ := Option.isSome_iff_exists.mp Sample.published_isSome
  have hperform : perform Sample.libraries "owner" Sample.publishEnv Sample.admin
    Sample.emptyStore (.create .manual) = some (record, s) := hpublished
  have haccepted : newActor "admin" none = .ok Sample.admin := rfl
  have hruns : Runs Sample.libraries "owner" s [record] :=
    .publish (.start Sample.emptyStore) haccepted (fun _ h => absurd h List.not_mem_nil) hperform
  have hrecord : record = (Sample.published.get Sample.published_isSome).1 := by
    simp only [hpublished, Option.get_some]
  have hstore : s = (Sample.published.get Sample.published_isSome).2 := by
    simp only [hpublished, Option.get_some]
  have hfile : (s.files record.fileName).isSome = true := by
    rw [hstore, hrecord]
    rfl
  have hsidecar : (s.files (manifestPath record.fileName)).isSome = true := by
    rw [hstore, hrecord]
    decide +kernel
  -- the pair is all that is left
  let names := [record.fileName, manifestPath record.fileName]
  let t : Store :=
    { s with
      files := fun name => if name ∈ names then s.files name else none
      records := ⟨[], List.nodup_nil⟩ }
  have hkept : ∀ name ∈ names, t.files name = s.files name := fun name hname => if_pos hname
  have hlost : Lost s t [record] := by
    refine ⟨List.nil_sublist _, ?_⟩
    intro r hr
    obtain rfl := List.mem_singleton.mp hr
    exact ⟨hkept _ (by simp [names]), hkept _ (by simp [names])⟩
  have hlisted : ∀ name, (t.files name).isSome → name ∈ names := by
    intro name hname
    by_contra hout
    rw [show t.files name = none from if_neg hout] at hname
    cases hname
  have hdated : Sample.reconcileEnv.Dated := fun _ => rfl
  have hmissing : Missing t record := by
    obtain ⟨hfileKept, hsidecarKept⟩ := hlost.files record (List.mem_singleton_self _)
    exact ⟨by rw [hfileKept]; exact hfile, by rw [hsidecarKept]; exact hsidecar,
      fun _ h => absurd h List.not_mem_nil⟩
  obtain ⟨-, ⟨inserted, hdone, -, hall⟩, -⟩ :=
    inventory_rebuilt hruns hlost hdated hlisted (Prod.eta _).symm
  refine ⟨record, s, t, _, _, names, hruns, rfl, (Prod.eta _).symm, ?_⟩
  rw [hdone.rows]
  exact List.mem_append_right _ (hall record (List.mem_singleton_self _) hmissing).1

end RemindiCore.Admin.Catalog
