import RemindiCore.Admin.Manifests
import RemindiCore.Proof.AdminRows
import RemindiCore.Lib.Rfc3339
import RemindiCore.Lib.TextOrder
import Mathlib.Data.String.Basic

/-!
# Manifests are read back

The manifest that `finish` makes of a file that verifies, for an actor that
`AdminActor::new` accepts, is within the bounds of `validate_manifest` and of
the reader (`finishManifest_readable`).
-/

namespace RemindiCore.Admin.Catalog

open CivilTime DigitText JsonText KeyedTable Transaction Triggers

/-! ## Fields -/

theorem asSource_sourceText (source : BackupSource) :
    asSource (.string (sourceText source)) = some source := by
  cases source <;> decide

/-- **A manifest is read back from its JSON.** -/
theorem ofJson_toJson (manifest : BackupManifest) :
    BackupManifest.ofJson manifest.toJson = some manifest := by
  have hfields : manifestFields manifest.toJson = some [.string manifest.id,
      .string manifest.fileName, .string (sourceText manifest.source), .string manifest.sha256,
      .ofInt manifest.sizeBytes.val, .ofInt manifest.schemaVersion.val, .string manifest.createdAt,
      .string manifest.verifiedAt, .string manifest.createdBy, manifest.details] := rfl
  unfold BackupManifest.ofJson
  rw [hfields]
  simp only [Option.bind_eq_bind, Option.bind_some, asText, asSource_sourceText, asI64_ofInt]
  rfl

/-! ## Sizes -/

theorem utf8Len_flatMap_le {l : List Char} {f : Char → List Char}
    (h : ∀ c ∈ l, String.utf8Len (f c) ≤ 2 * c.utf8Size) :
    String.utf8Len (l.flatMap f) ≤ 2 * String.utf8Len l := by
  induction l with
  | nil => simp
  | cons c l ih =>
    obtain ⟨hc, hl⟩ := List.forall_mem_cons.mp h
    rw [List.flatMap_cons, String.utf8Len_append, String.utf8Len_cons]
    have := ih hl
    omega

/-- A character that is no control character takes at most twice its bytes. -/
theorem utf8Len_escapeChar {c : Char} (h : isControl c = false) :
    String.utf8Len (escapeChar c) ≤ 2 * c.utf8Size := by
  have hprintable : ¬ c.toNat < 32 := by
    intro hlt
    unfold isControl at h
    simp [hlt] at h
  have hpos := c.utf8Size_pos
  unfold escapeChar
  by_cases hquote : c = '"'
  · rw [if_pos hquote, hquote]
    decide
  rw [if_neg hquote]
  by_cases hslash : c = '\\'
  · rw [if_pos hslash, hslash]
    decide
  rw [if_neg hslash, if_neg (by omega), if_neg (by omega), if_neg (by omega), if_neg (by omega),
    if_neg (by omega), if_neg hprintable]
  simp only [String.utf8Len_cons, String.utf8Len_nil]
  omega

theorem utf8Len_toList (s : String) : String.utf8Len s.toList = s.utf8ByteSize := by
  rw [← String.utf8ByteSize_ofList, String.ofList_toList]

theorem utf8Len_writeText {s : String} (h : ∀ c ∈ s.toList, isControl c = false) :
    String.utf8Len (writeText s) ≤ 2 * s.utf8ByteSize + 2 := by
  have hbody := utf8Len_flatMap_le (l := s.toList) (f := escapeChar) fun c hc =>
    utf8Len_escapeChar (h c hc)
  rw [utf8Len_toList] at hbody
  unfold writeText
  rw [String.utf8Len_cons, String.utf8Len_append, String.utf8Len_cons, String.utf8Len_nil]
  have hquote : '"'.utf8Size = 1 := by decide
  omega

/-- A text of printable characters, of at most `n` bytes. -/
structure Short (n : Nat) (s : String) : Prop where
  printable : ∀ c ∈ s.toList, isControl c = false
  bytes : s.utf8ByteSize ≤ n

theorem Short.written {n : Nat} {s : String} (h : Short n s) :
    String.utf8Len (Json.string s).write ≤ 2 * n + 2 := by
  have hle := utf8Len_writeText h.printable
  have hbytes := h.bytes
  show String.utf8Len (writeText s) ≤ _
  omega

/-! ## The texts of a manifest -/

/-- Characters of printable ASCII. -/
def Plain (l : List Char) : Prop := ∀ c ∈ l, 32 ≤ c.toNat ∧ c.toNat < 127

theorem Plain.printable {l : List Char} (h : Plain l) : ∀ c ∈ l, isControl c = false := by
  intro c hc
  obtain ⟨hlow, hhigh⟩ := h c hc
  unfold isControl
  simp only [Bool.or_eq_false_iff, Bool.and_eq_false_iff, decide_eq_false_iff_not]
  omega

theorem Plain.append {l m : List Char} (hl : Plain l) (hm : Plain m) : Plain (l ++ m) := by
  intro c hc
  rcases List.mem_append.mp hc with hc | hc
  · exact hl c hc
  · exact hm c hc

theorem Plain.cons {c : Char} {l : List Char} (hc : 32 ≤ c.toNat ∧ c.toNat < 127) (hl : Plain l) :
    Plain (c :: l) := by
  intro d hd
  rcases List.mem_cons.mp hd with rfl | hd
  · exact hc
  · exact hl d hd

/-- One byte for each character. -/
theorem Plain.utf8Len {l : List Char} (h : Plain l) : String.utf8Len l = l.length := by
  induction l with
  | nil => rfl
  | cons c l ih =>
    have hc : c.utf8Size = 1 := by
      have hlow := (h c List.mem_cons_self).2
      exact Char.utf8Size_eq_one_iff.mpr (UInt32.le_iff_toNat_le.mpr (show c.toNat ≤ 127 by omega))
    rw [String.utf8Len_cons, hc, ih fun d hd => h d (List.mem_cons_of_mem c hd), List.length_cons]

theorem Plain.utf8ByteSize {s : String} (h : Plain s.toList) :
    s.utf8ByteSize = s.toList.length := by
  rw [← utf8Len_toList, h.utf8Len]

theorem Plain.short {n : Nat} {s : String} (h : Plain s.toList) (hlength : s.toList.length ≤ n) :
    Short n s :=
  ⟨h.printable, by rw [h.utf8ByteSize]; exact hlength⟩

theorem toNat_bounds {a b c : Char} (h : a ≤ c ∧ c ≤ b) : a.toNat ≤ c.toNat ∧ c.toNat ≤ b.toNat :=
  ⟨UInt32.le_iff_toNat_le.mp h.1, UInt32.le_iff_toNat_le.mp h.2⟩

/-- A lower case hexadecimal digit. -/
theorem plain_hex {c : Char} (h : ('0' ≤ c ∧ c ≤ '9') ∨ ('a' ≤ c ∧ c ≤ 'f')) :
    32 ≤ c.toNat ∧ c.toNat < 127 := by
  have hzero : '0'.toNat = 48 := rfl
  have hnine : '9'.toNat = 57 := rfl
  have ha : 'a'.toNat = 97 := rfl
  have hf : 'f'.toNat = 102 := rfl
  rcases h with h | h
  · have := toNat_bounds h
    omega
  · have := toNat_bounds h
    omega

theorem plain_digits {l : List Char} (h : ∀ c ∈ l, c.isDigit = true) : Plain l := by
  intro c hc
  have hdigit := h c hc
  unfold Char.isDigit at hdigit
  simp only [Bool.and_eq_true, decide_eq_true_eq] at hdigit
  exact plain_hex (Or.inl hdigit)

theorem plain_pad (w n : Nat) : Plain (pad w n) := plain_digits fun _ hc => isDigit_of_mem_pad hc

theorem utf8Len_ofInt (n : I64) : String.utf8Len (Json.ofInt n.val).write ≤ 20 := by
  have hlower := n.lower
  have hupper := n.upper
  have hplain : Plain (decimal n.val.natAbs) := plain_digits fun _ hc => isDigit_of_mem_decimal hc
  have hdigits : (decimal n.val.natAbs).length ≤ 19 :=
    (Nat.length_toDigits_le_iff (by decide) (by decide)).mpr (by omega)
  show String.utf8Len
    (if n.val < 0 then '-' :: decimal n.val.natAbs else decimal n.val.natAbs) ≤ 20
  by_cases hneg : n.val < 0
  · have hsign : '-'.utf8Size = 1 := by decide
    rw [if_pos hneg, String.utf8Len_cons, hplain.utf8Len, hsign]
    omega
  · rw [if_neg hneg, hplain.utf8Len]
    omega

theorem uuid_chars (id : Uuid) : id.text.toList.length = 36 ∧
    ∀ c ∈ id.text.toList, c = '-' ∨ ('0' ≤ c ∧ c ≤ '9') ∨ ('a' ≤ c ∧ c ≤ 'f') := by
  have hform := id.wellFormed
  unfold uuidText at hform
  simp only [Bool.and_eq_true, beq_iff_eq, List.all_eq_true] at hform
  obtain ⟨hlength, hchars⟩ := hform
  refine ⟨hlength, ?_⟩
  intro c hc
  obtain ⟨i, hi, hget⟩ := List.mem_iff_getElem.mp hc
  have hmem : (c, i) ∈ id.text.toList.zipIdx := by
    rw [List.mem_zipIdx_iff_getElem?, ← hget]
    exact List.getElem?_eq_getElem hi
  have hchar := hchars (c, i) hmem
  dsimp only at hchar
  split at hchar
  · exact Or.inl (beq_iff_eq.mp hchar)
  · exact Or.inr (by simpa using hchar)

theorem uuid_plain (id : Uuid) : Plain id.text.toList ∧ id.text.toList.length = 36 := by
  obtain ⟨hlength, hchars⟩ := uuid_chars id
  refine ⟨?_, hlength⟩
  intro c hc
  rcases hchars c hc with rfl | hhex
  · decide
  · exact plain_hex hhex

theorem uuid_short (id : Uuid) : Short 36 id.text := by
  obtain ⟨hplain, hlength⟩ := uuid_plain id
  exact hplain.short (by omega)

theorem plain_of_all {l : List Char}
    (h : (l.all fun c => decide (32 ≤ c.toNat ∧ c.toNat < 127)) = true) : Plain l := by
  intro c hc
  exact of_decide_eq_true (List.all_eq_true.mp h c hc)

theorem backupFileName_toList (id : Uuid) :
    (backupFileName id).toList = "remindi-".toList ++ id.text.toList ++ ".sqlite3".toList := by
  unfold backupFileName
  rw [String.toList_append, String.toList_append]

theorem backupFileName_plain (id : Uuid) :
    Plain (backupFileName id).toList ∧ (backupFileName id).toList.length = 52 := by
  obtain ⟨hplain, hlength⟩ := uuid_plain id
  rw [backupFileName_toList]
  refine ⟨((plain_of_all (by decide)).append hplain).append (plain_of_all (by decide)), ?_⟩
  rw [List.length_append, List.length_append, hlength]
  decide

theorem backupFileName_short (id : Uuid) : Short 52 (backupFileName id) := by
  obtain ⟨hplain, hlength⟩ := backupFileName_plain id
  exact hplain.short (by omega)

theorem safeFileName_backupFileName (id : Uuid) : safeFileName (backupFileName id) = true := by
  obtain ⟨hplain, hlength⟩ := backupFileName_plain id
  have hslash : '/' ∉ (backupFileName id).toList := by
    rw [backupFileName_toList]
    simp only [List.mem_append, not_or]
    refine ⟨⟨by decide, ?_⟩, by decide⟩
    intro hmem
    rcases (uuid_chars id).2 '/' hmem with h | h | h
    · exact absurd h (by decide)
    · exact absurd h (by decide)
    · exact absurd h (by decide)
  have hcontains : (backupFileName id).toList.contains '/' = false := by
    simpa using hslash
  have hsuffix : ".sqlite3".toList <:+ (backupFileName id).toList :=
    ⟨_, (backupFileName_toList id).symm⟩
  have hstart : "remindi-".toList <+: (backupFileName id).toList := by
    rw [backupFileName_toList, List.append_assoc]
    exact List.prefix_append _ _
  have hempty : (backupFileName id).toList.isEmpty = false := by
    rw [List.isEmpty_eq_false_iff_exists_mem]
    exact ⟨'r', hstart.subset (by decide)⟩
  unfold safeFileName
  rw [hplain.utf8ByteSize, hlength, hcontains, hempty, List.isPrefixOf_iff_prefix.mpr hstart,
    List.isSuffixOf_iff_suffix.mpr hsuffix]
  rfl

theorem sourceText_short (source : BackupSource) : Short 11 (sourceText source) := by
  cases source <;> exact ⟨(plain_of_all (by decide)).printable, by decide⟩

theorem canonicalText_short {t : OffsetDateTime} {text : String}
    (h : canonicalText t = some text) : Short 25 text := by
  have hyear := year_of_canonicalText h
  have hdate := civilOfDays_bounds t.toUtc.localDay
  have hnano := t.toUtc.nanoOfDay_lt
  have hsign : Plain (if t.toUtc.year < 0 then ['-'] else []) ∧
      (if t.toUtc.year < 0 then ['-'] else []).length ≤ 1 := by
    by_cases hneg : t.toUtc.year < 0
    · rw [if_pos hneg]
      exact ⟨plain_of_all (by decide), by decide⟩
    · rw [if_neg hneg]
      exact ⟨plain_of_all (by decide), by decide⟩
  have hafter : Plain (afterYear t) ∧ (afterYear t).length = 20 := by
    unfold afterYear
    have hsmall : ∀ n, n < 100 → (pad 2 n).length = 2 := fun n hn => length_pad (by decide) (by omega)
    have hlarge : ∀ n, n < 1000 → (pad 3 n).length = 3 := fun n hn => length_pad (by decide) (by omega)
    constructor
    · refine Plain.cons (by decide) ((plain_pad _ _).append (Plain.cons (by decide) ?_))
      refine (plain_pad _ _).append (Plain.cons (by decide) ?_)
      refine (plain_pad _ _).append (Plain.cons (by decide) ?_)
      refine (plain_pad _ _).append (Plain.cons (by decide) ?_)
      refine (plain_pad _ _).append (Plain.cons (by decide) ?_)
      exact (plain_pad _ _).append (plain_of_all (by decide))
    · simp only [List.length_cons, List.length_append, List.length_nil]
      rw [hsmall _ (by omega), hsmall _ (by omega), hsmall _ (by omega), hsmall _ (by omega),
        hsmall _ (by omega), hlarge _ (by omega)]
  have hparts := canonicalText_parts h
  have htext : Plain text.toList := by
    rw [hparts]
    exact (hsign.1.append (plain_pad _ _)).append hafter.1
  refine htext.short ?_
  rw [hparts, List.length_append, List.length_append,
    length_pad (by decide) (by omega), hafter.2]
  omega

/-! ## Reading back -/

theorem utf8Len_writeMembers {members : List (String × Json)} {sep : List Char}
    (hsep : String.utf8Len sep ≤ 1)
    (h : ∀ m ∈ members, String.utf8Len (writeText m.1) ≤ 40 ∧ String.utf8Len m.2.write ≤ 1000) :
    String.utf8Len (writeMembers sep members) ≤ 1042 * members.length + 1 := by
  have hbrace : (Char.ofNat 125).utf8Size = 1 := by decide
  have hcolon : ':'.utf8Size = 1 := by decide
  induction members generalizing sep with
  | nil =>
    show String.utf8Len [Char.ofNat 125] ≤ _
    rw [String.utf8Len_cons, hbrace]
    decide
  | cons m members ih =>
    obtain ⟨name, value⟩ := m
    obtain ⟨hm, hmembers⟩ := List.forall_mem_cons.mp h
    have hrest : String.utf8Len (writeMembers [','] members) ≤ 1042 * members.length + 1 :=
      ih (by decide) hmembers
    show String.utf8Len (sep ++ (writeText name ++ ':' :: (value.write ++
      writeMembers [','] members))) ≤ _
    rw [String.utf8Len_append, String.utf8Len_append, String.utf8Len_cons, String.utf8Len_append,
      hcolon, List.length_cons]
    dsimp only at hm
    omega

theorem utf8ByteSize_object {members : List (String × Json)} (hlength : members.length ≤ 10)
    (hnames : ∀ name ∈ members.map Prod.fst, String.utf8Len (writeText name) ≤ 40)
    (hvalues : ∀ value ∈ members.map Prod.snd, String.utf8Len value.write ≤ 1000) :
    (Json.object members).text.utf8ByteSize ≤ 16 * 1024 := by
  have hmembers : String.utf8Len (writeMembers [] members) ≤ 1042 * members.length + 1 :=
    utf8Len_writeMembers (by decide) fun m (hm : m ∈ members) =>
    ⟨hnames m.1 (List.mem_map_of_mem hm), hvalues m.2 (List.mem_map_of_mem hm)⟩
  have hbrace : (Char.ofNat 123).utf8Size = 1 := by decide
  show (String.ofList (Char.ofNat 123 :: writeMembers [] members)).utf8ByteSize ≤ _
  rw [String.utf8ByteSize_ofList, String.utf8Len_cons, hbrace]
  omega

/-- What the reader asks of a manifest. -/
structure BackupManifest.Readable (manifest : BackupManifest) : Prop where
  valid : validateManifest manifest = true
  details : manifest.details = .ofMap []
  bytes : manifest.toJson.text.utf8ByteSize ≤ 16 * 1024

theorem BackupManifest.Readable.readManifest {manifest : BackupManifest} (h : manifest.Readable)
    (x : Libraries) : readManifest x (some (.text manifest.toJson.text)) = some manifest := by
  have hbytes := h.bytes
  unfold Catalog.readManifest
  dsimp only
  rw [if_neg (by omega), x.parse_text manifest h.details, Option.bind_some, ofJson_toJson]
  dsimp only
  rw [if_pos h.valid]

theorem newActor_ok {actorId : String} {requestId : Option String} {actor : AdminActor}
    (h : newActor actorId requestId = .ok actor) :
    actor.actorId ≠ "" ∧ Short 256 actor.actorId := by
  unfold newActor at h
  by_cases hbad : trim actorId = "" ∨ 256 < actorId.utf8ByteSize ∨
      actorId.toList.any isControl = true ∨
      ∃ id ∈ requestId, id = "" ∨ 128 < id.utf8ByteSize ∨ id.toList.any isControl = true
  · rw [if_pos hbad] at h
    cases h
  rw [if_neg hbad] at h
  cases h
  simp only [not_or, not_lt, Bool.not_eq_true, List.any_eq_false] at hbad
  obtain ⟨htrim, hbytes, hcontrol, -⟩ := hbad
  refine ⟨?_, hcontrol, hbytes⟩
  rintro rfl
  exact htrim (by decide)

theorem verifyDatabaseAt_ok {hashFile : DatabaseFile → VerifiedFile} {file : DatabaseFile}
    {ownerId : String} {result : VerifiedFile}
    (h : verifyDatabaseAt hashFile file ownerId = .ok result) :
    18 ≤ file.bytes.length ∧ 1 ≤ schemaVersion file ∧
      schemaVersion file ≤ CURRENT_SCHEMA_VERSION ∧ result = hashFile file := by
  unfold verifyDatabaseAt at h
  obtain ⟨_, hheader, h⟩ := except_bind_ok.mp h
  have hlength : 18 ≤ file.bytes.length := by
    by_contra hshort
    unfold verifyHeader at hheader
    rw [if_pos (by omega)] at hheader
    cases hheader
  by_cases hintegrity : file.integrityCheck ≠ some "ok"
  · rw [if_pos hintegrity] at h
    cases h
  rw [if_neg hintegrity] at h
  by_cases hschema : ¬(1 ≤ schemaVersion file ∧ schemaVersion file ≤ CURRENT_SCHEMA_VERSION)
  · rw [if_pos hschema] at h
    cases h
  rw [if_neg hschema] at h
  split at h
  · cases h
  · cases h
    exact ⟨hlength, (not_not.mp hschema).1, (not_not.mp hschema).2, rfl⟩

theorem verifyFile_ok {x : Libraries} {ownerId : String} {content : Option Content}
    {verified : Verified} (h : verifyFile x ownerId content = some verified) :
    (∃ bytes, verified.sha256 = x.sha256 bytes) ∧ 0 < verified.sizeBytes.val ∧
      1 ≤ verified.schemaVersion.val ∧ verified.schemaVersion.val ≤ CURRENT_SCHEMA_VERSION := by
  unfold verifyFile at h
  split at h
  · next file =>
    split at h
    · next result hresult =>
      obtain ⟨hlength, hlow, hhigh, rfl⟩ := verifyDatabaseAt_ok hresult
      split at h
      · split at h
        · cases h
          exact ⟨⟨file.bytes, rfl⟩, by dsimp only; omega, hlow, hhigh⟩
        · cases h
      · cases h
    · cases h
  · cases h

theorem verifyDatabase_ok {x : Libraries} {ownerId : String} {now : OffsetDateTime}
    {content : Option Content} {verified : Verified} {verifiedAt : String} :
    verifyDatabase x ownerId now content = some (verified, verifiedAt) ↔
      verifyFile x ownerId content = some verified ∧ canonicalText now = some verifiedAt := by
  unfold verifyDatabase
  cases verifyFile x ownerId content with
  | none => simp
  | some v =>
    cases canonicalText now with
    | none => simp
    | some text => simp

theorem validateManifest_iff {manifest : BackupManifest} : validateManifest manifest = true ↔
    (Uuid.parse manifest.id).isSome = true ∧
    manifest.fileName = "remindi-" ++ manifest.id ++ ".sqlite3" ∧
    safeFileName manifest.fileName = true ∧
    manifest.sha256.utf8ByteSize = 64 ∧ manifest.sha256.toList.all isHexDigit = true ∧
    0 < manifest.sizeBytes.val ∧
    (1 ≤ manifest.schemaVersion.val ∧ manifest.schemaVersion.val ≤ CURRENT_SCHEMA_VERSION) ∧
    (manifest.createdBy ≠ "" ∧ manifest.createdBy.utf8ByteSize ≤ 256) ∧
    manifest.createdBy.toList.any isControl = false ∧ manifest.details.isObject = true ∧
    manifest.details.text.utf8ByteSize ≤ 1024 := by
  unfold validateManifest
  simp only [Bool.and_eq_true, decide_eq_true_eq, Bool.not_eq_true', and_assoc]

/-- **A produced manifest is read back.** -/
theorem finishManifest_readable {x : Libraries} {ownerId : String} {env : PublishEnv}
    {source : BackupSource} {actorId : String} {requestId : Option String} {actor : AdminActor}
    {createdAt verifiedAt : String} {content : Option Content} {verified : Verified}
    (hactor : newActor actorId requestId = .ok actor)
    (hcreated : canonicalText env.now = some createdAt)
    (hverify : verifyDatabase x ownerId env.verifiedAt content = some (verified, verifiedAt)) :
    (finishManifest env source actor createdAt verified verifiedAt).Readable := by
  obtain ⟨hfile, hverifiedAt⟩ := verifyDatabase_ok.mp hverify
  obtain ⟨⟨bytes, hsha⟩, hsize, hschema⟩ := verifyFile_ok hfile
  obtain ⟨hne, hactorShort⟩ := newActor_ok hactor
  have hhex : ∀ c ∈ verified.sha256.toList, ('0' ≤ c ∧ c ≤ '9') ∨ ('a' ≤ c ∧ c ≤ 'f') := by
    rw [hsha]
    exact x.sha256_hex bytes
  have hplain : Plain verified.sha256.toList := fun c hc => plain_hex (hhex c hc)
  have hlength : verified.sha256.toList.length = 64 := by
    rw [hsha]
    exact x.sha256_length bytes
  constructor
  · refine validateManifest_iff.mpr ⟨?_, rfl, safeFileName_backupFileName env.id, ?_, ?_, hsize,
      hschema, ⟨hne, hactorShort.bytes⟩, ?_, rfl, ?_⟩
    · show (Uuid.parse env.id.text).isSome = true
      rw [Uuid.parse_text]
      rfl
    · show verified.sha256.utf8ByteSize = 64
      rw [hplain.utf8ByteSize, hlength]
    · refine List.all_eq_true.mpr fun c hc => ?_
      unfold isHexDigit
      simpa using hhex c hc
    · refine List.any_eq_false.mpr fun c hc => ?_
      rw [hactorShort.printable c hc]
      decide
    · show (Json.ofMap []).text.utf8ByteSize ≤ 1024
      decide
  · rfl
  · have hcreatedShort := canonicalText_short hcreated
    have hverifiedShort := canonicalText_short hverifiedAt
    have hshaShort : Short 64 verified.sha256 := hplain.short (by omega)
    refine utf8ByteSize_object (by simp) ?_ ?_
    · show ∀ name ∈ ["id", "file_name", "source", "sha256", "size_bytes", "schema_version",
        "created_at", "verified_at", "created_by", "details"],
        String.utf8Len (writeText name) ≤ 40
      decide
    · have hid := (uuid_short env.id).written
      have hname := (backupFileName_short env.id).written
      have hsource := (sourceText_short source).written
      have hactorText := hactorShort.written
      have hshaText := hshaShort.written
      have hcreatedText := hcreatedShort.written
      have hverifiedText := hverifiedShort.written
      have hbytes := utf8Len_ofInt verified.sizeBytes
      have hversion := utf8Len_ofInt verified.schemaVersion
      have hdetails : String.utf8Len (Json.ofMap []).write = 2 := by decide
      simp only [List.map_cons, List.map_nil, List.forall_mem_cons, finishManifest]
      refine ⟨by omega, by omega, by omega, by omega, by omega, by omega, by omega, by omega,
        by omega, by omega, ?_⟩
      intro value hvalue
      cases hvalue

end RemindiCore.Admin.Catalog
