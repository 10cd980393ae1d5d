import RemindiCore.Proof.Columns
import RemindiCore.Proof.Writes

/-!
# Validation and the schema

The service checks a request before it writes, and the schema checks every row
again.  The two agree on everything but the length of a text: the service
counts characters, `length` stops at the first NUL.  A statement whose columns
are bound is refused exactly when a text that the schema measures begins with a
NUL (`Contract`), and `validated_writes_accepted_iff` says it of a whole call.
-/

namespace RemindiCore

open CivilTime JsonText KeyedTable Transaction

/-! ## Lengths -/

def StartsWithNul (text : String) : Prop := text.toList.head? = some (Char.ofNat 0)

instance (text : String) : Decidable (StartsWithNul text) := by
  unfold StartsWithNul
  infer_instance

theorem sqlLength_le (text : String) : sqlLength text ≤ text.length := by
  unfold sqlLength
  rw [← String.length_toList]
  exact (List.takeWhile_sublist _).length_le

theorem one_le_sqlLength {text : String} (h : text ≠ "") :
    1 ≤ sqlLength text ↔ ¬ StartsWithNul text := by
  unfold sqlLength StartsWithNul
  cases hlist : text.toList with
  | nil => exact absurd (String.toList_eq_nil_iff.mp hlist) h
  | cons c rest =>
    by_cases hc : c = Char.ofNat 0
    · simp [hc]
    · simp [hc]

/-! ## What validation promises -/

theorem requiredText_bound {value text : String} {maximum : Nat}
    (h : requiredText value maximum = .ok text) :
    text = trim value ∧ text ≠ "" ∧ text.length ≤ maximum := by
  unfold requiredText at h
  dsimp only at h
  split at h
  · cases h
  · next hvalid =>
    obtain rfl := Except.ok.inj h
    obtain ⟨hne, hlength⟩ := not_or.mp hvalid
    exact ⟨rfl, hne, by omega⟩

theorem optionalBounded_bound {value result : Option String} {maximum : Nat}
    (h : optionalBounded value maximum = .ok result) :
    ∀ text, result = some text → sqlLength text ≤ maximum := by
  intro text htext
  unfold optionalBounded at h
  cases value with
  | none =>
    cases h
    cases htext
  | some value =>
    dsimp only at h
    split at h
    · next hlength =>
      cases h
      obtain rfl := Option.some.inj htext
      exact (sqlLength_le value).trans hlength
    · cases h

/-- What the validation of links promises. -/
structure ValidLinks (values : List LinkInput) : Prop where
  nonempty : ∀ link ∈ values, link.value ≠ ""
  length : ∀ link ∈ values, link.value.length ≤ 2048
  nodup : values.Nodup

theorem validateLinksFrom_ok {prior values : List LinkInput}
    (h : validateLinksFrom prior values = .ok ()) :
    ValidLinks values ∧ ∀ link ∈ values, link ∉ prior := by
  induction values generalizing prior with
  | nil => exact ⟨⟨by simp, by simp, List.nodup_nil⟩, by simp⟩
  | cons link rest ih =>
    unfold validateLinksFrom at h
    split at h
    · cases h
    · next hvalid =>
      rw [not_or, not_or] at hvalid
      obtain ⟨hne, hlength, hprior⟩ := hvalid
      obtain ⟨hrest, hother⟩ := ih h
      have hvalue : link.value ≠ "" := by
        intro hempty
        rw [hempty] at hne
        exact hne rfl
      refine ⟨⟨?_, ?_, ?_⟩, ?_⟩
      · exact List.forall_mem_cons.mpr ⟨hvalue, hrest.nonempty⟩
      · exact List.forall_mem_cons.mpr ⟨by omega, hrest.length⟩
      · refine List.nodup_cons.mpr ⟨fun hmem => ?_, hrest.nodup⟩
        exact hother link hmem (List.mem_append_right _ (List.mem_singleton_self link))
      · refine List.forall_mem_cons.mpr ⟨hprior, fun other hmem hbefore => ?_⟩
        exact hother other hmem (List.mem_append_left _ hbefore)

theorem validateLinks_ok {values : List LinkInput} (h : validateLinks values = .ok ()) :
    ValidLinks values := by
  unfold validateLinks at h
  split at h
  · cases h
  · exact (validateLinksFrom_ok h).1

theorem validate_summary {input : EvidenceInput} {now : OffsetDateTime} {skew : Nat}
    {evidence : ValidatedEvidence} (h : input.validate now skew = .ok evidence) :
    evidence.input.summary = trim input.summary := by
  unfold EvidenceInput.validate at h
  dsimp only at h
  split at h
  · cases h
  split at h
  · cases h
  split at h
  · cases h
  split at h
  · cases h
  split at h
  · cases h
  split at h
  · cases h
  split at h
  · cases h
  split at h
  · cases h
  · obtain rfl := Except.ok.inj h
    rfl

theorem prepareAdd_texts {actor : Actor} {raw request : AddRequest}
    (h : prepareAdd actor raw = .ok request) :
    requiredText raw.message 8192 = .ok request.message ∧
      optionalBounded raw.instructions 32768 = .ok request.instructions ∧
      validateLinks raw.links = .ok () ∧ request.links = raw.links := by
  unfold prepareAdd at h
  simp only [except_bind_ok] at h
  obtain ⟨_, -, _, -, _, -, message, hmessage, _, -, _, hinstructions, _, -, _, -, _, -, _, -, _, -,
    _, hlinks, _, -, h⟩ := h
  cases h
  exact ⟨hmessage, hinstructions, hlinks, rfl⟩

theorem prepareUpdate_texts {actor : Actor} {raw request : UpdateRequest}
    (h : prepareUpdate actor raw = .ok request) :
    raw.message.mapM (fun message => requiredText message 8192) = .ok request.message ∧
      raw.instructions.mapM (fun instructions => optionalBounded instructions 32768) =
        .ok request.instructions ∧
      whenSome raw.links validateLinks = .ok () ∧ request.links = raw.links := by
  unfold prepareUpdate at h
  simp only [except_bind_ok] at h
  obtain ⟨_, -, _, -, _, -, _, -, _, -, _, hmessage, _, hinstructions, _, -, _, -, _, hlinks, _, -,
    h⟩ := h
  cases h
  exact ⟨hmessage, hinstructions, hlinks, rfl⟩

/-! ## Stored rows -/

/-- The texts of the row are short enough. -/
structure Remindi.Texts (row : Remindi) : Prop where
  message : sqlLength row.message ≤ 8192
  instructions : ∀ text, row.instructions = some text → sqlLength text ≤ 32768

/-- **A coherent row is refused for an empty message only.** -/
theorem remindiChecks_iff {row : Remindi} (h : Lifecycle row) (htexts : row.Texts)
    (hversion : 1 ≤ row.version) : remindiChecks row = true ↔ 1 ≤ sqlLength row.message := by
  have hinstructions : row.instructions.all (fun text => sqlLength text ≤ 32768) = true := by
    cases hsome : row.instructions with
    | none => rfl
    | some text => exact decide_eq_true (htexts.instructions text hsome)
  have hresumes : row.snoozedFromState.all (fun s => s == .due || s == .overdue) = true := by
    cases hsome : row.snoozedFromState with
    | none => rfl
    | some state => rcases h.resumes state hsome with rfl | rfl <;> rfl
  have hclosed : (row.state == .completed && row.completedAt.isSome && row.cancelledAt.isNone ||
      row.state == .cancelled && row.cancelledAt.isSome && row.completedAt.isNone ||
      row.state.isActive && row.completedAt.isNone && row.cancelledAt.isNone) = true := by
    have hcompleted := h.completedAt
    have hcancelled := h.cancelledAt
    cases hstate : row.state <;> rw [hstate] at hcompleted hcancelled <;>
      cases hc : row.completedAt <;> cases hd : row.cancelledAt <;>
        simp_all [RemindiState.isActive]
  have hsnoozed : (row.state == .snoozed && row.snoozeUntil.isSome && row.snoozedFromState.isSome ||
      row.state != .snoozed && row.snoozeUntil.isNone && row.snoozedFromState.isNone) = true := by
    have huntil := h.snoozeUntil
    have hfrom := h.snoozedFromState
    by_cases hstate : row.state = .snoozed
    · rw [hstate, huntil.mpr hstate, hfrom.mpr hstate]
      rfl
    · have huntil : row.snoozeUntil.isNone = true := by
        simpa using fun hsome => hstate (huntil.mp hsome)
      have hfrom : row.snoozedFromState.isNone = true := by
        simpa using fun hsome => hstate (hfrom.mp hsome)
      rw [huntil, hfrom]
      simp [hstate]
  unfold remindiChecks
  rw [hinstructions, hresumes, hclosed, hsnoozed]
  simp [htexts.message, h.occurrenceNo, hversion]

theorem Remindi.texts_of_checks {row : Remindi} (h : remindiChecks row = true) :
    row.Texts ∧ 1 ≤ sqlLength row.message ∧ 1 ≤ row.version := by
  unfold remindiChecks at h
  simp only [Bool.and_eq_true, decide_eq_true_eq] at h
  obtain ⟨⟨⟨⟨⟨⟨⟨hlow, hhigh⟩, hinstructions⟩, -⟩, -⟩, hversion⟩, -⟩, -⟩ := h
  refine ⟨⟨hhigh, fun text htext => ?_⟩, hlow, hversion⟩
  rw [htext] at hinstructions
  exact of_decide_eq_true hinstructions

/-- Every stored row has passed the checks. -/
def Db.Checked (db : Db) : Prop := ∀ row ∈ db.remindi.rows, remindiChecks row = true

theorem Db.Checked.replace {db db' : Db} {row : Remindi} (h : db.Checked)
    (hrow : remindiChecks row = true) (hrows : db'.remindi = db.remindi.replace row) :
    db'.Checked := by
  intro other hother
  rw [hrows] at hother
  rcases Table.mem_replace.mp hother with ⟨hother, -⟩ | ⟨rfl, -⟩
  · exact h other hother
  · exact hrow

theorem step_checked {x : Externals} {s : System} (label : Label) (hs : s.db.Checked) :
    (step x s label).1.db.Checked := by
  cases label with
  | call ownerId actor call env =>
    show (Txn.run _ env s.db).2.Checked
    rcases hrun : (RemindiService.perform ⟨x, ownerId⟩ actor call).run env s.db with
      ⟨_ | response, db'⟩
    · rw [Txn.run_error hrun]
      exact hs
    obtain ⟨m, hok⟩ := Txn.run_ok.mp hrun
    obtain ⟨hash, -, hreplayed | hexecuted⟩ := perform_ok hok
    · rw [← hreplayed.unchanged]
      exact hs
    cases hexecuted with
    | added prepared added =>
      intro row hrow
      rcases (Table.mem_insert? added.remindi).mp hrow with hrow | rfl
      · exact hs row hrow
      · exact added.checks
    | mutated target operates mutated => exact hs.replace mutated.checks mutated.remindi
  | _ =>
    exact step_preserves (I := Db.Checked) _ (fun h hdb => hdb.replace h.checks h.remindi)
      (fun _ _ _ _ => by simp) hs

theorem stored_rows_checked {x : Externals} (labels : List Label) :
    (runOf x labels).db.Checked :=
  Machine.invariant_final (I := fun s : System => s.db.Checked) (by intro row hrow; cases hrow)
    (fun _ label hs => step_checked label hs) labels

/-! ## Binding -/

/-- A value that is not bound is invalid data. -/
def OnlyInvalid {α : Type} (x : Except RepositoryError α) : Prop :=
  ∀ e, x = .error e → e = .invalidData

section

variable {α β : Type}

theorem OnlyInvalid.bind {x : Except RepositoryError α} {f : α → Except RepositoryError β}
    (hx : OnlyInvalid x) (hf : ∀ a, OnlyInvalid (f a)) : OnlyInvalid (x >>= f) := by
  intro e he
  cases x with
  | error e' =>
    cases he
    exact hx e rfl
  | ok a => exact hf a e he

theorem onlyInvalid_timestamp (value : OffsetDateTime) : OnlyInvalid (timestamp value) := by
  intro e he
  unfold timestamp at he
  split at he
  · cases he
  · exact (Except.error.inj he).symm

theorem onlyInvalid_optionalTimestamp (value : Option OffsetDateTime) :
    OnlyInvalid (optionalTimestamp value) := by
  cases value with
  | none => exact fun e he => by cases he
  | some value => exact (onlyInvalid_timestamp value).bind fun _ _ he => by cases he

theorem onlyInvalid_i64FromU64 (value : Nat) : OnlyInvalid (i64FromU64 value) := by
  intro e he
  unfold i64FromU64 at he
  split at he
  · cases he
  · exact (Except.error.inj he).symm

theorem onlyInvalid_version (value : Option Nat) : OnlyInvalid (value.mapM i64FromU64) := by
  cases value with
  | none => exact fun e he => by cases he
  | some value => exact (onlyInvalid_i64FromU64 value).bind fun _ _ he => by cases he

theorem onlyInvalid_jsonString (value : Option Json) : OnlyInvalid (jsonString value) := by
  intro e he
  unfold jsonString at he
  split at he
  · cases he
  · exact (Except.error.inj he).symm

theorem onlyInvalid_bindUpdate (item : Remindi) : OnlyInvalid item.bindUpdate :=
  .bind (onlyInvalid_jsonString _) fun _ =>
    .bind (onlyInvalid_jsonString _) fun _ =>
    .bind (onlyInvalid_optionalTimestamp _) fun _ =>
    .bind (onlyInvalid_optionalTimestamp _) fun _ =>
    .bind (onlyInvalid_optionalTimestamp _) fun _ =>
    .bind (onlyInvalid_optionalTimestamp _) fun _ =>
    .bind (onlyInvalid_optionalTimestamp _) fun _ =>
    .bind (onlyInvalid_i64FromU64 _) fun _ =>
    .bind (onlyInvalid_i64FromU64 _) fun _ =>
    .bind (onlyInvalid_optionalTimestamp _) fun _ =>
    .bind (onlyInvalid_i64FromU64 _) fun _ =>
    .bind (onlyInvalid_i64FromU64 _) fun _ =>
    .bind (onlyInvalid_timestamp _) fun _ =>
    .bind (onlyInvalid_optionalTimestamp _) fun _ =>
    .bind (onlyInvalid_optionalTimestamp _) fun _ _ he => by cases he

theorem onlyInvalid_bindInsert (item : Remindi) : OnlyInvalid item.bindInsert :=
  (onlyInvalid_bindUpdate item).bind fun _ =>
    (onlyInvalid_timestamp _).bind fun _ _ he => by cases he

/-- What cannot be bound fails as invalid data, whatever comes next. -/
theorem OnlyInvalid.fails {x : Except RepositoryError α} {f : α → Except RepositoryError β}
    (hx : OnlyInvalid x) (hnot : ¬ ∃ a, x = .ok a) : (x >>= f) = .error .invalidData := by
  cases x with
  | error e =>
    rw [hx e rfl]
    rfl
  | ok a => exact absurd ⟨a, rfl⟩ hnot

end

/-! ## Statements -/

namespace Statement

/-- The columns have values: every instant its timestamp, every number 63 bits. -/
def Bound : Statement → Prop
  | insert item => item.bindInsert = .ok ()
  | updateCas item expectedVersion => item.bindUpdate = .ok () ∧ expectedVersion ≤ i64Max
  | replaceLinks _ links => ∀ link ∈ links, ∃ t, timestamp link.createdAt = .ok t
  | insertEvidence evidence =>
    (∃ t, timestamp evidence.observedAt = .ok t) ∧ ∃ t, timestamp evidence.recordedAt = .ok t
  | appendEvent event =>
    (∃ t, timestamp event.occurredAt = .ok t) ∧ (∃ v, event.priorVersion.mapM i64FromU64 = .ok v) ∧
      ∃ v, event.newVersion.mapM i64FromU64 = .ok v
  | insertIdempotency record =>
    (∃ t, timestamp record.createdAt = .ok t) ∧ ∃ t, timestamp record.expiresAt = .ok t

/-- The texts that the schema wants to have a character. -/
def texts : Statement → List String
  | insert item | updateCas item _ => [item.message]
  | replaceLinks _ links => links.map (·.value)
  | insertEvidence evidence => [evidence.summary]
  | appendEvent _ | insertIdempotency _ => []

/-- None of the texts begins with a NUL. -/
def Legible (statement : Statement) : Prop := ∀ text ∈ statement.texts, ¬ StartsWithNul text

end Statement

/-- **Whether the schema accepts the statement**: `next` says what holds of the store it leaves. -/
structure Judged (x : Externals) (statement : Statement) (db : Db) (next : Db → Prop) : Prop where
  invalid : ¬ statement.Bound → statement.execute x db = .error .invalidData
  refused : statement.Bound → ¬ statement.Legible → statement.execute x db = .error .sql
  accepted : statement.Bound → statement.Legible → ∃ db', statement.execute x db = .ok db' ∧ next db'

/-- Each statement is judged on the store that the ones before it leave. -/
def Contract (x : Externals) : List Statement → Db → Prop
  | [], _ => True
  | statement :: rest, db => Judged x statement db (Contract x rest)

/-- The statements up to the first one that is not bound are legible. -/
def AllLegible : List Statement → Prop
  | [] => True
  | statement :: rest => statement.Bound → statement.Legible ∧ AllLegible rest

/-- **No statement is refused exactly when all that are reached are legible.** -/
theorem Contract.accepted_iff {x : Externals} {ws : List Statement} {db : Db}
    (h : Contract x ws db) : executeAll x ws db ≠ .error .sql ↔ AllLegible ws := by
  induction ws generalizing db with
  | nil => exact iff_of_true (by nofun) trivial
  | cons statement rest ih =>
    unfold executeAll AllLegible
    by_cases hbound : statement.Bound
    · by_cases hlegible : statement.Legible
      · obtain ⟨db', hexecute, hnext⟩ := h.accepted hbound hlegible
        rw [hexecute]
        show executeAll x rest db' ≠ _ ↔ _
        rw [ih hnext]
        exact ⟨fun hrest _ => ⟨hlegible, hrest⟩, fun hall => (hall hbound).2⟩
      · rw [h.refused hbound hlegible]
        exact iff_of_false (fun hne => hne rfl) fun hall => hlegible (hall hbound).1
    · rw [h.invalid hbound]
      refine iff_of_true (fun he => ?_) fun hall => absurd hall hbound
      cases he

section

variable {x : Externals} {db : Db} {next : Db → Prop} {item prior : Remindi}

theorem legible_message : (∀ text ∈ [item.message], ¬ StartsWithNul text) ↔
    ¬ StartsWithNul item.message :=
  List.forall_mem_singleton

theorem not_bound {r : Except RepositoryError Unit} (h : r ≠ .ok ()) : ¬ ∃ a, r = .ok a :=
  fun ⟨_, ha⟩ => h ha

theorem judged_insert (hfresh : db.remindi.find? item.id = none) (hlife : Lifecycle (item.stored x))
    (htexts : (item.stored x).Texts) (hversion : 1 ≤ item.version) (hmessage : item.message ≠ "")
    (hnext : ∀ t, db.remindi.insert? (item.stored x) = some t → next { db with remindi := t }) :
    Judged x (.insert item) db next := by
  have hchecks : remindiChecks (item.stored x) = true ↔ ¬ StartsWithNul item.message := by
    rw [remindiChecks_iff hlife htexts hversion]
    exact one_le_sqlLength hmessage
  refine ⟨fun hbound => ?_, fun hbound hlegible => ?_, fun hbound hlegible => ?_⟩
  · exact (onlyInvalid_bindInsert item).fails (not_bound hbound)
  · have hrefused : remindiChecks (item.stored x) = false := by
      rw [← Bool.not_eq_true, hchecks, not_not]
      exact not_not.mp fun hnul => hlegible (legible_message.mpr hnul)
    show Repository.insert x item db = _
    unfold Repository.insert
    rw [show item.bindInsert = .ok () from hbound, hrefused]
    rfl
  · obtain ⟨t, ht⟩ := Table.exists_insert? (a := item.stored x) hfresh
    refine ⟨{ db with remindi := t }, ?_, hnext t ht⟩
    show Repository.insert x item db = _
    unfold Repository.insert
    rw [show item.bindInsert = .ok () from hbound, hchecks.mpr (legible_message.mp hlegible), ht]
    rfl

theorem judged_updateCas (hfound : db.remindi.find? item.id = some prior)
    (howner : prior.ownerId = item.ownerId) (hlife : Lifecycle (item.writtenOver x prior))
    (htexts : (item.writtenOver x prior).Texts) (hversion : 1 ≤ item.version)
    (hmessage : item.message ≠ "")
    (hnext : next { db with remindi := db.remindi.replace (item.writtenOver x prior) }) :
    Judged x (.updateCas item prior.version) db next := by
  have hchecks : remindiChecks (item.writtenOver x prior) = true ↔ ¬ StartsWithNul item.message := by
    rw [remindiChecks_iff hlife htexts hversion]
    exact one_le_sqlLength hmessage
  have hexecute : item.bindUpdate = .ok () → prior.version ≤ i64Max →
      (Statement.updateCas item prior.version).execute x db =
        (constraint (remindiChecks (item.writtenOver x prior))).map
          fun _ => { db with remindi := db.remindi.replace (item.writtenOver x prior) } := by
    intro hbind hnumber
    show (Repository.updateCas x item prior.version db).map (·.2) = _
    unfold Repository.updateCas i64FromU64
    rw [hbind, if_pos hnumber, hfound]
    dsimp only [bind, Except.bind]
    rw [if_pos ⟨howner, rfl⟩]
    cases constraint (remindiChecks (item.writtenOver x prior)) <;> rfl
  refine ⟨fun hbound => ?_, fun hbound hlegible => ?_, fun hbound hlegible => ?_⟩
  · show (Repository.updateCas x item prior.version db).map (·.2) = _
    unfold Repository.updateCas
    by_cases hbind : item.bindUpdate = .ok ()
    · have hnumber : ¬ prior.version ≤ i64Max := fun hnumber => hbound ⟨hbind, hnumber⟩
      unfold i64FromU64
      rw [hbind, if_neg hnumber]
      rfl
    · rw [(onlyInvalid_bindUpdate item).fails (not_bound hbind)]
      rfl
  · have hrefused : remindiChecks (item.writtenOver x prior) = false := by
      rw [← Bool.not_eq_true, hchecks, not_not]
      exact not_not.mp fun hnul => hlegible (legible_message.mpr hnul)
    rw [hexecute hbound.1 hbound.2, hrefused]
    rfl
  · refine ⟨_, ?_, hnext⟩
    rw [hexecute hbound.1 hbound.2, hchecks.mpr (legible_message.mp hlegible)]
    rfl

theorem judged_insertEvidence {evidence : CompletionEvidence} (hsummary : evidence.summary ≠ "")
    (hlength : evidence.summary.length ≤ 4096)
    (hreferenced : evidence.referenceUri.isSome || evidence.contentHash.isSome)
    (hitem : references db evidence.remindiId = true)
    (hid : ∀ row ∈ db.evidence.rows, row.id ≠ evidence.id)
    (hnone : db.evidence.find? evidence.remindiId = none)
    (hnext : ∀ t, next { db with evidence := t }) : Judged x (.insertEvidence evidence) db next := by
  refine ⟨fun hbound => ?_, fun hbound hlegible => ?_, fun hbound hlegible => ?_⟩
  · show Repository.insertEvidence x evidence db = _
    unfold Repository.insertEvidence
    by_cases hobserved : ∃ t, timestamp evidence.observedAt = .ok t
    · obtain ⟨t, ht⟩ := hobserved
      rw [ht]
      exact (onlyInvalid_timestamp _).fails fun hrecorded => hbound ⟨⟨t, ht⟩, hrecorded⟩
    · exact (onlyInvalid_timestamp _).fails hobserved
  · obtain ⟨⟨t, ht⟩, u, hu⟩ := hbound
    have hshort : ¬ 1 ≤ sqlLength evidence.summary := by
      rw [one_le_sqlLength hsummary]
      exact fun hnul => hlegible (List.forall_mem_singleton.mpr hnul)
    show Repository.insertEvidence x evidence db = _
    unfold Repository.insertEvidence evidenceChecks
    rw [ht, hu]
    show (constraint (decide (1 ≤ sqlLength evidence.summary) && _ && _ && _) >>= _) = _
    rw [decide_eq_false hshort]
    rfl
  · obtain ⟨⟨t, ht⟩, u, hu⟩ := hbound
    have hlong : 1 ≤ sqlLength evidence.summary :=
      (one_le_sqlLength hsummary).mpr (hlegible _ (List.mem_singleton_self _))
    have hshort := (sqlLength_le evidence.summary).trans hlength
    let row : CompletionEvidence :=
      { evidence with
        observedAt := t
        recordedAt := u
        metadata := evidence.metadata.map (·.mapNumbers x.readNumber) }
    obtain ⟨rows, hrows⟩ := Table.exists_insert? (t := db.evidence) (a := row) hnone
    refine ⟨{ db with evidence := rows }, ?_, hnext rows⟩
    have hchecks : (evidenceChecks row && references db evidence.remindiId) = true := by
      unfold evidenceChecks
      rw [hitem, decide_eq_true hlong, decide_eq_true hshort, hreferenced]
      rfl
    have hunique : db.evidence.rows.all (fun other => other.id ≠ evidence.id) = true := by
      rw [List.all_eq_true]
      exact fun row hrow => decide_eq_true (hid row hrow)
    show Repository.insertEvidence x evidence db = _
    unfold Repository.insertEvidence
    rw [ht, hu]
    show (constraint (evidenceChecks row && references db evidence.remindiId) >>= fun _ =>
      constraint (db.evidence.rows.all fun other => other.id ≠ evidence.id) >>= _) = _
    rw [hchecks, hunique, show orSql (db.evidence.insert? _) = .ok rows from orSql_ok.mpr hrows]
    rfl

theorem linkChecks_iff {link : RemindiLink} (hne : link.value ≠ "") (hlength : link.value.length ≤ 2048) :
    linkChecks link = true ↔ ¬ StartsWithNul link.value := by
  unfold linkChecks
  rw [decide_eq_true ((sqlLength_le link.value).trans hlength), Bool.and_true, decide_eq_true_iff]
  exact one_le_sqlLength hne

theorem ValidLinks.tail {link : LinkInput} {rest : List LinkInput} (h : ValidLinks (link :: rest)) :
    ValidLinks rest where
  nonempty := (List.forall_mem_cons.mp h.nonempty).2
  length := (List.forall_mem_cons.mp h.length).2
  nodup := (List.nodup_cons.mp h.nodup).2

/-- The first link that begins with a NUL is refused, and every other is inserted. -/
theorem insertLinks_result {id : Uuid} {values : List LinkInput} {now t : OffsetDateTime}
    (hnow : timestamp now = .ok t) (hvalid : ValidLinks values) (hitem : references db id = true)
    (hfree : ∀ link ∈ values, db.links.find? (id, link.linkType, link.value) = none) :
    ((∃ link ∈ values, StartsWithNul link.value) →
        Repository.insertLinks id (links values now) db = .error .sql) ∧
      ((∀ link ∈ values, ¬ StartsWithNul link.value) →
        ∃ rows, Repository.insertLinks id (links values now) db = .ok { db with links := rows }) := by
  induction values generalizing db with
  | nil => exact ⟨by simp, fun _ => ⟨db.links, rfl⟩⟩
  | cons link rest ih =>
    let row : RemindiLink := { linkType := link.linkType, value := link.value, createdAt := now }
    have hunfold : Repository.insertLinks id (links (link :: rest) now) db =
        (constraint (linkChecks row && references db id) >>= fun _ =>
          orSql (db.links.insert? { remindiId := id, link := { row with createdAt := t } }) >>=
            fun rows => Repository.insertLinks id (links rest now) { db with links := rows }) := by
      show (timestamp now >>= _) = _
      rw [hnow]
      rfl
    have hchecks : linkChecks row = true ↔ ¬ StartsWithNul link.value :=
      linkChecks_iff (hvalid.nonempty link (List.mem_cons_self ..))
        (hvalid.length link (List.mem_cons_self ..))
    by_cases hnul : StartsWithNul link.value
    · have hrefused : linkChecks row = false := by
        rw [← Bool.not_eq_true, hchecks, not_not]
        exact hnul
      refine ⟨fun _ => ?_, fun hall => absurd hnul (hall link (List.mem_cons_self ..))⟩
      rw [hunfold, hrefused]
      rfl
    · obtain ⟨rows, hrows⟩ := Table.exists_insert? (t := db.links)
        (a := { remindiId := id, link := { row with createdAt := t } })
        (hfree link (List.mem_cons_self ..))
      have hrest : ∀ other ∈ rest, ({ db with links := rows } : Db).links.find?
          (id, other.linkType, other.value) = none := by
        intro other hother
        show rows.find? _ = none
        rw [Table.find?_insert? hrows, if_neg]
        · exact hfree other (List.mem_cons_of_mem _ hother)
        · intro hsame
          obtain ⟨-, hsame⟩ := Prod.mk.inj hsame
          obtain ⟨htype, hvalue⟩ := Prod.mk.inj hsame
          have hother' : other = link := by
            cases other
            cases link
            cases htype
            cases hvalue
            rfl
          exact (List.nodup_cons.mp hvalid.nodup).1 (hother' ▸ hother)
      have hitem' : references { db with links := rows } id = true := hitem
      obtain ⟨hrefused, haccepted⟩ := ih hvalid.tail hitem' hrest
      have hgoes : Repository.insertLinks id (links (link :: rest) now) db =
          Repository.insertLinks id (links rest now) { db with links := rows } := by
        rw [hunfold, hchecks.mpr hnul, hitem, show orSql (db.links.insert? _) = .ok rows from
          orSql_ok.mpr hrows]
        rfl
      rw [hgoes]
      refine ⟨fun hany => hrefused ?_, fun hall => ?_⟩
      · rcases hany with ⟨other, hother, hbegins⟩
        rcases List.mem_cons.mp hother with rfl | hother
        · exact absurd hbegins hnul
        · exact ⟨other, hother, hbegins⟩
      · obtain ⟨rows', hrows'⟩ := haccepted (List.forall_mem_cons.mp hall).2
        exact ⟨rows', hrows'⟩

theorem judged_replaceLinks {values : List LinkInput} {now : OffsetDateTime}
    (hvalid : ValidLinks values) (hitem : references db item.id = true)
    (hnext : ∀ rows, next { db with links := rows }) :
    Judged x (.replaceLinks item (links values now)) db next := by
  let cleared : Db := { db with links := db.links.filter fun row => row.remindiId ≠ item.id }
  have hcleared : ∀ link ∈ values, cleared.links.find? (item.id, link.linkType, link.value) =
      none := by
    intro link _
    refine Table.find?_eq_none.mpr fun row hrow hkey => ?_
    obtain ⟨-, hother⟩ := Table.mem_filter.mp hrow
    exact of_decide_eq_true hother (Prod.mk.inj hkey).1
  have htexts : (Statement.replaceLinks item (links values now)).Legible ↔
      ∀ link ∈ values, ¬ StartsWithNul link.value := by
    show (∀ text ∈ (links values now).map (·.value), _) ↔ _
    unfold links
    rw [List.map_map, List.forall_mem_map]
    rfl
  have hbinds : (Statement.replaceLinks item (links values now)).Bound → values = [] ∨
      ∃ t, timestamp now = .ok t := by
    intro hbound
    cases values with
    | nil => exact Or.inl rfl
    | cons link rest =>
      have hall : ∀ l ∈ links (link :: rest) now, ∃ t, timestamp l.createdAt = .ok t := hbound
      unfold links at hall
      rw [List.map_cons] at hall
      exact Or.inr (List.forall_mem_cons.mp hall).1
  refine ⟨fun hbound => ?_, fun hbound hlegible => ?_, fun hbound hlegible => ?_⟩
  · cases values with
    | nil =>
      exfalso
      apply hbound
      intro link hlink
      cases hlink
    | cons link rest =>
      have hnow : ¬ ∃ t, timestamp now = .ok t := by
        intro hnow
        apply hbound
        intro other hother
        obtain ⟨input, -, rfl⟩ := List.mem_map.mp hother
        exact hnow
      show Repository.insertLinks item.id (links (link :: rest) now) _ = _
      unfold links
      rw [List.map_cons]
      unfold Repository.insertLinks
      exact (onlyInvalid_timestamp now).fails hnow
  · rw [htexts] at hlegible
    push Not at hlegible
    obtain ⟨link, hlink, hnul⟩ := hlegible
    rcases hbinds hbound with rfl | ⟨t, hnow⟩
    · cases hlink
    · have hitem' : references cleared item.id = true := hitem
      exact (insertLinks_result hnow hvalid hitem' hcleared).1 ⟨link, hlink, hnul⟩
  · rcases hbinds hbound with rfl | ⟨t, hnow⟩
    · exact ⟨_, rfl, hnext _⟩
    · have hitem' : references cleared item.id = true := hitem
      obtain ⟨rows, hrows⟩ :=
        (insertLinks_result hnow hvalid hitem' hcleared).2 (htexts.mp hlegible)
      exact ⟨_, hrows, hnext rows⟩

theorem judged_appendEvent {event : RemindiEvent} (hitem : references db event.remindiId = true)
    (hfresh : db.events.find? event.eventId = none)
    (hnext : ∀ rows, next { db with events := rows }) : Judged x (.appendEvent event) db next := by
  have hlegible : (Statement.appendEvent event).Legible := fun text htext => by cases htext
  refine ⟨fun hbound => ?_, fun hbound hnot => absurd hlegible hnot, fun hbound _ => ?_⟩
  · show Repository.appendEvent event db = _
    unfold Repository.appendEvent
    by_cases htime : ∃ t, timestamp event.occurredAt = .ok t
    · obtain ⟨t, ht⟩ := htime
      rw [ht]
      by_cases hprior : ∃ v, event.priorVersion.mapM i64FromU64 = .ok v
      · obtain ⟨v, hv⟩ := hprior
        dsimp only [bind, Except.bind]
        rw [hv]
        exact (onlyInvalid_version _).fails fun hversion => hbound ⟨⟨t, ht⟩, ⟨v, hv⟩, hversion⟩
      · exact (onlyInvalid_version _).fails hprior
    · exact (onlyInvalid_timestamp _).fails htime
  · obtain ⟨⟨t, ht⟩, ⟨v, hv⟩, w, hw⟩ := hbound
    let row : RemindiEvent :=
      { event with
        sequence := Repository.nextSequence db
        occurredAt := t
        priorVersion := v
        newVersion := w }
    obtain ⟨rows, hrows⟩ := Table.exists_insert? (t := db.events) (a := row) hfresh
    refine ⟨_, ?_, hnext rows⟩
    show Repository.appendEvent event db = _
    unfold Repository.appendEvent
    dsimp only [bind, Except.bind]
    rw [ht, hv, hw, hitem]
    show (orSql (db.events.insert? row) >>= fun events => Except.ok _) = _
    rw [hrows]
    rfl

theorem judged_insertIdempotency {record : IdempotencyRecord}
    (hnone : db.idempotency.find? record.primaryKey = none)
    (hnext : ∀ rows, next { db with idempotency := rows }) :
    Judged x (.insertIdempotency record) db next := by
  have hlegible : (Statement.insertIdempotency record).Legible := fun text htext => by cases htext
  refine ⟨fun hbound => ?_, fun hbound hnot => absurd hlegible hnot, fun hbound _ => ?_⟩
  · show Repository.insertIdempotency record db = _
    unfold Repository.insertIdempotency
    by_cases hcreated : ∃ t, timestamp record.createdAt = .ok t
    · obtain ⟨t, ht⟩ := hcreated
      rw [ht]
      exact (onlyInvalid_timestamp _).fails fun hexpires => hbound ⟨⟨t, ht⟩, hexpires⟩
    · exact (onlyInvalid_timestamp _).fails hcreated
  · obtain ⟨⟨t, ht⟩, u, hu⟩ := hbound
    obtain ⟨rows, hrows⟩ := Table.exists_insert? (t := db.idempotency)
      (a := { record with createdAt := t, expiresAt := u }) hnone
    refine ⟨_, ?_, hnext rows⟩
    show Repository.insertIdempotency record db = _
    unfold Repository.insertIdempotency
    dsimp only [bind, Except.bind]
    rw [ht, hu]
    dsimp only
    rw [hrows]
    rfl

end

/-! ## The statements of a call -/

/-- The identifiers that a call may draw are not taken. -/
structure FreshIds (env : Env) (db : Db) : Prop where
  items : ∀ n, db.remindi.find? (env.ids n) = none
  events : ∀ n, db.events.find? (env.ids n) = none
  evidence : ∀ n, ∀ row ∈ db.evidence.rows, row.id ≠ env.ids n

section

variable {x : Externals} {db : Db} {env : Env} {actor : Actor} {item prior : Remindi}

theorem references_insert {t : Table Remindi.id} (h : db.remindi.insert? (item.stored x) = some t) :
    references { db with remindi := t } item.id = true := by
  show (t.find? item.id).isSome = true
  rw [Table.find?_insert? h, if_pos (show (item.stored x).id = item.id from rfl)]
  rfl

theorem references_replace {row : Remindi} (hfound : db.remindi.find? row.id = some prior) :
    references { db with remindi := db.remindi.replace row } row.id = true := by
  show ((db.remindi.replace row).find? row.id).isSome = true
  rw [Table.find?_replace hfound, if_pos rfl]
  rfl

theorem contract_tail {event : RemindiEvent} {record : IdempotencyRecord}
    (hitem : references db event.remindiId = true) (hevent : db.events.find? event.eventId = none)
    (hrecord : db.idempotency.find? record.primaryKey = none) :
    Contract x [.appendEvent event, .insertIdempotency record] db :=
  judged_appendEvent hitem hevent fun _ => judged_insertIdempotency hrecord fun _ => trivial

theorem contract_add {raw request : AddRequest} {hash : String} {nextFireAt : Option OffsetDateTime}
    {ownerId : String} (hfresh : FreshIds env db) (prepared : prepareAdd actor raw = .ok request)
    (fires : initialNextFireAt request.trigger (env.clock 0) = .ok nextFireAt)
    (unrecorded : db.idempotency.find? (actor.actorId, "remindi_add", request.idempotencyKey) = none)
    (hitem : item =
      RemindiService.newItem ownerId (env.ids 3) request nextFireAt (env.clock 0)) :
    Contract x (addWrites actor request hash item env) db := by
  obtain ⟨hmessage, hinstructions, hlinks, hsame⟩ := prepareAdd_texts prepared
  obtain ⟨-, -, -, hvalid, hfits⟩ := prepareAdd_ok prepared
  obtain ⟨-, hne, hlength⟩ := requiredText_bound hmessage
  have hcoherent : Coherent item := hitem ▸ newItem_coherent fires hvalid hfits
  have hfree : db.remindi.find? item.id = none := by
    rw [hitem]
    exact hfresh.items 3
  have htexts : (item.stored x).Texts := by
    rw [hitem]
    exact ⟨(sqlLength_le _).trans hlength, optionalBounded_bound hinstructions⟩
  have hversion : 1 ≤ item.version := by
    rw [hitem]
    exact Nat.le_refl 1
  have hne : item.message ≠ "" := by
    rw [hitem]
    exact hne
  refine judged_insert hfree hcoherent.stored.toLifecycle htexts hversion hne fun t ht => ?_
  refine judged_replaceLinks ?_ (references_insert ht) fun rows => ?_
  · rw [hsame]
    exact validateLinks_ok hlinks
  · exact contract_tail (references_insert ht) (hfresh.events 6) unrecorded

/-- What the closure of a valid call promises of the row it leaves. -/
structure Sound (x : Externals) (prior : Remindi) (mutation : Mutation) : Prop where
  same : SameItem mutation.item prior
  lifecycle : Lifecycle (mutation.item.writtenOver x prior)
  texts : (mutation.item.writtenOver x prior).Texts
  version : 1 ≤ mutation.item.version
  message : mutation.item.message ≠ ""
  links : ∀ replacement, mutation.replacementLinks = some replacement →
    ∃ values now, replacement = links values now ∧ ValidLinks values

theorem contract_mutation {call : MutationCall} {mutation : Mutation} (hfresh : FreshIds env db)
    (hsound : Sound x prior mutation) (hfound : db.remindi.find? prior.id = some prior)
    (hevidence : mutation.evidence.isSome = true → db.evidence.find? prior.id = none)
    (unrecorded : db.idempotency.find? (call.actor.actorId, call.toolName, call.idempotencyKey) =
      none) :
    Contract x (mutationWrites call prior mutation env) db := by
  have hrow : db.remindi.find? mutation.item.id = some prior := by
    rw [hsound.same.id]
    exact hfound
  have hitem : references
      { db with remindi := db.remindi.replace (mutation.item.writtenOver x prior) }
      mutation.item.id = true := by
    show references _ (mutation.item.writtenOver x prior).id = true
    exact references_replace hrow
  refine judged_updateCas hrow hsound.same.ownerId.symm hsound.lifecycle hsound.texts
    hsound.version hsound.message ?_
  -- the links, if they are replaced
  suffices hrest : ∀ rows, Contract x (evidenceWrites call.actor mutation
      (env.ids (evidenceCall mutation)) (env.clock 1) ++ _)
      { db with remindi := db.remindi.replace (mutation.item.writtenOver x prior), links := rows } by
    unfold linkWrites
    cases hlinks : mutation.replacementLinks with
    | none => exact hrest db.links
    | some replacement =>
      obtain ⟨values, now, rfl, hvalid⟩ := hsound.links replacement hlinks
      exact judged_replaceLinks hvalid hitem hrest
  intro rows
  -- the evidence, if there is any
  unfold evidenceWrites
  cases hsome : mutation.evidence with
  | none => exact contract_tail hitem (hfresh.events _) unrecorded
  | some evidence =>
    have hnone : db.evidence.find? mutation.item.id = none := by
      rw [hsound.same.id]
      exact hevidence (by rw [hsome]; rfl)
    exact judged_insertEvidence evidence.summary_ne evidence.summary_length evidence.referenced hitem
      (fun row hrow => hfresh.evidence _ row hrow) hnone
      fun _ => contract_tail hitem (hfresh.events _) unrecorded

end

/-! ## The rows that valid calls leave -/

section

variable {now : OffsetDateTime} {prior : Remindi} {mutation : Mutation}

theorem UpdateSteps.texts {request : UpdateRequest} {triggered recurred moved : Remindi}
    (h : UpdateSteps request now prior triggered recurred moved) :
    moved.message = request.message.getD prior.message ∧
      moved.instructions = request.instructions.getD prior.instructions := by
  have htriggered : triggered.message = (applyFields request prior).message ∧
      triggered.instructions = (applyFields request prior).instructions := by
    cases h.trigger with
    | keep hnone => exact ⟨rfl, rfl⟩
    | install hsome hnext hactive hvalid =>
      unfold installed Remindi.resetSnooze
      split <;> exact ⟨rfl, rfl⟩
  have hmoved : moved.message = recurred.message ∧ moved.instructions = recurred.instructions := by
    cases h.disposition <;> exact ⟨rfl, rfl⟩
  rw [hmoved.1, hmoved.2, h.recurrence.eq]
  exact htriggered

/-- An update that has not taken its version yet takes it now, with the clock. -/
theorem UpdateSteps.updatedAt {request : UpdateRequest} {triggered recurred moved : Remindi}
    (h : UpdateSteps request now prior triggered recurred moved) :
    (bumpVersion prior.version now moved).updatedAt = now := by
  have htriggered : triggered.version = prior.version ∨ triggered.updatedAt = now := by
    cases h.trigger with
    | keep hnone => exact Or.inl rfl
    | install hsome hnext hactive hvalid => exact Or.inr rfl
  have hmoved : moved.version = triggered.version ∧ moved.updatedAt = triggered.updatedAt := by
    have hrecurred := h.recurrence.eq
    cases h.disposition <;> rw [hrecurred] <;> exact ⟨rfl, rfl⟩
  unfold bumpVersion
  split
  · rfl
  · next hversion =>
    rw [hmoved.1] at hversion
    rw [hmoved.2]
    exact htriggered.resolve_left hversion

theorem bumpVersion_texts (version : Nat) (item : Remindi) :
    (bumpVersion version now item).message = item.message ∧
      (bumpVersion version now item).instructions = item.instructions := by
  unfold bumpVersion
  split <;> exact ⟨rfl, rfl⟩

theorem ne_empty_of_sqlLength {text : String} (h : 1 ≤ sqlLength text) : text ≠ "" := by
  rintro rfl
  exact absurd h (by decide)

/-- The message of a call is its own or the stored one. -/
def Messaged (own : Option String) (prior : Remindi) (item : Remindi) : Prop :=
  match own with
  | none => item.message = prior.message
  | some text => item.message = trim text ∧ item.message ≠ "" ∧ item.message.length ≤ 8192

/-- The message that a mutating call brings. -/
def Call.newMessage : Call → Option String
  | .update raw => raw.message
  | _ => none

theorem Messaged.fits {own : Option String} {item : Remindi} (h : Messaged own prior item)
    (hprior : remindiChecks prior = true) :
    item.message ≠ "" ∧ sqlLength item.message ≤ 8192 := by
  obtain ⟨htexts, hone, -⟩ := Remindi.texts_of_checks hprior
  cases own with
  | none =>
    rw [show item.message = prior.message from h]
    exact ⟨ne_empty_of_sqlLength hone, htexts.message⟩
  | some text => exact ⟨h.2.1, (sqlLength_le _).trans h.2.2⟩

/-- What an update promises of the texts. -/
theorem updateItem_texts {actor : Actor} {raw request : UpdateRequest}
    (hprior : remindiChecks prior = true) (prepared : prepareUpdate actor raw = .ok request)
    (ok : updateItem request now prior = .ok mutation) :
    Messaged raw.message prior mutation.item ∧
      (∀ text, mutation.item.instructions = some text → sqlLength text ≤ 32768) := by
  obtain ⟨triggered, recurred, moved, steps, hitem, -, -⟩ := updateItem_ok ok
  obtain ⟨hmessage, hinstructions, -, -⟩ := prepareUpdate_texts prepared
  obtain ⟨htext, hother⟩ := steps.texts
  obtain ⟨hbumped, hbumped'⟩ : (bumpVersion prior.version now moved).message = moved.message ∧
      (bumpVersion prior.version now moved).instructions = moved.instructions :=
    bumpVersion_texts prior.version moved
  refine ⟨?_, ?_⟩
  · unfold Messaged
    rw [hitem, hbumped, htext]
    cases hraw : raw.message with
    | none =>
      rw [hraw] at hmessage
      rw [← Except.ok.inj hmessage]
      rfl
    | some text =>
      rw [hraw] at hmessage
      obtain ⟨trimmed, htrimmed, hsome⟩ := except_map_ok.mp hmessage
      rw [← hsome]
      exact requiredText_bound htrimmed
  · rw [hitem, hbumped', hother]
    cases hraw : raw.instructions with
    | none =>
      rw [hraw] at hinstructions
      rw [← Except.ok.inj hinstructions]
      exact (Remindi.texts_of_checks hprior).1.instructions
    | some instructions =>
      rw [hraw] at hinstructions
      obtain ⟨result, hresult, hsome⟩ := except_map_ok.mp hinstructions
      rw [← hsome]
      exact optionalBounded_bound hresult

theorem Operates.messaged {actor : Actor} {call : Call} (h : Operates actor now prior call mutation)
    (hprior : remindiChecks prior = true) :
    Messaged call.newMessage prior mutation.item ∧
      (∀ text, mutation.item.instructions = some text → sqlLength text ≤ 32768) := by
  have hinstructions := (Remindi.texts_of_checks hprior).1.instructions
  cases h with
  | complete prepared validated ok =>
    rw [(Remindi.complete_ok (completeItem_ok ok).1).2]
    exact ⟨rfl, hinstructions⟩
  | snooze prepared ok =>
    rw [(Remindi.snooze_ok (snoozeItem_ok ok).1).2.2]
    exact ⟨rfl, hinstructions⟩
  | cancel prepared ok =>
    rw [(Remindi.cancel_ok (cancelItem_ok ok).1).2]
    exact ⟨rfl, hinstructions⟩
  | update prepared ok => exact updateItem_texts hprior prepared ok

/-- The links that a mutating call brings. -/
def Call.newLinks : Call → Option (List LinkInput)
  | .update raw => raw.links
  | _ => none

theorem Operates.links {actor : Actor} {call : Call} (h : Operates actor now prior call mutation) :
    mutation.replacementLinks = call.newLinks.map (fun values => links values now) ∧
      ∀ values, call.newLinks = some values → ValidLinks values := by
  cases h with
  | complete prepared validated ok => exact ⟨(completeItem_ok ok).2.2, by nofun⟩
  | snooze prepared ok => exact ⟨(snoozeItem_ok ok).2.2, by nofun⟩
  | cancel prepared ok => exact ⟨(cancelItem_ok ok).2.2, by nofun⟩
  | update prepared ok =>
    obtain ⟨-, -, hvalid, hsame⟩ := prepareUpdate_texts prepared
    refine ⟨?_, fun values hvalues => validateLinks_ok (whenSome_ok hvalid hvalues)⟩
    rw [(updateItem_links ok).1, hsame]
    rfl

theorem Operates.sound {x : Externals} {actor : Actor} {call : Call}
    (h : Operates actor now prior call mutation)
    (hprior : remindiChecks prior = true) (hcoherent : Coherent prior) : Sound x prior mutation := by
  obtain ⟨hmessage, hinstructions⟩ := h.messaged hprior
  obtain ⟨hne, hlength⟩ := hmessage.fits hprior
  obtain ⟨hreplaced, hvalid⟩ := h.links
  refine
    { same := h.sameItem
      lifecycle := ((h.coherent hcoherent).writtenOver prior).toLifecycle
      texts := ⟨hlength, hinstructions⟩
      version := by rw [h.version]; omega
      message := hne
      links := ?_ }
  intro replacement hreplacement
  rw [hreplaced] at hreplacement
  obtain ⟨values, hvalues, rfl⟩ := Option.map_eq_some_iff.mp hreplacement
  exact ⟨values, now, rfl, hvalid values hvalues⟩

end

/-! ## Legible calls -/

/-- The texts of a request whose characters the schema counts, as they are stored. -/
def Call.measured : Call → List String
  | .add raw => trim raw.message :: raw.links.map (·.value)
  | .complete raw _ => [trim raw.evidence.summary]
  | .update raw => raw.message.toList.map trim ++ (raw.links.getD []).map (·.value)
  | .snooze _ _ | .cancel _ => []

/-- **No measured text of the request begins with a NUL.** -/
def Call.Legible (call : Call) : Prop := ∀ text ∈ call.measured, ¬ StartsWithNul text

/-- A statement with measured texts has a column that cannot be bound. -/
def Unbound (ws : List Statement) : Prop := ∃ st ∈ ws, st.texts ≠ [] ∧ ¬ st.Bound

section

variable {a b : Statement} {tail : List Statement}

theorem legible_of_unmeasured (h : a.texts = []) : a.Legible := by
  intro text htext
  rw [h] at htext
  cases htext

theorem unmeasured_tail {event : RemindiEvent} {record : IdempotencyRecord} :
    ∀ st ∈ [Statement.appendEvent event, .insertIdempotency record], st.texts = [] := by
  intro st hst
  rcases List.mem_cons.mp hst with rfl | hst
  · rfl
  · obtain rfl := List.mem_singleton.mp hst
    rfl

theorem allLegible_of_unmeasured (h : ∀ st ∈ tail, st.texts = []) : AllLegible tail := by
  induction tail with
  | nil => trivial
  | cons st rest ih =>
    obtain ⟨hst, hrest⟩ := List.forall_mem_cons.mp h
    exact fun _ => ⟨legible_of_unmeasured hst, ih hrest⟩

theorem unbound_cons (ws : List Statement) :
    Unbound (a :: ws) ↔ (a.texts ≠ [] ∧ ¬ a.Bound) ∨ Unbound ws := by
  unfold Unbound
  exact List.exists_mem_cons_iff ..

theorem not_unbound (h : ∀ st ∈ tail, st.texts = []) : ¬ Unbound tail :=
  fun ⟨st, hst, htexts, _⟩ => htexts (h st hst)

/-- One statement with measured texts. -/
theorem allLegible_single (ha : a.texts ≠ []) (htail : ∀ st ∈ tail, st.texts = []) :
    AllLegible (a :: tail) ↔ a.Legible ∨ Unbound (a :: tail) := by
  rw [unbound_cons, or_iff_left (not_unbound htail)]
  constructor
  · intro hall
    by_cases hbound : a.Bound
    · exact Or.inl (hall hbound).1
    · exact Or.inr ⟨ha, hbound⟩
  · rintro (hlegible | ⟨-, hunbound⟩) hbound
    · exact ⟨hlegible, allLegible_of_unmeasured htail⟩
    · exact absurd hbound hunbound

/-- Two statements, where the second is bound with the first or the first is legible. -/
theorem allLegible_pair (ha : a.texts ≠ []) (htail : ∀ st ∈ tail, st.texts = [])
    (hab : (a.Bound → b.Bound) ∨ a.Legible) :
    AllLegible (a :: b :: tail) ↔ (a.Legible ∧ b.Legible) ∨ Unbound (a :: b :: tail) := by
  rw [unbound_cons, unbound_cons, or_iff_left (not_unbound htail)]
  constructor
  · intro hall
    by_cases hbound : a.Bound
    · obtain ⟨hlegible, hrest⟩ := hall hbound
      by_cases hbound' : b.Bound
      · exact Or.inl ⟨hlegible, (hrest hbound').1⟩
      · by_cases hb : b.texts = []
        · exact Or.inl ⟨hlegible, legible_of_unmeasured hb⟩
        · exact Or.inr (Or.inr ⟨hb, hbound'⟩)
    · exact Or.inr (Or.inl ⟨ha, hbound⟩)
  · rintro (⟨hlegible, hlegible'⟩ | ⟨-, hunbound⟩ | ⟨-, hunbound⟩) hbound
    · exact ⟨hlegible, fun _ => ⟨hlegible', allLegible_of_unmeasured htail⟩⟩
    · exact absurd hbound hunbound
    · rcases hab with hab | hlegible
      · exact absurd (hab hbound) hunbound
      · exact ⟨hlegible, fun hbound' => absurd hbound' hunbound⟩

end

section

variable {now : OffsetDateTime} {item prior : Remindi} {mutation : Mutation}

/-- Links are made with a clock reading that the row of their item has bound already. -/
theorem bound_links {values : List LinkInput} (h : (canonicalText now).isSome = true) :
    (Statement.replaceLinks item (links values now)).Bound := by
  intro link hlink
  obtain ⟨input, -, rfl⟩ := List.mem_map.mp hlink
  exact timestamp_isOk.mpr h

theorem legible_links {values : List LinkInput} :
    (Statement.replaceLinks item (links values now)).Legible ↔
      ∀ text ∈ values.map (·.value), ¬ StartsWithNul text := by
  show (∀ text ∈ (links values now).map (·.value), _) ↔ _
  unfold links
  rw [List.map_map]
  rfl

theorem Messaged.legible {own : Option String} (h : Messaged own prior item)
    (hprior : remindiChecks prior = true) :
    ¬ StartsWithNul item.message ↔ ∀ text ∈ own.toList.map trim, ¬ StartsWithNul text := by
  cases own with
  | none =>
    obtain ⟨-, hone, -⟩ := Remindi.texts_of_checks hprior
    rw [show item.message = prior.message from h]
    exact iff_of_true ((one_le_sqlLength (ne_empty_of_sqlLength hone)).mp hone) (by simp)
  | some text =>
    rw [show item.message = trim text from h.1]
    simp

theorem addWrites_legible {service : RemindiService} {actor : Actor} {env : Env}
    {raw request : AddRequest} {hash : String} {nextFireAt : Option OffsetDateTime}
    (prepared : prepareAdd actor raw = .ok request)
    (hitem : item = RemindiService.newItem service.ownerId (env.ids 3) request nextFireAt
      (env.clock 0)) :
    AllLegible (addWrites actor request hash item env) ↔
      (Call.add raw).Legible ∨ Unbound (addWrites actor request hash item env) := by
  obtain ⟨hmessage, -, -, hsame⟩ := prepareAdd_texts prepared
  have hbinds : (Statement.insert item).Bound →
      (Statement.replaceLinks item (links request.links (env.clock 0))).Bound := by
    intro hbound
    obtain ⟨-, hcreated⟩ := Remindi.bindInsert_ok.mp hbound
    rw [hitem] at hcreated
    exact bound_links hcreated
  unfold addWrites
  rw [allLegible_pair (by nofun) unmeasured_tail (Or.inl hbinds), legible_links]
  refine or_congr_left ?_
  have htext : item.message = trim raw.message := by
    rw [hitem]
    exact (requiredText_bound hmessage).1
  unfold Call.Legible Call.measured
  rw [List.forall_mem_cons, hsame, ← htext]
  exact and_congr_left fun _ => legible_message

theorem Operates.legible {actor : Actor} {call : Call} {mcall : MutationCall} {env : Env}
    (h : Operates actor (env.clock 0) prior call mutation) (hprior : remindiChecks prior = true) :
    AllLegible (mutationWrites mcall prior mutation env) ↔
      call.Legible ∨ Unbound (mutationWrites mcall prior mutation env) := by
  have hmessage := (h.messaged hprior).1.legible hprior
  have hlegible : (Statement.updateCas mutation.item prior.version).Legible ↔
      ∀ text ∈ call.newMessage.toList.map trim, ¬ StartsWithNul text :=
    legible_message.trans hmessage
  have hlinks := h.links.1
  unfold mutationWrites linkWrites evidenceWrites
  rw [hlinks]
  cases h with
  | @complete raw request skew evidence _ prepared validated ok =>
    rw [(completeItem_ok ok).2.1]
    have hsummary : evidence.input.summary = trim raw.evidence.summary := by
      rw [validate_summary validated, (prepareComplete_ok prepared).2.2.2]
    refine (allLegible_pair (by nofun) unmeasured_tail (Or.inr (hlegible.mpr (by nofun)))).trans
      (or_congr_left ?_)
    rw [hlegible]
    show _ ∧ (∀ text ∈ [evidence.input.summary], ¬ StartsWithNul text) ↔
      ∀ text ∈ [trim raw.evidence.summary], ¬ StartsWithNul text
    rw [hsummary]
    exact and_iff_right (by nofun)
  | snooze prepared ok =>
    rw [(snoozeItem_ok ok).2.1]
    exact (allLegible_single (by nofun) unmeasured_tail).trans (or_congr_left hlegible)
  | cancel prepared ok =>
    rw [(cancelItem_ok ok).2.1]
    exact (allLegible_single (by nofun) unmeasured_tail).trans (or_congr_left hlegible)
  | @update raw request _ prepared ok =>
    obtain ⟨triggered, recurred, moved, steps, hitem, -, hnone⟩ := updateItem_ok ok
    rw [hnone]
    cases hraw : raw.links with
    | none =>
      rw [show (Call.update raw).newLinks = none from hraw]
      refine (allLegible_single (by nofun) unmeasured_tail).trans (or_congr_left ?_)
      rw [hlegible]
      show _ ↔ ∀ text ∈ raw.message.toList.map trim ++ (raw.links.getD []).map (·.value),
        ¬ StartsWithNul text
      rw [hraw, Option.getD_none, List.map_nil, List.append_nil]
      rfl
    | some values =>
      rw [show (Call.update raw).newLinks = some values from hraw]
      have hbinds : (Statement.updateCas mutation.item prior.version).Bound →
          (Statement.replaceLinks mutation.item (RemindiCore.links values (env.clock 0))).Bound := by
        intro hbound
        have hupdated := Remindi.updatedAt_of_bound hbound.1
        rw [hitem, steps.updatedAt] at hupdated
        exact bound_links hupdated
      refine (allLegible_pair (by nofun) unmeasured_tail (Or.inl hbinds)).trans
        (or_congr_left ?_)
      rw [hlegible, legible_links]
      show _ ↔ ∀ text ∈ raw.message.toList.map trim ++ (raw.links.getD []).map (·.value),
        ¬ StartsWithNul text
      rw [hraw, List.forall_mem_append]
      rfl

end

/-! ## Every valid call -/

section

variable {x : Externals} {labels : List Label} {ownerId : String} {actor : Actor} {env : Env}
  {call : Call} {item : Remindi} {ws : List Statement}

theorem Writes.contract (hfresh : FreshIds env (runOf x labels).db)
    (h : Writes ⟨x, ownerId⟩ actor env (runOf x labels).db call item ws) :
    Contract x ws (runOf x labels).db := by
  cases h with
  | add prepared hashed unrecorded fires => exact contract_add hfresh prepared fires unrecorded rfl
  | @mutate _ prior mutation hash target hashed unrecorded found timely operates =>
    obtain ⟨hfound, -⟩ := Repository.find_ok found
    have hchecks := stored_rows_checked labels prior (Table.find?_eq_some.mp hfound).1
    have hcoherent := stored_items_coherent x labels _ _ hfound
    refine contract_mutation hfresh (operates.sound hchecks hcoherent) hfound ?_ unrecorded
    intro _
    refine (consistent_runOf labels prior.id).evidence_none fun row hrow => ?_
    obtain rfl := Option.some.inj (hfound.symm.trans hrow)
    exact ne_completed_of_active operates.isOpen.1

theorem Writes.legible (h : Writes ⟨x, ownerId⟩ actor env (runOf x labels).db call item ws) :
    AllLegible ws ↔ call.Legible ∨ Unbound ws := by
  cases h with
  | add prepared hashed unrecorded fires => exact addWrites_legible prepared rfl
  | @mutate _ prior mutation hash target hashed unrecorded found timely operates =>
    obtain ⟨hfound, -⟩ := Repository.find_ok found
    exact operates.legible (stored_rows_checked labels prior (Table.find?_eq_some.mp hfound).1)

end

/-- **A valid call is the execution of its statements, and the schema accepts them unless
a measured text of the request begins with a NUL.** -/
theorem validated_writes_accepted_iff (x : Externals) (labels : List Label) (ownerId : String)
    (actor : Actor) (env : Env) (call : Call) (item : Remindi) (ws : List Statement)
    (hfresh : FreshIds env (runOf x labels).db)
    (hwrites : Writes ⟨x, ownerId⟩ actor env (runOf x labels).db call item ws) :
    ((∀ n, env.fault n = none) → step x (runOf x labels) (.call ownerId actor call env) =
      match executeAll x ws (runOf x labels).db with
      | .ok db => ({ runOf x labels with db := db }, .mutation (.ok { remindi := item }))
      | .error e => (runOf x labels, .mutation (.error (mapRepository e)))) ∧
    (executeAll x ws (runOf x labels).db ≠ .error .sql ↔ call.Legible ∨ Unbound ws) := by
  refine ⟨fun hfaults => ?_, ?_⟩
  · have hrun := (perform_writes hfaults hwrites).run
    unfold step
    dsimp only
    rw [hrun]
    cases executeAll x ws (runOf x labels).db <;> rfl
  · exact (hwrites.contract hfresh).accepted_iff.trans hwrites.legible

namespace Sample

/-- A message that begins with a NUL. -/
def nulMessage : AddRequest :=
  { everyMinute with message := String.ofList [Char.ofNat 0, 'm'] }

theorem freshIds_empty : FreshIds (env 500 0) (runOf externals []).db where
  items := fun _ => rfl
  events := fun _ => rfl
  evidence := fun _ _ hrow => by cases hrow

/-- Both requests are valid as they are. -/
theorem writes_add {raw : AddRequest} (hprepared : prepareAdd agent raw = .ok raw)
    (hhash : (requestHash externals.sha256 raw.toJson).toOption.isSome = true)
    (htrigger : raw.trigger = everyMinute.trigger) :
    ∃ hash, Writes ⟨externals, "owner"⟩ agent (env 500 0) (runOf externals []).db (.add raw)
      (RemindiService.newItem "owner" (uuid 0) raw (some (second 1000)) (second 500))
      (addWrites agent raw hash
        (RemindiService.newItem "owner" (uuid 0) raw (some (second 1000)) (second 500))
        (env 500 0)) := by
  obtain ⟨hash, hsome⟩ := Option.isSome_iff_exists.mp hhash
  have hash_ok : requestHash externals.sha256 raw.toJson = .ok hash := by
    cases hresult : requestHash externals.sha256 raw.toJson with
    | error e =>
      rw [hresult] at hsome
      cases hsome
    | ok result =>
      rw [hresult] at hsome
      exact congrArg Except.ok (Option.some.inj hsome)
  have hfires : initialNextFireAt raw.trigger (second 500) = .ok (some (second 1000)) := by
    rw [htrigger]
    rfl
  exact ⟨hash, .add hprepared hash_ok rfl hfires⟩

end Sample

open Sample in
theorem sample_writes_accepted :
    ∃ item ws, Writes ⟨externals, "owner"⟩ agent (env 500 0) (runOf externals []).db
      (.add everyMinute) item ws ∧ executeAll externals ws (runOf externals []).db ≠ .error .sql := by
  obtain ⟨hash, hwrites⟩ := @writes_add everyMinute rfl (by decide +kernel) rfl
  refine ⟨_, _, hwrites, (validated_writes_accepted_iff externals [] "owner" agent (env 500 0) _ _ _
    freshIds_empty hwrites).2.mpr (Or.inl ?_)⟩
  unfold Call.Legible
  decide +kernel

open Sample in
/-- A valid request is refused by the CHECK of its message and answered with an internal error. -/
theorem nul_message_refused :
    ∃ item ws, Writes ⟨externals, "owner"⟩ agent (env 500 0) (runOf externals []).db
        (.add nulMessage) item ws ∧
      executeAll externals ws (runOf externals []).db = .error .sql ∧
        (step externals (runOf externals []) (Sample.call (.add nulMessage) 500 0)).2 =
          .mutation (.error .internal) := by
  obtain ⟨hash, hwrites⟩ := @writes_add nulMessage rfl (by decide +kernel) rfl
  have hinsert : (Statement.insert (RemindiService.newItem "owner" (uuid 0) nulMessage
      (some (second 1000)) (second 500))).execute externals (runOf externals []).db = .error .sql := by
    rfl
  have hexecuted : executeAll externals (addWrites agent nulMessage hash (RemindiService.newItem "owner"
      (uuid 0) nulMessage (some (second 1000)) (second 500)) (env 500 0))
      (runOf externals []).db = .error .sql := by
    unfold addWrites executeAll
    rw [hinsert]
    rfl
  refine ⟨_, _, hwrites, hexecuted, ?_⟩
  have hrun := (perform_writes (fun _ => rfl) hwrites).run
  rw [hexecuted] at hrun
  show Response.mutation ((RemindiService.perform ⟨externals, "owner"⟩ agent
    (.add nulMessage)).run (env 500 0) (runOf externals []).db).1 = _
  rw [hrun]
  rfl

end RemindiCore
