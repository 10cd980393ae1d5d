import RemindiCore.Service.Requests

/-!
# The request hash

`requestHash` digests the compact JSON of a prepared request.  The encodings
follow the fields of the records; an instant in a trigger, a recurrence or an
evidence is an RFC 3339 text, the snooze deadline a row of numbers.

All of them determine the request (`AddRequest.toJson_faithful`, …), except
that an update writes `null` both for a field left alone and for a field
cleared (`UpdateRequest.toJson_eq_iff`).
-/

namespace RemindiCore

open CivilTime JsonText Transaction

/-! ## Encodings -/

def textJson (value : String) : Option Json := some (.string value)
def natJson (value : Nat) : Option Json := some (.ofNat value)
def instantJson (value : OffsetDateTime) : Option Json := (rfc3339 value).map .string

def Uuid.toJson (id : Uuid) : Option Json := textJson id.text

/-- The members of a trigger's object. -/
def Trigger.members : Trigger → List (String × Option Json)
  | .atTime at' => [("type", textJson "at_time"), ("at", instantJson at')]
  | .afterElapsed afterSeconds =>
    [("type", textJson "after_elapsed"), ("after_seconds", natJson afterSeconds)]
  | .interval firstAt everySeconds =>
    [("type", textJson "interval"), ("first_at", instantJson firstAt),
      ("every_seconds", natJson everySeconds)]
  | .nextSession => [("type", textJson "next_session")]
  | .nextContinuation => [("type", textJson "next_continuation")]
  | .goalActive goalId => [("type", textJson "goal_active"), ("goal_id", textJson goalId)]
  | .condition adapter parameters pollIntervalSeconds manualCheckAt =>
    [("type", textJson "condition"), ("adapter", textJson adapter),
      ("parameters", some parameters),
      ("poll_interval_seconds", orNull natJson pollIntervalSeconds),
      ("manual_check_at", orNull instantJson manualCheckAt)]

def Trigger.toJson (trigger : Trigger) : Option Json := Json.ofMembers trigger.members

/-- Whether a trigger can be written is up to its instants. -/
@[simp] theorem Trigger.isSome_toJson_mapNumbers (f : NumberText → NumberText) (t : Trigger) :
    (t.mapNumbers f).toJson.isSome = t.toJson.isSome := by
  cases t with
  | condition adapter parameters pollIntervalSeconds manualCheckAt =>
    have hpoll : ∃ a, orNull natJson pollIntervalSeconds = some a := by
      cases pollIntervalSeconds <;> exact ⟨_, rfl⟩
    obtain ⟨a, ha⟩ := hpoll
    simp only [mapNumbers, toJson, members, Json.ofMembers, Json.collect, textJson, ha]
    cases orNull instantJson manualCheckAt <;> rfl
  | _ => rfl

def RecurrenceSpec.toJson (spec : RecurrenceSpec) : Option Json :=
  Json.ofMembers [("every_seconds", natJson spec.everySeconds),
    ("missed_policy", textJson spec.missedPolicy.text),
    ("max_occurrences", orNull natJson spec.maxOccurrences),
    ("end_at", orNull instantJson spec.endAt)]

def LinkInput.toJson (link : LinkInput) : Json :=
  .object [("link_type", .string link.linkType.text), ("value", .string link.value)]

def linksJson (links : List LinkInput) : Option Json := some (.array (links.map LinkInput.toJson))

def EvidenceInput.toJson (input : EvidenceInput) : Option Json :=
  Json.ofMembers [("evidence_type", textJson input.evidenceType.text),
    ("summary", textJson input.summary),
    ("reference_uri", orNull textJson input.referenceUri),
    ("content_hash", orNull textJson input.contentHash),
    ("observed_at", instantJson input.observedAt),
    ("metadata", orNull some input.metadata),
    ("source", textJson input.source.text)]

def AddRequest.toJson (request : AddRequest) : Option Json :=
  Json.ofMembers [("project_id", textJson request.projectId),
    ("task_id", orNull textJson request.taskId),
    ("message", textJson request.message),
    ("instructions", orNull textJson request.instructions),
    ("priority", textJson request.priority.text),
    ("trigger", request.trigger.toJson),
    ("recurrence", orNull RecurrenceSpec.toJson request.recurrence),
    ("overdue_after_seconds", natJson request.overdueAfterSeconds),
    ("links", linksJson request.links),
    ("session_id", orNull textJson request.sessionId),
    ("task_lineage_id", orNull textJson request.taskLineageId),
    ("idempotency_key", textJson request.idempotencyKey)]

def CompleteRequest.toJson (request : CompleteRequest) : Option Json :=
  Json.ofMembers [("remindi_id", request.remindiId.toJson),
    ("expected_version", natJson request.expectedVersion),
    ("evidence", request.evidence.toJson),
    ("completion_note", orNull textJson request.completionNote),
    ("idempotency_key", textJson request.idempotencyKey)]

def SnoozeRequest.toJson (request : SnoozeRequest) : Option Json :=
  Json.ofMembers [("remindi_id", request.remindiId.toJson),
    ("expected_version", natJson request.expectedVersion),
    ("snooze_until", some (.array ((components request.snoozeUntil).map Json.ofInt))),
    ("reason", textJson request.reason),
    ("idempotency_key", textJson request.idempotencyKey)]

/-- Both kinds of `none` of a nested option are written as `null`. -/
def UpdateRequest.toJson (request : UpdateRequest) : Option Json :=
  Json.ofMembers [("remindi_id", request.remindiId.toJson),
    ("expected_version", natJson request.expectedVersion),
    ("message", orNull textJson request.message),
    ("instructions", orNull (orNull textJson) request.instructions),
    ("priority", orNull (fun p => textJson p.text) request.priority),
    ("trigger", orNull Trigger.toJson request.trigger),
    ("recurrence", orNull (orNull RecurrenceSpec.toJson) request.recurrence),
    ("overdue_after_seconds", orNull natJson request.overdueAfterSeconds),
    ("links", orNull linksJson request.links),
    ("occurrence_disposition", orNull (fun d => textJson d.text) request.occurrenceDisposition),
    ("reason", textJson request.reason),
    ("idempotency_key", textJson request.idempotencyKey)]

def CancelRequest.toJson (request : CancelRequest) : Option Json :=
  Json.ofMembers [("remindi_id", request.remindiId.toJson),
    ("expected_version", natJson request.expectedVersion),
    ("reason", textJson request.reason),
    ("idempotency_key", textJson request.idempotencyKey)]

/-- The digest of the compact text; `sha256` stands for the hash and its hexadecimal form. -/
def requestHash (sha256 : String → String) (json : Option Json) : Except ServiceError String :=
  match json with
  | none => .error .internal
  | some a => .ok (sha256 a.text)

/-! ## What the encodings determine -/

theorem textJson_faithful : Faithful textJson := by
  intro a b x ha hb
  cases ha
  cases hb
  rfl

theorem natJson_faithful : Faithful natJson := by
  intro a b x ha hb
  have h := ha.trans hb.symm
  simp only [natJson, Json.ofNat, Option.some.injEq, Json.number.injEq] at h
  exact NumberText.ofNat_injective h

theorem instantJson_faithful : Faithful instantJson := by
  intro a b x ha hb
  simp only [instantJson, Option.map_eq_some_iff] at ha hb
  obtain ⟨s, hs, rfl⟩ := ha
  obtain ⟨t, ht, e⟩ := hb
  cases e
  exact rfc3339_injective hs ht

/-- An enumeration encoded by distinct texts. -/
theorem enum_faithful {α : Type} {text : α → String} (h : ∀ a b, text a = text b → a = b) :
    Faithful fun a => textJson (text a) := by
  intro a b x ha hb
  exact h a b (textJson_faithful _ _ x ha hb)

theorem Priority.text_injective (a b : Priority) (h : a.text = b.text) : a = b := by
  cases a <;> cases b <;> first | rfl | exact absurd h (by decide)

theorem MissedPolicy.text_injective (a b : MissedPolicy) (h : a.text = b.text) : a = b := by
  cases a <;> cases b <;> first | rfl | exact absurd h (by decide)

theorem OccurrenceDisposition.text_injective (a b : OccurrenceDisposition)
    (h : a.text = b.text) : a = b := by
  cases a <;> cases b <;> first | rfl | exact absurd h (by decide)

theorem EvidenceType.text_injective (a b : EvidenceType) (h : a.text = b.text) : a = b := by
  cases a <;> cases b <;> first | rfl | exact absurd h (by decide)

theorem LinkType.text_injective (a b : LinkType) (h : a.text = b.text) : a = b := by
  cases a <;> cases b <;> first | rfl | exact absurd h (by decide)

theorem EvidenceSource.text_injective (a b : EvidenceSource) (h : a.text = b.text) : a = b := by
  cases a <;> cases b <;> first | rfl | exact absurd h (by decide)

theorem textJson_ne_null (a : String) : textJson a ≠ some .null := by
  simp [textJson]

theorem natJson_ne_null (a : Nat) : natJson a ≠ some .null := by
  simp [natJson, Json.ofNat]

theorem instantJson_ne_null (a : OffsetDateTime) : instantJson a ≠ some .null := by
  unfold instantJson
  cases rfc3339 a <;> simp

theorem ofMembers_ne_null (members : List (String × Option Json)) :
    Json.ofMembers members ≠ some .null := by
  unfold Json.ofMembers
  cases Json.collect members <;> simp

theorem linksJson_ne_null (links : List LinkInput) : linksJson links ≠ some .null := by
  simp [linksJson]

theorem linksJson_faithful : Faithful linksJson := by
  intro a b x ha hb
  have h := ha.trans hb.symm
  simp only [linksJson, Option.some.injEq, Json.array.injEq] at h
  refine List.map_injective_iff.mpr ?_ h
  intro c d hcd
  simp only [LinkInput.toJson, Json.object.injEq, List.cons.injEq, Prod.mk.injEq,
    Json.string.injEq, true_and, and_true] at hcd
  obtain ⟨_, _⟩ := c
  obtain ⟨_, _⟩ := d
  simp only [LinkInput.mk.injEq]
  exact ⟨LinkType.text_injective _ _ hcd.1, hcd.2⟩

/-- Two written objects: their members are equal one by one, and each of them was written. -/
theorem members_eq {ms ns : List (String × Option Json)} {x : Json}
    (hm : Json.ofMembers ms = some x) (hn : Json.ofMembers ns = some x) :
    ms = ns ∧ ∀ m ∈ ms, m.2.isSome = true :=
  ⟨Json.ofMembers_injective hm hn, fun _ h => Json.isSome_of_ofMembers hm h⟩

theorem RecurrenceSpec.toJson_faithful : Faithful RecurrenceSpec.toJson := by
  intro a b x ha hb
  obtain ⟨h, s⟩ := members_eq ha hb
  simp only [List.cons.injEq, Prod.mk.injEq, true_and, and_true] at h
  simp only [List.forall_mem_cons] at s
  obtain ⟨h1, h2, h3, h4⟩ := h
  obtain ⟨s1, s2, s3, s4, -⟩ := s
  obtain ⟨_, _, _, _⟩ := a
  obtain ⟨_, _, _, _⟩ := b
  rw [RecurrenceSpec.mk.injEq]
  exact ⟨natJson_faithful.eq h1 s1, (enum_faithful MissedPolicy.text_injective).eq h2 s2,
    (natJson_faithful.orNull natJson_ne_null).eq h3 s3,
    (instantJson_faithful.orNull instantJson_ne_null).eq h4 s4⟩

theorem Trigger.toJson_faithful : Faithful Trigger.toJson := by
  intro a b x ha hb
  obtain ⟨h, s⟩ := members_eq ha hb
  cases a <;> cases b <;>
    simp only [Trigger.members, textJson, List.cons.injEq, Prod.mk.injEq, Option.some.injEq,
      Json.string.injEq, true_and, and_true, and_false, false_and, reduceCtorEq,
      String.reduceEq, List.forall_mem_cons] at h s
  · rw [instantJson_faithful.eq h s.2.1]
  · rw [natJson_faithful.eq h rfl]
  · rw [instantJson_faithful.eq h.1 s.2.1, natJson_faithful.eq h.2 rfl]
  · rfl
  · rfl
  · rw [h]
  · obtain ⟨h1, h2, h3, h4⟩ := h
    rw [h1, h2, (natJson_faithful.orNull natJson_ne_null).eq h3 s.2.2.2.1,
      (instantJson_faithful.orNull instantJson_ne_null).eq h4 s.2.2.2.2.1]

theorem Trigger.toJson_ne_null (a : Trigger) : a.toJson ≠ some .null := ofMembers_ne_null _

theorem RecurrenceSpec.toJson_ne_null (a : RecurrenceSpec) : a.toJson ≠ some .null :=
  ofMembers_ne_null _

theorem optionText_faithful : Faithful (orNull textJson) :=
  textJson_faithful.orNull textJson_ne_null

theorem Uuid.toJson_faithful : Faithful Uuid.toJson := by
  intro a b x ha hb
  obtain ⟨_, _⟩ := a
  obtain ⟨_, _⟩ := b
  rw [Uuid.mk.injEq]
  exact textJson_faithful _ _ x ha hb

/-! ## Requests -/

theorem AddRequest.toJson_faithful : Faithful AddRequest.toJson := by
  intro a b x ha hb
  obtain ⟨h, s⟩ := members_eq ha hb
  simp only [List.cons.injEq, Prod.mk.injEq, true_and, and_true] at h
  simp only [List.forall_mem_cons] at s
  obtain ⟨h1, h2, h3, h4, h5, h6, h7, h8, h9, h10, h11, h12⟩ := h
  obtain ⟨s1, s2, s3, s4, s5, s6, s7, s8, s9, s10, s11, s12, -⟩ := s
  obtain ⟨_, _, _, _, _, _, _, _, _, _, _, _⟩ := a
  obtain ⟨_, _, _, _, _, _, _, _, _, _, _, _⟩ := b
  rw [AddRequest.mk.injEq]
  exact ⟨textJson_faithful.eq h1 s1, optionText_faithful.eq h2 s2, textJson_faithful.eq h3 s3,
    optionText_faithful.eq h4 s4, (enum_faithful Priority.text_injective).eq h5 s5,
    Trigger.toJson_faithful.eq h6 s6,
    (RecurrenceSpec.toJson_faithful.orNull RecurrenceSpec.toJson_ne_null).eq h7 s7,
    natJson_faithful.eq h8 s8, linksJson_faithful.eq h9 s9, optionText_faithful.eq h10 s10,
    optionText_faithful.eq h11 s11, textJson_faithful.eq h12 s12⟩

theorem SnoozeRequest.toJson_faithful : Faithful SnoozeRequest.toJson := by
  intro a b x ha hb
  obtain ⟨h, s⟩ := members_eq ha hb
  simp only [List.cons.injEq, Prod.mk.injEq, Option.some.injEq, Json.array.injEq, true_and,
    and_true] at h
  simp only [List.forall_mem_cons] at s
  obtain ⟨h1, h2, h3, h4, h5⟩ := h
  obtain ⟨s1, s2, s3, s4, s5, -⟩ := s
  have hint : Function.Injective Json.ofInt := by
    intro m n hmn
    simp only [Json.ofInt, Json.number.injEq] at hmn
    exact NumberText.ofInt_injective hmn
  obtain ⟨_, _, _, _, _⟩ := a
  obtain ⟨_, _, _, _, _⟩ := b
  rw [SnoozeRequest.mk.injEq]
  exact ⟨Uuid.toJson_faithful.eq h1 s1, natJson_faithful.eq h2 s2,
    components_injective (List.map_injective_iff.mpr hint h3), textJson_faithful.eq h4 s4,
    textJson_faithful.eq h5 s5⟩

theorem CancelRequest.toJson_faithful : Faithful CancelRequest.toJson := by
  intro a b x ha hb
  obtain ⟨h, s⟩ := members_eq ha hb
  simp only [List.cons.injEq, Prod.mk.injEq, true_and, and_true] at h
  simp only [List.forall_mem_cons] at s
  obtain ⟨h1, h2, h3, h4⟩ := h
  obtain ⟨s1, s2, s3, s4, -⟩ := s
  obtain ⟨_, _, _, _⟩ := a
  obtain ⟨_, _, _, _⟩ := b
  rw [CancelRequest.mk.injEq]
  exact ⟨Uuid.toJson_faithful.eq h1 s1, natJson_faithful.eq h2 s2, textJson_faithful.eq h3 s3,
    textJson_faithful.eq h4 s4⟩

/-- Metadata is an object once the evidence has passed its checks, never `null`. -/
theorem EvidenceInput.toJson_inj {a b : EvidenceInput} {x : Json} (ha : a.toJson = some x)
    (hb : b.toJson = some x) (na : a.metadata ≠ some .null) (nb : b.metadata ≠ some .null) :
    a = b := by
  obtain ⟨h, s⟩ := members_eq ha hb
  simp only [List.cons.injEq, Prod.mk.injEq, true_and, and_true] at h
  simp only [List.forall_mem_cons] at s
  obtain ⟨h1, h2, h3, h4, h5, h6, h7⟩ := h
  obtain ⟨s1, s2, s3, s4, s5, s6, s7, -⟩ := s
  obtain ⟨_, _, _, _, _, am, _⟩ := a
  obtain ⟨_, _, _, _, _, bm, _⟩ := b
  rw [EvidenceInput.mk.injEq]
  refine ⟨(enum_faithful EvidenceType.text_injective).eq h1 s1, textJson_faithful.eq h2 s2,
    optionText_faithful.eq h3 s3, optionText_faithful.eq h4 s4, instantJson_faithful.eq h5 s5, ?_,
    (enum_faithful EvidenceSource.text_injective).eq h7 s7⟩
  cases am <;> cases bm <;> simp_all [orNull]

theorem CompleteRequest.toJson_inj {a b : CompleteRequest} {x : Json} (ha : a.toJson = some x)
    (hb : b.toJson = some x) (na : a.evidence.metadata ≠ some .null)
    (nb : b.evidence.metadata ≠ some .null) : a = b := by
  obtain ⟨h, s⟩ := members_eq ha hb
  simp only [List.cons.injEq, Prod.mk.injEq, true_and, and_true] at h
  simp only [List.forall_mem_cons] at s
  obtain ⟨h1, h2, h3, h4, h5⟩ := h
  obtain ⟨s1, s2, s3, s4, s5, -⟩ := s
  obtain ⟨y, hy⟩ := Option.isSome_iff_exists.mp s3
  obtain ⟨_, _, ae, _, _⟩ := a
  obtain ⟨_, _, be, _, _⟩ := b
  rw [CompleteRequest.mk.injEq]
  exact ⟨Uuid.toJson_faithful.eq h1 s1, natJson_faithful.eq h2 s2,
    EvidenceInput.toJson_inj hy (h3 ▸ hy) na nb, optionText_faithful.eq h4 s4,
    textJson_faithful.eq h5 s5⟩

/-! ## Updates -/

/-- A field cleared is written like a field left alone. -/
def collapse {α : Type} : Option (Option α) → Option (Option α)
  | some none => none
  | x => x

def UpdateRequest.collapsed (request : UpdateRequest) : UpdateRequest :=
  { request with
    instructions := collapse request.instructions
    recurrence := collapse request.recurrence }

theorem orNull_collapse {α : Type} (f : α → Option Json) (a : Option (Option α)) :
    orNull (orNull f) (collapse a) = orNull (orNull f) a := by
  rcases a with _ | _ | a <;> rfl

theorem collapse_eq {α : Type} {f : α → Option Json} (hf : Faithful f)
    (hnull : ∀ a, f a ≠ some .null) {a b : Option (Option α)}
    (h : orNull (orNull f) a = orNull (orNull f) b) (ha : (orNull (orNull f) a).isSome = true) :
    collapse a = collapse b := by
  rcases a with _ | _ | a <;> rcases b with _ | _ | b
  · rfl
  · rfl
  · exact absurd h.symm (hnull b)
  · rfl
  · rfl
  · exact absurd h.symm (hnull b)
  · exact absurd h (hnull a)
  · exact absurd h (hnull a)
  · rw [hf.eq h ha]

theorem UpdateRequest.toJson_collapsed (a : UpdateRequest) : a.collapsed.toJson = a.toJson := by
  simp only [toJson, collapsed, orNull_collapse]

/-- **Two updates have one encoding when they differ at most in clearing a field
against leaving it alone.** -/
theorem UpdateRequest.toJson_eq_iff {a b : UpdateRequest} (hs : a.toJson.isSome = true) :
    a.toJson = b.toJson ↔ a.collapsed = b.collapsed := by
  constructor
  · intro hab
    obtain ⟨x, ha⟩ := Option.isSome_iff_exists.mp hs
    obtain ⟨h, s⟩ := members_eq ha (hab ▸ ha)
    simp only [List.cons.injEq, Prod.mk.injEq, true_and, and_true] at h
    simp only [List.forall_mem_cons] at s
    obtain ⟨h1, h2, h3, h4, h5, h6, h7, h8, h9, h10, h11, h12⟩ := h
    obtain ⟨s1, s2, s3, s4, s5, s6, s7, s8, s9, s10, s11, s12, -⟩ := s
    simp only [collapsed, UpdateRequest.mk.injEq]
    exact ⟨Uuid.toJson_faithful.eq h1 s1, natJson_faithful.eq h2 s2, optionText_faithful.eq h3 s3,
      collapse_eq textJson_faithful textJson_ne_null h4 s4,
      ((enum_faithful Priority.text_injective).orNull fun p => textJson_ne_null _).eq h5 s5,
      (Trigger.toJson_faithful.orNull Trigger.toJson_ne_null).eq h6 s6,
      collapse_eq RecurrenceSpec.toJson_faithful RecurrenceSpec.toJson_ne_null h7 s7,
      (natJson_faithful.orNull natJson_ne_null).eq h8 s8,
      (linksJson_faithful.orNull linksJson_ne_null).eq h9 s9,
      ((enum_faithful OccurrenceDisposition.text_injective).orNull fun d =>
        textJson_ne_null _).eq h10 s10,
      textJson_faithful.eq h11 s11, textJson_faithful.eq h12 s12⟩
  · intro h
    rw [← toJson_collapsed a, h, toJson_collapsed]

end RemindiCore
