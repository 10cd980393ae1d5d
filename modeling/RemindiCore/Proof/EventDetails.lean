import RemindiCore.Mcp.Views
import RemindiCore.Proof.AdminRows
import RemindiCore.Proof.ConditionPair
import RemindiCore.Proof.TimestampCodec

/-!
# The presentation of an event's details

What the view of an event shows is its details with the timestamps that its type owns
in their canonical text, and with everything else as it was (`Presented`).  What an
event records is an `EventRecord`, whose instants may be written in any of the forms
that a version of the service has stored; an event of a run is one with canonical
texts.

    record.StampedBy stamp →
      normalizeEventDetails record.eventType (record.details stamp) = .ok view ∧ Presented ..
-/

namespace RemindiCore

open CivilTime JsonText Machine Transaction Views

/-! ## Owned timestamps -/

/-- The timestamps that an event of the type owns, by their paths. -/
def EventType.timestampPaths : EventType → List (List String)
  | .snoozed => [["prior_next_fire_at"], ["snooze_until"]]
  | .occurrenceAdvanced => [["previous_schedule"], ["next_schedule"]]
  | .updated =>
    [["before_trigger", "next_fire_at"], ["before_trigger", "next_evaluation_at"],
      ["after_trigger", "next_fire_at"], ["after_trigger", "next_evaluation_at"]]
  | _ => [["next_fire_at"], ["next_evaluation_at"]]

theorem EventType.timestampPaths_apart (eventType : EventType) :
    eventType.timestampPaths.Pairwise Json.Apart := by
  cases eventType <;> simp [EventType.timestampPaths, Json.Apart]

/-- The instant has a year of four digits. -/
def FourDigitYear (t : OffsetDateTime) : Prop := 0 ≤ t.toUtc.year ∧ t.toUtc.year ≤ 9999

/-- The forms of a stored instant: its canonical text, the row of its numbers, or any
text that denotes it. -/
inductive Stored (t : OffsetDateTime) : Json → Prop
  | canonical {text : String} (h : canonicalTimestamp t = .ok text) : Stored t (.string text)
  | parts (h : t.Valid) : Stored t (.array ((components t).map Json.ofInt))
  | text {text : String} (h : parseTimestamp text = .ok t) : Stored t (.string text)

/-- What the view makes of an owned field. -/
inductive PresentedField : Option Json → Option Json → Prop
  | absent : PresentedField none none
  | null : PresentedField (some .null) (some .null)
  | instant {t : OffsetDateTime} {value : Json} {text : String} (stored : Stored t value)
      (canonical : canonicalTimestamp t = .ok text) :
      PresentedField (some value) (some (.string text))

/-- **The view shows the owned timestamps canonically and everything else as it was.** -/
structure Presented (paths : List (List String)) (details view : Json) : Prop where
  owned : ∀ path ∈ paths, PresentedField (details.at? path) (view.at? path)
  elsewhere : ∀ path, (∀ p ∈ paths, Json.Apart p path) → view.at? path = details.at? path
  rest : view.blank paths = details.blank paths

/-! ## One field -/

/-- What the canonical text of a field is; what is no timestamp stays. -/
def canonicalField (value : Json) : Json :=
  match storedInstant value with
  | .error _ => value
  | .ok instant =>
    match canonicalTimestamp instant with
    | .error _ => value
    | .ok text => .string text

/-- A field that can be presented. -/
inductive Presentable : Json → Prop
  | null : Presentable .null
  | instant {t : OffsetDateTime} {value : Json} (stored : Stored t value) (year : FourDigitYear t) :
      Presentable value

section

variable {t : OffsetDateTime} {value object details : Json}

theorem FourDigitYear.canonical (h : FourDigitYear t) :
    ∃ text, canonicalTimestamp t = .ok text := by
  obtain ⟨hlower, hupper⟩ := h
  refine ⟨_, canonicalTimestamp_ok.mpr (if_pos ⟨?_, hupper⟩)⟩
  show -9999 ≤ t.toUtc.year
  omega

theorem mapM_integerItem (parts : List Int) :
    (parts.map Json.ofInt).mapM integerItem = some parts := by
  induction parts with
  | nil => rfl
  | cons n parts ih =>
    have hn : integerItem (.ofInt n) = some n := Admin.integerOf_ofInt n
    rw [List.map_cons, List.mapM_cons, hn, ih]
    rfl

/-- The instant is read back from each of its forms, to the millisecond at least. -/
theorem Stored.read (h : Stored t value) (hyear : FourDigitYear t) :
    ∃ instant, storedInstant value = .ok instant ∧
      canonicalTimestamp instant = canonicalTimestamp t := by
  cases h with
  | canonical h =>
    exact ⟨_, parseTimestamp_canonical h hyear.1, canonicalTimestamp_truncateMillis t⟩
  | parts h =>
    refine ⟨t, ?_, rfl⟩
    have hread : dateTimeOfItems ((components t).map Json.ofInt) = some t := by
      unfold dateTimeOfItems
      rw [mapM_integerItem]
      exact ofComponents_components h
    unfold storedInstant
    dsimp only
    rw [hread]
  | text h => exact ⟨t, h, rfl⟩

theorem Stored.ne_null (h : Stored t value) : value ≠ .null := by
  cases h <;> exact Json.noConfusion

theorem canonicalField_of_read {instant : OffsetDateTime} {text : String}
    (h : storedInstant value = .ok instant) (htext : canonicalTimestamp instant = .ok text) :
    canonicalField value = .string text := by
  unfold canonicalField
  rw [h]
  dsimp only
  rw [htext]

theorem Stored.canonicalField {text : String} (h : Stored t value) (hyear : FourDigitYear t)
    (htext : canonicalTimestamp t = .ok text) : canonicalField value = .string text := by
  obtain ⟨instant, hread, hsame⟩ := h.read hyear
  exact canonicalField_of_read hread (hsame.trans htext)

theorem Presentable.field (h : Presentable value) :
    PresentedField (some value) (some (canonicalField value)) := by
  cases h with
  | null => exact .null
  | instant stored year =>
    obtain ⟨text, htext⟩ := year.canonical
    rw [stored.canonicalField year htext]
    exact .instant stored htext

/-- What has been presented is presented as it is. -/
theorem Presentable.again (h : Presentable value) :
    Presentable (canonicalField value) ∧
      canonicalField (canonicalField value) = canonicalField value := by
  cases h with
  | null => exact ⟨.null, rfl⟩
  | instant stored year =>
    obtain ⟨text, htext⟩ := year.canonical
    rw [stored.canonicalField year htext]
    exact ⟨.instant (.canonical htext) year, Stored.canonicalField (.canonical htext) year htext⟩

theorem normalizeObjectTimestamp_ok {key : String}
    (h : ∀ value, object.at? [key] = some value → Presentable value) :
    normalizeObjectTimestamp object key = .ok (object.modify [key] canonicalField) := by
  have hat : object.at? [key] = object.member? key := Json.at?_singleton key
  rw [hat] at h
  unfold normalizeObjectTimestamp
  cases hvalue : object.member? key with
  | none =>
    rw [Json.modify_of_absent (hat.trans hvalue)]
  | some value =>
    have hset : ∀ text, canonicalField value = .string text →
        object.setMember key (.string text) = object.modify [key] canonicalField := by
      intro text htext
      rw [← htext]
      exact Json.setMember_eq hvalue
    cases h value hvalue with
    | null =>
      dsimp only
      rw [Json.modify_congr (g := fun v => v), Json.modify_id]
      intro v hv
      obtain rfl := Option.some.inj (hvalue.symm.trans (hat.symm.trans hv))
      rfl
    | @instant t _ stored year =>
      obtain ⟨text, htext⟩ := year.canonical
      obtain ⟨instant, hread, hsame⟩ := stored.read year
      rw [← hset text (stored.canonicalField year htext)]
      split
      · next heq => cases heq
      · next heq => exact absurd (Option.some.inj heq) stored.ne_null
      · next heq =>
        obtain rfl := Option.some.inj heq
        rw [hread]
        show (canonicalTimestamp instant).bind _ = _
        rw [hsame, htext]
        rfl

theorem normalizeNestedTriggerSummary_ok {key : String}
    (hfire : ∀ value, details.at? [key, "next_fire_at"] = some value → Presentable value)
    (hevaluation : ∀ value, details.at? [key, "next_evaluation_at"] = some value →
      Presentable value) :
    normalizeNestedTriggerSummary details key =
      .ok (details.modifyAll [[key, "next_fire_at"], [key, "next_evaluation_at"]]
        canonicalField) := by
  have hbelow : ∀ {summary name}, details.member? key = some summary →
      summary.at? [name] = details.at? [key, name] := by
    intro summary name hsummary
    show _ = (details.member? key).bind _
    rw [hsummary]
    rfl
  unfold normalizeNestedTriggerSummary
  cases hsummary : details.member? key with
  | none =>
    have habsent : ∀ name, details.at? [key, name] = none := by
      intro name
      show (details.member? key).bind _ = none
      rw [hsummary]
      rfl
    rw [Json.modifyAll_cons, Json.modify_of_absent (habsent _), Json.modifyAll_cons,
      Json.modify_of_absent (habsent _)]
    rfl
  | some summary =>
    have hapart : Json.Apart ["next_fire_at"] ["next_evaluation_at"] := by simp [Json.Apart]
    rw [← hbelow hsummary] at hfire hevaluation
    dsimp only
    rw [normalizeObjectTimestamp_ok hfire]
    show (normalizeObjectTimestamp (summary.modify ["next_fire_at"] canonicalField)
      "next_evaluation_at").bind _ = _
    rw [normalizeObjectTimestamp_ok (by rw [Json.at?_modify_apart hapart]; exact hevaluation)]
    show Except.ok (details.setMember key _) = _
    rw [Json.modifyAll_cons, Json.modifyAll_cons, Json.modify_below]
    exact congrArg Except.ok (Json.setMember_eq (f := fun v =>
      (v.modify ["next_fire_at"] canonicalField).modify ["next_evaluation_at"] canonicalField)
      hsummary)

end

/-! ## All fields -/

section

variable {eventType : EventType} {details : Json}

theorem normalize_two {p q : String} (hpq : p ≠ q)
    (h : ∀ path ∈ [[p], [q]], ∀ value, details.at? path = some value → Presentable value) :
    ((normalizeObjectTimestamp details p).bind fun details => normalizeObjectTimestamp details q) =
      .ok (details.modifyAll [[p], [q]] canonicalField) := by
  rw [normalizeObjectTimestamp_ok (h [p] List.mem_cons_self)]
  show normalizeObjectTimestamp (details.modify [p] canonicalField) q = _
  have hapart : Json.Apart [p] [q] := fun heq => hpq heq
  refine normalizeObjectTimestamp_ok ?_
  rw [Json.at?_modify_apart hapart]
  exact h [q] (by simp)

theorem normalizeEventDetails_ok
    (h : ∀ path ∈ eventType.timestampPaths, ∀ value, details.at? path = some value →
      Presentable value) :
    normalizeEventDetails eventType details =
      .ok (details.modifyAll eventType.timestampPaths canonicalField) := by
  cases eventType with
  | updated =>
    unfold EventType.timestampPaths at h ⊢
    show (normalizeNestedTriggerSummary details "before_trigger").bind _ = _
    rw [normalizeNestedTriggerSummary_ok (h _ (by simp)) (h _ (by simp))]
    have hapart : ∀ name, ∀ path ∈ [["before_trigger", "next_fire_at"],
        ["before_trigger", "next_evaluation_at"]], Json.Apart path ["after_trigger", name] := by
      simp [Json.Apart]
    refine normalizeNestedTriggerSummary_ok ?_ ?_
    · rw [Json.at?_modifyAll_apart (hapart _)]
      exact h _ (by simp)
    · rw [Json.at?_modifyAll_apart (hapart _)]
      exact h _ (by simp)
  | _ => exact normalize_two (by decide) h

/-- **Details whose owned fields are timestamps are presented, and presented again they
stay.** -/
theorem normalizeEventDetails_presents
    (h : ∀ path ∈ eventType.timestampPaths, ∀ value, details.at? path = some value →
      Presentable value) :
    ∃ view, normalizeEventDetails eventType details = .ok view ∧
      Presented eventType.timestampPaths details view ∧
      normalizeEventDetails eventType view = .ok view := by
  have hapart := eventType.timestampPaths_apart
  refine ⟨_, normalizeEventDetails_ok h, ⟨?_, ?_, Json.blank_modifyAll hapart⟩, ?_⟩
  · intro path hpath
    rw [Json.at?_modifyAll hapart hpath]
    cases hvalue : details.at? path with
    | none => exact .absent
    | some value => exact (h path hpath value hvalue).field
  · intro path hpath
    exact Json.at?_modifyAll_apart hpath
  · have hagain : ∀ path ∈ eventType.timestampPaths, ∀ value,
        (details.modifyAll eventType.timestampPaths canonicalField).at? path = some value →
        Presentable value := by
      intro path hpath value hvalue
      rw [Json.at?_modifyAll hapart hpath] at hvalue
      obtain ⟨old, hold, rfl⟩ := Option.map_eq_some_iff.mp hvalue
      exact (h path hpath old hold).again.1
    rw [normalizeEventDetails_ok hagain, Json.modifyAll_modifyAll hapart]
    congr 1
    apply Json.modifyAll_congr hapart
    intro path hpath value hvalue
    exact (h path hpath value hvalue).again.2

end

/-! ## What events record -/

/-- How the instant at a path is written. -/
abbrev Stamp := List String → OffsetDateTime → Json

structure TriggerSummary where
  triggerType : String
  nextFireAt : Option OffsetDateTime
  nextEvaluationAt : Option OffsetDateTime

def TriggerSummary.json (summary : TriggerSummary) (key : String) (stamp : Stamp) : Json :=
  .ofMap [("type", .string summary.triggerType),
    ("next_fire_at", Json.ofOption (stamp [key, "next_fire_at"]) summary.nextFireAt),
    ("next_evaluation_at", Json.ofOption (stamp [key, "next_evaluation_at"])
      summary.nextEvaluationAt)]

/-- The contents of the events, one constructor for each place that writes them. -/
inductive EventContent where
  | created (triggerType projectId : String) (taskId : Option String)
  | completed (completionNote : Option String)
  | snoozed (priorNextFireAt : Option OffsetDateTime) (snoozeUntil : OffsetDateTime)
      (reason : String)
  | cancelled (reason : String)
  | advanced (reason : String) (previousNo nextNo skippedCount : Nat)
      (previousSchedule nextSchedule : Option OffsetDateTime)
  | updated (reason : String) (changedFields : List String) (beforeTrigger afterTrigger :
      TriggerSummary)
  | evaluated (eventType : EventType) (context : CheckContext) (condition : Option ConditionStatus)
      (conditionDetail : Option String)

namespace EventContent

def eventType : EventContent → EventType
  | created .. => .created
  | completed _ => .completed
  | snoozed .. => .snoozed
  | cancelled _ => .cancelled
  | advanced .. => .occurrenceAdvanced
  | updated .. => .updated
  | evaluated eventType .. => eventType

def members (content : EventContent) (stamp : Stamp) : List (String × Json) :=
  match content with
  | created triggerType projectId taskId =>
    [("trigger_type", .string triggerType), ("project_id", .string projectId),
      ("task_id", optionText taskId)]
  | completed completionNote => [("completion_note", optionText completionNote)]
  | snoozed prior snoozeUntil reason =>
    [("prior_next_fire_at", Json.ofOption (stamp ["prior_next_fire_at"]) prior),
      ("snooze_until", stamp ["snooze_until"] snoozeUntil), ("reason", .string reason)]
  | cancelled reason => [("reason", .string reason)]
  | advanced reason previousNo nextNo skippedCount previous next =>
    [("reason", .string reason), ("previous_occurrence_no", .ofNat previousNo),
      ("next_occurrence_no", .ofNat nextNo),
      ("previous_schedule", Json.ofOption (stamp ["previous_schedule"]) previous),
      ("next_schedule", Json.ofOption (stamp ["next_schedule"]) next),
      ("skipped_count", .ofNat skippedCount)]
  | updated reason changedFields before after =>
    [("reason", .string reason), ("changed_fields", .array (changedFields.map .string)),
      ("before_trigger", before.json "before_trigger" stamp),
      ("after_trigger", after.json "after_trigger" stamp)]
  | evaluated _ context condition detail =>
    [("lifecycle_event", .string context.lifecycleEvent.text),
      ("condition", Json.ofOption (fun s => .string s.text) condition),
      ("condition_detail", Json.ofOption Json.string detail)]

/-- The timestamps among the members, with their paths. -/
def timestamps : EventContent → List (List String × Option OffsetDateTime)
  | snoozed prior snoozeUntil _ =>
    [(["prior_next_fire_at"], prior), (["snooze_until"], some snoozeUntil)]
  | advanced _ _ _ _ previous next =>
    [(["previous_schedule"], previous), (["next_schedule"], next)]
  | updated _ _ before after =>
    [(["before_trigger", "next_fire_at"], before.nextFireAt),
      (["before_trigger", "next_evaluation_at"], before.nextEvaluationAt),
      (["after_trigger", "next_fire_at"], after.nextFireAt),
      (["after_trigger", "next_evaluation_at"], after.nextEvaluationAt)]
  | created .. | completed _ | cancelled _ | evaluated .. => []

end EventContent

/-- What an event records, with the identifier of its evidence if there is one. -/
structure EventRecord where
  content : EventContent
  evidenceId : Option Json

namespace EventRecord

def details (record : EventRecord) (stamp : Stamp) : Json :=
  .ofMap (record.content.members stamp ++
    record.evidenceId.toList.map fun evidenceId => ("evidence_id", evidenceId))

/-- The instants have years of four digits, and each is written in one of its forms. -/
def StampedBy (record : EventRecord) (stamp : Stamp) : Prop :=
  ∀ path t, (path, some t) ∈ record.content.timestamps → FourDigitYear t ∧ Stored t (stamp path t)

end EventRecord

/-- The stamp of this version. -/
def canonicalStamp : Stamp := fun _ t =>
  match canonicalTimestamp t with
  | .ok text => .string text
  | .error _ => .null

/-- The event is the record in this version's form. -/
def EventRecord.Records (record : EventRecord) (event : RemindiEvent) : Prop :=
  record.content.eventType = event.eventType ∧ event.details = record.details canonicalStamp

section

variable {record : EventRecord} {stamp : Stamp} {name : String}

theorem member?_details (h : name ≠ "evidence_id") :
    (record.details stamp).member? name = (record.content.members stamp).reverse.lookup name := by
  unfold EventRecord.details
  cases record.evidenceId with
  | none => rw [Option.toList_none, List.map_nil, List.append_nil, Json.member?_ofMap]
  | some evidenceId =>
    rw [Option.toList_some, List.map_singleton, Json.member?_ofMap_cons, if_neg h,
      Json.member?_ofMap]

theorem at?_details (h : name ≠ "evidence_id") :
    (record.details stamp).at? [name] = (record.content.members stamp).reverse.lookup name := by
  rw [Json.at?_singleton, member?_details h]

theorem at?_summary (record : EventRecord) (stamp : Stamp) (key : String)
    (summary : TriggerSummary) (h : key ≠ "evidence_id")
    (hmember : (record.content.members stamp).reverse.lookup key = some (summary.json key stamp)) :
    (record.details stamp).at? [key, "next_fire_at"] =
        some (Json.ofOption (stamp [key, "next_fire_at"]) summary.nextFireAt) ∧
      (record.details stamp).at? [key, "next_evaluation_at"] =
        some (Json.ofOption (stamp [key, "next_evaluation_at"]) summary.nextEvaluationAt) := by
  have hbelow : ∀ name, (record.details stamp).at? [key, name] =
      (summary.json key stamp).at? [name] := by
    intro name
    show ((record.details stamp).member? key).bind _ = _
    rw [member?_details h, hmember]
    rfl
  rw [hbelow, hbelow, Json.at?_singleton, Json.at?_singleton]
  unfold TriggerSummary.json
  rw [Json.member?_ofMap, Json.member?_ofMap]
  simp [List.lookup_cons]

/-- The timestamps are at paths that the type owns. -/
theorem timestamps_owned {field : List String × Option OffsetDateTime}
    (h : field ∈ record.content.timestamps) :
    field.1 ∈ record.content.eventType.timestampPaths ∧
      (record.details stamp).at? field.1 = some (Json.ofOption (stamp field.1) field.2) := by
  obtain ⟨content, evidenceId⟩ := record
  cases content with
  | snoozed prior snoozeUntil reason =>
    rcases List.mem_pair.mp h with rfl | rfl
    · refine ⟨List.mem_cons_self, ?_⟩
      rw [at?_details (by decide)]
      simp [EventContent.members, List.lookup_cons]
    · refine ⟨List.mem_cons_of_mem _ List.mem_cons_self, ?_⟩
      rw [at?_details (by decide)]
      simp [EventContent.members, List.lookup_cons, Json.ofOption]
  | advanced reason previousNo nextNo skippedCount previous next =>
    rcases List.mem_pair.mp h with rfl | rfl
    · refine ⟨List.mem_cons_self, ?_⟩
      rw [at?_details (by decide)]
      simp [EventContent.members, List.lookup_cons]
    · refine ⟨List.mem_cons_of_mem _ List.mem_cons_self, ?_⟩
      rw [at?_details (by decide)]
      simp [EventContent.members, List.lookup_cons]
  | updated reason changedFields before after =>
    have hbefore := at?_summary ⟨.updated reason changedFields before after, evidenceId⟩ stamp
      "before_trigger" before (by decide)
      (by simp [EventContent.members, List.lookup_cons])
    have hafter := at?_summary ⟨.updated reason changedFields before after, evidenceId⟩ stamp
      "after_trigger" after (by decide)
      (by simp [EventContent.members])
    simp only [EventContent.timestamps, List.mem_cons, List.not_mem_nil, or_false] at h
    rcases h with rfl | rfl | rfl | rfl
    · exact ⟨by simp [EventContent.eventType, EventType.timestampPaths], hbefore.1⟩
    · exact ⟨by simp [EventContent.eventType, EventType.timestampPaths], hbefore.2⟩
    · exact ⟨by simp [EventContent.eventType, EventType.timestampPaths], hafter.1⟩
    · exact ⟨by simp [EventContent.eventType, EventType.timestampPaths], hafter.2⟩
  | _ => cases h

/-- The names that owned paths begin with. -/
def ownedNames : List String :=
  ["prior_next_fire_at", "snooze_until", "previous_schedule", "next_schedule", "before_trigger",
    "after_trigger", "next_fire_at", "next_evaluation_at"]

theorem owned_begins {eventType : EventType} {path : List String}
    (h : path ∈ eventType.timestampPaths) : ∃ name ∈ ownedNames, ∃ rest, path = name :: rest := by
  cases eventType <;>
    simp only [EventType.timestampPaths, List.mem_cons, List.not_mem_nil, or_false] at h <;>
    rcases h with rfl | rfl | rfl | rfl <;>
    exact ⟨_, by decide, _, rfl⟩

/-- A record without members of these names has nothing at an owned path. -/
theorem at?_unowned {path : List String} (h : path ∈ record.content.eventType.timestampPaths)
    (hnames : ∀ name ∈ ownedNames, (record.content.members stamp).reverse.lookup name = none) :
    (record.details stamp).at? path = none := by
  obtain ⟨name, hname, rest, rfl⟩ := owned_begins h
  have hne : name ≠ "evidence_id" := by
    rintro rfl
    exact absurd hname (by decide)
  show ((record.details stamp).member? name).bind _ = none
  rw [member?_details hne, hnames name hname]
  rfl

/-- An owned path leads to a timestamp of the record, or nowhere. -/
theorem owned_timestamps {path : List String} {value : Json}
    (h : path ∈ record.content.eventType.timestampPaths)
    (hvalue : (record.details stamp).at? path = some value) :
    ∃ t, (path, t) ∈ record.content.timestamps := by
  obtain ⟨content, evidenceId⟩ := record
  have hunowned : ¬ ∀ name ∈ ownedNames, (content.members stamp).reverse.lookup name = none := by
    intro hnames
    rw [at?_unowned h hnames] at hvalue
    cases hvalue
  cases content with
  | snoozed prior snoozeUntil reason =>
    rcases List.mem_pair.mp h with rfl | rfl
    · exact ⟨_, List.mem_cons_self⟩
    · exact ⟨_, List.mem_cons_of_mem _ List.mem_cons_self⟩
  | advanced reason previousNo nextNo skippedCount previous next =>
    rcases List.mem_pair.mp h with rfl | rfl
    · exact ⟨_, List.mem_cons_self⟩
    · exact ⟨_, List.mem_cons_of_mem _ List.mem_cons_self⟩
  | updated reason changedFields before after =>
    simp only [EventContent.eventType, EventType.timestampPaths, List.mem_cons, List.not_mem_nil,
      or_false] at h
    rcases h with rfl | rfl | rfl | rfl
    · exact ⟨before.nextFireAt, by simp [EventContent.timestamps]⟩
    · exact ⟨before.nextEvaluationAt, by simp [EventContent.timestamps]⟩
    · exact ⟨after.nextFireAt, by simp [EventContent.timestamps]⟩
    · exact ⟨after.nextEvaluationAt, by simp [EventContent.timestamps]⟩
  | _ =>
    refine absurd ?_ hunowned
    simp [ownedNames, EventContent.members, List.lookup_cons]

theorem StampedBy.presentable (h : record.StampedBy stamp) {path : List String} {value : Json}
    (hpath : path ∈ record.content.eventType.timestampPaths)
    (hvalue : (record.details stamp).at? path = some value) : Presentable value := by
  obtain ⟨t, ht⟩ := owned_timestamps hpath hvalue
  have hat : (record.details stamp).at? path = some (Json.ofOption (stamp path) t) :=
    (timestamps_owned ht).2
  rw [hvalue] at hat
  obtain rfl := Option.some.inj hat
  cases t with
  | none => exact .null
  | some t =>
    obtain ⟨hyear, hstored⟩ := h path t ht
    exact .instant hstored hyear

end

/-! ## The events of a run -/

section

variable {value : Option OffsetDateTime} {item : Remindi} {json details : Json}

theorem canonicalJson_stamp (h : canonicalJson value = .ok json) (path : List String) :
    json = Json.ofOption (canonicalStamp path) value := by
  unfold canonicalJson at h
  cases value with
  | none =>
    cases h
    rfl
  | some t =>
    obtain ⟨text, htext, h⟩ := except_bind_ok.mp h
    rw [Option.mapM_some] at htext
    obtain ⟨text', htext', rfl⟩ := except_map_ok.mp htext
    cases h
    unfold canonicalStamp
    rw [Json.ofOption, domain_ok.mp htext']
    rfl

/-- The summary of an item's trigger. -/
def summaryOf (item : Remindi) : TriggerSummary where
  triggerType := item.trigger.name
  nextFireAt := item.nextFireAt
  nextEvaluationAt := item.nextEvaluationAt

theorem triggerSummary_stamp (h : triggerSummary item = .ok json) (key : String) :
    json = (summaryOf item).json key canonicalStamp := by
  obtain ⟨fire, hfire, h⟩ := except_bind_ok.mp h
  obtain ⟨evaluation, hevaluation, h⟩ := except_bind_ok.mp h
  cases h
  unfold TriggerSummary.json summaryOf
  rw [canonicalJson_stamp hfire [key, "next_fire_at"],
    canonicalJson_stamp hevaluation [key, "next_evaluation_at"]]

theorem updateDetails_stamp {request : UpdateRequest} {prior : Remindi} {priorTrigger : Json}
    {skippedCount : Nat} (hprior : triggerSummary prior = .ok priorTrigger)
    (h : updateDetails request prior item priorTrigger skippedCount = .ok details) :
    ∃ content : EventContent, details = .ofMap (content.members canonicalStamp) ∧
      content.eventType =
        if request.occurrenceDisposition.isSome then .occurrenceAdvanced else .updated := by
  unfold updateDetails at h
  by_cases hsome : request.occurrenceDisposition.isSome = true
  · rw [if_pos hsome] at h
    obtain ⟨before, hbefore, h⟩ := except_bind_ok.mp h
    obtain ⟨after, hafter, h⟩ := except_bind_ok.mp h
    cases h
    refine ⟨.advanced request.reason prior.occurrenceNo item.occurrenceNo skippedCount
      prior.nextFireAt item.nextFireAt, ?_, (if_pos hsome).symm⟩
    rw [canonicalJson_stamp hbefore ["previous_schedule"],
      canonicalJson_stamp hafter ["next_schedule"]]
    rfl
  · rw [if_neg hsome] at h
    obtain ⟨after, hafter, h⟩ := except_bind_ok.mp h
    cases h
    refine ⟨.updated request.reason (changedFields request) (summaryOf prior) (summaryOf item), ?_,
      (if_neg hsome).symm⟩
    rw [triggerSummary_stamp hprior "before_trigger", triggerSummary_stamp hafter "after_trigger"]
    rfl

theorem complete_eventType {evidence : ValidatedEvidence} {now : OffsetDateTime}
    {eventType : EventType} {after : Remindi}
    (h : item.complete evidence now = .ok (after, eventType)) : eventType = .completed := by
  unfold Remindi.complete at h
  split at h
  · cases h
  split at h <;> cases h
  rfl

theorem snooze_eventType {snoozeUntil now : OffsetDateTime} {reason : String}
    {eventType : EventType} {after : Remindi}
    (h : item.snooze snoozeUntil reason now = .ok (after, eventType)) : eventType = .snoozed := by
  unfold Remindi.snooze at h
  split at h
  · cases h
  split at h
  · cases h
  split at h
  · cases h
  split at h <;> cases h
  rfl

theorem cancel_eventType {reason : String} {now : OffsetDateTime} {eventType : EventType}
    {after : Remindi} (h : item.cancel reason now = .ok (after, eventType)) :
    eventType = .cancelled := by
  unfold Remindi.cancel at h
  split at h
  · cases h
  split at h <;> cases h
  rfl

/-- The details of a call are a content in this version's form. -/
theorem Operates.content {actor : Actor} {now : OffsetDateTime} {prior : Remindi} {call : Call}
    {mutation : Mutation} (h : Operates actor now prior call mutation) :
    ∃ content : EventContent, mutation.details = .ofMap (content.members canonicalStamp) ∧
      content.eventType = mutation.eventType := by
  cases h with
  | @complete _ request _ _ _ prepared validated ok =>
    unfold completeItem at ok
    obtain ⟨⟨item, eventType⟩, hitem, ok⟩ := except_bind_ok.mp ok
    cases ok
    exact ⟨.completed request.completionNote, rfl, (complete_eventType (domain_ok.mp hitem)).symm⟩
  | @snooze _ request _ _ prepared ok =>
    unfold snoozeItem at ok
    obtain ⟨⟨item, eventType⟩, hitem, ok⟩ := except_bind_ok.mp ok
    obtain ⟨priorText, hprior, ok⟩ := except_bind_ok.mp ok
    obtain ⟨untilText, huntil, ok⟩ := except_bind_ok.mp ok
    cases ok
    refine ⟨.snoozed prior.nextFireAt request.snoozeUntil request.reason, ?_,
      (snooze_eventType (domain_ok.mp hitem)).symm⟩
    rw [canonicalJson_stamp hprior ["prior_next_fire_at"],
      canonicalJson_stamp huntil ["snooze_until"]]
    rfl
  | @cancel _ request _ prepared ok =>
    unfold cancelItem at ok
    obtain ⟨⟨item, eventType⟩, hitem, ok⟩ := except_bind_ok.mp ok
    cases ok
    exact ⟨.cancelled request.reason, rfl, (cancel_eventType (domain_ok.mp hitem)).symm⟩
  | @update _ request _ prepared ok =>
    unfold updateItem at ok
    split at ok
    · cases ok
    split at ok
    · cases ok
    obtain ⟨priorTrigger, hprior, ok⟩ := except_bind_ok.mp ok
    obtain ⟨⟨changed, skipped⟩, -, ok⟩ := except_bind_ok.mp ok
    obtain ⟨_, -, ok⟩ := except_bind_ok.mp ok
    obtain ⟨details, hdetails, ok⟩ := except_bind_ok.mp ok
    cases ok
    exact updateDetails_stamp hprior hdetails

theorem NotedIn.record {content : EventContent} {details' : Json} (h : NotedIn details details')
    (hdetails : details = .ofMap (content.members canonicalStamp)) :
    ∃ record : EventRecord, record.content = content ∧
      details' = record.details canonicalStamp := by
  rcases h with rfl | ⟨evidenceId, members, hmembers, rfl⟩
  · refine ⟨⟨content, none⟩, rfl, ?_⟩
    unfold EventRecord.details
    rw [hdetails, Option.toList_none, List.map_nil, List.append_nil]
  · refine ⟨⟨content, some evidenceId⟩, rfl, ?_⟩
    unfold EventRecord.details
    rw [Option.toList_some, List.map_singleton, Json.ofMap_append (hdetails.symm.trans hmembers)]

end

section

variable {x : Externals} {s : System} {label : Label} {event : RemindiEvent}

theorem EventSource.record (h : EventSource s label event) :
    ∃ record : EventRecord, record.Records event := by
  cases h with
  | added item eventType details =>
    refine ⟨⟨.created item.trigger.name item.projectId item.taskId, none⟩, eventType.symm, ?_⟩
    rw [details]
    rfl
  | operated operates eventType noted =>
    obtain ⟨content, hdetails, htype⟩ := operates.content
    obtain ⟨record, rfl, hrecord⟩ := noted.record hdetails
    exact ⟨record, htype.trans eventType.symm, hrecord⟩
  | checked context status details =>
    exact ⟨⟨.evaluated event.eventType context status none, none⟩, rfl, details⟩
  | polled evaluates outcome details =>
    exact ⟨⟨.evaluated event.eventType _ _ _, none⟩, rfl, details⟩

/-- **Every event of a run is a record in this version's form.** -/
theorem event_recorded {labels : List Label} (h : event ∈ (runOf x labels).db.events.rows) :
    ∃ record : EventRecord, record.Records event := by
  refine Machine.invariant_final (s := System.start)
    (I := fun s => ∀ event ∈ s.db.events.rows, ∃ record : EventRecord, record.Records event)
    (fun _ hevent => nomatch hevent) ?_ labels event h
  intro s label hs event hevent
  obtain ⟨new, hrows, hnew⟩ := step_sources (x := x) s label
  rw [hrows] at hevent
  rcases List.mem_append.mp hevent with hold | hadded
  · exact hs event hold
  · exact (hnew event hadded).record

end

/-- **Event details are presented without loss**, whichever form their instants were
stored in. -/
theorem event_details_presented (x : Externals) (labels : List Label) (event : RemindiEvent)
    (hevent : event ∈ (runOf x labels).db.events.rows) :
    (∃ record : EventRecord, record.Records event) ∧
    ∀ (record : EventRecord) (stamp : Stamp), record.Records event → record.StampedBy stamp →
      (∀ field ∈ record.content.timestamps, field.1 ∈ event.eventType.timestampPaths ∧
        (record.details stamp).at? field.1 = some (Json.ofOption (stamp field.1) field.2)) ∧
      ∃ view, normalizeEventDetails event.eventType (record.details stamp) = .ok view ∧
        Presented event.eventType.timestampPaths (record.details stamp) view ∧
        normalizeEventDetails event.eventType view = .ok view := by
  refine ⟨event_recorded hevent, fun record stamp hrecord hstamped => ?_⟩
  rw [← hrecord.1]
  refine ⟨fun field hfield => timestamps_owned hfield, ?_⟩
  exact normalizeEventDetails_presents fun path hpath value hvalue =>
    StampedBy.presentable hstamped hpath hvalue

/-! ## Samples -/

/-- The stamp of an earlier version. -/
def componentsStamp : Stamp := fun _ t => .array ((components t).map Json.ofInt)

/-- The item fires at second 1000 and is snoozed until second 2000. -/
def Sample.snoozedRun : List Label :=
  [Sample.call (.add Sample.everyMinute) 500 0, Sample.pollRead 1000, Sample.pollApply 1000 1,
    Sample.call (.snooze Sample.snoozeUntil2000 3600000000000) 1010 2]

def Sample.snoozeRecord : EventRecord where
  content := .snoozed (some (Sample.second 1000)) (Sample.second 2000) "reason"
  evidenceId := none

theorem Sample.last_snoozed :
    (runOf Sample.externals Sample.snoozedRun).db.events.rows.getLast?.map
      (fun event => (event.eventType, event.details.text)) =
      some (.snoozed, (Sample.snoozeRecord.details canonicalStamp).text) := by
  decide +kernel

theorem Sample.snoozeRecord_stamped : Sample.snoozeRecord.StampedBy componentsStamp := by
  intro path t ht
  have hsecond : ∀ {n}, n = 1000 ∨ n = 2000 →
      FourDigitYear (Sample.second n) ∧ (Sample.second n).Valid := by
    rintro n (rfl | rfl)
    · exact ⟨⟨by decide, by decide⟩, ⟨by decide, by decide⟩, by decide⟩
    · exact ⟨⟨by decide, by decide⟩, ⟨by decide, by decide⟩, by decide⟩
  rcases List.mem_pair.mp ht with heq | heq
  · cases heq
    exact ⟨(hsecond (Or.inl rfl)).1, .parts (hsecond (Or.inl rfl)).2⟩
  · cases heq
    exact ⟨(hsecond (Or.inr rfl)).1, .parts (hsecond (Or.inr rfl)).2⟩

/-- The event of the snooze, as an earlier version would have stored it. -/
theorem sample_details_presented :
    ∃ event ∈ (runOf Sample.externals Sample.snoozedRun).db.events.rows,
      Sample.snoozeRecord.Records event ∧
      ∃ view, normalizeEventDetails event.eventType (Sample.snoozeRecord.details componentsStamp) =
          .ok view ∧
        Presented event.eventType.timestampPaths (Sample.snoozeRecord.details componentsStamp)
          view := by
  obtain ⟨event, hlast, hobserved⟩ := Option.map_eq_some_iff.mp Sample.last_snoozed
  obtain ⟨htype, htext⟩ := Prod.mk.inj hobserved
  have hevent := List.mem_of_getLast? hlast
  have hrecords : Sample.snoozeRecord.Records event := ⟨htype.symm, text_injective htext⟩
  obtain ⟨-, view, hview, hpresented, -⟩ := (event_details_presented Sample.externals
    Sample.snoozedRun event hevent).2 Sample.snoozeRecord componentsStamp hrecords
    Sample.snoozeRecord_stamped
  exact ⟨event, hevent, hrecords, view, hview, hpresented⟩

end RemindiCore
