import RemindiCore.Proof.Disposition
import RemindiCore.Proof.TimestampCodec

/-!
# The audit of updates

What the event of a committed update says of it (`FullyAudited`).  An update without a
disposition names its fields and shows the trigger before and after; one with a
disposition shows the occurrences and the schedules instead, so whatever else it has
set goes unnamed (`update_audited_iff`).
-/

namespace RemindiCore

open CivilTime JsonText KeyedTable Machine Transaction

/-! ## What an event has to say -/

/-- The fields of a request, and whether it sets them. -/
def requestFields (request : UpdateRequest) : List (String × Bool) :=
  [("message", request.message.isSome), ("instructions", request.instructions.isSome),
    ("priority", request.priority.isSome),
    ("overdue_after_seconds", request.overdueAfterSeconds.isSome),
    ("trigger", request.trigger.isSome), ("recurrence", request.recurrence.isSome),
    ("occurrence_disposition", request.occurrenceDisposition.isSome),
    ("links", request.links.isSome)]

/-- The event names a field: in its list, or, for a disposition, by its type. -/
def Names (event : RemindiEvent) (field : String) : Prop :=
  (∃ fields, event.details.member? "changed_fields" = some (.array fields) ∧
      .string field ∈ fields) ∨
    field = "occurrence_disposition" ∧ event.eventType = .occurrenceAdvanced

/-- The event has the two values under the two names. -/
def Shows (event : RemindiEvent) (before after : String) (values : Json × Json) : Prop :=
  event.details.member? before = some values.1 ∧ event.details.member? after = some values.2

/-- The fire time in a summary of a trigger. -/
def ShowsFireTimes (event : RemindiEvent) (values : Json × Json) : Prop :=
  ∃ summaries, Shows event "before_trigger" "after_trigger" summaries ∧
    summaries.1.member? "next_fire_at" = some values.1 ∧
      summaries.2.member? "next_fire_at" = some values.2

/-- **The event tells everything that the update has done.** -/
structure FullyAudited (raw : UpdateRequest) (prior after : Remindi) (event : RemindiEvent) :
    Prop where
  names : ∀ field, (field, true) ∈ requestFields raw → Names event field
  trigger : raw.trigger.isSome = true → ∃ before new, triggerSummary prior = .ok before ∧
    triggerSummary after = .ok new ∧ Shows event "before_trigger" "after_trigger" (before, new)
  disposition : raw.occurrenceDisposition.isSome = true →
    Shows event "previous_occurrence_no" "next_occurrence_no"
      (.ofNat prior.occurrenceNo, .ofNat after.occurrenceNo)
  schedule : ∃ before new, canonicalJson prior.nextFireAt = .ok before ∧
    canonicalJson after.nextFireAt = .ok new ∧
      (Shows event "previous_schedule" "next_schedule" (before, new) ∨
        ShowsFireTimes event (before, new))

/-- The disposition comes alone, if there is one. -/
def DisposesAlone (raw : UpdateRequest) : Prop :=
  raw.occurrenceDisposition.isSome = true →
    ∀ field, (field, true) ∈ requestFields raw → field = "occurrence_disposition"

/-! ## What the update has stored -/

theorem canonicalJson_truncateMillis (value : Option OffsetDateTime) :
    canonicalJson (value.map OffsetDateTime.truncateMillis) = canonicalJson value := by
  unfold canonicalJson
  cases value with
  | none => rw [Option.map_none]
  | some value =>
    rw [Option.map_some, Option.mapM_some, Option.mapM_some, canonicalTimestamp_truncateMillis]

theorem triggerSummary_writtenOver (x : Externals) (item old : Remindi) :
    triggerSummary (item.writtenOver x old) = triggerSummary item := by
  have hfire := canonicalJson_truncateMillis item.nextFireAt
  have hevaluation := canonicalJson_truncateMillis item.nextEvaluationAt
  have hname : (item.writtenOver x old).trigger.name = item.trigger.name :=
    Trigger.name_mapNumbers _ _
  have hfire' : (item.writtenOver x old).nextFireAt =
    item.nextFireAt.map OffsetDateTime.truncateMillis := rfl
  have hevaluation' : (item.writtenOver x old).nextEvaluationAt =
    item.nextEvaluationAt.map OffsetDateTime.truncateMillis := rfl
  unfold triggerSummary
  rw [hfire', hevaluation', hfire, hevaluation, hname]

theorem triggerSummary_ok {item : Remindi} {summary : Json} (h : triggerSummary item = .ok summary) :
    ∃ fire, canonicalJson item.nextFireAt = .ok fire ∧
      summary.member? "next_fire_at" = some fire := by
  obtain ⟨fire, hfire, h⟩ := except_bind_ok.mp h
  obtain ⟨evaluation, -, h⟩ := except_bind_ok.mp h
  cases h
  refine ⟨fire, hfire, ?_⟩
  rw [Json.member?_ofMap]
  simp [List.lookup_cons]

/-- Evidence adds one member. -/
theorem NotedIn.member? {details details' : Json} (h : NotedIn details details') {name : String}
    (hname : name ≠ "evidence_id") : details'.member? name = details.member? name := by
  rcases h with rfl | ⟨evidenceId, members, rfl, rfl⟩
  · rfl
  · exact (Json.lookup_insertMember name _ _ _).trans (if_neg hname)

theorem prepareUpdate_fields {actor : Actor} {raw request : UpdateRequest}
    (h : prepareUpdate actor raw = .ok request) : requestFields request = requestFields raw := by
  unfold prepareUpdate at h
  simp only [except_bind_ok] at h
  obtain ⟨_, -, _, -, _, -, _, -, _, -, message, hmessage, instructions, hinstructions, _, -, _, -,
    _, -, _, -, h⟩ := h
  cases h
  have hsame : ∀ {α : Type} {value value' : Option α} {f : α → Except ServiceError α},
      value.mapM f = .ok value' → value'.isSome = value.isSome := by
    intro α value value' f h
    cases value with
    | none =>
      cases h
      rfl
    | some value =>
      rw [Option.mapM_some] at h
      obtain ⟨_, -, h⟩ := except_map_ok.mp h
      subst h
      rfl
  unfold requestFields
  simp only [Option.isSome_map, hsame hmessage, hsame hinstructions]

theorem mem_changedFields {request : UpdateRequest} {field : String} :
    field ∈ changedFields request ↔ (field, true) ∈ requestFields request := by
  unfold changedFields requestFields
  simp only [List.mem_append, List.mem_ite_nil_right, List.mem_cons,
    Prod.mk.injEq, List.not_mem_nil, or_false]
  grind

/-! ## The details -/

/-- The two shapes of the details, and what is in them. -/
inductive UpdateDetails (request : UpdateRequest) (prior item : Remindi) (details : Json) : Prop
  | fields (hnone : request.occurrenceDisposition = none) (before new : Json)
      (hbefore : triggerSummary prior = .ok before) (hnew : triggerSummary item = .ok new)
      (fields : details.member? "changed_fields" =
        some (.array ((changedFields request).map .string)))
      (shown : details.member? "before_trigger" = some before ∧
        details.member? "after_trigger" = some new)
  | occurrence (hsome : request.occurrenceDisposition.isSome = true) (before new : Json)
      (hbefore : canonicalJson prior.nextFireAt = .ok before)
      (hnew : canonicalJson item.nextFireAt = .ok new)
      (fields : details.member? "changed_fields" = none)
      (numbers : details.member? "previous_occurrence_no" = some (.ofNat prior.occurrenceNo) ∧
        details.member? "next_occurrence_no" = some (.ofNat item.occurrenceNo))
      (schedules : details.member? "previous_schedule" = some before ∧
        details.member? "next_schedule" = some new)

theorem updateDetails_ok {request : UpdateRequest} {prior item : Remindi} {priorTrigger : Json}
    {skippedCount : Nat} {details : Json} (hprior : triggerSummary prior = .ok priorTrigger)
    (h : updateDetails request prior item priorTrigger skippedCount = .ok details) :
    UpdateDetails request prior item details := by
  unfold updateDetails at h
  by_cases hsome : request.occurrenceDisposition.isSome = true
  · rw [if_pos hsome] at h
    obtain ⟨before, hbefore, h⟩ := except_bind_ok.mp h
    obtain ⟨new, hnew, h⟩ := except_bind_ok.mp h
    cases h
    refine .occurrence hsome before new hbefore hnew ?_ ⟨?_, ?_⟩ ⟨?_, ?_⟩
    all_goals
      rw [Json.member?_ofMap]
      simp [List.lookup_cons]
  · rw [if_neg hsome] at h
    obtain ⟨new, hnew, h⟩ := except_bind_ok.mp h
    cases h
    refine .fields (by simpa using hsome) priorTrigger new hprior hnew ?_ ⟨?_, ?_⟩
    all_goals
      rw [Json.member?_ofMap]
      simp [List.lookup_cons]

theorem updateItem_details {request : UpdateRequest} {now : OffsetDateTime} {prior : Remindi}
    {mutation : Mutation} (h : updateItem request now prior = .ok mutation) :
    UpdateDetails request prior mutation.item mutation.details := by
  unfold updateItem at h
  split at h
  · cases h
  · split at h
    · cases h
    · obtain ⟨priorTrigger, hprior, h⟩ := except_bind_ok.mp h
      obtain ⟨⟨changed, skipped⟩, -, h⟩ := except_bind_ok.mp h
      obtain ⟨_, -, h⟩ := except_bind_ok.mp h
      obtain ⟨details, hdetails, h⟩ := except_bind_ok.mp h
      cases h
      exact updateDetails_ok hprior hdetails

/-- The row that is written has the schedule of the item, and the event its details. -/
theorem UpdateDetails.written {x : Externals} {request : UpdateRequest} {prior item : Remindi}
    {details details' : Json} (h : UpdateDetails request prior item details)
    (hnoted : NotedIn details details') :
    UpdateDetails request prior (item.writtenOver x prior) details' := by
  have hname : ∀ name, name ≠ "evidence_id" → details'.member? name = details.member? name :=
    fun name hname => hnoted.member? hname
  cases h with
  | fields hnone before new hbefore hnew hlist hshown =>
    refine .fields hnone before new hbefore ((triggerSummary_writtenOver x item prior).trans hnew) ?_
      ⟨?_, ?_⟩
    · rw [hname _ (by decide)]
      exact hlist
    · rw [hname _ (by decide)]
      exact hshown.1
    · rw [hname _ (by decide)]
      exact hshown.2
  | occurrence hsome before new hbefore hnew hlist hnumbers hschedules =>
    refine .occurrence hsome before new hbefore
      ((canonicalJson_truncateMillis item.nextFireAt).trans hnew) ?_ ⟨?_, ?_⟩ ⟨?_, ?_⟩
    · rw [hname _ (by decide)]
      exact hlist
    · rw [hname _ (by decide)]
      exact hnumbers.1
    · rw [hname _ (by decide)]
      exact hnumbers.2
    · rw [hname _ (by decide)]
      exact hschedules.1
    · rw [hname _ (by decide)]
      exact hschedules.2

/-! ## Exactly when the event tells everything -/

section

variable {raw request : UpdateRequest} {prior after : Remindi} {event : RemindiEvent}

/-- What a committed update has left: the row after it and its event. -/
structure UpdateRecord (request : UpdateRequest) (prior after : Remindi) (event : RemindiEvent) :
    Prop where
  details : UpdateDetails request prior after event.details
  eventType : event.eventType =
    if request.occurrenceDisposition.isSome then .occurrenceAdvanced else .updated

theorem UpdateRecord.of_fields (h : UpdateRecord request prior after event)
    (hfields : requestFields request = requestFields raw)
    (hnone : request.occurrenceDisposition = none) : FullyAudited raw prior after event := by
  have hraw : raw.occurrenceDisposition.isSome = false := by
    have hdisposition : ("occurrence_disposition", request.occurrenceDisposition.isSome) ∈
        requestFields raw := hfields ▸ by simp [requestFields]
    simpa [requestFields, hnone] using hdisposition
  cases h.details with
  | occurrence hsome =>
    rw [hnone] at hsome
    cases hsome
  | fields _ before new hbefore hnew hlist hshown =>
    obtain ⟨fire, hfire, hsummary⟩ := triggerSummary_ok hbefore
    obtain ⟨fire', hfire', hsummary'⟩ := triggerSummary_ok hnew
    refine ⟨fun field hfield => Or.inl ⟨_, hlist, ?_⟩, fun _ => ⟨before, new, hbefore, hnew, hshown⟩,
      fun hsome => ?_, fire, fire', hfire, hfire', Or.inr ⟨(before, new), hshown, hsummary,
        hsummary'⟩⟩
    · rw [← hfields, ← mem_changedFields] at hfield
      exact List.mem_map_of_mem hfield
    · rw [hraw] at hsome
      cases hsome

theorem UpdateRecord.of_disposition (h : UpdateRecord request prior after event)
    (hsome : request.occurrenceDisposition.isSome = true) :
    FullyAudited raw prior after event ↔
      ∀ field, (field, true) ∈ requestFields raw → field = "occurrence_disposition" := by
  have heventType : event.eventType = .occurrenceAdvanced := h.eventType.trans (if_pos hsome)
  cases h.details with
  | fields hnone =>
    rw [hnone] at hsome
    cases hsome
  | occurrence _ before new hbefore hnew hlist hnumbers hschedules =>
    constructor
    · intro haudited field hfield
      rcases haudited.names field hfield with ⟨fields, hnamed, -⟩ | ⟨rfl, -⟩
      · rw [hlist] at hnamed
        cases hnamed
      · rfl
    · intro halone
      refine ⟨fun field hfield => Or.inr ⟨halone field hfield, heventType⟩, fun htrigger => ?_,
        fun _ => hnumbers, before, new, hbefore, hnew, Or.inl hschedules⟩
      have hset : ("trigger", true) ∈ requestFields raw := by
        rw [← htrigger]
        simp [requestFields]
      exact absurd (halone _ hset) (by decide)

theorem UpdateRecord.fullyAudited_iff (h : UpdateRecord request prior after event)
    (hfields : requestFields request = requestFields raw)
    (hdisposition : request.occurrenceDisposition = raw.occurrenceDisposition) :
    FullyAudited raw prior after event ↔ DisposesAlone raw := by
  unfold DisposesAlone
  rw [← hdisposition]
  by_cases hsome : request.occurrenceDisposition.isSome = true
  · rw [h.of_disposition hsome]
    exact ⟨fun h _ => h, fun h => h hsome⟩
  · exact iff_of_true (h.of_fields hfields (by simpa using hsome)) fun h => absurd h hsome

end

/-- **The event of a committed update tells everything exactly when its disposition, if it
has one, comes alone.** -/
theorem update_audited_iff (x : Externals) (labels : List Label) (ownerId : String) (actor : Actor)
    (raw : UpdateRequest) (env : Env)
    (hcommitted : Commits (entry (step x) (runOf x labels)
      (.call ownerId actor (.update raw) env)) raw.remindiId) :
    ∃ prior after event, (runOf x labels).db.remindi.find? raw.remindiId = some prior ∧
      (step x (runOf x labels) (.call ownerId actor (.update raw) env)).1.db.remindi.find?
        raw.remindiId = some after ∧
      (step x (runOf x labels) (.call ownerId actor (.update raw) env)).1.db.events.rows =
        (runOf x labels).db.events.rows ++ [event] ∧ event.remindiId = raw.remindiId ∧
      (FullyAudited raw prior after event ↔ DisposesAlone raw) := by
  have hafter : ∀ result db', (RemindiService.perform ⟨x, ownerId⟩ actor (.update raw)).run env
      (runOf x labels).db = (result, db') →
      (step x (runOf x labels) (.call ownerId actor (.update raw) env)).1.db = db' := by
    intro result db' hrun
    show (Txn.run _ env (runOf x labels).db).2 = db'
    rw [hrun]
  rcases hrun : (RemindiService.perform ⟨x, ownerId⟩ actor (.update raw)).run env
    (runOf x labels).db with ⟨error | response, db'⟩
  · refine absurd ?_ hcommitted
    show Db.view (step x (runOf x labels) (.call ownerId actor (.update raw) env)).1.db _ = _
    rw [hafter _ _ hrun, Txn.run_error hrun]
    rfl
  obtain ⟨m, hok⟩ := Txn.run_ok.mp hrun
  rw [hafter _ _ hrun]
  obtain ⟨hash, -, hreplayed | hexecuted⟩ := perform_ok hok
  · refine absurd ?_ hcommitted
    show Db.view (step x (runOf x labels) (.call ownerId actor (.update raw) env)).1.db _ = _
    rw [hafter _ _ hrun, ← hreplayed.unchanged]
    rfl
  cases hexecuted with
  | @mutated _ _ _ prior mutation target operates mutated =>
    obtain ⟨event, hevents, hid, htype, -, -, -, hnoted⟩ := mutated.event
    cases target
    cases operates with
    | @update _ request _ prepared ok =>
      obtain ⟨-, -, -, -, -, hdisposition⟩ := prepareUpdate_ok prepared
      obtain ⟨_, _, _, -, -, heventType, -⟩ := updateItem_ok ok
      have hprior : prior.id = raw.remindiId := mutated.id
      have hfound := mutated.found
      have hwritten : (mutation.item.writtenOver x prior).id = prior.id :=
        (updateItem_sameItem ok).id
      refine ⟨prior, mutation.item.writtenOver x prior, event, ?_, ?_, hevents, hid.trans hprior, ?_⟩
      · rw [← hprior]
        exact hfound
      · rw [mutated.remindi, Table.find?_replace (by rw [hwritten]; exact hfound),
          if_pos (hwritten.trans hprior)]
      · exact UpdateRecord.fullyAudited_iff
          ⟨(updateItem_details ok).written hnoted, htype.trans heventType⟩
          (prepareUpdate_fields prepared) hdisposition

/-! ## Samples -/

theorem FullyAudited.lists_trigger {raw : UpdateRequest} {prior after : Remindi}
    {event : RemindiEvent} (h : FullyAudited raw prior after event)
    (htrigger : raw.trigger.isSome = true) :
    (event.details.member? "changed_fields").isNone = false := by
  have hset : ("trigger", true) ∈ requestFields raw := by
    rw [← htrigger]
    simp [requestFields]
  rcases h.names _ hset with ⟨fields, hfields, -⟩ | ⟨hname, -⟩
  · rw [hfields]
    rfl
  · exact absurd hname (by decide)

/-- A disposition alone is told completely. -/
theorem sample_acknowledge_audited : ∃ prior after event,
    (runOf Sample.externals Sample.dueRun).db.remindi.find? Sample.acknowledge.remindiId =
        some prior ∧
      (step Sample.externals (runOf Sample.externals Sample.dueRun)
        (.call "owner" Sample.agent (.update Sample.acknowledge)
          (Sample.env 1010 2))).1.db.remindi.find? Sample.acknowledge.remindiId = some after ∧
      FullyAudited Sample.acknowledge prior after event := by
  have halone : DisposesAlone Sample.acknowledge := by
    intro _ field hfield
    simpa [requestFields, Sample.acknowledge, Sample.update] using hfield
  have hcommitted := sample_commits (x := Sample.externals) Sample.dueRun
    (Sample.call (.update Sample.acknowledge) 1010 2) (by decide +kernel)
  obtain ⟨prior, after, event, hprior, hafter, -, -, haudited⟩ :=
    update_audited_iff Sample.externals Sample.dueRun "owner" Sample.agent Sample.acknowledge
      (Sample.env 1010 2) hcommitted
  exact ⟨prior, after, event, hprior, hafter, haudited.mpr halone⟩

theorem sample_fields_missing : ((step Sample.externals (runOf Sample.externals Sample.dueRun)
    (Sample.call (.update Sample.replaceAndAcknowledge) 1010 2)).1.db.events.rows.getLast?).map
      (fun event => (event.details.member? "changed_fields").isNone) = some true := by
  decide +kernel

/-- The disposition that also replaces the trigger is committed, and its event does not
name the trigger. -/
theorem sample_trigger_unnamed :
    Commits (entry (step Sample.externals) (runOf Sample.externals Sample.dueRun)
        (Sample.call (.update Sample.replaceAndAcknowledge) 1010 2)) (Sample.uuid 0) ∧
      ∃ event, (step Sample.externals (runOf Sample.externals Sample.dueRun)
          (Sample.call (.update Sample.replaceAndAcknowledge) 1010 2)).1.db.events.rows.getLast? =
            some event ∧
        ∀ prior after, ¬ FullyAudited Sample.replaceAndAcknowledge prior after event := by
  refine ⟨sample_commits _ _ (by decide +kernel), ?_⟩
  obtain ⟨event, hevent, hnone⟩ := Option.map_eq_some_iff.mp sample_fields_missing
  refine ⟨event, hevent, fun prior after haudited => ?_⟩
  rw [haudited.lists_trigger rfl] at hnone
  cases hnone

end RemindiCore
