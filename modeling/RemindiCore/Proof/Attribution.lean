import RemindiCore.Proof.Steps

/-!
# Attribution

Every event, every piece of evidence and every idempotency record names the actor of the step
that wrote it, also when a check or a poll was read by an earlier step.
-/

namespace RemindiCore

open CivilTime KeyedTable Transaction

variable {K : Actor → Prop} {db db' : Db} {actor : Actor}

/-! ## Rows -/

/-- Whatever the store records of somebody is recorded of one of these actors. -/
structure Attributed (K : Actor → Prop) (db : Db) : Prop where
  events : ∀ row ∈ db.events.rows, ∃ actor, K actor ∧ row.actorType = actor.actorType ∧
    row.actorId = actor.actorId ∧ row.requestId = actor.requestId
  evidence : ∀ row ∈ db.evidence.rows, ∃ actor, K actor ∧ row.recordedBy = actor.actorId
  idempotency : ∀ row ∈ db.idempotency.rows, ∃ actor, K actor ∧ row.actorId = actor.actorId

theorem Attributed.empty : Attributed K .empty where
  events := by
    intro row h
    cases h
  evidence := by
    intro row h
    cases h
  idempotency := by
    intro row h
    cases h

/-- The statements on items and links leave the other tables alone. -/
theorem Attributed.of_same (h : Attributed K db) (hevents : db'.events = db.events)
    (hevidence : db'.evidence = db.evidence) (hidempotency : db'.idempotency = db.idempotency) :
    Attributed K db' := by
  constructor
  · rw [hevents]
    exact h.events
  · rw [hevidence]
    exact h.evidence
  · rw [hidempotency]
    exact h.idempotency

theorem Attributed.insert (h : Attributed K db) {x : Externals} {item : Remindi}
    (hinsert : Repository.insert x item db = .ok db') : Attributed K db' := by
  obtain ⟨t, -, rfl, -⟩ := Repository.insert_ok hinsert
  exact h.of_same rfl rfl rfl

theorem Attributed.updateCas (h : Attributed K db) {x : Externals} {item : Remindi}
    {version : Nat} {updated : Bool}
    (hupdate : Repository.updateCas x item version db = .ok (updated, db')) :
    Attributed K db' := by
  rcases Repository.updateCas_ok hupdate with ⟨-, rfl, -⟩ | ⟨-, old, -, -, -, -, -, rfl⟩
  · exact h
  · exact h.of_same rfl rfl rfl

theorem Attributed.replaceLinks (h : Attributed K db) {item : Remindi} {links : List RemindiLink}
    (hreplace : Repository.replaceLinks item links db = .ok db') : Attributed K db' := by
  obtain ⟨t, rfl, -⟩ := Repository.replaceLinks_ok hreplace
  exact h.of_same rfl rfl rfl

theorem Attributed.appendEvent (h : Attributed K db) {event : RemindiEvent} (hactor : K actor)
    (htype : event.actorType = actor.actorType) (hid : event.actorId = actor.actorId)
    (hrequest : event.requestId = actor.requestId)
    (happend : Repository.appendEvent event db = .ok db') : Attributed K db' := by
  obtain ⟨t, row, hins, rfl, rfl, -⟩ := Repository.appendEvent_ok happend
  refine ⟨fun row hrow => ?_, h.evidence, h.idempotency⟩
  rw [(Table.insert?_eq_some hins).2] at hrow
  rcases List.mem_append.mp hrow with hold | hnew
  · exact h.events row hold
  · obtain rfl := List.mem_singleton.mp hnew
    exact ⟨actor, hactor, htype, hid, hrequest⟩

theorem Attributed.insertEvidence (h : Attributed K db) {x : Externals}
    {evidence : CompletionEvidence}
    (hactor : K actor) (hby : evidence.recordedBy = actor.actorId)
    (hinsert : Repository.insertEvidence x evidence db = .ok db') : Attributed K db' := by
  obtain ⟨t, row, hins, rfl, rfl⟩ := Repository.insertEvidence_ok hinsert
  refine ⟨h.events, fun row hrow => ?_, h.idempotency⟩
  rw [(Table.insert?_eq_some hins).2] at hrow
  rcases List.mem_append.mp hrow with hold | hnew
  · exact h.evidence row hold
  · obtain rfl := List.mem_singleton.mp hnew
    exact ⟨actor, hactor, hby⟩

theorem Attributed.insertIdempotency (h : Attributed K db) {record : IdempotencyRecord}
    (hactor : K actor) (hby : record.actorId = actor.actorId)
    (hinsert : Repository.insertIdempotency record db = .ok db') : Attributed K db' := by
  obtain ⟨t, row, hins, rfl, rfl⟩ := Repository.insertIdempotency_ok hinsert
  refine ⟨h.events, h.evidence, fun row hrow => ?_⟩
  rw [(Table.insert?_eq_some hins).2] at hrow
  rcases List.mem_append.mp hrow with hold | hnew
  · exact h.idempotency row hold
  · obtain rfl := List.mem_singleton.mp hnew
    exact ⟨actor, hactor, hby⟩

/-! ## Transactions -/

section

open Txn

theorem attributed_now : Preserves (Attributed K) Tx.now := Preserves.ask _

theorem attributed_nextId : Preserves (Attributed K) Tx.nextId := Preserves.ask _

theorem attributed_ofExcept {α : Type} (x : Except ServiceError α) :
    Preserves (Attributed K) (Txn.ofExcept x : Tx α) := Preserves.ofExcept x

theorem attributed_database : Preserves (Attributed K) Tx.database := by
  intro env n db u m db' h hdb
  obtain rfl := Tx.database_ok h
  exact hdb

theorem attributed_query {α : Type} (f : Db → Except RepositoryError α) :
    Preserves (Attributed K) (Tx.query f) := by
  intro env n db a m db' h hdb
  obtain ⟨-, rfl⟩ := Tx.query_ok h
  exact hdb

theorem attributed_execute {f : Db → Except RepositoryError Db}
    (hf : ∀ {db db'}, f db = .ok db' → Attributed K db → Attributed K db') :
    Preserves (Attributed K) (Tx.execute f) := by
  intro env n db u m db' h hdb
  exact hf (Tx.execute_ok h) hdb

theorem attributed_updateCas (x : Externals) (item : Remindi) (version : Nat) :
    Preserves (Attributed K) (Tx.statement (Repository.updateCas x item version)) := by
  intro env n db updated m db' h hdb
  exact hdb.updateCas (Tx.statement_ok h)

theorem attributed_findItem (service : RemindiService) (id : Uuid) :
    Preserves (Attributed K) (service.findItem id) := by
  unfold RemindiService.findItem
  apply Preserves.bind (attributed_query _)
  intro found
  cases found with
  | none => exact .throw _
  | some item => exact .pure item

theorem attributed_appendEvent {event : EventAppend} (hactor : K event.actor) :
    Preserves (Attributed K) (appendEvent event) := by
  unfold RemindiCore.appendEvent
  apply Preserves.bind attributed_nextId
  intro eventId
  apply Preserves.bind attributed_now
  intro occurredAt
  apply attributed_execute
  intro db db' happend hdb
  exact hdb.appendEvent hactor rfl rfl rfl happend

theorem attributed_storeIdempotency (hactor : K actor) (toolName key hash : String)
    (response : MutationResult) (now : OffsetDateTime) :
    Preserves (Attributed K) (storeIdempotency actor toolName key hash response now) := by
  unfold RemindiCore.storeIdempotency
  dsimp only
  split
  · exact .throw _
  · apply attributed_execute
    intro db db' hinsert hdb
    exact hdb.insertIdempotency hactor rfl hinsert

theorem attributed_recordEvidence (x : Externals) (hactor : K actor) (item : Remindi)
    (details : JsonText.Json) (now : OffsetDateTime) (evidence : Option ValidatedEvidence) :
    Preserves (Attributed K) (recordEvidence x actor item details now evidence) := by
  cases evidence with
  | none => exact .pure details
  | some evidence =>
    unfold RemindiCore.recordEvidence
    apply Preserves.bind attributed_nextId
    intro id
    cases details with
    | object members =>
      apply Preserves.bind
      · apply attributed_execute
        intro db db' hinsert hdb
        exact hdb.insertEvidence hactor rfl hinsert
      · intro _
        exact .pure _
    | _ => exact .throw _

theorem attributed_links (item : Remindi) (links : Option (List RemindiLink)) :
    Preserves (Attributed K) (RemindiService.replaceLinks item links) := by
  cases links with
  | none => exact .pure ()
  | some links =>
    apply attributed_execute
    intro db db' hreplace hdb
    exact hdb.replaceLinks hreplace

theorem attributed_replay (x : Externals) (toolName key hash : String) :
    Preserves (Attributed K) (replay x actor toolName key hash) := by
  unfold RemindiCore.replay
  apply Preserves.bind (attributed_query _)
  intro record
  cases record with
  | none => exact .pure none
  | some record =>
    dsimp only
    split
    · exact .throw _
    · cases record.response.read x with
      | none => exact .throw _
      | some response => exact .pure _

variable (service : RemindiService)

theorem attributed_mutate {call : MutationCall} (hactor : K call.actor)
    (operation : Remindi → Except ServiceError Mutation) :
    Preserves (Attributed K) (service.mutate call operation) := by
  unfold RemindiService.mutate
  apply Preserves.bind attributed_now
  intro now
  apply Preserves.bind attributed_database
  intro _
  apply Preserves.bind (attributed_replay _ _ _ _)
  intro replayed
  cases replayed with
  | some response =>
    apply Preserves.bind attributed_database
    intro _
    exact .pure response
  | none =>
    unfold RemindiService.mutateItem
    apply Preserves.bind (attributed_findItem service call.id)
    intro item
    split
    · exact .throw _
    · apply Preserves.bind (attributed_ofExcept _)
      intro mutation
      apply Preserves.bind (attributed_updateCas _ _ _)
      intro updated
      split
      · apply Preserves.bind (attributed_findItem service call.id)
        intro current
        exact .throw _
      · apply Preserves.bind (attributed_links _ _)
        intro _
        apply Preserves.bind (attributed_recordEvidence _ hactor _ _ _ _)
        intro details
        apply Preserves.bind (attributed_appendEvent hactor)
        intro _
        apply Preserves.bind (attributed_storeIdempotency hactor _ _ _ _ _)
        intro _
        apply Preserves.bind attributed_database
        intro _
        exact .pure _

theorem attributed_add (hactor : K actor) (request : AddRequest) :
    Preserves (Attributed K) (service.add actor request) := by
  unfold RemindiService.add
  apply Preserves.bind (attributed_ofExcept _)
  intro request
  apply Preserves.bind (attributed_ofExcept _)
  intro hash
  apply Preserves.bind attributed_now
  intro now
  apply Preserves.bind attributed_database
  intro _
  apply Preserves.bind (attributed_replay _ _ _ _)
  intro replayed
  cases replayed with
  | some response =>
    apply Preserves.bind attributed_database
    intro _
    exact .pure response
  | none =>
    unfold RemindiService.addItem
    apply Preserves.bind (attributed_ofExcept _)
    intro nextFireAt
    apply Preserves.bind attributed_nextId
    intro id
    apply Preserves.bind
    · apply attributed_execute
      intro db db' hinsert hdb
      exact hdb.insert hinsert
    intro _
    apply Preserves.bind
    · apply attributed_execute
      intro db db' hreplace hdb
      exact hdb.replaceLinks hreplace
    intro _
    apply Preserves.bind (attributed_appendEvent hactor)
    intro _
    apply Preserves.bind (attributed_storeIdempotency hactor _ _ _ _ _)
    intro _
    apply Preserves.bind attributed_database
    intro _
    exact .pure _

theorem attributed_perform (hactor : K actor) (call : Call) :
    Preserves (Attributed K) (service.perform actor call) := by
  cases call with
  | add request => exact attributed_add service hactor request
  | complete request skew =>
    apply Preserves.bind (attributed_ofExcept _)
    intro request
    apply Preserves.bind (attributed_ofExcept _)
    intro hash
    apply Preserves.bind attributed_now
    intro now
    apply Preserves.bind (attributed_ofExcept _)
    intro evidence
    exact attributed_mutate service hactor _
  | snooze request horizon =>
    apply Preserves.bind (attributed_ofExcept _)
    intro request
    apply Preserves.bind (attributed_ofExcept _)
    intro hash
    apply Preserves.bind attributed_now
    intro now
    apply Preserves.bind (attributed_ofExcept _)
    intro _
    exact attributed_mutate service hactor _
  | cancel request =>
    apply Preserves.bind (attributed_ofExcept _)
    intro request
    apply Preserves.bind (attributed_ofExcept _)
    intro hash
    apply Preserves.bind attributed_now
    intro now
    exact attributed_mutate service hactor _
  | update request =>
    apply Preserves.bind (attributed_ofExcept _)
    intro request
    apply Preserves.bind (attributed_ofExcept _)
    intro hash
    apply Preserves.bind attributed_now
    intro now
    exact attributed_mutate service hactor _

/-! ### Evaluations -/

theorem attributed_appendEvaluated (hactor : K actor) (prior candidate : Remindi)
    (context : CheckContext) (detail : Option String) (events : List EventType) :
    Preserves (Attributed K)
      (RemindiService.appendEvaluated actor prior candidate context detail events) := by
  induction events with
  | nil => exact .pure ()
  | cons eventType rest ih =>
    apply Preserves.bind (attributed_appendEvent hactor)
    intro _
    exact ih

theorem attributed_persistEvaluated (hactor : K actor) (prior candidate : Remindi)
    (readiness : Option Readiness) (events : List EventType) (context : CheckContext)
    (detail : Option String) : Preserves (Attributed K)
      (service.persistEvaluated actor prior candidate readiness events context detail) := by
  unfold RemindiService.persistEvaluated
  apply Preserves.bind (attributed_findItem service candidate.id)
  intro current
  split
  · exact .pure none
  · apply Preserves.bind (attributed_updateCas _ _ _)
    intro updated
    split
    · exact .pure none
    · apply Preserves.bind (attributed_appendEvaluated hactor _ _ _ _ _)
      intro _
      exact .pure _

theorem attributed_persistReady (hactor : K actor) {now : OffsetDateTime} {context : CheckContext}
    (ready : List (ReadyItem now context)) :
    Preserves (Attributed K) (service.persistReady actor ready) := by
  induction ready with
  | nil => exact .pure []
  | cons item rest ih =>
    unfold RemindiService.persistReady
    split
    · apply Preserves.bind ih
      intro items
      exact .pure _
    · apply Preserves.bind (attributed_persistEvaluated service hactor _ _ _ _ _ _)
      intro checked
      apply Preserves.bind ih
      intro items
      exact .pure _

theorem attributed_checkPersist {pending : RemindiService.PendingCheck} (hactor : K pending.actor) :
    Preserves (Attributed K) (RemindiService.checkPersist pending) := by
  unfold RemindiService.checkPersist
  apply Preserves.bind attributed_database
  intro _
  apply Preserves.bind (attributed_persistReady _ hactor _)
  intro items
  apply Preserves.bind attributed_database
  intro _
  exact .pure _

theorem attributed_apply (hactor : K actor) (candidate : Remindi) (now : OffsetDateTime)
    (adapters : RemindiService.AdapterProvider) : Preserves (Attributed K)
      (service.applySchedulerEvaluation actor candidate now adapters) := by
  unfold RemindiService.applySchedulerEvaluation
  apply Preserves.bind
  · unfold RemindiService.evaluateOne
    apply Preserves.bind (attributed_ofExcept _)
    rintro ⟨evaluated, result⟩
    dsimp only
    split
    · exact .pure _
    · apply Preserves.bind attributed_database
      intro _
      apply Preserves.bind (attributed_persistEvaluated service hactor _ _ _ _ _ _)
      intro checked
      apply Preserves.bind attributed_database
      intro _
      exact .pure _
  · intro _
    exact .pure ()

end

/-! ## Runs -/

/-- The actor that a step brings along; the later steps of a check or a poll bring none. -/
def Label.broughtBy : Label → Option Actor
  | .call _ actor _ _ | .checkRead _ actor _ _ | .pollRead _ actor _ _ => some actor
  | .checkPersist _ _ | .pollApply _ _ _ => none

theorem checkRead_actor {service : RemindiService} {request : CheckRequest} {env : Env} {n m : Nat}
    {pending : RemindiService.PendingCheck}
    (h : service.checkRead actor request env n db = .ok (pending, m, db')) :
    pending.actor = actor := by
  unfold RemindiService.checkRead at h
  repeat' (obtain ⟨_, _, _, -, h⟩ := Txn.bind_ok.mp h)
  obtain ⟨rfl, -, -⟩ := Txn.pure_ok.mp h
  rfl

/-- The store and the work in flight know no other actors. -/
structure Responsible (K : Actor → Prop) (s : System) : Prop where
  attributed : Attributed K s.db
  checks : ∀ pending ∈ s.checks, K pending.actor
  polls : ∀ poll ∈ s.polls, K poll.actor

theorem Responsible.start : Responsible K .start where
  attributed := .empty
  checks := by
    intro pending h
    cases h
  polls := by
    intro poll h
    cases h

/-- **One step.** -/
theorem Responsible.step {x : Externals} {s : System} (hs : Responsible K s) {label : Label}
    (hlabel : ∀ actor, label.broughtBy = some actor → K actor) :
    Responsible K (RemindiCore.step x s label).1 := by
  cases label with
  | call ownerId actor call env =>
    have hdb : Attributed K (RemindiCore.step x s (.call ownerId actor call env)).1.db :=
      (attributed_perform _ (hlabel actor rfl) call).run hs.attributed
    exact ⟨hdb, hs.checks, hs.polls⟩
  | checkPersist index env =>
    cases hpending : s.checks[index]? with
    | none =>
      rw [step_checkPersist_none hpending]
      exact hs
    | some pending =>
      rw [step_checkPersist_some hpending]
      have hactor := hs.checks pending (List.mem_of_getElem? hpending)
      refine ⟨(attributed_checkPersist hactor).run hs.attributed, fun other h => ?_, hs.polls⟩
      exact hs.checks other (List.mem_of_mem_eraseIdx h)
  | pollApply index adapters env =>
    cases hpoll : s.polls[index]? with
    | none =>
      rw [step_pollApply_none hpoll]
      exact hs
    | some poll =>
      have hactor := hs.polls poll (List.mem_of_getElem? hpoll)
      cases hcandidates : poll.candidates with
      | nil =>
        rw [step_pollApply_nil hpoll hcandidates]
        exact ⟨hs.attributed, hs.checks, fun other h => hs.polls other (List.mem_of_mem_eraseIdx h)⟩
      | cons prior rest =>
        rw [step_pollApply_cons hpoll hcandidates]
        refine ⟨(attributed_apply _ hactor _ _ _).run hs.attributed, hs.checks, fun other h => ?_⟩
        rcases List.mem_or_eq_of_mem_set h with h | rfl
        · exact hs.polls other h
        · exact hactor
  | checkRead ownerId actor request env =>
    unfold RemindiCore.step
    dsimp only
    split
    · exact hs
    · next pending db' hrun =>
      split
      · exact hs
      · refine ⟨hs.attributed, fun other h => ?_, hs.polls⟩
        rcases List.mem_append.mp h with h | h
        · exact hs.checks other h
        · obtain rfl := List.mem_singleton.mp h
          obtain ⟨m, hok⟩ := Txn.run_ok.mp hrun
          have hactor : other.actor = actor := checkRead_actor hok
          rw [hactor]
          exact hlabel actor rfl
  | pollRead ownerId actor limit env =>
    unfold RemindiCore.step
    dsimp only
    split
    · exact hs
    · refine ⟨hs.attributed, hs.checks, fun other h => ?_⟩
      rcases List.mem_append.mp h with h | h
      · exact hs.polls other h
      · obtain rfl := List.mem_singleton.mp h
        exact hlabel actor rfl

/-- **Nobody else is recorded.** -/
theorem attributed_runOf {x : Externals} {labels : List Label}
    (h : ∀ label ∈ labels, ∀ actor, label.broughtBy = some actor → K actor) :
    Attributed K (runOf x labels).db := by
  suffices hall : ∀ s, Responsible K s →
      Responsible K (Machine.final (RemindiCore.step x) s labels) from
    (hall .start .start).attributed
  induction labels with
  | nil =>
    intro s hs
    exact hs
  | cons label rest ih =>
    obtain ⟨hlabel, hrest⟩ := List.forall_mem_cons.mp h
    intro s hs
    exact ih hrest _ (hs.step hlabel)

end RemindiCore
