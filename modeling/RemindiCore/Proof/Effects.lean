import RemindiCore.Proof.Statements
import RemindiCore.Proof.Closures

/-!
# What a committed call has done

Success lemmas for the transactions of `Service/Service.lean` and
`Service/Operations.lean`.  A call that succeeds has either returned a stored
response and left the store alone, or executed once: `Added` and `Mutated` list
everything that changed.
-/

namespace RemindiCore

open CivilTime JsonText KeyedTable Transaction

variable {env : Env} {n m : Nat} {db db' : Db}

/-! ## Calls on the surroundings -/

namespace Tx

theorem now_ok {t : OffsetDateTime} (h : Tx.now env n db = .ok (t, m, db')) :
    t = env.clock n ∧ db = db' := by
  obtain ⟨h1, -, h2⟩ := Txn.ask_ok.mp h
  exact ⟨h1.symm, h2⟩

theorem nextId_ok {id : Uuid} (h : Tx.nextId env n db = .ok (id, m, db')) : db = db' :=
  (Txn.ask_ok.mp h).2.2

theorem database_ok {u : Unit} (h : Tx.database env n db = .ok (u, m, db')) : db = db' := by
  have := (Txn.call_ok.mp h).2.1
  exact (Prod.mk.inj (Except.ok.inj this)).2

theorem statement_ok {α : Type} {f : Db → Except RepositoryError (α × Db)} {a : α}
    (h : statement f env n db = .ok (a, m, db')) : f db = .ok (a, db') :=
  except_mapError_ok.mp (Txn.call_ok.mp h).2.1

theorem query_ok {α : Type} {f : Db → Except RepositoryError α} {a : α}
    (h : query f env n db = .ok (a, m, db')) : f db = .ok a ∧ db = db' := by
  obtain ⟨b, hb, e⟩ := except_map_ok.mp (statement_ok h)
  cases e
  exact ⟨hb, rfl⟩

theorem execute_ok {f : Db → Except RepositoryError Db} {u : Unit}
    (h : execute f env n db = .ok (u, m, db')) : f db = .ok db' := by
  obtain ⟨b, hb, e⟩ := except_map_ok.mp (statement_ok h)
  cases e
  exact hb

end Tx

/-! ## Events and records -/

/-- The row an event becomes. -/
structure EventRow (event : EventAppend) (db : Db) (row : RemindiEvent) : Prop where
  remindiId : row.remindiId = event.item.id
  eventType : row.eventType = event.eventType
  priorVersion : row.priorVersion = event.priorVersion
  newVersion : row.newVersion = event.newVersion
  sequence : row.sequence = Repository.nextSequence db
  details : row.details = event.details

theorem appendEvent_ok {event : EventAppend} {u : Unit}
    (h : appendEvent event env n db = .ok (u, m, db')) :
    ∃ t row, db' = { db with events := t } ∧ t.rows = db.events.rows ++ [row] ∧
      EventRow event db row ∧ (db.remindi.find? event.item.id).isSome = true := by
  unfold appendEvent at h
  obtain ⟨id, _, _, hid, h⟩ := Txn.bind_ok.mp h
  obtain ⟨time, _, _, htime, h⟩ := Txn.bind_ok.mp h
  obtain rfl := Tx.nextId_ok hid
  obtain ⟨-, rfl⟩ := Tx.now_ok htime
  obtain ⟨t, row, hins, rfl, rfl, href⟩ := Repository.appendEvent_ok (Tx.execute_ok h)
  exact ⟨t, _, rfl, (Table.insert?_eq_some hins).2, ⟨rfl, rfl, rfl, rfl, rfl, rfl⟩, href⟩

/-- What `replay` found. -/
theorem replay_ok {x : Externals} {actor : Actor} {toolName key hash : String}
    {found : Option MutationResult}
    (h : replay x actor toolName key hash env n db = .ok (found, m, db')) :
    db = db' ∧
      (found = none → db.idempotency.find? (actor.actorId, toolName, key) = none) ∧
      ∀ response, found = some response →
        ∃ record, db.idempotency.find? (actor.actorId, toolName, key) = some record ∧
          record.requestHash = hash ∧ record.response.read x = some response := by
  unfold replay at h
  obtain ⟨record, _, _, hq, h⟩ := Txn.bind_ok.mp h
  obtain ⟨hfind, rfl⟩ := Tx.query_ok hq
  have hfind := Except.ok.inj hfind
  cases record with
  | none =>
    obtain ⟨rfl, -, rfl⟩ := Txn.pure_ok.mp h
    exact ⟨rfl, fun _ => hfind, by simp⟩
  | some record =>
    simp only at h
    split at h
    · exact absurd h Txn.throw_ok
    · next hhash =>
      cases hread : record.response.read x with
      | none =>
        rw [hread] at h
        exact absurd h Txn.throw_ok
      | some response =>
        rw [hread] at h
        obtain ⟨rfl, -, rfl⟩ := Txn.pure_ok.mp h
        refine ⟨rfl, (by simp), fun response' e => ?_⟩
        cases e
        exact ⟨record, hfind, Decidable.not_not.mp hhash, hread⟩

/-- The record a call leaves behind. -/
structure RecordRow (actor : Actor) (toolName key hash : String) (result : MutationResult)
    (record : IdempotencyRecord) : Prop where
  primaryKey : record.primaryKey = (actor.actorId, toolName, key)
  requestHash : record.requestHash = hash
  response : record.response = result
  remindiId : record.remindiId = result.remindi.id

theorem storeIdempotency_ok {actor : Actor} {toolName key hash : String}
    {response : MutationResult} {now : OffsetDateTime} {u : Unit}
    (h : storeIdempotency actor toolName key hash response now env n db = .ok (u, m, db')) :
    ∃ t record, db' = { db with idempotency := t } ∧ db.idempotency.insert? record = some t ∧
      RecordRow actor toolName key hash response record := by
  unfold storeIdempotency at h
  split at h
  · exact absurd h Txn.throw_ok
  · obtain ⟨t, row, hins, rfl, rfl⟩ := Repository.insertIdempotency_ok (Tx.execute_ok h)
    exact ⟨t, _, rfl, hins, ⟨rfl, rfl, rfl, rfl⟩⟩

/-! ## Parts of `mutate` -/

theorem findItem_ok {service : RemindiService} {id : Uuid} {item : Remindi}
    (h : service.findItem id env n db = .ok (item, m, db')) :
    db = db' ∧ db.remindi.find? id = some item ∧ item.ownerId = service.ownerId := by
  unfold RemindiService.findItem at h
  obtain ⟨found, _, _, hq, h⟩ := Txn.bind_ok.mp h
  obtain ⟨hfind, rfl⟩ := Tx.query_ok hq
  cases found with
  | none => exact absurd h Txn.throw_ok
  | some found =>
    obtain ⟨rfl, -, rfl⟩ := Txn.pure_ok.mp h
    exact ⟨rfl, Repository.find_ok hfind⟩

/-- What an item is linked to after its links were replaced. -/
def relinked (before : List (LinkType × String)) (links : Option (List RemindiLink)) :
    List (LinkType × String) :=
  match links with
  | none => before
  | some links => links.map RemindiLink.content

theorem replaceLinks_ok {item : Remindi} {links : Option (List RemindiLink)} {u : Unit}
    (h : RemindiService.replaceLinks item links env n db = .ok (u, m, db')) :
    ∃ t, db' = { db with links := t } ∧
      (∀ k, k ≠ item.id → t.rows.filter (fun row => row.remindiId = k) =
        db.links.rows.filter (fun row => row.remindiId = k)) ∧
      (db'.view item.id).linked = relinked (db.view item.id).linked links := by
  cases links with
  | none =>
    obtain ⟨-, -, rfl⟩ := Txn.pure_ok.mp h
    exact ⟨db.links, rfl, fun _ _ => rfl, rfl⟩
  | some links =>
    obtain ⟨t, rfl, hother, hown⟩ := Repository.replaceLinks_ok (Tx.execute_ok h)
    exact ⟨t, rfl, hother, hown⟩

/-- The details of an event, with the identifier of the evidence if there is one. -/
def NotedIn (details details' : Json) : Prop :=
  details' = details ∨ ∃ evidenceId members, details = .object members ∧
    details' = .object (Json.insertMember "evidence_id" evidenceId members)

/-- At most one evidence row is added, exactly when there is evidence. -/
theorem recordEvidence_ok {x : Externals} {actor : Actor} {item : Remindi} {details details' : Json}
    {now : OffsetDateTime} {evidence : Option ValidatedEvidence}
    (h : recordEvidence x actor item details now evidence env n db = .ok (details', m, db')) :
    ∃ t new, db' = { db with evidence := t } ∧ t.rows = db.evidence.rows ++ new ∧
      new.length = evidence.toList.length ∧ (∀ row ∈ new, row.remindiId = item.id) ∧
      NotedIn details details' := by
  cases evidence with
  | none =>
    obtain ⟨rfl, -, rfl⟩ := Txn.pure_ok.mp h
    exact ⟨db.evidence, [], rfl, (List.append_nil _).symm, rfl, by simp, Or.inl rfl⟩
  | some evidence =>
    cases details with
    | object members =>
      obtain ⟨id, _, _, hid, h⟩ := Txn.bind_ok.mp h
      obtain rfl := Tx.nextId_ok hid
      obtain ⟨_, _, _, hins, h⟩ := Txn.bind_ok.mp h
      obtain ⟨rfl, -, rfl⟩ := Txn.pure_ok.mp h
      obtain ⟨t, row, hrow, rfl, rfl⟩ := Repository.insertEvidence_ok (Tx.execute_ok hins)
      refine ⟨t, [_], rfl, (Table.insert?_eq_some hrow).2, rfl, ?_, Or.inr ⟨_, _, rfl, rfl⟩⟩
      intro row hmem
      obtain rfl := List.mem_singleton.mp hmem
      rfl
    | _ =>
      obtain ⟨_, _, _, -, h⟩ := Txn.bind_ok.mp h
      exact absurd h Txn.throw_ok

/-! ## `mutate` -/

/-- Everything an executed mutation has changed. -/
structure Mutated (service : RemindiService) (call : MutationCall) (db db' : Db) (prior : Remindi)
    (mutation : Mutation) : Prop where
  found : db.remindi.find? prior.id = some prior
  id : prior.id = call.id
  ownerId : prior.ownerId = service.ownerId
  version : prior.version = call.expectedVersion
  bound : mutation.item.bindUpdate = .ok ()
  checks : remindiChecks (mutation.item.writtenOver service.externals prior) = true
  remindi : db'.remindi =
    db.remindi.replace (mutation.item.writtenOver service.externals prior)
  links : ∀ k, k ≠ prior.id → db'.links.rows.filter (fun row => row.remindiId = k) =
    db.links.rows.filter (fun row => row.remindiId = k)
  linked : (db'.view prior.id).linked =
    relinked (db.view prior.id).linked mutation.replacementLinks
  event : ∃ row, db'.events.rows = db.events.rows ++ [row] ∧ row.remindiId = prior.id ∧
    row.eventType = mutation.eventType ∧ row.priorVersion = some prior.version ∧
    row.newVersion = some mutation.item.version ∧ row.sequence = Repository.nextSequence db ∧
    NotedIn mutation.details row.details
  evidence : ∃ new, db'.evidence.rows = db.evidence.rows ++ new ∧
    new.length = mutation.evidence.toList.length ∧ ∀ row ∈ new, row.remindiId = prior.id
  record : ∃ record, db.idempotency.insert? record = some db'.idempotency ∧
    RecordRow call.actor call.toolName call.idempotencyKey call.requestHash
      { remindi := mutation.item } record

/-- The closure keeps the identity of the item. -/
def KeepsItem (operation : Remindi → Except ServiceError Mutation) : Prop :=
  ∀ item mutation, operation item = .ok mutation →
    mutation.item.id = item.id ∧ mutation.item.ownerId = item.ownerId

theorem mutateItem_ok {service : RemindiService} {call : MutationCall} {now : OffsetDateTime}
    {operation : Remindi → Except ServiceError Mutation} (hkeep : KeepsItem operation)
    {response : MutationResult}
    (h : service.mutateItem call now operation env n db = .ok (response, m, db')) :
    ∃ prior mutation, operation prior = .ok mutation ∧ response = { remindi := mutation.item } ∧
      Mutated service call db db' prior mutation := by
  unfold RemindiService.mutateItem at h
  obtain ⟨prior, _, _, hfind, h⟩ := Txn.bind_ok.mp h
  obtain ⟨rfl, hrow, howner⟩ := findItem_ok hfind
  split at h
  · exact absurd h Txn.throw_ok
  next hversion =>
  obtain ⟨mutation, _, _, hrun, h⟩ := Txn.bind_ok.mp h
  obtain ⟨hop, -, rfl⟩ := Txn.ofExcept_ok.mp hrun
  obtain ⟨hid, -⟩ := hkeep prior mutation hop
  obtain ⟨updated, _, _, hcas, h⟩ := Txn.bind_ok.mp h
  rcases Repository.updateCas_ok (Tx.statement_ok hcas) with
    ⟨rfl, rfl, -⟩ | ⟨rfl, old, hold, -, -, hbound, hchecks, rfl⟩
  · obtain ⟨_, _, _, -, h⟩ := Txn.bind_ok.mp h
    exact absurd h Txn.throw_ok
  have hprior : prior.id = call.id := Table.key_of_find? hrow
  rw [hid, hprior, hrow] at hold
  cases hold
  obtain ⟨_, _, _, hreplace, h⟩ := Txn.bind_ok.mp h
  obtain ⟨links, rfl, hlinks, hlinked⟩ := replaceLinks_ok hreplace
  obtain ⟨details, _, _, hev, h⟩ := Txn.bind_ok.mp h
  obtain ⟨evidence, new, rfl, hrows, hlen, hnew, hnoted⟩ := recordEvidence_ok hev
  obtain ⟨_, _, _, happ, h⟩ := Txn.bind_ok.mp h
  obtain ⟨events, row, rfl, hevents, hrow', -⟩ := appendEvent_ok happ
  obtain ⟨_, _, _, hstore, h⟩ := Txn.bind_ok.mp h
  obtain ⟨records, record, rfl, hins, hrecord⟩ := storeIdempotency_ok hstore
  obtain ⟨_, _, _, hcommit, h⟩ := Txn.bind_ok.mp h
  obtain rfl := Tx.database_ok hcommit
  obtain ⟨rfl, -, rfl⟩ := Txn.pure_ok.mp h
  refine ⟨prior, mutation, hop, rfl, ?_⟩
  exact
    { found := by rw [hprior]; exact hrow
      id := hprior
      ownerId := howner
      version := Decidable.not_not.mp hversion
      bound := hbound
      checks := hchecks
      remindi := rfl
      links := fun k hk => hlinks k (by rw [hid]; exact hk)
      linked := hid ▸ hlinked
      event := ⟨row, hevents, hrow'.remindiId.trans hid, hrow'.eventType, hrow'.priorVersion,
        hrow'.newVersion, hrow'.sequence, hrow'.details ▸ hnoted⟩
      evidence := ⟨new, hrows, hlen, fun e he => (hnew e he).trans hid⟩
      record := ⟨record, hins, hrecord⟩ }

/-- An earlier call answered this one: its response is read again. -/
structure Replayed (x : Externals) (db db' : Db) (actor : Actor) (toolName key hash : String)
    (response : MutationResult) : Prop where
  unchanged : db = db'
  record : ∃ record, db.idempotency.find? (actor.actorId, toolName, key) = some record ∧
    record.requestHash = hash ∧ record.response.read x = some response

theorem mutate_ok {service : RemindiService} {call : MutationCall}
    {operation : Remindi → Except ServiceError Mutation} (hkeep : KeepsItem operation)
    {response : MutationResult}
    (h : service.mutate call operation env n db = .ok (response, m, db')) :
    Replayed service.externals db db' call.actor call.toolName call.idempotencyKey
        call.requestHash response ∨
      ∃ prior mutation, operation prior = .ok mutation ∧ response = { remindi := mutation.item } ∧
        Mutated service call db db' prior mutation := by
  unfold RemindiService.mutate at h
  obtain ⟨_, _, _, hnow, h⟩ := Txn.bind_ok.mp h
  obtain ⟨-, rfl⟩ := Tx.now_ok hnow
  obtain ⟨_, _, _, hbegin, h⟩ := Txn.bind_ok.mp h
  obtain rfl := Tx.database_ok hbegin
  obtain ⟨replayed, _, _, hreplay, h⟩ := Txn.bind_ok.mp h
  obtain ⟨rfl, -, hfound⟩ := replay_ok hreplay
  cases replayed with
  | none => exact Or.inr (mutateItem_ok hkeep h)
  | some response' =>
    obtain ⟨_, _, _, hroll, h⟩ := Txn.bind_ok.mp h
    obtain rfl := Tx.database_ok hroll
    obtain ⟨rfl, -, rfl⟩ := Txn.pure_ok.mp h
    exact Or.inl ⟨rfl, hfound _ rfl⟩

/-! ## `add` -/

/-- Everything an executed `add` has changed. -/
structure Added (service : RemindiService) (actor : Actor) (request : AddRequest) (hash : String)
    (db db' : Db) (item : Remindi) : Prop where
  built : ∃ id nextFireAt now, initialNextFireAt request.trigger now = .ok nextFireAt ∧
    item = RemindiService.newItem service.ownerId id request nextFireAt now
  bound : item.bindUpdate = .ok ()
  checks : remindiChecks (item.stored service.externals) = true
  remindi : db.remindi.insert? (item.stored service.externals) = some db'.remindi
  links : ∀ k, k ≠ item.id → db'.links.rows.filter (fun row => row.remindiId = k) =
    db.links.rows.filter (fun row => row.remindiId = k)
  linked : (db'.view item.id).linked = request.links.map fun link => (link.linkType, link.value)
  event : ∃ row, db'.events.rows = db.events.rows ++ [row] ∧ row.remindiId = item.id ∧
    row.eventType = .created ∧ row.priorVersion = none ∧ row.newVersion = some 1 ∧
    row.sequence = Repository.nextSequence db ∧
    row.details = .ofMap [("trigger_type", .string item.trigger.name),
      ("project_id", .string item.projectId), ("task_id", optionText item.taskId)]
  evidence : db'.evidence = db.evidence
  record : ∃ record, db.idempotency.insert? record = some db'.idempotency ∧
    RecordRow actor "remindi_add" request.idempotencyKey hash { remindi := item } record

theorem addItem_ok {service : RemindiService} {actor : Actor} {request : AddRequest}
    {hash : String} {now : OffsetDateTime} {response : MutationResult}
    (h : service.addItem actor request hash now env n db = .ok (response, m, db')) :
    Added service actor request hash db db' response.remindi := by
  unfold RemindiService.addItem at h
  obtain ⟨nextFireAt, _, _, hrun, h⟩ := Txn.bind_ok.mp h
  obtain ⟨hnext, -, rfl⟩ := Txn.ofExcept_ok.mp hrun
  obtain ⟨id, _, _, hid, h⟩ := Txn.bind_ok.mp h
  obtain rfl := Tx.nextId_ok hid
  obtain ⟨_, _, _, hins, h⟩ := Txn.bind_ok.mp h
  obtain ⟨rows, hrows, rfl, hbound, hchecks⟩ := Repository.insert_ok (Tx.execute_ok hins)
  obtain ⟨_, _, _, hreplace, h⟩ := Txn.bind_ok.mp h
  obtain ⟨links, rfl, hlinks, hlinked⟩ := Repository.replaceLinks_ok (Tx.execute_ok hreplace)
  obtain ⟨_, _, _, happ, h⟩ := Txn.bind_ok.mp h
  obtain ⟨events, row, rfl, hevents, hrow, -⟩ := appendEvent_ok happ
  obtain ⟨_, _, _, hstore, h⟩ := Txn.bind_ok.mp h
  obtain ⟨records, record, rfl, hrec, hrecord⟩ := storeIdempotency_ok hstore
  obtain ⟨_, _, _, hcommit, h⟩ := Txn.bind_ok.mp h
  obtain rfl := Tx.database_ok hcommit
  obtain ⟨rfl, -, rfl⟩ := Txn.pure_ok.mp h
  exact
    { built := ⟨id, nextFireAt, now, hnext, rfl⟩
      bound := hbound
      checks := hchecks
      remindi := hrows
      links := hlinks
      linked := by
        refine hlinked.trans ?_
        unfold RemindiCore.links
        rw [List.map_map]
        rfl
      event := ⟨row, hevents, hrow.remindiId, hrow.eventType, hrow.priorVersion, hrow.newVersion,
        hrow.sequence, hrow.details⟩
      evidence := rfl
      record := ⟨record, hrec, hrecord⟩ }

/-! ## Prepared requests -/

section

variable {actor : Actor}

theorem prepareAdd_ok {raw request : AddRequest} (h : prepareAdd actor raw = .ok request) :
    request.idempotencyKey = raw.idempotencyKey ∧
      request.trigger = normalizeTrigger raw.trigger ∧
      request.recurrence = raw.recurrence.map normalizeRecurrence ∧
      request.trigger.validate = .ok () ∧
      ∀ spec, request.recurrence = some spec → spec.validateForTrigger request.trigger = .ok () := by
  unfold prepareAdd at h
  obtain ⟨_, -, h⟩ := except_bind_ok.mp h
  obtain ⟨_, -, h⟩ := except_bind_ok.mp h
  obtain ⟨_, -, h⟩ := except_bind_ok.mp h
  obtain ⟨_, -, h⟩ := except_bind_ok.mp h
  obtain ⟨_, -, h⟩ := except_bind_ok.mp h
  obtain ⟨_, -, h⟩ := except_bind_ok.mp h
  obtain ⟨_, -, h⟩ := except_bind_ok.mp h
  obtain ⟨_, -, h⟩ := except_bind_ok.mp h
  obtain ⟨_, htrigger, h⟩ := except_bind_ok.mp h
  obtain ⟨_, hrecurrence, h⟩ := except_bind_ok.mp h
  obtain ⟨_, -, h⟩ := except_bind_ok.mp h
  obtain ⟨_, -, h⟩ := except_bind_ok.mp h
  obtain ⟨_, -, h⟩ := except_bind_ok.mp h
  cases h
  refine ⟨rfl, rfl, rfl, domain_ok.mp htrigger, fun spec hspec => ?_⟩
  rw [show raw.recurrence.map normalizeRecurrence = some spec from hspec] at hrecurrence
  exact domain_ok.mp hrecurrence

theorem prepareComplete_ok {raw request : CompleteRequest}
    (h : prepareComplete actor raw = .ok request) :
    request.idempotencyKey = raw.idempotencyKey ∧ request.remindiId = raw.remindiId ∧
      request.expectedVersion = raw.expectedVersion ∧ request.evidence = raw.evidence := by
  unfold prepareComplete at h
  simp only [except_bind_ok] at h
  obtain ⟨_, -, _, -, _, -, _, -, h⟩ := h
  cases h
  exact ⟨rfl, rfl, rfl, rfl⟩

theorem prepareSnooze_ok {raw request : SnoozeRequest}
    (h : prepareSnooze actor raw = .ok request) :
    request.idempotencyKey = raw.idempotencyKey ∧ request.remindiId = raw.remindiId ∧
      request.expectedVersion = raw.expectedVersion ∧
      request.snoozeUntil = raw.snoozeUntil.truncateMillis := by
  unfold prepareSnooze at h
  simp only [except_bind_ok] at h
  obtain ⟨_, -, _, -, _, -, _, -, h⟩ := h
  cases h
  exact ⟨rfl, rfl, rfl, rfl⟩

theorem prepareCancel_ok {raw request : CancelRequest}
    (h : prepareCancel actor raw = .ok request) :
    request.idempotencyKey = raw.idempotencyKey ∧ request.remindiId = raw.remindiId ∧
      request.expectedVersion = raw.expectedVersion := by
  unfold prepareCancel at h
  simp only [except_bind_ok] at h
  obtain ⟨_, -, _, -, _, -, _, -, h⟩ := h
  cases h
  exact ⟨rfl, rfl, rfl⟩

/-- A prepared update: the same call, with its trigger and recurrence cut off to milliseconds. -/
theorem prepareUpdate_ok {raw request : UpdateRequest}
    (h : prepareUpdate actor raw = .ok request) :
    request.idempotencyKey = raw.idempotencyKey ∧ request.remindiId = raw.remindiId ∧
      request.expectedVersion = raw.expectedVersion ∧
      request.trigger = raw.trigger.map normalizeTrigger ∧
      request.recurrence = raw.recurrence.map (fun r => r.map normalizeRecurrence) ∧
      request.occurrenceDisposition = raw.occurrenceDisposition := by
  unfold prepareUpdate at h
  simp only [except_bind_ok] at h
  obtain ⟨_, -, _, -, _, -, _, -, _, -, _, -, _, -, _, -, _, -, _, -, _, -, h⟩ := h
  cases h
  exact ⟨rfl, rfl, rfl, rfl, rfl, rfl⟩

end

/-! ## Calls -/

/-- The hash under which a call is recorded. -/
def Call.hash (x : Externals) (actor : Actor) : Call → Except ServiceError String
  | .add raw => do requestHash x.sha256 (← prepareAdd actor raw).toJson
  | .complete raw _ => do requestHash x.sha256 (← prepareComplete actor raw).toJson
  | .snooze raw _ => do requestHash x.sha256 (← prepareSnooze actor raw).toJson
  | .cancel raw => do requestHash x.sha256 (← prepareCancel actor raw).toJson
  | .update raw => do requestHash x.sha256 (← prepareUpdate actor raw).toJson

/-- What the closure of a call makes of an item at `now`. -/
inductive Operates (actor : Actor) (now : OffsetDateTime) (prior : Remindi) :
    Call → Mutation → Prop
  | complete {raw request : CompleteRequest} {skew : Nat} {evidence : ValidatedEvidence}
      {mutation : Mutation} (prepared : prepareComplete actor raw = .ok request)
      (validated : request.evidence.validate now skew = .ok evidence)
      (ok : completeItem request evidence now prior = .ok mutation) :
      Operates actor now prior (.complete raw skew) mutation
  | snooze {raw request : SnoozeRequest} {horizon : Nat} {mutation : Mutation}
      (prepared : prepareSnooze actor raw = .ok request)
      (ok : snoozeItem request now prior = .ok mutation) :
      Operates actor now prior (.snooze raw horizon) mutation
  | cancel {raw request : CancelRequest} {mutation : Mutation}
      (prepared : prepareCancel actor raw = .ok request)
      (ok : cancelItem request now prior = .ok mutation) :
      Operates actor now prior (.cancel raw) mutation
  | update {raw request : UpdateRequest} {mutation : Mutation}
      (prepared : prepareUpdate actor raw = .ok request)
      (ok : updateItem request now prior = .ok mutation) :
      Operates actor now prior (.update raw) mutation

theorem Operates.sameItem {actor : Actor} {now : OffsetDateTime} {prior : Remindi} {call : Call}
    {mutation : Mutation} (h : Operates actor now prior call mutation) :
    SameItem mutation.item prior := by
  cases h with
  | complete prepared validated ok => exact (completeItem_sameSchedule ok).toSameItem
  | snooze prepared ok => exact (snoozeItem_sameSchedule ok).toSameItem
  | cancel prepared ok => exact (cancelItem_sameSchedule ok).toSameItem
  | update prepared ok => exact updateItem_sameItem ok

/-- The shared fields of a call as `mutate` gets them. -/
def Call.mutationCall (call : Call) (actor : Actor) (id : Uuid) (expectedVersion : Nat)
    (hash : String) : MutationCall :=
  { actor := actor
    toolName := call.toolName
    id := id
    expectedVersion := expectedVersion
    idempotencyKey := call.idempotencyKey
    requestHash := hash }

/-- The call has executed: a new item, or one mutation of a stored one. -/
inductive Executed (service : RemindiService) (actor : Actor) (hash : String) (db db' : Db)
    (env : Env) : Call → MutationResult → Prop
  | added {raw request : AddRequest} {response : MutationResult}
      (prepared : prepareAdd actor raw = .ok request)
      (added : Added service actor request hash db db' response.remindi) :
      Executed service actor hash db db' env (.add raw) response
  | mutated {call : Call} {id : Uuid} {version : Nat} {prior : Remindi} {mutation : Mutation}
      (target : call.target = some (id, version))
      (operates : Operates actor (env.clock 0) prior call mutation)
      (mutated : Mutated service (call.mutationCall actor id version hash) db db' prior mutation) :
      Executed service actor hash db db' env call { remindi := mutation.item }

/-- The call was replayed or has executed once. -/
def Performed (service : RemindiService) (actor : Actor) (call : Call) (env : Env) (db db' : Db)
    (response : MutationResult) : Prop :=
  ∃ hash, call.hash service.externals actor = .ok hash ∧
    (Replayed service.externals db db' actor call.toolName call.idempotencyKey hash response ∨
      Executed service actor hash db db' env call response)

section

variable {service : RemindiService} {actor : Actor} {response : MutationResult}

theorem add_ok {raw : AddRequest}
    (h : service.add actor raw env 0 db = .ok (response, m, db')) :
    Performed service actor (.add raw) env db db' response := by
  unfold RemindiService.add at h
  obtain ⟨request, _, _, hrun, h⟩ := Txn.bind_ok.mp h
  obtain ⟨hprep, -, rfl⟩ := Txn.ofExcept_ok.mp hrun
  obtain ⟨hash, _, _, hrun, h⟩ := Txn.bind_ok.mp h
  obtain ⟨hhash, -, rfl⟩ := Txn.ofExcept_ok.mp hrun
  obtain ⟨_, _, _, hnow, h⟩ := Txn.bind_ok.mp h
  obtain ⟨-, rfl⟩ := Tx.now_ok hnow
  obtain ⟨_, _, _, hbegin, h⟩ := Txn.bind_ok.mp h
  obtain rfl := Tx.database_ok hbegin
  obtain ⟨replayed, _, _, hreplay, h⟩ := Txn.bind_ok.mp h
  obtain ⟨rfl, -, hfound⟩ := replay_ok hreplay
  refine ⟨hash, except_bind_ok.mpr ⟨request, hprep, hhash⟩, ?_⟩
  cases replayed with
  | none => exact Or.inr (.added hprep (addItem_ok h))
  | some response' =>
    obtain ⟨_, _, _, hroll, h⟩ := Txn.bind_ok.mp h
    obtain rfl := Tx.database_ok hroll
    obtain ⟨rfl, -, rfl⟩ := Txn.pure_ok.mp h
    rw [(prepareAdd_ok hprep).1] at hfound
    exact Or.inl ⟨rfl, hfound _ rfl⟩

/-- The end of the four mutations: `mutate` with a closure that does what the call asks for. -/
theorem mutate_performed {call : Call} {id : Uuid} {version : Nat} {hash : String} {k : Nat}
    {operation : Remindi → Except ServiceError Mutation}
    (target : call.target = some (id, version))
    (hhash : call.hash service.externals actor = .ok hash)
    (hop : ∀ prior mutation, operation prior = .ok mutation →
      Operates actor (env.clock 0) prior call mutation)
    (h : service.mutate (call.mutationCall actor id version hash) operation env k db =
      .ok (response, m, db')) :
    Performed service actor call env db db' response := by
  have hkeep : KeepsItem operation := fun item mutation h =>
    ⟨(hop item mutation h).sameItem.id, (hop item mutation h).sameItem.ownerId⟩
  refine ⟨hash, hhash, ?_⟩
  rcases mutate_ok hkeep h with hreplayed | ⟨prior, mutation, hprior, rfl, hmutated⟩
  · exact Or.inl hreplayed
  · exact Or.inr (.mutated target (hop prior mutation hprior) hmutated)

theorem complete_ok {raw : CompleteRequest} {skew : Nat}
    (h : service.complete actor raw skew env 0 db = .ok (response, m, db')) :
    Performed service actor (.complete raw skew) env db db' response := by
  unfold RemindiService.complete at h
  obtain ⟨request, _, _, hrun, h⟩ := Txn.bind_ok.mp h
  obtain ⟨hprep, rfl, rfl⟩ := Txn.ofExcept_ok.mp hrun
  obtain ⟨hash, _, _, hrun, h⟩ := Txn.bind_ok.mp h
  obtain ⟨hhash, rfl, rfl⟩ := Txn.ofExcept_ok.mp hrun
  obtain ⟨now, _, _, hnow, h⟩ := Txn.bind_ok.mp h
  obtain ⟨rfl, rfl⟩ := Tx.now_ok hnow
  obtain ⟨evidence, _, _, hrun, h⟩ := Txn.bind_ok.mp h
  obtain ⟨hev, -, rfl⟩ := Txn.ofExcept_ok.mp hrun
  obtain ⟨hkey, hid, hversion, -⟩ := prepareComplete_ok hprep
  rw [hkey, hid, hversion] at h
  exact mutate_performed rfl (except_bind_ok.mpr ⟨request, hprep, hhash⟩)
    (fun prior mutation hop => .complete hprep (domain_ok.mp hev) hop) h

theorem snooze_ok {raw : SnoozeRequest} {horizon : Nat}
    (h : service.snooze actor raw horizon env 0 db = .ok (response, m, db')) :
    Performed service actor (.snooze raw horizon) env db db' response := by
  unfold RemindiService.snooze at h
  obtain ⟨request, _, _, hrun, h⟩ := Txn.bind_ok.mp h
  obtain ⟨hprep, rfl, rfl⟩ := Txn.ofExcept_ok.mp hrun
  obtain ⟨hash, _, _, hrun, h⟩ := Txn.bind_ok.mp h
  obtain ⟨hhash, rfl, rfl⟩ := Txn.ofExcept_ok.mp hrun
  obtain ⟨now, _, _, hnow, h⟩ := Txn.bind_ok.mp h
  obtain ⟨rfl, rfl⟩ := Tx.now_ok hnow
  obtain ⟨_, _, _, hrun, h⟩ := Txn.bind_ok.mp h
  obtain ⟨-, -, rfl⟩ := Txn.ofExcept_ok.mp hrun
  obtain ⟨hkey, hid, hversion, -⟩ := prepareSnooze_ok hprep
  rw [hkey, hid, hversion] at h
  exact mutate_performed rfl (except_bind_ok.mpr ⟨request, hprep, hhash⟩)
    (fun prior mutation hop => .snooze hprep hop) h

theorem cancel_ok {raw : CancelRequest}
    (h : service.cancel actor raw env 0 db = .ok (response, m, db')) :
    Performed service actor (.cancel raw) env db db' response := by
  unfold RemindiService.cancel at h
  obtain ⟨request, _, _, hrun, h⟩ := Txn.bind_ok.mp h
  obtain ⟨hprep, rfl, rfl⟩ := Txn.ofExcept_ok.mp hrun
  obtain ⟨hash, _, _, hrun, h⟩ := Txn.bind_ok.mp h
  obtain ⟨hhash, rfl, rfl⟩ := Txn.ofExcept_ok.mp hrun
  obtain ⟨now, _, _, hnow, h⟩ := Txn.bind_ok.mp h
  obtain ⟨rfl, rfl⟩ := Tx.now_ok hnow
  obtain ⟨hkey, hid, hversion⟩ := prepareCancel_ok hprep
  rw [hkey, hid, hversion] at h
  exact mutate_performed rfl (except_bind_ok.mpr ⟨request, hprep, hhash⟩)
    (fun prior mutation hop => .cancel hprep hop) h

theorem update_ok {raw : UpdateRequest}
    (h : service.update actor raw env 0 db = .ok (response, m, db')) :
    Performed service actor (.update raw) env db db' response := by
  unfold RemindiService.update at h
  obtain ⟨request, _, _, hrun, h⟩ := Txn.bind_ok.mp h
  obtain ⟨hprep, rfl, rfl⟩ := Txn.ofExcept_ok.mp hrun
  obtain ⟨hash, _, _, hrun, h⟩ := Txn.bind_ok.mp h
  obtain ⟨hhash, rfl, rfl⟩ := Txn.ofExcept_ok.mp hrun
  obtain ⟨now, _, _, hnow, h⟩ := Txn.bind_ok.mp h
  obtain ⟨rfl, rfl⟩ := Tx.now_ok hnow
  obtain ⟨hkey, hid, hversion, -⟩ := prepareUpdate_ok hprep
  rw [hkey, hid, hversion] at h
  exact mutate_performed rfl (except_bind_ok.mpr ⟨request, hprep, hhash⟩)
    (fun prior mutation hop => .update hprep hop) h

/-- **A call that succeeds was replayed or has executed once.** -/
theorem perform_ok {call : Call}
    (h : service.perform actor call env 0 db = .ok (response, m, db')) :
    Performed service actor call env db db' response := by
  cases call with
  | add raw => exact add_ok h
  | complete raw skew => exact complete_ok h
  | snooze raw horizon => exact snooze_ok h
  | cancel raw => exact cancel_ok h
  | update raw => exact update_ok h

end

end RemindiCore
