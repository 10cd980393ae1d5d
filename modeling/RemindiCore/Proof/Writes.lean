import RemindiCore.Proof.CrossTable

/-!
# The statements of a call

A call that has passed its validation and is allowed in the state of its item
writes with a fixed list of statements (`Writes`).  As long as the database
answers, the call is the execution of this list (`perform_writes`): it stops
at the first statement that fails.
-/

namespace RemindiCore

open CivilTime JsonText KeyedTable Transaction

/-! ## Statements -/

/-- A statement that writes, with the values it binds. -/
inductive Statement where
  | insert (item : Remindi)
  | updateCas (item : Remindi) (expectedVersion : Nat)
  | replaceLinks (item : Remindi) (links : List RemindiLink)
  | insertEvidence (evidence : CompletionEvidence)
  | appendEvent (event : RemindiEvent)
  | insertIdempotency (record : IdempotencyRecord)

namespace Statement

def execute (x : Externals) : Statement → Db → Except RepositoryError Db
  | insert item, db => Repository.insert x item db
  | updateCas item expectedVersion, db =>
    (Repository.updateCas x item expectedVersion db).map (·.2)
  | replaceLinks item links, db => Repository.replaceLinks item links db
  | insertEvidence evidence, db => Repository.insertEvidence x evidence db
  | appendEvent event, db => Repository.appendEvent event db
  | insertIdempotency record, db => Repository.insertIdempotency record db

end Statement

/-- One statement after the other, up to the first that fails. -/
def executeAll (x : Externals) : List Statement → Db → Except RepositoryError Db
  | [], db => .ok db
  | statement :: rest, db => do
    let db ← statement.execute x db
    executeAll x rest db

/-! ## The statements of an operation -/

/-- The row of an event, but for its sequence number. -/
def EventAppend.row (event : EventAppend) (eventId : Uuid) (occurredAt : OffsetDateTime) :
    RemindiEvent where
  sequence := 0
  eventId := eventId
  remindiId := event.item.id
  eventType := event.eventType
  actorType := event.actor.actorType
  actorId := event.actor.actorId
  requestId := event.actor.requestId
  occurredAt := occurredAt
  priorVersion := event.priorVersion
  newVersion := event.newVersion
  details := event.details

def idempotencyRecord (actor : Actor) (toolName key requestHash : String) (item : Remindi)
    (now : OffsetDateTime) : IdempotencyRecord where
  actorId := actor.actorId
  toolName := toolName
  key := key
  requestHash := requestHash
  response := { remindi := item }
  remindiId := item.id
  createdAt := now
  expiresAt := now.addSeconds idempotencyRetentionSeconds

def createdEvent (actor : Actor) (item : Remindi) : EventAppend where
  actor := actor
  item := item
  eventType := .created
  priorVersion := none
  newVersion := some 1
  details := .ofMap [("trigger_type", .string item.trigger.name),
    ("project_id", .string item.projectId), ("task_id", optionText item.taskId)]

/-- `add`: the third call on the surroundings draws the identifier of the item. -/
def addWrites (actor : Actor) (request : AddRequest) (hash : String) (item : Remindi) (env : Env) :
    List Statement :=
  [.insert item, .replaceLinks item (links request.links (env.clock 0)),
    .appendEvent ((createdEvent actor item).row (env.ids 6) (env.clock 7)),
    .insertIdempotency
      (idempotencyRecord actor "remindi_add" request.idempotencyKey hash item (env.clock 0))]

def linkWrites (mutation : Mutation) : List Statement :=
  mutation.replacementLinks.toList.map (.replaceLinks mutation.item)

def evidenceRow (actor : Actor) (item : Remindi) (id : Uuid) (evidence : ValidatedEvidence)
    (now : OffsetDateTime) : CompletionEvidence where
  id := id
  remindiId := item.id
  evidenceType := evidence.input.evidenceType
  summary := evidence.input.summary
  referenceUri := evidence.input.referenceUri
  contentHash := evidence.input.contentHash
  observedAt := evidence.input.observedAt
  recordedAt := now
  recordedBy := actor.actorId
  metadata := evidence.input.metadata

def evidenceWrites (actor : Actor) (mutation : Mutation) (id : Uuid) (now : OffsetDateTime) :
    List Statement :=
  mutation.evidence.toList.map fun evidence =>
    .insertEvidence (evidenceRow actor mutation.item id evidence now)

/-- The details of the event, with the identifier of the evidence if there is one. -/
def notedDetails (mutation : Mutation) (id : Uuid) : Json :=
  match mutation.evidence, mutation.details with
  | some _, .object members => .object (Json.insertMember "evidence_id" (.string id.text) members)
  | _, details => details

def mutationEvent (actor : Actor) (prior : Remindi) (mutation : Mutation) (id : Uuid) :
    EventAppend where
  actor := actor
  item := mutation.item
  eventType := mutation.eventType
  priorVersion := some prior.version
  newVersion := some mutation.item.version
  details := notedDetails mutation id

/-- The calls on the surroundings before a mutation's evidence: six, and one for its links. -/
def evidenceCall (mutation : Mutation) : Nat := 6 + (linkWrites mutation).length

def eventCall (mutation : Mutation) : Nat :=
  evidenceCall mutation + 2 * mutation.evidence.toList.length

/-- `mutate`: the second call on the surroundings reads its clock. -/
def mutationWrites (call : MutationCall) (prior : Remindi) (mutation : Mutation) (env : Env) :
    List Statement :=
  .updateCas mutation.item prior.version :: (linkWrites mutation ++
    (evidenceWrites call.actor mutation (env.ids (evidenceCall mutation)) (env.clock 1) ++
      [.appendEvent ((mutationEvent call.actor prior mutation
          (env.ids (evidenceCall mutation))).row
          (env.ids (eventCall mutation)) (env.clock (eventCall mutation + 1))),
        .insertIdempotency (idempotencyRecord call.actor call.toolName call.idempotencyKey
          call.requestHash mutation.item (env.clock 1))]))

/-- The deadline of a snooze is within its horizon. -/
def Call.Timely (now : OffsetDateTime) : Call → Prop
  | .snooze raw horizon => RemindiService.checkHorizon (normalizeInstant raw.snoozeUntil) now horizon = .ok ()
  | _ => True

/-- **The call is valid, new and allowed**: it answers with `item` after these statements. -/
inductive Writes (service : RemindiService) (actor : Actor) (env : Env) (db : Db) :
    Call → Remindi → List Statement → Prop
  | add {raw request : AddRequest} {hash : String} {nextFireAt : Option OffsetDateTime}
      (prepared : prepareAdd actor raw = .ok request)
      (hashed : requestHash service.externals.sha256 request.toJson = .ok hash)
      (unrecorded : db.idempotency.find? (actor.actorId, "remindi_add", request.idempotencyKey) =
        none)
      (fires : initialNextFireAt request.trigger (env.clock 0) = .ok nextFireAt) :
      Writes service actor env db (.add raw)
        (RemindiService.newItem service.ownerId (env.ids 3) request nextFireAt (env.clock 0))
        (addWrites actor request hash
          (RemindiService.newItem service.ownerId (env.ids 3) request nextFireAt (env.clock 0)) env)
  | mutate {call : Call} {prior : Remindi} {mutation : Mutation} {hash : String}
      (target : call.target = some (prior.id, prior.version))
      (hashed : call.hash service.externals actor = .ok hash)
      (unrecorded : db.idempotency.find? (actor.actorId, call.toolName, call.idempotencyKey) = none)
      (found : Repository.find service.ownerId prior.id db = .ok (some prior))
      (timely : call.Timely (env.clock 0))
      (operates : Operates actor (env.clock 0) prior call mutation) :
      Writes service actor env db call mutation.item
        (mutationWrites (call.mutationCall actor prior.id prior.version hash) prior mutation env)

/-! ## The call executes its statements -/

section

variable {x : Externals} {α β : Type} {env : Env} {n k : Nat} {db db' : Db} {a : α}
  {ws : List Statement}

/-- The transaction returns `a` after executing the statements. -/
def Leads (x : Externals) (tx : Tx α) (env : Env) (n : Nat) (db : Db) (ws : List Statement)
    (a : α) : Prop :=
  (tx env n db).map (fun done => (done.1, done.2.2)) =
    ((executeAll x ws db).mapError mapRepository).map fun db => (a, db)

theorem Leads.run {tx : Tx α} (h : Leads x tx env 0 db ws a) :
    tx.run env db = match executeAll x ws db with
      | .ok db' => (.ok a, db')
      | .error e => (.error (mapRepository e), db) := by
  unfold Leads at h
  unfold Txn.run
  cases hws : executeAll x ws db with
  | error e =>
    rw [hws] at h
    cases htx : tx env 0 db with
    | error e' =>
      rw [htx] at h
      cases h
      rfl
    | ok done =>
      rw [htx] at h
      cases h
  | ok t =>
    rw [hws] at h
    cases htx : tx env 0 db with
    | error e' =>
      rw [htx] at h
      cases h
    | ok done =>
      obtain ⟨b, m, u⟩ := done
      rw [htx] at h
      cases h
      rfl

theorem leads_pure : Leads x (pure a : Tx α) env n db [] a := rfl

/-- A call that succeeds without a statement. -/
theorem leads_after {tx : Tx β} {b : β} {f : β → Tx α} (h : tx env n db = .ok (b, k, db))
    (hf : Leads x (f b) env k db ws a) : Leads x (tx >>= f) env n db ws a := by
  unfold Leads
  rw [Txn.bind_of_ok h]
  exact hf

/-- A statement of the repository. -/
theorem leads_statement {f : Db → Except RepositoryError (β × Db)} {g : β → Tx α}
    {statement : Statement} {b : β} (hfault : env.fault n = none)
    (hf : f db = (statement.execute x db).map fun db => (b, db))
    (hg : ∀ db', statement.execute x db = .ok db' → Leads x (g b) env (n + 1) db' ws a) :
    Leads x (Tx.statement f >>= g) env n db (statement :: ws) a := by
  unfold Leads executeAll
  cases hstatement : statement.execute x db with
  | error e =>
    rw [hstatement] at hf
    have hfails : Tx.statement f env n db = .error (mapRepository e) := by
      simp only [Tx.statement, Txn.call, hfault, hf, Except.map, Except.mapError, Option.map_none]
    rw [Txn.bind_of_error hfails]
    rfl
  | ok db' =>
    rw [hstatement] at hf
    have hdone : Tx.statement f env n db = .ok (b, n + 1, db') := by
      simp only [Tx.statement, Txn.call, hfault, hf, Except.map, Except.mapError, Option.map_none]
    rw [Txn.bind_of_ok hdone]
    exact hg db' hstatement

theorem leads_execute {f : Db → Except RepositoryError Db} {g : Unit → Tx α}
    (statement : Statement) (hfault : env.fault n = none) (hf : f db = statement.execute x db)
    (hg : ∀ db', statement.execute x db = .ok db' → Leads x (g ()) env (n + 1) db' ws a) :
    Leads x (Tx.execute f >>= g) env n db (statement :: ws) a :=
  leads_statement hfault (by rw [hf]) hg

theorem leads_now {f : OffsetDateTime → Tx α} (hf : Leads x (f (env.clock n)) env (n + 1) db ws a) :
    Leads x (Tx.now >>= f) env n db ws a :=
  leads_after rfl hf

theorem leads_nextId {f : Uuid → Tx α} (hf : Leads x (f (env.ids n)) env (n + 1) db ws a) :
    Leads x (Tx.nextId >>= f) env n db ws a :=
  leads_after rfl hf

theorem leads_ofExcept {r : Except ServiceError β} {b : β} {f : β → Tx α} (hr : r = .ok b)
    (hf : Leads x (f b) env n db ws a) : Leads x (Txn.ofExcept r >>= f) env n db ws a := by
  subst hr
  exact leads_after rfl hf

theorem leads_database {f : Unit → Tx α} (hfault : env.fault n = none)
    (hf : Leads x (f ()) env (n + 1) db ws a) : Leads x (Tx.database >>= f) env n db ws a := by
  refine leads_after ?_ hf
  simp only [Tx.database, Txn.call, hfault, Option.map_none]

theorem leads_query {f : Db → Except RepositoryError β} {g : β → Tx α} {b : β}
    (hfault : env.fault n = none) (hf : f db = .ok b) (hg : Leads x (g b) env (n + 1) db ws a) :
    Leads x (Tx.query f >>= g) env n db ws a := by
  refine leads_after ?_ hg
  simp only [Tx.query, Tx.statement, Txn.call, hfault, hf, Except.map, Except.mapError,
    Option.map_none]

end

section

variable {x : Externals} {service : RemindiService} {actor : Actor} {env : Env} {n : Nat} {db : Db}
  {item : Remindi} {ws : List Statement} {α : Type} {a : α}

/-- Binds are associated to the right. -/
theorem leads_assoc {β γ : Type} {y : Tx γ} {f : γ → Tx β} {g : β → Tx α}
    (h : Leads x (y >>= fun c => f c >>= g) env n db ws a) :
    Leads x (y >>= f >>= g) env n db ws a := by
  unfold Leads at h ⊢
  rw [Txn.bind_assoc]
  exact h

theorem leads_appendEvent {event : EventAppend} {f : Unit → Tx α}
    (hfaults : ∀ n, env.fault n = none)
    (hf : ∀ db', Leads x (f ()) env (n + 3) db' ws a) :
    Leads x (appendEvent event >>= f) env n db
      (.appendEvent (event.row (env.ids n) (env.clock (n + 1))) :: ws) a := by
  unfold appendEvent
  apply leads_assoc
  apply leads_nextId
  apply leads_assoc
  apply leads_now
  exact leads_execute (.appendEvent _) (hfaults _) rfl fun db' _ => hf db'

/-- The trigger and the recurrence have texts. -/
def Remindi.Printed (item : Remindi) : Prop :=
  item.trigger.toJson.isSome = true ∧
    (orNull RecurrenceSpec.toJson item.recurrence).isSome = true

theorem leads_storeIdempotency {toolName key hash : String} {now : OffsetDateTime}
    {f : Unit → Tx α} (hfaults : ∀ n, env.fault n = none)
    (hprinted : item.Printed)
    (hf : ∀ db', Leads x (f ()) env (n + 1) db' ws a) :
    Leads x (storeIdempotency actor toolName key hash { remindi := item } now >>= f) env n db
      (.insertIdempotency (idempotencyRecord actor toolName key hash item now) :: ws) a := by
  unfold storeIdempotency
  have hprinted : ¬ (item.trigger.toJson.isNone ∨
      (orNull RecurrenceSpec.toJson item.recurrence).isNone) := by
    rw [← Option.not_isSome, ← Option.not_isSome, hprinted.1, hprinted.2]
    decide
  dsimp only
  rw [if_neg hprinted]
  exact leads_execute (.insertIdempotency _) (hfaults _) rfl fun db' _ => hf db'

theorem leads_replay {toolName key hash : String} {f : Option MutationResult → Tx α}
    (hfaults : ∀ n, env.fault n = none)
    (hnone : db.idempotency.find? (actor.actorId, toolName, key) = none)
    (hf : Leads x (f none) env (n + 1) db ws a) :
    Leads x (replay x actor toolName key hash >>= f) env n db ws a := by
  unfold replay
  apply leads_assoc
  exact leads_query (hfaults _) (congrArg Except.ok hnone) (leads_after rfl hf)

theorem leads_findItem {id : Uuid} {prior : Remindi} {f : Remindi → Tx α}
    (hfaults : ∀ n, env.fault n = none)
    (hfound : Repository.find service.ownerId id db = .ok (some prior))
    (hf : Leads x (f prior) env (n + 1) db ws a) :
    Leads x (service.findItem id >>= f) env n db ws a := by
  unfold RemindiService.findItem
  apply leads_assoc
  exact leads_query (hfaults _) hfound (leads_after rfl hf)

/-- What was bound has been printed. -/
theorem printed_of_bindUpdate (h : item.bindUpdate = .ok ()) : item.Printed := by
  unfold Remindi.bindUpdate at h
  obtain ⟨_, htrigger, h⟩ := except_bind_ok.mp h
  obtain ⟨_, hrecurrence, -⟩ := except_bind_ok.mp h
  unfold jsonString at htrigger hrecurrence
  split at htrigger
  · split at hrecurrence
    · next hprinted hprinted' => exact ⟨hprinted, hprinted'⟩
    · cases hrecurrence
  · cases htrigger

theorem leads_addItem {request : AddRequest} {hash : String} {nextFireAt : Option OffsetDateTime}
    (hfaults : ∀ n, env.fault n = none)
    (hnext : initialNextFireAt request.trigger (env.clock 0) = .ok nextFireAt)
    (hitem : item = RemindiService.newItem service.ownerId (env.ids 3) request nextFireAt
      (env.clock 0)) :
    Leads service.externals (service.addItem actor request hash (env.clock 0)) env 3 db
      (addWrites actor request hash item env) { remindi := item } := by
  subst hitem
  unfold RemindiService.addItem addWrites
  apply leads_ofExcept hnext
  apply leads_nextId
  dsimp only
  apply leads_execute (.insert _) (hfaults _) rfl
  intro db' hinsert
  obtain ⟨_, -, -, hbound, -⟩ := Repository.insert_ok hinsert
  apply leads_execute (.replaceLinks _ _) (hfaults _) rfl
  intro _ _
  apply leads_appendEvent hfaults
  intro _
  apply leads_storeIdempotency hfaults (printed_of_bindUpdate hbound)
  intro _
  exact leads_database (hfaults _) leads_pure

theorem leads_replaceLinks {mutation : Mutation} {f : Unit → Tx α} (hfaults : ∀ n, env.fault n = none)
    (hf : ∀ db', Leads x (f ()) env (n + (linkWrites mutation).length) db' ws a) :
    Leads x (RemindiService.replaceLinks mutation.item mutation.replacementLinks >>= f) env n db
      (linkWrites mutation ++ ws) a := by
  unfold linkWrites at hf ⊢
  unfold RemindiService.replaceLinks
  cases hlinks : mutation.replacementLinks with
  | none =>
    rw [hlinks] at hf
    exact leads_after rfl (hf db)
  | some values =>
    rw [hlinks] at hf
    exact leads_execute (.replaceLinks _ _) (hfaults _) rfl fun db' _ => hf db'

/-- Evidence is noted in an object. -/
def Notes (mutation : Mutation) : Prop :=
  mutation.evidence.isSome = true → ∃ members, mutation.details = .object members

theorem leads_recordEvidence {mutation : Mutation} {now : OffsetDateTime} {f : Json → Tx α}
    (hfaults : ∀ n, env.fault n = none) (hnotes : Notes mutation)
    (hf : ∀ db', Leads x (f (notedDetails mutation (env.ids n))) env
      (n + 2 * mutation.evidence.toList.length) db' ws a) :
    Leads x (recordEvidence x actor mutation.item mutation.details now mutation.evidence >>= f) env
      n db (evidenceWrites actor mutation (env.ids n) now ++ ws) a := by
  unfold evidenceWrites
  unfold notedDetails at hf
  unfold recordEvidence
  cases hevidence : mutation.evidence with
  | none =>
    rw [hevidence] at hf
    exact leads_after rfl (hf db)
  | some evidence =>
    rw [hevidence] at hf
    obtain ⟨members, hdetails⟩ := hnotes (by rw [hevidence]; rfl)
    rw [hdetails] at hf ⊢
    apply leads_assoc
    apply leads_nextId
    apply leads_assoc
    apply leads_execute (.insertEvidence _) (hfaults _) rfl
    intro db' _
    exact leads_after rfl (hf db')

theorem updateCas_eq {prior : Remindi} (hid : item.id = prior.id) (howner : item.ownerId = prior.ownerId)
    (hfound : db.remindi.find? prior.id = some prior) :
    Repository.updateCas x item prior.version db =
      ((Statement.updateCas item prior.version).execute x db).map fun db => (true, db) := by
  show _ = ((Repository.updateCas x item prior.version db).map (·.2)).map _
  cases hupdate : Repository.updateCas x item prior.version db with
  | error e => rfl
  | ok done =>
    obtain ⟨updated, db'⟩ := done
    rcases Repository.updateCas_ok hupdate with ⟨-, -, hmissed⟩ | ⟨rfl, -⟩
    · rcases hmissed prior (hid ▸ hfound) with hother | hother
      · exact absurd howner.symm hother
      · exact absurd rfl hother
    · rfl

theorem leads_mutateItem {call : MutationCall} {prior : Remindi} {mutation : Mutation}
    {operation : Remindi → Except ServiceError Mutation} (hfaults : ∀ n, env.fault n = none)
    (hfound : Repository.find service.ownerId call.id db = .ok (some prior))
    (hid : prior.id = call.id) (hversion : prior.version = call.expectedVersion)
    (hoperation : operation prior = .ok mutation) (hsame : SameItem mutation.item prior)
    (hnotes : Notes mutation) :
    Leads service.externals (service.mutateItem call (env.clock 1) operation) env 4 db
      (mutationWrites call prior mutation env) { remindi := mutation.item } := by
  have hrow := (Repository.find_ok hfound).1
  rw [← hid] at hrow
  unfold RemindiService.mutateItem mutationWrites
  apply leads_findItem hfaults hfound
  dsimp only
  rw [if_neg (not_not.mpr hversion)]
  apply leads_ofExcept hoperation
  refine leads_statement (hfaults _) (updateCas_eq hsame.id hsame.ownerId hrow) ?_
  intro db' hupdate
  have hbound : mutation.item.bindUpdate = .ok () := by
    obtain ⟨⟨updated, _⟩, hdone, -⟩ := except_map_ok.mp hupdate
    rcases Repository.updateCas_ok hdone with ⟨-, -, hmissed⟩ | ⟨-, _, -, -, -, hbound, -⟩
    · rcases hmissed prior (hsame.id ▸ hrow) with hother | hother
      · exact absurd hsame.ownerId.symm hother
      · exact absurd rfl hother
    · exact hbound
  apply leads_replaceLinks hfaults
  intro _
  apply leads_recordEvidence hfaults hnotes
  intro _
  apply leads_appendEvent hfaults
  intro _
  apply leads_storeIdempotency hfaults (printed_of_bindUpdate hbound)
  intro _
  exact leads_database (hfaults _) leads_pure

theorem leads_mutate {call : MutationCall} {prior : Remindi} {mutation : Mutation}
    {operation : Remindi → Except ServiceError Mutation} (hfaults : ∀ n, env.fault n = none)
    (hnone : db.idempotency.find? (call.actor.actorId, call.toolName, call.idempotencyKey) = none)
    (hfound : Repository.find service.ownerId call.id db = .ok (some prior))
    (hid : prior.id = call.id) (hversion : prior.version = call.expectedVersion)
    (hoperation : operation prior = .ok mutation) (hsame : SameItem mutation.item prior)
    (hnotes : Notes mutation) :
    Leads service.externals (service.mutate call operation) env 1 db
      (mutationWrites call prior mutation env) { remindi := mutation.item } := by
  unfold RemindiService.mutate
  apply leads_now
  apply leads_database (hfaults _)
  apply leads_replay hfaults hnone
  exact leads_mutateItem hfaults hfound hid hversion hoperation hsame hnotes

theorem Operates.notes {now : OffsetDateTime} {prior : Remindi} {call : Call} {mutation : Mutation}
    (h : Operates actor now prior call mutation) : Notes mutation := by
  intro hevidence
  cases h with
  | complete prepared validated ok =>
    unfold completeItem at ok
    obtain ⟨_, -, ok⟩ := except_bind_ok.mp ok
    cases ok
    exact ⟨_, rfl⟩
  | snooze prepared ok =>
    rw [(snoozeItem_ok ok).2.1] at hevidence
    cases hevidence
  | cancel prepared ok =>
    rw [(cancelItem_ok ok).2.1] at hevidence
    cases hevidence
  | update prepared ok =>
    obtain ⟨_, _, _, -, -, -, hnone⟩ := updateItem_ok ok
    rw [hnone] at hevidence
    cases hevidence

/-- **A valid call that the database answers is the execution of its statements.** -/
theorem perform_writes {call : Call} (hfaults : ∀ n, env.fault n = none)
    (h : Writes service actor env db call item ws) :
    Leads service.externals (service.perform actor call) env 0 db ws { remindi := item } := by
  cases h with
  | @add raw request hash nextFireAt prepared hashed unrecorded fires =>
    unfold RemindiService.perform RemindiService.add
    apply leads_ofExcept prepared
    apply leads_ofExcept hashed
    apply leads_now
    apply leads_database (hfaults _)
    apply leads_replay hfaults unrecorded
    exact leads_addItem hfaults fires rfl
  | @mutate _ prior mutation hash target hashed unrecorded found timely operates =>
    have hsame := operates.sameItem
    have hnotes := operates.notes
    cases operates with
    | @complete raw request skew evidence _ prepared validated ok =>
      obtain ⟨hkey, hid, hversion, -⟩ := prepareComplete_ok prepared
      obtain ⟨htarget, hexpected⟩ := Prod.mk.inj (Option.some.inj target)
      obtain ⟨_, prepared', hashed⟩ := except_bind_ok.mp hashed
      obtain rfl := Except.ok.inj (prepared.symm.trans prepared')
      unfold RemindiService.perform RemindiService.complete
      apply leads_ofExcept prepared
      apply leads_ofExcept hashed
      apply leads_now
      apply leads_ofExcept (domain_ok.mpr validated)
      rw [hkey, hid, hversion, htarget, hexpected]
      exact leads_mutate hfaults unrecorded found rfl rfl ok hsame hnotes
    | @snooze raw request horizon _ prepared ok =>
      obtain ⟨hkey, hid, hversion, huntil⟩ := prepareSnooze_ok prepared
      obtain ⟨htarget, hexpected⟩ := Prod.mk.inj (Option.some.inj target)
      obtain ⟨_, prepared', hashed⟩ := except_bind_ok.mp hashed
      obtain rfl := Except.ok.inj (prepared.symm.trans prepared')
      have htimely : RemindiService.checkHorizon request.snoozeUntil (env.clock 0) horizon =
          .ok () := by
        rw [huntil]
        exact timely
      unfold RemindiService.perform RemindiService.snooze
      apply leads_ofExcept prepared
      apply leads_ofExcept hashed
      apply leads_now
      apply leads_ofExcept htimely
      rw [hkey, hid, hversion, htarget, hexpected]
      exact leads_mutate hfaults unrecorded found rfl rfl ok hsame hnotes
    | @cancel raw request _ prepared ok =>
      obtain ⟨hkey, hid, hversion⟩ := prepareCancel_ok prepared
      obtain ⟨htarget, hexpected⟩ := Prod.mk.inj (Option.some.inj target)
      obtain ⟨_, prepared', hashed⟩ := except_bind_ok.mp hashed
      obtain rfl := Except.ok.inj (prepared.symm.trans prepared')
      unfold RemindiService.perform RemindiService.cancel
      apply leads_ofExcept prepared
      apply leads_ofExcept hashed
      apply leads_now
      rw [hkey, hid, hversion, htarget, hexpected]
      exact leads_mutate hfaults unrecorded found rfl rfl ok hsame hnotes
    | @update raw request _ prepared ok =>
      obtain ⟨hkey, hid, hversion, -⟩ := prepareUpdate_ok prepared
      obtain ⟨htarget, hexpected⟩ := Prod.mk.inj (Option.some.inj target)
      obtain ⟨_, prepared', hashed⟩ := except_bind_ok.mp hashed
      obtain rfl := Except.ok.inj (prepared.symm.trans prepared')
      unfold RemindiService.perform RemindiService.update
      apply leads_ofExcept prepared
      apply leads_ofExcept hashed
      apply leads_now
      rw [hkey, hid, hversion, htarget, hexpected]
      exact leads_mutate hfaults unrecorded found rfl rfl ok hsame hnotes

end

end RemindiCore
