import RemindiCore.Proof.Idempotency

/-!
# A key used again for another request

A call that finds a record under its key compares hashes: it gets the stored
response when they agree and is rejected when they do not (`perform_of_record`).
The hash determines the request except that an update writes a cleared field
like one left alone (`Call.toJson_eq_iff`), so of requests with different effects
exactly such a pair of updates is taken for one (`reused_key_refused_iff`).
-/

namespace RemindiCore

open CivilTime JsonText KeyedTable Machine Transaction

variable {x : Externals} {labels : List Label}

/-! ## Prepared calls -/

/-- The call with its request as it is hashed. -/
def Call.prepared (actor : Actor) : Call → Except ServiceError Call
  | .add raw => (prepareAdd actor raw).map .add
  | .complete raw skew => (prepareComplete actor raw).map fun request => .complete request skew
  | .snooze raw horizon => (prepareSnooze actor raw).map fun request => .snooze request horizon
  | .cancel raw => (prepareCancel actor raw).map .cancel
  | .update raw => (prepareUpdate actor raw).map .update

def Call.toJson : Call → Option Json
  | .add request => request.toJson
  | .complete request _ => request.toJson
  | .snooze request _ => request.toJson
  | .cancel request => request.toJson
  | .update request => request.toJson

/-- The checks of a prepared call against the clock. -/
def Call.timely (now : OffsetDateTime) : Call → Bool
  | .complete request skew => (request.evidence.validate now skew).isOk
  | .snooze request horizon => (RemindiService.checkHorizon request.snoozeUntil now horizon).isOk
  | .add _ | .cancel _ | .update _ => true

/-- The call gets as far as the lookup of its key. -/
structure Call.Admitted (actor : Actor) (now : OffsetDateTime) (call request : Call) : Prop where
  prepared : call.prepared actor = .ok request
  written : request.toJson.isSome = true
  timely : request.timely now = true

/-- Evidence metadata is not the JSON `null`. -/
def Call.plainMetadata : Call → Prop
  | .complete request _ => request.evidence.metadata ≠ some .null
  | _ => True

theorem isOk_iff {ε α : Type} {y : Except ε α} : y.isOk = true ↔ ∃ a, y = .ok a := by
  cases y <;> simp [Except.isOk, Except.toBool]

/-- Evidence that passes its checks carries no `null`. -/
theorem EvidenceInput.plain_of_validate {input : EvidenceInput} {now : OffsetDateTime} {skew : Nat}
    {evidence : ValidatedEvidence} (h : input.validate now skew = .ok evidence) :
    input.metadata ≠ some .null := by
  intro hnull
  have hobject := evidence.metadata_object .null
  have hmetadata : evidence.input.metadata = input.metadata := by
    unfold EvidenceInput.validate at h
    dsimp only at h
    repeat' split at h
    all_goals first | cases h; done | skip
    cases h
    rfl
  exact absurd (hobject (hmetadata.trans hnull)) (by decide)

theorem Call.Admitted.plainMetadata {actor : Actor} {now : OffsetDateTime} {call request : Call}
    (h : call.Admitted actor now request) : request.plainMetadata := by
  have htimely := h.timely
  cases request with
  | complete request skew =>
    obtain ⟨evidence, hevidence⟩ := isOk_iff.mp htimely
    exact EvidenceInput.plain_of_validate hevidence
  | _ => trivial

/-- One request, or two updates that differ at most in clearing a field against
leaving it alone. -/
inductive SameText : Call → Call → Prop
  | same {request request' : Call} (h : SameRequest request request') : SameText request request'
  | cleared {request request' : UpdateRequest} (h : request.collapsed = request'.collapsed) :
      SameText (.update request) (.update request')

/-- **What the written request determines.** -/
theorem Call.toJson_eq_iff {request request' : Call}
    (htool : request'.toolName = request.toolName) (hplain : request.plainMetadata)
    (hplain' : request'.plainMetadata) (hwritten : request'.toJson.isSome = true) :
    request.toJson = request'.toJson ↔ SameText request request' := by
  constructor
  · intro h
    obtain ⟨j, hj'⟩ := Option.isSome_iff_exists.mp hwritten
    have hj := h.trans hj'
    cases request <;> cases request' <;>
      first | (simp [Call.toolName] at htool; done) | skip
    · obtain rfl := AddRequest.toJson_faithful _ _ j hj hj'
      exact .same (.add _)
    · obtain rfl := CompleteRequest.toJson_inj hj hj' hplain hplain'
      exact .same (.complete _ _ _)
    · obtain rfl := SnoozeRequest.toJson_faithful _ _ j hj hj'
      exact .same (.snooze _ _ _)
    · obtain rfl := CancelRequest.toJson_faithful _ _ j hj hj'
      exact .same (.cancel _)
    · exact .cleared ((UpdateRequest.toJson_eq_iff (Option.isSome_iff_exists.mpr ⟨j, hj⟩)).mp h)
  · rintro (hsame | hcleared)
    · cases hsame <;> rfl
    · show UpdateRequest.toJson _ = UpdateRequest.toJson _
      rw [← UpdateRequest.toJson_collapsed, hcleared, UpdateRequest.toJson_collapsed]

/-- The hash of a call is the digest of its prepared request. -/
theorem Call.hash_eq {actor : Actor} {call request : Call} {j : Json}
    (hprepared : call.prepared actor = .ok request) (hj : request.toJson = some j) :
    call.hash x actor = .ok (x.sha256 j.text) := by
  cases call
  all_goals
    obtain ⟨prepared, hp, rfl⟩ := except_map_ok.mp hprepared
    refine except_bind_ok.mpr ⟨prepared, hp, ?_⟩
    rw [show prepared.toJson = some j from hj]
    rfl

/-! ## The lookup of a key -/

section

variable {env : Env} {n : Nat} {db : Db} {service : RemindiService} {actor : Actor}

theorem bind_of_ok {α β : Type} {y : Tx α} {f : α → Tx β} {a : α} {m : Nat} {db' : Db}
    (h : y env n db = .ok (a, m, db')) : (y >>= f) env n db = f a env m db' := by
  simp only [bind, h]

theorem bind_of_error {α β : Type} {y : Tx α} {f : α → Tx β} {e : ServiceError}
    (h : y env n db = .error e) : (y >>= f) env n db = .error e := by
  simp only [bind, h]

theorem ofExcept_of_ok {α : Type} {y : Except ServiceError α} {a : α} (h : y = .ok a) :
    (Txn.ofExcept y : Tx α) env n db = .ok (a, n, db) := by
  rw [h]
  rfl

/-- The database answers every call. -/
def Env.Faultless (env : Env) : Prop := ∀ n, env.fault n = none

theorem database_of_faultless (h : env.Faultless) : Tx.database env n db = .ok ((), n + 1, db) := by
  simp only [Tx.database, Txn.call, h n, Option.map_none]

/-- The answer to a call that finds this record: the stored response is read again. -/
def recordedAnswer (x : Externals) (record : IdempotencyRecord) (hash : String) :
    Except ServiceError MutationResult :=
  if record.requestHash ≠ hash then .error .idempotencyKeyReused
  else
    match record.response.read x with
    | none => .error .internal
    | some response => .ok response

theorem recordedAnswer_reused {record : IdempotencyRecord} {hash : String} :
    recordedAnswer x record hash = .error .idempotencyKeyReused ↔ record.requestHash ≠ hash := by
  unfold recordedAnswer
  by_cases hhash : record.requestHash = hash
  · rw [if_neg (not_not.mpr hhash)]
    refine iff_of_false ?_ (not_not.mpr hhash)
    cases record.response.read x <;> simp
  · rw [if_pos hhash]
    exact iff_of_true rfl hhash

theorem replay_of_record (h : env.Faultless) {toolName key hash : String}
    {record : IdempotencyRecord}
    (hrecord : db.idempotency.find? (actor.actorId, toolName, key) = some record) :
    replay x actor toolName key hash env n db =
      (recordedAnswer x record hash).map fun response => (some response, n + 1, db) := by
  have hquery : (Tx.query fun db => .ok (Repository.idempotency actor.actorId toolName key db))
      env n db = .ok (some record, n + 1, db) := by
    simp only [Tx.query, Tx.statement, Txn.call, h n, Option.map_none, Repository.idempotency,
      hrecord]
    rfl
  unfold replay recordedAnswer
  rw [bind_of_ok hquery]
  dsimp only
  by_cases hhash : record.requestHash = hash
  · rw [if_neg (not_not.mpr hhash), if_neg (not_not.mpr hhash)]
    cases record.response.read x <;> rfl
  · rw [if_pos hhash, if_pos hhash]
    rfl

theorem replayed_of_record (h : env.Faultless) {toolName key hash : String}
    {record : IdempotencyRecord} {rest : Tx MutationResult}
    (hrecord : db.idempotency.find? (actor.actorId, toolName, key) = some record) :
    ((replay x actor toolName key hash >>= fun replayed => match replayed with
      | some response => do
        Tx.database
        return response
      | none => rest) env n db).map Prod.fst = recordedAnswer x record hash := by
  have hreplay : replay x actor toolName key hash env n db =
      (recordedAnswer x record hash).map fun response => (some response, n + 1, db) :=
    replay_of_record h hrecord
  cases hanswer : recordedAnswer x record hash with
  | error e =>
    rw [hanswer] at hreplay
    rw [bind_of_error hreplay]
    rfl
  | ok response =>
    rw [hanswer] at hreplay
    rw [bind_of_ok hreplay]
    show ((Tx.database >>= fun _ => pure response) env (n + 1) db).map Prod.fst = _
    rw [bind_of_ok (database_of_faultless h)]
    rfl

theorem mutate_of_record (h : env.Faultless) {call : MutationCall}
    {operation : Remindi → Except ServiceError Mutation} {record : IdempotencyRecord}
    (hrecord : db.idempotency.find? (call.actor.actorId, call.toolName, call.idempotencyKey) =
      some record) :
    (service.mutate call operation env n db).map Prod.fst =
      recordedAnswer service.externals record call.requestHash := by
  unfold RemindiService.mutate
  rw [bind_of_ok (show Tx.now env n db = .ok (env.clock n, n + 1, db) from rfl),
    bind_of_ok (database_of_faultless h)]
  exact replayed_of_record h hrecord

/-- **A call that finds a record** gets what is read of its response when the hashes
agree, and is rejected when they do not. -/
theorem perform_of_record {call request : Call} {record : IdempotencyRecord} {hash : String}
    (hfault : env.Faultless) (hadmitted : call.Admitted actor (env.clock 0) request)
    (hhash : call.hash service.externals actor = .ok hash)
    (hrecord : db.idempotency.find? (actor.actorId, call.toolName, call.idempotencyKey) =
      some record) :
    (service.perform actor call env 0 db).map Prod.fst =
      recordedAnswer service.externals record hash := by
  have hprepared := hadmitted.prepared
  have htimely := hadmitted.timely
  have hnow : ∀ m, Tx.now env m db = .ok (env.clock m, m + 1, db) := fun _ => rfl
  cases call with
  | add raw =>
    obtain ⟨prepared, hp, rfl⟩ := except_map_ok.mp hprepared
    obtain ⟨prepared', hp', hhash⟩ := except_bind_ok.mp hhash
    obtain rfl := Except.ok.inj (hp.symm.trans hp')
    show (service.add actor raw env 0 db).map Prod.fst = _
    unfold RemindiService.add
    rw [bind_of_ok (ofExcept_of_ok hp), bind_of_ok (ofExcept_of_ok hhash), bind_of_ok (hnow 0),
      bind_of_ok (database_of_faultless hfault)]
    rw [(prepareAdd_ok hp).1]
    exact replayed_of_record hfault hrecord
  | complete raw skew =>
    obtain ⟨prepared, hp, rfl⟩ := except_map_ok.mp hprepared
    obtain ⟨prepared', hp', hhash⟩ := except_bind_ok.mp hhash
    obtain rfl := Except.ok.inj (hp.symm.trans hp')
    obtain ⟨evidence, hevidence⟩ := isOk_iff.mp htimely
    show (service.complete actor raw skew env 0 db).map Prod.fst = _
    unfold RemindiService.complete
    rw [bind_of_ok (ofExcept_of_ok hp), bind_of_ok (ofExcept_of_ok hhash), bind_of_ok (hnow 0),
      bind_of_ok (ofExcept_of_ok (domain_ok.mpr hevidence)), (prepareComplete_ok hp).1]
    exact mutate_of_record hfault hrecord
  | snooze raw horizon =>
    obtain ⟨prepared, hp, rfl⟩ := except_map_ok.mp hprepared
    obtain ⟨prepared', hp', hhash⟩ := except_bind_ok.mp hhash
    obtain rfl := Except.ok.inj (hp.symm.trans hp')
    obtain ⟨u, hhorizon⟩ := isOk_iff.mp htimely
    show (service.snooze actor raw horizon env 0 db).map Prod.fst = _
    unfold RemindiService.snooze
    rw [bind_of_ok (ofExcept_of_ok hp), bind_of_ok (ofExcept_of_ok hhash), bind_of_ok (hnow 0),
      bind_of_ok (ofExcept_of_ok hhorizon), (prepareSnooze_ok hp).1]
    exact mutate_of_record hfault hrecord
  | cancel raw =>
    obtain ⟨prepared, hp, rfl⟩ := except_map_ok.mp hprepared
    obtain ⟨prepared', hp', hhash⟩ := except_bind_ok.mp hhash
    obtain rfl := Except.ok.inj (hp.symm.trans hp')
    show (service.cancel actor raw env 0 db).map Prod.fst = _
    unfold RemindiService.cancel
    rw [bind_of_ok (ofExcept_of_ok hp), bind_of_ok (ofExcept_of_ok hhash), bind_of_ok (hnow 0),
      (prepareCancel_ok hp).1]
    exact mutate_of_record hfault hrecord
  | update raw =>
    obtain ⟨prepared, hp, rfl⟩ := except_map_ok.mp hprepared
    obtain ⟨prepared', hp', hhash⟩ := except_bind_ok.mp hhash
    obtain rfl := Except.ok.inj (hp.symm.trans hp')
    show (service.update actor raw env 0 db).map Prod.fst = _
    unfold RemindiService.update
    rw [bind_of_ok (ofExcept_of_ok hp), bind_of_ok (ofExcept_of_ok hhash), bind_of_ok (hnow 0),
      (prepareUpdate_ok hp).1]
    exact mutate_of_record hfault hrecord

end

/-! ## The theorem -/

/-- A request that has succeeded carries no `null` as metadata. -/
theorem plainMetadata_of_success {s : System} {ownerId : String} {actor : Actor} {env : Env}
    {call request : Call} {response : MutationResult}
    (h : (step x s (.call ownerId actor call env)).2 = .mutation (.ok response))
    (hprepared : call.prepared actor = .ok request) : request.plainMetadata := by
  cases call with
  | complete raw skew =>
    obtain ⟨prepared, hp, rfl⟩ := except_map_ok.mp hprepared
    have hrun : ((RemindiService.complete ⟨x, ownerId⟩ actor raw skew).run env s.db).1 =
        .ok response :=
      Response.mutation.inj h
    obtain ⟨m, hok⟩ := Txn.run_ok.mp (Prod.ext hrun rfl)
    obtain ⟨prepared', _, _, hprepare, hok⟩ := Txn.bind_ok.mp hok
    obtain ⟨hp', -, -⟩ := Txn.ofExcept_ok.mp hprepare
    obtain rfl := Except.ok.inj (hp.symm.trans hp')
    obtain ⟨hash, _, _, -, hok⟩ := Txn.bind_ok.mp hok
    obtain ⟨now, _, _, -, hok⟩ := Txn.bind_ok.mp hok
    obtain ⟨evidence, _, _, hvalidate, -⟩ := Txn.bind_ok.mp hok
    obtain ⟨hvalid, -, -⟩ := Txn.ofExcept_ok.mp hvalidate
    exact EvidenceInput.plain_of_validate (domain_ok.mp hvalid)
  | _ =>
    obtain ⟨request, -, rfl⟩ := except_map_ok.mp hprepared
    trivial

theorem Call.prepared_toolName {actor : Actor} {call request : Call}
    (h : call.prepared actor = .ok request) : request.toolName = call.toolName := by
  cases call
  all_goals
    obtain ⟨prepared, -, rfl⟩ := except_map_ok.mp h
    rfl

/-- A hash is the digest of a written request. -/
theorem Call.hash_ok {actor : Actor} {call request : Call} {hash : String}
    (h : call.hash x actor = .ok hash) (hprepared : call.prepared actor = .ok request) :
    ∃ j, request.toJson = some j ∧ hash = x.sha256 j.text := by
  cases hj : request.toJson with
  | some j => exact ⟨j, rfl, Except.ok.inj (h.symm.trans (Call.hash_eq hprepared hj))⟩
  | none =>
    cases call
    all_goals
      obtain ⟨prepared, hp, rfl⟩ := except_map_ok.mp hprepared
      obtain ⟨prepared', hp', h⟩ := except_bind_ok.mp h
      obtain rfl := Except.ok.inj (hp.symm.trans hp')
      rw [show prepared.toJson = none from hj] at h
      cases h

/-- The digest tells the two requests apart if their texts differ. -/
def CollisionFree (sha256 : String → String) (request request' : Call) : Prop :=
  ∀ j j', request.toJson = some j → request'.toJson = some j' →
    sha256 j.text = sha256 j'.text → j.text = j'.text

/-- A call that has succeeded has left its record. -/
theorem record_of_success {e : StepRecord} (he : e ∈ historyOf x labels) {ownerId : String}
    {actor : Actor} {call request : Call} {env : Env} {response : MutationResult}
    (hlabel : e.label = .call ownerId actor call env) (hok : e.response = .mutation (.ok response))
    (hrequest : call.prepared actor = .ok request) :
    ∃ j record, request.toJson = some j ∧ record.requestHash = x.sha256 j.text ∧
      (runOf x labels).db.idempotency.find? (actor.actorId, call.toolName, call.idempotencyKey) =
        some record := by
  obtain ⟨hash, -, hhash, ⟨record, hrecord, hrecordHash, -⟩, -⟩ :=
    answeredOnce_run.1 e he ownerId actor call env response hlabel hok
  obtain ⟨j, hj, rfl⟩ := Call.hash_ok hhash hrequest
  exact ⟨j, record, hj, hrecordHash, hrecord⟩

theorem sameText_of_hash {request request' : Call} {j j' : Json} (hj : request.toJson = some j)
    (hj' : request'.toJson = some j') (htools : request'.toolName = request.toolName)
    (hplain : request.plainMetadata) (hplain' : request'.plainMetadata)
    (hsha : CollisionFree x.sha256 request request')
    (h : x.sha256 j.text = x.sha256 j'.text) : SameText request request' := by
  refine (Call.toJson_eq_iff htools hplain hplain' (Option.isSome_iff_exists.mpr ⟨j', hj'⟩)).mp ?_
  rw [hj, hj', text_injective (hsha j j' hj hj' h)]

/-- The second call is rejected whenever it gets as far as its key, and never succeeds. -/
def Refused (x : Externals) (s : System) (actor : Actor) (call request : Call) : Prop :=
  ∀ ownerId env,
    (call.Admitted actor (env.clock 0) request → env.Faultless →
      (step x s (.call ownerId actor call env)).2 = .mutation (.error .idempotencyKeyReused)) ∧
    ∀ response, (step x s (.call ownerId actor call env)).2 ≠ .mutation (.ok response)

/-- The second call is refused unless the two requests have one text. -/
theorem refused_iff_not_sameText {e : StepRecord} (he : e ∈ historyOf x labels)
    {ownerId : String} {actor actor' : Actor} {call call' request request' : Call} {env : Env}
    {response : MutationResult} (hlabel : e.label = .call ownerId actor call env)
    (hok : e.response = .mutation (.ok response)) (hrequest : call.prepared actor = .ok request)
    (hactor : actor'.actorId = actor.actorId) (htool : call'.toolName = call.toolName)
    (hkey : call'.idempotencyKey = call.idempotencyKey)
    (hrequest' : call'.prepared actor' = .ok request')
    (hsha : CollisionFree x.sha256 request request')
    (hadmits : SameText request request' → ∃ now, call'.Admitted actor' now request') :
    Refused x (runOf x labels) actor' call' request' ↔ ¬ SameText request request' := by
  obtain ⟨j, record, hj, hrecordHash, hrecord⟩ := record_of_success he hlabel hok hrequest
  rw [← hactor, ← htool, ← hkey] at hrecord
  have hplain : request.plainMetadata := by
    rw [(soundStep_of_mem he).taken, hlabel] at hok
    exact plainMetadata_of_success hok hrequest
  have htools : request'.toolName = request.toolName := by
    rw [Call.prepared_toolName hrequest, Call.prepared_toolName hrequest', htool]
  -- the answer where the second call gets as far as its key
  have hanswer : ∀ ownerId' env' j', call'.Admitted actor' (env'.clock 0) request' →
      env'.Faultless → request'.toJson = some j' →
      (step x (runOf x labels) (.call ownerId' actor' call' env')).2 =
        .mutation (recordedAnswer x record (x.sha256 j'.text)) := by
    intro ownerId' env' j' hadmitted hfault hj'
    have hrun : (RemindiService.perform ⟨x, ownerId'⟩ actor' call' env' 0 (runOf x labels).db).map
        Prod.fst = recordedAnswer x record (x.sha256 j'.text) :=
      perform_of_record hfault hadmitted (Call.hash_eq hrequest' hj') hrecord
    rw [← hrun, ← Txn.run_fst]
    rfl
  constructor
  · intro hrefused hsame
    obtain ⟨now, hadmitted⟩ := hadmits hsame
    obtain ⟨j', hj'⟩ := Option.isSome_iff_exists.mp hadmitted.written
    have htext := (Call.toJson_eq_iff htools hplain hadmitted.plainMetadata hadmitted.written).mpr
      hsame
    rw [hj, hj'] at htext
    have hrejected := (hrefused ownerId
      { env with clock := fun _ => now, fault := fun _ => none }).1 hadmitted (fun _ => rfl)
    rw [hanswer _ _ j' hadmitted (fun _ => rfl) hj', Response.mutation.injEq,
      recordedAnswer_reused, hrecordHash, Option.some.inj htext] at hrejected
    exact hrejected rfl
  · intro hdifferent ownerId' env'
    constructor
    · intro hadmitted hfault
      obtain ⟨j', hj'⟩ := Option.isSome_iff_exists.mp hadmitted.written
      rw [hanswer _ _ j' hadmitted hfault hj', Response.mutation.injEq, recordedAnswer_reused]
      intro hhash
      exact hdifferent (sameText_of_hash hj hj' htools hplain hadmitted.plainMetadata hsha
        (hrecordHash.symm.trans hhash))
    · intro response' hsuccess
      obtain ⟨hash', hhash', hcase⟩ := call_success hsuccess
      obtain ⟨j', hj', rfl⟩ := Call.hash_ok hhash' hrequest'
      have hplain' := plainMetadata_of_success hsuccess hrequest'
      refine hdifferent (sameText_of_hash hj hj' htools hplain hplain' hsha ?_)
      rcases hcase with ⟨-, -, ⟨record', hrecord', hrecordHash', -⟩, -⟩ | hexecuted
      · obtain rfl := Option.some.inj (hrecord.symm.trans hrecord')
        rw [← hrecordHash, hrecordHash']
      · have hfree := hexecuted.answered.1
        rw [hrecord] at hfree
        cases hfree

/-- The same request under other bounds. -/
def Call.under (maximumFutureSkew maximumHorizon : Nat) : Call → Call
  | .complete request _ => .complete request maximumFutureSkew
  | .snooze request _ => .snooze request maximumHorizon
  | call => call

/-- The items, links and evidence of a database. -/
def Db.items (db : Db) :
    Table Remindi.id × Table LinkRow.primaryKey × Table CompletionEvidence.remindiId :=
  (db.remindi, db.links, db.evidence)

/-- Somewhere the two requests leave different items, for one caller, one
environment and one configuration. -/
def DifferentEffects (x : Externals) (request request' : Call) : Prop :=
  ∃ s ownerId actor env skew horizon,
    (step x s (.call ownerId actor (request.under skew horizon) env)).1.db.items ≠
      (step x s (.call ownerId actor (request'.under skew horizon) env)).1.db.items

theorem SameRequest.sameEffects {request request' : Call} (h : SameRequest request request') :
    ¬ DifferentEffects x request request' := by
  rintro ⟨s, ownerId, actor, env, skew, horizon, hne⟩
  refine hne ?_
  cases h <;> rfl

/-- Two updates that agree once a cleared field is read as one left alone. -/
def ClearedAlike (request request' : Call) : Prop :=
  ∃ update update', request = .update update ∧ request' = .update update' ∧
    update.collapsed = update'.collapsed

theorem sameText_iff_clearedAlike {request request' : Call}
    (h : DifferentEffects x request request') :
    SameText request request' ↔ ClearedAlike request request' := by
  constructor
  · rintro (hsame | hcollapsed)
    · exact absurd h hsame.sameEffects
    · exact ⟨_, _, rfl, rfl, hcollapsed⟩
  · rintro ⟨update, update', rfl, rfl, hcollapsed⟩
    exact .cleared hcollapsed

/-- **A key used again for a request of another effect is refused exactly when**
the two are not updates that differ only in clearing a field against leaving it alone. -/
theorem reused_key_refused_iff {e : StepRecord} (he : e ∈ historyOf x labels)
    {ownerId : String} {actor actor' : Actor} {call call' request request' : Call} {env : Env}
    {response : MutationResult} (hlabel : e.label = .call ownerId actor call env)
    (hok : e.response = .mutation (.ok response)) (hrequest : call.prepared actor = .ok request)
    (hactor : actor'.actorId = actor.actorId) (htool : call'.toolName = call.toolName)
    (hkey : call'.idempotencyKey = call.idempotencyKey)
    (hrequest' : call'.prepared actor' = .ok request')
    (hsha : CollisionFree x.sha256 request request')
    (heffects : DifferentEffects x request request') :
    Refused x (runOf x labels) actor' call' request' ↔ ¬ ClearedAlike request request' := by
  rw [refused_iff_not_sameText he hlabel hok hrequest hactor htool hkey hrequest' hsha,
    sameText_iff_clearedAlike heffects]
  intro hsame
  obtain ⟨update, update', rfl, rfl, hcollapsed⟩ := (sameText_iff_clearedAlike heffects).mp hsame
  obtain ⟨j, record, hj, -⟩ := record_of_success he hlabel hok hrequest
  have hj' : Call.toJson (.update update') = some j := by
    rw [← hj]
    exact ((UpdateRequest.toJson_eq_iff (Option.isSome_iff_exists.mpr ⟨j, hj⟩)).mpr hcollapsed).symm
  exact ⟨env.clock 0, hrequest', Option.isSome_iff_exists.mpr ⟨j, hj'⟩, rfl⟩

/-! ## Samples -/

def Sample.withInstructions : AddRequest :=
  { Sample.everyMinute with instructions := some "instructions" }

def Sample.rename (message : String) : UpdateRequest :=
  { Sample.update 1 "update-1" with message := some message }

/-- The same request, clearing the instructions too. -/
def Sample.renameAndClear : UpdateRequest :=
  { Sample.rename "renamed" with instructions := some none }

/-- A reminder is added, and renamed. -/
def Sample.addedRun : List Label := [Sample.call (.add Sample.withInstructions) 500 0]

def Sample.renamedRun : List Label :=
  Sample.addedRun ++ [Sample.call (.update (Sample.rename "renamed")) 600 1]

def Response.succeeded : Response → Option MutationResult
  | .mutation (.ok response) => some response
  | _ => none

theorem Response.eq_of_succeeded {response : Response} {result : MutationResult}
    (h : response.succeeded = some result) : response = .mutation (.ok result) := by
  unfold Response.succeeded at h
  split at h
  · rw [Option.some.inj h]
  · cases h

/-- What an item is left with by an update at second 700. -/
def Sample.leftBy (request : UpdateRequest) : Option (String × Option String) :=
  ((step Sample.externals (runOf Sample.externals Sample.addedRun)
    (Sample.call (.update request) 700 2)).1.db.remindi.find? (Sample.uuid 0)).map
      fun row => (row.message, row.instructions)

theorem Sample.differentEffects {request request' : UpdateRequest}
    (h : Sample.leftBy request ≠ Sample.leftBy request') :
    DifferentEffects Sample.externals (.update request) (.update request') := by
  refine ⟨runOf Sample.externals Sample.addedRun, "owner", Sample.agent, Sample.env 700 2, 0, 0,
    fun hitems => h ?_⟩
  unfold Sample.leftBy
  exact congrArg (fun items => (items.1.find? (Sample.uuid 0)).map
    fun row => (row.message, row.instructions)) hitems

theorem Sample.renamed_succeeded :
    ∃ response, (entry (step Sample.externals) (runOf Sample.externals Sample.addedRun)
      (Sample.call (.update (Sample.rename "renamed")) 600 1)).response =
        .mutation (.ok response) := by
  have hsucceeded : ((step Sample.externals (runOf Sample.externals Sample.addedRun)
      (Sample.call (.update (Sample.rename "renamed")) 600 1)).2.succeeded).isSome = true := by
    decide +kernel
  obtain ⟨response, hresponse⟩ := Option.isSome_iff_exists.mp hsucceeded
  exact ⟨response, Response.eq_of_succeeded hresponse⟩

theorem Sample.mem_renamed :
    entry (step Sample.externals) (runOf Sample.externals Sample.addedRun)
      (Sample.call (.update (Sample.rename "renamed")) 600 1) ∈
        historyOf Sample.externals Sample.renamedRun := by
  unfold Sample.renamedRun historyOf
  rw [history_append]
  exact List.mem_append_right _ (List.mem_singleton.mpr rfl)

/-- Renamed otherwise under the same key: refused. -/
theorem sample_rename_refused :
    Refused Sample.externals (runOf Sample.externals Sample.renamedRun) Sample.agent
      (.update (Sample.rename "otherwise")) (.update (Sample.rename "otherwise")) := by
  obtain ⟨response, hok⟩ := Sample.renamed_succeeded
  have hsha : CollisionFree Sample.externals.sha256 (.update (Sample.rename "renamed"))
      (.update (Sample.rename "otherwise")) :=
    fun _ _ _ _ htext => htext
  have heffects : DifferentEffects Sample.externals (.update (Sample.rename "renamed"))
      (.update (Sample.rename "otherwise")) :=
    Sample.differentEffects (by decide +kernel)
  have hiff := @reused_key_refused_iff Sample.externals Sample.renamedRun _ Sample.mem_renamed
    "owner" Sample.agent Sample.agent (.update (Sample.rename "renamed"))
    (.update (Sample.rename "otherwise")) (.update (Sample.rename "renamed"))
    (.update (Sample.rename "otherwise")) (Sample.env 600 1) response rfl hok rfl rfl rfl rfl rfl
    hsha heffects
  refine hiff.mpr ?_
  rintro ⟨update, update', heq, heq', hcollapsed⟩
  cases heq
  cases heq'
  exact absurd (congrArg UpdateRequest.message hcollapsed) (by decide)

def Sample.answered (result : MutationResult) : Nat × String × Option String :=
  (result.remindi.version, result.remindi.message, result.remindi.instructions)

/-- Renamed alike and the instructions cleared, under the same key: answered as
if it were the first request, which leaves them. -/
theorem sample_clear_replayed :
    DifferentEffects Sample.externals (.update (Sample.rename "renamed"))
        (.update Sample.renameAndClear) ∧
      (Call.update Sample.renameAndClear).prepared Sample.agent =
        .ok (.update Sample.renameAndClear) ∧
      ((step Sample.externals (runOf Sample.externals Sample.renamedRun)
        (Sample.call (.update Sample.renameAndClear) 700 2)).2.succeeded).map Sample.answered =
      ((entry (step Sample.externals) (runOf Sample.externals Sample.addedRun)
        (Sample.call (.update (Sample.rename "renamed")) 600 1)).response.succeeded).map
          Sample.answered ∧
      ¬ Refused Sample.externals (runOf Sample.externals Sample.renamedRun) Sample.agent
        (.update Sample.renameAndClear) (.update Sample.renameAndClear) := by
  have hsame : ((step Sample.externals (runOf Sample.externals Sample.renamedRun)
        (Sample.call (.update Sample.renameAndClear) 700 2)).2.succeeded).map Sample.answered =
      ((entry (step Sample.externals) (runOf Sample.externals Sample.addedRun)
        (Sample.call (.update (Sample.rename "renamed")) 600 1)).response.succeeded).map
          Sample.answered := by
    decide +kernel
  refine ⟨Sample.differentEffects (by decide +kernel), rfl, hsame, fun hrefused => ?_⟩
  obtain ⟨first, hok⟩ := Sample.renamed_succeeded
  rw [hok] at hsame
  obtain ⟨response, hresponse, -⟩ := Option.map_eq_some_iff.mp hsame
  exact (hrefused "owner" (Sample.env 700 2)).2 response (Response.eq_of_succeeded hresponse)

end RemindiCore
