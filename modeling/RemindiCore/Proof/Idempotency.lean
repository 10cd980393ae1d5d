import RemindiCore.Proof.VersionChain

/-!
# Exactly-once execution of a call

A call that succeeds has executed once and left a record under its key, or it
was answered with what is read of an earlier one's record and changed nothing.
Records are never removed or replaced, so of all calls with one key and one
request at most one executes, whatever happens between them.
-/

namespace RemindiCore

open CivilTime KeyedTable Machine Transaction

variable {x : Externals} {labels : List Label}

/-! ## One call -/

/-- The record of a call: its request and the response that is stored for it. -/
def Answered (db : Db) (actor : Actor) (call : Call) (hash : String)
    (stored : MutationResult) : Prop :=
  ∃ record, db.idempotency.find? (actor.actorId, call.toolName, call.idempotencyKey) = some record ∧
    record.requestHash = hash ∧ record.response = stored

/-- How many evidence rows a call leaves behind. -/
def Call.evidenceRows : Call → Nat
  | .complete _ _ => 1
  | .add _ | .snooze _ _ | .cancel _ | .update _ => 0

/-- The call has changed one item by one version, with one event, the evidence
of a completion and one record. -/
structure ExecutedOnce (db db' : Db) (call : Call) (response : MutationResult) : Prop where
  only : Only response.remindi.id db db'
  version : (db'.remindi.find? response.remindi.id).map (·.version) =
    some (((db.remindi.find? response.remindi.id).map (·.version)).getD 0 + 1)
  event : ∃ event, db'.events.rows = db.events.rows ++ [event] ∧
    event.remindiId = response.remindi.id
  evidence : ∃ new, db'.evidence.rows = db.evidence.rows ++ new ∧
    new.length = call.evidenceRows ∧ ∀ row ∈ new, row.remindiId = response.remindi.id
  record : ∃ record, db'.idempotency.rows = db.idempotency.rows ++ [record] ∧
    record.response = response

theorem Operates.evidenceRows {actor : Actor} {now : OffsetDateTime} {prior : Remindi} {call : Call}
    {mutation : Mutation} (h : Operates actor now prior call mutation) :
    mutation.evidence.toList.length = call.evidenceRows := by
  cases h with
  | complete prepared validated ok =>
    rw [(completeItem_ok ok).2.1]
    rfl
  | snooze prepared ok =>
    rw [(snoozeItem_ok ok).2.1]
    rfl
  | cancel prepared ok =>
    rw [(cancelItem_ok ok).2.1]
    rfl
  | update prepared ok =>
    obtain ⟨_, _, _, -, -, -, hnone⟩ := updateItem_ok ok
    rw [hnone]
    rfl

section

variable {service : RemindiService} {actor : Actor} {hash : String} {db db' : Db} {env : Env}
  {call : Call} {response : MutationResult}

theorem Executed.once (h : Executed service actor hash db db' env call response) :
    ExecutedOnce db db' call response := by
  cases h with
  | @added raw request response prepared added =>
    obtain ⟨row, hevents, hid, -⟩ := added.event
    obtain ⟨record, hinsert, hrecord⟩ := added.record
    have hview := added.recorded
    obtain ⟨id, nextFireAt, now, -, hitem⟩ := added.built
    refine ⟨added.only, ?_, ⟨row, hevents, hid⟩, ⟨[], by rw [added.evidence, List.append_nil], rfl,
      by simp⟩, ⟨record, (Table.insert?_eq_some hinsert).2, hrecord.response⟩⟩
    rw [show db'.remindi.find? _ = _ from hview.rowAfter,
      show db.remindi.find? _ = _ from hview.rowBefore, hitem]
    rfl
  | @mutated call id version prior mutation target operates mutated =>
    have hid := operates.sameItem.id
    obtain ⟨row, hevents, hrow, -⟩ := mutated.event
    obtain ⟨new, hevidence, hlength, hnew⟩ := mutated.evidence
    obtain ⟨record, hinsert, hrecord⟩ := mutated.record
    have hview := mutated.recorded hid
    refine ⟨?_, ?_, ⟨row, hevents, hrow.trans hid.symm⟩,
      ⟨new, hevidence, hlength.trans operates.evidenceRows, fun e he => (hnew e he).trans hid.symm⟩,
      ⟨record, (Table.insert?_eq_some hinsert).2, hrecord.response⟩⟩
    · show Only mutation.item.id db db'
      rw [hid]
      exact mutated.only hid
    · show (db'.remindi.find? mutation.item.id).map _ = some (((db.remindi.find? _).map _).getD 0 + 1)
      rw [hid, show db'.remindi.find? _ = _ from hview.rowAfter,
        show db.remindi.find? _ = _ from hview.rowBefore]
      exact congrArg some operates.version

/-- An executed call found its key free, and left its record there. -/
theorem Executed.answered (h : Executed service actor hash db db' env call response) :
    db.idempotency.find? (actor.actorId, call.toolName, call.idempotencyKey) = none ∧
      Answered db' actor call hash response := by
  have hanswered : ∀ {toolName key : String} {result : MutationResult} {record : IdempotencyRecord},
      db.idempotency.insert? record = some db'.idempotency →
      RecordRow actor toolName key hash result record →
      db.idempotency.find? (actor.actorId, toolName, key) = none ∧
        ∃ record, db'.idempotency.find? (actor.actorId, toolName, key) = some record ∧
          record.requestHash = hash ∧ record.response = result := by
    intro toolName key result record hinsert hrecord
    rw [← hrecord.primaryKey]
    refine ⟨(Table.insert?_eq_some hinsert).1, record, ?_, hrecord.requestHash, hrecord.response⟩
    rw [Table.find?_insert? hinsert, if_pos rfl]
  cases h with
  | added prepared added =>
    obtain ⟨record, hinsert, hrecord⟩ := added.record
    rw [(prepareAdd_ok prepared).1] at hrecord
    exact hanswered hinsert hrecord
  | mutated target operates mutated =>
    obtain ⟨record, hinsert, hrecord⟩ := mutated.record
    exact hanswered hinsert hrecord

end

/-! ## Steps that are calls -/

section

variable {s : System} {ownerId : String} {actor : Actor} {call : Call} {env : Env}

/-- **A call that fails changes nothing at all.** -/
theorem call_error {e : ServiceError}
    (h : (step x s (.call ownerId actor call env)).2 = .mutation (.error e)) :
    (step x s (.call ownerId actor call env)).1 = s := by
  have hstep : step x s (.call ownerId actor call env) =
      ({ s with db := ((RemindiService.perform ⟨x, ownerId⟩ actor call).run env s.db).2 },
        .mutation ((RemindiService.perform ⟨x, ownerId⟩ actor call).run env s.db).1) := rfl
  rw [hstep] at h ⊢
  rcases hrun : (RemindiService.perform ⟨x, ownerId⟩ actor call).run env s.db with ⟨_ | response, db'⟩
  · rw [Txn.run_error hrun]
  · rw [hrun] at h
    cases h

/-- A call that succeeds has read the response of a record, or it has executed. -/
theorem call_success {response : MutationResult}
    (h : (step x s (.call ownerId actor call env)).2 = .mutation (.ok response)) :
    ∃ hash, call.hash x actor = .ok hash ∧
      ((step x s (.call ownerId actor call env)).1 = s ∧
          (∃ stored, Answered s.db actor call hash stored ∧ stored.read x = some response) ∨
        Executed ⟨x, ownerId⟩ actor hash s.db (step x s (.call ownerId actor call env)).1.db env call
          response) := by
  have hstep : step x s (.call ownerId actor call env) =
      ({ s with db := ((RemindiService.perform ⟨x, ownerId⟩ actor call).run env s.db).2 },
        .mutation ((RemindiService.perform ⟨x, ownerId⟩ actor call).run env s.db).1) := rfl
  rw [hstep] at h ⊢
  rcases hrun : (RemindiService.perform ⟨x, ownerId⟩ actor call).run env s.db with ⟨e | result, db'⟩
  · rw [hrun] at h
    cases h
  · rw [hrun] at h
    cases h
    obtain ⟨m, hok⟩ := Txn.run_ok.mp hrun
    obtain ⟨hash, hhash, hreplayed | hexecuted⟩ := perform_ok hok
    · obtain rfl := hreplayed.unchanged
      obtain ⟨record, hrecord, hrequest, hread⟩ := hreplayed.record
      exact ⟨hash, hhash, Or.inl ⟨rfl, record.response, ⟨record, hrecord, hrequest, rfl⟩, hread⟩⟩
    · exact ⟨hash, hhash, Or.inr hexecuted⟩

/-- A record stays as it is. -/
theorem step_keeps_record (label : Label) {key : String × String × String}
    {record : IdempotencyRecord} (h : s.db.idempotency.find? key = some record) :
    (step x s label).1.db.idempotency.find? key = some record := by
  by_cases hcall : ∃ ownerId actor call env, label = .call ownerId actor call env
  · obtain ⟨ownerId, actor, call, env, rfl⟩ := hcall
    show (Txn.run (RemindiService.perform ⟨x, ownerId⟩ actor call) env s.db).2.idempotency.find? key
      = some record
    have hinserted : ∀ {db' : Db} {new : IdempotencyRecord},
        s.db.idempotency.insert? new = some db'.idempotency →
        db'.idempotency.find? key = some record := by
      intro db' new hinsert
      rw [Table.find?_insert? hinsert, if_neg]
      · exact h
      · intro hkey
        rw [← hkey, (Table.insert?_eq_some hinsert).1] at h
        cases h
    rcases hrun : (RemindiService.perform ⟨x, ownerId⟩ actor call).run env s.db with
      ⟨_ | response, db'⟩
    · rw [Txn.run_error hrun]
      exact h
    obtain ⟨m, hok⟩ := Txn.run_ok.mp hrun
    obtain ⟨hash, -, hreplayed | hexecuted⟩ := perform_ok hok
    · rw [← hreplayed.unchanged]
      exact h
    cases hexecuted with
    | added prepared added =>
      obtain ⟨new, hinsert, -⟩ := added.record
      exact hinserted hinsert
    | mutated target operates mutated =>
      obtain ⟨new, hinsert, -⟩ := mutated.record
      exact hinserted hinsert
  · refine step_preserves (I := fun db => db.idempotency.find? key = some record) label
      (fun hpersisted hdb => ?_) (fun ownerId actor call env e => hcall ⟨_, _, _, _, e⟩) h
    rw [hpersisted.idempotency]
    exact hdb

end

/-! ## Duplicates -/

/-- Calls with one request; the bounds of complete and snooze are configuration. -/
inductive SameRequest : Call → Call → Prop
  | add (request : AddRequest) : SameRequest (.add request) (.add request)
  | complete (request : CompleteRequest) (skew skew' : Nat) :
      SameRequest (.complete request skew) (.complete request skew')
  | snooze (request : SnoozeRequest) (horizon horizon' : Nat) :
      SameRequest (.snooze request horizon) (.snooze request horizon')
  | cancel (request : CancelRequest) : SameRequest (.cancel request) (.cancel request)
  | update (request : UpdateRequest) : SameRequest (.update request) (.update request)

/-- Two steps in which one actor makes one request under one key. -/
def Duplicates (e e' : StepRecord) : Prop :=
  ∃ ownerId actor call env ownerId' actor' call' env',
    e.label = .call ownerId actor call env ∧ e'.label = .call ownerId' actor' call' env' ∧
      actor'.actorId = actor.actorId ∧ SameRequest call call'

theorem SameRequest.key {call call' : Call} (h : SameRequest call call') :
    call'.toolName = call.toolName ∧ call'.idempotencyKey = call.idempotencyKey := by
  cases h <;> exact ⟨rfl, rfl⟩

/-- A step that executes stores the response it gives; any other gives what it
reads of the stored one. -/
def Gives (x : Externals) (e : StepRecord) (stored response : MutationResult) : Prop :=
  e.after ≠ e.before ∧ response = stored ∨ e.after = e.before ∧ stored.read x = some response

/-- The response of an execution is stored. -/
theorem Executed.changed {ownerId : String} {actor : Actor} {call : Call} {env : Env}
    {hash : String} {s s' : System} {response : MutationResult}
    (h : Executed ⟨x, ownerId⟩ actor hash s.db s'.db env call response) : s' ≠ s := by
  rintro rfl
  obtain ⟨hfree, record, hrecord, -⟩ := h.answered
  rw [hfree] at hrecord
  cases hrecord

/-- What a step has answered stays on record. -/
theorem answered_after {e : StepRecord} {ownerId : String} {actor : Actor} {call : Call} {env : Env}
    {response : MutationResult} (he : e = entry (step x) e.before e.label)
    (hlabel : e.label = .call ownerId actor call env) (hok : e.response = .mutation (.ok response)) :
    ∃ hash stored, call.hash x actor = .ok hash ∧ Answered e.after.db actor call hash stored ∧
      Gives x e stored response := by
  have hafter : e.after = (step x e.before (.call ownerId actor call env)).1 := by
    rw [← hlabel]
    exact congrArg Entry.after he
  rw [he, hlabel] at hok
  obtain ⟨hash, hhash, ⟨hsame, stored, hanswered, hread⟩ | hexecuted⟩ := call_success hok
  · rw [hsame] at hafter
    rw [← hafter] at hanswered
    exact ⟨hash, stored, hhash, hanswered, Or.inr ⟨hafter, hread⟩⟩
  · rw [← hafter] at hexecuted
    exact ⟨hash, response, hhash, hexecuted.answered.2, Or.inl ⟨hexecuted.changed, rfl⟩⟩

/-- Every call that has succeeded is on record. -/
def OnRecord (x : Externals) (history : List StepRecord) (s : System) : Prop :=
  ∀ e ∈ history, ∀ ownerId actor call env response,
    e.label = .call ownerId actor call env → e.response = .mutation (.ok response) →
      ∃ hash stored, call.hash x actor = .ok hash ∧ Answered s.db actor call hash stored ∧
        Gives x e stored response

/-- A later duplicate that succeeds reads the response that the first one has stored,
or has read too, and changes nothing. -/
def AnsweredOnce (x : Externals) (e e' : StepRecord) : Prop :=
  Duplicates e e' → ∀ response response', e.response = .mutation (.ok response) →
    e'.response = .mutation (.ok response') →
      e'.after = e'.before ∧ ∃ stored, Gives x e stored response ∧ stored.read x = some response'

theorem OnRecord.step {history : List StepRecord} {s : System} (h : OnRecord x history s)
    (label : Label) :
    OnRecord x (history ++ [entry (RemindiCore.step x) s label]) (RemindiCore.step x s label).1 := by
  intro e he ownerId actor call env response hlabel hok
  rcases List.mem_append.mp he with he | he
  · obtain ⟨hash, stored, hhash, ⟨record, hrecord, h⟩, hgives⟩ :=
      h e he ownerId actor call env response hlabel hok
    exact ⟨hash, stored, hhash, ⟨record, step_keeps_record label hrecord, h⟩, hgives⟩
  · obtain rfl := List.mem_singleton.mp he
    exact answered_after rfl hlabel hok

theorem OnRecord.answeredOnce {history : List StepRecord} {s : System} (h : OnRecord x history s)
    (label : Label) {e : StepRecord} (he : e ∈ history) :
    AnsweredOnce x e (entry (RemindiCore.step x) s label) := by
  rintro ⟨ownerId, actor, call, env, ownerId', actor', call', env', hlabel, hlabel', hactor, hsame⟩
    response response' hok hok'
  obtain ⟨hash, stored, hhash, ⟨record, hrecord, hrequest, hstored⟩, hgives⟩ :=
    h e he ownerId actor call env response hlabel hok
  obtain rfl : label = .call ownerId' actor' call' env' := hlabel'
  obtain ⟨htool, hkey⟩ := hsame.key
  obtain ⟨hash', -, ⟨hunchanged, stored', ⟨record', hrecord', -, hstored'⟩, hread⟩ | hexecuted⟩ :=
    call_success (x := x) (s := s) hok'
  · refine ⟨hunchanged, stored, hgives, ?_⟩
    rw [hactor, htool, hkey] at hrecord'
    rw [← hstored, ← Option.some.inj (hrecord'.symm.trans hrecord), hstored']
    exact hread
  · -- an execution needs the key free
    have hfree := hexecuted.answered.1
    rw [hactor, htool, hkey, hrecord] at hfree
    cases hfree

theorem answeredOnce_run : OnRecord x (historyOf x labels) (runOf x labels) ∧
    (historyOf x labels).Pairwise (AnsweredOnce x) := by
  refine run_induction (P := fun history s => OnRecord x history s ∧
    history.Pairwise (AnsweredOnce x)) ⟨by simp [OnRecord], List.Pairwise.nil⟩ ?_ labels
  rintro history s label ⟨hrecord, hpairwise⟩
  refine ⟨hrecord.step label, List.pairwise_append.mpr ⟨hpairwise, List.pairwise_singleton _ _, ?_⟩⟩
  intro e he e' he'
  obtain rfl := List.mem_singleton.mp he'
  exact hrecord.answeredOnce label he

/-! ## The theorem -/

/-- **Exactly-once execution.**  In every run: a call that succeeds has executed
once or changed nothing; of the duplicates of a call only the first success can
have executed, and every later one gets the response that was stored then, as it
is read back, and changes nothing; and a call that fails can be left out of the
run. -/
theorem idempotent_exactly_once (x : Externals) (labels : List Label) :
    (∀ e ∈ historyOf x labels, ∀ ownerId actor call env response,
        e.label = .call ownerId actor call env → e.response = .mutation (.ok response) →
          e.after = e.before ∨ ExecutedOnce e.before.db e.after.db call response) ∧
      (historyOf x labels).Pairwise (AnsweredOnce x) ∧
      ∀ ks ownerId actor call env ls e, labels = ks ++ .call ownerId actor call env :: ls →
        (step x (runOf x ks) (.call ownerId actor call env)).2 = .mutation (.error e) →
          (step x (runOf x ks) (.call ownerId actor call env)).1 = runOf x ks ∧
            runOf x labels = runOf x (ks ++ ls) := by
  refine ⟨?_, answeredOnce_run.2, ?_⟩
  · intro e he ownerId actor call env response hlabel hok
    have htaken := (soundStep_of_mem he).taken
    have hafter : e.after = (step x e.before e.label).1 := congrArg Entry.after htaken
    have hresponse : e.response = (step x e.before e.label).2 := congrArg Entry.response htaken
    rw [hafter]
    rw [hresponse] at hok
    rw [hlabel] at hok ⊢
    obtain ⟨hash, -, ⟨hunchanged, -⟩ | hexecuted⟩ := call_success hok
    · exact Or.inl hunchanged
    · exact Or.inr hexecuted.once
  · rintro ks ownerId actor call env ls e rfl herror
    refine ⟨call_error herror, ?_⟩
    unfold runOf at herror ⊢
    rw [final_append, final_append, final, call_error herror]

end RemindiCore
