import RemindiCore.Proof.KeyReuse

/-!
# The hash of the canonical request

`canonical` says what the values of a request are once they are stored: texts
without the blanks around them, instants in UTC cut off to milliseconds, a
content hash in its one spelling.  Four of the five tools hash exactly this
(`prepareAdd_canonical`, …).  `complete` hashes its evidence as it came and
brings it into this form afterwards, so there two requests share a hash only
when they spell the evidence alike.  And a response is not read back when the
parameters of its trigger lie too deep (`ReadsBack`).  These two conditions are
exact (`canonical_requests_replayed_iff`).
-/

namespace RemindiCore

open CivilTime JsonText Transaction Machine

/-! ## Canonical requests -/

def canonicalContext (value : Option String) : Option String :=
  (value.map trim).filter (· ≠ "")

def AddRequest.canonical (request : AddRequest) : AddRequest :=
  { request with
    projectId := trim request.projectId
    message := trim request.message
    taskId := request.taskId.map trim
    sessionId := canonicalContext request.sessionId
    taskLineageId := canonicalContext request.taskLineageId
    trigger := normalizeTrigger request.trigger
    recurrence := request.recurrence.map normalizeRecurrence }

def SnoozeRequest.canonical (request : SnoozeRequest) : SnoozeRequest :=
  { request with
    reason := trim request.reason
    snoozeUntil := normalizeInstant request.snoozeUntil }

def CancelRequest.canonical (request : CancelRequest) : CancelRequest :=
  { request with reason := trim request.reason }

def UpdateRequest.canonical (request : UpdateRequest) : UpdateRequest :=
  { request with
    reason := trim request.reason
    message := request.message.map trim
    trigger := request.trigger.map normalizeTrigger
    recurrence := request.recurrence.map fun recurrence => recurrence.map normalizeRecurrence }

/-- The spelling of a content hash that is stored. -/
def canonicalContentHash (hash : String) : String := (normalizeHash hash).toOption.getD hash

def EvidenceInput.canonical (input : EvidenceInput) : EvidenceInput :=
  { input with
    summary := trim input.summary
    contentHash := input.contentHash.map canonicalContentHash
    observedAt := normalizeInstant input.observedAt }

def CompleteRequest.canonical (request : CompleteRequest) : CompleteRequest :=
  { request with evidence := request.evidence.canonical }

/-- Two calls of one tool with the same canonical request. -/
inductive SameCanonical : Call → Call → Prop
  | add {a b : AddRequest} (h : a.canonical = b.canonical) : SameCanonical (.add a) (.add b)
  | complete {a b : CompleteRequest} (h : a.canonical = b.canonical) (skew skew' : Nat) :
      SameCanonical (.complete a skew) (.complete b skew')
  | snooze {a b : SnoozeRequest} (h : a.canonical = b.canonical) (horizon horizon' : Nat) :
      SameCanonical (.snooze a horizon) (.snooze b horizon')
  | cancel {a b : CancelRequest} (h : a.canonical = b.canonical) :
      SameCanonical (.cancel a) (.cancel b)
  | update {a b : UpdateRequest} (h : a.canonical = b.canonical) :
      SameCanonical (.update a) (.update b)

/-- Two completions spell the summary, the content hash and the instant of their
evidence alike; other calls carry none. -/
def SpelledAlike : Call → Call → Prop
  | .complete a _, .complete b _ =>
    a.evidence.summary = b.evidence.summary ∧ a.evidence.contentHash = b.evidence.contentHash ∧
      a.evidence.observedAt = b.evidence.observedAt
  | _, _ => True

theorem SameCanonical.tool {call call' : Call} (h : SameCanonical call call') :
    call'.toolName = call.toolName ∧ call'.idempotencyKey = call.idempotencyKey := by
  cases h with
  | add h => exact ⟨rfl, (congrArg AddRequest.idempotencyKey h).symm⟩
  | complete h skew skew' => exact ⟨rfl, (congrArg CompleteRequest.idempotencyKey h).symm⟩
  | snooze h horizon horizon' => exact ⟨rfl, (congrArg SnoozeRequest.idempotencyKey h).symm⟩
  | cancel h => exact ⟨rfl, (congrArg CancelRequest.idempotencyKey h).symm⟩
  | update h => exact ⟨rfl, (congrArg UpdateRequest.idempotencyKey h).symm⟩

/-! ## What is hashed -/

section

variable {actor actor' : Actor}

theorem requiredText_ok {value text : String} {maximum : Nat}
    (h : requiredText value maximum = .ok text) : text = trim value := by
  unfold requiredText at h
  dsimp only at h
  split at h
  · cases h
  · exact (Except.ok.inj h).symm

theorem mapM_requiredText_ok {value text : Option String} {maximum : Nat}
    (h : (value.mapM fun value => requiredText value maximum) = .ok text) :
    text = value.map trim := by
  cases value with
  | none =>
    cases h
    rfl
  | some value =>
    obtain ⟨trimmed, htrimmed, rfl⟩ := except_map_ok.mp h
    rw [requiredText_ok htrimmed]
    rfl

theorem optionalContext_ok {value text : Option String} {maximum : Nat}
    (h : optionalContext value maximum = .ok text) : text = canonicalContext value := by
  unfold optionalContext at h
  cases value with
  | none => exact (Except.ok.inj h).symm
  | some value =>
    dsimp only at h
    split at h
    · cases h
    · split at h
      · next hblank =>
        rw [← Except.ok.inj h, canonicalContext, Option.map_some, hblank]
        rfl
      · next hblank =>
        rw [← Except.ok.inj h, canonicalContext, Option.map_some,
          Option.filter_some_pos (by simpa using hblank)]

theorem optionalBounded_ok {value text : Option String} {maximum : Nat}
    (h : optionalBounded value maximum = .ok text) : text = value := by
  unfold optionalBounded at h
  cases value with
  | none => exact (Except.ok.inj h).symm
  | some value =>
    dsimp only at h
    split at h
    · exact (Except.ok.inj h).symm
    · cases h

theorem mapM_optionalBounded_ok {value text : Option (Option String)} {maximum : Nat}
    (h : (value.mapM fun value => optionalBounded value maximum) = .ok text) : text = value := by
  cases value with
  | none => exact (Except.ok.inj h).symm
  | some value =>
    obtain ⟨bounded, hbounded, rfl⟩ := except_map_ok.mp h
    rw [optionalBounded_ok hbounded]

theorem prepareAdd_canonical {raw request : AddRequest} (h : prepareAdd actor raw = .ok request) :
    request = raw.canonical := by
  unfold prepareAdd at h
  simp only [except_bind_ok] at h
  obtain ⟨_, -, _, -, projectId, hproject, message, hmessage, taskId, htask, instructions, hinstr,
    sessionId, hsession, lineage, hlineage, _, -, _, -, _, -, _, -, _, -, h⟩ := h
  rw [requiredText_ok hproject, requiredText_ok hmessage, mapM_requiredText_ok htask,
    optionalBounded_ok hinstr, optionalContext_ok hsession, optionalContext_ok hlineage] at h
  exact (Except.ok.inj h).symm

theorem prepareSnooze_canonical {raw request : SnoozeRequest}
    (h : prepareSnooze actor raw = .ok request) : request = raw.canonical := by
  unfold prepareSnooze at h
  simp only [except_bind_ok] at h
  obtain ⟨_, -, _, -, _, -, reason, hreason, h⟩ := h
  rw [requiredText_ok hreason] at h
  exact (Except.ok.inj h).symm

theorem prepareCancel_canonical {raw request : CancelRequest}
    (h : prepareCancel actor raw = .ok request) : request = raw.canonical := by
  unfold prepareCancel at h
  simp only [except_bind_ok] at h
  obtain ⟨_, -, _, -, _, -, reason, hreason, h⟩ := h
  rw [requiredText_ok hreason] at h
  exact (Except.ok.inj h).symm

theorem prepareUpdate_canonical {raw request : UpdateRequest}
    (h : prepareUpdate actor raw = .ok request) : request = raw.canonical := by
  unfold prepareUpdate at h
  simp only [except_bind_ok] at h
  obtain ⟨_, -, _, -, _, -, reason, hreason, _, -, message, hmessage, instructions, hinstr, _, -, _,
    -, _, -, _, -, h⟩ := h
  rw [requiredText_ok hreason, mapM_requiredText_ok hmessage, mapM_optionalBounded_ok hinstr] at h
  exact (Except.ok.inj h).symm

/-- `complete` hashes its request as it came. -/
theorem prepareComplete_raw {raw request : CompleteRequest}
    (h : prepareComplete actor raw = .ok request) : request = raw := by
  unfold prepareComplete at h
  simp only [except_bind_ok] at h
  obtain ⟨_, -, _, -, _, -, note, hnote, h⟩ := h
  rw [optionalBounded_ok hnote] at h
  exact (Except.ok.inj h).symm

/-- Completions with one canonical form that spell the evidence alike are one request. -/
theorem CompleteRequest.eq_of_spelled {a b : CompleteRequest} (h : a.canonical = b.canonical)
    (hspelled : a.evidence.summary = b.evidence.summary ∧
      a.evidence.contentHash = b.evidence.contentHash ∧
      a.evidence.observedAt = b.evidence.observedAt) : a = b := by
  obtain ⟨_, _, ⟨_, _, _, _, _, _, _⟩, _, _⟩ := a
  obtain ⟨_, _, ⟨_, _, _, _, _, _, _⟩, _, _⟩ := b
  obtain ⟨hsummary, hhash, hobserved⟩ := hspelled
  simp only [CompleteRequest.canonical, EvidenceInput.canonical, CompleteRequest.mk.injEq,
    EvidenceInput.mk.injEq] at h hsummary hhash hobserved ⊢
  obtain ⟨hid, hversion, ⟨htype, -, huri, -, -, hmetadata, hsource⟩, hnote, hkey⟩ := h
  exact ⟨hid, hversion, ⟨htype, hsummary, huri, hhash, hobserved, hmetadata, hsource⟩, hnote, hkey⟩

/-- **What is hashed is the same** for two calls with one canonical request that
spell their evidence alike. -/
theorem prepared_toJson {call call' request request' : Call} (hsame : SameCanonical call call')
    (hrequest : call.prepared actor = .ok request) (hrequest' : call'.prepared actor' = .ok request')
    (hspelled : SpelledAlike call call') : request.toJson = request'.toJson := by
  cases hsame with
  | add h =>
    obtain ⟨a, ha, rfl⟩ := except_map_ok.mp hrequest
    obtain ⟨b, hb, rfl⟩ := except_map_ok.mp hrequest'
    rw [prepareAdd_canonical ha, prepareAdd_canonical hb, h]
  | complete h skew skew' =>
    obtain ⟨a, ha, rfl⟩ := except_map_ok.mp hrequest
    obtain ⟨b, hb, rfl⟩ := except_map_ok.mp hrequest'
    rw [prepareComplete_raw ha, prepareComplete_raw hb, CompleteRequest.eq_of_spelled h hspelled]
    rfl
  | snooze h horizon horizon' =>
    obtain ⟨a, ha, rfl⟩ := except_map_ok.mp hrequest
    obtain ⟨b, hb, rfl⟩ := except_map_ok.mp hrequest'
    rw [prepareSnooze_canonical ha, prepareSnooze_canonical hb, h]
    rfl
  | cancel h =>
    obtain ⟨a, ha, rfl⟩ := except_map_ok.mp hrequest
    obtain ⟨b, hb, rfl⟩ := except_map_ok.mp hrequest'
    rw [prepareCancel_canonical ha, prepareCancel_canonical hb, h]
  | update h =>
    obtain ⟨a, ha, rfl⟩ := except_map_ok.mp hrequest
    obtain ⟨b, hb, rfl⟩ := except_map_ok.mp hrequest'
    rw [prepareUpdate_canonical ha, prepareUpdate_canonical hb, h]

/-- What is hashed tells how the evidence was spelled. -/
theorem spelledAlike_of_toJson {call call' request request' : Call}
    (hsame : SameCanonical call call') (hrequest : call.prepared actor = .ok request)
    (hrequest' : call'.prepared actor' = .ok request') (hplain : request.plainMetadata)
    {j : Json} (hj : request.toJson = some j) (hj' : request'.toJson = some j) :
    SpelledAlike call call' := by
  cases hsame with
  | complete h skew skew' =>
    obtain ⟨a, ha, rfl⟩ := except_map_ok.mp hrequest
    obtain ⟨b, hb, rfl⟩ := except_map_ok.mp hrequest'
    obtain rfl := prepareComplete_raw ha
    obtain rfl := prepareComplete_raw hb
    have hmetadata : a.evidence.metadata = b.evidence.metadata :=
      congrArg (fun r => r.evidence.metadata) h
    obtain rfl := CompleteRequest.toJson_inj hj hj' hplain (hmetadata ▸ hplain)
    exact ⟨rfl, rfl, rfl⟩
  | _ => trivial

end

/-! ## The stored response -/

/-- A response is read back unless the parameters of its trigger are too deep. -/
theorem MutationResult.read_isSome {x : Externals} {response : MutationResult} :
    (response.read x).isSome = true ↔ response.remindi.trigger.depth + 3 ≤ depthLimit := by
  unfold MutationResult.read
  dsimp only
  split
  · next hdepth => exact iff_of_true rfl hdepth
  · next hdepth => exact iff_of_false Bool.false_ne_true hdepth

/-- The trigger of the item that a request is answered with: its own, or the stored one. -/
def Call.answeredTrigger (db : Db) : Call → Option Trigger
  | .add request => some request.trigger
  | .update request =>
    (db.remindi.find? request.remindiId).map fun row => request.trigger.getD row.trigger
  | .complete request _ => (db.remindi.find? request.remindiId).map (·.trigger)
  | .snooze request _ => (db.remindi.find? request.remindiId).map (·.trigger)
  | .cancel request => (db.remindi.find? request.remindiId).map (·.trigger)

/-- If the call is the first under its key, its response can be read back. -/
def ReadsBack (db : Db) (actor : Actor) (call request : Call) : Prop :=
  db.idempotency.find? (actor.actorId, call.toolName, call.idempotencyKey) = none →
    ∀ trigger, request.answeredTrigger db = some trigger → trigger.depth + 3 ≤ depthLimit

theorem Executed.answeredTrigger {service : RemindiService} {actor : Actor} {hash : String}
    {db db' : Db} {env : Env} {call request : Call} {response : MutationResult}
    (h : Executed service actor hash db db' env call response)
    (hrequest : call.prepared actor = .ok request) :
    request.answeredTrigger db = some response.remindi.trigger := by
  cases h with
  | added prepared added =>
    obtain ⟨request', hprepared, rfl⟩ := except_map_ok.mp hrequest
    obtain rfl := Except.ok.inj (prepared.symm.trans hprepared)
    obtain ⟨id, nextFireAt, now, -, hitem⟩ := added.built
    rw [hitem]
    rfl
  | @mutated call id version prior mutation target operates mutated =>
    have hid : prior.id = id := mutated.id
    have hfound : db.remindi.find? id = some prior := hid ▸ mutated.found
    -- every request names its item as its call does
    cases operates with
    | complete prepared validated ok =>
      obtain ⟨request', hprepared, rfl⟩ := except_map_ok.mp hrequest
      obtain ⟨-, hsame, -⟩ := prepareComplete_ok hprepared
      have htarget := (Prod.mk.inj (Option.some.inj target)).1
      show (db.remindi.find? request'.remindiId).map _ = _
      rw [hsame, htarget, hfound]
      exact congrArg some (completeItem_sameSchedule ok).trigger.symm
    | snooze prepared ok =>
      obtain ⟨request', hprepared, rfl⟩ := except_map_ok.mp hrequest
      obtain ⟨-, hsame, -⟩ := prepareSnooze_ok hprepared
      have htarget := (Prod.mk.inj (Option.some.inj target)).1
      show (db.remindi.find? request'.remindiId).map _ = _
      rw [hsame, htarget, hfound]
      exact congrArg some (snoozeItem_sameSchedule ok).trigger.symm
    | cancel prepared ok =>
      obtain ⟨request', hprepared, rfl⟩ := except_map_ok.mp hrequest
      obtain ⟨-, hsame, -⟩ := prepareCancel_ok hprepared
      have htarget := (Prod.mk.inj (Option.some.inj target)).1
      show (db.remindi.find? request'.remindiId).map _ = _
      rw [hsame, htarget, hfound]
      exact congrArg some (cancelItem_sameSchedule ok).trigger.symm
    | update prepared ok =>
      obtain ⟨request', hprepared, rfl⟩ := except_map_ok.mp hrequest
      obtain rfl := Except.ok.inj (prepared.symm.trans hprepared)
      obtain ⟨-, hsame, -⟩ := prepareUpdate_ok hprepared
      have htarget := (Prod.mk.inj (Option.some.inj target)).1
      show (db.remindi.find? _).map _ = _
      rw [hsame, htarget, hfound]
      exact congrArg some (updateItem_trigger ok).symm

/-! ## The second call -/

/-- Whenever the call gets as far as its key it is answered with what is read of the
response that the first call has stored, or has read too. -/
def Replays (x : Externals) (e : StepRecord) (s : System) (actor : Actor) (call request : Call)
    (response : MutationResult) : Prop :=
  ∀ ownerId env, call.Admitted actor (env.clock 0) request → env.Faultless →
    ∃ stored answer, Gives x e stored response ∧ stored.read x = some answer ∧
      (step x s (.call ownerId actor call env)).2 = .mutation (.ok answer)

section

variable {x : Externals} {labels : List Label} {e : StepRecord} {ownerId : String} {actor : Actor}
  {call : Call} {env : Env} {response : MutationResult}

/-- A call that has succeeded is on record. -/
theorem response_recorded (he : e ∈ historyOf x labels)
    (hlabel : e.label = .call ownerId actor call env)
    (hok : e.response = .mutation (.ok response)) :
    ∃ hash record, call.hash x actor = .ok hash ∧ record.requestHash = hash ∧
      Gives x e record.response response ∧
      (runOf x labels).db.idempotency.find? (actor.actorId, call.toolName, call.idempotencyKey) =
        some record := by
  obtain ⟨hash, stored, hhash, ⟨record, hrecord, hrecordHash, rfl⟩, hgives⟩ :=
    answeredOnce_run.1 e he ownerId actor call env response hlabel hok
  exact ⟨hash, record, hhash, hrecordHash, hgives, hrecord⟩

/-- A call that succeeds executes exactly when its key is free. -/
theorem executes_iff {request : Call} (htaken : e = entry (step x) e.before e.label)
    (hlabel : e.label = .call ownerId actor call env) (hok : e.response = .mutation (.ok response))
    (hrequest : call.prepared actor = .ok request) :
    (e.after ≠ e.before ↔ e.before.db.idempotency.find?
        (actor.actorId, call.toolName, call.idempotencyKey) = none) ∧
      (e.after ≠ e.before →
        request.answeredTrigger e.before.db = some response.remindi.trigger) := by
  have hafter : e.after = (step x e.before (.call ownerId actor call env)).1 := by
    rw [← hlabel]
    exact congrArg Entry.after htaken
  rw [htaken, hlabel] at hok
  obtain ⟨hash, -, ⟨hsame, stored, ⟨record, hrecord, -⟩, -⟩ | hexecuted⟩ := call_success hok
  · rw [hsame] at hafter
    refine ⟨iff_of_false (not_not.mpr hafter) ?_, fun hchanged => absurd hafter hchanged⟩
    rw [hrecord]
    exact Option.some_ne_none record
  · rw [← hafter] at hexecuted
    exact ⟨iff_of_true hexecuted.changed hexecuted.answered.1,
      fun _ => hexecuted.answeredTrigger hrequest⟩

/-- **Two requests with one canonical form share their hash, and the second is
answered like the first, exactly when** they spell their evidence alike and, if the
second is valid at some time, the first response can be read back. -/
theorem canonical_requests_replayed_iff {actor' : Actor} {call' request request' : Call}
    (he : e ∈ historyOf x labels) (hlabel : e.label = .call ownerId actor call env)
    (hok : e.response = .mutation (.ok response)) (hrequest : call.prepared actor = .ok request)
    (hactor : actor'.actorId = actor.actorId) (hrequest' : call'.prepared actor' = .ok request')
    (hsame : SameCanonical call call') (hsha : CollisionFree x.sha256 request request') :
    (call'.hash x actor' = call.hash x actor ∧
        Replays x e (runOf x labels) actor' call' request' response) ↔
      SpelledAlike call call' ∧
        ((∃ now, call'.Admitted actor' now request') →
          ReadsBack e.before.db actor call request) := by
  obtain ⟨hash, record, hhash, hrecordHash, hgives, hrecord⟩ := response_recorded he hlabel hok
  obtain ⟨j, hj, rfl⟩ := Call.hash_ok hhash hrequest
  have htaken := (soundStep_of_mem he).taken
  obtain ⟨hfree, htrigger⟩ := executes_iff htaken hlabel hok hrequest
  constructor
  · rintro ⟨hequal, hreplays⟩
    have hplain : request.plainMetadata := by
      rw [htaken, hlabel] at hok
      exact plainMetadata_of_success hok hrequest
    rw [hhash] at hequal
    obtain ⟨j', hj', hdigest⟩ := Call.hash_ok hequal hrequest'
    obtain rfl := text_injective (hsha j j' hj hj' hdigest)
    refine ⟨spelledAlike_of_toJson hsame hrequest hrequest' hplain hj hj', ?_⟩
    rintro ⟨now, hadmitted⟩ hunused trigger hanswered
    obtain ⟨stored, answer, hstored, hread, -⟩ := hreplays ownerId
      { env with clock := fun _ => now, fault := fun _ => none } hadmitted fun _ => rfl
    have hchanged := hfree.mpr hunused
    obtain rfl := Option.some.inj ((htrigger hchanged).symm.trans hanswered)
    rcases hstored with ⟨-, rfl⟩ | ⟨hunchanged, -⟩
    · exact MutationResult.read_isSome.mp (Option.isSome_iff_exists.mpr ⟨answer, hread⟩)
    · exact absurd hunchanged hchanged
  · rintro ⟨hspelled, hreadable⟩
    have hwritten : request'.toJson = some j :=
      (prepared_toJson hsame hrequest hrequest' hspelled).symm.trans hj
    have hhash' : call'.hash x actor' = .ok (x.sha256 j.text) := Call.hash_eq hrequest' hwritten
    refine ⟨hhash'.trans hhash.symm, fun ownerId' env' hadmitted hfault => ?_⟩
    -- what is stored can be read: the first call has read it, or it is shallow enough
    have hread : (record.response.read x).isSome = true := by
      rcases hgives with ⟨hchanged, hstored⟩ | ⟨-, hread⟩
      · rw [← hstored, MutationResult.read_isSome]
        exact hreadable ⟨_, hadmitted⟩ (hfree.mp hchanged) _ (htrigger hchanged)
      · rw [hread]
        rfl
    obtain ⟨answer, hanswer⟩ := Option.isSome_iff_exists.mp hread
    refine ⟨record.response, answer, hgives, hanswer, ?_⟩
    rw [← hactor, ← hsame.tool.1, ← hsame.tool.2] at hrecord
    have hrun : ((⟨x, ownerId'⟩ : RemindiService).perform actor' call' env' 0 _).map Prod.fst = _ :=
      perform_of_record hfault hadmitted hhash' hrecord
    rw [recordedAnswer, if_neg (not_not.mpr hrecordHash), hanswer, ← Txn.run_fst] at hrun
    exact congrArg Response.mutation hrun

end

/-! ## Samples -/

namespace Sample

def evidence (summary : String) : EvidenceInput where
  evidenceType := .artifact
  summary := summary
  referenceUri := some "file:result"
  contentHash := none
  observedAt := second 600
  metadata := none
  source := .authenticatedActor

/-- A completion that says so in these words. -/
def complete (summary : String) : CompleteRequest where
  remindiId := uuid 0
  expectedVersion := 1
  evidence := evidence summary
  completionNote := none
  idempotencyKey := "complete-0001"

/-- A reminder is added, and completed. -/
def completedRun : List Label :=
  [call (.add everyMinute) 500 0, call (.complete (complete "all tests pass") 0) 700 1]

def completedEntry : StepRecord :=
  entry (step externals) (runOf externals [call (.add everyMinute) 500 0])
    (call (.complete (complete "all tests pass") 0) 700 1)

theorem completed_mem : completedEntry ∈ historyOf externals completedRun :=
  List.mem_append_right (history (step externals) .start [call (.add everyMinute) 500 0])
    (List.mem_singleton.mpr rfl)

theorem completed_succeeded :
    ∃ response, completedEntry.response = .mutation (.ok response) := by
  have hsucceeded : completedEntry.response.succeeded.isSome = true := by decide +kernel
  obtain ⟨response, hresponse⟩ := Option.isSome_iff_exists.mp hsucceeded
  exact ⟨response, Response.eq_of_succeeded hresponse⟩

theorem sameCanonical : SameCanonical (.complete (complete "all tests pass") 0)
    (.complete (complete " all tests pass ") 0) := by
  refine .complete ?_ 0 0
  have hsummary : trim "all tests pass" = trim " all tests pass " := by decide +kernel
  simp only [complete, CompleteRequest.canonical, EvidenceInput.canonical, evidence, hsummary]

end Sample

/-- The same completion again is answered like the first. -/
theorem sample_complete_replayed :
    ∃ response, Sample.completedEntry.response = .mutation (.ok response) ∧
      Replays Sample.externals Sample.completedEntry
        (runOf Sample.externals Sample.completedRun) Sample.agent
        (.complete (Sample.complete "all tests pass") 0)
        (.complete (Sample.complete "all tests pass") 0) response := by
  obtain ⟨response, hok⟩ := Sample.completed_succeeded
  have hiff := @canonical_requests_replayed_iff Sample.externals Sample.completedRun
    Sample.completedEntry "owner" Sample.agent (.complete (Sample.complete "all tests pass") 0)
    (Sample.env 700 1) response Sample.agent (.complete (Sample.complete "all tests pass") 0)
    (.complete (Sample.complete "all tests pass") 0)
    (.complete (Sample.complete "all tests pass") 0) Sample.completed_mem rfl hok rfl rfl
    rfl (.complete rfl 0 0) (fun _ _ _ _ htext => htext)
  have hshallow : ((Call.complete (Sample.complete "all tests pass") 0).answeredTrigger
      Sample.completedEntry.before.db).map Trigger.depth = some 0 := by
    decide +kernel
  refine ⟨response, hok, (hiff.mpr ⟨⟨rfl, rfl, rfl⟩, fun _ _ trigger htrigger => ?_⟩).2⟩
  rw [htrigger, Option.map_some] at hshallow
  rw [Option.some.inj hshallow]
  decide

/-- With blanks around the summary it is refused, though it stores the same. -/
theorem sample_complete_refused :
    SameCanonical (.complete (Sample.complete "all tests pass") 0)
        (.complete (Sample.complete " all tests pass ") 0) ∧
      (∃ response, Sample.completedEntry.response = .mutation (.ok response)) ∧
      Call.Admitted Sample.agent (Sample.second 800)
        (.complete (Sample.complete " all tests pass ") 0)
        (.complete (Sample.complete " all tests pass ") 0) ∧
      (match (step Sample.externals (runOf Sample.externals Sample.completedRun)
          (Sample.call (.complete (Sample.complete " all tests pass ") 0) 800 2)).2 with
        | .mutation (.error e) => some e
        | _ => none) = some .idempotencyKeyReused := by
  refine ⟨Sample.sameCanonical, Sample.completed_succeeded, ⟨rfl, ?_, ?_⟩, ?_⟩
  · decide +kernel
  · decide +kernel
  · decide +kernel

end RemindiCore
