import RemindiCore.Proof.Arguments
import RemindiCore.Proof.Refusals

/-!
# The two front ends agree

The tools and the Web interface take the same requests, each with code of its own for what
they are given.  The actor is not among that: a tool acts for the agent of its bearer, the Web
interface for the user of its session.  Whatever the actor, a body that both can be given
(`Common`) comes to the same by the code of either of them, in every run.
-/

namespace RemindiCore

open CivilTime JsonText Serde Transaction Mcp Web

/-! ## The two ways of a request -/

/-- The code of an error, as `error_result` has it. -/
def Mcp.HandlerError.toService : HandlerError → ServiceError
  | .validation => .validation
  | .service error => error
  | .serialization => .internal

namespace Web.Route

def tool : Route → String
  | .add => "remindi_add"
  | .check => "remindi_check"
  | .update _ => "remindi_update"
  | .complete _ => "remindi_complete"
  | .snooze _ => "remindi_snooze"
  | .cancel _ => "remindi_cancel"

/-- The arguments of the tool: the members of the body, after the item of the path. -/
def arguments (route : Route) (members : List (String × Json)) : Json :=
  match route with
  | .add | .check => .object members
  | .update id | .complete id | .snooze id | .cancel id => withItem id members

/-- The arguments that only the tool knows. -/
def toolNames : Route → List String
  | .add => []
  | .check => ["evaluate_conditions"]
  | .update _ | .complete _ | .snooze _ | .cancel _ => ["remindi_id"]

def viaTool (route : Route) (members : List (String × Json)) : Except ServiceError ToolCall :=
  (toolCall route.tool (toValue (route.arguments members))).mapError HandlerError.toService

/-- A body that the extractor refuses counts as invalid input. -/
def viaWeb (route : Route) (members : List (String × Json)) : Except ServiceError ToolCall :=
  match route.read (.object members) with
  | none => .error .validation
  | some body => body.call

def refused : Route → ServiceError → Response
  | .check, e => .check (.error e)
  | _, e => .mutation (.error e)

/-- What becomes of what a front end hands over, in any state of the system. -/
def deliver (route : Route) (x : Externals) (ownerId : String) (actor : Actor) (env : Env)
    (s : System) : Except ServiceError ToolCall → System × Response
  | .ok call => call.perform x ownerId actor env s
  | .error e => (s, route.refused e)

/-- The time that the body of a completion or a snooze gives. -/
def instant (route : Route) (members : List (String × Json)) : Option String :=
  match route with
  | .complete _ => do
    let evidence ← members.lookup "evidence"
    let fields ← structFields true
      ["type", "summary", "reference_uri", "content_hash", "observed_at", "metadata"] evidence
    fields.required 4 asText
  | .snooze _ => (members.lookup "snooze_until").bind asText
  | _ => none

end Web.Route

/-- Both read the instant: its `Z` is a capital letter and its year in UTC has four digits. -/
def ReadAlike (text : String) : Prop :=
  ∀ t, parseRfc3339 text = some t → hasExplicitOffset text = true ∧ t.toUtc.year ≤ 9999

/-- A completion is hashed with the offset of its time, which only the Web interface keeps. -/
def InUtc (text : String) : Prop := ∀ t, parseRfc3339 text = some t → t.offset = 0

/-- A body that both front ends can be given. -/
structure Common (route : Route) (members : List (String × Json)) : Prop where
  distinct : Distinct (.object members)
  shared : ∀ name ∈ route.toolNames, name ∉ members.map Prod.fst
  alike : ∀ text, route.instant members = some text → ReadAlike text
  inUtc : ∀ id text, route = .complete id → route.instant members = some text → InUtc text

theorem parseTimestamp_of_some {text : String} {t : OffsetDateTime} (h : ReadAlike text)
    (hparse : parseRfc3339 text = some t) : parseTimestamp text = .ok t.toUtc := by
  obtain ⟨hexplicit, hyear⟩ := h t hparse
  unfold parseTimestamp
  rw [hexplicit, hparse, if_neg (by decide)]
  exact if_pos hyear

theorem parseTimestamp_of_none {text : String} (hparse : parseRfc3339 text = none) :
    ∃ e, parseTimestamp text = .error e := by
  unfold parseTimestamp
  rw [hparse]
  split
  · exact ⟨_, rfl⟩
  · exact ⟨_, rfl⟩

/-! ## Each route -/

/-- The Web interface hands over what the tool does: the same call, a snooze to the same instant,
or one that the service refuses as the tool has. -/
inductive HandsOver (actor : Actor) :
    Route → Except ServiceError ToolCall → Except ServiceError ToolCall → Prop
  | same (route : Route) (result : Except ServiceError ToolCall) :
    HandsOver actor route result result
  | add {request : AddRequest} (refused : prepareAdd actor request = .error .validation) :
    HandsOver actor .add (.error .validation) (.ok (.mutate (.add request)))
  | update {id : Uuid} {request : UpdateRequest}
      (refused : prepareUpdate actor request = .error .validation) :
    HandsOver actor (.update id) (.error .validation) (.ok (.mutate (.update request)))
  | snooze {id : Uuid} {request request' : SnoozeRequest} {maximumHorizon : Nat}
      (prepared : prepareSnooze actor request = prepareSnooze actor request') :
    HandsOver actor (.snooze id) (.ok (.mutate (.snooze request maximumHorizon)))
      (.ok (.mutate (.snooze request' maximumHorizon)))
  | check {request : CheckRequest} (tooMany : maxPage < request.limit) :
    HandsOver actor .check (.error .validation) (.ok (.check request))

section

variable {actor : Actor} {members : List (String × Json)} {id : Uuid}

theorem handsOver_add (h : Distinct (.object members)) :
    HandsOver actor .add (Route.add.viaTool members) (Route.add.viaWeb members) := by
  have hread : AddInput.read id (toValue (.object members)) =
    AddInput.read toValue (.object members) := AddInput.read_toValue h
  have htool : Route.add.viaTool members =
    (addCall (toValue (.object members))).mapError HandlerError.toService := rfl
  rw [htool]
  unfold Route.viaWeb Route.read addCall parse
  rw [hread]
  cases AddInput.read toValue (.object members) with
  | none => exact .same _ _
  | some input =>
    show HandsOver actor .add
      ((semantics input.validateSemantics >>= fun _ => converted input.request >>= fun request =>
        pure (.mutate (.add request))).mapError HandlerError.toService)
      ((input.request.mapError fun _ => .validation) >>= fun request =>
        pure (.mutate (.add request)))
    cases hsemantics : input.validateSemantics with
    | ok _ => cases input.request <;> exact .same _ _
    | error e =>
      cases hrequest : input.request with
      | error e' => exact .same _ _
      | ok request => exact .add (prepareAdd_refused hsemantics hrequest)

theorem handsOver_update (h : Distinct (.object members))
    (hitem : "remindi_id" ∉ members.map Prod.fst) :
    HandsOver actor (.update id) ((Route.update id).viaTool members)
      ((Route.update id).viaWeb members) := by
  have htool : (Route.update id).viaTool members =
    (updateCall (toValue (withItem id members))).mapError HandlerError.toService := rfl
  rw [htool]
  unfold Route.viaWeb Route.read updateCall parse
  dsimp only
  rw [itemFields_withItem h hitem (by decide)]
  cases hfields : structFields true updateNames (.object members) with
  | none => exact .same _ _
  | some fields =>
    have hread := UpdateFields.read_toValue
      ((structFields_distinct h hfields).cons (distinct_string id.text)) 1
    have hcons : UpdateFields.read toValue (fields.cons (.string id.text)) 1 =
      UpdateFields.read toValue fields 0 := rfl
    rw [hcons] at hread
    simp only [Option.map_some, Option.bind_eq_bind, Option.bind_some, hread]
    cases UpdateFields.read toValue fields 0 with
    | none => exact .same _ _
    | some input =>
      show HandsOver actor (.update id)
        ((semantics input.validateSemantics >>= fun _ => converted (input.request id) >>=
          fun request => pure (.mutate (.update request))).mapError HandlerError.toService)
        (((input.request id).mapError fun _ => .validation) >>= fun request =>
          pure (.mutate (.update request)))
      cases hsemantics : input.validateSemantics with
      | ok _ => cases input.request id <;> exact .same _ _
      | error e =>
        cases hrequest : input.request id with
        | error e' => exact .same _ _
        | ok request => exact .update (prepareUpdate_refused hsemantics hrequest)

theorem handsOver_cancel (h : Distinct (.object members))
    (hitem : "remindi_id" ∉ members.map Prod.fst) :
    HandsOver actor (.cancel id) ((Route.cancel id).viaTool members)
      ((Route.cancel id).viaWeb members) := by
  have htool : (Route.cancel id).viaTool members =
    (cancelCall (toValue (withItem id members))).mapError HandlerError.toService := rfl
  rw [htool]
  unfold Route.viaWeb Route.read cancelCall parse
  dsimp only
  rw [itemFields_withItem h hitem (by decide)]
  cases structFields true cancelNames (.object members) with
  | none => exact .same _ _
  | some fields =>
    have hcons : readCancel (fields.cons (.string id.text)) 1 id = readCancel fields 0 id := rfl
    simp only [Option.map_some, Option.bind_eq_bind, Option.bind_some, readCancel_toValue, hcons]
    cases readCancel fields 0 id with
    | none => exact .same _ _
    | some request => exact .same _ _

/-- The time of a completion stands in its evidence. -/
theorem instant_complete (id : Uuid) {keep : Json → Json} {fields : Fields} {input : CompleteFields String}
    (h : Distinct (.object members))
    (hfields : structFields true completeNames (.object members) = some fields)
    (hread : CompleteFields.read keep asText fields 0 = some input) :
    (Route.complete id).instant members = some input.evidence.observedAt := by
  rw [structFields_object h.1] at hfields
  split at hfields
  · cases hfields
  · obtain rfl := Option.some.inj hfields
    unfold CompleteFields.read at hread
    obtain ⟨_, -, hread⟩ := Option.bind_eq_some_iff.mp hread
    obtain ⟨evidence, hevidence, hread⟩ := Option.bind_eq_some_iff.mp hread
    obtain ⟨_, -, hread⟩ := Option.bind_eq_some_iff.mp hread
    obtain ⟨_, -, hread⟩ := Option.bind_eq_some_iff.mp hread
    cases hread
    obtain ⟨json, hlookup, hevidence⟩ := Option.bind_eq_some_iff.mp hevidence
    have hjson : members.lookup "evidence" = some json := hlookup
    unfold EvidenceArguments.read at hevidence
    obtain ⟨found, hfound, hevidence⟩ := Option.bind_eq_some_iff.mp hevidence
    obtain ⟨_, -, hevidence⟩ := Option.bind_eq_some_iff.mp hevidence
    obtain ⟨_, -, hevidence⟩ := Option.bind_eq_some_iff.mp hevidence
    obtain ⟨_, -, hevidence⟩ := Option.bind_eq_some_iff.mp hevidence
    obtain ⟨_, -, hevidence⟩ := Option.bind_eq_some_iff.mp hevidence
    obtain ⟨text, htext, hevidence⟩ := Option.bind_eq_some_iff.mp hevidence
    obtain ⟨_, -, hevidence⟩ := Option.bind_eq_some_iff.mp hevidence
    cases hevidence
    unfold Route.instant
    simp only [Option.bind_eq_bind, hjson, Option.bind_some, hfound, htext]

theorem handsOver_complete (h : Common (.complete id) members) :
    HandsOver actor (.complete id) ((Route.complete id).viaTool members)
      ((Route.complete id).viaWeb members) := by
  have hitem : "remindi_id" ∉ members.map Prod.fst := h.shared _ (List.mem_singleton_self _)
  have htool : (Route.complete id).viaTool members =
    (completeCall (toValue (withItem id members))).mapError HandlerError.toService := rfl
  rw [htool]
  unfold Route.viaWeb Route.read completeCall parse
  dsimp only
  rw [itemFields_withItem h.distinct hitem (by decide)]
  cases hfields : structFields true completeNames (.object members) with
  | none => exact .same _ _
  | some fields =>
    have hread := CompleteFields.read_toValue asText_toValue
      ((structFields_distinct h.distinct hfields).cons (distinct_string id.text)) 1
    have hcons : CompleteFields.read toValue asText (fields.cons (.string id.text)) 1 =
      CompleteFields.read toValue asText fields 0 := rfl
    rw [hcons] at hread
    simp only [Option.map_some, Option.bind_eq_bind, Option.bind_some, hread,
      CompleteFields.read_rfc3339]
    cases hinput : CompleteFields.read toValue asText fields 0 with
    | none => exact .same _ _
    | some input =>
      have hinstant := instant_complete id h.distinct hfields hinput
      show HandsOver actor (.complete id)
        ((converted (parseTimestamp input.evidence.observedAt) >>= fun t =>
          pure (.mutate (.complete ((input.observed t).request id) futureSkew))).mapError
            HandlerError.toService)
        (match (((parseRfc3339 input.evidence.observedAt).map input.observed).bind fun body =>
            some (Body.complete id body)) with
          | none => .error .validation
          | some body => body.call)
      cases hparse : parseRfc3339 input.evidence.observedAt with
      | none =>
        obtain ⟨e, he⟩ := parseTimestamp_of_none hparse
        rw [he]
        exact .same _ _
      | some t =>
        rw [parseTimestamp_of_some (h.alike _ hinstant) hparse]
        have hutc : t.toUtc = t := by
          obtain ⟨utc, offset⟩ := t
          have hoffset : offset = 0 := h.inUtc id _ rfl hinstant _ hparse
          rw [hoffset]
          rfl
        rw [hutc]
        exact .same _ _

theorem instant_snooze (id : Uuid) {fields : Fields} {input : SnoozeFields String}
    (h : Distinct (.object members))
    (hfields : structFields true snoozeNames (.object members) = some fields)
    (hread : SnoozeFields.read asText fields 0 = some input) :
    (Route.snooze id).instant members = some input.snoozeUntil := by
  rw [structFields_object h.1] at hfields
  split at hfields
  · cases hfields
  · obtain rfl := Option.some.inj hfields
    unfold SnoozeFields.read at hread
    obtain ⟨_, -, hread⟩ := Option.bind_eq_some_iff.mp hread
    obtain ⟨text, htext, hread⟩ := Option.bind_eq_some_iff.mp hread
    obtain ⟨_, -, hread⟩ := Option.bind_eq_some_iff.mp hread
    obtain ⟨_, -, hread⟩ := Option.bind_eq_some_iff.mp hread
    cases hread
    exact htext

theorem handsOver_snooze (h : Common (.snooze id) members) :
    HandsOver actor (.snooze id) ((Route.snooze id).viaTool members)
      ((Route.snooze id).viaWeb members) := by
  have hitem : "remindi_id" ∉ members.map Prod.fst := h.shared _ (List.mem_singleton_self _)
  have htool : (Route.snooze id).viaTool members =
    (snoozeCall (toValue (withItem id members))).mapError HandlerError.toService := rfl
  rw [htool]
  unfold Route.viaWeb Route.read snoozeCall parse
  dsimp only
  rw [itemFields_withItem h.distinct hitem (by decide)]
  cases hfields : structFields true snoozeNames (.object members) with
  | none => exact .same _ _
  | some fields =>
    have hcons : SnoozeFields.read asText (fields.cons (.string id.text)) 1 =
      SnoozeFields.read asText fields 0 := rfl
    simp only [Option.map_some, Option.bind_eq_bind, Option.bind_some,
      SnoozeFields.read_toValue, hcons, SnoozeFields.read_rfc3339]
    cases hinput : SnoozeFields.read asText fields 0 with
    | none => exact .same _ _
    | some input =>
      have hinstant := instant_snooze id h.distinct hfields hinput
      have hat : ∀ t, ({ input with snoozeUntil := t } : SnoozeFields OffsetDateTime).request id =
          { remindiId := id, expectedVersion := input.expectedVersion, snoozeUntil := t,
            reason := input.reason, idempotencyKey := input.idempotencyKey } := fun t => rfl
      show HandsOver actor (.snooze id)
        ((converted (parseTimestamp input.snoozeUntil) >>= fun t =>
          pure (.mutate (.snooze (({ input with snoozeUntil := t } :
            SnoozeFields OffsetDateTime).request id) snoozeHorizon))).mapError
            HandlerError.toService)
        (match (((parseRfc3339 input.snoozeUntil).map fun t =>
            ({ input with snoozeUntil := t } : SnoozeFields OffsetDateTime)).bind fun body =>
              some (Body.snooze id body)) with
          | none => .error .validation
          | some body => body.call)
      cases hparse : parseRfc3339 input.snoozeUntil with
      | none =>
        obtain ⟨e, he⟩ := parseTimestamp_of_none hparse
        rw [he]
        exact .same _ _
      | some t =>
        rw [parseTimestamp_of_some (h.alike _ hinstant) hparse]
        exact .snooze rfl

theorem handsOver_check (h : Common .check members) :
    HandsOver actor .check (Route.check.viaTool members) (Route.check.viaWeb members) := by
  have hshared : "evaluate_conditions" ∉ members.map Prod.fst :=
    h.shared _ (List.mem_singleton_self _)
  have htool : Route.check.viaTool members =
    (checkCall (toValue (.object members))).mapError HandlerError.toService := rfl
  rw [htool, parse_check h.distinct hshared]
  unfold Route.viaWeb Route.read
  dsimp only
  rw [readCheckBody_eq h.distinct]
  by_cases hforeign : foreignMember members = true
  · rw [if_pos hforeign, if_pos hforeign]
    exact .same _ _
  · rw [if_neg hforeign, if_neg hforeign, checkRequest_narrow]
    cases checkRequest 64 members with
    | none => exact .same _ _
    | some request =>
      by_cases hlimit : request.limit < 2 ^ 16
      · rw [show (some request).filter (·.limit < 2 ^ 16) = some request from
          if_pos (decide_eq_true hlimit)]
        exact .same _ _
      · rw [show (some request).filter (·.limit < 2 ^ 16) = none from
          if_neg (by simpa using hlimit)]
        refine .check ?_
        unfold maxPage
        omega

/-! ## Agreement -/

theorem handsOver {route : Route} (h : Common route members) :
    HandsOver actor route (route.viaTool members) (route.viaWeb members) := by
  cases route with
  | add => exact handsOver_add h.distinct
  | check => exact handsOver_check h
  | update id => exact handsOver_update h.distinct (h.shared _ (List.mem_singleton_self _))
  | complete id => exact handsOver_complete h
  | snooze id => exact handsOver_snooze h
  | cancel id => exact handsOver_cancel h.distinct (h.shared _ (List.mem_singleton_self _))

/-- What is handed over comes to the same in every state. -/
theorem HandsOver.deliver {x : Externals} {ownerId : String} {env : Env} {route : Route}
    {tool web : Except ServiceError ToolCall} (h : HandsOver actor route tool web) (s : System) :
    route.deliver x ownerId actor env s tool = route.deliver x ownerId actor env s web := by
  cases h with
  | same => rfl
  | @add request refused =>
    show (s, Response.mutation (.error .validation)) =
      step x s (.call ownerId actor (.add request) env)
    have hrun : (({ externals := x, ownerId := ownerId } : RemindiService).add actor request).run
        env s.db = (.error .validation, s.db) := by
      unfold RemindiService.add
      rw [refused]
      rfl
    unfold step RemindiService.perform
    dsimp only
    rw [hrun]
  | @update id request refused =>
    show (s, Response.mutation (.error .validation)) =
      step x s (.call ownerId actor (.update request) env)
    have hrun : (({ externals := x, ownerId := ownerId } : RemindiService).update actor request).run
        env s.db = (.error .validation, s.db) := by
      unfold RemindiService.update
      rw [refused]
      rfl
    unfold step RemindiService.perform
    dsimp only
    rw [hrun]
  | @snooze id request request' horizon prepared =>
    show step x s (.call ownerId actor (.snooze request horizon) env) =
      step x s (.call ownerId actor (.snooze request' horizon) env)
    have hsame : ({ externals := x, ownerId := ownerId } : RemindiService).snooze actor request
        horizon = ({ externals := x, ownerId := ownerId } : RemindiService).snooze actor request'
        horizon := by
      unfold RemindiService.snooze
      rw [prepared]
    unfold step RemindiService.perform
    dsimp only
    rw [hsame]
  | @check request tooMany =>
    show (s, Response.check (.error .validation)) =
      step x s (.checkRead ownerId actor request env)
    unfold step
    dsimp only
    rw [checkRead_refused tooMany]

end

/-! ## Runs -/

/-- Whose code reads what a request is given. -/
inductive FrontEnd where
  | tool
  | web

/-- A request to change or check something. -/
structure FrontRequest where
  ownerId : String
  /-- For whom the front end that has let the request in acts; it reads this from the bearer
  or the session, and nothing of it from the body. -/
  actor : Actor
  route : Route
  members : List (String × Json)
  env : Env

def FrontEnd.read (reader : FrontEnd) (route : Route) (members : List (String × Json)) :
    Except ServiceError ToolCall :=
  match reader with
  | .tool => route.viaTool members
  | .web => route.viaWeb members

/-- What the request does, read as by the tools or as by the Web interface. -/
def FrontRequest.take (x : Externals) (request : FrontRequest) (reader : FrontEnd) (s : System) :
    System × Response :=
  request.route.deliver x request.ownerId request.actor request.env s
    (reader.read request.route request.members)

/-- A step of the system: a request to one of the front ends, or a step of another kind. -/
inductive FrontLabel where
  | request (request : FrontRequest) (reader : FrontEnd)
  | other (label : Label)

def FrontLabel.step (x : Externals) (s : System) : FrontLabel → System × Response
  | .request taken reader => taken.take x reader s
  | .other label => RemindiCore.step x s label

/-- The same step for the same actor, if need be read by the other front end. -/
inductive FrontLabel.Twin : FrontLabel → FrontLabel → Prop
  | request {request : FrontRequest} (common : Common request.route request.members)
      (reader reader' : FrontEnd) : Twin (.request request reader) (.request request reader')
  | other (label : Label) : Twin (.other label) (.other label)

theorem FrontRequest.take_web (x : Externals) {request : FrontRequest}
    (h : Common request.route request.members) (reader : FrontEnd) (s : System) :
    request.take x reader s = request.take x .web s := by
  cases reader with
  | web => rfl
  | tool => exact (handsOver h).deliver s

theorem FrontLabel.Twin.step {l l' : FrontLabel} (h : Twin l l') (x : Externals) (s : System) :
    l.step x s = l'.step x s := by
  cases h with
  | request common reader reader' =>
    exact (FrontRequest.take_web x common reader s).trans
      (FrontRequest.take_web x common reader' s).symm
  | other label => rfl

/-- A step by a front end is a step of the system or none. -/
theorem FrontLabel.step_runOf (x : Externals) (l : FrontLabel) (s : System) :
    (l.step x s).1 = s ∨ ∃ label, (l.step x s).1 = (RemindiCore.step x s label).1 := by
  cases l with
  | other label => exact .inr ⟨label, rfl⟩
  | request request reader =>
    have hdeliver : ∀ handed, (request.route.deliver x request.ownerId request.actor request.env s
        handed).1 = s ∨ ∃ label, (request.route.deliver x request.ownerId request.actor
          request.env s handed).1 = (RemindiCore.step x s label).1 := by
      intro handed
      cases handed with
      | error e => exact .inl rfl
      | ok call =>
        cases call with
        | mutate call => exact .inr ⟨_, rfl⟩
        | check check => exact .inr ⟨_, rfl⟩
        | list list => exact .inl rfl
        | history history => exact .inl rfl
    exact hdeliver _

def frontRunOf (x : Externals) (labels : List FrontLabel) : System :=
  Machine.final (FrontLabel.step x) .start labels

def frontHistoryOf (x : Externals) (labels : List FrontLabel) :
    List (Machine.Entry System FrontLabel Response) :=
  Machine.history (FrontLabel.step x) .start labels

/-- What the front ends do is a run of the system. -/
theorem frontRunOf_eq (x : Externals) (labels : List FrontLabel) :
    ∃ run, frontRunOf x labels = runOf x run := by
  refine Machine.invariant_final (I := fun s => ∃ run, s = runOf x run) ⟨[], rfl⟩ ?_ labels
  rintro s l ⟨run, rfl⟩
  rcases FrontLabel.step_runOf x l (runOf x run) with hidle | ⟨label, hstep⟩
  · exact ⟨run, hidle⟩
  · refine ⟨run ++ [label], hstep.trans ?_⟩
    unfold runOf
    rw [Machine.final_append]
    rfl

/-- **The two front ends agree.**  Two runs that take the same steps for the same actors, each
request read by whichever front end, answer alike at every step, and both are one run of the
system. -/
theorem front_ends_agree (x : Externals) {labels labels' : List FrontLabel}
    (h : List.Forall₂ FrontLabel.Twin labels labels') :
    (frontHistoryOf x labels).map (·.response) = (frontHistoryOf x labels').map (·.response) ∧
      ∃ run, frontRunOf x labels = runOf x run ∧ frontRunOf x labels' = runOf x run := by
  obtain ⟨hfinal, hresponses⟩ := Machine.run_congr (R := FrontLabel.Twin) (s := System.start)
    (fun l l' hl s => hl.step x s) h
  obtain ⟨run, hrun⟩ := frontRunOf_eq x labels
  exact ⟨hresponses, run, hrun, hfinal.symm.trans hrun⟩

namespace Sample

/-- An interval that is added. -/
def addMembers : List (String × Json) :=
  [("project_id", .string "project"), ("message", .string "check the build"),
    ("trigger", .object [("type", .string "interval"),
      ("first_at", .string "1970-01-01T00:01:00Z"), ("every_seconds", .ofNat 60)]),
    ("recurrence", .object [("every_seconds", .ofNat 60)]), ("idempotency_key", .string "added-01")]

/-- The same item, completed with evidence of the same minute. -/
def completeMembers : List (String × Json) :=
  [("expected_version", .ofNat 1),
    ("evidence", .object [("type", .string "observation"), ("summary", .string "seen"),
      ("reference_uri", .string "log:1"), ("observed_at", .string "1970-01-01T00:01:00Z")]),
    ("idempotency_key", .string "completed-01")]

def addByFront : FrontRequest where
  ownerId := "owner"
  actor := agent
  route := .add
  members := addMembers
  env := env 0 1

def completeByFront : FrontRequest where
  ownerId := "owner"
  actor := agent
  route := .complete (uuid 1)
  members := completeMembers
  env := env 90 2

theorem common_add : Common .add addMembers where
  distinct := by simp [Distinct, DistinctMembers, addMembers, Json.ofNat]
  shared := by decide
  alike := by
    intro text h
    cases h
  inUtc := by
    intro id text h
    cases h

theorem common_complete : Common (.complete (uuid 1)) completeMembers where
  distinct := by simp [Distinct, DistinctMembers, completeMembers, Json.ofNat]
  shared := by decide
  alike := by
    intro text h
    have htext : text = "1970-01-01T00:01:00Z" := (Option.some.inj h).symm
    subst htext
    intro t ht
    have hread : parseRfc3339 "1970-01-01T00:01:00Z" = some ⟨60000000000, 0⟩ := by decide
    obtain rfl := Option.some.inj (hread.symm.trans ht)
    decide
  inUtc := by
    intro id text _ h
    have htext : text = "1970-01-01T00:01:00Z" := (Option.some.inj h).symm
    subst htext
    intro t ht
    have hread : parseRfc3339 "1970-01-01T00:01:00Z" = some ⟨60000000000, 0⟩ := by decide
    obtain rfl := Option.some.inj (hread.symm.trans ht)
    rfl

/-- Added as by a tool and completed as over the Web interface, or the other way round. -/
theorem sample_front_ends_agree :
    (frontHistoryOf externals [.request addByFront .tool, .request completeByFront .web]).map
        (·.response) =
      (frontHistoryOf externals [.request addByFront .web, .request completeByFront .tool]).map
        (·.response) ∧
    ∃ run,
      frontRunOf externals [.request addByFront .tool, .request completeByFront .web] =
        runOf externals run ∧
      frontRunOf externals [.request addByFront .web, .request completeByFront .tool] =
        runOf externals run :=
  front_ends_agree externals
    (.cons (.request common_add .tool .web) (.cons (.request common_complete .web .tool) .nil))

end Sample

end RemindiCore
