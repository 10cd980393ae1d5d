import RemindiCore.Http.Listener
import RemindiCore.Proof.Attribution
import RemindiCore.Proof.FrontEnds
import RemindiCore.Proof.SessionOrigins
import RemindiCore.Proof.WebSessions
import Mathlib.Data.List.Perm.Basic

/-!
# Admission

A request is let in by one step of the process and served by a later one, and between the two
the others go on.  `LetIn` says what a request has shown when it was let in, `AdmissionSafe` what
follows from it for every run: the service only does what was let in, each of it at most once,
and the store names nobody who did not come through one of the doors.
-/

namespace RemindiCore.Http

open CivilTime JsonText Machine Mcp Web WebSessionManager BoundedMap

/-- One step of the process. -/
abbrev Exchange := Entry Listener Act Reply

/-! ## What a request has shown -/

/-- A login of the browser that opened the session `id`. -/
def Opens (d : Deployment) (id : String) (session : StoredSession) (e : Exchange) : Prop :=
  ∃ env headers username password token answer,
    e.label = .arrive env (.login headers username password) ∧ e.response = .answered answer ∧
      OwnOrigin headers ∧ onlyText headers.csrfToken = some token ∧
      LogsIn d.digests d.manager ⟨env, .login username password (String.ofList token)⟩ answer id
        session

/-- A logout that was let in and is served now. -/
def LogsOut (id : String) (e : Exchange) : Prop :=
  ∃ index webEnv requestId env headers, e.label = .serve index webEnv requestId env ∧
    e.before.pending[index]? = some (.logout headers) ∧
    cookieValue headers.toHeaderMap SESSION_COOKIE = some id

/-- The session `id` was opened and nobody has logged out of it since. -/
def InForce (d : Deployment) (id : String) (session : StoredSession) (before : List Exchange) :
    Prop :=
  ∃ earlier opened since, before = earlier ++ opened :: since ∧ Opens d id session opened ∧
    ∀ e ∈ since, ¬LogsOut id e

/-- Who may change something through the Web interface. -/
structure Authorized (d : Deployment) (before : List Exchange) (env : CallEnv)
    (headers : RequestHeaders) (actor : Actor) : Prop where
  origin : OwnOrigin headers
  actorType : actor.actorType = .user
  requestId : actor.requestId = some (Web.requestId headers)
  sender : ∃ csrfToken, (onlyText headers.csrfToken).map String.ofList = some csrfToken ∧
    (OfAnyone d.manager actor.actorId csrfToken ∨
      ∃ id session, cookieValue headers.toHeaderMap SESSION_COOKIE = some id ∧
        InForce d id session before ∧ env.now.utc < session.expiresAt.utc ∧
        actor.actorId = session.actorId ∧ csrfToken = session.csrfToken)

/-- What a request has shown that is let in by a step after `before`. -/
inductive LetIn (d : Deployment) (before : List Exchange) (s : Listener) : Act → Pending → Prop
  | mutation {env : CallEnv} {headers : RequestHeaders} {route : Route} {json : Json} {body : Body}
      {call : ToolCall} {actor : Actor} (hread : route.read json = some body)
      (hcall : body.call = .ok call) (hsent : Authorized d before env headers actor) :
      LetIn d before s (.arrive env (.mutation headers route json)) (.service actor call)
  | logout {env : CallEnv} {headers : RequestHeaders} {actor : Actor}
      (hsent : Authorized d before env headers actor) :
      LetIn d before s (.arrive env (.logout headers)) (.logout headers)
  | reauthenticate {env : CallEnv} {headers : RequestHeaders} {password : String} {actor : Actor}
      (hsent : Authorized d before env headers actor) :
      LetIn d before s (.arrive env (.reauthenticate headers password))
        (.reauthenticate headers password)
  | tool {env : CallEnv} {headers : RequestHeaders} {query : Bool} {name : String}
      {arguments : Json} (hbears : McpAuthPolicy.Bears d.sha256 d.token headers query)
      (hnames : d.policy.authorizeNames d.names headers = .ok ()) (hrunning : s.running = true) :
      LetIn d before s (.arrive env (.mcp headers query (some (name, arguments))))
        (.tool name arguments)

/-- Those whom the store may name. -/
inductive Known (d : Deployment) (actor : Actor) : Prop
  | scheduler (h : actor = d.schedulerActor)
  | bearer (htype : actor.actorType = .agent)
      (hid : actor.actorId = actorFingerprint d.sha256 (textBytes d.ownerId) d.token)
  | user (username : String) (husername : d.config.webuiUsername = some username)
      (htype : actor.actorType = .user)
      (hid : actor.actorId = WebSessionManager.actorId d.digests username)
  | anyone (hopen : d.config.webuiEnabled = true ∧ d.config.webuiAuthEnabled = false)
      (htype : actor.actorType = .user) (hid : actor.actorId = "webui:unauthenticated")

/-! ## What a step lets in, takes out and asks of the service -/

def letIn (e : Exchange) : List Pending := e.after.pending.drop e.before.pending.length

def takenOut (e : Exchange) : List Pending :=
  match e.label with
  | .serve index _ _ _ | .abandon index => e.before.pending[index]?.toList
  | _ => []

/-- The step of the service of a call that changes something or begins a check. -/
def labelOf (ownerId : String) (actor : Actor) (env : Env) : ToolCall → Option Label
  | .mutate call => some (.call ownerId actor call env)
  | .check request => some (.checkRead ownerId actor request env)
  | .list _ | .history _ => none

def Deployment.labelOfPending (d : Deployment) (identity : Option McpIdentity)
    (requestId : String) (env : Env) : Pending → Option Label
  | .service actor call => labelOf d.ownerId actor env call
  | .tool name arguments =>
    (toolCall name arguments).toOption.bind fun call =>
      labelOf d.ownerId (Deployment.toolActor identity requestId) env call
  | .logout _ | .reauthenticate _ _ => none

/-- The step of the service that a step of the process takes, if it takes one. -/
def Deployment.asked (d : Deployment) (e : Exchange) : Option Label :=
  match e.label with
  | .serve index _ requestId env =>
    e.before.pending[index]?.bind (d.labelOfPending e.before.identity requestId env)
  | .checkPersist index env => some (.checkPersist index env)
  | .pollRead limit env => some (.pollRead d.ownerId d.schedulerActor limit env)
  | .pollApply index adapters env => some (.pollApply index adapters env)
  | .arrive _ _ | .abandon _ | .setRunning _ => none

/-- The guarantees of a run. -/
structure AdmissionSafe (d : Deployment) (acts : List Act) : Prop where
  /-- A step lets in one request at most, which has shown what it needs. -/
  admitted : ∀ before e after, d.historyOf acts = before ++ e :: after →
    (letIn e).length ≤ 1 ∧ ∀ pending ∈ letIn e, LetIn d before e.before e.label pending
  /-- What is taken out was let in before. -/
  served : ∀ before e after, d.historyOf acts = before ++ e :: after → ∀ pending ∈ takenOut e,
    ∃ earlier k between, before = earlier ++ k :: between ∧
      LetIn d earlier k.before k.label pending
  /-- What is let in still waits, or was taken out once. -/
  conserved : ((d.historyOf acts).flatMap letIn).Perm
    ((d.runOf acts).pending ++ (d.historyOf acts).flatMap takenOut)
  /-- The service does what it is asked by what was taken out, and what it does by itself. -/
  refines : (d.runOf acts).system = RemindiCore.runOf d.externals ((d.historyOf acts).filterMap d.asked)
  actors : ∀ label ∈ (d.historyOf acts).filterMap d.asked, ∀ actor,
    label.broughtBy = some actor → Known d actor
  /-- Nobody else is recorded. -/
  attributed : Attributed (Known d) (d.runOf acts).system.db

/-! ## Sessions -/

section

variable {d : Deployment} {before : List Exchange} {s : Listener} {env : CallEnv}
  {headers : RequestHeaders} {actor : Actor} {id : String} {session old : StoredSession}
  {e : Exchange}

theorem Opens.same (h : Opens d id old e) (hsame : SameLogin old session) :
    Opens d id session e := by
  obtain ⟨env, headers, username, password, token, answer, hlabel, hresponse, horigin, htoken,
    hlogin⟩ := h
  refine ⟨env, headers, username, password, token, answer, hlabel, hresponse, horigin, htoken, ?_⟩
  constructor
  · rw [hsame.actorId]
    exact hlogin.accepted
  · exact hlogin.token
  · rw [hsame.csrfToken]
    exact hlogin.csrfToken
  · rw [hsame.expiresAt]
    exact hlogin.expiresAt

theorem InForce.later (h : InForce d id old before) (hsame : SameLogin old session)
    (hkept : ¬LogsOut id e) : InForce d id session (before ++ [e]) := by
  obtain ⟨earlier, opened, since, rfl, hopened, hsince⟩ := h
  refine ⟨earlier, opened, since ++ [e], by simp, hopened.same hsame, ?_⟩
  intro k hk
  rcases List.mem_append.mp hk with hk | hk
  · exact hsince k hk
  · obtain rfl := List.mem_singleton.mp hk
    exact hkept

/-- Every stored session was opened, unless nobody has to log in. -/
def Founded (d : Deployment) (before : List Exchange) (web : WebState) : Prop :=
  ∀ id session, web.sessions.get id = some session →
    InForce d id session before ∨ OfAnyone d.manager session.actorId session.csrfToken

/-- Where the sessions come from that a step leaves. -/
def Founds (d : Deployment) (e : Exchange) : Prop :=
  ∀ id session, e.after.web.sessions.get id = some session →
    (∃ old, e.before.web.sessions.get id = some old ∧ SameLogin old session ∧ ¬LogsOut id e) ∨
      Opens d id session e ∨ OfAnyone d.manager session.actorId session.csrfToken

theorem Founded.later (h : Founded d before e.before.web) (he : Founds d e) :
    Founded d (before ++ [e]) e.after.web := by
  intro id session hsession
  rcases he id session hsession with ⟨old, hold, hsame, hkept⟩ | hopened | hanyone
  · rcases h id old hold with hforce | hanyone
    · exact .inl (hforce.later hsame hkept)
    · refine .inr ?_
      rw [hsame.actorId, hsame.csrfToken]
      exact hanyone
  · exact .inl ⟨before, e, [], rfl, hopened, List.forall_mem_nil _⟩
  · exact .inr hanyone

/-- A step that makes no sessions. -/
theorem Founds.of_kept
    (h : ∀ id session, e.after.web.sessions.get id = some session →
      e.before.web.sessions.get id = some session)
    (hkept : ∀ id, ¬LogsOut id e) : Founds d e := by
  intro id session hsession
  exact .inl ⟨session, h id session hsession, .refl session, hkept id⟩

/-! ## The door of the Web interface -/

theorem authorizeMutation_sessions {method : Method} {web : WebState}
    (h : (authorizeMutation d.manager env web headers method).2.sessions.get id = some session) :
    web.sessions.get id = some session := by
  apply authenticate_sessions d.manager env headers.toHeaderMap
  unfold authorizeMutation at h
  split at h
  · next hauth =>
    rw [hauth]
    exact h
  · next hauth =>
    rw [hauth]
    split at h
    · exact h
    · exact h

/-- **Who gets through the door.** -/
theorem authorizeMutation_ok {method : Method} {web after : WebState}
    (hmethod : ¬(method = .get ∨ method = .head ∨ method = .options))
    (hfounded : Founded d before web)
    (h : authorizeMutation d.manager env web headers method = (.ok actor, after)) :
    Authorized d before env headers actor := by
  unfold authorizeMutation at h
  split at h
  · cases h
  · next found web' hauth =>
    split at h
    · cases h
    · next hmutation =>
      obtain ⟨horigin, supplied, hsupplied, htoken⟩ := (validateMutation_ok hmethod).mp hmutation
      obtain ⟨hactor, -⟩ := Prod.mk.inj h
      obtain rfl := Except.ok.inj hactor
      refine ⟨horigin, rfl, rfl, found.csrfToken, ?_, ?_⟩
      · rw [hsupplied, Option.map_some, htoken]
      · rcases authenticate_ok hauth with ⟨id, session, hcookie, hsession, hlive, rfl⟩ | hanyone
        · rcases hfounded id session hsession with hforce | hanyone
          · exact .inr ⟨id, session, hcookie, hforce, hlive, rfl, rfl⟩
          · exact .inl hanyone
        · exact .inl hanyone

end

/-! ## Arrivals -/

section

variable {d : Deployment} {before : List Exchange} {s : Listener} {env : CallEnv}
  {headers : RequestHeaders} {arrival : Arrival} {added : List Pending}

/-- What an arrival leaves, and what it lets in. -/
structure Arrived (d : Deployment) (before : List Exchange) (s : Listener) (act : Act)
    (result : Listener × Reply) (added : List Pending) : Prop where
  system : result.1.system = s.system
  pending : result.1.pending = s.pending ++ added
  single : added.length ≤ 1
  letIn : ∀ pending ∈ added, LetIn d before s act pending
  identity : result.1.identity = s.identity ∨ result.1.identity = some d.policy.identity
  tools : ∀ name arguments, .tool name arguments ∈ added →
    result.1.identity = some d.policy.identity
  founds : Founds d ⟨s, act, result.2, result.1⟩

theorem not_logsOut_arrive {id : String} {reply : Reply} {after : Listener} :
    ¬LogsOut id ⟨s, .arrive env arrival, reply, after⟩ := by
  rintro ⟨index, webEnv, requestId, serveEnv, headers, hlabel, -⟩
  cases hlabel

/-- Nothing is let in, and at most a session is forgotten. -/
theorem Arrived.refused {after : Listener} {reply : Reply} (hsystem : after.system = s.system)
    (hpending : after.pending = s.pending)
    (hidentity : after.identity = s.identity ∨ after.identity = some d.policy.identity)
    (hweb : ∀ id session, after.web.sessions.get id = some session →
      s.web.sessions.get id = some session) :
    Arrived d before s (.arrive env arrival) (after, reply) [] where
  system := hsystem
  pending := by rw [hpending, List.append_nil]
  single := Nat.zero_le 1
  letIn := List.forall_mem_nil _
  identity := hidentity
  tools := by
    intro name arguments h
    cases h
  founds := .of_kept hweb fun _ => not_logsOut_arrive

/-- One request is let in. -/
theorem Arrived.accepted {after : Listener} {reply : Reply} {pending : Pending}
    (hsystem : after.system = s.system) (hpending : after.pending = s.pending ++ [pending])
    (hidentity : after.identity = s.identity ∨ after.identity = some d.policy.identity)
    (hweb : ∀ id session, after.web.sessions.get id = some session →
      s.web.sessions.get id = some session)
    (hletIn : LetIn d before s (.arrive env arrival) pending)
    (htool : ∀ name arguments, pending = .tool name arguments →
      after.identity = some d.policy.identity) :
    Arrived d before s (.arrive env arrival) (after, reply) [pending] where
  system := hsystem
  pending := hpending
  single := Nat.le_refl 1
  letIn := List.forall_mem_singleton.mpr hletIn
  identity := hidentity
  tools := by
    intro name arguments h
    exact htool name arguments (List.mem_singleton.mp h).symm
  founds := .of_kept hweb fun _ => not_logsOut_arrive

/-- A call of the session manager, which may be a login. -/
theorem Arrived.manage (call : WebSessionManager.Call)
    (hlogin : ∀ id session answer, LogsIn d.digests d.manager ⟨env, call⟩ answer id session →
      Opens d id session ⟨s, .arrive env arrival, .answered answer, (d.manage s env call).1⟩) :
    Arrived d before s (.arrive env arrival) (d.manage s env call) [] where
  system := rfl
  pending := (List.append_nil _).symm
  single := Nat.zero_le 1
  letIn := List.forall_mem_nil _
  identity := .inl rfl
  tools := by
    intro name arguments h
    cases h
  founds := by
    intro id session hsession
    have horigin : Origin d.digests d.manager s.web ⟨env, call⟩
      (WebSessionManager.step d.digests d.manager s.web ⟨env, call⟩).2 id session :=
      step_origin hsession
    cases horigin with
    | kept old hold hsame => exact .inl ⟨old, hold, hsame, not_logsOut_arrive⟩
    | login h => exact .inr (.inl (hlogin id session _ h))
    | anyone h => exact .inr (.inr h)

theorem Arrived.authorize (method : Method) {pending : Actor → Option Pending}
    (hmethod : ¬(method = .get ∨ method = .head ∨ method = .options))
    (hfounded : Founded d before s.web)
    (hletIn : ∀ actor waiting, Authorized d before env headers actor →
      pending actor = some waiting → LetIn d before s (.arrive env arrival) waiting)
    (htool : ∀ actor name arguments, pending actor ≠ some (.tool name arguments)) :
    ∃ added, Arrived d before s (.arrive env arrival)
      (d.authorizeThen s env headers method pending) added := by
  have hweb : ∀ id session, (authorizeMutation d.manager env s.web headers method).2.sessions.get id =
      some session → s.web.sessions.get id = some session := fun _ _ => authorizeMutation_sessions
  unfold Deployment.authorizeThen
  split
  · next web hauth =>
    rw [hauth] at hweb
    exact ⟨[], .refused rfl rfl (.inl rfl) hweb⟩
  · next actor web hauth =>
    have hsent := authorizeMutation_ok hmethod hfounded hauth
    rw [hauth] at hweb
    split
    · next waiting hwaiting =>
      refine ⟨[waiting], .accepted rfl rfl (.inl rfl) hweb (hletIn actor waiting hsent hwaiting) ?_⟩
      rintro name arguments rfl
      exact absurd hwaiting (htool actor name arguments)
    · exact ⟨[], .refused rfl rfl (.inl rfl) hweb⟩

theorem method_changes (route : Route) :
    ¬(Deployment.method route = .get ∨ Deployment.method route = .head ∨
      Deployment.method route = .options) := by
  cases route with
  | add | check => decide
  | update | complete | snooze | cancel => exact nofun

theorem not_logsIn {call : WebSessionManager.Call} {answer : Answer} {id : String}
    {session : StoredSession}
    (hcall : ∀ username password token, call ≠ .login username password token) :
    ¬LogsIn d.digests d.manager ⟨env, call⟩ answer id session := by
  rintro ⟨⟨username, password, token, success, h, -⟩, -, -, -⟩
  exact hcall username password token h

/-- **One arrival.** -/
theorem arrive_arrived (hfounded : Founded d before s.web) (env : CallEnv) (arrival : Arrival) :
    ∃ added, Arrived d before s (.arrive env arrival) (d.arrive s env arrival) added := by
  cases arrival with
  | session headers | reads headers =>
    refine ⟨[], .manage (.authenticate headers.toHeaderMap) fun id session answer h => ?_⟩
    exact absurd h (not_logsIn fun _ _ _ => nofun)
  | issuePreSessionToken =>
    refine ⟨[], Arrived.manage .issuePreSessionToken fun id session answer h => ?_⟩
    exact absurd h (not_logsIn fun _ _ _ => nofun)
  | login headers username password =>
    unfold Deployment.arrive
    dsimp only
    split
    · next horigin htoken =>
      refine ⟨[], .manage _ fun id session answer h => ?_⟩
      exact ⟨env, headers, username, password, _, answer, rfl, rfl,
        validateSameOrigin_ok.mp horigin, htoken, h⟩
    · exact ⟨[], .refused rfl rfl (.inl rfl) fun _ _ h => h⟩
  | mutation headers route json =>
    unfold Deployment.arrive
    dsimp only
    split
    · exact ⟨[], .refused rfl rfl (.inl rfl) fun _ _ h => h⟩
    · next body hread =>
      refine Arrived.authorize _ (method_changes route) hfounded ?_ ?_
      · intro actor waiting hsent hwaiting
        obtain ⟨call, hcall, rfl⟩ := Option.map_eq_some_iff.mp hwaiting
        have hok : body.call = .ok call := by
          cases hbody : body.call with
          | error e =>
            rw [hbody] at hcall
            cases hcall
          | ok found =>
            rw [hbody] at hcall
            obtain rfl := Option.some.inj hcall
            rfl
        exact .mutation hread hok hsent
      · intro actor name arguments h
        obtain ⟨call, -, hcall⟩ := Option.map_eq_some_iff.mp h
        cases hcall
  | logout headers =>
    unfold Deployment.arrive
    refine Arrived.authorize .post (by decide) hfounded ?_ fun _ _ _ => nofun
    rintro actor waiting hsent ⟨⟩
    exact .logout hsent
  | reauthenticate headers password =>
    unfold Deployment.arrive
    refine Arrived.authorize .post (by decide) hfounded ?_ fun _ _ _ => nofun
    rintro actor waiting hsent ⟨⟩
    exact .reauthenticate hsent
  | mcp headers query call =>
    unfold Deployment.arrive
    dsimp only
    split
    · exact ⟨[], .refused rfl rfl (.inl rfl) fun _ _ h => h⟩
    · next identity hauth =>
      obtain ⟨rfl, hbears, hnames⟩ := McpAuthPolicy.authenticate_ok d.policed hauth
      by_cases hrunning : s.running = true
      · simp only [hrunning, Bool.not_true, Bool.false_eq_true, if_false]
        split
        · next name arguments =>
          refine ⟨[.tool name arguments], .accepted rfl rfl (.inr rfl) (fun _ _ h => h) ?_ ?_⟩
          · exact .tool hbears hnames hrunning
          · intro other others h
            rfl
        · exact ⟨[], .refused rfl rfl (.inr rfl) fun _ _ h => h⟩
      · simp only [Bool.not_eq_true] at hrunning
        simp only [hrunning, Bool.not_false, if_true]
        exact ⟨[], .refused rfl rfl (.inr rfl) fun _ _ h => h⟩

end

/-! ## One step -/

section

variable {d : Deployment} {before : List Exchange} {s : Listener} {e : Exchange}

/-- What a step does. -/
structure Steps (d : Deployment) (before : List Exchange) (e : Exchange) : Prop where
  founds : Founds d e
  system : e.after.system = final (RemindiCore.step d.externals) e.before.system (d.asked e).toList
  pending : (e.before.pending ++ letIn e).Perm (e.after.pending ++ takenOut e)
  single : (letIn e).length ≤ 1
  letIn : ∀ pending ∈ Http.letIn e, LetIn d before e.before e.label pending
  identity : e.after.identity = e.before.identity ∨ e.after.identity = some d.policy.identity
  tools : ∀ name arguments, .tool name arguments ∈ Http.letIn e →
    e.after.identity = some d.policy.identity

theorem letIn_eq {added : List Pending} (h : e.after.pending = e.before.pending ++ added) :
    letIn e = added := by
  unfold letIn
  rw [h, List.drop_left]

theorem letIn_eq_nil (h : e.after.pending.length ≤ e.before.pending.length) : letIn e = [] :=
  List.drop_eq_nil_of_le h

theorem Arrived.steps {act : Act} {result : Listener × Reply} {added : List Pending}
    (h : Arrived d before s act result added)
    (hasked : d.asked ⟨s, act, result.2, result.1⟩ = none)
    (htaken : takenOut ⟨s, act, result.2, result.1⟩ = []) :
    Steps d before ⟨s, act, result.2, result.1⟩ := by
  have hadded : Http.letIn ⟨s, act, result.2, result.1⟩ = added := letIn_eq h.pending
  constructor
  · exact h.founds
  · rw [hasked]
    exact h.system
  · rw [hadded, htaken, List.append_nil]
    exact .of_eq h.pending.symm
  · rw [hadded]
    exact h.single
  · rw [hadded]
    exact h.letIn
  · exact h.identity
  · rw [hadded]
    exact h.tools

/-- A step that is no arrival lets nothing in and authenticates nobody. -/
theorem Steps.of_inside (hfounds : Founds d e)
    (hsystem : e.after.system =
      final (RemindiCore.step d.externals) e.before.system (d.asked e).toList)
    (hpending : e.before.pending.Perm (e.after.pending ++ takenOut e))
    (hidentity : e.after.identity = e.before.identity) : Steps d before e := by
  have hnil : Http.letIn e = [] := by
    apply letIn_eq_nil
    have hlength := hpending.length_eq
    rw [List.length_append] at hlength
    omega
  constructor
  · exact hfounds
  · exact hsystem
  · rw [hnil, List.append_nil]
    exact hpending
  · rw [hnil]
    exact Nat.zero_le 1
  · rw [hnil]
    exact List.forall_mem_nil _
  · exact .inl hidentity
  · rw [hnil]
    intro name arguments h
    cases h

theorem perform_system (x : Externals) (ownerId : String) (actor : Actor) (env : Env)
    (system : System) (call : ToolCall) :
    (call.perform x ownerId actor env system).1 =
      final (RemindiCore.step x) system (labelOf ownerId actor env call).toList := by
  cases call with
  | mutate call => rfl
  | check request => rfl
  | list request => rfl
  | history request => rfl

theorem servePending_keeps (d : Deployment) (s : Listener) (webEnv : CallEnv) (requestId : String) (env : Env) (p : Pending) :
    (d.servePending s webEnv requestId env p).1.pending = s.pending ∧
      (d.servePending s webEnv requestId env p).1.identity = s.identity ∧
      (d.servePending s webEnv requestId env p).1.system =
        final (RemindiCore.step d.externals) s.system
          (d.labelOfPending s.identity requestId env p).toList := by
  cases p with
  | service actor call => exact ⟨rfl, rfl, perform_system _ _ _ _ _ _⟩
  | tool name arguments =>
    unfold Deployment.servePending Deployment.labelOfPending
    dsimp only
    cases toolCall name arguments with
    | error e => exact ⟨rfl, rfl, rfl⟩
    | ok call => exact ⟨rfl, rfl, perform_system _ _ _ _ _ _⟩
  | logout headers => exact ⟨rfl, rfl, rfl⟩
  | reauthenticate headers password => exact ⟨rfl, rfl, rfl⟩

/-- Serving a request makes no session of a login, and a logout ends its own. -/
theorem servePending_sessions {webEnv : CallEnv} {requestId : String} {env : Env} {p : Pending}
    {id : String} {session : StoredSession}
    (h : (d.servePending s webEnv requestId env p).1.web.sessions.get id = some session) :
    (∃ old, s.web.sessions.get id = some old ∧ SameLogin old session ∧
      ∀ headers, p = .logout headers →
        cookieValue headers.toHeaderMap SESSION_COOKIE ≠ some id) ∨
      OfAnyone d.manager session.actorId session.csrfToken := by
  cases p with
  | service actor call =>
    refine .inl ⟨session, h, .refl session, fun headers hlogout => ?_⟩
    cases hlogout
  | tool name arguments =>
    refine .inl ⟨session, ?_, .refl session, fun headers hlogout => by cases hlogout⟩
    unfold Deployment.servePending at h
    dsimp only at h
    split at h
    · exact h
    · exact h
  | logout headers =>
    have horigin : Origin d.digests d.manager s.web ⟨webEnv, .logout headers.toHeaderMap⟩
      (WebSessionManager.step d.digests d.manager s.web
        ⟨webEnv, .logout headers.toHeaderMap⟩).2 id session := step_origin h
    cases horigin with
    | kept old hold hsame hcookie =>
      refine .inl ⟨old, hold, hsame, ?_⟩
      rintro other ⟨⟩
      exact hcookie _ rfl
    | login h => exact absurd h (not_logsIn fun _ _ _ hlogin => by cases hlogin)
    | anyone h => exact .inr h
  | reauthenticate headers password =>
    have horigin : Origin d.digests d.manager s.web
      ⟨webEnv, .reauthenticate headers.toHeaderMap password⟩
      (WebSessionManager.step d.digests d.manager s.web
        ⟨webEnv, .reauthenticate headers.toHeaderMap password⟩).2 id session := step_origin h
    cases horigin with
    | kept old hold hsame =>
      refine .inl ⟨old, hold, hsame, fun headers hlogout => ?_⟩
      cases hlogout
    | login h => exact absurd h (not_logsIn fun _ _ _ hlogin => by cases hlogin)
    | anyone h => exact .inr h

theorem perm_eraseIdx {α : Type} {l : List α} {index : Nat} :
    l.Perm (l.eraseIdx index ++ l[index]?.toList) := by
  by_cases hindex : index < l.length
  · rw [List.getElem?_eq_getElem hindex]
    exact (List.getElem_cons_eraseIdx_perm hindex).symm.trans (List.perm_append_singleton _ _).symm
  · rw [List.getElem?_eq_none (by omega), List.eraseIdx_of_length_le (by omega)]
    exact .of_eq (List.append_nil _).symm

theorem steps_serve (index : Nat) (webEnv : CallEnv) (requestId : String) (env : Env) :
    Steps d before (entry d.step s (.serve index webEnv requestId env)) := by
  have hpending : s.pending.Perm (s.pending.eraseIdx index ++ s.pending[index]?.toList) :=
    perm_eraseIdx
  unfold entry
  cases hserved : s.pending[index]? with
  | none =>
    have hidle : d.step s (.serve index webEnv requestId env) = (s, .idle) := by
      unfold Deployment.step
      dsimp only
      rw [hserved]
    rw [hidle]
    refine .of_inside (.of_kept (fun _ _ h => h) ?_) ?_ ?_ rfl
    · rintro id ⟨other, _, _, _, headers, hlabel, hat, -⟩
      cases hlabel
      rw [hserved] at hat
      cases hat
    · unfold Deployment.asked
      dsimp only
      rw [hserved]
      rfl
    · unfold takenOut
      dsimp only
      rw [hserved]
      exact .of_eq (List.append_nil _).symm
  | some p =>
    let erased : Listener := { s with pending := s.pending.eraseIdx index }
    have hserve : d.step s (.serve index webEnv requestId env) =
        d.servePending erased webEnv requestId env p := by
      unfold Deployment.step
      dsimp only
      rw [hserved]
    rw [hserve]
    obtain ⟨hkept, hidentity, hsystem⟩ := servePending_keeps d erased webEnv requestId env
      p
    refine .of_inside ?_ ?_ ?_ hidentity
    · intro id session hsession
      rcases servePending_sessions hsession with ⟨old, hold, hsame, hcookie⟩ | hanyone
      · refine .inl ⟨old, hold, hsame, ?_⟩
        rintro ⟨other, _, _, _, headers, hlabel, hat, hid⟩
        cases hlabel
        rw [hserved] at hat
        exact hcookie headers (Option.some.inj hat) hid
      · exact .inr (.inr hanyone)
    · unfold Deployment.asked
      dsimp only
      rw [hserved]
      exact hsystem
    · unfold takenOut
      dsimp only
      rw [hkept]
      exact hpending

theorem not_logsOut {id : String} (h : ∀ index webEnv requestId env,
    e.label ≠ .serve index webEnv requestId env) : ¬LogsOut id e := by
  rintro ⟨index, webEnv, requestId, env, headers, hlabel, -⟩
  exact h index webEnv requestId env hlabel

/-- **One step of the process.** -/
theorem step_steps (hfounded : Founded d before s.web) (act : Act) :
    Steps d before (entry d.step s act) := by
  have hgoesOn : ∀ label, (∀ index webEnv requestId env,
      act ≠ .serve index webEnv requestId env) → d.step s act = d.goOn s label →
      d.asked (entry d.step s act) = some label → takenOut (entry d.step s act) = [] →
      Steps d before (entry d.step s act) := by
    intro label hother hstep hasked htaken
    have hafter : (entry d.step s act).after = (d.goOn s label).1 := congrArg Prod.fst hstep
    refine .of_inside (.of_kept ?_ fun id => not_logsOut hother) ?_ ?_ ?_
    · rw [hafter]
      exact fun _ _ h => h
    · rw [hasked, hafter]
      rfl
    · rw [htaken, hafter, List.append_nil]
      exact .refl _
    · rw [hafter]
      rfl
  cases act with
  | arrive env arrival =>
    obtain ⟨added, harrived⟩ := arrive_arrived hfounded env arrival
    exact harrived.steps rfl rfl
  | serve index webEnv requestId env => exact steps_serve index webEnv requestId env
  | abandon index =>
    refine .of_inside (.of_kept (fun _ _ h => h) fun id => not_logsOut fun _ _ _ _ => nofun) rfl
      ?_ rfl
    exact perm_eraseIdx
  | setRunning running =>
    refine .of_inside (.of_kept (fun _ _ h => h) fun id => not_logsOut fun _ _ _ _ => nofun) rfl
      ?_ rfl
    exact .of_eq (List.append_nil _).symm
  | checkPersist index env => exact hgoesOn _ (fun _ _ _ _ => nofun) rfl rfl rfl
  | pollRead limit env => exact hgoesOn _ (fun _ _ _ _ => nofun) rfl rfl rfl
  | pollApply index adapters env => exact hgoesOn _ (fun _ _ _ _ => nofun) rfl rfl rfl

end

/-! ## Runs -/

section

variable {d : Deployment} {before : List Exchange} {s : Listener} {actor : Actor}

/-- What holds after the steps so far. -/
structure Guards (d : Deployment) (before : List Exchange) (s : Listener) : Prop where
  founded : Founded d before s.web
  refines : s.system = RemindiCore.runOf d.externals (before.filterMap d.asked)
  conserved : (before.flatMap letIn).Perm (s.pending ++ before.flatMap takenOut)
  identity : s.identity = none ∨ s.identity = some d.policy.identity
  tools : ∀ name arguments, .tool name arguments ∈ s.pending →
    s.identity = some d.policy.identity

theorem Guards.start : Guards d [] .start where
  founded := by
    intro id session h
    cases h
  refines := rfl
  conserved := .nil
  identity := .inl rfl
  tools := by
    intro name arguments h
    cases h

/-- **One more step.** -/
theorem Guards.next (h : Guards d before s) (act : Act) :
    Guards d (before ++ [entry d.step s act]) (d.step s act).1 := by
  have hsteps : Steps d before (entry d.step s act) := step_steps h.founded act
  have hstays : s.identity = some d.policy.identity →
      (d.step s act).1.identity = some d.policy.identity := by
    intro hsome
    rcases hsteps.identity with hsame | hnew
    · exact hsame.trans hsome
    · exact hnew
  constructor
  · exact Founded.later (e := entry d.step s act) h.founded hsteps.founds
  · have hsystem : (d.step s act).1.system = final (RemindiCore.step d.externals) s.system
      (d.asked (entry d.step s act)).toList := hsteps.system
    rw [hsystem, h.refines, List.filterMap_append]
    unfold RemindiCore.runOf
    rw [final_append]
    cases hasked : d.asked (entry d.step s act) with
    | none => simp only [List.filterMap_cons, List.filterMap_nil, hasked, Option.toList]
    | some label => simp only [List.filterMap_cons, List.filterMap_nil, hasked, Option.toList]
  · have hpending : (s.pending ++ letIn (entry d.step s act)).Perm
      ((d.step s act).1.pending ++ takenOut (entry d.step s act)) := hsteps.pending
    rw [List.flatMap_append, List.flatMap_append, List.flatMap_singleton, List.flatMap_singleton]
    -- the new request moves in front of what was taken out, and what is taken out behind it
    apply (h.conserved.append_right _).trans
    rw [List.append_assoc]
    apply (List.perm_append_comm.append_left _).trans
    rw [← List.append_assoc]
    apply (hpending.append_right _).trans
    rw [List.append_assoc]
    exact List.perm_append_comm.append_left _
  · rcases h.identity with hnone | hsome
    · rcases hsteps.identity with hsame | hnew
      · exact .inl (hsame.trans hnone)
      · exact .inr hnew
    · exact .inr (hstays hsome)
  · intro name arguments htool
    have hmem : .tool name arguments ∈ s.pending ++ letIn (entry d.step s act) :=
      hsteps.pending.symm.subset (List.mem_append_left _ htool)
    rcases List.mem_append.mp hmem with hold | hnew
    · exact hstays (h.tools name arguments hold)
    · exact hsteps.tools name arguments hnew

theorem guards_runOf (acts : List Act) : Guards d (d.historyOf acts) (d.runOf acts) :=
  run_induction .start (fun _ _ act h => h.next act) acts

/-- A step of a run starts from what is guarded. -/
theorem guards_at {acts : List Act} {after : List Exchange} {e : Exchange}
    (h : d.historyOf acts = before ++ e :: after) : Guards d before e.before ∧ Steps d before e := by
  obtain ⟨ks, act, js, -, rfl, rfl⟩ := history_eq_cons h
  have hguards := guards_runOf (d := d) ks
  exact ⟨hguards, step_steps hguards.founded act⟩

/-- **What waits was let in.** -/
theorem let_in_before {acts : List Act} {after : List Exchange} {e : Exchange}
    (h : d.historyOf acts = before ++ e :: after) {pending : Pending}
    (hpending : pending ∈ e.before.pending) :
    ∃ earlier k between, before = earlier ++ k :: between ∧
      LetIn d earlier k.before k.label pending := by
  have hmem := (guards_at h).1.conserved.symm.subset (List.mem_append_left _ hpending)
  obtain ⟨k, hk, hin⟩ := List.mem_flatMap.mp hmem
  obtain ⟨earlier, between, rfl⟩ := List.append_of_mem hk
  have hsplit : d.historyOf acts = earlier ++ k :: (between ++ e :: after) := by
    rw [h, List.append_assoc, List.cons_append]
  exact ⟨earlier, k, between, rfl, (guards_at hsplit).2.letIn pending hin⟩

theorem mem_of_takenOut {e : Exchange} {pending : Pending} (h : pending ∈ takenOut e) :
    pending ∈ e.before.pending := by
  unfold takenOut at h
  split at h
  · exact List.mem_of_getElem? (Option.mem_toList.mp h)
  · exact List.mem_of_getElem? (Option.mem_toList.mp h)
  · cases h

/-! ## Actors -/

theorem known_of_anyone {csrfToken : String} (htype : actor.actorType = .user)
    (h : OfAnyone d.manager actor.actorId csrfToken) : Known d actor := by
  refine .anyone ?_ htype h.actorId
  have hmode := h.mode
  have hmanaged := d.managed
  unfold WebSessionManager.fromConfig at hmanaged
  split at hmanaged
  · cases hmanaged
  · rw [← Except.ok.inj hmanaged] at hmode
    dsimp only at hmode
    split at hmode
    · cases hmode
    · next henabled =>
      split at hmode
      · cases hmode
      · next hauth => exact ⟨not_not.mp henabled, eq_false_of_ne_true hauth⟩

theorem known_of_opens {id : String} {session : StoredSession} {opened : Exchange}
    (htype : actor.actorType = .user) (hid : actor.actorId = session.actorId)
    (h : Opens d id session opened) : Known d actor := by
  obtain ⟨env, headers, username, password, token, answer, -, -, -, -, hlogin⟩ := h
  obtain ⟨presented, _, _, _, -, -, husername, -, hactor⟩ := hlogin.accepted
  have hdigest : d.manager.usernameDigest = d.config.webuiUsername.map d.digests.digest := by
    have hmanaged := d.managed
    unfold WebSessionManager.fromConfig at hmanaged
    split at hmanaged
    · cases hmanaged
    · rw [← Except.ok.inj hmanaged]
  rw [hdigest] at husername
  unfold matchesDigest at husername
  cases hconfigured : d.config.webuiUsername with
  | none =>
    rw [hconfigured] at husername
    cases husername
  | some configured =>
    rw [hconfigured] at husername
    have hsame : d.digests.digest presented = d.digests.digest configured := eq_of_beq husername
    refine .user configured hconfigured htype ?_
    rw [hid, hactor]
    unfold WebSessionManager.actorId
    rw [hsame]

theorem known_of_authorized {env : CallEnv} {headers : RequestHeaders}
    (h : Authorized d before env headers actor) : Known d actor := by
  obtain ⟨csrfToken, -, hanyone | ⟨id, session, -, hforce, -, hid, -⟩⟩ := h.sender
  · exact known_of_anyone h.actorType hanyone
  · obtain ⟨earlier, opened, since, -, hopened, -⟩ := hforce
    exact known_of_opens h.actorType hid hopened

theorem known_toolActor (requestId : String) :
    Known d (Deployment.toolActor (some d.policy.identity) requestId) := by
  refine .bearer rfl ?_
  have hpolicy := d.policed
  unfold McpAuthPolicy.new at hpolicy
  split at hpolicy
  · cases hpolicy
  · split at hpolicy
    · cases hpolicy
    · show d.policy.actorId = _
      rw [← Except.ok.inj hpolicy]

theorem labelOf_actor {ownerId : String} {env : Env} {call : ToolCall} {label : Label}
    {brought : Actor} (h : labelOf ownerId actor env call = some label)
    (hbrought : label.broughtBy = some brought) : brought = actor := by
  cases call with
  | mutate call | check request =>
    obtain rfl := Option.some.inj h
    exact (Option.some.inj hbrought).symm
  | list request | history request => cases h

/-- **Whom the service is asked for.** -/
theorem known_of_asked {acts : List Act} {after : List Exchange} {e : Exchange}
    (h : d.historyOf acts = before ++ e :: after) {label : Label} (hasked : d.asked e = some label)
    (hbrought : label.broughtBy = some actor) : Known d actor := by
  have hguards := (guards_at h).1
  unfold Deployment.asked at hasked
  split at hasked
  · next index webEnv requestId env hlabel =>
    obtain ⟨pending, hpending, hlabelOf⟩ := Option.bind_eq_some_iff.mp hasked
    have hmem := List.mem_of_getElem? hpending
    cases pending with
    | service sender call =>
      obtain rfl := labelOf_actor hlabelOf hbrought
      obtain ⟨earlier, k, between, -, hin⟩ := let_in_before h hmem
      generalize k.label = l at hin
      cases hin with
      | mutation hread hcall hsent => exact known_of_authorized hsent
    | tool name arguments =>
      obtain ⟨call, -, hcall⟩ := Option.bind_eq_some_iff.mp hlabelOf
      rw [hguards.tools name arguments hmem] at hcall
      rw [labelOf_actor hcall hbrought]
      exact known_toolActor requestId
    | logout headers => cases hlabelOf
    | reauthenticate headers password => cases hlabelOf
  · obtain rfl := Option.some.inj hasked
    cases hbrought
  · obtain rfl := Option.some.inj hasked
    exact .scheduler (Option.some.inj hbrought).symm
  · obtain rfl := Option.some.inj hasked
    cases hbrought
  · cases hasked
  · cases hasked
  · cases hasked

end

/-- **The doors are safe.** -/
theorem admission_safe (d : Deployment) (acts : List Act) : AdmissionSafe d acts := by
  have hguards := guards_runOf (d := d) acts
  have hactors : ∀ label ∈ (d.historyOf acts).filterMap d.asked, ∀ actor,
      label.broughtBy = some actor → Known d actor := by
    intro label hlabel actor hbrought
    obtain ⟨e, he, hasked⟩ := List.mem_filterMap.mp hlabel
    obtain ⟨before, after, hsplit⟩ := List.append_of_mem he
    exact known_of_asked hsplit hasked hbrought
  constructor
  · intro before e after hsplit
    exact ⟨(guards_at hsplit).2.single, (guards_at hsplit).2.letIn⟩
  · intro before e after hsplit pending hpending
    exact let_in_before hsplit (mem_of_takenOut hpending)
  · exact hguards.conserved
  · exact hguards.refines
  · exact hactors
  · rw [hguards.refines]
    exact attributed_runOf hactors

/-! ## A run -/

namespace Sample

/-- The digests of the two inputs of the bearer. -/
def sha256 (bytes : List UInt8) : List UInt8 :=
  if bytes = TOKEN_CHECK_DOMAIN ++ textBytes "bearer" then
    [6, 32, 30, 134, 188, 64, 100, 150, 125, 112, 192, 18, 196, 246, 140, 133,
      200, 175, 201, 31, 24, 37, 218, 8, 6, 229, 17, 48, 34, 64, 206, 112]
  else if bytes = actorInput (textBytes "owner") (textBytes "bearer") then
    [194, 130, 231, 2, 69, 36, 204, 117, 107, 9, 200, 246, 194, 8, 93, 230,
      31, 248, 235, 7, 6, 253, 25, 223, 248, 88, 171, 9, 18, 51, 107, 251]
  else []

/-- One bearer, any host, and the Web interface of `WebSessionManager.Sample`. -/
def deployment : Deployment where
  ownerId := "owner"
  token := textBytes "bearer"
  allowedHosts := []
  allowedOrigins := []
  config := WebSessionManager.Sample.config
  csrfToken := some "u"
  holderId := "holder"
  names := ⟨fun host => some (host, none), fun _ => none⟩
  sha256 := sha256
  digests := WebSessionManager.Sample.digests
  externals := RemindiCore.Sample.externals
  manager := WebSessionManager.Sample.manager
  policy :=
    { ownerId := "owner"
      expectedTokenDigest := tokenDigest sha256 (textBytes "bearer")
      actorId := actorFingerprint sha256 (textBytes "owner") (textBytes "bearer")
      allowedHosts := []
      allowedOrigins := [] }
  managed := by rfl
  policed := by rfl

/-- The browser, with the token of a form or of a session. -/
def browser (csrfToken : String) : RequestHeaders where
  cookie := [textBytes "remindi_session=s"]
  host := [textBytes "remindi.local"]
  origin := [textBytes "https://remindi.local"]
  csrfToken := [textBytes csrfToken]
  authorization := []
  requestId := [textBytes "request-1"]

def bearer : RequestHeaders where
  cookie := []
  host := [textBytes "remindi.local"]
  origin := []
  csrfToken := []
  authorization := [textBytes "Bearer bearer"]
  requestId := []

def surroundings (seconds : Int) (token csrfToken : Option String) : CallEnv where
  now := ⟨seconds * secondNanos, 0⟩
  token := token
  csrfToken := csrfToken
  order := .oldest

/-- A login, an item, a logout that is served before the item is stored, another item that comes
too late, and a tool that completes the first one. -/
def acts : List Act :=
  [.arrive (surroundings 0 (some "t") none) .issuePreSessionToken,
    .arrive (surroundings 1 (some "s") (some "c")) (.login (browser "t") "admin" "correct horse"),
    .arrive (surroundings 2 none none)
      (.mutation (browser "c") .add (.object RemindiCore.Sample.addMembers)),
    .arrive (surroundings 3 none none) (.logout (browser "c")),
    .serve 1 (surroundings 4 none none) "unused" (RemindiCore.Sample.env 4 1),
    .serve 0 (surroundings 5 none none) "unused" (RemindiCore.Sample.env 5 1),
    .arrive (surroundings 6 none none)
      (.mutation (browser "c") .add (.object RemindiCore.Sample.addMembers)),
    .arrive (surroundings 7 none none)
      (.mcp bearer false (some ("remindi_complete",
        Serde.toValue (withItem (RemindiCore.Sample.uuid 1) RemindiCore.Sample.completeMembers)))),
    .serve 0 (surroundings 90 none none) "request-2" (RemindiCore.Sample.env 90 2)]

end Sample

/-- Two of the three requests are stored, each under the name of its door. -/
theorem sample_admission_safe :
    AdmissionSafe Sample.deployment Sample.acts ∧
      (Sample.deployment.historyOf Sample.acts).map (fun e => e.after.pending.length) =
        [0, 0, 1, 2, 1, 0, 0, 1, 0] ∧
      (Sample.deployment.runOf Sample.acts).system.db.events.rows.map (fun row => row.actorId) =
        ["webui:jGl25bVBBBW96Qi9Te4V37Fnqchz_Eu4qB9vKrRIqRg",
          "mcp:woLnAkUkzHVrCcj2wghd5h_46wcG_Rnf-FirCRIza_s"] :=
  ⟨admission_safe Sample.deployment Sample.acts, by decide +kernel, by decide +kernel⟩

end RemindiCore.Http
