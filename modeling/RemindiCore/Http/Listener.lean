import RemindiCore.Mcp.Auth
import RemindiCore.Web.Bodies

/-!
# The listener

The two front ends and the scheduler over one service, as `main.rs` puts them together.  A
request is let in by one step and served by a later one, and between the two anything else may
happen: a logout, the end of the session, a stop of the workload, other requests.  Requests of
the Web interface that only read, the pages and the administration are left out.
-/

namespace RemindiCore.Http

open CivilTime JsonText Machine Mcp Web

/-- What the process is started with; the policies are those that its configuration gives. -/
structure Deployment where
  ownerId : String
  token : List UInt8
  allowedHosts : List String
  allowedOrigins : List String
  config : WebConfig
  csrfToken : Option String
  holderId : String
  names : HttpNames
  sha256 : List UInt8 → List UInt8
  digests : Digests
  externals : Externals
  manager : WebSessionManager
  policy : McpAuthPolicy
  managed : WebSessionManager.fromConfig digests config csrfToken = .ok manager
  policed : McpAuthPolicy.new names sha256 ownerId token allowedHosts allowedOrigins = .ok policy

/-- A request that was let in and waits for its handler to go on. -/
inductive Pending where
  | service (actor : Actor) (call : ToolCall)
  | tool (name : String) (arguments : Json)
  | logout (headers : RequestHeaders)
  | reauthenticate (headers : RequestHeaders) (password : String)

structure Listener where
  web : WebState
  identity : Option McpIdentity
  running : Bool
  pending : List Pending
  system : System

def Listener.start : Listener where
  web := .initial
  identity := none
  running := true
  pending := []
  system := .start

inductive Arrival where
  | session (headers : RequestHeaders)
  | issuePreSessionToken
  | login (headers : RequestHeaders) (username password : String)
  | reads (headers : RequestHeaders)
  | mutation (headers : RequestHeaders) (route : Route) (json : Json)
  | logout (headers : RequestHeaders)
  | reauthenticate (headers : RequestHeaders) (password : String)
  | mcp (headers : RequestHeaders) (query : Bool) (call : Option (String × Json))

/-- A step of the process.  `call` is what the protocol library reads of a body. -/
inductive Act where
  | arrive (env : CallEnv) (arrival : Arrival)
  | serve (index : Nat) (webEnv : CallEnv) (requestId : String) (env : Env)
  | abandon (index : Nat)
  | setRunning (running : Bool)
  | checkPersist (index : Nat) (env : Env)
  | pollRead (limit : Nat) (env : Env)
  | pollApply (index : Nat) (adapters : RemindiService.AdapterProvider) (env : Env)

inductive Reply where
  | answered (answer : WebSessionManager.Answer)
  | refused
  | accepted
  | served (response : Response)
  | idle

namespace Deployment

variable (d : Deployment)

def schedulerActor : Actor where
  actorType := .scheduler
  actorId := "scheduler:" ++ d.holderId
  requestId := none

/-- The actor of a tool, from the identity of the last request that was authenticated. -/
def toolActor (identity : Option McpIdentity) (requestId : String) : Actor where
  actorType := .agent
  actorId :=
    match identity with
    | some identity => identity.actorId
    | none => "mcp:unavailable"
  requestId := some requestId

/-- Let a request in if its actor may do what it asks. -/
def authorizeThen (s : Listener) (env : CallEnv) (headers : RequestHeaders) (method : Method)
    (pending : Actor → Option Pending) : Listener × Reply :=
  match authorizeMutation d.manager env s.web headers method with
  | (.error _, web) => ({ s with web := web }, .refused)
  | (.ok actor, web) =>
    match pending actor with
    | some pending => ({ s with web := web, pending := s.pending ++ [pending] }, .accepted)
    | none => ({ s with web := web }, .refused)

/-- A call of the session manager. -/
def manage (s : Listener) (env : CallEnv) (call : WebSessionManager.Call) : Listener × Reply :=
  let (web, answer) := WebSessionManager.step d.digests d.manager s.web ⟨env, call⟩
  ({ s with web := web }, .answered answer)

def method : Route → Method
  | .update _ => .patch
  | _ => .post

def arrive (s : Listener) (env : CallEnv) : Arrival → Listener × Reply
  | .session headers | .reads headers => d.manage s env (.authenticate headers.toHeaderMap)
  | .issuePreSessionToken => d.manage s env .issuePreSessionToken
  | .login headers username password =>
    match validateSameOrigin headers, onlyText headers.csrfToken with
    | .ok (), some token => d.manage s env (.login username password (String.ofList token))
    | _, _ => (s, .refused)
  | .mutation headers route json =>
    -- the body is read before anybody is asked who sent it
    match route.read json with
    | none => (s, .refused)
    | some body => d.authorizeThen s env headers (method route) fun actor =>
      body.call.toOption.map (.service actor)
  | .logout headers => d.authorizeThen s env headers .post fun _ => some (.logout headers)
  | .reauthenticate headers password =>
    d.authorizeThen s env headers .post fun _ => some (.reauthenticate headers password)
  | .mcp headers query call =>
    match d.policy.authenticate d.names d.sha256 headers query with
    | .error _ => (s, .refused)
    | .ok identity =>
      let s := { s with identity := some identity }
      if !s.running then (s, .refused)
      else
        match call with
        | some (name, arguments) =>
          ({ s with pending := s.pending ++ [.tool name arguments] }, .accepted)
        | none => (s, .idle)

def servePending (s : Listener) (webEnv : CallEnv) (requestId : String) (env : Env) :
    Pending → Listener × Reply
  | .service actor call =>
    let (system, response) := call.perform d.externals d.ownerId actor env s.system
    ({ s with system := system }, .served response)
  | .tool name arguments =>
    match toolCall name arguments with
    | .error _ => (s, .refused)
    | .ok call =>
      let actor := toolActor s.identity requestId
      let (system, response) := call.perform d.externals d.ownerId actor env s.system
      ({ s with system := system }, .served response)
  | .logout headers => d.manage s webEnv (.logout headers.toHeaderMap)
  | .reauthenticate headers password =>
    d.manage s webEnv (.reauthenticate headers.toHeaderMap password)

/-- A step of the service that goes on by itself. -/
def goOn (s : Listener) (label : Label) : Listener × Reply :=
  let (system, response) := RemindiCore.step d.externals s.system label
  ({ s with system := system }, .served response)

def step (s : Listener) : Act → Listener × Reply
  | .arrive env arrival => d.arrive s env arrival
  | .serve index webEnv requestId env =>
    match s.pending[index]? with
    | none => (s, .idle)
    | some pending =>
      d.servePending { s with pending := s.pending.eraseIdx index } webEnv requestId env pending
  | .abandon index => ({ s with pending := s.pending.eraseIdx index }, .idle)
  | .setRunning running => ({ s with running := running }, .idle)
  | .checkPersist index env => d.goOn s (.checkPersist index env)
  | .pollRead limit env => d.goOn s (.pollRead d.ownerId d.schedulerActor limit env)
  | .pollApply index adapters env => d.goOn s (.pollApply index adapters env)

def runOf (acts : List Act) : Listener := final d.step .start acts

def historyOf (acts : List Act) : List (Entry Listener Act Reply) := history d.step .start acts

end Deployment

end RemindiCore.Http
