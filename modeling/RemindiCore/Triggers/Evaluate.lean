import RemindiCore.Admin.AdapterConfigs
import RemindiCore.Domain.Model
import RemindiCore.Lib.Embed

/-!
# Evaluating a condition

`evaluate` of the four adapters (`triggers/adapters/`), the guard that stops an
evaluation when it is cancelled or out of time, and `evaluate_condition` of the scheduler
(`scheduler/runner.rs`).  What an evaluation has contacted is the state (`Contact`); the
network, the file system and the clock answer as they like.
-/

namespace RemindiCore.Triggers

open CivilTime Fallible JsonText

/-! ## Results -/

inductive AdapterStatus where
  | satisfied
  | unsatisfied
  | unknown
  | error
deriving DecidableEq

structure AdapterMetadata where
  adapterVersion : String
  latencyMs : Nat
deriving DecidableEq

structure AdapterResult where
  status : AdapterStatus
  observedAt : OffsetDateTime
  summary : String
  metadata : AdapterMetadata
deriving DecidableEq

def adapterVersion : String := "1.0.0"

/-! ## Calls -/

variable {x : UrlCrate}

/-- Why an evaluation is cut short. -/
inductive Interruption where
  | cancelled
  | expired
deriving DecidableEq

inductive ConditionCall (x : UrlCrate) where
  | network (k : NetworkCall x)
  | connect (address : SocketAddr)
  /-- `tokio::fs::canonicalize` -/
  | canonicalize (path : PathBuf)
  /-- `std::fs::canonicalize` -/
  | canonicalizeNow (path : PathBuf)
  | metadata (path : PathBuf)
  /-- The `select!` of the guard is polled. -/
  | poll
  | now
  /-- The clock, and the time since the evaluation has begun. -/
  | observe

abbrev ConditionValue : ConditionCall x → Type
  | .network k => NetworkValue k
  | .connect _ => Unit
  | .canonicalize _ | .canonicalizeNow _ => Canonical
  | .metadata _ => Unit
  | .poll => Option Interruption
  | .now => OffsetDateTime
  | .observe => OffsetDateTime × Nat

/-- What has been contacted. -/
inductive Contact (x : UrlCrate) where
  | network (traffic : Traffic x)
  | connect (address : SocketAddr) (accepted : Bool)
  | canonicalize (path : PathBuf) (answer : Canonical)
  | metadata (path : PathBuf) (found : Bool)
  | clock (now : OffsetDateTime)

/-- What the surroundings answer to a call. -/
structure Surroundings where
  network : Adversary
  accepts : Bool
  canonical : Canonical
  found : Bool
  interruption : Option Interruption
  now : OffsetDateTime
  latencyMs : Nat

def serveCondition : (k : ConditionCall x) → Surroundings → List (Contact x) →
    Option (ConditionValue k) × List (Contact x)
  | .network k, a, s =>
    let served := serveNetwork k a.network []
    (served.1, s ++ served.2.map .network)
  | .connect address, a, s =>
    (if a.accepts then some () else none, s ++ [.connect address a.accepts])
  | .canonicalize path, a, s => (some a.canonical, s ++ [.canonicalize path a.canonical])
  | .canonicalizeNow path, a, s => (some a.canonical, s ++ [.canonicalize path a.canonical])
  | .metadata path, a, s => (if a.found then some () else none, s ++ [.metadata path a.found])
  | .poll, a, s => (some a.interruption, s)
  | .now, a, s => (some a.now, s ++ [.clock a.now])
  | .observe, a, s => (some (a.now, a.latencyMs), s)

def conditions (x : UrlCrate) : World (@ConditionValue x) (List (Contact x)) Surroundings Empty where
  serve := serveCondition
  interfere := fun _ s => s

abbrev ConditionProgram (x : UrlCrate) (α : Type) := Prog (@ConditionValue x) AdapterConfigError α

def attemptCondition (k : ConditionCall x) : ConditionProgram x (ConditionValue k) :=
  Prog.perform k AdapterConfigError.invalid

/-- A program that only uses the network. -/
def overNetwork {α : Type} (m : NetworkProgram x α) : ConditionProgram x α :=
  m.embed ConditionCall.network fun _ value => value

/-! ## The guard -/

/-- The status and the summary of an evaluation. -/
abbrev Finding := AdapterStatus × String

def Interruption.finding : Interruption → Finding
  | .cancelled => (.unknown, "Adapter evaluation was cancelled.")
  | .expired => (.unknown, "Adapter evaluation timed out.")

/-- The operation gives way to the guard while it waits for this call. -/
def ConditionCall.awaits : ConditionCall x → Bool
  | .network _ | .connect _ | .canonicalize _ | .metadata _ => true
  | _ => false

/-- Go on unless the evaluation is to be cut short. -/
def unlessInterrupted (next : ConditionProgram x Finding) : ConditionProgram x Finding :=
  .call .poll fun reply => match reply with
    | some (some interruption) => .pure interruption.finding
    | _ => next

/-- The operation, with the guard looking in whenever a call that it awaits is answered. -/
def watched : ConditionProgram x Finding → ConditionProgram x Finding
  | .pure finding => .pure finding
  | .throw error => .throw error
  | .call k next => .call k fun reply =>
    if k.awaits then unlessInterrupted (watched (next reply)) else watched (next reply)

/-- `AdapterResult::new` -/
def resultOf (finding : Finding) : ConditionProgram x AdapterResult := do
  let (now, latencyMs) ← attemptCondition .observe
  .pure { status := finding.1
          observedAt := now
          summary := finding.2
          metadata := { adapterVersion := adapterVersion, latencyMs := latencyMs } }

def guarded (operation : ConditionProgram x Finding) : ConditionProgram x AdapterResult :=
  (unlessInterrupted (watched operation)).bind resultOf

def invalidParameters : ConditionProgram x AdapterResult :=
  resultOf (.error, "Adapter parameters are invalid.")

def isDisabled : ConditionProgram x AdapterResult := resultOf (.unknown, "Adapter is disabled.")

/-! ## Parameters -/

/-- The fields of a `deny_unknown_fields` structure, by name or in their order. -/
def fieldsOf (names : List String) : Json → Option (List (Option Json))
  | .object members =>
    if members.all fun m => names.contains m.1 then
      some (names.map fun name => members.lookup name)
    else none
  | .array items => if items.length = names.length then some (items.map some) else none
  | _ => none

def textOf : Json → Option String
  | .string text => some text
  | _ => none

/-- The one text that the parameters of three adapters are. -/
def textParameter (name : String) (parameters : Json) : Option String :=
  match fieldsOf [name] parameters with
  | some [some value] => textOf value
  | _ => none

def u16Of : Json → Option UInt16
  | .number n =>
    match Admin.integerOf n.chars with
    | some value => if 0 ≤ value ∧ value < 2 ^ 16 then some (UInt16.ofNat value.toNat) else none
    | none => none
  | _ => none

/-- `target` and `expected_status`; an object may leave the status out, and it may be null. -/
def httpParameters (parameters : Json) : Option (String × Option UInt16) :=
  match fieldsOf ["target", "expected_status"] parameters with
  | some [some target, expected] => do
    let target ← textOf target
    match expected with
    | none | some .null => some (target, none)
    | some value => do
      let status ← u16Of value
      some (target, some status)
  | _ => none

/-! ## The adapters -/

/-- Try the addresses in turn. -/
def connectAny : List SocketAddr → ConditionProgram x Finding
  | [] => .pure (.unsatisfied, "Configured target did not accept a TCP connection.")
  | address :: addresses => do
    match ← (attemptCondition (.connect address)).attempt with
    | .ok _ => .pure (.satisfied, "Configured target accepted a TCP connection.")
    | .error _ => connectAny addresses

def tcpOperation (target : TcpTarget) : ConditionProgram x Finding := do
  match ← (overNetwork (resolveTarget target.host target.port target.policy)).attempt with
  | .ok addresses => connectAny addresses
  | .error _ => .pure (.error, "Configured target could not be safely resolved.")

/-- `closest_existing` at the moment of the evaluation; `names` are given in reverse. -/
def closestExistingNow (absolute : Bool) : List (List UInt8) → ConditionProgram x PathBuf
  | [] => do
    match ← attemptCondition (.canonicalizeNow { absolute := absolute, names := [] }) with
    | .resolved path => .pure path
    | _ => .throw .invalid
  | name :: names => do
    match ← attemptCondition
      (.canonicalizeNow { absolute := absolute, names := (name :: names).reverse }) with
    | .resolved path => .pure path
    | .notFound => closestExistingNow absolute names
    | .failed => .throw .invalid

def containedMetadata (path : PathBuf) (roots : List PathBuf) : ConditionProgram x Bool := do
  match ← attemptCondition (.canonicalize path) with
  | .resolved resolved =>
    if roots.any resolved.startsWith then do
      attemptCondition (.metadata resolved)
      .pure true
    else .throw .outsideBoundary
  | .notFound => do
    let resolved ← closestExistingNow path.absolute path.names.reverse
    if roots.any resolved.startsWith then .pure false else .throw .outsideBoundary
  | .failed => .throw .invalid

def fileOperation (target : FileTarget) (roots : List PathBuf) : ConditionProgram x Finding := do
  match ← (containedMetadata target.path roots).attempt with
  | .ok true => .pure (.satisfied, "Configured path exists.")
  | .ok false => .pure (.unsatisfied, "Configured path does not exist.")
  | .error _ => .pure (.error, "Configured path failed containment validation.")

def httpOperation (target : HttpTarget x) (expectedStatus : Option UInt16) (chunks : Nat) :
    ConditionProgram x Finding := do
  match ← (overNetwork (probe target expectedStatus chunks)).attempt with
  | .ok true => .pure (.satisfied, "Configured target reported healthy.")
  | .ok false => .pure (.unsatisfied, "Configured target did not report healthy.")
  | .error _ => .pure (.error, "Configured target health check failed safely.")

def windowOperation (windowEnd : OffsetDateTime) : ConditionProgram x Finding := do
  let now ← attemptCondition .now
  if windowEnd.utc ≤ now.utc then .pure (.satisfied, "Observation window ended.")
  else .pure (.unsatisfied, "Observation window has not ended.")

/-- What the three adapters with aliases do with the alias that is asked for. -/
def withAlias {τ : Type} (aliases : List (String × τ)) (name missing : String)
    (found : τ → ConditionProgram x AdapterResult) : ConditionProgram x AdapterResult :=
  if !validAlias name then invalidParameters
  else
    match aliases.lookup name with
    | none => resultOf (.unknown, missing)
    | some target => found target

/-- `ConditionAdapter::evaluate`; `chunks` bounds the body that an HTTP probe reads. -/
def evaluate (chunks : Nat) (parameters : Json) :
    Admin.Adapter x → ConditionProgram x AdapterResult
  | .observationWindow enabled =>
    if !enabled then isDisabled
    else
      match (textParameter "window_end" parameters).bind fun text =>
        (parseTimestamp text).toOption with
      | none => invalidParameters
      | some windowEnd => guarded (windowOperation windowEnd)
  | .http enabled aliases =>
    if !enabled then isDisabled
    else
      match httpParameters parameters with
      | none => invalidParameters
      | some (name, expectedStatus) =>
        withAlias aliases name "Configured target alias was not found." fun target =>
          if expectedStatus.any fun status => !target.expectedStatuses.contains status then
            invalidParameters
          else guarded (httpOperation target expectedStatus chunks)
  | .tcp enabled aliases =>
    if !enabled then isDisabled
    else
      match textParameter "target" parameters with
      | none => invalidParameters
      | some name => withAlias aliases name "Configured target alias was not found." fun target =>
          guarded (tcpOperation target)
  | .file enabled roots aliases =>
    if !enabled then isDisabled
    else
      match textParameter "path_alias" parameters with
      | none => invalidParameters
      | some name => withAlias aliases name "Configured path alias was not found." fun target =>
          guarded (fileOperation target roots)

/-- `evaluate_condition` of the scheduler. -/
def evaluateCondition (snapshot : Admin.AdapterSnapshot x) (chunks : Nat) (candidate : Remindi) :
    ConditionProgram x (Option AdapterResult) :=
  match candidate.trigger with
  | .condition adapter parameters _ _ =>
    match snapshot.lookup adapter with
    | none => .pure (some
        { status := .unknown
          observedAt := candidate.updatedAt
          summary := "Configured condition adapter is unavailable."
          metadata := { adapterVersion := "unavailable", latencyMs := 0 } })
    | some adapter => do
      let result ← evaluate chunks parameters adapter
      .pure (some result)
  | _ => .pure none

end RemindiCore.Triggers
