import RemindiCore.Lib.Fallible
import RemindiCore.Triggers.Adapters

/-!
# The HTTP health adapter

`probe` (`triggers/adapters/http_health.rs`) asks a configured HTTPS target and
follows a few redirects itself.  DNS and the other side answer as they like:
names, responses and bodies are the replies to its calls, and what has been sent
and read is the state (`Traffic`).
-/

namespace RemindiCore.Triggers

open Fallible

/-- The functions of the URL library. -/
structure UrlCrate where
  Url : Type
  parse : String → Option Url
  join : Url → String → Option Url
  scheme : Url → String
  username : Url → String
  password : Url → Option String
  hostStr : Url → Option String
  portOrKnownDefault : Url → Option UInt16
  fragment : Url → Option String

def maxRedirects : Nat := 3

def maxConfiguredResponseBytes : Nat := 1048576

/-! ## Targets -/

/-- What `HttpTarget::new` checks. -/
def validTarget (x : UrlCrate) (url : x.Url) (expectedStatuses : List UInt16)
    (maxResponseBytes : Nat) (expectedContentType : Option String) : Bool :=
  x.scheme url = "https" && x.username url = "" && (x.password url).isNone &&
    (x.hostStr url).isSome && (x.fragment url).isNone && !expectedStatuses.isEmpty &&
    expectedStatuses.all (fun status => 100 ≤ status && status ≤ 599) &&
    decide (maxResponseBytes ≠ 0) && decide (maxResponseBytes ≤ maxConfiguredResponseBytes) &&
    expectedContentType.all fun contentType =>
      !contentType.toList.isEmpty && decide (contentType.utf8ByteSize ≤ 128) &&
        !contentType.toList.any isControl

/-- A configured target has been checked. -/
structure HttpTarget (x : UrlCrate) where
  url : x.Url
  expectedStatuses : List UInt16
  maxResponseBytes : Nat
  expectedContentType : Option String
  allowRedirects : Bool
  policy : NetworkPolicy
  valid : validTarget x url expectedStatuses maxResponseBytes expectedContentType = true

def HttpTarget.new (x : UrlCrate) (url : String) (expectedStatuses : List UInt16)
    (maxResponseBytes : Nat) (expectedContentType : Option String) (allowRedirects : Bool)
    (policy : NetworkPolicy) : Except AdapterConfigError (HttpTarget x) :=
  match x.parse url with
  | none => .error .invalid
  | some url =>
    if h : validTarget x url expectedStatuses maxResponseBytes expectedContentType = true then
      .ok { url := url
            expectedStatuses := expectedStatuses
            maxResponseBytes := maxResponseBytes
            expectedContentType := expectedContentType
            allowRedirects := allowRedirects
            policy := policy
            valid := h }
    else .error .invalid

theorem HttpTarget.https {x : UrlCrate} (target : HttpTarget x) : x.scheme target.url = "https" := by
  have h := target.valid
  unfold validTarget at h
  simp only [Bool.and_eq_true, decide_eq_true_eq] at h
  exact h.1.1.1.1.1.1.1.1.1

/-! ## Calls -/

/-- The status and the headers that are read, as far as they are text. -/
structure Response where
  status : UInt16
  location : Option String
  contentLength : Option String
  contentType : Option String

inductive NetworkCall (x : UrlCrate) where
  | lookupHost (host : String) (port : UInt16)
  /-- A client for these addresses sends a GET. -/
  | send (url : x.Url) (addresses : List SocketAddr)
  | nextChunk

abbrev NetworkValue {x : UrlCrate} : NetworkCall x → Type
  | .lookupHost _ _ => List SocketAddr
  | .send _ _ => Response
  | .nextChunk => Option Nat

/-- What has gone over the network. -/
inductive Traffic (x : UrlCrate) where
  | lookup (host : String) (port : UInt16) (answer : Option (List SocketAddr))
  | request (url : x.Url) (addresses : List SocketAddr)
  | chunk (length : Nat)

/-- What DNS and the other side answer; nothing is an error. -/
structure Adversary where
  addresses : Option (List SocketAddr)
  response : Option Response
  /-- The length of the next chunk; `some none` is the end of the body. -/
  chunk : Option (Option Nat)

def serveNetwork {x : UrlCrate} : (k : NetworkCall x) → Adversary → List (Traffic x) →
    Option (NetworkValue k) × List (Traffic x)
  | .lookupHost host port, a, traffic =>
    (a.addresses, traffic ++ [.lookup host port a.addresses])
  | .send url addresses, a, traffic => (a.response, traffic ++ [.request url addresses])
  | .nextChunk, a, traffic =>
    (a.chunk, match a.chunk with
      | some (some length) => traffic ++ [.chunk length]
      | _ => traffic)

def network (x : UrlCrate) : World (@NetworkValue x) (List (Traffic x)) Adversary Empty where
  serve := serveNetwork
  interfere := fun _ traffic => traffic

abbrev NetworkProgram (x : UrlCrate) (α : Type) := Prog (@NetworkValue x) AdapterConfigError α

variable {x : UrlCrate}

/-- A call whose failure is `AdapterConfigError::Invalid`. -/
def attemptCall (k : NetworkCall x) : NetworkProgram x (NetworkValue k) :=
  Prog.perform k AdapterConfigError.invalid

/-! ## The probe -/

def origin (url : x.Url) : Except AdapterConfigError (String × UInt16) :=
  match x.hostStr url, x.portOrKnownDefault url with
  | some host, some port => .ok (host, port)
  | _, _ => .error .invalid

def resolveTarget (host : String) (port : UInt16) (policy : NetworkPolicy) :
    NetworkProgram x (List SocketAddr) := do
  let addresses ← attemptCall (.lookupHost host port)
  if addresses.isEmpty then .throw .invalid
  else do
    Prog.ofExcept (validateAll policy addresses)
    .pure addresses

def nextRedirect (current : x.Url) (location : String) : Except AdapterConfigError x.Url :=
  match x.join current location with
  | none => .error .invalid
  | some destination =>
    if x.scheme destination ≠ "https" ∨ x.username destination ≠ "" ∨
        (x.password destination).isSome then .error .destinationDenied
    else do
      let destinationOrigin ← origin destination
      let currentOrigin ← origin current
      if destinationOrigin ≠ currentOrigin then .error .destinationDenied else .ok destination

/-- `checked_add` on a 64-bit `usize`, and the bound. -/
def boundedTotal (current additional maximum : Nat) : Except AdapterConfigError Nat :=
  if 2 ^ 64 ≤ current + additional then .error .invalid
  else if maximum < current + additional then .error .invalid
  else .ok (current + additional)

/-- Read the body.  The stream need not end: the number of chunks bounds a run of the
loop, and no run has answers for them all. -/
def consumeBounded (maximum : Nat) : Nat → Nat → NetworkProgram x Unit
  | 0, _ => .throw .invalid
  | chunks + 1, total => do
    match ← attemptCall .nextChunk with
    | none => .pure ()
    | some length => do
      let total ← Prog.ofExcept (boundedTotal total length maximum)
      consumeBounded maximum chunks total

/-- `str::parse::<usize>`: digits, with a plus or without. -/
def parseUsize (text : String) : Option Nat :=
  let digits := match text.toList with
    | '+' :: digits => digits
    | digits => digits
  if digits.isEmpty || !digits.all Char.isDigit then none
  else
    let value := Nat.ofDigitChars 10 digits 0
    if value < 2 ^ 64 then some value else none

/-- The media type of a `Content-Type`, without its parameters. -/
def mediaType (contentType : String) : String :=
  String.ofList (contentType.toList.takeWhile (· ≠ ';'))

def eqIgnoreAsciiCase (a b : String) : Bool := a.toLower = b.toLower

/-- `Content-Length` announces more than the target allows. -/
def announcesTooMuch (response : Response) (maximum : Nat) : Bool :=
  (response.contentLength.bind parseUsize).any fun length => maximum < length

def unexpectedContentType (response : Response) (expected : Option String) : Bool :=
  expected.any fun expected =>
    (response.contentType.map mediaType).all fun actual => !eqIgnoreAsciiCase actual expected

/-- `StatusCode::from_u16` -/
def statusCode (status : UInt16) : Option UInt16 :=
  if 100 ≤ status && status ≤ 999 then some status else none

/-- The verdict on a response that is not a redirection. -/
def judge (target : HttpTarget x) (expectedStatus : Option UInt16) (chunks : Nat)
    (response : Response) : NetworkProgram x Bool :=
  if announcesTooMuch response target.maxResponseBytes then .throw .invalid
  else if unexpectedContentType response target.expectedContentType then .pure false
  else do
    consumeBounded target.maxResponseBytes chunks 0
    match expectedStatus with
    | none => .pure (target.expectedStatuses.contains response.status)
    | some expected =>
      match statusCode expected with
      | none => .throw .invalid
      | some expected => .pure (response.status = expected)

def isRedirection (status : UInt16) : Bool := 300 ≤ status && status ≤ 399

/-- The rounds of the loop `for redirect_count in 0..=MAX_REDIRECTS`. -/
def probeFrom (target : HttpTarget x) (expectedStatus : Option UInt16) (chunks : Nat) :
    Nat → Nat → x.Url → NetworkProgram x Bool
  | 0, _, _ => .throw .invalid
  | rounds + 1, redirectCount, current => do
    let original ← Prog.ofExcept (origin target.url)
    let (host, port) ← Prog.ofExcept (origin current)
    if (host, port) ≠ original then .throw .destinationDenied
    else do
      let addresses ← resolveTarget host port target.policy
      let response ← attemptCall (.send current addresses)
      if isRedirection response.status then
        if !target.allowRedirects || redirectCount = maxRedirects then .throw .destinationDenied
        else
          match response.location with
          | none => .throw .invalid
          | some location => do
            let next ← Prog.ofExcept (nextRedirect current location)
            probeFrom target expectedStatus chunks rounds (redirectCount + 1) next
      else judge target expectedStatus chunks response

def probe (target : HttpTarget x) (expectedStatus : Option UInt16) (chunks : Nat) :
    NetworkProgram x Bool :=
  probeFrom target expectedStatus chunks (maxRedirects + 1) 0 target.url

end RemindiCore.Triggers
