import RemindiCore.Lib.Base64Url
import RemindiCore.Service.Cursors
import RemindiCore.Web.Csrf

/-!
# The bearer of the tools

`auth/mcp.rs`: the policy that is built of the owner, the token and the allowed hosts and
origins, and the authentication of one request.  The parsers of the `http` crate are parameters.
-/

namespace RemindiCore.Mcp

open Web

/-- `Authority` with its host and port, and `Uri` with its scheme and authority. -/
structure HttpNames where
  authority : List Char → Option (List Char × Option Nat)
  uri : List Char → Option (Option (List Char) × Option (List Char))

def TOKEN_CHECK_DOMAIN : List UInt8 := textBytes "remindi:mcp-bearer-check:v1" ++ [0]
def ACTOR_DOMAIN : List UInt8 := textBytes "remindi:mcp-actor:v1" ++ [0]

structure McpIdentity where
  ownerId : String
  actorId : String
deriving DecidableEq

inductive McpAuthError where
  | invalidHostPolicy | invalidOriginPolicy | unauthenticated | credentialLocation
  | hostRejected | originRejected
deriving DecidableEq

/-! ## Names -/

def normalizeAuthority (names : HttpNames) (value : List Char) : Option (List Char) :=
  if value.isEmpty || trimChars value != value || value.contains '@' then none
  else do
    let (host, port) ← names.authority value
    let host := host.map Char.toLower
    let host := if host.contains ':' && host.head? != some '[' then '[' :: host ++ [']'] else host
    match port with
    | some port => return host ++ ':' :: (toString port).toList
    | none => return host

def normalizeOrigin (names : HttpNames) (value : List Char) : Option (List Char) :=
  if value.isEmpty || trimChars value != value then none
  else do
    let (_, authorityText) ← splitOnce "://".toList value
    if authorityText.isEmpty || authorityText.any fun c => c == '/' || c == '?' || c == '#' then
      none
    let (scheme, authority) ← names.uri value
    let scheme := (← scheme).map Char.toLower
    if scheme ≠ "http".toList ∧ scheme ≠ "https".toList then none
    let authority ← normalizeAuthority names (← authority)
    return scheme ++ "://".toList ++ authority

def originAuthority (origin : List Char) : List Char :=
  match splitOnce "://".toList origin with
  | some (_, authority) => authority
  | none => []

/-! ## Digests -/

/-- `u64::to_be_bytes` -/
def toBeBytes (n : Nat) : List UInt8 :=
  (List.range 8).map fun i => UInt8.ofNat (n / 256 ^ (7 - i))

def tokenDigest (sha256 : List UInt8 → List UInt8) (token : List UInt8) : List UInt8 :=
  sha256 (TOKEN_CHECK_DOMAIN ++ token)

/-- What the fingerprint of an actor is a digest of. -/
def actorInput (ownerId token : List UInt8) : List UInt8 :=
  ACTOR_DOMAIN ++ toBeBytes ownerId.length ++ ownerId ++ toBeBytes token.length ++ token

def actorFingerprint (sha256 : List UInt8 → List UInt8) (ownerId token : List UInt8) : String :=
  "mcp:" ++ String.ofList (Base64Url.encode (sha256 (actorInput ownerId token)))

/-! ## The policy -/

structure McpAuthPolicy where
  ownerId : String
  expectedTokenDigest : List UInt8
  actorId : String
  allowedHosts : List (List Char)
  allowedOrigins : List (List Char)

namespace McpAuthPolicy

def new (names : HttpNames) (sha256 : List UInt8 → List UInt8) (ownerId : String)
    (token : List UInt8) (allowedHosts allowedOrigins : List String) :
    Except McpAuthError McpAuthPolicy :=
  match allowedHosts.mapM fun host => normalizeAuthority names host.toList with
  | none => .error .invalidHostPolicy
  | some hosts =>
    match allowedOrigins.mapM fun origin => normalizeOrigin names origin.toList with
    | none => .error .invalidOriginPolicy
    | some origins =>
      .ok
        { ownerId := ownerId
          expectedTokenDigest := tokenDigest sha256 token
          actorId := actorFingerprint sha256 (textBytes ownerId) token
          allowedHosts := hosts
          allowedOrigins := origins }

/-- `u8::is_ascii_whitespace` -/
def isAsciiWhitespace (c : Char) : Bool :=
  c == ' ' || c == '\t' || c == '\n' || c == '\r' || c.toNat == 12

/-- The token of `Bearer token`, without any whitespace in it. -/
def parseBearer (value : HeaderValue) : Option (List UInt8) := do
  let text ← value.toStr
  if !"Bearer ".toList.isPrefixOf text then none
  let candidate := text.drop 7
  if candidate.isEmpty || candidate.any isAsciiWhitespace then none
  return candidate.map fun c => UInt8.ofNat c.toNat

def identity (policy : McpAuthPolicy) : McpIdentity where
  ownerId := policy.ownerId
  actorId := policy.actorId

/-- The checks of the host and the origin. -/
def authorizeNames (policy : McpAuthPolicy) (names : HttpNames) (headers : RequestHeaders) :
    Except McpAuthError Unit :=
  match (onlyText headers.host).bind (normalizeAuthority names) with
  | none => .error .hostRejected
  | some host =>
    if policy.allowedHosts ≠ [] ∧ host ∉ policy.allowedHosts then .error .hostRejected
    else
      match headers.origin with
      | [] => .ok ()
      | [value] =>
        match value.toStr.bind (normalizeOrigin names) with
        | none => .error .originRejected
        | some origin =>
          if (if policy.allowedOrigins = [] then originAuthority origin = host
            else origin ∈ policy.allowedOrigins) then .ok () else .error .originRejected
      | _ => .error .originRejected

def authenticate (policy : McpAuthPolicy) (names : HttpNames) (sha256 : List UInt8 → List UInt8)
    (headers : RequestHeaders) (query : Bool) : Except McpAuthError McpIdentity := do
  if headers.cookie ≠ [] ∨ query = true then throw .credentialLocation
  policy.authorizeNames names headers
  match headers.authorization with
  | [value] =>
    match parseBearer value with
    | none => .error .unauthenticated
    | some candidate =>
      if tokenDigest sha256 candidate = policy.expectedTokenDigest then .ok policy.identity
      else .error .unauthenticated
  | _ => .error .unauthenticated

/-! ## What an authenticated request gives -/

variable {policy : McpAuthPolicy} {names : HttpNames} {sha256 : List UInt8 → List UInt8}

/-- A request that carries the token, once, and nothing where it does not belong. -/
structure Bears (sha256 : List UInt8 → List UInt8) (token : List UInt8)
    (headers : RequestHeaders) (query : Bool) : Prop where
  location : headers.cookie = [] ∧ query = false
  bearer : ∃ value candidate, headers.authorization = [value] ∧
    parseBearer value = some candidate ∧ tokenDigest sha256 candidate = tokenDigest sha256 token

/-- **Only the token is let in.** -/
theorem authenticate_ok {ownerId : String} {token : List UInt8} {hosts origins : List String}
    {headers : RequestHeaders} {query : Bool} {found : McpIdentity}
    (hpolicy : new names sha256 ownerId token hosts origins = .ok policy)
    (h : policy.authenticate names sha256 headers query = .ok found) :
    found = policy.identity ∧ Bears sha256 token headers query ∧
      policy.authorizeNames names headers = .ok () := by
  have hdigest : policy.expectedTokenDigest = tokenDigest sha256 token := by
    unfold new at hpolicy
    split at hpolicy
    · cases hpolicy
    · split at hpolicy
      · cases hpolicy
      · cases hpolicy
        rfl
  unfold authenticate at h
  by_cases hlocation : headers.cookie ≠ [] ∨ query = true
  · rw [if_pos hlocation] at h
    cases h
  · rw [if_neg hlocation] at h
    obtain ⟨_, hnames, h⟩ := Transaction.except_bind_ok.mp h
    rw [not_or, not_not, Bool.not_eq_true] at hlocation
    split at h
    · next value hvalue =>
      split at h
      · cases h
      · next candidate hcandidate =>
        split at h
        · next hsame =>
          cases h
          exact ⟨rfl, ⟨hlocation, value, candidate, hvalue, hcandidate, hsame.trans hdigest⟩,
            hnames⟩
        · cases h
    · cases h

end McpAuthPolicy

end RemindiCore.Mcp
