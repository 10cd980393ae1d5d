import RemindiCore.Service.Requests
import RemindiCore.Web.Session

/-!
# Browser requests

`auth/csrf.rs` and the helpers of `http/api/mod.rs` that stand in front of the handlers: a
request that changes something comes from the origin of its host and carries the token of its
session.
-/

namespace RemindiCore.Web

open WebSessionManager

/-- The headers that the two listeners look at, each with all its values. -/
structure RequestHeaders extends HeaderMap where
  host : List HeaderValue
  origin : List HeaderValue
  csrfToken : List HeaderValue
  authorization : List HeaderValue
  requestId : List HeaderValue

inductive Method where
  | get | head | options | post | patch
deriving DecidableEq

inductive CsrfError where
  | missingOrigin | crossOrigin | missingToken | invalidToken
deriving DecidableEq

/-- The text of a header that the request gives exactly once. -/
def onlyText : List HeaderValue → Option (List Char)
  | [value] => value.toStr
  | _ => none

def withoutScheme (origin : List Char) : Option (List Char) :=
  if "https://".toList.isPrefixOf origin then some (origin.drop 8)
  else if "http://".toList.isPrefixOf origin then some (origin.drop 7)
  else none

/-- The host of an origin, with its port. -/
def originHost (origin : List Char) : Option (List Char) :=
  (withoutScheme origin).filter fun authority => !authority.contains '/' && !authority.contains '@'

def eqIgnoreAsciiCase (a b : List Char) : Bool := a.map Char.toLower == b.map Char.toLower

def validateSameOrigin (headers : RequestHeaders) : Except CsrfError Unit :=
  match onlyText headers.host, onlyText headers.origin with
  | some host, some origin =>
    match originHost origin with
    | some authority => if eqIgnoreAsciiCase authority host then .ok () else .error .crossOrigin
    | none => .error .crossOrigin
  | _, _ => .error .missingOrigin

def validateMutation (method : Method) (headers : RequestHeaders) (expectedToken : String) :
    Except CsrfError Unit :=
  if method = .get ∨ method = .head ∨ method = .options then .ok ()
  else do
    validateSameOrigin headers
    match onlyText headers.csrfToken with
    | none => .error .missingToken
    | some supplied =>
      if String.ofList supplied = expectedToken then .ok () else .error .invalidToken

/-- The identifier that the middleware has put in, or what stands for none. -/
def requestId (headers : RequestHeaders) : String :=
  match (headers.requestId.head?.bind HeaderValue.toStr).filter fun value =>
    !value.isEmpty && value.length ≤ 128 with
  | some value => String.ofList value
  | none => "request-unavailable"

inductive ApiError where
  | unauthenticated | csrfRejected
deriving DecidableEq

def sessionActor (session : SessionView) (headers : RequestHeaders) : Actor where
  actorType := .user
  actorId := session.actorId
  requestId := some (requestId headers)

def authorizeMutation (manager : WebSessionManager) (env : CallEnv) (s : WebState)
    (headers : RequestHeaders) (method : Method) : Except ApiError Actor × WebState :=
  match authenticate manager env s headers.toHeaderMap with
  | (.error _, s) => (.error .unauthenticated, s)
  | (.ok session, s) =>
    match validateMutation method headers session.csrfToken with
    | .error _ => (.error .csrfRejected, s)
    | .ok () => (.ok (sessionActor session headers), s)

/-! ## What a valid request gives -/

/-- A request from the origin of its host. -/
structure OwnOrigin (headers : RequestHeaders) : Prop where
  given : ∃ host origin authority, onlyText headers.host = some host ∧
    onlyText headers.origin = some origin ∧ originHost origin = some authority ∧
    eqIgnoreAsciiCase authority host = true

theorem validateSameOrigin_ok {headers : RequestHeaders} :
    validateSameOrigin headers = .ok () ↔ OwnOrigin headers := by
  unfold validateSameOrigin
  constructor
  · intro h
    cases hhost : onlyText headers.host with
    | none =>
      rw [hhost] at h
      cases h
    | some host =>
      cases horigin : onlyText headers.origin with
      | none =>
        rw [hhost, horigin] at h
        cases h
      | some origin =>
        rw [hhost, horigin] at h
        dsimp only at h
        cases hauthority : originHost origin with
        | none =>
          rw [hauthority] at h
          cases h
        | some authority =>
          rw [hauthority] at h
          dsimp only at h
          split at h
          · next hsame => exact ⟨host, origin, authority, hhost, horigin, hauthority, hsame⟩
          · cases h
  · rintro ⟨host, origin, authority, hhost, horigin, hauthority, hsame⟩
    rw [hhost, horigin]
    dsimp only
    rw [hauthority]
    exact if_pos hsame

/-- **A change is let through with its origin and its token only.** -/
theorem validateMutation_ok {method : Method} {headers : RequestHeaders} {expected : String}
    (hmethod : ¬(method = .get ∨ method = .head ∨ method = .options)) :
    validateMutation method headers expected = .ok () ↔
      OwnOrigin headers ∧ ∃ supplied, onlyText headers.csrfToken = some supplied ∧
        String.ofList supplied = expected := by
  unfold validateMutation
  rw [if_neg hmethod]
  constructor
  · intro h
    obtain ⟨_, horigin, h⟩ := Transaction.except_bind_ok.mp h
    refine ⟨validateSameOrigin_ok.mp horigin, ?_⟩
    split at h
    · cases h
    · next supplied hsupplied =>
      split at h
      · next hsame => exact ⟨supplied, hsupplied, hsame⟩
      · cases h
  · rintro ⟨horigin, supplied, hsupplied, hsame⟩
    refine Transaction.except_bind_ok.mpr ⟨(), validateSameOrigin_ok.mpr horigin, ?_⟩
    rw [hsupplied]
    exact if_pos hsame

end RemindiCore.Web
