import RemindiCore.Domain.Evaluator
import RemindiCore.Domain.Evidence
import RemindiCore.Lib.BoundedMap
import RemindiCore.Lib.Machine
import RemindiCore.Lib.SlidingWindow

/-!
# Web sessions

`auth/web_session.rs`: the sessions, the pre-session tokens and the attempt
window of the web interface, and the restore gate of `http/api/admin.rs`.  Each
operation is a function of the three stores; `WebSessionManager.step` runs one
call with its clock reading, its random draws and the order in which its maps
are iterated.
-/

namespace RemindiCore.Web

open CivilTime Machine BoundedMap

def SESSION_COOKIE : String := "remindi_session"
def MAX_LOGIN_ATTEMPTS : Nat := 5
def LOGIN_WINDOW : Int := 60 * secondNanos
def MAX_TRACKED_ATTEMPTS : Nat := 1024
def MAX_SESSIONS : Nat := 1024
def MAX_PRE_SESSION_TOKENS : Nat := 1024
def PRE_SESSION_TTL : Int := 5 * 60 * secondNanos

inductive WebMode where
  | disabled | authenticated | unauthenticated
deriving DecidableEq

structure SessionView where
  actorId : String
  csrfToken : String
  expiresAt : OffsetDateTime
  reauthenticatedAt : Option OffsetDateTime
deriving DecidableEq

inductive LoginError where
  | disabled | csrfRejected | rateLimited | invalidCredentials | randomness
deriving DecidableEq

inductive SessionError where
  | disabled | unauthenticated | expired
deriving DecidableEq

structure StoredSession where
  actorId : String
  csrfToken : String
  expiresAt : OffsetDateTime
  reauthenticatedAt : OffsetDateTime

/-- SHA-256 and the URL-safe encoding without padding. -/
structure Digests where
  digest : String → List UInt8
  encode : List UInt8 → String

/-- What `BootstrapConfig` says about the web interface. -/
structure WebConfig where
  webuiEnabled : Bool
  webuiAuthEnabled : Bool
  webuiUsername : Option String
  webuiPassword : Option String
  webuiSessionTtlSeconds : Nat
  webuiCookieSecure : Bool

/-- The fields of `Inner` that never change. -/
structure WebSessionManager where
  mode : WebMode
  usernameDigest : Option (List UInt8)
  passwordDigest : Option (List UInt8)
  ttl : Int
  cookieSecure : Bool
  unauthenticatedCsrf : String

/-- The fields of `Inner` behind a mutex. -/
structure WebState where
  sessions : HashMap String StoredSession
  preSession : HashMap String OffsetDateTime
  loginAttempts : List OffsetDateTime

def WebState.initial : WebState := ⟨KeyedTable.Table.empty, KeyedTable.Table.empty, []⟩

/-- What surrounds one call: the clock, up to two draws of `random_token` and
the iteration of the maps. -/
structure CallEnv where
  now : OffsetDateTime
  token : Option String
  csrfToken : Option String
  order : Iteration String

/-! ## Cookies -/

abbrev HeaderValue := List UInt8

/-- The values of the `Cookie` headers of a request. -/
structure HeaderMap where
  cookie : List HeaderValue

/-- Only visible characters and tabs are read as text. -/
def HeaderValue.toStr (value : HeaderValue) : Option (List Char) :=
  if value.all fun b => (32 ≤ b && b < 127) || b == 9 then
    some (value.map fun b => Char.ofNat b.toNat)
  else none

def trimChars (value : List Char) : List Char :=
  (value.dropWhile isWhitespace).rdropWhile isWhitespace

/-- The values of the parts `name=value`. -/
def cookieParts (text : List Char) (name : String) : List String :=
  (text.splitOn ';').filterMap fun part =>
    match splitOnce ['='] (trimChars part) with
    | some (key, value) => if String.ofList key = name then some (String.ofList value) else none
    | none => none

/-- The value of a cookie that the request gives exactly once. -/
def cookieValue (headers : HeaderMap) (name : String) : Option String :=
  match headers.cookie with
  | [value] => do
    let text ← value.toStr
    match cookieParts text name with
    | [value] => some value
    | _ => none
  | _ => none

def secure (cookieSecure : Bool) : String := if cookieSecure then "; Secure" else ""

def sessionCookie (id : String) (ttl : Int) (cookieSecure : Bool) : String :=
  SESSION_COOKIE ++ "=" ++ id ++ "; Path=/; HttpOnly; SameSite=Strict; Max-Age=" ++
    toString (ttl / secondNanos) ++ secure cookieSecure

def clearedCookie (cookieSecure : Bool) : String :=
  SESSION_COOKIE ++ "=; Path=/; HttpOnly; SameSite=Strict; Max-Age=0" ++ secure cookieSecure

example : cookieValue ⟨[("a=b; remindi_session=t=1 ;c").toUTF8.data.toList]⟩ SESSION_COOKIE =
    some "t=1" := by decide +kernel

/-! ## The manager -/

namespace WebSessionManager

def fromConfig (x : Digests) (config : WebConfig) (token : Option String) :
    Except LoginError WebSessionManager :=
  match token with
  | none => .error .randomness
  | some unauthenticatedCsrf =>
    .ok
      { mode :=
          if ¬config.webuiEnabled then .disabled
          else if config.webuiAuthEnabled then .authenticated
          else .unauthenticated
        usernameDigest := config.webuiUsername.map x.digest
        passwordDigest := config.webuiPassword.map x.digest
        ttl := min config.webuiSessionTtlSeconds i64Max * secondNanos
        cookieSecure := config.webuiCookieSecure
        unauthenticatedCsrf }

def view (session : StoredSession) : SessionView where
  actorId := session.actorId
  csrfToken := session.csrfToken
  expiresAt := session.expiresAt
  reauthenticatedAt := some session.reauthenticatedAt

structure LoginSuccess where
  session : SessionView
  setCookie : String

structure ReauthenticationSuccess where
  session : SessionView
  setCookie : Option String

variable (x : Digests) (manager : WebSessionManager) (env : CallEnv) (s : WebState)

def actorId (username : String) : String := "webui:" ++ x.encode (x.digest username)

/-- Whether a text has the configured digest. -/
def matchesDigest (expected : Option (List UInt8)) (text : String) : Bool :=
  expected.any fun expected => x.digest text == expected

/-- Drop the expired sessions, make room and insert. -/
def storeSession (id : String) (stored : StoredSession) : WebState :=
  { s with
    sessions :=
      ((s.sessions.retain fun session => decide (env.now.utc < session.expiresAt.utc)).evictOneAtCapacity
        env.order MAX_SESSIONS).insert id stored }

def issuePreSessionToken : Except LoginError String × WebState :=
  if manager.mode = .disabled then (.error .disabled, s)
  else
    match env.token with
    | none => (.error .randomness, s)
    | some token =>
      (.ok token,
        { s with
          preSession :=
            ((s.preSession.retain fun expires => decide (env.now.utc < expires.utc)).evictOneAtCapacity
              env.order MAX_PRE_SESSION_TOKENS).insert token (env.now.addNanos PRE_SESSION_TTL) })

/-- The token is gone whether it was still good or not. -/
def consumePreSession (token : String) : Except LoginError Unit × WebState :=
  match s.preSession.get token with
  | none => (.error .csrfRejected, s)
  | some expires =>
    (if env.now.utc < expires.utc then .ok () else .error .csrfRejected,
      { s with preSession := s.preSession.remove token })

/-- A refusal leaves the attempts that still count. -/
def checkRateLimit : Except LoginError Unit × WebState :=
  match SlidingWindow.letThrough OffsetDateTime.utc MAX_LOGIN_ATTEMPTS MAX_TRACKED_ATTEMPTS LOGIN_WINDOW
      env.now s.loginAttempts with
  | none =>
    (.error .rateLimited,
      { s with
        loginAttempts := SlidingWindow.recent OffsetDateTime.utc LOGIN_WINDOW env.now s.loginAttempts })
  | some loginAttempts => (.ok (), { s with loginAttempts })

/-- The session of a login whose credentials are right. -/
def openSession (username : String) : Except LoginError LoginSuccess × WebState :=
  match env.token, env.csrfToken with
  | some id, some csrfToken =>
    let stored : StoredSession :=
      { actorId := actorId x username
        csrfToken
        expiresAt := env.now.addNanos manager.ttl
        reauthenticatedAt := env.now }
    (.ok ⟨view stored, sessionCookie id manager.ttl manager.cookieSecure⟩,
      storeSession env s id stored)
  | _, _ => (.error .randomness, s)

def login (username password preSessionToken : String) : Except LoginError LoginSuccess × WebState :=
  if manager.mode ≠ .authenticated then (.error .disabled, s)
  else
    match consumePreSession env s preSessionToken with
    | (.error e, s) => (.error e, s)
    | (.ok (), s) =>
      match checkRateLimit env s with
      | (.error e, s) => (.error e, s)
      | (.ok (), s) =>
        if ¬(matchesDigest x manager.usernameDigest username ∧
            matchesDigest x manager.passwordDigest password) then (.error .invalidCredentials, s)
        else openSession x manager env s username

/-- The view of anybody in the unauthenticated mode: 365000 days after the epoch. -/
def unauthenticatedView : SessionView where
  actorId := "webui:unauthenticated"
  csrfToken := manager.unauthenticatedCsrf
  expiresAt := ⟨365000 * 86400 * secondNanos, 0⟩
  reauthenticatedAt := none

def authenticate (headers : HeaderMap) : Except SessionError SessionView × WebState :=
  match manager.mode with
  | .disabled => (.error .disabled, s)
  | .unauthenticated =>
    match cookieValue headers SESSION_COOKIE with
    | none => (.ok (unauthenticatedView manager), s)
    | some id =>
      match s.sessions.get id with
      | none => (.ok (unauthenticatedView manager), s)
      | some session =>
        if env.now.utc < session.expiresAt.utc then (.ok (view session), s)
        else (.ok (unauthenticatedView manager), { s with sessions := s.sessions.remove id })
  | .authenticated =>
    match cookieValue headers SESSION_COOKIE with
    | none => (.error .unauthenticated, s)
    | some id =>
      match s.sessions.get id with
      | none => (.error .unauthenticated, s)
      | some session =>
        if session.expiresAt.utc ≤ env.now.utc then
          (.error .expired, { s with sessions := s.sessions.remove id })
        else (.ok (view session), s)

/-- The unauthenticated mode makes a session of its own. -/
def reauthenticateAnyone (passwordValid : Bool) :
    Except LoginError ReauthenticationSuccess × WebState :=
  if manager.usernameDigest.isNone ∨ ¬passwordValid then (.error .invalidCredentials, s)
  else
    match env.token with
    | none => (.error .randomness, s)
    | some id =>
      let stored : StoredSession :=
        { actorId := "webui:unauthenticated"
          csrfToken := manager.unauthenticatedCsrf
          expiresAt := env.now.addNanos manager.ttl
          reauthenticatedAt := env.now }
      (.ok ⟨view stored, some (sessionCookie id manager.ttl manager.cookieSecure)⟩,
        storeSession env s id stored)

/-- The session of the cookie, when it is there and not expired, and the password is right. -/
def refreshSession (headers : HeaderMap) (passwordValid : Bool) :
    Except LoginError ReauthenticationSuccess × WebState :=
  match cookieValue headers SESSION_COOKIE with
  | none => (.error .invalidCredentials, s)
  | some id =>
    match s.sessions.get id with
    | none => (.error .invalidCredentials, s)
    | some session =>
      if ¬env.now.utc < session.expiresAt.utc then (.error .invalidCredentials, s)
      else if ¬passwordValid then (.error .invalidCredentials, s)
      else
        let session := { session with reauthenticatedAt := env.now }
        (.ok ⟨view session, none⟩, { s with sessions := s.sessions.insert id session })

/-- Re-validates the configured password and refreshes the session's recent-auth time. -/
def reauthenticate (headers : HeaderMap) (password : String) :
    Except LoginError ReauthenticationSuccess × WebState :=
  if manager.mode = .disabled then (.error .disabled, s)
  else
    match checkRateLimit env s with
    | (.error e, s) => (.error e, s)
    | (.ok (), s) =>
      let passwordValid := matchesDigest x manager.passwordDigest password
      if manager.mode = .unauthenticated then reauthenticateAnyone manager env s passwordValid
      else refreshSession env s headers passwordValid

def logout (headers : HeaderMap) : String × WebState :=
  (clearedCookie manager.cookieSecure,
    match cookieValue headers SESSION_COOKIE with
    | some id => { s with sessions := s.sessions.remove id }
    | none => s)

/-! ## The restore gate -/

def recentlyReauthenticated (reauthenticatedAt : Option OffsetDateTime) (now : OffsetDateTime) :
    Bool :=
  reauthenticatedAt.any fun at_ =>
    decide (at_.utc ≤ now.utc ∧ now.utc - at_.utc ≤ 5 * 60 * secondNanos)

/-- Whether `restore_backup` goes on to the restore; the actor was resolved by
an authentication of its own. -/
def restoreGate (headers : HeaderMap) : Bool × WebState :=
  match authenticate manager env s headers with
  | (.error _, s) => (false, s)
  | (.ok session, s) => (recentlyReauthenticated session.reauthenticatedAt env.now, s)

/-! ## One call -/

inductive Call where
  | issuePreSessionToken
  | login (username password preSessionToken : String)
  | authenticate (headers : HeaderMap)
  | reauthenticate (headers : HeaderMap) (password : String)
  | logout (headers : HeaderMap)
  | restoreGate (headers : HeaderMap)

inductive Answer where
  | issued (result : Except LoginError String)
  | login (result : Except LoginError LoginSuccess)
  | session (result : Except SessionError SessionView)
  | reauthenticated (result : Except LoginError ReauthenticationSuccess)
  | loggedOut (setCookie : String)
  | gate (passed : Bool)

/-- A call and what surrounds it. -/
structure Step where
  env : CallEnv
  call : Call

def step (s : WebState) (l : Step) : WebState × Answer :=
  match l.call with
  | .issuePreSessionToken =>
    let (result, s) := issuePreSessionToken manager l.env s
    (s, .issued result)
  | .login username password token =>
    let (result, s) := login x manager l.env s username password token
    (s, .login result)
  | .authenticate headers =>
    let (result, s) := authenticate manager l.env s headers
    (s, .session result)
  | .reauthenticate headers password =>
    let (result, s) := reauthenticate x manager l.env s headers password
    (s, .reauthenticated result)
  | .logout headers =>
    let (setCookie, s) := logout manager s headers
    (s, .loggedOut setCookie)
  | .restoreGate headers =>
    let (passed, s) := restoreGate manager l.env s headers
    (s, .gate passed)

end WebSessionManager

end RemindiCore.Web
