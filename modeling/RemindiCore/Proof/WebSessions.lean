import RemindiCore.Web.Session
import Mathlib.Data.Set.Finite.Lattice

/-!
# Web session safety

What each call of `Web/Session.lean` does in the authenticated mode is an
inductive relation (`LoginRuns`, `ReauthenticateRuns`, `AuthenticateRuns`), and
each guarantee is an invariant of the calls so far and of one store: every
stored session was opened by a login and not logged out since (`SessionsOpened`),
every stored token was issued and not used (`TokensIssued`), and the attempts
are those of the sliding window (`AttemptsTracked`).
-/

namespace RemindiCore.Web

open CivilTime Machine BoundedMap

namespace WebSessionManager

abbrev CallRecord := Entry WebState Step Answer

/-- The reading of the clock of a call. -/
def Step.now (l : Step) : Int := l.env.now.utc

/-- The random tokens that a call draws. -/
def Step.draws (l : Step) : List String := l.env.token.toList ++ l.env.csrfToken.toList

/-- The texts that a call presents as credentials. -/
def Call.presented : Call → List String
  | .login username password _ => [username, password]
  | .reauthenticate _ password => [password]
  | _ => []

/-- No text presented in the calls has the digest of another configured credential. -/
def Uncollided (x : Digests) (config : WebConfig) (calls : List Step) : Prop :=
  ∀ l ∈ calls, ∀ text ∈ l.call.presented,
    ∀ secret ∈ config.webuiUsername.toList ++ config.webuiPassword.toList,
      x.digest text = x.digest secret → text = secret

/-! ## What the calls so far say -/

/-- A login with the configured credentials that made the session `id`. -/
def OpenedBy (config : WebConfig) (id : String) (e : CallRecord) : Prop :=
  ∃ username password token success,
    e.label.call = .login username password token ∧ e.response = .login (.ok success) ∧
      config.webuiUsername = some username ∧ config.webuiPassword = some password ∧
      e.label.env.token = some id

/-- A call that presented the configured password for the session `id`. -/
def PresentedFor (config : WebConfig) (id : String) (e : CallRecord) : Prop :=
  OpenedBy config id e ∨
    ∃ headers password success,
      e.label.call = .reauthenticate headers password ∧
        e.response = .reauthenticated (.ok success) ∧
        cookieValue headers SESSION_COOKIE = some id ∧ config.webuiPassword = some password

def LoggedOut (id : String) (e : CallRecord) : Prop :=
  ∃ headers, e.label.call = .logout headers ∧ cookieValue headers SESSION_COOKIE = some id

/-- The session `id` was opened and then not logged out in `since`. -/
structure InForce (config : WebConfig) (id : String) (opened : CallRecord) (since : List CallRecord)
    (calls : List CallRecord) : Prop where
  among : ∃ before, calls = before ++ opened :: since
  opened : OpenedBy config id opened
  kept : ∀ e ∈ since, ¬LoggedOut id e

/-- A login that got past the pre-session token. -/
def admits (token : String) (e : CallRecord) : Bool :=
  match e.label.call, e.response with
  | .login _ _ t, .login result =>
    t == token &&
      match result with
      | .error .disabled | .error .csrfRejected => false
      | _ => true
  | _, _ => false

/-- The answers that follow a comparison with the configured digests. -/
def compares (e : CallRecord) : Bool :=
  match e.response with
  | .login (.ok _) | .login (.error .invalidCredentials) | .login (.error .randomness) => true
  | .reauthenticated (.ok _) | .reauthenticated (.error .invalidCredentials)
  | .reauthenticated (.error .randomness) => true
  | _ => false

/-- The guarantees of a run. -/
structure SessionsSafe (config : WebConfig) (ttl : Int) (history : List CallRecord) : Prop where
  /-- A successful authentication names a session that a login opened, that is
  not expired and was not logged out. -/
  authenticated : ∀ pre e post headers session, history = pre ++ e :: post →
    e.label.call = .authenticate headers → e.response = .session (.ok session) →
      ∃ id opened since, cookieValue headers SESSION_COOKIE = some id ∧
        InForce config id opened since pre ∧ e.label.now < opened.label.now + ttl
  /-- A pre-session token admits one login. -/
  tokens : ∀ token, history.countP (admits token) ≤ 1
  /-- A window holds five comparisons. -/
  comparisons : ∀ start, history.countP (fun e => compares e &&
    decide (start ≤ e.label.now ∧ e.label.now < start + LOGIN_WINDOW)) ≤ MAX_LOGIN_ATTEMPTS
  stores : ∀ e ∈ history, e.after.sessions.len ≤ MAX_SESSIONS ∧
    e.after.preSession.len ≤ MAX_PRE_SESSION_TOKENS
  /-- The restore gate passes within five minutes of the password. -/
  gate : ∀ pre e post headers, history = pre ++ e :: post →
    e.label.call = .restoreGate headers → e.response = .gate true →
      ∃ id opened since, cookieValue headers SESSION_COOKIE = some id ∧
        InForce config id opened since pre ∧ e.label.now < opened.label.now + ttl ∧
        ∃ p ∈ opened :: since, PresentedFor config id p ∧ p.label.now ≤ e.label.now ∧
          e.label.now - p.label.now ≤ 5 * 60 * secondNanos

/-! ## What one call does -/

section Calls

variable (x : Digests) (manager : WebSessionManager) (env : CallEnv) (s : WebState)

/-- The attempts after one more that is let through. -/
abbrev admitted (kept : List OffsetDateTime) : Prop :=
  SlidingWindow.letThrough OffsetDateTime.utc MAX_LOGIN_ATTEMPTS MAX_TRACKED_ATTEMPTS LOGIN_WINDOW env.now
    s.loginAttempts = some kept

abbrev stillCounting : List OffsetDateTime :=
  SlidingWindow.recent OffsetDateTime.utc LOGIN_WINDOW env.now s.loginAttempts

abbrev newSession (username csrfToken : String) : StoredSession where
  actorId := actorId x username
  csrfToken := csrfToken
  expiresAt := env.now.addNanos manager.ttl
  reauthenticatedAt := env.now

inductive LoginRuns (username password token : String) :
    Except LoginError LoginSuccess → WebState → Prop
  | unknown : LoginRuns username password token (.error .csrfRejected) s
  | stale : LoginRuns username password token (.error .csrfRejected)
      { s with preSession := s.preSession.remove token }
  | limited (hfresh : (s.preSession.get token).isSome) :
      LoginRuns username password token (.error .rateLimited)
        { s with preSession := s.preSession.remove token, loginAttempts := stillCounting env s }
  | refused (kept : List OffsetDateTime) (e : LoginError)
      (hfresh : (s.preSession.get token).isSome) (hkept : admitted env s kept)
      (he : e = .invalidCredentials ∨ e = .randomness) :
      LoginRuns username password token (.error e)
        { s with preSession := s.preSession.remove token, loginAttempts := kept }
  | opened (kept : List OffsetDateTime) (id csrfToken setCookie : String)
      (hfresh : (s.preSession.get token).isSome) (hkept : admitted env s kept)
      (husername : matchesDigest x manager.usernameDigest username)
      (hpassword : matchesDigest x manager.passwordDigest password)
      (hid : env.token = some id) :
      LoginRuns username password token (.ok ⟨view (newSession x manager env username csrfToken), setCookie⟩)
        (storeSession env
          { s with preSession := s.preSession.remove token, loginAttempts := kept } id
          (newSession x manager env username csrfToken))

inductive ReauthenticateRuns (headers : HeaderMap) (password : String) :
    Except LoginError ReauthenticationSuccess → WebState → Prop
  | limited : ReauthenticateRuns headers password (.error .rateLimited)
      { s with loginAttempts := stillCounting env s }
  | refused (kept : List OffsetDateTime) (hkept : admitted env s kept) :
      ReauthenticateRuns headers password (.error .invalidCredentials)
        { s with loginAttempts := kept }
  | refreshed (kept : List OffsetDateTime) (id : String) (session : StoredSession)
      (hkept : admitted env s kept) (hcookie : cookieValue headers SESSION_COOKIE = some id)
      (hsession : s.sessions.get id = some session)
      (hpassword : matchesDigest x manager.passwordDigest password) :
      ReauthenticateRuns headers password
        (.ok ⟨view { session with reauthenticatedAt := env.now }, none⟩)
        { s with
          loginAttempts := kept
          sessions := s.sessions.insert id { session with reauthenticatedAt := env.now } }

inductive AuthenticateRuns (headers : HeaderMap) :
    Except SessionError SessionView → WebState → Prop
  | unknown : AuthenticateRuns headers (.error .unauthenticated) s
  | expired (id : String) : AuthenticateRuns headers (.error .expired)
      { s with sessions := s.sessions.remove id }
  | found (id : String) (session : StoredSession)
      (hcookie : cookieValue headers SESSION_COOKIE = some id)
      (hsession : s.sessions.get id = some session)
      (hlive : env.now.utc < session.expiresAt.utc) :
      AuthenticateRuns headers (.ok (view session)) s

/-- What a call answers and leaves. -/
inductive CallRuns : Step → Answer → WebState → Prop
  | undrawn : CallRuns ⟨env, .issuePreSessionToken⟩ (.issued (.error .randomness)) s
  | issued (token : String) (htoken : env.token = some token) :
      CallRuns ⟨env, .issuePreSessionToken⟩ (.issued (.ok token))
        { s with
          preSession :=
            ((s.preSession.retain fun expires => decide (env.now.utc < expires.utc)).evictOneAtCapacity
              env.order MAX_PRE_SESSION_TOKENS).insert token (env.now.addNanos PRE_SESSION_TTL) }
  | login (username password token : String) {result : Except LoginError LoginSuccess}
      {after : WebState} (h : LoginRuns x manager env s username password token result after) :
      CallRuns ⟨env, .login username password token⟩ (.login result) after
  | authenticate (headers : HeaderMap) {result : Except SessionError SessionView}
      {after : WebState} (h : AuthenticateRuns env s headers result after) :
      CallRuns ⟨env, .authenticate headers⟩ (.session result) after
  | reauthenticate (headers : HeaderMap) (password : String)
      {result : Except LoginError ReauthenticationSuccess} {after : WebState}
      (h : ReauthenticateRuns x manager env s headers password result after) :
      CallRuns ⟨env, .reauthenticate headers password⟩ (.reauthenticated result) after
  | ignored (headers : HeaderMap) (setCookie : String)
      (hcookie : cookieValue headers SESSION_COOKIE = none) :
      CallRuns ⟨env, .logout headers⟩ (.loggedOut setCookie) s
  | loggedOut (headers : HeaderMap) (setCookie id : String)
      (hcookie : cookieValue headers SESSION_COOKIE = some id) :
      CallRuns ⟨env, .logout headers⟩ (.loggedOut setCookie)
        { s with sessions := s.sessions.remove id }
  | closed (headers : HeaderMap) {e : SessionError} {after : WebState}
      (h : AuthenticateRuns env s headers (.error e) after) :
      CallRuns ⟨env, .restoreGate headers⟩ (.gate false) after
  | gate (headers : HeaderMap) {session : SessionView} {after : WebState}
      (h : AuthenticateRuns env s headers (.ok session) after) :
      CallRuns ⟨env, .restoreGate headers⟩
        (.gate (recentlyReauthenticated session.reauthenticatedAt env.now)) after

variable {x manager env s}

variable (env s) in
theorem checkRateLimit_runs :
    checkRateLimit env s = (.error .rateLimited, { s with loginAttempts := stillCounting env s }) ∨
      ∃ kept, admitted env s kept ∧
        checkRateLimit env s = (.ok (), { s with loginAttempts := kept }) := by
  unfold checkRateLimit
  split
  · exact .inl rfl
  · next kept hkept => exact .inr ⟨kept, hkept, rfl⟩

theorem login_runs (hmode : manager.mode = .authenticated) (username password token : String) :
    LoginRuns x manager env s username password token
      (login x manager env s username password token).1
      (login x manager env s username password token).2 := by
  unfold login
  rw [if_neg (by simp [hmode])]
  unfold consumePreSession
  cases htoken : s.preSession.get token with
  | none => exact .unknown
  | some expires =>
    by_cases hfresh : env.now.utc < expires.utc
    · simp only [if_pos hfresh]
      rcases checkRateLimit_runs env { s with preSession := s.preSession.remove token } with
        hlimit | ⟨kept, hkept, hlimit⟩
      · rw [hlimit]
        exact .limited (by rw [htoken]; rfl)
      · rw [hlimit]
        dsimp only
        split
        · exact .refused kept _ (by rw [htoken]; rfl) hkept (.inl rfl)
        · next hmatch =>
          obtain ⟨husername, hpassword⟩ := not_not.mp hmatch
          unfold openSession
          split
          · next id csrfToken hid hcsrf =>
            exact .opened kept id csrfToken _ (by rw [htoken]; rfl) hkept husername hpassword hid
          · exact .refused kept _ (by rw [htoken]; rfl) hkept (.inr rfl)
    · simp only [if_neg hfresh]
      exact .stale

theorem reauthenticate_runs (hmode : manager.mode = .authenticated) (headers : HeaderMap)
    (password : String) :
    ReauthenticateRuns x manager env s headers password
      (reauthenticate x manager env s headers password).1
      (reauthenticate x manager env s headers password).2 := by
  unfold reauthenticate
  rw [if_neg (by simp [hmode])]
  rcases checkRateLimit_runs env s with hlimit | ⟨kept, hkept, hlimit⟩
  · rw [hlimit]
    exact .limited
  · rw [hlimit]
    dsimp only
    rw [if_neg (by simp [hmode])]
    unfold refreshSession
    cases hcookie : cookieValue headers SESSION_COOKIE with
    | none => exact .refused kept hkept
    | some id =>
      dsimp only
      cases hsession : s.sessions.get id with
      | none => exact .refused kept hkept
      | some session =>
        dsimp only
        split
        · exact .refused kept hkept
        · split
          · exact .refused kept hkept
          · next hpassword =>
            exact .refreshed kept id session hkept hcookie hsession (not_not.mp hpassword)

variable (env s) in
theorem authenticate_runs (hmode : manager.mode = .authenticated) (headers : HeaderMap) :
    AuthenticateRuns env s headers (authenticate manager env s headers).1
      (authenticate manager env s headers).2 := by
  unfold authenticate
  rw [hmode]
  dsimp only
  cases hcookie : cookieValue headers SESSION_COOKIE with
  | none => exact .unknown
  | some id =>
    dsimp only
    cases hsession : s.sessions.get id with
    | none => exact .unknown
    | some session =>
      dsimp only
      split
      · exact .expired id
      · next hlive => exact .found id session hcookie hsession (by omega)

/-- **One call in the authenticated mode.** -/
theorem call_runs (hmode : manager.mode = .authenticated) (call : Call) :
    CallRuns x manager env s ⟨env, call⟩ (step x manager s ⟨env, call⟩).2
      (step x manager s ⟨env, call⟩).1 := by
  cases call with
  | issuePreSessionToken =>
    unfold step issuePreSessionToken
    dsimp only
    rw [if_neg (by simp [hmode])]
    cases htoken : env.token with
    | none => exact .undrawn
    | some token => exact .issued token htoken
  | login username password token => exact .login _ _ _ (login_runs hmode username password token)
  | authenticate headers => exact .authenticate headers (authenticate_runs env s hmode headers)
  | reauthenticate headers password =>
    exact .reauthenticate headers password (reauthenticate_runs hmode headers password)
  | logout headers =>
    unfold step logout
    dsimp only
    cases hcookie : cookieValue headers SESSION_COOKIE with
    | none => exact .ignored headers _ hcookie
    | some id => exact .loggedOut headers _ id hcookie
  | restoreGate headers =>
    have hruns := authenticate_runs env s hmode headers
    unfold step restoreGate
    dsimp only
    rcases hauth : authenticate manager env s headers with ⟨e | session, after⟩
    · rw [hauth] at hruns
      exact .closed headers hruns
    · rw [hauth] at hruns
      exact .gate headers hruns

end Calls

/-! ## Credentials -/

section Runs

variable {x : Digests} {config : WebConfig} {manager : WebSessionManager} {token : Option String}
  {calls : List Step} {s : WebState} {l : Step}

/-- The credentials that a call can match are the configured ones. -/
structure Recognises (x : Digests) (config : WebConfig) (manager : WebSessionManager) (l : Step) :
    Prop where
  username : ∀ text ∈ l.call.presented, matchesDigest x manager.usernameDigest text →
    config.webuiUsername = some text
  password : ∀ text ∈ l.call.presented, matchesDigest x manager.passwordDigest text →
    config.webuiPassword = some text

theorem matchesDigest_map {configured : Option String} {text : String}
    (h : matchesDigest x (configured.map x.digest) text) :
    ∃ secret, configured = some secret ∧ x.digest text = x.digest secret := by
  unfold matchesDigest at h
  cases configured with
  | none => cases h
  | some secret => exact ⟨secret, rfl, by simpa using h⟩

theorem recognises_of_uncollided (hmanager : fromConfig x config token = .ok manager)
    (hdigests : Uncollided x config calls) (hl : l ∈ calls) : Recognises x config manager l := by
  unfold fromConfig at hmanager
  cases token with
  | none => cases hmanager
  | some csrf =>
    obtain rfl := Except.ok.inj hmanager
    refine ⟨fun text htext hmatch => ?_, fun text htext hmatch => ?_⟩
    · obtain ⟨secret, hsecret, hdigest⟩ := matchesDigest_map hmatch
      have hsame := hdigests l hl text htext secret (by simp [hsecret]) hdigest
      rw [hsecret, hsame]
    · obtain ⟨secret, hsecret, hdigest⟩ := matchesDigest_map hmatch
      have hsame := hdigests l hl text htext secret (by simp [hsecret]) hdigest
      rw [hsecret, hsame]

/-! ## Sessions -/

/-- Every stored session is in force, and its times are those of its calls. -/
def SessionsOpened (config : WebConfig) (ttl : Int) (history : List CallRecord) (s : WebState) :
    Prop :=
  ∀ id session, s.sessions.get id = some session →
    ∃ opened since, InForce config id opened since history ∧
      session.expiresAt.utc = opened.label.now + ttl ∧
      ∃ p ∈ opened :: since, PresentedFor config id p ∧
        session.reauthenticatedAt.utc = p.label.now

theorem InForce.append {id : String} {opened e : CallRecord} {since history : List CallRecord}
    (h : InForce config id opened since history) (he : ¬LoggedOut id e) :
    InForce config id opened (since ++ [e]) (history ++ [e]) := by
  obtain ⟨⟨before, rfl⟩, hopened, hkept⟩ := h
  refine ⟨⟨before, by simp⟩, hopened, fun k hk => ?_⟩
  rcases List.mem_append.mp hk with hk | hk
  · exact hkept k hk
  · rwa [List.mem_singleton.mp hk]

/-- Where the session of an id comes from after a call. -/
inductive SessionFrom (config : WebConfig) (manager : WebSessionManager) (e : CallRecord)
    (id : String) (session : StoredSession) : Prop
  | before (hsession : e.before.sessions.get id = some session) (hkept : ¬LoggedOut id e)
  | opened (hopened : OpenedBy config id e)
      (hexpires : session.expiresAt.utc = e.label.now + manager.ttl)
      (hreauthenticated : session.reauthenticatedAt.utc = e.label.now)
  | refreshed (old : StoredSession) (hold : e.before.sessions.get id = some old)
      (hkept : ¬LoggedOut id e) (hpresented : PresentedFor config id e)
      (hexpires : session.expiresAt = old.expiresAt)
      (hreauthenticated : session.reauthenticatedAt.utc = e.label.now)

theorem not_loggedOut {id : String} {e : CallRecord} (h : ∀ headers, e.label.call ≠ .logout headers) :
    ¬LoggedOut id e := by
  rintro ⟨headers, hlogout, -⟩
  exact h headers hlogout

theorem AuthenticateRuns.sessions {env : CallEnv} {headers : HeaderMap}
    {result : Except SessionError SessionView} {after : WebState} {id : String}
    {session : StoredSession} (hruns : AuthenticateRuns env s headers result after)
    (h : after.sessions.get id = some session) : s.sessions.get id = some session := by
  cases hruns with
  | unknown | found => exact h
  | expired other => exact (HashMap.get_remove.mp h).1

/-- **Sessions after a call.** -/
theorem sessionFrom_call {e : CallRecord}
    (hruns : CallRuns x manager e.label.env e.before e.label e.response e.after)
    (hrecognises : Recognises x config manager e.label) {id : String} {session : StoredSession}
    (h : e.after.sessions.get id = some session) : SessionFrom config manager e id session := by
  obtain ⟨before, ⟨env, call⟩, response, after⟩ := e
  dsimp only at hruns h
  cases hruns with
  | undrawn | issued => exact .before h (not_loggedOut (by simp))
  | login username password preSession hlogin =>
    cases hlogin with
    | unknown | stale | limited | refused => exact .before h (not_loggedOut (by simp))
    | opened kept token csrfToken setCookie hfresh hlet husername hpassword hid =>
      rcases HashMap.get_store h with ⟨rfl, rfl⟩ | ⟨-, hold⟩
      · refine .opened ⟨username, password, preSession, _, rfl, rfl, ?_, ?_, hid⟩ rfl rfl
        · exact hrecognises.username username (by simp [Call.presented]) husername
        · exact hrecognises.password password (by simp [Call.presented]) hpassword
      · exact .before hold (not_loggedOut (by simp))
  | authenticate headers hauthenticate =>
    exact .before (hauthenticate.sessions h) (not_loggedOut (by simp))
  | reauthenticate headers password hreauthenticate =>
    cases hreauthenticate with
    | limited | refused => exact .before h (not_loggedOut (by simp))
    | refreshed kept own old hlet hcookie hold hpassword =>
      rcases HashMap.get_insert h with ⟨rfl, rfl⟩ | ⟨-, hother⟩
      · refine .refreshed old hold (not_loggedOut (by simp)) (.inr ?_) rfl rfl
        refine ⟨headers, password, _, rfl, rfl, hcookie, ?_⟩
        exact hrecognises.password password (by simp [Call.presented]) hpassword
      · exact .before hother (not_loggedOut (by simp))
  | ignored headers setCookie hcookie =>
    refine .before h ?_
    rintro ⟨headers', hlogout, hid⟩
    obtain rfl := Call.logout.inj hlogout
    rw [hcookie] at hid
    cases hid
  | loggedOut headers setCookie own hcookie =>
    obtain ⟨hsession, hne⟩ := HashMap.get_remove.mp h
    refine .before hsession ?_
    rintro ⟨headers', hlogout, hid⟩
    obtain rfl := Call.logout.inj hlogout
    rw [hcookie] at hid
    exact hne (Option.some.inj hid).symm
  | closed headers hauthenticate | gate headers hauthenticate =>
    exact .before (hauthenticate.sessions h) (not_loggedOut (by simp))

theorem SessionsOpened.call {e : CallRecord} {history : List CallRecord}
    (hruns : CallRuns x manager e.label.env e.before e.label e.response e.after)
    (hrecognises : Recognises x config manager e.label)
    (h : SessionsOpened config manager.ttl history e.before) :
    SessionsOpened config manager.ttl (history ++ [e]) e.after := by
  intro id session hsession
  cases sessionFrom_call hruns hrecognises hsession with
  | before hold hkept =>
    obtain ⟨opened, since, hforce, hexpires, p, hp, hpresented, hat⟩ := h id session hold
    exact ⟨opened, since ++ [e], hforce.append hkept, hexpires, p, by
      rw [← List.cons_append]
      exact List.mem_append_left _ hp, hpresented, hat⟩
  | opened hopened hexpires hat =>
    exact ⟨e, [], ⟨⟨history, rfl⟩, hopened, by simp⟩, hexpires, e, List.mem_singleton_self _,
      .inl hopened, hat⟩
  | refreshed old hold hkept hpresented hexpires hat =>
    obtain ⟨opened, since, hforce, hold, -⟩ := h id old hold
    exact ⟨opened, since ++ [e], hforce.append hkept, hexpires ▸ hold, e, by simp, hpresented, hat⟩

/-! ## Tokens -/

def stored (s : WebState) (token : String) : Nat := if (s.preSession.get token).isSome then 1 else 0

/-- Whether a call issued a token. -/
def issues (token : String) (e : CallRecord) : Bool :=
  match e.response with
  | .issued (.ok t) => t == token
  | _ => false

/-- Every login that a token admitted, and the token while it is stored, goes
with a call that issued it. -/
def TokensIssued (history : List CallRecord) (s : WebState) : Prop :=
  ∀ token, history.countP (admits token) + stored s token ≤ history.countP (issues token)

theorem stored_le_one (token : String) : stored s token ≤ 1 := by
  unfold stored
  split <;> omega

theorem stored_mono {after : WebState} {token : String}
    (h : ∀ t, after.preSession.get token = some t → s.preSession.get token = some t) :
    stored after token ≤ stored s token := by
  unfold stored
  cases hafter : after.preSession.get token with
  | none => simp
  | some t =>
    rw [h t hafter]

theorem AuthenticateRuns.preSession {env : CallEnv} {headers : HeaderMap}
    {result : Except SessionError SessionView} {after : WebState}
    (hruns : AuthenticateRuns env s headers result after) : after.preSession = s.preSession := by
  cases hruns <;> rfl

theorem stored_remove {token other : String} {after : WebState}
    (h : after.preSession = s.preSession.remove other)
    (hfresh : (s.preSession.get other).isSome) :
    (other == token).toNat + stored after token ≤ stored s token := by
  by_cases hsame : other = token
  · subst hsame
    have hgone : stored after other = 0 := by
      unfold stored
      cases hafter : after.preSession.get other with
      | none => rfl
      | some t =>
        rw [h] at hafter
        exact absurd rfl (HashMap.get_remove.mp hafter).2
    have hthere : stored s other = 1 := if_pos hfresh
    simp [hgone, hthere]
  · rw [beq_false_of_ne hsame, Bool.toNat_false, Nat.zero_add]
    exact stored_mono fun t ht => (HashMap.get_remove.mp (h ▸ ht)).1

theorem stored_insert {token fresh : String} {after : WebState} {p : OffsetDateTime → Bool}
    {order : Iteration String} {expires : OffsetDateTime}
    (h : after.preSession = ((s.preSession.retain p).evictOneAtCapacity order
      MAX_PRE_SESSION_TOKENS).insert fresh expires) :
    stored after token ≤ stored s token + (fresh == token).toNat := by
  by_cases hsame : fresh = token
  · have := stored_le_one (s := after) token
    rw [hsame, beq_self_eq_true, Bool.toNat_true]
    omega
  · refine Nat.le_add_right_of_le (stored_mono fun t ht => ?_)
    rcases HashMap.get_store (h ▸ ht) with ⟨rfl, -⟩ | ⟨-, hold⟩
    · exact absurd rfl hsame
    · exact hold

theorem LoginRuns.stored {env : CallEnv} {username password own : String}
    {result : Except LoginError LoginSuccess} {after : WebState} {l : Step}
    (hruns : LoginRuns x manager env s username password own result after)
    (hl : l.call = .login username password own) (token : String) :
    (admits token ⟨s, l, .login result, after⟩).toNat + WebSessionManager.stored after token ≤
      WebSessionManager.stored s token := by
  obtain ⟨_, call⟩ := l
  dsimp only at hl
  subst hl
  cases hruns with
  | unknown => simp [admits]
  | stale =>
    simp only [admits, Bool.and_false, Bool.toNat_false, Nat.zero_add]
    exact stored_mono fun t ht => (HashMap.get_remove.mp ht).1
  | limited hfresh | opened kept id csrfToken setCookie hfresh =>
    simp only [admits, Bool.and_true]
    exact stored_remove rfl hfresh
  | refused kept err hfresh hkept herr =>
    rcases herr with rfl | rfl
    · simp only [admits, Bool.and_true]
      exact stored_remove rfl hfresh
    · simp only [admits, Bool.and_true]
      exact stored_remove rfl hfresh

/-- A token gets used up, and is stored only when it was or when the call issued it. -/
theorem stored_call {e : CallRecord}
    (hruns : CallRuns x manager e.label.env e.before e.label e.response e.after) (token : String) :
    (admits token e).toNat + stored e.after token ≤
      stored e.before token + (issues token e).toNat := by
  obtain ⟨before, ⟨env, call⟩, response, after⟩ := e
  dsimp only at hruns ⊢
  have hsame : after.preSession = before.preSession → stored after token ≤ stored before token :=
    fun h => stored_mono fun t ht => h ▸ ht
  cases hruns with
  | undrawn | ignored => simp [admits, issues]
  | issued fresh hfresh =>
    simp only [admits, issues, Bool.toNat_false, Nat.zero_add]
    exact stored_insert rfl
  | login username password own hlogin =>
    exact Nat.le_add_right_of_le (hlogin.stored rfl token)
  | authenticate headers h | closed headers h | gate headers h =>
    simpa [admits, issues] using hsame h.preSession
  | reauthenticate headers password h =>
    have hpre : after.preSession = before.preSession := by cases h <;> rfl
    simpa [admits, issues] using hsame hpre
  | loggedOut => simpa [admits, issues] using hsame rfl

theorem TokensIssued.call {e : CallRecord} {history : List CallRecord}
    (hruns : CallRuns x manager e.label.env e.before e.label e.response e.after)
    (h : TokensIssued history e.before) : TokensIssued (history ++ [e]) e.after := by
  intro token
  have hbefore := h token
  have hcall := stored_call hruns token
  have hone : ∀ b : Bool, (if b = true then 1 else 0) = b.toNat := by decide
  rw [List.countP_append, List.countP_append, List.countP_singleton, List.countP_singleton, hone,
    hone]
  omega

/-- A token is issued as often as it is drawn, at most. -/
theorem issues_le_draws {e : CallRecord}
    (hruns : CallRuns x manager e.label.env e.before e.label e.response e.after) (token : String) :
    (issues token e).toNat ≤ e.label.draws.count token := by
  obtain ⟨before, ⟨env, call⟩, response, after⟩ := e
  dsimp only at hruns ⊢
  cases hruns with
  | issued fresh hfresh =>
    by_cases hsame : fresh = token
    · simp [issues, Step.draws, hfresh, hsame]
    · simp [issues, beq_false_of_ne hsame]
  | _ => exact Nat.zero_le _

/-! ## Attempts -/

/-- The attempts kept are those of a sliding window over all comparisons. -/
def AttemptsTracked (last : Int) (history : List CallRecord) (s : WebState) : Prop :=
  SlidingWindow.Tracks OffsetDateTime.utc MAX_LOGIN_ATTEMPTS LOGIN_WINDOW last
    ((history.filter compares).map fun e => e.label.env.now) s.loginAttempts

/-- A call compares when it is let through, and else only forgets old attempts. -/
theorem attempts_call {e : CallRecord}
    (hruns : CallRuns x manager e.label.env e.before e.label e.response e.after) :
    (compares e = true ∧ admitted e.label.env e.before e.after.loginAttempts) ∨
      (compares e = false ∧ (e.after.loginAttempts = e.before.loginAttempts ∨
        e.after.loginAttempts = stillCounting e.label.env e.before)) := by
  obtain ⟨before, ⟨env, call⟩, response, after⟩ := e
  dsimp only at hruns ⊢
  have hauthenticated : ∀ {headers result}, AuthenticateRuns env before headers result after →
      after.loginAttempts = before.loginAttempts := by
    intro headers result h
    cases h <;> rfl
  cases hruns with
  | undrawn | issued | ignored | loggedOut => exact .inr ⟨rfl, .inl rfl⟩
  | authenticate headers h | closed headers h | gate headers h =>
    exact .inr ⟨rfl, .inl (hauthenticated h)⟩
  | login username password own h =>
    cases h with
    | unknown | stale => exact .inr ⟨rfl, .inl rfl⟩
    | limited => exact .inr ⟨rfl, .inr rfl⟩
    | refused kept err hfresh hkept herr =>
      rcases herr with rfl | rfl
      · exact .inl ⟨rfl, hkept⟩
      · exact .inl ⟨rfl, hkept⟩
    | opened kept id csrfToken setCookie hfresh hkept => exact .inl ⟨rfl, hkept⟩
  | reauthenticate headers password h =>
    cases h with
    | limited => exact .inr ⟨rfl, .inr rfl⟩
    | refused kept hkept => exact .inl ⟨rfl, hkept⟩
    | refreshed kept id session hkept => exact .inl ⟨rfl, hkept⟩

theorem AttemptsTracked.call {e : CallRecord} {history : List CallRecord}
    (hruns : CallRuns x manager e.label.env e.before e.label e.response e.after)
    (h : AttemptsTracked e.label.now history e.before) :
    AttemptsTracked e.label.now (history ++ [e]) e.after := by
  unfold AttemptsTracked
  rw [List.filter_append, List.map_append]
  rcases attempts_call hruns with ⟨hcompares, hadmitted⟩ | ⟨hcompares, hsame | hforgotten⟩
  · rw [List.filter_cons_of_pos hcompares]
    exact SlidingWindow.Tracks.letThrough h (le_refl _) (by decide) hadmitted
  · rw [List.filter_cons_of_neg (by simp [hcompares]), hsame, List.filter_nil, List.map_nil,
      List.append_nil]
    exact h
  · rw [List.filter_cons_of_neg (by simp [hcompares]), hforgotten, List.filter_nil, List.map_nil,
      List.append_nil]
    exact SlidingWindow.Tracks.later h (le_refl _)

/-! ## Sizes -/

structure Bounded (s : WebState) : Prop where
  sessions : s.sessions.len ≤ MAX_SESSIONS
  preSession : s.preSession.len ≤ MAX_PRE_SESSION_TOKENS

theorem AuthenticateRuns.bounded {env : CallEnv} {headers : HeaderMap}
    {result : Except SessionError SessionView} {after : WebState}
    (hruns : AuthenticateRuns env s headers result after) (h : Bounded s) : Bounded after := by
  cases hruns with
  | unknown | found => exact h
  | expired id => exact ⟨Nat.le_trans (HashMap.len_remove_le id) h.sessions, h.preSession⟩

theorem Bounded.call {e : CallRecord}
    (hruns : CallRuns x manager e.label.env e.before e.label e.response e.after)
    (h : Bounded e.before) : Bounded e.after := by
  obtain ⟨before, ⟨env, call⟩, response, after⟩ := e
  dsimp only at hruns h ⊢
  have hremoved : ∀ token, (before.preSession.remove token).len ≤ MAX_PRE_SESSION_TOKENS :=
    fun token => Nat.le_trans (HashMap.len_remove_le token) h.preSession
  cases hruns with
  | undrawn | ignored => exact h
  | issued fresh hfresh =>
    exact ⟨h.sessions, HashMap.len_store_le (by decide) h.preSession _ _ _⟩
  | login username password own hlogin =>
    cases hlogin with
    | unknown => exact h
    | stale | limited | refused => exact ⟨h.sessions, hremoved own⟩
    | opened =>
      exact ⟨HashMap.len_store_le (by decide) h.sessions _ _ _, hremoved own⟩
  | authenticate headers hauth | closed headers hauth | gate headers hauth => exact hauth.bounded h
  | reauthenticate headers password hreauth =>
    cases hreauth with
    | limited | refused => exact ⟨h.sessions, h.preSession⟩
    | refreshed kept id session hkept hcookie hsession =>
      refine ⟨?_, h.preSession⟩
      have hlt := HashMap.len_remove_lt (HashMap.mem_keys_of_get hsession)
      have := h.sessions
      show (before.sessions.insert id _).len ≤ MAX_SESSIONS
      rw [HashMap.len_insert]
      omega
  | loggedOut headers setCookie id =>
    exact ⟨Nat.le_trans (HashMap.len_remove_le id) h.sessions, h.preSession⟩

/-! ## Runs -/

/-- What holds after the calls of a run. -/
structure Guarded (config : WebConfig) (ttl : Int) (calls : List Step) (history : List CallRecord)
    (s : WebState) : Prop where
  sessions : SessionsOpened config ttl history s
  tokens : TokensIssued history s
  drawn : ∀ token, history.countP (issues token) ≤ (calls.flatMap Step.draws).count token
  attempts : ∀ last, (∀ l ∈ calls, l.now ≤ last) → AttemptsTracked last history s
  bounded : Bounded s

/-- **One more call.** -/
theorem Guarded.call {history : List CallRecord} (hmode : manager.mode = .authenticated)
    (hrecognises : Recognises x config manager l) (hclock : ∀ k ∈ calls, k.now ≤ l.now)
    (h : Guarded config manager.ttl calls history s) :
    Guarded config manager.ttl (calls ++ [l]) (history ++ [entry (step x manager) s l])
      (step x manager s l).1 := by
  have hruns : CallRuns x manager l.env s l (step x manager s l).2 (step x manager s l).1 :=
    call_runs hmode l.call
  refine ⟨h.sessions.call hruns hrecognises, h.tokens.call hruns, fun token => ?_,
    fun last hlast => ?_, h.bounded.call (e := entry (step x manager) s l) hruns⟩
  · have hbefore := h.drawn token
    have hcall := issues_le_draws (e := entry (step x manager) s l) hruns token
    have hone : ∀ b : Bool, (if b = true then 1 else 0) = b.toNat := by decide
    rw [List.countP_append, List.countP_singleton, hone, List.flatMap_append, List.count_append,
      List.flatMap_singleton]
    exact Nat.add_le_add hbefore hcall
  · have hnow := hlast l (List.mem_append_right _ (List.mem_singleton_self l))
    exact SlidingWindow.Tracks.mono ((h.attempts l.now hclock).call hruns) hnow

theorem guarded_run (hmode : manager.mode = .authenticated)
    (hrecognises : ∀ l ∈ calls, Recognises x config manager l)
    (hclock : calls.Pairwise fun a b => a.now ≤ b.now) :
    Guarded config manager.ttl calls (history (step x manager) .initial calls)
      (final (step x manager) .initial calls) := by
  refine run_induction_on
    (P := fun ks h t => (∀ l ∈ ks, Recognises x config manager l) →
      (ks.Pairwise fun a b => a.now ≤ b.now) → Guarded config manager.ttl ks h t)
    ?_ ?_ calls hrecognises hclock
  · intro _ _
    exact
      { sessions := fun id session hsession => nomatch hsession
        tokens := fun _ => Nat.zero_le _
        drawn := fun _ => Nat.zero_le _
        attempts := fun _ _ => SlidingWindow.Tracks.nil
        bounded := ⟨Nat.zero_le _, Nat.zero_le _⟩ }
  · intro ks h t l ih hall hsorted
    obtain ⟨hks, hl⟩ := List.forall_mem_append.mp hall
    obtain ⟨hsorted, -, hlast⟩ := List.pairwise_append.mp hsorted
    exact (ih hks hsorted).call hmode (hl l (List.mem_singleton_self l))
      fun k hk => hlast k hk l (List.mem_singleton_self l)

/-- A call of a run begins after the calls before it. -/
theorem guarded_at (hmode : manager.mode = .authenticated)
    (hrecognises : ∀ l ∈ calls, Recognises x config manager l)
    (hclock : calls.Pairwise fun a b => a.now ≤ b.now) {pre post : List CallRecord} {e : CallRecord}
    (h : history (step x manager) .initial calls = pre ++ e :: post) :
    (∃ ks, Guarded config manager.ttl ks pre e.before) ∧
      CallRuns x manager e.label.env e.before e.label e.response e.after := by
  obtain ⟨ks, js, rfl, rfl, hrest⟩ := history_eq_append h
  cases js with
  | nil => cases hrest
  | cons l js =>
    obtain ⟨rfl, -⟩ := List.cons.inj hrest
    have hks := guarded_run hmode (fun k hk => hrecognises k (List.mem_append_left _ hk))
      (List.pairwise_append.mp hclock).1
    exact ⟨⟨ks, hks⟩, call_runs hmode l.call⟩

/-- The session that a successful authentication finds. -/
theorem AuthenticateRuns.inForce {env : CallEnv} {headers : HeaderMap} {session : SessionView}
    {after : WebState} {history : List CallRecord}
    (hruns : AuthenticateRuns env s headers (.ok session) after)
    (h : SessionsOpened config manager.ttl history s) :
    ∃ id opened since, cookieValue headers SESSION_COOKIE = some id ∧
      InForce config id opened since history ∧ env.now.utc < opened.label.now + manager.ttl ∧
      ∃ p ∈ opened :: since, PresentedFor config id p ∧
        ∃ at_, session.reauthenticatedAt = some at_ ∧ at_.utc = p.label.now := by
  cases hruns with
  | found id stored hcookie hsession hlive =>
    obtain ⟨opened, since, hforce, hexpires, p, hp, hpresented, hat⟩ := h id stored hsession
    exact ⟨id, opened, since, hcookie, hforce, hexpires ▸ hlive, p, hp, hpresented, _, rfl, hat⟩

end Runs

/-- **Web sessions are safe.** -/
theorem web_sessions_safe (x : Digests) (config : WebConfig) (token : Option String)
    (manager : WebSessionManager) (hmanager : fromConfig x config token = .ok manager)
    (hmode : manager.mode = .authenticated) (calls : List Step)
    (hclock : calls.Pairwise fun a b => a.now ≤ b.now)
    (htokens : (calls.flatMap Step.draws).Nodup) (hdigests : Uncollided x config calls) :
    SessionsSafe config manager.ttl (history (step x manager) .initial calls) := by
  have hrecognises : ∀ l ∈ calls, Recognises x config manager l :=
    fun l hl => recognises_of_uncollided hmanager hdigests hl
  have hrun := guarded_run hmode hrecognises hclock
  refine ⟨?_, fun token => ?_, fun start => ?_, fun e he => ?_, ?_⟩
  · intro pre e post headers session hsplit hcall hresponse
    obtain ⟨⟨ks, hguarded⟩, hruns⟩ := guarded_at hmode hrecognises hclock hsplit
    obtain ⟨before, ⟨env, call⟩, response, after⟩ := e
    dsimp only at hruns hcall hresponse hguarded
    subst hcall hresponse
    cases hruns with
    | authenticate _ hauth =>
      obtain ⟨id, opened, since, hcookie, hforce, hlive, -⟩ := hauth.inForce hguarded.sessions
      exact ⟨id, opened, since, hcookie, hforce, hlive⟩
  · have hissued := hrun.tokens token
    have hdrawn := hrun.drawn token
    have honce := List.nodup_iff_count_le_one.mp htokens token
    omega
  · obtain ⟨last, hlast⟩ := (List.finite_toSet (calls.map Step.now)).bddAbove
    have hwindow := (hrun.attempts last fun l hl => hlast (List.mem_map_of_mem hl)).window start
    unfold SlidingWindow.inWindow at hwindow
    rw [List.countP_map, List.countP_filter] at hwindow
    refine le_of_eq_of_le (List.countP_congr fun e _ => ?_) hwindow
    rw [Bool.and_comm]
    exact Iff.rfl
  · obtain ⟨pre, post, hsplit⟩ := List.append_of_mem he
    obtain ⟨⟨ks, hguarded⟩, hruns⟩ := guarded_at hmode hrecognises hclock hsplit
    have := hguarded.bounded.call hruns
    exact ⟨this.sessions, this.preSession⟩
  · intro pre e post headers hsplit hcall hresponse
    obtain ⟨⟨ks, hguarded⟩, hruns⟩ := guarded_at hmode hrecognises hclock hsplit
    obtain ⟨before, ⟨env, call⟩, response, after⟩ := e
    dsimp only at hruns hcall hresponse hguarded
    subst hcall
    cases hruns with
    | closed => cases hresponse
    | gate _ hauth =>
      obtain ⟨id, opened, since, hcookie, hforce, hlive, p, hp, hpresented, reauthenticated, hview,
        hat⟩ := hauth.inForce hguarded.sessions
      have hrecent := Answer.gate.inj hresponse
      rw [hview] at hrecent
      obtain ⟨hpast, hfive⟩ := of_decide_eq_true hrecent
      rw [hat] at hpast hfive
      exact ⟨id, opened, since, hcookie, hforce, hlive, p, hp, hpresented, hpast, hfive⟩

/-! ## A run -/

namespace Sample

/-- The digests of the two credentials below. -/
def digests : Digests where
  digest := fun text =>
    if text = "admin" then
      [140, 105, 118, 229, 181, 65, 4, 21, 189, 233, 8, 189, 77, 238, 21, 223,
        177, 103, 169, 200, 115, 252, 75, 184, 168, 31, 111, 42, 180, 72, 169, 24]
    else if text = "correct horse" then
      [65, 4, 211, 111, 141, 162, 194, 84, 52, 159, 133, 131, 103, 147, 235, 224,
        41, 224, 201, 87, 6, 58, 52, 201, 28, 46, 146, 3, 24, 123, 86, 49]
    else []
  encode := fun bytes =>
    if bytes.head? = some 140 then "jGl25bVBBBW96Qi9Te4V37Fnqchz_Eu4qB9vKrRIqRg" else ""

def config : WebConfig where
  webuiEnabled := true
  webuiAuthEnabled := true
  webuiUsername := some "admin"
  webuiPassword := some "correct horse"
  webuiSessionTtlSeconds := 3600
  webuiCookieSecure := true

def manager : WebSessionManager where
  mode := .authenticated
  usernameDigest := some (digests.digest "admin")
  passwordDigest := some (digests.digest "correct horse")
  ttl := 3600 * secondNanos
  cookieSecure := true
  unauthenticatedCsrf := "u"

/-- A call at a number of seconds. -/
def at_ (seconds : Int) (token csrfToken : Option String) (call : Call) : Step where
  env := ⟨⟨seconds * secondNanos, 0⟩, token, csrfToken, .oldest⟩
  call := call

def cookie : HeaderMap := ⟨["remindi_session=s".toUTF8.data.toList]⟩

def webCalls : List Step :=
  [at_ 0 (some "t") none .issuePreSessionToken,
    at_ 1 (some "s") (some "c") (.login "admin" "correct horse" "t"),
    at_ 2 none none (.authenticate cookie),
    at_ 3 none none (.reauthenticate cookie "correct horse"),
    at_ 4 none none (.restoreGate cookie),
    at_ 5 none none (.logout cookie),
    at_ 6 none none (.authenticate cookie)]

def succeeded (e : CallRecord) : Bool :=
  match e.response with
  | .issued (.ok _) | .login (.ok _) | .session (.ok _) | .reauthenticated (.ok _)
  | .loggedOut _ | .gate true => true
  | _ => false

end Sample

/-- A session from its login to its end. -/
theorem sample_sessions_safe :
    SessionsSafe Sample.config Sample.manager.ttl
        (history (step Sample.digests Sample.manager) .initial Sample.webCalls) ∧
      (history (step Sample.digests Sample.manager) .initial Sample.webCalls).map Sample.succeeded =
        [true, true, true, true, true, true, false] := by
  refine ⟨web_sessions_safe Sample.digests Sample.config (some "u") Sample.manager (by rfl) rfl
    Sample.webCalls (by decide +kernel) (by decide +kernel) ?_, by decide +kernel⟩
  unfold Uncollided
  decide +kernel

end WebSessionManager

end RemindiCore.Web
