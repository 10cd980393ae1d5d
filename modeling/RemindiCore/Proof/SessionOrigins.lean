import RemindiCore.Web.Session

/-!
# Where a session comes from

A stored session was there before the call, or the call is the login that made it, or nobody has
to log in.  In contrast to `Proof/WebSessions.lean` this holds in each mode, of one call.
-/

namespace RemindiCore.Web.WebSessionManager

open CivilTime BoundedMap

/-- What of a session never changes. -/
structure SameLogin (a b : StoredSession) : Prop where
  actorId : b.actorId = a.actorId
  csrfToken : b.csrfToken = a.csrfToken
  expiresAt : b.expiresAt = a.expiresAt

theorem SameLogin.refl (session : StoredSession) : SameLogin session session := ⟨rfl, rfl, rfl⟩

/-- A login with the configured credentials. -/
structure LogsIn (x : Digests) (manager : WebSessionManager) (l : Step) (answer : Answer)
    (id : String) (session : StoredSession) : Prop where
  accepted : ∃ username password token success, l.call = .login username password token ∧
    answer = .login (.ok success) ∧ matchesDigest x manager.usernameDigest username = true ∧
    matchesDigest x manager.passwordDigest password = true ∧
    session.actorId = WebSessionManager.actorId x username
  token : l.env.token = some id
  csrfToken : l.env.csrfToken = some session.csrfToken
  expiresAt : session.expiresAt = l.env.now.addNanos manager.ttl

/-- A session of somebody who did not have to log in. -/
structure OfAnyone (manager : WebSessionManager) (actorId csrfToken : String) : Prop where
  mode : manager.mode = .unauthenticated
  actorId : actorId = "webui:unauthenticated"
  csrfToken : csrfToken = manager.unauthenticatedCsrf

inductive Origin (x : Digests) (manager : WebSessionManager) (s : WebState) (l : Step)
    (answer : Answer) (id : String) (session : StoredSession) : Prop
  | kept (old : StoredSession) (hold : s.sessions.get id = some old) (hsame : SameLogin old session)
      (hlogout : ∀ headers, l.call = .logout headers →
        cookieValue headers SESSION_COOKIE ≠ some id)
  | login (h : LogsIn x manager l answer id session)
  | anyone (h : OfAnyone manager session.actorId session.csrfToken)

variable {x : Digests} {manager : WebSessionManager} {env : CallEnv} {s : WebState} {id : String}
  {session : StoredSession}

/-! ## The operations -/

theorem consumePreSession_sessions (env : CallEnv) (s : WebState) (token : String) :
    (consumePreSession env s token).2.sessions = s.sessions := by
  unfold consumePreSession
  split
  · rfl
  · rfl

theorem checkRateLimit_sessions (env : CallEnv) (s : WebState) :
    (checkRateLimit env s).2.sessions = s.sessions := by
  unfold checkRateLimit
  split
  · rfl
  · rfl

theorem issuePreSessionToken_sessions :
    (issuePreSessionToken manager env s).2.sessions = s.sessions := by
  unfold issuePreSessionToken
  split
  · rfl
  · split
    · rfl
    · rfl

/-- Looking somebody up makes no session. -/
theorem authenticate_sessions (manager : WebSessionManager) (env : CallEnv) (headers : HeaderMap)
    (h : (authenticate manager env s headers).2.sessions.get id = some session) :
    s.sessions.get id = some session := by
  unfold authenticate at h
  split at h
  · exact h
  · split at h
    · exact h
    · split at h
      · exact h
      · split at h
        · exact h
        · exact (HashMap.get_remove.mp h).1
  · split at h
    · exact h
    · split at h
      · exact h
      · split at h
        · exact (HashMap.get_remove.mp h).1
        · exact h

/-- **Who is let in** has the cookie of a session that goes on, or did not have to log in. -/
theorem authenticate_ok {headers : HeaderMap} {found : SessionView} {s' : WebState}
    (h : authenticate manager env s headers = (.ok found, s')) :
    (∃ id session, cookieValue headers SESSION_COOKIE = some id ∧
      s.sessions.get id = some session ∧ env.now.utc < session.expiresAt.utc ∧
      found = view session) ∨ OfAnyone manager found.actorId found.csrfToken := by
  unfold authenticate at h
  split at h
  · cases h
  · next hmode =>
    have hanyone : OfAnyone manager (unauthenticatedView manager).actorId
      (unauthenticatedView manager).csrfToken := ⟨hmode, rfl, rfl⟩
    split at h
    · cases h
      exact .inr hanyone
    · next id hcookie =>
      split at h
      · cases h
        exact .inr hanyone
      · next session hsession =>
        split at h
        · next hlive =>
          cases h
          exact .inl ⟨id, session, hcookie, hsession, hlive, rfl⟩
        · cases h
          exact .inr hanyone
  · split at h
    · cases h
    · next id hcookie =>
      split at h
      · cases h
      · next session hsession =>
        split at h
        · cases h
        · next hexpired =>
          cases h
          exact .inl ⟨id, session, hcookie, hsession, by omega, rfl⟩

theorem login_origin {username password token : String}
    (h : (login x manager env s username password token).2.sessions.get id = some session) :
    s.sessions.get id = some session ∨
      LogsIn x manager ⟨env, .login username password token⟩
        (.login (login x manager env s username password token).1) id session := by
  unfold login at h ⊢
  by_cases hmode : manager.mode ≠ .authenticated
  · rw [if_pos hmode] at h
    exact .inl h
  · simp only [if_neg hmode] at h ⊢
    have hconsumed := consumePreSession_sessions env s token
    rcases hpre : consumePreSession env s token with ⟨_ | _, s₁⟩
    · rw [hpre] at h hconsumed
      dsimp only at h hconsumed
      rw [hconsumed] at h
      exact .inl h
    · simp only [hpre] at h hconsumed ⊢
      have hchecked := checkRateLimit_sessions env s₁
      rcases hlimit : checkRateLimit env s₁ with ⟨_ | _, s₂⟩
      · rw [hlimit] at h hchecked
        dsimp only at h hchecked
        rw [hchecked, hconsumed] at h
        exact .inl h
      · simp only [hlimit] at h hchecked ⊢
        rw [hconsumed] at hchecked
        split at h
        · rw [hchecked] at h
          exact .inl h
        · next hmatch =>
          rw [if_neg hmatch]
          obtain ⟨husername, hpassword⟩ := not_not.mp hmatch
          unfold openSession at h ⊢
          split at h
          · next newId csrfToken hid hcsrf =>
            rcases HashMap.get_store h with ⟨rfl, rfl⟩ | ⟨-, hold⟩
            · exact .inr ⟨⟨username, password, token, _, rfl, rfl, husername, hpassword, rfl⟩, hid,
                hcsrf, rfl⟩
            · rw [hchecked] at hold
              exact .inl hold
          · rw [hchecked] at h
            exact .inl h

theorem reauthenticate_origin {headers : HeaderMap} {password : String}
    (h : (reauthenticate x manager env s headers password).2.sessions.get id = some session) :
    (∃ old, s.sessions.get id = some old ∧ SameLogin old session) ∨
      OfAnyone manager session.actorId session.csrfToken := by
  have hkept : s.sessions.get id = some session →
      (∃ old, s.sessions.get id = some old ∧ SameLogin old session) ∨
        OfAnyone manager session.actorId session.csrfToken := by
    intro hold
    exact .inl ⟨session, hold, .refl session⟩
  unfold reauthenticate at h
  split at h
  · exact hkept h
  · have hchecked := checkRateLimit_sessions env s
    rcases hlimit : checkRateLimit env s with ⟨_ | _, s₁⟩
    · rw [hlimit] at h hchecked
      dsimp only at h hchecked
      rw [hchecked] at h
      exact hkept h
    · rw [hlimit] at h hchecked
      dsimp only at h hchecked
      rw [← hchecked] at hkept ⊢
      split at h
      · next hmode =>
        unfold reauthenticateAnyone at h
        split at h
        · exact hkept h
        · split at h
          · exact hkept h
          · rcases HashMap.get_store h with ⟨-, rfl⟩ | ⟨-, hold⟩
            · exact .inr ⟨hmode, rfl, rfl⟩
            · exact hkept hold
      · unfold refreshSession at h
        split at h
        · exact hkept h
        · split at h
          · exact hkept h
          · next old hold =>
            split at h
            · exact hkept h
            · split at h
              · exact hkept h
              · rcases HashMap.get_insert h with ⟨rfl, rfl⟩ | ⟨-, hother⟩
                · exact .inl ⟨old, hold, rfl, rfl, rfl⟩
                · exact hkept hother

/-- A logout takes the session of its cookie away. -/
theorem logout_origin {headers : HeaderMap}
    (h : (logout manager s headers).2.sessions.get id = some session) :
    s.sessions.get id = some session ∧ cookieValue headers SESSION_COOKIE ≠ some id := by
  unfold logout at h
  dsimp only at h
  split at h
  · next other hcookie =>
    obtain ⟨hold, hother⟩ := HashMap.get_remove.mp h
    refine ⟨hold, ?_⟩
    rw [hcookie]
    intro hsame
    exact hother (Option.some.inj hsame).symm
  · next hcookie =>
    refine ⟨h, ?_⟩
    rw [hcookie]
    exact (Option.some_ne_none _).symm

/-! ## One call -/

/-- **Sessions are made by logins.** -/
theorem step_origin {l : Step} (h : (step x manager s l).1.sessions.get id = some session) :
    Origin x manager s l (step x manager s l).2 id session := by
  have hkept : (∀ headers, l.call ≠ .logout headers) → s.sessions.get id = some session →
      Origin x manager s l (step x manager s l).2 id session := by
    intro hother hold
    exact .kept session hold (.refl session) fun headers hcall => absurd hcall (hother headers)
  obtain ⟨env, call⟩ := l
  cases call with
  | issuePreSessionToken =>
    have hsame : (step x manager s ⟨env, .issuePreSessionToken⟩).1.sessions = s.sessions :=
      issuePreSessionToken_sessions
    rw [hsame] at h
    exact hkept nofun h
  | login username password token =>
    rcases login_origin h with hold | hlogin
    · exact hkept nofun hold
    · exact .login hlogin
  | authenticate headers => exact hkept nofun (authenticate_sessions manager env headers h)
  | reauthenticate headers password =>
    rcases reauthenticate_origin h with ⟨old, hold, hsame⟩ | hanyone
    · exact .kept old hold hsame nofun
    · exact .anyone hanyone
  | logout headers =>
    have hlogout : (logout manager s headers).2.sessions.get id = some session := h
    obtain ⟨hold, hcookie⟩ := logout_origin hlogout
    refine .kept session hold (.refl session) fun other hcall => ?_
    cases hcall
    exact hcookie
  | restoreGate headers =>
    refine hkept nofun (authenticate_sessions manager env headers ?_)
    have hgate : (restoreGate manager env s headers).2 = (authenticate manager env s headers).2 := by
      unfold restoreGate
      rcases authenticate manager env s headers with ⟨_ | _, _⟩
      · rfl
      · rfl
    rw [← hgate]
    exact h

end RemindiCore.Web.WebSessionManager
