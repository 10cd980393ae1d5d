import RemindiCore.Scheduler.Lease

/-!
# What the lease calls do

One lemma for each call of `Scheduler/Lease.lean`: what a success tells about
the row it found, and the guard and the row it leaves.
-/

namespace RemindiCore

open CivilTime Machine Transaction

namespace SchedulerLease

variable {lease : SchedulerLease} {guard guard' : LeaseGuard} {now : OffsetDateTime}
  {row : Option LeaseRow} {row' : LeaseRow}

/-- The version that a grant gets. -/
def nextVersion : Option LeaseRow → Int
  | none => 1
  | some row => row.version + 1

theorem timestamp_ok {value : OffsetDateTime} {text : String} :
    timestamp value = .ok text ↔ canonicalTimestamp value = .ok text := except_mapError_ok

theorem column_ok {version : Nat} {v : Int} :
    column version = .ok v ↔ version ≤ i64Max ∧ (version : Int) = v := by
  unfold column
  split
  · next h => simp [h]
  · next h => simp [h]

/-- A grant follows no row, or a row whose expiry has passed. -/
def Free (row : Option LeaseRow) (now : OffsetDateTime) : Prop :=
  ∀ r, row = some r → ∃ expiry, parseTimestamp r.expiresAt = .ok expiry ∧ expiry.utc ≤ now.utc

theorem acquire_ok (h : lease.acquire now row = .ok (guard, row')) :
    ∃ (version : Nat) (acquired expires : String),
      guard = ⟨lease.holderId, version, now.addNanos lease.duration, lease.duration⟩ ∧
      row' = ⟨lease.holderId, acquired, expires, version⟩ ∧ (version : Int) = nextVersion row ∧
      canonicalTimestamp (now.addNanos lease.duration) = .ok expires ∧ Free row now := by
  unfold acquire at h
  obtain ⟨expires, hexpires, h⟩ := except_bind_ok.mp h
  obtain ⟨acquired, hacquired, h⟩ := except_bind_ok.mp h
  have hexpires := timestamp_ok.mp hexpires
  cases row with
  | none =>
    obtain ⟨rfl, rfl⟩ := Prod.mk.inj (Except.ok.inj h)
    exact ⟨1, acquired, expires, rfl, rfl, rfl, hexpires, fun r hr => nomatch hr⟩
  | some r =>
    obtain ⟨expiry, hexpiry, h⟩ := except_bind_ok.mp h
    obtain ⟨version, hversion, h⟩ := except_bind_ok.mp h
    unfold storedVersion at hversion
    split at hversion
    · next hnonneg =>
      obtain rfl := Except.ok.inj hversion
      split at h
      · cases h
      · next hexpired =>
        obtain ⟨_, -, h⟩ := except_bind_ok.mp h
        obtain ⟨rfl, rfl⟩ := Prod.mk.inj (Except.ok.inj h)
        refine ⟨r.version.toNat + 1, acquired, expires, rfl, rfl, ?_, hexpires, ?_⟩
        · simp only [nextVersion]
          omega
        · intro r' hr
          obtain rfl := Option.some.inj hr
          exact ⟨expiry, except_mapError_ok.mp hexpiry, by omega⟩
    · cases hversion

theorem renew_ok (h : lease.renew guard now row = .ok (guard', row')) :
    ∃ (r : LeaseRow) (current expires : String), row = some r ∧
      guard.holderId = lease.holderId ∧ r.holderId = lease.holderId ∧
      r.version = guard.version ∧ now.utc < guard.expiresAt.utc ∧
      canonicalTimestamp now = .ok current ∧ current < r.expiresAt ∧
      canonicalTimestamp (now.addNanos lease.duration) = .ok expires ∧
      guard' = { guard with
        version := guard.version + 1, expiresAt := now.addNanos lease.duration } ∧
      row' = { r with expiresAt := expires, version := guard.version + 1 } := by
  unfold renew at h
  split at h
  · cases h
  · next hlive =>
    obtain ⟨expires, hexpires, h⟩ := except_bind_ok.mp h
    obtain ⟨next, hnext, h⟩ := except_bind_ok.mp h
    obtain ⟨version, hversion, h⟩ := except_bind_ok.mp h
    obtain ⟨current, hcurrent, h⟩ := except_bind_ok.mp h
    obtain ⟨-, rfl⟩ := column_ok.mp hnext
    obtain ⟨-, rfl⟩ := column_ok.mp hversion
    cases row with
    | none => cases h
    | some r =>
      dsimp only at h
      split at h
      · next hrow =>
        obtain ⟨rfl, rfl⟩ := Prod.mk.inj (Except.ok.inj h)
        obtain ⟨hholder, hsame, hless⟩ := hrow
        exact ⟨r, current, expires, rfl, not_not.mp fun hne => hlive (.inl hne), hholder, hsame,
          by omega, timestamp_ok.mp hcurrent, hless, timestamp_ok.mp hexpires, rfl, by simp⟩
      · cases h

theorem release_ok (h : lease.release guard row = .ok ()) :
    ∃ r, row = some r ∧ r.holderId = lease.holderId ∧ r.version = guard.version := by
  unfold release at h
  obtain ⟨version, hversion, h⟩ := except_bind_ok.mp h
  obtain ⟨-, rfl⟩ := column_ok.mp hversion
  cases row with
  | none => cases h
  | some r =>
    dsimp only at h
    split at h
    · next hrow => exact ⟨r, rfl, hrow⟩
    · cases h

end SchedulerLease

/-! ## Calls in a world -/

namespace LeaseWorld

variable {ι : Type} {clients : ι → SchedulerLease} {w w' : LeaseWorld ι}

variable (clients w) in
/-- A call changed nothing, or succeeded and left what `call` says. -/
theorem step_cases (label : LeaseCall ι × Option DatabaseError) :
    (∃ e, step clients w label = (w, .error e)) ∨
      ∃ w', w.call clients label.1 = .ok w' ∧ label.2 = none ∧
        step clients w label = (w', .ok ()) := by
  unfold step
  cases hfault : label.2 with
  | some e => exact Or.inl ⟨.database e, rfl⟩
  | none =>
    cases hcall : w.call clients label.1 with
    | error e => exact Or.inl ⟨e, rfl⟩
    | ok w' => exact Or.inr ⟨w', rfl, rfl, rfl⟩

theorem call_acquire {client : ι} {now : OffsetDateTime}
    (h : w.call clients (.acquire client now) = .ok w') :
    ∃ guard row, (clients client).acquire now w.row = .ok (guard, row) ∧
      w' = { row := some row, grants := w.grants ++ [⟨client, guard, false⟩] } := by
  obtain ⟨⟨guard, row⟩, hacquire, h⟩ := except_bind_ok.mp h
  exact ⟨guard, row, hacquire, (Except.ok.inj h).symm⟩

theorem call_renew {client : ι} {i : Nat} {now : OffsetDateTime}
    (h : w.call clients (.renew client i now) = .ok w') :
    ∃ grant guard row, w.grants[i]? = some grant ∧
      (clients client).renew grant.guard now w.row = .ok (guard, row) ∧
      w' = { row := some row, grants := w.grants.set i { grant with guard := guard } } := by
  unfold call at h
  cases hgrant : w.grants[i]? with
  | none =>
    simp only [hgrant] at h
    cases h
  | some grant =>
    simp only [hgrant] at h
    obtain ⟨⟨guard, row⟩, hrenew, h⟩ := except_bind_ok.mp h
    exact ⟨grant, guard, row, rfl, hrenew, (Except.ok.inj h).symm⟩

theorem call_release {client : ι} {i : Nat}
    (h : w.call clients (.release client i) = .ok w') :
    ∃ grant, w.grants[i]? = some grant ∧ (clients client).release grant.guard w.row = .ok () ∧
      w' = { row := none, grants := w.grants.set i { grant with released := true } } := by
  unfold call at h
  cases hgrant : w.grants[i]? with
  | none =>
    simp only [hgrant] at h
    cases h
  | some grant =>
    simp only [hgrant] at h
    obtain ⟨⟨⟩, hrelease, h⟩ := except_bind_ok.mp h
    exact ⟨grant, rfl, hrelease, (Except.ok.inj h).symm⟩

/-- A grant after one of them was changed in its place. -/
theorem grants_set {i j : Nat} {grant grant' : Grant ι}
    (h : (w.grants.set i grant)[j]? = some grant') :
    i = j ∧ grant' = grant ∨ i ≠ j ∧ w.grants[j]? = some grant' := by
  rw [List.getElem?_set] at h
  split at h
  · next hij =>
    split at h
    · exact Or.inl ⟨hij, (Option.some.inj h).symm⟩
    · cases h
  · next hij => exact Or.inr ⟨hij, h⟩

/-- A grant after a new one was made. -/
theorem grants_append {j : Nat} {grant grant' : Grant ι}
    (h : (w.grants ++ [grant])[j]? = some grant') :
    j = w.grants.length ∧ grant' = grant ∨ w.grants[j]? = some grant' := by
  rw [List.getElem?_append] at h
  split at h
  · exact Or.inr h
  · rw [List.getElem?_singleton] at h
    split at h
    · exact Or.inl ⟨by omega, (Option.some.inj h).symm⟩
    · cases h

end LeaseWorld

end RemindiCore
