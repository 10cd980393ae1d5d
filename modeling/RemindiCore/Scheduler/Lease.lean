import RemindiCore.Domain.Evidence
import RemindiCore.Lib.Machine
import RemindiCore.Service.Service

/-!
# The scheduler lease

`scheduler/lease.rs`: one row of `scheduler_leases`, inserted by the first
`acquire`, taken over when it has expired, moved on by `renew` and deleted by
`release` or by the maintenance after a restore.  Each of them is one
transaction, so here each is a function of the row.

`LeaseWorld` holds the row and every guard that was ever granted, and
`LeaseWorld.step` lets any client make any call with any of them.
-/

namespace RemindiCore

open CivilTime Machine

/-! ## Rows, guards and clients -/

/-- The row named `trigger-evaluator`. -/
@[ext]
structure LeaseRow where
  holderId : String
  acquiredAt : String
  expiresAt : String
  version : Int
deriving DecidableEq

/-- A held lease and its version; the duration is in nanoseconds. -/
structure LeaseGuard where
  holderId : String
  version : Nat
  expiresAt : OffsetDateTime
  duration : Int
deriving DecidableEq

/-- Whether half of the duration or less remains. -/
def LeaseGuard.renewalDue (guard : LeaseGuard) (now : OffsetDateTime) : Bool :=
  decide (guard.expiresAt.utc ≤ (now.addNanos (guard.duration / 2)).utc)

inductive LeaseError where
  | alreadyHeld
  | lost
  | invalidConfiguration
  | database (error : DatabaseError)
  | invalidData
deriving DecidableEq

/-- A lease client. -/
structure SchedulerLease where
  holderId : String
  duration : Int
  named : trim holderId ≠ ""
  lasting : 0 < duration

namespace SchedulerLease

def new (holderId : String) (duration : Int) : Except LeaseError SchedulerLease :=
  if h : trim holderId = "" ∨ duration ≤ 0 then .error .invalidConfiguration
  else .ok ⟨holderId, duration, fun hn => h (.inl hn), by omega⟩

/-! ## The calls -/

def timestamp (value : OffsetDateTime) : Except LeaseError String :=
  (canonicalTimestamp value).mapError fun _ => .invalidData

def column (version : Nat) : Except LeaseError Int :=
  if version ≤ i64Max then .ok version else .error .invalidData

/-- The expiry of a stored row. -/
def stored (row : LeaseRow) : Except LeaseError OffsetDateTime :=
  (parseTimestamp row.expiresAt).mapError fun _ => .invalidData

def storedVersion (row : LeaseRow) : Except LeaseError Nat :=
  if 0 ≤ row.version then .ok row.version.toNat else .error .invalidData

/-- Take an absent or expired lease. -/
def acquire (lease : SchedulerLease) (now : OffsetDateTime) (row : Option LeaseRow) :
    Except LeaseError (LeaseGuard × LeaseRow) := do
  let expiresAt := now.addNanos lease.duration
  let expires ← timestamp expiresAt
  let acquired ← timestamp now
  let grant := fun version : Nat =>
    (LeaseGuard.mk lease.holderId version expiresAt lease.duration,
      LeaseRow.mk lease.holderId acquired expires version)
  match row with
  | some row => do
    let currentExpiry ← stored row
    let currentVersion ← storedVersion row
    if now.utc < currentExpiry.utc then .error .alreadyHeld
    else do
      -- the row was read in this transaction, so the update finds it
      let _ ← column (currentVersion + 1)
      .ok (grant (currentVersion + 1))
  | none => .ok (grant 1)

/-- Move the expiry of a lease that is still held. -/
def renew (lease : SchedulerLease) (guard : LeaseGuard) (now : OffsetDateTime)
    (row : Option LeaseRow) : Except LeaseError (LeaseGuard × LeaseRow) :=
  if guard.holderId ≠ lease.holderId ∨ guard.expiresAt.utc ≤ now.utc then .error .lost
  else do
    let nextVersion := guard.version + 1
    let expiresAt := now.addNanos lease.duration
    let expires ← timestamp expiresAt
    let next ← column nextVersion
    let version ← column guard.version
    let current ← timestamp now
    match row with
    | some row =>
      if row.holderId = lease.holderId ∧ row.version = version ∧ current < row.expiresAt then
        .ok ({ guard with version := nextVersion, expiresAt := expiresAt },
          { row with expiresAt := expires, version := next })
      else .error .lost
    | none => .error .lost

/-- Delete the row of a guard's version; the holder is the client's own. -/
def release (lease : SchedulerLease) (guard : LeaseGuard) (row : Option LeaseRow) :
    Except LeaseError Unit := do
  let version ← column guard.version
  match row with
  | some row =>
    if row.holderId = lease.holderId ∧ row.version = version then .ok () else .error .lost
  | none => .error .lost

end SchedulerLease

/-! ## Clients at work -/

/-- One grant: who acquired it, its guard as last renewed, whether it was released. -/
structure Grant (ι : Type) where
  client : ι
  guard : LeaseGuard
  released : Bool
deriving DecidableEq

/-- The row and all grants, in the order in which they were made. -/
structure LeaseWorld (ι : Type) where
  row : Option LeaseRow
  grants : List (Grant ι)
deriving DecidableEq

inductive LeaseCall (ι : Type) where
  | acquire (client : ι) (now : OffsetDateTime)
  | renew (client : ι) (grant : Nat) (now : OffsetDateTime)
  | release (client : ι) (grant : Nat)
  /-- `clear_scheduler_leases` -/
  | clear
deriving DecidableEq

namespace LeaseWorld

variable {ι : Type}

/-- A call whose database answers; `none` of a guard that was never granted. -/
def call (clients : ι → SchedulerLease) (w : LeaseWorld ι) :
    LeaseCall ι → Except LeaseError (LeaseWorld ι)
  | .acquire client now => do
    let (guard, row) ← (clients client).acquire now w.row
    .ok { row := some row, grants := w.grants ++ [⟨client, guard, false⟩] }
  | .renew client i now =>
    match w.grants[i]? with
    | some grant => do
      let (guard, row) ← (clients client).renew grant.guard now w.row
      .ok { row := some row, grants := w.grants.set i { grant with guard := guard } }
    | none => .error .lost
  | .release client i =>
    match w.grants[i]? with
    | some grant => do
      (clients client).release grant.guard w.row
      .ok { row := none, grants := w.grants.set i { grant with released := true } }
    | none => .error .lost
  | .clear => .ok { w with row := none }

/-- A call, or the failure of the database in it. -/
def step (clients : ι → SchedulerLease) (w : LeaseWorld ι)
    (label : LeaseCall ι × Option DatabaseError) : LeaseWorld ι × Except LeaseError Unit :=
  match label.2 with
  | some e => (w, .error (.database e))
  | none =>
    match w.call clients label.1 with
    | .ok next => (next, .ok ())
    | .error e => (w, .error e)

abbrev LeaseStep (ι : Type) :=
  Entry (LeaseWorld ι) (LeaseCall ι × Option DatabaseError) (Except LeaseError Unit)

end LeaseWorld

end RemindiCore
