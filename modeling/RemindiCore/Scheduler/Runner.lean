import RemindiCore.Lib.Workers
import RemindiCore.Scheduler.Lease
import RemindiCore.Service.Check

/-!
# A poll of the scheduler

`Scheduler::poll_once` (`scheduler/runner.rs`): renew the lease when half of it
is over, read the candidates, ask their adapters on `adapter_concurrency` slots
(`buffer_unordered`), renew the lease, apply the evaluations in the order of
the candidates.  Durations are in nanoseconds.  Time passes while adapters
answer (`Workers.finish`) and in the rest of the poll (`PollEnv.elsewhere`).
-/

namespace RemindiCore

open CivilTime JsonText

/-! ## Configuration -/

structure SchedulerConfig where
  pollInterval : Nat
  leaseDuration : Nat
  adapterTimeout : Nat
  adapterConcurrency : Nat
  candidateBatchSize : Nat
deriving DecidableEq

/-- `Duration::MAX`, at which a multiplication saturates. -/
def maxDuration : Nat := 18446744073709551615999999999

inductive SchedulerError where
  | invalidConfiguration
  | lease (error : LeaseError)
  | database (error : DatabaseError)
  | service (error : ServiceError)
  | invalidDesiredState
deriving DecidableEq

def SchedulerConfig.validate (config : SchedulerConfig) : Except SchedulerError Unit :=
  if config.pollInterval = 0 ∨
      config.leaseDuration ≤ min (config.pollInterval * 2) maxDuration ∨
      config.adapterTimeout = 0 ∨ config.adapterConcurrency = 0 ∨ config.candidateBatchSize = 0 then
    .error .invalidConfiguration
  else .ok ()

structure Scheduler where
  service : RemindiService
  config : SchedulerConfig
  lease : SchedulerLease
  actor : Actor
  valid : config.validate = .ok ()
  lasting : lease.duration = config.leaseDuration

namespace Scheduler

def new (service : RemindiService) (holderId : String) (config : SchedulerConfig) :
    Except SchedulerError Scheduler :=
  match hvalid : config.validate with
  | .error e => .error e
  | .ok () =>
    if i64Max < config.leaseDuration / 1000000000 then .error .invalidConfiguration
    else if hname : trim holderId = "" then .error (.lease .invalidConfiguration)
    else if hduration : config.leaseDuration = 0 then .error (.lease .invalidConfiguration)
    else .ok
      { service := service
        config := config
        lease := ⟨holderId, config.leaseDuration, hname, by omega⟩
        actor := {
          actorType := .scheduler
          actorId := "scheduler:" ++ holderId
          requestId := none }
        valid := hvalid
        lasting := rfl }

end Scheduler

/-! ## Surroundings of a poll -/

/-- An adapter's answer to the `n`-th candidate and the time it takes. -/
abbrev TimedAdapter := Nat → Json → RemindiService.AdapterResult × Nat

structure PollEnv where
  configured : String → Bool
  adapters : String → TimedAdapter
  elsewhere : Nat
  cancelled : Bool
  leaseFault : Nat → Option DatabaseError
  read : Env
  apply : Nat → Env

namespace PollEnv

def provider (env : PollEnv) (n : Nat) : RemindiService.AdapterProvider := fun name =>
  if env.configured name then some fun parameters => (env.adapters name n parameters).1 else none

/-- How long the evaluation of a candidate takes. -/
def latency (env : PollEnv) (n : Nat) (candidate : Remindi) : Nat :=
  match candidate.trigger with
  | .condition adapter parameters _ _ =>
    if env.configured adapter then (env.adapters adapter n parameters).2 else 0
  | _ => 0

def latencies (env : PollEnv) (candidates : List Remindi) : List Nat :=
  candidates.mapIdx env.latency

end PollEnv

/-! ## The poll -/

structure PollReport where
  selected : Nat
  applied : Nat
  conflicts : Nat
  failures : Nat
deriving DecidableEq

namespace PollReport

def count (report : PollReport) : Except ServiceError Unit → PollReport
  | .ok () => { report with applied := report.applied + 1 }
  | .error (.versionConflict _) | .error .notFound =>
    { report with conflicts := report.conflicts + 1 }
  | .error _ => { report with failures := report.failures + 1 }

end PollReport

structure PollOutcome where
  result : Except SchedulerError PollReport
  guard : LeaseGuard
  row : Option LeaseRow
  db : Db

namespace Scheduler

/-- `renew`, or the failure of the database in it. -/
def renewLease (s : Scheduler) (fault : Option DatabaseError) (guard : LeaseGuard)
    (now : OffsetDateTime) (row : Option LeaseRow) :
    Except SchedulerError (LeaseGuard × LeaseRow) :=
  match fault with
  | some e => .error (.lease (.database e))
  | none => (s.lease.renew guard now row).mapError .lease

/-- Apply the evaluations, in the order of the candidates. -/
def applyAll (s : Scheduler) (env : PollEnv) (now : OffsetDateTime) :
    Nat → List Remindi → PollReport → Db → PollReport × Db
  | _, [], report, db => (report, db)
  | n, candidate :: rest, report, db =>
    let (result, db) := (s.service.applySchedulerEvaluation s.actor candidate now
      (env.provider n)).run (env.apply n) db
    s.applyAll env now (n + 1) rest (report.count result) db

/-- The poll after its first renewal. -/
def pollRenewed (s : Scheduler) (env : PollEnv) (guard : LeaseGuard) (row : Option LeaseRow)
    (db : Db) : PollOutcome :=
  match (s.service.schedulerCandidates s.config.candidateBatchSize).run env.read db with
  | (.error e, _) => ⟨.error (.service e), guard, row, db⟩
  | (.ok (now, candidates), _) =>
    let phase := Workers.finish s.config.adapterConcurrency (env.latencies candidates)
    if env.cancelled then
      ⟨.ok ⟨candidates.length, 0, 0, candidates.length⟩, guard, row, db⟩
    else
      match s.renewLease (env.leaseFault 1) guard (now.addNanos (phase + env.elsewhere : Nat)) row with
      | .error e => ⟨.error e, guard, row, db⟩
      | .ok (guard, row) =>
        let (report, db) := s.applyAll env now 0 candidates ⟨candidates.length, 0, 0, 0⟩ db
        ⟨.ok report, guard, some row, db⟩

def pollOnce (s : Scheduler) (env : PollEnv) (guard : LeaseGuard) (row : Option LeaseRow)
    (db : Db) : PollOutcome :=
  let now := env.read.clock 0
  if guard.renewalDue now then
    match s.renewLease (env.leaseFault 0) guard now row with
    | .error e => ⟨.error e, guard, row, db⟩
    | .ok (guard, row) => s.pollRenewed env guard (some row) db
  else s.pollRenewed env guard row db

end Scheduler

end RemindiCore
