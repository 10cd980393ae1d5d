import RemindiCore.Scheduler.Runner

/-!
# The scheduler's loop

`run_acquired` and the workload that starts, stops and restarts it
(`scheduler/runner.rs`).  The loop runs beside other connections: `Others` is
what they do to the tables and to the row of the lease while a poll runs.
`pollOnceAmong` is the poll with them and keeps a record of each evaluation it
applied; alone it is `pollOnce` (`pollOnceAmong_alone`).
-/

namespace RemindiCore

open CivilTime

/-! ## A poll among other connections -/

/-- What the others do: to the tables before the `n`-th evaluation is applied,
to the row of the lease while the adapters answer. -/
structure Others where
  tables : Nat → Db → Db
  lease : Option LeaseRow → Option LeaseRow

def Others.absent : Others where
  tables := fun _ db => db
  lease := fun row => row

/-- The transaction of one evaluation. -/
structure Application where
  index : Nat
  candidate : Remindi
  before : Db
  result : Except ServiceError Unit
  after : Db

/-- A poll with its candidates and the evaluations it applied. -/
structure PollTrace where
  outcome : PollOutcome
  candidates : List Remindi
  applications : List Application

namespace Scheduler

/-- The transaction of the `n`-th evaluation. -/
def applyTo (s : Scheduler) (env : PollEnv) (now : OffsetDateTime) (n : Nat)
    (candidate : Remindi) (db : Db) : Application :=
  let (result, after) := (s.service.applySchedulerEvaluation s.actor candidate now
    (env.provider n)).run (env.apply n) db
  { index := n, candidate := candidate, before := db, result := result, after := after }

def applyAllAmong (s : Scheduler) (env : PollEnv) (tables : Nat → Db → Db)
    (now : OffsetDateTime) : Nat → List Remindi → PollReport → Db →
      PollReport × Db × List Application
  | _, [], report, db => (report, db, [])
  | n, candidate :: rest, report, db =>
    let application := s.applyTo env now n candidate (tables n db)
    let (report, db, applications) := s.applyAllAmong env tables now (n + 1) rest
      (report.count application.result) application.after
    (report, db, application :: applications)

def pollRenewedAmong (s : Scheduler) (env : PollEnv) (others : Others) (guard : LeaseGuard)
    (row : Option LeaseRow) (db : Db) : PollTrace :=
  match (s.service.schedulerCandidates s.config.candidateBatchSize).run env.read db with
  | (.error e, _) => ⟨⟨.error (.service e), guard, row, db⟩, [], []⟩
  | (.ok (now, candidates), _) =>
    let phase := Workers.finish s.config.adapterConcurrency (env.latencies candidates)
    let row := others.lease row
    if env.cancelled then
      ⟨⟨.ok ⟨candidates.length, 0, 0, candidates.length⟩, guard, row, db⟩, candidates, []⟩
    else
      match s.renewLease (env.leaseFault 1) guard (now.addNanos (phase + env.elsewhere : Nat)) row with
      | .error e => ⟨⟨.error e, guard, row, db⟩, candidates, []⟩
      | .ok (guard, row) =>
        let (report, db, applications) := s.applyAllAmong env others.tables now 0 candidates
          ⟨candidates.length, 0, 0, 0⟩ db
        ⟨⟨.ok report, guard, some row, db⟩, candidates, applications⟩

/-- `poll_once`. -/
def pollOnceAmong (s : Scheduler) (env : PollEnv) (others : Others) (guard : LeaseGuard)
    (row : Option LeaseRow) (db : Db) : PollTrace :=
  let now := env.read.clock 0
  if guard.renewalDue now then
    match s.renewLease (env.leaseFault 0) guard now row with
    | .error e => ⟨⟨.error e, guard, row, db⟩, [], []⟩
    | .ok (guard, row) => s.pollRenewedAmong env others guard (some row) db
  else s.pollRenewedAmong env others guard row db

theorem applyAllAmong_alone (s : Scheduler) (env : PollEnv) (now : OffsetDateTime) (n : Nat)
    (candidates : List Remindi) (report : PollReport) (db : Db) :
    ((s.applyAllAmong env Others.absent.tables now n candidates report db).1,
      (s.applyAllAmong env Others.absent.tables now n candidates report db).2.1) =
      s.applyAll env now n candidates report db := by
  induction candidates generalizing n report db with
  | nil => rfl
  | cons candidate rest ih => exact ih (n + 1) _ _

theorem pollRenewedAmong_alone (s : Scheduler) (env : PollEnv) (guard : LeaseGuard)
    (row : Option LeaseRow) (db : Db) :
    (s.pollRenewedAmong env .absent guard row db).outcome = s.pollRenewed env guard row db := by
  unfold pollRenewedAmong pollRenewed
  cases hread : (s.service.schedulerCandidates s.config.candidateBatchSize).run env.read db with
  | mk result db' =>
    cases result with
    | error e => rfl
    | ok pair =>
      obtain ⟨now, candidates⟩ := pair
      dsimp only [Others.absent]
      by_cases hcancelled : env.cancelled = true
      · rw [if_pos hcancelled, if_pos hcancelled]
      · rw [if_neg hcancelled, if_neg hcancelled]
        cases s.renewLease (env.leaseFault 1) guard (now.addNanos
            (Workers.finish s.config.adapterConcurrency (env.latencies candidates) +
              env.elsewhere : Nat)) row with
        | error e => rfl
        | ok pair =>
          dsimp only
          rw [← applyAllAmong_alone]
          rfl

/-- **With no one beside it, it is the poll.** -/
theorem pollOnceAmong_alone (s : Scheduler) (env : PollEnv) (guard : LeaseGuard)
    (row : Option LeaseRow) (db : Db) :
    (s.pollOnceAmong env .absent guard row db).outcome = s.pollOnce env guard row db := by
  unfold pollOnceAmong pollOnce
  dsimp only
  by_cases hdue : guard.renewalDue (env.read.clock 0) = true
  · rw [if_pos hdue, if_pos hdue]
    cases s.renewLease (env.leaseFault 0) guard (env.read.clock 0) row with
    | error e => rfl
    | ok pair => exact pollRenewedAmong_alone s env pair.1 (some pair.2) db
  · rw [if_neg hdue, if_neg hdue]
    exact pollRenewedAmong_alone s env guard row db

end Scheduler

/-! ## The loop -/

inductive RunExit where
  | cancelled
  | desiredStopped
  | leaseLost
deriving DecidableEq

/-- `desired_running`, of the answer of the database. -/
def desiredRunning : Except DatabaseError (Option String) → Except SchedulerError Bool
  | .error e => .error (.database e)
  | .ok (some "running") => .ok true
  | .ok (some "stopped") => .ok false
  | .ok _ => .error .invalidDesiredState

/-- The surroundings of one turn of the loop; the others may also reach the
tables and the row of the lease before it. -/
structure Turn where
  tables : Db → Db
  lease : Option LeaseRow → Option LeaseRow
  cancelled : Bool
  desired : Except DatabaseError (Option String)
  env : PollEnv
  others : Others
  cancelledAsleep : Bool

/-- The surroundings of the release at the end. -/
structure Ending where
  lease : Option LeaseRow → Option LeaseRow
  fault : Option DatabaseError

/-- A finished run: what it returned, the guard and the row it left, and the
answer of its release if it came to one. -/
structure RunOutcome where
  result : Except SchedulerError RunExit
  guard : LeaseGuard
  row : Option LeaseRow
  db : Db
  released : Option (Except LeaseError Unit)

namespace Scheduler

/-- `release`, or the failure of the database in it. -/
def releaseLease (s : Scheduler) (fault : Option DatabaseError) (guard : LeaseGuard)
    (row : Option LeaseRow) : Except LeaseError Unit × Option LeaseRow :=
  match fault with
  | some e => (.error (.database e), row)
  | none =>
    match s.lease.release guard row with
    | .ok () => (.ok (), none)
    | .error e => (.error e, row)

/-- The end of `run_acquired`, after the loop. -/
def finishRun (s : Scheduler) (ending : Ending) (exit : RunExit) (guard : LeaseGuard)
    (row : Option LeaseRow) (db : Db) : RunOutcome :=
  let (answer, row) := s.releaseLease ending.fault guard (ending.lease row)
  let result := match answer with
    | .ok () | .error .lost => .ok exit
    | .error e => .error (.lease e)
  { result := result, guard := guard, row := row, db := db, released := some answer }

/-- `run_acquired` over the turns it is given; `none` while it still runs. -/
def runAcquired (s : Scheduler) (ending : Ending) :
    List Turn → LeaseGuard → Option LeaseRow → Db → Option RunOutcome
  | [], _, _, _ => none
  | turn :: rest, guard, row, db =>
    let row := turn.lease row
    let db := turn.tables db
    if turn.cancelled then some (s.finishRun ending .cancelled guard row db)
    else
      match desiredRunning turn.desired with
      -- `?` returns from the function, past the release
      | .error e => some { result := .error e, guard := guard, row := row, db := db, released := none }
      | .ok false => some (s.finishRun ending .desiredStopped guard row db)
      | .ok true =>
        let polled := (s.pollOnceAmong turn.env turn.others guard row db).outcome
        if polled.result = .error (.lease .lost) then
          some (s.finishRun ending .leaseLost polled.guard polled.row polled.db)
        else if turn.cancelledAsleep then
          some (s.finishRun ending .cancelled polled.guard polled.row polled.db)
        else s.runAcquired ending rest polled.guard polled.row polled.db

end Scheduler

/-! ## The workload -/

/-- The task of the workload: at work, or with the result nobody has taken yet. -/
inductive RunningScheduler where
  | running (guard : LeaseGuard)
  | finished (result : Except SchedulerError RunExit)

/-- The task and the row of the lease. -/
structure SchedulerWorkload where
  task : Option RunningScheduler
  row : Option LeaseRow

namespace SchedulerWorkload

/-- `acquire`, or the failure of the database in it. -/
def acquireLease (s : Scheduler) (fault : Option DatabaseError) (now : OffsetDateTime)
    (w : SchedulerWorkload) : Except SchedulerError Unit × SchedulerWorkload :=
  match fault with
  | some e => (.error (.lease (.database e)), w)
  | none =>
    match s.lease.acquire now w.row with
    | .error e => (.error (.lease e), w)
    | .ok (guard, row) => (.ok (), { task := some (.running guard), row := some row })

/-- `start` once no task is left. -/
def startTask (s : Scheduler) (desired : Except DatabaseError (Option String))
    (fault : Option DatabaseError) (now : OffsetDateTime) (w : SchedulerWorkload) :
    Except SchedulerError Unit × SchedulerWorkload :=
  match desiredRunning desired with
  | .error e => (.error e, w)
  | .ok false => (.error .invalidDesiredState, w)
  | .ok true => w.acquireLease s fault now

def start (s : Scheduler) (desired : Except DatabaseError (Option String))
    (fault : Option DatabaseError) (now : OffsetDateTime) (w : SchedulerWorkload) :
    Except SchedulerError Unit × SchedulerWorkload :=
  match w.task with
  | some (.running _) => (.ok (), w)
  | some (.finished (.error e)) => (.error e, { w with task := none })
  | some (.finished (.ok _)) | none => startTask s desired fault now { w with task := none }

/-- `stop`; a task at work ends as `outcome` says. -/
def stop (outcome : RunOutcome) (w : SchedulerWorkload) :
    Except SchedulerError Unit × SchedulerWorkload :=
  match w.task with
  | none => (.ok (), w)
  | some (.finished result) => (result.map fun _ => (), { w with task := none })
  | some (.running _) => (outcome.result.map fun _ => (), { task := none, row := outcome.row })

def restart (s : Scheduler) (desired : Except DatabaseError (Option String))
    (fault : Option DatabaseError) (now : OffsetDateTime) (outcome : RunOutcome)
    (w : SchedulerWorkload) : Except SchedulerError Unit × SchedulerWorkload :=
  match w.stop outcome with
  | (.error e, w) => (.error e, w)
  | (.ok (), w) => w.start s desired fault now

end SchedulerWorkload

end RemindiCore
