import RemindiCore.Proof.PollLease
import RemindiCore.Scheduler.Loop

/-!
# The lease after a run

Every `break` of `run_acquired` leads to the release at its end, and a release
that fails with `Lost` finds a row that is not the run's.  The one exit past the
release is the `?` on the desired state (`run_leaves_lease`,
`failed_read_abandons`).
-/

namespace RemindiCore

open CivilTime Transaction

variable {s : Scheduler} {lease : SchedulerLease} {guard guard' : LeaseGuard}
  {row : Option LeaseRow} {row' : LeaseRow} {now : OffsetDateTime} {db : Db} {ending : Ending}

/-! ## Whose row it is -/

/-- The row is the guard's: its holder and its version. -/
def Owns (lease : SchedulerLease) (guard : LeaseGuard) (row : Option LeaseRow) : Prop :=
  ∃ r, row = some r ∧ r.holderId = lease.holderId ∧ r.version = guard.version

/-- The row was released, is no longer the run's, or its release failed. -/
def LeavesLease (lease : SchedulerLease) (o : RunOutcome) : Prop :=
  o.released = some (.ok ()) ∧ o.row = none ∨ ¬ Owns lease o.guard o.row ∨
    ∃ e, o.released = some (.error (.database e))

/-- A start after the run is refused for somebody else's row only. -/
def Restarts (s : Scheduler) (o : RunOutcome) : Prop :=
  ∀ desired fault now, (SchedulerWorkload.startTask s desired fault now ⟨none, o.row⟩).1 =
    .error (.lease .alreadyHeld) → o.row.isSome = true ∧ ¬ Owns s.lease o.guard o.row ∨
      ∃ e, o.released = some (.error (.database e))

theorem timestamp_error {t : OffsetDateTime} {e : LeaseError}
    (h : SchedulerLease.timestamp t = .error e) : e = .invalidData := by
  unfold SchedulerLease.timestamp at h
  cases hmade : canonicalTimestamp t with
  | error e' =>
    rw [hmade] at h
    cases h
    rfl
  | ok text =>
    rw [hmade] at h
    cases h

/-- Where there is no row, nobody is in the way. -/
theorem acquire_absent : lease.acquire now none ≠ .error .alreadyHeld := by
  intro h
  unfold SchedulerLease.acquire at h
  dsimp only at h
  cases hexpires : SchedulerLease.timestamp (now.addNanos lease.duration) with
  | error e =>
    obtain rfl := timestamp_error hexpires
    rw [hexpires] at h
    cases h
  | ok expires =>
    cases hacquired : SchedulerLease.timestamp now with
    | error e =>
      obtain rfl := timestamp_error hacquired
      rw [hexpires, hacquired] at h
      cases h
    | ok acquired =>
      rw [hexpires, hacquired] at h
      cases h

theorem startTask_held {desired : Except DatabaseError (Option String)}
    {fault : Option DatabaseError} {w : SchedulerWorkload}
    (h : (SchedulerWorkload.startTask s desired fault now w).1 = .error (.lease .alreadyHeld)) :
    s.lease.acquire now w.row = .error .alreadyHeld := by
  unfold SchedulerWorkload.startTask at h
  cases hread : desiredRunning desired with
  | error e =>
    rw [hread] at h
    obtain rfl := Except.error.inj h
    unfold desiredRunning at hread
    split at hread <;> cases hread
  | ok running =>
    rw [hread] at h
    cases running with
    | false => cases h
    | true =>
      dsimp only at h
      unfold SchedulerWorkload.acquireLease at h
      cases fault with
      | some e => cases h
      | none =>
        dsimp only at h
        cases hacquire : s.lease.acquire now w.row with
        | error e =>
          rw [hacquire] at h
          cases h
          rfl
        | ok granted =>
          rw [hacquire] at h
          cases h

/-- A lease that was left does not stand in the way of a start. -/
theorem LeavesLease.restarts {o : RunOutcome} (h : LeavesLease s.lease o) : Restarts s o := by
  intro desired fault now hheld
  have hacquire := startTask_held hheld
  dsimp only at hacquire
  have hsome : o.row.isSome = true := by
    cases hrow : o.row with
    | none =>
      rw [hrow] at hacquire
      exact absurd hacquire acquire_absent
    | some r => rfl
  rcases h with ⟨-, hnone⟩ | hother | hfailed
  · rw [hnone] at hsome
    cases hsome
  · exact Or.inl ⟨hsome, hother⟩
  · exact Or.inr hfailed

/-! ## Versions of a guard -/

theorem acquire_version_le (h : lease.acquire now row = .ok (guard, row')) :
    guard.version ≤ i64Max := by
  unfold SchedulerLease.acquire at h
  obtain ⟨expires, -, h⟩ := except_bind_ok.mp h
  obtain ⟨acquired, -, h⟩ := except_bind_ok.mp h
  cases row with
  | none =>
    obtain ⟨rfl, -⟩ := Prod.mk.inj (Except.ok.inj h)
    show 1 ≤ i64Max
    decide
  | some r =>
    obtain ⟨expiry, -, h⟩ := except_bind_ok.mp h
    obtain ⟨version, -, h⟩ := except_bind_ok.mp h
    by_cases hheld : now.utc < expiry.utc
    · rw [if_pos hheld] at h
      cases h
    · rw [if_neg hheld] at h
      obtain ⟨_, hcolumn, h⟩ := except_bind_ok.mp h
      obtain ⟨rfl, -⟩ := Prod.mk.inj (Except.ok.inj h)
      exact (SchedulerLease.column_ok.mp hcolumn).1

theorem renew_version_le (h : lease.renew guard now row = .ok (guard', row')) :
    guard'.version ≤ i64Max := by
  unfold SchedulerLease.renew at h
  split at h
  · cases h
  · obtain ⟨expires, -, h⟩ := except_bind_ok.mp h
    obtain ⟨next, hnext, h⟩ := except_bind_ok.mp h
    obtain ⟨version, -, h⟩ := except_bind_ok.mp h
    obtain ⟨current, -, h⟩ := except_bind_ok.mp h
    have hbound := (SchedulerLease.column_ok.mp hnext).1
    cases row with
    | none => cases h
    | some r =>
      dsimp only at h
      split at h
      · obtain ⟨rfl, -⟩ := Prod.mk.inj (Except.ok.inj h)
        exact hbound
      · cases h

theorem renewLease_version_le {fault : Option DatabaseError}
    (h : s.renewLease fault guard now row = .ok (guard', row')) : guard'.version ≤ i64Max := by
  unfold Scheduler.renewLease at h
  cases fault with
  | some e => cases h
  | none => exact renew_version_le (except_mapError_ok.mp h)

variable (s) in
theorem pollRenewedAmong_version_le (env : PollEnv) (others : Others) (row : Option LeaseRow)
    (db : Db) (hguard : guard.version ≤ i64Max) :
    (s.pollRenewedAmong env others guard row db).outcome.guard.version ≤ i64Max := by
  unfold Scheduler.pollRenewedAmong
  cases (s.service.schedulerCandidates s.config.candidateBatchSize).run env.read db with
  | mk result db' =>
    cases result with
    | error e => exact hguard
    | ok pair =>
      obtain ⟨now, candidates⟩ := pair
      dsimp only
      by_cases hcancelled : env.cancelled = true
      · rw [if_pos hcancelled]
        exact hguard
      · rw [if_neg hcancelled]
        cases hrenew : s.renewLease (env.leaseFault 1) guard (now.addNanos
            (Workers.finish s.config.adapterConcurrency (env.latencies candidates) +
              env.elsewhere : Nat)) (others.lease row) with
        | error e => exact hguard
        | ok renewed => exact renewLease_version_le hrenew

variable (s) in
/-- A poll hands on a guard whose version fits its column. -/
theorem pollOnceAmong_version_le (env : PollEnv) (others : Others) (row : Option LeaseRow)
    (db : Db) (hguard : guard.version ≤ i64Max) :
    (s.pollOnceAmong env others guard row db).outcome.guard.version ≤ i64Max := by
  unfold Scheduler.pollOnceAmong
  dsimp only
  by_cases hdue : guard.renewalDue (env.read.clock 0) = true
  · rw [if_pos hdue]
    cases hrenew : s.renewLease (env.leaseFault 0) guard (env.read.clock 0) row with
    | error e => exact hguard
    | ok renewed =>
      exact pollRenewedAmong_version_le s env others _ db (renewLease_version_le hrenew)
  · rw [if_neg hdue]
    exact pollRenewedAmong_version_le s env others row db hguard

/-! ## The end of a run -/

theorem release_lost (hversion : guard.version ≤ i64Max) {e : LeaseError}
    (h : lease.release guard row = .error e) : ¬ Owns lease guard row := by
  unfold SchedulerLease.release at h
  rw [show SchedulerLease.column guard.version = .ok (guard.version : Int) from
    SchedulerLease.column_ok.mpr ⟨hversion, rfl⟩] at h
  rintro ⟨r, rfl, hholder, hsame⟩
  dsimp only [bind, Except.bind] at h
  rw [if_pos ⟨hholder, hsame⟩] at h
  cases h

/-- The release at the end leaves the lease. -/
theorem finishRun_leaves (exit : RunExit) (hversion : guard.version ≤ i64Max) :
    LeavesLease s.lease (s.finishRun ending exit guard row db) := by
  unfold Scheduler.finishRun Scheduler.releaseLease
  cases hfault : ending.fault with
  | some e => exact Or.inr (Or.inr ⟨e, rfl⟩)
  | none =>
    dsimp only
    cases hrelease : s.lease.release guard (ending.lease row) with
    | ok u => exact Or.inl ⟨rfl, rfl⟩
    | error e => exact Or.inr (Or.inl (release_lost hversion hrelease))

theorem runAcquired_leaves {turns : List Turn} {o : RunOutcome} (hversion : guard.version ≤ i64Max)
    (hreads : ∀ turn ∈ turns, ∃ running, desiredRunning turn.desired = .ok running)
    (h : s.runAcquired ending turns guard row db = some o) : LeavesLease s.lease o := by
  induction turns generalizing guard row db with
  | nil => cases h
  | cons turn rest ih =>
    obtain ⟨⟨running, hread⟩, hreads⟩ := List.forall_mem_cons.mp hreads
    unfold Scheduler.runAcquired at h
    dsimp only at h
    rw [hread] at h
    by_cases hcancelled : turn.cancelled = true
    · rw [if_pos hcancelled] at h
      obtain rfl := Option.some.inj h
      exact finishRun_leaves .cancelled hversion
    rw [if_neg hcancelled] at h
    cases running with
    | false =>
      obtain rfl := Option.some.inj h
      exact finishRun_leaves .desiredStopped hversion
    | true =>
      dsimp only at h
      have hpolled := pollOnceAmong_version_le s turn.env turn.others (turn.lease row)
        (turn.tables db) hversion
      by_cases hlost : (s.pollOnceAmong turn.env turn.others guard (turn.lease row)
          (turn.tables db)).outcome.result = .error (.lease .lost)
      · rw [if_pos hlost] at h
        obtain rfl := Option.some.inj h
        exact finishRun_leaves .leaseLost hpolled
      rw [if_neg hlost] at h
      by_cases hasleep : turn.cancelledAsleep = true
      · rw [if_pos hasleep] at h
        obtain rfl := Option.some.inj h
        exact finishRun_leaves .cancelled hpolled
      · rw [if_neg hasleep] at h
        exact ih hpolled hreads h

/-- **Without a failed read of the desired state the loop never abandons its
lease.** -/
theorem run_leaves_lease {turns : List Turn} {found : Option LeaseRow} {o : RunOutcome}
    (hacquired : s.lease.acquire now found = .ok (guard, row'))
    (hreads : ∀ turn ∈ turns, ∃ running, desiredRunning turn.desired = .ok running)
    (h : s.runAcquired ending turns guard (some row') db = some o) :
    LeavesLease s.lease o ∧ Restarts s o := by
  have hleaves := runAcquired_leaves (acquire_version_le hacquired) hreads h
  exact ⟨hleaves, hleaves.restarts⟩

/-- A failed read in a turn that still owns the lease abandons it. -/
theorem failed_read_abandons {turn : Turn} {rest : List Turn} {e : SchedulerError}
    (hrunning : turn.cancelled = false) (hread : desiredRunning turn.desired = .error e)
    (howns : Owns s.lease guard (turn.lease row)) :
    ∃ o, s.runAcquired ending (turn :: rest) guard row db = some o ∧ ¬ LeavesLease s.lease o := by
  refine ⟨⟨.error e, guard, turn.lease row, turn.tables db, none⟩, ?_, ?_⟩
  · unfold Scheduler.runAcquired
    dsimp only
    rw [hrunning, hread]
    rfl
  · rintro (⟨hreleased, -⟩ | hother | ⟨_, hreleased⟩)
    · cases hreleased
    · exact hother howns
    · cases hreleased

namespace Sample

/-- A turn in which nobody else is at work. -/
def quietTurn (desired : Except DatabaseError (Option String)) : Turn where
  tables := fun db => db
  lease := fun row => row
  cancelled := false
  desired := desired
  env := { pollEnv with adapters := fun _ _ _ => ({ status := .unknown, summary := "" }, 0) }
  others := .absent
  cancelledAsleep := false

def quietEnding : Ending where
  lease := fun row => row
  fault := none

/-- It polls once and then finds that it should stop. -/
def stoppedRun : List Turn :=
  [quietTurn (.ok (some "running")), quietTurn (.ok (some "stopped"))]

/-- Its database is busy when it reads the desired state. -/
def busyRun : List Turn := [quietTurn (.error .busy)]

theorem granted_acquired :
    (schedulerOf false).lease.acquire (second 1000) none = .ok (granted, grantedRow) := by
  decide +kernel

end Sample

theorem sample_run_leaves_lease :
    ∃ o, (Sample.schedulerOf false).runAcquired Sample.quietEnding Sample.stoppedRun Sample.granted
        (some Sample.grantedRow) Sample.waiting = some o ∧
      LeavesLease (Sample.schedulerOf false).lease o ∧ Restarts (Sample.schedulerOf false) o := by
  have hfinished : ((Sample.schedulerOf false).runAcquired Sample.quietEnding Sample.stoppedRun
      Sample.granted (some Sample.grantedRow) Sample.waiting).isSome = true := by decide +kernel
  obtain ⟨o, ho⟩ := Option.isSome_iff_exists.mp hfinished
  refine ⟨o, ho, run_leaves_lease Sample.granted_acquired ?_ ho⟩
  intro turn hturn
  rcases List.mem_cons.mp hturn with rfl | hturn
  · exact ⟨true, rfl⟩
  · obtain rfl := List.mem_singleton.mp hturn
    exact ⟨false, rfl⟩

/-- **A busy database at the read of the desired state leaves the lease behind.** -/
theorem busy_read_abandons_lease :
    ¬ ∀ (s : Scheduler) (ending : Ending) (turns : List Turn) (now : OffsetDateTime)
      (found : Option LeaseRow) (guard : LeaseGuard) (row : LeaseRow) (db : Db) (o : RunOutcome),
      s.lease.acquire now found = .ok (guard, row) →
      s.runAcquired ending turns guard (some row) db = some o →
        LeavesLease s.lease o ∧ Restarts s o := by
  intro h
  have hfailed : ∃ o, (Sample.schedulerOf false).runAcquired Sample.quietEnding Sample.busyRun
      Sample.granted (some Sample.grantedRow) Sample.waiting = some o ∧
        ¬ LeavesLease (Sample.schedulerOf false).lease o :=
    failed_read_abandons rfl rfl ⟨Sample.grantedRow, rfl, rfl, rfl⟩
  obtain ⟨o, ho, habandoned⟩ := hfailed
  exact habandoned (h _ _ _ _ _ _ _ _ o Sample.granted_acquired ho).1

end RemindiCore
