import RemindiCore.Lib.TextOrder
import RemindiCore.Proof.Evaluations
import RemindiCore.Proof.LeaseCalls
import RemindiCore.Scheduler.Runner
import RemindiCore.Service.System

/-!
# The lease during a poll

A poll renews its lease before and after it asks the adapters.  The second
renewal finds the lease alive exactly when the adapters answer before it
expires, and with `k` adapters to ask they may take `⌈k / concurrency⌉` times
the timeout (`poll_keeps_lease_iff`).  The validation of the configuration
relates the lease to the poll interval only.
-/

namespace RemindiCore

open CivilTime Transaction

variable {lease : SchedulerLease} {guard : LeaseGuard} {row : LeaseRow} {now : OffsetDateTime}

/-! ## A live guard -/

/-- The row is the guard's, and its version can be moved on. -/
structure Live (lease : SchedulerLease) (guard : LeaseGuard) (row : LeaseRow) : Prop where
  owner : guard.holderId = lease.holderId
  holder : row.holderId = lease.holderId
  version : row.version = guard.version
  expiry : canonicalTimestamp guard.expiresAt = .ok row.expiresAt
  year : 0 ≤ guard.expiresAt.toUtc.year
  versions : guard.version + 1 ≤ i64Max

/-- Clock readings that have timestamps, and whose renewals have. -/
def Readable (lease : SchedulerLease) (now : OffsetDateTime) : Prop :=
  0 ≤ now.toUtc.year ∧ (now.addNanos lease.duration).toUtc.year ≤ 9999

theorem canonicalTimestamp_of_year {t : OffsetDateTime} (h : 0 ≤ t.toUtc.year)
    (hle : t.toUtc.year ≤ 9999) : ∃ text, canonicalTimestamp t = .ok text := by
  obtain ⟨text, htext⟩ := Option.isSome_iff_exists.mp (canonicalText_isSome.mpr ⟨by omega, hle⟩)
  exact ⟨text, canonicalTimestamp_ok.mpr htext⟩

theorem Readable.between (h : Readable lease now) {later : OffsetDateTime}
    (hlater : Readable lease later) {t : OffsetDateTime} (hnow : now.utc ≤ t.utc)
    (ht : t.utc ≤ later.utc) : Readable lease t := by
  refine ⟨h.1.trans (year_mono (by omega)), (year_mono ?_).trans hlater.2⟩
  simp only [OffsetDateTime.addNanos_utc]
  omega

theorem Readable.year_le (_ : Readable lease now) :
    now.toUtc.year ≤ (now.addNanos lease.duration).toUtc.year := by
  have hlasting := lease.lasting
  refine year_mono ?_
  simp only [OffsetDateTime.addNanos_utc]
  omega

theorem Readable.timestamps (h : Readable lease now) :
    ∃ current expires, canonicalTimestamp now = .ok current ∧
      canonicalTimestamp (now.addNanos lease.duration) = .ok expires := by
  obtain ⟨current, hcurrent⟩ := canonicalTimestamp_of_year h.1 (h.year_le.trans h.2)
  obtain ⟨expires, hexpires⟩ := canonicalTimestamp_of_year (h.1.trans h.year_le) h.2
  exact ⟨current, expires, hcurrent, hexpires⟩

theorem renew_eq {t : OffsetDateTime} {current expires : String}
    (hcurrent : canonicalTimestamp t = .ok current)
    (hexpires : canonicalTimestamp (t.addNanos lease.duration) = .ok expires)
    (hversion : guard.version + 1 ≤ i64Max) (r : LeaseRow) :
    lease.renew guard t (some r) =
      if guard.holderId ≠ lease.holderId ∨ guard.expiresAt.utc ≤ t.utc then .error .lost
      else if r.holderId = lease.holderId ∧ r.version = guard.version ∧ current < r.expiresAt then
        .ok ({ guard with version := guard.version + 1, expiresAt := t.addNanos lease.duration },
          { r with expiresAt := expires, version := (guard.version + 1 : Nat) })
      else .error .lost := by
  have hnext : SchedulerLease.column (guard.version + 1) = .ok ((guard.version + 1 : Nat) : Int) :=
    SchedulerLease.column_ok.mpr ⟨hversion, rfl⟩
  have hsame : SchedulerLease.column guard.version = .ok (guard.version : Int) :=
    SchedulerLease.column_ok.mpr ⟨by omega, rfl⟩
  unfold SchedulerLease.renew
  split
  · rfl
  · simp only [SchedulerLease.timestamp_ok.mpr hcurrent, SchedulerLease.timestamp_ok.mpr hexpires,
      hnext, hsame, bind, Except.bind]

theorem Live.less_iff (h : Live lease guard row) {t : OffsetDateTime} {current : String}
    (hcurrent : canonicalTimestamp t = .ok current) :
    current < row.expiresAt ↔ t.utc / 1000000 < guard.expiresAt.utc / 1000000 := by
  rw [← not_le, canonicalText_le_iff h.year (canonicalTimestamp_ok.mp h.expiry)
    (canonicalTimestamp_ok.mp hcurrent), not_le]

/-- **A renewal succeeds until the millisecond of the expiry**, and leaves a live guard. -/
theorem Live.renew_ok (h : Live lease guard row) {t : OffsetDateTime} (ht : Readable lease t)
    (hversions : guard.version + 2 ≤ i64Max)
    (hless : t.utc / 1000000 < guard.expiresAt.utc / 1000000) :
    ∃ guard' row', lease.renew guard t (some row) = .ok (guard', row') ∧
      Live lease guard' row' ∧ guard'.expiresAt = t.addNanos lease.duration := by
  obtain ⟨current, expires, hcurrent, hexpires⟩ := ht.timestamps
  rw [renew_eq hcurrent hexpires h.versions, if_neg,
    if_pos ⟨h.holder, h.version, (h.less_iff hcurrent).mpr hless⟩]
  · refine ⟨_, _, rfl, ⟨h.owner, h.holder, rfl, hexpires, ?_, hversions⟩, rfl⟩
    exact ht.1.trans ht.year_le
  · rintro (hne | hle)
    · exact hne h.owner
    · omega

/-- Whether the lease is lost. -/
theorem Live.renew_lost_iff (h : Live lease guard row) {t : OffsetDateTime}
    (ht : Readable lease t) :
    lease.renew guard t (some row) = .error .lost ↔
      guard.expiresAt.utc / 1000000 ≤ t.utc / 1000000 := by
  obtain ⟨current, expires, hcurrent, hexpires⟩ := ht.timestamps
  have horder := h.less_iff hcurrent
  rw [renew_eq hcurrent hexpires h.versions]
  constructor
  · intro hlost
    by_contra hless
    rw [if_neg, if_pos ⟨h.holder, h.version, horder.mpr (by omega)⟩] at hlost
    · cases hlost
    · rintro (hne | hle)
      · exact hne h.owner
      · omega
  · intro hle
    split
    · rfl
    · refine if_neg fun hrow => ?_
      have := horder.mp hrow.2.2
      omega

/-! ## The phase of the adapters -/

/-- The candidate has an adapter to ask. -/
def asks (configured : String → Bool) (candidate : Remindi) : Bool :=
  match candidate.trigger with
  | .condition adapter _ _ _ => configured adapter
  | _ => false

/-- The longest time that the adapters may take together. -/
def longestPhase (config : SchedulerConfig) (configured : String → Bool)
    (candidates : List Remindi) : Nat :=
  Workers.rows config.adapterConcurrency (candidates.countP (asks configured)) *
    config.adapterTimeout

variable {env : PollEnv}

theorem latency_eq_zero {n : Nat} {candidate : Remindi}
    (h : asks env.configured candidate = false) : env.latency n candidate = 0 := by
  unfold PollEnv.latency
  unfold asks at h
  split
  · next htrigger =>
    rw [htrigger] at h
    exact if_neg (by simpa using h)
  · rfl

theorem latency_le {n timeout : Nat} {candidate : Remindi}
    (h : ∀ name n parameters, (env.adapters name n parameters).2 ≤ timeout) :
    env.latency n candidate ≤ timeout := by
  unfold PollEnv.latency
  split
  · split
    · exact h _ n _
    · exact Nat.zero_le _
  · exact Nat.zero_le _

theorem busy_latencies (candidates : List Remindi) :
    Workers.busy (env.latencies candidates) ≤ candidates.countP (asks env.configured) := by
  unfold PollEnv.latencies Workers.busy
  induction candidates using List.reverseRecOn with
  | nil => simp
  | append_singleton candidates candidate ih =>
    rw [List.mapIdx_concat, List.countP_append, List.countP_append]
    refine Nat.add_le_add ih ?_
    simp only [List.countP_singleton, decide_eq_true_eq]
    cases hasks : asks env.configured candidate with
    | false => simp [latency_eq_zero hasks]
    | true => split <;> simp

theorem rows_mono {slots k l : Nat} (h : k ≤ l) : Workers.rows slots k ≤ Workers.rows slots l :=
  Nat.div_le_div_right (by omega)

theorem validate_ok {config : SchedulerConfig} (h : config.validate = .ok ()) :
    0 < config.adapterConcurrency ∧ 0 < config.adapterTimeout := by
  unfold SchedulerConfig.validate at h
  split at h
  · cases h
  · omega

variable (env) in
/-- The adapters answer within the longest phase. -/
theorem finish_le_longestPhase {config : SchedulerConfig} (hvalid : config.validate = .ok ())
    (h : ∀ name n parameters, (env.adapters name n parameters).2 ≤ config.adapterTimeout)
    (candidates : List Remindi) :
    Workers.finish config.adapterConcurrency (env.latencies candidates) ≤
      longestPhase config env.configured candidates := by
  refine (Workers.finish_le (validate_ok hvalid).1 fun job hjob => ?_).trans
    (Nat.mul_le_mul_right _ (rows_mono (busy_latencies candidates)))
  obtain ⟨n, -, rfl⟩ := List.mem_mapIdx.mp hjob
  exact latency_le h

/-- Adapters that answer at the deadline. -/
def PollEnv.atDeadline (env : PollEnv) (timeout : Nat) : PollEnv :=
  { env with adapters := fun _ _ _ => ({ status := .unknown, summary := "" }, timeout) }

theorem latency_atDeadline {timeout n : Nat} {candidate : Remindi} :
    (env.atDeadline timeout).latency n candidate =
      if asks env.configured candidate then timeout else 0 := by
  unfold PollEnv.latency asks PollEnv.atDeadline
  cases candidate.trigger <;> rfl

variable (env) in
theorem busy_atDeadline {timeout : Nat} (htimeout : 0 < timeout) (candidates : List Remindi) :
    Workers.busy ((env.atDeadline timeout).latencies candidates) =
      candidates.countP (asks env.configured) := by
  unfold PollEnv.latencies Workers.busy
  induction candidates using List.reverseRecOn with
  | nil => simp
  | append_singleton candidates candidate ih =>
    rw [List.mapIdx_concat, List.countP_append, List.countP_append, ih]
    simp only [List.countP_singleton, decide_eq_true_eq, latency_atDeadline]
    cases asks env.configured candidate with
    | false => simp
    | true => simp [htimeout]

variable (env) in
/-- They take the longest phase. -/
theorem longestPhase_le_finish {config : SchedulerConfig} (hvalid : config.validate = .ok ())
    (candidates : List Remindi) :
    longestPhase config env.configured candidates ≤ Workers.finish config.adapterConcurrency
      ((env.atDeadline config.adapterTimeout).latencies candidates) := by
  obtain ⟨hslots, htimeout⟩ := validate_ok hvalid
  unfold longestPhase
  rw [← busy_atDeadline env htimeout candidates]
  refine Workers.le_finish hslots fun job hjob => ?_
  obtain ⟨n, -, rfl⟩ := List.mem_mapIdx.mp hjob
  rw [latency_atDeadline]
  split
  · exact Or.inr (le_refl _)
  · exact Or.inl rfl

/-! ## Whole polls -/

variable {s : Scheduler} {db : Db} {candidates : List Remindi}

/-- The poll comes to its second renewal, with these candidates. -/
structure ToSecondRenewal (s : Scheduler) (env : PollEnv) (guard : LeaseGuard) (db : Db)
    (candidates : List Remindi) : Prop where
  first : guard.renewalDue (env.read.clock 0) = true → env.leaseFault 0 = none
  read : ((s.service.schedulerCandidates s.config.candidateBatchSize).run env.read db).1 =
    .ok (env.read.clock 0, candidates)
  running : env.cancelled = false
  second : env.leaseFault 1 = none

theorem schedulerCandidates_clock {service : RemindiService} {limit : Nat} {e : Env}
    {now : OffsetDateTime} (h : ((service.schedulerCandidates limit).run e db).1 =
      .ok (now, candidates)) : now = e.clock 0 := by
  rcases hrun : (service.schedulerCandidates limit).run e db with ⟨result, db'⟩
  rw [hrun] at h
  obtain rfl : result = .ok (now, candidates) := h
  obtain ⟨m, hok⟩ := Txn.run_ok.mp hrun
  unfold RemindiService.schedulerCandidates at hok
  obtain ⟨_, _, _, hnow, hok⟩ := Txn.bind_ok.mp hok
  obtain ⟨_, _, _, -, hok⟩ := Txn.bind_ok.mp hok
  obtain ⟨_, _, _, -, hok⟩ := Txn.bind_ok.mp hok
  obtain ⟨e, -, -⟩ := Txn.pure_ok.mp hok
  cases e
  exact (Txn.ask_ok.mp hnow).1.symm

/-- **The poll after its first renewal** loses the lease in its second, or never. -/
theorem pollRenewed_lost {r : Option LeaseRow} :
    (s.pollRenewed env guard r db).result = .error (.lease .lost) ↔
      ∃ candidates, ((s.service.schedulerCandidates s.config.candidateBatchSize).run
          env.read db).1 = .ok (env.read.clock 0, candidates) ∧
        env.cancelled = false ∧ env.leaseFault 1 = none ∧
        s.lease.renew guard ((env.read.clock 0).addNanos
          (Workers.finish s.config.adapterConcurrency (env.latencies candidates) +
            env.elsewhere : Nat)) r = .error .lost := by
  unfold Scheduler.pollRenewed
  rcases hrun : (s.service.schedulerCandidates s.config.candidateBatchSize).run env.read db with
    ⟨result, db'⟩
  cases result with
  | error e =>
    refine iff_of_false (by simp) ?_
    rintro ⟨_, h, -⟩
    cases h
  | ok pair =>
    obtain ⟨now, candidates⟩ := pair
    obtain rfl : now = env.read.clock 0 :=
      schedulerCandidates_clock (by rw [hrun])
    have hread : ∀ others, (Except.ok (env.read.clock 0, candidates) :
        Except ServiceError (OffsetDateTime × List Remindi)) = .ok (env.read.clock 0, others) →
        others = candidates := by
      intro others h
      exact (Prod.mk.inj (Except.ok.inj h)).2.symm
    dsimp only
    cases hcancelled : env.cancelled with
    | true => exact iff_of_false (by simp) (by simp)
    | false =>
      rw [if_neg (by decide)]
      unfold Scheduler.renewLease
      cases hfault : env.leaseFault 1 with
      | some e => exact iff_of_false (by simp) (by simp)
      | none =>
        constructor
        · intro hlost
          refine ⟨candidates, rfl, rfl, rfl, ?_⟩
          cases hrenew : s.lease.renew guard ((env.read.clock 0).addNanos
              (Workers.finish s.config.adapterConcurrency (env.latencies candidates) +
                env.elsewhere : Nat)) r with
          | error e =>
            rw [hrenew] at hlost
            simp only [Except.mapError, Except.error.injEq, SchedulerError.lease.injEq] at hlost
            rw [hlost]
          | ok pair =>
            rw [hrenew] at hlost
            cases hlost
        · rintro ⟨others, hothers, -, -, hlost⟩
          obtain rfl := hread others hothers
          rw [hlost]
          rfl

/-- When the lease of a poll expires. -/
def leaseEnd (s : Scheduler) (guard : LeaseGuard) (now : OffsetDateTime) : OffsetDateTime :=
  if guard.renewalDue now then now.addNanos s.lease.duration else guard.expiresAt

/-- When the second renewal is made. -/
def renewedAt (s : Scheduler) (env : PollEnv) (candidates : List Remindi) : OffsetDateTime :=
  (env.read.clock 0).addNanos
    (Workers.finish s.config.adapterConcurrency (env.latencies candidates) + env.elsewhere : Nat)

variable (env) in
theorem pollOnce_lost (hlive : Live s.lease guard row) (hversions : guard.version + 2 ≤ i64Max)
    (hunexpired : (env.read.clock 0).utc / 1000000 < guard.expiresAt.utc / 1000000)
    (hnow : Readable s.lease (env.read.clock 0))
    (hlater : ∀ candidates, ToSecondRenewal s env guard db candidates →
      Readable s.lease (renewedAt s env candidates)) :
    (s.pollOnce env guard (some row) db).result = .error (.lease .lost) ↔
      ∃ candidates, ToSecondRenewal s env guard db candidates ∧
        (leaseEnd s guard (env.read.clock 0)).utc / 1000000 ≤
          (renewedAt s env candidates).utc / 1000000 := by
  unfold Scheduler.pollOnce leaseEnd
  dsimp only
  cases hdue : guard.renewalDue (env.read.clock 0) with
  | false =>
    rw [if_neg (by decide), if_neg (by decide), pollRenewed_lost]
    constructor
    · rintro ⟨candidates, hread, hrunning, hsecond, hlost⟩
      have hto : ToSecondRenewal s env guard db candidates :=
        ⟨fun h => absurd (hdue.symm.trans h) (by decide), hread, hrunning, hsecond⟩
      exact ⟨candidates, hto, (hlive.renew_lost_iff (hlater candidates hto)).mp hlost⟩
    · rintro ⟨candidates, hto, hle⟩
      exact ⟨candidates, hto.read, hto.running, hto.second,
        (hlive.renew_lost_iff (hlater candidates hto)).mpr hle⟩
  | true =>
    rw [if_pos rfl, if_pos rfl]
    unfold Scheduler.renewLease
    cases hfirst : env.leaseFault 0 with
    | some e =>
      refine iff_of_false (by simp) ?_
      rintro ⟨_, hto, -⟩
      exact absurd (hfirst.symm.trans (hto.first hdue)) (by simp)
    | none =>
      obtain ⟨guard', row', hrenew, hlive', hexpires⟩ :=
        hlive.renew_ok hnow hversions hunexpired
      rw [hrenew]
      show (s.pollRenewed env guard' (some row') db).result = _ ↔ _
      rw [pollRenewed_lost, ← hexpires]
      constructor
      · rintro ⟨candidates, hread, hrunning, hsecond, hlost⟩
        have hto : ToSecondRenewal s env guard db candidates :=
          ⟨fun _ => hfirst, hread, hrunning, hsecond⟩
        exact ⟨candidates, hto, (hlive'.renew_lost_iff (hlater candidates hto)).mp hlost⟩
      · rintro ⟨candidates, hto, hle⟩
        exact ⟨candidates, hto.read, hto.running, hto.second,
          (hlive'.renew_lost_iff (hlater candidates hto)).mpr hle⟩

/-- When the second renewal is made at the latest. -/
def renewedLast (s : Scheduler) (env : PollEnv) (candidates : List Remindi) : OffsetDateTime :=
  (env.read.clock 0).addNanos
    (longestPhase s.config env.configured candidates + env.elsewhere : Nat)

/-- **A poll keeps its lease, whatever its adapters, exactly when the longest phase
ends before the lease.** -/
theorem poll_keeps_lease_iff (hlive : Live s.lease guard row)
    (hversions : guard.version + 2 ≤ i64Max)
    (hunexpired : (env.read.clock 0).utc / 1000000 < guard.expiresAt.utc / 1000000)
    (hnow : Readable s.lease (env.read.clock 0))
    (hlast : ∀ candidates, ToSecondRenewal s env guard db candidates →
      Readable s.lease (renewedLast s env candidates)) :
    (∀ adapters : String → TimedAdapter,
      (∀ name n parameters, (adapters name n parameters).2 ≤ s.config.adapterTimeout) →
        (s.pollOnce { env with adapters := adapters } guard (some row) db).result ≠
          .error (.lease .lost)) ↔
      ∀ candidates, ToSecondRenewal s env guard db candidates →
        (renewedLast s env candidates).utc / 1000000 <
          (leaseEnd s guard (env.read.clock 0)).utc / 1000000 := by
  have hto : ∀ adapters candidates,
      ToSecondRenewal s { env with adapters := adapters } guard db candidates →
        ToSecondRenewal s env guard db candidates :=
    fun _ _ h => ⟨h.first, h.read, h.running, h.second⟩
  have hlater : ∀ adapters : String → TimedAdapter,
      (∀ name n parameters, (adapters name n parameters).2 ≤ s.config.adapterTimeout) →
      ∀ candidates, ToSecondRenewal s { env with adapters := adapters } guard db candidates →
        (renewedAt s { env with adapters := adapters } candidates).utc ≤
            (renewedLast s env candidates).utc ∧
          Readable s.lease (renewedAt s { env with adapters := adapters } candidates) := by
    intro adapters hprompt candidates h
    have hphase := finish_le_longestPhase { env with adapters := adapters } s.valid hprompt candidates
    have hle : (renewedAt s { env with adapters := adapters } candidates).utc ≤
        (renewedLast s env candidates).utc := by
      simp only [renewedAt, renewedLast, OffsetDateTime.addNanos_utc]
      dsimp only at hphase
      omega
    refine ⟨hle, hnow.between (hlast candidates (hto adapters candidates h)) ?_ hle⟩
    simp only [renewedAt, OffsetDateTime.addNanos_utc]
    omega
  constructor
  · intro h candidates hread
    by_contra hge
    -- adapters that answer at the deadline
    have hprompt : ∀ name n parameters,
        ((env.atDeadline s.config.adapterTimeout).adapters name n parameters).2 ≤
          s.config.adapterTimeout := fun _ _ _ => le_refl _
    refine h _ hprompt ((pollOnce_lost (env.atDeadline s.config.adapterTimeout) hlive
      hversions hunexpired hnow fun others hothers => (hlater _ hprompt others hothers).2).mpr
        ⟨candidates, ⟨hread.first, hread.read, hread.running, hread.second⟩, ?_⟩)
    have hphase := longestPhase_le_finish env s.valid candidates
    refine (not_lt.mp hge).trans (Int.ediv_le_ediv (by decide) ?_)
    simp only [renewedLast, renewedAt, OffsetDateTime.addNanos_utc]
    exact Int.add_le_add_left (by exact_mod_cast Nat.add_le_add_right hphase env.elsewhere) _
  · intro h adapters hprompt hlost
    obtain ⟨candidates, hread, hle⟩ := (pollOnce_lost { env with adapters := adapters }
      hlive hversions hunexpired hnow
      fun others hothers => (hlater adapters hprompt others hothers).2).mp hlost
    have hless := h candidates (hto adapters candidates hread)
    have hbefore := (hlater adapters hprompt candidates hread).1
    have hmillis := Int.ediv_le_ediv (c := 1000000) (by decide) hbefore
    exact absurd (hle.trans hmillis) (not_le.mpr hless)

namespace Sample

def configOf (timeout : Nat) : SchedulerConfig where
  pollInterval := 30 * 1000000000
  leaseDuration := 90 * 1000000000
  adapterTimeout := timeout
  adapterConcurrency := 1
  candidateBatchSize := 200

theorem lease_pos : (0 : Int) < 90 * 1000000000 := by decide

/-- A scheduler whose adapters have 5 or 60 seconds to answer. -/
def schedulerOf (slow : Bool) : Scheduler where
  service := { externals := externals, ownerId := "owner" }
  config := configOf (if slow then 60 * 1000000000 else 5 * 1000000000)
  lease := ⟨"process", 90 * 1000000000, by decide, lease_pos⟩
  actor := agent
  valid := by cases slow <;> decide
  lasting := rfl

/-- One item that waits for a condition, added at second 1000. -/
def waiting : Db :=
  (runOf externals [call (.add
    { everyMinute with trigger := .condition "probe" (.ofMap []) none none, recurrence := none })
    1000 0]).db

/-- A guard granted at second 1000. -/
def granted : LeaseGuard := ⟨"process", 1, second 1090, 90 * 1000000000⟩
def grantedRow : LeaseRow :=
  ⟨"process", "1970-01-01T00:16:40.000Z", "1970-01-01T00:18:10.000Z", 1⟩

/-- A poll at second 1030, with adapters that answer after a minute. -/
def pollEnv : PollEnv where
  configured := fun _ => true
  adapters := fun _ _ _ => ({ status := .unknown, summary := "" }, 60 * 1000000000)
  elsewhere := 0
  cancelled := false
  leaseFault := fun _ => none
  read := RemindiCore.Sample.env 1030 1
  apply := fun _ => RemindiCore.Sample.env 1030 2

theorem granted_live (slow : Bool) : Live (schedulerOf slow).lease granted grantedRow where
  owner := rfl
  holder := rfl
  version := rfl
  expiry := by decide +kernel
  year := by decide +kernel
  versions := by decide

theorem asked_waiting (slow : Bool) :
    (((schedulerOf slow).service.schedulerCandidates
      (schedulerOf slow).config.candidateBatchSize).run pollEnv.read waiting).1.map
        (fun pair => pair.2.countP (asks pollEnv.configured)) = .ok 1 := by
  cases slow <;> decide +kernel

/-- The poll has one adapter to ask. -/
theorem asked_of_read (slow : Bool) {candidates : List Remindi}
    (h : ToSecondRenewal (schedulerOf slow) pollEnv granted waiting candidates) :
    candidates.countP (asks pollEnv.configured) = 1 := by
  have hread := congrArg (Except.map fun pair => pair.2.countP (asks pollEnv.configured)) h.read
  exact (Except.ok.inj ((asked_waiting slow).symm.trans hread)).symm

theorem renewedLast_of_read {candidates : List Remindi}
    (h : ToSecondRenewal (schedulerOf false) pollEnv granted waiting candidates) :
    renewedLast (schedulerOf false) pollEnv candidates = second 1035 := by
  unfold renewedLast longestPhase
  rw [asked_of_read false h]
  decide +kernel

end Sample

/-- Adapters with 5 seconds each leave the lease alive. -/
theorem sample_poll_keeps_lease :
    Live (Sample.schedulerOf false).lease Sample.granted Sample.grantedRow ∧
      ∀ adapters : String → TimedAdapter,
        (∀ name n parameters, (adapters name n parameters).2 ≤ 5 * 1000000000) →
          ((Sample.schedulerOf false).pollOnce { Sample.pollEnv with adapters := adapters }
            Sample.granted (some Sample.grantedRow) Sample.waiting).result ≠
              .error (.lease .lost) := by
  refine ⟨Sample.granted_live false, ?_⟩
  refine (poll_keeps_lease_iff (Sample.granted_live false) (by decide) (by decide +kernel)
    (by unfold Readable; decide +kernel) fun candidates h => ?_).mpr fun candidates h => ?_
  · rw [Sample.renewedLast_of_read h]
    unfold Readable
    decide +kernel
  · rw [Sample.renewedLast_of_read h]
    decide +kernel

/-- **One adapter that answers at its deadline loses the lease.** -/
theorem slow_adapter_loses_lease :
    ¬ ∀ (s : Scheduler) (env : PollEnv) (guard : LeaseGuard) (row : LeaseRow) (db : Db),
      Live s.lease guard row →
      (env.read.clock 0).utc / 1000000 < guard.expiresAt.utc / 1000000 →
      (∀ name n parameters, (env.adapters name n parameters).2 ≤ s.config.adapterTimeout) →
        (s.pollOnce env guard (some row) db).result ≠ .error (.lease .lost) := by
  intro h
  refine h (Sample.schedulerOf true) Sample.pollEnv Sample.granted Sample.grantedRow Sample.waiting
    (Sample.granted_live true) (by decide +kernel) (fun _ _ _ => le_refl _) ?_
  decide +kernel

end RemindiCore
