import RemindiCore.Proof.LeaseCalls
import RemindiCore.Proof.SettingsAgreement
import RemindiCore.Proof.TimestampCodec

/-!
# The range of the scheduler's arithmetic

The operators of the time library panic out of range.  Here the operations that a
scheduler performs with its settings are said with their panics, where they yield
nothing, and compared with the settings that an update accepts: these have no maxima,
so a lease that ends after the year 9999 panics, and so does a timeout that the
monotonic clock cannot add (`accepted_in_range_iff`).
-/

namespace RemindiCore

open CivilTime

/-! ## Operators that panic -/

/-- `OffsetDateTime + Duration`, where there is such a local date. -/
def plusChecked (t : OffsetDateTime) (nanos : Int) : Option OffsetDateTime :=
  let sum := t.addNanos nanos
  if -9999 ≤ sum.year ∧ sum.year ≤ 9999 then some sum else none

/-- What a monotonic instant holds: `i64` seconds, in nanoseconds. -/
def instantLimit : Nat := 2 ^ 63 * 1000000000

/-- `Instant + Duration`, of instants counted from the start of the clock. -/
def instantChecked (instant duration : Nat) : Option Nat :=
  if instant + duration < instantLimit then some (instant + duration) else none

/-- The deadline that `evaluate_condition` gives an adapter. -/
def deadlineChecked (instant : Nat) (config : SchedulerConfig) : Option Nat :=
  instantChecked instant config.adapterTimeout

def LeaseGuard.renewalDueChecked (guard : LeaseGuard) (now : OffsetDateTime) : Option Bool :=
  (plusChecked now (guard.duration / 2)).map fun half => decide (guard.expiresAt.utc ≤ half.utc)

namespace SchedulerLease

/-- The new expiry and its column, which is in UTC. -/
def expiryChecked (lease : SchedulerLease) (now : OffsetDateTime) : Option OffsetDateTime := do
  let expiresAt ← plusChecked now lease.duration
  toUtcChecked expiresAt

def acquireChecked (lease : SchedulerLease) (now : OffsetDateTime) (row : Option LeaseRow) :
    Option (Except LeaseError (LeaseGuard × LeaseRow)) := do
  let _ ← lease.expiryChecked now
  let _ ← toUtcChecked now
  some (lease.acquire now row)

def renewChecked (lease : SchedulerLease) (guard : LeaseGuard) (now : OffsetDateTime)
    (row : Option LeaseRow) : Option (Except LeaseError (LeaseGuard × LeaseRow)) :=
  if guard.holderId ≠ lease.holderId ∨ guard.expiresAt.utc ≤ now.utc then
    some (lease.renew guard now row)
  else do
    let _ ← lease.expiryChecked now
    let _ ← toUtcChecked now
    some (lease.renew guard now row)

end SchedulerLease

/-! ## Years -/

/-- The server clock is in UTC, and in these years. -/
structure ServerTime (now : OffsetDateTime) : Prop where
  utc : now.offset = 0
  lower : 1970 ≤ now.year
  upper : now.year ≤ 9000

/-- The first nanosecond of the year 10000. -/
def endOfYears : Int := 253402300800000000000

theorem toUtc_of_utc {t : OffsetDateTime} (h : t.offset = 0) : t.toUtc = t :=
  OffsetDateTime.ext rfl h.symm

theorem year_le_iff {t : OffsetDateTime} (h : t.offset = 0) :
    t.year ≤ 9999 ↔ t.utc < endOfYears := by
  have hfirst : (OffsetDateTime.toUtc ⟨endOfYears, 0⟩).year = 10000 := by decide
  have hlast : (OffsetDateTime.toUtc ⟨endOfYears - 1, 0⟩).year = 9999 := by decide
  rw [← toUtc_of_utc h]
  constructor
  · intro hyear
    by_contra hlate
    have hle : (OffsetDateTime.mk endOfYears 0).utc / 1000000 ≤ t.utc / 1000000 := by
      show endOfYears / 1000000 ≤ t.utc / 1000000
      have : endOfYears ≤ t.utc := by
        have hutc : ¬ t.utc < endOfYears := hlate
        omega
      omega
    have := year_mono hle
    omega
  · intro hearly
    have hle : t.utc / 1000000 ≤ (OffsetDateTime.mk (endOfYears - 1) 0).utc / 1000000 := by
      show t.utc / 1000000 ≤ (endOfYears - 1) / 1000000
      have hutc : t.utc < endOfYears := hearly
      omega
    have := year_mono hle
    omega

theorem addNanos_year {t : OffsetDateTime} {n : Int} (h : t.offset = 0) (hn : 0 ≤ n) :
    t.year ≤ (t.addNanos n).year := by
  have hutc : (t.addNanos n).toUtc = t.addNanos n := toUtc_of_utc h
  rw [← hutc, ← toUtc_of_utc h]
  refine year_mono ?_
  show t.utc / 1000000 ≤ (t.utc + n) / 1000000
  omega

section

variable {now : OffsetDateTime} {n : Int}

/-- **The sum is a date exactly when it is before the year 10000.** -/
theorem plusChecked_isSome_iff (h : ServerTime now) (hn : 0 ≤ n) :
    (plusChecked now n).isSome = true ↔ now.utc + n < endOfYears := by
  have hyear := addNanos_year h.utc hn
  have hlower := h.lower
  have hend : (now.addNanos n).year ≤ 9999 ↔ now.utc + n < endOfYears :=
    year_le_iff (t := now.addNanos n) h.utc
  unfold plusChecked
  dsimp only
  by_cases hle : (now.addNanos n).year ≤ 9999
  · rw [if_pos ⟨by omega, hle⟩]
    exact iff_of_true rfl (hend.mp hle)
  · rw [if_neg fun hrange => hle hrange.2]
    exact iff_of_false (by decide) fun hlt => hle (hend.mpr hlt)

theorem plusChecked_eq (h : ServerTime now) (hn : 0 ≤ n) (hend : now.utc + n < endOfYears) :
    plusChecked now n = some (now.addNanos n) ∧
      toUtcChecked (now.addNanos n) = some (now.addNanos n) := by
  have hyear := addNanos_year h.utc hn
  have hlower := h.lower
  have hle : (now.addNanos n).year ≤ 9999 :=
    (year_le_iff (t := now.addNanos n) h.utc).mpr hend
  have hutc : (now.addNanos n).toUtc = now.addNanos n := toUtc_of_utc h.utc
  refine ⟨if_pos ⟨by omega, hle⟩, ?_⟩
  unfold toUtcChecked
  rw [hutc]
  exact if_pos ⟨by omega, hle⟩

theorem toUtcChecked_now (h : ServerTime now) : toUtcChecked now = some now := by
  have hlower := h.lower
  have hupper := h.upper
  unfold toUtcChecked
  rw [toUtc_of_utc h.utc]
  exact if_pos ⟨by omega, by omega⟩

theorem timestamp_of_utc {t : OffsetDateTime} (hutc : t.offset = 0) (hlower : -9999 ≤ t.year)
    (hupper : t.year ≤ 9999) : ∃ text, SchedulerLease.timestamp t = .ok text := by
  have hprintable : (canonicalText t).isSome = true := by
    rw [canonicalText_isSome, toUtc_of_utc hutc]
    exact ⟨hlower, hupper⟩
  obtain ⟨text, htext⟩ := Option.isSome_iff_exists.mp hprintable
  exact ⟨text, SchedulerLease.timestamp_ok.mpr (canonicalTimestamp_ok.mpr htext)⟩

end

/-! ## The scheduler -/

/-- There is no row, or its lease is over and its version can be counted on. -/
def Acquirable (row : Option LeaseRow) (now : OffsetDateTime) : Prop :=
  SchedulerLease.Free row now ∧ ∀ r, row = some r → 0 ≤ r.version ∧ r.version < i64Max

/-- Nothing that the scheduler computes with its settings at this time is out of range, and
it acquires a lease that is to be had. -/
structure ArithmeticInRange (scheduler : Scheduler) (now : OffsetDateTime) (instant : Nat) :
    Prop where
  acquires : ∀ row, Acquirable row now →
    ∃ granted, scheduler.lease.acquireChecked now row = some (.ok granted)
  renews : ∀ guard row, (scheduler.lease.renewChecked guard now row).isSome = true
  renewal : ∀ guard : LeaseGuard, guard.duration = scheduler.lease.duration →
    (guard.renewalDueChecked now).isSome = true
  deadline : (deadlineChecked instant scheduler.config).isSome = true

section

variable {now : OffsetDateTime} {scheduler : Scheduler} {lease : SchedulerLease} {instant : Nat}

theorem scheduler_config {service : RemindiService} {holderId : String} {config : SchedulerConfig}
    (h : Scheduler.new service holderId config = .ok scheduler) : scheduler.config = config := by
  unfold Scheduler.new at h
  split at h
  · cases h
  · split at h
    · cases h
    · split at h
      · cases h
      · split at h
        · cases h
        · cases h
          rfl

theorem expiryChecked_eq (h : ServerTime now) (hend : now.utc + lease.duration < endOfYears) :
    lease.expiryChecked now = some (now.addNanos lease.duration) := by
  have hlasting := lease.lasting
  obtain ⟨hplus, hutc⟩ := plusChecked_eq h (by omega) hend
  unfold SchedulerLease.expiryChecked
  rw [hplus]
  exact hutc

theorem acquire_of_acquirable (h : ServerTime now) (hend : now.utc + lease.duration < endOfYears)
    {row : Option LeaseRow} (hrow : Acquirable row now) :
    ∃ granted, lease.acquire now row = .ok granted := by
  have hlasting := lease.lasting
  have hlower := h.lower
  have hupper := h.upper
  have hyear := addNanos_year (n := lease.duration) h.utc (by omega)
  have hle : (now.addNanos lease.duration).year ≤ 9999 :=
    (year_le_iff (t := now.addNanos lease.duration) h.utc).mpr hend
  obtain ⟨expires, hexpires⟩ := timestamp_of_utc (t := now.addNanos lease.duration) h.utc
    (by omega) hle
  obtain ⟨acquired, hacquired⟩ := timestamp_of_utc h.utc (by omega) (by omega)
  unfold SchedulerLease.acquire
  dsimp only
  rw [hexpires, hacquired]
  dsimp only [bind, Except.bind]
  cases row with
  | none => exact ⟨_, rfl⟩
  | some r =>
    obtain ⟨expiry, hexpiry, hpast⟩ := hrow.1 r rfl
    obtain ⟨hpositive, hcounted⟩ := hrow.2 r rfl
    have hstored : SchedulerLease.stored r = .ok expiry := by
      unfold SchedulerLease.stored
      rw [hexpiry]
      rfl
    have hversion : SchedulerLease.storedVersion r = .ok r.version.toNat := if_pos hpositive
    have hcolumn : SchedulerLease.column (r.version.toNat + 1) = .ok ((r.version.toNat + 1 : Nat) : Int) :=
      if_pos (by omega)
    dsimp only
    rw [hstored, hversion]
    dsimp only
    rw [if_neg (by omega), hcolumn]
    exact ⟨_, rfl⟩

/-- **The lease ends before the year 10000, and the clock can add the timeout.** -/
theorem arithmeticInRange_iff (h : ServerTime now) : ArithmeticInRange scheduler now instant ↔
    now.utc + scheduler.config.leaseDuration < endOfYears ∧
      instant + scheduler.config.adapterTimeout < instantLimit := by
  have hduration := scheduler.lasting
  have hlasting := scheduler.lease.lasting
  have hdeadline : (deadlineChecked instant scheduler.config).isSome = true ↔
      instant + scheduler.config.adapterTimeout < instantLimit := by
    unfold deadlineChecked instantChecked
    by_cases hlt : instant + scheduler.config.adapterTimeout < instantLimit
    · rw [if_pos hlt]
      exact iff_of_true rfl hlt
    · rw [if_neg hlt]
      exact iff_of_false (by decide) hlt
  constructor
  · intro hrange
    obtain ⟨granted, hgranted⟩ := hrange.acquires none ⟨nofun, nofun⟩
    obtain ⟨expiry, hexpiry, -⟩ := Option.bind_eq_some_iff.mp hgranted
    obtain ⟨sum, hsum, -⟩ := Option.bind_eq_some_iff.mp hexpiry
    have hsome : (plusChecked now scheduler.lease.duration).isSome = true := by
      rw [hsum]
      rfl
    refine ⟨?_, hdeadline.mp hrange.deadline⟩
    rw [← hduration]
    exact (plusChecked_isSome_iff h (by omega)).mp hsome
  · rintro ⟨hend, htimeout⟩
    rw [← hduration] at hend
    have hexpiry := expiryChecked_eq h hend
    have hnow := toUtcChecked_now h
    refine ⟨fun row hrow => ?_, fun guard row => ?_, fun guard hguard => ?_, hdeadline.mpr htimeout⟩
    · obtain ⟨granted, hgranted⟩ := acquire_of_acquirable h hend hrow
      refine ⟨granted, ?_⟩
      unfold SchedulerLease.acquireChecked
      rw [hexpiry, hnow, hgranted]
      rfl
    · unfold SchedulerLease.renewChecked
      split
      · rfl
      · rw [hexpiry, hnow]
        rfl
    · unfold LeaseGuard.renewalDueChecked
      rw [Option.isSome_map, plusChecked_isSome_iff h (by omega)]
      omega

end

/-! ## Accepted settings -/

namespace Admin

open Fallible JsonText KeyedTable Machine

/-- What `main` makes of the rows. -/
def storedConfig (rows : List SettingRow) : Option SchedulerConfig :=
  (decodeSettings rows).toOption.bind fun settings => (schedulerConfig settings).toOption

/-- **Accepted settings are in range exactly when the lease ends before the year 10000 and
the monotonic clock can add the timeout.** -/
theorem accepted_in_range_iff (x : Triggers.UrlCrate) (seeded : String)
    (labels : List SettingsLabel) {now : OffsetDateTime} (hnow : ServerTime now) (instant : Nat)
    (service : RemindiService) {holderId : String} (hname : trim holderId ≠ "") :
    ∃ config scheduler, storedConfig (final adminStep (.start x seeded)
        (labels.map SettingsLabel.admin)).state.runtimeSettings.rows = some config ∧
      Scheduler.new service holderId config = .ok scheduler ∧
      (ArithmeticInRange scheduler now instant ↔
        now.utc + config.leaseDuration < endOfYears ∧
          instant + config.adapterTimeout < instantLimit) := by
  have hadequate := (final_maintained x seeded labels).adequate
  obtain ⟨settings, hdecode⟩ := hadequate.decodes
  obtain ⟨config, hconfig, hvalid, hlease⟩ := hadequate.scheduler hdecode
  obtain ⟨scheduler, hscheduler⟩ := scheduler_new hvalid hlease service hname
  refine ⟨config, scheduler, ?_, hscheduler, ?_⟩
  · unfold storedConfig
    rw [hdecode]
    show (schedulerConfig settings).toOption = some config
    rw [hconfig]
    rfl
  · rw [← scheduler_config hscheduler]
    exact arithmeticInRange_iff hnow

namespace Sample

/-- The longest lease that can be asked for, in the first update. -/
def longestLease : List SettingsLabel :=
  [.begin leaseKey ⟨9223372036854775807, by decide, by decide⟩ 1 owner, .serve (succeeding 0),
    .serve (succeeding 1), .serve (succeeding 2)]

/-- The first of January 2026. -/
def newYear : OffsetDateTime := ⟨1767225600000000000, 0⟩

theorem newYear_serverTime : ServerTime newYear := ⟨rfl, by decide, by decide⟩

def service : RemindiService := ⟨RemindiCore.Sample.externals, "owner"⟩

theorem holder_named : trim "process-1" ≠ "" := by decide

end Sample

/-- The defaults, with any timeout that is counted from a clock at its start. -/
theorem sample_in_range : ∃ config scheduler,
    storedConfig (final adminStep (.start Sample.noUrls "2026-01-01T00:00:00.000Z")
        (([] : List SettingsLabel).map SettingsLabel.admin)).state.runtimeSettings.rows =
          some config ∧
      Scheduler.new Sample.service "process-1" config = .ok scheduler ∧
      (ArithmeticInRange scheduler Sample.newYear 0 ↔
        Sample.newYear.utc + config.leaseDuration < endOfYears ∧
          0 + config.adapterTimeout < instantLimit) :=
  accepted_in_range_iff Sample.noUrls _ [] Sample.newYear_serverTime 0 Sample.service
    Sample.holder_named

/-- The longest lease is accepted, and then the process cannot acquire it. -/
theorem longest_lease_out_of_range : ∃ config scheduler,
    storedConfig (final adminStep (.start Sample.noUrls "2026-01-01T00:00:00.000Z")
        (Sample.longestLease.map SettingsLabel.admin)).state.runtimeSettings.rows = some config ∧
      Scheduler.new Sample.service "process-1" config = .ok scheduler ∧
      ¬ ArithmeticInRange scheduler Sample.newYear 0 := by
  have hconfig : storedConfig (final adminStep (.start Sample.noUrls "2026-01-01T00:00:00.000Z")
      (Sample.longestLease.map SettingsLabel.admin)).state.runtimeSettings.rows =
        some ⟨30000000000, 9223372036854775807000000000, 5000000000, 8, 200⟩ := by
    decide +kernel
  have hvalid : (⟨30000000000, 9223372036854775807000000000, 5000000000, 8, 200⟩ :
      SchedulerConfig).validate = .ok () := rfl
  obtain ⟨scheduler, hscheduler⟩ := scheduler_new hvalid (by decide) Sample.service
    Sample.holder_named
  refine ⟨_, scheduler, hconfig, hscheduler, fun hrange => ?_⟩
  have hlease := ((arithmeticInRange_iff Sample.newYear_serverTime).mp hrange).1
  rw [scheduler_config hscheduler] at hlease
  revert hlease
  decide

end Admin

end RemindiCore
