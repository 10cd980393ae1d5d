import RemindiCore.Admin.Service
import RemindiCore.Scheduler.Runner

/-!
# Startup

What the process checks of its settings before it serves: the migrations
(`validate_runtime_settings`, `db/migrations.rs`), `AdminService::load`
(`admin/mod.rs`), and the scheduler configuration that `main.rs` makes of them.
-/

namespace RemindiCore.Admin

open JsonText KeyedTable Triggers

/-! ## Migrations -/

inductive BootstrapError where
  | invalidBootstrapRows
deriving DecidableEq

/-- The integer of a row. -/
def rowValue (row : SettingRow) : Option Int := (asI64 row.valueJson).map (·.val)

/-- The value of a setting; the keys of the rows are unique. -/
def settingValue (rows : List SettingRow) (key : String) : Option Int :=
  (rows.find? (·.settingKey = key)).bind rowValue

def validBootstrapValue (key : String) (value : Int) : Bool :=
  if key = "remindi.default_overdue_seconds" then 0 ≤ value else 0 < value

def validBootstrapRow (row : SettingRow) : Bool :=
  match rowValue row with
  | some value => validBootstrapValue row.settingKey value
  | none => false

/-- `validate_runtime_settings` -/
def validateRuntimeSettings (rows : List SettingRow) : Except BootstrapError Unit :=
  let allowed := seededSettings.map Prod.fst
  if rows.length ≠ allowed.length ∨ rows.any fun row => !allowed.contains row.settingKey then
    .error .invalidBootstrapRows
  else if rows.any fun row => !validBootstrapRow row then .error .invalidBootstrapRows
  else
    match settingValue rows "scheduler.poll_interval_seconds",
      settingValue rows "scheduler.lease_seconds" with
    | some poll, some lease =>
      if lease ≤ doubled poll then .error .invalidBootstrapRows else .ok ()
    -- so many rows with unique keys are all of them, so both are there
    | _, _ => .error .invalidBootstrapRows

/-! ## The administration -/

/-- `adapters::load` -/
def loadAdapters (x : UrlCrate) (files : FileSystem) (rows : List AdapterRow) :
    Except AdminError (List AdapterConfigView × AdapterSnapshot x) := do
  let configs ← decodeAdapters rows
  let snapshot ← buildSnapshot x files configs
  .ok (configs, snapshot)

/-- `AdminService::load`: the snapshot of the adapters, when all rows are valid. -/
def load (x : UrlCrate) (files : FileSystem) (settings : List SettingRow)
    (adapters : List AdapterRow) : Except AdminError (AdapterSnapshot x) := do
  let runtimeSettings ← decodeSettings settings
  if runtimeSettings.length ≠ 11 then .error .validation
  else do
    let _ ← runtimeSettings.mapM fun setting =>
      validateCandidate runtimeSettings setting.key setting.value
    let (_, adapters) ← loadAdapters x files adapters
    .ok adapters

/-! ## The scheduler -/

inductive StartupError where
  | missing (key : String)
  | invalid (key : String)
deriving DecidableEq

/-- `runtime_setting` of `main.rs`: a value of the type `u64`. -/
def runtimeSetting (settings : List RuntimeSetting) (key : String) : Except StartupError Nat :=
  match settings.find? (·.key = key) with
  | none => .error (.missing key)
  | some setting =>
    if 0 ≤ setting.value.val then .ok setting.value.val.toNat else .error (.invalid key)

/-- `Duration::from_secs`, in nanoseconds. -/
def fromSecs (seconds : Nat) : Nat := seconds * 1000000000

def schedulerConfig (settings : List RuntimeSetting) : Except StartupError SchedulerConfig := do
  let poll ← runtimeSetting settings "scheduler.poll_interval_seconds"
  let lease ← runtimeSetting settings "scheduler.lease_seconds"
  let timeout ← runtimeSetting settings "adapters.timeout_seconds"
  -- every `u64` is a `usize`
  let concurrency ← runtimeSetting settings "adapters.max_concurrency"
  .ok { pollInterval := fromSecs poll
        leaseDuration := fromSecs lease
        adapterTimeout := fromSecs timeout
        adapterConcurrency := concurrency
        candidateBatchSize := 200 }

end RemindiCore.Admin
