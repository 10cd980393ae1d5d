import Mathlib.Data.List.Sort
import RemindiCore.Lib.JsonText
import RemindiCore.Lib.Table

/-!
# Runtime settings

The settings an administrator may change (`admin/settings.rs`): their definitions,
how the rows of `runtime_settings` are read, and what a candidate value must satisfy
together with the other values.
-/

namespace RemindiCore.Admin

open DigitText JsonText KeyedTable

inductive AdminError where
  | validation
  | versionConflict
  | database
deriving DecidableEq, Repr

/-- A value of the type `i64`. -/
structure I64 where
  val : Int
  lower : -(2 ^ 63) ≤ val
  upper : val < 2 ^ 63
deriving DecidableEq

def I64.max : Int := 2 ^ 63 - 1

/-- A row of `runtime_settings`; the JSON text is kept as its value. -/
structure SettingRow where
  settingKey : String
  valueJson : Json
  version : Int
  updatedAt : String
  updatedBy : String

structure RuntimeSetting where
  key : String
  value : I64
  minimum : Int
  maximum : Option Int
  version : Int
  restartRequired : Bool
  updatedAt : String
  updatedBy : String

structure SettingDefinition where
  key : String
  minimum : Int

def settingDefinitions : List SettingDefinition :=
  [⟨"adapters.max_concurrency", 1⟩, ⟨"adapters.timeout_seconds", 1⟩,
    ⟨"backups.interval_seconds", 1⟩, ⟨"backups.retention_count", 1⟩,
    ⟨"backups.upload_max_bytes", 1⟩, ⟨"idempotency.retention_days", 1⟩,
    ⟨"recurrence.max_catch_up_occurrences", 1⟩, ⟨"remindi.default_overdue_seconds", 0⟩,
    ⟨"remindi.max_snooze_seconds", 1⟩, ⟨"scheduler.lease_seconds", 1⟩,
    ⟨"scheduler.poll_interval_seconds", 1⟩]

def settingDefinition (key : String) : Option SettingDefinition :=
  settingDefinitions.find? (·.key = key)

def isKnownSetting (key : String) : Bool := (settingDefinition key).isSome

/-! ## Reading -/

/-- The integer of a number without a fraction or an exponent; `-0` is none. -/
def integerOf (chars : List Char) : Option Int :=
  match chars with
  | '-' :: digits =>
    let value := Nat.ofDigitChars 10 digits 0
    if digits.isEmpty || !digits.all Char.isDigit || value = 0 then none else some (-value)
  | digits => if digits.all Char.isDigit then some (Nat.ofDigitChars 10 digits 0) else none

/-- `Value::as_i64` -/
def asI64 : Json → Option I64
  | .number n =>
    match integerOf n.chars with
    | none => none
    | some value =>
      if h : -(2 ^ 63) ≤ value ∧ value < 2 ^ 63 then some ⟨value, h.1, h.2⟩ else none
  | _ => none

/-- What `settings::list` makes of one row. -/
def settingOf (row : SettingRow) : Except AdminError RuntimeSetting :=
  match settingDefinition row.settingKey, asI64 row.valueJson with
  | some definition, some value =>
    .ok { key := row.settingKey
          value := value
          minimum := definition.minimum
          maximum := none
          version := row.version
          restartRequired := false
          updatedAt := row.updatedAt
          updatedBy := row.updatedBy }
  | _, _ => .error .validation

/-- `settings::list`: in the order of the keys; the first row that cannot be read is
the error. -/
def decodeSettings (rows : List SettingRow) : Except AdminError (List RuntimeSetting) :=
  (rows.insertionSort fun a b => a.settingKey ≤ b.settingKey).mapM settingOf

/-! ## Candidates -/

/-- The values with the candidate in its place. -/
def candidateValue (settings : List RuntimeSetting) (key : String) (value : I64) (name : String) :
    Option Int :=
  if name = key then some value.val
  else (settings.find? (·.key = name)).map (·.value.val)

/-- `saturating_mul(2)` -/
def doubled (value : Int) : Int := Max.max (-(2 ^ 63)) (min I64.max (value * 2))

def validateCandidate (settings : List RuntimeSetting) (key : String) (value : I64) :
    Except AdminError Unit :=
  match settingDefinition key with
  | none => .error .validation
  | some selected =>
    if value.val < selected.minimum then .error .validation
    else
      let values := candidateValue settings key value
      match values "scheduler.poll_interval_seconds", values "scheduler.lease_seconds" with
      | some poll, some lease =>
        if lease ≤ doubled poll then .error .validation
        else
          -- `values["adapters.max_concurrency"]` must fit a `usize`; it is always there
          match values "adapters.max_concurrency" with
          | some concurrency => if concurrency < 0 then .error .validation else .ok ()
          | none => .error .validation
      | _, _ => .error .validation

/-- `settings::updated` -/
def updatedSetting (settings : List RuntimeSetting) (key : String) (value : I64)
    (actorId occurredAt : String) : Except AdminError RuntimeSetting :=
  match settings.find? (·.key = key) with
  | none => .error .validation
  | some setting =>
    .ok { setting with value := value
                       version := setting.version + 1
                       updatedAt := occurredAt
                       updatedBy := actorId }

end RemindiCore.Admin
