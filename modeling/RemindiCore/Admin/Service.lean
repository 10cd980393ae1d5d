import RemindiCore.Admin.AdapterConfigs
import RemindiCore.Domain.Model
import RemindiCore.Lib.Fallible
import RemindiCore.Lib.Machine

/-!
# The administration service

`update_runtime_setting` and `update_adapter` (`admin/mod.rs`) with the audit events
they append.  A transaction is one call: another administrator's statements come
before it or after it.  Calls on settings wait for one lock and calls on adapters for
another, so at most one of each is in progress, and the two may alternate at will.
-/

namespace RemindiCore.Admin

open CivilTime Fallible JsonText KeyedTable Triggers

/-! ## Data -/

/-- Who attempts a mutation. -/
structure AdminActor where
  actorId : String
  requestId : Option String
deriving DecidableEq

/-- The kinds of the two updates; other operations append other kinds. -/
inductive AdminEventType where
  | runtimeSettingUpdated
  | adapterConfigUpdated
deriving DecidableEq

inductive AdminOutcome where
  | succeeded
  | rejected
  | failed
deriving DecidableEq

/-- The object of `details_json`: the member `setting_name` or `adapter_name`, and
`failure_code` if there is one. -/
structure AdminDetails where
  name : String
  failureCode : Option String
deriving DecidableEq

/-- `setting_details` and `adapter_details` -/
def detailsOf (name : String) (known : Bool) (failureCode : Option String) : AdminDetails where
  name := if known then name else "[unknown]"
  failureCode := failureCode

structure AdminEvent where
  sequence : Nat
  eventId : Uuid
  eventType : AdminEventType
  actorId : String
  requestId : Option String
  occurredAt : String
  outcome : AdminOutcome
  details : AdminDetails
deriving DecidableEq

/-- The tables of the administration, and the snapshot that is in use. -/
structure AdminState (x : UrlCrate) where
  runtimeSettings : Table SettingRow.settingKey
  adapterConfigs : Table AdapterRow.adapterName
  adminEvents : List AdminEvent
  active : AdapterSnapshot x

/-! ## Calls -/

variable {x : UrlCrate}

inductive AdminCall (x : UrlCrate) where
  | listSettings
  | listAdapters
  | now
  /-- `adapters::candidate` reads the file system. -/
  | candidate (current : List AdapterConfigView) (adapterName : String) (enabled : Bool)
      (configuration : AdapterConfiguration) (actorId occurredAt : String)
  | writeSetting (key : String) (value : I64) (expectedVersion : Int) (occurredAt : String)
      (actor : AdminActor)
  | writeAdapter (adapterName : String) (enabled : Bool) (configJson : ConfigJson)
      (expectedVersion : Int) (occurredAt : String) (actor : AdminActor)
  | append (eventType : AdminEventType) (actor : AdminActor) (outcome : AdminOutcome)
      (details : AdminDetails)
  | publish (snapshot : AdapterSnapshot x)

/-- How a transaction that writes one row and its audit event ends. -/
inductive WriteResult where
  | committed
  /-- No row had the expected version; rolled back. -/
  | stale
  /-- The statement failed; rolled back. -/
  | writeFailed
  | failed
deriving DecidableEq

abbrev AdminValue : AdminCall x → Type
  | .listSettings => List SettingRow
  | .listAdapters => List AdapterRow
  | .now => String
  | .candidate .. => Except AdminError (AdapterConfigView × AdapterSnapshot x)
  | .writeSetting .. | .writeAdapter .. => WriteResult
  | _ => Unit

/-- What the clock, the random source, the database and the file system answer. -/
structure AdminAnswer where
  now : OffsetDateTime
  id : Uuid
  /-- A connection or a transaction is to be had. -/
  begins : Bool
  writes : Bool
  rollsBack : Bool
  inserts : Bool
  commits : Bool
  /-- What has become of a transaction whose commit reports a failure. -/
  applies : Bool
  files : FileSystem

/-- `canonical_timestamp(clock.now())` -/
def AdminAnswer.stamp (a : AdminAnswer) : Option String := (canonicalTimestamp a.now).toOption

/-- `audit::insert`; the identifiers of the events are unique. -/
def insertEvent (a : AdminAnswer) (eventType : AdminEventType) (actor : AdminActor)
    (outcome : AdminOutcome) (details : AdminDetails) (s : AdminState x) :
    Option (AdminState x) :=
  a.stamp.bind fun occurredAt =>
    if !a.inserts || s.adminEvents.any (·.eventId = a.id) then none
    else
      some { s with adminEvents := s.adminEvents ++
        [{ sequence := s.adminEvents.length + 1
           eventId := a.id
           eventType := eventType
           actorId := actor.actorId
           requestId := actor.requestId
           occurredAt := occurredAt
           outcome := outcome
           details := details }] }

/-- Commit what a transaction has made of the state, if it has come so far. -/
def commitEvent (a : AdminAnswer) (s : AdminState x) : Option (AdminState x) → Bool × AdminState x
  | none => (false, s)
  | some t => if a.commits then (true, t) else (false, if a.applies then t else s)

/-- A transaction: an update of one row that has the expected version, and its event. -/
def writeRow (a : AdminAnswer) (s : AdminState x) (written : Option (AdminState x))
    (eventType : AdminEventType) (actor : AdminActor) (name : String) :
    WriteResult × AdminState x :=
  if !a.begins then (.failed, s)
  else if !a.writes then (if a.rollsBack then .writeFailed else .failed, s)
  else
    match written with
    | none => (if a.rollsBack then .stale else .failed, s)
    | some t =>
      let done := commitEvent a s
        (insertEvent a eventType actor .succeeded (detailsOf name true none) t)
      (if done.1 then .committed else .failed, done.2)

/-- `UPDATE runtime_settings … WHERE setting_key = ? AND version = ?` -/
def writeSettingRow (s : AdminState x) (key : String) (value : I64) (expectedVersion : Int)
    (occurredAt actorId : String) : Option (AdminState x) :=
  match s.runtimeSettings.find? key with
  | none => none
  | some row =>
    if row.version = expectedVersion then
      let updated : SettingRow :=
        { row with valueJson := .ofInt value.val
                   version := row.version + 1
                   updatedAt := occurredAt
                   updatedBy := actorId }
      some { s with runtimeSettings := s.runtimeSettings.replace updated }
    else none

/-- `UPDATE adapter_configs … WHERE adapter_name = ? AND version = ?` -/
def writeAdapterRow (s : AdminState x) (adapterName : String) (enabled : Bool)
    (configJson : ConfigJson) (expectedVersion : Int) (occurredAt actorId : String) :
    Option (AdminState x) :=
  match s.adapterConfigs.find? adapterName with
  | none => none
  | some row =>
    if row.version = expectedVersion then
      let updated : AdapterRow :=
        { row with enabled := enabled
                   configJson := configJson
                   version := row.version + 1
                   updatedAt := occurredAt
                   updatedBy := actorId }
      some { s with adapterConfigs := s.adapterConfigs.replace updated }
    else none

/-- A value, and the state that goes with it. -/
def replied {α β : Type} (r : α × β) : Option α × β := (some r.1, r.2)

def serveAdmin : (k : AdminCall x) → AdminAnswer → AdminState x →
    Option (AdminValue k) × AdminState x
  | .listSettings, a, s => (if a.begins then some s.runtimeSettings.rows else none, s)
  | .listAdapters, a, s => (if a.begins then some s.adapterConfigs.rows else none, s)
  | .now, a, s => (a.stamp, s)
  | .candidate current adapterName enabled configuration actorId occurredAt, a, s =>
    (some (adapterCandidate x a.files current adapterName enabled configuration actorId
      occurredAt), s)
  | .writeSetting key value expectedVersion occurredAt actor, a, s =>
    replied (writeRow a s (writeSettingRow s key value expectedVersion occurredAt actor.actorId)
      .runtimeSettingUpdated actor key)
  | .writeAdapter adapterName enabled configJson expectedVersion occurredAt actor, a, s =>
    replied (writeRow a s
      (writeAdapterRow s adapterName enabled configJson expectedVersion occurredAt actor.actorId)
      .adapterConfigUpdated actor adapterName)
  | .append eventType actor outcome details, a, s =>
    let done := if a.begins then commitEvent a s (insertEvent a eventType actor outcome details s)
      else (false, s)
    (if done.1 then some () else none, done.2)
  | .publish snapshot, _, s => (some (), { s with active := snapshot })

/-! ## The service -/

abbrev AdminProgram (x : UrlCrate) (α : Type) := Prog (@AdminValue x) AdminError α

/-- A call whose failure is a database error. -/
def query (k : AdminCall x) : AdminProgram x (AdminValue k) := Prog.perform k AdminError.database

/-- What an update returns. -/
inductive AdminReply where
  | setting (setting : RuntimeSetting)
  | adapter (config : AdapterConfigView)

def rejected (eventType : AdminEventType) (actor : AdminActor) (details : AdminDetails) :
    AdminProgram x Unit :=
  query (.append eventType actor .rejected details)

def failed (eventType : AdminEventType) (actor : AdminActor) (details : AdminDetails) :
    AdminProgram x Unit :=
  query (.append eventType actor .failed details)

/-- Append the event of a rejection, and return its error. -/
def reject {α : Type} (eventType : AdminEventType) (actor : AdminActor) (details : AdminDetails)
    (error : AdminError) : AdminProgram x α := do
  rejected eventType actor details
  .throw error

def listSettings : AdminProgram x (List RuntimeSetting) := do
  let rows ← query .listSettings
  Prog.ofExcept (decodeSettings rows)

def listAdapters : AdminProgram x (List AdapterConfigView) := do
  let rows ← query .listAdapters
  Prog.ofExcept (decodeAdapters rows)

/-- The end of both updates after their transaction. -/
def concluded {α : Type} (eventType : AdminEventType) (actor : AdminActor) (name : String)
    (result : WriteResult) (committed : AdminProgram x α) : AdminProgram x α :=
  match result with
  | .committed => committed
  | .stale => reject eventType actor (detailsOf name true (some "VERSION_CONFLICT")) .versionConflict
  | .writeFailed => do
    failed eventType actor (detailsOf name true (some "INTERNAL_ERROR"))
    .throw .database
  | .failed => .throw .database

def updateRuntimeSetting (key : String) (value : I64) (expectedVersion : Int)
    (actor : AdminActor) : AdminProgram x AdminReply :=
  let known := isKnownSetting key
  if !known || expectedVersion < 1 then
    reject .runtimeSettingUpdated actor (detailsOf key known (some "VALIDATION_ERROR")) .validation
  else do
    let current ← listSettings
    match validateCandidate current key value with
    | .error error =>
      reject .runtimeSettingUpdated actor (detailsOf key true (some "VALIDATION_ERROR")) error
    | .ok () =>
      match current.find? (·.key = key) with
      | none => .throw .validation
      | some selected =>
        if selected.version ≠ expectedVersion then
          reject .runtimeSettingUpdated actor (detailsOf key true (some "VERSION_CONFLICT"))
            .versionConflict
        else do
          let occurredAt ← query .now
          let updated ← Prog.ofExcept (updatedSetting current key value actor.actorId occurredAt)
          let result ← query (.writeSetting key value expectedVersion occurredAt actor)
          concluded .runtimeSettingUpdated actor key result (.pure (.setting updated))

def updateAdapter (adapterName : String) (enabled : Bool) (configuration : AdapterConfiguration)
    (expectedVersion : Int) (actor : AdminActor) : AdminProgram x AdminReply :=
  let known := isKnownAdapter adapterName
  if !known || expectedVersion < 1 then
    reject .adapterConfigUpdated actor (detailsOf adapterName known (some "VALIDATION_ERROR"))
      .validation
  else do
    let current ← listAdapters
    let occurredAt ← query .now
    match ← query
        (.candidate current adapterName enabled configuration actor.actorId occurredAt) with
    | .error error =>
      reject .adapterConfigUpdated actor (detailsOf adapterName true (some "VALIDATION_ERROR")) error
    | .ok (updated, snapshot) =>
      match current.find? (·.adapterName = adapterName) with
      | none => .throw .validation
      | some selected =>
        if selected.version ≠ expectedVersion then
          reject .adapterConfigUpdated actor (detailsOf adapterName true (some "VERSION_CONFLICT"))
            .versionConflict
        else do
          let configJson ← Prog.ofExcept (encoded updated.configuration)
          let result ← query
            (.writeAdapter adapterName enabled configJson expectedVersion occurredAt actor)
          concluded .adapterConfigUpdated actor adapterName result (do
            query (.publish snapshot)
            .pure (.adapter updated))

/-! ## Two administrators -/

/-- The lock that a call takes. -/
inductive Lane where
  | settings
  | adapters
deriving DecidableEq

def AdminEventType.lane : AdminEventType → Lane
  | .runtimeSettingUpdated => .settings
  | .adapterConfigUpdated => .adapters

/-- The call is one of an update of this kind. -/
def AdminCall.inLane (lane : Lane) : AdminCall x → Bool
  | .listSettings | .writeSetting .. => lane = .settings
  | .listAdapters | .candidate .. | .writeAdapter .. | .publish _ => lane = .adapters
  | .append eventType .. => lane = eventType.lane
  | .now => true

inductive AdminRequest where
  | updateRuntimeSetting (key : String) (value : I64) (expectedVersion : Int) (actor : AdminActor)
  | updateAdapter (adapterName : String) (enabled : Bool) (configuration : AdapterConfiguration)
      (expectedVersion : Int) (actor : AdminActor)

def AdminRequest.lane : AdminRequest → Lane
  | .updateRuntimeSetting .. => .settings
  | .updateAdapter .. => .adapters

def AdminRequest.program : AdminRequest → AdminProgram x AdminReply
  | .updateRuntimeSetting key value expectedVersion actor =>
    Admin.updateRuntimeSetting key value expectedVersion actor
  | .updateAdapter adapterName enabled configuration expectedVersion actor =>
    Admin.updateAdapter adapterName enabled configuration expectedVersion actor

/-- What the other administrator does between two calls of an update. -/
abbrev Interference (x : UrlCrate) := AdminCall x × AdminAnswer

/-- The database as an update in this lane sees it: others change it, but not through
calls of the same lane. -/
def administration (x : UrlCrate) (lane : Lane) :
    World (@AdminValue x) (AdminState x) AdminAnswer (Interference x) where
  serve := serveAdmin
  interfere := fun e s => if e.1.inLane lane then s else (serveAdmin e.1 e.2 s).2

abbrev AdminConfig (x : UrlCrate) := Config (AdminCall x) (Interference x) (AdminState x)

/-- An update in progress, with what has happened since it has begun. -/
structure InFlight (x : UrlCrate) where
  request : AdminRequest
  config : AdminConfig x
  program : AdminProgram x AdminReply

/-- An update that has returned. -/
structure Returned (x : UrlCrate) where
  request : AdminRequest
  config : AdminConfig x
  result : Except AdminError AdminReply

structure Administrators (x : UrlCrate) where
  state : AdminState x
  settings : Option (InFlight x)
  adapters : Option (InFlight x)

def Administrators.lane (s : Administrators x) : Lane → Option (InFlight x)
  | .settings => s.settings
  | .adapters => s.adapters

def Administrators.setLane (s : Administrators x) (lane : Lane) (call : Option (InFlight x)) :
    Administrators x :=
  match lane with
  | .settings => { s with settings := call }
  | .adapters => { s with adapters := call }

def Lane.other : Lane → Lane
  | .settings => .adapters
  | .adapters => .settings

inductive AdminLabel where
  /-- An update has got its lock. -/
  | begin (request : AdminRequest)
  /-- The next call of the update in this lane is served. -/
  | serve (lane : Lane) (answer : AdminAnswer)
  /-- The connection of the administrator is gone. -/
  | abandon (lane : Lane)

/-- The update goes on, or has returned. -/
def settleCall (request : AdminRequest) (config : AdminConfig x) :
    AdminProgram x AdminReply → Option (InFlight x) × Option (Returned x)
  | .pure reply => (none, some ⟨request, config, .ok reply⟩)
  | .throw error => (none, some ⟨request, config, .error error⟩)
  | .call k next => (some ⟨request, config, .call k next⟩, none)

/-- The other update sees a change. -/
def interrupted (lane : Lane) (e : Interference x) (call : InFlight x) : InFlight x :=
  { call with config := call.config.event (administration x lane) e }

def adminStep (s : Administrators x) (label : AdminLabel) : Administrators x × Option (Returned x) :=
  match label with
  | .begin request =>
    match s.lane request.lane with
    | some _ => (s, none)
    | none =>
      let settled := settleCall request (.start s.state) request.program
      (s.setLane request.lane settled.1, settled.2)
  | .serve lane a =>
    match s.lane lane with
    | none => (s, none)
    | some call =>
      match call.program with
      | .call k next =>
        let config := call.config.served (administration x lane) k a
        let settled := settleCall call.request config (next (serveAdmin k a call.config.state).1)
        let others := (s.lane lane.other).map (interrupted lane.other (k, a))
        (({ s with state := config.state }.setLane lane settled.1).setLane lane.other others,
          settled.2)
      | _ => (s, none)
  | .abandon lane => (s.setLane lane none, none)

/-- The settings of the first migration. -/
def seededSettings : List (String × Int) :=
  [("scheduler.poll_interval_seconds", 30), ("scheduler.lease_seconds", 90),
    ("adapters.timeout_seconds", 5), ("adapters.max_concurrency", 8),
    ("recurrence.max_catch_up_occurrences", 10), ("remindi.default_overdue_seconds", 0),
    ("remindi.max_snooze_seconds", 31536000), ("idempotency.retention_days", 30),
    ("backups.interval_seconds", 86400), ("backups.retention_count", 14),
    ("backups.upload_max_bytes", 1073741824)]

/-- The adapters of the first migration. -/
def seededAdapters : List String :=
  ["observation_window_ended", "http_health", "tcp_reachable", "file_exists"]

def seededSetting (now : String) (setting : String × Int) : SettingRow where
  settingKey := setting.1
  valueJson := .ofInt setting.2
  version := 1
  updatedAt := now
  updatedBy := "system"

def seededAdapter (now name : String) : AdapterRow where
  adapterName := name
  enabled := false
  configJson := .empty
  version := 1
  updatedAt := now
  updatedBy := "system"

/-- The database after the migrations, with the snapshot that its rows give. -/
def bootstrapped (x : UrlCrate) (now : String) : AdminState x where
  runtimeSettings :=
    { rows := seededSettings.map (seededSetting now)
      nodup := by
        rw [List.map_map]
        show (seededSettings.map Prod.fst).Nodup
        decide }
  adapterConfigs :=
    { rows := seededAdapters.map (seededAdapter now)
      nodup := by
        rw [List.map_map]
        show (seededAdapters.map id).Nodup
        decide }
  adminEvents := []
  active := [("file_exists", .file false [] []), ("http_health", .http false []),
    ("observation_window_ended", .observationWindow false), ("tcp_reachable", .tcp false [])]

def Administrators.start (x : UrlCrate) (now : String) : Administrators x where
  state := bootstrapped x now
  settings := none
  adapters := none

end RemindiCore.Admin
