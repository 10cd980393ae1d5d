import RemindiCore.Admin.Settings
import RemindiCore.Triggers.HttpHealth

/-!
# Adapter configurations

The typed configurations of the four adapters (`admin/adapters.rs`), their rows, and
the snapshot of adapters that is built from all four and published as a whole.
-/

namespace RemindiCore.Admin

open JsonText KeyedTable Triggers

structure HttpAliasConfiguration where
  url : String
  expectedStatuses : List UInt16
  maxResponseBytes : Nat
  expectedContentType : Option String
  allowRedirects : Bool
  allowPrivate : Bool
deriving DecidableEq

structure TcpAliasConfiguration where
  host : String
  port : UInt16
  allowPrivate : Bool
deriving DecidableEq

/-- The configuration of exactly one adapter; the aliases are in the order of their
names. -/
inductive AdapterConfiguration where
  | observationWindowEnded
  | httpHealth (aliases : List (String × HttpAliasConfiguration))
  | tcpReachable (aliases : List (String × TcpAliasConfiguration))
  | fileExists (roots : List PathBuf) (aliases : List (String × PathBuf))
deriving DecidableEq

/-- What the column `config_json` holds: the `{}` of the migration, a configuration
that was written, or another JSON value. -/
inductive ConfigJson where
  | empty
  | written (configuration : AdapterConfiguration)
  | other (value : Json)

/-- A row of `adapter_configs`. -/
structure AdapterRow where
  adapterName : String
  enabled : Bool
  configJson : ConfigJson
  version : Int
  updatedAt : String
  updatedBy : String

structure AdapterConfigView where
  adapterName : String
  enabled : Bool
  configuration : AdapterConfiguration
  version : Int
  updatedAt : String
  updatedBy : String

def adapterNames : List String :=
  ["file_exists", "http_health", "observation_window_ended", "tcp_reachable"]

def isKnownAdapter (name : String) : Bool := adapterNames.contains name

def AdapterConfiguration.adapterName : AdapterConfiguration → String
  | .observationWindowEnded => "observation_window_ended"
  | .httpHealth _ => "http_health"
  | .tcpReachable _ => "tcp_reachable"
  | .fileExists _ _ => "file_exists"

def validateNameMatches (name : String) (configuration : AdapterConfiguration) :
    Except AdminError Unit :=
  if name = configuration.adapterName then .ok () else .error .validation

/-! ## Rows -/

def emptyConfiguration (name : String) : Except AdminError AdapterConfiguration :=
  if name = "observation_window_ended" then .ok .observationWindowEnded
  else if name = "http_health" then .ok (.httpHealth [])
  else if name = "tcp_reachable" then .ok (.tcpReachable [])
  else if name = "file_exists" then .ok (.fileExists [] [])
  else .error .validation

def decodeConfiguration (name : String) : ConfigJson → Except AdminError AdapterConfiguration
  | .empty => emptyConfiguration name
  | .written configuration => do
    validateNameMatches name configuration
    .ok configuration
  | .other _ => .error .validation

/-- `adapters::encoded`: a path that is no text has no JSON. -/
def encoded (configuration : AdapterConfiguration) : Except AdminError ConfigJson :=
  match configuration with
  | .fileExists roots aliases =>
    if roots.all PathBuf.isText && aliases.all fun target => target.2.isText then
      .ok (.written configuration)
    else .error .validation
  | _ => .ok (.written configuration)

def adapterViewOf (row : AdapterRow) : Except AdminError AdapterConfigView := do
  let configuration ← decodeConfiguration row.adapterName row.configJson
  .ok { adapterName := row.adapterName
        enabled := row.enabled
        configuration := configuration
        version := row.version
        updatedAt := row.updatedAt
        updatedBy := row.updatedBy }

/-- `adapters::list`: the four configurations in the order of their names. -/
def decodeAdapters (rows : List AdapterRow) : Except AdminError (List AdapterConfigView) := do
  let configs ← (rows.insertionSort fun a b => a.adapterName ≤ b.adapterName).mapM adapterViewOf
  if configs.map AdapterConfigView.adapterName ≠ adapterNames then .error .validation
  else .ok configs

/-! ## Snapshots -/

inductive Adapter (x : UrlCrate) where
  | observationWindow (enabled : Bool)
  | http (enabled : Bool) (aliases : List (String × HttpTarget x))
  | tcp (enabled : Bool) (aliases : List (String × TcpTarget))
  | file (enabled : Bool) (roots : List PathBuf) (aliases : List (String × FileTarget))

/-- The adapters by their names. -/
abbrev AdapterSnapshot (x : UrlCrate) := List (String × Adapter x)

def networkPolicy (allowPrivate : Bool) : NetworkPolicy :=
  if allowPrivate then .allowPrivateForAdmin else .publicOnly

/-- Every alias with its target; an invalid one is an invalid configuration. -/
def targetsOf {α β : Type} (build : α → Except AdapterConfigError β)
    (aliases : List (String × α)) : Except AdminError (List (String × β)) :=
  aliases.mapM fun entry => match build entry.2 with
    | .ok target => .ok (entry.1, target)
    | .error _ => .error .validation

/-- Each adapter checks the names of its aliases. -/
def validAliases {α : Type} (aliases : List (String × α)) : Except AdminError Unit :=
  if aliases.all fun entry => validAlias entry.1 then .ok () else .error .validation

def buildAdapter (x : UrlCrate) (files : FileSystem) (config : AdapterConfigView) :
    Except AdminError (String × Adapter x) := do
  validateNameMatches config.adapterName config.configuration
  match config.configuration with
  | .observationWindowEnded =>
    .ok ("observation_window_ended", .observationWindow config.enabled)
  | .httpHealth aliases => do
    let targets ← targetsOf (fun target : HttpAliasConfiguration =>
      HttpTarget.new x target.url target.expectedStatuses target.maxResponseBytes
        target.expectedContentType target.allowRedirects (networkPolicy target.allowPrivate)) aliases
    validAliases targets
    .ok ("http_health", .http config.enabled targets)
  | .tcpReachable aliases => do
    let targets ← targetsOf (fun target : TcpAliasConfiguration =>
      TcpTarget.new target.host target.port (networkPolicy target.allowPrivate)) aliases
    validAliases targets
    .ok ("tcp_reachable", .tcp config.enabled targets)
  | .fileExists roots aliases => do
    let targets ← targetsOf FileTarget.new aliases
    let roots ← (roots.mapM (canonicalRoot files)).mapError fun _ => .validation
    validAliases targets
    let _ ← (targets.mapM fun entry => validateContainment files entry.2.path roots).mapError
      fun _ => .validation
    .ok ("file_exists", .file config.enabled roots targets)

/-- All four adapters, each once. -/
def buildSnapshot (x : UrlCrate) (files : FileSystem) (configs : List AdapterConfigView) :
    Except AdminError (AdapterSnapshot x) := do
  let adapters ← configs.mapM (buildAdapter x files)
  if (adapters.map Prod.fst).Nodup ∧ adapters.length = adapterNames.length then .ok adapters
  else .error .validation

/-- The configurations with one changed. -/
def withConfiguration (current : List AdapterConfigView) (updated : AdapterConfigView) :
    List AdapterConfigView :=
  current.map fun config => if config.adapterName = updated.adapterName then updated else config

/-- `adapters::candidate`: the changed configuration, and a snapshot of all. -/
def adapterCandidate (x : UrlCrate) (files : FileSystem) (current : List AdapterConfigView)
    (adapterName : String) (enabled : Bool) (configuration : AdapterConfiguration)
    (actorId occurredAt : String) :
    Except AdminError (AdapterConfigView × AdapterSnapshot x) := do
  validateNameMatches adapterName configuration
  match current.find? (·.adapterName = adapterName) with
  | none => .error .validation
  | some selected => do
    let updated : AdapterConfigView :=
      { selected with enabled := enabled
                      configuration := configuration
                      version := selected.version + 1
                      updatedAt := occurredAt
                      updatedBy := actorId }
    let snapshot ← buildSnapshot x files (withConfiguration current updated)
    .ok (updated, snapshot)

end RemindiCore.Admin
