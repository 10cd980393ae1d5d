import RemindiCore.Domain.Model
import RemindiCore.Lib.Fallible
import RemindiCore.Lib.Machine
import RemindiCore.Lib.Table

/-!
# The workloads

`WorkloadController` (`admin/workloads.rs`) starts and stops the MCP server and
the scheduler.  The desired state of each is a row of `service_runtime` with a
copy in memory, the actual state is in memory only.  The runtimes answer as they
like: a start or a stop may fail, and a workload may be found running or not at
every question.  One lock is held during a transition, and by a restore from
`quiesce_for_maintenance` until it drops its guard.
-/

namespace RemindiCore.Admin

open CivilTime Fallible KeyedTable

/-! ## Data -/

/-- A workload with a row of its own. -/
inductive Workload where
  | mcp
  | scheduler
deriving DecidableEq

inductive WorkloadComponent where
  | mcp
  | scheduler
  | all
deriving DecidableEq

inductive WorkloadAction where
  | start
  | stop
  | restart
deriving DecidableEq

inductive DesiredState where
  | running
  | stopped
deriving DecidableEq

inductive ActualState where
  | starting
  | running
  | stopping
  | stopped
  | failed
deriving DecidableEq

structure MutableStatus where
  desired : DesiredState
  actual : ActualState
  lastError : Option String
deriving DecidableEq

structure WorkloadStatus where
  component : Workload
  desired : DesiredState
  actual : ActualState
  lastError : Option String
deriving DecidableEq

inductive WorkloadError where
  | transitionConflict
  | invalidPersistedState
  | transitionFailed (component : Workload) (message : String)
deriving DecidableEq

/-- A row of `service_runtime`. -/
structure RuntimeRow where
  component : String
  desiredState : String
  version : Nat
  updatedAt : String
  updatedBy : String
deriving DecidableEq

structure WorkloadController where
  mcp : MutableStatus
  scheduler : MutableStatus
  serviceRuntime : Table RuntimeRow.component
  /-- A restore holds the transition lock. -/
  maintenance : Bool

def Workload.persistedName : Workload → String
  | .mcp => "mcp"
  | .scheduler => "scheduler"

def selectedComponents : WorkloadComponent → List Workload
  | .mcp => [.mcp]
  | .scheduler => [.scheduler]
  | .all => [.mcp, .scheduler]

def DesiredState.asStr : DesiredState → String
  | .running => "running"
  | .stopped => "stopped"

def parseDesired (value : String) : Option DesiredState :=
  if value = "running" then some .running
  else if value = "stopped" then some .stopped
  else none

def maxLastErrorBytes : Nat := 512

/-- The characters that fit into so many bytes. -/
def takeBytes : Nat → List Char → List Char
  | _, [] => []
  | limit, c :: cs => if c.utf8Size ≤ limit then c :: takeBytes (limit - c.utf8Size) cs else []

def boundError (error : String) : String :=
  if error.utf8ByteSize ≤ maxLastErrorBytes then error
  else String.ofList (takeBytes maxLastErrorBytes error.toList)

namespace WorkloadController

def status (s : WorkloadController) : Workload → MutableStatus
  | .mcp => s.mcp
  | .scheduler => s.scheduler

/-- `status_mut` -/
def setStatus (s : WorkloadController) (w : Workload) (status : MutableStatus) :
    WorkloadController :=
  match w with
  | .mcp => { s with mcp := status }
  | .scheduler => { s with scheduler := status }

def setDesired (s : WorkloadController) (selected : List Workload) (desired : DesiredState) :
    WorkloadController :=
  selected.foldl (fun s w => s.setStatus w { s.status w with desired := desired }) s

def setActual (s : WorkloadController) (w : Workload) (actual : ActualState)
    (lastError : Option String) : WorkloadController :=
  s.setStatus w { s.status w with actual := actual, lastError := lastError }

end WorkloadController

def initialStatus (desired : DesiredState) (running : Bool) : MutableStatus where
  desired := desired
  actual := if running then .running else .stopped
  lastError := none

def refreshRuntimeState (status : MutableStatus) (running : Bool) : MutableStatus :=
  if status.actual = .running ∧ running = false then
    { status with actual := .failed, lastError := some "workload exited unexpectedly" }
  else status

def snapshotOf (component : Workload) (status : MutableStatus) : WorkloadStatus where
  component := component
  desired := status.desired
  actual := status.actual
  lastError := status.lastError

/-! ## The rows -/

/-- One `UPDATE service_runtime … WHERE component = ?`. -/
def updateDesired (rows : Table RuntimeRow.component) (name : String) (desired : DesiredState)
    (occurredAt actorId : String) : Table RuntimeRow.component :=
  match rows.find? name with
  | none => rows
  | some row =>
    rows.replace { row with desiredState := desired.asStr, version := row.version + 1,
                            updatedAt := occurredAt, updatedBy := actorId }

def desiredOf : List RuntimeRow → Option DesiredState → Option DesiredState →
    Option (DesiredState × DesiredState)
  | [], mcp, scheduler => mcp.bind fun mcp => scheduler.map fun scheduler => (mcp, scheduler)
  | row :: rows, mcp, scheduler =>
    match parseDesired row.desiredState with
    | none => none
    | some desired =>
      if row.component = "mcp" then desiredOf rows (some desired) scheduler
      else if row.component = "scheduler" then desiredOf rows mcp (some desired)
      else none

/-- `load_desired` -/
def loadDesired (rows : Table RuntimeRow.component) : Option (DesiredState × DesiredState) :=
  desiredOf rows.rows none none

/-- `persist_desired`: one transaction; nothing when the clock has no timestamp. -/
def persistDesired (s : WorkloadController) (component : WorkloadComponent)
    (desired : DesiredState) (actorId : String) (now : OffsetDateTime) :
    Option WorkloadController :=
  match canonicalTimestamp now with
  | .error _ => none
  | .ok occurredAt =>
    some { s with
      serviceRuntime := (selectedComponents component).foldl (fun rows w =>
        updateDesired rows w.persistedName desired occurredAt actorId) s.serviceRuntime }

/-! ## Calls -/

inductive WorkloadCall where
  | tryLock
  | isRunning (w : Workload)
  | start (w : Workload)
  | stop (w : Workload)
  | setActual (w : Workload) (actual : ActualState) (lastError : Option String)
  | setDesired (component : WorkloadComponent) (desired : DesiredState)
  | persistDesired (component : WorkloadComponent) (desired : DesiredState) (actorId : String)
  | loadDesired
  | build (mcp scheduler : MutableStatus)
  | refresh (mcpRunning schedulerRunning : Bool)
  | hold
deriving DecidableEq

abbrev WorkloadValue : WorkloadCall → Type
  | .isRunning _ => Bool
  | .start _ | .stop _ => Except String Unit
  | .loadDesired => DesiredState × DesiredState
  | .refresh _ _ => List WorkloadStatus
  | _ => Unit

/-- What a runtime and the clock answer. -/
structure RuntimeAnswer where
  running : Bool
  result : Except String Unit
  now : OffsetDateTime

/-- A transaction that was not begun changes nothing. -/
def commit (s : WorkloadController) : Option WorkloadController →
    Option Unit × WorkloadController
  | none => (none, s)
  | some t => (some (), t)

def serveWorkload : (k : WorkloadCall) → RuntimeAnswer → WorkloadController →
    Option (WorkloadValue k) × WorkloadController
  | .tryLock, _, s => (if s.maintenance then none else some (), s)
  | .isRunning _, a, s => (some a.running, s)
  | .start _, a, s => (some a.result, s)
  | .stop _, a, s => (some a.result, s)
  | .setActual w actual lastError, _, s => (some (), s.setActual w actual lastError)
  | .setDesired component desired, _, s =>
    (some (), s.setDesired (selectedComponents component) desired)
  | .persistDesired component desired actorId, a, s =>
    commit s (Admin.persistDesired s component desired actorId a.now)
  | .loadDesired, _, s => (Admin.loadDesired s.serviceRuntime, s)
  | .build mcp scheduler, _, s => (some (), { s with mcp := mcp, scheduler := scheduler })
  | .refresh mcpRunning schedulerRunning, _, s =>
    let mcp := refreshRuntimeState s.mcp mcpRunning
    let scheduler := refreshRuntimeState s.scheduler schedulerRunning
    (some [snapshotOf .mcp mcp, snapshotOf .scheduler scheduler],
      { s with mcp := mcp, scheduler := scheduler })
  | .hold, _, s => (some (), { s with maintenance := true })

def runtimes : World WorkloadValue WorkloadController RuntimeAnswer Empty where
  serve := serveWorkload
  interfere := fun _ s => s

abbrev WorkloadProgram (α : Type) := Prog WorkloadValue WorkloadError α

/-! ## The controller -/

/-- A call, with the error for its failure. -/
def require (k : WorkloadCall) (e : WorkloadError) : WorkloadProgram (WorkloadValue k) :=
  Prog.perform k e

/-- A call that always has a value. -/
def ask (k : WorkloadCall) : WorkloadProgram (WorkloadValue k) := require k .invalidPersistedState

def setActual (w : Workload) (actual : ActualState) (lastError : Option String) :
    WorkloadProgram Unit :=
  ask (.setActual w actual lastError)

def fail (w : Workload) (error : String) : WorkloadProgram Unit := do
  let bounded := boundError error
  setActual w .failed (some bounded)
  .throw (.transitionFailed w bounded)

def applyAction (w : Workload) (action : WorkloadAction) : WorkloadProgram Unit := do
  let result ← (match action with
    | .start => do
      setActual w .starting none
      ask (.start w)
    | .stop => do
      setActual w .stopping none
      ask (.stop w)
    | .restart => do
      setActual w .stopping none
      match ← ask (.stop w) with
      | .error error => .pure (.error error)
      | .ok () => do
        setActual w .starting none
        ask (.start w) : WorkloadProgram (Except String Unit))
  match result with
  | .error error => fail w error
  | .ok () =>
    setActual w (match action with
      | .stop => .stopped
      | .start | .restart => .running) none

def reconcileComponent (w : Workload) (desired : DesiredState) : WorkloadProgram Unit := do
  let running ← ask (.isRunning w)
  match desired, running with
  | .running, false => applyAction w .start
  | .stopped, true => applyAction w .stop
  | .running, true => setActual w .running none
  | .stopped, false => setActual w .stopped none

/-- The statuses of MCP and scheduler, in this order. -/
def statuses : WorkloadProgram (List WorkloadStatus) := do
  let mcp ← ask (.isRunning .mcp)
  let scheduler ← ask (.isRunning .scheduler)
  ask (.refresh mcp scheduler)

def fromRuntimes : WorkloadProgram Unit := do
  let (mcp, scheduler) ← require .loadDesired .invalidPersistedState
  let mcpRunning ← ask (.isRunning .mcp)
  let schedulerRunning ← ask (.isRunning .scheduler)
  ask (.build (initialStatus mcp mcpRunning) (initialStatus scheduler schedulerRunning))
  reconcileComponent .mcp mcp
  reconcileComponent .scheduler scheduler

def applyAll (action : WorkloadAction) : List Workload → WorkloadProgram Unit
  | [] => .pure ()
  | w :: ws => do
    applyAction w action
    applyAll action ws

def transition (component : WorkloadComponent) (action : WorkloadAction) (actorId : String) :
    WorkloadProgram (List WorkloadStatus) := do
  require .tryLock .transitionConflict
  let desired : DesiredState := match action with
    | .stop => .stopped
    | .start | .restart => .running
  require (.persistDesired component desired actorId) .invalidPersistedState
  ask (.setDesired component desired)
  applyAll action (selectedComponents component)
  statuses

/-- Stop what is running. -/
def stopRunning : List Workload → WorkloadProgram Unit
  | [] => .pure ()
  | w :: ws => do
    if ← ask (.isRunning w) then applyAction w .stop
    stopRunning ws

def shutdown : WorkloadProgram Unit := stopRunning (selectedComponents .all)

/-- `let _ = self.apply_action(stopped_component, Start)` -/
def startAgain : List Workload → WorkloadProgram Unit
  | [] => .pure ()
  | w :: ws => do
    let _ ← (applyAction w .start).attempt
    startAgain ws

def quiesce : List Workload → List Workload → WorkloadProgram Unit
  | _, [] => .pure ()
  | stopped, w :: ws => do
    if ← ask (.isRunning w) then do
      match ← (applyAction w .stop).attempt with
      | .error error => do
        startAgain stopped.reverse
        .throw error
      | .ok () => quiesce (stopped ++ [w]) ws
    else quiesce stopped ws

def quiesceForMaintenance : WorkloadProgram Unit := do
  quiesce [] (selectedComponents .all)
  ask .hold

def restartFromPersisted : WorkloadProgram (List WorkloadStatus) := do
  let (mcp, scheduler) ← require .loadDesired .invalidPersistedState
  ask (.setDesired .mcp mcp)
  ask (.setDesired .scheduler scheduler)
  reconcileComponent .mcp mcp
  reconcileComponent .scheduler scheduler
  statuses

def quiesceAgain : WorkloadProgram Unit := stopRunning (selectedComponents .all)

/-! ## Runs -/

inductive WorkloadRequest where
  | transition (component : WorkloadComponent) (action : WorkloadAction) (actorId : String)
  | shutdown
  | quiesceForMaintenance
  | quiesceAgain
  | restartFromPersisted
  | status
  /-- The guard of the maintenance is dropped. -/
  | release
deriving DecidableEq

/-- A request with what the runtimes answer during it. -/
structure WorkloadLabel where
  request : WorkloadRequest
  answers : List RuntimeAnswer

structure WorkloadResponse where
  /-- None while the request waits for the lock, or for an answer. -/
  result : Option (Except WorkloadError (List WorkloadStatus))
  calls : List WorkloadCall

/-- The request has what it needs: the guard, or the lock for which it would wait. -/
def WorkloadRequest.enabled (maintenance : Bool) : WorkloadRequest → Bool
  | .transition .. | .status => true
  | .shutdown | .quiesceForMaintenance => !maintenance
  | .quiesceAgain | .restartFromPersisted | .release => maintenance

def WorkloadRequest.program : WorkloadRequest → WorkloadProgram (List WorkloadStatus)
  | .transition component action actorId => Admin.transition component action actorId
  | .shutdown => do
    Admin.shutdown
    .pure []
  | .quiesceForMaintenance => do
    Admin.quiesceForMaintenance
    .pure []
  | .quiesceAgain => do
    Admin.quiesceAgain
    .pure []
  | .restartFromPersisted => Admin.restartFromPersisted
  | .status => statuses
  | .release => .pure []

def callsOf (history : List (Step WorkloadCall Empty WorkloadController)) : List WorkloadCall :=
  history.filterMap fun step => match step.action with
    | .call k _ => some k
    | .event _ => none

/-- Run a request to its return; one that would wait, or lacks an answer, is not begun. -/
def workloadStep (s : WorkloadController) (l : WorkloadLabel) :
    WorkloadController × WorkloadResponse :=
  if l.request.enabled s.maintenance then
    let done := run runtimes (l.answers.map .answer) (.start s) l.request.program
    match done.2 with
    | none => (s, { result := none, calls := [] })
    | some result =>
      let after := if l.request = .release then { done.1.state with maintenance := false }
        else done.1.state
      (after, { result := some result, calls := callsOf done.1.history })
  else (s, { result := none, calls := [] })

end RemindiCore.Admin
