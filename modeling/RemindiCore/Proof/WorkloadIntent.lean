import RemindiCore.Admin.Workloads

/-!
# The desired state of the workloads

What is persisted and what is in memory agree after every request, whichever
starts and stops fail (`Coherent`).  Most programs of the controller make only
calls that leave both alone (`WorkloadCall.lifecycle`); the two that do not are
followed call by call.  While a restore holds its guard nothing is started,
because the programs that may run then make no such call (`WorkloadCall.resting`).
-/

namespace RemindiCore.Admin

open CivilTime Fallible KeyedTable Machine

variable {rows : Table RuntimeRow.component} {s t u : WorkloadController} {w : Workload}
  {desired : DesiredState}

/-! ## The rows -/

/-- The rows of `service_runtime` and the memory agree. -/
def Coherent (s : WorkloadController) : Prop :=
  loadDesired s.serviceRuntime = some (s.mcp.desired, s.scheduler.desired)

def RuntimeRow.known (row : RuntimeRow) : Prop :=
  (row.component = "mcp" ∨ row.component = "scheduler") ∧ (parseDesired row.desiredState).isSome

/-- The last word on a component. -/
def lastDesired (name : String) (rows : List RuntimeRow) (found : Option DesiredState) :
    Option DesiredState :=
  rows.foldl (fun found row => if row.component = name then parseDesired row.desiredState else found)
    found

theorem desiredOf_eq_some {rows : List RuntimeRow} {foundMcp foundScheduler : Option DesiredState}
    {mcp scheduler : DesiredState} :
    desiredOf rows foundMcp foundScheduler = some (mcp, scheduler) ↔ (∀ row ∈ rows, row.known) ∧
      lastDesired "mcp" rows foundMcp = some mcp ∧
        lastDesired "scheduler" rows foundScheduler = some scheduler := by
  induction rows generalizing foundMcp foundScheduler with
  | nil =>
    simp only [desiredOf, lastDesired, List.foldl_nil]
    cases foundMcp <;> cases foundScheduler <;> simp
  | cons row rows ih =>
    rw [List.forall_mem_cons]
    unfold desiredOf lastDesired RuntimeRow.known
    rw [List.foldl_cons, List.foldl_cons]
    cases hparse : parseDesired row.desiredState with
    | none => simp
    | some x =>
      dsimp only
      by_cases hmcp : row.component = "mcp"
      · have hother : row.component ≠ "scheduler" := by simp [hmcp]
        rw [if_pos hmcp, if_pos hmcp, if_neg hother, ih]
        simp [hmcp, lastDesired, RuntimeRow.known]
      · by_cases hscheduler : row.component = "scheduler"
        · rw [if_neg hmcp, if_pos hscheduler, if_neg hmcp, if_pos hscheduler, ih]
          simp [hscheduler, lastDesired, RuntimeRow.known]
        · rw [if_neg hmcp, if_neg hscheduler]
          simp [hmcp, hscheduler]

theorem lastDesired_of_not_mem {name : String} {rows : List RuntimeRow}
    (h : name ∉ rows.map RuntimeRow.component) (found : Option DesiredState) :
    lastDesired name rows found = found := by
  induction rows generalizing found with
  | nil => rfl
  | cons row rows ih =>
    rw [List.map_cons, List.mem_cons, not_or] at h
    unfold lastDesired
    rw [List.foldl_cons, if_neg fun heq => h.1 heq.symm]
    exact ih h.2 found

/-- An update of one component is the last word on it. -/
theorem lastDesired_replaced {name : String} {rows : List RuntimeRow} {row : RuntimeRow}
    (hname : row.component = name) (h : name ∈ rows.map RuntimeRow.component)
    (found : Option DesiredState) :
    lastDesired name (rows.map fun b => if b.component = row.component then row else b) found =
      parseDesired row.desiredState := by
  induction rows generalizing found with
  | nil => cases h
  | cons b rows ih =>
    unfold lastDesired
    rw [List.map_cons, List.foldl_cons]
    by_cases hrest : name ∈ rows.map RuntimeRow.component
    · exact ih hrest _
    · have hb : b.component = row.component := by
        rw [List.map_cons, List.mem_cons] at h
        rw [hname]
        exact (h.resolve_right hrest).symm
      have hrows : name ∉ (rows.map fun b => if b.component = row.component then row else b).map
          RuntimeRow.component := by
        rw [List.map_map]
        intro hmem
        obtain ⟨c, hc, hcomponent⟩ := List.mem_map.mp hmem
        refine hrest (List.mem_map.mpr ⟨c, hc, ?_⟩)
        simp only [Function.comp] at hcomponent
        split at hcomponent
        · next hsame => exact hsame.trans hcomponent
        · exact hcomponent
      rw [if_pos hb, if_pos hname]
      exact lastDesired_of_not_mem hrows _

/-- The other component is not touched. -/
theorem lastDesired_other {name : String} {rows : List RuntimeRow} {row : RuntimeRow}
    (hname : row.component ≠ name) (found : Option DesiredState) :
    lastDesired name (rows.map fun b => if b.component = row.component then row else b) found =
      lastDesired name rows found := by
  induction rows generalizing found with
  | nil => rfl
  | cons b rows ih =>
    unfold lastDesired
    rw [List.map_cons, List.foldl_cons, List.foldl_cons]
    by_cases hb : b.component = row.component
    · rw [if_pos hb, if_neg hname, if_neg (hb ▸ hname)]
      exact ih found
    · rw [if_neg hb]
      exact ih _

theorem parseDesired_asStr (desired : DesiredState) : parseDesired desired.asStr = some desired := by
  cases desired <;> decide

theorem lastDesired_mem {name : String} {rows : List RuntimeRow} {desired : DesiredState}
    (h : lastDesired name rows none = some desired) : name ∈ rows.map RuntimeRow.component := by
  by_contra hnot
  rw [lastDesired_of_not_mem hnot] at h
  cases h

/-- **An `UPDATE` sets what will be loaded.** -/
theorem loadDesired_updateDesired {mcp scheduler : DesiredState} (occurredAt actorId : String)
    (h : loadDesired rows = some (mcp, scheduler)) :
    loadDesired (updateDesired rows w.persistedName desired occurredAt actorId) =
      some (match w with
        | .mcp => (desired, scheduler)
        | .scheduler => (mcp, desired)) := by
  obtain ⟨hknown, hmcp, hscheduler⟩ := desiredOf_eq_some.mp h
  have hmem : w.persistedName ∈ rows.rows.map RuntimeRow.component := by
    cases w with
    | mcp => exact lastDesired_mem hmcp
    | scheduler => exact lastDesired_mem hscheduler
  obtain ⟨row, hrow, hname⟩ := List.mem_map.mp hmem
  have hfind : rows.find? w.persistedName = some row := Table.find?_eq_some.mpr ⟨hrow, hname⟩
  unfold updateDesired
  rw [hfind]
  dsimp only
  generalize hnew : ({ row with desiredState := desired.asStr, version := row.version + 1,
                                updatedAt := occurredAt, updatedBy := actorId } : RuntimeRow) = new
  have hcomponent : new.component = w.persistedName := by rw [← hnew, ← hname]
  have hparse : parseDesired new.desiredState = some desired := by
    rw [← hnew]
    exact parseDesired_asStr desired
  have hknown' : ∀ b ∈ (rows.replace new).rows, b.known := by
    intro b hb
    rcases Table.mem_replace.mp hb with ⟨hb, -⟩ | ⟨rfl, -⟩
    · exact hknown b hb
    · refine ⟨?_, by rw [hparse]; rfl⟩
      rw [hcomponent]
      cases w with
      | mcp => exact Or.inl rfl
      | scheduler => exact Or.inr rfl
  unfold loadDesired
  cases w with
  | mcp =>
    refine desiredOf_eq_some.mpr ⟨hknown', ?_, ?_⟩
    · exact (lastDesired_replaced hcomponent hmem none).trans hparse
    · refine (lastDesired_other ?_ none).trans hscheduler
      rw [hcomponent]
      decide
  | scheduler =>
    refine desiredOf_eq_some.mpr ⟨hknown', ?_, ?_⟩
    · refine (lastDesired_other ?_ none).trans hmcp
      rw [hcomponent]
      decide
    · exact (lastDesired_replaced hcomponent hmem none).trans hparse

/-! ## Memory -/

/-- The desired states, their rows and the lock are as they were. -/
structure Kept (s t : WorkloadController) : Prop where
  mcp : t.mcp.desired = s.mcp.desired
  scheduler : t.scheduler.desired = s.scheduler.desired
  serviceRuntime : t.serviceRuntime = s.serviceRuntime
  maintenance : t.maintenance = s.maintenance

theorem Kept.refl (s : WorkloadController) : Kept s s := ⟨rfl, rfl, rfl, rfl⟩

theorem Kept.trans (h : Kept s t) (h' : Kept t u) : Kept s u where
  mcp := h'.mcp.trans h.mcp
  scheduler := h'.scheduler.trans h.scheduler
  serviceRuntime := h'.serviceRuntime.trans h.serviceRuntime
  maintenance := h'.maintenance.trans h.maintenance

theorem Kept.coherent (h : Kept s t) (hs : Coherent s) : Coherent t := by
  unfold Coherent
  rw [h.mcp, h.scheduler, h.serviceRuntime]
  exact hs

theorem setActual_kept (w : Workload) (actual : ActualState) (lastError : Option String) :
    Kept s (s.setActual w actual lastError) := by
  cases w <;> exact ⟨rfl, rfl, rfl, rfl⟩

theorem refreshRuntimeState_desired (status : MutableStatus) (running : Bool) :
    (refreshRuntimeState status running).desired = status.desired := by
  unfold refreshRuntimeState
  split <;> rfl

theorem setDesired_rows (selected : List Workload) :
    (s.setDesired selected desired).serviceRuntime = s.serviceRuntime ∧
      (s.setDesired selected desired).maintenance = s.maintenance := by
  induction selected generalizing s with
  | nil => exact ⟨rfl, rfl⟩
  | cons w selected ih =>
    have hrest := ih (s := s.setStatus w { s.status w with desired := desired })
    cases w <;> exact hrest

/-- What is persisted and then written to memory agrees again. -/
theorem loadDesired_persisted (selected : List Workload) (occurredAt actorId : String)
    (h : loadDesired rows = some (s.mcp.desired, s.scheduler.desired)) :
    loadDesired (selected.foldl (fun rows w =>
        updateDesired rows w.persistedName desired occurredAt actorId) rows) =
      some ((s.setDesired selected desired).mcp.desired,
        (s.setDesired selected desired).scheduler.desired) := by
  induction selected generalizing rows s with
  | nil => exact h
  | cons w selected ih =>
    refine ih (s := s.setStatus w { s.status w with desired := desired }) ?_
    rw [loadDesired_updateDesired (w := w) occurredAt actorId h]
    cases w <;> rfl

/-! ## The calls of a program -/

/-- Calls that neither start a workload nor change a desired state. -/
def WorkloadCall.resting : WorkloadCall → Bool
  | .isRunning _ | .stop _ | .setActual .. | .refresh .. => true
  | _ => false

/-- The same, and starts. -/
def WorkloadCall.lifecycle : WorkloadCall → Bool
  | .start _ => true
  | k => k.resting

theorem serveWorkload_kept {k : WorkloadCall} (h : k.lifecycle = true) (a : RuntimeAnswer) :
    Kept s (serveWorkload k a s).2 := by
  cases k with
  | isRunning | start | stop => exact .refl s
  | setActual w actual lastError => exact setActual_kept w actual lastError
  | refresh mcp scheduler =>
    exact ⟨refreshRuntimeState_desired _ _, refreshRuntimeState_desired _ _, rfl, rfl⟩
  | tryLock | setDesired | persistDesired | loadDesired | build | hold => cases h

abbrev Resting {α : Type} (m : WorkloadProgram α) : Prop := m.Makes fun k => k.resting = true

abbrev Lifecycle {α : Type} (m : WorkloadProgram α) : Prop := m.Makes fun k => k.lifecycle = true

theorem ask_makes {K : WorkloadCall → Prop} {k : WorkloadCall} (h : K k) : (ask k).Makes K :=
  Prog.Makes.perform h

theorem applyAction_makes {K : WorkloadCall → Prop} {action : WorkloadAction}
    (hset : ∀ actual lastError, K (.setActual w actual lastError)) (hstop : K (.stop w))
    (hstart : action ≠ .stop → K (.start w)) : (applyAction w action).Makes K := by
  have hfail : ∀ error, (fail w error).Makes K := fun error =>
    Prog.Makes.bind (ask_makes (hset _ _)) fun _ => trivial
  unfold applyAction
  refine Prog.Makes.bind ?_ fun result => ?_
  · cases action with
    | start => exact Prog.Makes.bind (ask_makes (hset _ _)) fun _ => ask_makes (hstart nofun)
    | stop => exact Prog.Makes.bind (ask_makes (hset _ _)) fun _ => ask_makes hstop
    | restart =>
      refine Prog.Makes.bind (ask_makes (hset _ _)) fun _ => ?_
      refine Prog.Makes.bind (ask_makes hstop) fun stopped => ?_
      cases stopped with
      | error error => trivial
      | ok =>
        exact Prog.Makes.bind (ask_makes (hset _ _)) fun _ => ask_makes (hstart nofun)
  · cases result with
    | error error => exact hfail error
    | ok => exact ask_makes (hset _ _)

theorem applyAction_lifecycle (w : Workload) (action : WorkloadAction) :
    Lifecycle (applyAction w action) :=
  applyAction_makes (fun _ _ => rfl) rfl fun _ => rfl

theorem stopRunning_resting (ws : List Workload) : Resting (stopRunning ws) := by
  induction ws with
  | nil => trivial
  | cons w ws ih =>
    refine Prog.Makes.bind (ask_makes rfl) fun running => ?_
    cases running with
    | false => exact ih
    | true =>
      have hstop : Resting (applyAction w .stop) :=
        applyAction_makes (fun _ _ => rfl) rfl fun h => absurd rfl h
      exact Prog.Makes.bind hstop fun _ => ih

theorem statuses_resting : Resting statuses :=
  Prog.Makes.bind (ask_makes rfl) fun _ => Prog.Makes.bind (ask_makes rfl) fun _ => ask_makes rfl

theorem reconcileComponent_lifecycle (w : Workload) (desired : DesiredState) :
    Lifecycle (reconcileComponent w desired) := by
  refine Prog.Makes.bind (ask_makes rfl) fun running => ?_
  cases desired <;> cases running
  · exact applyAction_lifecycle w .start
  · exact ask_makes rfl
  · exact ask_makes rfl
  · exact applyAction_lifecycle w .stop

theorem applyAll_lifecycle (action : WorkloadAction) (ws : List Workload) :
    Lifecycle (applyAll action ws) := by
  induction ws with
  | nil => trivial
  | cons w ws ih => exact Prog.Makes.bind (applyAction_lifecycle w action) fun _ => ih

theorem startAgain_lifecycle (ws : List Workload) : Lifecycle (startAgain ws) := by
  induction ws with
  | nil => trivial
  | cons w ws ih =>
    exact Prog.Makes.bind (Prog.Makes.attempt (applyAction_lifecycle w .start)) fun _ => ih

theorem quiesce_lifecycle (stopped ws : List Workload) : Lifecycle (quiesce stopped ws) := by
  induction ws generalizing stopped with
  | nil => trivial
  | cons w ws ih =>
    refine Prog.Makes.bind (ask_makes rfl) fun running => ?_
    cases running with
    | false => exact ih stopped
    | true =>
      refine Prog.Makes.bind (Prog.Makes.attempt (applyAction_lifecycle w .stop)) fun result => ?_
      cases result with
      | error error => exact Prog.Makes.bind (startAgain_lifecycle _) fun _ => trivial
      | ok => exact ih (stopped ++ [w])

theorem Resting.lifecycle {α : Type} {m : WorkloadProgram α} (h : Resting m) : Lifecycle m := by
  induction m with
  | pure a => trivial
  | throw e => trivial
  | call k next ih =>
    refine ⟨?_, fun reply => ih reply (h.2 reply)⟩
    cases k with
    | start => rfl
    | _ => exact h.1

/-! ## The programs -/

/-- What holds when a program returns, whatever the runtimes answer. -/
abbrev Leaves {α : Type} (post : Except WorkloadError α → WorkloadController → Prop)
    (m : WorkloadProgram α) (s : WorkloadController) : Prop :=
  Ensures runtimes (fun _ => True) (fun _ => True) post m s

theorem Lifecycle.leaves {α : Type} {m : WorkloadProgram α} (h : Lifecycle m)
    (s : WorkloadController) : Leaves (fun _ t => Kept s t) m s :=
  Ensures.keep h (fun _ _ => trivial) (fun _ hk _ a _ ht => ht.trans (serveWorkload_kept hk a))
    (.refl s)

/-- A call with a value goes on from the state that it leaves. -/
theorem leaves_ask {k : WorkloadCall} {e : WorkloadError}
    {post : Except WorkloadError (WorkloadValue k) → WorkloadController → Prop}
    (hok : ∀ a value, (serveWorkload k a s).1 = some value →
      post (.ok value) (serveWorkload k a s).2)
    (herror : ∀ a, (serveWorkload k a s).1 = none → post (.error e) (serveWorkload k a s).2) :
    Leaves post (require k e) s :=
  Ensures.perform trivial (fun a value _ h => hok a value h) fun a _ h => herror a h

/-- A call whose value and effect are known. -/
theorem leaves_effect {α : Type} {k : WorkloadCall} {value : WorkloadValue k}
    {next : WorkloadValue k → WorkloadProgram α}
    {post : Except WorkloadError α → WorkloadController → Prop}
    (hserve : ∀ a, serveWorkload k a s = (some value, t)) (hnext : Leaves post (next value) t) :
    Leaves post ((ask k).bind next) s := by
  refine Ensures.bind (leaves_ask (fun a value' hvalue => ?_) fun a hnone => ?_)
  · rw [hserve] at hvalue ⊢
    obtain rfl := Option.some.inj hvalue
    exact hnext
  · rw [hserve] at hnone
    cases hnone

/-- A question to a runtime changes nothing. -/
theorem leaves_isRunning {α : Type} {next : Bool → WorkloadProgram α}
    {post : Except WorkloadError α → WorkloadController → Prop}
    (hnext : ∀ running, Leaves post (next running) s) :
    Leaves post ((ask (.isRunning w)).bind next) s :=
  Ensures.bind (leaves_ask (k := .isRunning w) (fun _ running _ => hnext running)
    fun _ hnone => by cases hnone)

/-- The rows that are persisted agree with the memory that is to be written. -/
theorem persistDesired_coherent {component : WorkloadComponent} {actorId : String}
    {now : OffsetDateTime} (h : persistDesired s component desired actorId now = some t)
    (hs : Coherent s) :
    Coherent (t.setDesired (selectedComponents component) desired) ∧
      t.maintenance = s.maintenance := by
  unfold persistDesired at h
  cases hnow : canonicalTimestamp now with
  | error e =>
    rw [hnow] at h
    cases h
  | ok occurredAt =>
    rw [hnow] at h
    obtain rfl := Option.some.inj h
    refine ⟨?_, rfl⟩
    unfold Coherent
    rw [(setDesired_rows _).1]
    exact loadDesired_persisted _ occurredAt actorId hs

/-- The part of a transition after the rows have been updated. -/
theorem applied_leaves {selected : List Workload} {component : WorkloadComponent}
    {action : WorkloadAction} (hselected : selected = selectedComponents component)
    (hcoherent : Coherent (s.setDesired selected desired)) :
    Leaves (fun _ t => Coherent t ∧ t.maintenance = s.maintenance)
      ((ask (.setDesired component desired)).bind fun _ =>
        (applyAll action selected).bind fun _ => statuses) s := by
  subst hselected
  refine leaves_effect (fun _ => rfl) ?_
  have hmaintenance :
      (s.setDesired (selectedComponents component) desired).maintenance = s.maintenance :=
    (setDesired_rows (selectedComponents component)).2
  have hfollow : Lifecycle ((applyAll action (selectedComponents component)).bind
      fun _ => statuses) :=
    Prog.Makes.bind (applyAll_lifecycle _ _) fun _ => statuses_resting.lifecycle
  refine (hfollow.leaves _).mono fun _ t ht => ?_
  exact ⟨ht.coherent hcoherent, ht.maintenance.trans hmaintenance⟩

theorem serve_persistDesired (component : WorkloadComponent) (actorId : String)
    (a : RuntimeAnswer) (s : WorkloadController) :
    serveWorkload (.persistDesired component desired actorId) a s =
      commit s (persistDesired s component desired actorId a.now) :=
  rfl

/-- The part of a transition behind the lock. -/
theorem persisted_leaves {component : WorkloadComponent} {action : WorkloadAction}
    {actorId : String} (hs : Coherent s) :
    Leaves (fun _ t => Coherent t ∧ t.maintenance = s.maintenance)
      ((require (.persistDesired component desired actorId) .invalidPersistedState).bind fun _ =>
        (ask (.setDesired component desired)).bind fun _ =>
          (applyAll action (selectedComponents component)).bind fun _ => statuses) s := by
  refine Ensures.bind (leaves_ask (k := .persistDesired component desired actorId)
    (fun a _ hpersisted => ?_) fun a hfailed => ?_)
  · rw [serve_persistDesired] at hpersisted ⊢
    cases hstored : persistDesired s component desired actorId a.now with
    | none =>
      rw [hstored] at hpersisted
      cases hpersisted
    | some stored =>
      obtain ⟨hcoherent, hmaintenance⟩ := persistDesired_coherent hstored hs
      refine (applied_leaves rfl hcoherent).mono fun _ t ht => ⟨ht.1, ht.2.trans hmaintenance⟩
  · rw [serve_persistDesired] at hfailed ⊢
    cases hstored : persistDesired s component desired actorId a.now with
    | none => exact ⟨hs, rfl⟩
    | some stored =>
      rw [hstored] at hfailed
      cases hfailed

/-- While the lock is taken a transition is refused, and otherwise it leaves rows and
memory in agreement. -/
theorem transition_leaves {component : WorkloadComponent} {action : WorkloadAction}
    {actorId : String} (hs : Coherent s) :
    Leaves (fun result t => Coherent t ∧ t.maintenance = s.maintenance ∧
      (s.maintenance = true → result = .error .transitionConflict))
      (transition component action actorId) s := by
  unfold transition
  refine Ensures.bind (leaves_ask (k := .tryLock) (fun a _ hunlocked => ?_) fun _ _ =>
    ⟨hs, rfl, fun _ => rfl⟩)
  cases hlocked : s.maintenance with
  | true =>
    have hrefused : (serveWorkload .tryLock a s).1 = none := if_pos hlocked
    rw [hrefused] at hunlocked
    cases hunlocked
  | false =>
    refine (persisted_leaves hs).mono fun _ t ht => ?_
    exact ⟨ht.1, ht.2.trans hlocked, nofun⟩

/-- The desired states are loaded, written to memory, and both workloads follow. -/
theorem reconciled_leaves {mcp scheduler : DesiredState}
    (hrows : loadDesired s.serviceRuntime = some (mcp, scheduler)) :
    Leaves (fun _ t => Coherent t ∧ t.serviceRuntime = s.serviceRuntime ∧
      t.maintenance = s.maintenance) (do
      ask (.setDesired .mcp mcp)
      ask (.setDesired .scheduler scheduler)
      reconcileComponent .mcp mcp
      reconcileComponent .scheduler scheduler
      statuses) s := by
  simp only [Prog.bind_eq]
  refine leaves_effect (fun _ => rfl) ?_
  refine leaves_effect (fun _ => rfl) ?_
  have hfollow : Lifecycle ((reconcileComponent .mcp mcp).bind fun _ =>
      (reconcileComponent .scheduler scheduler).bind fun _ => statuses) :=
    Prog.Makes.bind (reconcileComponent_lifecycle _ _) fun _ =>
      Prog.Makes.bind (reconcileComponent_lifecycle _ _) fun _ => statuses_resting.lifecycle
  refine (hfollow.leaves _).mono fun _ t ht => ?_
  exact ⟨ht.coherent hrows, ht.serviceRuntime, ht.maintenance⟩

theorem loadDesired_leaves {α : Type} {next : DesiredState × DesiredState → WorkloadProgram α}
    {post : Except WorkloadError α → WorkloadController → Prop}
    (hloaded : ∀ mcp scheduler, loadDesired s.serviceRuntime = some (mcp, scheduler) →
      Leaves post (next (mcp, scheduler)) s)
    (hfailed : post (.error .invalidPersistedState) s) :
    Leaves post ((require .loadDesired .invalidPersistedState).bind next) s :=
  Ensures.bind (leaves_ask (k := .loadDesired) (fun _ loaded h => hloaded loaded.1 loaded.2 h)
    fun _ _ => hfailed)

theorem restartFromPersisted_leaves (hs : Coherent s) :
    Leaves (fun _ t => Coherent t ∧ t.serviceRuntime = s.serviceRuntime ∧
      t.maintenance = s.maintenance) restartFromPersisted s :=
  loadDesired_leaves (fun _ _ hrows => reconciled_leaves hrows) ⟨hs, rfl, rfl⟩

/-- A controller that is built has read the rows. -/
theorem fromRuntimes_leaves :
    Leaves (fun result t => result = .ok () → Coherent t ∧ t.maintenance = s.maintenance)
      fromRuntimes s := by
  refine loadDesired_leaves (fun mcp scheduler hrows => ?_) nofun
  dsimp only
  simp only [Prog.bind_eq]
  refine leaves_isRunning fun mcpRunning => ?_
  refine leaves_isRunning fun schedulerRunning => ?_
  refine leaves_effect (fun _ => rfl) ?_
  have hfollow : Lifecycle ((reconcileComponent .mcp mcp).bind fun _ =>
      reconcileComponent .scheduler scheduler) :=
    Prog.Makes.bind (reconcileComponent_lifecycle _ _) fun _ => reconcileComponent_lifecycle _ _
  refine (hfollow.leaves _).mono fun _ t ht _ => ?_
  exact ⟨ht.coherent hrows, ht.maintenance⟩

/-- A workload that cannot be stopped undoes the quiescence, and the lock is free again. -/
theorem quiesceForMaintenance_leaves (hs : Coherent s) :
    Leaves (fun result t => Coherent t ∧ t.serviceRuntime = s.serviceRuntime ∧
      t.maintenance = (s.maintenance || result.isOk)) quiesceForMaintenance s := by
  unfold quiesceForMaintenance
  refine Ensures.bind (((quiesce_lifecycle [] _).leaves s).mono fun result t ht => ?_)
  cases result with
  | error e => exact ⟨ht.coherent hs, ht.serviceRuntime, ht.maintenance.trans (Bool.or_false _).symm⟩
  | ok _ =>
    refine leaves_ask (k := .hold) (fun _ _ _ => ?_) fun _ hfailed => by cases hfailed
    exact ⟨ht.coherent hs, ht.serviceRuntime, (Bool.or_true _).symm⟩

/-! ## Requests -/

def WorkloadRequest.isTransition : WorkloadRequest → Bool
  | .transition .. => true
  | _ => false

/-- What a request has done when it returns. -/
structure Handled (request : WorkloadRequest) (s : WorkloadController)
    (result : Except WorkloadError (List WorkloadStatus)) (t : WorkloadController) : Prop where
  coherent : Coherent t
  persisted : request.isTransition = false → t.serviceRuntime = s.serviceRuntime
  maintenance : t.maintenance =
    (s.maintenance || (decide (request = .quiesceForMaintenance) && result.isOk))
  refused : request.isTransition = true → s.maintenance = true →
    result = .error .transitionConflict

/-- A request that is no transition and takes no lock. -/
theorem Handled.of_kept {request : WorkloadRequest}
    {result : Except WorkloadError (List WorkloadStatus)}
    (hrequest : request.isTransition = false) (hlock : request ≠ .quiesceForMaintenance)
    (hcoherent : Coherent t) (hrows : t.serviceRuntime = s.serviceRuntime)
    (hmaintenance : t.maintenance = s.maintenance) : Handled request s result t where
  coherent := hcoherent
  persisted := fun _ => hrows
  maintenance := by
    rw [hmaintenance, decide_eq_false hlock]
    exact (Bool.or_false _).symm
  refused := by
    intro h
    rw [hrequest] at h
    cases h

theorem Lifecycle.handled {request : WorkloadRequest} {m : WorkloadProgram (List WorkloadStatus)}
    (hm : Lifecycle m) (hrequest : request.isTransition = false)
    (hlock : request ≠ .quiesceForMaintenance) (hs : Coherent s) :
    Leaves (Handled request s) m s :=
  (hm.leaves s).mono fun _ _ ht =>
    .of_kept hrequest hlock (ht.coherent hs) ht.serviceRuntime ht.maintenance

/-- A program without a result of its own. -/
theorem Lifecycle.unit {m : WorkloadProgram Unit} (hm : Lifecycle m) :
    Lifecycle (m.bind fun _ => .pure ([] : List WorkloadStatus)) :=
  Prog.Makes.bind hm fun _ => trivial

/-- **What one request does.** -/
theorem program_leaves (request : WorkloadRequest) (hs : Coherent s) :
    Leaves (Handled request s) request.program s := by
  cases request with
  | transition component action actorId =>
    refine (transition_leaves hs).mono fun result t ⟨hcoherent, hmaintenance, hrefused⟩ => ?_
    exact ⟨hcoherent, nofun, hmaintenance.trans (Bool.or_false _).symm, fun _ => hrefused⟩
  | shutdown =>
    exact (stopRunning_resting _).lifecycle.unit.handled rfl nofun hs
  | quiesceForMaintenance =>
    refine Ensures.bind ((quiesceForMaintenance_leaves hs).mono fun result t ht => ?_)
    obtain ⟨hcoherent, hrows, hmaintenance⟩ := ht
    cases result <;> exact ⟨hcoherent, fun _ => hrows, hmaintenance, nofun⟩
  | quiesceAgain =>
    exact (stopRunning_resting _).lifecycle.unit.handled rfl nofun hs
  | restartFromPersisted =>
    refine (restartFromPersisted_leaves hs).mono fun _ t ⟨hcoherent, hrows, hmaintenance⟩ => ?_
    exact .of_kept rfl nofun hcoherent hrows hmaintenance
  | status => exact statuses_resting.lifecycle.handled rfl nofun hs
  | release => exact .of_kept rfl nofun hs rfl rfl

/-- A request is not begun, or runs to its return. -/
inductive Took (s : WorkloadController) (l : WorkloadLabel) :
    WorkloadController × WorkloadResponse → Prop
  | waits : Took s l (s, { result := none, calls := [] })
  | returned {done : Config WorkloadCall Empty WorkloadController}
      {result : Except WorkloadError (List WorkloadStatus)}
      (enabled : l.request.enabled s.maintenance = true)
      (hrun : run runtimes (l.answers.map .answer) (.start s) l.request.program =
        (done, some result)) :
      Took s l (if l.request = .release then { done.state with maintenance := false } else done.state,
        { result := some result, calls := callsOf done.history })

theorem workloadStep_took (s : WorkloadController) (l : WorkloadLabel) :
    Took s l (workloadStep s l) := by
  unfold workloadStep
  split
  · next henabled =>
    rcases hrun : run runtimes (l.answers.map .answer) (.start s) l.request.program with
      ⟨done, _ | result⟩
    · exact .waits
    · exact .returned henabled hrun
  · exact .waits

theorem mem_callsOf {history : List (Fallible.Step WorkloadCall Empty WorkloadController)}
    {k : WorkloadCall} (h : k ∈ callsOf history) :
    ∃ step ∈ history, ∃ failed, step.action = .call k failed := by
  unfold callsOf at h
  obtain ⟨step, hstep, hk⟩ := List.mem_filterMap.mp h
  cases haction : step.action with
  | call k' failed =>
    rw [haction] at hk
    obtain rfl := Option.some.inj hk
    exact ⟨step, hstep, failed, haction⟩
  | event e => cases e

theorem Resting.calls {α : Type} {m : WorkloadProgram α} (h : Resting m)
    (answers : List RuntimeAnswer) (s : WorkloadController) :
    ∀ k ∈ callsOf (run runtimes (answers.map .answer) (.start s) m).1.history, ∀ w,
      k ≠ .start w := by
  rintro k hk w rfl
  obtain ⟨step, hstep, failed, haction⟩ := mem_callsOf hk
  exact Bool.false_ne_true (h.history _ s hstep haction)

/-- No workload is started, and no transition succeeds. -/
structure Quiet (e : Entry WorkloadController WorkloadLabel WorkloadResponse) : Prop where
  starts : ∀ k ∈ e.response.calls, ∀ w, k ≠ .start w
  transitions : e.label.request.isTransition = true →
    ∀ statuses, e.response.result ≠ some (.ok statuses)

/-- While a restore holds the lock, a transition does nothing but ask for it. -/
theorem transition_refused_calls {component : WorkloadComponent} {action : WorkloadAction}
    {actorId : String} (hlocked : s.maintenance = true) (answers : List RuntimeAnswer) :
    ∀ k ∈ callsOf (run runtimes (answers.map .answer) (.start s)
      (transition component action actorId)).1.history, ∀ w, k ≠ .start w := by
  cases answers with
  | nil => exact fun k hk => (List.not_mem_nil hk).elim
  | cons a answers =>
    have hreply : (serveWorkload .tryLock a s).1 = none := if_pos hlocked
    have hrun : run runtimes (.answer a :: answers.map .answer) (.start s)
        (transition component action actorId) =
          (Config.served runtimes (.start s) .tryLock a, some (.error .transitionConflict)) :=
      run_perform_none hreply _
    rw [List.map_cons, hrun]
    intro k hk w
    obtain rfl := List.mem_singleton.mp hk
    nofun

/-- **One step**: rows and memory stay in agreement, only a transition changes the
rows, and under the lock only a restart and its end may start anything again. -/
structure Intent (s : WorkloadController) (l : WorkloadLabel)
    (out : WorkloadController × WorkloadResponse) : Prop where
  coherent : Coherent out.1
  persisted : l.request.isTransition = false → out.1.serviceRuntime = s.serviceRuntime
  locked : s.maintenance = true → l.request ≠ .restartFromPersisted → l.request ≠ .release →
    out.1.maintenance = true ∧
      Quiet { before := s, label := l, response := out.2, after := out.1 }
  quiesced : l.request = .quiesceForMaintenance →
    (∃ statuses, out.2.result = some (.ok statuses)) → out.1.maintenance = true

/-- The calls of a request under the lock. -/
theorem locked_calls {l : WorkloadLabel} (hlocked : s.maintenance = true)
    (henabled : l.request.enabled s.maintenance = true) (hrestart : l.request ≠ .restartFromPersisted) :
    ∀ k ∈ callsOf (run runtimes (l.answers.map .answer) (.start s) l.request.program).1.history,
      ∀ w, k ≠ .start w := by
  have hquiet : Resting (quiesceAgain.bind fun _ => .pure ([] : List WorkloadStatus)) :=
    Prog.Makes.bind (stopRunning_resting _) fun _ => trivial
  rw [hlocked] at henabled
  cases hrequest : l.request with
  | transition component action actorId => exact transition_refused_calls hlocked l.answers
  | quiesceAgain => exact hquiet.calls l.answers s
  | status => exact statuses_resting.calls l.answers s
  | release =>
    have hnone : Resting (.pure [] : WorkloadProgram (List WorkloadStatus)) := trivial
    exact hnone.calls l.answers s
  | restartFromPersisted => exact absurd hrequest hrestart
  | shutdown | quiesceForMaintenance =>
    rw [hrequest] at henabled
    cases henabled

theorem Took.intent {l : WorkloadLabel} {out : WorkloadController × WorkloadResponse}
    (h : Took s l out) (hs : Coherent s) : Intent s l out := by
  cases h with
  | waits =>
    refine ⟨hs, fun _ => rfl, fun hlocked _ _ => ⟨hlocked, ?_⟩, fun _ ⟨_, hresult⟩ => nomatch hresult⟩
    exact ⟨fun k hk => (List.not_mem_nil hk).elim, fun _ _ => nofun⟩
  | @returned done result henabled hrun =>
    have hdone : (run runtimes (l.answers.map .answer) (.start s) l.request.program).2 =
        some result := congrArg Prod.snd hrun
    have hstate : (run runtimes (l.answers.map .answer) (.start s) l.request.program).1 = done :=
      congrArg Prod.fst hrun
    have hhandled : Handled l.request s result done.state := by
      have hafter := ((program_leaves l.request hs).run l.answers
        fun _ _ => trivial).1 result hdone
      rw [hstate] at hafter
      exact hafter
    refine ⟨?_, fun hrequest => ?_, fun hlocked hrestart hrelease => ⟨?_, ?_, ?_⟩, fun hquiesce hok => ?_⟩
    · split
      · exact hhandled.coherent
      · exact hhandled.coherent
    · refine Eq.trans ?_ (hhandled.persisted hrequest)
      split <;> rfl
    · rw [if_neg hrelease, hhandled.maintenance, hlocked]
      rfl
    · have hcalls := locked_calls hlocked henabled hrestart
      rw [hstate] at hcalls
      exact hcalls
    · intro htransition statuses hsome
      obtain rfl := Option.some.inj hsome
      cases hhandled.refused htransition hlocked
    · obtain ⟨statuses, hsome⟩ := hok
      obtain rfl := Option.some.inj hsome
      rw [if_neg (by rw [hquiesce]; nofun), hhandled.maintenance, hquiesce]
      exact Bool.or_true _

theorem workloadStep_intent (hs : Coherent s) (l : WorkloadLabel) :
    Intent s l (workloadStep s l) :=
  (workloadStep_took s l).intent hs

/-! ## Runs -/

/-- A controller that has been built from these rows, whichever runtimes it found. -/
def Built (s : WorkloadController) : Prop :=
  ∃ (before : WorkloadController) (answers : List RuntimeAnswer), before.maintenance = false ∧
    (run runtimes (answers.map .answer) (.start before) fromRuntimes).2 = some (.ok ()) ∧
      (run runtimes (answers.map .answer) (.start before) fromRuntimes).1.state = s

theorem Built.coherent (h : Built s) : Coherent s := by
  obtain ⟨before, answers, -, hok, rfl⟩ := h
  exact (((fromRuntimes_leaves (s := before)).run answers fun _ _ => trivial).1 _ hok rfl).1

theorem final_coherent (hs : Coherent s) (ls : List WorkloadLabel) :
    Coherent (final workloadStep s ls) :=
  invariant_final hs (fun _ l ht => (workloadStep_intent ht l).coherent) ls

/-- Under the lock nothing is started until a restart, or the end of the maintenance. -/
theorem locked_history (hs : Coherent s) (hlocked : s.maintenance = true) (ls : List WorkloadLabel)
    (hls : ∀ l ∈ ls, l.request ≠ .restartFromPersisted ∧ l.request ≠ .release) :
    ∀ e ∈ history workloadStep s ls, Quiet e := by
  have hrun : (∀ l ∈ ls, l.request ≠ .restartFromPersisted ∧ l.request ≠ .release) →
      (Coherent (final workloadStep s ls) ∧ (final workloadStep s ls).maintenance = true) ∧
        ∀ e ∈ history workloadStep s ls, Quiet e := by
    refine run_induction_on (P := fun ks h t =>
      (∀ l ∈ ks, l.request ≠ .restartFromPersisted ∧ l.request ≠ .release) →
        (Coherent t ∧ t.maintenance = true) ∧ ∀ e ∈ h, Quiet e) ?_ ?_ ls
    · exact fun _ => ⟨⟨hs, hlocked⟩, fun e he => (List.not_mem_nil he).elim⟩
    · intro ks h t l ih hks
      rw [List.forall_mem_append] at hks
      obtain ⟨⟨hcoherent, ht⟩, hquiet⟩ := ih hks.1
      obtain ⟨hrestart, hrelease⟩ := hks.2 l (List.mem_singleton_self l)
      have hintent := workloadStep_intent hcoherent l
      obtain ⟨hmaintenance, hlast⟩ := hintent.locked ht hrestart hrelease
      refine ⟨⟨hintent.coherent, hmaintenance⟩, ?_⟩
      rw [List.forall_mem_append]
      refine ⟨hquiet, fun e he => ?_⟩
      obtain rfl := List.mem_singleton.mp he
      exact hlast
  exact (hrun hls).2

/-- **The intent of the workloads** over a run: rows and memory agree after each
request, only a transition changes the rows, and from a quiescence that has
succeeded until its guard restarts the workloads (or is dropped) nothing is started
and no transition succeeds. -/
structure IntentKept (s : WorkloadController) (ls : List WorkloadLabel) : Prop where
  coherent : ∀ ks, ks <+: ls → Coherent (final workloadStep s ks)
  persisted : ∀ e ∈ history workloadStep s ls, e.label.request.isTransition = false →
    e.after.serviceRuntime = e.before.serviceRuntime
  excluded : ∀ ks l mid, ks ++ l :: mid <+: ls → l.request = .quiesceForMaintenance →
    (∃ statuses, (workloadStep (final workloadStep s ks) l).2.result = some (.ok statuses)) →
      (∀ k ∈ mid, k.request ≠ .restartFromPersisted ∧ k.request ≠ .release) →
        ∀ e ∈ history workloadStep (final workloadStep s (ks ++ [l])) mid, Quiet e

theorem workload_intent (s : WorkloadController) (hs : Built s) (ls : List WorkloadLabel) :
    IntentKept s ls where
  coherent := fun ks _ => final_coherent hs.coherent ks
  persisted := by
    intro e he hrequest
    obtain ⟨ks, l, -, rfl⟩ := mem_history he
    exact (workloadStep_intent (final_coherent hs.coherent ks) l).persisted hrequest
  excluded := by
    intro ks l mid _ hquiesce hok hmid
    have hintent := workloadStep_intent (final_coherent hs.coherent ks) l
    have hafter : final workloadStep s (ks ++ [l]) =
        (workloadStep (final workloadStep s ks) l).1 := final_append ks [l]
    rw [hafter]
    exact locked_history hintent.coherent (hintent.quiesced hquiesce hok) mid hmid

/-! ## A sample -/

namespace Sample

def desiredRow (component : String) : RuntimeRow where
  component := component
  desiredState := "running"
  version := 1
  updatedAt := "2026-07-19T00:00:00.000Z"
  updatedBy := "system"

def unbuilt : WorkloadController where
  mcp := initialStatus .stopped false
  scheduler := initialStatus .stopped false
  serviceRuntime := { rows := [desiredRow "mcp", desiredRow "scheduler"], nodup := by decide }
  maintenance := false

/-- A runtime that is found running, and obeys. -/
def obeying : RuntimeAnswer where
  running := true
  result := .ok ()
  now := { utc := 0, offset := 0 }

def building : List RuntimeAnswer := List.replicate 20 obeying

def built : WorkloadController :=
  (run runtimes (building.map .answer) (.start unbuilt) fromRuntimes).1.state

/-- A quiescence, and a transition before the workloads are restarted. -/
def maintained : List WorkloadLabel :=
  [⟨.quiesceForMaintenance, building⟩, ⟨.transition .all .start "web:owner", building⟩,
    ⟨.quiesceAgain, building⟩, ⟨.restartFromPersisted, building⟩, ⟨.release, []⟩]

end Sample

theorem sample_workload_intent : IntentKept Sample.built Sample.maintained :=
  workload_intent Sample.built ⟨Sample.unbuilt, Sample.building, rfl, by decide +kernel, rfl⟩
    Sample.maintained

end RemindiCore.Admin
