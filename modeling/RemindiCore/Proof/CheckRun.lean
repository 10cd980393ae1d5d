import RemindiCore.Proof.Readiness

/-!
# One check, from its read to its report

What `checkRead` selects, previews and cuts (`checkRead_page`,
`mem_previews`), and what the transaction of a check has stored and reports
(`persistReady_reported`).
-/

namespace RemindiCore

open CivilTime KeyedTable Transaction

/-! ## Scope -/

/-- What a check asks for. -/
structure CheckScope where
  projectId : String
  taskId : Option String
  context : CheckContext
  limit : Nat

/-- The request after its checks. -/
def CheckRequest.scope (actor : Actor) (request : CheckRequest) :
    Except ServiceError CheckScope := do
  validateActor actor
  let projectId ← requiredText request.projectId 512
  let taskId ← optionalText request.taskId 512
  let sessionId ← optionalContext request.sessionId 512
  let taskLineageId ← optionalContext request.taskLineageId 512
  let limit ← pageLimit request.limit 50
  return { projectId := projectId
           taskId := taskId
           context :=
             { sessionId := sessionId
               taskLineageId := taskLineageId
               lifecycleEvent := request.lifecycleEvent
               activeGoalIds := request.activeGoalIds }
           limit := limit }

/-- The item belongs to the owner, the project and the task that are checked. -/
structure InScope (ownerId : String) (scope : CheckScope) (row : Remindi) : Prop where
  ownerId : row.ownerId = ownerId
  projectId : row.projectId = scope.projectId
  taskId : ∀ task, scope.taskId = some task → row.taskId = some task

theorem pageLimit_pos {value default' limit : Nat} (hdefault : 0 < default')
    (h : pageLimit value default' = .ok limit) : 0 < limit := by
  unfold pageLimit at h
  dsimp only at h
  by_cases hvalue : value = 0
  · rw [if_pos hvalue] at h
    split at h
    · rw [← Except.ok.inj h]
      exact hdefault
    · cases h
  · rw [if_neg hvalue] at h
    split at h
    · rw [← Except.ok.inj h]
      omega
    · cases h

theorem scope_limit_pos {actor : Actor} {request : CheckRequest} {scope : CheckScope}
    (h : request.scope actor = .ok scope) : 0 < scope.limit := by
  unfold CheckRequest.scope at h
  obtain ⟨_, -, h⟩ := except_bind_ok.mp h
  obtain ⟨_, -, h⟩ := except_bind_ok.mp h
  obtain ⟨_, -, h⟩ := except_bind_ok.mp h
  obtain ⟨_, -, h⟩ := except_bind_ok.mp h
  obtain ⟨_, -, h⟩ := except_bind_ok.mp h
  obtain ⟨limit, hlimit, h⟩ := except_bind_ok.mp h
  cases h
  exact pageLimit_pos (by decide) hlimit

/-! ## Candidates -/

variable {db db' : Db} {service : RemindiService} {actor : Actor}

/-- The states and times the query selects. -/
def Selects (now : OffsetDateTime) (includeScheduled : Bool) (row : Remindi) : Prop :=
  if includeScheduled then row.state.isActive = true
  else (row.state = .due ∨ row.state = .overdue) ∨
    (row.state = .snoozed ∧ Repository.textReached row.snoozeUntil now = true) ∨
    row.state = .scheduled ∧
      (row.trigger.isTimed = true → Repository.textReached row.nextFireAt now = true)

theorem remindiFromRow_of_mapM {rows items : List Remindi}
    (h : rows.mapM remindiFromRow = .ok items) :
    ∀ row ∈ rows, remindiFromRow row = .ok row := by
  induction rows generalizing items with
  | nil => simp
  | cons row rows ih =>
    rw [List.mapM_cons] at h
    obtain ⟨item, hitem, h⟩ := except_bind_ok.mp h
    obtain ⟨rest, hrest, h⟩ := except_bind_ok.mp h
    refine List.forall_mem_cons.mpr ⟨?_, ih hrest⟩
    rw [hitem, remindiFromRow_ok hitem]

theorem mem_filter_scope {ownerId : String} {scope : CheckScope} {row : Remindi} :
    row ∈ db.remindi.rows.filter (fun row => row.ownerId == ownerId &&
        row.projectId == scope.projectId && scope.taskId.all fun task => row.taskId == some task) ↔
      row ∈ db.remindi.rows ∧ InScope ownerId scope row := by
  rw [List.mem_filter]
  refine and_congr_right fun _ => ?_
  simp only [Bool.and_eq_true, beq_iff_eq]
  constructor
  · rintro ⟨⟨howner, hproject⟩, htask⟩
    refine ⟨howner, hproject, fun task h => ?_⟩
    rw [h] at htask
    simpa using htask
  · rintro ⟨howner, hproject, htask⟩
    refine ⟨⟨howner, hproject⟩, ?_⟩
    cases h : scope.taskId with
    | none => rfl
    | some task => simpa using htask task h

/-- **The candidates of a check.** -/
theorem mem_checkCandidates {ownerId : String} {scope : CheckScope} {now : OffsetDateTime}
    {includeScheduled : Bool} {rows : List Remindi}
    (h : Repository.checkCandidates ownerId scope.projectId scope.taskId now includeScheduled db =
      .ok rows) {row : Remindi} :
    row ∈ rows ↔ row ∈ db.remindi.rows ∧ InScope ownerId scope row ∧
      Selects now includeScheduled row := by
  unfold Repository.checkCandidates at h
  dsimp only at h
  rw [← and_assoc, ← mem_filter_scope]
  unfold Selects
  split at h
  · rw [mapM_remindiFromRow_ok h, List.mem_filter, if_pos ‹_›]
  · obtain ⟨_, -, h⟩ := except_bind_ok.mp h
    rw [mapM_remindiFromRow_ok h, if_neg ‹_›]
    simp only [List.mem_append, List.mem_filter, Bool.and_eq_true, Bool.or_eq_true, beq_iff_eq,
      Bool.not_eq_true']
    cases row.trigger.isTimed <;> simp <;> tauto

/-- The candidates could be read. -/
theorem readable_of_mem {ownerId : String} {projectId : String} {taskId : Option String}
    {now : OffsetDateTime} {includeScheduled : Bool} {rows : List Remindi}
    (h : Repository.checkCandidates ownerId projectId taskId now includeScheduled db = .ok rows) :
    ∀ row ∈ rows, remindiFromRow row = .ok row := by
  unfold Repository.checkCandidates at h
  dsimp only at h
  split at h
  · rw [mapM_remindiFromRow_ok h]
    exact remindiFromRow_of_mapM h
  · obtain ⟨_, -, h⟩ := except_bind_ok.mp h
    rw [mapM_remindiFromRow_ok h]
    exact remindiFromRow_of_mapM h

/-! ## Previews -/

section

variable {now : OffsetDateTime} {context : CheckContext}

theorem ReadyItem.readyBy (item : ReadyItem now context) :
    item.prior.ReadyBy now context item.checked.readiness :=
  Remindi.readyBy_iff.mpr ⟨_, _, item.evaluated⟩

theorem mem_previews {rows : List Remindi} {ready : List (ReadyItem now context)}
    (h : previews now context rows = .ok ready) {row : Remindi} {readiness : Readiness} :
    (∃ item ∈ ready, item.prior = row ∧ item.checked.readiness = readiness) ↔
      row ∈ rows ∧ row.ReadyBy now context readiness := by
  induction rows generalizing ready with
  | nil =>
    cases h
    simp
  | cons candidate rest ih =>
    unfold previews at h
    split at h
    · cases h
    · next hevaluate =>
      rw [ih h, List.mem_cons]
      constructor
      · rintro ⟨hrow, hready⟩
        exact ⟨Or.inr hrow, hready⟩
      · rintro ⟨rfl | hrow, hready⟩
        · obtain ⟨_, _, hready⟩ := Remindi.readyBy_iff.mp hready
          rw [hready] at hevaluate
          cases hevaluate
        · exact ⟨hrow, hready⟩
    · next hevaluate =>
      obtain ⟨ready', hready', h⟩ := except_bind_ok.mp h
      cases h
      rw [List.mem_cons]
      constructor
      · rintro ⟨item, hitem, hrow, hreadiness⟩
        rcases List.mem_cons.mp hitem with rfl | hitem
        · exact ⟨Or.inl hrow.symm, hrow ▸ hreadiness ▸ ReadyItem.readyBy _⟩
        · obtain ⟨hrow, hready⟩ := (ih hready').mp ⟨item, hitem, hrow, hreadiness⟩
          exact ⟨Or.inr hrow, hready⟩
      · rintro ⟨rfl | hrow, hready⟩
        · exact ⟨_, List.mem_cons_self, rfl,
            (Remindi.readyBy_iff.mpr ⟨_, _, hevaluate⟩).unique hready⟩
        · obtain ⟨item, hitem, h⟩ := (ih hready').mpr ⟨hrow, hready⟩
          exact ⟨item, List.mem_cons_of_mem _ hitem, h⟩

/-! ## Sorting -/

/-- The key of a ready item in the order of the check. -/
def ReadyItem.key (item : ReadyItem now context) : CheckKey := checkKey item.checked

theorem Remindi.Evaluation.itemKey {prior evaluated : Remindi} {condition : ConditionEvaluation}
    {result : EvaluationResult} (h : prior.Evaluation now condition evaluated result) :
    itemKey evaluated = itemKey prior := by
  rw [h.only]
  rfl

theorem ReadyItem.key_eq (item : ReadyItem now context) :
    item.key = toLex (readinessRank item.checked.readiness, itemKey item.prior) :=
  congrArg (fun key => toLex (_, key)) (Remindi.evaluate_ok item.evaluated).itemKey

theorem Uuid.eq_of_text {a b : Uuid} (h : a.text = b.text) : a = b := by
  obtain ⟨_, _⟩ := a
  obtain ⟨_, _⟩ := b
  rw [Uuid.mk.injEq]
  exact h

/-- Keys tell items apart. -/
theorem id_eq_of_itemKey {a b : Remindi} (h : itemKey a = itemKey b) : a.id = b.id :=
  Uuid.eq_of_text (congrArg (fun key => (ofLex (ofLex key).2).2) h)

theorem ReadyItem.id_eq_of_key {a b : ReadyItem now context} (h : a.key = b.key) :
    a.prior.id = b.prior.id := by
  rw [a.key_eq, b.key_eq] at h
  exact id_eq_of_itemKey (congrArg (fun key => (ofLex key).2) h)

theorem sortReady_perm (ready : List (ReadyItem now context)) : (sortReady ready).Perm ready :=
  List.perm_insertionSort _ ready

/-- Candidates of different items are sorted strictly. -/
theorem sortReady_sorted {ready : List (ReadyItem now context)}
    (hdistinct : (ready.map (·.prior.id)).Nodup) :
    (sortReady ready).Pairwise (·.key < ·.key) := by
  have htotal : Std.Total fun left right : ReadyItem now context =>
      checkOrder left.checked right.checked ≠ .gt :=
    ⟨fun a b => by simpa only [checkOrder_ne_gt] using le_total (checkKey a.checked) (checkKey b.checked)⟩
  have htrans : IsTrans (ReadyItem now context) fun left right =>
      checkOrder left.checked right.checked ≠ .gt :=
    ⟨fun a b c hab hbc => checkOrder_ne_gt.mpr
      (le_trans (checkOrder_ne_gt.mp hab) (checkOrder_ne_gt.mp hbc))⟩
  have hle := List.pairwise_insertionSort (fun left right : ReadyItem now context =>
    checkOrder left.checked right.checked ≠ .gt) ready
  have hnodup : ((sortReady ready).map (·.prior.id)).Nodup :=
    ((sortReady_perm ready).map _).nodup_iff.mpr hdistinct
  have hne : (sortReady ready).Pairwise fun a b => a.prior.id ≠ b.prior.id :=
    List.pairwise_map.mp hnodup
  refine (hle.and hne).imp fun {a b} h => ?_
  exact lt_of_le_of_ne (checkOrder_ne_gt.mp h.1) fun heq => h.2 (ReadyItem.id_eq_of_key heq)

end

/-! ## The page -/

/-- Everything `checkRead` has read and decided. -/
structure CheckPage (service : RemindiService) (actor : Actor) (request : CheckRequest)
    (now : OffsetDateTime) (db : Db) where
  scope : CheckScope
  cursor : Option CheckCursor
  candidates : List Remindi
  ready : List (ReadyItem now scope.context)
  nextCursor : Option String
  hscope : request.scope actor = .ok scope
  hcursor : service.decodeCursor request.cursor = .ok cursor
  hcandidates : Repository.checkCandidates service.ownerId scope.projectId scope.taskId now
    request.includeScheduled db = .ok candidates
  hready : previews now scope.context candidates = .ok ready
  hnext : service.pageCursor
    (decide (scope.limit < (afterCursor cursor (sortReady ready)).length))
    (((afterCursor cursor (sortReady ready)).take scope.limit).getLast?.map (·.checked)) =
      .ok nextCursor

/-- The items of the page. -/
def CheckPage.page {request : CheckRequest} {now : OffsetDateTime}
    (page : CheckPage service actor request now db) : List (ReadyItem now page.scope.context) :=
  (afterCursor page.cursor (sortReady page.ready)).take page.scope.limit

def CheckPage.pending {request : CheckRequest} {now : OffsetDateTime}
    (page : CheckPage service actor request now db) : RemindiService.PendingCheck where
  service := service
  actor := actor
  now := now
  context := page.scope.context
  ready := page.page
  nextCursor := page.nextCursor

theorem checkRead_page {request : CheckRequest} {env : Env} {n m : Nat}
    {pending : RemindiService.PendingCheck}
    (h : service.checkRead actor request env n db = .ok (pending, m, db')) :
    db = db' ∧ ∃ page : CheckPage service actor request (env.clock n) db, pending = page.pending := by
  unfold RemindiService.checkRead at h
  obtain ⟨_, _, _, hrun, h⟩ := Txn.bind_ok.mp h
  obtain ⟨hactor, rfl, rfl⟩ := Txn.ofExcept_ok.mp hrun
  obtain ⟨projectId, _, _, hrun, h⟩ := Txn.bind_ok.mp h
  obtain ⟨hproject, rfl, rfl⟩ := Txn.ofExcept_ok.mp hrun
  obtain ⟨taskId, _, _, hrun, h⟩ := Txn.bind_ok.mp h
  obtain ⟨htask, rfl, rfl⟩ := Txn.ofExcept_ok.mp hrun
  obtain ⟨sessionId, _, _, hrun, h⟩ := Txn.bind_ok.mp h
  obtain ⟨hsession, rfl, rfl⟩ := Txn.ofExcept_ok.mp hrun
  obtain ⟨taskLineageId, _, _, hrun, h⟩ := Txn.bind_ok.mp h
  obtain ⟨hlineage, rfl, rfl⟩ := Txn.ofExcept_ok.mp hrun
  obtain ⟨limit, _, _, hrun, h⟩ := Txn.bind_ok.mp h
  obtain ⟨hlimit, rfl, rfl⟩ := Txn.ofExcept_ok.mp hrun
  obtain ⟨cursor, _, _, hrun, h⟩ := Txn.bind_ok.mp h
  obtain ⟨hcursor, rfl, rfl⟩ := Txn.ofExcept_ok.mp hrun
  obtain ⟨now, _, _, hnow, h⟩ := Txn.bind_ok.mp h
  obtain ⟨rfl, rfl⟩ := Tx.now_ok hnow
  obtain ⟨_, _, _, hbegin, h⟩ := Txn.bind_ok.mp h
  obtain rfl := Tx.database_ok hbegin
  obtain ⟨candidates, _, _, hquery, h⟩ := Txn.bind_ok.mp h
  obtain ⟨hcandidates, rfl⟩ := Tx.query_ok hquery
  obtain ⟨ready, _, _, hrun, h⟩ := Txn.bind_ok.mp h
  obtain ⟨hready, rfl, rfl⟩ := Txn.ofExcept_ok.mp hrun
  obtain ⟨nextCursor, _, _, hrun, h⟩ := Txn.bind_ok.mp h
  obtain ⟨hnext, rfl, rfl⟩ := Txn.ofExcept_ok.mp hrun
  obtain ⟨hpending, -, rfl⟩ := Txn.pure_ok.mp h
  have hscope : request.scope actor = .ok
      { projectId := projectId
        taskId := taskId
        context :=
          { sessionId := sessionId
            taskLineageId := taskLineageId
            lifecycleEvent := request.lifecycleEvent
            activeGoalIds := request.activeGoalIds }
        limit := limit } :=
    except_bind_ok.mpr ⟨_, hactor, except_bind_ok.mpr ⟨_, hproject, except_bind_ok.mpr ⟨_, htask,
      except_bind_ok.mpr ⟨_, hsession, except_bind_ok.mpr ⟨_, hlineage,
        except_bind_ok.mpr ⟨_, hlimit, rfl⟩⟩⟩⟩⟩⟩
  exact ⟨rfl,
    { scope := _
      cursor := cursor
      candidates := candidates
      ready := ready
      nextCursor := nextCursor
      hscope := hscope
      hcursor := hcursor
      hcandidates := hcandidates
      hready := hready
      hnext := hnext }, hpending.symm⟩

/-! ## The transaction -/

/-- What the transaction of a check has done with its page, item by item: an
item without events is reported as read; one with events is stored and
reported, or it has missed its row and is left out. -/
inductive Reported (x : Externals) {now : OffsetDateTime} {context : CheckContext} :
    Db → List (ReadyItem now context) → List CheckedItem → Db → Prop
  | nil {db : Db} : Reported x db [] [] db
  | kept {db db' : Db} {item : ReadyItem now context} {rest : List (ReadyItem now context)}
      {items : List CheckedItem} (hevents : item.events = []) (hrest : Reported x db rest items db') :
      Reported x db (item :: rest) (item.unchanged :: items) db'
  | stored {db db₁ db' : Db} {item : ReadyItem now context} {rest : List (ReadyItem now context)}
      {items : List CheckedItem} {old : Remindi} (hevents : item.events ≠ [])
      (persisted : Persisted x db db₁ item.prior old item.checked.remindi item.events)
      (hrest : Reported x db₁ rest items db') :
      Reported x db (item :: rest) (item.checked :: items) db'
  | missed {db db' : Db} {item : ReadyItem now context} {rest : List (ReadyItem now context)}
      {items : List CheckedItem} (hevents : item.events ≠ [])
      (hmissed : Repository.Missed db item.checked.remindi item.prior.version)
      (hrest : Reported x db rest items db') :
      Reported x db (item :: rest) items db'

theorem persistReady_reported {now : OffsetDateTime} {context : CheckContext}
    {ready : List (ReadyItem now context)} {env : Env} {n m : Nat} {items : List CheckedItem}
    (h : service.persistReady actor ready env n db = .ok (items, m, db')) :
    Reported service.externals db ready items db' := by
  induction ready generalizing n m db items with
  | nil =>
    obtain ⟨rfl, -, rfl⟩ := Txn.pure_ok.mp h
    exact .nil
  | cons item rest ih =>
    unfold RemindiService.persistReady at h
    split at h
    · next hempty =>
      obtain ⟨_, _, _, hrest, h⟩ := Txn.bind_ok.mp h
      obtain ⟨rfl, -, rfl⟩ := Txn.pure_ok.mp h
      exact .kept (List.isEmpty_iff.mp hempty) (ih hrest)
    next hempty =>
    have hevents : item.events ≠ [] := mt List.isEmpty_iff.mpr hempty
    obtain ⟨checked, _, _, hhead, h⟩ := Txn.bind_ok.mp h
    obtain ⟨_, _, _, hrest, h⟩ := Txn.bind_ok.mp h
    obtain ⟨rfl, -, rfl⟩ := Txn.pure_ok.mp h
    rcases persistEvaluated_result hhead with ⟨rfl, rfl, hmissed⟩ | ⟨rfl, old, hpersisted⟩
    · exact .missed hevents hmissed (ih hrest)
    · exact .stored hevents hpersisted (ih hrest)

/-- A page without events reports its rows as they were read. -/
theorem reported_settled {x : Externals} {now : OffsetDateTime} {context : CheckContext}
    {ready : List (ReadyItem now context)} (h : ∀ item ∈ ready, item.events = []) :
    Reported x db ready (ready.map fun item => item.unchanged) db := by
  induction ready with
  | nil => exact .nil
  | cons item rest ih =>
    obtain ⟨hitem, hrest⟩ := List.forall_mem_cons.mp h
    exact .kept hitem (ih hrest)

theorem checkPersist_reported {pending : RemindiService.PendingCheck} {env : Env}
    {result : CheckResult} {n m : Nat}
    (h : RemindiService.checkPersist pending env n db = .ok (result, m, db')) :
    ∃ items, result = pending.result items ∧
      Reported pending.service.externals db pending.ready items db' := by
  unfold RemindiService.checkPersist at h
  obtain ⟨_, _, _, hbegin, h⟩ := Txn.bind_ok.mp h
  obtain rfl := Tx.database_ok hbegin
  obtain ⟨items, _, _, hready, h⟩ := Txn.bind_ok.mp h
  obtain ⟨_, _, _, hcommit, h⟩ := Txn.bind_ok.mp h
  obtain rfl := Tx.database_ok hcommit
  obtain ⟨rfl, -, rfl⟩ := Txn.pure_ok.mp h
  exact ⟨items, rfl, persistReady_reported hready⟩

end RemindiCore
