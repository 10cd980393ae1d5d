import RemindiCore.Lib.Ranking
import RemindiCore.Proof.Selection

/-!
# The scheduler drains its work

An applied evaluation commits a change of a selected item and leaves it fewer
steps (`apply_commits`), so polls that apply all their evaluations come to an
end (`scheduler_drains`).
-/

namespace RemindiCore

open CivilTime JsonText KeyedTable Transaction

/-! ## Every stored item -/

section

variable {x : Externals}

theorem Change.wholeTrigger {s : System} {label : Label} {before : Option Remindi}
    {after : Remindi} {types : List EventType} (hchange : Change x s label before after types)
    (h : ∀ prior, before = some prior → ∀ t ∈ prior.trigger.instants, t.truncateMillis = t) :
    ∀ t ∈ after.trigger.instants, t.truncateMillis = t := by
  cases hchange with
  | @add ownerId actor raw request env id nextFireAt now prepared fires =>
    show ∀ t ∈ (request.trigger.mapNumbers x.readNumber).instants, _
    rw [Trigger.instants_mapNumbers, (prepareAdd_ok prepared).2.1]
    exact normalizeTrigger_instants
  | @operate ownerId actor call env prior mutation target operates =>
    show ∀ t ∈ (mutation.item.trigger.mapNumbers x.readNumber).instants, _
    rw [Trigger.instants_mapNumbers]
    cases operates with
    | complete prepared validated ok =>
      rw [(completeItem_sameSchedule ok).trigger]
      exact h prior rfl
    | snooze prepared ok =>
      rw [(snoozeItem_sameSchedule ok).trigger]
      exact h prior rfl
    | cancel prepared ok =>
      rw [(cancelItem_sameSchedule ok).trigger]
      exact h prior rfl
    | update prepared ok =>
      rw [updateItem_trigger ok, (prepareUpdate_ok prepared).2.2.2.1]
      rename_i raw request
      cases raw.trigger with
      | none => exact h prior rfl
      | some trigger => exact normalizeTrigger_instants
  | check hpending hitem evaluated =>
    show ∀ t ∈ (Trigger.mapNumbers x.readNumber _).instants, _
    rw [Trigger.instants_mapNumbers, evaluated.sameSchedule.trigger]
    exact h _ rfl
  | poll hpoll hcandidates evaluated =>
    show ∀ t ∈ (Trigger.mapNumbers x.readNumber _).instants, _
    rw [Trigger.instants_mapNumbers, evaluated.sameSchedule.trigger]
    exact h _ rfl

/-- The items of one owner's service, all of them drainable. -/
def Db.Drainable (db : Db) : Prop := ∀ row ∈ db.remindi.rows, RemindiCore.Drainable row

theorem drainable_runOf {labels : List Label} (hclock : ClockFromYearZero labels) :
    (runOf x labels).db.Drainable := by
  intro row hrow
  have hfound := Table.find?_of_mem hrow
  exact
    { coherent := stored_items_coherent x labels row.id row hfound
      valid := rows_invariant Change.validTrigger labels row.id row hfound
      bound := stored_rows_bound labels row hrow
      whole := rows_invariant Change.wholeTrigger labels row.id row hfound
      years := (inYears_runOf hclock).rows row.id row hfound }

end

/-! ## An applied evaluation -/

section

variable {x : Externals} {env : Env} {n m : Nat} {db db' : Db} {service : RemindiService}
  {actor : Actor} {row candidate : Remindi} {now : OffsetDateTime} {result : EvaluationResult}

/-- Storing the evaluation of a drainable item leaves a drainable item. -/
theorem Drainable.evaluated {context : CheckContext} {condition : ConditionEvaluation}
    {detail : Option String} (h : Drainable row) (hnow : FromYearZero now)
    (hcandidate : RemindiService.evaluateCandidate row now context condition detail =
      .ok (candidate, result)) (hevents : result.events ≠ [])
    (hbound : candidate.bindUpdate = .ok ()) : Drainable (candidate.writtenOver x row) := by
  have hevaluated := evaluateCandidate_ok hevents hcandidate
  have htrigger : (candidate.writtenOver x row).trigger = row.trigger.mapNumbers x.readNumber :=
    congrArg (Trigger.mapNumbers x.readNumber) hevaluated.sameSchedule.trigger
  exact
    { coherent := (h.coherent.evaluated hevaluated).writtenOver row
      valid := by
        rw [htrigger, Trigger.validate_mapNumbers]
        exact h.valid
      bound := h.bound.writtenOver hbound
      whole := by
        rw [htrigger, Trigger.instants_mapNumbers]
        exact h.whole
      years := (h.years.evaluated hnow hcandidate).writtenOver h.years }

/-- What an applied evaluation has committed: the next version of the item, with
fewer steps left, and an event. -/
structure Applied (now : OffsetDateTime) (row : Remindi) (db db' : Db) (after : Remindi) : Prop where
  found : db.remindi.find? row.id = some row
  id : after.id = row.id
  ownerId : after.ownerId = row.ownerId
  version : after.version = row.version + 1
  remindi : db'.remindi = db.remindi.replace after
  events : ∃ new, new ≠ [] ∧ db'.events.rows = db.events.rows ++ new ∧
    ∀ event ∈ new, event.remindiId = row.id
  remaining : after.remaining now < row.remaining now
  drainable : Drainable after

/-- **An applied evaluation of a selected item commits.** -/
theorem apply_commits {adapters : RemindiService.AdapterProvider} {u : Unit}
    (hdrainable : db.Drainable) (hnow : FromYearZero now)
    (hrow : row ∈ db.remindi.rows) (hselected : Repository.schedulerSelects now row = true)
    (h : service.applySchedulerEvaluation actor row now adapters env n db = .ok (u, m, db')) :
    ∃ after, Applied now row db db' after := by
  have hfound := Table.find?_of_mem hrow
  obtain ⟨r', result, hevaluate, hevents, hremaining⟩ :=
    evaluation_progress RemindiService.schedulerContext (hdrainable row hrow) hselected adapters
  unfold RemindiService.applySchedulerEvaluation at h
  obtain ⟨_, _, _, hone, h⟩ := Txn.bind_ok.mp h
  obtain ⟨-, -, rfl⟩ := Txn.pure_ok.mp h
  unfold RemindiService.evaluateOne at hone
  obtain ⟨⟨candidate, result'⟩, _, _, hrun, hone⟩ := Txn.bind_ok.mp hone
  obtain ⟨hcandidate, -, rfl⟩ := Txn.ofExcept_ok.mp hrun
  obtain ⟨hmade, hsame⟩ := Prod.mk.inj
    (Except.ok.inj (hcandidate.symm.trans (evaluateCandidate_of hevaluate hevents)))
  dsimp only at hmade hsame hone
  rw [hsame] at hone hcandidate
  rw [List.isEmpty_eq_false_iff.mpr hevents] at hone
  obtain ⟨_, _, _, hbegin, hone⟩ := Txn.bind_ok.mp hone
  obtain rfl := Tx.database_ok hbegin
  obtain ⟨_, _, _, hpersist, hone⟩ := Txn.bind_ok.mp hone
  obtain ⟨_, _, _, hcommit, hone⟩ := Txn.bind_ok.mp hone
  obtain rfl := Tx.database_ok hcommit
  obtain ⟨-, -, rfl⟩ := Txn.pure_ok.mp hone
  have hevaluated := evaluateCandidate_ok hevents hcandidate
  have hid : candidate.id = row.id := hevaluated.sameSchedule.id
  rcases persistEvaluated_result hpersist with ⟨-, -, hmissed⟩ | ⟨-, old, hpersisted⟩
  · -- nobody else has written the row
    rcases hmissed row (hid ▸ hfound) with hother | hother
    · exact absurd hevaluated.sameSchedule.ownerId.symm hother
    · exact absurd rfl hother
  · obtain rfl : old = row :=
      Option.some.inj (hpersisted.found.symm.trans (hid ▸ hfound))
    obtain ⟨new, hrows, hnew⟩ := hpersisted.events
    refine ⟨candidate.writtenOver service.externals old, ?_⟩
    exact
      { found := hfound
        id := hid
        ownerId := hevaluated.sameSchedule.ownerId
        version := hevaluated.version
        remindi := hpersisted.remindi
        events := by
          refine ⟨new, ?_, hrows, fun event hevent => (hnew.remindiId event hevent).trans hid⟩
          rintro rfl
          exact hevents hnew.types.symm
        remaining := by
          rw [hmade, remaining_candidate]
          exact hremaining
        drainable := (hdrainable old hrow).evaluated hnow hcandidate hevents hpersisted.bound }

end

/-! ## The steps left in the store -/

/-- The steps left for one owner's service. -/
def Db.work (ownerId : String) (now : OffsetDateTime) (db : Db) : Nat :=
  db.remindi.work fun row => if row.ownerId = ownerId then row.remaining now else 0

/-- The steps an item has left. -/
def Db.left (now : OffsetDateTime) (db : Db) (id : Uuid) : Nat :=
  (db.remindi.find? id).elim 0 (Remindi.remaining now)

/-- The items have been evaluated, each step of the work once. -/
structure Worked (ownerId : String) (now : OffsetDateTime) (ids : List Uuid) (db db' : Db) :
    Prop where
  drainable : db'.Drainable
  work : db'.work ownerId now + ids.length ≤ db.work ownerId now
  left : ∀ id, db'.left now id + ids.count id ≤ db.left now id

section

variable {ownerId : String} {now : OffsetDateTime} {ids ids' : List Uuid} {db db' db'' : Db}
  {row after : Remindi}

theorem Worked.refl (h : db.Drainable) : Worked ownerId now [] db db where
  drainable := h
  work := le_refl _
  left := fun _ => le_refl _

theorem Worked.trans (h : Worked ownerId now ids db db') (h' : Worked ownerId now ids' db' db'') :
    Worked ownerId now (ids ++ ids') db db'' where
  drainable := h'.drainable
  work := by
    have hwork := h.work
    have hwork' := h'.work
    rw [List.length_append]
    omega
  left := by
    intro id
    have hleft := h.left id
    have hleft' := h'.left id
    rw [List.count_append]
    omega

theorem Applied.worked (h : Applied now row db db' after) (hdb : db.Drainable)
    (howner : row.ownerId = ownerId) : Worked ownerId now [row.id] db db' := by
  have hfound : db.remindi.find? after.id = some row := h.id ▸ h.found
  have hremaining := h.remaining
  refine ⟨?_, ?_, ?_⟩
  · intro item hitem
    rw [h.remindi] at hitem
    rcases Table.mem_replace.mp hitem with ⟨hold, -⟩ | ⟨rfl, -⟩
    · exact hdb item hold
    · exact h.drainable
  · have hwork := Table.work_replace
      (fun row => if row.ownerId = ownerId then row.remaining now else 0) hfound
    simp only [h.ownerId, howner, if_true] at hwork
    unfold Db.work
    rw [h.remindi, List.length_singleton]
    omega
  · intro id
    unfold Db.left
    rw [h.remindi, Table.find?_replace hfound, h.id]
    by_cases hid : row.id = id
    · subst hid
      rw [if_pos rfl, h.found, List.count_singleton_self]
      exact hremaining
    · rw [if_neg hid, List.count_singleton, if_neg (by simpa using hid)]
      exact le_refl _

end

/-! ## Polls -/

section

variable {s : Scheduler} {env : PollEnv} {now : OffsetDateTime} {n : Nat}
  {candidates : List Remindi} {report report' : PollReport} {db db' : Db}

theorem count_applied (report : PollReport) (result : Except ServiceError Unit) :
    (report.count result).applied ≤ report.applied + 1 ∧
      ((report.count result).applied = report.applied + 1 → result = .ok ()) := by
  cases result with
  | ok u => exact ⟨le_refl _, fun _ => rfl⟩
  | error e =>
    have hsame : (report.count (.error e)).applied = report.applied := by
      unfold PollReport.count
      split <;> first | rfl | cases ‹Except.error _ = Except.ok _›
    rw [hsame]
    exact ⟨by omega, fun h => by omega⟩

theorem applyAll_applied_le (h : s.applyAll env now n candidates report db = (report', db')) :
    report'.applied ≤ report.applied + candidates.length := by
  induction candidates generalizing n report db with
  | nil =>
    obtain ⟨rfl, -⟩ := Prod.mk.inj h
    exact le_refl _
  | cons candidate rest ih =>
    simp only [Scheduler.applyAll] at h
    have hrest := ih h
    have hcount := (count_applied report ((s.service.applySchedulerEvaluation s.actor candidate now
      (env.provider n)).run (env.apply n) db).1).1
    rw [List.length_cons]
    omega

/-- **A poll that applies every evaluation** works off a step of each candidate. -/
theorem applyAll_worked (hdb : db.Drainable) (hnow : FromYearZero now)
    (hstored : ∀ c ∈ candidates, c ∈ db.remindi.rows) (hdistinct : (candidates.map (·.id)).Nodup)
    (howned : ∀ c ∈ candidates, c.ownerId = s.service.ownerId)
    (hselected : ∀ c ∈ candidates, Repository.schedulerSelects now c = true)
    (h : s.applyAll env now n candidates report db = (report', db'))
    (hall : report'.applied = report.applied + candidates.length) :
    Worked s.service.ownerId now (candidates.map (·.id)) db db' := by
  induction candidates generalizing n report db with
  | nil =>
    obtain ⟨-, rfl⟩ := Prod.mk.inj h
    exact .refl hdb
  | cons candidate rest ih =>
    obtain ⟨hfirst, hrest⟩ := List.forall_mem_cons.mp hstored
    obtain ⟨howner, howned⟩ := List.forall_mem_cons.mp howned
    obtain ⟨hselect, hselected⟩ := List.forall_mem_cons.mp hselected
    rw [List.map_cons, List.nodup_cons] at hdistinct
    simp only [Scheduler.applyAll] at h
    rcases hrun : (s.service.applySchedulerEvaluation s.actor candidate now
      (env.provider n)).run (env.apply n) db with ⟨result, db₁⟩
    rw [hrun] at h
    have hle := applyAll_applied_le h
    obtain ⟨hcount, hcounted⟩ := count_applied report result
    rw [List.length_cons] at hall
    dsimp only at hle h
    obtain rfl := hcounted (by omega)
    obtain ⟨m, hok⟩ := Txn.run_ok.mp hrun
    obtain ⟨after, happlied⟩ := apply_commits hdb hnow hfirst hselect hok
    have hworked := happlied.worked hdb howner
    refine hworked.trans (ih hworked.drainable ?_ hdistinct.2 howned hselected h ?_)
    · intro c hc
      rw [happlied.remindi, Table.mem_replace]
      refine Or.inl ⟨hrest c hc, fun hid => hdistinct.1 ?_⟩
      rw [← happlied.id, ← hid]
      exact List.mem_map_of_mem hc
    · have hone : (report.count (.ok ())).applied = report.applied + 1 := rfl
      omega

end

/-! ## The candidates of a poll -/

/-- The selected items of an owner, the longest waiting first. -/
def selectedItems (ownerId : String) (now : OffsetDateTime) (db : Db) : List Remindi :=
  (db.remindi.rows.filter fun row =>
    row.ownerId == ownerId && Repository.schedulerSelects now row).insertionSort
      Repository.waitsBefore

/-- What the candidate query has answered: items of the owner that need an
evaluation, all of them when they fit. -/
structure Selection (db : Db) (ownerId : String) (now : OffsetDateTime) (limit : Nat)
    (rows : List Remindi) : Prop where
  only : ∀ row ∈ rows, row ∈ db.remindi.rows ∧ row.ownerId = ownerId ∧ row.NeedsEvaluation now
  distinct : (rows.map (·.id)).Nodup
  bounded : rows.length ≤ limit
  all : rows.length < limit → ∀ row ∈ db.remindi.rows, row.ownerId = ownerId →
    row.NeedsEvaluation now → row ∈ rows

section

variable {service : RemindiService} {env : Env} {now : OffsetDateTime} {limit : Nat}
  {rows : List Remindi} {row : Remindi} {db : Db} {ownerId : String}

theorem mem_selectedItems : row ∈ selectedItems ownerId now db ↔
    row ∈ db.remindi.rows ∧ row.ownerId = ownerId ∧
      Repository.schedulerSelects now row = true := by
  unfold selectedItems
  rw [List.mem_insertionSort, List.mem_filter, Bool.and_eq_true, beq_iff_eq]

theorem schedulerCandidates_rows
    (h : ((service.schedulerCandidates limit).run env db).1 = .ok (now, rows)) :
    rows = (selectedItems service.ownerId now db).take limit := by
  rcases hrun : (service.schedulerCandidates limit).run env db with ⟨result, db'⟩
  rw [hrun] at h
  obtain rfl : result = .ok (now, rows) := h
  obtain ⟨m, hok⟩ := Txn.run_ok.mp hrun
  unfold RemindiService.schedulerCandidates at hok
  obtain ⟨_, _, _, hnow, hok⟩ := Txn.bind_ok.mp hok
  obtain ⟨-, rfl⟩ := Tx.now_ok hnow
  obtain ⟨_, _, _, hbegin, hok⟩ := Txn.bind_ok.mp hok
  obtain rfl := Tx.database_ok hbegin
  obtain ⟨_, _, _, hquery, hok⟩ := Txn.bind_ok.mp hok
  obtain ⟨hrows, rfl⟩ := Tx.query_ok hquery
  obtain ⟨e, -, rfl⟩ := Txn.pure_ok.mp hok
  cases e
  unfold Repository.schedulerCandidates at hrows
  obtain ⟨_, -, hrows⟩ := except_bind_ok.mp hrows
  obtain ⟨_, -, hrows⟩ := except_bind_ok.mp hrows
  exact mapM_remindiFromRow_ok hrows

/-- The query answers where the clock reading has a text and every item is read back. -/
theorem schedulerCandidates_answers (hfault : env.Faultless) (hclock : env.clock 0 = now)
    (htext : (canonicalText now).isSome = true) (hlimit : limit ≤ i64Max)
    (hreadable : ∀ row ∈ db.remindi.rows, remindiFromRow row = .ok row) :
    ((service.schedulerCandidates limit).run env db).1 =
      .ok (now, (selectedItems service.ownerId now db).take limit) := by
  obtain ⟨t, ht⟩ := timestamp_isOk.mpr htext
  have hbound : i64FromU64 limit = .ok limit := if_pos hlimit
  have hrows : ((selectedItems service.ownerId now db).take limit).mapM remindiFromRow =
      .ok ((selectedItems service.ownerId now db).take limit) := by
    apply mapM_remindiFromRow_of
    intro row hrow
    exact hreadable row (mem_selectedItems.mp (List.mem_of_mem_take hrow)).1
  have hquery : Repository.schedulerCandidates service.ownerId now limit db =
      .ok ((selectedItems service.ownerId now db).take limit) := by
    unfold Repository.schedulerCandidates
    rw [ht, hbound]
    exact hrows
  have hstatement : ∀ n, (Tx.query (Repository.schedulerCandidates service.ownerId now limit))
      env n db = .ok ((selectedItems service.ownerId now db).take limit, n + 1, db) := by
    intro n
    simp only [Tx.query, Tx.statement, Txn.call, hfault n, Option.map_none, hquery]
    rfl
  rw [Txn.run_fst]
  unfold RemindiService.schedulerCandidates
  rw [bind_of_ok (show Tx.now env 0 db = .ok (now, 1, db) by rw [← hclock]; rfl),
    bind_of_ok (database_of_faultless hfault), bind_of_ok (hstatement _)]
  rfl

variable (ownerId now limit) in
/-- **What the query selects.** -/
theorem selection_of_drainable (hdb : db.Drainable) :
    Selection db ownerId now limit ((selectedItems ownerId now db).take limit) where
  only := by
    intro row hrow
    obtain ⟨hstored, howner, hselected⟩ := mem_selectedItems.mp (List.mem_of_mem_take hrow)
    exact ⟨hstored, howner, (schedulerSelects_iff (hdb row hstored)).mp hselected⟩
  distinct := by
    have hsub : ReadFrom db (db.remindi.rows.filter fun row =>
        row.ownerId == ownerId && Repository.schedulerSelects now row) :=
      (readFrom_rows db).sublist List.filter_sublist
    exact ((hsub.perm (List.perm_insertionSort Repository.waitsBefore _)).sublist
      (List.take_sublist limit _)).nodup
  bounded := List.length_take_le limit _
  all := by
    intro hshort row hstored howner hneeds
    have hmem : row ∈ selectedItems ownerId now db :=
      mem_selectedItems.mpr ⟨hstored, howner, (schedulerSelects_iff (hdb row hstored)).mpr hneeds⟩
    rw [List.length_take] at hshort
    rwa [List.take_of_length_le (by omega)]

end

/-! ## Polls at one clock reading -/

/-- Polls at the clock reading `now`, each of which has applied all its
evaluations, with nobody else at the store: their number, the items evaluated
and the store they leave. -/
inductive Polls (s : Scheduler) (now : OffsetDateTime) : Nat → Db → List Uuid → Db → Prop
  | none (db : Db) : Polls s now 0 db [] db
  | poll {n : Nat} {env : PollEnv} {guard : LeaseGuard} {lease : Option LeaseRow} {db db' : Db}
      {candidates : List Remindi} {ids : List Uuid} {report : PollReport}
      (clock : env.read.clock 0 = now)
      (read : ((s.service.schedulerCandidates s.config.candidateBatchSize).run env.read db).1 =
        .ok (now, candidates))
      (ok : (s.pollOnce env guard lease db).result = .ok report)
      (applied : report.applied = report.selected)
      (rest : Polls s now n (s.pollOnce env guard lease db).db ids db') :
      Polls s now (n + 1) db (candidates.map (·.id) ++ ids) db'

section

variable {s : Scheduler} {env : PollEnv} {now : OffsetDateTime} {n : Nat} {guard : LeaseGuard}
  {lease : Option LeaseRow} {candidates : List Remindi} {report report' : PollReport}
  {db db' : Db} {ids : List Uuid}

theorem applyAll_selected (h : s.applyAll env now n candidates report db = (report', db')) :
    report'.selected = report.selected := by
  have hcount : ∀ (report : PollReport) (result : Except ServiceError Unit),
      (report.count result).selected = report.selected := by
    intro report result
    unfold PollReport.count
    split <;> rfl
  induction candidates generalizing n report db with
  | nil =>
    obtain ⟨rfl, -⟩ := Prod.mk.inj h
    rfl
  | cons candidate rest ih =>
    simp only [Scheduler.applyAll] at h
    exact (ih h).trans (hcount _ _)

/-- A poll asks for at least one candidate. -/
theorem Scheduler.batch_pos (s : Scheduler) : 0 < s.config.candidateBatchSize := by
  have hvalid := s.valid
  unfold SchedulerConfig.validate at hvalid
  split at hvalid
  · cases hvalid
  · next hgood =>
    simp only [not_or] at hgood
    omega

theorem pollRenewed_worked (hdb : db.Drainable) (hnow : FromYearZero now)
    (hread : ((s.service.schedulerCandidates s.config.candidateBatchSize).run env.read db).1 =
      .ok (now, candidates))
    (hok : (s.pollRenewed env guard lease db).result = .ok report)
    (happlied : report.applied = report.selected) :
    Worked s.service.ownerId now (candidates.map (·.id)) db (s.pollRenewed env guard lease db).db := by
  rcases hrun : (s.service.schedulerCandidates s.config.candidateBatchSize).run env.read db with
    ⟨result, db₁⟩
  rw [hrun] at hread
  obtain rfl : result = .ok (now, candidates) := hread
  unfold Scheduler.pollRenewed at hok ⊢
  rw [hrun] at hok ⊢
  dsimp only at hok ⊢
  have hrows := schedulerCandidates_rows (congrArg Prod.fst hrun)
  have hread := schedulerCandidates_ok (Txn.run_ok.mp hrun).choose_spec
  cases hcancelled : env.cancelled with
  | true =>
    rw [hcancelled] at hok
    obtain rfl := Except.ok.inj hok
    obtain rfl := List.eq_nil_of_length_eq_zero happlied.symm
    exact .refl hdb
  | false =>
    rw [hcancelled, if_neg Bool.false_ne_true] at hok
    rw [if_neg Bool.false_ne_true]
    rcases hrenew : s.renewLease (env.leaseFault 1) guard (now.addNanos
      (Workers.finish s.config.adapterConcurrency (env.latencies candidates) + env.elsewhere : Nat))
        lease with e | ⟨guard', lease'⟩
    · rw [hrenew] at hok
      cases hok
    · rw [hrenew] at hok
      dsimp only at hok ⊢
      have happly : s.applyAll env now 0 candidates ⟨candidates.length, 0, 0, 0⟩ db = (report, _) :=
        Prod.ext (Except.ok.inj hok) rfl
      have hselected := applyAll_selected happly
      have hmem : ∀ c ∈ candidates, c.ownerId = s.service.ownerId ∧
          Repository.schedulerSelects now c = true := by
        intro c hc
        rw [hrows] at hc
        exact (mem_selectedItems.mp (List.mem_of_mem_take hc)).2
      refine applyAll_worked hdb hnow hread.2.stored hread.2.nodup (fun c hc => (hmem c hc).1)
        (fun c hc => (hmem c hc).2) happly ?_
      rw [happlied, hselected]
      exact (Nat.zero_add _).symm

/-- **The step lemma.**  A poll works off a step of every candidate. -/
theorem poll_worked (hdb : db.Drainable) (hnow : FromYearZero now)
    (hread : ((s.service.schedulerCandidates s.config.candidateBatchSize).run env.read db).1 =
      .ok (now, candidates))
    (hok : (s.pollOnce env guard lease db).result = .ok report)
    (happlied : report.applied = report.selected) :
    Worked s.service.ownerId now (candidates.map (·.id)) db (s.pollOnce env guard lease db).db := by
  unfold Scheduler.pollOnce at hok ⊢
  dsimp only at hok ⊢
  by_cases hdue : guard.renewalDue (env.read.clock 0) = true
  · rw [if_pos hdue] at hok ⊢
    rcases hrenew : s.renewLease (env.leaseFault 0) guard (env.read.clock 0) lease with
      e | ⟨guard', lease'⟩
    · rw [hrenew] at hok
      cases hok
    · rw [hrenew] at hok
      exact pollRenewed_worked hdb hnow hread hok happlied
  · rw [if_neg hdue] at hok ⊢
    exact pollRenewed_worked hdb hnow hread hok happlied

/-- The run lemma. -/
theorem Polls.worked (h : Polls s now n db ids db') (hdb : db.Drainable) (hnow : FromYearZero now) :
    Worked s.service.ownerId now ids db db' := by
  induction h with
  | none db => exact .refl hdb
  | poll clock read ok applied rest ih =>
    have hpoll := poll_worked hdb hnow read ok applied
    exact hpoll.trans (ih hpoll.drainable)

/-- Nothing is selected where no step is left. -/
theorem unselected_of_work (h : db.work s.service.ownerId now = 0) :
    ∀ row ∈ db.remindi.rows, row.ownerId = s.service.ownerId →
      Repository.schedulerSelects now row = false := by
  intro row hrow howner
  have hzero := List.sum_eq_zero_iff_forall_eq_nat.mp h _ (List.mem_map_of_mem hrow)
  rw [if_pos howner] at hzero
  rw [← Bool.not_eq_true, ← remaining_pos]
  omega

theorem work_of_unselected (h : ∀ row ∈ db.remindi.rows, row.ownerId = s.service.ownerId →
    Repository.schedulerSelects now row = false) : db.work s.service.ownerId now = 0 := by
  apply List.sum_eq_zero_iff_forall_eq_nat.mpr
  intro left hleft
  obtain ⟨row, hrow, rfl⟩ := List.mem_map.mp hleft
  split
  · next howner =>
    have hnot := h row hrow howner
    rw [← Bool.not_eq_true, ← remaining_pos] at hnot
    omega
  · rfl

/-- Every poll works off a step, as long as there is one. -/
theorem Polls.drains (h : Polls s now n db ids db') (hdb : db.Drainable) (hnow : FromYearZero now) :
    db'.work s.service.ownerId now = 0 ∨
      db'.work s.service.ownerId now + n ≤ db.work s.service.ownerId now := by
  induction h with
  | none db => exact Or.inr (le_refl _)
  | @poll n env guard lease db db' candidates ids report clock read ok applied rest ih =>
    have hpoll := poll_worked hdb hnow read ok applied
    have hwork := hpoll.work
    rw [List.length_map] at hwork
    by_cases hempty : candidates = []
    · left
      have hrest := (rest.worked hpoll.drainable hnow).work
      have hnone : db.work s.service.ownerId now = 0 := by
        apply work_of_unselected
        intro row hrow howner
        rw [← Bool.not_eq_true]
        intro hselected
        have hrows := schedulerCandidates_rows read
        have hmem : row ∈ selectedItems s.service.ownerId now db :=
          mem_selectedItems.mpr ⟨hrow, howner, hselected⟩
        have hpos := List.length_pos_of_mem hmem
        have hbatch := s.batch_pos
        rw [hempty] at hrows
        have hlength := congrArg List.length hrows
        rw [List.length_take, List.length_nil] at hlength
        omega
      omega
    · have hpos := List.length_pos_of_ne_nil hempty
      rcases ih hpoll.drainable with hzero | hle
      · exact Or.inl hzero
      · right
        omega

end

/-! ## The theorem -/

theorem count_le_two {ownerId : String} {now : OffsetDateTime} {ids : List Uuid} {db db' : Db}
    (h : Worked ownerId now ids db db') (id : Uuid) :
    ids.count id ≤ 2 ∧ (ids.count id = 2 → ∀ row ∈ db'.remindi.rows, row.id = id →
      Repository.schedulerSelects now row = false) := by
  have hleft := h.left id
  have htwo : db.left now id ≤ 2 := by
    unfold Db.left
    cases db.remindi.find? id with
    | none => exact Nat.zero_le _
    | some row => exact remaining_le_two now row
  refine ⟨by omega, fun hcount row hrow hid => ?_⟩
  have hnone : row.remaining now = 0 := by
    have hfound : db'.left now id = row.remaining now := by
      unfold Db.left
      rw [← hid, Table.find?_of_mem hrow]
      rfl
    omega
  rw [← Bool.not_eq_true, ← remaining_pos]
  omega

/-- **The scheduler drains its work.**  From every reachable store, polls at one
clock reading that apply all their evaluations:

* select, up to the limit, exactly the owner's items that need an evaluation;
* commit a change of each selected item, whatever its adapter answers;
* evaluate no item more than twice;
* leave no candidate once there are two polls for each item selected at the start. -/
theorem scheduler_drains {x : Externals} {labels : List Label} {s : Scheduler}
    {now : OffsetDateTime} {n : Nat} {ids : List Uuid} {db : Db}
    (hclock : ClockFromYearZero labels) (hnow : FromYearZero now)
    (htext : (canonicalText now).isSome = true)
    (hpolls : Polls s now n (runOf x labels).db ids db) :
    (∀ (env : Env) (limit : Nat), env.Faultless → env.clock 0 = now → limit ≤ i64Max →
      ∃ rows, ((s.service.schedulerCandidates limit).run env db).1 = .ok (now, rows) ∧
        Selection db s.service.ownerId now limit rows) ∧
    (∀ row ∈ db.remindi.rows, row.NeedsEvaluation now → ∀ adapters : RemindiService.AdapterProvider,
      (∃ r' result, row.evaluate now RemindiService.schedulerContext
          (conditionOf (RemindiService.evaluateCondition adapters row)) = .ok (r', result) ∧
        result.events ≠ []) ∧
      ∀ actor env db', ((s.service.applySchedulerEvaluation actor row now adapters).run env db) =
        (.ok (), db') → ∃ after, Applied now row db db' after) ∧
    (∀ id, ids.count id ≤ 2 ∧ (ids.count id = 2 → ∀ row ∈ db.remindi.rows, row.id = id →
      ¬ row.NeedsEvaluation now)) ∧
    (2 * (runOf x labels).db.remindi.rows.countP (fun row =>
        row.ownerId == s.service.ownerId && Repository.schedulerSelects now row) ≤ n →
      ∀ row ∈ db.remindi.rows, row.ownerId = s.service.ownerId → ¬ row.NeedsEvaluation now) := by
  have hdrainable : (runOf x labels).db.Drainable := drainable_runOf hclock
  have hworked := hpolls.worked hdrainable hnow
  have hafter := hworked.drainable
  refine ⟨?_, ?_, ?_, ?_⟩
  · intro env limit hfault henv hlimit
    exact ⟨_, schedulerCandidates_answers hfault henv htext hlimit fun row hrow =>
      (hafter row hrow).years.readable (hafter row hrow).bound.stored,
      selection_of_drainable now limit s.service.ownerId hafter⟩
  · intro row hrow hneeds adapters
    have hselected := (schedulerSelects_iff (hafter row hrow)).mpr hneeds
    constructor
    · obtain ⟨r', result, hevaluate, hevents, -⟩ :=
        evaluation_progress RemindiService.schedulerContext (hafter row hrow) hselected adapters
      exact ⟨r', result, hevaluate, hevents⟩
    · intro actor env db' hrun
      obtain ⟨m, hok⟩ := Txn.run_ok.mp hrun
      exact apply_commits hafter hnow hrow hselected hok
  · intro id
    obtain ⟨htwo, hnone⟩ := count_le_two hworked id
    refine ⟨htwo, fun hcount row hrow hid => ?_⟩
    rw [← schedulerSelects_iff (hafter row hrow), hnone hcount row hrow hid]
    exact Bool.false_ne_true
  · intro hn row hrow howner
    have hbound : ∀ row : Remindi,
        (if row.ownerId = s.service.ownerId then row.remaining now else 0) ≤ 2 := by
      intro row
      split
      · exact remaining_le_two now row
      · exact Nat.zero_le 2
    have hwork := Table.work_le hbound (runOf x labels).db.remindi
    have hcount : ((runOf x labels).db.remindi.rows.countP fun row => decide
          (0 < if row.ownerId = s.service.ownerId then row.remaining now else 0)) =
        (runOf x labels).db.remindi.rows.countP fun row =>
          row.ownerId == s.service.ownerId && Repository.schedulerSelects now row := by
      apply List.countP_congr
      intro row _
      rw [decide_eq_true_eq, Bool.and_eq_true, beq_iff_eq]
      by_cases howner : row.ownerId = s.service.ownerId
      · rw [if_pos howner, remaining_pos]
        exact (and_iff_right howner).symm
      · rw [if_neg howner]
        exact ⟨fun h => absurd h (by omega), fun h => absurd h.1 howner⟩
    have hzero : db.work s.service.ownerId now = 0 := by
      rw [hcount] at hwork
      rcases hpolls.drains hdrainable hnow with hzero | hle
      · exact hzero
      · unfold Db.work at hle ⊢
        omega
    rw [← schedulerSelects_iff (hafter row hrow),
      unselected_of_work hzero row hrow howner]
    exact Bool.false_ne_true

namespace Sample

/-- A poll whose adapters answer at once. -/
def promptEnv : PollEnv :=
  { pollEnv with adapters := fun _ _ _ => ({ status := .unknown, summary := "" }, 0) }

/-- A poll that reads the items `first` and applies its evaluations. -/
theorem polls_cons {s : Scheduler} {now : OffsetDateTime} {n : Nat} {db db' : Db} {ids : List Uuid}
    (env : PollEnv) (guard : LeaseGuard) (lease : Option LeaseRow) (first : List Uuid)
    (report : PollReport) (clock : env.read.clock 0 = now)
    (read : ((s.service.schedulerCandidates s.config.candidateBatchSize).run env.read db).1.map
      (fun pair => (pair.1, pair.2.map (·.id))) = .ok (now, first))
    (ok : (s.pollOnce env guard lease db).result = .ok report)
    (applied : report.applied = report.selected)
    (rest : Polls s now n (s.pollOnce env guard lease db).db ids db') :
    Polls s now (n + 1) db (first ++ ids) db' := by
  obtain ⟨⟨now', candidates⟩, hread, hpair⟩ := except_map_ok.mp read
  obtain ⟨rfl, rfl⟩ := Prod.mk.inj hpair
  exact .poll clock hread ok applied rest

/-- The store after the first of two polls. -/
def polledOnce : Db :=
  ((schedulerOf false).pollOnce promptEnv granted (some grantedRow) waiting).db

def polledTwice : Db :=
  ((schedulerOf false).pollOnce promptEnv granted (some grantedRow) polledOnce).db

theorem two_polls :
    Polls (schedulerOf false) (second 1030) 2 waiting [uuid 0] polledTwice :=
  polls_cons promptEnv granted (some grantedRow) [uuid 0] ⟨1, 1, 0, 0⟩ (by decide +kernel)
    (by decide +kernel) (by decide +kernel) rfl
    (polls_cons promptEnv granted (some grantedRow) [] ⟨0, 0, 0, 0⟩ (by decide +kernel)
      (by decide +kernel) (by decide +kernel) rfl (.none _))

end Sample

/-- Two polls are enough for the one item that waits. -/
theorem sample_scheduler_drains :
    Polls (Sample.schedulerOf false) (Sample.second 1030) 2 Sample.waiting [Sample.uuid 0]
        Sample.polledTwice ∧
      ∀ row ∈ Sample.polledTwice.remindi.rows, row.ownerId = "owner" →
        ¬ row.NeedsEvaluation (Sample.second 1030) := by
  refine ⟨Sample.two_polls, ?_⟩
  refine (scheduler_drains ?_ ?_ (by decide +kernel) Sample.two_polls).2.2.2 (by decide +kernel)
  · intro label hlabel n
    obtain rfl := List.mem_singleton.mp hlabel
    have hsecond : 0 ≤ (Sample.second 1000).toUtc.year := by decide +kernel
    exact hsecond
  · unfold FromYearZero
    decide +kernel

end RemindiCore
