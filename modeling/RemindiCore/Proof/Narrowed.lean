import RemindiCore.Proof.CheckVisit
import RemindiCore.Proof.Coherence
import RemindiCore.Proof.YearZero

/-!
# The narrowed candidate query

A check that does not ask for scheduled items selects its candidates by their
columns.  It answers like a check that evaluates them all
(`narrowed_check_exact`): what the query leaves out is not ready, no evaluation
of a reachable item fails, and every stored item is read back where the clock
shows the year 0 or later.
-/

namespace RemindiCore

open CivilTime KeyedTable Transaction

/-! ## No evaluation fails -/

/-- What an evaluation asks of an item. -/
structure Evaluable (r : Remindi) : Prop where
  active : r.state.isActive = true
  snoozed : r.state = .snoozed → r.snoozeUntil.isSome = true
  trigger : r.trigger.validate = .ok ()

theorem Evaluable.evaluate {r : Remindi} (h : Evaluable r) (now : OffsetDateTime)
    (context : CheckContext) : ∃ r' result, r.evaluate now context .notEvaluated = .ok (r', result) := by
  cases hstate : r.state with
  | completed | cancelled =>
    have hactive := h.active
    rw [hstate] at hactive
    cases hactive
  | overdue | due =>
    simp only [Remindi.evaluate, hstate]
    exact ⟨_, _, rfl⟩
  | snoozed =>
    obtain ⟨deadline, hdeadline⟩ := Option.isSome_iff_exists.mp (h.snoozed hstate)
    have hdeadline : (r.checkedAt now).snoozeUntil = some deadline := hdeadline
    simp only [Remindi.evaluate, hstate, Remindi.evaluateSnooze, hdeadline]
    split <;> exact ⟨_, _, rfl⟩
  | scheduled =>
    have hsatisfaction : ∃ outcome,
        (r.checkedAt now).triggerSatisfaction now context .notEvaluated = .ok outcome := by
      unfold Remindi.triggerSatisfaction
      have htrigger : (r.checkedAt now).trigger = r.trigger := rfl
      rw [htrigger]
      split
      any_goals exact ⟨_, rfl⟩
      next adapter parameters poll manualCheckAt heq =>
      have hobject : parameters.isObject = true := by
        have hvalid := h.trigger
        simp only [heq, Trigger.validate] at hvalid
        split at hvalid
        · cases hvalid
        split at hvalid
        · cases hvalid
        · next hobject => simpa using hobject
      rw [hobject]
      exact ⟨_, rfl⟩
    obtain ⟨⟨observed, satisfied, readiness, events⟩, hsatisfaction⟩ := hsatisfaction
    simp only [Remindi.evaluate, hstate, hsatisfaction]
    split <;> exact ⟨_, _, rfl⟩

theorem TriggerStep.valid {request : UpdateRequest} {now : OffsetDateTime} {item item' : Remindi}
    (h : TriggerStep request now item item') (hitem : item.trigger.validate = .ok ()) :
    item'.trigger.validate = .ok () := by
  cases h with
  | keep h => exact hitem
  | install h hnext hactive hvalid =>
    unfold installed Remindi.resetSnooze
    dsimp only
    split <;> exact hvalid

theorem Operates.validTrigger {actor : Actor} {now : OffsetDateTime} {prior : Remindi} {call : Call}
    {mutation : Mutation} (h : Operates actor now prior call mutation)
    (hprior : prior.trigger.validate = .ok ()) : mutation.item.trigger.validate = .ok () := by
  cases h with
  | complete prepared validated ok => rwa [(completeItem_sameSchedule ok).trigger]
  | snooze prepared ok => rwa [(snoozeItem_sameSchedule ok).trigger]
  | cancel prepared ok => rwa [(cancelItem_sameSchedule ok).trigger]
  | update prepared ok =>
    obtain ⟨triggered, recurred, moved, steps, hitem, -, -⟩ := updateItem_ok ok
    have htriggered := steps.trigger.valid hprior
    have hmoved : moved.trigger = triggered.trigger := by
      rw [← show recurred.trigger = triggered.trigger by rw [steps.recurrence.eq]]
      cases steps.disposition <;> rfl
    rw [hitem]
    unfold bumpVersion
    split <;> exact hmoved ▸ htriggered

theorem Change.validTrigger {x : Externals} {s : System} {label : Label} {before : Option Remindi}
    {after : Remindi} {types : List EventType} (hchange : Change x s label before after types)
    (h : ∀ prior, before = some prior → prior.trigger.validate = .ok ()) :
    after.trigger.validate = .ok () := by
  have hwritten : ∀ r : Remindi, r.trigger.validate = .ok () →
      (r.trigger.mapNumbers x.readNumber).validate = .ok () := fun r hvalid =>
    (Trigger.validate_mapNumbers x.readNumber r.trigger).trans hvalid
  cases hchange with
  | add prepared fires => exact hwritten _ (prepareAdd_ok prepared).2.2.2.1
  | operate target operates => exact hwritten _ (operates.validTrigger (h _ rfl))
  | check hpending hitem evaluated =>
    exact hwritten _ (evaluated.sameSchedule.trigger ▸ h _ rfl)
  | poll hpoll hcandidates evaluated =>
    exact hwritten _ (evaluated.sameSchedule.trigger ▸ h _ rfl)

/-- **Every active item of a reachable store can be evaluated.** -/
theorem stored_items_evaluable (x : Externals) (labels : List Label) :
    ∀ row ∈ (runOf x labels).db.remindi.rows, row.state.isActive = true → Evaluable row := by
  intro row hrow hactive
  have hfound := Table.find?_of_mem hrow
  exact ⟨hactive, (stored_items_coherent x labels row.id row hfound).snoozeUntil.mpr,
    rows_invariant Change.validTrigger labels row.id row hfound⟩

/-! ## Both queries -/

section

variable {now : OffsetDateTime} {context : CheckContext}

theorem previews_evaluable (now : OffsetDateTime) (context : CheckContext) {rows : List Remindi} (h : ∀ row ∈ rows, Evaluable row) :
    ∃ ready, previews now context rows = .ok ready := by
  induction rows with
  | nil => exact ⟨[], rfl⟩
  | cons row rest ih =>
    obtain ⟨hrow, hrest⟩ := List.forall_mem_cons.mp h
    obtain ⟨ready, hready⟩ := ih hrest
    obtain ⟨_, _, hevaluate⟩ := hrow.evaluate now context
    unfold previews
    split
    · next herror =>
      rw [hevaluate] at herror
      cases herror
    · exact ⟨ready, hready⟩
    · rw [hready]
      exact ⟨_, rfl⟩

/-- A ready item is made by its row. -/
theorem ReadyItem.eq_of_prior {a b : ReadyItem now context} (h : a.prior = b.prior) : a = b := by
  obtain ⟨prior, ⟨remindi, readiness⟩, events, evaluated⟩ := a
  obtain ⟨prior', ⟨remindi', readiness'⟩, events', evaluated'⟩ := b
  obtain rfl : prior = prior' := h
  have heq := Except.ok.inj (evaluated.symm.trans evaluated')
  simp only [Prod.mk.injEq, EvaluationResult.mk.injEq, Option.some.injEq] at heq
  obtain ⟨rfl, rfl, rfl⟩ := heq
  rfl

/-- The same ready items in any order are sorted into the same list. -/
theorem sortReady_congr {ready ready' : List (ReadyItem now context)}
    (hdistinct : (ready.map (·.prior.id)).Nodup) (hdistinct' : (ready'.map (·.prior.id)).Nodup)
    (h : ∀ item, item ∈ ready ↔ item ∈ ready') : sortReady ready = sortReady ready' := by
  have hperm : ready.Perm ready' :=
    (List.perm_ext_iff_of_nodup (List.Nodup.of_map _ hdistinct) (List.Nodup.of_map _ hdistinct')).mpr h
  have hsorted := ((sortReady_perm ready).trans hperm).trans (sortReady_perm ready').symm
  refine hsorted.eq_of_pairwise (fun a b _ _ hab hba => ?_) (sortReady_sorted hdistinct)
    (sortReady_sorted hdistinct')
  exact absurd (lt_trans hab hba) (lt_irrefl _)

theorem mem_ready_iff {rows : List Remindi} {ready : List (ReadyItem now context)}
    (h : previews now context rows = .ok ready) {item : ReadyItem now context} :
    item ∈ ready ↔ item.prior ∈ rows := by
  constructor
  · intro hitem
    exact ((mem_previews h).mp ⟨item, hitem, rfl, rfl⟩).1
  · intro hrow
    obtain ⟨other, hother, hprior, -⟩ := (mem_previews h).mpr ⟨hrow, item.readyBy⟩
    rwa [ReadyItem.eq_of_prior hprior] at hother

end

theorem mapM_remindiFromRow_of {rows : List Remindi}
    (h : ∀ row ∈ rows, remindiFromRow row = .ok row) : rows.mapM remindiFromRow = .ok rows := by
  induction rows with
  | nil => rfl
  | cons row rest ih =>
    obtain ⟨hrow, hrest⟩ := List.forall_mem_cons.mp h
    rw [List.mapM_cons, hrow, ih hrest]
    rfl

/-- The active items of the scope can be read back. -/
def ReadableIn (ownerId : String) (scope : CheckScope) (db : Db) : Prop :=
  ∀ row ∈ db.remindi.rows, InScope ownerId scope row → row.state.isActive = true →
    remindiFromRow row = .ok row

variable {db : Db} {ownerId : String} {scope : CheckScope} {now : OffsetDateTime}

/-- Then neither query fails. -/
theorem checkCandidates_readable (hread : ReadableIn ownerId scope db)
    (hnow : (canonicalText now).isSome = true) (includeScheduled : Bool) :
    ∃ rows, Repository.checkCandidates ownerId scope.projectId scope.taskId now includeScheduled db =
      .ok rows := by
  unfold Repository.checkCandidates
  dsimp only
  split
  · refine ⟨_, mapM_remindiFromRow_of fun row hrow => ?_⟩
    obtain ⟨hrow, hactive⟩ := List.mem_filter.mp hrow
    obtain ⟨hrow, hscope⟩ := mem_filter_scope.mp hrow
    exact hread row hrow hscope hactive
  · obtain ⟨text, htext⟩ := Option.isSome_iff_exists.mp hnow
    have htime : timestamp now = .ok now.truncateMillis := by
      unfold timestamp canonicalTimestamp
      rw [htext]
    rw [htime]
    refine ⟨_, mapM_remindiFromRow_of fun row hrow => ?_⟩
    have hmem : ∀ {p : Remindi → Bool}, (∀ row, p row = true → row.state.isActive = true) →
        ∀ row ∈ (db.remindi.rows.filter fun row => row.ownerId == ownerId &&
          row.projectId == scope.projectId &&
            scope.taskId.all fun task => row.taskId == some task).filter p,
        remindiFromRow row = .ok row := by
      intro p hp row hrow
      obtain ⟨hrow, hselected⟩ := List.mem_filter.mp hrow
      obtain ⟨hrow, hscope⟩ := mem_filter_scope.mp hrow
      exact hread row hrow hscope (hp row hselected)
    rcases List.mem_append.mp hrow with hrow | hrow
    · rcases List.mem_append.mp hrow with hrow | hrow
      · rcases List.mem_append.mp hrow with hrow | hrow
        · refine hmem (fun row h => ?_) row hrow
          rcases Bool.or_eq_true_iff.mp h with h | h <;> rw [eq_of_beq h] <;> rfl
        · refine hmem (fun row h => ?_) row hrow
          rw [eq_of_beq (Bool.and_eq_true_iff.mp h).1]
          rfl
      · refine hmem (fun row h => ?_) row hrow
        rw [eq_of_beq (Bool.and_eq_true_iff.mp (Bool.and_eq_true_iff.mp h).1).1]
        rfl
    · refine hmem (fun row h => ?_) row hrow
      rw [eq_of_beq (Bool.and_eq_true_iff.mp h).1]
      rfl

/-- **What the narrowed query leaves out is not ready.** -/
theorem candidates_agree (hcolumns : db.Columns)
    (hevaluable : ∀ row ∈ db.remindi.rows, row.state.isActive = true → Evaluable row)
    (hread : ReadableIn ownerId scope db) (hnow : (canonicalText now).isSome = true) :
    ∃ rows ready rows' ready',
      Repository.checkCandidates ownerId scope.projectId scope.taskId now false db = .ok rows ∧
      Repository.checkCandidates ownerId scope.projectId scope.taskId now true db = .ok rows' ∧
      previews now scope.context rows = .ok ready ∧
      previews now scope.context rows' = .ok ready' ∧ sortReady ready = sortReady ready' := by
  obtain ⟨rows, hrows⟩ := checkCandidates_readable hread hnow false
  obtain ⟨rows', hrows'⟩ := checkCandidates_readable hread hnow true
  have hactive : ∀ {includeScheduled row}, Selects now includeScheduled row →
      row.state.isActive = true := by
    intro includeScheduled row h
    unfold Selects at h
    split at h
    · exact h
    · rcases h with (h | h) | ⟨h, -⟩ | ⟨h, -⟩ <;> rw [h] <;> rfl
  have hevaluate : ∀ {includeScheduled rows}, Repository.checkCandidates ownerId scope.projectId
      scope.taskId now includeScheduled db = .ok rows → ∀ row ∈ rows, Evaluable row := by
    intro includeScheduled rows h row hrow
    obtain ⟨hmem, -, hselects⟩ := (mem_checkCandidates h).mp hrow
    exact hevaluable row hmem (hactive hselects)
  obtain ⟨ready, hready⟩ := previews_evaluable now scope.context (hevaluate hrows)
  obtain ⟨ready', hready'⟩ := previews_evaluable now scope.context (hevaluate hrows')
  refine ⟨rows, ready, rows', ready', hrows, hrows', hready, hready', sortReady_congr ?_ ?_ ?_⟩
  · simpa [Function.comp_def] using
      ((checkCandidates_ok hrows).sublist (previews_sublist hready)).nodup
  · simpa [Function.comp_def] using
      ((checkCandidates_ok hrows').sublist (previews_sublist hready')).nodup
  intro item
  rw [mem_ready_iff hready, mem_ready_iff hready', mem_checkCandidates hrows,
    mem_checkCandidates hrows']
  refine and_congr_right fun hmem => and_congr_right fun hscope => ?_
  constructor
  · intro hselects
    unfold Selects
    rw [if_pos rfl]
    exact hactive hselects
  · intro hselects
    exact selects_of_ready (hcolumns _ hmem) (hread _ hmem hscope (hactive hselects)) hnow
      item.readyBy false

/-! ## The check -/

/-- Both reads of a check come to the same page, or fail in the same way. -/
theorem checkRead_narrowed (service : RemindiService) (actor : Actor) (request : CheckRequest)
    {env : Env} {n : Nat} (hcolumns : db.Columns)
    (hevaluable : ∀ row ∈ db.remindi.rows, row.state.isActive = true → Evaluable row)
    (hread : ∀ scope, request.scope actor = .ok scope → ReadableIn service.ownerId scope db)
    (hnow : (canonicalText (env.clock n)).isSome = true) :
    service.checkRead actor { request with includeScheduled := false } env n db =
      service.checkRead actor { request with includeScheduled := true } env n db := by
  unfold RemindiService.checkRead
  refine Txn.bind_congr fun _ _ _ hrun => ?_
  obtain ⟨hactor, rfl, rfl⟩ := Txn.ofExcept_ok.mp hrun
  refine Txn.bind_congr fun projectId _ _ hrun => ?_
  obtain ⟨hproject, rfl, rfl⟩ := Txn.ofExcept_ok.mp hrun
  refine Txn.bind_congr fun taskId _ _ hrun => ?_
  obtain ⟨htask, rfl, rfl⟩ := Txn.ofExcept_ok.mp hrun
  refine Txn.bind_congr fun sessionId _ _ hrun => ?_
  obtain ⟨hsession, rfl, rfl⟩ := Txn.ofExcept_ok.mp hrun
  refine Txn.bind_congr fun taskLineageId _ _ hrun => ?_
  obtain ⟨hlineage, rfl, rfl⟩ := Txn.ofExcept_ok.mp hrun
  refine Txn.bind_congr fun limit _ _ hrun => ?_
  obtain ⟨hlimit, rfl, rfl⟩ := Txn.ofExcept_ok.mp hrun
  refine Txn.bind_congr fun cursor _ _ hrun => ?_
  obtain ⟨hcursor, rfl, rfl⟩ := Txn.ofExcept_ok.mp hrun
  refine Txn.bind_congr fun now _ _ hclock => ?_
  obtain ⟨rfl, rfl⟩ := Tx.now_ok hclock
  refine Txn.bind_congr fun _ _ _ hbegin => ?_
  obtain rfl := Tx.database_ok hbegin
  have hscope : request.scope actor = .ok
      { projectId := projectId
        taskId := taskId
        context :=
          { sessionId := sessionId
            taskLineageId := taskLineageId
            lifecycleEvent := request.lifecycleEvent
            activeGoalIds := request.activeGoalIds }
        limit := limit } :=
    except_bind_ok.mpr ⟨_, hactor, except_bind_ok.mpr ⟨_, hproject, except_bind_ok.mpr ⟨_, htask,
      except_bind_ok.mpr ⟨_, hsession, except_bind_ok.mpr ⟨_, hlineage,
        except_bind_ok.mpr ⟨_, hlimit, rfl⟩⟩⟩⟩⟩⟩
  obtain ⟨rows, ready, rows', ready', hrows, hrows', hready, hready', hsorted⟩ :=
    candidates_agree hcolumns hevaluable (hread _ hscope) hnow
  refine Txn.call_bind_congr (a := rows) (b := rows') (t := db) (u := db) ?_ ?_ ?_
  · dsimp only
    rw [hrows]
    rfl
  · dsimp only
    rw [hrows']
    rfl
  · dsimp only at hready hready' ⊢
    rw [hready, hready']
    simp only [Txn.ofExcept, bind]
    dsimp only at hsorted
    rw [hsorted]

/-- **The narrowed query is exact** in every reachable store, with any cursor,
limit and failures of the database. -/
theorem narrowed_check_exact (x : Externals) (labels : List Label)
    (hclock : ClockFromYearZero labels) (ownerId : String) (actor : Actor) (request : CheckRequest)
    (readEnv persistEnv : Env) (hnow : (canonicalText (readEnv.clock 0)).isSome = true) :
    step x (runOf x labels)
        (.checkRead ownerId actor { request with includeScheduled := false } readEnv) =
      step x (runOf x labels)
        (.checkRead ownerId actor { request with includeScheduled := true } readEnv) ∧
    RemindiService.check ⟨x, ownerId⟩ actor { request with includeScheduled := false } readEnv
        persistEnv (runOf x labels).db =
      RemindiService.check ⟨x, ownerId⟩ actor { request with includeScheduled := true } readEnv
        persistEnv (runOf x labels).db := by
  have hread : ∀ scope, request.scope actor = .ok scope →
      ReadableIn ownerId scope (runOf x labels).db :=
    fun _ _ row hrow _ _ => stored_rows_readable hclock row hrow
  have hsame := checkRead_narrowed ⟨x, ownerId⟩ actor request (stored_columns labels)
    (stored_items_evaluable x labels) hread hnow
  simp only [step, RemindiService.check, Txn.run, hsame]
  exact ⟨trivial, trivial⟩

/-! ## Samples -/

/-- A reminder that fires at second 1000, checked then. -/
theorem sample_narrowed_check :
    RemindiService.check ⟨Sample.externals, "owner"⟩ Sample.agent
        { Sample.checkRequest with includeScheduled := false } (Sample.env 1000 1) (Sample.env 1000 2)
        (runOf Sample.externals [Sample.call (.add Sample.everyMinute) 500 0]).db =
      RemindiService.check ⟨Sample.externals, "owner"⟩ Sample.agent
        { Sample.checkRequest with includeScheduled := true } (Sample.env 1000 1) (Sample.env 1000 2)
        (runOf Sample.externals [Sample.call (.add Sample.everyMinute) 500 0]).db := by
  refine (narrowed_check_exact Sample.externals [Sample.call (.add Sample.everyMinute) 500 0] ?_
    "owner" Sample.agent Sample.checkRequest (Sample.env 1000 1) (Sample.env 1000 2)
    (by decide +kernel)).2
  intro label hlabel n
  obtain rfl := List.mem_singleton.mp hlabel
  show 0 ≤ (Sample.second 500).toUtc.year
  decide +kernel

end RemindiCore
