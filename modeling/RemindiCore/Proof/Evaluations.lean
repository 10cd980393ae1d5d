import RemindiCore.Proof.Effects

/-!
# What a stored evaluation has done

A check and the scheduler evaluate a row they have read and store the outcome
with `persistEvaluated`.  `Evaluated` is such an outcome; `Persisted` lists
everything that storing it has changed.
-/

namespace RemindiCore

open CivilTime JsonText KeyedTable Transaction

/-! ## The outcome of an evaluation -/

/-- The outcome of an evaluation of `prior` at `now` that calls for events. -/
inductive Evaluated (prior : Remindi) (now : OffsetDateTime) : Remindi → List EventType → Prop
  | intro {condition : ConditionEvaluation} {evaluated : Remindi} {result : EvaluationResult}
      (evaluation : prior.Evaluation now condition evaluated result) (events : result.events ≠ [])
      (detail : Option String) :
      Evaluated prior now
        (RemindiService.evaluatedVersion prior { evaluated with lastConditionDetail := detail } now)
        result.events

section

variable {prior evaluated after : Remindi} {now : OffsetDateTime}
  {condition : ConditionEvaluation} {result : EvaluationResult} {events : List EventType}

/-- An evaluation takes at most one step of the version, and takes it in each
evaluation without an adapter that calls for events. -/
theorem Remindi.Evaluation.version (h : prior.Evaluation now condition evaluated result) :
    evaluated.version = prior.version ∧ (condition = .notEvaluated → result.events = []) ∨
      evaluated.version = prior.version + 1 := by
  cases h with
  | asleep hstate => exact Or.inl ⟨rfl, fun _ => rfl⟩
  | awoken hstate overdue => exact Or.inr rfl
  | stays hstate readiness => exact Or.inl ⟨rfl, fun _ => rfl⟩
  | becomesOverdue hstate => exact Or.inr rfl
  | waits hstate observation =>
    refine Or.inl ⟨by rw [observation.only]; rfl, fun hc => ?_⟩
    rcases observation.events with h | ⟨hne, -⟩
    · exact h
    · exact absurd hc hne
  | becomesDue hstate observation readiness =>
    refine Or.inr ?_
    show _ + 1 = _
    rw [observation.only]
    rfl

theorem Evaluated.version (h : Evaluated prior now after events) :
    after.version = prior.version + 1 := by
  obtain ⟨evaluation, -, detail⟩ := h
  unfold RemindiService.evaluatedVersion
  split
  · next hv => exact congrArg (· + 1) hv
  · next hv =>
    rcases evaluation.version with ⟨h, -⟩ | h
    · exact absurd h hv
    · exact h

theorem Evaluated.ne_nil (h : Evaluated prior now after events) : events ≠ [] := by
  obtain ⟨-, hne, -⟩ := h
  exact hne

theorem Remindi.Observation.sameSchedule {satisfied : Bool}
    (h : prior.Observation now condition evaluated satisfied events) :
    SameSchedule evaluated prior := by
  rw [h.only]
  exact ⟨⟨rfl, rfl⟩, rfl, rfl, rfl, rfl⟩

theorem Remindi.Evaluation.sameSchedule (h : prior.Evaluation now condition evaluated result) :
    SameSchedule evaluated prior := by
  cases h with
  | waits hstate observation =>
    have h := observation.sameSchedule
    exact ⟨⟨h.id, h.ownerId⟩, h.trigger, h.recurrence, h.nextFireAt, h.occurrenceNo⟩
  | becomesDue hstate observation readiness =>
    have h := observation.sameSchedule
    exact ⟨⟨h.id, h.ownerId⟩, h.trigger, h.recurrence, h.nextFireAt, h.occurrenceNo⟩
  | _ => exact ⟨⟨rfl, rfl⟩, rfl, rfl, rfl, rfl⟩

theorem Evaluated.sameSchedule (h : Evaluated prior now after events) :
    SameSchedule after prior := by
  obtain ⟨evaluation, -, detail⟩ := h
  have h := evaluation.sameSchedule
  unfold RemindiService.evaluatedVersion
  split <;> exact ⟨⟨h.id, h.ownerId⟩, h.trigger, h.recurrence, h.nextFireAt, h.occurrenceNo⟩

end

/-- The preview of a check is already the outcome that is stored. -/
theorem ReadyItem.toEvaluated {now : OffsetDateTime} {context : CheckContext}
    (item : ReadyItem now context) (hevents : item.events ≠ []) :
    Evaluated item.prior now item.checked.remindi item.events := by
  have evaluation := Remindi.evaluate_ok item.evaluated
  have h := Evaluated.intro evaluation hevents item.checked.remindi.lastConditionDetail
  have hversion : ¬ item.checked.remindi.version = item.prior.version := by
    rcases evaluation.version with ⟨-, hnil⟩ | h
    · exact absurd (hnil rfl) hevents
    · omega
  unfold RemindiService.evaluatedVersion at h
  rwa [if_neg hversion] at h

theorem evaluateCandidate_ok {prior candidate : Remindi} {now : OffsetDateTime}
    {context : CheckContext} {condition : ConditionEvaluation} {detail : Option String}
    {result : EvaluationResult} (hevents : result.events ≠ [])
    (h : RemindiService.evaluateCandidate prior now context condition detail =
      .ok (candidate, result)) :
    Evaluated prior now candidate result.events := by
  unfold RemindiService.evaluateCandidate at h
  obtain ⟨⟨evaluated, result'⟩, hevaluate, h⟩ := except_bind_ok.mp h
  have evaluation := Remindi.evaluate_ok (domain_ok.mp hevaluate)
  dsimp only at h
  split at h
  · next hempty =>
    cases h
    exact absurd (List.isEmpty_iff.mp hempty) hevents
  · cases h
    split
    · exact .intro evaluation hevents detail
    · exact .intro evaluation hevents evaluated.lastConditionDetail

/-! ## Storing it -/

variable {env : Env} {n m : Nat} {db db' : Db} {service : RemindiService} {actor : Actor}
  {prior candidate : Remindi} {events : List EventType}

/-- The events of one evaluation. -/
structure EvaluationEvents (prior candidate : Remindi) (types : List EventType)
    (new : List RemindiEvent) : Prop where
  types : new.map (·.eventType) = types
  remindiId : ∀ event ∈ new, event.remindiId = candidate.id
  priorVersion : ∀ event ∈ new, event.priorVersion = some prior.version
  newVersion : ∀ event ∈ new, event.newVersion = some candidate.version

/-- The sequence numbers rise. -/
def Sequenced (events : List RemindiEvent) : Prop := events.Pairwise (·.sequence < ·.sequence)

/-- The next number is above all numbers so far. -/
theorem Sequenced.append {row : RemindiEvent} (h : Sequenced db.events.rows)
    (hrow : row.sequence = Repository.nextSequence db) : Sequenced (db.events.rows ++ [row]) := by
  unfold Repository.nextSequence at hrow
  rcases List.eq_nil_or_concat db.events.rows with hnil | ⟨front, last, hconcat⟩
  · rw [hnil]
    exact List.pairwise_singleton _ row
  · rw [hconcat, List.concat_eq_append] at h hrow ⊢
    rw [List.getLast?_append] at hrow
    have hlast : last.sequence < row.sequence := by
      rw [hrow]
      exact Nat.lt_succ_self _
    refine List.pairwise_append.mpr ⟨h, List.pairwise_singleton _ row, ?_⟩
    intro event hevent row' hrow'
    obtain rfl := List.mem_singleton.mp hrow'
    rcases List.mem_append.mp hevent with hfront | hevent
    · exact Nat.lt_trans ((List.pairwise_append.mp h).2.2 event hfront last
        (List.mem_singleton_self _)) hlast
    · obtain rfl := List.mem_singleton.mp hevent
      exact hlast

theorem appendEvaluated_ok {context : CheckContext} {detail : Option String} {u : Unit}
    (h : RemindiService.appendEvaluated actor prior candidate context detail events env n db =
      .ok (u, m, db')) :
    ∃ t new, db' = { db with events := t } ∧ t.rows = db.events.rows ++ new ∧
      EvaluationEvents prior candidate events new ∧
      (Sequenced db.events.rows → Sequenced t.rows) := by
  induction events generalizing n db with
  | nil =>
    obtain ⟨-, -, rfl⟩ := Txn.pure_ok.mp h
    exact ⟨db.events, [], rfl, (List.append_nil _).symm,
      ⟨rfl, by simp, by simp, by simp⟩, id⟩
  | cons eventType rest ih =>
    obtain ⟨_, _, _, happ, h⟩ := Txn.bind_ok.mp h
    obtain ⟨t, row, rfl, hrows, hrow, -⟩ := appendEvent_ok happ
    obtain ⟨t', new, rfl, hrows', hnew, hsequenced⟩ := ih h
    refine ⟨t', row :: new, rfl, ?_, ?_, ?_⟩
    · rw [hrows', hrows, List.append_assoc]
      rfl
    · exact
        { types := by rw [List.map_cons, hrow.eventType, hnew.types]
          remindiId := List.forall_mem_cons.mpr ⟨hrow.remindiId, hnew.remindiId⟩
          priorVersion := List.forall_mem_cons.mpr ⟨hrow.priorVersion, hnew.priorVersion⟩
          newVersion := List.forall_mem_cons.mpr ⟨hrow.newVersion, hnew.newVersion⟩ }
    · intro hdb
      refine hsequenced ?_
      dsimp only
      rw [hrows]
      exact hdb.append hrow.sequence

/-- Everything that storing an evaluation over the row `old` has changed. -/
structure Persisted (x : Externals) (db db' : Db) (prior old candidate : Remindi)
    (types : List EventType) : Prop where
  found : db.remindi.find? candidate.id = some old
  version : old.version = prior.version
  ownerId : old.ownerId = candidate.ownerId
  bound : candidate.bindUpdate = .ok ()
  checks : remindiChecks (candidate.writtenOver x old) = true
  remindi : db'.remindi = db.remindi.replace (candidate.writtenOver x old)
  links : db'.links = db.links
  events : ∃ new, db'.events.rows = db.events.rows ++ new ∧
    EvaluationEvents prior candidate types new
  sequenced : Sequenced db.events.rows → Sequenced db'.events.rows
  evidence : db'.evidence = db.evidence
  idempotency : db'.idempotency = db.idempotency

/-- **A stored evaluation found the version it was computed from**, or it has
missed its row, changed nothing and is not reported. -/
theorem persistEvaluated_result {readiness : Option Readiness} {context : CheckContext}
    {detail : Option String} {checked : Option CheckedItem}
    (h : service.persistEvaluated actor prior candidate readiness events context detail env n db =
      .ok (checked, m, db')) :
    checked = none ∧ db = db' ∧ Repository.Missed db candidate prior.version ∨
      checked = readiness.map (fun readiness => ⟨candidate, readiness⟩) ∧
        ∃ old, Persisted service.externals db db' prior old candidate events := by
  unfold RemindiService.persistEvaluated at h
  obtain ⟨current, _, _, hfind, h⟩ := Txn.bind_ok.mp h
  obtain ⟨rfl, hrow, -⟩ := findItem_ok hfind
  split at h
  · next hversion =>
    obtain ⟨rfl, -, rfl⟩ := Txn.pure_ok.mp h
    refine Or.inl ⟨rfl, rfl, fun row hrow' => Or.inr ?_⟩
    obtain rfl := Option.some.inj (hrow.symm.trans hrow')
    exact hversion
  next hversion =>
  obtain ⟨updated, _, _, hcas, h⟩ := Txn.bind_ok.mp h
  rcases Repository.updateCas_ok (Tx.statement_ok hcas) with
    ⟨rfl, rfl, hmissed⟩ | ⟨rfl, old, hold, howner, hexpected, hbound, hchecks, rfl⟩
  · obtain ⟨rfl, -, rfl⟩ := Txn.pure_ok.mp h
    exact Or.inl ⟨rfl, rfl, hmissed⟩
  obtain ⟨_, _, _, happ, h⟩ := Txn.bind_ok.mp h
  obtain ⟨t, new, rfl, hrows, hnew, hsequenced⟩ := appendEvaluated_ok happ
  obtain ⟨rfl, -, rfl⟩ := Txn.pure_ok.mp h
  exact Or.inr ⟨rfl, old,
    { found := hold
      version := hexpected
      ownerId := howner
      bound := hbound
      checks := hchecks
      remindi := rfl
      links := rfl
      events := ⟨new, hrows, hnew⟩
      sequenced := hsequenced
      evidence := rfl
      idempotency := rfl }⟩

theorem persistEvaluated_ok {readiness : Option Readiness} {context : CheckContext}
    {detail : Option String} {checked : Option CheckedItem}
    (h : service.persistEvaluated actor prior candidate readiness events context detail env n db =
      .ok (checked, m, db')) :
    db = db' ∨ ∃ old, Persisted service.externals db db' prior old candidate events := by
  rcases persistEvaluated_result h with ⟨-, hsame, -⟩ | ⟨-, hpersisted⟩
  · exact Or.inl hsame
  · exact Or.inr hpersisted

theorem evaluateOne_ok {now : OffsetDateTime} {context : CheckContext}
    {condition : ConditionEvaluation} {detail : Option String} {checked : Option CheckedItem}
    (h : service.evaluateOne actor prior now context condition detail env n db =
      .ok (checked, m, db')) :
    db = db' ∨ ∃ candidate events old, Evaluated prior now candidate events ∧
      Persisted service.externals db db' prior old candidate events := by
  unfold RemindiService.evaluateOne at h
  obtain ⟨⟨candidate, result⟩, _, _, hrun, h⟩ := Txn.bind_ok.mp h
  obtain ⟨hcandidate, -, rfl⟩ := Txn.ofExcept_ok.mp hrun
  dsimp only at h
  split at h
  · obtain ⟨-, -, rfl⟩ := Txn.pure_ok.mp h
    exact Or.inl rfl
  next hempty =>
  obtain ⟨_, _, _, hbegin, h⟩ := Txn.bind_ok.mp h
  obtain rfl := Tx.database_ok hbegin
  obtain ⟨_, _, _, hpersist, h⟩ := Txn.bind_ok.mp h
  obtain ⟨_, _, _, hcommit, h⟩ := Txn.bind_ok.mp h
  obtain rfl := Tx.database_ok hcommit
  obtain ⟨-, -, rfl⟩ := Txn.pure_ok.mp h
  rcases persistEvaluated_ok hpersist with rfl | ⟨old, hpersisted⟩
  · exact Or.inl rfl
  · have hne : result.events ≠ [] := fun h => hempty (List.isEmpty_iff.mpr h)
    exact Or.inr ⟨candidate, result.events, old, evaluateCandidate_ok hne hcandidate, hpersisted⟩

theorem applySchedulerEvaluation_ok {now : OffsetDateTime}
    {adapters : RemindiService.AdapterProvider} {u : Unit}
    (h : service.applySchedulerEvaluation actor prior now adapters env n db = .ok (u, m, db')) :
    db = db' ∨ ∃ candidate events old, Evaluated prior now candidate events ∧
      Persisted service.externals db db' prior old candidate events := by
  unfold RemindiService.applySchedulerEvaluation at h
  obtain ⟨_, _, _, hone, h⟩ := Txn.bind_ok.mp h
  obtain ⟨-, -, rfl⟩ := Txn.pure_ok.mp h
  exact evaluateOne_ok hone

/-! ## What a check and a poll have read -/

/-- Rows of the store, no two of one item. -/
structure ReadFrom (db : Db) (rows : List Remindi) : Prop where
  stored : ∀ row ∈ rows, row ∈ db.remindi.rows
  nodup : (rows.map (·.id)).Nodup

theorem ReadFrom.sublist {db : Db} {rows rows' : List Remindi} (h : ReadFrom db rows)
    (hsub : rows'.Sublist rows) : ReadFrom db rows' where
  stored row hrow := h.stored row (hsub.subset hrow)
  nodup := h.nodup.sublist (hsub.map _)

theorem ReadFrom.perm {db : Db} {rows rows' : List Remindi} (h : ReadFrom db rows)
    (hperm : rows'.Perm rows) : ReadFrom db rows' where
  stored row hrow := h.stored row (hperm.subset hrow)
  nodup := (hperm.map _).nodup_iff.mpr h.nodup

theorem readFrom_rows (db : Db) : ReadFrom db db.remindi.rows where
  stored _ hrow := hrow
  nodup := db.remindi.nodup

/-- Two selections that no row satisfies both of. -/
theorem ReadFrom.append {db : Db} {rows rows' : List Remindi} (h : ReadFrom db rows)
    (h' : ReadFrom db rows') (hdisjoint : ∀ row ∈ rows, row ∉ rows') :
    ReadFrom db (rows ++ rows') where
  stored row hrow := (List.mem_append.mp hrow).elim (h.stored row) (h'.stored row)
  nodup := by
    rw [List.map_append]
    refine List.nodup_append.mpr ⟨h.nodup, h'.nodup, ?_⟩
    intro id hid id' hid' e
    obtain ⟨a, ha, rfl⟩ := List.mem_map.mp hid
    obtain ⟨b, hb, rfl⟩ := List.mem_map.mp hid'
    obtain rfl := db.remindi.eq_of_key_eq (h.stored a ha) (h'.stored b hb) e
    exact hdisjoint a ha hb

theorem checkCandidates_ok {ownerId projectId : String} {taskId : Option String}
    {now : OffsetDateTime} {includeScheduled : Bool} {rows : List Remindi}
    (h : Repository.checkCandidates ownerId projectId taskId now includeScheduled db = .ok rows) :
    ReadFrom db rows := by
  unfold Repository.checkCandidates at h
  dsimp only at h
  split at h
  · rw [mapM_remindiFromRow_ok h]
    exact (readFrom_rows db).sublist (List.filter_sublist.trans List.filter_sublist)
  · obtain ⟨_, -, h⟩ := except_bind_ok.mp h
    rw [mapM_remindiFromRow_ok h]
    -- the four selections differ in the state, the last two in the trigger
    have hsub (p q : Remindi → Bool) : ReadFrom db ((db.remindi.rows.filter p).filter q) :=
      (readFrom_rows db).sublist (List.filter_sublist.trans List.filter_sublist)
    refine (((hsub _ _).append (hsub _ _) ?_).append (hsub _ _) ?_).append (hsub _ _) ?_
    all_goals
      intro row hrow hrow'
      simp only [List.mem_append, List.mem_filter, Bool.and_eq_true, Bool.or_eq_true,
        beq_iff_eq, Bool.not_eq_true'] at hrow hrow'
      grind

theorem previews_sublist {now : OffsetDateTime} {context : CheckContext} {rows : List Remindi}
    {ready : List (ReadyItem now context)} (h : previews now context rows = .ok ready) :
    (ready.map (·.prior)).Sublist rows := by
  induction rows generalizing ready with
  | nil =>
    cases h
    exact List.Sublist.refl _
  | cons row rest ih =>
    unfold previews at h
    split at h
    · cases h
    · exact (ih h).cons row
    · obtain ⟨ready', hready, h⟩ := except_bind_ok.mp h
      cases h
      exact (ih hready).cons_cons row

theorem checkRead_ok {request : CheckRequest} {pending : RemindiService.PendingCheck}
    (h : service.checkRead actor request env n db = .ok (pending, m, db')) :
    db = db' ∧ pending.service = service ∧ ReadFrom db (pending.ready.map (·.prior)) := by
  unfold RemindiService.checkRead at h
  obtain ⟨_, _, _, hrun, h⟩ := Txn.bind_ok.mp h
  obtain ⟨-, -, rfl⟩ := Txn.ofExcept_ok.mp hrun
  obtain ⟨_, _, _, hrun, h⟩ := Txn.bind_ok.mp h
  obtain ⟨-, -, rfl⟩ := Txn.ofExcept_ok.mp hrun
  obtain ⟨_, _, _, hrun, h⟩ := Txn.bind_ok.mp h
  obtain ⟨-, -, rfl⟩ := Txn.ofExcept_ok.mp hrun
  obtain ⟨_, _, _, hrun, h⟩ := Txn.bind_ok.mp h
  obtain ⟨-, -, rfl⟩ := Txn.ofExcept_ok.mp hrun
  obtain ⟨_, _, _, hrun, h⟩ := Txn.bind_ok.mp h
  obtain ⟨-, -, rfl⟩ := Txn.ofExcept_ok.mp hrun
  obtain ⟨_, _, _, hrun, h⟩ := Txn.bind_ok.mp h
  obtain ⟨-, -, rfl⟩ := Txn.ofExcept_ok.mp hrun
  obtain ⟨cursor, _, _, hrun, h⟩ := Txn.bind_ok.mp h
  obtain ⟨-, -, rfl⟩ := Txn.ofExcept_ok.mp hrun
  obtain ⟨_, _, _, hnow, h⟩ := Txn.bind_ok.mp h
  obtain ⟨-, rfl⟩ := Tx.now_ok hnow
  obtain ⟨_, _, _, hbegin, h⟩ := Txn.bind_ok.mp h
  obtain rfl := Tx.database_ok hbegin
  obtain ⟨candidates, _, _, hquery, h⟩ := Txn.bind_ok.mp h
  obtain ⟨hcandidates, rfl⟩ := Tx.query_ok hquery
  obtain ⟨ready, _, _, hrun, h⟩ := Txn.bind_ok.mp h
  obtain ⟨hready, -, rfl⟩ := Txn.ofExcept_ok.mp hrun
  obtain ⟨_, _, _, hrun, h⟩ := Txn.bind_ok.mp h
  obtain ⟨-, -, rfl⟩ := Txn.ofExcept_ok.mp hrun
  obtain ⟨rfl, -, rfl⟩ := Txn.pure_ok.mp h
  refine ⟨rfl, rfl, ?_⟩
  have hread := (checkCandidates_ok hcandidates).sublist (previews_sublist hready)
  have hperm : (sortReady ready).Perm ready := List.perm_insertionSort _ ready
  have hsorted := hread.perm (hperm.map (·.prior))
  refine hsorted.sublist (((List.take_sublist _ _).trans ?_).map _)
  unfold afterCursor
  cases cursor with
  | none => exact List.Sublist.refl _
  | some cursor => exact List.filter_sublist

theorem schedulerCandidates_ok {limit : Nat} {now : OffsetDateTime} {rows : List Remindi}
    (h : service.schedulerCandidates limit env n db = .ok ((now, rows), m, db')) :
    db = db' ∧ ReadFrom db rows := by
  unfold RemindiService.schedulerCandidates at h
  obtain ⟨_, _, _, hnow, h⟩ := Txn.bind_ok.mp h
  obtain ⟨-, rfl⟩ := Tx.now_ok hnow
  obtain ⟨_, _, _, hbegin, h⟩ := Txn.bind_ok.mp h
  obtain rfl := Tx.database_ok hbegin
  obtain ⟨_, _, _, hquery, h⟩ := Txn.bind_ok.mp h
  obtain ⟨hrows, rfl⟩ := Tx.query_ok hquery
  obtain ⟨e, -, rfl⟩ := Txn.pure_ok.mp h
  cases e
  refine ⟨rfl, ?_⟩
  unfold Repository.schedulerCandidates at hrows
  obtain ⟨_, -, hrows⟩ := except_bind_ok.mp hrows
  obtain ⟨_, -, hrows⟩ := except_bind_ok.mp hrows
  rw [mapM_remindiFromRow_ok hrows]
  have hselected : ReadFrom db (db.remindi.rows.filter fun row =>
      row.ownerId == service.ownerId && Repository.schedulerSelects now row) :=
    (readFrom_rows db).sublist List.filter_sublist
  exact (hselected.perm (List.perm_insertionSort Repository.waitsBefore _)).sublist
    (List.take_sublist _ _)

end RemindiCore
