import RemindiCore.Proof.CheckReport
import RemindiCore.Proof.Disposition
import RemindiCore.Proof.Firing
import RemindiCore.Proof.SchedulerDrain

/-!
# The end of a snooze

A snoozed row is reported and changed by nothing before its deadline, and by the
first evaluation that commits at or after it (`Sleeps.evaluate_early`,
`Sleeps.evaluate_late`).  The two candidate queries select it exactly when the
evaluator ends the snooze.  `snooze_resurfaces` says so of every run, with what the
item was before the snooze.
-/

namespace RemindiCore

open CivilTime KeyedTable Transaction Machine

/-! ## A sleeping row -/

/-- A stored row that is snoozed until `deadline`. -/
structure Sleeps (row : Remindi) (deadline : OffsetDateTime) : Prop where
  state : row.state = .snoozed
  snoozeUntil : row.snoozeUntil = some deadline
  dueSince : row.dueSince.isSome = true
  bound : row.Bound

/-- The clock has reached the instant since which the item is due plus its grace period. -/
def Remindi.OverdueAt (row : Remindi) (now : OffsetDateTime) : Prop :=
  ∃ dueSince, row.dueSince = some dueSince ∧
    (dueSince.addSeconds row.overdueAfterSeconds).utc ≤ now.utc

/-- An evaluation of the row reports it ready. -/
def Remindi.Surfaces (row : Remindi) (now : OffsetDateTime) (context : CheckContext)
    (condition : ConditionEvaluation) : Prop :=
  ∃ row' result, row.evaluate now context condition = .ok (row', result) ∧
    result.readiness.isSome = true

/-- The row after the snooze. -/
def Remindi.awoken (row : Remindi) (now : OffsetDateTime) (overdue : Bool) : Remindi :=
  { (row.checkedAt now).clearSnooze with
    state := if overdue then .overdue else .due
    updatedAt := now
    version := row.version + 1 }

/-- The transition that ends a snooze. -/
def awokenBy (overdue : Bool) : EventType := if overdue then .becameOverdue else .becameDue

section

variable {row : Remindi} {deadline now : OffsetDateTime}

theorem Sleeps.evaluate_early (h : Sleeps row deadline) (hlt : now.utc < deadline.utc)
    (context : CheckContext) (condition : ConditionEvaluation) :
    row.evaluate now context condition =
      .ok (row.checkedAt now, { readiness := none, events := [] }) := by
  unfold Remindi.evaluate
  simp only [h.state, Remindi.evaluateSnooze]
  rw [show (row.checkedAt now).snoozeUntil = some deadline from h.snoozeUntil]
  exact if_pos hlt

theorem Sleeps.evaluate_late (h : Sleeps row deadline) (hle : deadline.utc ≤ now.utc)
    (context : CheckContext) (condition : ConditionEvaluation) :
    ∃ overdue : Bool, (overdue = true ↔ row.OverdueAt now) ∧
      row.evaluate now context condition =
        .ok (row.awoken now overdue, ready (if overdue then .overdue else .due) [awokenBy overdue]) := by
  obtain ⟨dueSince, hdue⟩ := Option.isSome_iff_exists.mp h.dueSince
  refine ⟨decide ((dueSince.addSeconds row.overdueAfterSeconds).utc ≤ now.utc), ?_, ?_⟩
  · unfold Remindi.OverdueAt
    rw [decide_eq_true_eq, hdue]
    simp
  · have hgrace : min row.overdueAfterSeconds i64Max = row.overdueAfterSeconds :=
      Nat.min_eq_left h.bound.overdueAfterSeconds
    unfold Remindi.evaluate
    simp only [h.state, Remindi.evaluateSnooze]
    rw [show (row.checkedAt now).snoozeUntil = some deadline from h.snoozeUntil]
    dsimp only
    rw [if_neg (by omega), show (row.checkedAt now).dueSince = some dueSince from hdue,
      show (row.checkedAt now).overdueAfterSeconds = row.overdueAfterSeconds from rfl, hgrace]
    rfl

/-- **The evaluator ends the snooze from the deadline on.** -/
theorem Sleeps.surfaces_iff (h : Sleeps row deadline) {context : CheckContext}
    {condition : ConditionEvaluation} :
    row.Surfaces now context condition ↔ deadline.utc ≤ now.utc := by
  constructor
  · rintro ⟨row', result, hevaluate, hready⟩
    by_contra hlt
    rw [h.evaluate_early (by omega)] at hevaluate
    cases hevaluate
    cases hready
  · intro hle
    obtain ⟨overdue, -, hevaluate⟩ := h.evaluate_late hle context condition
    exact ⟨_, _, hevaluate, rfl⟩

theorem Sleeps.whole (h : Sleeps row deadline) : deadline.truncateMillis = deadline :=
  h.bound.whole h.snoozeUntil rfl

end

/-! ## The queries -/

section

variable {row : Remindi} {deadline now : OffsetDateTime} {db : Db}

theorem textReached_iff (hcolumn : row.snoozeUntil = some deadline) (hcolumns : row.Columns)
    (hyear : 0 ≤ deadline.year) (hnow : (canonicalText now).isSome = true) :
    Repository.textReached row.snoozeUntil now = true ↔ deadline.utc ≤ now.utc := by
  have hdeadline := hcolumns.snoozeUntil deadline hcolumn
  refine ⟨fun hreached => ?_, textReached_of_le hcolumn hdeadline hyear hnow⟩
  obtain ⟨a, ha⟩ := Option.isSome_iff_exists.mp hdeadline.2
  obtain ⟨b, hb⟩ := Option.isSome_iff_exists.mp hnow
  have hutc : deadline.toUtc = deadline := by
    rw [← hdeadline.1]
    rfl
  have hwhole : deadline.utc / 1000000 * 1000000 = deadline.utc :=
    congrArg OffsetDateTime.utc hdeadline.1
  rw [← hutc] at hyear
  unfold Repository.textReached at hreached
  rw [hcolumn, Option.bind_some, ha, hb] at hreached
  have hle := (canonicalText_le_iff hyear ha hb).mp (of_decide_eq_true hreached)
  omega

/-- **The query of a check selects the row when the evaluator ends its snooze.** -/
theorem Sleeps.checked_iff (h : Sleeps row deadline) (hmem : row ∈ db.remindi.rows)
    (hyear : 0 ≤ deadline.year) {ownerId : String} {scope : CheckScope} {rows : List Remindi}
    (hscope : InScope ownerId scope row)
    (hrows : Repository.checkCandidates ownerId scope.projectId scope.taskId now false db =
      .ok rows) (context : CheckContext) (condition : ConditionEvaluation) :
    row ∈ rows ↔ row.Surfaces now context condition := by
  have hnow : (canonicalText now).isSome = true := by
    unfold Repository.checkCandidates at hrows
    obtain ⟨t, ht, -⟩ := except_bind_ok.mp hrows
    exact timestamp_isOk.mp ⟨t, ht⟩
  have hcolumns : row.Columns := by
    have hstored := Remindi.columns_of_bound (Remindi.bindInsert_ok.mp h.bound.bound).1
    rwa [h.bound.stored] at hstored
  rw [h.surfaces_iff, mem_checkCandidates hrows, ← textReached_iff h.snoozeUntil hcolumns hyear hnow]
  unfold Selects
  rw [if_neg Bool.false_ne_true, h.state]
  constructor
  · rintro ⟨-, -, (hready | hready) | ⟨-, hreached⟩ | ⟨hscheduled, -⟩⟩
    · cases hready
    · cases hready
    · exact hreached
    · cases hscheduled
  · exact fun hreached => ⟨hmem, hscope, Or.inr (Or.inl ⟨rfl, hreached⟩)⟩

/-- **So does the query of the scheduler**, up to its limit. -/
theorem Sleeps.polled_iff (h : Sleeps row deadline) (hmem : row ∈ db.remindi.rows)
    {service : RemindiService} (howner : row.ownerId = service.ownerId) {limit : Nat} {env : Env}
    {rows : List Remindi}
    (hrows : ((service.schedulerCandidates limit).run env db).1 = .ok (now, rows))
    (context : CheckContext) (condition : ConditionEvaluation) :
    (row ∈ rows → row.Surfaces now context condition) ∧
      (row.Surfaces now context condition → row ∈ rows ∨ rows.length = limit) := by
  have hselected : row ∈ selectedItems service.ownerId now db ↔ deadline.utc ≤ now.utc := by
    rw [mem_selectedItems]
    simp only [Repository.schedulerSelects, h.state, h.snoozeUntil]
    rw [dayReached_whole h.whole]
    exact ⟨fun h => h.2.2, fun hle => ⟨hmem, howner, hle⟩⟩
  rw [h.surfaces_iff, schedulerCandidates_rows hrows, ← hselected]
  refine ⟨List.mem_of_mem_take, fun hmem => ?_⟩
  by_cases hlong : limit ≤ (selectedItems service.ownerId now db).length
  · exact Or.inr (List.length_take_of_le hlong)
  · rw [List.take_of_length_le (by omega)]
    exact Or.inl hmem

end

/-! ## The acceptance of a snooze -/

/-- What a snooze has made of the item. -/
structure Snoozed (x : Externals) (prior row : Remindi) (deadline : OffsetDateTime) : Prop where
  same : KeptSchedule x 1 row prior
  state : row.state = .snoozed
  snoozeUntil : row.snoozeUntil = some deadline
  dueSince : row.dueSince = prior.dueSince
  overdueAfterSeconds : row.overdueAfterSeconds = prior.overdueAfterSeconds

section

variable {x : Externals} {e : StepRecord} {id : Uuid} {prior row : Remindi}
  {deadline now : OffsetDateTime}

theorem Remindi.Bound.wholeFire (h : prior.Bound) : WholeFire prior :=
  congrArg Remindi.nextFireAt h.stored

theorem stored_dueSince (h : prior.Bound) (item : Remindi) (hdue : item.dueSince = prior.dueSince) :
    (item.writtenOver x prior).dueSince = prior.dueSince := by
  show item.dueSince.map OffsetDateTime.truncateMillis = _
  rw [hdue]
  exact congrArg Remindi.dueSince h.stored

/-- **A committed snooze leaves a sleeping row.** -/
theorem SoundStep.snoozed (h : SoundStep x e) (hbound : e.before.db.Bound)
    (hcommits : Commits e id) {ownerId : String} {actor : Actor} {request : SnoozeRequest}
    {horizon : Nat} {env : Env}
    (hlabel : e.label = .call ownerId actor (.snooze request horizon) env) :
    ∃ prior row, e.before.db.remindi.find? id = some prior ∧
      e.after.db.remindi.find? id = some row ∧
        Snoozed x prior row request.snoozeUntil.truncateMillis := by
  obtain ⟨s, label, response, s'⟩ := e
  obtain ⟨hs, htaken⟩ := h
  obtain rfl : s' = (step x s label).1 := congrArg Entry.after htaken
  dsimp only at hlabel hbound ⊢
  subst hlabel
  rcases step_view hs _ id with hview | ⟨before, after, types, hchange, hrecorded⟩
  · exact absurd hview hcommits
  · cases hchange with
    | @operate _ _ _ _ prior mutation target operates =>
      have hfound : s.db.remindi.find? id = some prior := hrecorded.rowBefore
      have hprior : prior.Bound := hbound prior (Table.find?_eq_some.mp hfound).1
      refine ⟨prior, _, hfound, hrecorded.rowAfter, ?_⟩
      cases operates with
      | @snooze _ request _ _ prepared ok =>
        obtain ⟨hok, -, -⟩ := snoozeItem_ok ok
        obtain ⟨-, -, hitem⟩ := Remindi.snooze_ok hok
        have hdeadline := (prepareSnooze_ok prepared).2.2.2
        refine ⟨(snoozeItem_sameSchedule ok).written hprior.wholeFire, ?_, ?_,
          stored_dueSince hprior _ ?_, ?_⟩
        · show mutation.item.state = _
          rw [hitem]
        · show mutation.item.snoozeUntil.map OffsetDateTime.truncateMillis = _
          rw [hitem, hdeadline]
          exact congrArg some (OffsetDateTime.truncateMillis_truncateMillis _)
        · rw [hitem]
        · show mutation.item.overdueAfterSeconds = _
          rw [hitem]

end

/-! ## The end of the snooze -/

/-- What the first committed evaluation has made of the item: `prior` is the item
before the snooze, `row` the item asleep. -/
structure Resurfaced (x : Externals) (e : StepRecord) (prior row after : Remindi)
    (now : OffsetDateTime) : Prop where
  same : KeptSchedule x 2 after prior
  state : after.state = .due ∨ after.state = .overdue
  overdue : after.state = .overdue ↔ prior.OverdueAt now
  dueSince : after.dueSince = prior.dueSince
  snoozeUntil : after.snoozeUntil = none
  snoozedFromState : after.snoozedFromState = none
  version : after.version = row.version + 1
  event : ∃ event, eventsOf e.after.db row.id = eventsOf e.before.db row.id ++ [event] ∧
    event.eventType = awokenBy (decide (after.state = .overdue))

section

variable {x : Externals} {e : StepRecord} {id : Uuid} {prior row : Remindi}
  {deadline now : OffsetDateTime}

theorem Snoozed.sleeps (h : Snoozed x prior row deadline) (hbound : row.Bound)
    (hcoherent : Coherent row) : Sleeps row deadline where
  state := h.state
  snoozeUntil := h.snoozeUntil
  dueSince := hcoherent.dueSince (Or.inr (Or.inr h.state))
  bound := hbound

theorem Snoozed.overdueAt (h : Snoozed x prior row deadline) :
    row.OverdueAt now ↔ prior.OverdueAt now := by
  unfold Remindi.OverdueAt
  rw [h.dueSince, h.overdueAfterSeconds]

/-- The candidate of an evaluation that ends a snooze, as it is stored. -/
theorem awoken_candidate {context : CheckContext} {condition : ConditionEvaluation}
    {detail : Option String} {candidate : Remindi} {result : EvaluationResult} {overdue : Bool}
    {readiness : Readiness}
    (houtcome : RemindiService.evaluateCandidate row now context condition detail =
      .ok (candidate, result)) (hevents : result.events ≠ [])
    (hevaluate : row.evaluate now context condition =
      .ok (row.awoken now overdue, ready readiness [awokenBy overdue])) :
    result.events = [awokenBy overdue] ∧
      candidate = if condition ≠ .notEvaluated then
        { row.awoken now overdue with lastConditionDetail := detail } else row.awoken now overdue := by
  obtain ⟨evaluated, heq, hcandidate⟩ := evaluateCandidate_evaluated hevents houtcome
  obtain ⟨rfl, rfl⟩ := Prod.mk.inj (Except.ok.inj (hevaluate.symm.trans heq))
  refine ⟨rfl, hcandidate.trans ?_⟩
  have hversion : (row.awoken now overdue).version = row.version + 1 := rfl
  unfold RemindiService.evaluatedVersion
  split <;> exact if_neg (by simp only [hversion]; omega)

/-- **The evaluation that ends a snooze.** -/
theorem EvaluationStep.resurfaced {context : CheckContext}
    {answer : Option RemindiService.AdapterResult} {candidate : Remindi} {result : EvaluationResult}
    (h : EvaluationStep x e row now context answer candidate result) (hrow : Sleeps row deadline)
    (hsnoozed : Snoozed x prior row deadline) :
    deadline.utc ≤ now.utc ∧ ∃ after, e.after.db.remindi.find? row.id = some after ∧
      Resurfaced x e prior row after now := by
  obtain ⟨evaluated, hevaluate⟩ := evaluate_of_candidate h.outcome
  have hle : deadline.utc ≤ now.utc := by
    by_contra hlt
    rw [hrow.evaluate_early (by omega)] at hevaluate
    cases hevaluate
    exact h.ne_nil rfl
  refine ⟨hle, _, h.recorded.rowAfter, ?_⟩
  obtain ⟨overdue, hoverdue, hawoken⟩ := hrow.evaluate_late hle context (conditionOf answer)
  obtain ⟨hevents, hcandidate⟩ := awoken_candidate h.outcome h.ne_nil hawoken
  have hsame : SameSchedule candidate row ∧ candidate.state = (row.awoken now overdue).state ∧
      candidate.dueSince = row.dueSince ∧ candidate.snoozeUntil = none ∧
        candidate.snoozedFromState = none ∧ candidate.version = row.version + 1 := by
    rw [hcandidate]
    split <;> exact ⟨⟨⟨rfl, rfl⟩, rfl, rfl, rfl, rfl⟩, rfl, rfl, rfl, rfl, rfl⟩
  obtain ⟨hsame, hstate, hdue, huntil, hfrom, hversion⟩ := hsame
  have hstate : (candidate.writtenOver x row).state = if overdue then .overdue else .due := hstate
  obtain ⟨new, hnew, htypes, -⟩ := h.recorded.events
  rw [hevents] at htypes
  obtain ⟨event, rfl, htype⟩ := List.map_eq_singleton_iff.mp htypes
  refine
    { same := (hsame.written hrow.bound.wholeFire).trans hsnoozed.same
      state := ?_
      overdue := ?_
      dueSince := (stored_dueSince hrow.bound candidate hdue).trans hsnoozed.dueSince
      snoozeUntil := ?_
      snoozedFromState := hfrom
      version := hversion
      event := ⟨event, hnew, ?_⟩ }
  · rw [hstate]
    cases overdue
    · exact Or.inl rfl
    · exact Or.inr rfl
  · rw [hstate, ← hsnoozed.overdueAt, ← hoverdue]
    cases overdue <;> simp
  · show candidate.snoozeUntil.map OffsetDateTime.truncateMillis = none
    rw [huntil]
    rfl
  · rw [hstate, htype]
    cases overdue <;> rfl

end

/-! ## Runs -/

/-- The item is still the row that the snooze has left. -/
abbrev Asleep (s : System) (row : Remindi) : Prop := s.db.remindi.find? row.id = some row

/-- **A snooze, from its acceptance to the next change of its user.** -/
structure SnoozeKept (x : Externals) (s : System) (after : List Label) (prior row : Remindi)
    (deadline : OffsetDateTime) : Prop where
  snoozed : Snoozed x prior row deadline
  /-- Until an evaluation commits the item is asleep. -/
  asleep : ∀ es e rest, history (step x) s after = es ++ e :: rest →
    (∀ k ∈ es, ¬ Commits k row.id) → Asleep e.before row
  /-- What a check before the deadline reports was read before the snooze. -/
  reported : ∀ e ∈ history (step x) s after, Asleep e.before row → ∀ result,
    e.response = .check (.ok result) → result.checkedAt.utc < deadline.utc →
      ∀ item ∈ result.items, item.remindi.id = row.id → item.remindi.version < row.version
  /-- What commits is an evaluation at or after the deadline. -/
  committed : ∀ e ∈ history (step x) s after, Asleep e.before row → Commits e row.id →
    ∃ now context answer candidate result,
      EvaluationStep x e row now context answer candidate result ∧ deadline.utc ≤ now.utc ∧
        ∃ row', e.after.db.remindi.find? row.id = some row' ∧ Resurfaced x e prior row row' now
  checked : ∀ e ∈ history (step x) s after, Asleep e.before row → 0 ≤ deadline.year →
    ∀ ownerId scope now rows, InScope ownerId scope row →
      Repository.checkCandidates ownerId scope.projectId scope.taskId now false e.before.db =
        .ok rows → ∀ context condition, row ∈ rows ↔ row.Surfaces now context condition
  polled : ∀ e ∈ history (step x) s after, Asleep e.before row →
    ∀ (service : RemindiService) env limit now rows, row.ownerId = service.ownerId →
      ((service.schedulerCandidates limit).run env e.before.db).1 = .ok (now, rows) →
        ∀ context condition, (row ∈ rows → row.Surfaces now context condition) ∧
          (row.Surfaces now context condition → row ∈ rows ∨ rows.length = limit)

section

variable {x : Externals} {e : StepRecord} {id : Uuid} {prior row : Remindi}
  {deadline now : OffsetDateTime}

/-- A row is there until a step commits. -/
theorem view_until {s : System} {ls : List Label} {es rest : List StepRecord}
    (h : history (step x) s ls = es ++ e :: rest) (hquiet : ∀ k ∈ es, ¬ Commits k id) :
    e.before.db.view id = s.db.view id := by
  induction es generalizing s ls with
  | nil =>
    cases ls with
    | nil => cases h
    | cons l ls =>
      obtain ⟨rfl, -⟩ := List.cons.inj h
      rfl
  | cons k es ih =>
    cases ls with
    | nil => cases h
    | cons l ls =>
      obtain ⟨rfl, hrest⟩ := List.cons.inj h
      obtain ⟨hfirst, hquiet⟩ := List.forall_mem_cons.mp hquiet
      exact (ih hrest hquiet).trans (not_not.mp hfirst)

/-- The answer of a check has the clock reading of its read. -/
theorem SoundStep.checkedAt (h : SoundStep x e) {pending : RemindiService.PendingCheck}
    {result : CheckResult} (hanswers : AnswersFor x e pending)
    (hresponse : e.response = .check (.ok result)) : result.checkedAt = pending.now := by
  obtain ⟨s, label, response, s'⟩ := e
  obtain ⟨hs, htaken⟩ := h
  obtain rfl : response = (step x s label).2 := congrArg Entry.response htaken
  cases label with
  | call ownerId actor call env => exact hanswers.elim
  | pollRead ownerId actor limit env => exact hanswers.elim
  | pollApply index adapters env => exact hanswers.elim
  | checkRead ownerId actor request env =>
    have hrun : (RemindiService.checkRead ⟨x, ownerId⟩ actor request).run env s.db =
        (.ok pending, s.db) := hanswers
    simp only [step, hrun] at hresponse
    split at hresponse
    · cases hresponse
      rfl
    · cases hresponse
  | checkPersist index env =>
    have hpending : s.checks[index]? = some pending := hanswers
    simp only [step, hpending, Response.check.injEq] at hresponse
    rcases hrun : (RemindiService.checkPersist pending).run env s.db with ⟨_ | result', db'⟩
    · rw [hrun] at hresponse
      cases hresponse
    · rw [hrun] at hresponse
      obtain rfl := Except.ok.inj hresponse
      obtain ⟨m, hok⟩ := Txn.run_ok.mp hrun
      obtain ⟨items, rfl, -⟩ := checkPersist_reported hok
      rfl

/-- An early evaluation is no ready item of a sleeping row. -/
theorem Sleeps.not_ready {context : CheckContext} (h : Sleeps row deadline)
    (hlt : now.utc < deadline.utc) (item : ReadyItem now context) : item.prior ≠ row := by
  intro hprior
  have hevaluated := item.evaluated
  rw [hprior, h.evaluate_early hlt] at hevaluated
  have hready := congrArg EvaluationResult.readiness (Prod.mk.inj (Except.ok.inj hevaluated)).2
  cases hready

/-- **A check before the deadline reports what was read before the snooze.** -/
theorem SoundStep.reported_early (h : SoundStep x e) (hrow : Sleeps row deadline)
    (hasleep : Asleep e.before row) {result : CheckResult}
    (hresponse : e.response = .check (.ok result)) (hlt : result.checkedAt.utc < deadline.utc)
    {a : CheckedItem} (ha : a ∈ result.items) (hid : a.remindi.id = row.id) :
    a.remindi.version < row.version := by
  obtain ⟨pending, hanswers, hanswered⟩ := h.check_answered hresponse
  rw [h.checkedAt hanswers hresponse] at hlt
  obtain ⟨item, hitem, hsettled⟩ :=
    (hanswered.reported.settled hanswered.distinct hanswered.fresh).1 a ha
  have hother := hrow.not_ready hlt item
  have hfresh := hanswered.fresh item hitem
  cases hsettled with
  | kept hevents =>
    obtain ⟨found, hfound, hle, heq⟩ := hfresh
    have hprior : item.prior.id = row.id := hid
    rw [hprior] at hfound
    obtain rfl := Option.some.inj (hasleep.symm.trans hfound)
    have hne : item.prior.version ≠ row.version := fun hversion => hother (heq hversion.symm).symm
    show item.prior.version < row.version
    omega
  | stored hevents hrecorded =>
    have hprior : item.prior.id = row.id := item.sameSchedule.id.symm.trans hid
    have hfound : e.before.db.remindi.find? item.prior.id = some item.prior := hrecorded.rowBefore
    rw [hprior] at hfound
    exact absurd (Option.some.inj (hfound.symm.trans hasleep)) hother

/-- A step that commits while the item is asleep ends its snooze. -/
theorem SoundStep.committed_asleep (h : SoundStep x e) (hrow : Sleeps row deadline)
    (hsnoozed : Snoozed x prior row deadline) (hasleep : Asleep e.before row)
    (hcommits : Commits e row.id) (hcall : e.label.isCall = false) :
    ∃ now context answer candidate result,
      EvaluationStep x e row now context answer candidate result ∧ deadline.utc ≤ now.utc ∧
        ∃ row', e.after.db.remindi.find? row.id = some row' ∧ Resurfaced x e prior row row' now := by
  obtain ⟨found, now, context, answer, candidate, result, hid, hstep⟩ := h.evaluation hcommits hcall
  have hfound : e.before.db.remindi.find? found.id = some found := hstep.recorded.rowBefore
  rw [hid] at hfound
  obtain rfl := Option.some.inj (hasleep.symm.trans hfound)
  exact ⟨now, context, answer, candidate, result, hstep, hstep.resurfaced hrow hsnoozed⟩

end

/-- **A snooze suppresses the item and then resurfaces the same occurrence.** -/
theorem snooze_resurfaces (x : Externals) (before : List Label) (label : Label) (ownerId : String)
    (actor : Actor) (request : SnoozeRequest) (horizon : Nat) (env : Env) (id : Uuid)
    (hlabel : label = .call ownerId actor (.snooze request horizon) env)
    (haccepted : Commits (entry (step x) (runOf x before) label) id) (after : List Label)
    (hquiet : ∀ e ∈ history (step x) (step x (runOf x before) label).1 after,
      e.label.isCall = true → ¬ Commits e id) :
    ∃ prior row, (runOf x before).db.remindi.find? id = some prior ∧
      (step x (runOf x before) label).1.db.remindi.find? id = some row ∧
        SnoozeKept x (step x (runOf x before) label).1 after prior row
          request.snoozeUntil.truncateMillis := by
  have hreached : (step x (runOf x before) label).1 = runOf x (before ++ [label]) :=
    (final_append before [label]).symm
  have hsound : ∀ e ∈ history (step x) (step x (runOf x before) label).1 after, SoundStep x e := by
    intro e he
    have hmem : e ∈ historyOf x (before ++ [label] ++ after) := by
      unfold historyOf
      rw [history_append, List.mem_append]
      right
      show e ∈ history (step x) (runOf x (before ++ [label])) after
      rw [← hreached]
      exact he
    exact soundStep_of_mem hmem
  obtain ⟨prior, row, hprior, hrow, hsnoozed⟩ := SoundStep.snoozed
    ⟨inFlight_runOf before, rfl⟩ (stored_rows_bound before) haccepted hlabel
  obtain rfl : row.id = id := (Table.find?_eq_some.mp hrow).2
  have hsleeps : Sleeps row request.snoozeUntil.truncateMillis := by
    change (step x (runOf x before) label).1.db.remindi.find? row.id = some row at hrow
    rw [hreached] at hrow
    exact hsnoozed.sleeps (stored_rows_bound _ row (Table.find?_eq_some.mp hrow).1)
      (stored_items_coherent x _ _ row hrow)
  refine ⟨prior, row, hprior, hrow, hsnoozed, ?_, ?_, ?_, ?_, ?_⟩
  · intro es e rest hhistory hnone
    exact (congrArg ItemView.row (view_until hhistory hnone)).trans hrow
  · intro e he hasleep result hresponse hlt a ha hid
    exact (hsound e he).reported_early hsleeps hasleep hresponse hlt ha hid
  · intro e he hasleep hcommits
    have hcall : e.label.isCall = false := by
      by_contra hcall
      exact hquiet e he (by simpa using hcall) hcommits
    exact (hsound e he).committed_asleep hsleeps hsnoozed hasleep hcommits hcall
  · intro e he hasleep hyear ownerId scope now rows hscope hrows context condition
    exact hsleeps.checked_iff (Table.find?_eq_some.mp hasleep).1 hyear hscope hrows context condition
  · intro e he hasleep service env limit now rows howner hrows context condition
    exact hsleeps.polled_iff (Table.find?_eq_some.mp hasleep).1 howner hrows context condition

/-! ## Samples -/

namespace Sample

/-- The item that is due since second 1000 is snoozed until second 2000. -/
def snoozeCall : Label := call (.snooze snoozeUntil2000 3600000000000) 1010 2

/-- The checks of one session, each with its clock: at second 1500 the item is asleep,
the check at second 2000 ends the snooze, and one whose clock is behind sees it due. -/
def wakingChecks : List Label :=
  [.checkRead "owner" agent checkRequest (env 1500 9),
    .checkRead "owner" agent checkRequest (env 2000 9), .checkPersist 0 (env 2000 3),
    .checkRead "owner" agent checkRequest (env 1990 9)]

/-- The clock of a check's answer and the items it reports. -/
def reportedAt : Response → Option (OffsetDateTime × List Uuid)
  | .check (.ok result) => some (result.checkedAt, result.items.map (·.remindi.id))
  | _ => none

theorem reportedAt_eq_some {response : Response} {a : OffsetDateTime × List Uuid}
    (h : reportedAt response = some a) : ∃ result, response = .check (.ok result) := by
  cases response with
  | check answer =>
    cases answer with
    | error => cases h
    | ok result => exact ⟨result, rfl⟩
  | _ => cases h

theorem snoozeCall_commits :
    Commits (entry (step externals) (runOf externals dueRun) snoozeCall) (uuid 0) :=
  sample_commits dueRun snoozeCall (by decide +kernel)

theorem wakingChecks_quiet {x : Externals} {s : System} :
    ∀ e ∈ history (step x) s wakingChecks, e.label.isCall = false := by
  intro e he
  have hlabels : ∀ l ∈ wakingChecks, l.isCall = false := by decide
  exact hlabels e.label (label_mem_of_history he)

theorem wakingChecks_answers :
    (history (step externals) (step externals (runOf externals dueRun) snoozeCall).1
        wakingChecks).map (fun e => reportedAt e.response) =
      [some (second 1500, []), none, some (second 2000, [uuid 0]),
        some (second 1990, [uuid 0])] := by
  decide +kernel

/-- The check whose clock is second 1990 reports the item: an evaluation with a later
clock came first. -/
theorem woken_reported_early :
    ∃ e ∈ history (step externals) (step externals (runOf externals dueRun) snoozeCall).1
        wakingChecks, ∃ result, e.response = .check (.ok result) ∧
      result.checkedAt.utc < snoozeUntil2000.snoozeUntil.utc ∧
        ∃ item ∈ result.items, item.remindi.id = uuid 0 := by
  have hanswer : some (second 1990, [uuid 0]) ∈ (history (step externals)
      (step externals (runOf externals dueRun) snoozeCall).1 wakingChecks).map
        (fun e => reportedAt e.response) := by
    rw [wakingChecks_answers]
    decide
  obtain ⟨e, he, hreported⟩ := List.mem_map.mp hanswer
  obtain ⟨result, hresponse⟩ := reportedAt_eq_some hreported
  rw [hresponse] at hreported
  obtain ⟨hclock, hitems⟩ := Prod.mk.inj (Option.some.inj hreported)
  obtain ⟨item, hitem, hid⟩ := List.map_eq_singleton_iff.mp hitems
  refine ⟨e, he, result, hresponse, ?_, item, hitem ▸ List.mem_singleton_self item, hid⟩
  rw [hclock]
  decide

/-- A check has made the condition due, by its manual deadline. -/
def measuredDue : List Label :=
  [call (.add measured) 500 0, .checkRead "owner" agent checkRequest (env 1000 9),
    .checkPersist 0 (env 1000 1)]

/-- The snooze and the evaluation that ends it have each read the number in the
parameters again. -/
theorem woken_reread : ∃ prior row,
    (runOf rereading measuredDue).db.remindi.find? (uuid 0) = some prior ∧
      (final (step rereading) (step rereading (runOf rereading measuredDue) snoozeCall).1
        wakingChecks).db.remindi.find? (uuid 0) = some row ∧
      row.state = .overdue ∧ row.trigger ≠ prior.trigger := by
  set woken := final (step rereading) (step rereading (runOf rereading measuredDue) snoozeCall).1
    wakingChecks with hwoken
  have hstate : (woken.db.remindi.find? (uuid 0)).map (·.state) = some .overdue := by
    rw [hwoken]
    decide +kernel
  have hbefore : storedLimit (runOf rereading measuredDue) = some (measure 7) := by
    decide +kernel
  have hafter : storedLimit woken = some (measure 9) := by
    rw [hwoken]
    decide +kernel
  obtain ⟨prior, row, hprior, hrow, hdiffers⟩ := moves_trigger hbefore hafter (by decide)
  rw [hrow] at hstate
  exact ⟨prior, row, hprior, hrow, Option.some.inj hstate, hdiffers⟩

end Sample

open Sample in
/-- The sample's item is asleep at second 1500 and wakes up at second 2000. -/
theorem sample_snooze_resurfaces :
    ∃ prior row, (runOf externals dueRun).db.remindi.find? (uuid 0) = some prior ∧
      (step externals (runOf externals dueRun) snoozeCall).1.db.remindi.find? (uuid 0) = some row ∧
        SnoozeKept externals (step externals (runOf externals dueRun) snoozeCall).1 wakingChecks
          prior row (second 2000) := by
  refine snooze_resurfaces externals dueRun snoozeCall "owner" agent snoozeUntil2000 3600000000000
    (env 1010 2) (uuid 0) rfl snoozeCall_commits wakingChecks ?_
  intro e he hcall
  rw [wakingChecks_quiet e he] at hcall
  cases hcall

open Sample in
/-- A check whose clock is before the deadline reports an item that was woken up before,
and the trigger of a woken item may have its numbers read again. -/
theorem reported_early_and_reread :
    (Commits (entry (step externals) (runOf externals dueRun) snoozeCall) (uuid 0) ∧
      (∀ e ∈ history (step externals) (step externals (runOf externals dueRun) snoozeCall).1
        wakingChecks, e.label.isCall = false) ∧
      ¬ ∀ e ∈ history (step externals) (step externals (runOf externals dueRun) snoozeCall).1
          wakingChecks, ∀ result, e.response = .check (.ok result) →
        result.checkedAt.utc < snoozeUntil2000.snoozeUntil.utc →
          ∀ item ∈ result.items, item.remindi.id ≠ uuid 0) ∧
      Commits (entry (step rereading) (runOf rereading measuredDue) snoozeCall) (uuid 0) ∧
      (∀ e ∈ history (step rereading) (step rereading (runOf rereading measuredDue) snoozeCall).1
        wakingChecks, e.label.isCall = false) ∧
      ¬ ∀ prior row, (runOf rereading measuredDue).db.remindi.find? (uuid 0) = some prior →
          (final (step rereading) (step rereading (runOf rereading measuredDue) snoozeCall).1
            wakingChecks).db.remindi.find? (uuid 0) = some row →
        row.state = .due ∨ row.state = .overdue → row.trigger = prior.trigger := by
  refine ⟨⟨snoozeCall_commits, wakingChecks_quiet, fun hclaim => ?_⟩,
    sample_commits _ _ (by decide +kernel), wakingChecks_quiet, fun hclaim => ?_⟩
  · obtain ⟨e, he, result, hresponse, hearly, item, hitem, hid⟩ := woken_reported_early
    exact hclaim e he result hresponse hearly item hitem hid
  · obtain ⟨prior, row, hprior, hrow, hoverdue, hdiffers⟩ := woken_reread
    exact hdiffers (hclaim prior row hprior hrow (Or.inr hoverdue))

end RemindiCore
