import RemindiCore.Proof.CheckReport
import RemindiCore.Proof.Grid

/-!
# A committed evaluation, with all it was given

A step that is not a call and changes an item is an evaluation of the row that
is stored: by a check, which asks no adapter, or by the scheduler, which asks
the adapter of a condition.  `EvaluationStep` keeps what the evaluator was given
and what it made of it.
-/

namespace RemindiCore

open CivilTime JsonText KeyedTable Transaction Machine

/-- The adapter's answer as the evaluator takes it. -/
def conditionOf (answer : Option RemindiService.AdapterResult) : ConditionEvaluation :=
  (answer.map fun result => RemindiService.mapStatus result.status).getD .notEvaluated

/-- The step has read the row, and evaluates it with a clock reading, a context
and an adapter's answer. -/
inductive Evaluates (s : System) : Label → Remindi → OffsetDateTime → CheckContext →
    Option RemindiService.AdapterResult → Prop
  | check {index : Nat} {env : Env} {pending : RemindiService.PendingCheck}
      {item : ReadyItem pending.now pending.context} (hpending : s.checks[index]? = some pending)
      (hitem : item ∈ pending.ready) :
      Evaluates s (.checkPersist index env) item.prior pending.now pending.context none
  | poll {index : Nat} {adapters : RemindiService.AdapterProvider} {env : Env}
      {poll : PendingPoll} {prior : Remindi} {rest : List Remindi}
      (hpoll : s.polls[index]? = some poll) (hcandidates : poll.candidates = prior :: rest) :
      Evaluates s (.pollApply index adapters env) prior poll.now RemindiService.schedulerContext
        (RemindiService.evaluateCondition adapters prior)

/-- The step has committed an evaluation of the stored row `prior`. -/
structure EvaluationStep (x : Externals) (e : StepRecord) (prior : Remindi)
    (now : OffsetDateTime) (context : CheckContext)
    (answer : Option RemindiService.AdapterResult) (candidate : Remindi)
    (result : EvaluationResult) : Prop where
  evaluates : Evaluates e.before e.label prior now context answer
  outcome : RemindiService.evaluateCandidate prior now context (conditionOf answer)
    (answer.map (·.summary)) = .ok (candidate, result)
  ne_nil : result.events ≠ []
  recorded : Recorded (e.before.db.view prior.id) (e.after.db.view prior.id) (some prior)
    (candidate.writtenOver x prior) result.events

/-! ## Checks -/

section

variable {now : OffsetDateTime} {context : CheckContext}

/-- The preview of a check is what an evaluation without an adapter makes of the row. -/
theorem ReadyItem.outcome (item : ReadyItem now context) (hevents : item.events ≠ []) :
    RemindiService.evaluateCandidate item.prior now context .notEvaluated none =
      .ok (item.checked.remindi,
        { readiness := some item.checked.readiness, events := item.events }) := by
  have hversion : ¬ item.checked.remindi.version = item.prior.version := by
    have h := (item.toEvaluated hevents).version
    omega
  have hempty : item.events.isEmpty = false := by
    rw [List.isEmpty_eq_false_iff]
    exact hevents
  unfold RemindiService.evaluateCandidate RemindiService.evaluatedVersion
  rw [item.evaluated]
  simp [domain, Except.mapError, bind, Except.bind, pure, Except.pure, hempty, hversion]

/-- The transaction of a check, item by item: nothing, or the stored preview. -/
theorem Reported.committed {x : Externals} {db db' : Db} {ready : List (ReadyItem now context)}
    {items : List CheckedItem} (h : Reported x db ready items db')
    (hdistinct : (ready.map (·.prior.id)).Nodup) (hfresh : ∀ item ∈ ready, Fresh db item.prior)
    (id : Uuid) :
    db'.view id = db.view id ∨ ∃ item ∈ ready, item.prior.id = id ∧ item.events ≠ [] ∧
      Recorded (db.view item.prior.id) (db'.view item.prior.id) (some item.prior)
        (item.checked.remindi.writtenOver x item.prior) item.events := by
  obtain ⟨hitems, hother⟩ := h.settled hdistinct hfresh
  refine (hother id).imp_right ?_
  rintro ⟨item, hmem, hid, hevents, hlisted⟩
  refine ⟨item, hmem, hid, hevents, ?_⟩
  obtain ⟨other, hother, hsettled⟩ := hitems item.checked hlisted
  generalize ha : item.checked = a at hsettled
  have hchecked : a.remindi.id = item.prior.id := by
    rw [← ha]
    exact item.sameSchedule.id
  cases hsettled with
  | kept hnone =>
    obtain rfl : other = item := List.inj_on_of_nodup_map hdistinct hother hmem hchecked
    exact absurd hnone hevents
  | stored hsome hrecorded =>
    obtain rfl : other = item := List.inj_on_of_nodup_map hdistinct hother hmem
      (other.sameSchedule.id.symm.trans hchecked)
    exact hrecorded

end

/-! ## Polls -/

section

variable {env : Env} {n m : Nat} {db db' : Db} {service : RemindiService} {actor : Actor}
  {prior : Remindi} {now : OffsetDateTime}

/-- Storing an evaluation, with its outcome. -/
theorem evaluateOne_result {context : CheckContext} {condition : ConditionEvaluation}
    {detail : Option String} {checked : Option CheckedItem}
    (h : service.evaluateOne actor prior now context condition detail env n db =
      .ok (checked, m, db')) :
    db = db' ∨ ∃ candidate result old,
      RemindiService.evaluateCandidate prior now context condition detail =
        .ok (candidate, result) ∧ result.events ≠ [] ∧
      Persisted service.externals db db' prior old candidate result.events := by
  unfold RemindiService.evaluateOne at h
  obtain ⟨⟨candidate, result⟩, _, _, hrun, h⟩ := Txn.bind_ok.mp h
  obtain ⟨hcandidate, -, rfl⟩ := Txn.ofExcept_ok.mp hrun
  dsimp only at h
  split at h
  · obtain ⟨-, -, rfl⟩ := Txn.pure_ok.mp h
    exact Or.inl rfl
  next hempty =>
  obtain ⟨_, _, _, hbegin, h⟩ := Txn.bind_ok.mp h
  obtain rfl := Tx.database_ok hbegin
  obtain ⟨_, _, _, hpersist, h⟩ := Txn.bind_ok.mp h
  obtain ⟨_, _, _, hcommit, h⟩ := Txn.bind_ok.mp h
  obtain rfl := Tx.database_ok hcommit
  obtain ⟨-, -, rfl⟩ := Txn.pure_ok.mp h
  rcases persistEvaluated_ok hpersist with rfl | ⟨old, hpersisted⟩
  · exact Or.inl rfl
  · exact Or.inr ⟨candidate, result, old, hcandidate,
      fun h => hempty (List.isEmpty_iff.mpr h), hpersisted⟩

theorem applySchedulerEvaluation_result {adapters : RemindiService.AdapterProvider} {u : Unit}
    (h : service.applySchedulerEvaluation actor prior now adapters env n db = .ok (u, m, db')) :
    db = db' ∨ ∃ candidate result old,
      RemindiService.evaluateCandidate prior now RemindiService.schedulerContext
        (conditionOf (RemindiService.evaluateCondition adapters prior))
        ((RemindiService.evaluateCondition adapters prior).map (·.summary)) =
          .ok (candidate, result) ∧ result.events ≠ [] ∧
      Persisted service.externals db db' prior old candidate result.events := by
  unfold RemindiService.applySchedulerEvaluation at h
  obtain ⟨_, _, _, hone, h⟩ := Txn.bind_ok.mp h
  obtain ⟨-, -, rfl⟩ := Txn.pure_ok.mp h
  exact evaluateOne_result hone

end

/-! ## Steps -/

def Label.isCall : Label → Bool
  | .call _ _ _ _ => true
  | .checkRead _ _ _ _ | .checkPersist _ _ | .pollRead _ _ _ _ | .pollApply _ _ _ => false

section

variable {x : Externals} {e : StepRecord} {id : Uuid}

/-- **A step that is not a call commits evaluations only.** -/
theorem SoundStep.evaluation (h : SoundStep x e) (hc : Commits e id)
    (hcall : e.label.isCall = false) :
    ∃ prior now context answer candidate result, prior.id = id ∧
      EvaluationStep x e prior now context answer candidate result := by
  obtain ⟨s, label, response, s'⟩ := e
  obtain ⟨hs, htaken⟩ := h
  obtain rfl : s' = (step x s label).1 := congrArg Entry.after htaken
  dsimp only at hs hcall
  cases label with
  | call ownerId actor call env => cases hcall
  | checkRead ownerId actor request env =>
    refine absurd (congrArg (fun db => Db.view db id) ?_) hc
    unfold step
    dsimp only
    split
    · rfl
    · split <;> rfl
  | pollRead ownerId actor limit env =>
    refine absurd (congrArg (fun db => Db.view db id) ?_) hc
    unfold step
    dsimp only
    split <;> rfl
  | checkPersist index env =>
    cases hpending : s.checks[index]? with
    | none =>
      rw [step_checkPersist_none hpending] at hc
      exact absurd rfl hc
    | some pending =>
      rw [step_checkPersist_some hpending] at hc ⊢
      have hmem := List.mem_of_getElem? hpending
      rcases hrun : (RemindiService.checkPersist pending).run env s.db with ⟨_ | result, db'⟩
      · rw [hrun] at hc
        exact absurd (congrArg (fun db => Db.view db id) (Txn.run_error hrun)) hc
      rw [hrun] at hc
      obtain ⟨m, hok⟩ := Txn.run_ok.mp hrun
      obtain ⟨items, -, hreported⟩ := checkPersist_reported hok
      obtain ⟨item, hitem, hid, hevents, hrecorded⟩ :=
        (hreported.committed (hs.distinct pending hmem) (hs.checks pending hmem) id).resolve_left hc
      rw [hs.checkers pending hmem] at hrecorded
      exact ⟨item.prior, pending.now, pending.context, none, item.checked.remindi, _, hid,
        .check hpending hitem, item.outcome hevents, hevents, hrecorded⟩
  | pollApply index adapters env =>
    cases hpoll : s.polls[index]? with
    | none =>
      rw [step_pollApply_none hpoll] at hc
      exact absurd rfl hc
    | some poll =>
    cases hcandidates : poll.candidates with
    | nil =>
      rw [step_pollApply_nil hpoll hcandidates] at hc
      exact absurd rfl hc
    | cons prior rest =>
      have hmem := List.mem_of_getElem? hpoll
      have hfresh := hs.polls poll hmem prior
        (by rw [hcandidates]; exact List.mem_cons_self)
      rw [step_pollApply_cons hpoll hcandidates] at hc ⊢
      rcases hrun : (poll.service.applySchedulerEvaluation poll.actor prior poll.now adapters).run
        env s.db with ⟨_ | u, db'⟩
      · rw [hrun] at hc
        exact absurd (congrArg (fun db => Db.view db id) (Txn.run_error hrun)) hc
      rw [hrun] at hc
      obtain ⟨m, hok⟩ := Txn.run_ok.mp hrun
      rcases applySchedulerEvaluation_result hok with
        rfl | ⟨candidate, result, old, houtcome, hevents, hpersisted⟩
      · exact absurd rfl hc
      have hsame := (evaluateCandidate_ok hevents houtcome).sameSchedule.id
      rcases hpersisted.view hsame hfresh id with hview | ⟨rfl, hrecorded⟩
      · exact absurd hview hc
      · rw [hs.pollers poll hmem] at hrecorded
        exact ⟨prior, poll.now, RemindiService.schedulerContext, _, candidate, result, rfl,
          .poll hpoll hcandidates, houtcome, hevents, hrecorded⟩

/-- A committed step is a call, or an evaluation of the stored row. -/
theorem SoundStep.commits_cases (h : SoundStep x e) (hc : Commits e id) :
    e.label.isCall = true ∨ ∃ prior now context answer candidate result, prior.id = id ∧
      EvaluationStep x e prior now context answer candidate result := by
  cases hcall : e.label.isCall with
  | true => exact Or.inl rfl
  | false => exact Or.inr (h.evaluation hc hcall)

end

end RemindiCore
