import RemindiCore.Proof.Firing

/-!
# Condition status and detail

A row keeps the status and the detail of its last condition evaluation, and so
do the events of an evaluation.  The evaluator writes the status of a scheduled
condition only; the service writes the detail whenever an adapter was asked.
`WritesHalf` says of a step when only one of the two moves: in a run without
such a step the two always come from one answer (`condition_pair_from_one_answer`).
-/

namespace RemindiCore

open CivilTime JsonText KeyedTable Transaction Machine

variable {x : Externals} {e : StepRecord} {id : Uuid}

/-! ## Pairs and where they come from -/

def statusOf (answer : RemindiService.AdapterResult) : Option ConditionStatus :=
  (conditionOf (some answer)).status

/-- The step applies this answer of an adapter to the item. -/
def AppliesAnswer (e : StepRecord) (id : Uuid) (answer : RemindiService.AdapterResult) : Prop :=
  ∃ prior now context, Evaluates e.before e.label prior now context (some answer) ∧ prior.id = id

/-- One answer to the item has this status and this detail. -/
def FromOneAnswer (history : List StepRecord) (id : Uuid) (status : Option ConditionStatus)
    (detail : String) : Prop :=
  ∃ e ∈ history, ∃ answer, AppliesAnswer e id answer ∧ statusOf answer = status ∧
    answer.summary = detail

/-- The stored pair is absent or comes from one answer. -/
def PairedRow (history : List StepRecord) (row : Remindi) : Prop :=
  row.lastConditionStatus = none ∧ row.lastConditionDetail = none ∨
    ∃ detail, row.lastConditionDetail = some detail ∧
      FromOneAnswer history row.id row.lastConditionStatus detail

/-- An event that records a status and a detail records them from one answer. -/
def PairedEvent (history : List StepRecord) (event : RemindiEvent) : Prop :=
  ∀ status detail, event.details.member? "condition" = some (.string status) →
    event.details.member? "condition_detail" = some (.string detail) →
    ∃ s, ConditionStatus.text s = status ∧
      FromOneAnswer history event.remindiId (some s) detail

/-- The step writes only one half of the pair: a check makes a condition due and
drops the status of a kept detail, or the scheduler moves a condition on that is
due or snoozed and puts the new detail beside the old status. -/
def WritesHalf (e : StepRecord) (id : Uuid) : Prop :=
  ∃ prior now context answer, Evaluates e.before e.label prior now context answer ∧
    e.before.db.remindi.find? id = some prior ∧ prior.trigger.isCondition = true ∧
    match answer with
    | none => prior.state = .scheduled ∧ Reached (Repository.manualCheckAt prior.trigger) now ∧
        prior.lastConditionDetail ≠ none
    | some answer => (prior.state = .due ∧ prior.pastGrace now = true ∨
        prior.state = .snoozed ∧ Reached prior.snoozeUntil now) ∧
        prior.lastConditionStatus ≠ statusOf answer

theorem FromOneAnswer.mono {history history' : List StepRecord} {status : Option ConditionStatus}
    {detail : String} (h : FromOneAnswer history id status detail) (hsub : history ⊆ history') :
    FromOneAnswer history' id status detail := by
  obtain ⟨e, he, h⟩ := h
  exact ⟨e, hsub he, h⟩

theorem PairedRow.mono {history history' : List StepRecord} {row : Remindi}
    (h : PairedRow history row) (hsub : history ⊆ history') : PairedRow history' row :=
  h.imp_right fun ⟨detail, hdetail, hfrom⟩ => ⟨detail, hdetail, hfrom.mono hsub⟩

theorem PairedEvent.mono {history history' : List StepRecord} {event : RemindiEvent}
    (h : PairedEvent history event) (hsub : history ⊆ history') : PairedEvent history' event := by
  intro status detail hstatus hdetail
  obtain ⟨s, htext, hfrom⟩ := h status detail hstatus hdetail
  exact ⟨s, htext, hfrom.mono hsub⟩

theorem PairedRow.of_eq {history : List StepRecord} {row row' : Remindi} (h : PairedRow history row)
    (hid : row'.id = row.id) (hstatus : row'.lastConditionStatus = row.lastConditionStatus)
    (hdetail : row'.lastConditionDetail = row.lastConditionDetail) : PairedRow history row' := by
  unfold PairedRow
  rw [hid, hstatus, hdetail]
  exact h

/-! ## What an evaluation writes -/

section

variable {r r' : Remindi} {now : OffsetDateTime} {context : CheckContext}
  {condition : ConditionEvaluation} {result : EvaluationResult}

theorem evaluate_detail (h : r.evaluate now context condition = .ok (r', result)) :
    r'.lastConditionDetail = r.lastConditionDetail := by
  rw [(Remindi.evaluate_ok h).only]

/-- The trigger of a scheduled condition writes the status of the answer. -/
theorem triggerSatisfaction_status {observed : Remindi} {satisfied : Bool} {readiness : Readiness}
    {events : List EventType} (hcondition : r.trigger.isCondition = true)
    (h : r.triggerSatisfaction now context condition =
      .ok (observed, satisfied, readiness, events)) :
    observed.lastConditionStatus = condition.status := by
  unfold Remindi.triggerSatisfaction at h
  cases hkind : r.trigger with
  | condition adapter parameters poll manualCheckAt =>
    simp only [hkind] at h
    split at h
    · cases h
    · cases h
      rfl
  | _ =>
    rw [hkind] at hcondition
    cases hcondition

/-- The evaluator writes the status of a scheduled condition, and of nothing else. -/
theorem evaluate_status (h : r.evaluate now context condition = .ok (r', result)) :
    r'.lastConditionStatus =
      if r.state = .scheduled ∧ r.trigger.isCondition = true then condition.status
      else r.lastConditionStatus := by
  by_cases hstate : r.state = .scheduled
  case neg =>
    rw [if_neg fun hboth => hstate hboth.1]
    cases Remindi.evaluate_ok h with
    | asleep hsnoozed => rfl
    | awoken hsnoozed overdue => rfl
    | stays hdue readiness => rfl
    | becomesOverdue hdue => rfl
    | waits hscheduled observation => exact absurd hscheduled hstate
    | becomesDue hscheduled observation readiness => exact absurd hscheduled hstate
  simp only [Remindi.evaluate, hstate] at h
  split at h
  · cases h
  next observed satisfied readiness events htrigger =>
  have hobserved : r'.lastConditionStatus = observed.lastConditionStatus := by
    split at h <;> cases h <;> rfl
  rw [hobserved]
  by_cases hcondition : r.trigger.isCondition = true
  · rw [if_pos ⟨hstate, hcondition⟩]
    exact triggerSatisfaction_status (r := r.checkedAt now) hcondition htrigger
  · rw [if_neg fun hboth => hcondition hboth.2]
    have hother : (r.checkedAt now).trigger.isCondition = false := Bool.not_eq_true _ ▸ hcondition
    rw [(Remindi.triggerSatisfaction_ok htrigger).plain hother]
    rfl

end

theorem evaluatedVersion_pair {prior evaluated : Remindi} {now : OffsetDateTime} :
    (RemindiService.evaluatedVersion prior evaluated now).lastConditionStatus =
        evaluated.lastConditionStatus ∧
      (RemindiService.evaluatedVersion prior evaluated now).lastConditionDetail =
        evaluated.lastConditionDetail := by
  unfold RemindiService.evaluatedVersion
  split <;> exact ⟨rfl, rfl⟩

theorem conditionOf_some (answer : RemindiService.AdapterResult) :
    conditionOf (some answer) ≠ .notEvaluated := by
  cases h : answer.status <;> simp [conditionOf, RemindiService.mapStatus, h]

/-- The pair after an evaluation that an answer was given to. -/
theorem candidate_pair {prior candidate : Remindi} {now : OffsetDateTime} {context : CheckContext}
    {answer : Option RemindiService.AdapterResult} {result : EvaluationResult}
    (hevents : result.events ≠ [])
    (h : RemindiService.evaluateCandidate prior now context (conditionOf answer)
      (answer.map (·.summary)) = .ok (candidate, result)) :
    candidate.lastConditionStatus =
        (if prior.state = .scheduled ∧ prior.trigger.isCondition = true
          then (conditionOf answer).status else prior.lastConditionStatus) ∧
      candidate.lastConditionDetail =
        (if answer.isSome then answer.map (·.summary) else prior.lastConditionDetail) := by
  obtain ⟨evaluated, hevaluate, rfl⟩ := evaluateCandidate_evaluated hevents h
  obtain ⟨hstatus, hdetail⟩ := @evaluatedVersion_pair prior (if conditionOf answer ≠ .notEvaluated
    then { evaluated with lastConditionDetail := answer.map (·.summary) } else evaluated) now
  rw [hstatus, hdetail, ← evaluate_status hevaluate]
  cases answer with
  | none =>
    have hnone : conditionOf none = .notEvaluated := rfl
    rw [hnone]
    exact ⟨rfl, evaluate_detail hevaluate⟩
  | some answer =>
    rw [if_pos (conditionOf_some answer)]
    exact ⟨rfl, rfl⟩

/-! ## When an evaluation calls for events -/

/-- A check makes a scheduled condition due by its manual deadline only. -/
theorem check_reaches_deadline {prior evaluated : Remindi} {now : OffsetDateTime}
    {context : CheckContext} {result : EvaluationResult} (hstate : prior.state = .scheduled)
    (hcondition : prior.trigger.isCondition = true)
    (h : prior.evaluate now context .notEvaluated = .ok (evaluated, result))
    (hevents : result.events ≠ []) : Reached (Repository.manualCheckAt prior.trigger) now := by
  simp only [Remindi.evaluate, hstate] at h
  split at h
  · cases h
  next observed satisfied readiness events htrigger =>
  have hevents' := (Remindi.triggerSatisfaction_ok htrigger).events
  have hnone : events = [] := hevents'.resolve_right fun hsome => hsome.1 rfl
  split at h
  case isFalse =>
    cases h
    exact absurd hnone hevents
  case isTrue hsatisfied =>
    unfold Remindi.triggerSatisfaction at htrigger
    have hsame : (prior.checkedAt now).trigger = prior.trigger := rfl
    rw [hsame] at htrigger
    cases hkind : prior.trigger with
    | condition adapter parameters poll manualCheckAt =>
      simp only [hkind] at htrigger
      split at htrigger
      · cases htrigger
      simp only [Except.ok.injEq, Prod.mk.injEq] at htrigger
      obtain ⟨-, hmet, -⟩ := htrigger
      rw [hsatisfied] at hmet
      have hmanual : manualCheckAt.any (fun t => t.utc ≤ now.utc) = true := by simpa using hmet
      exact reached_iff.mp hmanual
    | _ =>
      rw [hkind] at hcondition
      cases hcondition

/-- A row that is not scheduled moves on when its grace period or its snooze has ended. -/
theorem evaluate_moves {prior evaluated : Remindi} {now : OffsetDateTime} {context : CheckContext}
    {condition : ConditionEvaluation} {result : EvaluationResult} (hstate : prior.state ≠ .scheduled)
    (h : prior.evaluate now context condition = .ok (evaluated, result))
    (hevents : result.events ≠ []) :
    prior.state = .due ∧ prior.pastGrace now = true ∨
      prior.state = .snoozed ∧ Reached prior.snoozeUntil now := by
  unfold Remindi.evaluate at h
  split at h
  · cases h
  · cases h
  · next hsnoozed =>
    refine Or.inr ⟨hsnoozed, ?_⟩
    unfold Remindi.evaluateSnooze at h
    split at h
    · cases h
    next deadline hdeadline =>
    dsimp only at h
    split at h
    · cases h
      exact absurd rfl hevents
    next hreached =>
    exact ⟨deadline, hdeadline, not_lt.mp hreached⟩
  · cases h
    exact absurd rfl hevents
  · next hdue =>
    refine Or.inl ⟨hdue, ?_⟩
    have h := Except.ok.inj h
    unfold Remindi.evaluateDue at h
    unfold Remindi.pastGrace
    split at h
    · cases h
      exact absurd rfl hevents
    next dueSince hsince =>
    have hsince : prior.dueSince = some dueSince := hsince
    rw [hsince]
    dsimp only at h
    split at h
    · next hpast => exact decide_eq_true hpast
    · cases h
      exact absurd rfl hevents
  · next hscheduled => exact absurd hscheduled hstate

/-! ## Rows -/

theorem Evaluates.asks_condition {s : System} {label : Label} {prior : Remindi}
    {now : OffsetDateTime} {context : CheckContext} {answer : RemindiService.AdapterResult}
    (h : Evaluates s label prior now context (some answer)) :
    prior.trigger.isCondition = true := by
  generalize hanswer : some answer = answered at h
  cases h with
  | check hpending hitem => cases hanswer
  | poll hpoll hcandidates =>
    unfold RemindiService.evaluateCondition at hanswer
    split at hanswer
    · next htrigger => rw [htrigger]; rfl
    · cases hanswer

/-- Where both halves are written the status is that of the answer. -/
theorem EvaluationStep.status {prior candidate : Remindi} {now : OffsetDateTime}
    {context : CheckContext} {answer : RemindiService.AdapterResult} {result : EvaluationResult}
    (h : EvaluationStep x e prior now context (some answer) candidate result)
    (hkeeps : ¬ WritesHalf e prior.id) : candidate.lastConditionStatus = statusOf answer := by
  have hcondition := h.evaluates.asks_condition
  rw [(candidate_pair h.ne_nil h.outcome).1]
  by_cases hstate : prior.state = .scheduled
  · rw [if_pos ⟨hstate, hcondition⟩]
    rfl
  rw [if_neg fun hboth => hstate hboth.1]
  obtain ⟨evaluated, hevaluate, -⟩ := evaluateCandidate_evaluated h.ne_nil h.outcome
  by_contra hdiffers
  exact hkeeps ⟨prior, now, context, some answer, h.evaluates, h.recorded.rowBefore, hcondition,
    evaluate_moves hstate hevaluate h.ne_nil, hdiffers⟩

theorem EvaluationStep.pairedRow {prior candidate : Remindi} {now : OffsetDateTime}
    {context : CheckContext} {answer : Option RemindiService.AdapterResult}
    {result : EvaluationResult} {history : List StepRecord}
    (h : EvaluationStep x e prior now context answer candidate result)
    (hkeeps : ¬ WritesHalf e prior.id) (hprior : PairedRow history prior) :
    PairedRow (history ++ [e]) (candidate.writtenOver x prior) := by
  have hid : candidate.id = prior.id := (evaluateCandidate_ok h.ne_nil h.outcome).sameSchedule.id
  obtain ⟨hstatus, hdetail⟩ := candidate_pair h.ne_nil h.outcome
  cases answer with
  | some answer =>
    refine Or.inr ⟨answer.summary, hdetail, e, List.mem_append_right _ (List.mem_singleton_self e),
      answer, ⟨prior, now, context, h.evaluates, hid.symm⟩, (h.status hkeeps).symm, rfl⟩
  | none =>
    have hdetail : candidate.lastConditionDetail = prior.lastConditionDetail := hdetail
    by_cases hboth : prior.state = .scheduled ∧ prior.trigger.isCondition = true
    · rw [if_pos hboth] at hstatus
      refine Or.inl ⟨hstatus, ?_⟩
      show candidate.lastConditionDetail = none
      obtain ⟨evaluated, hevaluate, -⟩ := evaluateCandidate_evaluated h.ne_nil h.outcome
      by_contra hkept
      rw [hdetail] at hkept
      exact hkeeps ⟨prior, now, context, none, h.evaluates, h.recorded.rowBefore, hboth.2, hboth.1,
        check_reaches_deadline hboth.1 hboth.2 hevaluate h.ne_nil, hkept⟩
    · rw [if_neg hboth] at hstatus
      exact (hprior.of_eq hid hstatus hdetail).mono (List.subset_append_left _ _)

section

variable {actor : Actor} {now : OffsetDateTime} {prior : Remindi} {call : Call}
  {mutation : Mutation}

theorem resetSnooze_pair (r : Remindi) :
    r.resetSnooze.lastConditionStatus = r.lastConditionStatus ∧
      r.resetSnooze.lastConditionDetail = r.lastConditionDetail := by
  unfold Remindi.resetSnooze
  split <;> exact ⟨rfl, rfl⟩

/-- No call touches the pair. -/
theorem Operates.pair (h : Operates actor now prior call mutation) :
    mutation.item.lastConditionStatus = prior.lastConditionStatus ∧
      mutation.item.lastConditionDetail = prior.lastConditionDetail := by
  cases h with
  | complete prepared validated ok =>
    rw [(Remindi.complete_ok (completeItem_ok ok).1).2]
    exact ⟨rfl, rfl⟩
  | snooze prepared ok =>
    rw [(Remindi.snooze_ok (snoozeItem_ok ok).1).2.2]
    exact ⟨rfl, rfl⟩
  | cancel prepared ok =>
    rw [(Remindi.cancel_ok (cancelItem_ok ok).1).2]
    exact ⟨rfl, rfl⟩
  | @update raw request _ prepared ok =>
    obtain ⟨triggered, recurred, moved, steps, hitem, -, -⟩ := updateItem_ok ok
    have htriggered : triggered.lastConditionStatus = prior.lastConditionStatus ∧
        triggered.lastConditionDetail = prior.lastConditionDetail := by
      have hstep := steps.trigger
      cases hstep with
      | keep hnone => exact ⟨rfl, rfl⟩
      | install hsome hnext hactive hvalid => exact resetSnooze_pair _
    have hmoved : moved.lastConditionStatus = triggered.lastConditionStatus ∧
        moved.lastConditionDetail = triggered.lastConditionDetail := by
      have hstep := steps.disposition
      rw [steps.recurrence.eq] at hstep
      cases hstep <;> exact ⟨rfl, rfl⟩
    have hbumped : ∀ item : Remindi,
        (bumpVersion prior.version now item).lastConditionStatus = item.lastConditionStatus ∧
        (bumpVersion prior.version now item).lastConditionDetail = item.lastConditionDetail := by
      intro item
      unfold bumpVersion
      split <;> exact ⟨rfl, rfl⟩
    rw [hitem, (hbumped moved).1, (hbumped moved).2, hmoved.1, hmoved.2]
    exact htriggered

end

/-- **A step that writes no half keeps the stored pair whole.** -/
theorem SoundStep.pairedRow {history : List StepRecord} (h : SoundStep x e)
    (hkeeps : ¬ WritesHalf e id)
    (hbefore : ∀ row, e.before.db.remindi.find? id = some row → PairedRow history row) :
    ∀ row, e.after.db.remindi.find? id = some row → PairedRow (history ++ [e]) row := by
  intro row hrow
  by_cases hc : Commits e id
  case neg =>
    have hsame : e.after.db.remindi.find? id = e.before.db.remindi.find? id :=
      congrArg ItemView.row (not_not.mp hc)
    exact (hbefore row (hsame ▸ hrow)).mono (List.subset_append_left _ _)
  rcases h.commits_cases hc with hcall | ⟨prior, now, context, answer, candidate, result, rfl, hstep⟩
  case inr =>
    obtain rfl := Option.some.inj (hstep.recorded.rowAfter.symm.trans hrow)
    exact hstep.pairedRow hkeeps (hbefore prior hstep.recorded.rowBefore)
  obtain ⟨before, after, types, hchange, hrecorded⟩ := h.change hc
  obtain rfl := Option.some.inj (hrecorded.rowAfter.symm.trans hrow)
  have hprior : ∀ prior, before = some prior → PairedRow history prior := fun prior hprior =>
    hbefore prior (hrecorded.rowBefore.trans hprior)
  obtain ⟨s, label, response, s'⟩ := e
  cases hchange with
  | check hpending hitem evaluated => cases hcall
  | poll hpoll hcandidates evaluated => cases hcall
  | add prepared fires => exact Or.inl ⟨rfl, rfl⟩
  | operate target operates =>
    obtain ⟨hstatus, hdetail⟩ := operates.pair
    exact ((hprior _ rfl).of_eq operates.sameItem.id hstatus hdetail).mono
      (List.subset_append_left _ _)

/-! ## Events -/

/-- The store has gained events, and each of them satisfies `P`. -/
def Appends (P : RemindiEvent → Prop) (db db' : Db) : Prop :=
  ∃ new, db'.events.rows = db.events.rows ++ new ∧ ∀ event ∈ new, P event

section

variable {P Q : RemindiEvent → Prop} {a b c : Db}

theorem Appends.of_eq (h : b.events = a.events) : Appends P a b :=
  ⟨[], by rw [h, List.append_nil], by simp⟩

theorem Appends.trans (hab : Appends P a b) (hbc : Appends P b c) : Appends P a c := by
  obtain ⟨new, hb, hnew⟩ := hab
  obtain ⟨new', hc, hnew'⟩ := hbc
  refine ⟨new ++ new', by rw [hc, hb, List.append_assoc], fun event hevent => ?_⟩
  exact (List.mem_append.mp hevent).elim (hnew event) (hnew' event)

theorem Appends.imp (h : Appends P a b) (himp : ∀ event, P event → Q event) : Appends Q a b := by
  obtain ⟨new, hb, hnew⟩ := h
  exact ⟨new, hb, fun event hevent => himp event (hnew event hevent)⟩

end

/-- The details of an evaluation's events. -/
def evaluationDetails (context : CheckContext) (status : Option ConditionStatus)
    (detail : Option String) : Json :=
  .ofMap [("lifecycle_event", .string context.lifecycleEvent.text),
    ("condition", Json.ofOption (fun s => .string s.text) status),
    ("condition_detail", Json.ofOption Json.string detail)]

/-- The event records no condition detail. -/
def Undetailed (event : RemindiEvent) : Prop :=
  ∀ detail, event.details.member? "condition_detail" ≠ some (.string detail)

theorem undetailed_of_none {event : RemindiEvent}
    (h : event.details.member? "condition_detail" = none) : Undetailed event := by
  intro detail hdetail
  rw [h] at hdetail
  cases hdetail

theorem evaluationDetails_member (context : CheckContext) (status : Option ConditionStatus)
    (detail : Option String) :
    (evaluationDetails context status detail).member? "condition" =
        some (Json.ofOption (fun s => .string s.text) status) ∧
      (evaluationDetails context status detail).member? "condition_detail" =
        some (Json.ofOption Json.string detail) := by
  simp [evaluationDetails, Json.ofMap, Json.member?, Json.lookup_insertMember]

section

variable {env : Env} {n m : Nat} {db db' : Db} {service : RemindiService} {actor : Actor}
  {prior candidate : Remindi} {events : List EventType} {context : CheckContext}
  {detail : Option String}

theorem appendEvaluated_appends {u : Unit}
    (h : RemindiService.appendEvaluated actor prior candidate context detail events env n db =
      .ok (u, m, db')) :
    Appends (fun event => event.details =
      evaluationDetails context candidate.lastConditionStatus detail) db db' := by
  induction events generalizing n db with
  | nil =>
    obtain ⟨-, -, rfl⟩ := Txn.pure_ok.mp h
    exact .of_eq rfl
  | cons eventType rest ih =>
    obtain ⟨_, _, _, happ, h⟩ := Txn.bind_ok.mp h
    obtain ⟨t, row, rfl, hrows, hrow, -⟩ := appendEvent_ok happ
    refine Appends.trans ⟨[row], hrows, ?_⟩ (ih h)
    exact List.forall_mem_singleton.mpr hrow.details

theorem persistEvaluated_appends {readiness : Option Readiness} {checked : Option CheckedItem}
    (h : service.persistEvaluated actor prior candidate readiness events context detail env n db =
      .ok (checked, m, db')) :
    Appends (fun event => event.details =
      evaluationDetails context candidate.lastConditionStatus detail) db db' := by
  unfold RemindiService.persistEvaluated at h
  obtain ⟨current, _, _, hfind, h⟩ := Txn.bind_ok.mp h
  obtain ⟨rfl, -, -⟩ := findItem_ok hfind
  split at h
  · obtain ⟨-, -, rfl⟩ := Txn.pure_ok.mp h
    exact .of_eq rfl
  obtain ⟨updated, _, _, hcas, h⟩ := Txn.bind_ok.mp h
  rcases Repository.updateCas_ok (Tx.statement_ok hcas) with
    ⟨rfl, rfl, -⟩ | ⟨rfl, old, -, -, -, -, -, rfl⟩
  · obtain ⟨-, -, rfl⟩ := Txn.pure_ok.mp h
    exact .of_eq rfl
  obtain ⟨_, _, _, happ, h⟩ := Txn.bind_ok.mp h
  obtain ⟨-, -, rfl⟩ := Txn.pure_ok.mp h
  obtain ⟨new, hrows, hnew⟩ := appendEvaluated_appends happ
  exact ⟨new, hrows, hnew⟩

/-- A check records no condition detail. -/
theorem persistReady_appends {now : OffsetDateTime} {ready : List (ReadyItem now context)}
    {items : List CheckedItem} (h : service.persistReady actor ready env n db = .ok (items, m, db')) :
    Appends (fun event => ∃ status, event.details = evaluationDetails context status none)
      db db' := by
  induction ready generalizing n m db items with
  | nil =>
    obtain ⟨-, -, rfl⟩ := Txn.pure_ok.mp h
    exact .of_eq rfl
  | cons item rest ih =>
    unfold RemindiService.persistReady at h
    split at h
    · obtain ⟨_, _, _, hrest, h⟩ := Txn.bind_ok.mp h
      obtain ⟨-, -, rfl⟩ := Txn.pure_ok.mp h
      exact ih hrest
    · obtain ⟨_, _, _, hhead, h⟩ := Txn.bind_ok.mp h
      obtain ⟨_, _, _, hrest, h⟩ := Txn.bind_ok.mp h
      obtain ⟨-, -, rfl⟩ := Txn.pure_ok.mp h
      refine Appends.trans ((persistEvaluated_appends hhead).imp fun event hdetails => ?_) (ih hrest)
      exact ⟨_, hdetails⟩

theorem evaluateOne_appends {now : OffsetDateTime} {condition : ConditionEvaluation}
    {checked : Option CheckedItem}
    (h : service.evaluateOne actor prior now context condition detail env n db =
      .ok (checked, m, db')) :
    Appends (fun event => ∃ candidate result,
      RemindiService.evaluateCandidate prior now context condition detail =
        .ok (candidate, result) ∧
      event.details = evaluationDetails context candidate.lastConditionStatus detail) db db' := by
  unfold RemindiService.evaluateOne at h
  obtain ⟨⟨candidate, result⟩, _, _, hrun, h⟩ := Txn.bind_ok.mp h
  obtain ⟨hcandidate, -, rfl⟩ := Txn.ofExcept_ok.mp hrun
  dsimp only at h
  split at h
  · obtain ⟨-, -, rfl⟩ := Txn.pure_ok.mp h
    exact .of_eq rfl
  obtain ⟨_, _, _, hbegin, h⟩ := Txn.bind_ok.mp h
  obtain rfl := Tx.database_ok hbegin
  obtain ⟨_, _, _, hpersist, h⟩ := Txn.bind_ok.mp h
  obtain ⟨_, _, _, hcommit, h⟩ := Txn.bind_ok.mp h
  obtain rfl := Tx.database_ok hcommit
  obtain ⟨-, -, rfl⟩ := Txn.pure_ok.mp h
  exact (persistEvaluated_appends hpersist).imp fun event hdetails =>
    ⟨candidate, result, hcandidate, hdetails⟩

end

/-! ## Events of a step -/

section

variable {actor : Actor} {now : OffsetDateTime} {prior : Remindi} {call : Call}
  {mutation : Mutation}

/-- The details of a call say nothing of a condition. -/
theorem Operates.details (h : Operates actor now prior call mutation) :
    mutation.details.member? "condition_detail" = none := by
  cases h with
  | complete prepared validated ok =>
    unfold completeItem at ok
    obtain ⟨⟨item, eventType⟩, -, ok⟩ := except_bind_ok.mp ok
    cases ok
    simp [Json.ofMap, Json.member?, Json.lookup_insertMember]
  | snooze prepared ok =>
    unfold snoozeItem at ok
    obtain ⟨⟨item, eventType⟩, -, ok⟩ := except_bind_ok.mp ok
    obtain ⟨_, -, ok⟩ := except_bind_ok.mp ok
    obtain ⟨_, -, ok⟩ := except_bind_ok.mp ok
    cases ok
    simp [Json.ofMap, Json.member?, Json.lookup_insertMember]
  | cancel prepared ok =>
    unfold cancelItem at ok
    obtain ⟨⟨item, eventType⟩, -, ok⟩ := except_bind_ok.mp ok
    cases ok
    simp [Json.ofMap, Json.member?, Json.lookup_insertMember]
  | update prepared ok =>
    unfold updateItem at ok
    split at ok
    · cases ok
    split at ok
    · cases ok
    obtain ⟨_, -, ok⟩ := except_bind_ok.mp ok
    obtain ⟨⟨changed, skipped⟩, -, ok⟩ := except_bind_ok.mp ok
    obtain ⟨_, -, ok⟩ := except_bind_ok.mp ok
    obtain ⟨details, hdetails, ok⟩ := except_bind_ok.mp ok
    cases ok
    unfold updateDetails at hdetails
    split at hdetails
    · obtain ⟨_, -, hdetails⟩ := except_bind_ok.mp hdetails
      obtain ⟨_, -, hdetails⟩ := except_bind_ok.mp hdetails
      cases hdetails
      simp [Json.ofMap, Json.member?, Json.lookup_insertMember]
    · obtain ⟨_, -, hdetails⟩ := except_bind_ok.mp hdetails
      cases hdetails
      simp [Json.ofMap, Json.member?, Json.lookup_insertMember]

theorem NotedIn.undetailed {details : Json} {event : RemindiEvent} (h : NotedIn details event.details)
    (hdetails : details.member? "condition_detail" = none) : Undetailed event := by
  refine undetailed_of_none ?_
  rcases h with hsame | ⟨evidenceId, members, rfl, hnoted⟩
  · rw [hsame]
    exact hdetails
  · rw [hnoted]
    simp only [Json.member?, Json.lookup_insertMember] at hdetails ⊢
    rw [if_neg (by decide)]
    exact hdetails

end

/-- What has written an event of a step. -/
inductive EventSource (s : System) (label : Label) (event : RemindiEvent) : Prop
  | added (item : Remindi) (eventType : event.eventType = .created)
      (details : event.details = .ofMap [("trigger_type", .string item.trigger.name),
        ("project_id", .string item.projectId), ("task_id", optionText item.taskId)])
  | operated {actor : Actor} {now : OffsetDateTime} {prior : Remindi} {call : Call}
      {mutation : Mutation} (operates : Operates actor now prior call mutation)
      (eventType : event.eventType = mutation.eventType)
      (noted : NotedIn mutation.details event.details)
  | checked (context : CheckContext) (status : Option ConditionStatus)
      (details : event.details = evaluationDetails context status none)
  | polled {prior : Remindi} {now : OffsetDateTime} {context : CheckContext}
      {answer : Option RemindiService.AdapterResult} {candidate : Remindi}
      {result : EvaluationResult} (evaluates : Evaluates s label prior now context answer)
      (outcome : RemindiService.evaluateCandidate prior now context (conditionOf answer)
        (answer.map (·.summary)) = .ok (candidate, result))
      (details : event.details =
        evaluationDetails context candidate.lastConditionStatus (answer.map (·.summary)))

theorem step_sources (s : System) (label : Label) :
    Appends (EventSource s label) s.db (step x s label).1.db := by
  cases label with
  | call ownerId actor call env =>
    show Appends _ s.db (Txn.run _ env s.db).2
    rcases hrun : (RemindiService.perform ⟨x, ownerId⟩ actor call).run env s.db with
      ⟨_ | response, db'⟩
    · rw [Txn.run_error hrun]
      exact .of_eq rfl
    obtain ⟨m, hok⟩ := Txn.run_ok.mp hrun
    obtain ⟨hash, -, hreplayed | hexecuted⟩ := perform_ok hok
    · rw [← hreplayed.unchanged]
      exact .of_eq rfl
    cases hexecuted with
    | added prepared added =>
      obtain ⟨row, hevents, -, htype, -, -, -, hdetails⟩ := added.event
      exact ⟨[row], hevents, List.forall_mem_singleton.mpr (.added _ htype hdetails)⟩
    | mutated target operates mutated =>
      obtain ⟨row, hevents, -, htype, -, -, -, hnoted⟩ := mutated.event
      exact ⟨[row], hevents, List.forall_mem_singleton.mpr (.operated operates htype hnoted)⟩
  | checkPersist index env =>
    cases hpending : s.checks[index]? with
    | none =>
      rw [step_checkPersist_none hpending]
      exact .of_eq rfl
    | some pending =>
      rw [step_checkPersist_some hpending]
      dsimp only
      rcases hrun : (RemindiService.checkPersist pending).run env s.db with ⟨_ | result, db'⟩
      · rw [Txn.run_error hrun]
        exact .of_eq rfl
      obtain ⟨m, h⟩ := Txn.run_ok.mp hrun
      unfold RemindiService.checkPersist at h
      obtain ⟨_, _, _, hbegin, h⟩ := Txn.bind_ok.mp h
      obtain rfl := Tx.database_ok hbegin
      obtain ⟨_, _, _, hready, h⟩ := Txn.bind_ok.mp h
      obtain ⟨_, _, _, hcommit, h⟩ := Txn.bind_ok.mp h
      obtain rfl := Tx.database_ok hcommit
      obtain ⟨-, -, rfl⟩ := Txn.pure_ok.mp h
      exact (persistReady_appends hready).imp fun event ⟨status, hdetails⟩ =>
        .checked _ status hdetails
  | pollApply index adapters env =>
    cases hpoll : s.polls[index]? with
    | none =>
      rw [step_pollApply_none hpoll]
      exact .of_eq rfl
    | some poll =>
    cases hcandidates : poll.candidates with
    | nil =>
      rw [step_pollApply_nil hpoll hcandidates]
      exact .of_eq rfl
    | cons prior rest =>
      rw [step_pollApply_cons hpoll hcandidates]
      dsimp only
      rcases hrun : (poll.service.applySchedulerEvaluation poll.actor prior poll.now adapters).run
        env s.db with ⟨_ | u, db'⟩
      · rw [Txn.run_error hrun]
        exact .of_eq rfl
      obtain ⟨m, h⟩ := Txn.run_ok.mp hrun
      unfold RemindiService.applySchedulerEvaluation at h
      obtain ⟨_, _, _, hone, h⟩ := Txn.bind_ok.mp h
      obtain ⟨-, -, rfl⟩ := Txn.pure_ok.mp h
      refine (evaluateOne_appends hone).imp ?_
      rintro event ⟨candidate, result, houtcome, hdetails⟩
      exact .polled (.poll hpoll hcandidates) houtcome hdetails
  | checkRead ownerId actor request env =>
    refine .of_eq ?_
    unfold step
    dsimp only
    split
    · rfl
    · split <;> rfl
  | pollRead ownerId actor limit env =>
    refine .of_eq ?_
    unfold step
    dsimp only
    split <;> rfl

/-- An event of a step: it records no condition detail, or the outcome of an answer. -/
def StepEvent (s : System) (label : Label) (event : RemindiEvent) : Prop :=
  Undetailed event ∨ ∃ prior now context answer candidate result,
    Evaluates s label prior now context (some answer) ∧
      RemindiService.evaluateCandidate prior now context (conditionOf (some answer))
        (some answer.summary) = .ok (candidate, result) ∧
      event.details = evaluationDetails context candidate.lastConditionStatus (some answer.summary)

theorem undetailed_evaluation {event : RemindiEvent} {context : CheckContext}
    {status : Option ConditionStatus} (h : event.details = evaluationDetails context status none) :
    Undetailed event := by
  intro detail hdetail
  rw [h, (evaluationDetails_member _ _ _).2] at hdetail
  cases hdetail

theorem EventSource.stepEvent {s : System} {label : Label} {event : RemindiEvent}
    (h : EventSource s label event) : StepEvent s label event := by
  cases h with
  | added item eventType details =>
    refine Or.inl (undetailed_of_none ?_)
    rw [details]
    simp [Json.ofMap, Json.member?, Json.lookup_insertMember]
  | operated operates eventType noted => exact Or.inl (noted.undetailed operates.details)
  | checked context status details => exact Or.inl (undetailed_evaluation details)
  | @polled prior now context answer candidate result evaluates outcome details =>
    cases answer with
    | none => exact Or.inl (undetailed_evaluation details)
    | some answer => exact Or.inr ⟨prior, now, context, answer, candidate, result, evaluates,
        outcome, details⟩

theorem step_appends (s : System) (label : Label) :
    Appends (StepEvent s label) s.db (step x s label).1.db :=
  (step_sources s label).imp fun _ hsource => hsource.stepEvent

theorem Evaluates.not_call {s : System} {label : Label} {prior : Remindi} {now : OffsetDateTime}
    {context : CheckContext} {answer : Option RemindiService.AdapterResult}
    (h : Evaluates s label prior now context answer) : label.isCall = false := by
  cases h <;> rfl

theorem Evaluates.unique {s : System} {label : Label} {prior prior' : Remindi}
    {now now' : OffsetDateTime} {context context' : CheckContext}
    {answer : RemindiService.AdapterResult} {answer' : Option RemindiService.AdapterResult}
    (h : Evaluates s label prior now context (some answer))
    (h' : Evaluates s label prior' now' context' answer') :
    prior' = prior ∧ now' = now ∧ context' = context ∧ answer' = some answer := by
  generalize hanswer : some answer = answered at h
  cases h with
  | check hpending hitem => cases hanswer
  | poll hpoll hcandidates =>
    cases h' with
    | poll hpoll' hcandidates' =>
      obtain rfl := Option.some.inj (hpoll.symm.trans hpoll')
      obtain ⟨rfl, -⟩ := List.cons.inj (hcandidates.symm.trans hcandidates')
      exact ⟨rfl, rfl, rfl, rfl⟩

/-- **A step that writes no half appends whole pairs.** -/
theorem SoundStep.pairedEvents {history : List StepRecord} (h : SoundStep x e)
    (hkeeps : ¬ WritesHalf e id)
    (hbefore : ∀ event ∈ eventsOf e.before.db id, PairedEvent history event) :
    ∀ event ∈ eventsOf e.after.db id, PairedEvent (history ++ [e]) event := by
  have hafter : e.after = (step x e.before e.label).1 := congrArg Entry.after h.taken
  obtain ⟨new, hrows, hnew⟩ := step_appends (x := x) e.before e.label
  rw [← hafter] at hrows
  intro event hevent
  rw [eventsOf_append hrows] at hevent
  rcases List.mem_append.mp hevent with hold | hadded
  · exact (hbefore event hold).mono (List.subset_append_left _ _)
  obtain ⟨hmem, hid⟩ := List.mem_filter.mp hadded
  have hid : event.remindiId = id := of_decide_eq_true hid
  intro status detail hstatus hdetail
  rcases hnew event hmem with hplain | ⟨prior, now, context, answer, candidate, result, hevaluates,
    houtcome, hdetails⟩
  · exact absurd hdetail (hplain detail)
  obtain ⟨hconditionMember, hdetailMember⟩ := evaluationDetails_member context
    candidate.lastConditionStatus (some answer.summary)
  rw [hdetails, hconditionMember] at hstatus
  rw [hdetails, hdetailMember] at hdetail
  obtain rfl : answer.summary = detail := by simpa [Json.ofOption] using hdetail
  -- the event shows that the evaluation was committed
  have hc : Commits e id := by
    intro hview
    have hevents : eventsOf e.after.db id = eventsOf e.before.db id := congrArg ItemView.events hview
    rw [eventsOf_append hrows, List.append_right_eq_self] at hevents
    rw [hevents] at hadded
    cases hadded
  obtain ⟨prior', now', context', answer', candidate', result', rfl, hstep⟩ :=
    h.evaluation hc hevaluates.not_call
  obtain ⟨rfl, rfl, rfl, rfl⟩ := hevaluates.unique hstep.evaluates
  obtain ⟨rfl, rfl⟩ := Prod.mk.inj (Except.ok.inj (houtcome.symm.trans hstep.outcome))
  have hwhole := hstep.status hkeeps
  rw [hwhole] at hstatus
  obtain ⟨s, hs⟩ : ∃ s, statusOf answer = some s := by
    cases hstatus' : statusOf answer with
    | none =>
      rw [hstatus'] at hstatus
      cases hstatus
    | some s => exact ⟨s, rfl⟩
  refine ⟨s, ?_, e, List.mem_append_right _ (List.mem_singleton_self e), answer,
    ⟨prior', now', context', hevaluates, hid.symm⟩, hs, rfl⟩
  rw [hs] at hstatus
  simpa [Json.ofOption] using hstatus

/-! ## Every run -/

/-- **Status and detail come from one answer**, in every run without a step that
writes only one of them: the pair that is stored, if any, and every pair that an
event records. -/
theorem condition_pair_from_one_answer (x : Externals) (labels : List Label) (id : Uuid)
    (hkeeps : ∀ e ∈ historyOf x labels, ¬ WritesHalf e id) :
    (∀ row, (runOf x labels).db.remindi.find? id = some row →
        PairedRow (historyOf x labels) row) ∧
      ∀ event ∈ eventsOf (runOf x labels).db id, PairedEvent (historyOf x labels) event := by
  have hstart : (∀ row, System.start.db.remindi.find? id = some row → PairedRow [] row) ∧
      ∀ event ∈ eventsOf System.start.db id, PairedEvent [] event := by
    refine ⟨fun row h => ?_, fun event h => ?_⟩ <;> cases h
  have hrun : (∀ e ∈ historyOf x labels, ¬ WritesHalf e id) → InFlight x (runOf x labels) ∧
      (∀ row, (runOf x labels).db.remindi.find? id = some row →
        PairedRow (historyOf x labels) row) ∧
      ∀ event ∈ eventsOf (runOf x labels).db id, PairedEvent (historyOf x labels) event := by
    refine run_induction (P := fun history s => (∀ e ∈ history, ¬ WritesHalf e id) → InFlight x s ∧
      (∀ row, s.db.remindi.find? id = some row → PairedRow history row) ∧
      ∀ event ∈ eventsOf s.db id, PairedEvent history event) (fun _ => ⟨InFlight.start, hstart⟩) ?_
      labels
    intro history s label ih hall
    obtain ⟨hs, hrows, hevents⟩ := ih fun e he => hall e (List.mem_append_left _ he)
    have hlast := hall _ (List.mem_append_right _ (List.mem_singleton_self _))
    have hsound : SoundStep x (entry (step x) s label) := ⟨hs, rfl⟩
    exact ⟨step_inFlight hs label, hsound.pairedRow hlast hrows, hsound.pairedEvents hlast hevents⟩
  exact (hrun hkeeps).2

/-! ## Samples -/

namespace Sample

/-- A condition without a manual deadline, polled every 30 seconds. -/
def watched : AddRequest :=
  { everyMinute with trigger := .condition "adapter" (.object []) none none, recurrence := none }

/-- Every adapter gives the same answer. -/
def answering (status : RemindiService.AdapterStatus) (summary : String) :
    RemindiService.AdapterProvider :=
  fun _ => some fun _ => { status := status, summary := summary }

/-- A poll whose adapters all answer this; its two events get these identifiers. -/
def pollAnswer (now : Int) (status : RemindiService.AdapterStatus) (summary : String)
    (digit digit' : Fin 10) : Label :=
  .pollApply 0 (answering status summary)
    { env now digit with ids := fun n => if n % 2 = 0 then uuid digit else uuid digit' }

/-- The condition is satisfied at second 600. -/
def satisfiedRun : List Label :=
  [call (.add watched) 500 0, pollRead 600, pollAnswer 600 .satisfied "up" 1 2]

/-- When the item becomes overdue its adapter fails. -/
def failedLater : List Label :=
  satisfiedRun ++ [pollApply 601 3, pollRead 2000, pollAnswer 2000 .error "down" 4 5]

def unavailable : RemindiService.AdapterResult :=
  { status := .unknown, summary := "Configured condition adapter is unavailable." }

theorem unavailable_eq {prior : Remindi} {answer : RemindiService.AdapterResult}
    (h : RemindiService.evaluateCondition (fun _ => none) prior = some answer) :
    answer = unavailable := by
  unfold RemindiService.evaluateCondition at h
  split at h
  · exact (Option.some.inj h).symm
  · cases h

theorem answering_eq {status : RemindiService.AdapterStatus} {summary : String} {prior : Remindi}
    {answer : RemindiService.AdapterResult}
    (h : RemindiService.evaluateCondition (answering status summary) prior = some answer) :
    answer = { status := status, summary := summary } := by
  unfold RemindiService.evaluateCondition answering at h
  split at h
  · exact (Option.some.inj h).symm
  · cases h

end Sample

theorem AppliesAnswer.exists_poll {answer : RemindiService.AdapterResult}
    (h : AppliesAnswer e id answer) : ∃ index adapters env, ∃ prior : Remindi,
      e.label = .pollApply index adapters env ∧
        RemindiService.evaluateCondition adapters prior = some answer := by
  obtain ⟨prior, now, context, hevaluates, -⟩ := h
  generalize hlabel : e.label = label at hevaluates
  generalize hanswer : some answer = answered at hevaluates
  cases hevaluates with
  | check hpending hitem => cases hanswer
  | poll hpoll hcandidates => exact ⟨_, _, _, prior, rfl, rfl⟩

/-- A step of a run without checks writes no half of a pair that is still scheduled. -/
theorem not_writesHalf (hlabel : ∀ index env, e.label ≠ .checkPersist index env)
    (hstate : ∀ prior, e.before.db.remindi.find? id = some prior → prior.state = .scheduled) :
    ¬ WritesHalf e id := by
  rintro ⟨prior, now, context, answer, hevaluates, hprior, hcondition, hhalf⟩
  have hscheduled := hstate prior hprior
  cases answer with
  | some answer =>
    rcases hhalf.1 with ⟨hdue, -⟩ | ⟨hsnoozed, -⟩
    · rw [hscheduled] at hdue
      cases hdue
    · rw [hscheduled] at hsnoozed
      cases hsnoozed
  | none =>
    generalize hl : e.label = label at hevaluates
    generalize hanswer : (none : Option RemindiService.AdapterResult) = answered at hevaluates
    cases hevaluates with
    | check hpending hitem => exact hlabel _ _ hl
    | poll hpoll hcandidates =>
      unfold RemindiService.evaluateCondition at hanswer
      split at hanswer
      · split at hanswer <;> cases hanswer
      · next hother =>
        cases htrigger : prior.trigger with
        | condition adapter parameters poll manualCheckAt => exact hother _ _ _ _ htrigger
        | _ =>
          rw [htrigger] at hcondition
          cases hcondition

namespace Sample

/-- The only answers of the run. -/
theorem failedLater_answers {answer : RemindiService.AdapterResult} {e : StepRecord}
    (he : e ∈ historyOf externals failedLater) (h : AppliesAnswer e id answer) :
    answer = ⟨.satisfied, "up"⟩ ∨ answer = unavailable ∨ answer = ⟨.error, "down"⟩ := by
  obtain ⟨index, adapters, env', prior, hlabel, hanswer⟩ := h.exists_poll
  have hmem := label_mem_of_history he
  rw [hlabel] at hmem
  simp only [failedLater, satisfiedRun, List.cons_append, List.nil_append, List.mem_cons,
    List.not_mem_nil, or_false, pollAnswer, call, pollRead, pollApply, reduceCtorEq, false_or,
    Label.pollApply.injEq] at hmem
  rcases hmem with ⟨-, rfl, -⟩ | ⟨-, rfl, -⟩ | ⟨-, rfl, -⟩
  · exact Or.inl (answering_eq hanswer)
  · exact Or.inr (Or.inl (unavailable_eq hanswer))
  · exact Or.inr (Or.inr (answering_eq hanswer))

/-- No answer of the run was satisfied and down. -/
theorem failedLater_splits :
    ¬ FromOneAnswer (historyOf externals failedLater) id (some .satisfied) "down" := by
  rintro ⟨e, he, answer, happlies, hstatus, hsummary⟩
  rcases failedLater_answers he happlies with rfl | rfl | rfl
  · exact absurd hsummary (by decide)
  · exact absurd hsummary (by decide)
  · cases hstatus

/-- The pair of an event's details. -/
def recorded (event : RemindiEvent) : Option (String × String) :=
  match event.details.member? "condition", event.details.member? "condition_detail" with
  | some (.string status), some (.string detail) => some (status, detail)
  | _, _ => none

theorem recorded_eq_some {event : RemindiEvent} {status detail : String}
    (h : recorded event = some (status, detail)) :
    event.details.member? "condition" = some (.string status) ∧
      event.details.member? "condition_detail" = some (.string detail) := by
  unfold recorded at h
  split at h
  · next hstatus hdetail =>
    cases h
    exact ⟨hstatus, hdetail⟩
  · cases h

def storedPair (s : System) : Option (Option ConditionStatus × Option String) :=
  (s.db.remindi.find? (uuid 0)).map fun row => (row.lastConditionStatus, row.lastConditionDetail)

end Sample

/-- The overdue item keeps the status of the first answer beside the detail of
the second, and so does the event. -/
theorem late_answer_splits_pair :
    ¬ (∀ (labels : List Label) (id : Uuid) (row : Remindi),
        (runOf Sample.externals labels).db.remindi.find? id = some row →
          PairedRow (historyOf Sample.externals labels) row) ∧
      ¬ ∀ (labels : List Label) (id : Uuid),
        ∀ event ∈ eventsOf (runOf Sample.externals labels).db id,
          PairedEvent (historyOf Sample.externals labels) event := by
  constructor
  · intro hclaim
    have hpair : Sample.storedPair (runOf Sample.externals Sample.failedLater) =
        some (some .satisfied, some "down") := by
      decide +kernel
    obtain ⟨row, hrow, hvalues⟩ := Option.map_eq_some_iff.mp hpair
    obtain ⟨hstatus, hdetail⟩ := Prod.mk.inj hvalues
    rcases hclaim Sample.failedLater (Sample.uuid 0) row hrow with ⟨hnone, -⟩ | ⟨d, hd, hfrom⟩
    · rw [hstatus] at hnone
      cases hnone
    · obtain rfl := Option.some.inj (hdetail.symm.trans hd)
      rw [hstatus] at hfrom
      exact Sample.failedLater_splits hfrom
  · intro hclaim
    have hlast : (eventsOf (runOf Sample.externals Sample.failedLater).db
        (Sample.uuid 0)).getLast?.bind Sample.recorded = some ("satisfied", "down") := by
      decide +kernel
    obtain ⟨event, hevent, hrecorded⟩ := Option.bind_eq_some_iff.mp hlast
    obtain ⟨hstatus, hdetail⟩ := Sample.recorded_eq_some hrecorded
    obtain ⟨s, hs, hfrom⟩ := hclaim Sample.failedLater (Sample.uuid 0) event
      (List.mem_of_getLast? hevent) _ _ hstatus hdetail
    obtain rfl : s = .satisfied := by
      cases s <;> first | rfl | exact absurd hs (by decide)
    exact Sample.failedLater_splits hfrom

/-- Up to the first answer nothing writes a half. -/
theorem sample_pair_from_one_answer :
    (∀ row, (runOf Sample.externals Sample.satisfiedRun).db.remindi.find? (Sample.uuid 0) =
        some row → PairedRow (historyOf Sample.externals Sample.satisfiedRun) row) ∧
      ∀ event ∈ eventsOf (runOf Sample.externals Sample.satisfiedRun).db (Sample.uuid 0),
        PairedEvent (historyOf Sample.externals Sample.satisfiedRun) event := by
  refine condition_pair_from_one_answer Sample.externals Sample.satisfiedRun (Sample.uuid 0) ?_
  have hstates : (historyOf Sample.externals Sample.satisfiedRun).all (fun e =>
      (e.before.db.remindi.find? (Sample.uuid 0)).all fun row => row.state = .scheduled) = true := by
    decide +kernel
  intro e he
  have hstate := List.all_eq_true.mp hstates e he
  refine not_writesHalf (fun index env hlabel => ?_) fun prior hprior => ?_
  · have hmem := label_mem_of_history he
    rw [hlabel] at hmem
    simp [Sample.satisfiedRun, Sample.call, Sample.pollRead, Sample.pollAnswer] at hmem
  · rw [hprior] at hstate
    simpa using hstate

end RemindiCore
