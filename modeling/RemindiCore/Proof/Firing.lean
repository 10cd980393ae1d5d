import RemindiCore.Proof.EvaluationStep

/-!
# Firing

An item fires when a committed step takes it from scheduled to due.  Only an
evaluation does that, and only one whose clock, context and answer met the
trigger of the stored row (`SoundStep.fired_by`).  A row that is not scheduled
goes back to it only by a trigger that is installed or an occurrence that is
disposed of (`Awake.step`), so between two firings there is one of these.
-/

namespace RemindiCore

open CivilTime KeyedTable Transaction Machine

variable {x : Externals} {e : StepRecord} {id : Uuid}

/-! ## When a trigger is met -/

/-- A session is given, and it is not the one the item comes from. -/
def NewSession (r : Remindi) (context : CheckContext) : Prop :=
  ∃ session, context.sessionId = some session ∧ session ≠ "" ∧ r.sourceSessionId ≠ some session

def ContinuesLineage (r : Remindi) (context : CheckContext) : Prop :=
  ∃ lineage, context.taskLineageId = some lineage ∧ r.sourceTaskLineageId = some lineage

/-- The time has come. -/
def Reached (time : Option OffsetDateTime) (now : OffsetDateTime) : Prop :=
  ∃ t, time = some t ∧ t.utc ≤ now.utc

/-- The trigger of the item is met at `now`, in the context, by the adapter's answer. -/
def TriggerMet (r : Remindi) (now : OffsetDateTime) (context : CheckContext)
    (condition : ConditionEvaluation) : Prop :=
  match r.trigger with
  | .atTime at' => at'.utc ≤ now.utc
  | .afterElapsed _ | .interval _ _ => Reached r.nextFireAt now
  | .nextSession => NewSession r context
  | .nextContinuation =>
    NewSession r context ∧ context.lifecycleEvent = .continuation ∧ ContinuesLineage r context
  | .goalActive goalId => goalId ∈ context.activeGoalIds
  | .condition _ _ _ manualCheckAt => condition = .satisfied ∨ Reached manualCheckAt now

/-- An item with a fixed time fires at it. -/
structure FixedTime (row : Remindi) : Prop where
  whole : ∀ at', row.trigger = .atTime at' → at'.truncateMillis = at'
  fires : ∀ at', row.trigger = .atTime at' → row.nextFireAt = some at'

section

variable {r r' observed : Remindi} {now : OffsetDateTime} {context : CheckContext}
  {condition : ConditionEvaluation} {readiness : Readiness} {events : List EventType}

theorem reached_iff {time : Option OffsetDateTime} :
    time.any (fun t => t.utc ≤ now.utc) = true ↔ Reached time now := by
  unfold Reached
  cases time <;> simp

theorem newSession_of_eval
    (h : (nonempty context.sessionId && context.sessionId != r.sourceSessionId) = true) :
    NewSession r context := by
  rw [Bool.and_eq_true] at h
  obtain ⟨hnonempty, hother⟩ := h
  unfold nonempty at hnonempty
  cases hsession : context.sessionId with
  | none =>
    rw [hsession] at hnonempty
    cases hnonempty
  | some session =>
    rw [hsession] at hnonempty hother
    refine ⟨session, hsession, by simpa using hnonempty, fun hsame => ?_⟩
    rw [hsame] at hother
    simp at hother

theorem continuesLineage_of_eval (h : (context.taskLineageId == r.sourceTaskLineageId) = true)
    (hsome : r.sourceTaskLineageId.isSome = true) : ContinuesLineage r context := by
  obtain ⟨lineage, hlineage⟩ := Option.isSome_iff_exists.mp hsome
  exact ⟨lineage, (beq_iff_eq.mp h).trans hlineage, hlineage⟩

/-- **What the evaluator calls satisfied is met.** -/
theorem triggerMet_of_satisfaction (hfixed : FixedTime r)
    (h : (r.checkedAt now).triggerSatisfaction now context condition =
      .ok (observed, true, readiness, events)) : TriggerMet r now context condition := by
  unfold Remindi.triggerSatisfaction at h
  unfold TriggerMet
  have htrigger : (r.checkedAt now).trigger = r.trigger := rfl
  rw [htrigger] at h
  cases hkind : r.trigger with
  | atTime at' =>
    simp only [hkind, Except.ok.injEq, Prod.mk.injEq] at h
    obtain ⟨t, ht, hle⟩ := reached_iff.mp h.2.1
    obtain rfl := Option.some.inj ((hfixed.fires at' hkind).symm.trans ht)
    exact hle
  | afterElapsed afterSeconds =>
    simp only [hkind, Except.ok.injEq, Prod.mk.injEq] at h
    exact reached_iff.mp h.2.1
  | interval firstAt everySeconds =>
    simp only [hkind, Except.ok.injEq, Prod.mk.injEq] at h
    exact reached_iff.mp h.2.1
  | nextSession =>
    simp only [hkind, Except.ok.injEq, Prod.mk.injEq] at h
    exact newSession_of_eval h.2.1
  | nextContinuation =>
    simp only [hkind, Except.ok.injEq, Prod.mk.injEq] at h
    obtain ⟨-, hmet, -⟩ := h
    simp only [Bool.and_eq_true, decide_eq_true_eq] at hmet
    obtain ⟨⟨⟨⟨hevent, hsession⟩, hother⟩, hlineage⟩, hsome⟩ := hmet
    exact ⟨newSession_of_eval (Bool.and_eq_true _ _ ▸ ⟨hsession, hother⟩), hevent,
      continuesLineage_of_eval hlineage hsome⟩
  | goalActive goalId =>
    simp only [hkind, Except.ok.injEq, Prod.mk.injEq] at h
    exact List.contains_iff_mem.mp h.2.1
  | condition adapter parameters poll manualCheckAt =>
    simp only [hkind] at h
    split at h
    · cases h
    simp only [Except.ok.injEq, Prod.mk.injEq, Bool.or_eq_true, Bool.and_eq_true,
      decide_eq_true_eq] at h
    rcases h.2.1 with hsatisfied | ⟨-, hmanual⟩
    · exact Or.inl hsatisfied
    · exact Or.inr (reached_iff.mp hmanual)

/-! ## The outcome of an evaluation -/

theorem evaluateCandidate_evaluated {prior candidate : Remindi} {detail : Option String}
    {result : EvaluationResult} (hevents : result.events ≠ [])
    (h : RemindiService.evaluateCandidate prior now context condition detail =
      .ok (candidate, result)) :
    ∃ evaluated, prior.evaluate now context condition = .ok (evaluated, result) ∧
      candidate = RemindiService.evaluatedVersion prior
        (if condition ≠ .notEvaluated then { evaluated with lastConditionDetail := detail }
          else evaluated) now := by
  unfold RemindiService.evaluateCandidate at h
  obtain ⟨⟨evaluated, result'⟩, hevaluate, h⟩ := except_bind_ok.mp h
  dsimp only at h
  split at h
  · next hempty =>
    cases h
    exact absurd (List.isEmpty_iff.mp hempty) hevents
  · cases h
    exact ⟨evaluated, domain_ok.mp hevaluate, rfl⟩

theorem evaluatedVersion_state {prior evaluated : Remindi} {detail : Option String} :
    (RemindiService.evaluatedVersion prior
      (if condition ≠ .notEvaluated then { evaluated with lastConditionDetail := detail }
        else evaluated) now).state = evaluated.state := by
  unfold RemindiService.evaluatedVersion
  split <;> split <;> rfl

/-- A scheduled item that an evaluation takes out of this state has a satisfied trigger. -/
theorem evaluate_fires {result : EvaluationResult} (hstate : r.state = .scheduled)
    (h : r.evaluate now context condition = .ok (r', result)) (hfired : r'.state ≠ .scheduled) :
    ∃ observed readiness events, (r.checkedAt now).triggerSatisfaction now context condition =
      .ok (observed, true, readiness, events) ∧
        result = ready readiness (events ++ [.becameDue]) := by
  simp only [Remindi.evaluate, hstate] at h
  split at h
  · cases h
  next observed satisfied readiness events htrigger =>
  split at h
  · next hsatisfied =>
    cases h
    rw [hsatisfied] at htrigger
    exact ⟨observed, readiness, events, htrigger, rfl⟩
  · cases h
    refine absurd ?_ hfired
    rw [(Remindi.triggerSatisfaction_ok htrigger).only]
    exact hstate

/-- An evaluation never puts an item back on its schedule. -/
theorem evaluate_ne_scheduled {result : EvaluationResult} (hstate : r.state ≠ .scheduled)
    (h : r.evaluate now context condition = .ok (r', result)) : r'.state ≠ .scheduled := by
  cases Remindi.evaluate_ok h with
  | asleep hsnoozed =>
    show r.state ≠ _
    exact hstate
  | awoken hsnoozed overdue => cases overdue <;> simp
  | stays hdue readiness =>
    show r.state ≠ _
    exact hstate
  | becomesOverdue hdue => simp
  | waits hscheduled observation => exact absurd hscheduled hstate
  | becomesDue hscheduled observation readiness => exact absurd hscheduled hstate

end

/-! ## Fixed times -/

section

variable {r r' : Remindi} {now : OffsetDateTime}

theorem FixedTime.of_other (h : ∀ at', r.trigger ≠ .atTime at') : FixedTime r where
  whole at' htrigger := absurd htrigger (h at')
  fires at' htrigger := absurd htrigger (h at')

theorem FixedTime.of_schedule (h : FixedTime r) (htrigger : r'.trigger = r.trigger)
    (hfire : r'.nextFireAt = r.nextFireAt) : FixedTime r' where
  whole := by
    rw [htrigger]
    exact h.whole
  fires := by
    rw [htrigger, hfire]
    exact h.fires

theorem FixedTime.stored (h : FixedTime r) : FixedTime (r.stored x) where
  whole at' htrigger := h.whole at' ((Trigger.mapNumbers_eq_other _ rfl).mp htrigger)
  fires at' htrigger := by
    have htrigger := (Trigger.mapNumbers_eq_other _ rfl).mp htrigger
    show r.nextFireAt.map OffsetDateTime.truncateMillis = _
    rw [h.fires at' htrigger, Option.map_some, h.whole at' htrigger]

theorem FixedTime.writtenOver (h : FixedTime r) (old : Remindi) :
    FixedTime (r.writtenOver x old) := (h.stored (x := x)).of_schedule rfl rfl

theorem fixedTime_new (htrigger : ∃ trigger, r.trigger = normalizeTrigger trigger)
    (hfire : initialNextFireAt r.trigger now = .ok r.nextFireAt) : FixedTime r where
  whole at' h := by
    obtain ⟨trigger, htrigger⟩ := htrigger
    rw [h] at htrigger
    cases trigger with
    | atTime at'' =>
      cases htrigger
      exact OffsetDateTime.truncateMillis_truncateMillis at''
    | _ => cases htrigger
  fires at' h := by
    rw [h] at hfire
    exact (Except.ok.inj hfire).symm

theorem FixedTime.update {actor : Actor} {raw request : UpdateRequest} {mutation : Mutation}
    (h : FixedTime r) (hprepared : prepareUpdate actor raw = .ok request)
    (hop : updateItem request now r = .ok mutation) : FixedTime mutation.item := by
  obtain ⟨triggered, recurred, moved, steps, hitem, -, -⟩ := updateItem_ok hop
  have hfields : FixedTime (applyFields request r) := h.of_schedule rfl rfl
  have htriggered : FixedTime triggered := by
    have hstep := steps.trigger
    cases hstep with
    | keep hnone => exact hfields
    | @install trigger next hsome hnext hactive hvalid =>
      have hraw := (prepareUpdate_ok hprepared).2.2.2.1
      rw [hsome] at hraw
      obtain ⟨rawTrigger, -, hrawTrigger⟩ := Option.map_eq_some_iff.mp hraw.symm
      obtain ⟨htrigger, hfire, -⟩ := resetSnooze_trigger { applyFields request r with
        trigger := trigger
        nextFireAt := next
        originalNextFireAt := next
        nextEvaluationAt := none }
      refine fixedTime_new ⟨rawTrigger, htrigger.trans hrawTrigger.symm⟩
        (?_ : initialNextFireAt (Remindi.resetSnooze _).trigger now =
          .ok (Remindi.resetSnooze _).nextFireAt)
      rw [htrigger, hfire]
      exact hnext
  have hrecurred : FixedTime recurred := by
    rw [steps.recurrence.eq]
    exact htriggered.of_schedule rfl rfl
  have hmoved : FixedTime moved := by
    have hstep := steps.disposition
    cases hstep with
    | keep hnone => exact hrecurred
    | @advance disposition spec anchor advance hsome hspec hanchor hadvance =>
      -- only an interval recurs
      obtain ⟨firstAt, htrigger⟩ :=
        RecurrenceSpec.validateForTrigger_ok (steps.recurrence.fits spec hspec)
      refine .of_other fun at' hat => ?_
      cases htrigger.symm.trans hat
  rw [hitem]
  unfold bumpVersion
  split
  · exact hmoved.of_schedule rfl rfl
  · exact hmoved

end

theorem fixedTime_run (labels : List Label) :
    ∀ id row, (runOf x labels).db.remindi.find? id = some row → FixedTime row := by
  refine rows_invariant (fun hchange h => ?_) labels
  cases hchange.schedule with
  | add prepared fires =>
    exact (fixedTime_new ⟨_, (prepareAdd_ok prepared).2.1⟩ fires : FixedTime
      (RemindiService.newItem _ _ _ _ _)).stored
  | keep same other =>
    exact ((h _ rfl).of_schedule same.trigger same.nextFireAt).writtenOver _
  | update target prepared ok => exact ((h _ rfl).update prepared ok).writtenOver _

/-! ## Calls -/

section

variable {actor : Actor} {now : OffsetDateTime} {prior : Remindi} {call : Call}
  {mutation : Mutation} {request : UpdateRequest} {item item' : Remindi}

theorem resetSnooze_state (r : Remindi) :
    r.resetSnooze.state = if r.state = .snoozed then .scheduled else r.state := by
  unfold Remindi.resetSnooze
  split <;> rfl

variable (now) in
theorem bumpVersion_state (version : Nat) (item : Remindi) :
    (bumpVersion version now item).state = item.state ∧
      (bumpVersion version now item).occurrenceNo = item.occurrenceNo := by
  unfold bumpVersion
  split <;> exact ⟨rfl, rfl⟩

/-- An update without a trigger keeps the state, unless it disposes of the occurrence. -/
theorem updateItem_state (h : updateItem request now prior = .ok mutation)
    (htrigger : request.trigger = none) :
    mutation.item.state = prior.state ∧ mutation.item.occurrenceNo = prior.occurrenceNo ∨
      prior.occurrenceNo < mutation.item.occurrenceNo := by
  obtain ⟨triggered, recurred, moved, steps, hitem, -, -⟩ := updateItem_ok h
  obtain ⟨hstate, hno⟩ := bumpVersion_state now prior.version moved
  rw [hitem, hstate, hno]
  obtain rfl : triggered = applyFields request prior := by
    have hstep := steps.trigger
    cases hstep with
    | keep hnone => rfl
    | install hsome hnext hactive hvalid =>
      rw [htrigger] at hsome
      cases hsome
  obtain hrecurred := steps.recurrence.eq
  have hstep := steps.disposition
  cases hstep with
  | keep hnone =>
    rw [hrecurred]
    exact Or.inl ⟨rfl, rfl⟩
  | advance hsome hspec hanchor hadvance =>
    obtain ⟨k, hadvanced, -⟩ := RecurrenceSpec.advance_ok hadvance
    refine Or.inr ?_
    show prior.occurrenceNo < _
    have hno : recurred.occurrenceNo = prior.occurrenceNo := by
      rw [hrecurred]
      rfl
    have hpos := hadvanced.pos
    have hnext := hadvanced.occurrenceNo
    show prior.occurrenceNo < _
    simp only [advancedTo]
    omega

/-- No call makes an item due that is still scheduled. -/
theorem Operates.ne_due (h : Operates actor now prior call mutation)
    (hstate : prior.state = .scheduled) : mutation.item.state ≠ .due := by
  cases h with
  | complete prepared validated ok =>
    rw [(Remindi.complete_ok (completeItem_ok ok).1).2]
    simp
  | snooze prepared ok =>
    rw [(Remindi.snooze_ok (snoozeItem_ok ok).1).2.2]
    simp
  | cancel prepared ok =>
    rw [(Remindi.cancel_ok (cancelItem_ok ok).1).2]
    simp
  | update prepared ok =>
    obtain ⟨triggered, recurred, moved, steps, hitem, -, -⟩ := updateItem_ok ok
    have htriggered : triggered.state = .scheduled := by
      have hstep := steps.trigger
      cases hstep with
      | keep hnone => exact hstate
      | install hsome hnext hactive hvalid =>
        show (Remindi.resetSnooze _).state = _
        rw [resetSnooze_state]
        show (if prior.state = .snoozed then _ else prior.state) = _
        rw [hstate]
        rfl
    have hrecurred : recurred.state = .scheduled := by
      rw [steps.recurrence.eq]
      exact htriggered
    have hmoved : moved.state = .scheduled := by
      have hstep := steps.disposition
      cases hstep with
      | keep hnone => exact hrecurred
      | advance hsome hspec hanchor hadvance => rfl
    rw [hitem, (bumpVersion_state _ _ _).1, hmoved]
    simp

end

/-! ## Steps -/

/-- The step takes the item from scheduled to due. -/
def BecomesDue (e : StepRecord) (id : Uuid) : Prop :=
  ∃ prior row, e.before.db.remindi.find? id = some prior ∧ prior.state = .scheduled ∧
    e.after.db.remindi.find? id = some row ∧ row.state = .due

/-- The step installs a trigger on the item, be it an equal one. -/
def Installs (e : StepRecord) (id : Uuid) : Prop :=
  Commits e id ∧ ∃ ownerId actor request env,
    e.label = .call ownerId actor (.update request) env ∧ request.remindiId = id ∧
      request.trigger.isSome = true

/-- The step moves the occurrence number of the item. -/
def Advances (e : StepRecord) (id : Uuid) : Prop :=
  ∃ prior row, e.before.db.remindi.find? id = some prior ∧
    e.after.db.remindi.find? id = some row ∧ row.occurrenceNo ≠ prior.occurrenceNo

/-- The item is stored and waits for its trigger no more. -/
def Awake (s : System) (id : Uuid) : Prop :=
  ∃ row, s.db.remindi.find? id = some row ∧ row.state ≠ .scheduled

theorem BecomesDue.commits (h : BecomesDue e id) : Commits e id := by
  intro hview
  obtain ⟨prior, row, hprior, hscheduled, hrow, hdue⟩ := h
  have hsame : some row = some prior :=
    hrow.symm.trans ((congrArg ItemView.row hview).trans hprior)
  obtain rfl := Option.some.inj hsame
  rw [hscheduled] at hdue
  cases hdue

theorem BecomesDue.awake (h : BecomesDue e id) : Awake e.after id := by
  obtain ⟨prior, row, -, -, hrow, hdue⟩ := h
  exact ⟨row, hrow, by rw [hdue]; simp⟩

/-- **Only a trigger or a disposition puts an item back on its schedule.** -/
theorem SoundStep.awake (h : SoundStep x e) (hawake : Awake e.before id)
    (hinstalls : ¬ Installs e id) (hadvances : ¬ Advances e id) : Awake e.after id := by
  obtain ⟨prior, hprior, hstate⟩ := hawake
  by_cases hc : Commits e id
  case neg =>
    have hsame : e.after.db.remindi.find? id = e.before.db.remindi.find? id :=
      congrArg ItemView.row (not_not.mp hc)
    exact ⟨prior, hsame.trans hprior, hstate⟩
  obtain ⟨before, after, types, hchange, hrecorded⟩ := h.change hc
  obtain rfl := hrecorded.rowBefore.symm.trans hprior
  have hafter : e.after.db.remindi.find? id = some after := hrecorded.rowAfter
  refine ⟨after, hafter, ?_⟩
  rcases h.commits_cases hc with hcall | ⟨_, now, context, answer, candidate, result, rfl, hstep⟩
  case inr =>
    obtain rfl := Option.some.inj (hstep.recorded.rowBefore.symm.trans hprior)
    obtain rfl := Option.some.inj (hafter.symm.trans hstep.recorded.rowAfter)
    obtain ⟨evaluated, hevaluate, rfl⟩ := evaluateCandidate_evaluated hstep.ne_nil hstep.outcome
    show (RemindiService.evaluatedVersion _ _ _).state ≠ _
    rw [evaluatedVersion_state]
    exact evaluate_ne_scheduled hstate hevaluate
  obtain ⟨s, label, response, s'⟩ := e
  cases hchange with
  | check hpending hitem evaluated => cases hcall
  | poll hpoll hcandidates evaluated => cases hcall
  | @operate ownerId actor call env _ mutation target operates =>
    show mutation.item.state ≠ .scheduled
    cases operates with
    | complete prepared validated ok =>
      rw [(Remindi.complete_ok (completeItem_ok ok).1).2]
      simp
    | snooze prepared ok =>
      rw [(Remindi.snooze_ok (snoozeItem_ok ok).1).2.2]
      simp
    | cancel prepared ok =>
      rw [(Remindi.cancel_ok (cancelItem_ok ok).1).2]
      simp
    | @update raw request _ prepared ok =>
      have hid : raw.remindiId = id := by
        rw [(Prod.mk.inj (Option.some.inj target)).1]
        exact Table.key_of_find? hprior
      have htrigger : request.trigger = none := by
        rw [(prepareUpdate_ok prepared).2.2.2.1]
        cases hraw : raw.trigger with
        | none => rfl
        | some trigger =>
          exact absurd ⟨hc, ownerId, actor, raw, env, rfl, hid, by rw [hraw]; rfl⟩ hinstalls
      rcases updateItem_state ok htrigger with ⟨hkeep, -⟩ | hmoved
      · rw [hkeep]
        exact hstate
      · exact absurd ⟨prior, _, hprior, hafter, Nat.ne_of_gt hmoved⟩ hadvances

/-- **An item fires only by an evaluation that met its trigger.** -/
theorem SoundStep.fired_by (h : SoundStep x e) (hdue : BecomesDue e id)
    (hfixed : ∀ row, e.before.db.remindi.find? id = some row → FixedTime row) :
    (groupOf id e).countP (fun event => event.eventType = .becameDue) = 1 ∧
      ∃ prior now context answer, e.before.db.remindi.find? id = some prior ∧
        Evaluates e.before e.label prior now context answer ∧
        TriggerMet prior now context (conditionOf answer) := by
  have hc := hdue.commits
  obtain ⟨prior, row, hprior, hscheduled, hrow, hstate⟩ := hdue
  rcases h.commits_cases hc with hcall | ⟨prior', now, context, answer, candidate, result, hid, hstep⟩
  · -- a call leaves a scheduled item scheduled, or ends it
    exfalso
    obtain ⟨before, after, types, hchange, hrecorded⟩ := h.change hc
    obtain rfl := hrecorded.rowBefore.symm.trans hprior
    obtain rfl := Option.some.inj (hrecorded.rowAfter.symm.trans hrow)
    obtain ⟨s, label, response, s'⟩ := e
    cases hchange with
    | check hpending hitem evaluated => cases hcall
    | poll hpoll hcandidates evaluated => cases hcall
    | operate target operates => exact operates.ne_due hscheduled hstate
  subst hid
  obtain rfl := Option.some.inj (hstep.recorded.rowBefore.symm.trans hprior)
  obtain rfl := Option.some.inj (hstep.recorded.rowAfter.symm.trans hrow)
  obtain ⟨evaluated, hevaluate, rfl⟩ := evaluateCandidate_evaluated hstep.ne_nil hstep.outcome
  have hfired : evaluated.state ≠ .scheduled := by
    have hdue : (RemindiService.evaluatedVersion _ _ _).state = .due := hstate
    rw [evaluatedVersion_state] at hdue
    rw [hdue]
    simp
  obtain ⟨observed, readiness, events, hsatisfied, hresult⟩ :=
    evaluate_fires hscheduled hevaluate hfired
  refine ⟨?_, prior', now, context, answer, hprior, hstep.evaluates,
    triggerMet_of_satisfaction (hfixed prior' hprior) hsatisfied⟩
  have htypes := hstep.recorded.groupOf.1
  rw [hresult] at htypes
  have hcount : (groupOf prior'.id e).countP (fun event => event.eventType = .becameDue) =
      ((groupOf prior'.id e).map (·.eventType)).countP (· = .becameDue) := by
    rw [List.countP_map]
    rfl
  rw [hcount, htypes]
  rcases (Remindi.triggerSatisfaction_ok hsatisfied).events with hnone | ⟨-, hsome⟩
  · rw [hnone]
    rfl
  · rw [hsome]
    rfl

/-! ## Every run -/

/-- **An item fires once and never early.**  In every run there is, between two
firings of an item, a committed step that installs a trigger on it or moves its
occurrence number; a firing has exactly one became-due event, and the evaluation
that committed it met the trigger of the stored row. -/
theorem fires_once_never_early (x : Externals) (labels : List Label) (id : Uuid) :
    (∀ pre e mid e' post, historyOf x labels = pre ++ e :: (mid ++ e' :: post) →
      BecomesDue e id → BecomesDue e' id → ∃ k ∈ mid, Installs k id ∨ Advances k id) ∧
    ∀ e ∈ historyOf x labels, BecomesDue e id →
      (groupOf id e).countP (fun event => event.eventType = .becameDue) = 1 ∧
        ∃ prior now context answer, e.before.db.remindi.find? id = some prior ∧
          Evaluates e.before e.label prior now context answer ∧
          TriggerMet prior now context (conditionOf answer) := by
  refine ⟨fun pre e mid e' post hhistory hdue hdue' => ?_, fun e he hdue => ?_⟩
  · by_contra hnone
    have hmem : e ∈ historyOf x labels := by
      rw [hhistory]
      exact List.mem_append_right _ List.mem_cons_self
    have hsound := soundStep_of_mem hmem
    have hafter : InFlight x e.after := by
      rw [hsound.taken]
      exact step_inFlight hsound.inFlight _
    obtain ⟨-, row, hrow, hawake⟩ := invariant_between (I := fun s => InFlight x s ∧ Awake s id)
      (Q := fun k => ¬ Installs k id ∧ ¬ Advances k id) hhistory ⟨hafter, hdue.awake⟩
      (fun s label hs hquiet => ⟨step_inFlight hs.1 label,
        SoundStep.awake (e := entry (step x) s label) ⟨hs.1, rfl⟩ hs.2 hquiet.1 hquiet.2⟩)
      (fun k hk => not_or.mp fun h => hnone ⟨k, hk, h⟩)
    obtain ⟨prior, -, hprior, hscheduled, -⟩ := hdue'
    obtain rfl := Option.some.inj (hrow.symm.trans hprior)
    exact hawake hscheduled
  · obtain ⟨ks, hks⟩ := before_reachable he
    exact (soundStep_of_mem he).fired_by hdue fun row hrow =>
      fixedTime_run (x := x) ks id row (hks ▸ hrow)

/-! ## An equal trigger -/

/-- The step leaves the item with another trigger or another occurrence number. -/
def Differs (e : StepRecord) (id : Uuid) : Prop :=
  ∃ prior row, e.before.db.remindi.find? id = some prior ∧
    e.after.db.remindi.find? id = some row ∧
    (row.trigger ≠ prior.trigger ∨ row.occurrenceNo ≠ prior.occurrenceNo)

/-- An item's state and its schedule. -/
structure Sample.Snapshot where
  state : RemindiState
  grid : Option (OffsetDateTime × Nat)
  occurrenceNo : Nat
deriving DecidableEq

def Sample.snapshot (s : System) : Option Sample.Snapshot :=
  (s.db.remindi.find? (Sample.uuid 0)).map fun row =>
    { state := row.state, grid := row.trigger.grid?, occurrenceNo := row.occurrenceNo }

theorem Trigger.eq_interval {trigger : Trigger} {firstAt : OffsetDateTime} {everySeconds : Nat}
    (h : trigger.grid? = some (firstAt, everySeconds)) :
    trigger = .interval firstAt everySeconds := by
  cases trigger <;> cases h
  rfl

theorem Sample.not_differs {state state' : RemindiState} {firstAt : OffsetDateTime}
    {everySeconds no : Nat}
    (h : (Sample.snapshot e.before, Sample.snapshot e.after) =
      (some ⟨state, some (firstAt, everySeconds), no⟩,
        some ⟨state', some (firstAt, everySeconds), no⟩)) :
    ¬ Differs e (Sample.uuid 0) := by
  rintro ⟨prior, row, hprior, hrow, hdiffers⟩
  unfold Sample.snapshot at h
  rw [hprior, hrow] at h
  simp only [Option.map_some, Prod.mk.injEq, Option.some.injEq, Sample.Snapshot.mk.injEq] at h
  obtain ⟨⟨-, hgrid, hno⟩, -, hgrid', hno'⟩ := h
  rcases hdiffers with htrigger | hother
  · exact htrigger ((Trigger.eq_interval hgrid').trans (Trigger.eq_interval hgrid).symm)
  · exact hother (hno'.trans hno.symm)

theorem Sample.becomesDue {grid grid' : Option (OffsetDateTime × Nat)} {no no' : Nat}
    (h : (Sample.snapshot e.before, Sample.snapshot e.after) =
      (some ⟨.scheduled, grid, no⟩, some ⟨.due, grid', no'⟩)) : BecomesDue e (Sample.uuid 0) := by
  obtain ⟨hbefore, hafter⟩ := Prod.mk.inj h
  obtain ⟨prior, hprior, hscheduled⟩ := Option.map_eq_some_iff.mp hbefore
  obtain ⟨row, hrow, hdue⟩ := Option.map_eq_some_iff.mp hafter
  exact ⟨prior, row, hprior, congrArg Sample.Snapshot.state hscheduled, hrow,
    congrArg Sample.Snapshot.state hdue⟩

def Sample.snoozeUntil2000 : SnoozeRequest where
  remindiId := Sample.uuid 0
  expectedVersion := 2
  snoozeUntil := Sample.second 2000
  reason := "reason"
  idempotencyKey := "snooze-1"

/-- The trigger that the item already has. -/
def Sample.sameTrigger : UpdateRequest :=
  { Sample.update 3 "update-2" with trigger := some (.interval (Sample.second 1000) 60) }

/-- The item fires at second 1000, is snoozed, gets its own trigger again and is polled. -/
def Sample.rearmedRun : List Label :=
  [Sample.call (.add Sample.everyMinute) 500 0, Sample.pollRead 1000, Sample.pollApply 1000 1,
    Sample.pollApply 1001 2, Sample.call (.snooze Sample.snoozeUntil2000 3600000000000) 1010 3,
    Sample.call (.update Sample.sameTrigger) 1020 4, Sample.pollRead 1030, Sample.pollApply 1030 5]

/-- Every minute from second 1000 on, at the first occurrence. -/
def Sample.minutes (state : RemindiState) : Sample.Snapshot := ⟨state, some (Sample.second 1000, 60), 1⟩

theorem Sample.rearmed_snapshots :
    (historyOf Sample.externals Sample.rearmedRun).map
        (fun e => (Sample.snapshot e.before, Sample.snapshot e.after)) =
      [(none, some (Sample.minutes .scheduled)),
        (some (Sample.minutes .scheduled), some (Sample.minutes .scheduled)),
        (some (Sample.minutes .scheduled), some (Sample.minutes .due)),
        (some (Sample.minutes .due), some (Sample.minutes .due)),
        (some (Sample.minutes .due), some (Sample.minutes .snoozed)),
        (some (Sample.minutes .snoozed), some (Sample.minutes .scheduled)),
        (some (Sample.minutes .scheduled), some (Sample.minutes .scheduled)),
        (some (Sample.minutes .scheduled), some (Sample.minutes .due))] := by
  decide +kernel

/-- The item fires twice with one trigger and one occurrence number throughout. -/
theorem equal_trigger_fires_again :
    ¬ ∀ (labels : List Label) (id : Uuid) (pre : List StepRecord) (e : StepRecord)
        (mid : List StepRecord) (e' : StepRecord) (post : List StepRecord),
      historyOf Sample.externals labels = pre ++ e :: (mid ++ e' :: post) →
        BecomesDue e id → BecomesDue e' id → ∃ k ∈ mid, Differs k id := by
  intro hclaim
  obtain ⟨added, rest, hhistory, -, h⟩ := List.map_eq_cons_iff.mp Sample.rearmed_snapshots
  obtain ⟨read, rest, rfl, -, h⟩ := List.map_eq_cons_iff.mp h
  obtain ⟨fired, rest, rfl, hfired, h⟩ := List.map_eq_cons_iff.mp h
  obtain ⟨ended, rest, rfl, hended, h⟩ := List.map_eq_cons_iff.mp h
  obtain ⟨snoozed, rest, rfl, hsnoozed, h⟩ := List.map_eq_cons_iff.mp h
  obtain ⟨updated, rest, rfl, hupdated, h⟩ := List.map_eq_cons_iff.mp h
  obtain ⟨readAgain, rest, rfl, hread, h⟩ := List.map_eq_cons_iff.mp h
  obtain ⟨firedAgain, rest, rfl, hagain, h⟩ := List.map_eq_cons_iff.mp h
  obtain rfl := List.map_eq_nil_iff.mp h
  obtain ⟨k, hk, hdiffers⟩ := hclaim Sample.rearmedRun (Sample.uuid 0) [added, read] fired
    [ended, snoozed, updated, readAgain] firedAgain [] hhistory (Sample.becomesDue hfired)
    (Sample.becomesDue hagain)
  simp only [List.mem_cons, List.not_mem_nil, or_false] at hk
  rcases hk with rfl | rfl | rfl | rfl
  · exact Sample.not_differs hended hdiffers
  · exact Sample.not_differs hsnoozed hdiffers
  · exact Sample.not_differs hupdated hdiffers
  · exact Sample.not_differs hread hdiffers

end RemindiCore
