import RemindiCore.Proof.Firing

/-!
# Manual verification

A condition whose manual deadline passes becomes due without its adapter.  The
readiness says so only in the answer of the check that commits this transition:
for a row that is due or snoozed the evaluator does not ask the trigger
(`manual_verification_reported_iff`).
-/

namespace RemindiCore

open CivilTime KeyedTable Transaction Machine

variable {x : Externals} {e : StepRecord} {id : Uuid}

/-! ## Occurrences that became due manually -/

/-- The step makes the item due because the manual deadline of its condition has
passed; no adapter is satisfied. -/
def BecomesDueManually (e : StepRecord) (id : Uuid) : Prop :=
  BecomesDue e id ∧ ∃ prior now context answer adapter parameters poll manualCheckAt,
    e.before.db.remindi.find? id = some prior ∧
      Evaluates e.before e.label prior now context answer ∧
      prior.trigger = .condition adapter parameters poll manualCheckAt ∧
      Reached manualCheckAt now ∧ conditionOf answer ≠ .satisfied

/-- At the end of the history the item is at an occurrence that became due
manually, at this version or an earlier one. -/
inductive ManuallyDue (id : Uuid) (version : Nat) : List StepRecord → Prop
  | becomes {history : List StepRecord} {e : StepRecord} {row : Remindi}
      (manual : BecomesDueManually e id) (hrow : e.after.db.remindi.find? id = some row)
      (hversion : row.version ≤ version) : ManuallyDue id version (history ++ [e])
  | stays {history : List StepRecord} {e : StepRecord} (earlier : ManuallyDue id version history)
      (awake : Awake e.after id) : ManuallyDue id version (history ++ [e])

theorem ManuallyDue.awake {version : Nat} {labels : List Label}
    (h : ManuallyDue id version (historyOf x labels)) : Awake (runOf x labels) id := by
  generalize hhistory : historyOf x labels = history at h
  cases h with
  | becomes manual hrow hversion =>
    show Awake (final (step x) System.start labels) id
    rw [final_of_last hhistory]
    exact manual.1.awake
  | stays earlier awake =>
    show Awake (final (step x) System.start labels) id
    rw [final_of_last hhistory]
    exact awake

/-! ## The evaluator -/

section

variable {r observed : Remindi} {now : OffsetDateTime} {context : CheckContext}
  {readiness : Readiness} {events : List EventType}

/-- Only an item that is still scheduled is ready for manual verification. -/
theorem Remindi.ReadyBy.ne_manual (h : r.ReadyBy now context readiness)
    (hstate : r.state ≠ .scheduled) : readiness ≠ .manualVerification := by
  cases h with
  | due hdue => exact Remindi.dueReadiness_ne_manual
  | overdue hoverdue => simp
  | awake hsnoozed hsnooze hreached => exact Remindi.dueReadiness_ne_manual
  | satisfied hscheduled htrigger => exact absurd hscheduled hstate

/-- Without an adapter a condition is satisfied by its manual deadline only. -/
theorem satisfaction_manual (hcondition : r.trigger.isCondition = true)
    (h : (r.checkedAt now).triggerSatisfaction now context .notEvaluated =
      .ok (observed, true, readiness, events)) : readiness = .manualVerification := by
  unfold Remindi.triggerSatisfaction at h
  have htrigger : (r.checkedAt now).trigger = r.trigger := rfl
  rw [htrigger] at h
  cases hkind : r.trigger with
  | condition adapter parameters poll manualCheckAt =>
    simp only [hkind] at h
    split at h
    · cases h
    simp only [Except.ok.injEq, Prod.mk.injEq] at h
    obtain ⟨-, hsatisfied, hreadiness, -⟩ := h
    have hmanual : manualCheckAt.any (fun t => t.utc ≤ now.utc) = true := by
      simpa using hsatisfied
    rw [hmanual] at hreadiness
    exact hreadiness.symm
  | _ =>
    rw [hkind] at hcondition
    cases hcondition

theorem Remindi.ReadyBy.manual (h : r.ReadyBy now context readiness)
    (hstate : r.state = .scheduled) (hcondition : r.trigger.isCondition = true) :
    readiness = .manualVerification := by
  cases h with
  | due hdue =>
    rw [hstate] at hdue
    cases hdue
  | overdue hoverdue =>
    rw [hstate] at hoverdue
    cases hoverdue
  | awake hsnoozed hsnooze hreached =>
    rw [hstate] at hsnoozed
    cases hsnoozed
  | satisfied hscheduled htrigger => exact satisfaction_manual hcondition htrigger

end

/-! ## Answers -/

/-- An item of the answer was settled from the item of the page with its identifier. -/
theorem AnsweredBy.settled {pending : RemindiService.PendingCheck} {items : List CheckedItem}
    {a : CheckedItem} {item : ReadyItem pending.now pending.context}
    (h : AnsweredBy x e pending items) (ha : a ∈ items) (hitem : item ∈ pending.ready)
    (hid : a.remindi.id = item.prior.id) : Settled x e.before.db e.after.db item a := by
  obtain ⟨other, hother, hsettled⟩ := (h.reported.settled h.distinct h.fresh).1 a ha
  have hsame : other.prior.id = item.prior.id := by
    rw [← hid]
    cases hsettled with
    | kept hevents => rfl
    | stored hevents hrecorded => exact other.sameSchedule.id.symm
  obtain rfl := List.inj_on_of_nodup_map h.distinct hother hitem hsame
  exact hsettled

/-- **Manual verification is reported by the check that commits it, and by no
other.**  A check returns, in state due, an occurrence that became due manually:
its readiness is manual verification exactly if the row the check has read was
still scheduled. -/
theorem manual_verification_reported_iff (x : Externals) (labels : List Label) (label : Label)
    {pending : RemindiService.PendingCheck} {result : CheckResult} {a : CheckedItem}
    {item : ReadyItem pending.now pending.context}
    (hanswers : AnswersFor x (entry (step x) (runOf x labels) label) pending)
    (hresponse : (step x (runOf x labels) label).2 = .check (.ok result))
    (ha : a ∈ result.items) (hitem : item ∈ pending.ready) (hid : a.remindi.id = item.prior.id)
    (hmanual : ManuallyDue a.remindi.id a.remindi.version
      (historyOf x labels ++ [entry (step x) (runOf x labels) label]))
    (hdue : a.remindi.state = .due) :
    a.readiness = .manualVerification ↔ item.prior.state = .scheduled := by
  set e := entry (step x) (runOf x labels) label with he
  have hsound : SoundStep x e := ⟨inFlight_runOf labels, rfl⟩
  obtain ⟨pending', hanswers', hanswered⟩ := hsound.check_answered hresponse
  obtain rfl := hanswers.unique hanswers'
  have hsettled := hanswered.settled ha hitem hid
  have hreadiness : a.readiness = item.checked.readiness := by
    cases hsettled <;> rfl
  rw [hreadiness]
  refine ⟨fun h => ?_, fun hscheduled => ?_⟩
  · by_contra hstate
    exact item.readyBy.ne_manual hstate h
  refine item.readyBy.manual hscheduled ?_
  have hbefore : e.before.db.remindi.find? item.prior.id = some item.prior := by
    cases hsettled with
    | kept hevents =>
      -- a row reported as it was read is due
      have hdue : item.prior.state = .due := hdue
      rw [hscheduled] at hdue
      cases hdue
    | stored hevents hrecorded => exact hrecorded.rowBefore
  rw [hid] at hmanual
  generalize hhistory : historyOf x labels ++ [e] = history at hmanual
  cases hmanual with
  | becomes manual hrow hversion =>
    obtain ⟨-, hlast⟩ := List.append_inj' hhistory rfl
    obtain rfl := List.singleton_inj.mp hlast
    obtain ⟨-, prior, now, context, answer, adapter, parameters, poll, manualCheckAt, hprior, -,
      htrigger, -⟩ := manual
    obtain rfl := Option.some.inj (hbefore.symm.trans hprior)
    rw [htrigger]
    rfl
  | stays earlier awake =>
    -- before the check the occurrence was there already, so its row was not scheduled
    obtain ⟨rfl, -⟩ := List.append_inj' hhistory rfl
    obtain ⟨row, hrow, hawake⟩ := earlier.awake
    obtain rfl := Option.some.inj (hrow.symm.trans hbefore)
    exact absurd hscheduled hawake

/-! ## Samples -/

namespace Sample

/-- A condition whose adapter is not configured, to be checked by hand from second 1000 on. -/
def byHand : AddRequest :=
  { everyMinute with
    trigger := .condition "adapter" (.object []) none (some (second 1000))
    recurrence := none }

/-- What an answer says of an item. -/
structure Returned where
  id : Uuid
  version : Nat
  state : RemindiState
  readiness : Readiness
deriving DecidableEq

def returned : Response → Option (List Returned)
  | .check (.ok result) => some <| result.items.map fun a =>
      { id := a.remindi.id
        version := a.remindi.version
        state := a.remindi.state
        readiness := a.readiness }
  | _ => none

def checkRead (now : Int) : Label := .checkRead "owner" agent checkRequest (env now 9)

def checkPersist (now : Int) : Label := .checkPersist 0 (env now 1)

/-- A poll without adapters that writes two events. -/
def pollCondition (now : Int) : Label :=
  .pollApply 0 (fun _ => none)
    { env now 1 with ids := fun n => if n % 2 = 0 then uuid 1 else uuid 2 }

/-- The scheduler has read the item at its deadline. -/
def pollingRun : List Label := [call (.add byHand) 500 0, pollRead 1000]

/-- A check has read it. -/
def readRun : List Label := [call (.add byHand) 500 0, checkRead 1000]

/-- The version, the state and the manual deadline of the item before and after a step. -/
def deadlineOf (s : System) : Option (RemindiState × Nat × Option OffsetDateTime) :=
  (s.db.remindi.find? (uuid 0)).map fun row =>
    (row.state, row.version, Repository.manualCheckAt row.trigger)

theorem manualCheckAt_eq_some {trigger : Trigger} {t : OffsetDateTime}
    (h : Repository.manualCheckAt trigger = some t) :
    ∃ adapter parameters poll, trigger = .condition adapter parameters poll (some t) := by
  cases trigger with
  | condition adapter parameters poll manualCheckAt =>
    obtain rfl : manualCheckAt = some t := h
    exact ⟨adapter, parameters, poll, rfl⟩
  | _ => cases h

section

variable {x : Externals} {labels : List Label} {l label : Label} {v v' : Nat}
  {t t' : Option OffsetDateTime}

/-- A step that makes a condition due, where no adapter is configured. -/
theorem becomesDueManually
    (hbefore : deadlineOf (runOf x labels) = some (.scheduled, v, some (second 1000)))
    (hafter : deadlineOf (step x (runOf x labels) l).1 = some (.due, v', t'))
    (hadapters : ∀ index adapters env, l = .pollApply index adapters env →
      adapters = fun _ => none) :
    BecomesDueManually (entry (step x) (runOf x labels) l) (uuid 0) := by
  obtain ⟨prior, hprior, hpriorState⟩ := Option.map_eq_some_iff.mp hbefore
  obtain ⟨row, hrow, hrowState⟩ := Option.map_eq_some_iff.mp hafter
  obtain ⟨hscheduled, -, hdeadline⟩ : prior.state = .scheduled ∧ prior.version = v ∧
      Repository.manualCheckAt prior.trigger = some (second 1000) := by
    simpa using hpriorState
  have hdue : BecomesDue (entry (step x) (runOf x labels) l) (uuid 0) :=
    ⟨prior, row, hprior, hscheduled, hrow, (Prod.mk.inj hrowState).1⟩
  have hsound : SoundStep x (entry (step x) (runOf x labels) l) := ⟨inFlight_runOf labels, rfl⟩
  obtain ⟨-, prior', now, context, answer, hprior', hevaluates, hmet⟩ :=
    hsound.fired_by hdue (fixedTime_run labels _)
  obtain rfl := Option.some.inj (hprior.symm.trans hprior')
  obtain ⟨adapter, parameters, poll, htrigger⟩ := manualCheckAt_eq_some hdeadline
  have hanswer : conditionOf answer ≠ .satisfied := by
    have hevaluates : Evaluates (runOf x labels) l prior now context answer := hevaluates
    cases hevaluates with
    | check hpending hitem => simp [conditionOf]
    | poll hpoll hcandidates =>
      rw [hadapters _ _ _ rfl]
      simp [RemindiService.evaluateCondition, htrigger, conditionOf, RemindiService.mapStatus]
  refine ⟨hdue, prior, now, context, answer, adapter, parameters, poll, _, hprior, hevaluates,
    htrigger, ?_, hanswer⟩
  unfold TriggerMet at hmet
  rw [htrigger] at hmet
  exact hmet.resolve_left hanswer

theorem deadlineOf_due {s : System} (h : deadlineOf s = some (.due, v, t)) :
    ∃ row, s.db.remindi.find? (uuid 0) = some row ∧ row.state = .due ∧ row.version = v := by
  obtain ⟨row, hrow, hrest⟩ := Option.map_eq_some_iff.mp h
  obtain ⟨hstate, hrest⟩ := Prod.mk.inj hrest
  exact ⟨row, hrow, hstate, (Prod.mk.inj hrest).1⟩

/-- The step has just made the item due. -/
theorem manuallyDue_now
    (hmanual : BecomesDueManually (entry (step x) (runOf x labels) l) (uuid 0))
    (hafter : deadlineOf (step x (runOf x labels) l).1 = some (.due, v, t)) :
    ManuallyDue (uuid 0) v (historyOf x labels ++ [entry (step x) (runOf x labels) l]) := by
  obtain ⟨row, hrow, -, rfl⟩ := deadlineOf_due hafter
  exact .becomes hmanual hrow (Nat.le_refl _)

/-- A later step has left it due. -/
theorem manuallyDue_still
    (hmanual : BecomesDueManually (entry (step x) (runOf x labels) l) (uuid 0))
    (hbecame : deadlineOf (step x (runOf x labels) l).1 = some (.due, v, t))
    (hafter : deadlineOf (step x (runOf x (labels ++ [l])) label).1 = some (.due, v', t')) :
    ManuallyDue (uuid 0) v
      (historyOf x (labels ++ [l]) ++ [entry (step x) (runOf x (labels ++ [l])) label]) := by
  obtain ⟨row, hrow, hdue, -⟩ := deadlineOf_due hafter
  refine .stays ?_ ⟨row, hrow, by rw [hdue]; simp⟩
  unfold historyOf
  rw [history_append]
  exact manuallyDue_now hmanual hbecame

end

theorem returned_eq_some {response : Response} {expected : Returned}
    (h : returned response = some [expected]) :
    ∃ result a, response = .check (.ok result) ∧ a ∈ result.items ∧ a.remindi.id = expected.id ∧
      a.remindi.version = expected.version ∧ a.remindi.state = expected.state ∧
      a.readiness = expected.readiness := by
  unfold returned at h
  split at h
  · next result =>
    obtain ⟨a, hitems, hreturned⟩ := List.map_eq_singleton_iff.mp (Option.some.inj h)
    refine ⟨result, a, rfl, by rw [hitems]; exact List.mem_singleton_self _, ?_⟩
    rw [← hreturned]
    exact ⟨rfl, rfl, rfl, rfl⟩
  · cases h

/-- An answer with one item, and the item of the page it was settled from. -/
theorem answer_settled {x : Externals} {labels : List Label} {label : Label} {expected : Returned}
    (h : returned (step x (runOf x labels) label).2 = some [expected]) :
    ∃ pending result a, ∃ item : ReadyItem pending.now pending.context,
      AnswersFor x (entry (step x) (runOf x labels) label) pending ∧
      (step x (runOf x labels) label).2 = .check (.ok result) ∧ a ∈ result.items ∧
      item ∈ pending.ready ∧ a.remindi.id = item.prior.id ∧
      Settled x (runOf x labels).db (step x (runOf x labels) label).1.db item a ∧
      a.remindi.id = expected.id ∧ a.remindi.version = expected.version ∧
      a.remindi.state = expected.state ∧ a.readiness = expected.readiness := by
  obtain ⟨result, a, hresponse, ha, hexpected⟩ := returned_eq_some h
  have hsound : SoundStep x (entry (step x) (runOf x labels) label) := ⟨inFlight_runOf labels, rfl⟩
  obtain ⟨pending, hanswers, hanswered⟩ := hsound.check_answered hresponse
  obtain ⟨item, hitem, hsettled⟩ :=
    (hanswered.reported.settled hanswered.distinct hanswered.fresh).1 a ha
  refine ⟨pending, result, a, item, hanswers, hresponse, ha, hitem, ?_, hsettled, hexpected⟩
  cases hsettled with
  | kept hevents => rfl
  | stored hevents hrecorded => exact item.sameSchedule.id

theorem polled_becomesDue : BecomesDueManually
    (entry (step externals) (runOf externals pollingRun) (pollCondition 1000)) (uuid 0) := by
  have hbefore : deadlineOf (runOf externals pollingRun) =
      some (.scheduled, 1, some (second 1000)) := by
    decide +kernel
  have hafter : deadlineOf (step externals (runOf externals pollingRun) (pollCondition 1000)).1 =
      some (.due, 2, some (second 1000)) := by
    decide +kernel
  refine becomesDueManually hbefore hafter fun index adapters env h => ?_
  cases h
  rfl

end Sample

/-- The scheduler commits the transition; a check after it reports the occurrence as due. -/
theorem poll_hides_manual_verification :
    ¬ ∀ (labels : List Label) (label : Label) (pending : RemindiService.PendingCheck)
        (result : CheckResult) (a : CheckedItem),
      AnswersFor Sample.externals (entry (step Sample.externals) (runOf Sample.externals labels)
        label) pending →
      (step Sample.externals (runOf Sample.externals labels) label).2 = .check (.ok result) →
      a ∈ result.items →
      ManuallyDue a.remindi.id a.remindi.version (historyOf Sample.externals labels ++
        [entry (step Sample.externals) (runOf Sample.externals labels) label]) →
      a.remindi.state = .due → a.readiness = .manualVerification := by
  intro hclaim
  have hbecame : Sample.deadlineOf (step Sample.externals
      (runOf Sample.externals Sample.pollingRun) (Sample.pollCondition 1000)).1 =
        some (.due, 2, some (Sample.second 1000)) := by
    decide +kernel
  have hafter : Sample.deadlineOf (step Sample.externals (runOf Sample.externals
      (Sample.pollingRun ++ [Sample.pollCondition 1000])) (Sample.checkRead 1100)).1 =
        some (.due, 2, some (Sample.second 1000)) := by
    decide +kernel
  have hreturned : Sample.returned (step Sample.externals (runOf Sample.externals
      (Sample.pollingRun ++ [Sample.pollCondition 1000])) (Sample.checkRead 1100)).2 =
        some [⟨Sample.uuid 0, 2, .due, .due⟩] := by
    decide +kernel
  have hmanual := Sample.manuallyDue_still Sample.polled_becomesDue hbecame hafter
  obtain ⟨pending, result, a, item, hanswers, hresponse, ha, -, -, -, hid, hversion, hstate,
    hreadiness⟩ := Sample.answer_settled hreturned
  have hid : a.remindi.id = Sample.uuid 0 := hid
  have hversion : a.remindi.version = 2 := hversion
  rw [← hid, ← hversion] at hmanual
  have hverified := hclaim _ _ pending result a hanswers hresponse ha hmanual hstate
  rw [hreadiness] at hverified
  cases hverified

/-- A check that reports manual verification has committed the transition itself. -/
theorem sample_check_reports_manual :
    ∃ (pending : RemindiService.PendingCheck) (result : CheckResult) (a : CheckedItem)
        (item : ReadyItem pending.now pending.context),
      (step Sample.externals (runOf Sample.externals Sample.readRun)
        (Sample.checkPersist 1000)).2 = .check (.ok result) ∧ a ∈ result.items ∧
      item ∈ pending.ready ∧ a.remindi.id = item.prior.id ∧ a.readiness = .manualVerification ∧
      item.prior.state = .scheduled := by
  have hbefore : Sample.deadlineOf (runOf Sample.externals Sample.readRun) =
      some (.scheduled, 1, some (Sample.second 1000)) := by
    decide +kernel
  have hafter : Sample.deadlineOf (step Sample.externals (runOf Sample.externals Sample.readRun)
      (Sample.checkPersist 1000)).1 = some (.due, 2, some (Sample.second 1000)) := by
    decide +kernel
  have hreturned : Sample.returned (step Sample.externals (runOf Sample.externals Sample.readRun)
      (Sample.checkPersist 1000)).2 = some [⟨Sample.uuid 0, 2, .due, .manualVerification⟩] := by
    decide +kernel
  have hmanual := Sample.manuallyDue_now (Sample.becomesDueManually hbefore hafter
    fun index adapters env h => by cases h) hafter
  obtain ⟨pending, result, a, item, hanswers, hresponse, ha, hitem, hsame, -, hid, hversion,
    hstate, hreadiness⟩ := Sample.answer_settled hreturned
  have hid : a.remindi.id = Sample.uuid 0 := hid
  have hversion : a.remindi.version = 2 := hversion
  rw [← hid, ← hversion] at hmanual
  refine ⟨pending, result, a, item, hresponse, ha, hitem, hsame, hreadiness, ?_⟩
  exact (manual_verification_reported_iff Sample.externals Sample.readRun (Sample.checkPersist 1000)
    hanswers hresponse ha hitem hsame hmanual hstate).mp hreadiness

end RemindiCore
