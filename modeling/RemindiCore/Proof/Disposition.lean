import RemindiCore.Proof.Grid

/-!
# What a disposition consumes

A disposition moves the item from its anchor to a later grid time.  The grid
times it passes after `now` are exactly the ones up to the anchor
(`passed_iff`), so it passes over a future occurrence when the anchor itself
lies in the future: a new trigger whose first time is still to come, on an item
that an evaluation of the old trigger made due.
-/

namespace RemindiCore

open CivilTime KeyedTable Machine Transaction

variable {x : Externals} {id : Uuid}

/-! ## Grid times and due occurrences -/

/-- `g` is a grid time of the trigger: its first time plus whole periods. -/
def gridTime (trigger : Trigger) (g : Int) : Bool :=
  match trigger with
  | .interval firstAt everySeconds =>
    firstAt.utc ≤ g && (g - firstAt.utc) % (everySeconds * secondNanos) = 0
  | _ => false

/-- The step is an evaluation that makes the occurrence at `g` due: a scheduled
item that waited for `g` or an earlier grid time has become due at or after `g`. -/
def makesDue (id : Uuid) (g : Int) (e : StepRecord) : Bool :=
  match e.before.db.remindi.find? id, e.after.db.remindi.find? id with
  | some prior, some row =>
    prior.state = .scheduled && row.state = .due && gridTime prior.trigger g &&
      prior.nextFireAt.any (·.utc ≤ g) && row.dueSince.any (g ≤ ·.utc)
  | _, _ => false

def MadeDue (id : Uuid) (history : List StepRecord) (g : Int) : Prop :=
  history.any (makesDue id g) = true

theorem gridTime_iff {firstAt : OffsetDateTime} {everySeconds : Nat} {g : Int}
    (hpos : 0 < everySeconds) :
    gridTime (.interval firstAt everySeconds) g = true ↔
      ∃ n : Nat, g = (firstAt.addSeconds (n * everySeconds)).utc := by
  have hp : 0 < (everySeconds : Int) * secondNanos := by
    unfold secondNanos
    omega
  simp only [gridTime, Bool.and_eq_true, decide_eq_true_eq, OffsetDateTime.addSeconds_utc]
  constructor
  · rintro ⟨hle, hmod⟩
    obtain ⟨m, hm⟩ := Int.dvd_of_emod_eq_zero hmod
    have hm0 : 0 ≤ m := by
      by_contra hneg
      have := Int.mul_neg_of_pos_of_neg hp (by omega : m < 0)
      omega
    refine ⟨m.toNat, ?_⟩
    rw [Int.toNat_of_nonneg hm0, Int.mul_assoc, Int.mul_comm m]
    omega
  · rintro ⟨n, rfl⟩
    have hn : 0 ≤ (n : Int) * everySeconds * secondNanos := by
      rw [Int.mul_assoc]
      exact Int.mul_nonneg (Int.natCast_nonneg n) (Int.le_of_lt hp)
    have hsub : firstAt.utc + (n : Int) * everySeconds * secondNanos - firstAt.utc =
        n * (everySeconds * secondNanos) := by
      rw [Int.mul_assoc]
      omega
    refine ⟨by omega, ?_⟩
    rw [hsub]
    exact Int.mul_emod_left _ _

/-- **What a disposition passes over.**  Of the grid times after `now`, the ones
before the new fire time are the ones up to the anchor. -/
theorem passed_iff {spec : RecurrenceSpec} {firstAt anchor now : OffsetDateTime} {j n : Nat}
    {d : OccurrenceDisposition} {advance : RecurrenceAdvance} {g : Int}
    (hanchor : anchor = firstAt.addSeconds (j * spec.everySeconds))
    (hadvance : spec.advance anchor n now d = .ok advance)
    (hgrid : gridTime (.interval firstAt spec.everySeconds) g = true) (hnow : now.utc < g) :
    g < advance.nextFireAt.utc ↔ g ≤ anchor.utc := by
  have hvalid : spec.validate = .ok () := by
    unfold RecurrenceSpec.advance at hadvance
    obtain ⟨_, hvalid, -⟩ := except_bind_ok.mp hadvance
    exact hvalid
  have hpos : 0 < spec.everySeconds := by
    have := (RecurrenceSpec.validate_ok hvalid).1
    omega
  have hp := RecurrenceSpec.period_pos hvalid
  obtain ⟨m, rfl⟩ := (gridTime_iff hpos).mp hgrid
  obtain ⟨k, hadvanced, hpassed, -⟩ := RecurrenceSpec.advance_ok hadvance
  have hk := hadvanced.pos
  -- all times are first time plus a number of periods
  have hlt : ∀ a b : Nat, (firstAt.addSeconds (a * spec.everySeconds)).utc <
      (firstAt.addSeconds (b * spec.everySeconds)).utc ↔ a < b := by
    intro a b
    simp only [OffsetDateTime.addSeconds_utc, Int.mul_assoc, Int.add_lt_add_iff_left]
    rw [Int.mul_lt_mul_right hp]
    exact Int.ofNat_lt
  have hnew : ∀ i : Nat, (anchor.addSeconds (i * spec.everySeconds)).utc =
      (firstAt.addSeconds ((j + i : Nat) * spec.everySeconds)).utc := by
    intro i
    rw [hanchor, OffsetDateTime.addSeconds_addSeconds, ← Int.add_mul]
    push_cast
    rfl
  rw [hadvanced.nextFireAt, hnew, hlt, hanchor, ← Int.not_lt, hlt]
  constructor
  · intro hbefore hafter
    -- a time between the anchor and the new one has passed already
    have hgone := hpassed (m - j) (by omega) (by omega)
    rw [hnew, show j + (m - j) = m by omega] at hgone
    omega
  · intro hle
    omega

/-! ## The anchor of a disposition -/

/-- The trigger of the updated item. -/
def updatedTrigger (raw : UpdateRequest) (prior : Remindi) : Trigger :=
  (raw.trigger.map normalizeTrigger).getD prior.trigger

/-- Where the updated schedule starts from: the first time of a trigger in the
request, else the stored fire time. -/
def scheduleAnchor (raw : UpdateRequest) (prior : Remindi) : Option OffsetDateTime :=
  match raw.trigger.map normalizeTrigger with
  | some (.interval firstAt _) => some firstAt
  | some _ => none
  | none => prior.nextFireAt

variable {raw request : UpdateRequest} {prior r : Remindi} {now : OffsetDateTime}

theorem TriggerStep.anchor {actor : Actor} {triggered : Remindi}
    (hprepared : prepareUpdate actor raw = .ok request)
    (h : TriggerStep request now (applyFields request prior) triggered) :
    triggered.trigger = updatedTrigger raw prior ∧
      ∀ firstAt everySeconds, triggered.trigger = .interval firstAt everySeconds →
        triggered.nextFireAt = scheduleAnchor raw prior := by
  have hrequest := (prepareUpdate_ok hprepared).2.2.2.1
  unfold updatedTrigger scheduleAnchor
  cases h with
  | keep hnone =>
    rw [← hrequest, hnone]
    exact ⟨rfl, fun _ _ _ => rfl⟩
  | @install trigger next hsome hnext hactive hvalid =>
    obtain ⟨htrigger, hfire, -⟩ := resetSnooze_trigger { applyFields request prior with
      trigger := trigger
      nextFireAt := next
      originalNextFireAt := next
      nextEvaluationAt := none }
    rw [← hrequest, hsome]
    refine ⟨htrigger, fun firstAt everySeconds h => ?_⟩
    obtain rfl : trigger = .interval firstAt everySeconds := htrigger.symm.trans h
    exact hfire.trans (Except.ok.inj hnext).symm

theorem TriggerStep.occurrenceNo {item item' : Remindi} (h : TriggerStep request now item item') :
    item'.occurrenceNo = item.occurrenceNo ∧ item'.recurrence = item.recurrence := by
  cases h with
  | keep hnone => exact ⟨rfl, rfl⟩
  | install hsome hnext hactive hvalid => exact (resetSnooze_trigger _).2.2

/-- A committed disposition has advanced from the anchor, on the grid of the trigger. -/
theorem updateItem_disposition {actor : Actor} {mutation : Mutation} {b : Nat}
    (hgrid : OnGrid b prior) (hprepared : prepareUpdate actor raw = .ok request)
    (hop : updateItem request now prior = .ok mutation)
    (hsome : raw.occurrenceDisposition.isSome = true) :
    ∃ (spec : RecurrenceSpec) (firstAt anchor : OffsetDateTime) (j : Nat)
      (disposition : OccurrenceDisposition) (advance : RecurrenceAdvance),
      updatedTrigger raw prior = .interval firstAt spec.everySeconds ∧
      scheduleAnchor raw prior = some anchor ∧
      anchor = firstAt.addSeconds (j * spec.everySeconds) ∧
      spec.advance anchor prior.occurrenceNo now disposition = .ok advance ∧
      mutation.item.trigger = updatedTrigger raw prior ∧
      mutation.item.nextFireAt = some advance.nextFireAt := by
  obtain ⟨triggered, recurred, moved, steps, hitem, -, -⟩ := updateItem_ok hop
  obtain ⟨htrigger, hanchor⟩ := steps.trigger.anchor hprepared
  have hfields : OnGrid b (applyFields request prior) := hgrid.of_schedule rfl rfl rfl
  have htriggered := hfields.triggerStep steps.trigger
    ⟨raw.trigger, (prepareUpdate_ok hprepared).2.2.2.1⟩
  have hno : triggered.occurrenceNo = prior.occurrenceNo := steps.trigger.occurrenceNo.1
  have hrequest := (prepareUpdate_ok hprepared).2.2.2.2.2
  have hrecurred := steps.recurrence.eq
  have hfits := steps.recurrence.fits
  rw [hitem]
  cases steps.disposition with
  | keep hnone =>
    rw [← hrequest, hnone] at hsome
    cases hsome
  | @advance disposition spec anchor advance hdisposition hspec hfire hadvance =>
    obtain ⟨firstAt, hinterval⟩ := RecurrenceSpec.validateForTrigger_ok (hfits spec hspec)
    rw [hrecurred] at hfire hinterval hadvance
    have hfires := htriggered.fires firstAt spec.everySeconds hinterval
    refine ⟨spec, firstAt, anchor, _, disposition, advance, htrigger.symm.trans hinterval,
      (hanchor firstAt _ hinterval).symm.trans hfire, Option.some.inj (hfire.symm.trans hfires),
      hno ▸ hadvance, ?_, ?_⟩
    all_goals
      unfold bumpVersion
      split <;> rw [hrecurred] <;> first | exact htrigger | rfl

/-! ## The theorem -/

/-- After the call no grid time of the item's trigger lies strictly between `now`
and its new fire time, but for those an earlier evaluation had made due. -/
def ConsumesNoFuture (history : List StepRecord) (after : System) (id : Uuid)
    (now : OffsetDateTime) : Prop :=
  ∀ row new g, after.db.remindi.find? id = some row → row.nextFireAt = some new →
    gridTime row.trigger g = true → now.utc < g → g < new.utc → MadeDue id history g

/-- The disposition starts from an anchor that has passed, or from one up to
which every grid time had been made due already. -/
def AnchorPassed (history : List StepRecord) (before : System) (raw : UpdateRequest)
    (now : OffsetDateTime) : Prop :=
  ∃ prior anchor, before.db.remindi.find? raw.remindiId = some prior ∧
    scheduleAnchor raw prior = some anchor ∧
    (anchor.utc ≤ now.utc ∨ ∀ g, gridTime (updatedTrigger raw prior) g = true → now.utc < g →
      g ≤ anchor.utc → MadeDue raw.remindiId history g)

/-- **A disposition consumes no future occurrence exactly when its anchor has passed.** -/
theorem disposition_consumes_no_future_iff (x : Externals) (labels : List Label)
    (ownerId : String) (actor : Actor) (raw : UpdateRequest) (env : Env)
    (hsome : raw.occurrenceDisposition.isSome = true)
    (hcommitted : Commits (entry (step x) (runOf x labels)
      (.call ownerId actor (.update raw) env)) raw.remindiId) :
    ConsumesNoFuture (historyOf x labels)
        (step x (runOf x labels) (.call ownerId actor (.update raw) env)).1 raw.remindiId
        (env.clock 0) ↔
      AnchorPassed (historyOf x labels) (runOf x labels) raw (env.clock 0) := by
  have hstep : SoundStep x (entry (step x) (runOf x labels)
    (.call ownerId actor (.update raw) env)) := ⟨inFlight_runOf labels, rfl⟩
  obtain ⟨before, after, types, hchange, hrecorded⟩ := hstep.change hcommitted
  have hbefore : (runOf x labels).db.remindi.find? raw.remindiId = before := hrecorded.rowBefore
  have hafter : (step x (runOf x labels)
    (.call ownerId actor (.update raw) env)).1.db.remindi.find? raw.remindiId = some after :=
    hrecorded.rowAfter
  cases hchange.schedule with
  | keep same other => cases other
  | @update _ _ _ request _ prior mutation target prepared ok =>
    have hgrid := (gridInvariant_run labels).stored prior hbefore
    obtain ⟨spec, firstAt, anchor, j, disposition, advance, hinterval, hanchor, hj, hadvance,
      htrigger, hfire⟩ := updateItem_disposition hgrid prepared ok hsome
    have htriggered : mutation.item.trigger = .interval firstAt spec.everySeconds :=
      htrigger.trans hinterval
    have hafterTrigger : (mutation.item.writtenOver x prior).trigger =
        .interval firstAt spec.everySeconds := (Trigger.mapNumbers_eq_other _ rfl).mpr htriggered
    have hupdated := hgrid.update prepared ok
    have hafterFire : (mutation.item.writtenOver x prior).nextFireAt = some advance.nextFireAt :=
      (hupdated.stored_nextFireAt (x := x) htriggered).trans hfire
    constructor
    · intro hfuture
      refine ⟨prior, anchor, hbefore, hanchor, Or.inr fun g hg hnow hle => ?_⟩
      rw [hinterval] at hg
      exact hfuture _ _ g hafter hafterFire (hafterTrigger ▸ hg) hnow
        ((passed_iff hj hadvance hg hnow).mpr hle)
    · rintro ⟨prior', anchor', hprior', hanchor', hpassed⟩ row new g hrow hnew hg hnow hlt
      obtain rfl := Option.some.inj (hbefore.symm.trans hprior')
      obtain rfl := Option.some.inj (hanchor.symm.trans hanchor')
      obtain rfl := Option.some.inj (hafter.symm.trans hrow)
      obtain rfl := Option.some.inj (hafterFire.symm.trans hnew)
      rw [hafterTrigger] at hg
      have hle := (passed_iff hj hadvance hg hnow).mp hlt
      rcases hpassed with hpast | hdue
      · omega
      · exact hdue g (hinterval ▸ hg) hnow hle

/-! ## Samples -/

/-- The occurrence at second 1000 is made due by the scheduler. -/
def Sample.dueRun : List Label :=
  [Sample.call (.add Sample.everyMinute) 500 0, Sample.pollRead 1000, Sample.pollApply 1000 1]

def Sample.acknowledge : UpdateRequest :=
  { Sample.update 2 "update-1" with occurrenceDisposition := some .acknowledged }

/-- The same request also starts a new minute grid at second 2000. -/
def Sample.replaceAndAcknowledge : UpdateRequest :=
  { Sample.acknowledge with trigger := some (.interval (Sample.second 2000) 60) }

theorem sample_commits {x : Externals} (labels : List Label) (label : Label)
    (h : (eventsOf (runOf x labels).db (Sample.uuid 0)).length <
      (eventsOf (step x (runOf x labels) label).1.db (Sample.uuid 0)).length) :
    Commits (entry (step x) (runOf x labels) label) (Sample.uuid 0) := by
  intro hview
  have hlength := congrArg (fun view : ItemView => view.events.length) hview
  exact Nat.ne_of_gt h hlength

/-- Acknowledged at second 1010, the occurrence of second 1000 is all that is consumed. -/
theorem sample_acknowledge_consumes_no_future :
    ConsumesNoFuture (historyOf Sample.externals Sample.dueRun)
      (step Sample.externals (runOf Sample.externals Sample.dueRun)
        (Sample.call (.update Sample.acknowledge) 1010 2)).1 (Sample.uuid 0)
      (Sample.second 1010) := by
  have hcommitted := sample_commits (x := Sample.externals) Sample.dueRun
    (Sample.call (.update Sample.acknowledge) 1010 2) (by decide +kernel)
  refine (disposition_consumes_no_future_iff Sample.externals Sample.dueRun "owner" Sample.agent
    Sample.acknowledge (Sample.env 1010 2) rfl hcommitted).mpr ?_
  have hfire : ((runOf Sample.externals Sample.dueRun).db.remindi.find? (Sample.uuid 0)).map
      (·.nextFireAt) = some (some (Sample.second 1000)) := by
    decide +kernel
  obtain ⟨prior, hprior, hanchor⟩ := Option.map_eq_some_iff.mp hfire
  exact ⟨prior, Sample.second 1000, hprior, hanchor, Or.inl (by decide)⟩

/-- With the new trigger the occurrence of second 2000 is consumed at second 1010,
before it was ever due. -/
theorem sample_replace_consumes_future :
    Commits (entry (step Sample.externals) (runOf Sample.externals Sample.dueRun)
        (Sample.call (.update Sample.replaceAndAcknowledge) 1010 2)) (Sample.uuid 0) ∧
      ¬ ConsumesNoFuture (historyOf Sample.externals Sample.dueRun)
        (step Sample.externals (runOf Sample.externals Sample.dueRun)
          (Sample.call (.update Sample.replaceAndAcknowledge) 1010 2)).1 (Sample.uuid 0)
        (Sample.second 1010) := by
  refine ⟨sample_commits _ _ (by decide +kernel), fun h => ?_⟩
  have hrow : ((step Sample.externals (runOf Sample.externals Sample.dueRun)
      (Sample.call (.update Sample.replaceAndAcknowledge) 1010 2)).1.db.remindi.find?
        (Sample.uuid 0)).map
      (fun row => (row.nextFireAt, gridTime row.trigger (Sample.second 2000).utc)) =
        some (some (Sample.second 2060), true) := by
    decide +kernel
  obtain ⟨row, hfound, hfire⟩ := Option.map_eq_some_iff.mp hrow
  obtain ⟨hnext, hgrid⟩ := Prod.mk.inj hfire
  have hdue : ¬ MadeDue (Sample.uuid 0) (historyOf Sample.externals Sample.dueRun)
      (Sample.second 2000).utc := by
    unfold MadeDue
    decide +kernel
  exact hdue (h row (Sample.second 2060) (Sample.second 2000).utc hfound hnext hgrid (by decide)
    (by decide))

end RemindiCore
