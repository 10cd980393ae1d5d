import RemindiCore.Proof.Disposition
import RemindiCore.Proof.Coherence

/-!
# The limits of a recurrence

`advance` checks the limits of a recurrence, `add` and `update` do not: they
may store a first time after `end_at`, or limits that the occurrence number has
passed.  The limits hold in a whole run exactly when every committed `add` and
every committed `update` without a disposition has asked for a schedule that
keeps them (`limits_hold_iff`).
-/

namespace RemindiCore

open CivilTime KeyedTable Machine Transaction

variable {x : Externals} {id : Uuid} {prior r r' : Remindi} {now : OffsetDateTime}

/-! ## Limits -/

/-- The item keeps the limits of its own recurrence. -/
def WithinLimits (row : Remindi) : Prop :=
  ∀ spec fire, row.recurrence = some spec → row.nextFireAt = some fire →
    spec.Permitted fire row.occurrenceNo

/-- In every state of the run every active item keeps its limits; so no
occurrence past them is made due. -/
def LimitsHold (history : List StepRecord) : Prop :=
  ∀ e ∈ history, ∀ id row, e.after.db.remindi.find? id = some row →
    row.state.isActive = true → WithinLimits row

/-- The recurrence of the updated item. -/
def updatedRecurrence (raw : UpdateRequest) (prior : Remindi) : Option RecurrenceSpec :=
  (raw.recurrence.map fun recurrence => recurrence.map normalizeRecurrence).getD prior.recurrence

/-- The schedule that the step asks for keeps the limits that come with it. -/
def AsksWithinLimits (s : System) : Label → Prop
  | .call _ _ (.add raw) _ =>
    ∀ spec firstAt everySeconds, raw.recurrence = some spec →
      raw.trigger = .interval firstAt everySeconds →
        (normalizeRecurrence spec).Permitted (normalizeInstant firstAt) 1
  | .call _ _ (.update raw) _ =>
    raw.occurrenceDisposition = none →
      ∀ prior spec anchor, s.db.remindi.find? raw.remindiId = some prior →
        updatedRecurrence raw prior = some spec → scheduleAnchor raw prior = some anchor →
          spec.Permitted anchor prior.occurrenceNo
  | _ => True

/-- The same, for a step that commits. -/
def KeepsLimits (e : StepRecord) : Prop :=
  ∀ id, Commits e id → AsksWithinLimits e.before e.label

/-- An earlier fire time keeps the limits too. -/
theorem RecurrenceSpec.Permitted.mono {spec : RecurrenceSpec} {fire fire' : OffsetDateTime}
    {n : Nat} (h : spec.Permitted fire n) (hle : fire'.utc ≤ fire.utc) : spec.Permitted fire' n :=
  ⟨h.1, fun endAt hend => Int.le_trans hle (h.2 endAt hend)⟩

theorem truncateMillis_le (t : OffsetDateTime) : t.truncateMillis.utc ≤ t.utc :=
  Int.ediv_mul_le _ (by decide)

theorem WithinLimits.of_schedule (h : WithinLimits r) (hrecurrence : r'.recurrence = r.recurrence)
    (hfire : r'.nextFireAt = r.nextFireAt) (hno : r'.occurrenceNo = r.occurrenceNo) :
    WithinLimits r' := by
  unfold WithinLimits
  rw [hrecurrence, hfire, hno]
  exact h

theorem WithinLimits.stored (h : WithinLimits r) : WithinLimits (r.stored x) := by
  intro spec fire hspec hfire
  obtain ⟨fire', hfire', rfl⟩ := Option.map_eq_some_iff.mp hfire
  exact (h spec fire' hspec hfire').mono (truncateMillis_le fire')

theorem WithinLimits.writtenOver (h : WithinLimits r) (old : Remindi) :
    WithinLimits (r.writtenOver x old) := (h.stored (x := x)).of_schedule rfl rfl rfl

/-! ## New items -/

section

variable {actor : Actor} {ownerId : String} {raw request : AddRequest}
  {next : Option OffsetDateTime}

theorem newItem_withinLimits_iff (hprepared : prepareAdd actor raw = .ok request)
    (hnext : initialNextFireAt request.trigger now = .ok next) :
    WithinLimits ((RemindiService.newItem ownerId id request next now).stored x) ↔
      ∀ spec firstAt everySeconds, raw.recurrence = some spec →
        raw.trigger = .interval firstAt everySeconds →
          (normalizeRecurrence spec).Permitted (normalizeInstant firstAt) 1 := by
  obtain ⟨-, htrigger, hrecurrence, -, hfits⟩ := prepareAdd_ok hprepared
  constructor
  · intro h spec firstAt everySeconds hspec hraw
    rw [hraw] at htrigger
    rw [htrigger] at hnext
    obtain rfl := Except.ok.inj hnext
    refine h _ _ (hrecurrence.trans (by rw [hspec]; rfl)) ?_
    show some (normalizeInstant firstAt).truncateMillis = _
    rw [normalizeInstant, OffsetDateTime.truncateMillis_truncateMillis]
  · intro h
    refine WithinLimits.stored fun spec fire hspec hfire => ?_
    obtain ⟨firstAt, hinterval⟩ := RecurrenceSpec.validateForTrigger_ok (hfits spec hspec)
    obtain ⟨spec', hspec', rfl⟩ := Option.map_eq_some_iff.mp (hrecurrence.symm.trans hspec)
    rw [hinterval] at htrigger hnext
    obtain ⟨firstAt', hraw, rfl⟩ := normalizeTrigger_interval htrigger.symm
    obtain rfl := Option.some.inj ((Except.ok.inj hnext).trans hfire)
    exact h spec' firstAt' _ hspec' hraw

end

/-! ## Updates -/

section

variable {actor : Actor} {raw request : UpdateRequest} {mutation : Mutation}

theorem RecurrenceStep.recurrence {recurred triggered : Remindi}
    (hprepared : prepareUpdate actor raw = .ok request)
    (h : RecurrenceStep request triggered recurred)
    (hsame : triggered.recurrence = prior.recurrence) :
    recurred.recurrence = updatedRecurrence raw prior := by
  rw [h.eq]
  show request.recurrence.getD triggered.recurrence = _
  rw [hsame, (prepareUpdate_ok hprepared).2.2.2.2.1]
  rfl

/-- A disposition never leaves the limits. -/
theorem WithinLimits.of_disposition (hprepared : prepareUpdate actor raw = .ok request)
    (hop : updateItem request now prior = .ok mutation)
    (hsome : raw.occurrenceDisposition ≠ none) : WithinLimits mutation.item := by
  obtain ⟨triggered, recurred, moved, steps, hitem, -, -⟩ := updateItem_ok hop
  rw [hitem]
  cases steps.disposition with
  | keep hnone => exact absurd ((prepareUpdate_ok hprepared).2.2.2.2.2.symm.trans hnone) hsome
  | @advance disposition spec anchor advance hdisposition hspec hanchor hadvance =>
    obtain ⟨k, hadvanced, -⟩ := RecurrenceSpec.advance_ok hadvance
    have hmoved : WithinLimits (advancedTo recurred advance) := by
      intro spec' fire hspec' hfire
      obtain rfl := Option.some.inj (hspec.symm.trans hspec')
      obtain rfl := Option.some.inj hfire
      exact hadvanced.permitted
    unfold bumpVersion
    split
    · exact hmoved.of_schedule rfl rfl rfl
    · exact hmoved

/-- Without a disposition the updated item stands at its anchor. -/
theorem updateItem_withinLimits_iff (hprepared : prepareUpdate actor raw = .ok request)
    (hop : updateItem request now prior = .ok mutation)
    (hnone : raw.occurrenceDisposition = none) :
    WithinLimits mutation.item ↔
      ∀ spec anchor, updatedRecurrence raw prior = some spec →
        scheduleAnchor raw prior = some anchor → spec.Permitted anchor prior.occurrenceNo := by
  obtain ⟨triggered, recurred, moved, steps, hitem, -, -⟩ := updateItem_ok hop
  obtain ⟨hno, hsame⟩ := steps.trigger.occurrenceNo
  have hrecurrence := steps.recurrence.recurrence hprepared hsame
  have heq := steps.recurrence.eq
  have hmoved : recurred = moved := by
    cases steps.disposition with
    | keep hnone => rfl
    | advance hsome =>
      rw [(prepareUpdate_ok hprepared).2.2.2.2.2, hnone] at hsome
      cases hsome
  have hitem' : WithinLimits mutation.item ↔ WithinLimits recurred := by
    rw [hitem, ← hmoved]
    unfold bumpVersion
    split <;> exact Iff.rfl
  -- a recurrence stands beside an interval trigger, which fires at the anchor
  have hfire : ∀ spec, updatedRecurrence raw prior = some spec →
      recurred.nextFireAt = scheduleAnchor raw prior := by
    intro spec hspec
    obtain ⟨firstAt, hinterval⟩ := RecurrenceSpec.validateForTrigger_ok
      (steps.recurrence.fits spec (hrecurrence.trans hspec))
    rw [heq] at hinterval ⊢
    exact (steps.trigger.anchor hprepared).2 firstAt _ hinterval
  have hnumber : recurred.occurrenceNo = prior.occurrenceNo := by
    rw [heq]
    exact hno
  rw [hitem']
  unfold WithinLimits
  rw [hrecurrence, hnumber]
  constructor
  · intro h spec anchor hspec hanchor
    exact h spec anchor hspec ((hfire spec hspec).trans hanchor)
  · intro h spec fire hspec hfire'
    exact h spec fire hspec ((hfire spec hspec).symm.trans hfire')

end

/-! ## Every run -/

/-- A committed step leaves the item within its limits when it has asked for
that, or when the step is no request for a schedule and found it so. -/
theorem Change.withinLimits {s : System} {label : Label} {before : Option Remindi}
    {after : Remindi} {types : List EventType} (h : Change x s label before after types)
    (hbefore : s.db.remindi.find? after.id = before) (hasks : AsksWithinLimits s label)
    (hprior : ∀ prior, before = some prior → WithinLimits prior) : WithinLimits after := by
  cases h.schedule with
  | add prepared fires => exact (newItem_withinLimits_iff prepared fires).mpr hasks
  | keep same other =>
    exact ((hprior _ rfl).of_schedule same.recurrence same.nextFireAt
      same.occurrenceNo).writtenOver _
  | @update ownerId actor raw request env prior mutation target prepared ok =>
    by_cases hnone : raw.occurrenceDisposition = none
    · have hfound : s.db.remindi.find? raw.remindiId = some prior := by
        rw [target, ← (updateItem_sameItem ok).id]
        exact hbefore
      refine WithinLimits.writtenOver ?_ prior
      exact (updateItem_withinLimits_iff prepared ok hnone).mpr fun spec anchor =>
        hasks hnone prior spec anchor hfound
    · exact (WithinLimits.of_disposition prepared ok hnone).writtenOver prior

/-- An updated item is active. -/
theorem updateItem_active {request : UpdateRequest} {mutation : Mutation}
    (hop : updateItem request now prior = .ok mutation) : mutation.item.state.isActive = true := by
  obtain ⟨triggered, recurred, moved, steps, hitem, -, -⟩ := updateItem_ok hop
  have htriggered : triggered.state.isActive = true := by
    cases steps.trigger with
    | keep hnone => exact steps.active
    | install hsome hnext hactive hvalid =>
      simp only [installed, Remindi.resetSnooze]
      split
      · rfl
      · exact steps.active
  have hmoved : moved.state.isActive = true := by
    cases steps.disposition with
    | keep hnone =>
      rw [steps.recurrence.eq]
      exact htriggered
    | advance hsome hspec hanchor hadvance => rfl
  rw [hitem]
  unfold bumpVersion
  split <;> exact hmoved

theorem updateItem_fits {request : UpdateRequest} {mutation : Mutation}
    (hop : updateItem request now prior = .ok mutation) : RecurrenceFits mutation.item := by
  obtain ⟨triggered, recurred, moved, steps, hitem, -, -⟩ := updateItem_ok hop
  have hrecurred : RecurrenceFits recurred := fun spec hspec =>
    RecurrenceSpec.validateForTrigger_ok (steps.recurrence.fits spec hspec)
  have hmoved : RecurrenceFits moved := by
    cases steps.disposition with
    | keep hnone => exact hrecurred
    | advance hsome hspec hanchor hadvance => exact hrecurred.of_eq rfl rfl
  rw [hitem]
  unfold bumpVersion
  split
  · exact hmoved.of_eq rfl rfl
  · exact hmoved

/-- A step that leaves the item within its limits has asked for that. -/
theorem Change.asksWithinLimits {s : System} {label : Label} {before : Option Remindi}
    {after : Remindi} {types : List EventType} {b : Nat}
    (h : Change x s label before after types) (hbefore : s.db.remindi.find? after.id = before)
    (hgrid : ∀ prior, before = some prior → OnGrid b prior)
    (hafter : after.state.isActive = true → WithinLimits after) : AsksWithinLimits s label := by
  cases h.schedule with
  | add prepared fires => exact (newItem_withinLimits_iff prepared fires).mp (hafter rfl)
  | keep same other =>
    unfold AsksWithinLimits
    split
    · cases other
    · cases other
    · trivial
  | @update ownerId actor raw request env prior mutation target prepared ok =>
    intro hnone prior' spec anchor hprior'
    have hfound : s.db.remindi.find? prior.id = some prior := by
      rw [← (updateItem_sameItem ok).id]
      exact hbefore
    obtain rfl := Option.some.inj (hfound.symm.trans (target ▸ hprior'))
    have hwithin := hafter (updateItem_active ok)
    have hupdated := (hgrid prior rfl).update prepared ok
    refine (updateItem_withinLimits_iff prepared ok hnone).mp ?_ spec anchor
    -- what is stored is what the update made, for an interval trigger
    intro spec' fire hspec' hfire
    refine hwithin spec' fire hspec' ?_
    obtain ⟨firstAt, hinterval⟩ := updateItem_fits ok spec' hspec'
    exact (hupdated.stored_nextFireAt (x := x) hinterval).trans hfire

/-- Rows within their limits stay so while every step asks for that. -/
theorem withinLimits_run (labels : List Label)
    (h : ∀ e ∈ historyOf x labels, KeepsLimits e) :
    ∀ id row, (runOf x labels).db.remindi.find? id = some row → WithinLimits row := by
  refine (run_induction (P := fun history s => (∀ e ∈ history, KeepsLimits e) → InFlight x s ∧
    ∀ id row, s.db.remindi.find? id = some row → WithinLimits row)
    (fun _ => ⟨InFlight.start, fun id row hrow => by cases hrow⟩) ?_ labels h).2
  intro history s label ih hkeeps
  obtain ⟨hs, hrows⟩ := ih fun e he => hkeeps e (List.mem_append_left _ he)
  refine ⟨step_inFlight hs label, fun id row hrow => ?_⟩
  have hstep : SoundStep x (entry (step x) s label) := ⟨hs, rfl⟩
  by_cases hc : Commits (entry (step x) s label) id
  · obtain ⟨before, after, types, hchange, hrecorded⟩ := hstep.change hc
    obtain rfl := Option.some.inj (hrecorded.rowAfter.symm.trans hrow)
    have hid : after.id = id := Table.key_of_find? hrecorded.rowAfter
    refine hchange.withinLimits (hid ▸ hrecorded.rowBefore)
      (hkeeps _ (List.mem_append_right _ (List.mem_singleton_self _)) id hc) fun prior hprior => ?_
    exact hrows id prior (hprior ▸ hrecorded.rowBefore)
  · exact hrows id row ((congrArg ItemView.row (not_not.mp hc)).symm.trans hrow)

/-- **The limits hold in a run exactly when every committed request for a
schedule has asked for one within its limits.** -/
theorem limits_hold_iff (x : Externals) (labels : List Label) :
    LimitsHold (historyOf x labels) ↔ ∀ e ∈ historyOf x labels, KeepsLimits e := by
  constructor
  · intro h e he id hc
    obtain ⟨before, after, types, hchange, hrecorded⟩ := (soundStep_of_mem he).change hc
    have hid : after.id = id := Table.key_of_find? hrecorded.rowAfter
    obtain ⟨ks, hks⟩ := before_reachable he
    have hgrid : ∀ prior, before = some prior → OnGrid (installedAt id (historyOf x ks)) prior := by
      intro prior hprior
      refine (gridInvariant_run ks).stored prior ?_
      rw [← hks, ← hprior]
      exact hrecorded.rowBefore
    exact hchange.asksWithinLimits (hid ▸ hrecorded.rowBefore) hgrid
      (h e he id after hrecorded.rowAfter)
  · intro h e he id row hrow _
    obtain ⟨ks, l, ⟨rest, hrest⟩, rfl⟩ := mem_history he
    have hrow' : (runOf x (ks ++ [l])).db.remindi.find? id = some row := by
      rw [runOf, final_append]
      exact hrow
    refine withinLimits_run (ks ++ [l]) (fun e' he' => h e' ?_) id row hrow'
    rw [← hrest, historyOf, history_append]
    exact List.mem_append_left _ he'

/-! ## Samples -/

def Sample.ended : RecurrenceSpec where
  everySeconds := 60
  missedPolicy := .coalesce
  maxOccurrences := none
  endAt := some (Sample.second 900)

/-- The first time, second 1000, lies after the end of the recurrence. -/
def Sample.endedBeforeFirst : AddRequest :=
  { Sample.everyMinute with recurrence := some Sample.ended }

/-- It is stored all the same. -/
theorem sample_ended_before_first :
    ¬ LimitsHold (historyOf Sample.externals
      [Sample.call (.add Sample.endedBeforeFirst) 500 0]) := by
  intro h
  have hrow : ((runOf Sample.externals
      [Sample.call (.add Sample.endedBeforeFirst) 500 0]).db.remindi.find? (Sample.uuid 0)).map
      (fun row => (row.recurrence, row.nextFireAt, row.state)) =
        some (some Sample.ended, some (Sample.second 1000), .scheduled) := by
    decide +kernel
  obtain ⟨row, hfound, hfields⟩ := Option.map_eq_some_iff.mp hrow
  simp only [Prod.mk.injEq] at hfields
  obtain ⟨hrecurrence, hfire, hstate⟩ := hfields
  have hwithin := h _ (List.mem_singleton_self _) (Sample.uuid 0) row hfound (by rw [hstate]; rfl)
  exact absurd ((hwithin _ _ hrecurrence hfire).2 _ rfl) (by decide)

end RemindiCore
