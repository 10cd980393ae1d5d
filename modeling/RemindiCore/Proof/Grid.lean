import RemindiCore.Proof.VersionChain

/-!
# The grid of an interval trigger

The fire time of an item with an interval trigger is its first time plus one
period for each occurrence since the trigger was installed.  Only an update
touches the schedule: it installs a trigger (`TriggerStep`) or moves the item
on by whole periods (`DispositionStep`).  Any other write has at most read the
numbers in the parameters of a condition once more (`KeptSchedule`).
-/

namespace RemindiCore

open CivilTime JsonText KeyedTable Machine Transaction

variable {x : Externals} {id : Uuid}

/-! ## The occurrence a trigger was installed at -/

/-- A committed update with a trigger installs it at the occurrence the item is at. -/
def installStep (id : Uuid) (b : Nat) (e : StepRecord) : Nat :=
  match e.label, e.before.db.remindi.find? id with
  | .call _ _ (.update request) _, some prior =>
    if request.remindiId = id ∧ request.trigger.isSome = true ∧
        storedVersion e.after id ≠ some prior.version then prior.occurrenceNo
    else b
  | _, _ => b

/-- The occurrence number at which the current trigger was installed; `add` installs it at 1. -/
def installedAt (id : Uuid) (history : List StepRecord) : Nat := history.foldl (installStep id) 1

theorem installedAt_concat (history : List StepRecord) (e : StepRecord) :
    installedAt id (history ++ [e]) = installStep id (installedAt id history) e :=
  List.foldl_concat ..

/-! ## Items on the grid -/

/-- The item stands on the grid of its trigger, installed at the occurrence `b`. -/
structure OnGrid (b : Nat) (row : Remindi) : Prop where
  base : b ≤ row.occurrenceNo
  whole : ∀ firstAt everySeconds, row.trigger = .interval firstAt everySeconds →
    firstAt.truncateMillis = firstAt
  fires : ∀ firstAt everySeconds, row.trigger = .interval firstAt everySeconds →
    row.nextFireAt = some (firstAt.addSeconds ((row.occurrenceNo - b : Nat) * everySeconds))

variable {b : Nat} {r r' : Remindi} {now : OffsetDateTime}

theorem OnGrid.of_schedule (h : OnGrid b r) (htrigger : r'.trigger = r.trigger)
    (hfire : r'.nextFireAt = r.nextFireAt) (hno : r'.occurrenceNo = r.occurrenceNo) :
    OnGrid b r' where
  base := hno ▸ h.base
  whole := by
    rw [htrigger]
    exact h.whole
  fires := by
    rw [htrigger, hfire, hno]
    exact h.fires

/-- An interval trigger is read back as it was written. -/
theorem interval_of_stored {firstAt : OffsetDateTime} {everySeconds : Nat}
    (h : (r.stored x).trigger = .interval firstAt everySeconds) :
    r.trigger = .interval firstAt everySeconds := (Trigger.mapNumbers_eq_other _ rfl).mp h

theorem OnGrid.stored (h : OnGrid b r) : OnGrid b (r.stored x) where
  base := h.base
  whole firstAt everySeconds htrigger := h.whole firstAt everySeconds (interval_of_stored htrigger)
  fires firstAt everySeconds htrigger := by
    have htrigger := interval_of_stored htrigger
    show r.nextFireAt.map OffsetDateTime.truncateMillis = _
    rw [h.fires firstAt everySeconds htrigger, Option.map_some,
      OffsetDateTime.truncateMillis_addSeconds (h.whole firstAt everySeconds htrigger)]
    rfl

/-- Storing keeps the fire time of an interval trigger. -/
theorem OnGrid.stored_nextFireAt (h : OnGrid b r) {firstAt : OffsetDateTime} {everySeconds : Nat}
    (htrigger : r.trigger = .interval firstAt everySeconds) :
    (r.stored x).nextFireAt = r.nextFireAt :=
  (h.stored.fires firstAt everySeconds ((Trigger.mapNumbers_eq_other _ rfl).mpr htrigger)).trans
    (h.fires firstAt everySeconds htrigger).symm

theorem OnGrid.writtenOver (h : OnGrid b r) (old : Remindi) : OnGrid b (r.writtenOver x old) :=
  (h.stored (x := x)).of_schedule rfl rfl rfl

theorem normalizeTrigger_interval {trigger : Trigger} {firstAt : OffsetDateTime}
    {everySeconds : Nat} (h : normalizeTrigger trigger = .interval firstAt everySeconds) :
    ∃ firstAt', trigger = .interval firstAt' everySeconds ∧
      firstAt = normalizeInstant firstAt' := by
  cases trigger with
  | interval firstAt' everySeconds' =>
    cases h
    exact ⟨firstAt', rfl, rfl⟩
  | _ => cases h

/-- The first time of a normalised trigger is a whole millisecond. -/
theorem normalizeTrigger_whole {trigger : Trigger} {firstAt : OffsetDateTime} {everySeconds : Nat}
    (h : normalizeTrigger trigger = .interval firstAt everySeconds) :
    firstAt.truncateMillis = firstAt := by
  obtain ⟨firstAt', -, rfl⟩ := normalizeTrigger_interval h
  exact OffsetDateTime.truncateMillis_truncateMillis firstAt'

/-- A trigger that has just been installed fires first. -/
theorem onGrid_new (hno : r.occurrenceNo = b)
    (htrigger : ∃ trigger, r.trigger = normalizeTrigger trigger)
    (hfire : initialNextFireAt r.trigger now = .ok r.nextFireAt) : OnGrid b r where
  base := Nat.le_of_eq hno.symm
  whole firstAt everySeconds h := by
    obtain ⟨trigger, htrigger⟩ := htrigger
    exact normalizeTrigger_whole (htrigger.symm.trans h)
  fires firstAt everySeconds h := by
    rw [h] at hfire
    rw [hno, Nat.sub_self, ← Except.ok.inj hfire]
    simp [OffsetDateTime.addSeconds_zero]

theorem newItem_onGrid {actor : Actor} {ownerId : String} {raw request : AddRequest}
    {next : Option OffsetDateTime} (hprepared : prepareAdd actor raw = .ok request)
    (hnext : initialNextFireAt request.trigger now = .ok next) :
    OnGrid 1 (RemindiService.newItem ownerId id request next now) :=
  onGrid_new rfl ⟨raw.trigger, (prepareAdd_ok hprepared).2.1⟩ hnext

/-! ## Updates on the grid -/

section

variable {request : UpdateRequest}

/-- The occurrence the trigger of the updated item was installed at. -/
def installedBy (request : UpdateRequest) (prior : Remindi) (b : Nat) : Nat :=
  if request.trigger.isSome then prior.occurrenceNo else b

theorem resetSnooze_trigger (r : Remindi) : r.resetSnooze.trigger = r.trigger ∧
    r.resetSnooze.nextFireAt = r.nextFireAt ∧ r.resetSnooze.occurrenceNo = r.occurrenceNo ∧
    r.resetSnooze.recurrence = r.recurrence := by
  unfold Remindi.resetSnooze
  split <;> exact ⟨rfl, rfl, rfl, rfl⟩

theorem OnGrid.triggerStep (h : OnGrid b r) (hstep : TriggerStep request now r r')
    (hnormal : ∃ raw : Option Trigger, request.trigger = raw.map normalizeTrigger) :
    OnGrid (installedBy request r b) r' := by
  unfold installedBy
  cases hstep with
  | keep hnone =>
    rw [hnone]
    exact h
  | @install trigger next hsome hnext hactive hvalid =>
    obtain ⟨raw, hraw⟩ := hnormal
    rw [hsome] at hraw ⊢
    obtain ⟨rawTrigger, -, hrawTrigger⟩ := Option.map_eq_some_iff.mp hraw.symm
    obtain ⟨htrigger, hfire, hno, -⟩ := resetSnooze_trigger { r with
      trigger := trigger
      nextFireAt := next
      originalNextFireAt := next
      nextEvaluationAt := none }
    refine onGrid_new hno ⟨rawTrigger, htrigger.trans hrawTrigger.symm⟩
      (?_ : initialNextFireAt (Remindi.resetSnooze _).trigger now =
        .ok (Remindi.resetSnooze _).nextFireAt)
    rw [htrigger, hfire]
    exact hnext

/-- A disposition moves by whole periods of the trigger. -/
theorem OnGrid.dispositionStep (h : OnGrid b r) (hstep : DispositionStep request now r r')
    (hfits : ∀ spec, r.recurrence = some spec → spec.validateForTrigger r.trigger = .ok ()) :
    OnGrid b r' := by
  cases hstep with
  | keep hnone => exact h
  | @advance disposition spec anchor advance hsome hspec hanchor hadvance =>
    obtain ⟨firstAt, htrigger⟩ := RecurrenceSpec.validateForTrigger_ok (hfits spec hspec)
    obtain ⟨k, hadvanced, -⟩ := RecurrenceSpec.advance_ok hadvance
    have hbase := h.base
    refine ⟨?_, h.whole, fun firstAt' everySeconds htrigger' => ?_⟩
    · show b ≤ advance.occurrenceNo
      rw [hadvanced.occurrenceNo]
      omega
    · obtain ⟨rfl, rfl⟩ := Trigger.interval.inj (htrigger.symm.trans htrigger')
      have hanchor' := hanchor.symm.trans (h.fires firstAt _ htrigger)
      show some advance.nextFireAt =
        some (firstAt.addSeconds ((advance.occurrenceNo - b : Nat) * spec.everySeconds))
      rw [hadvanced.nextFireAt, hadvanced.occurrenceNo, Option.some.inj hanchor',
        OffsetDateTime.addSeconds_addSeconds, ← Int.add_mul, Nat.sub_add_comm hbase]
      push_cast
      rfl

theorem OnGrid.update {actor : Actor} {raw : UpdateRequest} {mutation : Mutation}
    (h : OnGrid b r) (hprepared : prepareUpdate actor raw = .ok request)
    (hop : updateItem request now r = .ok mutation) :
    OnGrid (installedBy request r b) mutation.item := by
  obtain ⟨triggered, recurred, moved, steps, hitem, -, -⟩ := updateItem_ok hop
  have hfields : OnGrid b (applyFields request r) := h.of_schedule rfl rfl rfl
  have htriggered := hfields.triggerStep steps.trigger
    ⟨raw.trigger, (prepareUpdate_ok hprepared).2.2.2.1⟩
  have hrecurred : OnGrid (installedBy request r b) recurred := by
    rw [steps.recurrence.eq]
    exact htriggered.of_schedule rfl rfl rfl
  have hmoved := hrecurred.dispositionStep steps.disposition steps.recurrence.fits
  rw [hitem]
  unfold bumpVersion
  split
  · exact hmoved.of_schedule rfl rfl rfl
  · exact hmoved

end

/-! ## What leaves the schedule alone -/

/-- The step is a request for a schedule: an `add` or an `update`. -/
def Label.asksSchedule : Label → Bool
  | .call _ _ (.add _) _ | .call _ _ (.update _) _ => true
  | _ => false

/-- What a committed operation does to the schedule: `add` starts one, an update
may change it, and everything else leaves it alone. -/
inductive ScheduleChange (x : Externals) : Label → Option Remindi → Remindi → Prop
  | add {ownerId : String} {actor : Actor} {raw request : AddRequest} {env : Env} {id : Uuid}
      {nextFireAt : Option OffsetDateTime} {now : OffsetDateTime}
      (prepared : prepareAdd actor raw = .ok request)
      (fires : initialNextFireAt request.trigger now = .ok nextFireAt) :
      ScheduleChange x (.call ownerId actor (.add raw) env) none
        ((RemindiService.newItem ownerId id request nextFireAt now).stored x)
  | keep {label : Label} {prior item : Remindi} (same : SameSchedule item prior)
      (other : label.asksSchedule = false) :
      ScheduleChange x label (some prior) (item.writtenOver x prior)
  | update {ownerId : String} {actor : Actor} {raw request : UpdateRequest} {env : Env}
      {prior : Remindi} {mutation : Mutation} (target : raw.remindiId = prior.id)
      (prepared : prepareUpdate actor raw = .ok request)
      (ok : updateItem request (env.clock 0) prior = .ok mutation) :
      ScheduleChange x (.call ownerId actor (.update raw) env) (some prior)
        (mutation.item.writtenOver x prior)

theorem Change.schedule {s : System} {label : Label} {before : Option Remindi} {after : Remindi}
    {types : List EventType} (h : Change x s label before after types) :
    ScheduleChange x label before after := by
  cases h with
  | add prepared fires => exact .add prepared fires
  | check hpending hitem evaluated => exact .keep evaluated.sameSchedule rfl
  | poll hpoll hcandidates evaluated => exact .keep evaluated.sameSchedule rfl
  | operate target operates =>
    cases operates with
    | complete prepared validated ok => exact .keep (completeItem_sameSchedule ok) rfl
    | snooze prepared ok => exact .keep (snoozeItem_sameSchedule ok) rfl
    | cancel prepared ok => exact .keep (cancelItem_sameSchedule ok) rfl
    | update prepared ok => exact .update (Prod.mk.inj (Option.some.inj target)).1 prepared ok

/-! ## Every run -/

theorem installStep_of_absent {e : StepRecord} (h : e.before.db.remindi.find? id = none) :
    installStep id b e = b := by
  unfold installStep
  rw [h]
  split
  · next heq => cases heq
  · rfl

theorem installStep_of_other {e : StepRecord} (h : e.label.asksSchedule = false) :
    installStep id b e = b := by
  unfold installStep
  split
  · next heq _ =>
    rw [heq] at h
    cases h
  · rfl

theorem installStep_of_unchanged {e : StepRecord}
    (h : storedVersion e.after id = storedVersion e.before id) : installStep id b e = b := by
  unfold installStep
  split
  · next prior _ hrow =>
    have hversion : storedVersion e.after id = some prior.version :=
      h.trans (congrArg (Option.map Remindi.version) hrow)
    rw [if_neg]
    exact fun hinstall => hinstall.2.2 hversion
  · rfl

theorem installStep_of_update {e : StepRecord} {ownerId : String} {actor : Actor}
    {raw request : UpdateRequest} {env : Env} {prior : Remindi}
    (hlabel : e.label = .call ownerId actor (.update raw) env) (htarget : raw.remindiId = prior.id)
    (hprepared : prepareUpdate actor raw = .ok request)
    (hbefore : e.before.db.remindi.find? prior.id = some prior)
    (hafter : storedVersion e.after prior.id = some (prior.version + 1)) :
    installStep prior.id b e = installedBy request prior b := by
  have hsome : request.trigger.isSome = raw.trigger.isSome := by
    rw [(prepareUpdate_ok hprepared).2.2.2.1, Option.isSome_map]
  unfold installStep installedBy
  rw [hlabel, hbefore, hafter, hsome]
  simp [htarget]

/-- Every item stands on its grid; the first trigger of an item yet to come is installed at 1. -/
structure GridInvariant (id : Uuid) (history : List StepRecord) (s : System) : Prop where
  absent : s.db.remindi.find? id = none → installedAt id history = 1
  stored : ∀ row, s.db.remindi.find? id = some row → OnGrid (installedAt id history) row

theorem GridInvariant.step {s : System} {history : List StepRecord} (hs : InFlight x s)
    (h : GridInvariant id history s) (label : Label) :
    GridInvariant id (history ++ [entry (RemindiCore.step x) s label])
      (RemindiCore.step x s label).1 := by
  set e := entry (RemindiCore.step x) s label
  have hconcat : installedAt id (history ++ [e]) = installStep id (installedAt id history) e :=
    installedAt_concat history e
  rcases step_view (x := x) hs label id with hview | ⟨before, after, types, hchange, hrecorded⟩
  · have hsame : e.after.db.remindi.find? id = s.db.remindi.find? id :=
      congrArg ItemView.row hview
    rw [installStep_of_unchanged (e := e) (congrArg (Option.map Remindi.version) hsame)] at hconcat
    exact
      { absent := fun hrow => hconcat.trans (h.absent (hsame.symm.trans hrow))
        stored := fun row hrow => by
          rw [hconcat]
          exact h.stored row (hsame.symm.trans hrow) }
  have hbefore : s.db.remindi.find? id = before := hrecorded.rowBefore
  have hafter : e.after.db.remindi.find? id = some after := hrecorded.rowAfter
  refine ⟨fun hrow => ?_, fun row hrow => ?_⟩
  · cases hafter.symm.trans hrow
  obtain rfl := Option.some.inj (hafter.symm.trans hrow)
  rw [hconcat]
  have hversion := hchange.version
  cases hchange.schedule with
  | add prepared fires =>
    rw [installStep_of_absent (e := e) hbefore, h.absent hbefore]
    exact (newItem_onGrid prepared fires).stored
  | keep same other =>
    rw [installStep_of_other (e := e) other]
    have hgrid := (h.stored _ hbefore).of_schedule same.trigger same.nextFireAt same.occurrenceNo
    exact hgrid.writtenOver _
  | @update ownerId actor raw request env prior mutation target prepared ok =>
    obtain rfl : prior.id = id := Table.key_of_find? hbefore
    have hstored : storedVersion e.after prior.id = some (prior.version + 1) :=
      (congrArg (Option.map Remindi.version) hafter).trans (congrArg some hversion)
    rw [installStep_of_update (e := e) rfl target prepared hbefore hstored]
    exact ((h.stored _ hbefore).update prepared ok).writtenOver _

theorem gridInvariant_run (labels : List Label) :
    GridInvariant id (historyOf x labels) (runOf x labels) := by
  have hstart : GridInvariant id [] System.start := ⟨fun _ => rfl, fun row hrow => by cases hrow⟩
  exact (run_induction (P := fun history s => InFlight x s ∧ GridInvariant id history s)
    ⟨InFlight.start, hstart⟩
    (fun _ _ label h => ⟨step_inFlight h.1 label, h.2.step h.1 label⟩) labels).2

/-- A stored fire time is a whole millisecond. -/
def WholeFire (row : Remindi) : Prop := row.nextFireAt.map .truncateMillis = row.nextFireAt

theorem wholeFire_run (labels : List Label) :
    ∀ id row, (runOf x labels).db.remindi.find? id = some row → WholeFire row := by
  refine rows_invariant (fun hchange _ => ?_) labels
  have hwhole : ∀ fire : Option OffsetDateTime, (fire.map OffsetDateTime.truncateMillis).map
      OffsetDateTime.truncateMillis = fire.map OffsetDateTime.truncateMillis := by
    intro fire
    cases fire <;> simp
  cases hchange.schedule <;> exact hwhole _

/-- The same item with the same schedule after so many writes of its row, each of
which has read the numbers in the parameters of a condition again. -/
structure KeptSchedule (x : Externals) (writes : Nat) (a b : Remindi) : Prop
    extends SameItem a b where
  trigger : a.trigger = (Trigger.mapNumbers x.readNumber)^[writes] b.trigger
  recurrence : a.recurrence = b.recurrence
  nextFireAt : a.nextFireAt = b.nextFireAt
  occurrenceNo : a.occurrenceNo = b.occurrenceNo

theorem KeptSchedule.refl (r : Remindi) : KeptSchedule x 0 r r where
  id := rfl
  ownerId := rfl
  trigger := rfl
  recurrence := rfl
  nextFireAt := rfl
  occurrenceNo := rfl

theorem KeptSchedule.trans {m n : Nat} {a b c : Remindi} (hab : KeptSchedule x m a b)
    (hbc : KeptSchedule x n b c) : KeptSchedule x (m + n) a c where
  id := hab.id.trans hbc.id
  ownerId := hab.ownerId.trans hbc.ownerId
  trigger := by rw [hab.trigger, hbc.trigger, Function.iterate_add_apply]
  recurrence := hab.recurrence.trans hbc.recurrence
  nextFireAt := hab.nextFireAt.trans hbc.nextFireAt
  occurrenceNo := hab.occurrenceNo.trans hbc.occurrenceNo

/-- Writing a row that keeps the schedule in memory. -/
theorem SameSchedule.written {prior item : Remindi} (h : SameSchedule item prior)
    (hwhole : WholeFire prior) : KeptSchedule x 1 (item.writtenOver x prior) prior where
  id := h.id
  ownerId := h.ownerId
  trigger := congrArg (Trigger.mapNumbers x.readNumber) h.trigger
  recurrence := h.recurrence
  nextFireAt := (congrArg (Option.map OffsetDateTime.truncateMillis) h.nextFireAt).trans hwhole
  occurrenceNo := h.occurrenceNo

/-- **The grid never drifts.**  In every run the fire time of an item with an
interval trigger is its first time plus one period for each occurrence since the
trigger was installed, and only a committed update changes the fire time, the
occurrence number, the recurrence or, but for how the numbers in the parameters of
a condition are read back, the trigger. -/
theorem recurrence_without_drift (x : Externals) (labels : List Label) (id : Uuid) :
    (∀ row firstAt everySeconds, (runOf x labels).db.remindi.find? id = some row →
        row.trigger = .interval firstAt everySeconds →
        installedAt id (historyOf x labels) ≤ row.occurrenceNo ∧
        row.nextFireAt = some (firstAt.addSeconds
          ((row.occurrenceNo - installedAt id (historyOf x labels) : Nat) * everySeconds))) ∧
      ∀ e ∈ historyOf x labels, ∀ prior row, e.before.db.remindi.find? id = some prior →
        e.after.db.remindi.find? id = some row →
        (∀ writes ≤ 1, ¬ KeptSchedule x writes row prior) → row.version = prior.version + 1 ∧
          ∃ ownerId actor request env,
            e.label = .call ownerId actor (.update request) env ∧ request.remindiId = id := by
  constructor
  · intro row firstAt everySeconds hrow htrigger
    have hgrid := (gridInvariant_run labels).stored row hrow
    exact ⟨hgrid.base, hgrid.fires firstAt everySeconds htrigger⟩
  · intro e he prior row hprior hrow hdiffers
    have hstep := soundStep_of_mem he
    have hc : Commits e id := by
      intro hview
      have hsame : row = prior := by
        have hrows : e.after.db.remindi.find? id = e.before.db.remindi.find? id :=
          congrArg ItemView.row hview
        exact Option.some.inj (hrow.symm.trans (hrows.trans hprior))
      rw [hsame] at hdiffers
      exact hdiffers 0 (by omega) (.refl prior)
    obtain ⟨before, after, types, hchange, hrecorded⟩ := hstep.change hc
    obtain rfl := hrecorded.rowBefore.symm.trans hprior
    obtain rfl := Option.some.inj (hrecorded.rowAfter.symm.trans hrow)
    refine ⟨hchange.version, ?_⟩
    obtain ⟨ks, hks⟩ := before_reachable he
    have hwhole : WholeFire prior := wholeFire_run (x := x) ks id prior (hks ▸ hprior)
    have hschedule := hchange.schedule
    generalize e.label = label at hschedule
    cases hschedule with
    | keep same other => exact absurd (same.written hwhole) (hdiffers 1 (by omega))
    | update target prepared ok =>
      exact ⟨_, _, _, _, rfl, target.trans (Table.key_of_find? hprior)⟩

/-! ## Samples -/

namespace Sample

/-- Sixteen digits, of which the last is given. -/
def measure (digit : Nat) : NumberText where
  chars := "7.91750506035369".toList ++ (DigitText.decimal digit ++ "e-13".toList)
  ne_nil := by simp
  numeric := by
    have hfirst : "7.91750506035369".toList.all isNumberChar = true := by decide +kernel
    have hlast : "e-13".toList.all isNumberChar = true := by decide +kernel
    intro c hc
    rcases List.mem_append.mp hc with hc | hc
    · exact List.all_eq_true.mp hfirst c hc
    · rcases List.mem_append.mp hc with hc | hc
      · simp [isNumberChar, DigitText.isDigit_of_mem_decimal hc]
      · exact List.all_eq_true.mp hlast c hc

/-- `serde_json` divides the digits, rounded, by a rounded power of ten: it reads
each of these four as the next number. -/
def rereading : Externals :=
  { externals with
    readNumber := fun n =>
      if n = measure 5 then measure 6
      else if n = measure 6 then measure 7
      else if n = measure 7 then measure 8
      else if n = measure 8 then measure 9
      else n }

/-- A condition with a number among its parameters, to be checked by hand from
second 1000 on. -/
def measured : AddRequest :=
  { everyMinute with
    trigger := .condition "adapter" (.object [("limit", .number (measure 5))]) none
      (some (second 1000))
    recurrence := none }

/-- The item is stored and the scheduler has read it. -/
def measuredRun : List Label := [call (.add measured) 500 0, pollRead 600]

/-- The number among the parameters of the stored item. -/
def storedLimit (s : System) : Option NumberText :=
  (s.db.remindi.find? (uuid 0)).bind fun row =>
    match row.trigger with
    | .condition _ (.object [(_, .number n)]) _ _ => some n
    | _ => none

theorem moves_trigger {s s' : System} {n m : NumberText} (h : storedLimit s = some n)
    (h' : storedLimit s' = some m) (hmoved : n ≠ m) : ∃ prior row,
      s.db.remindi.find? (uuid 0) = some prior ∧ s'.db.remindi.find? (uuid 0) = some row ∧
        row.trigger ≠ prior.trigger := by
  obtain ⟨prior, hprior, hread⟩ := Option.bind_eq_some_iff.mp h
  obtain ⟨row, hrow, hreread⟩ := Option.bind_eq_some_iff.mp h'
  refine ⟨prior, row, hprior, hrow, fun hsame => ?_⟩
  rw [hsame] at hreread
  exact hmoved (Option.some.inj (hread.symm.trans hreread))

theorem step_moves_trigger {x : Externals} {labels : List Label} {label : Label}
    {n m : NumberText} (h : storedLimit (runOf x labels) = some n)
    (h' : storedLimit (step x (runOf x labels) label).1 = some m) (hmoved : n ≠ m) :
    ∃ e ∈ historyOf x (labels ++ [label]), e.label = label ∧ ∃ prior row,
      e.before.db.remindi.find? (uuid 0) = some prior ∧
        e.after.db.remindi.find? (uuid 0) = some row ∧ row.trigger ≠ prior.trigger := by
  refine ⟨entry (step x) (runOf x labels) label, ?_, rfl, moves_trigger h h' hmoved⟩
  unfold historyOf
  rw [history_append]
  exact List.mem_append_right _ (List.mem_singleton_self _)

end Sample

open Sample in
/-- A poll writes the row as it has read it, and the number is read once more: the
trigger of the item has changed without an update. -/
theorem poll_rereads_trigger :
    ¬ ∀ (labels : List Label) (id : Uuid), ∀ e ∈ historyOf rereading labels, ∀ prior row,
        e.before.db.remindi.find? id = some prior → e.after.db.remindi.find? id = some row →
        ¬ SameSchedule row prior → row.version = prior.version + 1 ∧
          ∃ ownerId actor request env,
            e.label = .call ownerId actor (.update request) env ∧ request.remindiId = id := by
  intro hclaim
  have hbefore : storedLimit (runOf rereading measuredRun) = some (measure 6) := by
    decide +kernel
  have hafter : storedLimit (step rereading (runOf rereading measuredRun) (pollApply 600 1)).1 =
      some (measure 7) := by
    decide +kernel
  obtain ⟨e, he, hpoll, prior, row, hprior, hrow, hdiffers⟩ :=
    step_moves_trigger hbefore hafter (by decide)
  obtain ⟨-, _, _, _, _, hlabel, -⟩ := hclaim _ _ e he prior row hprior hrow
    fun hsame => hdiffers hsame.trigger
  cases hpoll.symm.trans hlabel

end RemindiCore
