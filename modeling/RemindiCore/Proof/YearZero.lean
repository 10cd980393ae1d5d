import RemindiCore.Lib.TextOrder
import RemindiCore.Proof.Columns
import RemindiCore.Proof.EvaluationStep
import RemindiCore.Proof.PollLease

/-!
# Items from the year 0 on

The parser of instants accepts the years 0 to 9999 only.  Where every clock
reading of a run lies in the year 0 or later, so does every instant of every
stored item (`stored_rows_readable`): an instant that a caller names is printed
in the trigger, which fails before the year 0, or lies after a clock reading.
-/

namespace RemindiCore

open CivilTime JsonText KeyedTable Transaction

/-! ## Instants -/

def FromYearZero (t : OffsetDateTime) : Prop := 0 ≤ t.toUtc.year

section

variable {s t now : OffsetDateTime}

theorem FromYearZero.later (h : FromYearZero s) (hle : s.utc ≤ t.utc) : FromYearZero t := by
  have hyear := year_mono (s := s) (t := t) (by omega)
  unfold FromYearZero at h ⊢
  omega

theorem FromYearZero.addSeconds (h : FromYearZero t) (seconds : Nat) :
    FromYearZero (t.addSeconds seconds) := by
  apply h.later
  simp only [OffsetDateTime.addSeconds_utc, secondNanos]
  omega

theorem fromYearZero_truncateMillis : FromYearZero t.truncateMillis ↔ FromYearZero t := by
  unfold FromYearZero
  rw [year_truncateMillis]

theorem year_of_truncated (h : t.truncateMillis = t) : t.year = t.toUtc.year := by
  rw [← h]
  rfl

/-- A printed instant lies in the year 0 or later. -/
theorem fromYearZero_of_instantJson (h : (instantJson t).isSome = true)
    (hwhole : t.truncateMillis = t) : FromYearZero t := by
  unfold FromYearZero
  rw [← year_of_truncated hwhole]
  unfold instantJson rfc3339 at h
  split at h
  · next hprintable => exact hprintable.1
  · cases h

end

/-! ## Triggers -/

/-- The instants a trigger names. -/
def Trigger.instants : Trigger → List OffsetDateTime
  | .atTime at' => [at']
  | .interval firstAt _ => [firstAt]
  | .condition _ _ _ manualCheckAt => manualCheckAt.toList
  | .afterElapsed _ | .nextSession | .nextContinuation | .goalActive _ => []

@[simp] theorem Trigger.instants_mapNumbers (f : NumberText → NumberText) (t : Trigger) :
    (t.mapNumbers f).instants = t.instants := by
  cases t <;> rfl

section

variable {trigger : Trigger} {now : OffsetDateTime} {next : Option OffsetDateTime}

theorem normalizeTrigger_instants :
    ∀ t ∈ (normalizeTrigger trigger).instants, t.truncateMillis = t := by
  intro t ht
  cases trigger with
  | atTime | interval =>
    obtain rfl := List.mem_singleton.mp ht
    exact OffsetDateTime.truncateMillis_truncateMillis _
  | condition adapter parameters poll manualCheckAt =>
    simp only [normalizeTrigger, Trigger.instants, Option.mem_toList,
      Option.map_eq_some_iff] at ht
    obtain ⟨manual, -, rfl⟩ := ht
    exact OffsetDateTime.truncateMillis_truncateMillis _
  | afterElapsed | nextSession | nextContinuation | goalActive => cases ht

/-- A trigger that is printed names printed instants. -/
theorem instants_printed (h : trigger.toJson.isSome = true) :
    ∀ t ∈ trigger.instants, (instantJson t).isSome = true := by
  obtain ⟨j, hj⟩ := Option.isSome_iff_exists.mp h
  intro t ht
  cases trigger with
  | atTime at' =>
    obtain rfl := List.mem_singleton.mp ht
    exact Json.isSome_of_ofMembers hj (m := ("at", instantJson t)) (by simp [Trigger.members])
  | interval firstAt everySeconds =>
    obtain rfl := List.mem_singleton.mp ht
    exact Json.isSome_of_ofMembers hj (m := ("first_at", instantJson t)) (by simp [Trigger.members])
  | condition adapter parameters poll manualCheckAt =>
    have hmanual : manualCheckAt = some t := Option.mem_toList.mp ht
    have hmember := Json.isSome_of_ofMembers hj
      (m := ("manual_check_at", orNull instantJson manualCheckAt)) (by simp [Trigger.members])
    rw [hmanual] at hmember
    exact hmember
  | afterElapsed | nextSession | nextContinuation | goalActive => cases ht

theorem initialNextFireAt_fromYearZero (hinstants : ∀ t ∈ trigger.instants, FromYearZero t)
    (hnow : FromYearZero now) (hnext : initialNextFireAt trigger now = .ok next) :
    ∀ t ∈ next, FromYearZero t := by
  intro t ht
  cases trigger with
  | atTime | interval =>
    cases hnext
    obtain rfl := Option.mem_some.mp ht
    exact hinstants _ (List.mem_singleton_self _)
  | afterElapsed afterSeconds =>
    simp only [initialNextFireAt] at hnext
    split at hnext
    · cases hnext
      obtain rfl := Option.mem_some.mp ht
      exact hnow.addSeconds afterSeconds
    · cases hnext
  | nextSession | nextContinuation | goalActive | condition =>
    cases hnext
    cases ht

theorem initialNextEvaluationAt_fromYearZero (hinstants : ∀ t ∈ trigger.instants, FromYearZero t)
    (hnow : FromYearZero now) : ∀ t ∈ initialNextEvaluationAt trigger now, FromYearZero t := by
  intro t ht
  cases trigger with
  | condition adapter parameters poll manualCheckAt =>
    have hmanual : ∀ m, manualCheckAt = some m → FromYearZero m := fun m hm =>
      hinstants m (Option.mem_toList.mpr hm)
    have hpoll := hnow.addSeconds (poll.getD 30)
    simp only [initialNextEvaluationAt] at ht
    by_cases hbound : poll.getD 30 ≤ i64Max
    · rw [if_pos hbound] at ht
      cases manualCheckAt with
      | none =>
        obtain rfl := Option.mem_some.mp ht
        exact hpoll
      | some manual =>
        obtain rfl := Option.mem_some.mp ht
        split
        · exact hmanual manual rfl
        · exact hpoll
    · rw [if_neg hbound] at ht
      exact hmanual t ht
  | _ => cases ht

end

/-! ## Items -/

/-- Every instant of the item lies in the year 0 or later. -/
structure Remindi.InYears (r : Remindi) : Prop where
  nextFireAt : ∀ t ∈ r.nextFireAt, FromYearZero t
  nextEvaluationAt : ∀ t ∈ r.nextEvaluationAt, FromYearZero t
  originalNextFireAt : ∀ t ∈ r.originalNextFireAt, FromYearZero t
  dueSince : ∀ t ∈ r.dueSince, FromYearZero t
  snoozeUntil : ∀ t ∈ r.snoozeUntil, FromYearZero t
  lastCheckedAt : ∀ t ∈ r.lastCheckedAt, FromYearZero t
  createdAt : FromYearZero r.createdAt
  updatedAt : FromYearZero r.updatedAt
  completedAt : ∀ t ∈ r.completedAt, FromYearZero t
  cancelledAt : ∀ t ∈ r.cancelledAt, FromYearZero t

section

variable {r r' item prior candidate : Remindi} {now : OffsetDateTime}

theorem fromYearZero_none : ∀ t ∈ (none : Option OffsetDateTime), FromYearZero t := by
  intro t ht
  cases ht

theorem FromYearZero.some (h : FromYearZero now) : ∀ t ∈ Option.some now, FromYearZero t := by
  intro t ht
  obtain rfl := Option.mem_some.mp ht
  exact h

theorem fromYearZero_map {value : Option OffsetDateTime} (h : ∀ t ∈ value, FromYearZero t) :
    ∀ t ∈ value.map OffsetDateTime.truncateMillis, FromYearZero t := by
  intro t ht
  obtain ⟨s, hs, rfl⟩ := Option.map_eq_some_iff.mp ht
  exact fromYearZero_truncateMillis.mpr (h s hs)

theorem Remindi.InYears.stored {x : Externals} (h : r.InYears) : (r.stored x).InYears where
  nextFireAt := fromYearZero_map h.nextFireAt
  nextEvaluationAt := fromYearZero_map h.nextEvaluationAt
  originalNextFireAt := fromYearZero_map h.originalNextFireAt
  dueSince := fromYearZero_map h.dueSince
  snoozeUntil := fromYearZero_map h.snoozeUntil
  lastCheckedAt := fromYearZero_map h.lastCheckedAt
  createdAt := fromYearZero_truncateMillis.mpr h.createdAt
  updatedAt := fromYearZero_truncateMillis.mpr h.updatedAt
  completedAt := fromYearZero_map h.completedAt
  cancelledAt := fromYearZero_map h.cancelledAt

theorem Remindi.InYears.writtenOver {x : Externals} (h : r.InYears) (hprior : prior.InYears) :
    (r.writtenOver x prior).InYears :=
  { h.stored (x := x) with createdAt := hprior.createdAt }

/-- Such an item is read back once it is stored. -/
theorem Remindi.InYears.readable (h : r.InYears) (hstored : r.truncateMillis = r) :
    remindiFromRow r = .ok r := by
  have hyear : ∀ (field : Remindi → Option OffsetDateTime),
      (∀ t ∈ field r, FromYearZero t) →
      field r = (field r).map OffsetDateTime.truncateMillis → ∀ t, field r = some t → 0 ≤ t.year := by
    intro field hfield hwhole t ht
    have hfrom := hfield t ht
    rw [ht, Option.map_some] at hwhole
    rw [year_of_truncated (Option.some.inj hwhole).symm]
    exact hfrom
  have hcreated : r.createdAt.truncateMillis = r.createdAt := congrArg Remindi.createdAt hstored
  have hupdated : r.updatedAt.truncateMillis = r.updatedAt := congrArg Remindi.updatedAt hstored
  rw [remindiFromRow_iff]
  intro t ht
  simp only [Remindi.times, List.reduceOption_mem_iff, List.mem_cons, List.not_mem_nil,
    or_false] at ht
  rcases ht with ht | ht | ht | ht | ht | ht | ht | ht | ht | ht
  · exact hyear _ h.nextFireAt (congrArg Remindi.nextFireAt hstored).symm t ht.symm
  · exact hyear _ h.nextEvaluationAt (congrArg Remindi.nextEvaluationAt hstored).symm t ht.symm
  · exact hyear _ h.originalNextFireAt (congrArg Remindi.originalNextFireAt hstored).symm t ht.symm
  · exact hyear _ h.dueSince (congrArg Remindi.dueSince hstored).symm t ht.symm
  · exact hyear _ h.snoozeUntil (congrArg Remindi.snoozeUntil hstored).symm t ht.symm
  · exact hyear _ h.lastCheckedAt (congrArg Remindi.lastCheckedAt hstored).symm t ht.symm
  · obtain rfl := Option.some.inj ht
    rw [year_of_truncated hcreated]
    exact h.createdAt
  · obtain rfl := Option.some.inj ht
    rw [year_of_truncated hupdated]
    exact h.updatedAt
  · exact hyear _ h.completedAt (congrArg Remindi.completedAt hstored).symm t ht.symm
  · exact hyear _ h.cancelledAt (congrArg Remindi.cancelledAt hstored).symm t ht.symm

end

/-! ## Evaluations -/

section

variable {r r' observed prior candidate : Remindi} {now : OffsetDateTime} {context : CheckContext}
  {condition : ConditionEvaluation}

theorem Remindi.InYears.checkedAt (h : r.InYears) (hnow : FromYearZero now) :
    (r.checkedAt now).InYears :=
  { h with lastCheckedAt := hnow.some }

theorem Remindi.InYears.observe {satisfied : Bool} {readiness : Readiness} {events : List EventType}
    (h : r.InYears) (hnow : FromYearZero now)
    (hop : r.triggerSatisfaction now context condition = .ok (observed, satisfied, readiness, events)) :
    observed.InYears := by
  unfold Remindi.triggerSatisfaction at hop
  cases htrigger : r.trigger with
  | condition adapter parameters poll manualCheckAt =>
    simp only [htrigger] at hop
    split at hop
    · cases hop
    · cases hop
      refine { h with nextEvaluationAt := ?_ }
      dsimp only
      split
      · split
        · exact fromYearZero_none
        · exact (hnow.addSeconds _).some
      · split
        · exact fromYearZero_none
        · exact h.nextEvaluationAt
  | atTime | afterElapsed | interval | nextSession | nextContinuation | goalActive =>
    simp only [htrigger] at hop
    cases hop
    exact h

theorem Remindi.InYears.evaluate {result : EvaluationResult} (h : r.InYears)
    (hnow : FromYearZero now) (hop : r.evaluate now context condition = .ok (r', result)) :
    r'.InYears := by
  have hchecked := h.checkedAt hnow
  unfold Remindi.evaluate at hop
  split at hop
  · cases hop
  · cases hop
  · unfold Remindi.evaluateSnooze at hop
    split at hop
    · cases hop
    · dsimp only at hop
      split at hop
      · cases hop
        exact hchecked
      · cases hop
        exact { hchecked with snoozeUntil := fromYearZero_none, updatedAt := hnow }
  · cases hop
    exact hchecked
  · unfold Remindi.evaluateDue at hop
    split at hop
    · cases hop
      exact hchecked
    · dsimp only at hop
      split at hop
      · cases hop
        exact { hchecked with updatedAt := hnow }
      · cases hop
        exact hchecked
  · split at hop
    · cases hop
    · next hsatisfaction =>
      have hobserved := hchecked.observe hnow hsatisfaction
      split at hop
      · cases hop
        exact { hobserved with dueSince := hnow.some, updatedAt := hnow }
      · cases hop
        exact hobserved

theorem Remindi.InYears.evaluatedVersion (hnow : FromYearZero now) (h : candidate.InYears) :
    (RemindiService.evaluatedVersion prior candidate now).InYears := by
  unfold RemindiService.evaluatedVersion
  split
  · exact { h with updatedAt := hnow }
  · exact h

/-- **An evaluation at a clock reading from the year 0 on stays there.** -/
theorem Remindi.InYears.evaluated {detail : Option String} {result : EvaluationResult}
    (h : prior.InYears) (hnow : FromYearZero now)
    (hop : RemindiService.evaluateCandidate prior now context condition detail =
      .ok (candidate, result)) : candidate.InYears := by
  unfold RemindiService.evaluateCandidate at hop
  obtain ⟨⟨evaluated, result'⟩, hevaluate, hop⟩ := except_bind_ok.mp hop
  have hevaluated := h.evaluate hnow (domain_ok.mp hevaluate)
  dsimp only at hop
  split at hop
  · cases hop
    exact h
  · cases hop
    refine Remindi.InYears.evaluatedVersion hnow ?_
    split
    · exact { hevaluated with }
    · exact hevaluated

end

/-! ## Operations -/

section

variable {r item item' prior : Remindi} {now : OffsetDateTime} {request : UpdateRequest}
  {mutation : Mutation}

/-- A bound item prints its trigger. -/
theorem Remindi.Bound.trigger (h : r.Bound) : r.trigger.toJson.isSome = true := by
  have hupdate := (Remindi.bindInsert_ok.mp h.bound).1
  unfold Remindi.bindUpdate at hupdate
  obtain ⟨_, hjson, -⟩ := except_bind_ok.mp hupdate
  unfold jsonString at hjson
  split at hjson
  · assumption
  · cases hjson

theorem Remindi.InYears.resetSnooze (h : r.InYears) : r.resetSnooze.InYears := by
  unfold Remindi.resetSnooze
  split
  · exact { h with snoozeUntil := fromYearZero_none, dueSince := fromYearZero_none }
  · exact h

theorem Remindi.InYears.triggerStep (h : item.InYears) (hnow : FromYearZero now)
    (hrequest : ∀ trigger, request.trigger = some trigger →
      ∀ t ∈ trigger.instants, FromYearZero t)
    (hstep : TriggerStep request now item item') : item'.InYears := by
  cases hstep with
  | keep hnone => exact h
  | @install trigger next hsome hnext hactive hvalid =>
    have hinstants := hrequest _ hsome
    have hfire := initialNextFireAt_fromYearZero hinstants hnow hnext
    have hrescheduled : Remindi.InYears { item with
        trigger := trigger
        nextFireAt := next
        originalNextFireAt := next
        nextEvaluationAt := none } :=
      { h with
        nextFireAt := hfire
        originalNextFireAt := hfire
        nextEvaluationAt := fromYearZero_none }
    have hreset := hrescheduled.resetSnooze
    exact
      { hreset with
        updatedAt := hnow
        nextEvaluationAt := initialNextEvaluationAt_fromYearZero hinstants hnow }

theorem Remindi.InYears.dispositionStep (h : item.InYears)
    (hstep : DispositionStep request now item item') : item'.InYears := by
  cases hstep with
  | keep hnone => exact h
  | @advance disposition spec anchor advance hsome hspec hanchor hadvance =>
    obtain ⟨k, hadvanced, -⟩ := RecurrenceSpec.advance_ok hadvance
    have hnext : FromYearZero advance.nextFireAt := by
      rw [hadvanced.nextFireAt, ← Nat.cast_mul]
      exact (h.nextFireAt anchor hanchor).addSeconds _
    exact
      { h with
        nextFireAt := hnext.some
        originalNextFireAt := hnext.some
        dueSince := fromYearZero_none }

theorem Remindi.InYears.update (h : prior.InYears) (hnow : FromYearZero now)
    (hrequest : ∀ trigger, request.trigger = some trigger →
      ∀ t ∈ trigger.instants, FromYearZero t)
    (hop : updateItem request now prior = .ok mutation) : mutation.item.InYears := by
  obtain ⟨triggered, recurred, moved, steps, hitem, -, -⟩ := updateItem_ok hop
  have hfields : (applyFields request prior).InYears := { h with }
  have htriggered := hfields.triggerStep hnow hrequest steps.trigger
  have hrecurred : recurred.InYears := by
    rw [steps.recurrence.eq]
    exact { htriggered with }
  have hmoved := hrecurred.dispositionStep steps.disposition
  rw [hitem]
  unfold bumpVersion
  split
  · exact { hmoved with updatedAt := hnow }
  · exact hmoved

/-- **An operation at a clock reading from the year 0 on stays there**, where its
item can be stored. -/
theorem Remindi.InYears.operates {actor : Actor} {call : Call} (h : prior.InYears)
    (hnow : FromYearZero now) (hprinted : mutation.item.trigger.toJson.isSome = true)
    (hop : Operates actor now prior call mutation) : mutation.item.InYears := by
  cases hop with
  | complete prepared validated ok =>
    rw [(Remindi.complete_ok (completeItem_ok ok).1).2]
    exact
      { h with
        snoozeUntil := fromYearZero_none
        completedAt := hnow.some
        updatedAt := hnow }
  | snooze prepared ok =>
    obtain ⟨-, hfuture, hitem⟩ := Remindi.snooze_ok (snoozeItem_ok ok).1
    have huntil := hnow.later (le_of_lt hfuture)
    rw [hitem]
    exact { h with snoozeUntil := huntil.some, updatedAt := hnow }
  | cancel prepared ok =>
    rw [(Remindi.cancel_ok (cancelItem_ok ok).1).2]
    exact
      { h with
        snoozeUntil := fromYearZero_none
        cancelledAt := hnow.some
        updatedAt := hnow }
  | update prepared ok =>
    refine h.update hnow ?_ ok
    intro trigger hsome t ht
    have htrigger := updateItem_trigger ok
    rw [hsome, Option.getD_some] at htrigger
    rw [htrigger] at hprinted
    refine fromYearZero_of_instantJson (instants_printed hprinted t ht) ?_
    obtain ⟨-, -, -, hnormalized, -, -⟩ := prepareUpdate_ok prepared
    rw [hnormalized] at hsome
    obtain ⟨raw, -, rfl⟩ := Option.map_eq_some_iff.mp hsome
    exact normalizeTrigger_instants t ht

theorem newItem_inYears {ownerId : String} {id : Uuid} {actor : Actor} {raw request : AddRequest}
    {next : Option OffsetDateTime} (hprepared : prepareAdd actor raw = .ok request)
    (hnext : initialNextFireAt request.trigger now = .ok next) (hnow : FromYearZero now)
    (hprinted : request.trigger.toJson.isSome = true) :
    (RemindiService.newItem ownerId id request next now).InYears := by
  have hinstants : ∀ t ∈ request.trigger.instants, FromYearZero t := by
    intro t ht
    refine fromYearZero_of_instantJson (instants_printed hprinted t ht) ?_
    rw [(prepareAdd_ok hprepared).2.1] at ht
    exact normalizeTrigger_instants t ht
  have hfire := initialNextFireAt_fromYearZero hinstants hnow hnext
  exact
    { nextFireAt := hfire
      nextEvaluationAt := initialNextEvaluationAt_fromYearZero hinstants hnow
      originalNextFireAt := hfire
      dueSince := fromYearZero_none
      snoozeUntil := fromYearZero_none
      lastCheckedAt := fromYearZero_none
      createdAt := hnow
      updatedAt := hnow
      completedAt := fromYearZero_none
      cancelledAt := fromYearZero_none }

end

/-! ## Every step -/

/-- What the step is given from outside. -/
def Label.env : Label → Env
  | .call _ _ _ env | .checkRead _ _ _ env | .checkPersist _ env | .pollRead _ _ _ env
  | .pollApply _ _ env => env

/-- The clock shows the year 0 or later in every step. -/
def ClockFromYearZero (labels : List Label) : Prop :=
  ∀ label ∈ labels, ∀ n, FromYearZero (label.env.clock n)

/-- The items and the clock readings in flight. -/
structure System.InYears (x : Externals) (s : System) : Prop where
  inFlight : InFlight x s
  bound : s.db.Bound
  rows : ∀ id row, s.db.remindi.find? id = some row → row.InYears
  checks : ∀ pending ∈ s.checks, FromYearZero pending.now
  polls : ∀ poll ∈ s.polls, FromYearZero poll.now

section

variable {x : Externals} {s : System} {env : Env} {n m : Nat} {db db' : Db}
  {service : RemindiService} {actor : Actor}

/-- An item is added at the clock reading of its call. -/
theorem addItem_updatedAt {request : AddRequest} {hash : String} {now : OffsetDateTime}
    {response : MutationResult}
    (h : service.addItem actor request hash now env n db = .ok (response, m, db')) :
    response.remindi.updatedAt = now := by
  unfold RemindiService.addItem at h
  obtain ⟨_, _, _, -, h⟩ := Txn.bind_ok.mp h
  obtain ⟨_, _, _, -, h⟩ := Txn.bind_ok.mp h
  obtain ⟨_, _, _, -, h⟩ := Txn.bind_ok.mp h
  obtain ⟨_, _, _, -, h⟩ := Txn.bind_ok.mp h
  obtain ⟨_, _, _, -, h⟩ := Txn.bind_ok.mp h
  obtain ⟨_, _, _, -, h⟩ := Txn.bind_ok.mp h
  obtain ⟨_, _, _, -, h⟩ := Txn.bind_ok.mp h
  obtain ⟨rfl, -, -⟩ := Txn.pure_ok.mp h
  rfl

theorem add_updatedAt {raw : AddRequest} {response : MutationResult}
    (h : service.add actor raw env n db = .ok (response, m, db')) :
    db = db' ∨ ∃ k, response.remindi.updatedAt = env.clock k := by
  unfold RemindiService.add at h
  obtain ⟨_, _, _, hrun, h⟩ := Txn.bind_ok.mp h
  obtain ⟨-, -, rfl⟩ := Txn.ofExcept_ok.mp hrun
  obtain ⟨_, _, _, hrun, h⟩ := Txn.bind_ok.mp h
  obtain ⟨-, -, rfl⟩ := Txn.ofExcept_ok.mp hrun
  obtain ⟨now, k, _, hnow, h⟩ := Txn.bind_ok.mp h
  obtain ⟨hclock, rfl⟩ := Tx.now_ok hnow
  obtain ⟨_, _, _, hbegin, h⟩ := Txn.bind_ok.mp h
  obtain rfl := Tx.database_ok hbegin
  obtain ⟨replayed, _, _, hreplay, h⟩ := Txn.bind_ok.mp h
  obtain ⟨rfl, -, -⟩ := replay_ok hreplay
  cases replayed with
  | none => exact Or.inr ⟨_, (addItem_updatedAt h).trans hclock⟩
  | some response' =>
    obtain ⟨_, _, _, hroll, h⟩ := Txn.bind_ok.mp h
    obtain rfl := Tx.database_ok hroll
    obtain ⟨-, -, rfl⟩ := Txn.pure_ok.mp h
    exact Or.inl rfl

/-- A call stores items from the year 0 on. -/
theorem call_inYears {ownerId : String} {call : Call} (hs : s.InYears x)
    (henv : ∀ k, FromYearZero (env.clock k)) (id : Uuid) (row : Remindi)
    (hrow : (step x s (.call ownerId actor call env)).1.db.remindi.find? id = some row) :
    row.InYears := by
  have hbound := step_bound (x := x) (.call ownerId actor call env) hs.bound
  have hprinted := (hbound row (Table.find?_eq_some.mp hrow).1).trigger
  have hdb : (step x s (.call ownerId actor call env)).1.db =
      ((RemindiService.perform ⟨x, ownerId⟩ actor call).run env s.db).2 := rfl
  rw [hdb] at hrow
  rcases hrun : (RemindiService.perform ⟨x, ownerId⟩ actor call).run env s.db with
    ⟨_ | response, db'⟩
  · rw [hrun, Txn.run_error hrun] at hrow
    exact hs.rows id row hrow
  rw [hrun] at hrow
  obtain ⟨m, hok⟩ := Txn.run_ok.mp hrun
  obtain ⟨hash, -, hreplayed | hexecuted⟩ := perform_ok hok
  · rw [← hreplayed.unchanged] at hrow
    exact hs.rows id row hrow
  cases hexecuted with
  | added prepared added =>
    obtain ⟨rfl⟩ | ⟨k, hclock⟩ := add_updatedAt hok
    · exact hs.rows id row hrow
    obtain ⟨itemId, next, now, hnext, hitem⟩ := added.built
    rw [Table.find?_insert? added.remindi] at hrow
    split at hrow
    · obtain rfl := Option.some.inj hrow
      have hnow : now = env.clock k := by
        rw [← hclock, hitem]
        rfl
      rw [hitem] at hprinted
      have hitem' := @newItem_inYears _ ownerId itemId _ _ _ _ prepared hnext (hnow ▸ henv k)
        ((Trigger.isSome_toJson_mapNumbers _ _).symm.trans hprinted)
      rw [hitem]
      exact hitem'.stored
    · exact hs.rows id row hrow
  | @mutated _ _ _ prior mutation target operates mutated =>
    have hprior := hs.rows _ _ mutated.found
    have hfound : s.db.remindi.find? (mutation.item.writtenOver x prior).id = some prior :=
      (congrArg s.db.remindi.find? operates.sameItem.id).trans mutated.found
    rw [mutated.remindi, Table.find?_replace hfound] at hrow
    split at hrow
    · obtain rfl := Option.some.inj hrow
      have hprinted := (Trigger.isSome_toJson_mapNumbers _ _).symm.trans hprinted
      exact (hprior.operates (henv 0) hprinted operates).writtenOver hprior
    · exact hs.rows id row hrow

/-- The checks and polls in flight were read by the clock. -/
theorem step_checks_clock (label : Label) {pending : RemindiService.PendingCheck}
    (h : pending ∈ (step x s label).1.checks) :
    pending ∈ s.checks ∨ pending.now = label.env.clock 0 := by
  cases label with
  | call ownerId actor call env => exact Or.inl h
  | checkPersist index env =>
    cases hpending : s.checks[index]? with
    | none =>
      rw [step_checkPersist_none hpending] at h
      exact Or.inl h
    | some pending' =>
      rw [step_checkPersist_some hpending] at h
      exact Or.inl (List.mem_of_mem_eraseIdx h)
  | pollApply index adapters env =>
    cases hpoll : s.polls[index]? with
    | none =>
      rw [step_pollApply_none hpoll] at h
      exact Or.inl h
    | some poll =>
      cases hcandidates : poll.candidates with
      | nil =>
        rw [step_pollApply_nil hpoll hcandidates] at h
        exact Or.inl h
      | cons prior rest =>
        rw [step_pollApply_cons hpoll hcandidates] at h
        exact Or.inl h
  | checkRead ownerId actor request env =>
    unfold step at h
    dsimp only at h
    split at h
    · exact Or.inl h
    next pending' db' hrun =>
    obtain ⟨m, hok⟩ := Txn.run_ok.mp hrun
    split at h
    · exact Or.inl h
    · rcases List.mem_append.mp h with h | h
      · exact Or.inl h
      · obtain rfl := List.mem_singleton.mp h
        obtain ⟨-, page, rfl⟩ := checkRead_page hok
        exact Or.inr rfl
  | pollRead ownerId actor limit env =>
    unfold step at h
    dsimp only at h
    split at h <;> exact Or.inl h

theorem step_polls_clock (label : Label) {poll : PendingPoll}
    (h : poll ∈ (step x s label).1.polls) :
    (∃ old ∈ s.polls, poll.now = old.now) ∨ poll.now = label.env.clock 0 := by
  cases label with
  | call ownerId actor call env => exact Or.inl ⟨poll, h, rfl⟩
  | checkPersist index env =>
    cases hpending : s.checks[index]? with
    | none =>
      rw [step_checkPersist_none hpending] at h
      exact Or.inl ⟨poll, h, rfl⟩
    | some pending =>
      rw [step_checkPersist_some hpending] at h
      exact Or.inl ⟨poll, h, rfl⟩
  | pollApply index adapters env =>
    cases hpoll : s.polls[index]? with
    | none =>
      rw [step_pollApply_none hpoll] at h
      exact Or.inl ⟨poll, h, rfl⟩
    | some old =>
      cases hcandidates : old.candidates with
      | nil =>
        rw [step_pollApply_nil hpoll hcandidates] at h
        exact Or.inl ⟨poll, List.mem_of_mem_eraseIdx h, rfl⟩
      | cons prior rest =>
        rw [step_pollApply_cons hpoll hcandidates] at h
        rcases List.mem_or_eq_of_mem_set h with h | rfl
        · exact Or.inl ⟨poll, h, rfl⟩
        · exact Or.inl ⟨old, List.mem_of_getElem? hpoll, rfl⟩
  | checkRead ownerId actor request env =>
    unfold step at h
    dsimp only at h
    split at h
    · exact Or.inl ⟨poll, h, rfl⟩
    · split at h <;> exact Or.inl ⟨poll, h, rfl⟩
  | pollRead ownerId actor limit env =>
    unfold step at h
    dsimp only at h
    split at h
    · exact Or.inl ⟨poll, h, rfl⟩
    next now candidates db' hrun =>
    rcases List.mem_append.mp h with h | h
    · exact Or.inl ⟨poll, h, rfl⟩
    · obtain rfl := List.mem_singleton.mp h
      exact Or.inr (schedulerCandidates_clock (congrArg Prod.fst hrun))

/-- **The step lemma.** -/
theorem step_inYears (label : Label) (hclock : ∀ n, FromYearZero (label.env.clock n))
    (hs : s.InYears x) : (step x s label).1.InYears x where
  inFlight := step_inFlight hs.inFlight label
  bound := step_bound label hs.bound
  rows := by
    intro id row hrow
    cases hcall : label.isCall with
    | true =>
      cases label with
      | call ownerId actor call env => exact call_inYears hs hclock id row hrow
      | _ => cases hcall
    | false =>
      by_cases hcommits : Commits (Machine.entry (step x) s label) id
      · have hsound : SoundStep x (Machine.entry (step x) s label) := ⟨hs.inFlight, rfl⟩
        obtain ⟨prior, now, context, answer, candidate, result, rfl, hstep⟩ :=
          hsound.evaluation hcommits hcall
        have hprior := hs.rows prior.id prior hstep.recorded.rowBefore
        have hnow : FromYearZero now := by
          cases hstep.evaluates with
          | check hpending hitem => exact hs.checks _ (List.mem_of_getElem? hpending)
          | poll hpoll hcandidates => exact hs.polls _ (List.mem_of_getElem? hpoll)
        obtain rfl := Option.some.inj (hstep.recorded.rowAfter.symm.trans hrow)
        exact (hprior.evaluated hnow hstep.outcome).writtenOver hprior
      · have hview := not_not.mp hcommits
        exact hs.rows id row ((congrArg ItemView.row hview).symm.trans hrow)
  checks := by
    intro pending hpending
    rcases step_checks_clock label hpending with hold | hnew
    · exact hs.checks pending hold
    · rw [hnew]
      exact hclock 0
  polls := by
    intro poll hpoll
    rcases step_polls_clock label hpoll with ⟨old, hold, hnow⟩ | hnew
    · rw [hnow]
      exact hs.polls old hold
    · rw [hnew]
      exact hclock 0

/-- The run lemma. -/
theorem inYears_runOf {labels : List Label} (hclock : ClockFromYearZero labels) :
    (runOf x labels).InYears x := by
  refine (Machine.run_induction_on (s := System.start)
    (P := fun ks _ t => ClockFromYearZero ks → t.InYears x) ?_ ?_ labels) hclock
  · intro _
    exact
      { inFlight := InFlight.start
        bound := fun row hrow => nomatch hrow
        rows := fun id row hrow => nomatch hrow
        checks := fun pending hpending => nomatch hpending
        polls := fun poll hpoll => nomatch hpoll }
  · intro ks _ t label ih hall
    obtain ⟨hks, hlabel⟩ := List.forall_mem_append.mp hall
    exact step_inYears label (hlabel label (List.mem_singleton_self _)) (ih hks)

/-- **Every stored item is read back** where the clock shows the year 0 or later. -/
theorem stored_rows_readable {labels : List Label} (hclock : ClockFromYearZero labels) :
    ∀ row ∈ (runOf x labels).db.remindi.rows, remindiFromRow row = .ok row := by
  intro row hrow
  have h := inYears_runOf (x := x) hclock
  exact (h.rows row.id row (Table.find?_of_mem hrow)).readable (h.bound row hrow).stored

end

end RemindiCore
