import RemindiCore.Proof.Evaluations

/-!
# One step of the system, item by item

A step changes nothing of an item, or it is one committed operation on it: a
`Change`, recorded with its events (`step_view`).  The rows that checks and
polls hold in flight may be stale; `InFlight` says how stale: at the version
they were read at they are still the stored row.
-/

namespace RemindiCore

open CivilTime JsonText KeyedTable Transaction

variable {db db' : Db}

/-! ## Views after a change -/

theorem view_eq {id : Uuid} (row : db'.remindi.find? id = db.remindi.find? id)
    (links : db'.links.rows.filter (fun row => row.remindiId = id) =
      db.links.rows.filter (fun row => row.remindiId = id))
    (events : eventsOf db' id = eventsOf db id)
    (evidence : db'.evidence.find? id = db.evidence.find? id)
    (records : db'.idempotency.rows.filter (fun record => record.remindiId = id) =
      db.idempotency.rows.filter (fun record => record.remindiId = id)) :
    db'.view id = db.view id := by
  unfold Db.view
  rw [row, links, events, evidence, records]

theorem eventsOf_append {new : List RemindiEvent} (h : db'.events.rows = db.events.rows ++ new)
    (id : Uuid) : eventsOf db' id = eventsOf db id ++ new.filter (fun e => e.remindiId = id) := by
  unfold eventsOf
  rw [h, List.filter_append]

theorem eventsOf_append_of {id : Uuid} {new : List RemindiEvent}
    (h : db'.events.rows = db.events.rows ++ new) (hid : ∀ event ∈ new, event.remindiId = id) :
    eventsOf db' id = eventsOf db id ++ new := by
  rw [eventsOf_append h, List.filter_eq_self.mpr (by simpa using hid)]

theorem eventsOf_append_other {id k : Uuid} {new : List RemindiEvent}
    (h : db'.events.rows = db.events.rows ++ new) (hid : ∀ event ∈ new, event.remindiId = id)
    (hk : k ≠ id) : eventsOf db' k = eventsOf db k := by
  have hnone : new.filter (fun e => e.remindiId = k) = [] := by
    rw [List.filter_eq_nil_iff]
    intro event hevent
    rw [hid event hevent]
    simpa using Ne.symm hk
  rw [eventsOf_append h, hnone, List.append_nil]

theorem evidence_append_other {id k : Uuid} {new : List CompletionEvidence}
    (h : db'.evidence.rows = db.evidence.rows ++ new) (hid : ∀ row ∈ new, row.remindiId = id)
    (hk : k ≠ id) : db'.evidence.find? k = db.evidence.find? k := by
  have hnone : new.find? (fun row => decide (row.remindiId = k)) = none := by
    rw [List.find?_eq_none]
    intro row hrow
    rw [hid row hrow]
    simpa using Ne.symm hk
  show db'.evidence.rows.find? _ = db.evidence.rows.find? _
  rw [h, List.find?_append, hnone, Option.or_none]

theorem records_insert_other {id k : Uuid} {record : IdempotencyRecord}
    (h : db.idempotency.insert? record = some db'.idempotency) (hid : record.remindiId = id)
    (hk : k ≠ id) :
    db'.idempotency.rows.filter (fun record => record.remindiId = k) =
      db.idempotency.rows.filter (fun record => record.remindiId = k) := by
  rw [(Table.insert?_eq_some h).2, List.filter_append]
  simp [hid, Ne.symm hk]

/-! ## Records -/

/-- One item has gone from `before` to `after` with events of these types, all
of them stamped with the two versions. -/
structure Recorded (view view' : ItemView) (before : Option Remindi) (after : Remindi)
    (types : List EventType) : Prop where
  rowBefore : view.row = before
  rowAfter : view'.row = some after
  columns : after.Columns
  events : ∃ new, view'.events = view.events ++ new ∧ new.map (·.eventType) = types ∧
    ∀ event ∈ new, event.priorVersion = before.map (·.version) ∧
      event.newVersion = some after.version

section

variable {service : RemindiService} {actor : Actor} {hash : String}

theorem Added.only {request : AddRequest} {item : Remindi}
    (h : Added service actor request hash db db' item) : Only item.id db db' := by
  intro k hk
  obtain ⟨row, hevents, hid, -⟩ := h.event
  obtain ⟨record, hinsert, hrecord⟩ := h.record
  refine view_eq ?_ (h.links k hk) ?_ (by rw [h.evidence]) ?_
  · rw [Table.find?_insert? h.remindi, if_neg]
    exact Ne.symm hk
  · exact eventsOf_append_other hevents (List.forall_mem_singleton.mpr hid) hk
  · exact records_insert_other hinsert hrecord.remindiId hk

theorem Added.recorded {request : AddRequest} {item : Remindi}
    (h : Added service actor request hash db db' item) :
    Recorded (db.view item.id) (db'.view item.id) none (item.stored service.externals)
      [.created] := by
  obtain ⟨row, hevents, hid, htype, hprior, hnew, -⟩ := h.event
  obtain ⟨id, nextFireAt, now, -, hitem⟩ := h.built
  refine ⟨(Table.insert?_eq_some h.remindi).1, ?_, (Remindi.columns_of_bound h.bound).stored,
    [row], ?_, ?_, ?_⟩
  · show db'.remindi.find? item.id = _
    exact (Table.find?_insert? h.remindi _).trans (if_pos rfl)
  · exact eventsOf_append_of hevents (List.forall_mem_singleton.mpr hid)
  · simp [htype]
  · rw [List.forall_mem_singleton]
    refine ⟨hprior, hnew.trans ?_⟩
    rw [hitem]
    rfl

theorem Mutated.only {call : MutationCall} {prior : Remindi} {mutation : Mutation}
    (h : Mutated service call db db' prior mutation) (hid : mutation.item.id = prior.id) :
    Only prior.id db db' := by
  intro k hk
  obtain ⟨row, hevents, hrow, -⟩ := h.event
  obtain ⟨new, hevidence, -, hnew⟩ := h.evidence
  obtain ⟨record, hinsert, hrecord⟩ := h.record
  refine view_eq ?_ (h.links k hk) ?_ ?_ ?_
  · have hfound : db.remindi.find? (mutation.item.writtenOver service.externals prior).id =
        some prior := by
      rw [Remindi.writtenOver_id, hid]
      exact h.found
    rw [h.remindi, Table.find?_replace hfound, if_neg]
    rw [Remindi.writtenOver_id, hid]
    exact Ne.symm hk
  · exact eventsOf_append_other hevents (List.forall_mem_singleton.mpr hrow) hk
  · exact evidence_append_other hevidence hnew hk
  · exact records_insert_other hinsert (hrecord.remindiId.trans hid) hk

theorem Mutated.recorded {call : MutationCall} {prior : Remindi} {mutation : Mutation}
    (h : Mutated service call db db' prior mutation) (hid : mutation.item.id = prior.id) :
    Recorded (db.view prior.id) (db'.view prior.id) (some prior)
      (mutation.item.writtenOver service.externals prior) [mutation.eventType] := by
  obtain ⟨row, hevents, hrow, htype, hprior, hnew, -⟩ := h.event
  have hfound : db.remindi.find? (mutation.item.writtenOver service.externals prior).id =
      some prior := by
    rw [Remindi.writtenOver_id, hid]
    exact h.found
  refine ⟨h.found, ?_, (Remindi.columns_of_bound h.bound).writtenOver prior, [row], ?_, ?_, ?_⟩
  · show db'.remindi.find? prior.id = _
    rw [h.remindi]
    exact (Table.find?_replace hfound _).trans (if_pos hid)
  · exact eventsOf_append_of hevents (List.forall_mem_singleton.mpr hrow)
  · simp [htype]
  · exact List.forall_mem_singleton.mpr ⟨hprior, hnew⟩

theorem Persisted.only {x : Externals} {prior old candidate : Remindi} {types : List EventType}
    (h : Persisted x db db' prior old candidate types) : Only candidate.id db db' := by
  intro k hk
  obtain ⟨new, hevents, hnew⟩ := h.events
  refine view_eq ?_ (by rw [h.links]) ?_ (by rw [h.evidence]) (by rw [h.idempotency])
  · rw [h.remindi]
    exact (Table.find?_replace (a := candidate.writtenOver x old) h.found _).trans
      (if_neg (Ne.symm hk))
  · exact eventsOf_append_other hevents hnew.remindiId hk

theorem Persisted.recorded {x : Externals} {prior candidate : Remindi} {types : List EventType}
    (h : Persisted x db db' prior prior candidate types) :
    Recorded (db.view candidate.id) (db'.view candidate.id) (some prior)
      (candidate.writtenOver x prior) types := by
  obtain ⟨new, hevents, hnew⟩ := h.events
  refine ⟨h.found, ?_, (Remindi.columns_of_bound h.bound).writtenOver prior, new, ?_, hnew.types, ?_⟩
  · show db'.remindi.find? candidate.id = _
    rw [h.remindi]
    exact (Table.find?_replace (a := candidate.writtenOver x prior) h.found _).trans (if_pos rfl)
  · exact eventsOf_append_of hevents hnew.remindiId
  · intro event hevent
    exact ⟨hnew.priorVersion event hevent, hnew.newVersion event hevent⟩

end

/-! ## Stale rows -/

/-- The row was stored once, and as long as the version has not moved on it still is. -/
def Fresh (db : Db) (prior : Remindi) : Prop :=
  ∃ row, db.remindi.find? prior.id = some row ∧ prior.version ≤ row.version ∧
    (row.version = prior.version → row = prior)

theorem Fresh.of_mem {prior : Remindi} (h : prior ∈ db.remindi.rows) : Fresh db prior :=
  ⟨prior, Table.find?_of_mem h, Nat.le_refl _, fun _ => rfl⟩

theorem Fresh.of_view {prior : Remindi} (h : Fresh db prior)
    (hview : db'.view prior.id = db.view prior.id) : Fresh db' prior := by
  have hrow : db'.remindi.find? prior.id = db.remindi.find? prior.id :=
    congrArg ItemView.row hview
  unfold Fresh
  rw [hrow]
  exact h

theorem Fresh.eq_of_version {prior row : Remindi} (h : Fresh db prior)
    (hrow : db.remindi.find? prior.id = some row) (hversion : row.version = prior.version) :
    row = prior := by
  obtain ⟨row', hrow', -, heq⟩ := h
  obtain rfl : row' = row := Option.some.inj (hrow'.symm.trans hrow)
  exact heq hversion

/-- Storing an evaluation of a fresh row, seen from any item. -/
theorem Persisted.view {x : Externals} {prior old candidate : Remindi} {types : List EventType}
    (h : Persisted x db db' prior old candidate types) (hid : candidate.id = prior.id)
    (hfresh : Fresh db prior) (id : Uuid) :
    db'.view id = db.view id ∨
      prior.id = id ∧ Recorded (db.view id) (db'.view id) (some prior)
        (candidate.writtenOver x prior) types := by
  have hfound := h.found
  rw [hid] at hfound
  obtain rfl := hfresh.eq_of_version hfound h.version
  by_cases hk : id = candidate.id
  · subst hk
    exact Or.inr ⟨hid.symm, h.recorded⟩
  · exact Or.inl (h.only id hk)

/-! ## Changes -/

/-- One committed operation on one item: the label it came from, the row before
and after it, the types of its events. -/
inductive Change (x : Externals) (s : System) :
    Label → Option Remindi → Remindi → List EventType → Prop
  | add {ownerId : String} {actor : Actor} {raw request : AddRequest} {env : Env} {id : Uuid}
      {nextFireAt : Option OffsetDateTime} {now : OffsetDateTime}
      (prepared : prepareAdd actor raw = .ok request)
      (fires : initialNextFireAt request.trigger now = .ok nextFireAt) :
      Change x s (.call ownerId actor (.add raw) env) none
        ((RemindiService.newItem ownerId id request nextFireAt now).stored x) [.created]
  | operate {ownerId : String} {actor : Actor} {call : Call} {env : Env} {prior : Remindi}
      {mutation : Mutation} (target : call.target = some (prior.id, prior.version))
      (operates : Operates actor (env.clock 0) prior call mutation) :
      Change x s (.call ownerId actor call env) (some prior) (mutation.item.writtenOver x prior)
        [mutation.eventType]
  | check {index : Nat} {env : Env} {pending : RemindiService.PendingCheck}
      {item : ReadyItem pending.now pending.context} {candidate : Remindi}
      {types : List EventType} (hpending : s.checks[index]? = some pending)
      (hitem : item ∈ pending.ready) (evaluated : Evaluated item.prior pending.now candidate types) :
      Change x s (.checkPersist index env) (some item.prior) (candidate.writtenOver x item.prior)
        types
  | poll {index : Nat} {adapters : RemindiService.AdapterProvider} {env : Env}
      {poll : PendingPoll} {prior candidate : Remindi} {rest : List Remindi}
      {types : List EventType} (hpoll : s.polls[index]? = some poll)
      (hcandidates : poll.candidates = prior :: rest)
      (evaluated : Evaluated prior poll.now candidate types) :
      Change x s (.pollApply index adapters env) (some prior) (candidate.writtenOver x prior) types

section

variable {now : OffsetDateTime} {prior : Remindi} {mutation : Mutation}

theorem TriggerStep.version {request : UpdateRequest} {item item' : Remindi}
    (h : TriggerStep request now item item') :
    item'.version = item.version ∨ item'.version = item.version + 1 := by
  cases h with
  | keep h => exact Or.inl rfl
  | install h hnext hactive hvalid => exact Or.inr rfl

theorem DispositionStep.version {request : UpdateRequest} {item item' : Remindi}
    (h : DispositionStep request now item item') : item'.version = item.version := by
  cases h <;> rfl

theorem bumpVersion_version {version : Nat} {item : Remindi}
    (h : item.version = version ∨ item.version = version + 1) :
    (bumpVersion version now item).version = version + 1 := by
  unfold bumpVersion
  split
  · next heq => exact congrArg (· + 1) heq
  · next hne => exact h.resolve_left hne

theorem Operates.version {actor : Actor} {call : Call}
    (h : Operates actor now prior call mutation) : mutation.item.version = prior.version + 1 := by
  cases h with
  | complete prepared validated ok =>
    rw [(Remindi.complete_ok (completeItem_ok ok).1).2]
  | snooze prepared ok =>
    rw [(Remindi.snooze_ok (snoozeItem_ok ok).1).2.2]
  | cancel prepared ok =>
    rw [(Remindi.cancel_ok (cancelItem_ok ok).1).2]
  | update prepared ok =>
    obtain ⟨triggered, recurred, moved, steps, hitem, -, -⟩ := updateItem_ok ok
    rw [hitem]
    refine bumpVersion_version ?_
    rw [steps.disposition.version, steps.recurrence.eq]
    exact steps.trigger.version

end

section

variable {x : Externals} {s : System} {label : Label} {before : Option Remindi} {after : Remindi}
  {types : List EventType}

/-- Every operation takes one step of the version. -/
theorem Change.version (h : Change x s label before after types) :
    after.version = (before.map (·.version)).getD 0 + 1 := by
  cases h with
  | add prepared fires => rfl
  | operate target operates => exact operates.version
  | check hpending hitem evaluated => exact evaluated.version
  | poll hpoll hcandidates evaluated => exact evaluated.version

theorem Change.types_ne_nil (h : Change x s label before after types) : types ≠ [] := by
  cases h with
  | add prepared fires => simp
  | operate target operates => simp
  | check hpending hitem evaluated => exact evaluated.ne_nil
  | poll hpoll hcandidates evaluated => exact evaluated.ne_nil

/-- Seen from an item, a step has done nothing or one operation. -/
def StepView (x : Externals) (s : System) (label : Label) (view view' : ItemView) : Prop :=
  view' = view ∨
    ∃ before after types, Change x s label before after types ∧
      Recorded view view' before after types

theorem StepView.fresh {prior : Remindi}
    (h : StepView x s label (db.view prior.id) (db'.view prior.id)) (hfresh : Fresh db prior) :
    Fresh db' prior := by
  rcases h with hview | ⟨before, after, types, hchange, hrecorded⟩
  · exact hfresh.of_view hview
  · obtain ⟨row, hrow, hle, -⟩ := hfresh
    have hbefore : before = some row := hrecorded.rowBefore.symm.trans hrow
    have hversion := hchange.version
    rw [hbefore] at hversion
    dsimp only [Option.map_some, Option.getD_some] at hversion
    exact ⟨after, hrecorded.rowAfter, by omega, fun e => by omega⟩

end

/-! ## Work in flight -/

/-- What holds of the work in flight of every reachable system. -/
structure InFlight (x : Externals) (s : System) : Prop where
  checkers : ∀ pending ∈ s.checks, pending.service.externals = x
  pollers : ∀ poll ∈ s.polls, poll.service.externals = x
  checks : ∀ pending ∈ s.checks, ∀ item ∈ pending.ready, Fresh s.db item.prior
  distinct : ∀ pending ∈ s.checks, (pending.ready.map (·.prior.id)).Nodup
  polls : ∀ poll ∈ s.polls, ∀ candidate ∈ poll.candidates, Fresh s.db candidate

theorem InFlight.start {x : Externals} : InFlight x .start where
  checkers := by simp [System.start]
  pollers := by simp [System.start]
  checks := by simp [System.start]
  distinct := by simp [System.start]
  polls := by simp [System.start]

/-- The transaction of a check, seen from any item. -/
theorem persistReady_ok {service : RemindiService} {actor : Actor} {now : OffsetDateTime}
    {context : CheckContext} {ready : List (ReadyItem now context)} {env : Env} {n m : Nat}
    {items : List CheckedItem} (hdistinct : (ready.map (·.prior.id)).Nodup)
    (hfresh : ∀ item ∈ ready, Fresh db item.prior)
    (h : service.persistReady actor ready env n db = .ok (items, m, db')) (id : Uuid) :
    db'.view id = db.view id ∨ ∃ item ∈ ready, ∃ candidate types,
      Evaluated item.prior now candidate types ∧ item.prior.id = id ∧
      Recorded (db.view id) (db'.view id) (some item.prior)
        (candidate.writtenOver service.externals item.prior) types := by
  induction ready generalizing n m db items with
  | nil =>
    obtain ⟨-, -, rfl⟩ := Txn.pure_ok.mp h
    exact Or.inl rfl
  | cons item rest ih =>
    obtain ⟨hitem, hrest⟩ := List.nodup_cons.mp hdistinct
    obtain ⟨hfreshItem, hfreshRest⟩ := List.forall_mem_cons.mp hfresh
    have hother : ∀ other ∈ rest, other.prior.id ≠ item.prior.id := fun other hmem e =>
      hitem (List.mem_map.mpr ⟨other, hmem, e⟩)
    unfold RemindiService.persistReady at h
    split at h
    · obtain ⟨_, _, _, hpersist, h⟩ := Txn.bind_ok.mp h
      obtain ⟨-, -, rfl⟩ := Txn.pure_ok.mp h
      rcases ih hrest hfreshRest hpersist with hview | ⟨item', hmem, h⟩
      · exact Or.inl hview
      · exact Or.inr ⟨item', List.mem_cons_of_mem _ hmem, h⟩
    next hempty =>
    obtain ⟨checked, _, db₁, hhead, h⟩ := Txn.bind_ok.mp h
    obtain ⟨_, _, db₂, htail, h⟩ := Txn.bind_ok.mp h
    obtain ⟨-, -, rfl⟩ := Txn.pure_ok.mp h
    have hevents : item.events ≠ [] := fun e => hempty (List.isEmpty_iff.mpr e)
    have hevaluated := item.toEvaluated hevents
    -- the head leaves every other item of the page as it was read
    have hviewHead : ∀ k, db₁.view k = db.view k ∨ item.prior.id = k ∧
        Recorded (db.view k) (db₁.view k) (some item.prior)
          (item.checked.remindi.writtenOver service.externals item.prior) item.events := by
      intro k
      rcases persistEvaluated_ok hhead with rfl | ⟨old, hpersisted⟩
      · exact Or.inl rfl
      · exact hpersisted.view hevaluated.sameSchedule.id hfreshItem k
    have honly : ∀ k, k ≠ item.prior.id → db₁.view k = db.view k := fun k hk =>
      (hviewHead k).resolve_right fun hhead => hk hhead.1.symm
    have hfresh₁ : ∀ other ∈ rest, Fresh db₁ other.prior := fun other hmem =>
      (hfreshRest other hmem).of_view (honly _ (hother other hmem))
    have htailView := ih hrest hfresh₁ htail
    by_cases hid : id = item.prior.id
    · -- no later item of the page is this one
      have hkeep : db₂.view id = db₁.view id := by
        rcases htailView with hview | ⟨other, hmem, _, _, -, hotherId, -⟩
        · exact hview
        · exact absurd (hotherId.trans hid) (hother other hmem)
      rw [hkeep]
      rcases hviewHead id with hview | ⟨-, hrecorded⟩
      · exact Or.inl hview
      · exact Or.inr ⟨item, List.mem_cons_self, _, _, hevaluated, hid.symm, hrecorded⟩
    · rw [← honly id hid]
      rcases htailView with hview | ⟨other, hmem, h⟩
      · exact Or.inl hview
      · exact Or.inr ⟨other, List.mem_cons_of_mem _ hmem, h⟩

/-! ## The step -/

section

variable {x : Externals} {s : System}

theorem step_checkPersist_none {index : Nat} {env : Env} (h : s.checks[index]? = none) :
    step x s (.checkPersist index env) = (s, .idle) := by
  simp only [step, h]

theorem step_checkPersist_some {index : Nat} {env : Env} {pending : RemindiService.PendingCheck}
    (h : s.checks[index]? = some pending) :
    (step x s (.checkPersist index env)).1 =
      { s with
        db := ((RemindiService.checkPersist pending).run env s.db).2
        checks := s.checks.eraseIdx index } := by
  simp only [step, h]

theorem step_pollApply_none {index : Nat} {adapters : RemindiService.AdapterProvider} {env : Env}
    (h : s.polls[index]? = none) : step x s (.pollApply index adapters env) = (s, .idle) := by
  simp only [step, h]

theorem step_pollApply_nil {index : Nat} {adapters : RemindiService.AdapterProvider} {env : Env}
    {poll : PendingPoll} (h : s.polls[index]? = some poll) (hnil : poll.candidates = []) :
    step x s (.pollApply index adapters env) =
      ({ s with polls := s.polls.eraseIdx index }, .idle) := by
  simp only [step, h, hnil]

theorem step_pollApply_cons {index : Nat} {adapters : RemindiService.AdapterProvider} {env : Env}
    {poll : PendingPoll} {prior : Remindi} {rest : List Remindi} (h : s.polls[index]? = some poll)
    (hcons : poll.candidates = prior :: rest) :
    (step x s (.pollApply index adapters env)).1 =
      { s with
        db := ((poll.service.applySchedulerEvaluation poll.actor prior poll.now adapters).run
          env s.db).2
        polls := s.polls.set index { poll with candidates := rest } } := by
  simp only [step, h, hcons]

theorem step_view_call (ownerId : String) (actor : Actor) (call : Call) (env : Env) (id : Uuid) :
    StepView x s (.call ownerId actor call env) (s.db.view id)
      ((step x s (.call ownerId actor call env)).1.db.view id) := by
  show StepView x s _ _ (Db.view (Txn.run _ env s.db).2 id)
  rcases hrun : (RemindiService.perform ⟨x, ownerId⟩ actor call).run env s.db with ⟨_ | response, db'⟩
  · rw [Txn.run_error hrun]
    exact Or.inl rfl
  obtain ⟨m, hok⟩ := Txn.run_ok.mp hrun
  obtain ⟨hash, -, hreplayed | hexecuted⟩ := perform_ok hok
  · rw [hreplayed.unchanged]
    exact Or.inl rfl
  cases hexecuted with
  | added prepared added =>
    by_cases hid : id = response.remindi.id
    · subst hid
      have hrecorded := added.recorded
      obtain ⟨id, nextFireAt, now, hfires, hitem⟩ := added.built
      refine Or.inr ⟨_, _, _, ?_, hrecorded⟩
      rw [hitem]
      exact .add prepared hfires
    · exact Or.inl (added.only id hid)
  | @mutated _ _ _ prior mutation target operates mutated =>
    have hsame := operates.sameItem.id
    by_cases hid : id = prior.id
    · subst hid
      refine Or.inr ⟨_, _, _, .operate ?_ operates, mutated.recorded hsame⟩
      rw [target, mutated.id, mutated.version]
      rfl
    · exact Or.inl (mutated.only hsame id hid)

theorem step_view_checkPersist (hs : InFlight x s) (index : Nat) (env : Env) (id : Uuid) :
    StepView x s (.checkPersist index env) (s.db.view id)
      ((step x s (.checkPersist index env)).1.db.view id) := by
  cases hpending : s.checks[index]? with
  | none =>
    rw [step_checkPersist_none hpending]
    exact Or.inl rfl
  | some pending =>
    rw [step_checkPersist_some hpending]
    dsimp only
    have hmem := List.mem_of_getElem? hpending
    rcases hrun : (RemindiService.checkPersist pending).run env s.db with ⟨_ | result, db'⟩
    · rw [Txn.run_error hrun]
      exact Or.inl rfl
    obtain ⟨m, h⟩ := Txn.run_ok.mp hrun
    unfold RemindiService.checkPersist at h
    obtain ⟨_, _, _, hbegin, h⟩ := Txn.bind_ok.mp h
    obtain rfl := Tx.database_ok hbegin
    obtain ⟨_, _, _, hready, h⟩ := Txn.bind_ok.mp h
    obtain ⟨_, _, _, hcommit, h⟩ := Txn.bind_ok.mp h
    obtain rfl := Tx.database_ok hcommit
    obtain ⟨-, -, rfl⟩ := Txn.pure_ok.mp h
    rcases persistReady_ok (hs.distinct pending hmem) (hs.checks pending hmem) hready id with
      hview | ⟨item, hitem, candidate, types, hevaluated, -, hrecorded⟩
    · exact Or.inl hview
    · rw [hs.checkers pending hmem] at hrecorded
      exact Or.inr ⟨_, _, _, .check hpending hitem hevaluated, hrecorded⟩

theorem step_view_pollApply (hs : InFlight x s) (index : Nat)
    (adapters : RemindiService.AdapterProvider) (env : Env) (id : Uuid) :
    StepView x s (.pollApply index adapters env) (s.db.view id)
      ((step x s (.pollApply index adapters env)).1.db.view id) := by
  cases hpoll : s.polls[index]? with
  | none =>
    rw [step_pollApply_none hpoll]
    exact Or.inl rfl
  | some poll =>
  cases hcandidates : poll.candidates with
  | nil =>
    rw [step_pollApply_nil hpoll hcandidates]
    exact Or.inl rfl
  | cons prior rest =>
    have hmem := List.mem_of_getElem? hpoll
    have hfresh := hs.polls poll hmem prior (by rw [hcandidates]; exact List.mem_cons_self)
    rw [step_pollApply_cons hpoll hcandidates]
    dsimp only
    rcases hrun : (poll.service.applySchedulerEvaluation poll.actor prior poll.now adapters).run
      env s.db with ⟨_ | result, db'⟩
    · rw [Txn.run_error hrun]
      exact Or.inl rfl
    obtain ⟨m, h⟩ := Txn.run_ok.mp hrun
    rcases applySchedulerEvaluation_ok h with rfl | ⟨candidate, types, old, hevaluated, hpersisted⟩
    · exact Or.inl rfl
    rcases hpersisted.view hevaluated.sameSchedule.id hfresh id with hview | ⟨-, hrecorded⟩
    · exact Or.inl hview
    · rw [hs.pollers poll hmem] at hrecorded
      exact Or.inr ⟨_, _, _, .poll hpoll hcandidates hevaluated, hrecorded⟩

/-- **A step changes nothing of an item, or it is one committed operation on it.** -/
theorem step_view (hs : InFlight x s) (label : Label) (id : Uuid) :
    StepView x s label (s.db.view id) ((step x s label).1.db.view id) := by
  cases label with
  | call ownerId actor call env => exact step_view_call ownerId actor call env id
  | checkPersist index env => exact step_view_checkPersist hs index env id
  | pollApply index adapters env => exact step_view_pollApply hs index adapters env id
  | checkRead ownerId actor request env =>
    refine Or.inl ?_
    unfold step
    dsimp only
    split
    · rfl
    · split <;> rfl
  | pollRead ownerId actor limit env =>
    refine Or.inl ?_
    unfold step
    dsimp only
    split <;> rfl

/-- The checks after a step were there before it, or have just read their rows. -/
theorem step_checks (label : Label) {pending : RemindiService.PendingCheck}
    (h : pending ∈ (step x s label).1.checks) :
    pending ∈ s.checks ∨
      pending.service.externals = x ∧ ReadFrom s.db (pending.ready.map (·.prior)) := by
  cases label with
  | call ownerId actor call env => exact Or.inl h
  | checkPersist index env =>
    cases hpending : s.checks[index]? with
    | none =>
      rw [step_checkPersist_none hpending] at h
      exact Or.inl h
    | some pending' =>
      rw [step_checkPersist_some hpending] at h
      exact Or.inl (List.mem_of_mem_eraseIdx h)
  | pollApply index adapters env =>
    cases hpoll : s.polls[index]? with
    | none =>
      rw [step_pollApply_none hpoll] at h
      exact Or.inl h
    | some poll =>
      cases hcandidates : poll.candidates with
      | nil =>
        rw [step_pollApply_nil hpoll hcandidates] at h
        exact Or.inl h
      | cons prior rest =>
        rw [step_pollApply_cons hpoll hcandidates] at h
        exact Or.inl h
  | checkRead ownerId actor request env =>
    unfold step at h
    dsimp only at h
    split at h
    · exact Or.inl h
    next pending' db' hrun =>
    obtain ⟨m, hok⟩ := Txn.run_ok.mp hrun
    split at h
    · exact Or.inl h
    · rcases List.mem_append.mp h with h | h
      · exact Or.inl h
      · obtain rfl := List.mem_singleton.mp h
        obtain ⟨-, hservice, hread⟩ := checkRead_ok hok
        exact Or.inr ⟨congrArg RemindiService.externals hservice, hread⟩
  | pollRead ownerId actor limit env =>
    unfold step at h
    dsimp only at h
    split at h <;> exact Or.inl h

/-- The polls after a step were there before it, or have just read their candidates. -/
theorem step_polls (label : Label) {poll : PendingPoll} (h : poll ∈ (step x s label).1.polls) :
    (∃ poll' ∈ s.polls, poll.service = poll'.service ∧
        ∀ candidate ∈ poll.candidates, candidate ∈ poll'.candidates) ∨
      poll.service.externals = x ∧ ∀ candidate ∈ poll.candidates, candidate ∈ s.db.remindi.rows := by
  have hsame : poll ∈ s.polls → ∃ poll' ∈ s.polls, poll.service = poll'.service ∧
      ∀ candidate ∈ poll.candidates, candidate ∈ poll'.candidates :=
    fun h => ⟨poll, h, rfl, fun _ hc => hc⟩
  cases label with
  | call ownerId actor call env => exact Or.inl (hsame h)
  | checkPersist index env =>
    cases hpending : s.checks[index]? with
    | none =>
      rw [step_checkPersist_none hpending] at h
      exact Or.inl (hsame h)
    | some pending =>
      rw [step_checkPersist_some hpending] at h
      exact Or.inl (hsame h)
  | pollApply index adapters env =>
    cases hpoll : s.polls[index]? with
    | none =>
      rw [step_pollApply_none hpoll] at h
      exact Or.inl (hsame h)
    | some poll' =>
      cases hcandidates : poll'.candidates with
      | nil =>
        rw [step_pollApply_nil hpoll hcandidates] at h
        exact Or.inl (hsame (List.mem_of_mem_eraseIdx h))
      | cons prior rest =>
        rw [step_pollApply_cons hpoll hcandidates] at h
        rcases List.mem_or_eq_of_mem_set h with h | rfl
        · exact Or.inl (hsame h)
        · refine Or.inl ⟨poll', List.mem_of_getElem? hpoll, rfl, fun candidate hc => ?_⟩
          rw [hcandidates]
          exact List.mem_cons_of_mem _ hc
  | checkRead ownerId actor request env =>
    unfold step at h
    dsimp only at h
    split at h
    · exact Or.inl (hsame h)
    · split at h <;> exact Or.inl (hsame h)
  | pollRead ownerId actor limit env =>
    unfold step at h
    dsimp only at h
    split at h
    · exact Or.inl (hsame h)
    next now candidates db' hrun =>
    obtain ⟨m, hok⟩ := Txn.run_ok.mp hrun
    rcases List.mem_append.mp h with h | h
    · exact Or.inl (hsame h)
    · obtain rfl := List.mem_singleton.mp h
      exact Or.inr ⟨rfl, (schedulerCandidates_ok hok).2.stored⟩

theorem step_fresh (hs : InFlight x s) (label : Label) {prior : Remindi} (h : Fresh s.db prior) :
    Fresh (step x s label).1.db prior :=
  (step_view hs label prior.id).fresh h

/-- **Every step keeps the work in flight sound.** -/
theorem step_inFlight (hs : InFlight x s) (label : Label) : InFlight x (step x s label).1 where
  checkers pending hpending := by
    rcases step_checks label hpending with h | ⟨hreader, -⟩
    · exact hs.checkers pending h
    · exact hreader
  pollers poll hpoll := by
    rcases step_polls label hpoll with ⟨poll', hpoll', hservice, -⟩ | ⟨hreader, -⟩
    · exact (congrArg RemindiService.externals hservice).trans (hs.pollers poll' hpoll')
    · exact hreader
  checks pending hpending item hitem := by
    refine step_fresh hs label ?_
    rcases step_checks label hpending with h | ⟨-, hread⟩
    · exact hs.checks pending h item hitem
    · exact .of_mem (hread.stored _ (List.mem_map_of_mem hitem))
  distinct pending hpending := by
    rcases step_checks label hpending with h | ⟨-, hread⟩
    · exact hs.distinct pending h
    · simpa [Function.comp_def] using hread.nodup
  polls poll hpoll candidate hcandidate := by
    refine step_fresh hs label ?_
    rcases step_polls label hpoll with ⟨poll', hpoll', -, h⟩ | ⟨-, hstored⟩
    · exact hs.polls poll' hpoll' candidate (h candidate hcandidate)
    · exact .of_mem (hstored candidate hcandidate)

theorem inFlight_runOf (labels : List Label) : InFlight x (runOf x labels) :=
  Machine.invariant_final InFlight.start (fun _ label hs => step_inFlight hs label) labels

/-! ## Invariants of the store -/

theorem persistReady_preserves {I : Db → Prop} (service : RemindiService) (actor : Actor)
    {now : OffsetDateTime} {context : CheckContext} (ready : List (ReadyItem now context))
    (hI : ∀ {x db db' prior old candidate types},
      Persisted x db db' prior old candidate types → I db → I db') :
    Txn.Preserves I (service.persistReady actor ready) := by
  induction ready with
  | nil => exact Txn.Preserves.pure _
  | cons item rest ih =>
    unfold RemindiService.persistReady
    split
    · exact .bind ih fun _ => .pure _
    · refine .bind ?_ fun _ => .bind ih fun _ => .pure _
      intro env n db checked m db' h hdb
      rcases persistEvaluated_ok h with rfl | ⟨old, hpersisted⟩
      · exact hdb
      · exact hI hpersisted hdb

/-- What stored evaluations keep is kept by every step that is not a call. -/
theorem step_preserves {I : Db → Prop} (label : Label)
    (hI : ∀ {x db db' prior old candidate types},
      Persisted x db db' prior old candidate types → I db → I db')
    (hcall : ∀ ownerId actor call env, label ≠ .call ownerId actor call env) (hs : I s.db) :
    I (step x s label).1.db := by
  cases label with
  | call ownerId actor call env => exact absurd rfl (hcall ownerId actor call env)
  | checkPersist index env =>
    cases hpending : s.checks[index]? with
    | none =>
      rw [step_checkPersist_none hpending]
      exact hs
    | some pending =>
      rw [step_checkPersist_some hpending]
      have hdatabase : Txn.Preserves I Tx.database := by
        intro env n db u m db' h hdb
        obtain rfl := Tx.database_ok h
        exact hdb
      refine Txn.Preserves.run (.bind hdatabase fun _ => ?_) hs
      exact .bind (persistReady_preserves _ _ _ hI) fun _ => .bind hdatabase fun _ => .pure _
  | pollApply index adapters env =>
    cases hpoll : s.polls[index]? with
    | none =>
      rw [step_pollApply_none hpoll]
      exact hs
    | some poll =>
      cases hcandidates : poll.candidates with
      | nil =>
        rw [step_pollApply_nil hpoll hcandidates]
        exact hs
      | cons prior rest =>
        rw [step_pollApply_cons hpoll hcandidates]
        refine Txn.Preserves.run ?_ hs
        intro env n db u m db' h hdb
        rcases applySchedulerEvaluation_ok h with rfl | ⟨_, _, _, -, hpersisted⟩
        · exact hdb
        · exact hI hpersisted hdb
  | checkRead ownerId actor request env =>
    unfold step
    dsimp only
    split
    · exact hs
    · split <;> exact hs
  | pollRead ownerId actor limit env =>
    unfold step
    dsimp only
    split <;> exact hs

/-- A property of rows that every recorded operation keeps holds of all stored rows. -/
theorem rows_recorded {R : Remindi → Prop}
    (hchange : ∀ {s label before after types view view'}, Change x s label before after types →
      Recorded view view' before after types → (∀ prior, before = some prior → R prior) →
      R after) (labels : List Label) :
    ∀ id row, (runOf x labels).db.remindi.find? id = some row → R row := by
  refine (Machine.invariant_final (s := System.start) (I := fun s => InFlight x s ∧
    ∀ id row, s.db.remindi.find? id = some row → R row) ⟨InFlight.start, ?_⟩ ?_ labels).2
  · intro id row h
    cases h
  · rintro s label ⟨hs, hrows⟩
    refine ⟨step_inFlight hs label, fun id row h => ?_⟩
    rcases step_view hs label id with hview | ⟨before, after, types, hop, hrecorded⟩
    · exact hrows id row ((congrArg ItemView.row hview).symm.trans h)
    · obtain rfl := Option.some.inj (hrecorded.rowAfter.symm.trans h)
      refine hchange hop hrecorded fun prior hprior => hrows id prior ?_
      rw [← hprior]
      exact hrecorded.rowBefore

/-- The same for what the operations keep by themselves. -/
theorem rows_invariant {R : Remindi → Prop}
    (hchange : ∀ {s label before after types}, Change x s label before after types →
      (∀ prior, before = some prior → R prior) → R after) (labels : List Label) :
    ∀ id row, (runOf x labels).db.remindi.find? id = some row → R row :=
  rows_recorded (fun hop _ hbefore => hchange hop hbefore) labels

/-- **The times of every stored row are what the columns hold.** -/
theorem stored_columns (labels : List Label) : (runOf x labels).db.Columns := fun row hrow =>
  rows_recorded (R := Remindi.Columns) (fun _ hrecorded _ => hrecorded.columns) labels row.id row
    (Table.find?_of_mem hrow)

theorem step_sequenced (label : Label) (hs : Sequenced s.db.events.rows) :
    Sequenced (step x s label).1.db.events.rows := by
  cases label with
  | call ownerId actor call env =>
    show Sequenced (Txn.run _ env s.db).2.events.rows
    rcases hrun : (RemindiService.perform ⟨x, ownerId⟩ actor call).run env s.db with
      ⟨_ | response, db'⟩
    · rw [Txn.run_error hrun]
      exact hs
    obtain ⟨m, hok⟩ := Txn.run_ok.mp hrun
    obtain ⟨hash, -, hreplayed | hexecuted⟩ := perform_ok hok
    · rw [← hreplayed.unchanged]
      exact hs
    cases hexecuted with
    | added prepared added =>
      obtain ⟨row, hevents, -, -, -, -, hrow, -⟩ := added.event
      dsimp only
      rw [hevents]
      exact hs.append hrow
    | mutated target operates mutated =>
      obtain ⟨row, hevents, -, -, -, -, hrow, -⟩ := mutated.event
      dsimp only
      rw [hevents]
      exact hs.append hrow
  | _ =>
    exact step_preserves (I := fun db => Sequenced db.events.rows) _
      (fun hpersisted => hpersisted.sequenced) (fun _ _ _ _ => by simp) hs

end

end RemindiCore
