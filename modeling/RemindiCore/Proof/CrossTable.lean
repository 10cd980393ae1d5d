import RemindiCore.Proof.Coherence
import RemindiCore.Admin.Verify

/-!
# Invariants across the tables

What the schema does not enforce: a completed item has evidence and no other
has, and a goal trigger stands beside exactly one goal link.  `Consistent` says
so of the view of one item.  A call keeps it by what it executes, and every
other step keeps the links, the evidence, the trigger and an open state.
-/

namespace RemindiCore

open CivilTime JsonText KeyedTable Transaction

/-! ## The invariant -/

/-- The links, the evidence and the row of one item fit together. -/
structure Consistent (view : ItemView) : Prop where
  evidence : view.evidence.isSome = true ↔ ∃ row, view.row = some row ∧ row.state = .completed
  goal : ∀ row goalId, view.row = some row → row.trigger = .goalActive goalId →
    view.linked.filter (fun link => link.1 = .goal) = [(.goal, goalId)]

/-- A store keeps at most one evidence row for an item. -/
theorem evidenceCount_eq_one (db : Db) (id : Uuid) :
    Admin.evidenceCount db id = 1 ↔ (db.view id).evidence.isSome = true := by
  show _ ↔ (db.evidence.find? id).isSome = true
  cases hfound : db.evidence.find? id with
  | none =>
    have hzero : Admin.evidenceCount db id = 0 := by
      refine List.countP_eq_zero.mpr fun row hrow => ?_
      simpa using Table.find?_eq_none.mp hfound row hrow
    simp [hzero]
  | some row =>
    obtain ⟨hmem, hkey⟩ := Table.find?_eq_some.mp hfound
    have hcount := List.nodup_iff_count_le_one.mp db.evidence.nodup id
    have hpos : 0 < Admin.evidenceCount db id :=
      List.countP_pos_iff.mpr ⟨row, hmem, by simpa using hkey⟩
    rw [List.count, List.countP_map] at hcount
    have hsame : Admin.evidenceCount db id =
        List.countP ((fun k => k == id) ∘ CompletionEvidence.remindiId) db.evidence.rows := by
      refine List.countP_congr fun other _ => ?_
      simp
    simp only [Option.isSome_some, iff_true]
    omega

/-! ## Goal links -/

/-- **A validated goal link is the only one.** -/
theorem validateGoalLink_ok {trigger : Trigger} {values : List LinkInput} {goalId : String}
    (h : validateGoalLink trigger values = .ok ()) (htrigger : trigger = .goalActive goalId) :
    (values.map fun link => (link.linkType, link.value)).filter (fun link => link.1 = .goal) =
      [(.goal, goalId)] := by
  subst htrigger
  unfold validateGoalLink at h
  dsimp only at h
  split at h
  · next hcounts =>
    obtain ⟨hmatching, hgoals⟩ := hcounts
    rw [List.filter_map]
    have hlength : (values.filter fun link => link.linkType = .goal).length = 1 := by
      rw [← List.countP_eq_length_filter]
      exact hgoals
    obtain ⟨link, hlink⟩ := List.length_eq_one_iff.mp hlength
    have hvalue : link.linkType = .goal ∧ link.value = goalId := by
      obtain ⟨other, hother, hgoal⟩ := List.countP_pos_iff.mp (lt_of_lt_of_eq Nat.one_pos hmatching.symm)
      have hgoal : other.linkType = .goal ∧ other.value = goalId := by simpa using hgoal
      have hmem : other ∈ values.filter fun link => link.linkType = .goal :=
        List.mem_filter.mpr ⟨hother, decide_eq_true hgoal.1⟩
      rw [hlink] at hmem
      rw [← List.mem_singleton.mp hmem]
      exact hgoal
    show List.map _ (values.filter fun link => link.linkType = .goal) = _
    rw [hlink, List.map_singleton, hvalue.1, hvalue.2]
  · cases h

theorem validateNewGoal_ok {trigger : Trigger} {links : Option (List LinkInput)} {goalId : String}
    (h : validateNewGoal (some trigger) links = .ok ()) (htrigger : trigger = .goalActive goalId) :
    links.isSome = true := by
  subst htrigger
  cases links with
  | none => cases h
  | some values => rfl

theorem whenSome_ok {α : Type} {check : α → Except ServiceError Unit} {value : Option α} {a : α}
    (h : whenSome value check = .ok ()) (hsome : value = some a) : check a = .ok () := by
  subst hsome
  exact h

theorem prepareAdd_goal {actor : Actor} {raw request : AddRequest}
    (h : prepareAdd actor raw = .ok request) :
    validateGoalLink request.trigger request.links = .ok () := by
  unfold prepareAdd at h
  simp only [except_bind_ok] at h
  obtain ⟨_, -, _, -, _, -, _, -, _, -, _, -, _, -, _, -, _, -, _, -, _, -, _, -, _, hgoal, h⟩ := h
  cases h
  exact hgoal

theorem prepareUpdate_goal {actor : Actor} {raw request : UpdateRequest}
    (h : prepareUpdate actor raw = .ok request) :
    validateNewGoal request.trigger request.links = .ok () := by
  unfold prepareUpdate at h
  simp only [except_bind_ok] at h
  obtain ⟨_, -, _, -, _, -, _, -, _, -, _, -, _, -, _, -, _, -, _, -, _, hgoal, h⟩ := h
  cases h
  exact hgoal

/-- What an update says about the links. -/
theorem updateItem_links {request : UpdateRequest} {now : OffsetDateTime} {prior : Remindi}
    {mutation : Mutation} (h : updateItem request now prior = .ok mutation) :
    mutation.replacementLinks = request.links.map (fun values => links values now) ∧
      mutation.item.trigger = request.trigger.getD prior.trigger ∧
      ∀ values, request.links = some values →
        validateGoalLink mutation.item.trigger values = .ok () := by
  have htrigger := updateItem_trigger h
  unfold updateItem at h
  split at h
  · cases h
  split at h
  · cases h
  obtain ⟨_, -, h⟩ := except_bind_ok.mp h
  obtain ⟨⟨changed, skipped⟩, -, h⟩ := except_bind_ok.mp h
  obtain ⟨_, hgoal, h⟩ := except_bind_ok.mp h
  obtain ⟨_, -, h⟩ := except_bind_ok.mp h
  cases h
  exact ⟨rfl, htrigger, fun values hvalues => whenSome_ok hgoal hvalues⟩

/-! ## Open items -/

section

variable {prior after : Remindi} {now : OffsetDateTime} {events : List EventType}

theorem ne_completed_of_active {state : RemindiState} (h : state.isActive = true) :
    state ≠ .completed := by
  rintro rfl
  cases h

/-- An evaluation is of an open item, and leaves it open. -/
theorem Evaluated.isOpen (h : Evaluated prior now after events) :
    prior.state.isActive = true ∧ after.state.isActive = true := by
  obtain ⟨evaluation, -, detail⟩ := h
  rename_i condition evaluated result
  have hopen : prior.state.isActive = true ∧ evaluated.state.isActive = true := by
    cases evaluation with
    | asleep hstate => simp [Remindi.checkedAt, hstate, RemindiState.isActive]
    | awoken hstate overdue => cases overdue <;> simp [hstate, RemindiState.isActive]
    | stays hstate readiness =>
      rcases hstate with hstate | hstate <;> simp [Remindi.checkedAt, hstate, RemindiState.isActive]
    | becomesOverdue hstate => simp [hstate, RemindiState.isActive]
    | waits hstate observation =>
      rw [observation.only]
      simp [Remindi.checkedAt, hstate, RemindiState.isActive]
    | becomesDue hstate observation readiness => simp [hstate, RemindiState.isActive]
  refine ⟨hopen.1, ?_⟩
  unfold RemindiService.evaluatedVersion
  split <;> exact hopen.2

/-- An update leaves an open item open. -/
theorem UpdateSteps.isOpen {request : UpdateRequest} {triggered recurred moved : Remindi}
    (h : UpdateSteps request now prior triggered recurred moved) : moved.state.isActive = true := by
  have htriggered : triggered.state.isActive = true := by
    cases h.trigger with
    | keep hnone => exact h.active
    | install hsome hnext hactive hvalid =>
      unfold installed Remindi.resetSnooze
      split
      · rfl
      · exact h.active
  have hrecurred : recurred.state.isActive = true := by
    rw [h.recurrence.eq]
    exact htriggered
  cases h.disposition with
  | keep hnone => exact hrecurred
  | advance hsome hspec hanchor hadvance => rfl

/-- **A call works on an open item**, and completes it exactly when it brings evidence. -/
theorem Operates.isOpen {actor : Actor} {call : Call} {mutation : Mutation}
    (h : Operates actor now prior call mutation) :
    prior.state.isActive = true ∧
      (mutation.evidence.isSome = true ↔ mutation.item.state = .completed) := by
  cases h with
  | complete prepared validated ok =>
    obtain ⟨hcomplete, hevidence, -⟩ := completeItem_ok ok
    obtain ⟨hactive, hitem⟩ := Remindi.complete_ok hcomplete
    simp [hactive, hevidence, hitem]
  | snooze prepared ok =>
    obtain ⟨hsnooze, hevidence, -⟩ := snoozeItem_ok ok
    obtain ⟨hstate, -, hitem⟩ := Remindi.snooze_ok hsnooze
    rcases hstate with hstate | hstate <;> simp [hstate, hevidence, hitem, RemindiState.isActive]
  | cancel prepared ok =>
    obtain ⟨hcancel, hevidence, -⟩ := cancelItem_ok ok
    obtain ⟨hactive, hitem⟩ := Remindi.cancel_ok hcancel
    simp [hactive, hevidence, hitem]
  | update prepared ok =>
    obtain ⟨triggered, recurred, moved, steps, hitem, -, hevidence⟩ := updateItem_ok ok
    have hstate : mutation.item.state = moved.state := by
      rw [hitem]
      unfold bumpVersion
      split <;> rfl
    refine ⟨steps.active, ?_⟩
    rw [hevidence, hstate]
    exact iff_of_false (by simp) (ne_completed_of_active steps.isOpen)

/-- **A completed or cancelled item is never operated on.** -/
theorem Change.isOpen {x : Externals} {s : System} {label : Label} {types : List EventType}
    (h : Change x s label (some prior) after types) : prior.state.isActive = true := by
  cases h with
  | operate target operates => exact operates.isOpen.1
  | check hpending hitem evaluated => exact evaluated.isOpen.1
  | poll hpoll hcandidates evaluated => exact evaluated.isOpen.1

end

/-! ## Calls -/

section

variable {db db' : Db} {service : RemindiService} {actor : Actor}

theorem Consistent.evidence_none {view : ItemView} (h : Consistent view)
    (hopen : ∀ row, view.row = some row → row.state ≠ .completed) : view.evidence = none := by
  rw [← Option.not_isSome_iff_eq_none, h.evidence]
  rintro ⟨row, hrow, hstate⟩
  exact hopen row hrow hstate

/-- The trigger and the links of an item that a call leaves. -/
theorem Operates.goal {now : OffsetDateTime} {prior : Remindi} {call : Call} {mutation : Mutation}
    {linked : List (LinkType × String)} (h : Operates actor now prior call mutation)
    (hbefore : ∀ goalId, prior.trigger = .goalActive goalId →
      linked.filter (fun link => link.1 = .goal) = [(.goal, goalId)])
    (goalId : String) (htrigger : mutation.item.trigger = .goalActive goalId) :
    (relinked linked mutation.replacementLinks).filter (fun link => link.1 = .goal) =
      [(.goal, goalId)] := by
  cases h with
  | complete prepared validated ok =>
    obtain ⟨-, -, hlinks⟩ := completeItem_ok ok
    rw [hlinks]
    exact hbefore goalId ((completeItem_sameSchedule ok).trigger ▸ htrigger)
  | snooze prepared ok =>
    obtain ⟨-, -, hlinks⟩ := snoozeItem_ok ok
    rw [hlinks]
    exact hbefore goalId ((snoozeItem_sameSchedule ok).trigger ▸ htrigger)
  | cancel prepared ok =>
    obtain ⟨-, -, hlinks⟩ := cancelItem_ok ok
    rw [hlinks]
    exact hbefore goalId ((cancelItem_sameSchedule ok).trigger ▸ htrigger)
  | @update raw request _ prepared ok =>
    obtain ⟨hlinks, hnew, hgoal⟩ := updateItem_links ok
    rw [hlinks]
    cases hvalues : request.links with
    | some values =>
      have hvalid := validateGoalLink_ok (hgoal values hvalues) htrigger
      simpa [relinked, links, RemindiLink.content, Function.comp_def] using hvalid
    | none =>
      -- without new links the trigger is the one before, or no goal
      refine hbefore goalId ?_
      cases hrequested : request.trigger with
      | none =>
        rw [hrequested] at hnew
        exact hnew.symm.trans htrigger
      | some trigger =>
        have hvalid := prepareUpdate_goal prepared
        rw [hrequested] at hvalid hnew
        have := validateNewGoal_ok hvalid (hnew.symm.trans htrigger)
        rw [hvalues] at this
        cases this

theorem Added.consistent {raw request : AddRequest} {hash : String} {item : Remindi}
    (h : Added service actor request hash db db' item) (prepared : prepareAdd actor raw = .ok request)
    (hbefore : Consistent (db.view item.id)) : Consistent (db'.view item.id) := by
  have hrecorded := h.recorded
  obtain ⟨id, nextFireAt, now, -, hitem⟩ := h.built
  have hnone : (db'.view item.id).evidence = none := by
    show db'.evidence.find? item.id = none
    rw [h.evidence]
    refine hbefore.evidence_none fun row hrow => ?_
    rw [hrecorded.rowBefore] at hrow
    cases hrow
  refine ⟨?_, fun row goalId hrow htrigger => ?_⟩
  · rw [hnone]
    refine iff_of_false (by simp) ?_
    rintro ⟨row, hrow, hstate⟩
    obtain rfl := Option.some.inj (hrecorded.rowAfter.symm.trans hrow)
    rw [hitem] at hstate
    cases hstate
  · obtain rfl := Option.some.inj (hrecorded.rowAfter.symm.trans hrow)
    rw [h.linked]
    refine validateGoalLink_ok (prepareAdd_goal prepared) ?_
    rw [hitem] at htrigger
    exact (Trigger.mapNumbers_eq_other _ rfl).mp htrigger

theorem evidence_append {id : Uuid} {new : List CompletionEvidence}
    (h : db'.evidence.rows = db.evidence.rows ++ new) (hid : ∀ row ∈ new, row.remindiId = id) :
    (db'.view id).evidence = (db.view id).evidence.or new.head? := by
  show db'.evidence.rows.find? _ = (db.evidence.rows.find? _).or _
  rw [h, List.find?_append]
  congr 1
  cases new with
  | nil => rfl
  | cons row rest => simp [hid row List.mem_cons_self]

theorem Mutated.consistent {call : MutationCall} {prior : Remindi} {mutation : Mutation}
    {now : OffsetDateTime} {operation : Call} (h : Mutated service call db db' prior mutation)
    (operates : Operates actor now prior operation mutation)
    (hbefore : Consistent (db.view prior.id)) : Consistent (db'.view prior.id) := by
  have hrecorded := h.recorded operates.sameItem.id
  obtain ⟨hactive, hcompletes⟩ := operates.isOpen
  obtain ⟨new, hrows, hlength, hnew⟩ := h.evidence
  have hnone : (db.view prior.id).evidence = none := by
    refine hbefore.evidence_none fun row hrow => ?_
    obtain rfl := Option.some.inj (hrecorded.rowBefore.symm.trans hrow)
    exact ne_completed_of_active hactive
  have hafter : (db'.view prior.id).evidence.isSome = mutation.evidence.isSome := by
    rw [evidence_append hrows hnew, hnone, Option.none_or]
    cases hevidence : mutation.evidence with
    | none =>
      rw [hevidence] at hlength
      rw [List.length_eq_zero_iff.mp hlength]
      rfl
    | some evidence =>
      rw [hevidence] at hlength
      obtain ⟨row, rfl⟩ := List.length_eq_one_iff.mp hlength
      rfl
  refine ⟨?_, fun row goalId hrow htrigger => ?_⟩
  · rw [hafter, hcompletes]
    constructor
    · intro hstate
      exact ⟨_, hrecorded.rowAfter, hstate⟩
    · rintro ⟨row, hrow, hstate⟩
      obtain rfl := Option.some.inj (hrecorded.rowAfter.symm.trans hrow)
      exact hstate
  · obtain rfl := Option.some.inj (hrecorded.rowAfter.symm.trans hrow)
    rw [h.linked]
    exact operates.goal (fun goalId htrigger => hbefore.goal prior goalId hrecorded.rowBefore
      htrigger) goalId ((Trigger.mapNumbers_eq_other _ rfl).mp htrigger)

end

/-! ## Every step -/

section

variable {x : Externals} {s : System}

theorem call_consistent (ownerId : String) (actor : Actor) (call : Call) (env : Env) {id : Uuid}
    (h : ∀ id, Consistent (s.db.view id)) :
    Consistent ((step x s (.call ownerId actor call env)).1.db.view id) := by
  show Consistent (Db.view (Txn.run _ env s.db).2 id)
  rcases hrun : (RemindiService.perform ⟨x, ownerId⟩ actor call).run env s.db with ⟨_ | response, db'⟩
  · rw [Txn.run_error hrun]
    exact h id
  obtain ⟨m, hok⟩ := Txn.run_ok.mp hrun
  obtain ⟨hash, -, hreplayed | hexecuted⟩ := perform_ok hok
  · rw [← hreplayed.unchanged]
    exact h id
  cases hexecuted with
  | added prepared added =>
    by_cases hid : id = response.remindi.id
    · subst hid
      exact added.consistent prepared (h _)
    · show Consistent (db'.view id)
      rw [added.only id hid]
      exact h id
  | @mutated _ _ _ prior mutation target operates mutated =>
    by_cases hid : id = prior.id
    · subst hid
      exact mutated.consistent operates (h _)
    · show Consistent (db'.view id)
      rw [mutated.only operates.sameItem.id id hid]
      exact h id

/-- Only calls touch links and evidence. -/
theorem step_tables (label : Label)
    (hcall : ∀ ownerId actor call env, label ≠ .call ownerId actor call env) :
    (step x s label).1.db.links = s.db.links ∧ (step x s label).1.db.evidence = s.db.evidence :=
  step_preserves (I := fun db => db.links = s.db.links ∧ db.evidence = s.db.evidence) label
    (fun hpersisted h => ⟨hpersisted.links.trans h.1, hpersisted.evidence.trans h.2⟩) hcall
    ⟨rfl, rfl⟩

theorem evaluation_consistent (hs : InFlight x s) (label : Label)
    (hcall : ∀ ownerId actor call env, label ≠ .call ownerId actor call env) {id : Uuid}
    (h : Consistent (s.db.view id)) : Consistent ((step x s label).1.db.view id) := by
  rcases step_view (x := x) hs label id with hview | ⟨before, after, types, hchange, hrecorded⟩
  · rw [hview]
    exact h
  obtain ⟨prior, hbefore, hprior, htrigger, hopen⟩ : ∃ prior, before = some prior ∧
      prior.state.isActive = true ∧
        after.trigger = prior.trigger.mapNumbers x.readNumber ∧ after.state.isActive = true := by
    cases hchange with
    | add prepared fires => exact absurd rfl (hcall _ _ _ _)
    | operate target operates => exact absurd rfl (hcall _ _ _ _)
    | check hpending hitem evaluated =>
      exact ⟨_, rfl, evaluated.isOpen.1,
        congrArg (Trigger.mapNumbers x.readNumber) evaluated.sameSchedule.trigger,
        evaluated.isOpen.2⟩
    | poll hpoll hcandidates evaluated =>
      exact ⟨_, rfl, evaluated.isOpen.1,
        congrArg (Trigger.mapNumbers x.readNumber) evaluated.sameSchedule.trigger,
        evaluated.isOpen.2⟩
  have hrow := hrecorded.rowBefore.trans hbefore
  obtain ⟨hlinks, hevidence⟩ := step_tables (x := x) (s := s) label hcall
  have hsame : ((step x s label).1.db.view id).evidence = (s.db.view id).evidence := by
    show (step x s label).1.db.evidence.find? id = s.db.evidence.find? id
    rw [hevidence]
  have hlinked : ((step x s label).1.db.view id).linked = (s.db.view id).linked := by
    unfold ItemView.linked Db.view
    rw [hlinks]
  refine ⟨?_, fun row goalId hafter hgoal => ?_⟩
  · rw [hsame, h.evidence]
    refine iff_of_false ?_ ?_
    · rintro ⟨row, hrow', hstate⟩
      obtain rfl := Option.some.inj (hrow.symm.trans hrow')
      exact ne_completed_of_active hprior hstate
    · rintro ⟨row, hrow', hstate⟩
      obtain rfl := Option.some.inj (hrecorded.rowAfter.symm.trans hrow')
      exact ne_completed_of_active hopen hstate
  · obtain rfl := Option.some.inj (hrecorded.rowAfter.symm.trans hafter)
    rw [hlinked]
    exact h.goal prior goalId hrow
      ((Trigger.mapNumbers_eq_other _ rfl).mp (htrigger.symm.trans hgoal))

theorem step_consistent (hs : InFlight x s) (label : Label) (h : ∀ id, Consistent (s.db.view id))
    (id : Uuid) : Consistent ((step x s label).1.db.view id) := by
  cases label with
  | call ownerId actor call env => exact call_consistent ownerId actor call env h
  | _ => exact evaluation_consistent hs _ (by simp) (h id)

/-- **The tables fit together in every reachable store.** -/
theorem consistent_runOf (labels : List Label) (id : Uuid) :
    Consistent ((runOf x labels).db.view id) := by
  refine (Machine.invariant_final (s := System.start) (I := fun s => InFlight x s ∧
    ∀ id, Consistent (s.db.view id)) ⟨InFlight.start, fun id => ?_⟩ ?_ labels).2 id
  · refine ⟨iff_of_false (by simp [System.start, Db.view, Db.empty, Table.find?]) ?_, ?_⟩
    · rintro ⟨row, hrow, -⟩
      cases hrow
    · intro row goalId hrow
      cases hrow
  · rintro s label ⟨hs, h⟩
    exact ⟨step_inFlight hs label, step_consistent hs label h⟩

/-- A step leaves a completed or cancelled item alone. -/
theorem step_terminal (hs : InFlight x s) (label : Label) {id : Uuid} {row : Remindi}
    (hrow : s.db.remindi.find? id = some row) (hterminal : row.state.isTerminal = true) :
    (step x s label).1.db.view id = s.db.view id := by
  rcases step_view (x := x) hs label id with hview | ⟨before, after, types, hchange, hrecorded⟩
  · exact hview
  obtain rfl : before = some row := hrecorded.rowBefore.symm.trans hrow
  have hactive := hchange.isOpen
  simp [hactive] at hterminal

theorem final_terminal (hs : InFlight x s) {id : Uuid} {row : Remindi}
    (hrow : s.db.remindi.find? id = some row) (hterminal : row.state.isTerminal = true)
    (labels : List Label) : (Machine.final (step x) s labels).db.view id = s.db.view id := by
  refine (Machine.invariant_final (I := fun t => InFlight x t ∧ t.db.view id = s.db.view id)
    ⟨hs, rfl⟩ ?_ labels).2
  rintro t label ⟨ht, hview⟩
  refine ⟨step_inFlight ht label, (step_terminal ht label ?_ hterminal).trans hview⟩
  exact (congrArg ItemView.row hview).trans hrow

/-! ## One owner -/

/-- The owner that a step names; the others go on with what was read. -/
def Label.ownerId : Label → Option String
  | .call ownerId _ _ _ | .checkRead ownerId _ _ _ | .pollRead ownerId _ _ _ => some ownerId
  | .checkPersist _ _ | .pollApply _ _ _ => none

/-- The operations of one owner store items of that owner. -/
theorem owned_runOf {ownerId : String} (labels : List Label)
    (howner : ∀ label ∈ labels, ∀ o ∈ label.ownerId, o = ownerId) {id : Uuid} {row : Remindi}
    (hrow : (runOf x labels).db.remindi.find? id = some row) : row.ownerId = ownerId := by
  refine (Machine.run_induction_on (s := System.start)
    (P := fun ks _ t => (∀ label ∈ ks, ∀ o ∈ label.ownerId, o = ownerId) → InFlight x t ∧
      ∀ id row, t.db.remindi.find? id = some row → row.ownerId = ownerId) ?_ ?_ labels howner).2
    id row hrow
  · exact fun _ => ⟨InFlight.start, fun id row hrow => nomatch hrow⟩
  · intro ks _ t label ih hall
    obtain ⟨hks, hlabel⟩ := List.forall_mem_append.mp hall
    obtain ⟨ht, hrows⟩ := ih hks
    refine ⟨step_inFlight ht label, fun id row hrow => ?_⟩
    rcases step_view (x := x) ht label id with hview | ⟨before, after, types, hchange, hrecorded⟩
    · exact hrows id row ((congrArg ItemView.row hview).symm.trans hrow)
    obtain rfl := Option.some.inj (hrecorded.rowAfter.symm.trans hrow)
    have hbefore := hrecorded.rowBefore
    cases hchange with
    | add prepared fires => exact hlabel _ (List.mem_singleton_self _) _ rfl
    | operate target operates => exact operates.sameItem.ownerId.trans (hrows id _ hbefore)
    | check hpending hitem evaluated =>
      exact evaluated.sameSchedule.ownerId.trans (hrows id _ hbefore)
    | poll hpoll hcandidates evaluated =>
      exact evaluated.sameSchedule.ownerId.trans (hrows id _ hbefore)

/-- **The snapshot of every reachable store is accepted.** -/
theorem snapshot_runOf {hashFile : Admin.DatabaseFile → Admin.VerifiedFile} {ownerId : String}
    (labels : List Label) (howner : ∀ label ∈ labels, ∀ o ∈ label.ownerId, o = ownerId) :
    Admin.verifyDatabaseAt hashFile (Admin.snapshot (runOf x labels).db) ownerId =
      .ok (hashFile (Admin.snapshot (runOf x labels).db)) := by
  refine Admin.snapshot_accepted ?_ ?_ ?_
  · refine List.countP_eq_zero.mpr fun row hrow => ?_
    simpa using owned_runOf labels howner (Table.find?_of_mem hrow)
  · refine List.countP_eq_zero.mpr fun row hrow => ?_
    have hfound := Table.find?_of_mem hrow
    have hconsistent := (consistent_runOf (x := x) labels row.id).evidence
    rw [← evidenceCount_eq_one] at hconsistent
    have hstate : (∃ r, (runOf x labels).db.remindi.find? row.id = some r ∧ r.state = .completed) ↔
        row.state = .completed := by
      rw [hfound]
      simp
    rw [show ((runOf x labels).db.view row.id).row = (runOf x labels).db.remindi.find? row.id from rfl,
      hstate] at hconsistent
    simp [hconsistent]
  · refine List.countP_eq_zero.mpr fun row hrow => ?_
    have hcoherent := rows_invariant (x := x) Change.coherent labels row.id row
      (Table.find?_of_mem hrow)
    have hboth := hcoherent.snoozeUntil.trans hcoherent.snoozedFromState.symm
    cases huntil : row.snoozeUntil <;> cases hfrom : row.snoozedFromState <;> simp_all

end

/-! ## The claim of the verifier -/

/-- What holds of one stored item of a reachable store. -/
structure CrossTables (x : Externals) (labels : List Label) (row : Remindi) : Prop where
  completed : row.state = .completed ↔ Admin.evidenceCount (runOf x labels).db row.id = 1
  goal : ∀ goalId, row.trigger = .goalActive goalId →
    ((runOf x labels).db.view row.id).linked.filter (fun link => link.1 = .goal) =
      [(.goal, goalId)]
  frozen : row.state.isTerminal = true → ∀ later,
    (runOf x (labels ++ later)).db.view row.id = (runOf x labels).db.view row.id

/-- **The tables fit together, and a snapshot is accepted**, in every state that
the operations of one owner reach. -/
theorem cross_tables_hold (x : Externals) (hashFile : Admin.DatabaseFile → Admin.VerifiedFile)
    (ownerId : String) (labels : List Label)
    (howner : ∀ label ∈ labels, ∀ o ∈ label.ownerId, o = ownerId) :
    (∀ row ∈ (runOf x labels).db.remindi.rows, CrossTables x labels row) ∧
      Admin.verifyDatabaseAt hashFile (Admin.snapshot (runOf x labels).db) ownerId =
        .ok (hashFile (Admin.snapshot (runOf x labels).db)) := by
  refine ⟨fun row hrow => ?_, snapshot_runOf labels howner⟩
  have hfound := Table.find?_of_mem hrow
  have hconsistent := consistent_runOf (x := x) labels row.id
  refine ⟨?_, fun goalId htrigger => hconsistent.goal row goalId hfound htrigger,
    fun hterminal later => ?_⟩
  · rw [evidenceCount_eq_one, hconsistent.evidence]
    constructor
    · intro hstate
      exact ⟨row, hfound, hstate⟩
    · rintro ⟨other, hother, hstate⟩
      obtain rfl := Option.some.inj (hfound.symm.trans hother)
      exact hstate
  · unfold runOf
    rw [Machine.final_append]
    exact final_terminal (inFlight_runOf labels) hfound hterminal later

namespace Sample

/-- A reminder for a goal. -/
def goalReminder : AddRequest :=
  { everyMinute with
    trigger := .goalActive "goal-1"
    recurrence := none
    links := [⟨.goal, "goal-1"⟩] }

def completion : CompleteRequest where
  remindiId := uuid 0
  expectedVersion := 1
  evidence :=
    { evidenceType := .artifact
      summary := "all tests pass"
      referenceUri := some "file:result"
      contentHash := none
      observedAt := second 600
      metadata := none
      source := .authenticatedActor }
  completionNote := none
  idempotencyKey := "complete-0001"

def completedGoal : List Label :=
  [call (.add goalReminder) 500 0, call (.complete completion 0) 700 1]

end Sample

/-- A completed item with its evidence and its goal link. -/
theorem sample_cross_tables :
    (runOf Sample.externals Sample.completedGoal).db.remindi.rows.map (·.state) = [.completed] ∧
      (∀ row ∈ (runOf Sample.externals Sample.completedGoal).db.remindi.rows,
        CrossTables Sample.externals Sample.completedGoal row) ∧
      Admin.verifyDatabaseAt (fun _ => ⟨"0", 1⟩)
          (Admin.snapshot (runOf Sample.externals Sample.completedGoal).db) "owner" =
        .ok ⟨"0", 1⟩ := by
  refine ⟨by decide +kernel, ?_⟩
  refine cross_tables_hold Sample.externals (fun _ => ⟨"0", 1⟩) "owner" Sample.completedGoal ?_
  intro label hlabel o ho
  rcases List.mem_pair.mp hlabel with rfl | rfl
  · exact (Option.some.inj ho).symm
  · exact (Option.some.inj ho).symm

end RemindiCore
