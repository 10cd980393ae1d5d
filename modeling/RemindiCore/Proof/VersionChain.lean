import RemindiCore.Proof.Steps

/-!
# The version chain of an item

The events of an item are the created event and then one group for each
committed operation, every group stamped with the version it took the item from
and the next one.  Of all operations that have read the item at one version at
most one commits; the others leave everything about the item as it was.
-/

namespace RemindiCore

open CivilTime KeyedTable Machine

variable {x : Externals} {labels : List Label} {id : Uuid}

/-! ## Operations and their groups -/

/-- The step has read the item at this version: its caller expects it, or a row
in flight shows it. -/
def ReadsAt (e : StepRecord) (id : Uuid) (version : Nat) : Prop :=
  match e.label with
  | .call _ _ call _ => call.target = some (id, version)
  | .checkPersist index _ =>
    ∃ pending, e.before.checks[index]? = some pending ∧
      ∃ item ∈ pending.ready, item.prior.id = id ∧ item.prior.version = version
  | .pollApply index _ _ =>
    ∃ poll, e.before.polls[index]? = some poll ∧
      ∃ prior, poll.candidates.head? = some prior ∧ prior.id = id ∧ prior.version = version
  | .checkRead _ _ _ _ | .pollRead _ _ _ _ => False

/-- The step has committed an operation on the item. -/
def Commits (e : StepRecord) (id : Uuid) : Prop := e.after.db.view id ≠ e.before.db.view id

/-- The events of the item that the step has appended. -/
def groupOf (id : Uuid) (e : StepRecord) : List RemindiEvent :=
  (eventsOf e.after.db id).drop (eventsOf e.before.db id).length

/-- The groups of the operations on the item, in the order of the run. -/
def groupsOf (id : Uuid) (history : List StepRecord) : List (List RemindiEvent) :=
  (history.map (groupOf id)).filter fun group => !group.isEmpty

/-- The version of the stored item. -/
def storedVersion (s : System) (id : Uuid) : Option Nat :=
  (s.db.remindi.find? id).map (·.version)

/-- The group that takes an item from version `v` to the next one; version 0 is
the item before it was created. -/
def GroupFrom : Nat → List RemindiEvent → Prop
  | 0, group => ∃ event, group = [event] ∧ event.eventType = .created ∧
      event.priorVersion = none ∧ event.newVersion = some 1
  | v + 1, group => group ≠ [] ∧ ∀ event ∈ group, event.eventType ≠ .created ∧
      event.priorVersion = some (v + 1) ∧ event.newVersion = some (v + 2)

/-- Groups one after the other, each starting at the version the last one ended with. -/
structure VersionChain (id : Uuid) (history : List StepRecord) (s : System) : Prop where
  partitioned : eventsOf s.db id = (groupsOf id history).flatten
  chained : ∀ v group, (groupsOf id history)[v]? = some group → GroupFrom v group
  version : storedVersion s id =
    if (groupsOf id history).isEmpty then none else some (groupsOf id history).length

/-! ## One step -/

theorem Remindi.snooze_event {r r' : Remindi} {snoozeUntil now : OffsetDateTime} {reason : String}
    {e : EventType} (h : r.snooze snoozeUntil reason now = .ok (r', e)) : e = .snoozed := by
  unfold Remindi.snooze at h
  split at h
  · cases h
  split at h
  · cases h
  split at h
  · cases h
  split at h
  · cases h
  · exact (Prod.mk.inj (Except.ok.inj h)).2.symm

theorem Remindi.complete_event {r r' : Remindi} {evidence : ValidatedEvidence}
    {now : OffsetDateTime} {e : EventType} (h : r.complete evidence now = .ok (r', e)) :
    e = .completed := by
  unfold Remindi.complete at h
  split at h
  · cases h
  split at h
  · cases h
  · exact (Prod.mk.inj (Except.ok.inj h)).2.symm

theorem Remindi.cancel_event {r r' : Remindi} {reason : String} {now : OffsetDateTime}
    {e : EventType} (h : r.cancel reason now = .ok (r', e)) : e = .cancelled := by
  unfold Remindi.cancel at h
  split at h
  · cases h
  split at h
  · cases h
  · exact (Prod.mk.inj (Except.ok.inj h)).2.symm

theorem Operates.ne_created {actor : Actor} {now : OffsetDateTime} {prior : Remindi} {call : Call}
    {mutation : Mutation} (h : Operates actor now prior call mutation) :
    mutation.eventType ≠ .created := by
  cases h with
  | complete prepared validated ok =>
    rw [Remindi.complete_event (completeItem_ok ok).1]
    simp
  | snooze prepared ok =>
    rw [Remindi.snooze_event (snoozeItem_ok ok).1]
    simp
  | cancel prepared ok =>
    rw [Remindi.cancel_event (cancelItem_ok ok).1]
    simp
  | update prepared ok =>
    obtain ⟨_, _, _, -, -, htype, -⟩ := updateItem_ok ok
    rw [htype]
    split <;> simp

theorem Evaluated.ne_created {prior after : Remindi} {now : OffsetDateTime}
    {types : List EventType} (h : Evaluated prior now after types) : .created ∉ types := by
  obtain ⟨evaluation, -, -⟩ := h
  cases evaluation with
  | asleep hstate => simp
  | awoken hstate overdue => cases overdue <;> simp [ready]
  | stays hstate readiness => simp [ready]
  | becomesOverdue hstate => simp [ready]
  | waits hstate observation => rcases observation.events with h | ⟨-, h⟩ <;> simp [h]
  | becomesDue hstate observation readiness =>
    rcases observation.events with h | ⟨-, h⟩ <;> simp [h, ready]

/-- Only `add` writes a created event, and nothing else. -/
theorem Change.created {s : System} {label : Label} {before : Option Remindi} {after : Remindi}
    {types : List EventType} (h : Change x s label before after types) :
    before = none ∧ types = [.created] ∨ before.isSome = true ∧ .created ∉ types := by
  cases h with
  | add prepared fires => exact Or.inl ⟨rfl, rfl⟩
  | operate target operates => exact Or.inr ⟨rfl, by simpa using Ne.symm operates.ne_created⟩
  | check hpending hitem evaluated => exact Or.inr ⟨rfl, evaluated.ne_created⟩
  | poll hpoll hcandidates evaluated => exact Or.inr ⟨rfl, evaluated.ne_created⟩

/-- A step taken from a sound state. -/
structure SoundStep (x : Externals) (e : StepRecord) : Prop where
  inFlight : InFlight x e.before
  taken : e = entry (step x) e.before e.label

theorem soundStep_of_mem {e : StepRecord} (h : e ∈ historyOf x labels) : SoundStep x e :=
  have h := invariant_before InFlight.start (fun _ label hs => step_inFlight hs label) h
  ⟨h.1, h.2⟩

/-- Every step of a run starts in the state of a run. -/
theorem before_reachable {e : StepRecord} (h : e ∈ historyOf x labels) :
    ∃ ks, e.before = runOf x ks := by
  obtain ⟨ks, l, -, rfl⟩ := mem_history h
  exact ⟨ks, rfl⟩

/-- A step that changes an item is one recorded operation on it. -/
theorem SoundStep.change {e : StepRecord} (h : SoundStep x e) (hc : Commits e id) :
    ∃ before after types, Change x e.before e.label before after types ∧
      Recorded (e.before.db.view id) (e.after.db.view id) before after types := by
  have hview := step_view (x := x) h.inFlight e.label id
  have hafter : (step x e.before e.label).1 = e.after := congrArg Entry.after h.taken.symm
  rw [hafter] at hview
  exact hview.resolve_left hc

theorem Recorded.groupOf {e : StepRecord} {before : Option Remindi} {after : Remindi}
    {types : List EventType}
    (h : Recorded (e.before.db.view id) (e.after.db.view id) before after types) :
    (groupOf id e).map (·.eventType) = types ∧
      eventsOf e.after.db id = eventsOf e.before.db id ++ groupOf id e ∧
      ∀ event ∈ groupOf id e, event.priorVersion = before.map (·.version) ∧
        event.newVersion = some after.version := by
  obtain ⟨new, hevents, htypes, hstamps⟩ := h.events
  have hevents : eventsOf e.after.db id = eventsOf e.before.db id ++ new := hevents
  have hgroup : RemindiCore.groupOf id e = new := by
    unfold RemindiCore.groupOf
    rw [hevents, List.drop_left]
  rw [hgroup]
  exact ⟨htypes, hevents, hstamps⟩

theorem groupOf_eq_nil {e : StepRecord} (h : ¬ Commits e id) : groupOf id e = [] := by
  have hevents : eventsOf e.after.db id = eventsOf e.before.db id :=
    congrArg ItemView.events (not_not.mp h)
  unfold groupOf
  rw [hevents, List.drop_length]

/-- A recorded operation takes the item from the stored version to the next one. -/
theorem Recorded.groupFrom {e : StepRecord} {before : Option Remindi} {after : Remindi}
    {types : List EventType} {v : Nat} (hchange : Change x e.before e.label before after types)
    (h : Recorded (e.before.db.view id) (e.after.db.view id) before after types)
    (hv : storedVersion e.before id = if v = 0 then none else some v) :
    GroupFrom v (RemindiCore.groupOf id e) ∧ storedVersion e.after id = some (v + 1) := by
  obtain ⟨htypes, -, hstamps⟩ := h.groupOf
  have hbefore : storedVersion e.before id = before.map (·.version) :=
    congrArg (Option.map Remindi.version) h.rowBefore
  have hafter : storedVersion e.after id = some after.version :=
    congrArg (Option.map Remindi.version) h.rowAfter
  have hversion := hchange.version
  rw [← hbefore, hv] at hversion
  rw [← hbefore, hv] at hstamps
  rw [hafter]
  cases v with
  | zero =>
    rw [if_pos rfl] at hversion hstamps
    refine ⟨?_, congrArg some hversion⟩
    rcases hchange.created with ⟨-, rfl⟩ | ⟨hsome, -⟩
    · obtain ⟨event, hgroup, htype⟩ := List.map_eq_singleton_iff.mp htypes
      obtain ⟨hprior, hnew⟩ := hstamps event (by rw [hgroup]; exact List.mem_singleton_self _)
      exact ⟨event, hgroup, htype, hprior, by rw [hnew, hversion]; rfl⟩
    · obtain ⟨prior, rfl⟩ := Option.isSome_iff_exists.mp hsome
      rw [hbefore] at hv
      cases hv
  | succ v =>
    rw [if_neg (Nat.succ_ne_zero v)] at hversion hstamps
    refine ⟨?_, congrArg some hversion⟩
    rcases hchange.created with ⟨rfl, -⟩ | ⟨-, hcreated⟩
    · rw [hbefore] at hv
      cases hv
    · refine ⟨fun hnil => hchange.types_ne_nil ?_, fun event hevent => ?_⟩
      · rw [← htypes, hnil, List.map_nil]
      · obtain ⟨hprior, hnew⟩ := hstamps event hevent
        refine ⟨fun htype => hcreated ?_, hprior, by rw [hnew, hversion]; rfl⟩
        rw [← htypes, ← htype]
        exact List.mem_map_of_mem hevent

theorem GroupFrom.ne_nil {v : Nat} {group : List RemindiEvent} (h : GroupFrom v group) :
    group ≠ [] := by
  cases v with
  | zero =>
    obtain ⟨event, rfl, -⟩ := h
    simp
  | succ v => exact h.1

/-! ## The chain -/

theorem groupsOf_concat (history : List StepRecord) (e : StepRecord) :
    groupsOf id (history ++ [e]) =
      groupsOf id history ++ if (groupOf id e).isEmpty then [] else [groupOf id e] := by
  unfold groupsOf
  rw [List.map_append, List.filter_append]
  congr 1
  cases h : (groupOf id e).isEmpty <;> simp [h]

theorem VersionChain.start : VersionChain id [] .start where
  partitioned := rfl
  chained := by simp [groupsOf]
  version := rfl

/-- **Every step keeps the chain unbroken.** -/
theorem VersionChain.step {history : List StepRecord} {s : System} (hs : InFlight x s)
    (h : VersionChain id history s) (label : Label) :
    VersionChain id (history ++ [entry (step x) s label]) (step x s label).1 := by
  set e := entry (RemindiCore.step x) s label with he
  show VersionChain id (history ++ [e]) e.after
  rcases step_view (x := x) hs label id with hview | ⟨before, after, types, hchange, hrecorded⟩
  · have hgroups : groupsOf id (history ++ [e]) = groupsOf id history := by
      rw [groupsOf_concat, groupOf_eq_nil (not_not.mpr hview)]
      exact List.append_nil _
    exact
      { partitioned := by
          rw [hgroups, ← h.partitioned]
          exact congrArg ItemView.events hview
        chained := by
          rw [hgroups]
          exact h.chained
        version := by
          rw [hgroups, ← h.version]
          exact congrArg (fun view => view.row.map Remindi.version) hview }
  · set groups := groupsOf id history with hgroups'
    have hversion : storedVersion e.before id =
        if groups.length = 0 then none else some groups.length := by
      show storedVersion s id = _
      rw [h.version, ← hgroups']
      cases groups <;> rfl
    obtain ⟨hfrom, hafter⟩ := Recorded.groupFrom (e := e) hchange hrecorded hversion
    obtain ⟨-, hevents, -⟩ := Recorded.groupOf (e := e) hrecorded
    have hgroups : groupsOf id (history ++ [e]) = groups ++ [groupOf id e] := by
      rw [groupsOf_concat, if_neg]
      exact fun hempty => hfrom.ne_nil (List.isEmpty_iff.mp hempty)
    exact
      { partitioned := by
          rw [hgroups, List.flatten_append, ← h.partitioned, hevents]
          simp [he, entry]
        chained := by
          intro v group hgroup
          rw [hgroups, List.getElem?_append] at hgroup
          split at hgroup
          · exact h.chained v group hgroup
          · next hlast =>
            obtain ⟨hv, rfl⟩ := List.getElem?_eq_some_iff.mp hgroup
            have : v = groups.length := by simp at hv; omega
            subst this
            simpa using hfrom
        version := by
          rw [hgroups, hafter]
          simp }

theorem versionChain_run : VersionChain id (historyOf x labels) (runOf x labels) :=
  (run_induction (P := fun history s => InFlight x s ∧ VersionChain id history s)
    ⟨InFlight.start, VersionChain.start⟩
    (fun _ _ label h => ⟨step_inFlight h.1 label, h.2.step h.1 label⟩) labels).2

/-! ## Races -/

/-- An operation on an item with a row has read the version it found. -/
theorem Change.readsAt {e : StepRecord} {prior after : Remindi} {types : List EventType}
    (h : Change x e.before e.label (some prior) after types) : ReadsAt e prior.id prior.version := by
  obtain ⟨s, label, response, s'⟩ := e
  cases h with
  | operate target operates => exact target
  | check hpending hitem evaluated => exact ⟨_, hpending, _, hitem, rfl, rfl⟩
  | poll hpoll hcandidates evaluated =>
    exact ⟨_, hpoll, prior, by rw [hcandidates]; rfl, rfl, rfl⟩

/-- A step reads an item at one version. -/
theorem ReadsAt.unique {e : StepRecord} {v w : Nat} (hs : InFlight x e.before)
    (hv : ReadsAt e id v) (hw : ReadsAt e id w) : v = w := by
  obtain ⟨s, label, response, s'⟩ := e
  cases label with
  | call ownerId actor call env =>
    have h : some (id, v) = some (id, w) := Eq.trans (Eq.symm hv) hw
    exact (Prod.mk.inj (Option.some.inj h)).2
  | checkPersist index env =>
    obtain ⟨pending, hpending, item, hitem, hid, rfl⟩ := hv
    obtain ⟨pending', hpending', item', hitem', hid', rfl⟩ := hw
    obtain rfl := Option.some.inj (hpending.symm.trans hpending')
    have hnodup := hs.distinct pending (List.mem_of_getElem? hpending)
    rw [List.inj_on_of_nodup_map hnodup hitem hitem' (hid.trans hid'.symm)]
  | pollApply index adapters env =>
    obtain ⟨poll, hpoll, prior, hhead, -, rfl⟩ := hv
    obtain ⟨poll', hpoll', prior', hhead', -, rfl⟩ := hw
    obtain rfl := Option.some.inj (hpoll.symm.trans hpoll')
    rw [Option.some.inj (hhead.symm.trans hhead')]
  | checkRead ownerId actor request env => exact hv.elim
  | pollRead ownerId actor limit env => exact hv.elim

/-- Creating an item reads no version. -/
theorem Change.not_readsAt {e : StepRecord} {after : Remindi} {types : List EventType} {v : Nat}
    (h : Change x e.before e.label none after types) : ¬ ReadsAt e id v := by
  obtain ⟨s, label, response, s'⟩ := e
  cases h with
  | add prepared fires =>
    intro hread
    cases hread

/-- A committed operation creates the item, or it has read the stored version and takes one step. -/
theorem SoundStep.version {e : StepRecord} (h : SoundStep x e) (hc : Commits e id) :
    (storedVersion e.before id = none ∧ storedVersion e.after id = some 1 ∧ ∀ v, ¬ ReadsAt e id v) ∨
      ∃ v, ReadsAt e id v ∧ storedVersion e.before id = some v ∧
        storedVersion e.after id = some (v + 1) := by
  obtain ⟨before, after, types, hchange, hrecorded⟩ := h.change hc
  have hbefore : storedVersion e.before id = before.map (·.version) :=
    congrArg (Option.map Remindi.version) hrecorded.rowBefore
  have hafter : storedVersion e.after id = some after.version :=
    congrArg (Option.map Remindi.version) hrecorded.rowAfter
  rw [hbefore, hafter, hchange.version]
  cases before with
  | none => exact Or.inl ⟨rfl, rfl, fun v => hchange.not_readsAt⟩
  | some prior =>
    have hid : prior.id = id := Table.key_of_find? hrecorded.rowBefore
    refine Or.inr ⟨prior.version, ?_, rfl, rfl⟩
    rw [← hid]
    exact hchange.readsAt

/-- An operation that commits found the version it has read. -/
theorem SoundStep.reads_stored {e : StepRecord} {v : Nat} (h : SoundStep x e) (hc : Commits e id)
    (hread : ReadsAt e id v) :
    storedVersion e.before id = some v ∧ storedVersion e.after id = some (v + 1) := by
  rcases h.version hc with ⟨-, -, hnone⟩ | ⟨w, hw, hbefore, hafter⟩
  · exact absurd hread (hnone v)
  · obtain rfl := hw.unique h.inFlight hread
    exact ⟨hbefore, hafter⟩

theorem SoundStep.commits_iff {e : StepRecord} (h : SoundStep x e) :
    Commits e id ↔ groupOf id e ≠ [] := by
  refine ⟨fun hc hnil => ?_, fun hne hc => hne (groupOf_eq_nil (not_not.mpr hc))⟩
  obtain ⟨before, after, types, hchange, hrecorded⟩ := h.change hc
  obtain ⟨htypes, -⟩ := hrecorded.groupOf
  rw [hnil] at htypes
  exact hchange.types_ne_nil htypes.symm

/-- Versions only rise. -/
theorem SoundStep.version_le {e : StepRecord} {v : Nat} (h : SoundStep x e)
    (hv : storedVersion e.before id = some v) :
    ∃ w, storedVersion e.after id = some w ∧ v ≤ w := by
  by_cases hc : Commits e id
  · rcases h.version hc with ⟨hnone, -⟩ | ⟨w, -, hw, hafter⟩
    · rw [hv] at hnone
      cases hnone
    · obtain rfl := Option.some.inj (hv.symm.trans hw)
      exact ⟨v + 1, hafter, Nat.le_succ v⟩
  · refine ⟨v, ?_, Nat.le_refl v⟩
    rw [← hv]
    exact congrArg (fun view => view.row.map Remindi.version) (not_not.mp hc)

/-- Of two operations that have read one version at most one commits. -/
def OneWinner (id : Uuid) (history : List StepRecord) : Prop :=
  history.Pairwise fun e e' =>
    ∀ v, ReadsAt e id v → ReadsAt e' id v → Commits e id → ¬ Commits e' id

/-- The versions that committed operations have read lie behind the item. -/
def Overtaken (id : Uuid) (history : List StepRecord) (s : System) : Prop :=
  ∀ e ∈ history, ∀ v, ReadsAt e id v → Commits e id → ∃ w, storedVersion s id = some w ∧ v < w

theorem oneWinner_run : OneWinner id (historyOf x labels) := by
  refine (run_induction (P := fun history s => InFlight x s ∧ Overtaken id history s ∧
    OneWinner id history) ⟨InFlight.start, by simp [Overtaken], List.Pairwise.nil⟩ ?_ labels).2.2
  rintro history s label ⟨hs, hovertaken, hone⟩
  have hstep : SoundStep x (entry (step x) s label) := ⟨hs, rfl⟩
  refine ⟨step_inFlight hs label, ?_, ?_⟩
  · intro e he v hread hc
    rcases List.mem_append.mp he with he | he
    · obtain ⟨w, hw, hlt⟩ := hovertaken e he v hread hc
      obtain ⟨w', hw', hle⟩ := hstep.version_le hw
      exact ⟨w', hw', Nat.lt_of_lt_of_le hlt hle⟩
    · obtain rfl := List.mem_singleton.mp he
      exact ⟨v + 1, (hstep.reads_stored hc hread).2, Nat.lt_succ_self v⟩
  · refine List.pairwise_append.mpr ⟨hone, List.pairwise_singleton _ _, ?_⟩
    intro e he e' he' v hread hread' hc hc'
    obtain rfl := List.mem_singleton.mp he'
    obtain ⟨w, hw, hlt⟩ := hovertaken e he v hread hc
    have hv := (hstep.reads_stored hc' hread').1
    have : w = v := Option.some.inj (hw.symm.trans hv)
    omega

/-! ## The theorem -/

/-- **No lost update, and an unbroken version chain.**  In every run the events
of every item, in the order of their numbers, are the groups of the committed
operations; of all operations that have read the item at one version at most one
commits, and one whose version is no longer the stored one changes nothing. -/
theorem no_lost_update (x : Externals) (labels : List Label) (id : Uuid) :
    VersionChain id (historyOf x labels) (runOf x labels) ∧
      Sequenced (eventsOf (runOf x labels).db id) ∧
      OneWinner id (historyOf x labels) ∧
      ∀ e ∈ historyOf x labels,
        (Commits e id ↔ groupOf id e ≠ []) ∧
        (Commits e id → (storedVersion e.before id = none ∧ storedVersion e.after id = some 1) ∨
          ∃ v, ReadsAt e id v ∧ storedVersion e.before id = some v ∧
            storedVersion e.after id = some (v + 1)) ∧
        ∀ v, ReadsAt e id v → storedVersion e.before id ≠ some v →
          e.after.db.view id = e.before.db.view id := by
  refine ⟨versionChain_run, ?_, oneWinner_run, fun e he => ?_⟩
  · have hsequenced : Sequenced (runOf x labels).db.events.rows :=
      invariant_final (s := System.start) (I := fun s => Sequenced s.db.events.rows)
        List.Pairwise.nil (fun _ label hs => step_sequenced label hs) labels
    exact hsequenced.filter _
  · have hstep := soundStep_of_mem he
    refine ⟨hstep.commits_iff, fun hc => ?_, fun v hread hstale => ?_⟩
    · rcases hstep.version hc with ⟨hbefore, hafter, -⟩ | h
      · exact Or.inl ⟨hbefore, hafter⟩
      · exact Or.inr h
    · by_contra hc
      exact hstale (hstep.reads_stored hc hread).1

end RemindiCore
