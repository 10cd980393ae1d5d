import RemindiCore.Proof.CheckVisit
import RemindiCore.Proof.VersionChain

/-!
# What a check reports and what it commits

A check evaluates rows that others may overtake before it commits.  Its answer
is an account of its commit (`Account`): the items reported at a newer version
than the one read are those stored, with their events, and nothing else has
changed.  A check that fails has changed nothing, and no two checks report one
transition (`check_reports_commits`).
-/

namespace RemindiCore

open CivilTime KeyedTable Transaction Machine

/-! ## One transaction -/

section

variable {x : Externals} {db db' : Db} {now : OffsetDateTime} {context : CheckContext}
  {ready : List (ReadyItem now context)} {items : List CheckedItem}

/-- A report lists items of the page, in its order. -/
theorem Reported.sublist (h : Reported x db ready items db') :
    items.Sublist (ready.map (·.report)) := by
  induction h with
  | nil => exact List.Sublist.refl _
  | kept hevents hrest ih =>
    rw [List.map_cons, ReadyItem.report, if_pos (List.isEmpty_iff.mpr hevents)]
    exact ih.cons_cons _
  | stored hevents persisted hrest ih =>
    rw [List.map_cons, ReadyItem.report, if_neg (mt List.isEmpty_iff.mp hevents)]
    exact ih.cons_cons _
  | missed hevents hmissed hrest ih => exact ih.cons _

/-- What the transaction has done with an item that it reports. -/
inductive Settled (x : Externals) (db db' : Db) (item : ReadyItem now context) : CheckedItem → Prop
  | kept (hevents : item.events = []) : Settled x db db' item item.unchanged
  | stored (hevents : item.events ≠ [])
      (hrecorded : Recorded (db.view item.prior.id) (db'.view item.prior.id) (some item.prior)
        (item.checked.remindi.writtenOver x item.prior) item.events) :
      Settled x db db' item item.checked

/-- **The report of a transaction**: each item as it was settled, and every
other item of the store as it was. -/
theorem Reported.settled (h : Reported x db ready items db')
    (hdistinct : (ready.map (·.prior.id)).Nodup) (hfresh : ∀ item ∈ ready, Fresh db item.prior) :
    (∀ a ∈ items, ∃ item ∈ ready, Settled x db db' item a) ∧
      ∀ id, db'.view id = db.view id ∨
        ∃ item ∈ ready, item.prior.id = id ∧ item.events ≠ [] ∧ item.checked ∈ items := by
  induction h with
  | nil => exact ⟨by simp, fun _ => Or.inl rfl⟩
  | @kept db db' item rest items hevents hrest ih =>
    obtain ⟨-, hrestDistinct⟩ := List.nodup_cons.mp hdistinct
    obtain ⟨hitems, hother⟩ := ih hrestDistinct (List.forall_mem_cons.mp hfresh).2
    refine ⟨List.forall_mem_cons.mpr ⟨⟨item, List.mem_cons_self, .kept hevents⟩, ?_⟩, fun id => ?_⟩
    · intro a ha
      obtain ⟨other, hmem, hsettled⟩ := hitems a ha
      exact ⟨other, List.mem_cons_of_mem _ hmem, hsettled⟩
    · refine (hother id).imp_right ?_
      rintro ⟨other, hmem, hid, hne, hlisted⟩
      exact ⟨other, List.mem_cons_of_mem _ hmem, hid, hne, List.mem_cons_of_mem _ hlisted⟩
  | @missed db db' item rest items hevents hmissed hrest ih =>
    obtain ⟨-, hrestDistinct⟩ := List.nodup_cons.mp hdistinct
    obtain ⟨hitems, hother⟩ := ih hrestDistinct (List.forall_mem_cons.mp hfresh).2
    refine ⟨fun a ha => ?_, fun id => (hother id).imp_right ?_⟩
    · obtain ⟨other, hmem, hsettled⟩ := hitems a ha
      exact ⟨other, List.mem_cons_of_mem _ hmem, hsettled⟩
    · rintro ⟨other, hmem, h⟩
      exact ⟨other, List.mem_cons_of_mem _ hmem, h⟩
  | @stored db db₁ db' item rest items old hevents persisted hrest ih =>
    obtain ⟨hfirst, hrestDistinct⟩ := List.nodup_cons.mp hdistinct
    obtain ⟨hitem, hrestFresh⟩ := List.forall_mem_cons.mp hfresh
    have hne : ∀ other ∈ rest, other.prior.id ≠ item.prior.id := fun other hmem hid =>
      hfirst (List.mem_map.mpr ⟨other, hmem, hid⟩)
    -- the head leaves every other item alone
    have hview := persisted.view item.sameSchedule.id hitem
    have honly : ∀ id, id ≠ item.prior.id → db₁.view id = db.view id := fun id hid =>
      (hview id).resolve_right fun h => hid h.1.symm
    obtain ⟨hitems, hother⟩ := ih hrestDistinct fun other hmem =>
      (hrestFresh other hmem).of_view (honly _ (hne other hmem))
    have hkeep : db'.view item.prior.id = db₁.view item.prior.id := by
      rcases hother item.prior.id with h | ⟨other, hmem, hid, -⟩
      · exact h
      · exact absurd hid (hne other hmem)
    have hrecorded : Recorded (db.view item.prior.id) (db'.view item.prior.id) (some item.prior)
        (item.checked.remindi.writtenOver x item.prior) item.events := by
      have hid : item.checked.remindi.id = item.prior.id := item.sameSchedule.id
      have hfound := persisted.found
      rw [hid] at hfound
      obtain rfl := hitem.eq_of_version hfound persisted.version
      rw [hkeep, ← hid]
      exact persisted.recorded
    refine ⟨List.forall_mem_cons.mpr ⟨⟨item, List.mem_cons_self, .stored hevents hrecorded⟩, ?_⟩,
      fun id => ?_⟩
    · intro a ha
      obtain ⟨other, hmem, hsettled⟩ := hitems a ha
      refine ⟨other, List.mem_cons_of_mem _ hmem, ?_⟩
      cases hsettled with
      | kept hevents => exact .kept hevents
      | stored hevents hrecorded =>
        refine .stored hevents ?_
        rwa [← honly _ (hne other hmem)]
    · by_cases hid : id = item.prior.id
      · exact Or.inr ⟨item, List.mem_cons_self, hid.symm, hevents, List.mem_cons_self⟩
      · rw [← honly id hid]
        refine (hother id).imp_right ?_
        rintro ⟨other, hmem, hid, hne, hlisted⟩
        exact ⟨other, List.mem_cons_of_mem _ hmem, hid, hne, List.mem_cons_of_mem _ hlisted⟩

end

/-! ## Stored rows -/

/-- The instants of the row are whole milliseconds. -/
def Remindi.IsStored (row : Remindi) : Prop := row.truncateMillis = row

theorem Remindi.IsStored.writtenOver {x : Externals} {prior : Remindi} (h : prior.IsStored)
    (item : Remindi) : (item.writtenOver x prior).IsStored := by
  have hcreated : prior.createdAt.truncateMillis = prior.createdAt :=
    congrArg Remindi.createdAt h
  unfold Remindi.IsStored Remindi.writtenOver
  simp [Remindi.stored, Remindi.truncateMillis, Function.comp_def, hcreated]

theorem Change.isStored {x : Externals} {s : System} {label : Label} {before : Option Remindi}
    {after : Remindi} {types : List EventType} (hchange : Change x s label before after types)
    (h : ∀ prior, before = some prior → prior.IsStored) : after.IsStored := by
  cases hchange with
  | add prepared fires => exact Remindi.truncateMillis_stored _ _
  | operate target operates => exact (h _ rfl).writtenOver _
  | check hpending hitem evaluated => exact (h _ rfl).writtenOver _
  | poll hpoll hcandidates evaluated => exact (h _ rfl).writtenOver _

theorem stored_rows (x : Externals) (labels : List Label) :
    ∀ id row, (runOf x labels).db.remindi.find? id = some row → row.IsStored :=
  rows_invariant Change.isStored labels

/-- An evaluation leaves everything that an update of the row would not write. -/
theorem ReadyItem.writtenOver_eq {x : Externals} {now : OffsetDateTime} {context : CheckContext}
    (item : ReadyItem now context) (h : item.prior.IsStored) :
    item.checked.remindi.writtenOver x item.prior = item.checked.remindi.stored x := by
  have honly := (Remindi.evaluate_ok item.evaluated).only
  have hcreated : item.prior.createdAt.truncateMillis = item.prior.createdAt :=
    congrArg Remindi.createdAt h
  rw [honly]
  simp only [Remindi.writtenOver, Remindi.stored, Remindi.truncateMillis, hcreated]

/-! ## The account -/

section

variable {x : Externals} {db db' : Db} {now : OffsetDateTime} {context : CheckContext}
  {ready : List (ReadyItem now context)} {items : List CheckedItem}

/-- An item of the page is on the report at a newer version than the one read. -/
structure Newer (ready : List (ReadyItem now context)) (items : List CheckedItem)
    (item : ReadyItem now context) (a : CheckedItem) : Prop where
  read : item ∈ ready
  listed : a ∈ items
  id : a.remindi.id = item.prior.id
  newer : item.prior.version < a.remindi.version

/-- The report accounts for everything between the two stores: each item once, as
it was read or newer; the newer ones stored as reported, each with its events;
nothing else of any item changed. -/
structure Account (x : Externals) (db db' : Db) (ready : List (ReadyItem now context))
    (items : List CheckedItem) : Prop where
  distinct : (items.map (·.remindi.id)).Nodup
  read : ∀ a ∈ items, ∃ item ∈ ready, a.remindi.id = item.prior.id ∧
    (a.remindi = item.prior ∨ item.prior.version < a.remindi.version)
  committed : ∀ item a, Newer ready items item a →
    Recorded (db.view item.prior.id) (db'.view item.prior.id) (some item.prior)
      (a.remindi.stored x) item.events
  untouched : ∀ id, (∀ item a, Newer ready items item a → item.prior.id ≠ id) →
    db'.view id = db.view id

theorem ReadyItem.newer_checked (item : ReadyItem now context) (hevents : item.events ≠ []) :
    item.prior.version < item.checked.remindi.version := by
  have hversion := (item.toEvaluated hevents).version
  omega

theorem Reported.account (h : Reported x db ready items db')
    (hdistinct : (ready.map (·.prior.id)).Nodup) (hfresh : ∀ item ∈ ready, Fresh db item.prior)
    (hstored : ∀ id row, db.remindi.find? id = some row → row.IsStored) :
    Account x db db' ready items := by
  obtain ⟨hitems, hother⟩ := h.settled hdistinct hfresh
  have hreport : ∀ {item : ReadyItem now context} {a}, Settled x db db' item a →
      a.remindi.id = item.prior.id := by
    rintro item a (_ | _)
    · rfl
    · exact item.sameSchedule.id
  constructor
  · have hids : (ready.map fun item => item.report.remindi.id) = ready.map (·.prior.id) :=
      List.map_congr_left fun item _ => item.report_id
    refine (h.sublist.map (·.remindi.id)).nodup ?_
    rw [List.map_map]
    exact hids ▸ hdistinct
  · intro a ha
    obtain ⟨item, hmem, hsettled⟩ := hitems a ha
    refine ⟨item, hmem, hreport hsettled, ?_⟩
    cases hsettled with
    | kept hevents => exact Or.inl rfl
    | stored hevents hrecorded => exact Or.inr (item.newer_checked hevents)
  · intro item a hnewer
    obtain ⟨other, hmem, hsettled⟩ := hitems a hnewer.listed
    obtain rfl : other = item := List.inj_on_of_nodup_map hdistinct hmem hnewer.read
      ((hreport hsettled).symm.trans hnewer.id)
    cases hsettled with
    | kept hevents => exact absurd hnewer.newer (lt_irrefl _)
    | stored hevents hrecorded =>
      rw [← other.writtenOver_eq (hstored _ _ hrecorded.rowBefore)]
      exact hrecorded
  · intro id hnone
    refine (hother id).resolve_right ?_
    rintro ⟨item, hmem, hid, hevents, hlisted⟩
    exact hnone item item.checked
      ⟨hmem, hlisted, item.sameSchedule.id, item.newer_checked hevents⟩ hid

end

/-! ## Every check of a run -/

/-- The check that a step answers, as it was read. -/
def AnswersFor (x : Externals) (e : StepRecord) (pending : RemindiService.PendingCheck) : Prop :=
  match e.label with
  | .checkRead ownerId actor request env =>
    (RemindiService.checkRead ⟨x, ownerId⟩ actor request).run env e.before.db =
      (.ok pending, e.before.db)
  | .checkPersist index _ => e.before.checks[index]? = some pending
  | .call _ _ _ _ | .pollRead _ _ _ _ | .pollApply _ _ _ => False

/-- The step answers a check with the transition of the item from this version. -/
def Reports (x : Externals) (e : StepRecord) (id : Uuid) (version : Nat) : Prop :=
  ∃ pending result item a, AnswersFor x e pending ∧ e.response = .check (.ok result) ∧
    Newer pending.ready result.items item a ∧ item.prior.id = id ∧ item.prior.version = version

/-- A step of a check. -/
def Label.isCheck : Label → Bool
  | .checkRead _ _ _ _ | .checkPersist _ _ => true
  | .call _ _ _ _ | .pollRead _ _ _ _ | .pollApply _ _ _ => false

section

variable {x : Externals} {labels : List Label} {e : StepRecord}

/-- **A check that fails has changed nothing.** -/
theorem SoundStep.check_error (h : SoundStep x e) {error : ServiceError}
    (hresponse : e.response = .check (.error error)) : e.after.db = e.before.db := by
  obtain ⟨s, label, response, s'⟩ := e
  obtain ⟨hs, htaken⟩ := h
  obtain ⟨rfl, rfl⟩ : response = (step x s label).2 ∧ s' = (step x s label).1 := by
    simpa [entry] using htaken
  dsimp only at hresponse ⊢
  cases label with
  | call ownerId actor call env => cases hresponse
  | pollRead ownerId actor limit env =>
    unfold step
    dsimp only
    split <;> rfl
  | checkRead ownerId actor request env =>
    unfold step
    dsimp only
    split
    · rfl
    · split <;> rfl
  | pollApply index adapters env =>
    unfold step at hresponse
    dsimp only at hresponse
    split at hresponse
    · cases hresponse
    · split at hresponse <;> cases hresponse
  | checkPersist index env =>
    cases hpending : s.checks[index]? with
    | none =>
      rw [step_checkPersist_none hpending]
    | some pending =>
      rw [step_checkPersist_some hpending]
      simp only [step, hpending, Response.check.injEq] at hresponse
      dsimp only
      rcases hrun : (RemindiService.checkPersist pending).run env s.db with ⟨_ | result, db'⟩
      · exact Txn.run_error hrun
      · rw [hrun] at hresponse
        cases hresponse

/-- The transaction behind the answer of a check, over the page that was read. -/
structure AnsweredBy (x : Externals) (e : StepRecord) (pending : RemindiService.PendingCheck)
    (items : List CheckedItem) : Prop where
  reported : Reported x e.before.db pending.ready items e.after.db
  distinct : (pending.ready.map (·.prior.id)).Nodup
  fresh : ∀ item ∈ pending.ready, Fresh e.before.db item.prior

theorem SoundStep.check_answered (h : SoundStep x e) {result : CheckResult}
    (hresponse : e.response = .check (.ok result)) :
    ∃ pending, AnswersFor x e pending ∧ AnsweredBy x e pending result.items := by
  obtain ⟨s, label, response, s'⟩ := e
  obtain ⟨hs, htaken⟩ := h
  obtain ⟨rfl, rfl⟩ : response = (step x s label).2 ∧ s' = (step x s label).1 := by
    simpa [entry] using htaken
  dsimp only at hs hresponse
  cases label with
  | call ownerId actor call env => cases hresponse
  | pollRead ownerId actor limit env =>
    unfold step at hresponse
    dsimp only at hresponse
    split at hresponse <;> cases hresponse
  | pollApply index adapters env =>
    unfold step at hresponse
    dsimp only at hresponse
    split at hresponse
    · cases hresponse
    · split at hresponse <;> cases hresponse
  | checkRead ownerId actor request env =>
    rcases hrun : (RemindiService.checkRead ⟨x, ownerId⟩ actor request).run env s.db with
      ⟨_ | pending, db'⟩
    · simp only [step, hrun] at hresponse
      cases hresponse
    obtain ⟨m, hok⟩ := Txn.run_ok.mp hrun
    obtain ⟨rfl, -, hread⟩ := checkRead_ok hok
    simp only [step, hrun] at hresponse ⊢
    split at hresponse
    · next hsettled =>
      rw [if_pos hsettled]
      cases hresponse
      refine ⟨pending, hrun, ?_, ?_, fun item hitem => ?_⟩
      · exact reported_settled fun item hitem =>
          List.isEmpty_iff.mp (List.all_eq_true.mp hsettled item hitem)
      · simpa [Function.comp_def] using hread.nodup
      · exact .of_mem (hread.stored _ (List.mem_map_of_mem hitem))
    · cases hresponse
  | checkPersist index env =>
    cases hpending : s.checks[index]? with
    | none =>
      rw [step_checkPersist_none hpending] at hresponse
      cases hresponse
    | some pending =>
      rw [step_checkPersist_some hpending]
      simp only [step, hpending, Response.check.injEq] at hresponse
      rcases hrun : (RemindiService.checkPersist pending).run env s.db with ⟨_ | result', db'⟩
      · rw [hrun] at hresponse
        cases hresponse
      rw [hrun] at hresponse
      obtain rfl := Except.ok.inj hresponse
      obtain ⟨m, hok⟩ := Txn.run_ok.mp hrun
      obtain ⟨items, rfl, hreported⟩ := checkPersist_reported hok
      have hmem := List.mem_of_getElem? hpending
      rw [hs.checkers pending hmem] at hreported
      exact ⟨pending, hpending, hreported, hs.distinct pending hmem, hs.checks pending hmem⟩

/-- **A check that succeeds accounts for its commit.** -/
theorem SoundStep.check_ok (h : SoundStep x e) {result : CheckResult}
    (hstored : ∀ id row, e.before.db.remindi.find? id = some row → row.IsStored)
    (hresponse : e.response = .check (.ok result)) :
    ∃ pending, AnswersFor x e pending ∧
      Account x e.before.db e.after.db pending.ready result.items := by
  obtain ⟨pending, hanswers, hanswered⟩ := h.check_answered hresponse
  exact ⟨pending, hanswers,
    hanswered.reported.account hanswered.distinct hanswered.fresh hstored⟩

/-- A step of a check that does not answer it changes nothing. -/
theorem SoundStep.check_quiet (h : SoundStep x e) (hcheck : e.label.isCheck = true)
    (hquiet : ∀ result, e.response ≠ .check result) : e.after.db = e.before.db := by
  obtain ⟨s, label, response, s'⟩ := e
  obtain ⟨hs, htaken⟩ := h
  obtain ⟨rfl, rfl⟩ : response = (step x s label).2 ∧ s' = (step x s label).1 := by
    simpa [entry] using htaken
  dsimp only at hcheck hquiet ⊢
  cases label with
  | call ownerId actor call env => cases hcheck
  | pollRead ownerId actor limit env => cases hcheck
  | pollApply index adapters env => cases hcheck
  | checkRead ownerId actor request env =>
    unfold step
    dsimp only
    split
    · rfl
    · split <;> rfl
  | checkPersist index env =>
    cases hpending : s.checks[index]? with
    | none => rw [step_checkPersist_none hpending]
    | some pending =>
      refine absurd ?_ (hquiet ((RemindiService.checkPersist pending).run env s.db).1)
      simp only [step, hpending]

theorem AnswersFor.unique {pending pending' : RemindiService.PendingCheck}
    (h : AnswersFor x e pending) (h' : AnswersFor x e pending') : pending = pending' := by
  obtain ⟨s, label, response, s'⟩ := e
  cases label with
  | checkRead ownerId actor request env =>
    exact Except.ok.inj (Prod.mk.inj (Eq.trans (Eq.symm h) h')).1
  | checkPersist index env => exact Option.some.inj (Eq.trans (Eq.symm h) h')
  | call ownerId actor call env => exact h.elim
  | pollRead ownerId actor limit env => exact h.elim
  | pollApply index adapters env => exact h.elim

theorem rows_stored_before (he : e ∈ historyOf x labels) :
    ∀ id row, e.before.db.remindi.find? id = some row → row.IsStored := by
  obtain ⟨ks, hbefore⟩ := before_reachable he
  rw [hbefore]
  exact stored_rows x ks

/-- A reported transition was committed by the step that reports it. -/
theorem Reports.commits (he : e ∈ historyOf x labels) {id : Uuid} {v : Nat}
    (h : Reports x e id v) : ReadsAt e id v ∧ Commits e id := by
  have hsound := soundStep_of_mem he
  obtain ⟨pending, result, item, a, hanswers, hresponse, hnewer, rfl, rfl⟩ := h
  obtain ⟨pending', hanswers', haccount⟩ := hsound.check_ok (rows_stored_before he) hresponse
  obtain rfl := hanswers.unique hanswers'
  have hrecorded := haccount.committed item a hnewer
  have hcommits : Commits e item.prior.id := by
    intro hsame
    have hrow : (some (a.remindi.stored x) : Option Remindi) = some item.prior :=
      hrecorded.rowAfter.symm.trans ((congrArg ItemView.row hsame).trans hrecorded.rowBefore)
    have hlt := hnewer.newer
    rw [← Option.some.inj hrow, Remindi.stored_version] at hlt
    exact absurd hlt (lt_irrefl _)
  refine ⟨?_, hcommits⟩
  obtain ⟨s, label, response, s'⟩ := e
  cases label with
  | checkPersist index env => exact ⟨pending, hanswers, item, hnewer.read, rfl, rfl⟩
  | checkRead ownerId actor request env =>
    -- a check that needs no transaction commits nothing
    refine absurd (congrArg (fun db => Db.view db item.prior.id) ?_) hcommits
    have hafter : s' = (step x s (.checkRead ownerId actor request env)).1 :=
      congrArg Entry.after hsound.taken
    dsimp only
    rw [hafter]
    unfold step
    dsimp only
    split
    · rfl
    · split <;> rfl
  | call ownerId actor call env => exact hanswers.elim
  | pollRead ownerId actor limit env => exact hanswers.elim
  | pollApply index adapters env => exact hanswers.elim

/-- What a check commits it reports. -/
theorem check_reports_of_commits (he : e ∈ historyOf x labels) (hcheck : e.label.isCheck = true)
    {id : Uuid} (hc : Commits e id) : ∃ v, Reports x e id v := by
  have hsound := soundStep_of_mem he
  by_cases hanswered : ∃ result, e.response = .check result
  · obtain ⟨error | result, hresponse⟩ := hanswered
    · exact absurd (congrArg (fun db => Db.view db id) (hsound.check_error hresponse)) hc
    · obtain ⟨pending, hanswers, haccount⟩ := hsound.check_ok (rows_stored_before he) hresponse
      by_contra hnone
      refine hc (haccount.untouched id fun item a hnewer hid => hnone ?_)
      exact ⟨_, pending, result, item, a, hanswers, hresponse, hnewer, hid, rfl⟩
  · have hquiet := hsound.check_quiet hcheck fun result h => hanswered ⟨result, h⟩
    exact absurd (congrArg (fun db => Db.view db id) hquiet) hc

end

/-- **A check reports what it commits, all or nothing.**  In every run a check that
fails has changed nothing, one that succeeds accounts for its commit, and every
transition that a check commits is on the report of exactly one. -/
theorem check_reports_commits (x : Externals) (labels : List Label) :
    (∀ e ∈ historyOf x labels,
      (∀ error, e.response = .check (.error error) → e.after.db = e.before.db) ∧
      (∀ result, e.response = .check (.ok result) → ∃ pending, AnswersFor x e pending ∧
        Account x e.before.db e.after.db pending.ready result.items) ∧
      (e.label.isCheck = true → ∀ id, Commits e id → ∃ v, Reports x e id v) ∧
      ∀ id v, Reports x e id v → ReadsAt e id v ∧ Commits e id) ∧
    ∀ id v, (historyOf x labels).Pairwise fun e e' => Reports x e id v → ¬ Reports x e' id v := by
  refine ⟨fun e he => ⟨fun error h => (soundStep_of_mem he).check_error h,
    fun result h => (soundStep_of_mem he).check_ok (rows_stored_before he) h,
    fun hcheck id hc => check_reports_of_commits he hcheck hc,
    fun id v h => h.commits he⟩, fun id v => ?_⟩
  refine (oneWinner_run : OneWinner id (historyOf x labels)).imp_of_mem ?_
  intro e e' he he' hone h h'
  obtain ⟨hread, hc⟩ := h.commits he
  obtain ⟨hread', hc'⟩ := h'.commits he'
  exact hone v hread hread' hc hc'

end RemindiCore
