import RemindiCore.Proof.CheckRun
import RemindiCore.Lib.Paging

/-!
# One check as a visit

A check with nobody else at the store (`RemindiService.check`) is a visit in the
sense of `Lib/Paging.lean`, keyed by `checkKey` (`CheckPage.visit`).  What it
leaves behind is listed by `Leaves`; an item that was ready stays ready, with a
key that never rises (`Upcoming.step`).
-/

namespace RemindiCore

open CivilTime KeyedTable Transaction Paging

/-! ## A check by itself -/

/-- A check with nobody in between its read and its transaction. -/
def RemindiService.check (service : RemindiService) (actor : Actor) (request : CheckRequest)
    (readEnv persistEnv : Env) (db : Db) : Except ServiceError CheckResult × Db :=
  match (service.checkRead actor request).run readEnv db with
  | (.error e, _) => (.error e, db)
  | (.ok pending, _) =>
    if pending.settled then
      (.ok (pending.result (pending.ready.map fun item => item.unchanged)), db)
    else (RemindiService.checkPersist pending).run persistEnv db

variable {service : RemindiService} {actor : Actor} {request : CheckRequest} {db db' : Db}
  {result : CheckResult}

theorem check_ok {readEnv persistEnv : Env}
    (h : service.check actor request readEnv persistEnv db = (.ok result, db')) :
    ∃ (page : CheckPage service actor request (readEnv.clock 0) db) (items : List CheckedItem),
      result = page.pending.result items ∧ Reported service.externals db page.page items db' := by
  unfold RemindiService.check at h
  rcases hrun : (service.checkRead actor request).run readEnv db with ⟨_ | pending, db₁⟩
  · rw [hrun] at h
    cases (Prod.mk.inj h).1
  rw [hrun] at h
  obtain ⟨m, hread⟩ := Txn.run_ok.mp hrun
  obtain ⟨-, page, rfl⟩ := checkRead_page hread
  refine ⟨page, ?_⟩
  dsimp only at h
  split at h
  · next hsettled =>
    obtain ⟨hresult, rfl⟩ := Prod.mk.inj h
    refine ⟨_, (Except.ok.inj hresult).symm, reported_settled fun item hitem => ?_⟩
    exact List.isEmpty_iff.mp (List.all_eq_true.mp hsettled item hitem)
  · obtain ⟨n, hpersist⟩ := Txn.run_ok.mp h
    exact checkPersist_reported hpersist

/-! ## What is left behind -/

section

variable {now : OffsetDateTime} {context : CheckContext}

def ReadyItem.report (item : ReadyItem now context) : CheckedItem :=
  if item.events.isEmpty then item.unchanged else item.checked

/-- The row that a check leaves of an item it reports. -/
def ReadyItem.left (x : Externals) (item : ReadyItem now context) : Remindi :=
  if item.events.isEmpty then item.prior else item.checked.remindi.writtenOver x item.prior

theorem ReadyItem.sameSchedule (item : ReadyItem now context) :
    SameSchedule item.checked.remindi item.prior :=
  (Remindi.evaluate_ok item.evaluated).sameSchedule

/-- With nobody else at the store a check stores and reports its whole page. -/
theorem Reported.alone {x : Externals} {ready : List (ReadyItem now context)}
    {items : List CheckedItem} (h : Reported x db ready items db')
    (hdistinct : (ready.map (·.prior.id)).Nodup)
    (hstored : ∀ item ∈ ready, db.remindi.find? item.prior.id = some item.prior) :
    items = ready.map (·.report) ∧
      (∀ item ∈ ready, db'.remindi.find? item.prior.id = some (item.left x)) ∧
      ∀ id, (∀ item ∈ ready, item.prior.id ≠ id) →
        db'.remindi.find? id = db.remindi.find? id := by
  induction h with
  | nil => exact ⟨rfl, by simp, fun _ _ => rfl⟩
  | @kept db db' item rest items hevents hrest ih =>
    obtain ⟨hitem, hrestStored⟩ := List.forall_mem_cons.mp hstored
    obtain ⟨hfresh, hrestDistinct⟩ := List.nodup_cons.mp hdistinct
    obtain ⟨rfl, hleft, hother⟩ := ih hrestDistinct hrestStored
    refine ⟨by simp [ReadyItem.report, hevents], List.forall_mem_cons.mpr ⟨?_, hleft⟩,
      fun id hid => hother id (List.forall_mem_cons.mp hid).2⟩
    rw [hother _ fun other hmem heq => hfresh (List.mem_map.mpr ⟨other, hmem, heq⟩), hitem]
    simp [ReadyItem.left, hevents]
  | @stored db db₁ db' item rest items old hevents persisted hrest ih =>
    obtain ⟨hitem, hrestStored⟩ := List.forall_mem_cons.mp hstored
    obtain ⟨hfresh, hrestDistinct⟩ := List.nodup_cons.mp hdistinct
    have hid : item.checked.remindi.id = item.prior.id := item.sameSchedule.id
    have hfound := persisted.found
    rw [hid, hitem] at hfound
    obtain rfl := Option.some.inj hfound
    have hfind : ∀ id, db₁.remindi.find? id =
        if item.prior.id = id then some (item.checked.remindi.writtenOver x item.prior)
        else db.remindi.find? id := by
      intro id
      rw [persisted.remindi, Table.find?_replace (b := item.prior) (by
        rw [Remindi.writtenOver_id, hid]
        exact hitem), Remindi.writtenOver_id, hid]
    have hkeep : ∀ id, item.prior.id ≠ id → db₁.remindi.find? id = db.remindi.find? id :=
      fun id hne => by rw [hfind, if_neg hne]
    have hne : ∀ other ∈ rest, item.prior.id ≠ other.prior.id := fun other hmem heq =>
      hfresh (List.mem_map.mpr ⟨other, hmem, heq.symm⟩)
    obtain ⟨rfl, hleft, hother⟩ := ih hrestDistinct fun other hmem => by
      rw [hkeep _ (hne other hmem)]
      exact hrestStored other hmem
    refine ⟨by simp [ReadyItem.report, hevents], List.forall_mem_cons.mpr ⟨?_, hleft⟩,
      fun id hid => ?_⟩
    · rw [hother _ fun other hmem heq => hne other hmem heq.symm, hfind, if_pos rfl]
      simp [ReadyItem.left, hevents]
    · obtain ⟨hhead, htail⟩ := List.forall_mem_cons.mp hid
      rw [hother id htail, hkeep id hhead]
  | @missed db db' item rest items hevents hmissed hrest ih =>
    -- the row is there, at its version and of its owner
    obtain ⟨hitem, -⟩ := List.forall_mem_cons.mp hstored
    have hfound := hmissed item.prior (by rw [item.sameSchedule.id]; exact hitem)
    rw [item.sameSchedule.ownerId] at hfound
    simp at hfound

end

/-! ## Columns -/

/-- The fire time stays, the snooze stays or ends. -/
structure KeepsTimes (row row' : Remindi) : Prop where
  nextFireAt : row'.nextFireAt = row.nextFireAt
  snoozeUntil : row'.snoozeUntil = row.snoozeUntil ∨ row'.snoozeUntil = none

theorem KeepsTimes.columns {row row' : Remindi} (h : KeepsTimes row row') (hrow : row.Columns) :
    row'.Columns where
  nextFireAt t ht := hrow.nextFireAt t (h.nextFireAt.symm.trans ht)
  snoozeUntil t ht := by
    rcases h.snoozeUntil with hsame | hnone
    · exact hrow.snoozeUntil t (hsame.symm.trans ht)
    · rw [hnone] at ht
      cases ht

theorem map_truncateMillis {value : Option OffsetDateTime}
    (h : ∀ t, value = some t → Column t) : value.map OffsetDateTime.truncateMillis = value := by
  cases value with
  | none => rfl
  | some t => exact congrArg some (h t rfl).1

/-- What could be read has no year before 0. -/
theorem year_nonneg_of_readable {row : Remindi} (h : remindiFromRow row = .ok row) :
    (∀ t, row.nextFireAt = some t → 0 ≤ t.year) ∧ ∀ t, row.snoozeUntil = some t → 0 ≤ t.year := by
  have hparse : ∀ {value : Option OffsetDateTime} {u : Unit}, parseOptional value = .ok u →
      ∀ t, value = some t → 0 ≤ t.year := by
    rintro value u h t rfl
    simp only [parseOptional, parseInstant] at h
    split at h
    · assumption
    · cases h
  unfold remindiFromRow at h
  simp only [except_bind_ok] at h
  obtain ⟨_, hfire, _, -, _, -, _, -, _, hsnooze, -⟩ := h
  exact ⟨hparse hfire, hparse hsnooze⟩

theorem Remindi.Columns.fires {row : Remindi} (h : row.Columns)
    (hreadable : remindiFromRow row = .ok row) : Fires row := by
  intro t ht
  obtain ⟨htruncated, htext⟩ := h.nextFireAt t ht
  have hutc : t.toUtc = t := by
    rw [← htruncated]
    rfl
  have hyear := (year_nonneg_of_readable hreadable).1 t ht
  refine ⟨htruncated, ?_, (canonicalText_isSome.mp htext).2⟩
  rw [hutc]
  exact hyear

/-- A column that is reached by the clock is so as a text. -/
theorem textReached_of_le {column : Option OffsetDateTime} {value now : OffsetDateTime}
    (hcolumn : column = some value) (hvalue : Column value) (hyear : 0 ≤ value.year)
    (hnow : (canonicalText now).isSome = true) (hle : value.utc ≤ now.utc) :
    Repository.textReached column now = true := by
  obtain ⟨x, hx⟩ := Option.isSome_iff_exists.mp hvalue.2
  obtain ⟨y, hy⟩ := Option.isSome_iff_exists.mp hnow
  have hutc : value.toUtc = value := by
    rw [← hvalue.1]
    rfl
  rw [← hutc] at hyear
  unfold Repository.textReached
  rw [hcolumn, Option.bind_some, hx, hy]
  exact decide_eq_true ((canonicalText_le_iff hyear hx hy).mpr (Int.ediv_le_ediv (by decide) hle))

/-- **What could be read and is ready is selected.** -/
theorem selects_of_ready {row : Remindi} {now : OffsetDateTime} {context : CheckContext}
    {readiness : Readiness} (hcolumns : row.Columns) (hreadable : remindiFromRow row = .ok row)
    (hnow : (canonicalText now).isSome = true) (hready : row.ReadyBy now context readiness)
    (includeScheduled : Bool) : Selects now includeScheduled row := by
  unfold Selects
  split
  · exact hready.isActive
  obtain ⟨hfireYear, hsnoozeYear⟩ := year_nonneg_of_readable hreadable
  cases hready with
  | due hstate => exact Or.inl (Or.inl hstate)
  | overdue hstate => exact Or.inl (Or.inr hstate)
  | @awake hstate deadline hsnooze hreached =>
    exact Or.inr (Or.inl ⟨hstate, textReached_of_le hsnooze (hcolumns.snoozeUntil _ hsnooze)
      (hsnoozeYear _ hsnooze) hnow hreached⟩)
  | satisfied hstate htrigger =>
    refine Or.inr (Or.inr ⟨hstate, fun htimed => ?_⟩)
    obtain ⟨anchor, hfire, hreached⟩ :=
      (Remindi.triggerSatisfaction_ok htrigger).reached htimed rfl
    exact textReached_of_le hfire (hcolumns.nextFireAt _ hfire) (hfireYear _ hfire) hnow hreached

section

variable {now : OffsetDateTime} {context : CheckContext}

theorem ReadyItem.itemKey_left {x : Externals} (item : ReadyItem now context)
    (hcolumns : item.prior.Columns) :
    itemKey (item.left x) = itemKey item.prior := by
  unfold ReadyItem.left
  split
  · rfl
  · have honly := (Remindi.evaluate_ok item.evaluated).only
    have hfire := map_truncateMillis hcolumns.nextFireAt
    rw [honly]
    simp only [Remindi.writtenOver, Remindi.stored, Remindi.truncateMillis, RemindiCore.itemKey]
    rw [hfire]

theorem ReadyItem.settled_left {x : Externals} (item : ReadyItem now context) :
    (item.left x).SettledAs item.checked.readiness := by
  obtain ⟨hsettled, -, hsame⟩ := Remindi.evaluate_ready_ok item.evaluated
  unfold ReadyItem.left Remindi.SettledAs
  split
  · next hempty =>
    rw [hsame (List.isEmpty_iff.mp hempty)]
    exact hsettled
  · exact hsettled

theorem ReadyItem.inScope_left {x : Externals} (item : ReadyItem now context) {ownerId : String}
    {scope : CheckScope} (h : InScope ownerId scope item.prior) :
    InScope ownerId scope (item.left x) := by
  unfold ReadyItem.left
  split
  · exact h
  · exact ⟨item.sameSchedule.ownerId.trans h.ownerId, h.projectId, h.taskId⟩

theorem ReadyItem.keepsTimes_left {x : Externals} (item : ReadyItem now context)
    (h : item.prior.Columns) :
    KeepsTimes item.prior (item.left x) := by
  obtain ⟨-, hsnooze, -⟩ := Remindi.evaluate_ready_ok item.evaluated
  unfold ReadyItem.left
  split
  · exact ⟨rfl, Or.inl rfl⟩
  · constructor
    · show item.checked.remindi.nextFireAt.map OffsetDateTime.truncateMillis = _
      rw [item.sameSchedule.nextFireAt, map_truncateMillis h.nextFireAt]
    · show item.checked.remindi.snoozeUntil.map OffsetDateTime.truncateMillis = _ ∨
        item.checked.remindi.snoozeUntil.map OffsetDateTime.truncateMillis = none
      rcases hsnooze with hsame | hnone
      · rw [hsame, map_truncateMillis h.snoozeUntil]
        exact Or.inl rfl
      · rw [hnone]
        exact Or.inr rfl

theorem ReadyItem.key_report (item : ReadyItem now context) : checkKey item.report = item.key := by
  unfold ReadyItem.report
  split
  · rw [item.key_eq]
    rfl
  · rfl

theorem ReadyItem.report_id (item : ReadyItem now context) :
    item.report.remindi.id = item.prior.id := by
  unfold ReadyItem.report
  split
  · rfl
  · exact item.sameSchedule.id

end

/-! ## One page as a visit -/

/-- The cursor stands at an item with this key. -/
inductive CursorAt : Option CheckCursor → Option CheckKey → Prop
  | start : CursorAt none none
  | item {last : CheckedItem} {cursor : CheckCursor} (hcursor : checkCursor last = .ok cursor)
      (hfires : Fires last.remindi) : CursorAt (some cursor) (some (checkKey last))

/-- The item is ready at `now` with this key, and a check can read it. -/
def Tracked (ownerId : String) (scope : CheckScope) (now : OffsetDateTime) (db : Db) (id : Uuid)
    (k : CheckKey) : Prop :=
  ∃ row readiness, db.remindi.find? id = some row ∧ InScope ownerId scope row ∧
    row.ReadyBy now scope.context readiness ∧ remindiFromRow row = .ok row ∧
    k = toLex (readinessRank readiness, itemKey row)

section

variable {now : OffsetDateTime}

namespace CheckPage

theorem read (page : CheckPage service actor request now db) :
    ReadFrom db (page.ready.map (·.prior)) :=
  (checkCandidates_ok page.hcandidates).sublist (previews_sublist page.hready)

theorem distinct (page : CheckPage service actor request now db) :
    (page.ready.map (·.prior.id)).Nodup := by
  simpa [Function.comp_def] using page.read.nodup

theorem stored (page : CheckPage service actor request now db) :
    ∀ item ∈ page.ready, db.remindi.find? item.prior.id = some item.prior := fun _ hitem =>
  Table.find?_of_mem (page.read.stored _ (List.mem_map_of_mem hitem))

/-- The clock reading has a timestamp, or the narrowed query could not be asked. -/
theorem canonical_now (page : CheckPage service actor request now db)
    (hnarrow : request.includeScheduled = false) : (canonicalText now).isSome = true := by
  have h := page.hcandidates
  unfold Repository.checkCandidates at h
  dsimp only at h
  rw [hnarrow, if_neg Bool.false_ne_true] at h
  obtain ⟨_, htime, -⟩ := except_bind_ok.mp h
  unfold timestamp canonicalTimestamp at htime
  cases htext : canonicalText now with
  | some text => rfl
  | none =>
    rw [htext] at htime
    cases htime

theorem mem_ready (page : CheckPage service actor request now db)
    {item : ReadyItem now page.scope.context} (hitem : item ∈ page.ready) :
    InScope service.ownerId page.scope item.prior ∧ remindiFromRow item.prior = .ok item.prior := by
  obtain ⟨hcandidate, -⟩ := (mem_previews page.hready).mp ⟨item, hitem, rfl, rfl⟩
  exact ⟨((mem_checkCandidates page.hcandidates).mp hcandidate).2.1,
    readable_of_mem page.hcandidates _ hcandidate⟩

/-- **The ready list of a page.** -/
theorem tracked_iff (page : CheckPage service actor request now db)
    (hcolumns : db.Columns) {id : Uuid} {k : CheckKey} :
    (∃ item ∈ page.ready, item.prior.id = id ∧ item.key = k) ↔
      Tracked service.ownerId page.scope now db id k := by
  constructor
  · rintro ⟨item, hitem, rfl, rfl⟩
    obtain ⟨hscope, hreadable⟩ := page.mem_ready hitem
    exact ⟨item.prior, item.checked.readiness, page.stored item hitem, hscope, item.readyBy,
      hreadable, item.key_eq⟩
  · rintro ⟨row, readiness, hrow, hscope, hready, hreadable, rfl⟩
    obtain ⟨hmem, rfl⟩ := Table.find?_eq_some.mp hrow
    have hselects : Selects now request.includeScheduled row := by
      cases hinclude : request.includeScheduled with
      | true => exact hready.isActive
      | false =>
        exact selects_of_ready (hcolumns row hmem) hreadable (page.canonical_now hinclude) hready _
    have hcandidate := (mem_checkCandidates page.hcandidates).mpr ⟨hmem, hscope, hselects⟩
    obtain ⟨item, hitem, rfl, rfl⟩ := (mem_previews page.hready).mpr ⟨hcandidate, hready⟩
    exact ⟨item, hitem, rfl, item.key_eq⟩

theorem fires (page : CheckPage service actor request now db) (hcolumns : db.Columns)
    {item : ReadyItem now page.scope.context} (hitem : item ∈ page.ready) :
    Fires item.checked.remindi := by
  intro t ht
  rw [item.sameSchedule.nextFireAt] at ht
  have hmem := page.read.stored _ (List.mem_map_of_mem hitem)
  exact (hcolumns _ hmem).fires (page.mem_ready hitem).2 t ht

/-- Reading after the cursor is reading after its key. -/
theorem mem_afterCursor (page : CheckPage service actor request now db)
    (hcolumns : db.Columns) {K : Option CheckKey} (hK : CursorAt page.cursor K)
    {item : ReadyItem now page.scope.context} :
    item ∈ afterCursor page.cursor (sortReady page.ready) ↔
      item ∈ page.ready ∧ After K item.key := by
  rw [← (sortReady_perm page.ready).mem_iff]
  generalize page.cursor = cursor at hK
  unfold afterCursor
  cases hK with
  | start => simp [After]
  | item hcursor hfires =>
    rw [List.mem_filter]
    refine and_congr_right fun hitem => ?_
    have hmem := (sortReady_perm page.ready).mem_iff.mp hitem
    rw [checkAfterCursor_iff hcursor (page.fires hcolumns hmem) hfires]
    simp [After, ReadyItem.key]

theorem sorted (page : CheckPage service actor request now db) :
    (afterCursor page.cursor (sortReady page.ready)).Pairwise (·.key < ·.key) := by
  refine (sortReady_sorted page.distinct).sublist ?_
  unfold afterCursor
  split
  · exact List.Sublist.refl _
  · exact List.filter_sublist

/-- The key with which the page ends, and the cursor that stands for it. -/
def endKey (page : CheckPage service actor request now db) : Option CheckKey :=
  endOf ReadyItem.key page.scope.limit (afterCursor page.cursor (sortReady page.ready))

theorem endKey_none (page : CheckPage service actor request now db)
    (h : page.endKey = none) : page.nextCursor = none := by
  have hnext := page.hnext
  have hlimit := scope_limit_pos page.hscope
  unfold endKey endOf at h
  unfold RemindiService.pageCursor at hnext
  split at h
  · next hcut =>
    rw [Option.map_eq_none_iff, List.getLast?_eq_none_iff, List.take_eq_nil_iff] at h
    rcases h with h | h
    · omega
    · rw [h] at hcut
      exact absurd hcut (by simp)
  · next hcut =>
    rw [decide_eq_false hcut, if_neg Bool.false_ne_true] at hnext
    exact (Except.ok.inj hnext).symm

theorem endKey_some (page : CheckPage service actor request now db)
    (hcolumns : db.Columns) {k : CheckKey} (h : page.endKey = some k) :
    ∃ last cursor, last ∈ afterCursor page.cursor (sortReady page.ready) ∧ last.key = k ∧
      page.nextCursor = some (service.externals.encodeCursor cursor) ∧
      CursorAt (some cursor) (some k) := by
  have hnext := page.hnext
  unfold endKey endOf at h
  unfold RemindiService.pageCursor at hnext
  split at h
  · next hcut =>
    obtain ⟨last, hlast, rfl⟩ := Option.map_eq_some_iff.mp h
    have hmem : last ∈ afterCursor page.cursor (sortReady page.ready) :=
      (List.take_sublist _ _).subset (List.mem_of_getLast? hlast)
    rw [decide_eq_true hcut, if_pos rfl, hlast, Option.map_some] at hnext
    obtain ⟨text, htext, hsome⟩ := except_map_ok.mp hnext
    obtain ⟨cursor, hcursor, htext⟩ := except_bind_ok.mp htext
    obtain rfl := Except.ok.inj htext
    have hready : last ∈ page.ready := by
      rw [← (sortReady_perm page.ready).mem_iff]
      unfold afterCursor at hmem
      split at hmem
      · exact hmem
      · exact (List.mem_filter.mp hmem).1
    exact ⟨last, cursor, hmem, rfl, hsome.symm, .item hcursor (page.fires hcolumns hready)⟩
  · cases h

theorem key_find (page : CheckPage service actor request now db) {id : Uuid}
    {k : CheckKey} :
    (page.ready.find? fun item => item.prior.id = id).map (·.key) = some k ↔
      ∃ item ∈ page.ready, item.prior.id = id ∧ item.key = k := by
  rw [Option.map_eq_some_iff]
  constructor
  · rintro ⟨item, hitem, hk⟩
    exact ⟨item, List.mem_of_find?_eq_some hitem, by simpa using List.find?_some hitem, hk⟩
  · rintro ⟨item, hitem, hid, hk⟩
    refine ⟨item, ?_, hk⟩
    cases hfind : page.ready.find? fun item => item.prior.id = id with
    | none =>
      have := List.find?_eq_none.mp hfind item hitem
      simp [hid] at this
    | some other =>
      have hother : other.prior.id = id := by simpa using List.find?_some hfind
      rw [List.inj_on_of_nodup_map page.distinct (List.mem_of_find?_eq_some hfind) hitem
        (hother.trans hid.symm)]

/-- **The page as a visit.** -/
def visit (page : CheckPage service actor request now db) (hcolumns : db.Columns)
    (K : Option CheckKey) (hK : CursorAt page.cursor K) : Visit Uuid CheckKey where
  key id := (page.ready.find? fun item => item.prior.id = id).map (·.key)
  cursor := K
  items := page.page.map (·.prior.id)
  next := page.endKey
  mem_iff id := by
    rw [List.mem_map]
    constructor
    · rintro ⟨item, hitem, rfl⟩
      obtain ⟨hmem, hwithin⟩ :=
        (mem_take_iff page.sorted (scope_limit_pos page.hscope)).mp hitem
      obtain ⟨hready, hafter⟩ := (page.mem_afterCursor hcolumns hK).mp hmem
      exact ⟨item.key, page.key_find.mpr ⟨item, hready, rfl, rfl⟩, hafter, hwithin⟩
    · rintro ⟨k, hk, hafter, hwithin⟩
      obtain ⟨item, hready, rfl, rfl⟩ := page.key_find.mp hk
      exact ⟨item, (mem_take_iff page.sorted (scope_limit_pos page.hscope)).mpr
        ⟨(page.mem_afterCursor hcolumns hK).mpr ⟨hready, hafter⟩, hwithin⟩, rfl⟩
  advances k hk := by
    obtain ⟨last, _, hmem, rfl, -⟩ := page.endKey_some hcolumns hk
    exact ((page.mem_afterCursor hcolumns hK).mp hmem).2

end CheckPage

end

/-! ## The item between two pages -/

/-- What a check has left of the store it answered from. -/
structure Leaves (service : RemindiService) (scope : CheckScope) (db : Db) (result : CheckResult)
    (db' : Db) : Prop where
  rows : ∀ row ∈ db'.remindi.rows, ∃ old ∈ db.remindi.rows, KeepsTimes old row
  other : ∀ id, (∀ a ∈ result.items, a.remindi.id ≠ id) →
    db'.remindi.find? id = db.remindi.find? id
  returned : ∀ a ∈ result.items, ∃ row, db'.remindi.find? a.remindi.id = some row ∧
    InScope service.ownerId scope row ∧ row.SettledAs a.readiness ∧
    itemKey row = itemKey a.remindi

theorem Leaves.columns {scope : CheckScope} (h : Leaves service scope db result db')
    (hcolumns : db.Columns) : db'.Columns := by
  intro row hrow
  obtain ⟨old, hold, hkeeps⟩ := h.rows row hrow
  exact hkeeps.columns (hcolumns old hold)

namespace CheckPage

variable {now : OffsetDateTime} {items : List CheckedItem}

theorem mem_of_mem_page (page : CheckPage service actor request now db)
    {item : ReadyItem now page.scope.context} (h : item ∈ page.page) : item ∈ page.ready := by
  have hmem := (List.take_sublist _ _).subset h
  rw [← (sortReady_perm page.ready).mem_iff]
  unfold afterCursor at hmem
  split at hmem
  · exact hmem
  · exact (List.mem_filter.mp hmem).1

theorem page_distinct (page : CheckPage service actor request now db) :
    (page.page.map (·.prior.id)).Nodup := by
  have hsorted := page.sorted.sublist (List.take_sublist page.scope.limit _)
  refine List.pairwise_map.mpr (hsorted.imp_of_mem fun {a b} ha hb hlt heq => ?_)
  have ha := page.mem_of_mem_page ha
  have hb := page.mem_of_mem_page hb
  rw [List.inj_on_of_nodup_map page.distinct ha hb heq] at hlt
  exact lt_irrefl _ hlt

/-- The report of a page: its items in order, the keys with which they were ready. -/
theorem report (page : CheckPage service actor request now db)
    (h : Reported service.externals db page.page items db') :
    items = page.page.map (·.report) :=
  (h.alone page.page_distinct fun item hitem => page.stored item (page.mem_of_mem_page hitem)).1

theorem report_sorted (page : CheckPage service actor request now db)
    (h : Reported service.externals db page.page items db') :
    items.Pairwise (checkKey · < checkKey ·) := by
  rw [page.report h]
  refine List.pairwise_map.mpr ((page.sorted.sublist (List.take_sublist _ _)).imp ?_)
  intro a b hlt
  rw [a.key_report, b.key_report]
  exact hlt

theorem report_ids (page : CheckPage service actor request now db)
    (h : Reported service.externals db page.page items db') :
    items.map (·.remindi.id) = page.page.map (·.prior.id) := by
  rw [page.report h, List.map_map]
  exact List.map_congr_left fun item _ => item.report_id

theorem leaves (page : CheckPage service actor request now db) (hcolumns : db.Columns)
    (h : Reported service.externals db page.page items db') :
    Leaves service page.scope db (page.pending.result items) db' := by
  obtain ⟨hitems, hleft, hother⟩ := h.alone page.page_distinct fun item hitem =>
    page.stored item (page.mem_of_mem_page hitem)
  have hids := page.report_ids h
  have hrow : ∀ id, (∀ a ∈ items, a.remindi.id ≠ id) →
      ∀ item ∈ page.page, item.prior.id ≠ id := by
    rintro id hnone item hitem rfl
    have hmem : item.prior.id ∈ items.map (·.remindi.id) := by
      rw [hids]
      exact List.mem_map_of_mem hitem
    obtain ⟨a, ha, heq⟩ := List.mem_map.mp hmem
    exact hnone a ha heq
  refine ⟨fun row hmem => ?_, fun id hnone => hother id (hrow id hnone), fun a ha => ?_⟩
  · have hfind := Table.find?_of_mem hmem
    by_cases hreturned : ∃ item ∈ page.page, item.prior.id = row.id
    · obtain ⟨item, hitem, hid⟩ := hreturned
      rw [← hid, hleft item hitem] at hfind
      rw [← Option.some.inj hfind]
      have hmem := page.read.stored _ (List.mem_map_of_mem (page.mem_of_mem_page hitem))
      exact ⟨item.prior, hmem, item.keepsTimes_left (hcolumns _ hmem)⟩
    · rw [hother row.id fun item hitem hid => hreturned ⟨item, hitem, hid⟩] at hfind
      exact ⟨row, (Table.find?_eq_some.mp hfind).1, rfl, Or.inl rfl⟩
  · have ha : a ∈ items := ha
    rw [hitems] at ha
    obtain ⟨item, hitem, rfl⟩ := List.mem_map.mp ha
    have hready := page.mem_of_mem_page hitem
    have hprior := hcolumns _ (page.read.stored _ (List.mem_map_of_mem hready))
    refine ⟨item.left service.externals, ?_, item.inScope_left (page.mem_ready hready).1, ?_, ?_⟩
    · rw [item.report_id]
      exact hleft item hitem
    · unfold ReadyItem.report
      split <;> exact item.settled_left
    · rw [item.itemKey_left hprior]
      have hkey := item.key_report
      rw [item.key_eq] at hkey
      exact (congrArg (fun key => (ofLex key).2) hkey).symm

/-- A due or overdue item is always selected, so it could be read. -/
theorem readable_of_due (page : CheckPage service actor request now db) {id : Uuid}
    {row : Remindi} (hrow : db.remindi.find? id = some row)
    (hscope : InScope service.ownerId page.scope row)
    (hstate : row.state = .due ∨ row.state = .overdue) : remindiFromRow row = .ok row := by
  refine readable_of_mem page.hcandidates row ((mem_checkCandidates page.hcandidates).mpr
    ⟨(Table.find?_eq_some.mp hrow).1, hscope, ?_⟩)
  unfold Selects
  split
  · rcases hstate with h | h <;> rw [h] <;> rfl
  · exact Or.inl hstate

end CheckPage

/-- The item is ready from `now` on, never with a key above `k`, wherever it can be read. -/
structure Upcoming (ownerId : String) (scope : CheckScope) (now : OffsetDateTime) (db : Db)
    (id : Uuid) (k : CheckKey) (row : Remindi) : Prop where
  found : db.remindi.find? id = some row
  inScope : InScope ownerId scope row
  readable : remindiFromRow row = .ok row ∨ row.state = .due ∨ row.state = .overdue
  ready : ∀ now', now.utc ≤ now'.utc → ∃ readiness, row.ReadyBy now' scope.context readiness ∧
    toLex (readinessRank readiness, itemKey row) ≤ k

section

variable {ownerId : String} {scope : CheckScope} {now now' : OffsetDateTime} {id : Uuid}
  {k k' : CheckKey} {row : Remindi}

theorem Tracked.unique (h : Tracked ownerId scope now db id k)
    (h' : Tracked ownerId scope now db id k') : k = k' := by
  obtain ⟨row, readiness, hrow, -, hready, -, rfl⟩ := h
  obtain ⟨row', readiness', hrow', -, hready', -, rfl⟩ := h'
  obtain rfl := Option.some.inj (hrow.symm.trans hrow')
  rw [hready.unique hready']

theorem toLex_le_of_rank {readiness readiness' : Readiness} {i : ℕᵒᵈ ×ₗ WithTop ℤ ×ₗ String}
    (h : readinessRank readiness' ≤ readinessRank readiness) :
    (toLex (readinessRank readiness', i) : CheckKey) ≤ toLex (readinessRank readiness, i) := by
  rcases Nat.lt_or_eq_of_le h with hlt | heq
  · exact le_of_lt (Prod.Lex.toLex_lt_toLex.mpr (Or.inl hlt))
  · rw [heq]

/-- **The key of a ready item never rises.** -/
theorem Tracked.upcoming (h : Tracked ownerId scope now db id k) :
    ∃ row, Upcoming ownerId scope now db id k row := by
  obtain ⟨row, readiness, hrow, hscope, hready, hreadable, rfl⟩ := h
  refine ⟨row, hrow, hscope, Or.inl hreadable, fun now' hle => ?_⟩
  obtain ⟨readiness', hready', hsame | ⟨rfl, rfl, -⟩⟩ := hready.later hle
  · exact ⟨readiness', hready', by rw [hsame]⟩
  · exact ⟨.overdue, hready', toLex_le_of_rank (Nat.zero_le _)⟩

/-- At its next check the item is ready, and what that leaves behind is upcoming again. -/
theorem Upcoming.step (h : Upcoming service.ownerId scope now db id k row)
    (page : CheckPage service actor request now' db) (hscope : page.scope = scope)
    (hcolumns : db.Columns) (hle : now.utc ≤ now'.utc) {items : List CheckedItem}
    (hreported : Reported service.externals db page.page items db') :
    ∃ k' ≤ k, Tracked service.ownerId scope now' db id k' ∧
      ∃ row', Upcoming service.ownerId scope now' db' id k' row' := by
  subst hscope
  obtain ⟨readiness, hready, hk⟩ := h.ready now' hle
  have hreadable : remindiFromRow row = .ok row :=
    h.readable.elim (fun hread => hread) fun hstate => page.readable_of_due h.found h.inScope hstate
  have htracked : Tracked service.ownerId page.scope now' db id
      (toLex (readinessRank readiness, itemKey row)) :=
    ⟨row, readiness, h.found, h.inScope, hready, hreadable, rfl⟩
  refine ⟨_, hk, htracked, ?_⟩
  have hleaves := page.leaves hcolumns hreported
  by_cases hreturned : ∃ a ∈ items, a.remindi.id = id
  · -- returned: it is left settled, and ranks at most as it was reported
    obtain ⟨a, ha, rfl⟩ := hreturned
    obtain ⟨row', hrow', hscope', hsettled, hkey⟩ := hleaves.returned a ha
    have ha' := ha
    rw [page.report hreported] at ha'
    obtain ⟨item, hitem, rfl⟩ := List.mem_map.mp ha'
    have hreport := htracked.unique ((page.tracked_iff hcolumns).mp
      ⟨item, page.mem_of_mem_page hitem, item.report_id.symm, rfl⟩)
    rw [← item.key_report] at hreport
    refine ⟨row', hrow', hscope', Or.inr (hsettled.elim (fun h => Or.inr h.1) fun h => Or.inl h.1),
      fun now'' _ => ?_⟩
    obtain ⟨readiness'', hready'', hrank⟩ := hsettled.readyBy now'' page.scope.context
    refine ⟨readiness'', hready'', ?_⟩
    rw [hreport, hkey]
    exact toLex_le_of_rank hrank
  · obtain ⟨row', hup⟩ := htracked.upcoming
    refine ⟨row', ?_, hup.inScope, hup.readable, hup.ready⟩
    rw [hleaves.other id fun a ha hid => hreturned ⟨a, ha, hid⟩]
    exact hup.found

end

end RemindiCore
