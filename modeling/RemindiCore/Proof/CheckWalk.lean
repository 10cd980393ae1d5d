import RemindiCore.Proof.CheckVisit
import RemindiCore.Proof.Steps

/-!
# Walking through the pages of a check

A walk follows `next_cursor` from page to page, with nobody else at the store.
Its pages are the visits of a walk in the sense of `Lib/Paging.lean`
(`CheckWalk.visits`), a ready item is ready at every later page with a key that
never rises (`CheckWalk.never_rises`), so nothing is returned twice
(`check_walk_sorted_without_repeats`).
-/

namespace RemindiCore

open CivilTime KeyedTable Transaction Paging

/-! ## Walks -/

/-- One page of a walk: the cursor it was asked with, the store before it, its answer. -/
structure WalkPage where
  cursor : Option String
  before : Db
  result : CheckResult

/-- Pages asked for one after the other, each with the next cursor of the one before. -/
inductive CheckWalk (service : RemindiService) (actor : Actor) (request : CheckRequest) :
    Option String → Db → List WalkPage → Db → Prop
  | last {cursor : Option String} {db db' : Db} {result : CheckResult} {readEnv persistEnv : Env}
      (answered : service.check actor { request with cursor := cursor } readEnv persistEnv db =
        (.ok result, db')) :
      CheckWalk service actor request cursor db [⟨cursor, db, result⟩] db'
  | more {cursor : Option String} {db db₁ db' : Db} {result : CheckResult} {pages : List WalkPage}
      {text : String} {readEnv persistEnv : Env}
      (answered : service.check actor { request with cursor := cursor } readEnv persistEnv db =
        (.ok result, db₁))
      (next : result.nextCursor = some text)
      (rest : CheckWalk service actor request (some text) db₁ pages db') :
      CheckWalk service actor request cursor db (⟨cursor, db, result⟩ :: pages) db'

/-- Nothing follows the last page. -/
def WalkEnds (pages : List WalkPage) : Prop :=
  ∀ page ∈ pages.getLast?, page.result.nextCursor = none

/-- The clock does not go back from page to page. -/
def ClockRises (pages : List WalkPage) : Prop :=
  pages.Pairwise fun p q => p.result.checkedAt.utc ≤ q.result.checkedAt.utc

theorem ClockRises.first_le {pages : List WalkPage} (h : ClockRises pages) {first : WalkPage}
    (hfirst : first ∈ pages.head?) :
    ∀ p ∈ pages, first.result.checkedAt.utc ≤ p.result.checkedAt.utc := by
  cases pages with
  | nil => cases hfirst
  | cons p pages =>
    obtain rfl := Option.some.inj hfirst
    exact List.forall_mem_cons.mpr ⟨le_refl _, (List.pairwise_cons.mp h).1⟩

/-- A sealed cursor is opened again. -/
def Externals.SealsCursors (x : Externals) : Prop :=
  ∀ cursor, x.decodeCursor (x.encodeCursor cursor) = some cursor

variable {service : RemindiService} {actor : Actor} {request : CheckRequest} {scope : CheckScope}
  {db db' : Db} {pages : List WalkPage} {cursor : Option String}

/-! ## Walks as visits -/

/-- The visit behind a page. -/
structure VisitOf (service : RemindiService) (scope : CheckScope) (page : WalkPage)
    (v : Visit Uuid CheckKey) : Prop where
  key : ∀ id k, v.key id = some k ↔
    Tracked service.ownerId scope page.result.checkedAt page.before id k
  items : v.items = page.result.items.map (·.remindi.id)
  sorted : page.result.items.Pairwise (checkKey · < checkKey ·)
  last : page.result.nextCursor = none → v.next = none
  cursor : ∃ cursor, service.decodeCursor page.cursor = .ok cursor ∧ CursorAt cursor v.cursor

/-- The next page is asked for with the cursor that stands for the end of this one. -/
theorem decodeCursor_next (hseals : service.externals.SealsCursors) {cursor : CheckCursor}
    {text : String} (h : text = service.externals.encodeCursor cursor) :
    service.decodeCursor (some text) = .ok (some cursor) := by
  subst h
  unfold RemindiService.decodeCursor
  dsimp only
  rw [hseals cursor]

/-- One page: its visit, what it leaves, and where the next one starts. -/
theorem page_of_answer (hseals : service.externals.SealsCursors)
    (hscope : request.scope actor = .ok scope) (hcolumns : db.Columns) {result : CheckResult}
    {readEnv persistEnv : Env}
    (h : service.check actor { request with cursor := cursor } readEnv persistEnv db =
      (.ok result, db')) {K : Option CheckKey} {opened : Option CheckCursor}
    (hopened : service.decodeCursor cursor = .ok opened) (hK : CursorAt opened K) :
    ∃ v, VisitOf service scope ⟨cursor, db, result⟩ v ∧ v.cursor = K ∧
      Leaves service scope db result db' ∧
      (∀ now id k row, Upcoming service.ownerId scope now db id k row →
        now.utc ≤ result.checkedAt.utc →
        ∃ k' ≤ k, Tracked service.ownerId scope result.checkedAt db id k' ∧
          ∃ row', Upcoming service.ownerId scope result.checkedAt db' id k' row') ∧
      ∀ text, result.nextCursor = some text → ∃ opened k, v.next = some k ∧
        service.decodeCursor (some text) = .ok opened ∧ CursorAt opened (some k) := by
  obtain ⟨page, items, rfl, hreported⟩ := check_ok h
  obtain rfl : page.scope = scope := Except.ok.inj (page.hscope.symm.trans hscope)
  have hcursor : page.cursor = opened := Except.ok.inj (page.hcursor.symm.trans hopened)
  rw [← hcursor] at hK
  refine ⟨page.visit hcolumns K hK,
    { key := fun id k => page.key_find.trans (page.tracked_iff hcolumns)
      items := (page.report_ids hreported).symm
      sorted := page.report_sorted hreported
      last := fun hnone => ?_
      cursor := ⟨page.cursor, page.hcursor, hK⟩ }, rfl, page.leaves hcolumns hreported,
    fun now id k row hup hle => hup.step page rfl hcolumns hle hreported, fun text htext => ?_⟩
  · cases hend : page.endKey with
    | none => exact hend
    | some k =>
      obtain ⟨last, cursor', -, -, hnext, -⟩ := page.endKey_some hcolumns hend
      have hnone : page.nextCursor = none := hnone
      rw [hnone] at hnext
      cases hnext
  · have htext : page.nextCursor = some text := htext
    cases hend : page.endKey with
    | none =>
      rw [page.endKey_none hend] at htext
      cases htext
    | some k =>
      obtain ⟨last, cursor', -, -, hnext, hat⟩ := page.endKey_some hcolumns hend
      refine ⟨some cursor', k, hend, decodeCursor_next hseals ?_, hat⟩
      rw [htext] at hnext
      exact Option.some.inj hnext

/-- **A walk as visits.** -/
theorem CheckWalk.visits (hseals : service.externals.SealsCursors)
    (hscope : request.scope actor = .ok scope)
    (hwalk : CheckWalk service actor request cursor db pages db') (hcolumns : db.Columns)
    {K : Option CheckKey} {opened : Option CheckCursor}
    (hopened : service.decodeCursor cursor = .ok opened) (hK : CursorAt opened K) :
    ∃ v visits, List.Forall₂ (VisitOf service scope) pages (v :: visits) ∧ v.cursor = K ∧
      (v :: visits).IsChain Follows := by
  induction hwalk generalizing K opened with
  | last answered =>
    obtain ⟨v, hv, hcursor, -⟩ := page_of_answer hseals hscope hcolumns answered hopened hK
    exact ⟨v, [], .cons hv .nil, hcursor, List.isChain_singleton v⟩
  | more answered next rest ih =>
    obtain ⟨v, hv, hcursor, hleaves, -, hnext⟩ :=
      page_of_answer hseals hscope hcolumns answered hopened hK
    obtain ⟨opened', k, hk, hopened', hat⟩ := hnext _ next
    obtain ⟨w, visits, hpages, hw, hchain⟩ := ih (hleaves.columns hcolumns) hopened' hat
    exact ⟨v, w :: visits, .cons hv hpages, hcursor,
      List.isChain_cons_cons.mpr ⟨⟨k, hk, hw⟩, hchain⟩⟩

/-- An upcoming item is ready at every page of the walk. -/
theorem CheckWalk.tracked (hseals : service.externals.SealsCursors)
    (hscope : request.scope actor = .ok scope)
    (hwalk : CheckWalk service actor request cursor db pages db') (hcolumns : db.Columns)
    {opened : Option CheckCursor} {K : Option CheckKey}
    (hopened : service.decodeCursor cursor = .ok opened) (hK : CursorAt opened K)
    (hclock : ClockRises pages) {now : OffsetDateTime} {id : Uuid} {k : CheckKey} {row : Remindi}
    (hnow : ∀ p ∈ pages, now.utc ≤ p.result.checkedAt.utc)
    (hup : Upcoming service.ownerId scope now db id k row) :
    ∀ p ∈ pages, ∃ k' ≤ k, Tracked service.ownerId scope p.result.checkedAt p.before id k' := by
  induction hwalk generalizing now k row opened K with
  | last answered =>
    obtain ⟨-, -, -, -, hstep, -⟩ := page_of_answer hseals hscope hcolumns answered hopened hK
    obtain ⟨k', hle, htracked, -⟩ := hstep _ id k row hup (hnow _ List.mem_cons_self)
    exact List.forall_mem_singleton.mpr ⟨k', hle, htracked⟩
  | more answered next rest ih =>
    obtain ⟨v, -, -, hleaves, hstep, hnext⟩ :=
      page_of_answer hseals hscope hcolumns answered hopened hK
    obtain ⟨opened', k₁, -, hopened', hat⟩ := hnext _ next
    obtain ⟨k', hle, htracked, row', hup'⟩ := hstep _ id k row hup (hnow _ List.mem_cons_self)
    obtain ⟨hhead, htail⟩ := List.pairwise_cons.mp hclock
    refine List.forall_mem_cons.mpr ⟨⟨k', hle, htracked⟩, fun p hp => ?_⟩
    obtain ⟨k'', hle', htracked'⟩ := ih (hleaves.columns hcolumns) hopened' hat htail hhead hup' p hp
    exact ⟨k'', le_trans hle' hle, htracked'⟩

/-- **Once ready, an item is ready at every later page, with a key that never rises.** -/
theorem CheckWalk.never_rises (hseals : service.externals.SealsCursors)
    (hscope : request.scope actor = .ok scope)
    (hwalk : CheckWalk service actor request cursor db pages db') (hcolumns : db.Columns)
    {opened : Option CheckCursor} {K : Option CheckKey}
    (hopened : service.decodeCursor cursor = .ok opened) (hK : CursorAt opened K)
    (hclock : ClockRises pages) (id : Uuid) :
    pages.Pairwise fun p q => ∀ k,
      Tracked service.ownerId scope p.result.checkedAt p.before id k →
      ∃ k' ≤ k, Tracked service.ownerId scope q.result.checkedAt q.before id k' := by
  induction hwalk generalizing opened K with
  | last answered => exact List.pairwise_singleton _ _
  | more answered next rest ih =>
    obtain ⟨v, -, -, hleaves, hstep, hnext⟩ :=
      page_of_answer hseals hscope hcolumns answered hopened hK
    obtain ⟨opened', k₁, -, hopened', hat⟩ := hnext _ next
    obtain ⟨hhead, htail⟩ := List.pairwise_cons.mp hclock
    refine List.pairwise_cons.mpr ⟨fun q hq k htracked => ?_, ih (hleaves.columns hcolumns) hopened' hat htail⟩
    obtain ⟨row, hup⟩ := htracked.upcoming
    obtain ⟨k', hle, -, row', hup'⟩ := hstep _ id k row hup (le_refl _)
    obtain ⟨k'', hle', htracked''⟩ :=
      rest.tracked hseals hscope (hleaves.columns hcolumns) hopened' hat htail hhead hup' q hq
    exact ⟨k'', le_trans hle' hle, htracked''⟩

/-! ## Nothing twice, and in order -/

/-- The item is ready for a check, as the evaluator says. -/
def Remindi.IsReady (r : Remindi) (now : OffsetDateTime) (context : CheckContext)
    (checked : CheckedItem) : Prop :=
  ∃ events, r.evaluate now context .notEvaluated =
    .ok (checked.remindi, { readiness := some checked.readiness, events := events })

/-- The cursor of a ready item exists, and means after it in `check_order`. -/
def CursorAgrees (x y : CheckedItem) : Prop :=
  ∃ cursor, checkCursor x = .ok cursor ∧ (checkAfterCursor y cursor = true ↔ checkOrder x y = .lt)

theorem checkCursor_of_fires {item : CheckedItem} (h : Fires item.remindi) :
    ∃ cursor, checkCursor item = .ok cursor := by
  unfold checkCursor
  cases hfire : item.remindi.nextFireAt with
  | none => exact ⟨_, rfl⟩
  | some value =>
    obtain ⟨text, htext⟩ := (h value hfire).text
    have htimestamp : canonicalTimestamp value = .ok text := by
      unfold canonicalTimestamp
      rw [htext]
    refine ⟨_, except_bind_ok.mpr ⟨some text, ?_, rfl⟩⟩
    exact except_map_ok.mpr ⟨text, domain_ok.mpr htimestamp, rfl⟩

theorem cursorAgrees_of_fires {x y : CheckedItem} (hx : Fires x.remindi) (hy : Fires y.remindi) :
    CursorAgrees x y := by
  obtain ⟨cursor, hcursor⟩ := checkCursor_of_fires hx
  exact ⟨cursor, hcursor, (checkAfterCursor_iff hcursor hy hx).trans checkOrder_eq_lt.symm⟩

theorem Remindi.ReadyBy.isReady {r : Remindi} {now : OffsetDateTime} {context : CheckContext}
    {readiness : Readiness} (h : r.ReadyBy now context readiness) :
    ∃ checked, r.IsReady now context checked := by
  obtain ⟨r', events, hevaluate⟩ := readyBy_iff.mp h
  exact ⟨⟨r', readiness⟩, events, hevaluate⟩

/-- An evaluation does not move the fire time. -/
theorem Remindi.IsReady.fires {r : Remindi} {now : OffsetDateTime} {context : CheckContext}
    {checked : CheckedItem} (h : r.IsReady now context checked) (hfires : Fires r) :
    Fires checked.remindi := by
  obtain ⟨events, h⟩ := h
  intro t ht
  rw [(Remindi.evaluate_ok h).sameSchedule.nextFireAt] at ht
  exact hfires t ht

/-- Every row of the store has its times in the columns, in the years 0 to 9999. -/
def Db.InRange (db : Db) : Prop :=
  db.Columns ∧ ∀ row ∈ db.remindi.rows, Fires row

/-- No item is on two pages. -/
def NoRepeats (pages : List WalkPage) : Prop :=
  pages.Pairwise fun p q => ∀ a ∈ p.result.items, ∀ b ∈ q.result.items, a.remindi.id ≠ b.remindi.id

theorem CheckWalk.visits_neverRise (hseals : service.externals.SealsCursors)
    (hscope : request.scope actor = .ok scope)
    (hwalk : CheckWalk service actor request none db pages db') (hcolumns : db.Columns)
    (hclock : ClockRises pages) {visits : List (Visit Uuid CheckKey)}
    (hvisits : List.Forall₂ (VisitOf service scope) pages visits) (id : Uuid) :
    NeverRises id visits := by
  have hfalls := hwalk.never_rises hseals hscope hcolumns rfl .start hclock id
  refine pairwise_of_forall₂ hvisits hfalls fun p q v w hv hw himp k k' hk hk' => ?_
  obtain ⟨k'', hle, htracked⟩ := himp k ((hv.key id k).mp hk)
  rw [((hw.key id k').mp hk').unique htracked]
  exact hle

theorem CheckWalk.noRepeats (hseals : service.externals.SealsCursors)
    (hscope : request.scope actor = .ok scope)
    (hwalk : CheckWalk service actor request none db pages db') (hcolumns : db.Columns)
    (hclock : ClockRises pages) : NoRepeats pages := by
  obtain ⟨v, visits, hvisits, -, hchain⟩ := hwalk.visits hseals hscope hcolumns rfl .start
  -- item by item: on one page of the walk only
  have hids : ∀ id, pages.Pairwise fun p q =>
      id ∈ p.result.items.map (·.remindi.id) → id ∉ q.result.items.map (·.remindi.id) := by
    intro id
    have hkeys : (v :: visits).Pairwise fun p q => id ∈ p.items →
        ∀ k k', p.key id = some k → q.key id = some k' → k' ≤ k := by
      refine (hwalk.visits_neverRise hseals hscope hcolumns hclock hvisits id).imp ?_
      intro p q h _
      exact h
    refine pairwise_of_forall₂ hvisits.flip (no_repeat hchain hkeys) fun v w p q hv hw h hp => ?_
    rw [← (show VisitOf service scope q w from hw).items]
    exact h (by rw [(show VisitOf service scope p v from hv).items]; exact hp)
  refine List.pairwise_iff_forall_sublist.mpr fun {p q} hpq a ha b hb hid => ?_
  have h := List.pairwise_iff_forall_sublist.mp (hids a.remindi.id) hpq
  exact h (List.mem_map_of_mem ha) (by rw [hid]; exact List.mem_map_of_mem hb)

/-- The fire times of the store are those of its beginning. -/
theorem CheckWalk.fires (hseals : service.externals.SealsCursors)
    (hscope : request.scope actor = .ok scope)
    (hwalk : CheckWalk service actor request cursor db pages db') (hrange : db.InRange)
    {opened : Option CheckCursor} {K : Option CheckKey}
    (hopened : service.decodeCursor cursor = .ok opened) (hK : CursorAt opened K) :
    ∀ p ∈ pages, ∀ row ∈ p.before.remindi.rows, Fires row := by
  induction hwalk generalizing opened K with
  | last answered => exact List.forall_mem_singleton.mpr hrange.2
  | more answered next rest ih =>
    obtain ⟨v, -, -, hleaves, -, hnext⟩ :=
      page_of_answer hseals hscope hrange.1 answered hopened hK
    obtain ⟨opened', k₁, -, hopened', hat⟩ := hnext _ next
    refine List.forall_mem_cons.mpr ⟨hrange.2, ih ⟨hleaves.columns hrange.1, ?_⟩ hopened' hat⟩
    intro row hrow t ht
    obtain ⟨old, hold, hkeeps⟩ := hleaves.rows row hrow
    exact hrange.2 old hold t (hkeeps.nextFireAt.symm.trans ht)

theorem CheckWalk.has_scope (hwalk : CheckWalk service actor request cursor db pages db') :
    ∃ scope, request.scope actor = .ok scope := by
  cases hwalk with
  | last answered =>
    obtain ⟨page, -⟩ := check_ok answered
    exact ⟨page.scope, page.hscope⟩
  | more answered =>
    obtain ⟨page, -⟩ := check_ok answered
    exact ⟨page.scope, page.hscope⟩

/-- **Every page is sorted, no item is on two pages**, and the cursor of an item
means strictly after it, for each pair of items that are ready. -/
theorem check_walk_sorted_without_repeats (hseals : service.externals.SealsCursors)
    (hwalk : CheckWalk service actor request none db pages db') (hrange : db.InRange)
    (hclock : ClockRises pages) :
    (∀ p ∈ pages, p.result.items.Pairwise fun a b => checkOrder a b = .lt) ∧
      (∀ p ∈ pages, ∀ r ∈ p.before.remindi.rows, ∀ r' ∈ p.before.remindi.rows,
        ∀ now context x y, r.IsReady now context x → r'.IsReady now context y →
          CursorAgrees x y) ∧
      NoRepeats pages := by
  obtain ⟨scope, hscope⟩ := hwalk.has_scope
  refine ⟨fun p hp => ?_, fun p hp r hr r' hr' now context x y hx hy => ?_,
    hwalk.noRepeats hseals hscope hrange.1 hclock⟩
  · obtain ⟨v, visits, hvisits, -⟩ := hwalk.visits hseals hscope hrange.1 rfl .start
    obtain ⟨w, -, hw⟩ := exists_of_forall₂ hvisits.flip hp
    have hw : VisitOf service scope p w := hw
    exact hw.sorted.imp fun {a b} hlt => checkOrder_eq_lt.mpr hlt
  · have hfires := hwalk.fires hseals hscope hrange rfl .start p hp
    exact cursorAgrees_of_fires (hx.fires (hfires r hr)) (hy.fires (hfires r' hr'))

/-! ## Samples -/

namespace Sample

/-- A number as so many letters, closed by another one. -/
def tally (n : Nat) : List Char := List.replicate n 'a' ++ ['b']

def readTally : List Char → Option (Nat × List Char)
  | 'b' :: rest => some (0, rest)
  | 'a' :: rest => (readTally rest).map fun (n, rest) => (n + 1, rest)
  | _ => none

theorem readTally_tally (n : Nat) (rest : List Char) :
    readTally (tally n ++ rest) = some (n, rest) := by
  induction n with
  | zero => rfl
  | succ n ih =>
    have ih : readTally (List.replicate n 'a' ++ 'b' :: rest) = some (n, rest) := by
      simpa [tally] using ih
    simp [tally, List.replicate_succ, readTally, ih]

/-- Cursors that are opened again as they were sealed. -/
def sealing : Externals where
  sha256 := fun text => text
  encodeCursor cursor := String.ofList (tally cursor.readiness ++ (tally cursor.priority ++
    (match cursor.nextFireAt with
    | none => 'n' :: cursor.id.toList
    | some text => 's' :: (tally text.toList.length ++ (text.toList ++ cursor.id.toList)))))
  decodeCursor text := do
    let (readiness, rest) ← readTally text.toList
    let (priority, rest) ← readTally rest
    match rest with
    | 'n' :: id => some ⟨readiness, priority, none, String.ofList id⟩
    | 's' :: rest =>
      let (length, rest) ← readTally rest
      some ⟨readiness, priority, some (String.ofList (rest.take length)),
        String.ofList (rest.drop length)⟩
    | _ => none
  readNumber := id

theorem sealing_seals : sealing.SealsCursors := by
  rintro ⟨readiness, priority, nextFireAt, id⟩
  cases nextFireAt with
  | none => simp [sealing, readTally_tally]
  | some text => simp [sealing, readTally_tally]

def owner : RemindiService := ⟨sealing, "owner"⟩

def projectScope : CheckScope where
  projectId := "project"
  taskId := none
  context := ⟨none, none, .checkpoint, []⟩
  limit := 1

def ask (cursor : Option String) (now : Int) (digit : Fin 10) (db : Db) :
    Except ServiceError CheckResult × Db :=
  owner.check agent { checkRequest with cursor := cursor } (env now digit) (env now digit) db

def answer : Except ServiceError CheckResult → CheckResult
  | .ok result => result
  | .error _ => ⟨second 0, [], none⟩

/-- Two reminders, both due since second 1000, with ten minutes of grace. -/
def dueLabels : List Label :=
  [call (.add everyMinute) 500 0,
    call (.add { everyMinute with idempotencyKey := "add-0002" }) 500 1,
    pollRead 1000, pollApply 1000 2, pollApply 1000 3]

@[irreducible] def twoDue : Db := (runOf sealing dueLabels).db

/-- Two pages of one reminder each, asked for at these seconds. -/
def twoPages (first second : Int) : List WalkPage × Db :=
  let p := ask none first 4 twoDue
  let q := ask (answer p.1).nextCursor second 5 p.2
  ([⟨none, twoDue, answer p.1⟩, ⟨(answer p.1).nextCursor, p.2, answer q.1⟩], q.2)

theorem twoPages_head (first second : Int) : (twoPages first second).1.head? =
    some ⟨none, twoDue, answer (ask none first 4 twoDue).1⟩ := rfl

/-- The two pages are a whole walk. -/
def walks (first second : Int) : Bool :=
  let p := ask none first 4 twoDue
  let q := ask (answer p.1).nextCursor second 5 p.2
  p.1.isOk && q.1.isOk && (answer p.1).nextCursor.isSome && (answer q.1).nextCursor.isNone &&
    decide ((answer p.1).checkedAt.utc ≤ (answer q.1).checkedAt.utc)

theorem eq_answer {outcome : Except ServiceError CheckResult × Db}
    (h : outcome.1.isOk = true) : outcome = (.ok (answer outcome.1), outcome.2) := by
  rcases outcome with ⟨_ | result, db'⟩
  · cases h
  · rfl

theorem walk_of_pages {p q : Except ServiceError CheckResult × Db} {now now' : Int}
    {digit digit' : Fin 10} {db : Db} (hp : ask none now digit db = p)
    (hq : ask (answer p.1).nextCursor now' digit' p.2 = q) (hok : p.1.isOk = true)
    (hok' : q.1.isOk = true) (hnext : (answer p.1).nextCursor.isSome = true) :
    CheckWalk owner agent checkRequest none db
      [⟨none, db, answer p.1⟩, ⟨(answer p.1).nextCursor, p.2, answer q.1⟩] q.2 := by
  obtain ⟨text, htext⟩ := Option.isSome_iff_exists.mp hnext
  refine .more (hp.trans (eq_answer hok)) htext ?_
  rw [htext] at hq ⊢
  exact .last (hq.trans (eq_answer hok'))

theorem walk_of_walks {first second : Int} (h : walks first second = true) :
    CheckWalk owner agent checkRequest none twoDue (twoPages first second).1
        (twoPages first second).2 ∧ WalkEnds (twoPages first second).1 ∧
      ClockRises (twoPages first second).1 := by
  unfold walks at h
  unfold twoPages
  dsimp only at h ⊢
  generalize hp : ask none first 4 twoDue = p at h ⊢
  generalize hq : ask (answer p.1).nextCursor second 5 p.2 = q at h ⊢
  simp only [Bool.and_eq_true, decide_eq_true_eq] at h
  obtain ⟨⟨⟨⟨hok, hok'⟩, hnext⟩, hlast⟩, hclock⟩ := h
  refine ⟨walk_of_pages hp hq hok hok' hnext, ?_, List.pairwise_pair.mpr hclock⟩
  rintro page hpage
  obtain rfl := Option.some.inj hpage
  exact Option.isNone_iff_eq_none.mp hlast

theorem twoDue_readable : ∀ row ∈ twoDue.remindi.rows, remindiFromRow row = .ok row := by
  have hrows : twoDue.remindi.rows.all (fun row => (remindiFromRow row).isOk) = true := by
    decide +kernel
  exact fun row hrow => readable_of_isOk (List.all_eq_true.mp hrows row hrow)

theorem twoDue_columns : twoDue.Columns := by
  unfold twoDue
  exact stored_columns dueLabels

theorem twoDue_inRange : twoDue.InRange :=
  ⟨twoDue_columns, fun row hrow => (twoDue_columns row hrow).fires (twoDue_readable row hrow)⟩

end Sample

/-- Both reminders on two pages within their grace period. -/
theorem sample_walk_sorted :
    (∀ p ∈ (Sample.twoPages 1100 1200).1,
        p.result.items.Pairwise fun a b => checkOrder a b = .lt) ∧
      (∀ p ∈ (Sample.twoPages 1100 1200).1, ∀ r ∈ p.before.remindi.rows,
        ∀ r' ∈ p.before.remindi.rows, ∀ now context x y, r.IsReady now context x →
          r'.IsReady now context y → CursorAgrees x y) ∧
      NoRepeats (Sample.twoPages 1100 1200).1 := by
  have hwalks : Sample.walks 1100 1200 = true := by decide +kernel
  obtain ⟨hwalk, -, hclock⟩ := Sample.walk_of_walks hwalks
  exact check_walk_sorted_without_repeats Sample.sealing_seals hwalk Sample.twoDue_inRange hclock

end RemindiCore
