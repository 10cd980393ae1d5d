import Mathlib.Data.Prod.Lex
import RemindiCore.Lib.Paging
import RemindiCore.Proof.CheckRun
import RemindiCore.Proof.Timeline

/-!
# Walking through a listing

The pages of a walk are read at some times of a run, with any steps in between.
The place of an item in the listing does not move (`storeAt_keeps`), so a walk
to the end returns it exactly once (`ListWalk.listsOnce`).
-/

namespace RemindiCore

open CivilTime KeyedTable Transaction Paging

variable {x : Externals} {labels : List Label} {service : RemindiService} {cursors : PageCursors}
  {actor : Actor}

/-! ## The order of a listing -/

/-- Later creation first, then the identifiers. -/
abbrev ListKey := Stringᵒᵈ ×ₗ String

def listKey (row : Remindi) : ListKey :=
  toLex (OrderDual.toDual (Repository.createdText row), row.id.text)

theorem listsBefore_iff {a b : Remindi} : Repository.listsBefore a b ↔ listKey a ≤ listKey b := by
  unfold Repository.listsBefore listKey
  rw [Prod.Lex.toLex_le_toLex, OrderDual.toDual_lt_toDual, OrderDual.toDual_inj]

/-- The position a cursor stands for. -/
def positionKey (position : String × Uuid) : ListKey :=
  toLex (OrderDual.toDual position.1, position.2.text)

theorem listAfter_iff {after : Option (String × Uuid)} {row : Remindi} :
    Repository.listAfter after row = true ↔ After (after.map positionKey) (listKey row) := by
  unfold Repository.listAfter After
  cases after with
  | none => simp
  | some position =>
    simp only [Option.all_some, Bool.or_eq_true, Bool.and_eq_true, decide_eq_true_eq, beq_iff_eq,
      Option.map_some, Option.some.injEq, forall_eq', positionKey, listKey, Prod.Lex.toLex_lt_toLex,
      OrderDual.toDual_lt_toDual, OrderDual.toDual_inj]
    exact or_congr_right (and_congr_left fun _ => eq_comm)

/-- The rows a listing selects, in its order. -/
def listedRows (filter : ListFilter) (db : Db) : List Remindi :=
  (db.remindi.rows.filter fun row => Repository.listScope filter row &&
    Repository.listMatches filter db row && Repository.listAfter filter.after row).insertionSort
      Repository.listsBefore

theorem mem_listedRows {filter : ListFilter} {db : Db} {row : Remindi} :
    row ∈ listedRows filter db ↔ row ∈ db.remindi.rows ∧
      (Repository.listScope filter row = true ∧ Repository.listMatches filter db row = true) ∧
        Repository.listAfter filter.after row = true := by
  unfold listedRows
  rw [List.mem_insertionSort, List.mem_filter, Bool.and_eq_true, Bool.and_eq_true]

theorem id_eq_of_listKey {a b : Remindi} (h : listKey a = listKey b) : a.id = b.id :=
  Uuid.eq_of_text (congrArg (fun key => (ofLex key).2) h)

/-- No two rows of the table have the same place. -/
theorem listedRows_sorted (filter : ListFilter) (db : Db) :
    (listedRows filter db).Pairwise (listKey · < listKey ·) := by
  have htotal : Std.Total Repository.listsBefore :=
    ⟨fun a b => by simpa only [listsBefore_iff] using le_total (listKey a) (listKey b)⟩
  have htrans : IsTrans Remindi Repository.listsBefore :=
    ⟨fun a b c hab hbc => listsBefore_iff.mpr
      (le_trans (listsBefore_iff.mp hab) (listsBefore_iff.mp hbc))⟩
  have hle : (listedRows filter db).Pairwise Repository.listsBefore :=
    List.pairwise_insertionSort _ _
  have hnodup : ((listedRows filter db).map Remindi.id).Nodup := by
    refine ((List.perm_insertionSort _ _).map _).nodup_iff.mpr ?_
    exact db.remindi.nodup.sublist (List.filter_sublist.map _)
  refine (hle.and (List.pairwise_map.mp hnodup)).imp fun {a b} h => ?_
  exact lt_of_le_of_ne (listsBefore_iff.mp h.1) fun heq => h.2 (id_eq_of_listKey heq)

/-! ## One page -/

/-- A sealed list cursor is opened again. -/
def PageCursors.SealsList (cursors : PageCursors) : Prop :=
  ∀ cursor, cursors.decodeList (cursors.encodeList cursor) = some cursor

/-- The position that the text of a cursor stands for. -/
def PageCursors.position (cursors : PageCursors) (text : Option String) : Option (String × Uuid) :=
  text.bind fun text => (cursors.decodeList text).bind fun cursor =>
    (Uuid.parse cursor.id).map fun id => (cursor.createdAt, id)

theorem position_of_opened {text : Option String} {cursor : Option ListCursor} {id : Option Uuid}
    (hcursor : text.mapM (openCursor cursors.decodeList) = .ok cursor)
    (hid : cursor.mapM cursorId = .ok id) :
    (cursor.bind fun cursor => id.map fun id => (cursor.createdAt, id)) =
      cursors.position text := by
  cases text with
  | none =>
    cases hcursor
    rfl
  | some text =>
    obtain ⟨opened, hopen, rfl⟩ := except_map_ok.mp hcursor
    obtain ⟨id', hid', rfl⟩ := except_map_ok.mp hid
    have hdecode : cursors.decodeList text = some opened := by
      unfold openCursor at hopen
      split at hopen
      · next hdecode => rw [hdecode, Except.ok.inj hopen]
      · cases hopen
    have hparse : Uuid.parse opened.id = some id' := by
      unfold cursorId at hid'
      split at hid'
      · next hparse => rw [hparse, Except.ok.inj hid']
      · cases hid'
    unfold PageCursors.position
    simp [hdecode, hparse]

theorem Repository.list_ok {filter : ListFilter} {db : Db} {items : List Remindi}
    (h : Repository.list filter db = .ok items) :
    items = (listedRows filter db).take filter.limit ∧
      ∀ row ∈ items, remindiFromRow row = .ok row := by
  unfold Repository.list at h
  obtain ⟨limit, hlimit, h⟩ := except_bind_ok.mp h
  obtain rfl := i64FromU64_ok hlimit
  obtain rfl := mapM_remindiFromRow_ok h
  exact ⟨rfl, remindiFromRow_of_mapM h⟩

/-- Looking one row ahead shows whether the page was cut off. -/
theorem take_lookahead {α : Type} (limit : Nat) (rows : List α) :
    (rows.take (limit + 1)).take limit = rows.take limit ∧
      (limit < (rows.take (limit + 1)).length ↔ limit < rows.length) := by
  constructor
  · rw [List.take_take, Nat.min_eq_left (Nat.le_succ limit)]
  · rw [List.length_take]
    omega

/-- Everything a listing has decided. -/
structure Listing (service : RemindiService) (cursors : PageCursors) (request : ListRequest)
    (db : Db) (page : Page Remindi) (limit : Nat) (rows : List Remindi) : Prop where
  hlimit : pageLimit request.limit 50 = .ok limit
  hrows : rows = listedRows
    (service.listFilter request (cursors.position request.cursor) (limit + 1)) db
  readable : ∀ row ∈ rows.take (limit + 1), remindiFromRow row = .ok row
  items : page.items = rows.take limit
  next : nextListCursor cursors (decide (limit < rows.length)) (rows.take limit).getLast? =
    .ok page.nextCursor

theorem list_ok {request : ListRequest} {env : ReadEnv} {page : Page Remindi} {m : Nat}
    (h : service.list cursors actor request env 0 () = .ok (page, m, ())) :
    ∃ limit rows, Listing service cursors request (env.store 1) page limit rows := by
  unfold RemindiService.list at h
  obtain ⟨_, _, _, hrun, h⟩ := Txn.bind_ok.mp h
  obtain ⟨-, rfl, rfl⟩ := Txn.ofExcept_ok.mp hrun
  obtain ⟨_, _, _, hrun, h⟩ := Txn.bind_ok.mp h
  obtain ⟨-, rfl, rfl⟩ := Txn.ofExcept_ok.mp hrun
  obtain ⟨limit, _, _, hrun, h⟩ := Txn.bind_ok.mp h
  obtain ⟨hlimit, rfl, rfl⟩ := Txn.ofExcept_ok.mp hrun
  obtain ⟨cursor, _, _, hrun, h⟩ := Txn.bind_ok.mp h
  obtain ⟨hcursor, rfl, rfl⟩ := Txn.ofExcept_ok.mp hrun
  obtain ⟨id, _, _, hrun, h⟩ := Txn.bind_ok.mp h
  obtain ⟨hid, rfl, rfl⟩ := Txn.ofExcept_ok.mp hrun
  obtain ⟨_, _, _, hconnection, h⟩ := Txn.bind_ok.mp h
  obtain rfl := Reading.connection_ok hconnection
  obtain ⟨items, _, _, hquery, h⟩ := Txn.bind_ok.mp h
  obtain ⟨hitems, rfl⟩ := Reading.query_ok hquery
  obtain ⟨nextCursor, _, _, hrun, h⟩ := Txn.bind_ok.mp h
  obtain ⟨hnext, rfl, rfl⟩ := Txn.ofExcept_ok.mp hrun
  obtain ⟨rfl, -, -⟩ := Txn.pure_ok.mp h
  rw [position_of_opened hcursor hid] at hitems
  obtain ⟨rfl, hreadable⟩ := Repository.list_ok hitems
  obtain ⟨htake, hlonger⟩ := take_lookahead limit (listedRows
    (service.listFilter request (cursors.position request.cursor) (limit + 1)) (env.store 1))
  refine ⟨limit, _, ⟨hlimit, rfl, hreadable, htake, ?_⟩⟩
  rw [← htake, ← decide_eq_decide.mpr hlonger]
  exact hnext

/-- The row belongs to the owner, the project and the task that are listed. -/
structure InListing (service : RemindiService) (request : ListRequest) (row : Remindi) : Prop where
  ownerId : row.ownerId = service.ownerId
  projectId : ∀ project, request.projectId = some project → row.projectId = project
  taskId : ∀ task, request.taskId = some task → row.taskId = some task

/-- The row passes the filters on the state, the trigger and the links. -/
def Passes (service : RemindiService) (request : ListRequest) (db : Db) (row : Remindi) : Prop :=
  Repository.listMatches (service.listFilter request none 0) db row = true

theorem listScope_iff {request : ListRequest} {after : Option (String × Uuid)} {limit : Nat}
    {row : Remindi} : Repository.listScope (service.listFilter request after limit) row = true ↔
      InListing service request row := by
  unfold Repository.listScope
  simp only [Bool.and_eq_true, beq_iff_eq, RemindiService.listFilter]
  constructor
  · rintro ⟨⟨howner, hproject⟩, htask⟩
    refine ⟨howner, fun project h => ?_, fun task h => ?_⟩
    · rw [h] at hproject
      simpa using hproject
    · rw [h] at htask
      simpa using htask
  · rintro ⟨howner, hproject, htask⟩
    refine ⟨⟨howner, ?_⟩, ?_⟩
    · cases h : request.projectId with
      | none => rfl
      | some project => simpa using hproject project h
    · cases h : request.taskId with
      | none => rfl
      | some task => simpa using htask task h

theorem InListing.of_sameOrigin {request : ListRequest} {a b : Remindi}
    (h : InListing service request b) (hsame : SameOrigin a b) : InListing service request a where
  ownerId := hsame.ownerId.trans h.ownerId
  projectId := fun project hproject => hsame.projectId.trans (h.projectId project hproject)
  taskId := fun task htask => hsame.taskId.trans (h.taskId task htask)

/-- The next cursor stands for the place of the last row, if the page was cut off. -/
theorem position_next (hseals : cursors.SealsList) {hasMore : Bool} {last : Option Remindi}
    {next : Option String} (h : nextListCursor cursors hasMore last = .ok next) :
    (cursors.position next).map positionKey = (if hasMore then last.map listKey else none) ∧
      (cursors.position next).isSome = next.isSome := by
  unfold nextListCursor at h
  cases hasMore with
  | false =>
    cases h
    exact ⟨rfl, rfl⟩
  | true =>
    rw [if_pos rfl] at h
    cases last with
    | none =>
      cases h
      exact ⟨rfl, rfl⟩
    | some item =>
      obtain ⟨text, htext, rfl⟩ := except_map_ok.mp h
      obtain ⟨createdAt, hcreated, e⟩ := except_bind_ok.mp htext
      cases e
      have hcanonical := canonicalTimestamp_ok.mp (domain_ok.mp hcreated)
      have hposition : cursors.position
          (some (cursors.encodeList { createdAt := createdAt, id := item.id.text })) =
            some (createdAt, item.id) := by
        unfold PageCursors.position
        simp [hseals _, Uuid.parse_text]
      refine ⟨?_, by rw [hposition]; rfl⟩
      rw [hposition]
      simp [positionKey, listKey, Repository.createdText, hcanonical]

/-! ## The pages of a walk -/

/-- One page of a listing, answered at some times of a run. -/
structure ListedPage (x : Externals) (labels : List Label) (service : RemindiService)
    (cursors : PageCursors) (actor : Actor) (request : ListRequest) where
  cursor : Option String
  sight : Sight
  result : Page Remindi
  answered : ((service.list cursors actor { request with cursor := cursor }).run
    (sight.env x labels) ()).1 = .ok result

namespace ListedPage

variable {request : ListRequest} {p q : ListedPage x labels service cursors actor request}

/-- When the query saw the store; it comes after the connection. -/
def asked (p : ListedPage x labels service cursors actor request) : Nat := p.sight.time 1

/-- The store that the query saw. -/
def store (p : ListedPage x labels service cursors actor request) : Db := storeAt x labels p.asked

/-- A row for this page or a later one, as its query sees it. -/
structure Selects (p : ListedPage x labels service cursors actor request) (row : Remindi) :
    Prop where
  stored : row ∈ p.store.remindi.rows
  listed : InListing service request row
  passes : Passes service request p.store row
  after : Repository.listAfter (cursors.position p.cursor) row = true

/-- The page is the beginning of the sorted rows that its query selects. -/
structure Lists (p : ListedPage x labels service cursors actor request) (limit : Nat)
    (rows : List Remindi) : Prop where
  limit_pos : 0 < limit
  mem_iff : ∀ row, row ∈ rows ↔ p.Selects row
  sorted : rows.Pairwise (listKey · < listKey ·)
  items : p.result.items = rows.take limit
  readable : ∀ row ∈ p.result.items, remindiFromRow row = .ok row
  next : nextListCursor cursors (decide (limit < rows.length)) (rows.take limit).getLast? =
    .ok p.result.nextCursor

theorem lists (p : ListedPage x labels service cursors actor request) :
    ∃ limit rows, p.Lists limit rows := by
  have hanswered := p.answered
  rcases hrun : (service.list cursors actor { request with cursor := p.cursor }).run
    (p.sight.env x labels) () with ⟨_ | page, ⟨⟩⟩
  · rw [hrun] at hanswered
    cases hanswered
  rw [hrun] at hanswered
  obtain rfl := Except.ok.inj hanswered
  obtain ⟨m, hok⟩ := Txn.run_ok.mp hrun
  obtain ⟨limit, rows, hlisting⟩ := list_ok hok
  refine ⟨limit, rows,
    { limit_pos := pageLimit_pos (by decide) hlisting.hlimit
      mem_iff := fun row => ?_
      sorted := ?_
      items := hlisting.items
      readable := fun row hrow => ?_
      next := hlisting.next }⟩
  · rw [hlisting.hrows, mem_listedRows]
    constructor
    · rintro ⟨hmem, ⟨hscope, hpasses⟩, hafter⟩
      exact ⟨hmem, listScope_iff.mp hscope, hpasses, hafter⟩
    · rintro ⟨hmem, ⟨howner, hproject, htask⟩, hpasses, hafter⟩
      exact ⟨hmem, ⟨listScope_iff.mpr ⟨howner, hproject, htask⟩, hpasses⟩, hafter⟩
  · rw [hlisting.hrows]
    exact listedRows_sorted _ _
  · rw [hlisting.items] at hrow
    exact hlisting.readable row (List.take_subset_take_left rows (Nat.le_succ limit) hrow)

theorem endOf_eq {limit : Nat} {rows : List Remindi} (hseals : cursors.SealsList)
    (h : p.Lists limit rows) :
    endOf listKey limit rows = (cursors.position p.result.nextCursor).map positionKey := by
  rw [(position_next hseals h.next).1]
  unfold endOf
  simp only [decide_eq_true_eq]

/-- **A next cursor is missing exactly when every selected row is on the page.** -/
theorem nextCursor_eq_none_iff (hseals : cursors.SealsList)
    (p : ListedPage x labels service cursors actor request) :
    p.result.nextCursor = none ↔ ∀ row, p.Selects row → row ∈ p.result.items := by
  obtain ⟨limit, rows, h⟩ := p.lists
  have hend := endOf_eq hseals h
  have hsome := (position_next hseals h.next).2
  have hnone : p.result.nextCursor = none ↔ endOf listKey limit rows = none := by
    rw [hend, Option.map_eq_none_iff, ← Option.not_isSome_iff_eq_none,
      ← Option.not_isSome_iff_eq_none, hsome]
  rw [hnone, endOf_eq_none_iff h.sorted h.limit_pos, h.items]
  exact ⟨fun hall row hrow => hall row ((h.mem_iff row).mpr hrow),
    fun hall row hrow => hall row ((h.mem_iff row).mp hrow)⟩

/-! ### Pages as visits -/

/-- The visit behind a page. -/
structure IsVisit (p : ListedPage x labels service cursors actor request)
    (v : Visit Uuid ListKey) : Prop where
  key : ∀ id k, v.key id = some k ↔ ∃ row, p.store.remindi.find? id = some row ∧
    (InListing service request row ∧ Passes service request p.store row) ∧ listKey row = k
  items : v.items = p.result.items.map Remindi.id
  cursor : v.cursor = (cursors.position p.cursor).map positionKey
  next : v.next = (cursors.position p.result.nextCursor).map positionKey

theorem exists_visit (hseals : cursors.SealsList)
    (p : ListedPage x labels service cursors actor request) : ∃ v, p.IsVisit v := by
  classical
  obtain ⟨limit, rows, h⟩ := p.lists
  have hkey : ∀ id k, ((p.store.remindi.find? id).bind fun row =>
      if InListing service request row ∧ Passes service request p.store row then
        some (listKey row) else none) = some k ↔ ∃ row, p.store.remindi.find? id = some row ∧
          (InListing service request row ∧ Passes service request p.store row) ∧
            listKey row = k := by
    intro id k
    rw [Option.bind_eq_some_iff]
    refine exists_congr fun row => and_congr_right fun _ => ?_
    by_cases hrow : InListing service request row ∧ Passes service request p.store row
    · rw [if_pos hrow, Option.some.injEq]
      exact (and_iff_right hrow).symm
    · rw [if_neg hrow]
      exact iff_of_false (by simp) fun h => hrow h.1
  have htake : ∀ row, row ∈ p.result.items ↔ p.Selects row ∧
      Within ((cursors.position p.result.nextCursor).map positionKey) (listKey row) := by
    intro row
    rw [h.items, mem_take_iff h.sorted h.limit_pos, h.mem_iff, endOf_eq hseals h]
  refine ⟨{
    key := _
    cursor := (cursors.position p.cursor).map positionKey
    items := p.result.items.map Remindi.id
    next := (cursors.position p.result.nextCursor).map positionKey
    mem_iff := fun id => ?_
    advances := fun c hc => ?_ }, ⟨hkey, rfl, rfl, rfl⟩⟩
  · rw [List.mem_map]
    constructor
    · rintro ⟨row, hrow, rfl⟩
      obtain ⟨hselects, hwithin⟩ := (htake row).mp hrow
      exact ⟨listKey row, (hkey _ _).mpr ⟨row, Table.find?_of_mem hselects.stored,
        ⟨hselects.listed, hselects.passes⟩, rfl⟩, listAfter_iff.mp hselects.after, hwithin⟩
    · rintro ⟨k, hk, hafter, hwithin⟩
      obtain ⟨row, hfound, ⟨hlisted, hpasses⟩, rfl⟩ := (hkey id k).mp hk
      obtain ⟨hmem, hid⟩ := Table.find?_eq_some.mp hfound
      exact ⟨row, (htake row).mpr ⟨⟨hmem, hlisted, hpasses, listAfter_iff.mpr hafter⟩, hwithin⟩, hid⟩
  · rw [← endOf_eq hseals h] at hc
    obtain ⟨row, hrow, rfl⟩ := mem_of_endOf hc
    exact listAfter_iff.mp ((h.mem_iff row).mp (List.mem_of_mem_take hrow)).after

end ListedPage

/-! ## Walks -/

section

variable {request : ListRequest} {pages : List (ListedPage x labels service cursors actor request)}
  {p q first : ListedPage x labels service cursors actor request}

/-- The second page is asked for with the next cursor of the first, at some later time. -/
def ListedPage.Next (p q : ListedPage x labels service cursors actor request) : Prop :=
  ∃ text, p.result.nextCursor = some text ∧ q.cursor = some text ∧ p.asked ≤ q.asked

/-- A walk from the first page to the end. -/
structure ListWalk (pages : List (ListedPage x labels service cursors actor request)) : Prop where
  first : ∀ p ∈ pages.head?, p.cursor = none
  next : pages.IsChain ListedPage.Next
  last : ∀ p ∈ pages.getLast?, p.result.nextCursor = none

/-- Later creation first, equal times by the identifier. -/
def Remindi.ListedBefore (a b : Remindi) : Prop :=
  b.createdAt.utc < a.createdAt.utc ∨
    (a.createdAt.utc = b.createdAt.utc ∧ a.id.text < b.id.text)

/-- For times that were stored and read, the order of the texts is the order of time. -/
theorem listKey_lt_iff {a b : Remindi} (ha : a.Bound) (hb : b.Bound)
    (hra : remindiFromRow a = .ok a) (hrb : remindiFromRow b = .ok b) :
    listKey a < listKey b ↔ a.ListedBefore b := by
  obtain ⟨hacolumn, hatext⟩ := ha.createdAt
  obtain ⟨hbcolumn, hbtext⟩ := hb.createdAt
  obtain ⟨s, hs⟩ := Option.isSome_iff_exists.mp hatext
  obtain ⟨t, ht⟩ := Option.isSome_iff_exists.mp hbtext
  have hyear : ∀ r : Remindi, remindiFromRow r = .ok r → r.createdAt.truncateMillis = r.createdAt →
      0 ≤ r.createdAt.toUtc.year := by
    intro r hr hcolumn
    have hyear := remindiFromRow_iff.mp hr r.createdAt (by simp [Remindi.times, List.reduceOption_mem_iff])
    rw [← hcolumn] at hyear ⊢
    exact hyear
  have hle := canonicalText_le_iff (hyear a hra hacolumn) hs ht
  have hge := canonicalText_le_iff (hyear b hrb hbcolumn) ht hs
  have hautc : a.createdAt.utc / 1000000 * 1000000 = a.createdAt.utc :=
    congrArg OffsetDateTime.utc hacolumn
  have hbutc : b.createdAt.utc / 1000000 * 1000000 = b.createdAt.utc :=
    congrArg OffsetDateTime.utc hbcolumn
  unfold listKey Remindi.ListedBefore Repository.createdText
  rw [hs, ht, Option.getD_some, Option.getD_some, Prod.Lex.toLex_lt_toLex,
    OrderDual.toDual_lt_toDual, OrderDual.toDual_inj]
  refine or_congr ?_ (and_congr_left fun _ => ?_)
  · rw [← not_le, hle]
    omega
  · rw [le_antisymm_iff, hle, hge]
    omega

theorem ListedPage.bound (p : ListedPage x labels service cursors actor request) : p.store.Bound :=
  stored_rows_bound _

/-- The rows of a page are rows of the store, found by their identifiers. -/
theorem ListedPage.selects_of_mem {row : Remindi} (h : row ∈ p.result.items) : p.Selects row := by
  obtain ⟨limit, rows, hlists⟩ := p.lists
  rw [hlists.items] at h
  exact (hlists.mem_iff row).mp (List.mem_of_mem_take h)

theorem ListedPage.listedBefore_of_lt {a b : Remindi} (ha : a ∈ p.result.items)
    (hb : b ∈ q.result.items) (hlt : listKey a < listKey b) : a.ListedBefore b := by
  obtain ⟨_, _, hp⟩ := p.lists
  obtain ⟨_, _, hq⟩ := q.lists
  exact (listKey_lt_iff (p.bound a (selects_of_mem ha).stored) (q.bound b (selects_of_mem hb).stored)
    (hp.readable a ha) (hq.readable b hb)).mp hlt

theorem ListedPage.next_follows {v w : Visit Uuid ListKey} (hseals : cursors.SealsList)
    (hv : p.IsVisit v) (hw : q.IsVisit w) (h : p.Next q) : Follows v w := by
  obtain ⟨text, hnext, hcursor, -⟩ := h
  obtain ⟨_, _, hp⟩ := p.lists
  have hsome := (position_next hseals hp.next).2
  rw [hnext] at hsome
  obtain ⟨position, hposition⟩ := Option.isSome_iff_exists.mp hsome
  refine ⟨positionKey position, ?_, ?_⟩
  · rw [hv.next, hnext, hposition]
    rfl
  · rw [hw.cursor, hcursor, hposition]
    rfl

/-- What a walk has listed, page after page. -/
def listed (pages : List (ListedPage x labels service cursors actor request)) : List Remindi :=
  pages.flatMap fun p => p.result.items

/-- **A walk lists in order**, over all its pages. -/
theorem ListWalk.sorted (hseals : cursors.SealsList) (hwalk : ListWalk pages) :
    (listed pages).Pairwise Remindi.ListedBefore := by
  choose visit hvisit using
    fun p : ListedPage x labels service cursors actor request => p.exists_visit hseals
  have hchain : (pages.map visit).IsChain Follows :=
    (List.isChain_map visit).mpr
      (hwalk.next.imp fun p q h => ListedPage.next_follows hseals (hvisit p) (hvisit q) h)
  have hkey : ∀ p : ListedPage x labels service cursors actor request, ∀ row ∈ p.result.items,
      row.id ∈ (visit p).items ∧ (visit p).key row.id = some (listKey row) := by
    intro p row hrow
    have hselects := ListedPage.selects_of_mem hrow
    refine ⟨by rw [(hvisit p).items]; exact List.mem_map_of_mem hrow, ?_⟩
    exact ((hvisit p).key _ _).mpr ⟨row, Table.find?_of_mem hselects.stored,
      ⟨hselects.listed, hselects.passes⟩, rfl⟩
  refine List.pairwise_flatMap.mpr ⟨fun p _ => ?_, ?_⟩
  · -- within a page
    obtain ⟨limit, rows, h⟩ := p.lists
    have hpage : p.result.items.Pairwise (listKey · < listKey ·) := by
      rw [h.items]
      exact h.sorted.sublist (List.take_sublist _ _)
    exact hpage.imp_of_mem fun ha hb hlt => ListedPage.listedBefore_of_lt ha hb hlt
  · -- from a page to a later one
    refine (List.pairwise_map.mp (pages_sorted hchain)).imp fun {p q} h a ha b hb => ?_
    obtain ⟨ha', hka⟩ := hkey p a ha
    obtain ⟨hb', hkb⟩ := hkey q b hb
    exact ListedPage.listedBefore_of_lt ha hb (h a.id ha' b.id hb' _ _ hka hkb)

/-- Nothing is listed twice. -/
theorem ListWalk.nodup (hseals : cursors.SealsList) (hwalk : ListWalk pages) :
    ((listed pages).map Remindi.id).Nodup := by
  refine List.pairwise_map.mpr ((hwalk.sorted hseals).imp_of_mem fun {a b} ha hb hlt hid => ?_)
  obtain ⟨p, -, ha⟩ := List.mem_flatMap.mp ha
  obtain ⟨q, -, hb⟩ := List.mem_flatMap.mp hb
  have hcreated : a.createdAt = b.createdAt := createdAt_eq
    (ListedPage.selects_of_mem ha).stored (ListedPage.selects_of_mem hb).stored hid
  rcases hlt with hlt | ⟨-, hlt⟩
  · rw [hcreated] at hlt
    exact lt_irrefl _ hlt
  · rw [hid] at hlt
    exact lt_irrefl _ hlt

theorem ListedPage.asked_le (hchain : (first :: pages).IsChain ListedPage.Next) :
    ∀ p ∈ first :: pages, first.asked ≤ p.asked := by
  have hle : (first :: pages).IsChain fun p q => p.asked ≤ q.asked :=
    hchain.imp fun p q ⟨_, _, _, h⟩ => h
  have htrans : IsTrans (ListedPage x labels service cursors actor request)
      fun p q => p.asked ≤ q.asked := ⟨fun _ _ _ => le_trans⟩
  have hpairs := List.isChain_iff_pairwise.mp hle
  exact List.forall_mem_cons.mpr ⟨le_refl _, (List.pairwise_cons.mp hpairs).1⟩

/-- **A walk returns what was there at its first page.** -/
theorem ListWalk.returns (hseals : cursors.SealsList) (hwalk : ListWalk (first :: pages))
    {row : Remindi} (hrow : row ∈ first.store.remindi.rows)
    (hlisted : InListing service request row)
    (hpasses : ∀ p ∈ first :: pages, ∀ row' ∈ p.store.remindi.rows, row'.id = row.id →
      Passes service request p.store row') :
    row.id ∈ (listed (first :: pages)).map Remindi.id := by
  choose visit hvisit using
    fun p : ListedPage x labels service cursors actor request => p.exists_visit hseals
  have hchain : ((first :: pages).map visit).IsChain Follows :=
    (List.isChain_map visit).mpr
      (hwalk.next.imp fun p q h => ListedPage.next_follows hseals (hvisit p) (hvisit q) h)
  -- its place is the same at every page
  have hkey : ∀ p ∈ first :: pages, (visit p).key row.id = some (listKey row) := by
    intro p hp
    obtain ⟨row', hfound, hsame⟩ := storeAt_keeps
      (ListedPage.asked_le hwalk.next p hp) (Table.find?_of_mem hrow)
    obtain ⟨hmem, hid⟩ := Table.find?_eq_some.mp hfound
    refine ((hvisit p).key _ _).mpr ⟨row', hfound,
      ⟨hlisted.of_sameOrigin hsame, hpasses p hp row' hmem hid⟩, ?_⟩
    unfold listKey Repository.createdText
    rw [hsame.createdAt, hid]
  have hvisits : ∀ v ∈ visit first :: pages.map visit, v.key row.id = some (listKey row) := by
    intro v hv
    obtain ⟨p, hp, rfl⟩ := List.mem_map.mp (List.map_cons ▸ hv)
    exact hkey p hp
  have hend : ∀ v ∈ (visit first :: pages.map visit).getLast?, v.next = none := by
    intro v hv
    rw [← List.map_cons, List.getLast?_map] at hv
    obtain ⟨p, hp, rfl⟩ := Option.mem_map.mp hv
    rw [(hvisit p).next, hwalk.last p hp]
    rfl
  have hstart : (visit first).cursor = none := by
    rw [(hvisit first).cursor, hwalk.first first rfl]
    rfl
  have hfalls : NeverRises row.id (visit first :: pages.map visit) := by
    refine List.pairwise_of_forall_mem_list fun v hv w hw k k' hk hk' => ?_
    rw [hvisits v hv] at hk
    rw [hvisits w hw] at hk'
    cases hk
    cases hk'
    exact le_refl _
  have hstays : (visit first :: pages.map visit).IsChain fun v w => ¬ Slips row.id v w := by
    refine (List.pairwise_of_forall_mem_list fun v hv w hw => ?_).isChain
    rintro ⟨c, k, k', -, hk, hk', hlt, hle⟩
    rw [hvisits v hv] at hk
    rw [hvisits w hw] at hk'
    cases hk
    cases hk'
    exact absurd hle (not_le.mpr hlt)
  obtain ⟨v, hv, hreturned⟩ := (returned_iff hchain hstart hend
    (fun v hv => by rw [hvisits v hv]; rfl) hfalls).mpr hstays
  obtain ⟨p, hp, rfl⟩ := List.mem_map.mp (List.map_cons ▸ hv)
  rw [(hvisit p).items] at hreturned
  obtain ⟨row', hrow', hid⟩ := List.mem_map.mp hreturned
  exact List.mem_map.mpr ⟨row', List.mem_flatMap.mpr ⟨p, hp, hrow'⟩, hid⟩

/-- Everything that was there at the first page and passes the filters at each page
is listed once, in order, and a cursor is missing when nothing is left. -/
structure ListsOnce (first : ListedPage x labels service cursors actor request)
    (pages : List (ListedPage x labels service cursors actor request)) : Prop where
  sorted : (listed (first :: pages)).Pairwise Remindi.ListedBefore
  once : ∀ row ∈ first.store.remindi.rows, InListing service request row →
    (∀ p ∈ first :: pages, ∀ row' ∈ p.store.remindi.rows, row'.id = row.id →
      Passes service request p.store row') →
    ((listed (first :: pages)).map Remindi.id).count row.id = 1
  selected : ∀ p ∈ first :: pages, ∀ row ∈ p.result.items, p.Selects row
  ends : ∀ p ∈ first :: pages,
    (p.result.nextCursor = none ↔ ∀ row, p.Selects row → row ∈ p.result.items)

/-- **List walks are complete and repeat nothing.** -/
theorem ListWalk.listsOnce (hseals : cursors.SealsList) (hwalk : ListWalk (first :: pages)) :
    ListsOnce first pages where
  sorted := hwalk.sorted hseals
  once := fun _ hrow hlisted hpasses =>
    List.count_eq_one_of_mem (hwalk.nodup hseals) (hwalk.returns hseals hrow hlisted hpasses)
  selected := fun _ _ _ hrow => ListedPage.selects_of_mem hrow
  ends := fun p _ => p.nextCursor_eq_none_iff hseals

end

end RemindiCore
