import RemindiCore.Proof.CheckWalk
import RemindiCore.Proof.ListWalk

/-!
# Walking through a history

The events of an item only grow and are numbered in order, so the pages of a
history are pages of a log (`Lib/Paging.lean`): a walk to the end returns what
the store holds when its last page is read (`HistoryWalk.readsAll`).
-/

namespace RemindiCore

open CivilTime KeyedTable Transaction Paging

variable {x : Externals} {labels : List Label} {service : RemindiService} {cursors : PageCursors}
  {actor : Actor} {request : HistoryRequest}

/-! ## One page -/

/-- A sealed history cursor is opened again. -/
def PageCursors.SealsHistory (cursors : PageCursors) : Prop :=
  ∀ cursor, cursors.decodeHistory (cursors.encodeHistory cursor) = some cursor

def sequenceKey (event : RemindiEvent) : Int := event.sequence

/-- The events of the item that the request is about. -/
def eventLog (request : HistoryRequest) (db : Db) : List RemindiEvent :=
  db.events.rows.filter fun event =>
    event.remindiId == request.remindiId && enumFilter request.eventTypes event.eventType

theorem eventLog_sorted {db : Db} (h : Sequenced db.events.rows) :
    (eventLog request db).Pairwise (sequenceKey · < sequenceKey ·) :=
  (h.imp Int.ofNat_lt.mpr).filter _

theorem eventLog_append {db db' : Db} {new : List RemindiEvent}
    (h : db'.events.rows = db.events.rows ++ new) :
    ∃ more, eventLog request db' = eventLog request db ++ more := by
  unfold eventLog
  rw [h, List.filter_append]
  exact ⟨_, rfl⟩

theorem mapM_eventFromRow_ok {rows items : List RemindiEvent}
    (h : rows.mapM eventFromRow = .ok items) : items = rows := by
  induction rows generalizing items with
  | nil =>
    cases h
    rfl
  | cons row rows ih =>
    rw [List.mapM_cons] at h
    obtain ⟨item, hitem, h⟩ := except_bind_ok.mp h
    obtain ⟨rest, hrest, h⟩ := except_bind_ok.mp h
    obtain ⟨_, -, hitem⟩ := except_bind_ok.mp hitem
    cases hitem
    cases h
    rw [ih hrest]

/-- The query reads the beginning of what follows the number in the log. -/
theorem historyRows_ok {after : Int} {limit : Nat} {db : Db} {items : List RemindiEvent}
    (hsequenced : Sequenced db.events.rows)
    (h : Repository.historyRows (service.historyFilter request after limit) db = .ok items) :
    items = (since sequenceKey after (eventLog request db)).take limit := by
  unfold Repository.historyRows at h
  obtain ⟨bound, hbound, h⟩ := except_bind_ok.mp h
  obtain rfl := i64FromU64_ok hbound
  have hitems := mapM_eventFromRow_ok h
  have hrows : db.events.rows.filter
      (Repository.historySelects (service.historyFilter request after bound)) =
        since sequenceKey after (eventLog request db) := by
    unfold since eventLog
    rw [List.filter_filter]
    refine List.filter_congr fun row _ => ?_
    show (_ && decide (after < (row.sequence : Int)) && _) =
      (decide (after < (row.sequence : Int)) && _)
    rw [Bool.and_right_comm, Bool.and_comm]
    rfl
  have hsorted : (since sequenceKey after (eventLog request db)).Pairwise
      fun a b => a.sequence ≤ b.sequence :=
    (since_sorted (eventLog_sorted hsequenced) after).imp fun hlt => le_of_lt (Int.ofNat_lt.mp hlt)
  rw [hitems, ← hrows]
  rw [← hrows] at hsorted
  exact congrArg (List.take bound) hsorted.insertionSort_eq

/-- The pages of a history, answered at some times of a run. -/
structure HistoryAnswer (x : Externals) (labels : List Label) (service : RemindiService)
    (cursors : PageCursors) (actor : Actor) (request : HistoryRequest) where
  cursor : Option String
  sight : Sight
  result : HistoryPage
  answered : ((service.history cursors actor { request with cursor := cursor }).run
    (sight.env x labels) ()).1 = .ok result

namespace HistoryAnswer

variable {p q : HistoryAnswer x labels service cursors actor request}

/-- When the events were read: after the connection and two looks at the item. -/
def asked (p : HistoryAnswer x labels service cursors actor request) : Nat := p.sight.time 5

/-- The store from which the events were read. -/
def store (p : HistoryAnswer x labels service cursors actor request) : Db := storeAt x labels p.asked

theorem log_sorted (p : HistoryAnswer x labels service cursors actor request) :
    (eventLog request p.store).Pairwise (sequenceKey · < sequenceKey ·) :=
  eventLog_sorted (storeAt_sequenced p.asked)

/-- The number that the page begins after. -/
def StartsAfter (p : HistoryAnswer x labels service cursors actor request) (start : Int) : Prop :=
  historyStart cursors { request with cursor := p.cursor } = .ok start

/-- The page is the beginning of what follows `start` in the log. -/
structure Reads (p : HistoryAnswer x labels service cursors actor request) (limit : Nat)
    (start : Int) : Prop where
  hlimit : pageLimit request.limit 100 = .ok limit
  starts : p.StartsAfter start
  items : p.result.items = (since sequenceKey start (eventLog request p.store)).take limit
  next : p.result.nextCursor = nextHistoryCursor cursors
    (decide (limit < (since sequenceKey start (eventLog request p.store)).length))
    ((since sequenceKey start (eventLog request p.store)).take limit).getLast?

/-- An item that was found stays. -/
theorem find_ne_none (sight : Sight) {item : Remindi} {ownerId : String} {id : Uuid} {n m : Nat}
    (h : Repository.find ownerId id ((sight.env x labels).store n) = .ok (some item))
    (hle : n ≤ m := by omega) :
    Repository.find ownerId id ((sight.env x labels).store m) ≠ .ok none := by
  obtain ⟨hrow, howner⟩ := Repository.find_ok h
  obtain ⟨row, hrow', hsame⟩ := storeAt_keeps (sight.mono hle) hrow
  intro hnone
  have hfind : (storeAt x labels (sight.time m)).remindi.find? id = some row := hrow'
  unfold Repository.find at hnone
  rw [show ((sight.env x labels).store m).remindi.find? id = some row from hfind] at hnone
  dsimp only at hnone
  rw [if_pos (hsame.ownerId.trans howner)] at hnone
  obtain ⟨_, -, e⟩ := except_map_ok.mp hnone
  cases e

theorem reads (p : HistoryAnswer x labels service cursors actor request) :
    ∃ limit start, p.Reads limit start := by
  have hanswered := p.answered
  rcases hrun : (service.history cursors actor { request with cursor := p.cursor }).run
    (p.sight.env x labels) () with ⟨_ | page, ⟨⟩⟩
  · rw [hrun] at hanswered
    cases hanswered
  rw [hrun] at hanswered
  obtain rfl := Except.ok.inj hanswered
  obtain ⟨m, h⟩ := Txn.run_ok.mp hrun
  unfold RemindiService.history at h
  obtain ⟨_, _, _, hrun, h⟩ := Txn.bind_ok.mp h
  obtain ⟨-, rfl, rfl⟩ := Txn.ofExcept_ok.mp hrun
  obtain ⟨limit, _, _, hrun, h⟩ := Txn.bind_ok.mp h
  obtain ⟨hlimit, rfl, rfl⟩ := Txn.ofExcept_ok.mp hrun
  obtain ⟨start, _, _, hrun, h⟩ := Txn.bind_ok.mp h
  obtain ⟨hstart, rfl, rfl⟩ := Txn.ofExcept_ok.mp hrun
  obtain ⟨_, _, _, hconnection, h⟩ := Txn.bind_ok.mp h
  obtain rfl := Reading.connection_ok hconnection
  obtain ⟨found, _, _, hquery, h⟩ := Txn.bind_ok.mp h
  obtain ⟨hfound, rfl⟩ := Reading.query_ok hquery
  cases found with
  | none =>
    rw [if_pos Option.isNone_none] at h
    exact absurd h Txn.throw_ok
  | some item =>
    rw [if_neg (by simp)] at h
    obtain ⟨items, _, _, hitems, h⟩ := Txn.bind_ok.mp h
    unfold Repository.history at hitems
    obtain ⟨again, _, _, hquery, hitems⟩ := Txn.bind_ok.mp hitems
    obtain ⟨hagain, rfl⟩ := Reading.query_ok hquery
    cases again with
    | none => exact absurd hagain (find_ne_none p.sight hfound)
    | some item' =>
      obtain ⟨hrows, rfl⟩ := Reading.query_ok hitems
      obtain ⟨evidence, _, _, hevidence, h⟩ := Txn.bind_ok.mp h
      obtain ⟨hresult, -, -⟩ := Txn.pure_ok.mp h
      obtain rfl := historyRows_ok (storeAt_sequenced _) hrows
      obtain ⟨htake, hlonger⟩ := take_lookahead limit
        (since sequenceKey start (eventLog request p.store))
      refine ⟨limit, start, ⟨hlimit, hstart, ?_, ?_⟩⟩
      · rw [← hresult]
        exact htake
      · rw [← htake, ← decide_eq_decide.mpr hlonger, ← hresult]
        rfl

/-- The next cursor is the number of the last event, if the page was cut off. -/
theorem endOf_eq {limit : Nat} {start : Int} (hseals : cursors.SealsHistory)
    (h : p.Reads limit start) :
    (p.result.nextCursor.bind cursors.decodeHistory).map (·.sequence) =
        endOf sequenceKey limit (since sequenceKey start (eventLog request p.store)) ∧
      (p.result.nextCursor = none ↔
        endOf sequenceKey limit (since sequenceKey start (eventLog request p.store)) = none) := by
  rw [h.next]
  unfold nextHistoryCursor endOf
  by_cases hmore : limit < (since sequenceKey start (eventLog request p.store)).length
  · rw [decide_eq_true hmore, if_pos rfl, if_pos hmore]
    cases ((since sequenceKey start (eventLog request p.store)).take limit).getLast? with
    | none => simp
    | some event => simp [hseals _, sequenceKey]
  · rw [decide_eq_false hmore, if_neg hmore]
    simp

theorem start_of_cursor {text : String} {c : HistoryCursor} {start : Int}
    (hcursor : p.cursor = some text) (hdecode : cursors.decodeHistory text = some c)
    (hstart : p.StartsAfter start) : start = c.sequence := by
  unfold StartsAfter historyStart at hstart
  obtain ⟨opened, hopened, hstart⟩ := except_bind_ok.mp hstart
  rw [hcursor] at hopened
  obtain ⟨c', hc', rfl⟩ := except_map_ok.mp hopened
  unfold openCursor at hc'
  rw [hdecode] at hc'
  obtain rfl := Except.ok.inj hc'
  dsimp only at hstart
  split at hstart
  · cases hstart
  · exact (Except.ok.inj hstart).symm

theorem limit_pos {limit : Nat} {start : Int} (h : p.Reads limit start) : 0 < limit :=
  pageLimit_pos (by decide) h.hlimit

theorem nextCursor_eq_none_iff (hseals : cursors.SealsHistory) {start : Int}
    (hstart : p.StartsAfter start) :
    p.result.nextCursor = none ↔
      ∀ event ∈ eventLog request p.store, start < event.sequence → event ∈ p.result.items := by
  obtain ⟨limit, start', h⟩ := p.reads
  obtain rfl : start' = start := Except.ok.inj (h.starts.symm.trans hstart)
  have hsorted := since_sorted p.log_sorted start'
  rw [(endOf_eq hseals h).2, endOf_eq_none_iff hsorted (limit_pos h), h.items]
  exact ⟨fun hall event hevent hlt => hall event (mem_since.mpr ⟨hevent, hlt⟩),
    fun hall event hevent => hall event (mem_since.mp hevent).1 (mem_since.mp hevent).2⟩

/-- The second page is asked for with the next cursor of the first, at some later time. -/
def Next (p q : HistoryAnswer x labels service cursors actor request) : Prop :=
  ∃ text, p.result.nextCursor = some text ∧ q.cursor = some text ∧ p.asked ≤ q.asked

/-- **Following the cursor continues the log.** -/
theorem Next.continues {limit limit' : Nat} {start start' : Int} (hseals : cursors.SealsHistory)
    (hnext : p.Next q) (hp : p.Reads limit start) (hq : q.Reads limit' start') :
    LogVisit.Continues sequenceKey limit ⟨eventLog request p.store, start⟩
      ⟨eventLog request q.store, start'⟩ := by
  obtain ⟨text, htext, hcursor, hle⟩ := hnext
  obtain ⟨hend, hnone⟩ := endOf_eq hseals hp
  refine ⟨?_, ?_⟩
  · show endOf sequenceKey limit (since sequenceKey start (eventLog request p.store)) = some start'
    rw [htext] at hend hnone
    cases hdecode : cursors.decodeHistory text with
    | none =>
      rw [Option.bind_some, hdecode] at hend
      exact absurd (hnone.mpr hend.symm) (by simp)
    | some c =>
      rw [Option.bind_some, hdecode] at hend
      rw [← hend, start_of_cursor hcursor hdecode hq.starts]
      rfl
  · obtain ⟨new, hnew⟩ := storeAt_appends (x := x) hle
    exact eventLog_append hnew

end HistoryAnswer

/-! ## Walks -/

variable {first : HistoryAnswer x labels service cursors actor request}
  {pages : List (HistoryAnswer x labels service cursors actor request)}

/-- A walk from any start to the end. -/
structure HistoryWalk (pages : List (HistoryAnswer x labels service cursors actor request)) :
    Prop where
  next : pages.IsChain HistoryAnswer.Next
  last : ∀ p ∈ pages.getLast?, p.result.nextCursor = none

/-- What a walk has read, page after page. -/
def readEvents (pages : List (HistoryAnswer x labels service cursors actor request)) :
    List RemindiEvent := pages.flatMap fun p => p.result.items

/-- All events after the start that are stored when the last page is read, in
order and once, and a cursor is missing when nothing is left. -/
structure ReadsAll (first : HistoryAnswer x labels service cursors actor request)
    (pages : List (HistoryAnswer x labels service cursors actor request)) : Prop where
  all : ∀ last ∈ (first :: pages).getLast?, ∀ start, first.StartsAfter start →
    readEvents (first :: pages) = (eventLog request last.store).filter fun event =>
      start < event.sequence
  sorted : (readEvents (first :: pages)).Pairwise (·.sequence < ·.sequence)
  ends : ∀ p ∈ first :: pages, ∀ start, p.StartsAfter start →
    (p.result.nextCursor = none ↔
      ∀ event ∈ eventLog request p.store, start < event.sequence → event ∈ p.result.items)

/-- **History walks are complete and repeat nothing.** -/
theorem HistoryWalk.readsAll (hseals : cursors.SealsHistory) (hwalk : HistoryWalk (first :: pages)) :
    ReadsAll first pages := by
  choose limit start hreads using
    fun p : HistoryAnswer x labels service cursors actor request => p.reads
  have hlimit : ∀ p, limit p = limit first := fun p =>
    Except.ok.inj ((hreads p).hlimit.symm.trans (hreads first).hlimit)
  let visit := fun p : HistoryAnswer x labels service cursors actor request =>
    (⟨eventLog request p.store, start p⟩ : LogVisit RemindiEvent Int)
  have hchain : ((first :: pages).map visit).IsChain
      (LogVisit.Continues sequenceKey (limit first)) := by
    refine (List.isChain_map visit).mpr (hwalk.next.imp fun p q hnext => ?_)
    rw [← hlimit p]
    exact hnext.continues hseals (hreads p) (hreads q)
  have hitems : readEvents (first :: pages) =
      ((first :: pages).map visit).flatMap (LogVisit.items sequenceKey (limit first)) := by
    unfold readEvents
    rw [List.flatMap_map]
    refine List.flatMap_congr fun p _ => ?_
    rw [(hreads p).items, hlimit p]
    rfl
  have hall : ∀ last ∈ (first :: pages).getLast?,
      readEvents (first :: pages) = since sequenceKey (start first) (eventLog request last.store) := by
    intro last hlast
    have hlast' : visit last ∈ (visit first :: pages.map visit).getLast? := by
      rw [← List.map_cons, List.getLast?_map]
      exact Option.mem_map_of_mem visit hlast
    have hend : (visit last).next sequenceKey (limit first) = none := by
      rw [← hlimit last]
      exact (HistoryAnswer.endOf_eq hseals (hreads last)).2.mp (hwalk.last last hlast)
    rw [hitems]
    exact (log_walk (HistoryAnswer.limit_pos (hreads first)) hchain hlast'
      last.log_sorted hend).2
  obtain ⟨last, hlast⟩ : ∃ last, last ∈ (first :: pages).getLast? :=
    ⟨_, List.getLast?_eq_some_getLast (List.cons_ne_nil first pages)⟩
  refine ⟨fun last hlast begin hbegin => ?_, ?_, fun p _ begin hbegin =>
    HistoryAnswer.nextCursor_eq_none_iff hseals hbegin⟩
  · obtain rfl : start first = begin := Except.ok.inj ((hreads first).starts.symm.trans hbegin)
    exact hall last hlast
  · rw [hall last hlast]
    exact (since_sorted last.log_sorted (start first)).imp Int.ofNat_lt.mp

/-- **Walks through a listing and through a history are complete and repeat nothing**,
whatever happens between their pages. -/
theorem paged_walks_complete {x : Externals} {labels : List Label} {service : RemindiService}
    {cursors : PageCursors} {actor : Actor} {listRequest : ListRequest}
    {firstListed : ListedPage x labels service cursors actor listRequest}
    {listedPages : List (ListedPage x labels service cursors actor listRequest)}
    {historyRequest : HistoryRequest}
    {firstRead : HistoryAnswer x labels service cursors actor historyRequest}
    {readPages : List (HistoryAnswer x labels service cursors actor historyRequest)}
    (hlist : cursors.SealsList) (hhistory : cursors.SealsHistory)
    (hlisted : ListWalk (firstListed :: listedPages))
    (hread : HistoryWalk (firstRead :: readPages)) :
    ListsOnce firstListed listedPages ∧ ReadsAll firstRead readPages :=
  ⟨hlisted.listsOnce hlist, hread.readsAll hhistory⟩

/-! ## Samples -/

namespace Sample

/-- Cursors that are opened again as they were sealed. -/
def pageCursors : PageCursors where
  encodeList cursor :=
    String.ofList (tally cursor.createdAt.toList.length ++ (cursor.createdAt.toList ++ cursor.id.toList))
  decodeList text := (readTally text.toList).map fun (length, rest) =>
    ⟨String.ofList (rest.take length), String.ofList (rest.drop length)⟩
  encodeHistory
    | ⟨.ofNat n⟩ => String.ofList ('p' :: tally n)
    | ⟨.negSucc n⟩ => String.ofList ('m' :: tally n)
  decodeHistory text :=
    match text.toList with
    | 'p' :: rest => (readTally rest).map fun (n, _) => ⟨.ofNat n⟩
    | 'm' :: rest => (readTally rest).map fun (n, _) => ⟨.negSucc n⟩
    | _ => none

theorem pageCursors_sealsList : pageCursors.SealsList := by
  rintro ⟨createdAt, id⟩
  simp [pageCursors, readTally_tally]

theorem pageCursors_sealsHistory : pageCursors.SealsHistory := by
  rintro ⟨n | n⟩
  · have h := readTally_tally n []
    rw [List.append_nil] at h
    simp [pageCursors, h]
  · have h := readTally_tally n []
    rw [List.append_nil] at h
    simp [pageCursors, h]

/-- Everything of the project, one item a page. -/
def listRequest : ListRequest where
  projectId := some "project"
  taskId := none
  states := []
  triggerTypes := []
  linkedGoalId := none
  linkedMemoryHash := none
  limit := 1
  cursor := none

/-- Every event of the first item, one a page. -/
def historyRequest : HistoryRequest where
  remindiId := uuid 0
  afterSequence := none
  eventTypes := []
  limit := 1
  cursor := none

/-- Two reminders, and an update of the first. -/
def growing : List Label :=
  [call (.add everyMinute) 500 0,
    call (.add { everyMinute with idempotencyKey := "add-0002" }) 600 1,
    call (.update { update 1 "update-1" with message := some "other" }) 700 2]

/-- A reading at one time of the run. -/
def sightAt (time : Nat) : Sight where
  time := fun _ => time
  fault := fun _ => none
  mono := fun _ _ _ => le_refl time

def okValue {ε α : Type} : (r : Except ε α) → r.isOk = true → α
  | .ok a, _ => a

theorem eq_okValue {ε α : Type} {r : Except ε α} (h : r.isOk = true) : r = .ok (okValue r h) := by
  cases r with
  | error e => cases h
  | ok a => rfl

def askList (cursor : Option String) (time : Nat) : Except ServiceError (Page Remindi) :=
  ((owner.list pageCursors agent { listRequest with cursor := cursor }).run
    ((sightAt time).env sealing growing) ()).1

def askHistory (cursor : Option String) (time : Nat) : Except ServiceError HistoryPage :=
  ((owner.history pageCursors agent { historyRequest with cursor := cursor }).run
    ((sightAt time).env sealing growing) ()).1

def listedPage (cursor : Option String) (time : Nat) (h : (askList cursor time).isOk = true) :
    ListedPage sealing growing owner pageCursors agent listRequest where
  cursor := cursor
  sight := sightAt time
  result := okValue _ h
  answered := eq_okValue h

def historyPage (cursor : Option String) (time : Nat) (h : (askHistory cursor time).isOk = true) :
    HistoryAnswer sealing growing owner pageCursors agent historyRequest where
  cursor := cursor
  sight := sightAt time
  result := okValue _ h
  answered := eq_okValue h

/-- The newer reminder; the oldest follows after its update. -/
def newest : ListedPage sealing growing owner pageCursors agent listRequest :=
  listedPage none 2 (by decide +kernel)

def oldest : ListedPage sealing growing owner pageCursors agent listRequest :=
  listedPage newest.result.nextCursor 3 (by decide +kernel)

theorem newest_oldest : ListWalk [newest, oldest] where
  first := by
    rintro p hp
    obtain rfl := Option.some.inj hp
    rfl
  next := by
    have hsome : newest.result.nextCursor.isSome = true := by decide +kernel
    obtain ⟨text, htext⟩ := Option.isSome_iff_exists.mp hsome
    exact List.isChain_pair.mpr ⟨text, htext, htext, Nat.le_succ 2⟩
  last := by
    rintro p hp
    obtain rfl := Option.some.inj hp
    have hnone : oldest.result.nextCursor.isNone = true := by decide +kernel
    exact Option.isNone_iff_eq_none.mp hnone

/-- The first event, and the one that the update has appended. -/
def created : HistoryAnswer sealing growing owner pageCursors agent historyRequest :=
  historyPage none 3 (by decide +kernel)

def updated : HistoryAnswer sealing growing owner pageCursors agent historyRequest :=
  historyPage created.result.nextCursor 3 (by decide +kernel)

theorem created_updated : HistoryWalk [created, updated] where
  next := by
    have hsome : created.result.nextCursor.isSome = true := by decide +kernel
    obtain ⟨text, htext⟩ := Option.isSome_iff_exists.mp hsome
    exact List.isChain_pair.mpr ⟨text, htext, htext, le_refl 3⟩
  last := by
    rintro p hp
    obtain rfl := Option.some.inj hp
    have hnone : updated.result.nextCursor.isNone = true := by decide +kernel
    exact Option.isNone_iff_eq_none.mp hnone

end Sample

/-- Two pages of each, with an update between those of the listing. -/
theorem sample_walks_complete :
    ListsOnce Sample.newest [Sample.oldest] ∧ ReadsAll Sample.created [Sample.updated] :=
  paged_walks_complete Sample.pageCursors_sealsList Sample.pageCursors_sealsHistory
    Sample.newest_oldest Sample.created_updated

end RemindiCore
