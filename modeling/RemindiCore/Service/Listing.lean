import RemindiCore.Service.Check

/-!
# Listing and history

`get`, `list` and `history` of `remindi/service.rs` with the statements they
use.  They read outside a transaction: each statement sees the store as it is
at the time, so a `Reading` is given a store for every one of its calls.
-/

namespace RemindiCore

open CivilTime Transaction

/-! ## Reading without a transaction -/

/-- The failures of the database and the store at the time, by the number of the call. -/
structure ReadEnv where
  fault : Nat → Option DatabaseError
  store : Nat → Db

abbrev Reading := Txn ReadEnv ServiceError Unit

namespace Reading

def connection : Reading Unit :=
  .call (fun env n => (env.fault n).map mapDatabase) fun _ => .ok ((), ())

def query {α : Type} (f : Db → Except RepositoryError α) : Reading α := do
  let db ← .ask fun env n => env.store n
  .call (fun env n => (env.fault n).map fun e => mapRepository e.ofStatement)
    fun _ => ((f db).mapError mapRepository).map fun a => (a, ())

end Reading

/-! ## Requests, cursors and pages -/

structure ListRequest where
  projectId : Option String
  taskId : Option String
  states : List RemindiState
  triggerTypes : List String
  linkedGoalId : Option String
  linkedMemoryHash : Option String
  limit : Nat
  cursor : Option String

structure HistoryRequest where
  remindiId : Uuid
  afterSequence : Option Int
  eventTypes : List EventType
  limit : Nat
  cursor : Option String

structure ListCursor where
  createdAt : String
  id : String

structure HistoryCursor where
  sequence : Int

/-- Sealing a cursor, and opening one of the same kind. -/
structure PageCursors where
  encodeList : ListCursor → String
  decodeList : String → Option ListCursor
  encodeHistory : HistoryCursor → String
  decodeHistory : String → Option HistoryCursor

structure Page (α : Type) where
  items : List α
  nextCursor : Option String

structure HistoryPage extends Page RemindiEvent where
  evidence : Option CompletionEvidence

/-- The forms that are read as a UUID: plain digits, hyphenated, in braces, as a URN. -/
def uuidForm (text : String) : Option (List Char) :=
  let chars := text.toList
  let hyphen := ['-']
  if chars.length = 32 then
    some (chars.take 8 ++ hyphen ++ (chars.drop 8).take 4 ++ hyphen ++ (chars.drop 12).take 4 ++
      hyphen ++ (chars.drop 16).take 4 ++ hyphen ++ chars.drop 20)
  else if chars.length = 36 then some chars
  else if chars.length = 38 ∧ chars.head? = some (Char.ofNat 123) ∧
      chars.getLast? = some (Char.ofNat 125) then some ((chars.drop 1).take 36)
  else if chars.length = 45 ∧ chars.take 9 = "urn:uuid:".toList then some (chars.drop 9)
  else none

def Uuid.parse (text : String) : Option Uuid := do
  let form ← uuidForm text
  let text := String.ofList (form.map Char.toLower)
  if h : uuidText text = true then some { text := text, wellFormed := h } else none

theorem toLower_eq_self {c : Char} (h : c = '-' ∨ ('0' ≤ c ∧ c ≤ '9') ∨ ('a' ≤ c ∧ c ≤ 'f')) :
    c.toLower = c := by
  have hupper : ¬ (c.val ≥ 'A'.val ∧ c.val ≤ 'Z'.val) := by
    rcases h with rfl | h
    · decide
    · simp only [Char.le_def, UInt32.le_iff_toNat_le, ge_iff_le] at h ⊢
      simp only [Char.reduceVal, UInt32.reduceToNat] at h ⊢
      omega
  unfold Char.toLower
  exact dif_neg hupper

/-- What is printed is read back. -/
theorem Uuid.parse_text (id : Uuid) : Uuid.parse id.text = some id := by
  obtain ⟨text, wellFormed⟩ := id
  have hform := wellFormed
  unfold uuidText at hform
  simp only [Bool.and_eq_true, beq_iff_eq, List.all_eq_true] at hform
  obtain ⟨hlength, hchars⟩ := hform
  have hlower : text.toList.map Char.toLower = text.toList := by
    refine (List.map_congr_left fun c hc => toLower_eq_self ?_).trans (List.map_id' _)
    obtain ⟨i, hi, hget⟩ := List.mem_iff_getElem.mp hc
    have hmem : (c, i) ∈ text.toList.zipIdx := by
      rw [List.mem_zipIdx_iff_getElem?, ← hget]
      exact List.getElem?_eq_getElem hi
    have hchar := hchars (c, i) hmem
    dsimp only at hchar
    split at hchar
    · exact Or.inl (beq_iff_eq.mp hchar)
    · simpa using Or.inr hchar
  have hshape : uuidForm text = some text.toList := by
    unfold uuidForm
    simp [hlength]
  unfold Uuid.parse
  simp only [hshape, Option.bind_eq_bind, Option.bind_some, hlower, String.ofList_toList]
  exact dif_pos wellFormed

/-! ## Statements -/

structure ListFilter where
  ownerId : String
  projectId : Option String
  taskId : Option String
  states : List RemindiState
  triggerTypes : List String
  linkedGoalId : Option String
  linkedMemoryHash : Option String
  after : Option (String × Uuid)
  limit : Nat

structure HistoryFilter where
  ownerId : String
  remindiId : Uuid
  afterSequence : Int
  eventTypes : List EventType
  limit : Nat

/-- `column IN (values)`; without values there is no filter. -/
def enumFilter {α : Type} [BEq α] (values : List α) (value : α) : Bool :=
  values.isEmpty || values.contains value

def eventFromRow (row : RemindiEvent) : Except RepositoryError RemindiEvent := do
  parseInstant row.occurredAt
  return row

def evidenceFromRow (row : CompletionEvidence) : Except RepositoryError CompletionEvidence := do
  parseInstant row.observedAt
  parseInstant row.recordedAt
  return row

namespace Repository

def hasLink (db : Db) (id : Uuid) (linkType : LinkType) (value : String) : Bool :=
  db.links.rows.any fun row =>
    row.remindiId == id && row.link.linkType == linkType && row.link.value == value

/-- The part of the WHERE clause about columns that no statement changes. -/
def listScope (filter : ListFilter) (row : Remindi) : Bool :=
  row.ownerId == filter.ownerId && filter.projectId.all (fun project => row.projectId == project) &&
    filter.taskId.all fun task => row.taskId == some task

/-- The part about the state, the trigger and the links. -/
def listMatches (filter : ListFilter) (db : Db) (row : Remindi) : Bool :=
  enumFilter filter.states row.state && enumFilter filter.triggerTypes row.trigger.name &&
    filter.linkedGoalId.all (fun goal => hasLink db row.id .goal goal) &&
    filter.linkedMemoryHash.all fun memory => hasLink db row.id .memory memory

/-- The text of the column `created_at`. -/
def createdText (row : Remindi) : String := (canonicalText row.createdAt).getD ""

/-- `created_at < ? OR (created_at = ? AND id > ?)` -/
def listAfter (after : Option (String × Uuid)) (row : Remindi) : Bool :=
  after.all fun (createdAt, id) => decide (createdText row < createdAt) ||
    (createdText row == createdAt && decide (id.text < row.id.text))

/-- `ORDER BY created_at DESC, id ASC` -/
def listsBefore (a b : Remindi) : Prop :=
  createdText b < createdText a ∨ (createdText a = createdText b ∧ a.id.text ≤ b.id.text)

instance : DecidableRel listsBefore := fun a b => by
  unfold listsBefore
  infer_instance

def list (filter : ListFilter) (db : Db) : Except RepositoryError (List Remindi) := do
  let limit ← i64FromU64 filter.limit
  let rows := db.remindi.rows.filter fun row =>
    listScope filter row && listMatches filter db row && listAfter filter.after row
  ((rows.insertionSort listsBefore).take limit).mapM remindiFromRow

def historySelects (filter : HistoryFilter) (row : RemindiEvent) : Bool :=
  row.remindiId == filter.remindiId && decide (filter.afterSequence < row.sequence) &&
    enumFilter filter.eventTypes row.eventType

/-- `ORDER BY sequence ASC` -/
def historyRows (filter : HistoryFilter) (db : Db) : Except RepositoryError (List RemindiEvent) := do
  let limit ← i64FromU64 filter.limit
  let rows := db.events.rows.filter (historySelects filter)
  ((rows.insertionSort fun a b => a.sequence ≤ b.sequence).take limit).mapM eventFromRow

def history (filter : HistoryFilter) : Reading (List RemindiEvent) := do
  let found ← Reading.query (find filter.ownerId filter.remindiId)
  match found with
  | none => return []
  | some _ => Reading.query (historyRows filter)

/-- The evidence row joined with its item. -/
def evidence (ownerId : String) (id : Uuid) (db : Db) :
    Except RepositoryError (Option CompletionEvidence) :=
  match db.evidence.find? id with
  | none => .ok none
  | some row =>
    if (db.remindi.find? row.remindiId).any fun item => item.ownerId == ownerId then
      (evidenceFromRow row).map some
    else .ok none

end Repository

/-! ## Operations -/

def validateTriggerTypes (values : List String) : Except ServiceError Unit :=
  if values.all fun value => ["at_time", "after_elapsed", "interval", "next_session",
      "next_continuation", "goal_active", "condition"].contains value then .ok ()
  else .error .validation

def openCursor {α : Type} (decode : String → Option α) (text : String) : Except ServiceError α :=
  match decode text with
  | some cursor => .ok cursor
  | none => .error .invalidCursor

def cursorId (cursor : ListCursor) : Except ServiceError Uuid :=
  match Uuid.parse cursor.id with
  | some id => .ok id
  | none => .error .invalidCursor

/-- The cursor of the last item when the page was cut off. -/
def nextListCursor (cursors : PageCursors) (hasMore : Bool) (last : Option Remindi) :
    Except ServiceError (Option String) :=
  if hasMore then
    last.mapM fun item => do
      let createdAt ← domain (canonicalTimestamp item.createdAt)
      return cursors.encodeList { createdAt := createdAt, id := item.id.text }
  else .ok none

def nextHistoryCursor (cursors : PageCursors) (hasMore : Bool) (last : Option RemindiEvent) :
    Option String :=
  if hasMore then last.map fun event => cursors.encodeHistory { sequence := event.sequence }
  else none

/-- The number after which a page of the history begins. -/
def historyStart (cursors : PageCursors) (request : HistoryRequest) : Except ServiceError Int := do
  let cursor ← request.cursor.mapM (openCursor cursors.decodeHistory)
  let after := ((cursor.map (·.sequence)).or request.afterSequence).getD 0
  if after < 0 then .error .validation else .ok after

namespace RemindiService

def get (service : RemindiService) (actor : Actor) (id : Uuid) : Reading Remindi := do
  Txn.ofExcept (validateActor actor)
  Reading.connection
  let found ← Reading.query (Repository.find service.ownerId id)
  match found with
  | some item => return item
  | none => .throw .notFound

def listFilter (service : RemindiService) (request : ListRequest)
    (after : Option (String × Uuid)) (limit : Nat) : ListFilter where
  ownerId := service.ownerId
  projectId := request.projectId
  taskId := request.taskId
  states := request.states
  triggerTypes := request.triggerTypes
  linkedGoalId := request.linkedGoalId
  linkedMemoryHash := request.linkedMemoryHash
  after := after
  limit := limit

def list (service : RemindiService) (cursors : PageCursors) (actor : Actor)
    (request : ListRequest) : Reading (Page Remindi) := do
  Txn.ofExcept (validateActor actor)
  Txn.ofExcept (validateTriggerTypes request.triggerTypes)
  let limit ← Txn.ofExcept (pageLimit request.limit 50)
  let cursor ← Txn.ofExcept (request.cursor.mapM (openCursor cursors.decodeList))
  let cursorId ← Txn.ofExcept (cursor.mapM cursorId)
  Reading.connection
  let after := cursor.bind fun cursor => cursorId.map fun id => (cursor.createdAt, id)
  let items ← Reading.query (Repository.list (service.listFilter request after (limit + 1)))
  let page := items.take limit
  let nextCursor ← Txn.ofExcept
    (nextListCursor cursors (decide (limit < items.length)) page.getLast?)
  return { items := page, nextCursor := nextCursor }

def historyFilter (service : RemindiService) (request : HistoryRequest) (after : Int)
    (limit : Nat) : HistoryFilter where
  ownerId := service.ownerId
  remindiId := request.remindiId
  afterSequence := after
  eventTypes := request.eventTypes
  limit := limit

def history (service : RemindiService) (cursors : PageCursors) (actor : Actor)
    (request : HistoryRequest) : Reading HistoryPage := do
  Txn.ofExcept (validateActor actor)
  let limit ← Txn.ofExcept (pageLimit request.limit 100)
  let after ← Txn.ofExcept (historyStart cursors request)
  Reading.connection
  let found ← Reading.query (Repository.find service.ownerId request.remindiId)
  if found.isNone then .throw .notFound
  else
    let items ← Repository.history (service.historyFilter request after (limit + 1))
    let page := items.take limit
    let nextCursor := nextHistoryCursor cursors (decide (limit < items.length)) page.getLast?
    let evidence ← Reading.query (Repository.evidence service.ownerId request.remindiId)
    return { items := page, nextCursor := nextCursor, evidence := evidence }

end RemindiService

end RemindiCore
