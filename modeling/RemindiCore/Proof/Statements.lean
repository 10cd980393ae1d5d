import RemindiCore.Service.System
import RemindiCore.Lib.TextOrder

/-!
# What the statements of the repository do

One lemma for each statement of `Service/Database.lean`, saying what a success
has read or changed.  `Db.view` is everything the store holds about one item;
`Only` says that a change leaves every other item's view alone.
-/

namespace RemindiCore

open CivilTime JsonText KeyedTable Transaction

/-! ## The view of one item -/

/-- Everything the store holds about one item. -/
structure ItemView where
  row : Option Remindi
  links : List LinkRow
  events : List RemindiEvent
  evidence : Option CompletionEvidence
  records : List IdempotencyRecord

def eventsOf (db : Db) (id : Uuid) : List RemindiEvent :=
  db.events.rows.filter fun event => event.remindiId = id

def Db.view (db : Db) (id : Uuid) : ItemView where
  row := db.remindi.find? id
  links := db.links.rows.filter fun row => row.remindiId = id
  events := eventsOf db id
  evidence := db.evidence.find? id
  records := db.idempotency.rows.filter fun record => record.remindiId = id

/-- What a link says, without its creation time. -/
def RemindiLink.content (link : RemindiLink) : LinkType × String := (link.linkType, link.value)

def LinkRow.content (row : LinkRow) : LinkType × String := row.link.content

def ItemView.linked (view : ItemView) : List (LinkType × String) := view.links.map LinkRow.content

/-- Nothing but the item changes. -/
def Only (id : Uuid) (db db' : Db) : Prop := ∀ k, k ≠ id → db'.view k = db.view k

/-! ## Rows -/

namespace Remindi

section

variable (x : Externals) (a b : Remindi)

@[simp] theorem writtenOver_id : (a.writtenOver x b).id = a.id := rfl
@[simp] theorem writtenOver_ownerId : (a.writtenOver x b).ownerId = a.ownerId := rfl
@[simp] theorem writtenOver_version : (a.writtenOver x b).version = a.version := rfl
@[simp] theorem stored_id : (a.stored x).id = a.id := rfl
@[simp] theorem stored_version : (a.stored x).version = a.version := rfl

/-- Reading the numbers of the trigger changes no instant. -/
@[simp] theorem truncateMillis_stored : (a.stored x).truncateMillis = a.stored x := by
  simp [Remindi.stored, Remindi.truncateMillis, Function.comp_def]

end

end Remindi

theorem remindiFromRow_ok {row item : Remindi} (h : remindiFromRow row = .ok item) :
    item = row := by
  unfold remindiFromRow at h
  simp only [except_bind_ok] at h
  obtain ⟨_, -, _, -, _, -, _, -, _, -, _, -, _, -, _, -, _, -, _, -, h⟩ := h
  exact (Except.ok.inj h).symm

theorem readable_of_isOk {row : Remindi} (h : (remindiFromRow row).isOk = true) :
    remindiFromRow row = .ok row := by
  cases hrow : remindiFromRow row with
  | error e =>
    rw [hrow] at h
    cases h
  | ok item => rw [remindiFromRow_ok hrow]

theorem mapM_remindiFromRow_ok {rows items : List Remindi}
    (h : rows.mapM remindiFromRow = .ok items) : items = rows := by
  induction rows generalizing items with
  | nil => exact (Except.ok.inj h).symm
  | cons row rows ih =>
    rw [List.mapM_cons] at h
    obtain ⟨item, hitem, h⟩ := except_bind_ok.mp h
    obtain ⟨rest, hrest, h⟩ := except_bind_ok.mp h
    rw [← Except.ok.inj h, remindiFromRow_ok hitem, ih hrest]

theorem orSql_ok {α : Type} {a : Option α} {b : α} : orSql a = .ok b ↔ a = some b := by
  cases a <;> simp [orSql]

theorem constraint_ok {b : Bool} {u : Unit} : constraint b = .ok u ↔ b = true := by
  cases b <;> simp [constraint]

theorem timestamp_ok {a b : OffsetDateTime} (h : timestamp a = .ok b) : b = a.truncateMillis := by
  unfold timestamp at h
  split at h
  · exact (Except.ok.inj h).symm
  · cases h

theorem i64FromU64_ok {a b : Nat} (h : i64FromU64 a = .ok b) : b = a := by
  unfold i64FromU64 at h
  split at h
  · exact (Except.ok.inj h).symm
  · cases h

theorem mapM_i64FromU64_ok {a b : Option Nat} (h : a.mapM i64FromU64 = .ok b) : b = a := by
  cases a with
  | none => exact (Except.ok.inj h).symm
  | some a =>
    obtain ⟨c, hc, rfl⟩ := except_map_ok.mp h
    rw [i64FromU64_ok hc]

/-! ## Columns -/

/-- An instant as a column of the store holds it: whole milliseconds, with a timestamp. -/
def Column (value : OffsetDateTime) : Prop :=
  value.truncateMillis = value ∧ (canonicalText value).isSome = true

/-- The times that select and order the item are what the columns hold. -/
structure Remindi.Columns (row : Remindi) : Prop where
  nextFireAt : ∀ value, row.nextFireAt = some value → Column value
  snoozeUntil : ∀ value, row.snoozeUntil = some value → Column value

def Db.Columns (db : Db) : Prop := ∀ row ∈ db.remindi.rows, row.Columns

theorem column_truncateMillis {value : OffsetDateTime} {u : OffsetDateTime}
    (h : timestamp value = .ok u) : Column value.truncateMillis := by
  refine ⟨OffsetDateTime.truncateMillis_truncateMillis value, ?_⟩
  have hsome : (canonicalText value).isSome = true := by
    unfold timestamp canonicalTimestamp at h
    cases htext : canonicalText value with
    | some text => rfl
    | none =>
      rw [htext] at h
      cases h
  rw [← hsome]
  refine congrArg Option.isSome (canonicalText_congr ?_)
  simp only [OffsetDateTime.truncateMillis]
  omega

theorem column_of_optionalTimestamp {value bound : Option OffsetDateTime}
    (h : optionalTimestamp value = .ok bound) {t : OffsetDateTime}
    (ht : value.map OffsetDateTime.truncateMillis = some t) : Column t := by
  cases value with
  | none => cases ht
  | some v =>
    obtain rfl := Option.some.inj ht
    obtain ⟨u, hu, -⟩ := except_map_ok.mp h
    exact column_truncateMillis hu

/-- What could be bound is stored in columns. -/
theorem Remindi.columns_of_bound {item : Remindi} (h : item.bindUpdate = .ok ()) :
    item.truncateMillis.Columns := by
  unfold Remindi.bindUpdate at h
  obtain ⟨_, -, h⟩ := except_bind_ok.mp h
  obtain ⟨_, -, h⟩ := except_bind_ok.mp h
  obtain ⟨_, hfire, h⟩ := except_bind_ok.mp h
  obtain ⟨_, -, h⟩ := except_bind_ok.mp h
  obtain ⟨_, -, h⟩ := except_bind_ok.mp h
  obtain ⟨_, -, h⟩ := except_bind_ok.mp h
  obtain ⟨_, hsnooze, -⟩ := except_bind_ok.mp h
  exact ⟨fun t ht => column_of_optionalTimestamp hfire ht,
    fun t ht => column_of_optionalTimestamp hsnooze ht⟩

theorem Remindi.Columns.stored {x : Externals} {item : Remindi} (h : item.truncateMillis.Columns) :
    (item.stored x).Columns := ⟨h.nextFireAt, h.snoozeUntil⟩

theorem Remindi.Columns.writtenOver {x : Externals} {item : Remindi}
    (h : item.truncateMillis.Columns) (old : Remindi) : (item.writtenOver x old).Columns :=
  ⟨h.nextFireAt, h.snoozeUntil⟩

namespace Repository

/-! ## Reading -/

variable {x : Externals} {db db' : Db}

theorem find_ok {ownerId : String} {id : Uuid} {item : Remindi}
    (h : find ownerId id db = .ok (some item)) :
    db.remindi.find? id = some item ∧ item.ownerId = ownerId := by
  unfold find at h
  split at h
  · cases h
  · next row hrow =>
    split at h
    · next howner =>
      obtain ⟨item', hitem, e⟩ := except_map_ok.mp h
      cases e
      rw [remindiFromRow_ok hitem]
      exact ⟨hrow, howner⟩
    · cases h

/-! ## Writing -/

theorem insert_ok {item : Remindi} (h : insert x item db = .ok db') :
    ∃ t, db.remindi.insert? (item.stored x) = some t ∧ db' = { db with remindi := t } ∧
      item.bindUpdate = .ok () ∧ remindiChecks (item.stored x) = true := by
  unfold insert at h
  obtain ⟨_, hbind, h⟩ := except_bind_ok.mp h
  obtain ⟨_, hcheck, h⟩ := except_bind_ok.mp h
  obtain ⟨t, ht, h⟩ := except_bind_ok.mp h
  obtain ⟨_, hbound, -⟩ := except_bind_ok.mp hbind
  exact ⟨t, orSql_ok.mp ht, (Except.ok.inj h).symm, hbound, constraint_ok.mp hcheck⟩

/-- The row that an update is for has another version or another owner, or is gone. -/
def Missed (db : Db) (item : Remindi) (expectedVersion : Nat) : Prop :=
  ∀ row, db.remindi.find? item.id = some row →
    row.ownerId ≠ item.ownerId ∨ row.version ≠ expectedVersion

/-- An update has missed its row and changed nothing, or it has replaced it. -/
theorem updateCas_ok {item : Remindi} {expectedVersion : Nat} {updated : Bool}
    (h : updateCas x item expectedVersion db = .ok (updated, db')) :
    updated = false ∧ db = db' ∧ Missed db item expectedVersion ∨
      updated = true ∧ ∃ old, db.remindi.find? item.id = some old ∧
        old.ownerId = item.ownerId ∧ old.version = expectedVersion ∧
        item.bindUpdate = .ok () ∧ remindiChecks (item.writtenOver x old) = true ∧
        db' = { db with remindi := db.remindi.replace (item.writtenOver x old) } := by
  unfold updateCas at h
  obtain ⟨⟨⟩, hbind, h⟩ := except_bind_ok.mp h
  obtain ⟨_, -, h⟩ := except_bind_ok.mp h
  split at h
  · next hnone =>
    cases h
    exact Or.inl ⟨rfl, rfl, fun row hrow => by rw [hnone] at hrow; cases hrow⟩
  · next old hold =>
    split at h
    · next hcas =>
      obtain ⟨_, hcheck, h⟩ := except_bind_ok.mp h
      cases h
      exact Or.inr ⟨rfl, old, hold, hcas.1, hcas.2, hbind, constraint_ok.mp hcheck, rfl⟩
    · next hcas =>
      cases h
      refine Or.inl ⟨rfl, rfl, fun row hrow => ?_⟩
      obtain rfl := Option.some.inj (hold.symm.trans hrow)
      exact not_and_or.mp hcas

theorem insertLinks_ok {id : Uuid} {links : List RemindiLink} (h : insertLinks id links db = .ok db') :
    ∃ t new, db' = { db with links := t } ∧ t.rows = db.links.rows ++ new ∧
      (∀ row ∈ new, row.remindiId = id) ∧ new.map LinkRow.content = links.map RemindiLink.content := by
  induction links generalizing db with
  | nil =>
    cases h
    exact ⟨db'.links, [], rfl, (List.append_nil _).symm, by simp, rfl⟩
  | cons link links ih =>
    simp only [insertLinks] at h
    obtain ⟨createdAt, -, h⟩ := except_bind_ok.mp h
    obtain ⟨_, -, h⟩ := except_bind_ok.mp h
    obtain ⟨t, ht, h⟩ := except_bind_ok.mp h
    obtain ⟨u, new, rfl, hrows, hnew, hcontent⟩ := ih h
    have hins := (Table.insert?_eq_some (orSql_ok.mp ht)).2
    refine ⟨u, { remindiId := id, link := { link with createdAt := createdAt } } :: new, rfl,
      ?_, ?_, ?_⟩
    · rw [hrows, hins, List.append_assoc]
      rfl
    · intro row hrow
      rcases List.mem_cons.mp hrow with rfl | hrow
      · rfl
      · exact hnew row hrow
    · rw [List.map_cons, hcontent]
      rfl

theorem replaceLinks_ok {item : Remindi} {links : List RemindiLink}
    (h : replaceLinks item links db = .ok db') :
    ∃ t, db' = { db with links := t } ∧
      (∀ k, k ≠ item.id → t.rows.filter (fun row => row.remindiId = k) =
        db.links.rows.filter (fun row => row.remindiId = k)) ∧
      (t.rows.filter fun row => row.remindiId = item.id).map LinkRow.content =
        links.map RemindiLink.content := by
  obtain ⟨t, new, rfl, hrows, hnew, hcontent⟩ := insertLinks_ok h
  refine ⟨t, rfl, fun k hk => ?_, ?_⟩
  · have hkeep : ∀ l : List LinkRow, (l.filter fun row => row.remindiId ≠ item.id).filter
        (fun row => row.remindiId = k) = l.filter fun row => row.remindiId = k := by
      intro l
      rw [List.filter_filter]
      refine List.filter_congr fun row _ => ?_
      by_cases hrow : row.remindiId = k
      · simp [hrow, hk]
      · simp [hrow]
    have hout : new.filter (fun row => row.remindiId = k) = [] := by
      rw [List.filter_eq_nil_iff]
      intro row hrow
      rw [hnew row hrow]
      simp [Ne.symm hk]
    rw [hrows, List.filter_append, hout, List.append_nil]
    exact hkeep db.links.rows
  · have hgone : ∀ l : List LinkRow, (l.filter fun row => row.remindiId ≠ item.id).filter
        (fun row => row.remindiId = item.id) = [] := by
      intro l
      rw [List.filter_filter, List.filter_eq_nil_iff]
      simp
    have hall : new.filter (fun row => row.remindiId = item.id) = new :=
      List.filter_eq_self.mpr fun row hrow => decide_eq_true (hnew row hrow)
    rw [hrows, List.filter_append, hall, ← hcontent]
    exact congrArg (fun l => (l ++ new).map LinkRow.content) (hgone db.links.rows)

theorem appendEvent_ok {event : RemindiEvent} (h : appendEvent event db = .ok db') :
    ∃ t row, db.events.insert? row = some t ∧ db' = { db with events := t } ∧
      row = { event with
        sequence := nextSequence db
        occurredAt := event.occurredAt.truncateMillis } ∧
      (db.remindi.find? event.remindiId).isSome = true := by
  unfold appendEvent at h
  obtain ⟨_, htime, h⟩ := except_bind_ok.mp h
  obtain ⟨_, hprior, h⟩ := except_bind_ok.mp h
  obtain ⟨_, hnew, h⟩ := except_bind_ok.mp h
  obtain ⟨_, href, h⟩ := except_bind_ok.mp h
  obtain ⟨t, ht, h⟩ := except_bind_ok.mp h
  refine ⟨t, _, orSql_ok.mp ht, (Except.ok.inj h).symm, ?_, constraint_ok.mp href⟩
  rw [timestamp_ok htime, mapM_i64FromU64_ok hprior, mapM_i64FromU64_ok hnew]

theorem insertEvidence_ok {evidence : CompletionEvidence}
    (h : insertEvidence x evidence db = .ok db') :
    ∃ t row, db.evidence.insert? row = some t ∧ db' = { db with evidence := t } ∧
      row = { evidence with
        observedAt := evidence.observedAt.truncateMillis
        recordedAt := evidence.recordedAt.truncateMillis
        metadata := evidence.metadata.map (·.mapNumbers x.readNumber) } := by
  unfold insertEvidence at h
  obtain ⟨_, hobs, h⟩ := except_bind_ok.mp h
  obtain ⟨_, hrec, h⟩ := except_bind_ok.mp h
  obtain ⟨_, -, h⟩ := except_bind_ok.mp h
  obtain ⟨_, -, h⟩ := except_bind_ok.mp h
  obtain ⟨t, ht, h⟩ := except_bind_ok.mp h
  refine ⟨t, _, orSql_ok.mp ht, (Except.ok.inj h).symm, ?_⟩
  rw [timestamp_ok hobs, timestamp_ok hrec]

theorem insertIdempotency_ok {record : IdempotencyRecord}
    (h : insertIdempotency record db = .ok db') :
    ∃ t row, db.idempotency.insert? row = some t ∧ db' = { db with idempotency := t } ∧
      row = { record with
        createdAt := record.createdAt.truncateMillis
        expiresAt := record.expiresAt.truncateMillis } := by
  unfold insertIdempotency at h
  obtain ⟨_, hcreated, h⟩ := except_bind_ok.mp h
  obtain ⟨_, hexpires, h⟩ := except_bind_ok.mp h
  obtain ⟨t, ht, h⟩ := except_bind_ok.mp h
  refine ⟨t, _, orSql_ok.mp ht, (Except.ok.inj h).symm, ?_⟩
  rw [timestamp_ok hcreated, timestamp_ok hexpires]

end Repository

end RemindiCore
