import Mathlib.Data.List.ReduceOption
import RemindiCore.Proof.Steps

/-!
# What the columns of the items hold

Every stored item was bound once, so its instants are whole milliseconds with a
canonical text and its numbers fit in 63 bits (`stored_rows_bound`).
-/

namespace RemindiCore

open CivilTime KeyedTable Transaction

/-- The instants of an item, as its row has them. -/
def Remindi.times (row : Remindi) : List OffsetDateTime :=
  [row.nextFireAt, row.nextEvaluationAt, row.originalNextFireAt, row.dueSince, row.snoozeUntil,
    row.lastCheckedAt, some row.createdAt, some row.updatedAt, row.completedAt,
    row.cancelledAt].reduceOption

/-- Every column could be bound, and holds what was bound. -/
structure Remindi.Bound (row : Remindi) : Prop where
  stored : row.truncateMillis = row
  bound : row.bindInsert = .ok ()

section

variable {x : Externals} {value : OffsetDateTime} {item old : Remindi}

theorem timestamp_isOk : (∃ t, timestamp value = .ok t) ↔ (canonicalText value).isSome = true := by
  unfold timestamp canonicalTimestamp
  cases canonicalText value <;> simp

theorem canonicalText_truncateMillis (value : OffsetDateTime) :
    canonicalText value.truncateMillis = canonicalText value := by
  refine canonicalText_congr ?_
  simp only [OffsetDateTime.truncateMillis]
  omega

theorem timestamp_truncateMillis (value : OffsetDateTime) :
    timestamp value.truncateMillis = timestamp value := by
  unfold timestamp canonicalTimestamp
  rw [canonicalText_truncateMillis, OffsetDateTime.truncateMillis_truncateMillis]

theorem optionalTimestamp_truncateMillis (value : Option OffsetDateTime) :
    optionalTimestamp (value.map OffsetDateTime.truncateMillis) = optionalTimestamp value := by
  cases value with
  | none => rfl
  | some value =>
    unfold optionalTimestamp
    simp only [Option.map_some, Option.mapM_some, timestamp_truncateMillis]

/-- The row of an item is bound as the item was. -/
theorem Remindi.bindUpdate_stored (x : Externals) (item : Remindi) :
    (item.stored x).bindUpdate = item.bindUpdate := by
  unfold Remindi.bindUpdate Remindi.stored Remindi.truncateMillis
  simp only [jsonString, Trigger.isSome_toJson_mapNumbers, optionalTimestamp_truncateMillis,
    timestamp_truncateMillis]

theorem Remindi.bindUpdate_writtenOver (x : Externals) (item old : Remindi) :
    (item.writtenOver x old).bindUpdate = item.bindUpdate := item.bindUpdate_stored x

theorem truncateMillis_comp :
    OffsetDateTime.truncateMillis ∘ OffsetDateTime.truncateMillis = OffsetDateTime.truncateMillis :=
  funext OffsetDateTime.truncateMillis_truncateMillis

theorem Remindi.updatedAt_of_bound (h : item.bindUpdate = .ok ()) :
    (canonicalText item.updatedAt).isSome = true := by
  unfold Remindi.bindUpdate at h
  simp only [except_bind_ok] at h
  obtain ⟨_, -, _, -, _, -, _, -, _, -, _, -, _, -, _, -, _, -, _, -, _, -, _, -, t, ht, -⟩ := h
  exact timestamp_isOk.mp ⟨t, ht⟩

theorem Remindi.bindInsert_ok :
    item.bindInsert = .ok () ↔ item.bindUpdate = .ok () ∧ (canonicalText item.createdAt).isSome = true := by
  unfold Remindi.bindInsert
  rw [← timestamp_isOk]
  constructor
  · intro h
    obtain ⟨⟨⟩, hupdate, h⟩ := except_bind_ok.mp h
    obtain ⟨t, ht, -⟩ := except_bind_ok.mp h
    exact ⟨hupdate, t, ht⟩
  · rintro ⟨hupdate, t, ht⟩
    exact except_bind_ok.mpr ⟨(), hupdate, except_bind_ok.mpr ⟨t, ht, rfl⟩⟩

theorem Remindi.Bound.stored_of (hupdate : item.bindUpdate = .ok ())
    (hcreated : (canonicalText item.createdAt).isSome = true) : (item.stored x).Bound where
  stored := item.truncateMillis_stored x
  bound := Remindi.bindInsert_ok.mpr ⟨(item.bindUpdate_stored x).trans hupdate,
    (congrArg Option.isSome (canonicalText_truncateMillis _)).trans hcreated⟩

theorem Remindi.Bound.writtenOver (hold : old.Bound) (hupdate : item.bindUpdate = .ok ()) :
    (item.writtenOver x old).Bound where
  stored := by
    have hcreated : old.createdAt.truncateMillis = old.createdAt :=
      congrArg Remindi.createdAt hold.stored
    unfold Remindi.writtenOver Remindi.stored Remindi.truncateMillis
    simp [hcreated, truncateMillis_comp]
  bound := Remindi.bindInsert_ok.mpr
    ⟨(item.bindUpdate_writtenOver x old).trans hupdate, (Remindi.bindInsert_ok.mp hold.bound).2⟩

/-- A year that could be bound is at most 9999; the row is read back from the year 0 on. -/
theorem Remindi.Bound.createdAt (h : item.Bound) : Column item.createdAt :=
  ⟨congrArg Remindi.createdAt h.stored, (Remindi.bindInsert_ok.mp h.bound).2⟩

end

/-! ## Reading an item -/

theorem parseOptional_ok {value : Option OffsetDateTime} :
    parseOptional value = .ok () ↔ ∀ t, value = some t → 0 ≤ t.year := by
  cases value with
  | none => simp [parseOptional]
  | some t =>
    simp only [parseOptional, parseInstant, Option.some.injEq, forall_eq']
    split <;> simp [*]

theorem parseInstant_ok {value : OffsetDateTime} : parseInstant value = .ok () ↔ 0 ≤ value.year := by
  unfold parseInstant
  split <;> simp [*]

/-- **A row is read exactly when none of its instants lies before the year 0.** -/
theorem remindiFromRow_iff {row : Remindi} :
    remindiFromRow row = .ok row ↔ ∀ t ∈ row.times, 0 ≤ t.year := by
  have hrow : remindiFromRow row = .ok row ↔ parseOptional row.nextFireAt = .ok () ∧
      parseOptional row.nextEvaluationAt = .ok () ∧ parseOptional row.originalNextFireAt = .ok () ∧
      parseOptional row.dueSince = .ok () ∧ parseOptional row.snoozeUntil = .ok () ∧
      parseOptional row.lastCheckedAt = .ok () ∧ parseInstant row.createdAt = .ok () ∧
      parseInstant row.updatedAt = .ok () ∧ parseOptional row.completedAt = .ok () ∧
      parseOptional row.cancelledAt = .ok () := by
    unfold remindiFromRow
    simp only [except_bind_ok]
    constructor
    · rintro ⟨⟨⟩, h1, ⟨⟩, h2, ⟨⟩, h3, ⟨⟩, h4, ⟨⟩, h5, ⟨⟩, h6, ⟨⟩, h7, ⟨⟩, h8, ⟨⟩, h9, ⟨⟩, h10, -⟩
      exact ⟨h1, h2, h3, h4, h5, h6, h7, h8, h9, h10⟩
    · rintro ⟨h1, h2, h3, h4, h5, h6, h7, h8, h9, h10⟩
      exact ⟨(), h1, (), h2, (), h3, (), h4, (), h5, (), h6, (), h7, (), h8, (), h9, (), h10, rfl⟩
  rw [hrow]
  simp only [parseOptional_ok, parseInstant_ok, Remindi.times, List.reduceOption_mem_iff,
    List.mem_cons, List.not_mem_nil, or_false]
  constructor
  · rintro ⟨h1, h2, h3, h4, h5, h6, h7, h8, h9, h10⟩ t ht
    rcases ht with ht | ht | ht | ht | ht | ht | ht | ht | ht | ht
    · exact h1 t ht.symm
    · exact h2 t ht.symm
    · exact h3 t ht.symm
    · exact h4 t ht.symm
    · exact h5 t ht.symm
    · exact h6 t ht.symm
    · rw [Option.some.inj ht]
      exact h7
    · rw [Option.some.inj ht]
      exact h8
    · exact h9 t ht.symm
    · exact h10 t ht.symm
  · intro h
    exact ⟨fun t ht => h t (by simp [ht]), fun t ht => h t (by simp [ht]),
      fun t ht => h t (by simp [ht]), fun t ht => h t (by simp [ht]),
      fun t ht => h t (by simp [ht]), fun t ht => h t (by simp [ht]), h _ (by simp), h _ (by simp),
      fun t ht => h t (by simp [ht]), fun t ht => h t (by simp [ht])⟩

/-! ## Every stored item -/

section

variable {db db' : Db} {x : Externals} {s : System}

/-- Every stored item was bound. -/
def Db.Bound (db : Db) : Prop := ∀ row ∈ db.remindi.rows, row.Bound

theorem Db.Bound.replace {item old : Remindi} (h : db.Bound)
    (hold : db.remindi.find? item.id = some old) (hupdate : item.bindUpdate = .ok ())
    (hrows : db'.remindi = db.remindi.replace (item.writtenOver x old)) : db'.Bound := by
  intro row hrow
  rw [hrows] at hrow
  rcases Table.mem_replace.mp hrow with ⟨hrow, -⟩ | ⟨rfl, -⟩
  · exact h row hrow
  · exact (h old (Table.find?_eq_some.mp hold).1).writtenOver hupdate

theorem step_bound (label : Label) (hs : s.db.Bound) : (step x s label).1.db.Bound := by
  cases label with
  | call ownerId actor call env =>
    show (Txn.run _ env s.db).2.Bound
    rcases hrun : (RemindiService.perform ⟨x, ownerId⟩ actor call).run env s.db with
      ⟨_ | response, db'⟩
    · rw [Txn.run_error hrun]
      exact hs
    obtain ⟨m, hok⟩ := Txn.run_ok.mp hrun
    obtain ⟨hash, -, hreplayed | hexecuted⟩ := perform_ok hok
    · rw [← hreplayed.unchanged]
      exact hs
    cases hexecuted with
    | added prepared added =>
      obtain ⟨id, nextFireAt, now, -, hitem⟩ := added.built
      intro row hrow
      rcases (Table.mem_insert? added.remindi).mp hrow with hrow | rfl
      · exact hs row hrow
      · -- the two timestamps of a new item are the same
        have hupdated := Remindi.updatedAt_of_bound added.bound
        rw [hitem] at hupdated
        refine .stored_of added.bound ?_
        rw [hitem]
        exact hupdated
    | mutated target operates mutated =>
      refine hs.replace ?_ mutated.bound mutated.remindi
      rw [operates.sameItem.id]
      exact mutated.found
  | _ =>
    exact step_preserves (I := Db.Bound) _ (fun h hdb => hdb.replace h.found h.bound h.remindi)
      (fun _ _ _ _ => by simp) hs

theorem stored_rows_bound (labels : List Label) : (runOf x labels).db.Bound :=
  Machine.invariant_final (I := fun s : System => s.db.Bound) (by intro row hrow; cases hrow)
    (fun _ label hs => step_bound label hs) labels

end

end RemindiCore
