import RemindiCore.Service.Listing
import RemindiCore.Proof.Columns
import RemindiCore.Proof.ConditionPair

/-!
# Reading while a run goes on

A reading makes its calls at some times of a run.  Between two of them an item
keeps its owner, project, task and time of creation (`storeAt_keeps`), and the
events only grow (`storeAt_appends`).
-/

namespace RemindiCore

open CivilTime KeyedTable Transaction

variable {x : Externals} {labels : List Label}

/-! ## Reading in a run -/

/-- The store after so many steps of a run. -/
def storeAt (x : Externals) (labels : List Label) (time : Nat) : Db :=
  (runOf x (labels.take time)).db

/-- When the calls of a reading are made in a run, and which of them fail. -/
structure Sight where
  time : Nat → Nat
  fault : Nat → Option DatabaseError
  mono : Monotone time

def Sight.env (sight : Sight) (x : Externals) (labels : List Label) : ReadEnv where
  fault := sight.fault
  store := fun n => storeAt x labels (sight.time n)

theorem Reading.query_ok {α : Type} {f : Db → Except RepositoryError α} {env : ReadEnv} {n m : Nat}
    {a : α} (h : Reading.query f env n () = .ok (a, m, ())) :
    f (env.store n) = .ok a ∧ m = n + 2 := by
  unfold Reading.query at h
  obtain ⟨db, _, _, hask, h⟩ := Txn.bind_ok.mp h
  obtain ⟨rfl, rfl, rfl⟩ := Txn.ask_ok.mp hask
  obtain ⟨-, hf, rfl⟩ := Txn.call_ok.mp h
  obtain ⟨b, hb, e⟩ := except_map_ok.mp hf
  cases e
  exact ⟨except_mapError_ok.mp hb, rfl⟩

theorem Reading.connection_ok {env : ReadEnv} {n m : Nat} {u : Unit}
    (h : Reading.connection env n () = .ok (u, m, ())) : m = n + 1 := by
  obtain ⟨-, -, rfl⟩ := Txn.call_ok.mp h
  rfl

/-! ## What an item keeps -/

/-- Owner, project, task and time of creation. -/
structure SameOrigin (a b : Remindi) : Prop where
  ownerId : a.ownerId = b.ownerId
  projectId : a.projectId = b.projectId
  taskId : a.taskId = b.taskId
  createdAt : a.createdAt = b.createdAt

theorem SameOrigin.refl (a : Remindi) : SameOrigin a a := ⟨rfl, rfl, rfl, rfl⟩

theorem SameOrigin.trans {a b c : Remindi} (hab : SameOrigin a b) (hbc : SameOrigin b c) :
    SameOrigin a c :=
  ⟨hab.ownerId.trans hbc.ownerId, hab.projectId.trans hbc.projectId,
    hab.taskId.trans hbc.taskId, hab.createdAt.trans hbc.createdAt⟩

theorem SameOrigin.writtenOver {item prior : Remindi} (h : SameItem item prior) :
    SameOrigin (item.writtenOver x prior) prior := ⟨h.ownerId, rfl, rfl, rfl⟩

theorem Change.sameOrigin {s : System} {label : Label} {prior after : Remindi}
    {types : List EventType} (h : Change x s label (some prior) after types) :
    SameOrigin after prior := by
  cases h with
  | operate target operates => exact .writtenOver operates.sameItem
  | check hpending hitem evaluated => exact .writtenOver evaluated.sameSchedule.toSameItem
  | poll hpoll hcandidates evaluated => exact .writtenOver evaluated.sameSchedule.toSameItem

theorem step_keeps {s : System} (hs : InFlight x s) (label : Label) {id : Uuid} {row : Remindi}
    (h : s.db.remindi.find? id = some row) :
    ∃ row', (step x s label).1.db.remindi.find? id = some row' ∧ SameOrigin row' row := by
  rcases step_view (x := x) hs label id with hview | ⟨before, after, types, hchange, hrecorded⟩
  · exact ⟨row, (congrArg ItemView.row hview).trans h, .refl row⟩
  · obtain rfl : before = some row := hrecorded.rowBefore.symm.trans h
    exact ⟨after, hrecorded.rowAfter, hchange.sameOrigin⟩

theorem storeAt_succ (x : Externals) (labels : List Label) (time : Nat) :
    storeAt x labels (time + 1) = storeAt x labels time ∨
      ∃ label, storeAt x labels (time + 1) = (step x (runOf x (labels.take time)) label).1.db := by
  by_cases hlt : time < labels.length
  · refine Or.inr ⟨labels[time], ?_⟩
    unfold storeAt runOf
    rw [List.take_add_one, List.getElem?_eq_getElem hlt, Machine.final_append]
    rfl
  · refine Or.inl ?_
    unfold storeAt
    rw [List.take_of_length_le (by omega), List.take_of_length_le (by omega)]

/-- **A stored item stays stored**, with its origin. -/
theorem storeAt_keeps {early late : Nat} (hle : early ≤ late) {id : Uuid} {row : Remindi}
    (h : (storeAt x labels early).remindi.find? id = some row) :
    ∃ row', (storeAt x labels late).remindi.find? id = some row' ∧ SameOrigin row' row := by
  induction late, hle using Nat.le_induction with
  | base => exact ⟨row, h, .refl row⟩
  | succ time hle ih =>
    obtain ⟨row', hrow', hsame⟩ := ih
    rcases storeAt_succ x labels time with heq | ⟨label, heq⟩
    · rw [heq]
      exact ⟨row', hrow', hsame⟩
    · obtain ⟨row'', hrow'', hsame'⟩ := step_keeps (x := x) (inFlight_runOf _) label hrow'
      rw [heq]
      exact ⟨row'', hrow'', hsame'.trans hsame⟩

theorem createdAt_eq {early late : Nat} {a b : Remindi}
    (ha : a ∈ (storeAt x labels early).remindi.rows) (hb : b ∈ (storeAt x labels late).remindi.rows)
    (hid : a.id = b.id) : a.createdAt = b.createdAt := by
  wlog hle : early ≤ late generalizing early late a b
  · exact (this hb ha hid.symm (le_of_not_ge hle)).symm
  obtain ⟨b', hb', hsame⟩ := storeAt_keeps hle (Table.find?_of_mem ha)
  rw [hid, Table.find?_of_mem hb] at hb'
  obtain rfl := Option.some.inj hb'
  exact hsame.createdAt.symm

/-! ## The events -/

/-- The events of a run are appended. -/
theorem storeAt_appends {early late : Nat} (hle : early ≤ late) :
    ∃ new, (storeAt x labels late).events.rows = (storeAt x labels early).events.rows ++ new := by
  induction late, hle using Nat.le_induction with
  | base => exact ⟨[], (List.append_nil _).symm⟩
  | succ time hle ih =>
    obtain ⟨new, hnew⟩ := ih
    rcases storeAt_succ x labels time with heq | ⟨label, heq⟩
    · rw [heq]
      exact ⟨new, hnew⟩
    · obtain ⟨more, hmore, -⟩ := step_appends (x := x) (runOf x (labels.take time)) label
      refine ⟨new ++ more, ?_⟩
      rw [heq, hmore, ← List.append_assoc, ← hnew]
      rfl

theorem storeAt_sequenced (time : Nat) : Sequenced (storeAt x labels time).events.rows :=
  Machine.invariant_final (s := System.start) (I := fun s => Sequenced s.db.events.rows)
    List.Pairwise.nil (fun _ label hs => step_sequenced label hs) _

end RemindiCore
