import RemindiCore.Lib.Table

/-!
# Maps of bounded size

A hash map as a table of key and value pairs, and the one step that keeps it
within a capacity: before an insertion, `evictOneAtCapacity` removes the key
that an iteration gives first.  Which key that is depends on the hasher, so an
`Iteration` is any choice of a key among those present.
-/

namespace BoundedMap

open KeyedTable

variable {κ α : Type} [DecidableEq κ]

abbrev HashMap (κ α : Type) := Table (Prod.fst : κ × α → κ)

/-- The first key of an iteration. -/
structure Iteration (κ : Type) where
  next : List κ → Option κ
  mem : ∀ {keys key}, next keys = some key → key ∈ keys
  some_of_ne : ∀ {keys}, keys ≠ [] → next keys ≠ none

/-- The oldest key first. -/
def Iteration.oldest : Iteration κ where
  next := List.head?
  mem := List.mem_of_head?
  some_of_ne := fun h hnone => h (List.head?_eq_none_iff.mp hnone)

namespace HashMap

variable (m : HashMap κ α)

def keys : List κ := m.rows.map Prod.fst

def len : Nat := m.rows.length

def get (key : κ) : Option α := (m.find? key).map Prod.snd

def remove (key : κ) : HashMap κ α := m.filter fun entry => entry.1 ≠ key

def retain (p : α → Bool) : HashMap κ α := m.filter fun entry => p entry.2

def insert (key : κ) (value : α) : HashMap κ α where
  rows := (remove m key).rows ++ [(key, value)]
  nodup := by
    rw [List.map_append]
    refine List.nodup_append.mpr ⟨(remove m key).nodup, List.nodup_singleton _, ?_⟩
    intro k hk k' hk' e
    obtain rfl := List.mem_singleton.mp hk'
    obtain ⟨entry, hentry, rfl⟩ := List.mem_map.mp hk
    have := (Table.mem_filter.mp hentry).2
    exact of_decide_eq_true this e

/-- Make room for one more key. -/
def evictOneAtCapacity (order : Iteration κ) (capacity : Nat) : HashMap κ α :=
  if capacity ≤ len m then
    match order.next (keys m) with
    | some key => remove m key
    | none => m
  else m

/-! ## Lookups -/

variable {m}

theorem get_eq_some {key : κ} {value : α} : get m key = some value ↔ (key, value) ∈ m.rows := by
  unfold get
  constructor
  · intro h
    obtain ⟨⟨k, v⟩, hfind, rfl⟩ := Option.map_eq_some_iff.mp h
    obtain ⟨hmem, rfl⟩ := Table.find?_eq_some.mp hfind
    exact hmem
  · intro h
    rw [m.find?_of_mem h]
    rfl

theorem mem_keys_of_get {key : κ} {value : α} (h : get m key = some value) : key ∈ keys m :=
  List.mem_map.mpr ⟨_, get_eq_some.mp h, rfl⟩

@[simp] theorem get_empty (key : κ) : get (Table.empty : HashMap κ α) key = none := rfl

theorem get_remove {key k : κ} {value : α} :
    get (remove m key) k = some value ↔ get m k = some value ∧ k ≠ key := by
  rw [get_eq_some, get_eq_some]
  simp [remove]

theorem get_retain {p : α → Bool} {k : κ} {value : α} :
    get (retain m p) k = some value ↔ get m k = some value ∧ p value = true := by
  rw [get_eq_some, get_eq_some]
  simp [retain]

theorem get_insert {key k : κ} {value v : α} (h : get (insert m key value) k = some v) :
    (k = key ∧ v = value) ∨ (k ≠ key ∧ get m k = some v) := by
  rw [get_eq_some] at h
  rcases List.mem_append.mp h with h | h
  · obtain ⟨hget, hne⟩ := get_remove.mp (get_eq_some.mpr h)
    exact .inr ⟨hne, hget⟩
  · obtain ⟨rfl, rfl⟩ := Prod.mk.inj (List.mem_singleton.mp h)
    exact .inl ⟨rfl, rfl⟩

theorem get_evict {order : Iteration κ} {capacity : Nat} {k : κ} {value : α}
    (h : get (evictOneAtCapacity m order capacity) k = some value) : get m k = some value := by
  unfold evictOneAtCapacity at h
  split at h
  · split at h
    · exact (get_remove.mp h).1
    · exact h
  · exact h

/-! ## Sizes -/

omit [DecidableEq κ] in
theorem len_filter_le (p : κ × α → Bool) : len (m.filter p) ≤ len m := List.length_filter_le _ _

theorem len_remove_le (key : κ) : len (remove m key) ≤ len m := len_filter_le _

omit [DecidableEq κ] in
theorem len_retain_le (p : α → Bool) : len (retain m p) ≤ len m := len_filter_le _

theorem len_insert (key : κ) (value : α) :
    len (insert m key value) = len (remove m key) + 1 := by
  simp [len, insert]

theorem len_insert_le (key : κ) (value : α) : len (insert m key value) ≤ len m + 1 := by
  have := len_remove_le (m := m) key
  rw [len_insert]
  omega

theorem len_remove_lt {key : κ} (h : key ∈ keys m) : len (remove m key) < len m := by
  obtain ⟨entry, hentry, rfl⟩ := List.mem_map.mp h
  refine Nat.lt_of_le_of_ne (len_remove_le _) fun heq => ?_
  have hall := List.length_filter_eq_length_iff.mp heq entry hentry
  simp at hall

/-- **Room is made.**  After the eviction a map within its capacity has a free place. -/
theorem len_evict_lt {order : Iteration κ} {capacity : Nat} (hpos : 0 < capacity)
    (h : len m ≤ capacity) : len (evictOneAtCapacity m order capacity) < capacity := by
  unfold evictOneAtCapacity
  split
  · next hfull =>
    have hne : keys m ≠ [] := by
      intro hnil
      have : len m = 0 := by
        unfold len
        rw [List.map_eq_nil_iff.mp hnil]
        rfl
      omega
    cases hnext : order.next (keys m) with
    | none => exact absurd hnext (order.some_of_ne hne)
    | some key =>
      have := len_remove_lt (order.mem hnext)
      show len (remove m key) < capacity
      omega
  · omega

/-- The capacity is kept by what a store does for a new entry. -/
theorem len_store_le {order : Iteration κ} {capacity : Nat} (hpos : 0 < capacity)
    (h : len m ≤ capacity) (p : α → Bool) (key : κ) (value : α) :
    len (insert (evictOneAtCapacity (retain m p) order capacity) key value) ≤ capacity := by
  have hroom : len (evictOneAtCapacity (retain m p) order capacity) < capacity :=
    len_evict_lt hpos (Nat.le_trans (len_retain_le p) h)
  exact Nat.le_trans (len_insert_le key value) hroom

/-- An entry after that is the new one or one that was there. -/
theorem get_store {order : Iteration κ} {capacity : Nat} {p : α → Bool} {key k : κ} {value v : α}
    (h : get (insert (evictOneAtCapacity (retain m p) order capacity) key value) k = some v) :
    (k = key ∧ v = value) ∨ (k ≠ key ∧ get m k = some v) := by
  rcases get_insert h with hnew | ⟨hne, hold⟩
  · exact .inl hnew
  · exact .inr ⟨hne, (get_retain.mp (get_evict hold)).1⟩

end HashMap

end BoundedMap
