import Mathlib.Data.List.Nodup

/-!
# Keyed tables

A `Table key` is a list of rows no two of which have the same key, in the
order they were inserted.  `insert?` refuses a key that is taken, `replace`
puts a row in the place of the one with its key.  Every lookup after an
operation is given by `find?_insert?` and `find?_replace`.
-/

namespace KeyedTable

/-- Rows with pairwise different keys. -/
structure Table {α κ : Type} (key : α → κ) where
  rows : List α
  nodup : (rows.map key).Nodup

namespace Table

variable {α κ : Type} {key : α → κ}

def empty : Table key where
  rows := []
  nodup := List.nodup_nil

instance : Inhabited (Table key) := ⟨empty⟩

@[simp] theorem rows_empty : (empty : Table key).rows = [] := rfl

theorem eq_of_key_eq (t : Table key) {a b : α} (ha : a ∈ t.rows) (hb : b ∈ t.rows)
    (h : key a = key b) : a = b :=
  List.inj_on_of_nodup_map t.nodup ha hb h

/-- The rows that satisfy `p`. -/
def filter (t : Table key) (p : α → Bool) : Table key where
  rows := t.rows.filter p
  nodup := t.nodup.sublist (List.filter_sublist.map key)

@[simp] theorem mem_filter {t : Table key} {p : α → Bool} {a : α} :
    a ∈ (t.filter p).rows ↔ a ∈ t.rows ∧ p a = true := List.mem_filter

variable [DecidableEq κ]

def find? (t : Table key) (k : κ) : Option α := t.rows.find? fun a => key a = k

theorem find?_eq_some {t : Table key} {k : κ} {a : α} :
    t.find? k = some a ↔ a ∈ t.rows ∧ key a = k := by
  constructor
  · intro h
    exact ⟨List.mem_of_find?_eq_some h, by simpa using List.find?_some h⟩
  · rintro ⟨ha, rfl⟩
    cases h : t.find? (key a) with
    | none =>
      have := List.find?_eq_none.mp h a ha
      simp at this
    | some b =>
      have hb := List.mem_of_find?_eq_some h
      have hk : key b = key a := by simpa using List.find?_some h
      rw [t.eq_of_key_eq hb ha hk]

theorem find?_of_mem {t : Table key} {a : α} (h : a ∈ t.rows) : t.find? (key a) = some a :=
  find?_eq_some.mpr ⟨h, rfl⟩

theorem find?_eq_none {t : Table key} {k : κ} : t.find? k = none ↔ ∀ a ∈ t.rows, key a ≠ k := by
  unfold find?
  simp

theorem key_of_find? {t : Table key} {k : κ} {a : α} (h : t.find? k = some a) : key a = k :=
  (find?_eq_some.mp h).2

/-- Append a row whose key is free. -/
def insert? (t : Table key) (a : α) : Option (Table key) :=
  if h : key a ∈ t.rows.map key then none
  else
    some
      { rows := t.rows ++ [a]
        nodup := by
          rw [List.map_append]
          refine List.nodup_append.mpr ⟨t.nodup, List.nodup_singleton _, ?_⟩
          intro k hk k' hk' e
          obtain rfl := List.mem_singleton.mp hk'
          exact h (e ▸ hk) }

theorem insert?_eq_some {t u : Table key} {a : α} (h : t.insert? a = some u) :
    t.find? (key a) = none ∧ u.rows = t.rows ++ [a] := by
  unfold insert? at h
  split at h
  · cases h
  · next hk =>
    cases h
    refine ⟨find?_eq_none.mpr fun b hb e => ?_, rfl⟩
    exact hk (List.mem_map.mpr ⟨b, hb, e⟩)

/-- A free key can be inserted. -/
theorem exists_insert? {t : Table key} {a : α} (h : t.find? (key a) = none) :
    ∃ u, t.insert? a = some u := by
  have hfree : key a ∉ t.rows.map key := by
    intro hmem
    obtain ⟨b, hb, hkey⟩ := List.mem_map.mp hmem
    exact find?_eq_none.mp h b hb hkey
  unfold insert?
  rw [dif_neg hfree]
  exact ⟨_, rfl⟩

theorem mem_insert? {t u : Table key} {a b : α} (h : t.insert? a = some u) :
    b ∈ u.rows ↔ b ∈ t.rows ∨ b = a := by
  rw [(insert?_eq_some h).2]
  simp

theorem find?_insert? {t u : Table key} {a : α} (h : t.insert? a = some u) (k : κ) :
    u.find? k = if key a = k then some a else t.find? k := by
  obtain ⟨hfree, hrows⟩ := insert?_eq_some h
  unfold find?
  rw [hrows, List.find?_append]
  by_cases hk : key a = k
  · subst hk
    rw [show t.rows.find? (fun b => decide (key b = key a)) = none from hfree]
    simp
  · simp [hk]

/-- Insert the rows whose keys are free. -/
def insertMissing (t : Table key) (rows : List α) : Table key :=
  rows.foldl (fun t a => (t.insert? a).getD t) t

theorem insertMissing_cons (t : Table key) (a : α) (rows : List α) :
    t.insertMissing (a :: rows) = ((t.insert? a).getD t).insertMissing rows := rfl

/-- A row that was there stays, and every key is there. -/
theorem insert?_getD (t : Table key) (a : α) :
    (∀ b ∈ t.rows, b ∈ ((t.insert? a).getD t).rows) ∧
      (∀ b ∈ ((t.insert? a).getD t).rows, b ∈ t.rows ∨ b = a) ∧
      key a ∈ ((t.insert? a).getD t).rows.map key := by
  cases h : t.insert? a with
  | none =>
    refine ⟨fun _ hb => hb, fun _ hb => Or.inl hb, ?_⟩
    by_cases htaken : key a ∈ t.rows.map key
    · exact htaken
    · unfold insert? at h
      rw [dif_neg htaken] at h
      cases h
  | some u =>
    refine ⟨fun b hb => (mem_insert? h).mpr (Or.inl hb), fun b hb => (mem_insert? h).mp hb, ?_⟩
    exact List.mem_map_of_mem ((mem_insert? h).mpr (Or.inr rfl))

theorem mem_insertMissing_of_mem {t : Table key} {rows : List α} {b : α} (h : b ∈ t.rows) :
    b ∈ (t.insertMissing rows).rows := by
  induction rows generalizing t with
  | nil => exact h
  | cons a rows ih =>
    rw [insertMissing_cons]
    exact ih ((insert?_getD t a).1 b h)

theorem mem_insertMissing {t : Table key} {rows : List α} {b : α}
    (h : b ∈ (t.insertMissing rows).rows) : b ∈ t.rows ∨ b ∈ rows := by
  induction rows generalizing t with
  | nil => exact Or.inl h
  | cons a rows ih =>
    rw [insertMissing_cons] at h
    rcases ih h with hmem | hmem
    · rcases (insert?_getD t a).2.1 b hmem with hold | rfl
      · exact Or.inl hold
      · exact Or.inr List.mem_cons_self
    · exact Or.inr (List.mem_cons_of_mem _ hmem)

/-- **Every key is there afterwards.** -/
theorem key_mem_insertMissing (t : Table key) {rows : List α} {a : α} (h : a ∈ rows) :
    key a ∈ (t.insertMissing rows).rows.map key := by
  induction rows generalizing t with
  | nil => cases h
  | cons b rows ih =>
    rw [insertMissing_cons]
    rcases List.mem_cons.mp h with rfl | hrest
    · obtain ⟨c, hc, hkey⟩ := List.mem_map.mp (insert?_getD t a).2.2
      exact List.mem_map.mpr ⟨c, mem_insertMissing_of_mem hc, hkey⟩
    · exact ih _ hrest

/-- Where no key is free nothing changes. -/
theorem insertMissing_of_keys {t : Table key} {rows : List α}
    (h : ∀ a ∈ rows, key a ∈ t.rows.map key) : t.insertMissing rows = t := by
  induction rows with
  | nil => rfl
  | cons a rows ih =>
    have htaken : t.insert? a = none := dif_pos (h a List.mem_cons_self)
    rw [insertMissing_cons, htaken]
    exact ih fun b hb => h b (List.mem_cons_of_mem _ hb)

theorem map_key_of_replaced (rows : List α) (a : α) :
    (rows.map fun b => if key b = key a then a else b).map key = rows.map key := by
  rw [List.map_map]
  refine List.map_congr_left fun b _ => ?_
  simp only [Function.comp]
  split
  · next h => exact h.symm
  · rfl

/-- Put the row in the place of the one with its key. -/
def replace (t : Table key) (a : α) : Table key where
  rows := t.rows.map fun b => if key b = key a then a else b
  nodup := by
    rw [map_key_of_replaced]
    exact t.nodup

theorem map_key_replace (t : Table key) (a : α) : (t.replace a).rows.map key = t.rows.map key :=
  map_key_of_replaced t.rows a

theorem mem_replace {t : Table key} {a b : α} :
    b ∈ (t.replace a).rows ↔ (b ∈ t.rows ∧ key b ≠ key a) ∨ (b = a ∧ key a ∈ t.rows.map key) := by
  simp only [replace, List.mem_map]
  constructor
  · rintro ⟨c, hc, hb⟩
    split at hb
    · next hk => exact Or.inr ⟨hb.symm, c, hc, hk⟩
    · next hk => exact Or.inl ⟨hb ▸ hc, hb ▸ hk⟩
  · rintro (⟨hb, hk⟩ | ⟨rfl, c, hc, hk⟩)
    · exact ⟨b, hb, if_neg hk⟩
    · exact ⟨c, hc, if_pos hk⟩

/-- **A lookup after a replacement.** -/
theorem find?_replace {t : Table key} {a b : α} (hb : t.find? (key a) = some b) (k : κ) :
    (t.replace a).find? k = if key a = k then some a else t.find? k := by
  obtain ⟨hmem, hkey⟩ := find?_eq_some.mp hb
  by_cases hk : key a = k
  · rw [if_pos hk, find?_eq_some, mem_replace]
    exact ⟨Or.inr ⟨rfl, List.mem_map.mpr ⟨b, hmem, hkey⟩⟩, hk⟩
  · rw [if_neg hk]
    cases hf : t.find? k with
    | none =>
      rw [find?_eq_none] at hf ⊢
      intro c hc
      rcases mem_replace.mp hc with ⟨hc, -⟩ | ⟨rfl, -⟩
      · exact hf c hc
      · exact hk
    | some c =>
      obtain ⟨hc, hck⟩ := find?_eq_some.mp hf
      rw [find?_eq_some, mem_replace]
      exact ⟨Or.inl ⟨hc, fun e => hk (e.symm.trans hck)⟩, hck⟩

end Table

end KeyedTable
