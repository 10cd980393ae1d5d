import Mathlib.Data.List.MinMax
import Mathlib.Data.List.Nodup
import Mathlib.Data.List.Sort

/-!
# The greatest of a list

`descending` sorts by a rank, greatest first.  With different ranks, the first
`n` are those that fewer than `n` others surpass, and the rest those that at
least `n` surpass (`mem_drop_descending`).  Leaving out some of the rest changes
nothing about it (`surpassed_of_kept`).

A list that is sorted by another rank begins with the `n` lowest exactly when
none of these comes after one that ranks above it (`lowest_take_iff`).
-/

namespace Leaders

variable {α β : Type} [LinearOrder β] (rank : α → β)

/-- Greatest first. -/
def descending (l : List α) : List α := l.insertionSort fun a b => rank b ≤ rank a

/-- How many surpass it. -/
def surpassing (l : List α) (a : α) : Nat := l.countP fun b => decide (rank a < rank b)

variable {rank} {l : List α} {a : α} {n : Nat}

theorem perm_descending (l : List α) : (descending rank l).Perm l := List.perm_insertionSort _ l

theorem mem_descending : a ∈ descending rank l ↔ a ∈ l := (perm_descending l).mem_iff

theorem surpassing_perm {k : List α} (h : k.Perm l) (a : α) :
    surpassing rank k a = surpassing rank l a := h.countP_eq _

/-- Different ranks go down. -/
theorem pairwise_descending (h : (l.map rank).Nodup) :
    (descending rank l).Pairwise fun a b => rank b < rank a := by
  have hsorted : (descending rank l).Pairwise fun a b => rank b ≤ rank a :=
    List.pairwise_insertionSort _ l
  have hdistinct : ((descending rank l).map rank).Nodup :=
    (((perm_descending l).map rank).nodup_iff).mpr h
  have hne : (descending rank l).Pairwise fun a b => rank a ≠ rank b := List.pairwise_map.mp hdistinct
  exact (hsorted.and hne).imp fun h => lt_of_le_of_ne h.1 (Ne.symm h.2)

theorem mem_drop_of_pairwise (h : l.Pairwise fun a b => rank b < rank a) :
    a ∈ l.drop n ↔ a ∈ l ∧ n ≤ surpassing rank l a := by
  induction l generalizing n with
  | nil => simp
  | cons c l ih =>
    obtain ⟨hc, hl⟩ := List.pairwise_cons.mp h
    cases n with
    | zero => simp
    | succ n =>
      have hcons : a ∈ l → surpassing rank (c :: l) a = surpassing rank l a + 1 := by
        intro hmem
        unfold surpassing
        rw [List.countP_cons_of_pos]
        simpa using hc a hmem
      rw [List.drop_succ_cons, ih hl]
      constructor
      · rintro ⟨hmem, hle⟩
        refine ⟨List.mem_cons_of_mem c hmem, ?_⟩
        rw [hcons hmem]
        omega
      · rintro ⟨hmem, hle⟩
        rcases List.mem_cons.mp hmem with rfl | hmem
        · -- nothing surpasses the first
          have hnone : surpassing rank (a :: l) a = 0 := by
            unfold surpassing
            rw [List.countP_eq_zero]
            intro b hb
            rw [decide_eq_true_eq, not_lt]
            rcases List.mem_cons.mp hb with rfl | hb
            · exact le_refl _
            · exact (hc b hb).le
          omega
        · rw [hcons hmem] at hle
          exact ⟨hmem, by omega⟩

/-- **What comes after the first `n`**: all that at least `n` surpass. -/
theorem mem_drop_descending (h : (l.map rank).Nodup) :
    a ∈ (descending rank l).drop n ↔ a ∈ l ∧ n ≤ surpassing rank l a := by
  rw [mem_drop_of_pairwise (pairwise_descending h), mem_descending,
    surpassing_perm (perm_descending l)]

/-- What fewer surpass ranks higher. -/
theorem lt_of_surpassing_lt {b : α} (h : surpassing rank l b < surpassing rank l a) :
    rank a < rank b := by
  by_contra hle
  refine absurd (List.countP_mono_left ?_) (Nat.not_le.mpr h)
  intro c _ hc
  rw [decide_eq_true_eq] at hc ⊢
  exact lt_of_le_of_lt (not_lt.mp hle) hc

/-- Where some of those that `n` surpass are left out, `n` surpass the same of the others. -/
theorem surpassed_of_kept (h : (l.map rank).Nodup) {kept : α → Bool}
    (hkept : ∀ b ∈ l, kept b = false → n ≤ surpassing rank l b) :
    n ≤ surpassing rank (l.filter kept) a ↔ n ≤ surpassing rank l a := by
  constructor
  · intro hle
    exact hle.trans List.filter_sublist.countP_le
  · intro hle
    have hsort : (descending rank l).Perm l := perm_descending l
    -- the first `n` are kept, and they surpass it
    have hfirst : ∀ b ∈ (descending rank l).take n, rank a < rank b ∧ kept b = true := by
      intro b hb
      have hbl : b ∈ l := mem_descending.mp (List.mem_of_mem_take hb)
      have hnodup : (descending rank l).Nodup := hsort.nodup_iff.mpr (List.Nodup.of_map rank h)
      have hless : ¬ n ≤ surpassing rank l b := by
        intro hge
        have hdrop : b ∈ (descending rank l).drop n := (mem_drop_descending h).mpr ⟨hbl, hge⟩
        exact List.disjoint_take_drop hnodup (le_refl n) hb hdrop
      refine ⟨lt_of_surpassing_lt (l := l) (by omega), ?_⟩
      by_contra hout
      exact hless (hkept b hbl (Bool.not_eq_true _ ▸ hout))
    have hlength : ((descending rank l).take n).length = n := by
      rw [List.length_take, hsort.length_eq]
      exact Nat.min_eq_left (hle.trans List.countP_le_length)
    have hcount : ((descending rank l).take n).countP
        (fun b => decide (rank a < rank b) && kept b) = n := by
      rw [List.countP_eq_length.mpr, hlength]
      intro b hb
      simpa using hfirst b hb
    unfold surpassing
    rw [List.countP_filter, ← hsort.countP_eq]
    exact hcount.symm.le.trans (List.take_sublist n _).countP_le

/-! ## The lowest in another order -/

variable {γ : Type} [LinearOrder γ] {served : α → γ}

/-- The `n` lowest of a list, lowest first. -/
structure Lowest (rank : α → β) (l : List α) (n : Nat) (k : List α) : Prop where
  length : k.length = min n l.length
  mem : ∀ a ∈ k, a ∈ l
  ascending : k.Pairwise fun a b => rank a < rank b
  lowest : ∀ a ∈ k, ∀ b ∈ l, b ∉ k → rank a < rank b

/-- How many are lower. -/
def preceding (rank : α → β) (l : List α) (a : α) : Nat := l.countP fun b => decide (rank b < rank a)

theorem preceding_perm {k : List α} (h : k.Perm l) (a : α) :
    preceding rank k a = preceding rank l a := h.countP_eq _

theorem lowest_perm {l' k : List α} (h : l'.Perm l) : Lowest rank l' n k ↔ Lowest rank l n k := by
  constructor
  · intro hlow
    exact ⟨by rw [hlow.length, h.length_eq], fun a ha => h.mem_iff.mp (hlow.mem a ha),
      hlow.ascending, fun a ha b hb => hlow.lowest a ha b (h.mem_iff.mpr hb)⟩
  · intro hlow
    exact ⟨by rw [hlow.length, h.length_eq], fun a ha => h.mem_iff.mpr (hlow.mem a ha),
      hlow.ascending, fun a ha b hb => hlow.lowest a ha b (h.mem_iff.mp hb)⟩

theorem exists_lowest (h : l ≠ []) : ∃ a ∈ l, ∀ b ∈ l, rank a ≤ rank b := by
  cases hleast : l.argmin rank with
  | none => exact absurd (List.argmin_eq_none.mp hleast) h
  | some a => exact ⟨a, List.argmin_mem hleast, fun b hb => List.le_of_mem_argmin hb hleast⟩

/-- Where no low one is overtaken, the first `n` are the lowest. -/
theorem ascending_take (hdistinct : (l.map rank).Nodup)
    (hserved : l.Pairwise fun a b => served a < served b)
    (hall : ∀ a ∈ l, ∀ b ∈ l, preceding rank l a < n → rank a < rank b → served a < served b) :
    (l.take n).Pairwise (fun a b => rank a < rank b) ∧
      ∀ a ∈ l.take n, ∀ b ∈ l.drop n, rank a < rank b := by
  induction l generalizing n with
  | nil =>
    rw [List.take_nil]
    exact ⟨List.Pairwise.nil, fun a ha => absurd ha List.not_mem_nil⟩
  | cons c l ih =>
    cases n with
    | zero =>
      rw [List.take_zero]
      exact ⟨List.Pairwise.nil, fun a ha => absurd ha List.not_mem_nil⟩
    | succ n =>
      obtain ⟨hc, hl⟩ := List.pairwise_cons.mp hserved
      obtain ⟨hnew, hrest⟩ := List.nodup_cons.mp (show (rank c :: l.map rank).Nodup from hdistinct)
      -- the lowest of all comes first
      have hfirst : ∀ b ∈ l, rank c < rank b := by
        obtain ⟨m, hm, hle⟩ : ∃ m ∈ c :: l, ∀ b ∈ c :: l, rank m ≤ rank b :=
          exists_lowest (List.cons_ne_nil c l)
        have hnone : preceding rank (c :: l) m = 0 := by
          unfold preceding
          rw [List.countP_eq_zero]
          intro b hb
          rw [decide_eq_true_eq, not_lt]
          exact hle b hb
        have hmc : rank m = rank c := by
          by_contra hne
          have hlt := lt_of_le_of_ne (hle c List.mem_cons_self) hne
          have hbefore := hall m hm c List.mem_cons_self (by omega) hlt
          rcases List.mem_cons.mp hm with rfl | hm
          · exact hne rfl
          · exact absurd hbefore (lt_asymm (hc m hm))
        intro b hb
        refine lt_of_le_of_ne (hmc ▸ hle b (List.mem_cons_of_mem c hb)) ?_
        rintro heq
        exact hnew (heq ▸ List.mem_map_of_mem hb)
      have hcount : ∀ a ∈ l, preceding rank (c :: l) a = preceding rank l a + 1 := by
        intro a ha
        unfold preceding
        rw [List.countP_cons_of_pos]
        exact decide_eq_true (hfirst a ha)
      obtain ⟨hpairwise, hcross⟩ := ih (n := n) hrest hl fun a ha b hb hless hab =>
        hall a (List.mem_cons_of_mem c ha) b (List.mem_cons_of_mem c hb)
          (by rw [hcount a ha]; omega) hab
      rw [List.take_succ_cons, List.drop_succ_cons]
      refine ⟨List.pairwise_cons.mpr ⟨fun b hb => hfirst b (List.mem_of_mem_take hb), hpairwise⟩, ?_⟩
      intro a ha b hb
      rcases List.mem_cons.mp ha with rfl | ha
      · exact hfirst b (List.mem_of_mem_drop hb)
      · exact hcross a ha b hb

/-- **The first `n` in another order** are the lowest exactly when no low one is overtaken. -/
theorem lowest_take_iff (hdistinct : (l.map rank).Nodup)
    (hserved : l.Pairwise fun a b => served a < served b) :
    Lowest rank l n (l.take n) ↔
      ∀ a ∈ l, ∀ b ∈ l, preceding rank l a < n → rank a < rank b → served a < served b := by
  have hsplit : (l.take n ++ l.drop n).Pairwise fun a b => served a < served b := by
    rwa [List.take_append_drop]
  obtain ⟨htake, -, hcross⟩ := List.pairwise_append.mp hsplit
  constructor
  · intro h a ha b hb hless hab
    have hin : a ∈ l.take n := by
      by_contra hout
      have hle : (l.take n).length ≤ preceding rank l a := by
        have hcount : (l.take n).countP (fun b => decide (rank b < rank a)) = (l.take n).length := by
          rw [List.countP_eq_length]
          exact fun r hr => decide_eq_true (h.lowest r hr a ha hout)
        exact hcount.symm.le.trans (List.take_sublist n l).countP_le
      rw [h.length] at hle
      have hshort : l.length ≤ n := by omega
      rw [List.take_of_length_le hshort] at hout
      exact hout ha
    rcases List.mem_append.mp ((List.take_append_drop n l).symm ▸ hb) with hb | hb
    · -- both orders go the same way among the first `n`
      have hboth := h.ascending.and htake
      refine List.Pairwise.forall_of_forall_of_flip
        (R := fun a b => rank a < rank b → served a < served b) ?_ ?_ ?_ hin hb hab
      · exact fun r _ hrr => absurd hrr (lt_irrefl _)
      · exact hboth.imp fun h _ => h.2
      · exact hboth.imp fun h hba => absurd hba (lt_asymm h.1)
    · exact hcross a hin b hb
  · intro hall
    obtain ⟨hascending, hothers⟩ := ascending_take hdistinct hserved hall
    refine ⟨List.length_take, fun a ha => List.mem_of_mem_take ha, hascending, ?_⟩
    intro a ha b hb hout
    rcases List.mem_append.mp ((List.take_append_drop n l).symm ▸ hb) with hb | hb
    · exact absurd hb hout
    · exact hothers a ha b hb

end Leaders
