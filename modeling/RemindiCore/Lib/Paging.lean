import Mathlib.Data.List.Chain
import Mathlib.Data.List.Forall2
import Mathlib.Data.List.Sort

/-!
# Walks over pages

A list that is asked for page by page: each page holds the items whose keys lie
after the cursor it is asked with, in the order of the keys and up to a limit,
and the next cursor is the key of its last item.  The keys may be others at each
page.  `no_repeat` needs keys that do not rise once an item was returned;
`returned_iff` says that an item whose key never rises is missed exactly when
its key falls behind a cursor between two pages.  `log_walk` is about the pages
of a log, which only grows at its end.
-/

namespace Paging

variable {ι κ : Type} [LinearOrder κ]

/-- `k` lies after the cursor. -/
def After (cursor : Option κ) (k : κ) : Prop := ∀ c, cursor = some c → c < k

/-- `k` lies within a page that ends at `next`; without a next cursor there is no end. -/
def Within (next : Option κ) (k : κ) : Prop := ∀ c, next = some c → k ≤ c

/-- One page: the keys when it was asked for, its cursor, its items, the next cursor. -/
structure Visit (ι κ : Type) [LinearOrder κ] where
  key : ι → Option κ
  cursor : Option κ
  items : List ι
  next : Option κ
  mem_iff : ∀ i, i ∈ items ↔ ∃ k, key i = some k ∧ After cursor k ∧ Within next k
  advances : ∀ c, next = some c → After cursor c

/-- The second page is asked for with the next cursor of the first. -/
def Follows (p q : Visit ι κ) : Prop := ∃ c, p.next = some c ∧ q.cursor = some c

/-- The item is left over by the first page, and by the second its key has
fallen behind the cursor. -/
def Slips (i : ι) (p q : Visit ι κ) : Prop :=
  ∃ c k k', p.next = some c ∧ p.key i = some k ∧ q.key i = some k' ∧ c < k ∧ k' ≤ c

variable {pages : List (Visit ι κ)} {p q : Visit ι κ} {i : ι} {c k : κ}

/-! ## Cursors rise -/

/-- What lies before the cursor of the first page lies before every later one. -/
theorem after_of_chain (hchain : (p :: pages).IsChain Follows) (hcursor : p.cursor = some c)
    (hq : q ∈ p :: pages) : ∃ c', q.cursor = some c' ∧ c ≤ c' := by
  induction pages generalizing p c with
  | nil =>
    obtain rfl := List.mem_singleton.mp hq
    exact ⟨c, hcursor, le_refl c⟩
  | cons r pages ih =>
    rcases List.mem_cons.mp hq with rfl | hq
    · exact ⟨c, hcursor, le_refl c⟩
    obtain ⟨⟨d, hnext, hr⟩, hchain⟩ := List.isChain_cons_cons.mp hchain
    obtain ⟨c', hc', hle⟩ := ih hchain hr hq
    exact ⟨c', hc', le_trans (le_of_lt (p.advances d hnext c hcursor)) hle⟩

/-- The cursor of every page after `p` is at least the one `p` ends with. -/
theorem next_le_cursor (hchain : (p :: pages).IsChain Follows) (hq : q ∈ pages) :
    ∃ c c', p.next = some c ∧ q.cursor = some c' ∧ c ≤ c' := by
  cases pages with
  | nil => cases hq
  | cons r pages =>
    obtain ⟨⟨c, hnext, hr⟩, hchain⟩ := List.isChain_cons_cons.mp hchain
    obtain ⟨c', hc', hle⟩ := after_of_chain hchain hr hq
    exact ⟨c, c', hnext, hc', hle⟩

/-- An item whose key lies at or before the end of `p` is on no later page. -/
theorem not_mem_of_le (hchain : (p :: pages).IsChain Follows) (hq : q ∈ pages)
    (hnext : p.next = some c) (hkey : ∀ k, q.key i = some k → k ≤ c) : i ∉ q.items := by
  intro hi
  obtain ⟨k, hk, hafter, -⟩ := (q.mem_iff i).mp hi
  obtain ⟨d, c', hd, hc', hle⟩ := next_le_cursor hchain hq
  obtain rfl := Option.some.inj (hnext.symm.trans hd)
  exact absurd (hkey k hk) (not_le.mpr (lt_of_le_of_lt hle (hafter c' hc')))

/-- What is on a later page lies after everything on `p`. -/
theorem lt_of_mem_later (hchain : (p :: pages).IsChain Follows) (hq : q ∈ pages) {j : ι} {k' : κ}
    (hi : i ∈ p.items) (hk : p.key i = some k) (hj : j ∈ q.items) (hk' : q.key j = some k') :
    k < k' := by
  obtain ⟨c, c', hnext, hc', hle⟩ := next_le_cursor hchain hq
  obtain ⟨l, hl, -, hwithin⟩ := (p.mem_iff i).mp hi
  obtain ⟨l', hl', hafter, -⟩ := (q.mem_iff j).mp hj
  obtain rfl := Option.some.inj (hk.symm.trans hl)
  obtain rfl := Option.some.inj (hk'.symm.trans hl')
  calc k ≤ c := hwithin c hnext
    _ ≤ c' := hle
    _ < k' := hafter c' hc'

/-! ## Walks -/

/-- **The pages of a walk are in order**, whatever the keys are at each of them. -/
theorem pages_sorted (hchain : pages.IsChain Follows) :
    pages.Pairwise fun p q => ∀ i ∈ p.items, ∀ j ∈ q.items, ∀ k k',
      p.key i = some k → q.key j = some k' → k < k' := by
  induction pages with
  | nil => exact List.Pairwise.nil
  | cons p pages ih =>
    refine List.pairwise_cons.mpr ⟨fun q hq i hi j hj k k' hk hk' => ?_, ih hchain.tail⟩
    exact lt_of_mem_later hchain hq hi hk hj hk'

/-- **Nothing twice**, if the key of a returned item does not rise. -/
theorem no_repeat (hchain : pages.IsChain Follows)
    (hkeys : pages.Pairwise fun p q => i ∈ p.items →
      ∀ k k', p.key i = some k → q.key i = some k' → k' ≤ k) :
    pages.Pairwise fun p q => i ∈ p.items → i ∉ q.items := by
  refine ((pages_sorted hchain).and hkeys).imp fun {p q} h hp hq => ?_
  obtain ⟨hrises, hfalls⟩ := h
  obtain ⟨k, hk, -⟩ := (p.mem_iff i).mp hp
  obtain ⟨k', hk', -⟩ := (q.mem_iff i).mp hq
  exact absurd (hrises i hp i hq k k' hk hk') (not_lt.mpr (hfalls hp k k' hk hk'))

/-- The key of the item never rises in the walk. -/
def NeverRises (i : ι) (pages : List (Visit ι κ)) : Prop :=
  pages.Pairwise fun p q => ∀ k k', p.key i = some k → q.key i = some k' → k' ≤ k

/-- The item is ready at every page. -/
def AlwaysReady (i : ι) (pages : List (Visit ι κ)) : Prop := ∀ p ∈ pages, (p.key i).isSome = true

/-- A walk to the end returns an item that lies after its first cursor, unless it slips. -/
theorem returned_or_slips (hchain : (p :: pages).IsChain Follows)
    (hend : ∀ q ∈ (p :: pages).getLast?, q.next = none)
    (hready : AlwaysReady i (p :: pages)) (hkey : p.key i = some k) (hafter : After p.cursor k) :
    (∃ q ∈ p :: pages, i ∈ q.items) ∨ ¬ (p :: pages).IsChain fun p q => ¬ Slips i p q := by
  induction pages generalizing p k with
  | nil =>
    refine Or.inl ⟨p, List.mem_cons_self, (p.mem_iff i).mpr ⟨k, hkey, hafter, fun c hc => ?_⟩⟩
    rw [hend p rfl] at hc
    cases hc
  | cons q pages ih =>
    obtain ⟨⟨c, hnext, hcursor⟩, htail⟩ := List.isChain_cons_cons.mp hchain
    rcases le_or_gt k c with hle | hlt
    · -- on this page
      refine Or.inl ⟨p, List.mem_cons_self, (p.mem_iff i).mpr ⟨k, hkey, hafter, fun d hd => ?_⟩⟩
      obtain rfl := Option.some.inj (hnext.symm.trans hd)
      exact hle
    obtain ⟨k', hk'⟩ := Option.isSome_iff_exists.mp
      (hready q (List.mem_cons_of_mem _ List.mem_cons_self))
    rcases le_or_gt k' c with hslip | hahead
    · refine Or.inr fun hstays => ?_
      exact (List.isChain_cons_cons.mp hstays).1 ⟨c, k, k', hnext, hkey, hk', hlt, hslip⟩
    · -- left over, and still after the cursor
      have hafter' : After q.cursor k' := fun d hd => by
        obtain rfl := Option.some.inj (hcursor.symm.trans hd)
        exact hahead
      have hend' : ∀ r ∈ (q :: pages).getLast?, r.next = none := fun r hr =>
        hend r (by rw [List.getLast?_cons_cons]; exact hr)
      rcases ih htail hend' (fun r hr => hready r (List.mem_cons_of_mem _ hr)) hk' hafter' with
        ⟨r, hr, hi⟩ | hslips
      · exact Or.inl ⟨r, List.mem_cons_of_mem _ hr, hi⟩
      · exact Or.inr fun hstays => hslips (List.isChain_cons_cons.mp hstays).2

/-- An item that lies at or before the cursor of the first page does not slip later. -/
theorem stays_of_le (hchain : (q :: pages).IsChain Follows) (hcursor : q.cursor = some c)
    (hkeys : ∀ r ∈ q :: pages, ∀ k, r.key i = some k → k ≤ c) :
    (q :: pages).IsChain fun p q => ¬ Slips i p q := by
  induction pages generalizing q c with
  | nil => exact List.isChain_singleton q
  | cons r pages ih =>
    obtain ⟨⟨d, hnext, hr⟩, htail⟩ := List.isChain_cons_cons.mp hchain
    have hlt : c < d := q.advances d hnext c hcursor
    refine List.isChain_cons_cons.mpr ⟨?_, ih htail hr fun s hs k hk => ?_⟩
    · rintro ⟨d', k, k', hd', hk, -, hbehind, -⟩
      obtain rfl := Option.some.inj (hnext.symm.trans hd')
      exact absurd (hkeys q List.mem_cons_self k hk) (not_le.mpr (lt_trans hlt hbehind))
    · exact le_trans (hkeys s (List.mem_cons_of_mem _ hs) k hk) (le_of_lt hlt)

/-- An item that slips was not returned before, and is not returned later. -/
theorem not_returned_of_slips (hchain : pages.IsChain Follows) (hfalls : NeverRises i pages)
    (hslips : ¬ pages.IsChain fun p q => ¬ Slips i p q) : ∀ q ∈ pages, i ∉ q.items := by
  induction pages with
  | nil => simp
  | cons p pages ih =>
    obtain ⟨hhead, htail⟩ := List.pairwise_cons.mp hfalls
    cases pages with
    | nil => exact absurd (List.isChain_singleton p) hslips
    | cons q pages =>
      obtain ⟨⟨c, hnext, hcursor⟩, hchain'⟩ := List.isChain_cons_cons.mp hchain
      by_cases hslip : Slips i p q
      · -- it slips behind the end of `p`
        obtain ⟨d, k, k', hd, hk, hk', hlt, hle⟩ := hslip
        obtain rfl := Option.some.inj (hnext.symm.trans hd)
        refine List.forall_mem_cons.mpr ⟨fun hi => ?_, fun r hr => ?_⟩
        · obtain ⟨k₁, hk₁, -, hwithin⟩ := (p.mem_iff i).mp hi
          obtain rfl := Option.some.inj (hk.symm.trans hk₁)
          exact absurd (hwithin c hnext) (not_le.mpr hlt)
        · refine not_mem_of_le hchain hr hnext fun k₂ hk₂ => ?_
          rcases List.mem_cons.mp hr with rfl | hr
          · obtain rfl := Option.some.inj (hk'.symm.trans hk₂)
            exact hle
          · exact le_trans ((List.pairwise_cons.mp htail).1 r hr k' k₂ hk' hk₂) hle
      · -- it slips later, so it was not on `p` either
        have hlater : ¬ (q :: pages).IsChain fun p q => ¬ Slips i p q := fun hstays =>
          hslips (List.isChain_cons_cons.mpr ⟨hslip, hstays⟩)
        refine List.forall_mem_cons.mpr ⟨fun hi => ?_, ih hchain' htail hlater⟩
        obtain ⟨k, hk, -, hwithin⟩ := (p.mem_iff i).mp hi
        exact hlater (stays_of_le hchain' hcursor fun r hr k' hk' =>
          le_trans (hhead r hr k k' hk hk') (hwithin c hnext))

/-- **What a walk misses.**  An item that is ready at every page, with a key that
never rises, is returned by a walk to the end exactly when it does not slip. -/
theorem returned_iff (hchain : (p :: pages).IsChain Follows) (hstart : p.cursor = none)
    (hend : ∀ q ∈ (p :: pages).getLast?, q.next = none) (hready : AlwaysReady i (p :: pages))
    (hfalls : NeverRises i (p :: pages)) :
    (∃ q ∈ p :: pages, i ∈ q.items) ↔ (p :: pages).IsChain fun p q => ¬ Slips i p q := by
  constructor
  · rintro ⟨q, hq, hi⟩
    by_contra hslips
    exact not_returned_of_slips hchain hfalls hslips q hq hi
  · intro hstays
    obtain ⟨k, hk⟩ := Option.isSome_iff_exists.mp (hready p List.mem_cons_self)
    have hafter : After p.cursor k := fun c hc => by
      rw [hstart] at hc
      cases hc
    exact (returned_or_slips hchain hend hready hk hafter).resolve_right (not_not.mpr hstays)

/-! ## Related lists -/

theorem exists_of_forall₂ {α β : Type} {R : α → β → Prop} {as : List α} {bs : List β}
    (h : List.Forall₂ R as bs) {b : β} (hb : b ∈ bs) : ∃ a ∈ as, R a b := by
  induction h with
  | nil => cases hb
  | cons hab hrest ih =>
    rcases List.mem_cons.mp hb with rfl | hb
    · exact ⟨_, List.mem_cons_self, hab⟩
    · obtain ⟨a, ha, hR⟩ := ih hb
      exact ⟨a, List.mem_cons_of_mem _ ha, hR⟩

theorem exists_last_of_forall₂ {α β : Type} {R : α → β → Prop} {as : List α} {bs : List β}
    (h : List.Forall₂ R as bs) {b : β} (hb : b ∈ bs.getLast?) : ∃ a ∈ as.getLast?, R a b := by
  rw [← List.head?_reverse] at hb ⊢
  have hrev := List.forall₂_reverse_iff.mpr h
  cases hrev' : as.reverse with
  | nil =>
    rw [hrev', List.forall₂_nil_left_iff] at hrev
    rw [hrev] at hb
    cases hb
  | cons a rest =>
    rw [hrev'] at hrev
    obtain ⟨b', rest', hab, -, hbs⟩ := List.forall₂_cons_left_iff.mp hrev
    rw [hbs] at hb
    obtain rfl := Option.some.inj hb
    exact ⟨a, rfl, hab⟩

/-- What holds of all pairs of one list holds of the pairs related to them. -/
theorem pairwise_of_forall₂ {α β : Type} {R : α → β → Prop} {P : α → α → Prop} {Q : β → β → Prop}
    {as : List α} {bs : List β} (h : List.Forall₂ R as bs) (hP : as.Pairwise P)
    (himp : ∀ a a' b b', R a b → R a' b' → P a a' → Q b b') : bs.Pairwise Q := by
  induction h with
  | nil => exact List.Pairwise.nil
  | cons hab hrest ih =>
    obtain ⟨hhead, htail⟩ := List.pairwise_cons.mp hP
    refine List.pairwise_cons.mpr ⟨fun b' hb' => ?_, ih htail⟩
    obtain ⟨a', ha', hR⟩ := exists_of_forall₂ hrest hb'
    exact himp _ a' _ b' hab hR (hhead a' ha')

/-! ## The page of a sorted list -/

section

variable {α : Type} {key : α → κ} {ready : List α} {limit : Nat}

/-- The first `limit` items, and the key of the last one if there are more. -/
def endOf (key : α → κ) (limit : Nat) (ready : List α) : Option κ :=
  if limit < ready.length then (ready.take limit).getLast?.map key else none

/-- A cut goes between keys. -/
theorem mem_take_iff (hsorted : ready.Pairwise (key · < key ·)) (hlimit : 0 < limit) {a : α} :
    a ∈ ready.take limit ↔ a ∈ ready ∧ Within (endOf key limit ready) (key a) := by
  unfold endOf Within
  by_cases hcut : limit < ready.length
  · have hlength : (ready.take limit).length = limit := by
      rw [List.length_take]
      omega
    obtain ⟨front, last, hpage⟩ : ∃ front last, ready.take limit = front ++ [last] := by
      rcases List.eq_nil_or_concat (ready.take limit) with hnil | ⟨front, last, h⟩
      · rw [hnil] at hlength
        exact absurd hlength (by simp; omega)
      · exact ⟨front, last, by rw [h, List.concat_eq_append]⟩
    have hsplit : ready = front ++ [last] ++ ready.drop limit := by
      rw [← hpage, List.take_append_drop]
    rw [hsplit] at hsorted
    obtain ⟨hfront, -, hbetween⟩ := List.pairwise_append.mp hsorted
    rw [if_pos hcut, hpage]
    simp only [List.getLast?_append, List.getLast?_singleton, Option.some_or, Option.map_some,
      Option.some.injEq, forall_eq']
    constructor
    · intro ha
      refine ⟨by rw [hsplit]; exact List.mem_append_left _ ha, ?_⟩
      rcases List.mem_append.mp ha with ha | ha
      · exact le_of_lt ((List.pairwise_append.mp hfront).2.2 a ha last (List.mem_singleton_self _))
      · rw [List.mem_singleton.mp ha]
    · rintro ⟨ha, hle⟩
      rw [hsplit] at ha
      rcases List.mem_append.mp ha with ha | ha
      · exact ha
      · have hlt := hbetween last (List.mem_append_right _ (List.mem_singleton_self _)) a ha
        exact absurd hle (not_le.mpr hlt)
  · rw [if_neg hcut, List.take_of_length_le (by omega)]
    simp

omit [LinearOrder κ] in
/-- Without a cut the page is the whole list. -/
theorem take_of_endOf_none (hlimit : 0 < limit) (hend : endOf key limit ready = none) :
    ready.take limit = ready := by
  unfold endOf at hend
  by_cases hcut : limit < ready.length
  · rw [if_pos hcut, Option.map_eq_none_iff, List.getLast?_eq_none_iff] at hend
    have hlength := congrArg List.length hend
    rw [List.length_take, List.length_nil] at hlength
    omega
  · exact List.take_of_length_le (by omega)

/-- There is no next cursor exactly when the page holds everything. -/
theorem endOf_eq_none_iff (hsorted : ready.Pairwise (key · < key ·)) (hlimit : 0 < limit) :
    endOf key limit ready = none ↔ ∀ a ∈ ready, a ∈ ready.take limit := by
  constructor
  · intro hend a ha
    rw [take_of_endOf_none hlimit hend]
    exact ha
  · intro hall
    have hnodup : ready.Nodup := hsorted.imp fun {a b} hlt heq => absurd (heq ▸ hlt) (lt_irrefl _)
    have hlength := (List.subperm_of_subset hnodup hall).length_le
    rw [List.length_take] at hlength
    unfold endOf
    exact if_neg (by omega)

omit [LinearOrder κ] in
/-- The end of a page is the key of one of its items. -/
theorem mem_of_endOf {c : κ} (hend : endOf key limit ready = some c) :
    ∃ a ∈ ready.take limit, key a = c := by
  unfold endOf at hend
  split at hend
  · obtain ⟨a, ha, rfl⟩ := Option.map_eq_some_iff.mp hend
    exact ⟨a, List.mem_of_getLast? ha, rfl⟩
  · cases hend

end

/-! ## The pages of a log

A log only grows, at its end.  Its pages are asked for with the key of the last
item of the page before; the log may have grown meanwhile. -/

section

variable {α : Type} {key : α → κ} {limit : Nat}

/-- The items whose keys lie after `start`. -/
def since (key : α → κ) (start : κ) (log : List α) : List α := log.filter fun a => start < key a

theorem since_sorted {log : List α} (h : log.Pairwise (key · < key ·)) (start : κ) :
    (since key start log).Pairwise (key · < key ·) := h.filter _

/-- Lists in the strict order of their keys are given by their members. -/
theorem eq_of_mem_iff {l l' : List α} (h : l.Pairwise (key · < key ·))
    (h' : l'.Pairwise (key · < key ·)) (hmem : ∀ a, a ∈ l ↔ a ∈ l') : l = l' := by
  have hirrefl : Std.Irrefl fun a b : α => key a < key b := ⟨fun a => lt_irrefl (key a)⟩
  have hasymm : Std.Asymm fun a b : α => key a < key b := ⟨fun a b => lt_asymm⟩
  exact h.eq_of_mem_iff h' hmem

theorem mem_since {start : κ} {log : List α} {a : α} :
    a ∈ since key start log ↔ a ∈ log ∧ start < key a := by
  unfold since
  rw [List.mem_filter, decide_eq_true_eq]

/-- A page that was asked for after `start`: the log it saw. -/
structure LogVisit (α κ : Type) where
  log : List α
  start : κ

namespace LogVisit

def items (key : α → κ) (limit : Nat) (v : LogVisit α κ) : List α :=
  (since key v.start v.log).take limit

def next (key : α → κ) (limit : Nat) (v : LogVisit α κ) : Option κ :=
  endOf key limit (since key v.start v.log)

/-- The second page begins where the first one ends, on a log that has only grown. -/
def Continues (key : α → κ) (limit : Nat) (v w : LogVisit α κ) : Prop :=
  v.next key limit = some w.start ∧ ∃ new, w.log = v.log ++ new

end LogVisit

/-- **A walk through a log returns what the log holds at its last page**: everything
after the start, in order and once. -/
theorem log_walk {v : LogVisit α κ} {visits : List (LogVisit α κ)} (hlimit : 0 < limit)
    (hchain : (v :: visits).IsChain (LogVisit.Continues key limit)) {last : LogVisit α κ}
    (hlast : last ∈ (v :: visits).getLast?) (hsorted : last.log.Pairwise (key · < key ·))
    (hend : last.next key limit = none) :
    (∃ new, last.log = v.log ++ new) ∧
      (v :: visits).flatMap (LogVisit.items key limit) = since key v.start last.log := by
  induction visits generalizing v with
  | nil =>
    obtain rfl := Option.some.inj hlast
    refine ⟨⟨[], (List.append_nil _).symm⟩, ?_⟩
    rw [List.flatMap_cons, List.flatMap_nil, List.append_nil]
    exact take_of_endOf_none hlimit hend
  | cons w visits ih =>
    obtain ⟨⟨hnext, grown, hgrown⟩, hrest⟩ := List.isChain_cons_cons.mp hchain
    rw [List.getLast?_cons_cons] at hlast
    obtain ⟨⟨grown', hgrown'⟩, hitems⟩ := ih hrest hlast
    have hlog : last.log = v.log ++ (grown ++ grown') := by
      rw [hgrown', hgrown, List.append_assoc]
    refine ⟨⟨_, hlog⟩, ?_⟩
    rw [List.flatMap_cons, hitems]
    rw [hlog] at hsorted ⊢
    obtain ⟨hfirst, -, hbetween⟩ := List.pairwise_append.mp hsorted
    -- the page ends at the key of one of its items
    obtain ⟨cut, hcut, hkey⟩ := mem_of_endOf hnext
    obtain ⟨hcut, hstart⟩ := mem_since.mp (List.mem_of_mem_take hcut)
    rw [hkey] at hstart
    have hpage : ∀ a, a ∈ v.items key limit ↔ a ∈ since key v.start v.log ∧ key a ≤ w.start := by
      intro a
      refine (mem_take_iff (since_sorted hfirst v.start) hlimit).trans (and_congr_right fun _ => ?_)
      rw [show endOf key limit (since key v.start v.log) = some w.start from hnext]
      exact ⟨fun h => h _ rfl, fun h c hc => Option.some.inj hc ▸ h⟩
    refine eq_of_mem_iff ?_ (since_sorted hsorted v.start) fun a => ?_
    · refine List.pairwise_append.mpr ⟨(since_sorted hfirst v.start).sublist (List.take_sublist _ _),
        since_sorted hsorted w.start, fun a ha b hb => ?_⟩
      exact lt_of_le_of_lt ((hpage a).mp ha).2 (mem_since.mp hb).2
    · rw [List.mem_append, hpage, mem_since, mem_since, mem_since, List.mem_append]
      constructor
      · rintro (⟨⟨ha, hlt⟩, -⟩ | ⟨ha, hlt⟩)
        · exact ⟨Or.inl ha, hlt⟩
        · exact ⟨ha, lt_trans hstart hlt⟩
      · rintro ⟨ha, hlt⟩
        rcases le_or_gt (key a) w.start with hle | hgt
        · -- what has been appended lies after the cut
          refine Or.inl ⟨⟨ha.resolve_right fun hnew => ?_, hlt⟩, hle⟩
          have hafter := hbetween cut hcut a hnew
          rw [hkey] at hafter
          exact absurd hle (not_le.mpr hafter)
        · exact Or.inr ⟨ha, hgt⟩

end

end Paging
