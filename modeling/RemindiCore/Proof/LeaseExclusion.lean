import RemindiCore.Lib.TextOrder
import RemindiCore.Proof.LeaseCalls

/-!
# One client holds the lease

Clients with different holder ids, each of which uses only the guard of its
latest grant.  The row carries the holder id of the latest grant, so a guard
that can be renewed is the latest of all (`Exclusive.latest`); a row is taken
over when its expiry has passed for every clock reading from then on.
-/

namespace RemindiCore

open CivilTime Machine Transaction

namespace LeaseWorld

variable {ι : Type} {clients : ι → SchedulerLease} {w : LeaseWorld ι}

/-! ## Guards in use -/

/-- Who made the grants, and which were released. -/
def record (w : LeaseWorld ι) : List (ι × Bool) := w.grants.map fun g => (g.client, g.released)

/-- Grant `i` is the latest of client `c` and was not released. -/
def Holds (w : LeaseWorld ι) (c : ι) (i : Nat) : Prop :=
  w.record[i]? = some (c, false) ∧ ∀ later ∈ w.record.drop (i + 1), later.1 ≠ c

/-- `renew` would succeed. -/
def Renewable (clients : ι → SchedulerLease) (w : LeaseWorld ι) (c : ι) (grant : Grant ι)
    (now : OffsetDateTime) : Prop :=
  ∃ guard row, (clients c).renew grant.guard now w.row = .ok (guard, row)

/-- What the lease promises its clients. -/
structure MutuallyExclusive (clients : ι → SchedulerLease) (w : LeaseWorld ι) : Prop where
  one : ∀ c d i j g h now, w.Holds c i → w.Holds d j → w.grants[i]? = some g →
    w.grants[j]? = some h → Renewable clients w c g now → Renewable clients w d h now → c = d
  free : ∀ c now guard row, (clients c).acquire now w.row = .ok (guard, row) →
    ∀ d i g later, w.Holds d i → w.grants[i]? = some g → now.utc ≤ later.utc →
      ¬ Renewable clients w d g later
  kept : ∀ c i g now, w.Holds c i → w.grants[i]? = some g → Renewable clients w c g now →
    ∀ j h, i < j → w.grants[j]? = some h → h.client = c

/-! ## The invariant -/

/-- The row belongs to the latest grant, when its holder still holds one. -/
structure Exclusive (clients : ι → SchedulerLease) (w : LeaseWorld ι) : Prop where
  written : w.grants ≠ [] → ∀ r, w.row = some r → ∃ t, canonicalTimestamp t = .ok r.expiresAt
  latest : ∀ c i, w.Holds c i → ∀ r, w.row = some r → r.holderId = (clients c).holderId →
    i + 1 = w.grants.length

theorem record_renew {i : Nat} {grant : Grant ι} {guard : LeaseGuard} {row : Option LeaseRow}
    (h : w.grants[i]? = some grant) :
    record { row := row, grants := w.grants.set i { grant with guard := guard } } = w.record := by
  unfold record
  rw [List.map_set]
  obtain ⟨hlt, rfl⟩ := List.getElem?_eq_some_iff.mp h
  refine List.ext_getElem? fun j => ?_
  rw [List.getElem?_set]
  split
  · next hij => simp [← hij, hlt]
  · rfl

theorem Exclusive.start (row : Option LeaseRow) :
    Exclusive clients ({ row := row, grants := [] } : LeaseWorld ι) where
  written h := absurd rfl h
  latest _ _ h := nomatch h.1

variable (distinct : ∀ c d, (clients c).holderId = (clients d).holderId → c = d)
include distinct

theorem Exclusive.acquire {c : ι} {now : OffsetDateTime} {guard : LeaseGuard} {row : LeaseRow}
    (h : (clients c).acquire now w.row = .ok (guard, row)) :
    Exclusive clients { row := some row, grants := w.grants ++ [⟨c, guard, false⟩] } := by
  obtain ⟨version, acquired, expires, -, rfl, -, hexpires, -⟩ := SchedulerLease.acquire_ok h
  refine ⟨fun _ r hr => ?_, fun d j hheld r hr hholder => ?_⟩
  · obtain rfl := Option.some.inj hr
    exact ⟨_, hexpires⟩
  · obtain rfl := Option.some.inj hr
    obtain rfl : c = d := distinct c d hholder
    obtain ⟨hj, hlater⟩ := hheld
    simp only [record, List.map_append, List.map_cons, List.map_nil] at hj hlater
    have hlt := (List.getElem?_eq_some_iff.mp hj).1
    rw [List.length_append, List.length_map, List.length_singleton] at hlt
    rw [List.length_append, List.length_singleton]
    by_contra hne
    -- an earlier grant is not the latest of `c`
    refine hlater (c, false) ?_ rfl
    rw [List.drop_append_of_le_length (by rw [List.length_map]; omega)]
    exact List.mem_append_right _ (List.mem_singleton_self _)

omit distinct in
theorem Exclusive.renew (hw : Exclusive clients w) {c : ι} {i : Nat} {now : OffsetDateTime}
    {grant : Grant ι} {guard : LeaseGuard} {row : LeaseRow} (hgrant : w.grants[i]? = some grant)
    (h : (clients c).renew grant.guard now w.row = .ok (guard, row)) :
    Exclusive clients
      { row := some row, grants := w.grants.set i { grant with guard := guard } } := by
  obtain ⟨r, current, expires, hrow, -, -, -, -, -, -, hexpires, -, rfl⟩ :=
    SchedulerLease.renew_ok h
  refine ⟨fun _ r' hr' => ?_, fun d j hheld r' hr' hholder => ?_⟩
  · obtain rfl := Option.some.inj hr'
    exact ⟨_, hexpires⟩
  · obtain rfl := Option.some.inj hr'
    unfold Holds at hheld
    rw [record_renew hgrant] at hheld
    rw [List.length_set]
    exact hw.latest d j hheld r hrow hholder

/-- **Every call keeps it.** -/
theorem Exclusive.step (hw : Exclusive clients w) (label : LeaseCall ι × Option DatabaseError) :
    Exclusive clients (step clients w label).1 := by
  rcases step_cases clients w label with ⟨e, hstep⟩ | ⟨w', hcall, -, hstep⟩
  · rw [hstep]
    exact hw
  rw [hstep]
  obtain ⟨call, fault⟩ := label
  cases call with
  | acquire c now =>
    obtain ⟨guard, row, hacquire, rfl⟩ := call_acquire hcall
    exact Exclusive.acquire distinct hacquire
  | renew c i now =>
    obtain ⟨grant, guard, row, hgrant, hrenew, rfl⟩ := call_renew hcall
    exact hw.renew hgrant hrenew
  | release c i =>
    obtain ⟨grant, -, -, rfl⟩ := call_release hcall
    exact ⟨fun _ r hr => (by cases hr), fun _ _ _ r hr => (by cases hr)⟩
  | clear =>
    obtain rfl := Except.ok.inj hcall
    exact ⟨fun _ r hr => (by cases hr), fun _ _ _ r hr => (by cases hr)⟩

omit distinct in
/-- A row whose expiry has passed is not renewed. -/
theorem Exclusive.expired (hw : Exclusive clients w) {now later : OffsetDateTime}
    (hfree : SchedulerLease.Free w.row now) (hlater : now.utc ≤ later.utc) {c : ι} {i : Nat}
    {g : Grant ι} (hg : w.grants[i]? = some g) : ¬ Renewable clients w c g later := by
  rintro ⟨guard, row, hrenew⟩
  obtain ⟨r, current, -, hrow, -, -, -, -, hcurrent, hless, -, -, -⟩ :=
    SchedulerLease.renew_ok hrenew
  have hne : w.grants ≠ [] := by
    intro hnil
    rw [hnil] at hg
    cases hg
  obtain ⟨t, ht⟩ := hw.written hne r hrow
  obtain ⟨expiry, hexpiry, hpassed⟩ := hfree r hrow
  have hyear : 0 ≤ t.toUtc.year := by
    by_contra hneg
    rw [parseTimestamp_negative ht (by omega)] at hexpiry
    cases hexpiry
  rw [parseTimestamp_canonical ht hyear] at hexpiry
  obtain rfl := Except.ok.inj hexpiry
  have hle : r.expiresAt ≤ current := by
    refine (canonicalText_le_iff hyear (canonicalTimestamp_ok.mp ht)
      (canonicalTimestamp_ok.mp hcurrent)).mpr ?_
    simp only [OffsetDateTime.truncateMillis] at hpassed
    omega
  exact absurd hless (not_lt.mpr hle)

theorem Exclusive.mutuallyExclusive (hw : Exclusive clients w) : MutuallyExclusive clients w where
  one c d i j g h now _ _ _ _ hc hd := by
    obtain ⟨_, _, hc⟩ := hc
    obtain ⟨_, _, hd⟩ := hd
    obtain ⟨r, _, _, hrow, -, hholder, -⟩ := SchedulerLease.renew_ok hc
    obtain ⟨r', _, _, hrow', -, hholder', -⟩ := SchedulerLease.renew_ok hd
    obtain rfl := Option.some.inj (hrow.symm.trans hrow')
    exact distinct c d (hholder.symm.trans hholder')
  free c now guard row hacquire d i g later _ hg hlater := by
    obtain ⟨_, _, _, -, -, -, -, hfree⟩ := SchedulerLease.acquire_ok hacquire
    exact hw.expired hfree hlater hg
  kept c i g now hheld _ hrenew j h hij hj := by
    obtain ⟨_, _, hrenew⟩ := hrenew
    obtain ⟨r, _, _, hrow, -, hholder, -⟩ := SchedulerLease.renew_ok hrenew
    have hlast := hw.latest c i hheld r hrow hholder
    have hlt := (List.getElem?_eq_some_iff.mp hj).1
    omega

/-! ## Whole runs -/

/-- **At any time of any run one client holds the lease.** -/
theorem lease_excludes (row : Option LeaseRow)
    (calls : List (LeaseCall ι × Option DatabaseError)) :
    MutuallyExclusive clients (final (step clients) { row := row, grants := [] } calls) :=
  (invariant_final (Exclusive.start row) (fun _ label hw => hw.step distinct label)
    calls).mutuallyExclusive distinct

omit distinct

namespace Sample

/-- Two clients with a lease of 90 seconds. -/
def first : SchedulerLease := ⟨"first", 90 * 1000000000, by decide, by decide⟩
def second : SchedulerLease := ⟨"second", 90 * 1000000000, by decide, by decide⟩

def pair (c : Bool) : SchedulerLease := if c then first else second

theorem pair_distinct : ∀ c d, (pair c).holderId = (pair d).holderId → c = d := by
  decide

/-- The first client acquires and renews; the second takes over after the expiry. -/
def calls : List (LeaseCall Bool × Option DatabaseError) :=
  [(.acquire true ⟨1785585600000400000, 0⟩, none), (.renew true 0 ⟨1785585650000000000, 0⟩, none),
    (.acquire false ⟨1785585691000000000, 0⟩, none), (.acquire false ⟨1785585740000300000, 0⟩, none)]

end Sample

theorem sample_lease_excludes :
    MutuallyExclusive Sample.pair
        (final (step Sample.pair) { row := none, grants := [] } Sample.calls) ∧
      Holds (final (step Sample.pair) { row := none, grants := [] } Sample.calls) false 1 :=
  ⟨lease_excludes Sample.pair_distinct none Sample.calls, by unfold Holds; decide +kernel⟩

end LeaseWorld

end RemindiCore
