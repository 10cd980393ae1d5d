import RemindiCore.Proof.LeaseExclusion

/-!
# Old guards

A guard is fenced off by its version: the row carries the version of the
latest grant, or of its last renewal.  This holds as long as versions of one
holder id only grow (`Rising`).  They do while the row stays; but `release`
and the maintenance delete the row, the next grant has the version 1 again,
and an old guard of the same holder id passes (`released_guard_releases`).
-/

namespace RemindiCore

open CivilTime Machine Transaction

namespace LeaseWorld

variable {ι : Type} {clients : ι → SchedulerLease} {w : LeaseWorld ι}

/-! ## Fencing -/

/-- The row is grant `i`, as granted or last renewed, and `i` is the latest grant. -/
def Current (w : LeaseWorld ι) (i : Nat) : Prop :=
  ∃ grant row, w.grants[i]? = some grant ∧ w.row = some row ∧ i + 1 = w.grants.length ∧
    grant.released = false ∧ row.holderId = grant.guard.holderId ∧ row.version = grant.guard.version

/-- A successful `renew` or `release` was made with the guard of the current grant. -/
def Fenced (e : LeaseStep ι) : Prop :=
  e.response = .ok () →
    match e.label.1 with
    | .renew _ i _ | .release _ i => e.before.Current i
    | .acquire _ _ | .clear => True

/-- The call gives no guard of its holder id a version that an older one has, and does
not release another's guard whose version is that of the client's own row. -/
def Rising (clients : ι → SchedulerLease) (w : LeaseWorld ι) : LeaseCall ι → Prop
  | .acquire c _ => ∀ grant ∈ w.grants, grant.guard.holderId = (clients c).holderId →
      (grant.guard.version : Int) < SchedulerLease.nextVersion w.row
  | .release c i => ∀ grant ∈ w.grants[i]?, grant.guard.holderId = (clients c).holderId ∨
      ∀ row ∈ w.row, row.holderId = (clients c).holderId → row.version ≠ grant.guard.version
  | .renew _ _ _ | .clear => True

instance (w : LeaseWorld ι) (call : LeaseCall ι) : Decidable (w.Rising clients call) := by
  unfold Rising
  cases call <;> infer_instance

/-! ## The invariant -/

/-- No guard of the row's holder id has a later version than the row; only the
current grant has the same. -/
def Versioned (w : LeaseWorld ι) : Prop :=
  ∀ r, w.row = some r → ∀ i grant, w.grants[i]? = some grant →
    grant.guard.holderId = r.holderId → (grant.guard.version : Int) ≤ r.version ∧
      ((grant.guard.version : Int) = r.version → i + 1 = w.grants.length ∧ grant.released = false)

theorem Versioned.current (hw : w.Versioned) {i : Nat} {grant : Grant ι} {r : LeaseRow}
    (hgrant : w.grants[i]? = some grant) (hrow : w.row = some r)
    (hholder : grant.guard.holderId = r.holderId) (hversion : r.version = grant.guard.version) :
    w.Current i := by
  obtain ⟨hlast, hreleased⟩ := (hw r hrow i grant hgrant hholder).2 hversion.symm
  exact ⟨grant, r, hgrant, hrow, hlast, hreleased, hholder.symm, hversion⟩

theorem Versioned.acquire {c : ι} {now : OffsetDateTime} {guard : LeaseGuard} {row : LeaseRow}
    (hrising : w.Rising clients (.acquire c now))
    (h : (clients c).acquire now w.row = .ok (guard, row)) :
    Versioned { row := some row, grants := w.grants ++ [⟨c, guard, false⟩] } := by
  obtain ⟨version, _, _, rfl, rfl, hversion, -, -⟩ := SchedulerLease.acquire_ok h
  intro r hr i grant hgrant hholder
  obtain rfl := Option.some.inj hr
  rcases grants_append hgrant with ⟨rfl, rfl⟩ | hold
  · exact ⟨le_refl _, fun _ => ⟨by rw [List.length_append, List.length_singleton], rfl⟩⟩
  · have hless := hrising grant (List.mem_of_getElem? hold) hholder
    rw [← hversion] at hless
    exact ⟨le_of_lt hless, fun heq => absurd heq (ne_of_lt hless)⟩

theorem Versioned.renew (hw : w.Versioned) {c : ι} {i : Nat} {now : OffsetDateTime}
    {grant : Grant ι} {guard : LeaseGuard} {row : LeaseRow} (hgrant : w.grants[i]? = some grant)
    (h : (clients c).renew grant.guard now w.row = .ok (guard, row)) :
    Versioned { row := some row, grants := w.grants.set i { grant with guard := guard } } := by
  obtain ⟨r, _, _, hrow, hown, hholder, hversion, -, -, -, -, rfl, rfl⟩ :=
    SchedulerLease.renew_ok h
  have hsame : grant.guard.holderId = r.holderId := hown.trans hholder.symm
  obtain ⟨hlast, hreleased⟩ := (hw r hrow i grant hgrant hsame).2 hversion.symm
  intro r' hr' j other hother hj
  obtain rfl := Option.some.inj hr'
  rcases grants_set hother with ⟨rfl, rfl⟩ | ⟨hne, hother⟩
  · refine ⟨le_of_eq ?_, fun _ => ⟨by rw [List.length_set]; exact hlast, hreleased⟩⟩
    simp
  · -- the other guards stay below the version that was the row's
    have hle := (hw r hrow j other hother hj).1
    simp only
    exact ⟨by omega, by omega⟩

/-- **Every call with rising versions keeps it.** -/
theorem Versioned.step (hw : w.Versioned) {label : LeaseCall ι × Option DatabaseError}
    (hrising : w.Rising clients label.1) : Versioned (step clients w label).1 := by
  rcases step_cases clients w label with ⟨e, hstep⟩ | ⟨w', hcall, -, hstep⟩
  · rw [hstep]
    exact hw
  rw [hstep]
  obtain ⟨call, fault⟩ := label
  cases call with
  | acquire c now =>
    obtain ⟨guard, row, hacquire, rfl⟩ := call_acquire hcall
    exact Versioned.acquire hrising hacquire
  | renew c i now =>
    obtain ⟨grant, guard, row, hgrant, hrenew, rfl⟩ := call_renew hcall
    exact hw.renew hgrant hrenew
  | release c i =>
    obtain ⟨grant, -, -, rfl⟩ := call_release hcall
    intro r hr
    cases hr
  | clear =>
    obtain rfl := Except.ok.inj hcall
    intro r hr
    cases hr

theorem Versioned.fenced (hw : w.Versioned) {label : LeaseCall ι × Option DatabaseError}
    (hrising : w.Rising clients label.1) : Fenced (entry (LeaseWorld.step clients) w label) := by
  intro hok
  rcases step_cases clients w label with ⟨e, hstep⟩ | ⟨w', hcall, -, -⟩
  · exact absurd (hok.symm.trans (congrArg Prod.snd hstep)) (by simp)
  obtain ⟨call, fault⟩ := label
  cases call with
  | acquire c now => trivial
  | renew c i now =>
    obtain ⟨grant, _, _, hgrant, hrenew, -⟩ := call_renew hcall
    obtain ⟨r, _, _, hrow, hown, hholder, hversion, -⟩ := SchedulerLease.renew_ok hrenew
    exact hw.current hgrant hrow (hown.trans hholder.symm) hversion
  | release c i =>
    obtain ⟨grant, hgrant, hrelease, -⟩ := call_release hcall
    obtain ⟨r, hrow, hholder, hversion⟩ := SchedulerLease.release_ok hrelease
    rcases hrising grant hgrant with hown | hother
    · exact hw.current hgrant hrow (hown.trans hholder.symm) hversion
    · exact absurd hversion (hother r hrow hholder)
  | clear => trivial

/-! ## Whole runs -/

/-- **Old guards stay fenced off while versions rise.** -/
theorem old_guards_fenced (row : Option LeaseRow)
    (calls : List (LeaseCall ι × Option DatabaseError))
    (hrising : ∀ e ∈ history (step clients) { row := row, grants := [] } calls,
      e.before.Rising clients e.label.1) :
    ∀ e ∈ history (step clients) { row := row, grants := [] } calls, Fenced e := by
  have hrun : (∀ e ∈ history (step clients) { row := row, grants := [] } calls,
      e.before.Rising clients e.label.1) →
      Versioned (final (step clients) { row := row, grants := [] } calls) ∧
        ∀ e ∈ history (step clients) { row := row, grants := [] } calls, Fenced e := by
    refine run_induction (P := fun h w => (∀ e ∈ h, e.before.Rising clients e.label.1) →
      Versioned w ∧ ∀ e ∈ h, Fenced e) ?_ ?_ calls
    · intro _
      exact ⟨fun _ _ i grant hgrant => (by cases hgrant), fun e he => (by cases he)⟩
    · intro h w label ih hall
      have hlast := hall _ (List.mem_append_right _ (List.mem_singleton_self _))
      obtain ⟨hversioned, hfenced⟩ := ih fun e he => hall e (List.mem_append_left _ he)
      refine ⟨hversioned.step hlast, fun e he => ?_⟩
      rcases List.mem_append.mp he with he | he
      · exact hfenced e he
      · obtain rfl := List.mem_singleton.mp he
        exact hversioned.fenced hlast
  exact (hrun hrising).2

namespace Sample

/-- The client acquires, renews and releases; another takes the lease. -/
def rising : List (LeaseCall Bool × Option DatabaseError) :=
  [(.acquire true ⟨1785585600000400000, 0⟩, none), (.renew true 0 ⟨1785585650000000000, 0⟩, none),
    (.acquire false ⟨1785585740000300000, 0⟩, none), (.renew true 0 ⟨1785585741000000000, 0⟩, none),
    (.release true 0, none), (.release false 1, none)]

/-- One client acquires, releases and acquires again. -/
def again : List (LeaseCall Bool × Option DatabaseError) :=
  [(.acquire true ⟨1785585600000400000, 0⟩, none), (.release true 0, none),
    (.acquire true ⟨1785585601000000000, 0⟩, none)]

end Sample

theorem sample_old_guards_fenced :
    (history (step Sample.pair) { row := none, grants := [] } Sample.rising).length =
        Sample.rising.length ∧
      ∀ e ∈ history (step Sample.pair) { row := none, grants := [] } Sample.rising, Fenced e :=
  ⟨length_history _, old_guards_fenced none Sample.rising (by decide +kernel)⟩

/-- **A released guard deletes the row of the grant after it.** -/
theorem released_guard_releases :
    ¬ ∀ e ∈ history (step Sample.pair) { row := none, grants := [] }
      (Sample.again ++ [(.release true 0, none)]), Fenced e := by
  intro h
  have hok : (step Sample.pair (final (step Sample.pair) { row := none, grants := [] } Sample.again)
      (.release true 0, none)).2 = .ok () := by
    decide +kernel
  have hgrants : (final (step Sample.pair) { row := none, grants := [] }
      Sample.again).grants.length = 2 := by
    decide +kernel
  rw [history_append] at h
  have hfenced := h _ (List.mem_append_right _ (List.mem_singleton_self _)) hok
  obtain ⟨_, _, -, -, hlength, -⟩ := hfenced
  have hlength : 0 + 1 = (final (step Sample.pair) { row := none, grants := [] }
      Sample.again).grants.length := hlength
  rw [hgrants] at hlength
  cases hlength

end LeaseWorld

end RemindiCore
