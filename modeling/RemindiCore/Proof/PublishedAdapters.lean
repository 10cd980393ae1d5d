import RemindiCore.Lib.Rely
import RemindiCore.Proof.SettingsAgreement

/-!
# The published adapters

The scheduler evaluates conditions with a snapshot of adapters in memory, and the
configuration it was built of is in the database.  An update writes the row first and
publishes afterwards; a restore exchanges the rows and publishes nothing.

Updates that are served on one file system, are not cut off between their commit and
their publication, and are not deceived about a commit keep the snapshot that of the
rows (`InUse`); so does a restore whose rows give the snapshot that is published.
Between the commit and the publication `InUse` is broken, whence `Relies`.
-/

namespace RemindiCore.Admin

open Fallible JsonText KeyedTable Machine Transaction Triggers

variable {x : UrlCrate}

/-! ## Restores -/

abbrev AdapterTable := Table AdapterRow.adapterName

/-- Updates, and what a restore does to the rows. -/
inductive SiteLabel where
  | admin (label : AdminLabel)
  | restore (runtimeSettings : SettingTable) (adapterConfigs : AdapterTable)
      (adminEvents : List AdminEvent)

/-- The rows of a backup instead of those in use; the snapshot stays. -/
def AdminState.restored (s : AdminState x) (runtimeSettings : SettingTable)
    (adapterConfigs : AdapterTable) (adminEvents : List AdminEvent) : AdminState x where
  runtimeSettings := runtimeSettings
  adapterConfigs := adapterConfigs
  adminEvents := adminEvents
  active := s.active

/-- An update in progress goes on with the rows of the backup. -/
def InFlight.moved (call : InFlight x) (s : AdminState x) : InFlight x :=
  { call with config := { call.config with state := s } }

def siteStep (s : Administrators x) : SiteLabel → Administrators x × Unit
  | .admin label => ((adminStep s label).1, ())
  | .restore runtimeSettings adapterConfigs adminEvents =>
    let restored := s.state.restored runtimeSettings adapterConfigs adminEvents
    ({ state := restored
       settings := s.settings.map (·.moved restored)
       adapters := s.adapters.map (·.moved restored) }, ())

/-! ## The snapshot of the rows -/

/-- **The snapshot in use is the one that `load` would build of the rows.** -/
def InUse (files : FileSystem) (s : AdminState x) : Prop :=
  ∃ configs, loadAdapters x files s.adapterConfigs.rows = .ok (configs, s.active)

theorem loadAdapters_ok {files : FileSystem} {rows : List AdapterRow}
    {configs : List AdapterConfigView} {snapshot : AdapterSnapshot x} :
    loadAdapters x files rows = .ok (configs, snapshot) ↔
      decodeAdapters rows = .ok configs ∧ buildSnapshot x files configs = .ok snapshot := by
  unfold loadAdapters
  constructor
  · intro h
    obtain ⟨configs', hdecode, h⟩ := except_bind_ok.mp h
    obtain ⟨snapshot', hbuild, h⟩ := except_bind_ok.mp h
    obtain ⟨rfl, rfl⟩ := Prod.mk.inj (Except.ok.inj h)
    exact ⟨hdecode, hbuild⟩
  · rintro ⟨hdecode, hbuild⟩
    exact except_bind_ok.mpr ⟨configs, hdecode, except_bind_ok.mpr ⟨snapshot, hbuild, rfl⟩⟩

section

variable {t : AdapterTable} {current : List AdapterConfigView} {row updated : AdapterRow}
  {view : AdapterConfigView}

/-- What is read after a row was replaced. -/
theorem mapM_replaced {rows : List AdapterRow} (h : rows.mapM adapterViewOf = .ok current)
    (hview : adapterViewOf updated = .ok view) :
    (rows.map fun b => if b.adapterName = updated.adapterName then updated else b).mapM
      adapterViewOf = .ok (withConfiguration current view) := by
  have hname := adapterViewOf_name hview
  have hall := forall₂_of_mapM_ok h
  clear h
  induction hall with
  | nil => rfl
  | @cons b config rows configs hread _ ih =>
    have hsame : config.adapterName = b.adapterName := adapterViewOf_name hread
    rw [List.map_cons, List.mapM_cons]
    refine except_bind_ok.mpr
      ⟨if config.adapterName = view.adapterName then view else config, ?_,
        except_bind_ok.mpr ⟨_, ih, rfl⟩⟩
    rw [hsame, hname]
    by_cases heq : b.adapterName = updated.adapterName
    · rw [if_pos heq, if_pos heq]
      exact hview
    · rw [if_neg heq, if_neg heq]
      exact hread

/-- **The configurations after an update are those that its candidate was built of.** -/
theorem decodeAdapters_replace (h : decodeAdapters t.rows = .ok current)
    (hview : adapterViewOf updated = .ok view) :
    decodeAdapters (t.replace updated).rows = .ok (withConfiguration current view) := by
  obtain ⟨configs, hconfigs, hnames⟩ := except_bind_ok.mp h
  split at hnames
  · cases hnames
  next hcomplete =>
  obtain rfl := Except.ok.inj hnames
  rw [not_not] at hcomplete
  have hsorted : ((t.replace updated).rows.insertionSort fun a b => a.adapterName ≤ b.adapterName) =
      (t.rows.insertionSort fun a b => a.adapterName ≤ b.adapterName).map fun b =>
        if b.adapterName = updated.adapterName then updated else b := by
    refine (List.map_insertionSort (r := fun a b : AdapterRow => a.adapterName ≤ b.adapterName)
      (s := fun a b => a.adapterName ≤ b.adapterName)
      (fun b : AdapterRow => if b.adapterName = updated.adapterName then updated else b) t.rows
      fun a _ b _ => ?_).symm
    have hkept : ∀ c : AdapterRow,
        (if c.adapterName = updated.adapterName then updated else c).adapterName =
          c.adapterName := by
      intro c
      split
      · next hc => exact hc.symm
      · rfl
    rw [hkept a, hkept b]
  have hkept : (withConfiguration configs view).map AdapterConfigView.adapterName = adapterNames := by
    rw [← hcomplete]
    unfold withConfiguration
    rw [List.map_map]
    refine List.map_congr_left fun config _ => ?_
    dsimp only [Function.comp]
    split
    · next hc => exact hc.symm
    · rfl
  unfold decodeAdapters
  rw [hsorted]
  exact except_bind_ok.mpr ⟨_, mapM_replaced hconfigs hview, if_neg (not_not.mpr hkept)⟩

theorem find?_of_mapM_views {rows : List AdapterRow} (h : rows.mapM adapterViewOf = .ok current)
    {name : String} {selected : AdapterConfigView}
    (hselected : current.find? (·.adapterName = name) = some selected) :
    ∃ row ∈ rows, adapterViewOf row = .ok selected :=
  mem_of_mapM_ok h (List.mem_of_find?_eq_some hselected)

/-- The configuration that was selected was read of the row with its name. -/
theorem row_of_selected (h : decodeAdapters t.rows = .ok current) {name : String}
    {selected : AdapterConfigView}
    (hselected : current.find? (·.adapterName = name) = some selected)
    (hrow : t.find? name = some row) : adapterViewOf row = .ok selected := by
  obtain ⟨configs, hconfigs, hnames⟩ := except_bind_ok.mp h
  split at hnames
  · cases hnames
  obtain rfl := Except.ok.inj hnames
  obtain ⟨found, hfound, hread⟩ := find?_of_mapM_views hconfigs hselected
  have hname : found.adapterName = name := by
    rw [← adapterViewOf_name hread]
    simpa using List.find?_some hselected
  obtain ⟨hmem, hkey⟩ := Table.find?_eq_some.mp hrow
  rw [t.eq_of_key_eq hmem ((List.mem_insertionSort _).mp hfound) (hkey.trans hname.symm)]
  exact hread

end

/-! ## One update -/

/-- What a candidate is. -/
theorem adapterCandidate_eq {files : FileSystem} {current : List AdapterConfigView}
    {adapterName : String} {enabled : Bool} {configuration : AdapterConfiguration}
    {actorId occurredAt : String} {updated selected : AdapterConfigView}
    {snapshot : AdapterSnapshot x}
    (h : adapterCandidate x files current adapterName enabled configuration actorId occurredAt =
      .ok (updated, snapshot))
    (hselected : current.find? (·.adapterName = adapterName) = some selected) :
    updated = { selected with enabled := enabled
                              configuration := configuration
                              version := selected.version + 1
                              updatedAt := occurredAt
                              updatedBy := actorId } ∧
      buildSnapshot x files (withConfiguration current updated) = .ok snapshot := by
  obtain ⟨_, -, h⟩ := except_bind_ok.mp h
  rw [hselected] at h
  obtain ⟨built, hbuilt, h⟩ := except_bind_ok.mp h
  obtain ⟨rfl, rfl⟩ := Prod.mk.inj (Except.ok.inj h)
  exact ⟨rfl, hbuilt⟩

/-- The rows and the snapshot are these; settings and events may change. -/
structure Holding (t : AdapterTable) (active : AdapterSnapshot x) (s : AdminState x) : Prop where
  rows : s.adapterConfigs = t
  active : s.active = active

theorem Holding.inUse {t : AdapterTable} {active : AdapterSnapshot x} {s u : AdminState x}
    (hs : Holding t active s) (hu : Holding t active u) {files : FileSystem} (h : InUse files s) :
    InUse files u := by
  obtain ⟨configs, hload⟩ := h
  refine ⟨configs, ?_⟩
  rw [hu.rows, hu.active, ← hs.rows, ← hs.active]
  exact hload

theorem holding_refl (s : AdminState x) : Holding s.adapterConfigs s.active s := ⟨rfl, rfl⟩

/-- An answer that an update of an adapter relies on: the file system is the one given,
and what is reported as failed has not been committed. -/
def Honest (files : FileSystem) : AdminCall x → AdminAnswer → Prop
  | .candidate .., a => a.files = files
  | .writeAdapter .., a => a.commits = true ∨ a.applies = false
  | _, _ => True

/-- The rows and the snapshot are the same. -/
def SameAdapters (s t : AdminState x) : Prop :=
  t.adapterConfigs = s.adapterConfigs ∧ t.active = s.active

/-- What an update of an adapter may rely on; `InUse` holds before all its calls but the
publication. -/
def adapterLane (x : UrlCrate) (files : FileSystem) : Rely (AdminCall x) (AdminState x) AdminAnswer
    where
  changes := SameAdapters
  refl := fun _ => ⟨rfl, rfl⟩
  trans := fun _ _ _ h h' => ⟨h'.1.trans h.1, h'.2.trans h.2⟩
  allowed := Honest files
  before := fun k s => match k with
    | .publish _ => True
    | _ => InUse files s

/-- An update of an adapter, or the rest of one, leaves the snapshot of the rows. -/
abbrev Restores {α : Type} (files : FileSystem) (m : AdminProgram x α) (s : AdminState x) : Prop :=
  Relies (administration x .adapters) (adapterLane x files) (fun _ => InUse files) m s

/-- Every call but those that write an adapter or publish. -/
def AdminCall.sparesAdapters : AdminCall x → Bool
  | .writeAdapter .. | .publish _ => false
  | _ => true

theorem serveAdmin_sameAdapters {k : AdminCall x} (hk : k.sparesAdapters = true) (a : AdminAnswer)
    (s : AdminState x) : SameAdapters s (serveAdmin k a s).2 := by
  cases k with
  | writeAdapter => cases hk
  | publish => cases hk
  | append eventType actor outcome details =>
    have happended := serve_append eventType actor outcome details a s
    generalize (serveAdmin (.append eventType actor outcome details) a s).1.isSome = replied,
      (serveAdmin (.append eventType actor outcome details) a s).2 = t at happended ⊢
    cases happended with
    | nothing => exact ⟨rfl, rfl⟩
    | event => exact ⟨rfl, rfl⟩
  | writeSetting key value expectedVersion occurredAt actor =>
    have hwrote := writeRow_wrote a s
      (writeSettingRow s key value expectedVersion occurredAt actor.actorId) .runtimeSettingUpdated
      actor key
    rw [serve_writeSetting]
    dsimp only [replied]
    generalize (writeRow a s (writeSettingRow s key value expectedVersion occurredAt actor.actorId)
      .runtimeSettingUpdated actor key).2 = t at hwrote ⊢
    cases hwrote with
    | nothing => exact ⟨rfl, rfl⟩
    | event t _ _ hwritten =>
      obtain ⟨_, _, _, _, _, _, rfl⟩ := writeSettingRow_eq hwritten
      exact ⟨rfl, rfl⟩
  | _ => exact ⟨rfl, rfl⟩

section

variable {files : FileSystem} {t : AdapterTable} {active : AdapterSnapshot x} {s : AdminState x}
  {α : Type}

theorem Holding.changed {u : AdminState x} (h : Holding t active s) (hsame : SameAdapters s u) :
    Holding t active u :=
  ⟨hsame.1.trans h.rows, hsame.2.trans h.active⟩

theorem InUse.changed {u : AdminState x} (h : InUse files s) (hsame : SameAdapters s u) :
    InUse files u :=
  (holding_refl s).inUse ((holding_refl s).changed hsame) h

theorem before_of_inUse (k : AdminCall x) (h : InUse files s) : (adapterLane x files).before k s := by
  cases k with
  | publish => trivial
  | _ => exact h

/-- A program that neither writes an adapter nor publishes. -/
theorem spares_restores {m : AdminProgram x α} (hm : m.Makes fun k => k.sparesAdapters = true)
    (hs : InUse files s) : Restores files m s :=
  Relies.keep (r := adapterLane x files) hm hs (fun _ _ h hsame => h.changed hsame)
    (fun k _ _ h => before_of_inUse k h)
    fun _ a t hk _ h => h.changed (serveAdmin_sameAdapters hk a t)

theorem reject_sparesAdapters {eventType : AdminEventType} {actor : AdminActor}
    {details : AdminDetails} {error : AdminError} :
    (reject eventType actor details error : AdminProgram x α).Makes
      fun k => k.sparesAdapters = true :=
  Prog.Makes.bind (Prog.Makes.perform rfl) fun _ => trivial

/-- One call that writes no adapter, and what the program does with the value. -/
theorem query_restores {k : AdminCall x} (hk : k.sparesAdapters = true)
    (hs : Holding t active s) (hinUse : InUse files s) {next : AdminValue k → AdminProgram x α}
    (hnext : ∀ u a value, Holding t active u → InUse files u → Honest files k a →
      (serveAdmin k a u).1 = some value → Restores files (next value) (serveAdmin k a u).2) :
    Restores files ((query k).bind next) s := by
  refine Relies.bind (Relies.perform (P := fun u => Holding t active u ∧ InUse files u)
    ⟨hs, hinUse⟩ ?_ ?_ ?_ ?_)
  · exact fun u v h hsame => ⟨h.1.changed hsame, h.2.changed hsame⟩
  · exact fun u h => before_of_inUse k h.2
  · exact fun u a value h ha hreply => hnext u a value h.1 h.2 ha hreply
  · exact fun u a h _ _ => h.2.changed (serveAdmin_sameAdapters hk a u)

/-- The rows and the snapshot after a call that spares them. -/
theorem Holding.served {k : AdminCall x} (hk : k.sparesAdapters = true) (a : AdminAnswer)
    (h : Holding t active s) : Holding t active (serveAdmin k a s).2 :=
  h.changed (serveAdmin_sameAdapters hk a s)

/-- What is reported as failed has not happened. -/
theorem writeRow_honest {a : AdminAnswer} (ha : a.commits = true ∨ a.applies = false)
    {written : Option (AdminState x)} {eventType : AdminEventType} {actor : AdminActor}
    {name : String} (h : (writeRow a s written eventType actor name).1 ≠ .committed) :
    (writeRow a s written eventType actor name).2 = s := by
  unfold writeRow at h ⊢
  split
  · rfl
  next hbegins =>
  split
  · rfl
  next hwrites =>
  rw [if_neg hbegins, if_neg hwrites] at h
  cases written with
  | none => rfl
  | some u =>
    dsimp only at h ⊢
    generalize insertEvent a eventType actor .succeeded (detailsOf name true none) u = done at h ⊢
    cases done with
    | none => rfl
    | some v =>
      by_cases hcommits : a.commits = true
      · simp [commitEvent, hcommits] at h
      · have happlies := ha.resolve_left hcommits
        simp [commitEvent, hcommits, happlies]

/-- The row that is written. -/
theorem writeAdapterRow_row {adapterName : String} {enabled : Bool} {configJson : ConfigJson}
    {expectedVersion : Int} {occurredAt actorId : String} {u : AdminState x}
    (h : writeAdapterRow s adapterName enabled configJson expectedVersion occurredAt actorId =
      some u) :
    ∃ row, s.adapterConfigs.find? adapterName = some row ∧ row.version = expectedVersion ∧
      u.adapterConfigs = s.adapterConfigs.replace
        { row with enabled := enabled
                   configJson := configJson
                   version := row.version + 1
                   updatedAt := occurredAt
                   updatedBy := actorId } := by
  unfold writeAdapterRow at h
  cases hrow : s.adapterConfigs.find? adapterName with
  | none =>
    rw [hrow] at h
    cases h
  | some row =>
    rw [hrow] at h
    dsimp only at h
    split at h
    · next hversion =>
      obtain rfl := Option.some.inj h
      exact ⟨row, rfl, hversion, rfl⟩
    · cases h

/-- **The writing of a row whose candidate was built**: it is committed, and the candidate
is what the rows give, or nothing has changed. -/
theorem writeAdapter_load {current : List AdapterConfigView} {adapterName occurredAt : String}
    {enabled : Bool} {configuration : AdapterConfiguration} {expectedVersion : Int}
    {actor : AdminActor} {updated selected : AdapterConfigView} {snapshot : AdapterSnapshot x}
    (hcurrent : decodeAdapters s.adapterConfigs.rows = .ok current)
    (hcandidate : adapterCandidate x files current adapterName enabled configuration actor.actorId
      occurredAt = .ok (updated, snapshot))
    (hselected : current.find? (·.adapterName = adapterName) = some selected)
    (hversion : selected.version = expectedVersion) {a : AdminAnswer} {result : WriteResult}
    (ha : a.commits = true ∨ a.applies = false)
    (hreply : (serveAdmin (.writeAdapter adapterName enabled (.written configuration)
      expectedVersion occurredAt actor) a s).1 = some result) :
    (result = .committed → ∃ configs, loadAdapters x files
      (serveAdmin (.writeAdapter adapterName enabled (.written configuration) expectedVersion
        occurredAt actor) a s).2.adapterConfigs.rows = .ok (configs, snapshot)) ∧
      (result ≠ .committed → SameAdapters s
        (serveAdmin (.writeAdapter adapterName enabled (.written configuration) expectedVersion
          occurredAt actor) a s).2) := by
  rw [serve_writeAdapter] at hreply ⊢
  obtain rfl := Option.some.inj hreply
  dsimp only [replied]
  constructor
  · intro hcommitted
    have hwrote := writeRow_wrote a s
      (writeAdapterRow s adapterName enabled (.written configuration) expectedVersion occurredAt
        actor.actorId) .adapterConfigUpdated actor adapterName
    rw [hcommitted] at hwrote
    generalize (writeRow a s (writeAdapterRow s adapterName enabled (.written configuration)
      expectedVersion occurredAt actor.actorId) .adapterConfigUpdated actor adapterName).2 = u
      at hwrote ⊢
    cases hwrote with
    | nothing _ h => exact (h rfl).elim
    | event u event _ hwritten =>
      obtain ⟨row, hrow, -, hrows⟩ := writeAdapterRow_row hwritten
      obtain ⟨hupdated, hbuilt⟩ := adapterCandidate_eq hcandidate hselected
      have hread := row_of_selected hcurrent hselected hrow
      have hname : row.adapterName = configuration.adapterName :=
        (Table.key_of_find? hrow).trans (adapterCandidate_ok hcandidate).1
      -- what is read of the row is the candidate
      have hview : adapterViewOf
          { row with enabled := enabled
                     configJson := .written configuration
                     version := row.version + 1
                     updatedAt := occurredAt
                     updatedBy := actor.actorId } = .ok updated := by
        obtain ⟨old, -, hold⟩ := except_bind_ok.mp hread
        obtain rfl := Except.ok.inj hold
        rw [hupdated]
        refine except_bind_ok.mpr ⟨configuration, ?_, rfl⟩
        rw [hname]
        exact decodeConfiguration_written configuration
      refine ⟨withConfiguration current updated, loadAdapters_ok.mpr ⟨?_, hbuilt⟩⟩
      show decodeAdapters u.adapterConfigs.rows = _
      rw [hrows]
      exact decodeAdapters_replace hcurrent hview
  · intro hfailed
    rw [writeRow_honest ha hfailed]
    exact ⟨rfl, rfl⟩

theorem encoded_ok {configuration : AdapterConfiguration} {configJson : ConfigJson}
    (h : encoded configuration = .ok configJson) : configJson = .written configuration := by
  unfold encoded at h
  split at h
  · split at h
    · exact (Except.ok.inj h).symm
    · cases h
  · exact (Except.ok.inj h).symm

/-- What follows the transaction. -/
theorem concluded_restores {actor : AdminActor} {adapterName : String} {result : WriteResult}
    {snapshot : AdapterSnapshot x} {reply : AdminReply}
    (hcommitted : result = .committed →
      ∃ configs, loadAdapters x files s.adapterConfigs.rows = .ok (configs, snapshot))
    (hfailed : result ≠ .committed → InUse files s) :
    Restores files (concluded .adapterConfigUpdated actor adapterName result
      ((query (.publish snapshot)).bind fun _ => .pure reply)) s := by
  by_cases hresult : result = .committed
  · subst hresult
    obtain ⟨configs, hload⟩ := hcommitted rfl
    intro u hsame
    refine ⟨trivial, fun a _ => ⟨configs, ?_⟩⟩
    show loadAdapters x files u.adapterConfigs.rows = .ok (configs, snapshot)
    rw [hsame.1]
    exact hload
  · refine spares_restores ?_ (hfailed hresult)
    cases result with
    | committed => exact (hresult rfl).elim
    | stale => exact reject_sparesAdapters
    | failed => trivial
    | writeFailed => exact Prog.Makes.bind (Prog.Makes.perform rfl) fun _ => trivial

/-- **An update leaves the snapshot of the rows.** -/
theorem updateAdapter_restores (hs : InUse files s) (adapterName : String) (enabled : Bool)
    (configuration : AdapterConfiguration) (expectedVersion : Int) (actor : AdminActor) :
    Restores files (updateAdapter adapterName enabled configuration expectedVersion actor :
      AdminProgram x AdminReply) s := by
  unfold updateAdapter
  dsimp only
  split
  · exact spares_restores reject_sparesAdapters hs
  show Restores files (((query .listAdapters).bind fun rows =>
    Prog.ofExcept (decodeAdapters rows)).bind fun current => _) s
  rw [Prog.bind_assoc]
  refine query_restores (k := .listAdapters) rfl (holding_refl s) hs ?_
  intro u a rows hu hinUse _ hreply
  obtain ⟨current, hload⟩ := hinUse
  have hcurrent := (loadAdapters_ok.mp hload).1
  have hrows : rows = u.adapterConfigs.rows := by
    dsimp only [serveAdmin] at hreply
    split at hreply
    · exact (Option.some.inj hreply).symm
    · cases hreply
  rw [hrows, hcurrent]
  show Restores files ((query .now).bind fun occurredAt => _) u
  -- from here on the rows are those that were read
  refine query_restores (k := .now) rfl (holding_refl u) ⟨current, hload⟩ ?_
  intro v a occurredAt hv hvInUse _ _
  refine query_restores rfl (hv.served rfl a) (hvInUse.changed (serveAdmin_sameAdapters rfl a v)) ?_
  intro w a candidate hw hwInUse hfiles hreply
  have hspared : ∀ {m : AdminProgram x AdminReply}, (m.Makes fun k => k.sparesAdapters = true) →
      Restores files m w := fun hm => spares_restores hm hwInUse
  have hcandidate : adapterCandidate x files current adapterName enabled configuration
      actor.actorId occurredAt = candidate := by
    have hanswer : a.files = files := hfiles
    rw [← hanswer]
    exact Option.some.inj hreply
  cases candidate with
  | error error => exact hspared reject_sparesAdapters
  | ok candidate =>
    obtain ⟨updated, snapshot⟩ := candidate
    dsimp only
    cases hselected : current.find? (·.adapterName = adapterName) with
    | none => exact hspared trivial
    | some selected =>
      dsimp only
      split
      · exact hspared reject_sparesAdapters
      next hversion =>
      rw [not_not] at hversion
      cases hencoded : encoded updated.configuration with
      | error error => exact hspared trivial
      | ok configJson =>
        have hwritten : configJson = .written configuration := by
          rw [encoded_ok hencoded, (adapterCandidate_ok hcandidate).2]
        subst hwritten
        show Restores files ((query (.writeAdapter adapterName enabled (.written configuration)
          expectedVersion occurredAt actor)).bind fun result => _) w
        refine Relies.bind (Relies.perform
          (P := fun t => Holding u.adapterConfigs u.active t ∧ InUse files t) ⟨hw, hwInUse⟩ ?_ ?_ ?_
          ?_)
        · exact fun _ _ h hsame => ⟨h.1.changed hsame, h.2.changed hsame⟩
        · exact fun _ h => h.2
        · intro t a result ht ha hreply
          have hrows : decodeAdapters t.adapterConfigs.rows = .ok current := by
            rw [ht.1.rows]
            exact hcurrent
          obtain ⟨hcommitted, hfailed⟩ :=
            writeAdapter_load hrows hcandidate hselected hversion ha hreply
          exact concluded_restores hcommitted fun hresult => ht.2.changed (hfailed hresult)
        · intro t a ht _ hreply
          cases hreply

end

/-! ## Runs -/

/-- An update in the lane of the adapters that is in progress. -/
structure Unfinished (files : FileSystem) (s : AdminState x) (call : InFlight x) : Prop where
  state : call.config.state = s
  calls : ∃ k next, call.program = .call k next
  makes : InLane .adapters call.program
  restores : Restores files call.program s

/-- An update in the other lane. -/
structure Elsewhere (s : AdminState x) (call : InFlight x) : Prop where
  state : call.config.state = s
  makes : InLane .settings call.program

/-- The snapshot is that of the rows, or an update is on the way to it. -/
structure UpToDate (files : FileSystem) (s : Administrators x) : Prop where
  idle : s.adapters = none → InUse files s.state
  adapters : ∀ call, s.adapters = some call → Unfinished files s.state call
  settings : ∀ call, s.settings = some call → Elsewhere s.state call

/-- The step does not take the snapshot away from the rows: answers are honest, an update
is not cut off before its publication, and the rows of a restore, which comes between two
updates, are those of the snapshot. -/
def Orderly (files : FileSystem) (s : Administrators x) : SiteLabel → Prop
  | .admin (.serve .adapters a) => ∀ call k next, s.adapters = some call →
    call.program = .call k next → Honest files k a
  | .admin (.abandon .adapters) => ∀ call snapshot next, s.adapters = some call →
    call.program ≠ .call (.publish snapshot) next
  | .admin _ => True
  | .restore _ adapterConfigs _ => s.adapters = none ∧
    ∃ configs, loadAdapters x files adapterConfigs.rows = .ok (configs, s.state.active)

section

variable {files : FileSystem} {s : Administrators x} {u : AdminState x}

theorem settleCall_unfinished (request : AdminRequest) {c : AdminConfig x}
    {m : AdminProgram x AdminReply} (hmakes : InLane .adapters m)
    (hm : Restores files m c.state) :
    ((settleCall request c m).1 = none → InUse files c.state) ∧
      ∀ call, (settleCall request c m).1 = some call → Unfinished files c.state call := by
  cases m with
  | pure reply => exact ⟨fun _ => hm, fun _ h => (by cases h)⟩
  | throw error => exact ⟨fun _ => hm, fun _ h => (by cases h)⟩
  | call k next =>
    refine ⟨nofun, fun call h => ?_⟩
    obtain rfl := Option.some.inj h
    exact ⟨rfl, ⟨k, next, rfl⟩, hmakes, hm⟩

theorem settleCall_elsewhere (request : AdminRequest) {c : AdminConfig x}
    {m : AdminProgram x AdminReply} (hmakes : InLane .settings m) :
    ∀ call, (settleCall request c m).1 = some call → Elsewhere c.state call := by
  intro call h
  cases m with
  | pure reply => cases h
  | throw error => cases h
  | call k next =>
    obtain rfl := Option.some.inj h
    exact ⟨rfl, hmakes⟩

theorem interrupted_state {lane other : Lane} {k : AdminCall x} (hk : k.inLane lane = true)
    (hother : other ≠ lane) (a : AdminAnswer) {call : InFlight x} (hcall : call.config.state = u) :
    (interrupted other (k, a) call).config.state = (serveAdmin k a u).2 := by
  show (administration x other).interfere (k, a) call.config.state = _
  rw [hcall]
  exact (serve_other hk hother a u).2

theorem spares_of_settings {k : AdminCall x} (h : k.inLane .settings = true) :
    k.sparesAdapters = true := by
  cases k with
  | writeAdapter => cases h
  | publish => cases h
  | _ => rfl

/-- The other update has made a call. -/
theorem Unfinished.interrupted {k : AdminCall x} {call : InFlight x}
    (h : Unfinished files u call) (hk : k.inLane .settings = true) (a : AdminAnswer) :
    Unfinished files (serveAdmin k a u).2 (Admin.interrupted .adapters (k, a) call) where
  state := interrupted_state hk (by decide : Lane.adapters ≠ .settings) a h.state
  calls := h.calls
  makes := h.makes
  restores := by
    obtain ⟨k', next, hprogram⟩ := h.calls
    have hrestores := h.restores
    show Restores files call.program _
    rw [hprogram] at hrestores ⊢
    exact hrestores.changed (serveAdmin_sameAdapters (spares_of_settings hk) a u)

theorem Elsewhere.interrupted {k : AdminCall x} {call : InFlight x} (h : Elsewhere u call)
    (hk : k.inLane .adapters = true) (a : AdminAnswer) :
    Elsewhere (serveAdmin k a u).2 (Admin.interrupted .settings (k, a) call) where
  state := interrupted_state hk (by decide : Lane.settings ≠ .adapters) a h.state
  makes := h.makes

theorem begin_published (hs : UpToDate files s) (request : AdminRequest) :
    UpToDate files (adminStep s (.begin request)).1 := by
  cases request with
  | updateRuntimeSetting key value expectedVersion actor =>
    dsimp only [adminStep, AdminRequest.lane, Administrators.lane]
    cases hsettings : s.settings with
    | some call => exact hs
    | none =>
      exact ⟨hs.idle, hs.adapters, settleCall_elsewhere
        (.updateRuntimeSetting key value expectedVersion actor)
        (updateRuntimeSetting_inLane key value expectedVersion actor)⟩
  | updateAdapter adapterName enabled configuration expectedVersion actor =>
    dsimp only [adminStep, AdminRequest.lane, Administrators.lane]
    cases hadapters : s.adapters with
    | some call => exact hs
    | none =>
      obtain ⟨hidle, hcalls⟩ := settleCall_unfinished (c := .start s.state)
        (.updateAdapter adapterName enabled configuration expectedVersion actor)
        (updateAdapter_inLane adapterName enabled configuration expectedVersion actor)
        (updateAdapter_restores (hs.idle hadapters) adapterName enabled configuration
          expectedVersion actor)
      exact ⟨hidle, hcalls, hs.settings⟩

theorem serve_settings_published (hs : UpToDate files s) (a : AdminAnswer) :
    UpToDate files (adminStep s (.serve .settings a)).1 := by
  dsimp only [adminStep, Administrators.lane]
  cases hsettings : s.settings with
  | none => exact hs
  | some call =>
    have hcall := hs.settings call hsettings
    have hmakes := hcall.makes
    dsimp only
    cases hprogram : call.program with
    | pure reply => exact hs
    | throw error => exact hs
    | call k next =>
      rw [hprogram] at hmakes
      have hstate : (call.config.served (administration x .settings) k a).state =
          (serveAdmin k a s.state).2 := by
        show (serveAdmin k a call.config.state).2 = _
        rw [hcall.state]
      have hsame := serveAdmin_sameAdapters (spares_of_settings hmakes.1) a s.state
      refine ⟨fun hidle => ?_, fun other hother => ?_, ?_⟩
      · show InUse files (call.config.served (administration x .settings) k a).state
        rw [hstate]
        refine (hs.idle ?_).changed hsame
        exact Option.map_eq_none_iff.mp hidle
      · show Unfinished files (call.config.served (administration x .settings) k a).state other
        rw [hstate]
        obtain ⟨before, hbefore, rfl⟩ := Option.map_eq_some_iff.mp hother
        exact (hs.adapters before hbefore).interrupted hmakes.1 a
      · exact settleCall_elsewhere call.request (hmakes.2 _)

theorem serve_adapters_published (hs : UpToDate files s) {a : AdminAnswer}
    (hanswer : Orderly files s (.admin (.serve .adapters a))) :
    UpToDate files (adminStep s (.serve .adapters a)).1 := by
  dsimp only [adminStep, Administrators.lane]
  cases hadapters : s.adapters with
  | none => exact hs
  | some call =>
    have hcall := hs.adapters call hadapters
    obtain ⟨k, next, hprogram⟩ := hcall.calls
    have hmakes := hcall.makes
    have hrestores := hcall.restores
    rw [hprogram] at hmakes hrestores
    dsimp only
    rw [hprogram]
    have hstate : (call.config.served (administration x .adapters) k a).state =
        (serveAdmin k a s.state).2 := by
      show (serveAdmin k a call.config.state).2 = _
      rw [hcall.state]
    have hserved := hrestores.served (hanswer call k next hadapters hprogram)
    rw [← hcall.state] at hserved
    obtain ⟨hidle, hcalls⟩ := settleCall_unfinished
      (c := call.config.served (administration x .adapters) k a) call.request (hmakes.2 _) hserved
    refine ⟨hidle, hcalls, fun other hother => ?_⟩
    show Elsewhere (call.config.served (administration x .adapters) k a).state other
    rw [hstate]
    obtain ⟨before, hbefore, rfl⟩ := Option.map_eq_some_iff.mp hother
    exact (hs.settings before hbefore).interrupted hmakes.1 a

/-- **One step.** -/
theorem siteStep_published {label : SiteLabel} (hs : UpToDate files s)
    (hlabel : Orderly files s label) : UpToDate files (siteStep s label).1 := by
  cases label with
  | restore runtimeSettings adapterConfigs adminEvents =>
    obtain ⟨hidle, configs, hload⟩ := hlabel
    refine ⟨fun _ => ⟨configs, hload⟩, fun call hcall => ?_, fun call hcall => ?_⟩
    · obtain ⟨before, hbefore, -⟩ := Option.map_eq_some_iff.mp hcall
      rw [hidle] at hbefore
      cases hbefore
    · obtain ⟨before, hbefore, rfl⟩ := Option.map_eq_some_iff.mp hcall
      exact ⟨rfl, (hs.settings before hbefore).makes⟩
  | admin label =>
    cases label with
    | begin request => exact begin_published hs request
    | serve lane a =>
      cases lane with
      | settings => exact serve_settings_published hs a
      | adapters => exact serve_adapters_published hs hlabel
    | abandon lane =>
      cases lane with
      | settings => exact ⟨hs.idle, hs.adapters, fun _ h => (by cases h)⟩
      | adapters =>
        refine ⟨fun _ => ?_, fun _ h => (by cases h), hs.settings⟩
        cases hadapters : s.adapters with
        | none => exact hs.idle hadapters
        | some call =>
          have hcall := hs.adapters call hadapters
          obtain ⟨k, next, hprogram⟩ := hcall.calls
          have hrestores := hcall.restores
          rw [hprogram] at hrestores
          have hbefore : (adapterLane x files).before k s.state := hrestores.now
          cases k with
          | publish snapshot => exact (hlabel call snapshot next hadapters hprogram).elim
          | _ => exact hbefore

end

/-- A site that has just been loaded. -/
def Administrators.loaded (s : AdminState x) : Administrators x where
  state := s
  settings := none
  adapters := none

/-- **The adapters in effect are those of the rows**, at every point of the run at which
no update of an adapter is in progress. -/
theorem published_in_use (files : FileSystem) (start : AdminState x)
    (hstart : InUse files start) (labels : List SiteLabel)
    (horderly : ∀ ks label rest, labels = ks ++ label :: rest →
      Orderly files (final siteStep (.loaded start) ks) label) :
    ∀ ks, ks <+: labels → (final siteStep (.loaded start) ks).adapters = none →
      InUse files (final siteStep (.loaded start) ks).state := by
  have hpublished : ∀ ks, ks <+: labels →
      UpToDate files (final siteStep (.loaded start) ks) := by
    intro ks
    induction ks using List.reverseRecOn with
    | nil => exact fun _ => ⟨fun _ => hstart, fun _ h => (by cases h), fun _ h => (by cases h)⟩
    | append_singleton ks label ih =>
      rintro ⟨rest, rfl⟩
      rw [final_append]
      refine siteStep_published (ih ⟨label :: rest, by simp⟩) (horderly ks label rest ?_)
      simp
  exact fun ks hks => (hpublished ks hks).idle

/-! ## The first migration -/

/-- The adapter that an empty configuration gives. -/
theorem buildAdapter_seeded {config : AdapterConfigView} (files : FileSystem)
    (hempty : emptyConfiguration config.adapterName = .ok config.configuration)
    (henabled : config.enabled = false) {name : String} {adapter : Adapter x}
    (hname : config.adapterName = name)
    (h : (name, adapter) ∈ (bootstrapped x "").active) :
    buildAdapter x files config = .ok (name, adapter) := by
  obtain ⟨adapterName, enabled, configuration, version, updatedAt, updatedBy⟩ := config
  dsimp only at hempty henabled hname
  subst henabled hname
  simp only [bootstrapped, List.mem_cons, Prod.mk.injEq, List.not_mem_nil, or_false] at h
  rcases h with ⟨rfl, rfl⟩ | ⟨rfl, rfl⟩ | ⟨rfl, rfl⟩ | ⟨rfl, rfl⟩
  all_goals
    obtain rfl := Except.ok.inj hempty
    rfl

theorem mapM_of_forall₂ {α β ε : Type} {f : α → Except ε β} {l : List α} {bs : List β}
    (h : List.Forall₂ (fun a b => f a = .ok b) l bs) : l.mapM f = .ok bs := by
  induction h with
  | nil => rfl
  | cons hfirst _ ih =>
    rw [List.mapM_cons]
    exact except_bind_ok.mpr ⟨_, hfirst, except_bind_ok.mpr ⟨_, ih, rfl⟩⟩

/-- **The snapshot of the first migration is that of its rows.** -/
theorem bootstrapped_inUse (x : UrlCrate) (now : String) (files : FileSystem) :
    InUse files (bootstrapped x now) := by
  obtain ⟨configs, hconfigs, hnames⟩ := (bootstrapped_adapters (x := x) now).list
  have hseeded : ∀ config ∈ configs, config.enabled = false ∧
      emptyConfiguration config.adapterName = .ok config.configuration := by
    intro config hconfig
    obtain ⟨views, hviews, hlist⟩ := except_bind_ok.mp hconfigs
    split at hlist
    · cases hlist
    · cases hlist
      obtain ⟨row, hrow, hread⟩ := mem_of_mapM_ok hviews hconfig
      obtain ⟨name, -, rfl⟩ := List.mem_map.mp ((List.mem_insertionSort _).mp hrow)
      refine ⟨?_, empty_of_view rfl hread⟩
      obtain ⟨_, -, hview⟩ := except_bind_ok.mp hread
      obtain rfl := Except.ok.inj hview
      rfl
  refine ⟨configs, loadAdapters_ok.mpr ⟨hconfigs, ?_⟩⟩
  have hbuilt : configs.mapM (buildAdapter x files) = .ok (bootstrapped x now).active := by
    have hkeys : configs.map AdapterConfigView.adapterName =
        (bootstrapped x now).active.map Prod.fst := hnames
    refine mapM_of_forall₂ ?_
    have hmem : ∀ entry ∈ (bootstrapped x now).active, entry ∈ (bootstrapped x "").active :=
      fun _ h => h
    generalize (bootstrapped x now).active = adapters at hkeys hmem
    clear hconfigs hnames
    induction configs generalizing adapters with
    | nil =>
      cases adapters with
      | nil => exact .nil
      | cons => cases hkeys
    | cons config configs ih =>
      cases adapters with
      | nil => cases hkeys
      | cons entry adapters =>
        obtain ⟨hname, hrest⟩ := List.cons.inj hkeys
        obtain ⟨⟨henabled, hempty⟩, htail⟩ := List.forall_mem_cons.mp hseeded
        obtain ⟨hentry, hentries⟩ := List.forall_mem_cons.mp hmem
        exact .cons (buildAdapter_seeded files hempty henabled hname hentry)
          (ih htail adapters hrest hentries)
  unfold buildSnapshot
  exact except_bind_ok.mpr ⟨_, hbuilt, if_pos ⟨(by decide : adapterNames.Nodup), rfl⟩⟩

namespace Sample

/-- A backup of the first migration is restored, and then an adapter is enabled. -/
def restoredAndUpdated : List SiteLabel :=
  .restore (bootstrapped noUrls "2026-07-19T00:00:00.000Z").runtimeSettings
      (bootstrapped noUrls "2026-07-19T00:00:00.000Z").adapterConfigs [] ::
    [.begin (.updateAdapter "observation_window_ended" true .observationWindowEnded 1 owner),
      .serve .adapters (succeeding 0), .serve .adapters (succeeding 1),
      .serve .adapters (succeeding 2), .serve .adapters (succeeding 3),
      .serve .adapters (succeeding 4)].map SiteLabel.admin

def everyPath : FileSystem := fun path => .resolved path

end Sample

theorem sample_published_in_use :
    InUse Sample.everyPath (final siteStep (.loaded (bootstrapped Sample.noUrls "2026"))
        Sample.restoredAndUpdated).state ∧
      ((final siteStep (.loaded (bootstrapped Sample.noUrls "2026"))
        Sample.restoredAndUpdated).state.adapterConfigs.rows.any (·.enabled)) = true := by
  refine ⟨published_in_use Sample.everyPath (bootstrapped Sample.noUrls "2026")
    (bootstrapped_inUse _ _ _) Sample.restoredAndUpdated ?_ _ List.prefix_rfl ?_, ?_⟩
  · intro ks label rest hsplit
    have hserved : ∀ id k, Honest (x := Sample.noUrls) Sample.everyPath k (Sample.succeeding id) := by
      intro id k
      cases k with
      | candidate => rfl
      | writeAdapter => exact Or.inl rfl
      | _ => trivial
    cases ks with
    | nil =>
      obtain ⟨rfl, -⟩ := List.cons.inj hsplit
      exact ⟨rfl, bootstrapped_inUse _ _ _⟩
    | cons first ks =>
      have hmem : label ∈ Sample.restoredAndUpdated.tail := by
        rw [hsplit]
        exact List.mem_append_right ks List.mem_cons_self
      obtain ⟨label, hlabel, rfl⟩ := List.mem_map.mp hmem
      simp only [List.mem_cons, List.not_mem_nil, or_false] at hlabel
      rcases hlabel with rfl | rfl | rfl | rfl | rfl | rfl
      · trivial
      all_goals exact fun _ k _ _ _ => hserved _ k
  · have hidle : (final siteStep (.loaded (bootstrapped Sample.noUrls "2026"))
        Sample.restoredAndUpdated).adapters.isNone = true := by decide +kernel
    exact Option.isNone_iff_eq_none.mp hidle
  · decide +kernel

end RemindiCore.Admin
