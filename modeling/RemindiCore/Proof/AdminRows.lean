import RemindiCore.Admin.Service
import RemindiCore.Lib.Transaction

/-!
# The rows of the administration

When the rows of the settings and of the adapters can be read (`SettingsLegible`,
`AdaptersLegible`), that every write keeps them so, and that the version of a row
counts the updates of it that are on record (`Audited`).  One lemma says this of
the calls of the lane the rows are in, another that the calls of the other lane
have nothing to do with it.
-/

namespace RemindiCore.Admin

open DigitText Fallible JsonText KeyedTable Transaction Triggers

variable {x : UrlCrate} {s t : AdminState x} {lane : Lane}

/-! ## Settings -/

theorem integerOf_ofInt (n : Int) : integerOf (NumberText.ofInt n).chars = some n := by
  have hdigits : (decimal n.natAbs).all Char.isDigit = true :=
    List.all_eq_true.mpr fun c hc => isDigit_of_mem_decimal hc
  have hvalue := value_decimal n.natAbs
  unfold NumberText.ofInt
  dsimp only
  by_cases hn : n < 0
  · rw [if_pos hn]
    have hempty : (decimal n.natAbs).isEmpty = false := by
      rw [List.isEmpty_eq_false_iff]
      exact decimal_ne_nil _
    have hzero : n.natAbs ≠ 0 := by omega
    have hsigned : -(n.natAbs : Int) = n := by omega
    simp only [integerOf, hdigits, hempty, hvalue, hzero]
    rw [if_neg (by decide), hsigned]
  · rw [if_neg hn]
    unfold integerOf
    split
    · next digits hminus =>
      have := isDigit_of_mem_decimal (n := n.natAbs) (c := '-') (by rw [hminus]; simp)
      simp [Char.isDigit] at this
    · rw [if_pos hdigits, hvalue]
      congr 1
      omega

theorem asI64_ofInt (value : I64) : asI64 (.ofInt value.val) = some value := by
  unfold asI64 Json.ofInt
  dsimp only
  rw [integerOf_ofInt]
  dsimp only
  rw [dif_pos ⟨value.lower, value.upper⟩]

theorem settingOf_key {row : SettingRow} {setting : RuntimeSetting}
    (h : settingOf row = .ok setting) : setting.key = row.settingKey := by
  unfold settingOf at h
  split at h
  · cases h
    rfl
  · cases h

/-- The rows give every setting a value. -/
structure SettingsLegible (rows : List SettingRow) : Prop where
  decodes : ∀ row ∈ rows, ∃ setting, settingOf row = .ok setting
  complete : ∀ key, isKnownSetting key = true → key ∈ rows.map SettingRow.settingKey

theorem SettingsLegible.list {rows : List SettingRow} (h : SettingsLegible rows) :
    ∃ settings, decodeSettings rows = .ok settings ∧
      ∀ key, isKnownSetting key = true → (settings.find? (·.key = key)).isSome = true := by
  obtain ⟨settings, hsettings⟩ := except_mapM_ok (f := settingOf)
    (l := rows.insertionSort fun a b => a.settingKey ≤ b.settingKey)
    fun row hrow => h.decodes row ((List.mem_insertionSort _).mp hrow)
  refine ⟨settings, hsettings, fun key hkey => ?_⟩
  have hkeys := map_of_mapM_ok hsettings fun _ _ => settingOf_key
  obtain ⟨row, hrow, rfl⟩ := List.mem_map.mp (h.complete key hkey)
  have hmem : row.settingKey ∈ settings.map RuntimeSetting.key := by
    rw [hkeys]
    exact List.mem_map_of_mem ((List.mem_insertionSort _).mpr hrow)
  obtain ⟨setting, hsetting, heq⟩ := List.mem_map.mp hmem
  exact List.find?_isSome.mpr ⟨setting, hsetting, decide_eq_true heq⟩

/-- A value of the right type can be read back. -/
theorem settingOf_written {row : SettingRow} (value : I64) (hknown : isKnownSetting row.settingKey)
    (hjson : row.valueJson = .ofInt value.val) : ∃ setting, settingOf row = .ok setting := by
  obtain ⟨definition, hdefinition⟩ := Option.isSome_iff_exists.mp hknown
  unfold settingOf
  rw [hdefinition, hjson, asI64_ofInt]
  exact ⟨_, rfl⟩

theorem isKnownSetting_of_decodes {row : SettingRow} (h : ∃ setting, settingOf row = .ok setting) :
    isKnownSetting row.settingKey = true := by
  obtain ⟨setting, h⟩ := h
  unfold settingOf at h
  split at h
  · next hdefinition _ => exact Option.isSome_iff_exists.mpr ⟨_, hdefinition⟩
  · cases h

/-! ## Adapters -/

theorem adapterViewOf_name {row : AdapterRow} {config : AdapterConfigView}
    (h : adapterViewOf row = .ok config) : config.adapterName = row.adapterName := by
  obtain ⟨configuration, -, h⟩ := except_bind_ok.mp h
  cases h
  rfl

theorem adapterViewOf_ok {row : AdapterRow} :
    (∃ config, adapterViewOf row = .ok config) ↔
      ∃ configuration, decodeConfiguration row.adapterName row.configJson = .ok configuration := by
  constructor
  · rintro ⟨config, h⟩
    obtain ⟨configuration, hconfiguration, -⟩ := except_bind_ok.mp h
    exact ⟨configuration, hconfiguration⟩
  · rintro ⟨configuration, h⟩
    exact ⟨_, except_bind_ok.mpr ⟨configuration, h, rfl⟩⟩

def sortedNames (names : List String) : List String := names.insertionSort (· ≤ ·)

/-- The rows give all four adapters a configuration. -/
structure AdaptersLegible (rows : List AdapterRow) : Prop where
  decodes : ∀ row ∈ rows, ∃ config, adapterViewOf row = .ok config
  names : sortedNames (rows.map AdapterRow.adapterName) = adapterNames

theorem AdaptersLegible.list {rows : List AdapterRow} (h : AdaptersLegible rows) :
    ∃ configs, decodeAdapters rows = .ok configs ∧
      configs.map AdapterConfigView.adapterName = adapterNames := by
  obtain ⟨configs, hconfigs⟩ := except_mapM_ok (f := adapterViewOf)
    (l := rows.insertionSort fun a b => a.adapterName ≤ b.adapterName)
    fun row hrow => h.decodes row ((List.mem_insertionSort _).mp hrow)
  have hnames : configs.map AdapterConfigView.adapterName = adapterNames := by
    rw [map_of_mapM_ok hconfigs fun _ _ => adapterViewOf_name, ← h.names]
    unfold sortedNames
    exact List.map_insertionSort (r := fun a b : AdapterRow => a.adapterName ≤ b.adapterName)
      (s := (· ≤ ·)) AdapterRow.adapterName rows fun _ _ _ _ => Iff.rfl
  refine ⟨configs, except_bind_ok.mpr ⟨configs, hconfigs, ?_⟩, hnames⟩
  exact if_neg (not_not.mpr hnames)

/-! ## Versions -/

def Lane.eventType : Lane → AdminEventType
  | .settings => .runtimeSettingUpdated
  | .adapters => .adapterConfigUpdated

/-- The event is that of an update of this row that has succeeded. -/
def AdminEvent.succeeds (event : AdminEvent) (eventType : AdminEventType) (name : String) : Bool :=
  event.eventType = eventType && event.outcome = .succeeded && event.details.name = name

def succeededOf (eventType : AdminEventType) (name : String) (events : List AdminEvent) : Nat :=
  events.countP fun event => event.succeeds eventType name

/-- The rows of this lane can be read, and their versions count the events. -/
def Audited (s : AdminState x) : Lane → Prop
  | .settings => SettingsLegible s.runtimeSettings.rows ∧ ∀ row ∈ s.runtimeSettings.rows,
      row.version = 1 + succeededOf .runtimeSettingUpdated row.settingKey s.adminEvents
  | .adapters => AdaptersLegible s.adapterConfigs.rows ∧ ∀ row ∈ s.adapterConfigs.rows,
      row.version = 1 + succeededOf .adapterConfigUpdated row.adapterName s.adminEvents

/-- The rows of this lane are as they were, and no success in it has been added. -/
structure Spared (lane : Lane) (s t : AdminState x) : Prop where
  settings : lane = .settings → t.runtimeSettings = s.runtimeSettings
  adapters : lane = .adapters → t.adapterConfigs = s.adapterConfigs
  events : ∃ added, t.adminEvents = s.adminEvents ++ added ∧
    ∀ event ∈ added, ∀ name, event.succeeds lane.eventType name = false

theorem Spared.refl (lane : Lane) (s : AdminState x) : Spared lane s s where
  settings := fun _ => rfl
  adapters := fun _ => rfl
  events := ⟨[], (List.append_nil _).symm, fun _ h => (List.not_mem_nil h).elim⟩

theorem Spared.succeededOf (h : Spared lane s t) (name : String) :
    succeededOf lane.eventType name t.adminEvents =
      succeededOf lane.eventType name s.adminEvents := by
  obtain ⟨added, hevents, hadded⟩ := h.events
  have hnone : added.countP (fun event => event.succeeds lane.eventType name) = 0 := by
    refine List.countP_eq_zero.mpr fun event hevent => ?_
    rw [hadded event hevent name]
    exact Bool.false_ne_true
  unfold Admin.succeededOf
  rw [hevents, List.countP_append, hnone, Nat.add_zero]

theorem Spared.audited (h : Spared lane s t) (hs : Audited s lane) : Audited t lane := by
  cases lane with
  | settings =>
    obtain ⟨hlegible, hversions⟩ := hs
    have hrows := h.settings rfl
    refine ⟨hrows ▸ hlegible, fun row hrow => ?_⟩
    rw [hrows] at hrow
    rw [hversions row hrow]
    exact congrArg (fun n : Nat => 1 + (n : Int)) (h.succeededOf row.settingKey).symm
  | adapters =>
    obtain ⟨hlegible, hversions⟩ := hs
    have hrows := h.adapters rfl
    refine ⟨hrows ▸ hlegible, fun row hrow => ?_⟩
    rw [hrows] at hrow
    rw [hversions row hrow]
    exact congrArg (fun n : Nat => 1 + (n : Int)) (h.succeededOf row.adapterName).symm

/-! ## Events -/

/-- The event of one call: at most one, of this kind. -/
structure Records (eventType : AdminEventType) (outcome : AdminOutcome) (name : String)
    (event : AdminEvent) : Prop where
  eventType : event.eventType = eventType
  outcome : event.outcome = outcome
  name : event.details.name = name

theorem insertEvent_eq {a : AdminAnswer} {eventType : AdminEventType} {actor : AdminActor}
    {outcome : AdminOutcome} {details : AdminDetails}
    (h : insertEvent a eventType actor outcome details s = some t) :
    ∃ event, Records eventType outcome details.name event ∧
      t = { s with adminEvents := s.adminEvents ++ [event] } := by
  obtain ⟨occurredAt, -, h⟩ := Option.bind_eq_some_iff.mp h
  split at h
  · cases h
  · cases h
    exact ⟨_, ⟨rfl, rfl, rfl⟩, rfl⟩

/-- A transaction has its effect or none, and its effect when it commits. -/
theorem commitEvent_cases (a : AdminAnswer) (s : AdminState x) (done : Option (AdminState x)) :
    ((commitEvent a s done).2 = s ∧ (commitEvent a s done).1 = false) ∨
      done = some (commitEvent a s done).2 := by
  cases done with
  | none => exact Or.inl ⟨rfl, rfl⟩
  | some t =>
    dsimp only [commitEvent]
    by_cases hcommits : a.commits = true
    · rw [if_pos hcommits]
      exact Or.inr rfl
    · rw [if_neg hcommits]
      by_cases happlies : a.applies = true
      · rw [if_pos happlies]
        exact Or.inr rfl
      · rw [if_neg happlies]
        exact Or.inl ⟨rfl, rfl⟩

/-- What `append` does. -/
inductive Appended (s : AdminState x) (eventType : AdminEventType) (outcome : AdminOutcome)
    (name : String) : Bool → AdminState x → Prop where
  | nothing : Appended s eventType outcome name false s
  | event (event : AdminEvent) (replied : Bool) (h : Records eventType outcome name event) :
      Appended s eventType outcome name replied
        { s with adminEvents := s.adminEvents ++ [event] }

theorem serve_append (eventType : AdminEventType) (actor : AdminActor) (outcome : AdminOutcome)
    (details : AdminDetails) (a : AdminAnswer) (s : AdminState x) :
    Appended s eventType outcome details.name
      (serveAdmin (.append eventType actor outcome details) a s).1.isSome
      (serveAdmin (.append eventType actor outcome details) a s).2 := by
  dsimp only [serveAdmin]
  by_cases hbegins : a.begins = true
  · rw [if_pos hbegins]
    rcases commitEvent_cases a s (insertEvent a eventType actor outcome details s) with
      ⟨hsame, hfalse⟩ | hdone
    · rw [hsame, hfalse]
      exact .nothing
    · obtain ⟨event, hevent, ht⟩ := insertEvent_eq hdone
      rw [ht]
      exact .event event _ hevent
  · rw [if_neg hbegins]
    exact .nothing

/-- An answer means that the event is there. -/
theorem append_eq {eventType : AdminEventType} {actor : AdminActor} {outcome : AdminOutcome}
    {details : AdminDetails} {a : AdminAnswer} {value : Unit}
    (h : (serveAdmin (.append eventType actor outcome details) a s).1 = some value) :
    ∃ event, Records eventType outcome details.name event ∧
      (serveAdmin (.append eventType actor outcome details) a s).2 =
        { s with adminEvents := s.adminEvents ++ [event] } := by
  have happended := serve_append eventType actor outcome details a s
  rw [h] at happended
  generalize (serveAdmin (.append eventType actor outcome details) a s).2 = t at happended ⊢
  cases happended with
  | event event _ hevent => exact ⟨event, hevent, rfl⟩

/-- What a transaction on a row does. -/
inductive Wrote (s : AdminState x) (written : Option (AdminState x)) (eventType : AdminEventType)
    (name : String) : WriteResult → AdminState x → Prop where
  | nothing (result : WriteResult) (h : result ≠ .committed) : Wrote s written eventType name result s
  | event (t : AdminState x) (event : AdminEvent) (result : WriteResult) (hwritten : written = some t)
      (hresult : result = .committed ∨ result = .failed)
      (h : Records eventType .succeeded name event) :
      Wrote s written eventType name result { t with adminEvents := t.adminEvents ++ [event] }

theorem writeRow_wrote (a : AdminAnswer) (s : AdminState x) (written : Option (AdminState x))
    (eventType : AdminEventType) (actor : AdminActor) (name : String) :
    Wrote s written eventType name (writeRow a s written eventType actor name).1
      (writeRow a s written eventType actor name).2 := by
  have hrollback : ∀ result, result ≠ WriteResult.committed →
      (if a.rollsBack = true then result else .failed) ≠ .committed := by
    intro result hresult
    split
    · exact hresult
    · exact nofun
  unfold writeRow
  by_cases hbegins : a.begins = true
  · by_cases hwrites : a.writes = true
    · simp only [hbegins, hwrites, Bool.not_true, Bool.false_eq_true, if_false]
      cases written with
      | none => exact .nothing _ (hrollback .stale nofun)
      | some t =>
        dsimp only
        rcases commitEvent_cases a s (insertEvent a eventType actor .succeeded
          (detailsOf name true none) t) with ⟨hsame, hfalse⟩ | hdone
        · rw [hsame, hfalse]
          exact .nothing _ nofun
        · obtain ⟨event, hevent, ht⟩ := insertEvent_eq hdone
          rw [ht]
          refine .event t event _ rfl ?_ hevent
          split
          · exact Or.inl rfl
          · exact Or.inr rfl
    · simp only [hbegins, hwrites, Bool.not_true, Bool.not_false, Bool.false_eq_true, if_false,
        if_true]
      exact .nothing _ (hrollback .writeFailed nofun)
  · simp only [hbegins, Bool.not_false, if_true]
    exact .nothing _ nofun

section

variable {eventType : AdminEventType} {outcome : AdminOutcome} {name : String} {event : AdminEvent}

theorem Records.counts (h : Records eventType .succeeded name event) (events : List AdminEvent)
    (other : String) : (succeededOf eventType other (events ++ [event]) : Int) =
      succeededOf eventType other events + if name = other then 1 else 0 := by
  have hsucceeds : event.succeeds eventType other = decide (name = other) := by
    simp [AdminEvent.succeeds, h.eventType, h.outcome, h.name]
  unfold succeededOf
  rw [List.countP_append, List.countP_singleton, hsucceeds]
  by_cases hname : name = other
  · simp [hname]
  · simp [hname]

theorem Records.spares (h : Records eventType outcome name event)
    (hother : eventType ≠ lane.eventType ∨ outcome ≠ .succeeded) (other : String) :
    event.succeeds lane.eventType other = false := by
  unfold AdminEvent.succeeds
  rcases hother with htype | houtcome
  · simp [h.eventType, htype]
  · simp [h.outcome, houtcome]

theorem Records.spared (h : Records eventType outcome name event)
    (hother : eventType ≠ lane.eventType ∨ outcome ≠ .succeeded) :
    Spared lane s { s with adminEvents := s.adminEvents ++ [event] } where
  settings := fun _ => rfl
  adapters := fun _ => rfl
  events := by
    refine ⟨[event], rfl, fun e he => ?_⟩
    obtain rfl := List.mem_singleton.mp he
    exact h.spares hother

theorem Appended.spared {replied : Bool} (h : Appended s eventType outcome name replied t)
    (hother : eventType ≠ lane.eventType ∨ outcome ≠ .succeeded) : Spared lane s t := by
  cases h with
  | nothing => exact .refl lane s
  | event event _ hevent => exact hevent.spared hother

end

theorem Spared.trans {u : AdminState x} (h : Spared lane s t) (h' : Spared lane t u) :
    Spared lane s u where
  settings := fun hlane => (h'.settings hlane).trans (h.settings hlane)
  adapters := fun hlane => (h'.adapters hlane).trans (h.adapters hlane)
  events := by
    obtain ⟨added, hevents, hadded⟩ := h.events
    obtain ⟨added', hevents', hadded'⟩ := h'.events
    refine ⟨added ++ added', by rw [hevents', hevents, List.append_assoc], fun event hevent => ?_⟩
    rcases List.mem_append.mp hevent with hevent | hevent
    · exact hadded event hevent
    · exact hadded' event hevent

/-! ## Writes -/

theorem writeSettingRow_eq {key : String} {value : I64} {expectedVersion : Int}
    {occurredAt actorId : String}
    (h : writeSettingRow s key value expectedVersion occurredAt actorId = some t) :
    ∃ row updated, s.runtimeSettings.find? key = some row ∧ updated.settingKey = row.settingKey ∧
      updated.version = row.version + 1 ∧ updated.valueJson = .ofInt value.val ∧
        t = { s with runtimeSettings := s.runtimeSettings.replace updated } := by
  unfold writeSettingRow at h
  cases hrow : s.runtimeSettings.find? key with
  | none =>
    rw [hrow] at h
    cases h
  | some row =>
    rw [hrow] at h
    dsimp only at h
    split at h
    · obtain rfl := Option.some.inj h
      exact ⟨row, { row with valueJson := .ofInt value.val, version := row.version + 1,
                             updatedAt := occurredAt, updatedBy := actorId },
        rfl, rfl, rfl, rfl, rfl⟩
    · cases h

theorem writeAdapterRow_eq {adapterName : String} {enabled : Bool} {configJson : ConfigJson}
    {expectedVersion : Int} {occurredAt actorId : String}
    (h : writeAdapterRow s adapterName enabled configJson expectedVersion occurredAt actorId =
      some t) :
    ∃ row updated, s.adapterConfigs.find? adapterName = some row ∧
      updated.adapterName = row.adapterName ∧ updated.version = row.version + 1 ∧
        updated.configJson = configJson ∧
          t = { s with adapterConfigs := s.adapterConfigs.replace updated } := by
  unfold writeAdapterRow at h
  cases hrow : s.adapterConfigs.find? adapterName with
  | none =>
    rw [hrow] at h
    cases h
  | some row =>
    rw [hrow] at h
    dsimp only at h
    split at h
    · obtain rfl := Option.some.inj h
      exact ⟨row, { row with enabled := enabled, configJson := configJson,
                             version := row.version + 1, updatedAt := occurredAt,
                             updatedBy := actorId }, rfl, rfl, rfl, rfl, rfl⟩
    · cases h

/-- **A setting that is written is counted.** -/
theorem writeSettingRow_audited {key : String} {value : I64} {expectedVersion : Int}
    {occurredAt actorId : String} {event : AdminEvent}
    (h : writeSettingRow s key value expectedVersion occurredAt actorId = some t)
    (hevent : Records .runtimeSettingUpdated .succeeded key event) (hs : Audited s .settings) :
    Audited { t with adminEvents := t.adminEvents ++ [event] } .settings := by
  obtain ⟨row, updated, hrow, hkey, hversion, hjson, rfl⟩ := writeSettingRow_eq h
  obtain ⟨⟨hdecodes, hcomplete⟩, hversions⟩ := hs
  obtain ⟨hmem, hrowkey⟩ := Table.find?_eq_some.mp hrow
  have hname : updated.settingKey = key := hkey.trans hrowkey
  refine ⟨⟨fun b hb => ?_, fun name hname => ?_⟩, fun b hb => ?_⟩
  · rcases Table.mem_replace.mp hb with ⟨hb, -⟩ | ⟨rfl, -⟩
    · exact hdecodes b hb
    · refine settingOf_written value ?_ hjson
      rw [hkey]
      exact isKnownSetting_of_decodes (hdecodes row hmem)
  · show name ∈ (s.runtimeSettings.replace updated).rows.map SettingRow.settingKey
    rw [Table.map_key_replace]
    exact hcomplete name hname
  · rw [hevent.counts]
    rcases Table.mem_replace.mp hb with ⟨hb, hother⟩ | ⟨rfl, -⟩
    · rw [if_neg fun heq => hother (heq.symm.trans hname.symm), hversions b hb]
      exact congrArg (1 + ·) (Int.add_zero _).symm
    · rw [if_pos hname.symm, hversion, hversions row hmem, hkey]
      exact Int.add_assoc _ _ _

/-- **An adapter that is written is counted.** -/
theorem writeAdapterRow_audited {adapterName : String} {enabled : Bool} {configJson : ConfigJson}
    {expectedVersion : Int} {occurredAt actorId : String} {event : AdminEvent}
    (h : writeAdapterRow s adapterName enabled configJson expectedVersion occurredAt actorId =
      some t)
    (hdecodes : ∃ configuration, decodeConfiguration adapterName configJson = .ok configuration)
    (hevent : Records .adapterConfigUpdated .succeeded adapterName event)
    (hs : Audited s .adapters) :
    Audited { t with adminEvents := t.adminEvents ++ [event] } .adapters := by
  obtain ⟨row, updated, hrow, hkey, hversion, hjson, rfl⟩ := writeAdapterRow_eq h
  obtain ⟨⟨hrows, hnames⟩, hversions⟩ := hs
  obtain ⟨hmem, hrowkey⟩ := Table.find?_eq_some.mp hrow
  have hname : updated.adapterName = adapterName := hkey.trans hrowkey
  refine ⟨⟨fun b hb => ?_, ?_⟩, fun b hb => ?_⟩
  · rcases Table.mem_replace.mp hb with ⟨hb, -⟩ | ⟨rfl, -⟩
    · exact hrows b hb
    · rw [adapterViewOf_ok, hname, hjson]
      exact hdecodes
  · show sortedNames ((s.adapterConfigs.replace updated).rows.map AdapterRow.adapterName) = _
    rw [Table.map_key_replace]
    exact hnames
  · rw [hevent.counts]
    rcases Table.mem_replace.mp hb with ⟨hb, hother⟩ | ⟨rfl, -⟩
    · rw [if_neg fun heq => hother (heq.symm.trans hname.symm), hversions b hb]
      exact congrArg (1 + ·) (Int.add_zero _).symm
    · rw [if_pos hname.symm, hversion, hversions row hmem, hkey]
      exact Int.add_assoc _ _ _

section

variable {written : Option (AdminState x)} {eventType : AdminEventType} {name : String}
  {result : WriteResult}

theorem Wrote.spared (h : Wrote s written eventType name result t)
    (hwritten : ∀ u, written = some u → Spared lane s u) (hother : eventType ≠ lane.eventType) :
    Spared lane s t := by
  cases h with
  | nothing => exact .refl lane s
  | event u event _ hu _ hevent => exact (hwritten u hu).trans (hevent.spared (Or.inl hother))

theorem Wrote.audited (h : Wrote s written eventType name result t) (hs : Audited s lane)
    (hwritten : ∀ u event, written = some u → Records eventType .succeeded name event →
      Audited { u with adminEvents := u.adminEvents ++ [event] } lane) : Audited t lane := by
  cases h with
  | nothing => exact hs
  | event u event _ hu _ hevent => exact hwritten u event hu hevent

/-- A transaction that was rolled back has changed nothing. -/
theorem Wrote.unchanged (h : Wrote s written eventType name result t)
    (hresult : result = .stale ∨ result = .writeFailed) : t = s := by
  cases h with
  | nothing => rfl
  | event _ _ _ _ hdone _ => rcases hresult with rfl | rfl <;> rcases hdone with h | h <;> cases h

end

/-! ## Calls -/

theorem serve_writeSetting (key : String) (value : I64) (expectedVersion : Int)
    (occurredAt : String) (actor : AdminActor) (a : AdminAnswer) (s : AdminState x) :
    serveAdmin (.writeSetting key value expectedVersion occurredAt actor) a s =
      replied (writeRow a s (writeSettingRow s key value expectedVersion occurredAt actor.actorId)
        .runtimeSettingUpdated actor key) :=
  rfl

theorem serve_writeAdapter (adapterName : String) (enabled : Bool) (configJson : ConfigJson)
    (expectedVersion : Int) (occurredAt : String) (actor : AdminActor) (a : AdminAnswer)
    (s : AdminState x) :
    serveAdmin (.writeAdapter adapterName enabled configJson expectedVersion occurredAt actor) a s =
      replied (writeRow a s
        (writeAdapterRow s adapterName enabled configJson expectedVersion occurredAt actor.actorId)
        .adapterConfigUpdated actor adapterName) :=
  rfl

/-- A setting that is not written is as it was. -/
theorem writeSetting_unchanged {key : String} {value : I64} {expectedVersion : Int}
    {occurredAt : String} {actor : AdminActor} {a : AdminAnswer} {result : WriteResult}
    (h : (serveAdmin (.writeSetting key value expectedVersion occurredAt actor) a s).1 =
      some result) (hresult : result = .stale ∨ result = .writeFailed) :
    (serveAdmin (.writeSetting key value expectedVersion occurredAt actor) a s).2 = s := by
  rw [serve_writeSetting] at h ⊢
  obtain rfl := Option.some.inj h
  exact (writeRow_wrote a s _ .runtimeSettingUpdated actor key).unchanged hresult

/-- An adapter that is not written is as it was. -/
theorem writeAdapter_unchanged {adapterName : String} {enabled : Bool} {configJson : ConfigJson}
    {expectedVersion : Int} {occurredAt : String} {actor : AdminActor} {a : AdminAnswer}
    {result : WriteResult}
    (h : (serveAdmin (.writeAdapter adapterName enabled configJson expectedVersion occurredAt actor)
      a s).1 = some result) (hresult : result = .stale ∨ result = .writeFailed) :
    (serveAdmin (.writeAdapter adapterName enabled configJson expectedVersion occurredAt actor)
      a s).2 = s := by
  rw [serve_writeAdapter] at h ⊢
  obtain rfl := Option.some.inj h
  exact (writeRow_wrote a s _ .adapterConfigUpdated actor adapterName).unchanged hresult

/-- Every update is in the lane of its event. -/
theorem eventType_eq_iff {eventType : AdminEventType} :
    eventType = lane.eventType ↔ eventType.lane = lane := by
  cases eventType <;> cases lane <;> decide

theorem writeSettingRow_spared {key : String} {value : I64} {expectedVersion : Int}
    {occurredAt actorId : String}
    (h : writeSettingRow s key value expectedVersion occurredAt actorId = some t) :
    Spared .adapters s t := by
  obtain ⟨_, _, _, _, _, _, rfl⟩ := writeSettingRow_eq h
  exact ⟨nofun, fun _ => rfl, [], (List.append_nil _).symm, fun _ h => (List.not_mem_nil h).elim⟩

theorem writeAdapterRow_spared {adapterName : String} {enabled : Bool} {configJson : ConfigJson}
    {expectedVersion : Int} {occurredAt actorId : String}
    (h : writeAdapterRow s adapterName enabled configJson expectedVersion occurredAt actorId =
      some t) : Spared .settings s t := by
  obtain ⟨_, _, _, _, _, _, rfl⟩ := writeAdapterRow_eq h
  exact ⟨fun _ => rfl, nofun, [], (List.append_nil _).symm, fun _ h => (List.not_mem_nil h).elim⟩

/-- **The calls of the other lane leave a lane alone.** -/
theorem serveAdmin_spared {k : AdminCall x} (hk : k.inLane lane = false) (a : AdminAnswer)
    (s : AdminState x) : Spared lane s (serveAdmin k a s).2 := by
  cases k with
  | listSettings | listAdapters | now | candidate => exact .refl lane s
  | publish snapshot =>
    exact ⟨fun _ => rfl, fun _ => rfl, [], (List.append_nil _).symm,
      fun _ h => (List.not_mem_nil h).elim⟩
  | append eventType actor outcome details =>
    have hlane : eventType.lane ≠ lane := fun h => by simp [AdminCall.inLane, h] at hk
    exact (serve_append eventType actor outcome details a s).spared
      (Or.inl fun h => hlane (eventType_eq_iff.mp h))
  | writeSetting key value expectedVersion occurredAt actor =>
    obtain rfl : lane = .adapters := by
      cases lane with
      | settings => simp [AdminCall.inLane] at hk
      | adapters => rfl
    exact (writeRow_wrote a s _ .runtimeSettingUpdated actor key).spared
      (fun _ => writeSettingRow_spared) nofun
  | writeAdapter adapterName enabled configJson expectedVersion occurredAt actor =>
    obtain rfl : lane = .settings := by
      cases lane with
      | settings => rfl
      | adapters => simp [AdminCall.inLane] at hk
    exact (writeRow_wrote a s _ .adapterConfigUpdated actor adapterName).spared
      (fun _ => writeAdapterRow_spared) nofun

/-- Successes are recorded by writes only, and an adapter is given what can be read. -/
def AdminCall.Proper : AdminCall x → Prop
  | .append _ _ outcome _ => outcome ≠ .succeeded
  | .writeAdapter adapterName _ configJson .. =>
    ∃ configuration, decodeConfiguration adapterName configJson = .ok configuration
  | _ => True

/-- **Every proper call keeps a lane audited.** -/
theorem serveAdmin_audited {k : AdminCall x} (hk : k.Proper) (a : AdminAnswer)
    (hs : Audited s lane) : Audited (serveAdmin k a s).2 lane := by
  by_cases hlane : k.inLane lane = false
  · exact (serveAdmin_spared hlane a s).audited hs
  · cases k with
    | listSettings | listAdapters | now | candidate => exact hs
    | publish snapshot =>
      cases lane with
      | settings => exact hs
      | adapters => exact hs
    | append eventType actor outcome details =>
      exact ((serve_append eventType actor outcome details a s).spared (Or.inr hk)).audited hs
    | writeSetting key value expectedVersion occurredAt actor =>
      obtain rfl : lane = .settings := by
        cases lane with
        | settings => rfl
        | adapters => simp [AdminCall.inLane] at hlane
      exact (writeRow_wrote a s _ .runtimeSettingUpdated actor key).audited hs
        fun _ _ hwritten hevent => writeSettingRow_audited hwritten hevent hs
    | writeAdapter adapterName enabled configJson expectedVersion occurredAt actor =>
      obtain rfl : lane = .adapters := by
        cases lane with
        | settings => simp [AdminCall.inLane] at hlane
        | adapters => rfl
      exact (writeRow_wrote a s _ .adapterConfigUpdated actor adapterName).audited hs
        fun _ _ hwritten hevent => writeAdapterRow_audited hwritten hk hevent hs

/-- **No event is changed or removed.** -/
theorem serveAdmin_events (k : AdminCall x) (a : AdminAnswer) (s : AdminState x) :
    s.adminEvents <+: (serveAdmin k a s).2.adminEvents := by
  have hspared : ∀ lane, k.inLane lane = false →
      s.adminEvents <+: (serveAdmin k a s).2.adminEvents := by
    intro lane hlane
    obtain ⟨added, hadded, -⟩ := (serveAdmin_spared hlane a s).events
    exact ⟨added, hadded.symm⟩
  cases k with
  | now => exact List.prefix_rfl
  | listSettings | writeSetting => exact hspared .adapters rfl
  | listAdapters | candidate | writeAdapter | publish => exact hspared .settings rfl
  | append eventType actor outcome details =>
    cases eventType with
    | runtimeSettingUpdated => exact hspared .adapters rfl
    | adapterConfigUpdated => exact hspared .settings rfl

end RemindiCore.Admin
