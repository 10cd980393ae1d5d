import RemindiCore.Admin.Startup
import RemindiCore.Proof.AdminAudit

/-!
# The settings validators agree

Settings that have one row each, with a value that is large enough, and a lease of
more than two polls (`Adequate`) pass each of the four checks that were written for
them.  The candidate check admits only values that keep them so, and an update writes
what it has checked: its lock keeps other updates of settings away.
-/

namespace RemindiCore.Admin

open Fallible JsonText KeyedTable Machine Transaction Triggers

variable {x : UrlCrate}

abbrev SettingTable := Table SettingRow.settingKey

abbrev pollKey : String := "scheduler.poll_interval_seconds"

abbrev leaseKey : String := "scheduler.lease_seconds"

/-! ## Adequate settings -/

/-- Every setting has a row, and the values go together. -/
structure Adequate (t : SettingTable) : Prop where
  keys : (t.rows.map SettingRow.settingKey).Perm (settingDefinitions.map SettingDefinition.key)
  values : ∀ definition ∈ settingDefinitions, ∃ value,
    settingValue t.rows definition.key = some value ∧ definition.minimum ≤ value
  lease : ∀ poll lease, settingValue t.rows pollKey = some poll →
    settingValue t.rows leaseKey = some lease → poll * 2 < lease

theorem settingDefinition_eq_some {key : String} {definition : SettingDefinition}
    (h : settingDefinition key = some definition) :
    definition ∈ settingDefinitions ∧ definition.key = key :=
  ⟨List.mem_of_find?_eq_some h, by simpa using List.find?_some h⟩

theorem settingDefinition_of_mem {definition : SettingDefinition}
    (h : definition ∈ settingDefinitions) : settingDefinition definition.key = some definition := by
  have hall : ∀ definition ∈ settingDefinitions,
      (settingDefinition definition.key).map (fun d => (d.key, d.minimum)) =
        some (definition.key, definition.minimum) := by
    decide
  obtain ⟨found, hfound, heq⟩ := Option.map_eq_some_iff.mp (hall definition h)
  rw [Prod.mk.injEq] at heq
  rw [hfound]
  cases found
  cases definition
  simp_all

theorem settingValue_of_mem {t : SettingTable} {row : SettingRow} (h : row ∈ t.rows) :
    settingValue t.rows row.settingKey = rowValue row := by
  have hfound : t.rows.find? (fun b => b.settingKey = row.settingKey) = some row :=
    Table.find?_of_mem h
  unfold settingValue
  rw [hfound]
  rfl

/-- Each row is one of a setting, and holds an integer that is large enough. -/
theorem Adequate.row {t : SettingTable} (h : Adequate t) {row : SettingRow} (hrow : row ∈ t.rows) :
    ∃ definition ∈ settingDefinitions, definition.key = row.settingKey ∧
      ∃ value, rowValue row = some value ∧ definition.minimum ≤ value := by
  have hkey := h.keys.mem_iff.mp (List.mem_map_of_mem (f := SettingRow.settingKey) hrow)
  obtain ⟨definition, hdefinition, heq⟩ := List.mem_map.mp hkey
  obtain ⟨value, hvalue, hminimum⟩ := h.values definition hdefinition
  rw [heq, settingValue_of_mem hrow] at hvalue
  exact ⟨definition, hdefinition, heq, value, hvalue, hminimum⟩

/-- The value of a setting with this minimum. -/
theorem Adequate.value {t : SettingTable} (h : Adequate t) (key : String) {minimum : Int}
    (hkey : (settingDefinition key).map SettingDefinition.minimum = some minimum) :
    ∃ value, settingValue t.rows key = some value ∧ minimum ≤ value := by
  obtain ⟨definition, hfound, rfl⟩ := Option.map_eq_some_iff.mp hkey
  obtain ⟨hdefinition, rfl⟩ := settingDefinition_eq_some hfound
  exact h.values definition hdefinition

theorem rowValue_bounds {row : SettingRow} {value : Int} (h : rowValue row = some value) :
    -(2 ^ 63) ≤ value ∧ value < 2 ^ 63 := by
  obtain ⟨integer, -, rfl⟩ := Option.map_eq_some_iff.mp h
  exact ⟨integer.lower, integer.upper⟩

theorem settingValue_bounds {rows : List SettingRow} {key : String} {value : Int}
    (h : settingValue rows key = some value) : -(2 ^ 63) ≤ value ∧ value < 2 ^ 63 := by
  obtain ⟨row, -, hvalue⟩ := Option.bind_eq_some_iff.mp h
  exact rowValue_bounds hvalue

/-- **Saturation does not matter**: what exceeds the saturated product exceeds the product. -/
theorem doubled_lt {poll lease : Int} (hpoll : 0 < poll) (hlease : lease < 2 ^ 63) :
    doubled poll < lease ↔ poll * 2 < lease := by
  unfold doubled I64.max
  omega

/-! ## Reading -/

theorem settingOf_value {row : SettingRow} {setting : RuntimeSetting}
    (h : settingOf row = .ok setting) : rowValue row = some setting.value.val := by
  unfold settingOf at h
  unfold rowValue
  split at h
  · next hvalue =>
    cases h
    rw [hvalue]
    rfl
  · cases h

theorem settingOf_ok {row : SettingRow} {value : Int} (hknown : isKnownSetting row.settingKey = true)
    (hvalue : rowValue row = some value) : ∃ setting, settingOf row = .ok setting := by
  obtain ⟨definition, hdefinition⟩ := Option.isSome_iff_exists.mp hknown
  obtain ⟨integer, hinteger, -⟩ := Option.map_eq_some_iff.mp hvalue
  unfold settingOf
  rw [hdefinition, hinteger]
  exact ⟨_, rfl⟩

/-- A lookup in what was read of the rows, in any order. -/
theorem find?_of_mapM {rows : List SettingRow} {settings : List RuntimeSetting}
    (h : rows.mapM settingOf = .ok settings) (key : String) :
    (settings.find? (·.key = key)).map (·.value.val) = settingValue rows key := by
  have hall := forall₂_of_mapM_ok h
  clear h
  induction hall with
  | nil => rfl
  | @cons row setting rows settings hrow _ ih =>
    have hkey := settingOf_key hrow
    unfold settingValue at ih ⊢
    rw [List.find?_cons, List.find?_cons, hkey]
    by_cases heq : row.settingKey = key
    · simp only [heq, decide_true]
      exact (settingOf_value hrow).symm
    · simp only [heq, decide_false]
      exact ih

theorem settingValue_sorted (t : SettingTable) (key : String) :
    settingValue (t.rows.insertionSort fun a b => a.settingKey ≤ b.settingKey) key =
      settingValue t.rows key := by
  have hperm := t.rows.perm_insertionSort fun a b => a.settingKey ≤ b.settingKey
  let sorted : SettingTable := ⟨_, (hperm.map SettingRow.settingKey).nodup_iff.mpr t.nodup⟩
  have hfind : sorted.find? key = t.find? key := by
    ext row
    rw [Table.find?_eq_some, Table.find?_eq_some]
    exact and_congr_left fun _ => hperm.mem_iff
  exact congrArg (·.bind rowValue) hfind

/-- **The settings that were read have the values of the rows.** -/
theorem decodeSettings_value {t : SettingTable} {settings : List RuntimeSetting}
    (h : decodeSettings t.rows = .ok settings) (key : String) :
    (settings.find? (·.key = key)).map (·.value.val) = settingValue t.rows key :=
  (find?_of_mapM h key).trans (settingValue_sorted t key)

theorem Adequate.known {t : SettingTable} (h : Adequate t) {row : SettingRow}
    (hrow : row ∈ t.rows) : isKnownSetting row.settingKey = true := by
  obtain ⟨definition, hdefinition, hkey, -⟩ := h.row hrow
  unfold isKnownSetting
  rw [← hkey, settingDefinition_of_mem hdefinition]
  rfl

theorem Adequate.decodes {t : SettingTable} (h : Adequate t) :
    ∃ settings, decodeSettings t.rows = .ok settings := by
  refine except_mapM_ok fun row hrow => ?_
  have hrow := (List.mem_insertionSort _).mp hrow
  obtain ⟨_, _, _, value, hvalue, _⟩ := h.row hrow
  exact settingOf_ok (h.known hrow) hvalue

/-! ## Candidates -/

theorem settingValue_eq (t : SettingTable) (key : String) :
    settingValue t.rows key = (t.find? key).bind rowValue := rfl

section

variable {t : SettingTable} {settings : List RuntimeSetting} {row updated : SettingRow}
  {value : I64}

theorem settingValue_replace (hrow : t.find? updated.settingKey = some row)
    (hvalue : rowValue updated = some value.val) (name : String) :
    settingValue (t.replace updated).rows name =
      if name = updated.settingKey then some value.val else settingValue t.rows name := by
  rw [settingValue_eq, settingValue_eq, Table.find?_replace hrow]
  by_cases hname : name = updated.settingKey
  · rw [if_pos hname, if_pos hname.symm]
    exact hvalue
  · rw [if_neg hname, if_neg fun h => hname h.symm]

/-- The values that a candidate is checked with are those of the rows after the update. -/
theorem candidateValue_eq (hdecode : decodeSettings t.rows = .ok settings)
    (hrow : t.find? updated.settingKey = some row) (hvalue : rowValue updated = some value.val)
    (name : String) : candidateValue settings updated.settingKey value name =
      settingValue (t.replace updated).rows name := by
  rw [settingValue_replace hrow hvalue]
  unfold candidateValue
  by_cases hname : name = updated.settingKey
  · rw [if_pos hname, if_pos hname]
  · rw [if_neg hname, if_neg hname]
    exact decodeSettings_value hdecode name

/-- What `validate_candidate` asks for. -/
theorem validateCandidate_ok_iff {key : String} {definition : SettingDefinition}
    (hdefinition : settingDefinition key = some definition) {poll lease concurrency : Int}
    (hpoll : candidateValue settings key value pollKey = some poll)
    (hlease : candidateValue settings key value leaseKey = some lease)
    (hconcurrency : candidateValue settings key value "adapters.max_concurrency" = some concurrency) :
    validateCandidate settings key value = .ok () ↔
      definition.minimum ≤ value.val ∧ doubled poll < lease ∧ 0 ≤ concurrency := by
  have hpoll' : candidateValue settings key value "scheduler.poll_interval_seconds" = some poll :=
    hpoll
  have hlease' : candidateValue settings key value "scheduler.lease_seconds" = some lease := hlease
  unfold validateCandidate
  rw [hdefinition]
  dsimp only
  rw [hpoll', hlease', hconcurrency]
  dsimp only
  by_cases hminimum : value.val < definition.minimum
  · rw [if_pos hminimum]
    refine ⟨nofun, fun h => ?_⟩
    omega
  · rw [if_neg hminimum]
    by_cases hle : lease ≤ doubled poll
    · rw [if_pos hle]
      refine ⟨nofun, fun h => ?_⟩
      omega
    · rw [if_neg hle]
      by_cases hneg : concurrency < 0
      · rw [if_pos hneg]
        refine ⟨nofun, fun h => ?_⟩
        omega
      · rw [if_neg hneg]
        exact ⟨fun _ => ⟨by omega, by omega, by omega⟩, fun _ => rfl⟩

/-- **The candidate check admits exactly the values that keep the settings adequate.** -/
theorem validateCandidate_adequate (ht : Adequate t) (hdecode : decodeSettings t.rows = .ok settings)
    (hrow : t.find? updated.settingKey = some row) (hvalue : rowValue updated = some value.val) :
    validateCandidate settings updated.settingKey value = .ok () ↔ Adequate (t.replace updated) := by
  obtain ⟨hmem, hkey⟩ := Table.find?_eq_some.mp hrow
  obtain ⟨own, hown, hownkey, -⟩ := ht.row hmem
  rw [hkey] at hownkey
  have hdefinition : settingDefinition updated.settingKey = some own := by
    rw [← hownkey]
    exact settingDefinition_of_mem hown
  have hafter := settingValue_replace hrow hvalue
  have hcandidate : ∀ name, candidateValue settings updated.settingKey value name =
      settingValue (t.replace updated).rows name := candidateValue_eq hdecode hrow hvalue
  -- every setting keeps a value, and the others keep their own
  have hvalues : ∀ key, isKnownSetting key = true →
      ∃ current, settingValue (t.replace updated).rows key = some current := by
    intro key hknown
    obtain ⟨definition, hfound⟩ := Option.isSome_iff_exists.mp hknown
    obtain ⟨hdefinition, rfl⟩ := settingDefinition_eq_some hfound
    obtain ⟨current, hcurrent, -⟩ := ht.values definition hdefinition
    rw [hafter]
    by_cases heq : definition.key = updated.settingKey
    · exact ⟨_, if_pos heq⟩
    · rw [if_neg heq]
      exact ⟨current, hcurrent⟩
  obtain ⟨poll, hpoll⟩ := hvalues pollKey (by decide)
  obtain ⟨lease, hlease⟩ := hvalues leaseKey (by decide)
  obtain ⟨concurrency, hconcurrency⟩ := hvalues "adapters.max_concurrency" (by decide)
  rw [validateCandidate_ok_iff hdefinition ((hcandidate _).trans hpoll)
    ((hcandidate _).trans hlease) ((hcandidate _).trans hconcurrency)]
  have hminima : own.minimum ≤ value.val → ∀ definition ∈ settingDefinitions, ∃ current,
      settingValue (t.replace updated).rows definition.key = some current ∧
        definition.minimum ≤ current := by
    intro hminimum definition hdefinition
    rw [hafter]
    by_cases heq : definition.key = updated.settingKey
    · have hsame := settingDefinition_of_mem hdefinition
      rw [heq, ‹settingDefinition updated.settingKey = some own›] at hsame
      obtain rfl := Option.some.inj hsame
      exact ⟨_, if_pos heq, hminimum⟩
    · rw [if_neg heq]
      exact ht.values definition hdefinition
  have hbound := (settingValue_bounds hlease).2
  constructor
  · rintro ⟨hminimum, hdoubled, -⟩
    have hall := hminima hminimum
    refine ⟨?_, hall, fun poll' lease' hpoll' hlease' => ?_⟩
    · rw [Table.map_key_replace]
      exact ht.keys
    · obtain rfl := Option.some.inj (hpoll.symm.trans hpoll')
      obtain rfl := Option.some.inj (hlease.symm.trans hlease')
      obtain ⟨definition, hfound, hone⟩ :
          ∃ definition, settingDefinition pollKey = some definition ∧ definition.minimum = 1 :=
        ⟨_, rfl, rfl⟩
      obtain ⟨hdefinition, hkey⟩ := settingDefinition_eq_some hfound
      obtain ⟨current, hcurrent, hpositive⟩ := hall definition hdefinition
      rw [hkey] at hcurrent
      obtain rfl := Option.some.inj (hpoll.symm.trans hcurrent)
      exact (doubled_lt (by omega) hbound).mp hdoubled
  · intro hadequate
    obtain ⟨current, hcurrent, hminimum⟩ := hadequate.values own hown
    rw [hafter, if_pos hownkey] at hcurrent
    obtain rfl := Option.some.inj hcurrent
    obtain ⟨current, hcurrent, (hpositive : (1 : Int) ≤ current)⟩ := hadequate.value pollKey rfl
    obtain rfl := Option.some.inj (hpoll.symm.trans hcurrent)
    obtain ⟨current, hcurrent, (hslots : (1 : Int) ≤ current)⟩ :=
      hadequate.value "adapters.max_concurrency" rfl
    obtain rfl := Option.some.inj (hconcurrency.symm.trans hcurrent)
    have hlt := hadequate.lease poll lease hpoll hlease
    exact ⟨hminimum, (doubled_lt (by omega) hbound).mpr hlt, by omega⟩

end

/-! ## The four checks -/

theorem validBootstrapValue_eq {definition : SettingDefinition} (h : definition ∈ settingDefinitions)
    (value : Int) :
    validBootstrapValue definition.key value = decide (definition.minimum ≤ value) := by
  have hall : ∀ definition ∈ settingDefinitions,
      definition.minimum = if definition.key = "remindi.default_overdue_seconds" then 0 else 1 := by
    decide
  unfold validBootstrapValue
  rw [hall definition h]
  by_cases hkey : definition.key = "remindi.default_overdue_seconds"
  · rw [if_pos hkey, if_pos hkey]
  · rw [if_neg hkey, if_neg hkey]
    exact decide_eq_decide.mpr (by omega)

section

variable {t : SettingTable}

/-- **The startup check of the migrations.** -/
theorem Adequate.startup (h : Adequate t) : validateRuntimeSettings t.rows = .ok () := by
  have hlength : t.rows.length = (seededSettings.map Prod.fst).length := by
    have hkeys := h.keys.length_eq
    rw [List.length_map] at hkeys
    rw [hkeys]
    rfl
  have hallowed : ∀ definition ∈ settingDefinitions,
      (seededSettings.map Prod.fst).contains definition.key = true := by
    decide
  have hknown : (t.rows.any fun row => !(seededSettings.map Prod.fst).contains row.settingKey) =
      false := by
    refine List.any_eq_false.mpr fun row hrow => ?_
    obtain ⟨definition, hdefinition, hkey, -⟩ := h.row hrow
    rw [← hkey, hallowed definition hdefinition]
    decide
  have hvalid : (t.rows.any fun row => !validBootstrapRow row) = false := by
    refine List.any_eq_false.mpr fun row hrow => ?_
    obtain ⟨definition, hdefinition, hkey, value, hvalue, hminimum⟩ := h.row hrow
    unfold validBootstrapRow
    rw [hvalue, ← hkey]
    dsimp only
    rw [validBootstrapValue_eq hdefinition, decide_eq_true hminimum]
    decide
  obtain ⟨poll, hpoll, (hpositive : (1 : Int) ≤ poll)⟩ := h.value pollKey rfl
  obtain ⟨lease, hlease, -⟩ := h.value leaseKey rfl
  have hlt := (doubled_lt (by omega) (settingValue_bounds hlease).2).mpr (h.lease _ _ hpoll hlease)
  have hpoll' : settingValue t.rows "scheduler.poll_interval_seconds" = some poll := hpoll
  have hlease' : settingValue t.rows "scheduler.lease_seconds" = some lease := hlease
  unfold validateRuntimeSettings
  dsimp only
  rw [if_neg (by rw [hknown]; simp [hlength]), if_neg (by rw [hvalid]; decide), hpoll', hlease']
  exact if_neg (by omega)

/-- A setting as it was read is a candidate that changes nothing. -/
theorem replace_same {row : SettingRow} (hrow : row ∈ t.rows) : t.replace row = t := by
  have hsame : (t.rows.map fun b => if b.settingKey = row.settingKey then row else b) = t.rows := by
    refine (List.map_congr_left fun b hb => ?_).trans (List.map_id _)
    by_cases hkey : b.settingKey = row.settingKey
    · rw [if_pos hkey, t.eq_of_key_eq hb hrow hkey]
      rfl
    · rw [if_neg hkey]
      rfl
  cases t
  unfold Table.replace
  simp only [hsame]

theorem mem_decodeSettings {settings : List RuntimeSetting}
    (hdecode : decodeSettings t.rows = .ok settings) {setting : RuntimeSetting}
    (hsetting : setting ∈ settings) : ∃ row ∈ t.rows, settingOf row = .ok setting := by
  obtain ⟨row, hrow, hread⟩ := mem_of_mapM_ok hdecode hsetting
  exact ⟨row, (List.mem_insertionSort _).mp hrow, hread⟩

theorem Adequate.candidates (h : Adequate t) {settings : List RuntimeSetting}
    (hdecode : decodeSettings t.rows = .ok settings) {setting : RuntimeSetting}
    (hsetting : setting ∈ settings) :
    validateCandidate settings setting.key setting.value = .ok () := by
  obtain ⟨row, hrow, hread⟩ := mem_decodeSettings hdecode hsetting
  rw [settingOf_key hread]
  refine (validateCandidate_adequate h hdecode (Table.find?_of_mem hrow)
    (settingOf_value hread)).mpr ?_
  rw [replace_same hrow]
  exact h

/-- **`AdminService::load`**, as far as the settings go. -/
theorem Adequate.load (h : Adequate t) {files : FileSystem} {adapters : List AdapterRow}
    {loaded : List AdapterConfigView × AdapterSnapshot x}
    (hadapters : loadAdapters x files adapters = .ok loaded) :
    Admin.load x files t.rows adapters = .ok loaded.2 := by
  obtain ⟨settings, hdecode⟩ := h.decodes
  have hlength : settings.length = 11 := by
    have hread := (forall₂_of_mapM_ok hdecode).length_eq
    have hkeys := h.keys.length_eq
    rw [List.length_map] at hkeys
    rw [← hread, List.length_insertionSort, hkeys]
    rfl
  obtain ⟨checked, hchecked⟩ := except_mapM_ok
    (f := fun setting => validateCandidate settings setting.key setting.value) (l := settings)
    fun setting hsetting => ⟨(), h.candidates hdecode hsetting⟩
  unfold Admin.load
  rw [hdecode]
  dsimp only [bind, Except.bind]
  rw [if_neg (by omega), hchecked, hadapters]

/-- A setting as `main` reads it. -/
theorem runtimeSetting_ok {settings : List RuntimeSetting}
    (hdecode : decodeSettings t.rows = .ok settings) {key : String} {value : Int}
    (hvalue : settingValue t.rows key = some value) (hpositive : 0 ≤ value) :
    runtimeSetting settings key = .ok value.toNat := by
  obtain ⟨setting, hfound, rfl⟩ :=
    Option.map_eq_some_iff.mp ((decodeSettings_value hdecode key).trans hvalue)
  unfold runtimeSetting
  rw [hfound]
  exact if_pos hpositive

/-- **The scheduler accepts its configuration.** -/
theorem Adequate.scheduler (h : Adequate t) {settings : List RuntimeSetting}
    (hdecode : decodeSettings t.rows = .ok settings) :
    ∃ config, schedulerConfig settings = .ok config ∧ config.validate = .ok () ∧
      config.leaseDuration ≤ fromSecs i64Max := by
  obtain ⟨poll, hpoll, (hpollMin : (1 : Int) ≤ poll)⟩ := h.value pollKey rfl
  obtain ⟨lease, hlease, (hleaseMin : (1 : Int) ≤ lease)⟩ := h.value leaseKey rfl
  obtain ⟨timeout, htimeout, (htimeoutMin : (1 : Int) ≤ timeout)⟩ :=
    h.value "adapters.timeout_seconds" rfl
  obtain ⟨slots, hslots, (hslotsMin : (1 : Int) ≤ slots)⟩ :=
    h.value "adapters.max_concurrency" rfl
  have hlt := h.lease _ _ hpoll hlease
  have hbound := (settingValue_bounds hlease).2
  have hpoll' : runtimeSetting settings "scheduler.poll_interval_seconds" = .ok poll.toNat :=
    runtimeSetting_ok hdecode hpoll (by omega)
  have hlease' : runtimeSetting settings "scheduler.lease_seconds" = .ok lease.toNat :=
    runtimeSetting_ok hdecode hlease (by omega)
  refine ⟨⟨fromSecs poll.toNat, fromSecs lease.toNat, fromSecs timeout.toNat, slots.toNat, 200⟩,
    ?_, ?_, ?_⟩
  · unfold schedulerConfig
    rw [hpoll', hlease', runtimeSetting_ok hdecode htimeout (by omega),
      runtimeSetting_ok hdecode hslots (by omega)]
    rfl
  · unfold SchedulerConfig.validate
    refine if_neg ?_
    dsimp only [fromSecs]
    omega
  · dsimp only [fromSecs, i64Max]
    omega

end

/-! ## Updates -/

/-- Every call but the writing of a setting. -/
def AdminCall.sparesSettings : AdminCall x → Bool
  | .writeSetting .. => false
  | _ => true

theorem serveAdmin_settings {k : AdminCall x} (hk : k.sparesSettings = true) (a : AdminAnswer)
    (s : AdminState x) : (serveAdmin k a s).2.runtimeSettings = s.runtimeSettings := by
  by_cases hlane : k.inLane .settings = true
  · cases k with
    | writeSetting => cases hk
    | listSettings => rfl
    | now => rfl
    | append eventType actor outcome details =>
      have happended := serve_append eventType actor outcome details a s
      generalize (serveAdmin (.append eventType actor outcome details) a s).1.isSome = replied,
        (serveAdmin (.append eventType actor outcome details) a s).2 = t at happended ⊢
      cases happended with
      | nothing => rfl
      | event => rfl
    | _ => cases hlane
  · exact (serveAdmin_spared (Bool.eq_false_iff.mpr hlane) a s).settings rfl

/-- Adapters and events may change, settings not. -/
def Keeping (t : SettingTable) (c : AdminConfig x) : Prop := c.state.runtimeSettings = t

theorem keeping_stable (t : SettingTable) :
    Stable (administration x .settings) (Keeping t : AdminConfig x → Prop) :=
  fun c e h => ((interfere_spared .settings e c.state).settings rfl).trans h

section

variable {t : SettingTable} {α : Type}

/-- In the lane of the settings, what an update leaves is adequate, wherever it is stopped. -/
abbrev LeavesAdequate (P : AdminConfig x → Prop) (m : AdminProgram x α) : Prop :=
  Triple (administration x .settings) P m (fun _ c => Adequate c.state.runtimeSettings)
    fun c => Adequate c.state.runtimeSettings

theorem Keeping.adequate (ht : Adequate t) {c : AdminConfig x} (h : Keeping t c) :
    Adequate c.state.runtimeSettings := by
  have heq : c.state.runtimeSettings = t := h
  rw [heq]
  exact ht

theorem keeping_served {k : AdminCall x} (hk : k.sparesSettings = true) (c : AdminConfig x)
    (a : AdminAnswer) (h : Keeping t c) : Keeping t (c.served (administration x .settings) k a) :=
  (serveAdmin_settings hk a c.state).trans h

/-- A program that writes no setting. -/
theorem spares_leavesAdequate (ht : Adequate t) {m : AdminProgram x α}
    (hm : m.Makes fun k => k.sparesSettings = true) : LeavesAdequate (Keeping t) m :=
  Triple.weaken (Triple.keep hm (keeping_stable t) (fun _ h => h.adequate ht)
    fun _ hk c a h => keeping_served hk c a h) (fun _ h => h) fun _ _ h => h.adequate ht

theorem reject_spares {eventType : AdminEventType} {actor : AdminActor} {details : AdminDetails}
    {error : AdminError} : (reject eventType actor details error : AdminProgram x α).Makes
      fun k => k.sparesSettings = true :=
  Prog.Makes.bind (Prog.Makes.perform rfl) fun _ => trivial

/-- One call that writes no setting, and what the program does with the value. -/
theorem query_leavesAdequate (ht : Adequate t) {k : AdminCall x} (hk : k.sparesSettings = true)
    {R : AdminValue k → Prop} {next : AdminValue k → AdminProgram x α}
    (hvalue : ∀ a (s : AdminState x) value, s.runtimeSettings = t →
      (serveAdmin k a s).1 = some value → R value)
    (hnext : ∀ value, R value → LeavesAdequate (Keeping t) (next value)) :
    LeavesAdequate (Keeping t) ((query k).bind next) := by
  refine Triple.bind (R := fun value c => Keeping t c ∧ R value)
    (Triple.perform (keeping_stable t) (fun _ h => h.adequate ht) ?_ ?_) ?_
  · intro c a value hc hreply
    exact ⟨keeping_served hk c a hc, hvalue a c.state value hc hreply⟩
  · intro c a hc _
    exact (keeping_served hk c a hc).adequate ht
  · exact fun value c h => hnext value h.2 c h.1

/-- **The writing of a value that was checked.** -/
theorem writeSetting_adequate (ht : Adequate t) {settings : List RuntimeSetting}
    (hdecode : decodeSettings t.rows = .ok settings) {key occurredAt : String} {value : I64}
    {expectedVersion : Int} {actor : AdminActor}
    (hvalid : validateCandidate settings key value = .ok ()) (a : AdminAnswer) {s : AdminState x}
    (hs : s.runtimeSettings = t) :
    Adequate (serveAdmin (.writeSetting key value expectedVersion occurredAt actor) a s).2.runtimeSettings := by
  subst hs
  have hwrote := writeRow_wrote a s
    (writeSettingRow s key value expectedVersion occurredAt actor.actorId) .runtimeSettingUpdated
    actor key
  rw [serve_writeSetting]
  dsimp only [replied]
  generalize (writeRow a s (writeSettingRow s key value expectedVersion occurredAt actor.actorId)
    .runtimeSettingUpdated actor key).2 = t at hwrote ⊢
  cases hwrote with
  | nothing => exact ht
  | event t _ _ hwritten =>
    obtain ⟨row, updated, hrow, hkey, -, hjson, rfl⟩ := writeSettingRow_eq hwritten
    obtain ⟨hmem, hrowkey⟩ := Table.find?_eq_some.mp hrow
    have hname : updated.settingKey = key := hkey.trans hrowkey
    subst hname
    have hread : rowValue updated = some value.val := by
      unfold rowValue
      rw [hjson, asI64_ofInt]
      rfl
    exact (validateCandidate_adequate ht hdecode hrow hread).mp hvalid

/-- **An update leaves adequate settings.** -/
theorem updateRuntimeSetting_adequate (ht : Adequate t) (key : String) (value : I64)
    (expectedVersion : Int) (actor : AdminActor) : LeavesAdequate (Keeping t)
      (updateRuntimeSetting key value expectedVersion actor : AdminProgram x AdminReply) := by
  obtain ⟨settings, hdecode⟩ := ht.decodes
  unfold updateRuntimeSetting
  dsimp only
  split
  · exact spares_leavesAdequate ht reject_spares
  · show LeavesAdequate (Keeping t) (((query .listSettings).bind fun rows =>
      Prog.ofExcept (decodeSettings rows)).bind fun current => _)
    rw [Prog.bind_assoc]
    refine query_leavesAdequate ht (k := .listSettings) rfl (R := fun rows => rows = t.rows) ?_ ?_
    · intro a s rows hs hreply
      dsimp only [serveAdmin] at hreply
      split at hreply
      · obtain rfl := Option.some.inj hreply
        rw [hs]
      · cases hreply
    · rintro rows rfl
      rw [hdecode]
      dsimp only [Prog.ofExcept, Prog.bind]
      cases hvalid : validateCandidate settings key value with
      | error error => exact spares_leavesAdequate ht reject_spares
      | ok =>
        dsimp only
        split
        · exact spares_leavesAdequate ht trivial
        · split
          · exact spares_leavesAdequate ht reject_spares
          · refine query_leavesAdequate ht (k := .now) rfl (R := fun _ => True)
              (fun _ _ _ _ _ => trivial) fun occurredAt _ => ?_
            cases hupdated : updatedSetting settings key value actor.actorId occurredAt with
            | error error => exact spares_leavesAdequate ht trivial
            | ok updated =>
              show LeavesAdequate (Keeping t) ((query
                (.writeSetting key value expectedVersion occurredAt actor)).bind fun result => _)
              refine Triple.bind (R := fun (_ : WriteResult) c => Adequate c.state.runtimeSettings)
                (Triple.perform (k := .writeSetting key value expectedVersion occurredAt actor)
                  (keeping_stable t) (fun _ h => h.adequate ht) ?_ ?_) fun result c hc => ?_
              · exact fun c a _ hc _ => writeSetting_adequate ht hdecode hvalid a hc
              · exact fun c a hc hreply => (by cases hreply)
              · refine spares_leavesAdequate hc ?_ c rfl
                cases result with
                | committed => trivial
                | stale => exact reject_spares
                | failed => trivial
                | writeFailed => exact Prog.Makes.bind (Prog.Makes.perform rfl) fun _ => trivial

end

/-! ## Runs -/

/-- What happens in a sequence of calls of `update_runtime_setting`. -/
inductive SettingsLabel where
  | begin (key : String) (value : I64) (expectedVersion : Int) (actor : AdminActor)
  | serve (answer : AdminAnswer)
  | abandon

def SettingsLabel.admin : SettingsLabel → AdminLabel
  | .begin key value expectedVersion actor =>
    .begin (.updateRuntimeSetting key value expectedVersion actor)
  | .serve answer => .serve .settings answer
  | .abandon => .abandon .settings

/-- An update that is in progress leaves adequate settings, and touches no adapter. -/
structure Upkeep (s : AdminState x) (call : InFlight x) : Prop where
  state : call.config.state = s
  calls : ∃ k next, call.program = .call k next
  makes : InLane .settings call.program
  leaves : wp (administration x .settings) (fun _ c => Adequate c.state.runtimeSettings)
    (fun c => Adequate c.state.runtimeSettings) call.program call.config

/-- The settings are adequate and stay so, and the adapters are as they were. -/
structure Maintained (adapters : Table AdapterRow.adapterName) (s : Administrators x) : Prop where
  adequate : Adequate s.state.runtimeSettings
  adapters : s.state.adapterConfigs = adapters
  idle : s.adapters = none
  pending : ∀ call, s.settings = some call → Upkeep s.state call

theorem settleCall_upkeep (request : AdminRequest) {c : AdminConfig x}
    {m : AdminProgram x AdminReply} (hmakes : InLane .settings m)
    (hwp : wp (administration x .settings) (fun _ c => Adequate c.state.runtimeSettings)
      (fun c => Adequate c.state.runtimeSettings) m c) :
    Adequate c.state.runtimeSettings ∧
      ∀ call, (settleCall request c m).1 = some call → Upkeep c.state call := by
  cases m with
  | pure reply => exact ⟨hwp, fun _ h => (by cases h)⟩
  | throw error => exact ⟨hwp, fun _ h => (by cases h)⟩
  | call k next =>
    refine ⟨(hwp []).1, fun call h => ?_⟩
    obtain rfl := Option.some.inj h
    exact ⟨rfl, ⟨k, next, rfl⟩, hmakes, hwp⟩

/-- **One step.** -/
theorem adminStep_maintained {adapters : Table AdapterRow.adapterName} {s : Administrators x}
    (hs : Maintained adapters s) (label : SettingsLabel) :
    Maintained adapters (adminStep s label.admin).1 := by
  cases label with
  | begin key value expectedVersion actor =>
    dsimp only [SettingsLabel.admin, adminStep, AdminRequest.lane, Administrators.lane]
    cases hsettings : s.settings with
    | some call => exact hs
    | none =>
      have hwp := updateRuntimeSetting_adequate hs.adequate key value expectedVersion actor
        (.start s.state) rfl
      have hsettled := settleCall_upkeep
        (.updateRuntimeSetting key value expectedVersion actor)
        (updateRuntimeSetting_inLane key value expectedVersion actor) hwp
      exact ⟨hs.adequate, hs.adapters, hs.idle, hsettled.2⟩
  | serve a =>
    dsimp only [SettingsLabel.admin, adminStep, Administrators.lane]
    cases hsettings : s.settings with
    | none => exact hs
    | some call =>
      have hcall := hs.pending call hsettings
      obtain ⟨k, next, hprogram⟩ := hcall.calls
      have hmakes := hcall.makes
      have hwp := hcall.leaves
      rw [hprogram] at hmakes hwp
      dsimp only
      rw [hprogram]
      have hserved : (call.config.served (administration x .settings) k a).state =
          (serveAdmin k a s.state).2 := by
        show (serveAdmin k a call.config.state).2 = _
        rw [hcall.state]
      obtain ⟨hadequate, hpending⟩ := settleCall_upkeep call.request
        (hmakes.2 (serveAdmin k a call.config.state).1) ((hwp []).2 a)
      refine ⟨hadequate, ?_, ?_, hpending⟩
      · show (call.config.served (administration x .settings) k a).state.adapterConfigs = adapters
        rw [hserved]
        exact ((serve_other hmakes.1 (nofun : Lane.adapters ≠ .settings) a s.state).1.adapters
          rfl).trans hs.adapters
      · show Option.map _ s.adapters = none
        rw [hs.idle]
        rfl
  | abandon => exact ⟨hs.adequate, hs.adapters, hs.idle, fun _ h => (by cases h)⟩

theorem bootstrapped_adequate (now : String) : Adequate (bootstrapped x now).runtimeSettings where
  keys := by
    show ((seededSettings.map (seededSetting now)).map SettingRow.settingKey).Perm _
    rw [List.map_map]
    show (seededSettings.map Prod.fst).Perm (settingDefinitions.map SettingDefinition.key)
    decide
  values := by
    have hseeded : ∀ definition ∈ settingDefinitions, ∃ setting ∈ seededSettings,
        setting.1 = definition.key ∧ definition.minimum ≤ setting.2 := by
      decide
    intro definition hdefinition
    obtain ⟨setting, hsetting, hkey, hminimum⟩ := hseeded definition hdefinition
    obtain ⟨-, hlower, hupper⟩ := seededSettings_valid setting hsetting
    have hrow : seededSetting now setting ∈ (bootstrapped x now).runtimeSettings.rows :=
      List.mem_map_of_mem hsetting
    refine ⟨setting.2, ?_, hminimum⟩
    rw [← hkey]
    refine (settingValue_of_mem hrow).trans ?_
    exact congrArg (Option.map I64.val) (asI64_ofInt ⟨setting.2, hlower, hupper⟩)
  lease := by
    have hvalue : ∀ setting ∈ seededSettings,
        settingValue (bootstrapped x now).runtimeSettings.rows setting.1 = some setting.2 := by
      intro setting hsetting
      obtain ⟨-, hlower, hupper⟩ := seededSettings_valid setting hsetting
      have hrow : seededSetting now setting ∈ (bootstrapped x now).runtimeSettings.rows :=
        List.mem_map_of_mem hsetting
      refine (settingValue_of_mem hrow).trans ?_
      exact congrArg (Option.map I64.val) (asI64_ofInt ⟨setting.2, hlower, hupper⟩)
    intro poll lease hpoll hlease
    obtain rfl := Option.some.inj ((hvalue (pollKey, 30) (by decide)).symm.trans hpoll)
    obtain rfl := Option.some.inj ((hvalue (leaseKey, 90) (by decide)).symm.trans hlease)
    decide

theorem start_maintained (x : UrlCrate) (now : String) :
    Maintained (bootstrapped x now).adapterConfigs (.start x now) :=
  ⟨bootstrapped_adequate now, rfl, rfl, fun _ h => (by cases h)⟩

/-- **A run of updates.** -/
theorem final_maintained (x : UrlCrate) (now : String) (labels : List SettingsLabel) :
    Maintained (bootstrapped x now).adapterConfigs
      (final adminStep (.start x now) (labels.map SettingsLabel.admin)) := by
  induction labels using List.reverseRecOn with
  | nil => exact start_maintained x now
  | append_singleton labels label ih =>
    rw [List.map_append, final_append]
    exact adminStep_maintained ih label

theorem buildAdapter_empty {config : AdapterConfigView} (files : FileSystem)
    (h : emptyConfiguration config.adapterName = .ok config.configuration) :
    ∃ adapter, buildAdapter x files config = .ok (config.adapterName, adapter) := by
  obtain ⟨adapterName, enabled, configuration, version, updatedAt, updatedBy⟩ := config
  dsimp only [emptyConfiguration] at h
  by_cases hwindow : adapterName = "observation_window_ended"
  · subst hwindow
    cases h
    exact ⟨_, rfl⟩
  · rw [if_neg hwindow] at h
    by_cases hhttp : adapterName = "http_health"
    · subst hhttp
      cases h
      exact ⟨_, rfl⟩
    · rw [if_neg hhttp] at h
      by_cases htcp : adapterName = "tcp_reachable"
      · subst htcp
        cases h
        exact ⟨_, rfl⟩
      · rw [if_neg htcp] at h
        by_cases hfile : adapterName = "file_exists"
        · subst hfile
          cases h
          exact ⟨_, rfl⟩
        · rw [if_neg hfile] at h
          cases h

theorem buildAdapter_name {config : AdapterConfigView} {files : FileSystem}
    {built : String × Adapter x} (h : buildAdapter x files config = .ok built) :
    built.1 = config.adapterName := by
  obtain ⟨_, hmatches, h⟩ := except_bind_ok.mp h
  have hname : config.adapterName = config.configuration.adapterName := by
    unfold validateNameMatches at hmatches
    split at hmatches
    · assumption
    · cases hmatches
  rw [hname]
  cases hconfiguration : config.configuration with
  | observationWindowEnded =>
    rw [hconfiguration] at h
    cases h
    rfl
  | httpHealth aliases =>
    rw [hconfiguration] at h
    obtain ⟨_, _, h⟩ := except_bind_ok.mp h
    obtain ⟨_, _, h⟩ := except_bind_ok.mp h
    cases h
    rfl
  | tcpReachable aliases =>
    rw [hconfiguration] at h
    obtain ⟨_, _, h⟩ := except_bind_ok.mp h
    obtain ⟨_, _, h⟩ := except_bind_ok.mp h
    cases h
    rfl
  | fileExists roots aliases =>
    rw [hconfiguration] at h
    obtain ⟨_, _, h⟩ := except_bind_ok.mp h
    obtain ⟨_, _, h⟩ := except_bind_ok.mp h
    obtain ⟨_, _, h⟩ := except_bind_ok.mp h
    obtain ⟨_, _, h⟩ := except_bind_ok.mp h
    cases h
    rfl

/-- What was read of a row without a configuration. -/
theorem empty_of_view {row : AdapterRow} {config : AdapterConfigView} (hrow : row.configJson = .empty)
    (h : adapterViewOf row = .ok config) :
    emptyConfiguration config.adapterName = .ok config.configuration := by
  obtain ⟨configuration, hconfiguration, hview⟩ := except_bind_ok.mp h
  cases hview
  rw [hrow] at hconfiguration
  exact hconfiguration

/-- The adapters of the first migration load from any file system. -/
theorem bootstrapped_load (x : UrlCrate) (now : String) (files : FileSystem) :
    ∃ loaded, loadAdapters x files (bootstrapped x now).adapterConfigs.rows = .ok loaded := by
  obtain ⟨configs, hconfigs, hnames⟩ := (bootstrapped_adapters (x := x) now).list
  have hempty : ∀ config ∈ configs,
      emptyConfiguration config.adapterName = .ok config.configuration := by
    intro config hconfig
    obtain ⟨views, hviews, hlist⟩ := except_bind_ok.mp hconfigs
    split at hlist
    · cases hlist
    · cases hlist
      obtain ⟨row, hrow, hread⟩ := mem_of_mapM_ok hviews hconfig
      obtain ⟨name, -, rfl⟩ := List.mem_map.mp ((List.mem_insertionSort _).mp hrow)
      exact empty_of_view rfl hread
  obtain ⟨adapters, hadapters⟩ := except_mapM_ok (f := buildAdapter x files) fun config hconfig => by
    obtain ⟨adapter, hadapter⟩ := buildAdapter_empty (x := x) files (hempty config hconfig)
    exact ⟨_, hadapter⟩
  have hkeys : adapters.map Prod.fst = adapterNames := by
    rw [← hnames]
    exact map_of_mapM_ok hadapters fun _ _ => buildAdapter_name
  refine ⟨(configs, adapters), ?_⟩
  have hlength : adapters.length = adapterNames.length := by
    rw [← hkeys, List.length_map]
  unfold loadAdapters buildSnapshot
  rw [hconfigs]
  dsimp only [bind, Except.bind]
  rw [hadapters]
  dsimp only
  rw [if_pos ⟨by rw [hkeys]; decide, hlength⟩]

/-! ## Agreement -/

/-- The settings that are stored pass every check of a startup. -/
structure StartsUp (s : AdminState x) : Prop where
  startup : validateRuntimeSettings s.runtimeSettings.rows = .ok ()
  load : ∀ files, ∃ adapters,
    Admin.load x files s.runtimeSettings.rows s.adapterConfigs.rows = .ok adapters
  scheduler : ∃ settings config, decodeSettings s.runtimeSettings.rows = .ok settings ∧
    schedulerConfig settings = .ok config ∧ config.validate = .ok () ∧
      ∀ service holderId, trim holderId ≠ "" →
        ∃ scheduler, Scheduler.new service holderId config = .ok scheduler
  lease : ∃ poll lease, settingValue s.runtimeSettings.rows pollKey = some poll ∧
    settingValue s.runtimeSettings.rows leaseKey = some lease ∧ poll * 2 < lease

/-- A scheduler is made of every valid configuration. -/
theorem scheduler_new {config : SchedulerConfig} (hvalid : config.validate = .ok ())
    (hlease : config.leaseDuration ≤ fromSecs i64Max) (service : RemindiService) {holderId : String}
    (hname : trim holderId ≠ "") :
    ∃ scheduler, Scheduler.new service holderId config = .ok scheduler := by
  have hpositive : config.leaseDuration ≠ 0 := by
    unfold SchedulerConfig.validate at hvalid
    split at hvalid
    · cases hvalid
    · next h =>
      intro hzero
      exact h (Or.inr (Or.inl (by omega)))
  have hseconds : ¬ i64Max < config.leaseDuration / 1000000000 := by
    unfold fromSecs at hlease
    omega
  unfold Scheduler.new
  split
  · next e he =>
    rw [hvalid] at he
    cases he
  · rw [if_neg hseconds, dif_neg hname, dif_neg hpositive]
    exact ⟨_, rfl⟩

/-- **No sequence of updates leaves settings that a startup refuses.** -/
theorem settings_start_up (x : UrlCrate) (now : String) (labels : List SettingsLabel) :
    StartsUp (final adminStep (.start x now) (labels.map SettingsLabel.admin)).state := by
  have hkept := final_maintained x now labels
  have hadequate := hkept.adequate
  refine ⟨hadequate.startup, fun files => ?_, ?_, ?_⟩
  · rw [hkept.adapters]
    obtain ⟨loaded, hloaded⟩ := bootstrapped_load x now files
    exact ⟨_, hadequate.load hloaded⟩
  · obtain ⟨settings, hdecode⟩ := hadequate.decodes
    obtain ⟨config, hconfig, hvalid, hlease⟩ := hadequate.scheduler hdecode
    exact ⟨settings, config, hdecode, hconfig, hvalid, fun service _ hname =>
      scheduler_new hvalid hlease service hname⟩
  · obtain ⟨poll, hpoll, -⟩ := hadequate.value pollKey rfl
    obtain ⟨lease, hlease, -⟩ := hadequate.value leaseKey rfl
    exact ⟨poll, lease, hpoll, hlease, hadequate.lease poll lease hpoll hlease⟩

end RemindiCore.Admin
