import RemindiCore.Admin.Bootstrap
import RemindiCore.Proof.SettingsAgreement

/-!
# Restarting after a restore

The next startup opens the restored database as the restore has opened it, and the second
time the migrations find nothing to do (`openPool_again`).  Of the settings they ask
what all the other validators ask (`adequate_of_validated`).  Of an adapter they ask for a
JSON object only, where the administration builds the adapter: a startup accepts the
database exactly when the adapters of the backup can be built (`startUp_iff`).
-/

namespace RemindiCore.Admin

open JsonText KeyedTable Transaction Triggers

variable {x : UrlCrate} {files : FileSystem}

/-! ## Settings -/

/-- As many different keys as are allowed, all of them allowed. -/
theorem keys_perm {keys allowed : List String} (hnodup : keys.Nodup)
    (hlength : keys.length = allowed.length) (h : ∀ key ∈ keys, key ∈ allowed) :
    keys.Perm allowed :=
  (List.subperm_of_subset hnodup h).perm_of_length_le (by omega)

/-- **The check of the migrations leaves nothing to the other checks of the settings.** -/
theorem adequate_of_validated {t : SettingTable} (h : validateRuntimeSettings t.rows = .ok ()) :
    Adequate t := by
  unfold validateRuntimeSettings at h
  dsimp only at h
  by_cases hkeys : t.rows.length ≠ (seededSettings.map Prod.fst).length ∨
      (t.rows.any fun row => !(seededSettings.map Prod.fst).contains row.settingKey) = true
  · rw [if_pos hkeys] at h
    cases h
  rw [if_neg hkeys] at h
  by_cases hrows : (t.rows.any fun row => !validBootstrapRow row) = true
  · rw [if_pos hrows] at h
    cases h
  rw [if_neg hrows] at h
  obtain ⟨hlength, hallowed⟩ := not_or.mp hkeys
  have hperm : (t.rows.map SettingRow.settingKey).Perm
      (settingDefinitions.map SettingDefinition.key) := by
    have hseeded : (t.rows.map SettingRow.settingKey).Perm (seededSettings.map Prod.fst) := by
      refine keys_perm t.nodup ((List.length_map _).trans (not_not.mp hlength)) fun key hkey => ?_
      obtain ⟨row, hrow, rfl⟩ := List.mem_map.mp hkey
      by_contra hnot
      exact hallowed (List.any_eq_true.mpr ⟨row, hrow, by simp [hnot]⟩)
    exact hseeded.trans (by decide)
  have hvalues : ∀ definition ∈ settingDefinitions, ∃ value,
      settingValue t.rows definition.key = some value ∧ definition.minimum ≤ value := by
    intro definition hdefinition
    obtain ⟨row, hrow, hkey⟩ :=
      List.mem_map.mp (hperm.mem_iff.mpr (List.mem_map_of_mem hdefinition))
    have hvalid : validBootstrapRow row = true := by
      by_contra hnot
      exact hrows (List.any_eq_true.mpr ⟨row, hrow, by simp [hnot]⟩)
    unfold validBootstrapRow at hvalid
    rw [← hkey, settingValue_of_mem hrow]
    cases hvalue : rowValue row with
    | none =>
      rw [hvalue] at hvalid
      cases hvalid
    | some value =>
      rw [hvalue, hkey] at hvalid
      dsimp only at hvalid
      rw [validBootstrapValue_eq hdefinition] at hvalid
      exact ⟨value, rfl, of_decide_eq_true hvalid⟩
  refine ⟨hperm, hvalues, fun poll lease hpoll hlease => ?_⟩
  have hpoll' : settingValue t.rows "scheduler.poll_interval_seconds" = some poll := hpoll
  have hlease' : settingValue t.rows "scheduler.lease_seconds" = some lease := hlease
  rw [hpoll', hlease'] at h
  dsimp only at h
  by_cases hle : lease ≤ doubled poll
  · rw [if_pos hle] at h
    cases h
  · obtain ⟨definition, hfound, hminimum⟩ :
        ∃ definition, settingDefinition pollKey = some definition ∧ definition.minimum = 1 :=
      ⟨_, rfl, rfl⟩
    obtain ⟨hdefinition, hkey⟩ := settingDefinition_eq_some hfound
    obtain ⟨value, hvalue, hpositive⟩ := hvalues definition hdefinition
    rw [hkey, hpoll] at hvalue
    obtain rfl := Option.some.inj hvalue
    exact (doubled_lt (by omega) (settingValue_bounds hlease).2).mp (by omega)

/-! ## Adapters -/

/-- An adapter can be built of the configuration. -/
def AdapterConfiguration.Buildable (x : UrlCrate) (files : FileSystem) :
    AdapterConfiguration → Prop
  | .observationWindowEnded => True
  | .httpHealth aliases => ∀ entry ∈ aliases, validAlias entry.1 = true ∧
      ∃ url, x.parse entry.2.url = some url ∧ validTarget x url entry.2.expectedStatuses
        entry.2.maxResponseBytes entry.2.expectedContentType = true
  | .tcpReachable aliases => ∀ entry ∈ aliases, validAlias entry.1 = true ∧
      validTcpTarget entry.2.host entry.2.port = true
  | .fileExists roots aliases => ∃ resolved, roots.mapM (canonicalRoot files) = .ok resolved ∧
      ∀ entry ∈ aliases, validAlias entry.1 = true ∧ validFileTarget entry.2 = true ∧
        validateContainment files entry.2 resolved = .ok ()

/-- The row holds `{}`, or a configuration of its adapter that can be built. -/
def AdapterRow.Acceptable (x : UrlCrate) (files : FileSystem) (row : AdapterRow) : Prop :=
  match row.configJson with
  | .empty => True
  | .written configuration =>
    row.adapterName = configuration.adapterName ∧ configuration.Buildable x files
  | .other _ => False

/-- The adapters of a backup can be built, and its columns be read. -/
def StoredDatabase.Acceptable (x : UrlCrate) (files : FileSystem) (backup : StoredDatabase) :
    Prop :=
  ∀ tables, backup.admin = .present tables →
    tables.typed = true ∧ ∀ row ∈ tables.adapterConfigs.rows, row.Acceptable x files

section

variable {α β : Type} {build : α → Except AdapterConfigError β} {aliases : List (String × α)}
  {targets : List (String × β)}

theorem targetsOf_entries (h : targetsOf build aliases = .ok targets) :
    List.Forall₂ (fun entry target => target.1 = entry.1 ∧ build entry.2 = .ok target.2)
      aliases targets := by
  refine (forall₂_of_mapM_ok h).imp fun entry target hentry => ?_
  cases hbuild : build entry.2 with
  | error e =>
    rw [hbuild] at hentry
    cases hentry
  | ok built =>
    rw [hbuild] at hentry
    cases hentry
    exact ⟨rfl, rfl⟩

theorem targetsOf_iff : (∃ targets, targetsOf build aliases = .ok targets) ↔
    ∀ entry ∈ aliases, ∃ target, build entry.2 = .ok target := by
  constructor
  · rintro ⟨targets, h⟩ entry hentry
    obtain ⟨target, -, hbuilt⟩ := exists_of_mapM_ok h hentry
    cases hbuild : build entry.2 with
    | error e =>
      rw [hbuild] at hbuilt
      cases hbuilt
    | ok built => exact ⟨built, rfl⟩
  · intro h
    refine except_mapM_ok fun entry hentry => ?_
    obtain ⟨target, htarget⟩ := h entry hentry
    exact ⟨(entry.1, target), by rw [htarget]⟩

/-- What is asked of the targets is asked of the aliases. -/
theorem forall_targets {P : String × α → Prop} {Q : String × β → Prop}
    (h : targetsOf build aliases = .ok targets)
    (hsame : ∀ entry target, build entry.2 = .ok target → (Q (entry.1, target) ↔ P entry)) :
    (∀ target ∈ targets, Q target) ↔ ∀ entry ∈ aliases, P entry := by
  have hentries := targetsOf_entries h
  clear h
  induction hentries with
  | nil => exact ⟨fun _ _ h => (List.not_mem_nil h).elim, fun _ _ h => (List.not_mem_nil h).elim⟩
  | @cons entry target aliases targets hentry _ ih =>
    obtain ⟨name, built⟩ := target
    obtain ⟨rfl, hbuilt⟩ := hentry
    rw [List.forall_mem_cons, List.forall_mem_cons]
    exact and_congr (hsame entry built hbuilt) ih

theorem validAliases_iff : validAliases targets = .ok () ↔
    ∀ target ∈ targets, validAlias target.1 = true := by
  unfold validAliases
  by_cases hall : (targets.all fun entry => validAlias entry.1) = true
  · rw [if_pos hall]
    exact ⟨fun _ => List.all_eq_true.mp hall, fun _ => rfl⟩
  · rw [if_neg hall]
    exact ⟨nofun, fun h => absurd (List.all_eq_true.mpr h) hall⟩

/-- An adapter whose targets are all that is checked. -/
theorem aliases_iff (kind : String) (make : List (String × β) → Adapter x) :
    (∃ built, (do
      let targets ← targetsOf build aliases
      validAliases targets
      .ok (kind, make targets) : Except AdminError (String × Adapter x)) = .ok built) ↔
    ∀ entry ∈ aliases, validAlias entry.1 = true ∧ ∃ target, build entry.2 = .ok target := by
  constructor
  · rintro ⟨built, h⟩
    obtain ⟨targets, htargets, h⟩ := except_bind_ok.mp h
    obtain ⟨_, hvalid, -⟩ := except_bind_ok.mp h
    have hnames := (forall_targets (P := fun entry => validAlias entry.1 = true) htargets
      fun _ _ _ => Iff.rfl).mp (validAliases_iff.mp hvalid)
    exact fun entry hentry => ⟨hnames entry hentry, targetsOf_iff.mp ⟨targets, htargets⟩ entry hentry⟩
  · intro h
    obtain ⟨targets, htargets⟩ := targetsOf_iff.mpr fun entry hentry => (h entry hentry).2
    have hvalid := validAliases_iff.mpr ((forall_targets
      (P := fun entry => validAlias entry.1 = true) htargets fun _ _ _ => Iff.rfl).mpr
        fun entry hentry => (h entry hentry).1)
    exact ⟨_, except_bind_ok.mpr ⟨targets, htargets, except_bind_ok.mpr ⟨(), hvalid, rfl⟩⟩⟩

end

theorem httpTarget_iff {target : HttpAliasConfiguration} {policy : NetworkPolicy} :
    (∃ built, HttpTarget.new x target.url target.expectedStatuses target.maxResponseBytes
      target.expectedContentType target.allowRedirects policy = .ok built) ↔
    ∃ url, x.parse target.url = some url ∧ validTarget x url target.expectedStatuses
      target.maxResponseBytes target.expectedContentType = true := by
  unfold HttpTarget.new
  cases x.parse target.url with
  | none => exact ⟨fun ⟨_, h⟩ => (nomatch h), fun ⟨_, h, _⟩ => (nomatch h)⟩
  | some url =>
    by_cases hvalid : validTarget x url target.expectedStatuses target.maxResponseBytes
        target.expectedContentType = true
    · exact ⟨fun _ => ⟨url, rfl, hvalid⟩, fun _ => ⟨_, dif_pos hvalid⟩⟩
    · constructor
      · rintro ⟨built, h⟩
        dsimp only at h
        rw [dif_neg hvalid] at h
        cases h
      · rintro ⟨url', hurl, hvalid'⟩
        obtain rfl := Option.some.inj hurl
        exact absurd hvalid' hvalid

theorem tcpTarget_iff {host : String} {port : UInt16} {policy : NetworkPolicy} :
    (∃ built, TcpTarget.new host port policy = .ok built) ↔ validTcpTarget host port = true := by
  unfold TcpTarget.new
  by_cases hvalid : validTcpTarget host port = true
  · exact ⟨fun _ => hvalid, fun _ => ⟨_, dif_pos hvalid⟩⟩
  · rw [dif_neg hvalid]
    exact ⟨fun ⟨_, h⟩ => (nomatch h), fun h => absurd h hvalid⟩

theorem fileTarget_eq {path : PathBuf} {target : FileTarget} (h : FileTarget.new path = .ok target) :
    target.path = path := by
  unfold FileTarget.new at h
  split at h
  · cases h
    rfl
  · cases h

theorem fileTarget_iff {path : PathBuf} :
    (∃ built, FileTarget.new path = .ok built) ↔ validFileTarget path = true := by
  unfold FileTarget.new
  by_cases hvalid : validFileTarget path = true
  · exact ⟨fun _ => hvalid, fun _ => ⟨_, dif_pos hvalid⟩⟩
  · rw [dif_neg hvalid]
    exact ⟨fun ⟨_, h⟩ => (nomatch h), fun h => absurd h hvalid⟩

theorem fileExists_iff {enabled : Bool} {roots : List PathBuf}
    {aliases : List (String × PathBuf)} :
    (∃ built, (do
      let targets ← targetsOf FileTarget.new aliases
      let roots ← (roots.mapM (canonicalRoot files)).mapError fun _ => AdminError.validation
      validAliases targets
      let _ ← (targets.mapM fun entry => validateContainment files entry.2.path roots).mapError
        fun _ => AdminError.validation
      .ok ("file_exists", .file enabled roots targets) :
        Except AdminError (String × Adapter x)) = .ok built) ↔
    (AdapterConfiguration.fileExists roots aliases).Buildable x files := by
  constructor
  · rintro ⟨built, h⟩
    obtain ⟨targets, htargets, h⟩ := except_bind_ok.mp h
    obtain ⟨resolved, hresolved, h⟩ := except_bind_ok.mp h
    obtain ⟨_, hvalid, h⟩ := except_bind_ok.mp h
    obtain ⟨checked, hchecked, -⟩ := except_bind_ok.mp h
    refine ⟨resolved, except_mapError_ok.mp hresolved, fun entry hentry => ⟨?_, ?_, ?_⟩⟩
    · exact (forall_targets (P := fun entry => validAlias entry.1 = true) htargets
        fun _ _ _ => Iff.rfl).mp (validAliases_iff.mp hvalid) entry hentry
    · exact fileTarget_iff.mp (targetsOf_iff.mp ⟨targets, htargets⟩ entry hentry)
    · refine (forall_targets (Q := fun target =>
        validateContainment files target.2.path resolved = .ok ())
        (P := fun entry => validateContainment files entry.2 resolved = .ok ()) htargets
        fun entry target htarget => ?_).mp (fun target htarget => ?_) entry hentry
      · rw [fileTarget_eq htarget]
      · obtain ⟨_, -, hcontained⟩ := exists_of_mapM_ok (except_mapError_ok.mp hchecked) htarget
        exact hcontained
  · rintro ⟨resolved, hresolved, hall⟩
    obtain ⟨targets, htargets⟩ := targetsOf_iff.mpr fun entry hentry =>
      fileTarget_iff.mpr (hall entry hentry).2.1
    have hvalid := validAliases_iff.mpr ((forall_targets
      (P := fun entry => validAlias entry.1 = true) htargets fun _ _ _ => Iff.rfl).mpr
        fun entry hentry => (hall entry hentry).1)
    have hcontained := (forall_targets (Q := fun target : String × FileTarget =>
        validateContainment files target.2.path resolved = .ok ())
        (P := fun entry => validateContainment files entry.2 resolved = .ok ()) htargets
        fun entry target htarget => by rw [fileTarget_eq htarget]).mpr
          fun entry hentry => (hall entry hentry).2.2
    obtain ⟨checked, hchecked⟩ := except_mapM_ok fun target htarget =>
      ⟨(), hcontained target htarget⟩
    exact ⟨_, except_bind_ok.mpr ⟨targets, htargets, except_bind_ok.mpr
      ⟨resolved, except_mapError_ok.mpr hresolved, except_bind_ok.mpr ⟨(), hvalid,
        except_bind_ok.mpr ⟨checked, except_mapError_ok.mpr hchecked, rfl⟩⟩⟩⟩⟩

theorem validateNameMatches_iff {name : String} {configuration : AdapterConfiguration} :
    validateNameMatches name configuration = .ok () ↔ name = configuration.adapterName := by
  unfold validateNameMatches
  by_cases hname : name = configuration.adapterName
  · rw [if_pos hname]
    exact ⟨fun _ => hname, fun _ => rfl⟩
  · rw [if_neg hname]
    exact ⟨nofun, fun h => absurd h hname⟩

/-- **An adapter is built exactly of a configuration that can be.** -/
theorem buildAdapter_iff {config : AdapterConfigView} :
    (∃ built, buildAdapter x files config = .ok built) ↔
      config.adapterName = config.configuration.adapterName ∧
        config.configuration.Buildable x files := by
  unfold buildAdapter
  by_cases hname : config.adapterName = config.configuration.adapterName
  · rw [validateNameMatches_iff.mpr hname]
    dsimp only [bind, Except.bind]
    refine Iff.trans ?_ (and_iff_right hname).symm
    cases hconfiguration : config.configuration with
    | observationWindowEnded => exact ⟨fun _ => trivial, fun _ => ⟨_, rfl⟩⟩
    | httpHealth aliases =>
      refine (aliases_iff "http_health" _).trans ?_
      exact forall₂_congr fun entry _ => and_congr_right fun _ => httpTarget_iff
    | tcpReachable aliases =>
      refine (aliases_iff "tcp_reachable" _).trans ?_
      exact forall₂_congr fun entry _ => and_congr_right fun _ => tcpTarget_iff
    | fileExists roots aliases => exact fileExists_iff
  · refine ⟨?_, fun h => absurd h.1 hname⟩
    rintro ⟨built, h⟩
    obtain ⟨_, hmatches, -⟩ := except_bind_ok.mp h
    exact absurd (validateNameMatches_iff.mp hmatches) hname

theorem emptyConfiguration_ok {name : String} (h : name ∈ adapterNames) :
    ∃ configuration, emptyConfiguration name = .ok configuration := by
  have hall : ∀ name ∈ adapterNames, (emptyConfiguration name).isOk = true := by decide
  cases hempty : emptyConfiguration name with
  | ok configuration => exact ⟨configuration, rfl⟩
  | error e =>
    have hok := hall name h
    rw [hempty] at hok
    cases hok

/-- **A row is loaded exactly when it is acceptable.** -/
theorem row_iff {row : AdapterRow} (hname : row.adapterName ∈ adapterNames) :
    (∃ config, adapterViewOf row = .ok config ∧ ∃ built, buildAdapter x files config = .ok built) ↔
      row.Acceptable x files := by
  unfold AdapterRow.Acceptable
  cases hrow : row.configJson with
  | empty =>
    refine ⟨fun _ => trivial, fun _ => ?_⟩
    obtain ⟨configuration, hempty⟩ := emptyConfiguration_ok hname
    obtain ⟨config, hconfig⟩ := adapterViewOf_ok.mpr ⟨configuration, by rw [hrow]; exact hempty⟩
    obtain ⟨adapter, hadapter⟩ := buildAdapter_empty (x := x) files (empty_of_view hrow hconfig)
    exact ⟨config, hconfig, _, hadapter⟩
  | written configuration =>
    constructor
    · rintro ⟨config, hconfig, hbuilt⟩
      obtain ⟨decoded, hdecoded, hview⟩ := except_bind_ok.mp hconfig
      rw [hrow] at hdecoded
      obtain ⟨_, hmatches, hdecoded⟩ := except_bind_ok.mp hdecoded
      cases hdecoded
      cases hview
      exact ⟨validateNameMatches_iff.mp hmatches, (buildAdapter_iff.mp hbuilt).2⟩
    · rintro ⟨hmatches, hbuildable⟩
      have hdecoded : decodeConfiguration row.adapterName row.configJson = .ok configuration := by
        rw [hrow]
        exact except_bind_ok.mpr ⟨(), validateNameMatches_iff.mpr hmatches, rfl⟩
      exact ⟨_, except_bind_ok.mpr ⟨configuration, hdecoded, rfl⟩,
        buildAdapter_iff.mpr ⟨hmatches, hbuildable⟩⟩
  | other value =>
    refine ⟨?_, False.elim⟩
    rintro ⟨config, hconfig, -⟩
    obtain ⟨decoded, hdecoded, -⟩ := except_bind_ok.mp hconfig
    rw [hrow] at hdecoded
    cases hdecoded

theorem sortedNames_of_perm {names : List String} (h : names.Perm adapterNames) :
    sortedNames names = adapterNames := by
  have hsorted : adapterNames.Pairwise (· ≤ ·) := by decide
  unfold sortedNames
  exact List.Perm.eq_of_pairwise' (List.pairwise_insertionSort _ _) hsorted
    ((List.perm_insertionSort _ _).trans h)

/-- **All four adapters load exactly when their rows are acceptable.** -/
theorem loadAdapters_iff {t : Table AdapterRow.adapterName}
    (hnames : (t.rows.map AdapterRow.adapterName).Perm adapterNames) :
    (∃ loaded, loadAdapters x files t.rows = .ok loaded) ↔
      ∀ row ∈ t.rows, row.Acceptable x files := by
  have hname : ∀ row ∈ t.rows, row.adapterName ∈ adapterNames := fun row hrow =>
    hnames.mem_iff.mp (List.mem_map_of_mem hrow)
  constructor
  · rintro ⟨loaded, h⟩ row hrow
    obtain ⟨configs, hconfigs, h⟩ := except_bind_ok.mp h
    obtain ⟨snapshot, hsnapshot, -⟩ := except_bind_ok.mp h
    obtain ⟨adapters, hadapters, -⟩ := except_bind_ok.mp hsnapshot
    obtain ⟨views, hviews, hsame⟩ := except_bind_ok.mp hconfigs
    split at hsame
    · cases hsame
    cases hsame
    obtain ⟨config, hmem, hconfig⟩ := exists_of_mapM_ok hviews ((List.mem_insertionSort _).mpr hrow)
    obtain ⟨built, -, hbuilt⟩ := exists_of_mapM_ok hadapters hmem
    exact (row_iff (hname row hrow)).mp ⟨config, hconfig, built, hbuilt⟩
  · intro hall
    have hlegible : AdaptersLegible t.rows := by
      refine ⟨fun row hrow => ?_, sortedNames_of_perm hnames⟩
      obtain ⟨config, hconfig, -⟩ := (row_iff (hname row hrow)).mpr (hall row hrow)
      exact ⟨config, hconfig⟩
    obtain ⟨configs, hconfigs, hsame⟩ := hlegible.list
    obtain ⟨adapters, hadapters⟩ := except_mapM_ok (f := buildAdapter x files) (l := configs)
      fun config hconfig => by
        obtain ⟨views, hviews, hlist⟩ := except_bind_ok.mp hconfigs
        split at hlist
        · cases hlist
        cases hlist
        obtain ⟨row, hrow, hread⟩ := mem_of_mapM_ok hviews hconfig
        have hrow := (List.mem_insertionSort _).mp hrow
        obtain ⟨config', hread', hbuilt⟩ := (row_iff (hname row hrow)).mpr (hall row hrow)
        obtain rfl := Except.ok.inj (hread.symm.trans hread')
        exact hbuilt
    have hkeys : adapters.map Prod.fst = adapterNames := by
      rw [← hsame]
      exact map_of_mapM_ok hadapters fun _ _ => buildAdapter_name
    have hlength : adapters.length = adapterNames.length := by
      rw [← hkeys, List.length_map]
    have hsnapshot : buildSnapshot x files configs = .ok adapters :=
      except_bind_ok.mpr ⟨adapters, hadapters, if_pos ⟨by rw [hkeys]; decide, hlength⟩⟩
    exact ⟨_, except_bind_ok.mpr ⟨configs, hconfigs,
      except_bind_ok.mpr ⟨adapters, hsnapshot, rfl⟩⟩⟩

/-! ## Opening again -/

theorem seedAndValidate_ok {now : String} {tables seeded : AdminTables} :
    seedAndValidate now tables = .ok seeded ↔ seeded = seed now tables ∧
      validateRuntimeSettings seeded.runtimeSettings.rows = .ok () ∧
      validateAdapters seeded.adapterConfigs.rows = .ok () ∧
      validateServiceRuntime seeded.serviceRuntime.rows = .ok () := by
  unfold seedAndValidate
  generalize seed now tables = t
  dsimp only
  constructor
  · intro h
    obtain ⟨_, hsettings, h⟩ := except_bind_ok.mp h
    obtain ⟨_, hadapters, h⟩ := except_bind_ok.mp h
    obtain ⟨_, hservices, h⟩ := except_bind_ok.mp h
    obtain rfl := Except.ok.inj h
    exact ⟨rfl, except_mapError_ok.mp hsettings, hadapters, hservices⟩
  · rintro ⟨rfl, hsettings, hadapters, hservices⟩
    exact except_bind_ok.mpr ⟨(), except_mapError_ok.mpr hsettings, except_bind_ok.mpr
      ⟨(), hadapters, except_bind_ok.mpr ⟨(), hservices, rfl⟩⟩⟩

/-- Nothing is missing the second time. -/
theorem seed_seed (now restarted : String) (tables : AdminTables) :
    seed restarted (seed now tables) = seed now tables := by
  have hsettings : (seed now tables).runtimeSettings.insertMissing
      (seededSettings.map (seededSetting restarted)) = (seed now tables).runtimeSettings := by
    refine Table.insertMissing_of_keys fun row hrow => ?_
    obtain ⟨setting, hsetting, rfl⟩ := List.mem_map.mp hrow
    exact Table.key_mem_insertMissing tables.runtimeSettings (a := seededSetting now setting)
      (List.mem_map_of_mem hsetting)
  have hadapters : (seed now tables).adapterConfigs.insertMissing
      (seededAdapters.map (seededAdapter restarted)) = (seed now tables).adapterConfigs := by
    refine Table.insertMissing_of_keys fun row hrow => ?_
    obtain ⟨name, hname, rfl⟩ := List.mem_map.mp hrow
    exact Table.key_mem_insertMissing tables.adapterConfigs (a := seededAdapter now name)
      (List.mem_map_of_mem hname)
  have hservices : (seed now tables).serviceRuntime.insertMissing serviceComponents =
      (seed now tables).serviceRuntime :=
    Table.insertMissing_of_keys fun component hcomponent =>
      Table.key_mem_insertMissing tables.serviceRuntime hcomponent
  show AdminTables.mk _ _ _ _ = _
  rw [hsettings, hadapters, hservices]

theorem seedAndValidate_again {now restarted : String} {tables seeded : AdminTables}
    (h : seedAndValidate now tables = .ok seeded) :
    seedAndValidate restarted seeded = .ok seeded := by
  obtain ⟨rfl, hvalid⟩ := seedAndValidate_ok.mp h
  exact seedAndValidate_ok.mpr ⟨(seed_seed now restarted tables).symm, hvalid⟩

/-- The migration is on record under its identity. -/
def Recorded (database : StoredDatabase) (migration : Migration) : Prop :=
  database.applied.find? (·.1 = migration.version) = some (migration.version, migration.identity)

/-- No migration is newer. -/
def Supported (database : StoredDatabase) : Prop :=
  ∀ last, database.applied.getLast? = some last → last.1 ≤ (MIGRATIONS.length : Int)

theorem applyMigration_recorded {database : StoredDatabase} {migration : Migration}
    (h : Recorded database migration) (now : String) (t : StoredDatabase) :
    applyMigration database.applied now t migration = .ok t := by
  unfold applyMigration
  rw [h]
  exact if_neg (not_not.mpr rfl)

/-- A migration that has been run before, or is run now. -/
theorem applyMigration_ok {database migrated : StoredDatabase} {now : String}
    {migration : Migration} (h : applyMigration database.applied now database migration =
      .ok migrated) :
    (migrated = database ∧ Recorded database migration) ∨
      database.applied.find? (·.1 = migration.version) = none ∧
        ∃ t, migration.sql now database = .ok t ∧
          migrated = { t with applied := t.applied ++ [(migration.version, migration.identity)] } := by
  unfold applyMigration at h
  cases hfound : database.applied.find? (·.1 = migration.version) with
  | none =>
    rw [hfound] at h
    obtain ⟨t, ht, h⟩ := except_bind_ok.mp h
    cases h
    exact Or.inr ⟨rfl, t, ht, rfl⟩
  | some record =>
    obtain ⟨version, actualName⟩ := record
    have hversion : version = migration.version := by simpa using List.find?_some hfound
    rw [hfound] at h
    dsimp only at h
    by_cases hname : actualName ≠ migration.identity
    · rw [if_pos hname] at h
      cases h
    · rw [if_neg hname] at h
      cases h
      exact Or.inl ⟨rfl, by rw [Recorded, hfound, hversion, not_not.mp hname]⟩

/-- The tables that a backup without them gets. -/
def emptyTables : AdminTables where
  runtimeSettings := .empty
  adapterConfigs := .empty
  serviceRuntime := .empty
  typed := true

/-- The tables of the backup; a backup without them gets the rows of the migration. -/
def Tables (now : String) (backup : StoredDatabase) (tables : AdminTables) : Prop :=
  backup.admin = .present tables ∨ backup.admin = .absent ∧ tables = seed now emptyTables

/-- What the migrations leave: both of them recorded, and valid tables. -/
structure Migrated (now : String) (backup live : StoredDatabase) (tables seeded : AdminTables) :
    Prop where
  supported : Supported live
  initial : Recorded live initial
  adminWebui : Recorded live adminWebui
  quickCheck : live.quickCheck = backup.quickCheck
  source : Tables now backup tables
  admin : live.admin = .present seeded
  validated : seedAndValidate now tables = .ok seeded

theorem applyMigrations_ok {now : String} {backup live : StoredDatabase}
    (h : applyMigrations now backup = .ok live) :
    ∃ tables seeded, Migrated now backup live tables seeded := by
  obtain ⟨_, hsupported, hrest⟩ := except_bind_ok.mp h
  obtain ⟨migrated, hmigrated, hseed⟩ := except_bind_ok.mp hrest
  clear h hrest
  have hsupported : Supported backup := by
    rintro ⟨version, name⟩ hlast
    unfold supportedSchema at hsupported
    rw [hlast] at hsupported
    dsimp only at hsupported
    by_cases hnewer : version > (MIGRATIONS.length : Int)
    · rw [if_pos hnewer] at hsupported
      cases hsupported
    · exact not_lt.mp hnewer
  obtain ⟨first, hfirst, hsecond⟩ := except_bind_ok.mp hmigrated
  obtain ⟨second, hsecond, hend⟩ := except_bind_ok.mp hsecond
  cases hend
  -- the tables of the first migration are there, so it cannot be run
  obtain ⟨rfl, hinitial⟩ | ⟨-, _, hsql, -⟩ := applyMigration_ok hfirst
  case inr => cases hsql
  obtain ⟨rfl, hadminWebui⟩ | ⟨hmissing, t, hsql, rfl⟩ := applyMigration_ok hsecond
  · cases hadmin : migrated.admin with
    | present tables =>
      rw [hadmin] at hseed
      obtain ⟨seeded, hseeded, hlive⟩ := except_bind_ok.mp hseed
      obtain rfl := Except.ok.inj hlive
      exact ⟨tables, seeded, hsupported, hinitial, hadminWebui, rfl, Or.inl hadmin, rfl, hseeded⟩
    | absent =>
      rw [hadmin] at hseed
      cases hseed
    | incomplete =>
      rw [hadmin] at hseed
      cases hseed
  · cases hadmin : first.admin with
    | absent =>
      dsimp only [adminWebui] at hsql
      rw [hadmin] at hsql
      cases hsql
      obtain ⟨seeded, hseeded, hlive⟩ := except_bind_ok.mp hseed
      obtain rfl := Except.ok.inj hlive
      refine ⟨seed now emptyTables, seeded, ?_, ?_, ?_, rfl, Or.inr ⟨hadmin, rfl⟩, rfl, hseeded⟩
      · intro last hlast
        rw [List.getLast?_concat] at hlast
        obtain rfl := Option.some.inj hlast
        exact le_rfl
      · show List.find? _ (_ ++ _) = _
        rw [List.find?_append, hinitial]
        rfl
      · show List.find? _ (_ ++ _) = _
        rw [List.find?_append, hmissing]
        rfl
    | present tables =>
      dsimp only [adminWebui] at hsql
      rw [hadmin] at hsql
      cases hsql
    | incomplete =>
      dsimp only [adminWebui] at hsql
      rw [hadmin] at hsql
      cases hsql

theorem applyMigrations_again {now restarted : String} {backup live : StoredDatabase}
    {tables seeded : AdminTables} (h : Migrated now backup live tables seeded) :
    applyMigrations restarted live = .ok live := by
  have hsupported : supportedSchema live.applied = .ok () := by
    unfold supportedSchema
    cases hlast : live.applied.getLast? with
    | none => rfl
    | some last => exact if_neg (not_lt.mpr (h.supported last hlast))
  refine except_bind_ok.mpr ⟨(), hsupported, except_bind_ok.mpr ⟨live, ?_, ?_⟩⟩
  · exact except_bind_ok.mpr ⟨live, applyMigration_recorded h.initial restarted live,
      except_bind_ok.mpr ⟨live, applyMigration_recorded h.adminWebui restarted live, rfl⟩⟩
  · rw [h.admin]
    refine except_bind_ok.mpr ⟨seeded, seedAndValidate_again h.validated, ?_⟩
    rw [← h.admin]

theorem quickCheck_iff {database : StoredDatabase} :
    quickCheck database = .ok () ↔ database.quickCheck = true := by
  unfold quickCheck
  by_cases hquick : database.quickCheck = true
  · rw [if_pos hquick]
    exact ⟨fun _ => hquick, fun _ => rfl⟩
  · rw [if_neg hquick]
    exact ⟨nofun, fun h => absurd h hquick⟩

theorem openPool_ok {now : String} {backup live : StoredDatabase} :
    openPool now backup = .ok live ↔ backup.quickCheck = true ∧ live.quickCheck = true ∧
      applyMigrations now backup = .ok live := by
  constructor
  · intro h
    obtain ⟨_, hbefore, h⟩ := except_bind_ok.mp h
    obtain ⟨migrated, hmigrated, h⟩ := except_bind_ok.mp h
    obtain ⟨_, hafter, h⟩ := except_bind_ok.mp h
    obtain rfl := Except.ok.inj h
    exact ⟨quickCheck_iff.mp hbefore, quickCheck_iff.mp hafter, hmigrated⟩
  · rintro ⟨hbefore, hafter, hmigrated⟩
    exact except_bind_ok.mpr ⟨(), quickCheck_iff.mpr hbefore, except_bind_ok.mpr
      ⟨live, hmigrated, except_bind_ok.mpr ⟨(), quickCheck_iff.mpr hafter, rfl⟩⟩⟩

/-- **What has been opened opens again as it is.** -/
theorem openPool_again {now : String} {backup live : StoredDatabase} (restarted : String)
    (h : openPool now backup = .ok live) : openPool restarted live = .ok live := by
  obtain ⟨-, hquick, hmigrated⟩ := openPool_ok.mp h
  obtain ⟨tables, seeded, hmigrated⟩ := applyMigrations_ok hmigrated
  exact openPool_ok.mpr ⟨hquick, hquick, applyMigrations_again hmigrated⟩

/-! ## Startup -/

theorem adapters_of_validated {t : Table AdapterRow.adapterName}
    (h : validateAdapters t.rows = .ok ()) :
    (t.rows.map AdapterRow.adapterName).Perm adapterNames := by
  unfold validateAdapters at h
  by_cases hrows : t.rows.length ≠ seededAdapters.length ∨ (t.rows.any fun row =>
      !seededAdapters.contains row.adapterName || !row.configJson.isObject) = true
  · rw [if_pos hrows] at h
    cases h
  obtain ⟨hlength, hallowed⟩ := not_or.mp hrows
  have hseeded : (t.rows.map AdapterRow.adapterName).Perm seededAdapters := by
    refine keys_perm t.nodup ((List.length_map _).trans (not_not.mp hlength)) fun name hname => ?_
    obtain ⟨row, hrow, rfl⟩ := List.mem_map.mp hname
    by_contra hnot
    exact hallowed (List.any_eq_true.mpr ⟨row, hrow, by simp [hnot]⟩)
  exact hseeded.trans (by decide)

theorem seed_typed (now : String) (tables : AdminTables) :
    (seed now tables).typed = tables.typed := by
  unfold seed
  dsimp only

theorem mem_seed_adapters {now : String} {tables : AdminTables} {row : AdapterRow}
    (h : row ∈ tables.adapterConfigs.rows) : row ∈ (seed now tables).adapterConfigs.rows := by
  unfold seed
  exact Table.mem_insertMissing_of_mem h

theorem of_mem_seed_adapters {now : String} {tables : AdminTables} {row : AdapterRow}
    (h : row ∈ (seed now tables).adapterConfigs.rows) :
    row ∈ tables.adapterConfigs.rows ∨ row.configJson = .empty := by
  unfold seed at h
  rcases Table.mem_insertMissing h with hold | hnew
  · exact Or.inl hold
  · obtain ⟨name, -, rfl⟩ := List.mem_map.mp hnew
    exact Or.inr rfl

theorem acceptable_of_empty {row : AdapterRow} (h : row.configJson = .empty) :
    row.Acceptable x files := by
  unfold AdapterRow.Acceptable
  rw [h]
  trivial

/-- The rows that are seeded are acceptable, so those of the backup decide. -/
theorem acceptable_seed {now : String} {tables : AdminTables} :
    ((seed now tables).typed = true ∧ ∀ row ∈ (seed now tables).adapterConfigs.rows,
        row.Acceptable x files) ↔
      tables.typed = true ∧ ∀ row ∈ tables.adapterConfigs.rows, row.Acceptable x files := by
  rw [seed_typed]
  constructor
  · rintro ⟨htyped, hrows⟩
    exact ⟨htyped, fun row hrow => hrows row (mem_seed_adapters hrow)⟩
  · rintro ⟨htyped, hrows⟩
    refine ⟨htyped, fun row hrow => ?_⟩
    rcases of_mem_seed_adapters hrow with hold | hempty
    · exact hrows row hold
    · exact acceptable_of_empty hempty

theorem acceptable_tables {now : String} {backup : StoredDatabase} {tables : AdminTables}
    (h : Tables now backup tables) : backup.Acceptable x files ↔
      tables.typed = true ∧ ∀ row ∈ tables.adapterConfigs.rows, row.Acceptable x files := by
  unfold StoredDatabase.Acceptable
  rcases h with hpresent | ⟨habsent, rfl⟩
  · rw [hpresent]
    constructor
    · exact fun h => h tables rfl
    · rintro h _ ⟨⟩
      exact h
  · rw [habsent]
    exact ⟨fun _ => acceptable_seed.mpr ⟨rfl, fun row hrow => (List.not_mem_nil hrow).elim⟩, nofun⟩

/-- The administration and the scheduler take what the migrations have left. -/
theorem startUp_seeded {restarted : String} {live : StoredDatabase} {seeded : AdminTables}
    (hopen : openPool restarted live = .ok live) (hadmin : live.admin = .present seeded)
    (hsettings : Adequate seeded.runtimeSettings) :
    (∃ started, startUp x files restarted live = .ok started) ↔ seeded.typed = true ∧
      ∃ loaded, loadAdapters x files seeded.adapterConfigs.rows = .ok loaded := by
  constructor
  · rintro ⟨started, h⟩
    obtain ⟨database, hdatabase, h⟩ := except_bind_ok.mp h
    obtain rfl := Except.ok.inj (hopen.symm.trans (except_mapError_ok.mp hdatabase))
    rw [hadmin] at h
    dsimp only at h
    cases htyped : seeded.typed with
    | false =>
      rw [htyped] at h
      cases h
    | true =>
      rw [htyped] at h
      obtain ⟨adapters, hload, -⟩ := except_bind_ok.mp h
      obtain ⟨settings, -, hload⟩ := except_bind_ok.mp (except_mapError_ok.mp hload)
      split at hload
      · cases hload
      obtain ⟨_, -, hload⟩ := except_bind_ok.mp hload
      obtain ⟨loaded, hloaded, -⟩ := except_bind_ok.mp hload
      exact ⟨rfl, loaded, hloaded⟩
  · rintro ⟨htyped, loaded, hloaded⟩
    obtain ⟨settings, hdecode⟩ := hsettings.decodes
    obtain ⟨config, hconfig, hvalid, -⟩ := hsettings.scheduler hdecode
    refine ⟨(loaded.2, config), except_bind_ok.mpr ⟨live, except_mapError_ok.mpr hopen, ?_⟩⟩
    rw [hadmin]
    dsimp only
    rw [htyped]
    exact except_bind_ok.mpr ⟨loaded.2, except_mapError_ok.mpr (hsettings.load hloaded),
      except_bind_ok.mpr ⟨settings, except_mapError_ok.mpr hdecode, except_bind_ok.mpr
        ⟨config, except_mapError_ok.mpr hconfig, except_bind_ok.mpr
          ⟨(), except_mapError_ok.mpr hvalid, rfl⟩⟩⟩⟩

/-- **A startup accepts a restored database exactly when the adapters of the backup can be
built.** -/
theorem startUp_iff {hashFile : DatabaseFile → VerifiedFile} {ownerId now : String}
    {backup live : StoredDatabase} (h : restoredDatabase hashFile ownerId now backup = .ok live)
    (x : UrlCrate) (files : FileSystem) (restarted : String) :
    (∃ started, startUp x files restarted live = .ok started) ↔ backup.Acceptable x files := by
  obtain ⟨_, -, h⟩ := except_bind_ok.mp h
  have hopen := except_mapError_ok.mp h
  obtain ⟨-, -, hmigrated⟩ := openPool_ok.mp hopen
  obtain ⟨tables, seeded, hmigrated⟩ := applyMigrations_ok hmigrated
  have hseeded := seedAndValidate_ok.mp hmigrated.validated
  rw [startUp_seeded (openPool_again restarted hopen) hmigrated.admin
      (adequate_of_validated hseeded.2.1), loadAdapters_iff (adapters_of_validated hseeded.2.2.1),
    acceptable_tables hmigrated.source, hseeded.1]
  exact acceptable_seed

/-- **Later startups leave a database as the first has left it.** -/
theorem openPool_runs {now : String} {backup live : StoredDatabase}
    (h : openPool now backup = .ok live) (startups : List String) :
    startups.foldlM (fun database restarted => openPool restarted database) live = .ok live := by
  induction startups with
  | nil => rfl
  | cons restarted startups ih =>
    rw [List.foldlM_cons]
    exact except_bind_ok.mpr ⟨live, openPool_again restarted h, ih⟩

/-! ## Samples -/

namespace Sample

/-- A backup with this configuration of one adapter. -/
def stored (configJson : ConfigJson) : StoredDatabase where
  bytes := SQLITE_HEADER ++ [16, 0]
  integrityCheck := some "ok"
  quickCheck := true
  applied := [(initial.version, initial.identity), (adminWebui.version, adminWebui.identity)]
  db := .empty
  admin := .present
    { runtimeSettings := (bootstrapped noUrls "").runtimeSettings
      adapterConfigs := (bootstrapped noUrls "").adapterConfigs.replace
        { seededAdapter "" "tcp_reachable" with configJson := configJson }
      serviceRuntime := .empty
      typed := true }

def localDatabase : ConfigJson := .written (.tcpReachable [("database", ⟨"127.0.0.1", 5432, true⟩)])

def restoring (configJson : ConfigJson) : Except BackupError StoredDatabase :=
  restoredDatabase (fun _ => ⟨"", 1⟩) "owner" "2030" (stored configJson)

theorem restoring_localDatabase : (restoring localDatabase).isOk = true := by decide +kernel

theorem stored_acceptable : (stored localDatabase).Acceptable noUrls fun path => .resolved path := by
  intro tables htables
  cases htables
  refine ⟨rfl, fun row hrow => ?_⟩
  rcases Table.mem_replace.mp hrow with ⟨hold, -⟩ | ⟨rfl, -⟩
  · obtain ⟨name, -, rfl⟩ := List.mem_map.mp hold
    exact acceptable_of_empty rfl
  · refine ⟨rfl, fun entry hentry => ?_⟩
    obtain rfl := List.mem_singleton.mp hentry
    decide +kernel

end Sample

theorem sample_startUp : ∃ live, Sample.restoring Sample.localDatabase = .ok live ∧
    ∃ started, startUp Sample.noUrls (fun path => .resolved path) "2031" live = .ok started := by
  cases hlive : Sample.restoring Sample.localDatabase with
  | error e =>
    have hok := Sample.restoring_localDatabase
    rw [hlive] at hok
    cases hok
  | ok live => exact ⟨live, rfl, (startUp_iff hlive _ _ _).mpr Sample.stored_acceptable⟩

theorem sample_openPool_runs : ∃ live, openPool "2030" (Sample.stored .empty) = .ok live ∧
    ["2031", "2032"].foldlM (fun database restarted => openPool restarted database) live =
      .ok live := by
  cases hlive : openPool "2030" (Sample.stored .empty) with
  | error e =>
    have hok : (openPool "2030" (Sample.stored .empty)).isOk = true := by decide +kernel
    rw [hlive] at hok
    cases hok
  | ok live => exact ⟨live, rfl, openPool_runs hlive ["2031", "2032"]⟩

end RemindiCore.Admin
