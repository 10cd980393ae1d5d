import RemindiCore.Proof.AdminRows
import RemindiCore.Service.System

/-!
# The administrative audit

What an update that returns a refusal has done (`Rejected`): it has appended one
rejected event and changed nothing else.  Each update is followed call by call with a
triple of its lane, whatever the other lane does in between (`Concludes`), and the
triples of both lanes give an invariant of the two administrators (`Consistent`).
-/

namespace RemindiCore.Admin

open Fallible KeyedTable Machine Triggers

variable {x : UrlCrate} {s t : AdminState x} {lane : Lane} {c : AdminConfig x}

/-! ## What an update has done -/

/-- The events that the calls of an update have appended. -/
def ownEvents (c : AdminConfig x) : List AdminEvent :=
  c.history.flatMap fun step => match step.action with
    | .call .. => step.after.adminEvents.drop step.before.adminEvents.length
    | .event _ => []

/-- The calls of an update have changed no row and no snapshot. -/
def RowsUntouched (c : AdminConfig x) : Prop :=
  ∀ step ∈ c.history, ∀ k failed, step.action = .call k failed →
    step.after.runtimeSettings = step.before.runtimeSettings ∧
      step.after.adapterConfigs = step.before.adapterConfigs ∧
        step.after.active = step.before.active

/-- Exactly one rejected event was appended, and nothing else has changed. -/
structure Rejected (lane : Lane) (c : AdminConfig x) : Prop where
  untouched : RowsUntouched c
  event : ∃ event, ownEvents c = [event] ∧ event.eventType = lane.eventType ∧
    event.outcome = .rejected

/-- The update has done nothing yet. -/
structure Calm (lane : Lane) (c : AdminConfig x) : Prop where
  audited : Audited c.state lane
  events : ownEvents c = []
  untouched : RowsUntouched c

/-- What holds when an update returns. -/
structure Settled {α : Type} (lane : Lane) (result : Except AdminError α) (c : AdminConfig x) :
    Prop where
  audited : Audited c.state lane
  rejected : result = .error .validation ∨ result = .error .versionConflict → Rejected lane c

theorem Settled.database {α : Type} (h : Audited c.state lane) :
    Settled lane (.error .database : Except AdminError α) c :=
  ⟨h, fun hresult => by rcases hresult with h | h <;> cases h⟩

theorem Settled.ok {α : Type} {a : α} (h : Audited c.state lane) : Settled lane (.ok a) c :=
  ⟨h, fun hresult => by rcases hresult with h | h <;> cases h⟩

/-! ## The other lane -/

theorem interfere_spared (lane : Lane) (e : Interference x) (s : AdminState x) :
    Spared lane s ((administration x lane).interfere e s) := by
  show Spared lane s (if e.1.inLane lane = true then s else (serveAdmin e.1 e.2 s).2)
  by_cases hlane : e.1.inLane lane = true
  · rw [if_pos hlane]
    exact .refl lane s
  · rw [if_neg hlane]
    exact serveAdmin_spared (Bool.eq_false_iff.mpr hlane) e.2 s

theorem audited_stable : Stable (administration x lane) fun c => Audited c.state lane :=
  fun c e h => (interfere_spared lane e c.state).audited h

theorem ownEvents_event (e : Interference x) :
    ownEvents (c.event (administration x lane) e) = ownEvents c := by
  unfold ownEvents Config.event
  simp

theorem RowsUntouched.event (h : RowsUntouched c) (e : Interference x) :
    RowsUntouched (c.event (administration x lane) e) := by
  intro step hstep k failed hk
  rcases List.mem_append.mp hstep with hstep | hstep
  · exact h step hstep k failed hk
  · obtain rfl := List.mem_singleton.mp hstep
    cases hk

theorem calm_stable : Stable (administration x lane) (Calm lane) :=
  fun c e h => ⟨audited_stable c e h.audited, (ownEvents_event e).trans h.events, h.untouched.event e⟩

/-! ## One call -/

section

variable {α β : Type} {k : AdminCall x} {a : AdminAnswer}

theorem ownEvents_served : ownEvents (c.served (administration x lane) k a) =
    ownEvents c ++ (serveAdmin k a c.state).2.adminEvents.drop c.state.adminEvents.length := by
  unfold ownEvents Config.served
  simp [administration]

theorem RowsUntouched.served (h : RowsUntouched c)
    (hsame : (serveAdmin k a c.state).2.runtimeSettings = c.state.runtimeSettings ∧
      (serveAdmin k a c.state).2.adapterConfigs = c.state.adapterConfigs ∧
        (serveAdmin k a c.state).2.active = c.state.active) :
    RowsUntouched (c.served (administration x lane) k a) := by
  intro step hstep k' failed hk
  rcases List.mem_append.mp hstep with hstep | hstep
  · exact h step hstep k' failed hk
  · obtain rfl := List.mem_singleton.mp hstep
    exact hsame

theorem Calm.served (h : Calm lane c) (hsame : (serveAdmin k a c.state).2 = c.state) :
    Calm lane (c.served (administration x lane) k a) where
  audited := by
    show Audited (serveAdmin k a c.state).2 lane
    rw [hsame]
    exact h.audited
  events := by
    rw [ownEvents_served, hsame, h.events, List.drop_length]
    rfl
  untouched := h.untouched.served (by rw [hsame]; exact ⟨rfl, rfl, rfl⟩)

/-- A program of this lane that satisfies what an update must. -/
abbrev Concludes (lane : Lane) (P : AdminConfig x → Prop) (m : AdminProgram x α) : Prop :=
  Triple (administration x lane) P m (Settled lane) fun c => Audited c.state lane

/-- A program that only reads, with values of this kind. -/
def Reads (lane : Lane) (m : AdminProgram x α) (R : α → Prop) : Prop :=
  Triple (administration x lane) (Calm lane) m (fun result c => match result with
    | .ok a => Calm lane c ∧ R a
    | .error e => e = .database ∧ Audited c.state lane) fun c => Audited c.state lane

theorem Reads.bind {m : AdminProgram x α} {R : α → Prop} {f : α → AdminProgram x β}
    (hm : Reads lane m R) (hf : ∀ a, R a → Concludes lane (Calm lane) (f a)) :
    Concludes lane (Calm lane) (m.bind f) := by
  refine Triple.bind (R := fun a c => Calm lane c ∧ R a) (Triple.weaken hm (fun _ h => h) ?_) ?_
  · rintro (e | a) c h
    · obtain ⟨rfl, h⟩ := h
      exact .database h
    · exact h
  · exact fun a c h => hf a h.2 c h.1

/-- A call that changes nothing. -/
theorem reads_query {R : AdminValue k → Prop} (hsame : ∀ a (s : AdminState x), (serveAdmin k a s).2 = s)
    (hvalue : ∀ a (s : AdminState x) value, Audited s lane → (serveAdmin k a s).1 = some value →
      R value) : Reads lane (query k) R := by
  refine Triple.perform calm_stable (fun _ h => h.audited) ?_ ?_
  · intro c a value hc hreply
    exact ⟨hc.served (hsame a c.state), hvalue a c.state value hc.audited hreply⟩
  · intro c a hc _
    exact ⟨rfl, (hc.served (hsame a c.state)).audited⟩

/-- What is read can be decoded. -/
theorem Reads.decode {m : AdminProgram x α} {R : α → Prop} {R' : β → Prop}
    {f : α → Except AdminError β} (hm : Reads lane m R)
    (hf : ∀ a, R a → ∃ b, f a = .ok b ∧ R' b) :
    Reads lane (m.bind fun a => Prog.ofExcept (f a)) R' := by
  refine Triple.bind (R := fun a c => Calm lane c ∧ R a) (Triple.weaken hm (fun _ h => h) ?_) ?_
  · rintro (e | a) c h
    · exact h
    · exact h
  · intro a c h
    obtain ⟨b, hb, hR'⟩ := hf a h.2
    rw [hb]
    exact ⟨h.1, hR'⟩

/-- **A refusal appends its event.** -/
theorem reject_concludes {actor : AdminActor} {details : AdminDetails} {error : AdminError} :
    Concludes lane (Calm lane)
      (reject lane.eventType actor details error : AdminProgram x α) := by
  refine Triple.bind (R := fun _ c => Audited c.state lane ∧ Rejected lane c)
    (Triple.perform (k := .append lane.eventType actor .rejected details) calm_stable
      (fun _ h => h.audited) ?_ ?_) fun _ c h => ⟨h.1, fun _ => h.2⟩
  · intro c a value hc hreply
    obtain ⟨event, hevent, hstate⟩ := append_eq hreply
    have happended := serve_append lane.eventType actor .rejected details a c.state
    refine ⟨(happended.spared (Or.inr nofun)).audited hc.audited, ?_, event, ?_, hevent.eventType,
      hevent.outcome⟩
    · refine hc.untouched.served ?_
      rw [hstate]
      exact ⟨rfl, rfl, rfl⟩
    · rw [ownEvents_served, hc.events, hstate]
      exact List.drop_left
  · intro c a hc _
    have happended := serve_append lane.eventType actor .rejected details a c.state
    exact .database ((happended.spared (Or.inr nofun)).audited hc.audited)

/-- The end of an update, by the result of its transaction. -/
theorem concluded_concludes {actor : AdminActor} {name : String} {result : WriteResult}
    {committed : AdminProgram x α}
    (hcommitted : Concludes lane (fun c => Audited c.state lane) committed) :
    Concludes lane (fun c => Audited c.state lane ∧
      (result = .stale ∨ result = .writeFailed → Calm lane c))
      (concluded lane.eventType actor name result committed) := by
  cases result with
  | committed => exact Triple.weaken hcommitted (fun _ h => h.1) fun _ _ h => h
  | stale => exact Triple.weaken reject_concludes (fun _ h => h.2 (Or.inl rfl)) fun _ _ h => h
  | failed => exact fun c h => .database h.1
  | writeFailed =>
    have hfailed := fun (c : AdminConfig x) a => serve_append lane.eventType actor .failed
      (detailsOf name true (some "INTERNAL_ERROR")) a c.state
    suffices hcalm : Concludes lane (Calm lane)
        (concluded lane.eventType actor name .writeFailed committed) from
      Triple.weaken hcalm (fun _ h => h.2 (Or.inr rfl)) fun _ _ h => h
    refine Triple.bind (R := fun _ c => Audited c.state lane)
      (Triple.perform (k := .append lane.eventType actor .failed _) calm_stable
        (fun _ h => h.audited) ?_ ?_) fun _ c h => .database h
    · exact fun c a _ hc _ => ((hfailed c a).spared (Or.inr nofun)).audited hc.audited
    · exact fun c a hc _ => .database (((hfailed c a).spared (Or.inr nofun)).audited hc.audited)

end

/-! ## Settings -/

theorem listSettings_reads : Reads .settings (listSettings : AdminProgram x _) fun settings =>
    ∀ key, isKnownSetting key = true → (settings.find? (·.key = key)).isSome = true := by
  refine Reads.decode (R := SettingsLegible) ?_ fun rows h => h.list
  refine reads_query (k := .listSettings) (fun _ _ => rfl) ?_
  intro a s rows hs hreply
  dsimp only [serveAdmin] at hreply
  split at hreply
  · obtain rfl := Option.some.inj hreply
    exact hs.1
  · cases hreply

/-- The clock. -/
theorem now_reads : Reads lane (query .now : AdminProgram x String) fun _ => True :=
  reads_query (fun _ _ => rfl) fun _ _ _ _ _ => trivial

theorem updateRuntimeSetting_concludes (key : String) (value : I64) (expectedVersion : Int)
    (actor : AdminActor) : Concludes .settings (Calm .settings)
      (updateRuntimeSetting key value expectedVersion actor : AdminProgram x AdminReply) := by
  unfold updateRuntimeSetting
  dsimp only
  split
  · exact reject_concludes
  · next hknown =>
    have hkey : isKnownSetting key = true := by
      by_contra hunknown
      simp [hunknown] at hknown
    refine listSettings_reads.bind fun current hcurrent => ?_
    cases hcandidate : validateCandidate current key value with
    | error error => exact reject_concludes
    | ok =>
      obtain ⟨selected, hselected⟩ := Option.isSome_iff_exists.mp (hcurrent key hkey)
      dsimp only
      rw [hselected]
      dsimp only
      split
      · exact reject_concludes
      · refine now_reads.bind fun occurredAt _ => ?_
        have hupdated : ∃ updated, updatedSetting current key value actor.actorId occurredAt =
            .ok updated := by
          unfold updatedSetting
          rw [hselected]
          exact ⟨_, rfl⟩
        obtain ⟨updated, hupdated⟩ := hupdated
        rw [hupdated]
        show Concludes .settings (Calm .settings)
          ((query (.writeSetting key value expectedVersion occurredAt actor)).bind fun result => _)
        refine Triple.bind (R := fun (result : WriteResult) c => Audited c.state .settings ∧
          (result = .stale ∨ result = .writeFailed → Calm .settings c))
          (Triple.perform (k := .writeSetting key value expectedVersion occurredAt actor)
            calm_stable (fun _ h => h.audited) ?_ ?_) fun result => ?_
        · intro c a result hc hreply
          have haudited := serveAdmin_audited
            (k := .writeSetting key value expectedVersion occurredAt actor) trivial a hc.audited
          exact ⟨haudited, fun hresult => hc.served (writeSetting_unchanged hreply hresult)⟩
        · intro c a hc hreply
          cases hreply
        · exact concluded_concludes fun c h => .ok h

/-! ## Adapters -/

/-- Every path of the configuration is text, as it is in one that is read from JSON. -/
def AdapterConfiguration.isText : AdapterConfiguration → Bool
  | .fileExists roots aliases =>
    roots.all PathBuf.isText && aliases.all fun target => target.2.isText
  | _ => true

theorem encoded_of_isText {configuration : AdapterConfiguration}
    (h : configuration.isText = true) : encoded configuration = .ok (.written configuration) := by
  cases configuration with
  | fileExists roots aliases => exact if_pos h
  | _ => rfl

theorem decodeConfiguration_written (configuration : AdapterConfiguration) :
    decodeConfiguration configuration.adapterName (.written configuration) = .ok configuration := by
  have hname : validateNameMatches configuration.adapterName configuration = .ok () := if_pos rfl
  exact Transaction.except_bind_ok.mpr ⟨(), hname, rfl⟩

theorem adapterCandidate_ok {files : FileSystem} {current : List AdapterConfigView}
    {adapterName : String} {enabled : Bool} {configuration : AdapterConfiguration}
    {actorId occurredAt : String} {updated : AdapterConfigView} {snapshot : AdapterSnapshot x}
    (h : adapterCandidate x files current adapterName enabled configuration actorId occurredAt =
      .ok (updated, snapshot)) :
    adapterName = configuration.adapterName ∧ updated.configuration = configuration := by
  obtain ⟨_, hname, h⟩ := Transaction.except_bind_ok.mp h
  have hmatches : adapterName = configuration.adapterName := by
    unfold validateNameMatches at hname
    split at hname
    · assumption
    · cases hname
  refine ⟨hmatches, ?_⟩
  split at h
  · cases h
  · obtain ⟨_, _, h⟩ := Transaction.except_bind_ok.mp h
    cases h
    rfl

theorem listAdapters_reads : Reads .adapters (listAdapters : AdminProgram x _) fun configs =>
    configs.map AdapterConfigView.adapterName = adapterNames := by
  refine Reads.decode (R := fun rows => AdaptersLegible rows) ?_ fun rows h => h.list
  refine reads_query (k := .listAdapters) (fun _ _ => rfl) ?_
  intro a s rows hs hreply
  dsimp only [serveAdmin] at hreply
  split at hreply
  · obtain rfl := Option.some.inj hreply
    exact hs.1
  · cases hreply

theorem updateAdapter_concludes (adapterName : String) (enabled : Bool)
    (configuration : AdapterConfiguration) (expectedVersion : Int) (actor : AdminActor)
    (htext : configuration.isText = true) : Concludes .adapters (Calm .adapters)
      (updateAdapter adapterName enabled configuration expectedVersion actor :
        AdminProgram x AdminReply) := by
  unfold updateAdapter
  dsimp only
  split
  · exact reject_concludes
  · next hknown =>
    refine listAdapters_reads.bind fun current hcurrent => ?_
    refine now_reads.bind fun occurredAt _ => ?_
    refine Reads.bind (R := fun (candidate : Except AdminError _) => ∀ updated snapshot,
      candidate = .ok (updated, snapshot) →
        adapterName = configuration.adapterName ∧ updated.configuration = configuration)
      (reads_query (k := .candidate current adapterName enabled configuration actor.actorId
        occurredAt) (fun _ _ => rfl) ?_) fun candidate hcandidate => ?_
    · intro a s candidate _ hreply updated snapshot hok
      obtain rfl := Option.some.inj hreply
      exact adapterCandidate_ok hok
    · rcases candidate with error | ⟨updated, snapshot⟩
      · exact reject_concludes
      · obtain ⟨hname, hconfiguration⟩ := hcandidate updated snapshot rfl
        have hmem : adapterName ∈ current.map AdapterConfigView.adapterName := by
          rw [hcurrent]
          by_contra hunknown
          simp [isKnownAdapter, hunknown] at hknown
        obtain ⟨config, hconfig, heq⟩ := List.mem_map.mp hmem
        have hfound : (current.find? (·.adapterName = adapterName)).isSome = true :=
          List.find?_isSome.mpr ⟨config, hconfig, decide_eq_true heq⟩
        obtain ⟨selected, hselected⟩ := Option.isSome_iff_exists.mp hfound
        dsimp only
        rw [hselected]
        dsimp only
        split
        · exact reject_concludes
        · rw [hconfiguration, encoded_of_isText htext]
          show Concludes .adapters (Calm .adapters)
            ((query (.writeAdapter adapterName enabled (.written configuration) expectedVersion
              occurredAt actor)).bind fun result => _)
          refine Triple.bind (R := fun (result : WriteResult) c => Audited c.state .adapters ∧
            (result = .stale ∨ result = .writeFailed → Calm .adapters c))
            (Triple.perform (k := .writeAdapter adapterName enabled (.written configuration)
              expectedVersion occurredAt actor) calm_stable (fun _ h => h.audited) ?_ ?_)
            fun result => ?_
          · intro c a result hc hreply
            have haudited := serveAdmin_audited
              (k := .writeAdapter adapterName enabled (.written configuration) expectedVersion
                occurredAt actor)
              ⟨configuration, hname ▸ decodeConfiguration_written configuration⟩ a hc.audited
            exact ⟨haudited, fun hresult => hc.served (writeAdapter_unchanged hreply hresult)⟩
          · intro c a hc hreply
            cases hreply
          · refine concluded_concludes ?_
            refine Triple.bind (R := fun _ c => Audited c.state .adapters)
              (Triple.perform (k := .publish snapshot) audited_stable (fun _ h => h) ?_ ?_)
              fun _ c h => .ok h
            · exact fun c a _ h _ => h
            · exact fun c a h _ => .database h

/-! ## Requests -/

/-- The paths of the configuration that is passed are text. -/
def AdminRequest.isText : AdminRequest → Bool
  | .updateRuntimeSetting .. => true
  | .updateAdapter _ _ configuration .. => configuration.isText

theorem program_concludes {request : AdminRequest} (htext : request.isText = true) :
    Concludes request.lane (Calm request.lane) (request.program : AdminProgram x AdminReply) := by
  cases request with
  | updateRuntimeSetting key value expectedVersion actor =>
    exact updateRuntimeSetting_concludes key value expectedVersion actor
  | updateAdapter adapterName enabled configuration expectedVersion actor =>
    exact updateAdapter_concludes adapterName enabled configuration expectedVersion actor htext

abbrev InLane {α : Type} (lane : Lane) (m : AdminProgram x α) : Prop :=
  m.Makes fun k => k.inLane lane = true

theorem query_inLane {k : AdminCall x} (h : k.inLane lane = true) : InLane lane (query k) :=
  Prog.Makes.perform h

theorem reject_inLane {α : Type} {actor : AdminActor} {details : AdminDetails} {error : AdminError} :
    InLane lane (reject lane.eventType actor details error : AdminProgram x α) := by
  refine Prog.Makes.bind (query_inLane ?_) fun _ => trivial
  cases lane <;> rfl

theorem concluded_inLane {α : Type} {actor : AdminActor} {name : String} {result : WriteResult}
    {committed : AdminProgram x α} (h : InLane lane committed) :
    InLane lane (concluded lane.eventType actor name result committed) := by
  cases result with
  | committed => exact h
  | stale => exact reject_inLane
  | failed => trivial
  | writeFailed =>
    refine Prog.Makes.bind (query_inLane ?_) fun _ => trivial
    cases lane <;> rfl

theorem updateRuntimeSetting_inLane (key : String) (value : I64) (expectedVersion : Int)
    (actor : AdminActor) : InLane .settings
      (updateRuntimeSetting key value expectedVersion actor : AdminProgram x AdminReply) := by
  unfold updateRuntimeSetting
  dsimp only
  split
  · exact reject_inLane
  · refine Prog.Makes.bind (Prog.Makes.bind (query_inLane rfl) fun _ => Prog.Makes.ofExcept)
      fun current => ?_
    split
    · exact reject_inLane
    · split
      · trivial
      · split
        · exact reject_inLane
        · refine Prog.Makes.bind (query_inLane rfl) fun occurredAt => ?_
          refine Prog.Makes.bind Prog.Makes.ofExcept fun updated => ?_
          exact Prog.Makes.bind (query_inLane rfl) fun result => concluded_inLane trivial

theorem updateAdapter_inLane (adapterName : String) (enabled : Bool)
    (configuration : AdapterConfiguration) (expectedVersion : Int) (actor : AdminActor) :
    InLane .adapters (updateAdapter adapterName enabled configuration expectedVersion actor :
      AdminProgram x AdminReply) := by
  unfold updateAdapter
  dsimp only
  split
  · exact reject_inLane
  · refine Prog.Makes.bind (Prog.Makes.bind (query_inLane rfl) fun _ => Prog.Makes.ofExcept)
      fun current => ?_
    refine Prog.Makes.bind (query_inLane rfl) fun occurredAt => ?_
    refine Prog.Makes.bind (query_inLane rfl) fun candidate => ?_
    split
    · exact reject_inLane
    · split
      · trivial
      · split
        · exact reject_inLane
        · refine Prog.Makes.bind Prog.Makes.ofExcept fun configJson => ?_
          refine Prog.Makes.bind (query_inLane rfl) fun result => concluded_inLane ?_
          exact Prog.Makes.bind (query_inLane rfl) fun _ => trivial

theorem program_inLane (request : AdminRequest) :
    InLane request.lane (request.program : AdminProgram x AdminReply) := by
  cases request with
  | updateRuntimeSetting key value expectedVersion actor =>
    exact updateRuntimeSetting_inLane key value expectedVersion actor
  | updateAdapter adapterName enabled configuration expectedVersion actor =>
    exact updateAdapter_inLane adapterName enabled configuration expectedVersion actor

/-! ## Both administrators -/

/-- An update in progress will conclude as it must. -/
structure Pending (lane : Lane) (s : AdminState x) (call : InFlight x) : Prop where
  own : call.request.lane = lane
  state : call.config.state = s
  calls : ∃ k next, call.program = .call k next
  makes : InLane lane call.program
  concludes : wp (administration x lane) (Settled lane) (fun c => Audited c.state lane)
    call.program call.config

/-- The rows of both lanes are audited, and so will those be that the updates leave. -/
structure Consistent (s : Administrators x) : Prop where
  audited : ∀ lane, Audited s.state lane
  pending : ∀ lane call, s.lane lane = some call → Pending lane s.state call

/-- What a step has returned. -/
def Concluded (response : Option (Returned x)) : Prop :=
  ∀ returned, response = some returned →
    Settled returned.request.lane returned.result returned.config

/-- The state of a program that will conclude is audited. -/
theorem audited_of_wp {m : AdminProgram x AdminReply}
    (h : wp (administration x lane) (Settled lane) (fun c => Audited c.state lane) m c) :
    Audited c.state lane := by
  cases m with
  | pure reply => exact h.audited
  | throw error => exact h.audited
  | call k next => exact (h []).1

/-- An update goes on, or has returned what it must. -/
theorem settleCall_pending {request : AdminRequest} {m : AdminProgram x AdminReply}
    (hlane : request.lane = lane) (hmakes : InLane lane m)
    (hwp : wp (administration x lane) (Settled lane) (fun c => Audited c.state lane) m c) :
    (∀ call, (settleCall request c m).1 = some call → Pending lane c.state call) ∧
      Concluded (settleCall request c m).2 := by
  subst hlane
  cases m with
  | pure reply =>
    refine ⟨fun _ h => (by cases h), fun returned h => ?_⟩
    obtain rfl := Option.some.inj h
    exact hwp
  | throw error =>
    refine ⟨fun _ h => (by cases h), fun returned h => ?_⟩
    obtain rfl := Option.some.inj h
    exact hwp
  | call k next =>
    refine ⟨fun call h => ?_, fun _ h => (by cases h)⟩
    obtain rfl := Option.some.inj h
    exact ⟨rfl, rfl, ⟨k, next, rfl⟩, hmakes, hwp⟩

theorem setLane_state (s : Administrators x) (lane : Lane) (call : Option (InFlight x)) :
    (s.setLane lane call).state = s.state := by
  cases lane <;> rfl

theorem lane_setLane (s : Administrators x) (lane lane' : Lane) (call : Option (InFlight x)) :
    (s.setLane lane call).lane lane' = if lane' = lane then call else s.lane lane' := by
  cases lane <;> cases lane' <;> rfl

/-- A call of one lane leaves the other alone. -/
theorem serve_other {k : AdminCall x} {other : Lane} (hk : k.inLane lane = true)
    (hother : other ≠ lane) (a : AdminAnswer) (s : AdminState x) :
    Spared other s (serveAdmin k a s).2 ∧
      (administration x other).interfere (k, a) s = (serveAdmin k a s).2 := by
  by_cases hnow : k.inLane other = true
  · have hsame : (serveAdmin k a s).2 = s := by
      cases k with
      | now => rfl
      | _ => cases lane <;> cases other <;> simp_all [AdminCall.inLane]
    rw [hsame]
    exact ⟨.refl other s, if_pos hnow⟩
  · exact ⟨serveAdmin_spared (Bool.eq_false_iff.mpr hnow) a s, if_neg hnow⟩

theorem Pending.interrupted {call : InFlight x} {other : Lane} {k : AdminCall x}
    (h : Pending other s call) (hk : k.inLane lane = true) (hother : other ≠ lane)
    (a : AdminAnswer) :
    Pending other (serveAdmin k a s).2 (Admin.interrupted other (k, a) call) where
  own := h.own
  state := by
    show (administration x other).interfere (k, a) call.config.state = _
    rw [h.state]
    exact (serve_other hk hother a s).2
  calls := h.calls
  makes := h.makes
  concludes := by
    obtain ⟨k', next, hprogram⟩ := h.calls
    have hwp := h.concludes
    rw [hprogram] at hwp
    show wp _ _ _ call.program _
    rw [hprogram]
    exact fun events => hwp ((k, a) :: events)

theorem other_ne (lane : Lane) : lane.other ≠ lane := by
  cases lane <;> decide

/-- The paths that a label brings are text. -/
def AdminLabel.isText : AdminLabel → Bool
  | .begin request => request.isText
  | _ => true

/-- **One step.** -/
theorem adminStep_consistent {s : Administrators x} {label : AdminLabel} (hs : Consistent s)
    (htext : label.isText = true) :
    Consistent (adminStep s label).1 ∧ Concluded (adminStep s label).2 ∧
      s.state.adminEvents <+: (adminStep s label).1.state.adminEvents := by
  cases label with
  | begin request =>
    dsimp only [adminStep]
    cases hlane : s.lane request.lane with
    | some call => exact ⟨hs, fun _ h => (by cases h), List.prefix_rfl⟩
    | none =>
      have hcalm : Calm request.lane (.start s.state : AdminConfig x) :=
        ⟨hs.audited _, rfl, fun _ h => (List.not_mem_nil h).elim⟩
      obtain ⟨hpending, hconcluded⟩ := settleCall_pending rfl (program_inLane request)
        (program_concludes htext _ hcalm)
      refine ⟨⟨fun lane => ?_, fun lane call hcall => ?_⟩, hconcluded, ?_⟩
      · rw [setLane_state]
        exact hs.audited lane
      · rw [setLane_state]
        rw [lane_setLane] at hcall
        split at hcall
        · next heq =>
          subst heq
          exact hpending call hcall
        · exact hs.pending lane call hcall
      · exact (setLane_state s request.lane _).symm ▸ List.prefix_rfl
  | serve lane a =>
    dsimp only [adminStep]
    cases hlane : s.lane lane with
    | none => exact ⟨hs, fun _ h => (by cases h), List.prefix_rfl⟩
    | some call =>
      have hcall := hs.pending lane call hlane
      obtain ⟨k, next, hprogram⟩ := hcall.calls
      have hmakes := hcall.makes
      have hwp := hcall.concludes
      rw [hprogram] at hmakes hwp
      obtain ⟨hpending, hconcluded⟩ := settleCall_pending
        (c := call.config.served (administration x lane) k a) hcall.own
        (hmakes.2 (serveAdmin k a call.config.state).1) ((hwp []).2 a)
      have hserved : (call.config.served (administration x lane) k a).state =
          (serveAdmin k a s.state).2 := by
        show (serveAdmin k a call.config.state).2 = _
        rw [hcall.state]
      rw [hserved] at hpending
      dsimp only
      rw [hprogram]
      refine ⟨⟨fun lane' => ?_, fun lane' call' hcall' => ?_⟩, hconcluded, ?_⟩
      · rw [setLane_state, setLane_state]
        show Audited (call.config.served (administration x lane) k a).state lane'
        by_cases hsame : lane' = lane
        · subst hsame
          exact audited_of_wp ((hwp []).2 a)
        · rw [hserved]
          exact (serve_other hmakes.1 hsame a s.state).1.audited (hs.audited lane')
      · rw [setLane_state, setLane_state]
        show Pending lane' (call.config.served (administration x lane) k a).state call'
        rw [hserved]
        rw [lane_setLane, lane_setLane] at hcall'
        split at hcall'
        · next hother =>
          subst hother
          obtain ⟨other, hfound, rfl⟩ := Option.map_eq_some_iff.mp hcall'
          exact (hs.pending _ other hfound).interrupted hmakes.1 (other_ne lane) a
        · next hother =>
          have hsame : lane' = lane := by cases lane <;> cases lane' <;> simp_all [Lane.other]
          subst hsame
          rw [if_pos rfl] at hcall'
          exact hpending call' hcall'
      · rw [setLane_state, setLane_state]
        show s.state.adminEvents <+: (call.config.served (administration x lane) k a).state.adminEvents
        rw [hserved]
        exact serveAdmin_events k a s.state
  | abandon lane =>
    refine ⟨⟨fun other => ?_, fun other call hcall => ?_⟩, fun _ h => (by cases h), ?_⟩
    · show Audited (s.setLane lane none).state other
      rw [setLane_state]
      exact hs.audited other
    · change (s.setLane lane none).lane other = some call at hcall
      show Pending other (s.setLane lane none).state call
      rw [setLane_state]
      rw [lane_setLane] at hcall
      split at hcall
      · cases hcall
      · exact hs.pending other call hcall
    · show s.state.adminEvents <+: (s.setLane lane none).state.adminEvents
      exact (setLane_state s lane none).symm ▸ List.prefix_rfl

/-! ## The start -/

theorem seededSettings_valid : ∀ setting ∈ seededSettings,
    isKnownSetting setting.1 = true ∧ -(2 ^ 63) ≤ setting.2 ∧ setting.2 < 2 ^ 63 := by
  decide

theorem bootstrapped_settings (now : String) :
    SettingsLegible (bootstrapped x now).runtimeSettings.rows where
  decodes := by
    intro row hrow
    obtain ⟨setting, hsetting, rfl⟩ := List.mem_map.mp hrow
    obtain ⟨hknown, hlower, hupper⟩ := seededSettings_valid setting hsetting
    exact settingOf_written ⟨setting.2, hlower, hupper⟩ hknown rfl
  complete := by
    intro key hkey
    obtain ⟨definition, hdefinition⟩ := Option.isSome_iff_exists.mp hkey
    have heq : definition.key = key := by simpa using List.find?_some hdefinition
    have hseeded : ∀ definition ∈ settingDefinitions,
        definition.key ∈ seededSettings.map Prod.fst := by decide
    show key ∈ (seededSettings.map (seededSetting now)).map SettingRow.settingKey
    rw [List.map_map, ← heq]
    exact hseeded definition (List.mem_of_find?_eq_some hdefinition)

theorem bootstrapped_adapters (now : String) :
    AdaptersLegible (bootstrapped x now).adapterConfigs.rows where
  decodes := by
    intro row hrow
    obtain ⟨name, hname, rfl⟩ := List.mem_map.mp hrow
    have hempty : ∀ name ∈ seededAdapters,
        ∃ configuration, emptyConfiguration name = .ok configuration := by
      simp [seededAdapters, emptyConfiguration]
    rw [adapterViewOf_ok]
    exact hempty name hname
  names := by
    show sortedNames ((seededAdapters.map (seededAdapter now)).map AdapterRow.adapterName) = _
    rw [List.map_map]
    exact (congrArg sortedNames (List.map_id seededAdapters)).trans (by decide)

theorem start_consistent (x : UrlCrate) (now : String) : Consistent (.start x now) where
  audited := by
    intro lane
    cases lane with
    | settings =>
      refine ⟨bootstrapped_settings now, fun row hrow => ?_⟩
      obtain ⟨setting, -, rfl⟩ := List.mem_map.mp hrow
      rfl
    | adapters =>
      refine ⟨bootstrapped_adapters now, fun row hrow => ?_⟩
      obtain ⟨name, -, rfl⟩ := List.mem_map.mp hrow
      rfl
  pending := fun lane call h => by cases lane <;> cases h

/-! ## Runs -/

/-- A run keeps the invariant, and every event. -/
theorem final_consistent {s : Administrators x} (hs : Consistent s) {ls : List AdminLabel}
    (htext : ∀ l ∈ ls, l.isText = true) : Consistent (final adminStep s ls) ∧
      s.state.adminEvents <+: (final adminStep s ls).state.adminEvents := by
  refine run_induction_on (P := fun ls _ t => (∀ l ∈ ls, l.isText = true) →
    Consistent t ∧ s.state.adminEvents <+: t.state.adminEvents) ?_ ?_ ls htext
  · exact fun _ => ⟨hs, List.prefix_rfl⟩
  · intro ks h t l ih hks
    rw [List.forall_mem_append] at hks
    obtain ⟨ht, hevents⟩ := ih hks.1
    have hstep := adminStep_consistent ht (hks.2 l (List.mem_singleton_self l))
    exact ⟨hstep.1, hevents.trans hstep.2.2⟩

/-- **The administrative audit** over a run: versions count the updates on record, a
refusal has appended one rejected event and changed nothing, and no event is changed
or removed. -/
structure AuditKept (x : UrlCrate) (now : String) (ls : List AdminLabel) : Prop where
  settings : ∀ ks, ks <+: ls →
    ∀ row ∈ (final adminStep (.start x now) ks).state.runtimeSettings.rows,
      row.version = 1 + succeededOf .runtimeSettingUpdated row.settingKey
        (final adminStep (.start x now) ks).state.adminEvents
  adapters : ∀ ks, ks <+: ls →
    ∀ row ∈ (final adminStep (.start x now) ks).state.adapterConfigs.rows,
      row.version = 1 + succeededOf .adapterConfigUpdated row.adapterName
        (final adminStep (.start x now) ks).state.adminEvents
  refused : ∀ e ∈ history adminStep (.start x now) ls, ∀ returned, e.response = some returned →
    returned.result = .error .validation ∨ returned.result = .error .versionConflict →
      Rejected returned.request.lane returned.config
  recorded : ∀ ks js, ks ++ js <+: ls →
    (final adminStep (.start x now) ks).state.adminEvents <+:
      (final adminStep (.start x now) (ks ++ js)).state.adminEvents

theorem admin_audit (x : UrlCrate) (now : String) (ls : List AdminLabel)
    (htext : ∀ l ∈ ls, l.isText = true) : AuditKept x now ls := by
  have hconsistent : ∀ ks, ks <+: ls → Consistent (final adminStep (.start x now) ks) := by
    intro ks hks
    exact (final_consistent (start_consistent x now) fun l hl => htext l (hks.subset hl)).1
  refine ⟨fun ks hks => ?_, fun ks hks => ?_, ?_, ?_⟩
  · exact ((hconsistent ks hks).audited .settings).2
  · exact ((hconsistent ks hks).audited .adapters).2
  · intro e he returned hreturned hresult
    obtain ⟨ks, l, hstart, rfl⟩ := mem_history he
    have hks : ks <+: ls := (List.prefix_append ks [l]).trans hstart
    have hl : l ∈ ls := hstart.subset (List.mem_append_right ks (List.mem_singleton_self l))
    exact ((adminStep_consistent (hconsistent ks hks) (htext l hl)).2.1 returned
      hreturned).rejected hresult
  · intro ks js hstart
    have hks : ks <+: ls := (List.prefix_append ks js).trans hstart
    rw [final_append]
    refine (final_consistent (hconsistent ks hks) fun l hl => ?_).2
    exact htext l (hstart.subset (List.mem_append_right ks hl))

/-! ## Samples -/

namespace Sample

/-- A library that no URL is given to. -/
def noUrls : UrlCrate where
  Url := Unit
  parse := fun _ => none
  join := fun _ _ => none
  scheme := fun _ => ""
  username := fun _ => ""
  password := fun _ => none
  hostStr := fun _ => none
  portOrKnownDefault := fun _ => none
  fragment := fun _ => none

def owner : AdminActor := ⟨"web:owner", none⟩

/-- Every statement succeeds, and every path exists. -/
def succeeding (id : Fin 10) : AdminAnswer where
  now := { utc := 0, offset := 0 }
  id := RemindiCore.Sample.uuid id
  begins := true
  writes := true
  rollsBack := true
  inserts := true
  commits := true
  applies := true
  files := fun path => .resolved path

def timeout : I64 := ⟨7, by decide, by decide⟩

/-- A setting and an adapter are updated at the same time, and then a version is late. -/
def alternating : List AdminLabel :=
  [.begin (.updateRuntimeSetting "adapters.timeout_seconds" timeout 1 owner),
    .begin (.updateAdapter "observation_window_ended" true .observationWindowEnded 1 owner),
    .serve .settings (succeeding 0), .serve .adapters (succeeding 1),
    .serve .settings (succeeding 2), .serve .adapters (succeeding 3),
    .serve .settings (succeeding 4), .serve .adapters (succeeding 5),
    .serve .adapters (succeeding 6), .serve .adapters (succeeding 7),
    .begin (.updateRuntimeSetting "adapters.timeout_seconds" timeout 1 owner),
    .serve .settings (succeeding 8), .serve .settings (succeeding 9)]

end Sample

theorem sample_admin_audit :
    AuditKept Sample.noUrls "2026-07-19T00:00:00.000Z" Sample.alternating :=
  admin_audit Sample.noUrls _ Sample.alternating (by decide)

end RemindiCore.Admin
