import RemindiCore.Proof.Effects
import RemindiCore.Web.Bodies

/-!
# Refused requests

The checks in front of every operation know one error, and what the tools check of a request
before they call the service, the service checks again.
-/

namespace RemindiCore

open CivilTime JsonText Transaction Mcp

/-! ## One error -/

/-- A check that knows one error. -/
def OnlyValidation {α : Type} (x : Except ServiceError α) : Prop :=
  ∀ e, x = .error e → e = .validation

namespace OnlyValidation

variable {α β : Type}

theorem ok (a : α) : OnlyValidation (.ok a) := by
  intro e h
  cases h

theorem validation : OnlyValidation (.error .validation : Except ServiceError α) := by
  intro e h
  cases h
  rfl

theorem bind {x : Except ServiceError α} {f : α → Except ServiceError β} (hx : OnlyValidation x)
    (hf : ∀ a, OnlyValidation (f a)) : OnlyValidation (x >>= f) := by
  intro e h
  cases x with
  | ok a => exact hf a e h
  | error e' =>
    cases h
    exact hx e rfl

theorem ite {p : Prop} [Decidable p] {x y : Except ServiceError α} (hx : OnlyValidation x)
    (hy : OnlyValidation y) : OnlyValidation (if p then x else y) := by
  split
  · exact hx
  · exact hy

theorem whenSome {check : α → Except ServiceError Unit} (h : ∀ a, OnlyValidation (check a))
    (value : Option α) : OnlyValidation (whenSome value check) := by
  cases value with
  | none => exact ok ()
  | some a => exact h a

theorem mapM {f : α → Except ServiceError β} (h : ∀ a, OnlyValidation (f a)) (value : Option α) :
    OnlyValidation (value.mapM f) := by
  cases value with
  | none => exact ok none
  | some a => exact bind (h a) fun b => ok (some b)

/-- What it does not accept, it refuses. -/
theorem refuses {x : Except ServiceError α} (h : OnlyValidation x) (hnot : ∀ a, x ≠ .ok a) :
    x = .error .validation := by
  cases x with
  | ok a => exact absurd rfl (hnot a)
  | error e => rw [h e rfl]

theorem requiredText (value : String) (maximum : Nat) :
    OnlyValidation (requiredText value maximum) := ite validation (ok _)

theorem optionalText (value : Option String) (maximum : Nat) :
    OnlyValidation (optionalText value maximum) :=
  mapM (fun text => requiredText text maximum) value

theorem optionalContext (value : Option String) (maximum : Nat) :
    OnlyValidation (optionalContext value maximum) := by
  cases value with
  | none => exact ok none
  | some text => exact ite validation (ite (ok none) (ok _))

theorem optionalBounded (value : Option String) (maximum : Nat) :
    OnlyValidation (optionalBounded value maximum) := by
  cases value with
  | none => exact ok none
  | some text => exact ite (ok _) validation

theorem validateLinksFrom (links prior : List LinkInput) :
    OnlyValidation (validateLinksFrom prior links) := by
  induction links generalizing prior with
  | nil => exact ok ()
  | cons link rest ih => exact ite validation (ih _)

theorem validateLinks (links : List LinkInput) : OnlyValidation (validateLinks links) :=
  ite validation (validateLinksFrom links [])

theorem validateGoalLink (trigger : Trigger) (links : List LinkInput) :
    OnlyValidation (validateGoalLink trigger links) := by
  cases trigger with
  | goalActive goalId => exact ite (ok ()) validation
  | _ => exact ok ()

theorem validateNewGoal (trigger : Option Trigger) (links : Option (List LinkInput)) :
    OnlyValidation (validateNewGoal trigger links) := by
  unfold RemindiCore.validateNewGoal
  split
  · cases links with
    | none => exact validation
    | some links => exact validateGoalLink _ links
  · exact ok ()

theorem trigger (trigger : Trigger) : OnlyValidation (domain trigger.validate) := by
  intro e h
  unfold domain Trigger.validate at h
  split at h <;> (try split at h) <;> (try split at h) <;> (try split at h) <;> cases h <;> rfl

theorem recurrence (spec : RecurrenceSpec) (trigger : Trigger) :
    OnlyValidation (domain (spec.validateForTrigger trigger)) := by
  intro e h
  cases hvalid : spec.validate with
  | error e' =>
    unfold RecurrenceSpec.validateForTrigger at h
    rw [hvalid] at h
    cases h
    unfold RecurrenceSpec.validate at hvalid
    split at hvalid
    · cases hvalid
      rfl
    · split at hvalid
      · cases hvalid
        rfl
      · cases hvalid
  | ok _ =>
    unfold RecurrenceSpec.validateForTrigger at h
    rw [hvalid] at h
    dsimp only [Bind.bind, Except.bind] at h
    split at h
    · split at h
      · cases h
      · cases h
        rfl
    · cases h
      rfl

theorem validateActor (actor : Actor) : OnlyValidation (validateActor actor) :=
  ite validation (ok ())

theorem validateIdempotencyKey (key : String) : OnlyValidation (validateIdempotencyKey key) :=
  ite (ok ()) validation

theorem validateExpectedVersion (version : Nat) :
    OnlyValidation (validateExpectedVersion version) := ite validation (ok ())

theorem checkThat (condition : Bool) : OnlyValidation (checkThat condition) :=
  ite (ok ()) validation

theorem prepareAdd (actor : Actor) (request : AddRequest) :
    OnlyValidation (prepareAdd actor request) := by
  unfold RemindiCore.prepareAdd
  apply bind (validateActor actor)
  intro _
  apply bind (validateIdempotencyKey _)
  intro _
  apply bind (requiredText _ _)
  intro _
  apply bind (requiredText _ _)
  intro _
  apply bind (optionalText _ _)
  intro _
  apply bind (optionalBounded _ _)
  intro _
  apply bind (optionalContext _ _)
  intro _
  apply bind (optionalContext _ _)
  intro _
  apply bind (trigger _)
  intro _
  apply bind (whenSome (fun spec => recurrence spec _) _)
  intro _
  apply bind (checkThat _)
  intro _
  apply bind (validateLinks _)
  intro _
  apply bind (validateGoalLink _ _)
  intro _
  exact ok _

theorem prepareUpdate (actor : Actor) (request : UpdateRequest) :
    OnlyValidation (prepareUpdate actor request) := by
  unfold RemindiCore.prepareUpdate
  apply bind (validateActor actor)
  intro _
  apply bind (validateIdempotencyKey _)
  intro _
  apply bind (validateExpectedVersion _)
  intro _
  apply bind (requiredText _ _)
  intro _
  apply bind (checkThat _)
  intro _
  apply bind (mapM (fun message => requiredText message _) _)
  intro _
  apply bind (mapM (fun instructions => optionalBounded instructions _) _)
  intro _
  apply bind (whenSome trigger _)
  intro _
  apply bind (checkThat _)
  intro _
  apply bind (whenSome validateLinks _)
  intro _
  apply bind (validateNewGoal _ _)
  intro _
  exact ok _

end OnlyValidation

variable {actor : Actor}

theorem hasUpdate_of_prepareUpdate {raw request : UpdateRequest}
    (h : prepareUpdate actor raw = .ok request) : hasUpdate raw = true := by
  unfold prepareUpdate at h
  obtain ⟨_, -, h⟩ := except_bind_ok.mp h
  obtain ⟨_, -, h⟩ := except_bind_ok.mp h
  obtain ⟨_, -, h⟩ := except_bind_ok.mp h
  obtain ⟨_, -, h⟩ := except_bind_ok.mp h
  obtain ⟨_, hupdate, -⟩ := except_bind_ok.mp h
  unfold checkThat at hupdate
  split at hupdate
  · next hhas => exact hhas
  · cases hupdate

theorem isSome_of_mapM {α β ε : Type} {f : α → Except ε β} {value : Option α} {result : Option β}
    (h : value.mapM f = .ok result) : result.isSome = value.isSome := by
  cases value with
  | none =>
    cases h
    rfl
  | some a =>
    obtain ⟨b, -, hsome⟩ := except_bind_ok.mp h
    cases hsome
    rfl

/-- The trigger of a request is an interval only if the input's is, with the same period. -/
theorem Mcp.TriggerInput.interval_of_trigger {input : TriggerInput} {firstAt : OffsetDateTime}
    {everySeconds : Nat} {trigger : Trigger} (h : input.trigger = .ok trigger)
    (hinterval : normalizeTrigger trigger = .interval firstAt everySeconds) :
    ∃ text, input = .interval text everySeconds := by
  cases input with
  | interval text seconds =>
    obtain ⟨t, -, h⟩ := except_bind_ok.mp h
    cases h
    cases hinterval
    exact ⟨text, rfl⟩
  | atTime text =>
    obtain ⟨t, -, h⟩ := except_bind_ok.mp h
    cases h
    cases hinterval
  | condition adapter parameters poll manual =>
    obtain ⟨t, -, h⟩ := except_bind_ok.mp h
    cases h
    cases hinterval
  | afterElapsed seconds =>
    cases h
    cases hinterval
  | nextSession =>
    cases h
    cases hinterval
  | nextContinuation =>
    cases h
    cases hinterval
  | goalActive goalId =>
    cases h
    cases hinterval

/-- **What the tool checks of a recurrence, the service checks again.** -/
theorem prepareAdd_refused {input : AddInput} {request : AddRequest} {e : InputSemanticError}
    (hsemantics : input.validateSemantics = .error e) (hrequest : input.request = .ok request) :
    prepareAdd actor request = .error .validation := by
  apply (OnlyValidation.prepareAdd actor request).refuses
  intro prepared hprepared
  obtain ⟨-, htrigger, hrecurrence, -, hvalid⟩ := prepareAdd_ok hprepared
  unfold AddInput.request at hrequest
  obtain ⟨trigger, hinput, hrequest⟩ := except_bind_ok.mp hrequest
  obtain ⟨recurrence, hspec, hrequest⟩ := except_bind_ok.mp hrequest
  cases hrequest
  cases hgiven : input.recurrence with
  | none =>
    unfold AddInput.validateSemantics at hsemantics
    rw [hgiven] at hsemantics
    cases htype : input.trigger <;> rw [htype] at hsemantics <;> cases hsemantics
  | some given =>
    rw [hgiven] at hspec
    obtain ⟨spec, hread, hsome⟩ := except_bind_ok.mp hspec
    cases hsome
    obtain ⟨endAt, -, hread⟩ := except_bind_ok.mp hread
    cases hread
    obtain ⟨firstAt, hinterval⟩ := RecurrenceSpec.validateForTrigger_ok (hvalid _ hrecurrence)
    rw [htrigger] at hinterval
    obtain ⟨text, htext⟩ := TriggerInput.interval_of_trigger hinput hinterval
    unfold AddInput.validateSemantics at hsemantics
    rw [hgiven, htext] at hsemantics
    dsimp only [normalizeRecurrence] at hsemantics
    rw [if_pos rfl] at hsemantics
    cases hsemantics

/-- **What the tool checks of an update, the service checks again.** -/
theorem prepareUpdate_refused {input : UpdateFields} {id : Uuid} {request : UpdateRequest}
    {e : InputSemanticError} (hsemantics : input.validateSemantics = .error e)
    (hrequest : input.request id = .ok request) :
    prepareUpdate actor request = .error .validation := by
  apply (OnlyValidation.prepareUpdate actor request).refuses
  intro prepared hprepared
  have hhas := hasUpdate_of_prepareUpdate hprepared
  unfold UpdateFields.request at hrequest
  obtain ⟨recurrence, hrecurrence, hrequest⟩ := except_bind_ok.mp hrequest
  obtain ⟨trigger, htrigger, hrequest⟩ := except_bind_ok.mp hrequest
  cases hrequest
  unfold hasUpdate at hhas
  dsimp only at hhas
  rw [isSome_of_mapM hrecurrence, isSome_of_mapM htrigger] at hhas
  unfold UpdateFields.validateSemantics at hsemantics
  rw [if_pos hhas] at hsemantics
  cases hsemantics

/-! ## Refusals of the service -/

theorem run_refused {α β : Type} {x : Except ServiceError α} {f : α → Tx β} {env : Env} {db : Db}
    (hx : OnlyValidation x) (hf : ∀ a, (f a).run env db = (.error .validation, db)) :
    (Txn.ofExcept x >>= f).run env db = (.error .validation, db) := by
  cases x with
  | ok a => exact hf a
  | error e =>
    rw [hx e rfl]
    rfl

/-- A check with such a limit is refused before it reads anything. -/
theorem checkRead_refused {service : RemindiService} {request : CheckRequest} {env : Env} {db : Db}
    (h : maxPage < request.limit) :
    (service.checkRead actor request).run env db = (.error .validation, db) := by
  have hlimit : pageLimit request.limit 50 = .error .validation := by
    have hne : request.limit ≠ 0 := by omega
    unfold pageLimit
    dsimp only
    rw [if_neg hne]
    exact if_neg (by omega)
  unfold RemindiService.checkRead
  apply run_refused (.validateActor actor)
  intro _
  apply run_refused (.requiredText _ _)
  intro _
  apply run_refused (.optionalText _ _)
  intro _
  apply run_refused (.optionalContext _ _)
  intro _
  apply run_refused (.optionalContext _ _)
  intro _
  rw [hlimit]
  rfl

end RemindiCore
