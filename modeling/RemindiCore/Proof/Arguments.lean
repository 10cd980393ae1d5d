import RemindiCore.Web.Bodies

/-!
# Arguments and bodies

The arguments of a tool are a value built in memory, the item among them; a body of the Web
interface is read from its text, with the item in its path.  Where no object has a name twice
the readers find the same.
-/

namespace RemindiCore.Mcp

open CivilTime JsonText Serde Web

variable {json : Json} {fields : Fields} {τ : Type} {members : List (String × Json)}

/-! ## Reading the value for the text -/

theorem asUuid_text (id : Uuid) : asUuid (.string id.text) = some id := Uuid.parse_text id

theorem TriggerInput.read_toValue (h : Distinct json) :
    TriggerInput.read (fun json => json) (toValue json) = TriggerInput.read toValue json := by
  unfold TriggerInput.read
  rw [tagOf_toValue "type" h]
  cases tagOf "type" json with
  | none => rfl
  | some tag =>
    simp only [Option.bind_eq_bind, Option.bind_some]
    split
    · apply bind_structFields_toValue h
      intro fields _
      simp
    · apply bind_structFields_toValue h
      intro fields _
      simp
    · apply bind_structFields_toValue h
      intro fields _
      simp
    · rw [tagOnly_toValue]
    · rw [tagOnly_toValue]
    · apply bind_structFields_toValue h
      intro fields _
      simp
    · apply bind_structFields_toValue h
      intro fields _
      have hparameters : (fields.map toValue).required 2 (fun json => some json) =
          fields.required 2 fun json => some (toValue json) :=
        Fields.required_toValue fun _ _ => rfl
      simp [hparameters]
    · rfl

theorem RecurrenceInput.read_toValue (h : Distinct json) :
    RecurrenceInput.read (toValue json) = RecurrenceInput.read json := by
  unfold RecurrenceInput.read
  apply bind_structFields_toValue h
  intro fields hfields
  have hpolicy : (fields.map toValue).defaulted 1 .coalesce (asUnit missedPolicyNames) =
      fields.defaulted 1 .coalesce (asUnit missedPolicyNames) :=
    Fields.defaulted_toValue fun found hfound => asUnit_toValue _ (hfields 1 found hfound)
  simp [hpolicy]

theorem readLink_toValue (h : Distinct json) : readLink (toValue json) = readLink json := by
  unfold readLink
  apply bind_structFields_toValue h
  intro fields hfields
  have htype : (fields.map toValue).required 0 (asUnit linkTypeNames) =
      fields.required 0 (asUnit linkTypeNames) :=
    Fields.required_toValue fun found hfound => asUnit_toValue _ (hfields 0 found hfound)
  simp [htype]

theorem EvidenceArguments.read_toValue {instant instant' : Json → Option τ}
    (hinstant : ∀ json, instant (toValue json) = instant' json) (h : Distinct json) :
    EvidenceArguments.read (fun json => json) instant (toValue json) =
      EvidenceArguments.read toValue instant' json := by
  unfold EvidenceArguments.read
  apply bind_structFields_toValue h
  intro fields hfields
  have htype : (fields.map toValue).required 0 (asUnit evidenceTypeNames) =
      fields.required 0 (asUnit evidenceTypeNames) :=
    Fields.required_toValue fun found hfound => asUnit_toValue _ (hfields 0 found hfound)
  have hobserved : (fields.map toValue).required 4 instant = fields.required 4 instant' :=
    Fields.required_toValue fun found _ => hinstant found
  have hmetadata : (fields.map toValue).optional 5 (fun json => some json) =
      fields.optional 5 fun json => some (toValue json) :=
    Fields.optional_toValue fun _ _ => rfl
  simp [htype, hobserved, hmetadata]

theorem AddInput.read_toValue (h : Distinct json) :
    AddInput.read (fun json => json) (toValue json) = AddInput.read toValue json := by
  unfold AddInput.read
  apply bind_structFields_toValue h
  intro fields hfields
  have hpriority : (fields.map toValue).defaulted 4 .normal (asUnit priorityNames) =
      fields.defaulted 4 .normal (asUnit priorityNames) :=
    Fields.defaulted_toValue fun found hfound => asUnit_toValue _ (hfields 4 found hfound)
  have htrigger : (fields.map toValue).required 5 (TriggerInput.read fun json => json) =
      fields.required 5 (TriggerInput.read toValue) :=
    Fields.required_toValue fun found hfound => TriggerInput.read_toValue (hfields 5 found hfound)
  have hrecurrence : (fields.map toValue).optional 6 RecurrenceInput.read =
      fields.optional 6 RecurrenceInput.read :=
    Fields.optional_toValue fun found hfound =>
      RecurrenceInput.read_toValue (hfields 6 found hfound)
  have hlinks : (fields.map toValue).defaulted 8 [] (asList readLink) =
      fields.defaulted 8 [] (asList readLink) :=
    Fields.defaulted_toValue fun found hfound =>
      asList_toValue (hfields 8 found hfound) fun item hitem => readLink_toValue hitem
  simp [hpriority, htrigger, hrecurrence, hlinks]

theorem patch_toValue {α : Type} {read : Json → Option α} {i : Nat} (hfields : fields.Distinct)
    (hread : ∀ json, Distinct json → read (toValue json) = read json) :
    patch (fields.map toValue) i read = patch fields i read := by
  apply Fields.defaulted_toValue
  intro found hfound
  rw [asOption_toValue (hread found (hfields i found hfound))]

theorem UpdateFields.read_toValue (hfields : fields.Distinct) (i : Nat) :
    UpdateFields.read (fun json => json) (fields.map toValue) i =
      UpdateFields.read toValue fields i := by
  have hinstructions : patch (fields.map toValue) (i + 2) asText = patch fields (i + 2) asText :=
    patch_toValue hfields fun found _ => asText_toValue found
  have hpriority : (fields.map toValue).optional (i + 3) (asUnit priorityNames) =
      fields.optional (i + 3) (asUnit priorityNames) :=
    Fields.optional_toValue fun found hfound => asUnit_toValue _ (hfields _ found hfound)
  have htrigger : (fields.map toValue).optional (i + 4) (TriggerInput.read fun json => json) =
      fields.optional (i + 4) (TriggerInput.read toValue) :=
    Fields.optional_toValue fun found hfound => TriggerInput.read_toValue (hfields _ found hfound)
  have hrecurrence : patch (fields.map toValue) (i + 5) RecurrenceInput.read =
      patch fields (i + 5) RecurrenceInput.read :=
    patch_toValue hfields fun _ hfound => RecurrenceInput.read_toValue hfound
  have hlinks : (fields.map toValue).optional (i + 7) (asList readLink) =
      fields.optional (i + 7) (asList readLink) :=
    Fields.optional_toValue fun found hfound =>
      asList_toValue (hfields _ found hfound) fun item hitem => readLink_toValue hitem
  have hdisposition :
      (fields.map toValue).optional (i + 8) (asUnit occurrenceDispositionNames) =
        fields.optional (i + 8) (asUnit occurrenceDispositionNames) :=
    Fields.optional_toValue fun found hfound => asUnit_toValue _ (hfields _ found hfound)
  unfold UpdateFields.read
  simp [hinstructions, hpriority, htrigger, hrecurrence, hlinks, hdisposition]

theorem CompleteFields.read_toValue {instant instant' : Json → Option τ}
    (hinstant : ∀ json, instant (toValue json) = instant' json) (hfields : fields.Distinct)
    (i : Nat) : CompleteFields.read (fun json => json) instant (fields.map toValue) i =
      CompleteFields.read toValue instant' fields i := by
  have hevidence : (fields.map toValue).required (i + 1)
      (EvidenceArguments.read (fun json => json) instant) =
        fields.required (i + 1) (EvidenceArguments.read toValue instant') :=
    Fields.required_toValue fun found hfound =>
      EvidenceArguments.read_toValue hinstant (hfields _ found hfound)
  unfold CompleteFields.read
  simp [hevidence]

theorem SnoozeFields.read_toValue (i : Nat) :
    SnoozeFields.read asText (fields.map toValue) i = SnoozeFields.read asText fields i := by
  unfold SnoozeFields.read
  simp

theorem readCancel_toValue (i : Nat) (id : Uuid) :
    readCancel (fields.map toValue) i id = readCancel fields i id := by
  unfold readCancel
  simp

/-! ## The item among the arguments -/

/-- The arguments of a tool for a request about an item. -/
def withItem (id : Uuid) (members : List (String × Json)) : Json :=
  .object (("remindi_id", .string id.text) :: members)

theorem distinct_withItem {id : Uuid} {members : List (String × Json)}
    (h : Distinct (.object members)) (hitem : "remindi_id" ∉ members.map Prod.fst) :
    Distinct (withItem id members) :=
  ⟨List.nodup_cons.mpr ⟨hitem, h.1⟩, trivial, h.2⟩

/-- The arguments are the item and the members of the body. -/
theorem itemFields_withItem {id : Uuid} {names : List String} {members : List (String × Json)}
    (h : Distinct (.object members)) (hitem : "remindi_id" ∉ members.map Prod.fst)
    (hnames : "remindi_id" ∉ names) :
    itemFields names (toValue (withItem id members)) =
      (structFields true names (.object members)).map fun fields =>
        (id, (fields.cons (.string id.text)).map toValue) := by
  unfold itemFields
  rw [structFields_toValue true _ (distinct_withItem h hitem), withItem,
    structFields_cons hitem hnames]
  cases structFields true names (.object members) with
  | none => rfl
  | some fields =>
    have hid : ((fields.cons (.string id.text)).map toValue).required 0 asUuid = some id :=
      asUuid_text id
    show (((fields.cons (.string id.text)).map toValue).required 0 asUuid).bind _ = _
    rw [hid]
    rfl

/-! ## Times -/

/-- The evidence with its time read. -/
def EvidenceArguments.observed (input : EvidenceArguments String) (t : OffsetDateTime) :
    EvidenceArguments OffsetDateTime :=
  { input with observedAt := t }

def CompleteFields.observed (input : CompleteFields String) (t : OffsetDateTime) :
    CompleteFields OffsetDateTime :=
  { input with evidence := input.evidence.observed t }

theorem EvidenceArguments.read_rfc3339 (keep : Json → Json) (json : Json) :
    EvidenceArguments.read keep asRfc3339 json =
      (EvidenceArguments.read keep asText json).bind fun input =>
        (parseRfc3339 input.observedAt).map input.observed := by
  unfold EvidenceArguments.read
  cases structFields true
    ["type", "summary", "reference_uri", "content_hash", "observed_at", "metadata"] json with
  | none => rfl
  | some fields =>
    have hobserved : fields.required 4 asRfc3339 =
        (fields.required 4 asText).bind parseRfc3339 := by
      unfold Fields.required asRfc3339
      rw [Option.bind_assoc]
    simp only [Option.bind_eq_bind, Option.bind_some, hobserved]
    cases fields.required 0 (asUnit evidenceTypeNames) with
    | none => rfl
    | some _ =>
    cases fields.required 1 asText with
    | none => rfl
    | some _ =>
    cases fields.optional 2 asText with
    | none => rfl
    | some _ =>
    cases fields.optional 3 asText with
    | none => rfl
    | some _ =>
    cases fields.required 4 asText with
    | none => rfl
    | some text =>
    simp only [Option.bind_some]
    cases fields.optional 5 fun json => some (keep json) with
    | none => cases parseRfc3339 text <;> rfl
    | some _ => cases hparse : parseRfc3339 text <;> simp [hparse, EvidenceArguments.observed]

theorem CompleteFields.read_rfc3339 (keep : Json → Json) (fields : Fields) (i : Nat) :
    CompleteFields.read keep asRfc3339 fields i =
      (CompleteFields.read keep asText fields i).bind fun input =>
        (parseRfc3339 input.evidence.observedAt).map input.observed := by
  have hevidence : fields.required (i + 1) (EvidenceArguments.read keep asRfc3339) =
      (fields.required (i + 1) (EvidenceArguments.read keep asText)).bind fun input =>
        (parseRfc3339 input.observedAt).map input.observed := by
    unfold Fields.required
    rw [Option.bind_assoc]
    exact congrArg _ (funext fun json => EvidenceArguments.read_rfc3339 keep json)
  unfold CompleteFields.read
  simp only [Option.bind_eq_bind, hevidence]
  cases fields.required i (asUnsigned 64) with
  | none => rfl
  | some _ =>
  cases fields.required (i + 1) (EvidenceArguments.read keep asText) with
  | none => rfl
  | some input =>
  simp only [Option.bind_some]
  cases fields.optional (i + 2) asText with
  | none => cases parseRfc3339 input.observedAt <;> rfl
  | some _ =>
  cases fields.required (i + 3) asText with
  | none => cases parseRfc3339 input.observedAt <;> rfl
  | some _ =>
    cases hparse : parseRfc3339 input.observedAt <;> simp [hparse, CompleteFields.observed]

theorem SnoozeFields.read_rfc3339 (fields : Fields) (i : Nat) :
    SnoozeFields.read asRfc3339 fields i =
      (SnoozeFields.read asText fields i).bind fun input =>
        (parseRfc3339 input.snoozeUntil).map fun t => { input with snoozeUntil := t } := by
  have hinstant : fields.required (i + 1) asRfc3339 =
      (fields.required (i + 1) asText).bind parseRfc3339 := by
    unfold Fields.required asRfc3339
    rw [Option.bind_assoc]
  unfold SnoozeFields.read
  simp only [Option.bind_eq_bind, hinstant]
  cases fields.required i (asUnsigned 64) with
  | none => rfl
  | some _ =>
  cases fields.required (i + 1) asText with
  | none => rfl
  | some text =>
  simp only [Option.bind_some]
  cases fields.required (i + 2) asText with
  | none => cases parseRfc3339 text <;> rfl
  | some _ =>
  cases fields.required (i + 3) asText with
  | none => cases parseRfc3339 text <;> rfl
  | some _ => cases hparse : parseRfc3339 text <;> simp [hparse]

/-! ## Checks -/

/-- The arguments of a check but for `evaluate_conditions`, with a limit of so many bits. -/
def checkRequest (bits : Nat) (members : List (String × Json)) : Option CheckRequest := do
  let fields : Fields :=
    { values := ["project_id", "task_id", "session_id", "task_lineage_id", "lifecycle_event",
        "active_goal_ids", "include_scheduled", "limit", "cursor"].map fun name =>
          members.lookup name
      sequence := false }
  let projectId ← fields.required 0 asText
  let taskId ← fields.optional 1 asText
  let sessionId ← fields.optional 2 asText
  let taskLineageId ← fields.optional 3 asText
  let lifecycleEvent ← fields.required 4 (asUnit lifecycleEventNames)
  let activeGoalIds ← fields.defaulted 5 [] (asList asText)
  let includeScheduled ← fields.defaulted 6 false asBool
  let limit ← fields.defaulted 7 50 (asUnsigned bits)
  let cursor ← fields.optional 8 asText
  return { projectId, taskId, sessionId, taskLineageId, lifecycleEvent, activeGoalIds,
           includeScheduled, limit, cursor }

/-- A limit that the tool cannot read is far above the largest page. -/
theorem checkRequest_narrow (members : List (String × Json)) :
    checkRequest 16 members = (checkRequest 64 members).filter (·.limit < 2 ^ 16) := by
  unfold checkRequest
  dsimp only
  generalize ({ values := _, sequence := false } : Fields) = fields
  rw [defaulted_narrow 64 (by omega) (by omega : 50 < 2 ^ 16) fields 7]
  simp only [Option.bind_eq_bind]
  cases fields.required 0 asText with
  | none => rfl
  | some _ =>
  cases fields.optional 1 asText with
  | none => rfl
  | some _ =>
  cases fields.optional 2 asText with
  | none => rfl
  | some _ =>
  cases fields.optional 3 asText with
  | none => rfl
  | some _ =>
  cases fields.required 4 (asUnit lifecycleEventNames) with
  | none => rfl
  | some _ =>
  cases fields.defaulted 5 [] (asList asText) with
  | none => rfl
  | some _ =>
  cases fields.defaulted 6 false asBool with
  | none => rfl
  | some _ =>
  cases fields.defaulted 7 50 (asUnsigned 64) with
  | none => rfl
  | some limit =>
  simp only [Option.bind_some]
  by_cases hlimit : limit < 2 ^ 16
  · rw [show (some limit).filter (· < 2 ^ 16) = some limit from if_pos (decide_eq_true hlimit)]
    cases fields.optional 8 asText with
    | none => rfl
    | some _ => exact (if_pos (decide_eq_true hlimit)).symm
  · rw [show (some limit).filter (· < 2 ^ 16) = none from if_neg (by simpa using hlimit)]
    cases fields.optional 8 asText with
    | none => rfl
    | some _ => exact (if_neg (by simpa using hlimit)).symm

/-- The body of a check has no such member. -/
def foreignMember (members : List (String × Json)) : Bool :=
  members.any fun m => ! ["project_id", "task_id", "session_id", "task_lineage_id",
    "lifecycle_event", "active_goal_ids", "include_scheduled", "limit", "cursor"].contains m.1

theorem readCheckBody_eq (h : Distinct (.object members)) :
    readCheckBody (.object members) =
      if foreignMember members then none else checkRequest 64 members := by
  unfold readCheckBody
  rw [structFields_object h.1, Bool.true_and]
  by_cases hforeign : foreignMember members = true
  · rw [if_pos hforeign]
    exact congrArg (· >>= _) (if_pos hforeign)
  · rw [if_neg hforeign]
    exact congrArg (· >>= _) (if_neg hforeign)

/-- The tool reads a limit of sixteen bits, and whether to evaluate conditions. -/
theorem parse_check (h : Distinct (.object members))
    (hshared : "evaluate_conditions" ∉ members.map Prod.fst) :
    checkCall (toValue (.object members)) =
      match if foreignMember members then none else checkRequest 16 members with
      | some request => .ok (.check request)
      | none => .error .validation := by
  have hne : ∀ m ∈ members, m.1 ≠ "evaluate_conditions" := fun m hm heq =>
    hshared (heq ▸ List.mem_map_of_mem hm)
  have hforeign : (members.any fun m => ! ["project_id", "task_id", "session_id",
      "task_lineage_id", "lifecycle_event", "active_goal_ids", "include_scheduled",
      "evaluate_conditions", "limit", "cursor"].contains m.1) = foreignMember members := by
    unfold foreignMember
    rw [Bool.eq_iff_iff, List.any_eq_true, List.any_eq_true]
    refine exists_congr fun m => and_congr_right fun hm => ?_
    simp [hne m hm]
  have hunread : members.lookup "evaluate_conditions" = none := by
    rw [List.lookup_eq_none_iff]
    intro m hm
    simpa using Ne.symm (hne m hm)
  have hdistinct := structFields_toValue true ["project_id", "task_id", "session_id",
    "task_lineage_id", "lifecycle_event", "active_goal_ids", "include_scheduled",
    "evaluate_conditions", "limit", "cursor"] h
  unfold checkCall parse
  dsimp only
  rw [hdistinct]
  cases hfields : structFields true ["project_id", "task_id", "session_id", "task_lineage_id",
    "lifecycle_event", "active_goal_ids", "include_scheduled", "evaluate_conditions", "limit",
    "cursor"] (.object members) with
  | none =>
    rw [structFields_object h.1, Bool.true_and, hforeign] at hfields
    split at hfields
    · next htrue =>
      rw [if_pos htrue]
      rfl
    · cases hfields
  | some fields =>
    have hread := structFields_distinct h hfields
    rw [structFields_object h.1, Bool.true_and, hforeign] at hfields
    split at hfields
    · cases hfields
    · next hnot =>
      have hevent : (fields.map toValue).required 4 (asUnit lifecycleEventNames) =
          fields.required 4 (asUnit lifecycleEventNames) :=
        Fields.required_toValue fun found hfound => asUnit_toValue _ (hread 4 found hfound)
      have hgoals : (fields.map toValue).defaulted 5 [] (asList asText) =
          fields.defaulted 5 [] (asList asText) :=
        Fields.defaulted_toValue fun found hfound =>
          asList_toValue (hread 5 found hfound) fun item _ => asText_toValue item
      have hconditions : fields.defaulted 7 true asBool = some true := by
        obtain rfl := Option.some.inj hfields
        exact Fields.defaulted_of_none hunread
      rw [if_neg hnot]
      simp only [Option.map_some, Option.bind_eq_bind, Option.bind_some, Fields.required_asText,
        Fields.optional_asText, Fields.defaulted_asBool, Fields.defaulted_asUnsigned, hevent,
        hgoals, hconditions]
      obtain rfl := Option.some.inj hfields
      have hparsed : ∀ found : Option CheckRequest,
          (parse (fun _ => found) (toValue (.object members)) >>= fun request =>
            pure (ToolCall.check request)) =
          match found with
          | some request => .ok (.check request)
          | none => .error .validation := by
        intro found
        cases found <;> rfl
      exact hparsed (checkRequest 16 members)

end RemindiCore.Mcp
