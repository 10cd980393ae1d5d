import RemindiCore.Lib.Rfc3339
import RemindiCore.Lib.JsonText

/-!
# The reminder item and its parts

The enumerations, triggers, recurrence constraints and rows of
`remindi/model.rs`.  Integers that the code keeps in a `u64` are `Nat`; the
conversions to `i64` at the store fail where the code's do.  An instant is an
`OffsetDateTime` (`Lib/CivilTime.lean`); the source compares instants, never
their offsets, so every comparison here is one of `utc`.
-/

namespace RemindiCore

open CivilTime JsonText

/-! ## Errors -/

/-- Domain validation and transition failures. -/
inductive DomainError where
  | timestampOffsetRequired
  | invalidTimestamp
  | timestampFormatting
  | terminalState
  | snoozeRequiresReadyState
  | snoozeMustBeFuture
  | reasonRequired
  | completionEvidenceRequired
  | invalidRecurrenceInterval
  | invalidMaxOccurrences
  | finalOccurrence
  | invalidCatchUpLimit
  | emptyEvidenceAssertion
  | stableEvidenceReferenceRequired
  | invalidEvidenceReference
  | evidenceReferenceContainsCredentials
  | invalidContentHash
  | evidenceObservedInFuture
  | evidenceMetadataMustBeObject
  | adapterResultIsNotCompletionEvidence
  | conditionParametersMustBeObject
  | invalidElapsedDuration
  | invalidTriggerInterval
  | invalidConditionAdapter
  | invalidGoalId
  | invalidConditionPollInterval
  | recurrenceRequiresIntervalTrigger
  | recurrenceIntervalMismatch
  | invalidPersistedValue
deriving DecidableEq

/-! ## Enumerations -/

inductive RemindiState where
  | scheduled | due | overdue | snoozed | completed | cancelled
deriving DecidableEq

namespace RemindiState

/-- Whether the state permits completion or cancellation. -/
def isActive : RemindiState → Bool
  | scheduled | due | overdue | snoozed => true
  | completed | cancelled => false

def isTerminal : RemindiState → Bool
  | completed | cancelled => true
  | scheduled | due | overdue | snoozed => false

@[simp] theorem isTerminal_eq_not_isActive (s : RemindiState) : s.isTerminal = !s.isActive := by
  cases s <;> rfl

end RemindiState

inductive Priority where
  | low | normal | high | critical
deriving DecidableEq

def Priority.text : Priority → String
  | low => "low"
  | normal => "normal"
  | high => "high"
  | critical => "critical"

inductive Readiness where
  | due | overdue | manualVerification
deriving DecidableEq

inductive MissedPolicy where
  | coalesce | catchUp | skip
deriving DecidableEq

def MissedPolicy.text : MissedPolicy → String
  | coalesce => "coalesce"
  | catchUp => "catch_up"
  | skip => "skip"

inductive OccurrenceDisposition where
  | acknowledged | skipped
deriving DecidableEq

def OccurrenceDisposition.text : OccurrenceDisposition → String
  | acknowledged => "acknowledged"
  | skipped => "skipped"

inductive EvidenceType where
  | observation | testResult | artifact | logReference | changeReference | userConfirmation
  | externalReference
deriving DecidableEq

def EvidenceType.text : EvidenceType → String
  | observation => "observation"
  | testResult => "test_result"
  | artifact => "artifact"
  | logReference => "log_reference"
  | changeReference => "change_reference"
  | userConfirmation => "user_confirmation"
  | externalReference => "external_reference"

inductive EventType where
  | created | checked | becameDue | becameOverdue | conditionEvaluated | occurrenceAdvanced
  | snoozed | updated | completed | cancelled | deliveryAttempted | deliverySucceeded
  | deliveryFailed
deriving DecidableEq

inductive ActorType where
  | user | agent | scheduler | system
deriving DecidableEq

inductive LinkType where
  | goal | memory | issue | url | artifact
deriving DecidableEq

def LinkType.text : LinkType → String
  | goal => "goal"
  | memory => "memory"
  | issue => "issue"
  | url => "url"
  | artifact => "artifact"

inductive LifecycleEvent where
  | taskStart | checkpoint | continuation | finalReview
deriving DecidableEq

def LifecycleEvent.text : LifecycleEvent → String
  | taskStart => "task_start"
  | checkpoint => "checkpoint"
  | continuation => "continuation"
  | finalReview => "final_review"

inductive ConditionStatus where
  | satisfied | unsatisfied | unknown | error
deriving DecidableEq

def ConditionStatus.text : ConditionStatus → String
  | satisfied => "satisfied"
  | unsatisfied => "unsatisfied"
  | unknown => "unknown"
  | error => "error"

/-! ## Identifiers -/

/-- The hyphenated lower-case text of a UUID. -/
def uuidText (text : String) : Bool :=
  let hex := fun c : Char => ('0' ≤ c && c ≤ '9') || ('a' ≤ c && c ≤ 'f')
  text.toList.length == 36 &&
    (text.toList.zipIdx.all fun (c, i) =>
      if i = 8 ∨ i = 13 ∨ i = 18 ∨ i = 23 then c == '-' else hex c)

/-- A UUID, kept by the text it prints; the order of the texts is the order of
the numbers. -/
structure Uuid where
  text : String
  wellFormed : uuidText text = true
deriving DecidableEq

/-! ## Triggers -/

inductive Trigger where
  | atTime (at' : OffsetDateTime)
  | afterElapsed (afterSeconds : Nat)
  | interval (firstAt : OffsetDateTime) (everySeconds : Nat)
  | nextSession
  | nextContinuation
  | goalActive (goalId : String)
  | condition (adapter : String) (parameters : Json) (pollIntervalSeconds : Option Nat)
      (manualCheckAt : Option OffsetDateTime)

/-- A lower-case letter, then lower-case letters, digits and underscores, at most 64 bytes. -/
def validAdapterName (name : String) : Bool :=
  match name.toList with
  | [] => false
  | c :: rest => ('a' ≤ c && c ≤ 'z') && name.utf8ByteSize ≤ 64 &&
      rest.all fun c => ('a' ≤ c && c ≤ 'z') || ('0' ≤ c && c ≤ '9') || c == '_'

namespace Trigger

/-- Trigger-specific bounds. -/
def validate : Trigger → Except DomainError Unit
  | atTime _ | nextSession | nextContinuation => .ok ()
  | afterElapsed afterSeconds =>
    if 1 ≤ afterSeconds ∧ afterSeconds ≤ 31536000 then .ok () else .error .invalidElapsedDuration
  | interval _ everySeconds =>
    if 60 ≤ everySeconds ∧ everySeconds ≤ 31536000 then .ok () else .error .invalidTriggerInterval
  | goalActive goalId =>
    if 1 ≤ goalId.length ∧ goalId.length ≤ 512 then .ok () else .error .invalidGoalId
  | condition adapter parameters pollIntervalSeconds _ =>
    if !validAdapterName adapter then .error .invalidConditionAdapter
    else if !parameters.isObject then .error .conditionParametersMustBeObject
    else if pollIntervalSeconds.any (fun s => !(30 ≤ s && s ≤ 86400)) then
      .error .invalidConditionPollInterval
    else .ok ()

/-- The column `trigger_type`. -/
def name : Trigger → String
  | atTime _ => "at_time"
  | afterElapsed _ => "after_elapsed"
  | interval _ _ => "interval"
  | nextSession => "next_session"
  | nextContinuation => "next_continuation"
  | goalActive _ => "goal_active"
  | condition _ _ _ _ => "condition"

/-- A trigger with a fire time: at, after or interval. -/
def isTimed : Trigger → Bool
  | atTime _ | afterElapsed _ | interval _ _ => true
  | nextSession | nextContinuation | goalActive _ | condition _ _ _ _ => false

def isCondition : Trigger → Bool
  | condition _ _ _ _ => true
  | _ => false

/-- First grid time and period of an interval trigger. -/
def grid? : Trigger → Option (OffsetDateTime × Nat)
  | interval firstAt everySeconds => some (firstAt, everySeconds)
  | _ => none

/-- How deep the parameters of a condition are nested. -/
def depth : Trigger → Nat
  | condition _ parameters _ _ => parameters.depth
  | _ => 0

/-- The trigger with the numbers of its parameters replaced. -/
def mapNumbers (f : NumberText → NumberText) : Trigger → Trigger
  | condition adapter parameters pollIntervalSeconds manualCheckAt =>
    condition adapter (parameters.mapNumbers f) pollIntervalSeconds manualCheckAt
  | trigger => trigger

section

variable (f : NumberText → NumberText)

@[simp] theorem validate_mapNumbers (t : Trigger) : (t.mapNumbers f).validate = t.validate := by
  cases t <;> simp [mapNumbers, validate]

@[simp] theorem name_mapNumbers (t : Trigger) : (t.mapNumbers f).name = t.name := by
  cases t <;> rfl

@[simp] theorem isTimed_mapNumbers (t : Trigger) : (t.mapNumbers f).isTimed = t.isTimed := by
  cases t <;> rfl

@[simp] theorem isCondition_mapNumbers (t : Trigger) :
    (t.mapNumbers f).isCondition = t.isCondition := by
  cases t <;> rfl

/-- Only a condition has parameters. -/
theorem mapNumbers_of_other {t : Trigger} (h : t.isCondition = false) : t.mapNumbers f = t := by
  cases t <;> first | rfl | cases h

/-- A trigger that is no condition is only what it was. -/
theorem mapNumbers_eq_other {t u : Trigger} (h : u.isCondition = false) :
    t.mapNumbers f = u ↔ t = u := by
  constructor
  · rintro rfl
    rw [isCondition_mapNumbers] at h
    exact (mapNumbers_of_other f h).symm
  · rintro rfl
    exact mapNumbers_of_other f h

end

end Trigger

/-! ## Items, links and events -/

/-- Fixed-interval recurrence constraints. -/
structure RecurrenceSpec where
  everySeconds : Nat
  missedPolicy : MissedPolicy
  maxOccurrences : Option Nat
  endAt : Option OffsetDateTime
deriving DecidableEq

/-- One persisted item. -/
structure Remindi where
  id : Uuid
  ownerId : String
  projectId : String
  taskId : Option String
  message : String
  instructions : Option String
  state : RemindiState
  priority : Priority
  trigger : Trigger
  recurrence : Option RecurrenceSpec
  nextFireAt : Option OffsetDateTime
  nextEvaluationAt : Option OffsetDateTime
  originalNextFireAt : Option OffsetDateTime
  dueSince : Option OffsetDateTime
  snoozeUntil : Option OffsetDateTime
  snoozedFromState : Option RemindiState
  overdueAfterSeconds : Nat
  occurrenceNo : Nat
  sourceSessionId : Option String
  sourceTaskLineageId : Option String
  lastCheckedAt : Option OffsetDateTime
  lastConditionStatus : Option ConditionStatus
  lastConditionDetail : Option String
  snoozeCount : Nat
  version : Nat
  createdAt : OffsetDateTime
  updatedAt : OffsetDateTime
  completedAt : Option OffsetDateTime
  cancelledAt : Option OffsetDateTime

/-- One association of an item. -/
structure RemindiLink where
  linkType : LinkType
  value : String
  createdAt : OffsetDateTime
deriving DecidableEq

/-- One append-only event; the store gives it the sequence number. -/
structure RemindiEvent where
  sequence : Nat
  eventId : Uuid
  remindiId : Uuid
  eventType : EventType
  actorType : ActorType
  actorId : String
  requestId : Option String
  occurredAt : OffsetDateTime
  priorVersion : Option Nat
  newVersion : Option Nat
  details : Json

/-! ## Timestamps -/

/-- Canonical UTC text with milliseconds. -/
def canonicalTimestamp (value : OffsetDateTime) : Except DomainError String :=
  match canonicalText value with
  | some text => .ok text
  | none => .error .timestampFormatting

theorem canonicalTimestamp_ok {value : OffsetDateTime} {text : String} :
    canonicalTimestamp value = .ok text ↔ canonicalText value = some text := by
  unfold canonicalTimestamp
  cases canonicalText value <;> simp

/-- `Z` at the end, or six bytes that begin with a sign and have a colon. -/
def hasExplicitOffset (value : String) : Bool :=
  let bytes := value.toList.flatMap String.utf8EncodeChar
  let tail := bytes.drop (bytes.length - 6)
  value.toList.getLast? == some 'Z' ||
    ((tail.head? == some 43 || tail.head? == some 45) && tail[3]? == some 58)

/-- Offset-bearing RFC 3339 input as an instant in UTC. -/
def parseTimestamp (value : String) : Except DomainError OffsetDateTime :=
  if !hasExplicitOffset value then .error .timestampOffsetRequired
  else
    match parseRfc3339 value with
    -- there is no UTC date after the year 9999: the conversion panics
    | some t => if t.toUtc.year ≤ 9999 then .ok t.toUtc else .error .invalidTimestamp
    | none => .error .invalidTimestamp

/-- **Stored timestamps of a year from 0 on are read back to the millisecond.** -/
theorem parseTimestamp_canonical {value : OffsetDateTime} {text : String}
    (h : canonicalTimestamp value = .ok text) (hyear : 0 ≤ value.toUtc.year) :
    parseTimestamp text = .ok value.truncateMillis := by
  have htext := canonicalTimestamp_ok.mp h
  have hexplicit : hasExplicitOffset text = true := by
    simp [hasExplicitOffset, getLast?_canonicalText htext]
  have hle : value.truncateMillis.toUtc.year ≤ 9999 := by
    rw [year_truncateMillis]
    exact (year_of_canonicalText htext).2
  unfold parseTimestamp
  rw [hexplicit, parse_canonicalText htext hyear]
  exact if_pos hle

/-- A year before 0 is stored and not read back. -/
theorem parseTimestamp_negative {value : OffsetDateTime} {text : String}
    (h : canonicalTimestamp value = .ok text) (hyear : value.toUtc.year < 0) :
    parseTimestamp text = .error .invalidTimestamp := by
  have htext := canonicalTimestamp_ok.mp h
  have hexplicit : hasExplicitOffset text = true := by
    simp [hasExplicitOffset, getLast?_canonicalText htext]
  unfold parseTimestamp
  rw [hexplicit, parse_canonicalText_negative htext hyear]
  rfl

end RemindiCore
