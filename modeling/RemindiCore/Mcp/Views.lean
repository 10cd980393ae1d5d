import RemindiCore.Admin.Settings
import RemindiCore.Domain.Model
import RemindiCore.Lib.InstantParts
import RemindiCore.Lib.JsonPath

/-!
# The view of an event's details

`normalize_event_details` of `mcp/views.rs`: the timestamps that an event owns are
given their canonical text, whether they were stored as a text or, by an earlier
version, as the row of numbers that serde writes.
-/

namespace RemindiCore.Views

open CivilTime JsonText

def integerItem : Json → Option Int
  | .number n => Admin.integerOf n.chars
  | _ => none

/-- `from_value::<OffsetDateTime>` of an array -/
def dateTimeOfItems (items : List Json) : Option OffsetDateTime := do
  let parts ← items.mapM integerItem
  ofComponents parts

def storedInstant : Json → Except DomainError OffsetDateTime
  | .string timestamp => parseTimestamp timestamp
  | .array items =>
    match dateTimeOfItems items with
    | some instant => .ok instant
    | none => .error .invalidPersistedValue
  | _ => .error .invalidPersistedValue

def normalizeObjectTimestamp (object : Json) (key : String) : Except DomainError Json :=
  match object.member? key with
  | none => .ok object
  | some .null => .ok object
  | some value => do
    let instant ← storedInstant value
    let text ← canonicalTimestamp instant
    return object.setMember key (.string text)

def normalizeNestedTriggerSummary (details : Json) (key : String) : Except DomainError Json :=
  match details.member? key with
  | none => .ok details
  | some summary => do
    let summary ← normalizeObjectTimestamp summary "next_fire_at"
    let summary ← normalizeObjectTimestamp summary "next_evaluation_at"
    return details.setMember key summary

def normalizeEventDetails (eventType : EventType) (details : Json) : Except DomainError Json :=
  match eventType with
  | .snoozed => do
    let details ← normalizeObjectTimestamp details "prior_next_fire_at"
    normalizeObjectTimestamp details "snooze_until"
  | .occurrenceAdvanced => do
    let details ← normalizeObjectTimestamp details "previous_schedule"
    normalizeObjectTimestamp details "next_schedule"
  | .updated => do
    let details ← normalizeNestedTriggerSummary details "before_trigger"
    normalizeNestedTriggerSummary details "after_trigger"
  | _ => do
    let details ← normalizeObjectTimestamp details "next_fire_at"
    normalizeObjectTimestamp details "next_evaluation_at"

end RemindiCore.Views
