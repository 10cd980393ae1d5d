import RemindiCore.Domain.Model
import RemindiCore.Lib.Transaction
import Mathlib.Data.List.DropRight

/-!
# Completion evidence

`EvidenceInput.validate` (`remindi/evidence.rs`).  A `ValidatedEvidence` can
only be built from an input that passed: it carries the facts that the state
machine and the schema rely on.
-/

namespace RemindiCore

open CivilTime JsonText Transaction

/-! ## Texts -/

/-- The Unicode property `White_Space`. -/
def isWhitespace (c : Char) : Bool :=
  let n := c.toNat
  (9 ≤ n && n ≤ 13) || n == 32 || n == 0x85 || n == 0xA0 || n == 0x1680 ||
    (0x2000 ≤ n && n ≤ 0x200A) || n == 0x2028 || n == 0x2029 || n == 0x202F || n == 0x205F ||
    n == 0x3000

def trim (value : String) : String :=
  String.ofList ((value.toList.dropWhile isWhitespace).rdropWhile isWhitespace)

def toAsciiLowercase (value : String) : String := String.ofList (value.toList.map Char.toLower)

/-- The text before and after the first occurrence of a separator. -/
def splitOnce (separator : List Char) : List Char → Option (List Char × List Char)
  | [] => if separator.isEmpty then some ([], []) else none
  | c :: rest =>
    if separator.isPrefixOf (c :: rest) then some ([], (c :: rest).drop separator.length)
    else (splitOnce separator rest).map fun (before, after) => (c :: before, after)

/-! ## Inputs -/

inductive EvidenceSource where
  | authenticatedActor | adapterTrigger
deriving DecidableEq

def EvidenceSource.text : EvidenceSource → String
  | authenticatedActor => "AuthenticatedActor"
  | adapterTrigger => "AdapterTrigger"

/-- Completion evidence before validation. -/
structure EvidenceInput where
  evidenceType : EvidenceType
  summary : String
  referenceUri : Option String
  contentHash : Option String
  observedAt : OffsetDateTime
  metadata : Option Json
  source : EvidenceSource

/-- Structurally valid completion evidence. -/
structure ValidatedEvidence where
  input : EvidenceInput
  summary_ne : input.summary ≠ ""
  summary_length : input.summary.length ≤ 4096
  referenced : input.referenceUri.isSome || input.contentHash.isSome
  metadata_object : ∀ value, input.metadata = some value → value.isObject = true

/-! ## Checks -/

/-- `scheme:remainder` without whitespace. -/
def validUri (reference : List Char) : Bool :=
  match splitOnce [':'] reference with
  | none => false
  | some ([], _) => false
  | some (c :: scheme, remainder) =>
    c.isAlpha && scheme.all (fun b => b.isAlphanum || b == '+' || b == '-' || b == '.') &&
      !remainder.isEmpty && !reference.any isWhitespace

def authorityContainsCredentials (reference : List Char) : Bool :=
  match splitOnce [':', '/', '/'] reference with
  | none => false
  | some (_, remainder) =>
    (remainder.takeWhile fun c => !(c == '/' || c == '?' || c == '#')).contains '@'

def validateReference (reference : String) : Except DomainError Unit :=
  if 4096 < reference.length then .error .invalidEvidenceReference
  else if !validUri reference.toList then .error .invalidEvidenceReference
  else if authorityContainsCredentials reference.toList then
    .error .evidenceReferenceContainsCredentials
  else .ok ()

def isHexDigit (c : Char) : Bool :=
  c.isDigit || ('a' ≤ c && c ≤ 'f') || ('A' ≤ c && c ≤ 'F')

/-- `sha256:` and 64 lower-case hexadecimal digits. -/
def normalizeHash (hash : String) : Except DomainError String :=
  let scheme := "sha256:".toList
  let value := if scheme.isPrefixOf hash.toList then hash.toList.drop scheme.length else hash.toList
  if value.length ≠ 64 ∨ !value.all isHexDigit then .error .invalidContentHash
  else .ok (String.ofList (scheme ++ value.map Char.toLower))

theorem isSome_of_normalized {hash normalized : Option String}
    (h : hash.mapM normalizeHash = .ok normalized) : normalized.isSome = hash.isSome := by
  cases hash with
  | none =>
    cases h
    rfl
  | some value =>
    obtain ⟨_, -, rfl⟩ := except_map_ok.mp h
    rfl

/-- `maximumFutureSkew` is in nanoseconds; a signed duration holds at most `i64::MAX` seconds. -/
def EvidenceInput.validate (input : EvidenceInput) (now : OffsetDateTime)
    (maximumFutureSkew : Nat) : Except DomainError ValidatedEvidence :=
  let summary := trim input.summary
  if hsummary : summary = "" ∨ 4096 < summary.length ∨ toAsciiLowercase summary = "done" ∨
      toAsciiLowercase summary = "looks good" then
    .error .emptyEvidenceAssertion
  else if input.source = .adapterTrigger then .error .adapterResultIsNotCompletionEvidence
  else if href : input.referenceUri.isNone ∧ input.contentHash.isNone then
    .error .stableEvidenceReferenceRequired
  else
    match input.referenceUri.elim (.ok ()) validateReference with
    | .error e => .error e
    | .ok () =>
      match hhash : input.contentHash.mapM normalizeHash with
      | .error e => .error e
      | .ok contentHash =>
        if hmeta : input.metadata.any fun value => !value.isObject then
          .error .evidenceMetadataMustBeObject
        else if 9223372036854775807 < maximumFutureSkew / 1000000000 then
          .error .evidenceObservedInFuture
        else if now.utc + maximumFutureSkew < input.observedAt.utc then
          .error .evidenceObservedInFuture
        else
          .ok
            { input := { input with summary := summary, contentHash := contentHash }
              summary_ne := fun h => hsummary (Or.inl h)
              summary_length := by
                rw [not_or, not_or] at hsummary
                exact Nat.le_of_not_lt hsummary.2.1
              referenced := by
                rw [isSome_of_normalized hhash]
                cases hu : input.referenceUri <;> cases hc : input.contentHash <;>
                  simp_all
              metadata_object := by
                intro value hv
                have hv : input.metadata = some value := hv
                simpa [hv] using hmeta }

end RemindiCore
