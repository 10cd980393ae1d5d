import RemindiCore.Admin.Settings
import RemindiCore.Lib.Base64Url
import RemindiCore.Lib.Serde
import RemindiCore.Service.Listing

/-!
# Page cursors

`encode_cursor` and `decode_cursor` of `remindi/service.rs` for the three cursors of the
service.  A cursor is written as JSON with a version and its kind; that payload and its tag,
both in Base64, are the members of an envelope, and the Base64 of the envelope is the text.
-/

namespace RemindiCore

open JsonText Serde

/-- SHA-256, HMAC-SHA-256 and `serde_json::from_slice`; an object that is read has its members
in the order of the text, also where a name is repeated. -/
structure CursorCrates where
  sha256 : List UInt8 → List UInt8
  hmac : List UInt8 → List UInt8 → List UInt8
  fromSlice : List UInt8 → Option Json

def textBytes (text : String) : List UInt8 := text.toByteArray.data.toList

/-- `serde_json::to_vec` -/
def toVec (value : Json) : List UInt8 := textBytes value.text

def encodeUrlSafe (bytes : List UInt8) : String := String.ofList (Base64Url.encode bytes)

def decodeUrlSafe (text : String) : Option (List UInt8) := Base64Url.decode text.toList

/-- The key that `RemindiService::new` derives from the secret. -/
def cursorKey (crates : CursorCrates) (secret : List UInt8) : List UInt8 :=
  crates.sha256 (textBytes "remindi:cursor-integrity:v1\x00" ++ secret)

/-! ## The kinds of cursors -/

inductive CursorKind where
  | list | history | check
deriving DecidableEq

namespace CursorKind

def text : CursorKind → String
  | .list => "list"
  | .history => "history"
  | .check => "check"

def Value : CursorKind → Type
  | .list => ListCursor
  | .history => HistoryCursor
  | .check => CheckCursor

def writeList (cursor : ListCursor) : Json :=
  .object [("created_at", .string cursor.createdAt), ("id", .string cursor.id)]

def readList (value : Json) : Option ListCursor := do
  let fields ← structFields false ["created_at", "id"] value
  let createdAt ← fields.required 0 asText
  let id ← fields.required 1 asText
  return { createdAt := createdAt, id := id }

def writeHistory (cursor : HistoryCursor) : Json := .object [("sequence", .ofInt cursor.sequence)]

def readHistory (value : Json) : Option HistoryCursor := do
  let fields ← structFields false ["sequence"] value
  let sequence ← fields.required 0 Admin.asI64
  return { sequence := sequence.val }

def writeCheck (cursor : CheckCursor) : Json :=
  .object [("readiness", .ofNat cursor.readiness), ("priority", .ofNat cursor.priority),
    ("next_fire_at", Json.ofOption Json.string cursor.nextFireAt), ("id", .string cursor.id)]

def readCheck (value : Json) : Option CheckCursor := do
  let fields ← structFields false ["readiness", "priority", "next_fire_at", "id"] value
  let readiness ← fields.required 0 (asUnsigned 8)
  let priority ← fields.required 1 (asUnsigned 8)
  let nextFireAt ← fields.optional 2 asText
  let id ← fields.required 3 asText
  return { readiness := readiness, priority := priority, nextFireAt := nextFireAt, id := id }

def write : (kind : CursorKind) → kind.Value → Json
  | .list => writeList
  | .history => writeHistory
  | .check => writeCheck

def read : (kind : CursorKind) → Json → Option kind.Value
  | .list => readList
  | .history => readHistory
  | .check => readCheck

end CursorKind

/-! ## Sealing and opening -/

structure CursorEnvelope where
  payload : String
  tag : String

def CursorEnvelope.write (envelope : CursorEnvelope) : Json :=
  .object [("payload", .string envelope.payload), ("tag", .string envelope.tag)]

def CursorEnvelope.read (value : Json) : Option CursorEnvelope := do
  let fields ← structFields false ["payload", "tag"] value
  let payload ← fields.required 0 asText
  let tag ← fields.required 1 asText
  return { payload := payload, tag := tag }

/-- `CursorPayload` -/
def cursorPayload (kind : CursorKind) (value : kind.Value) : Json :=
  .object [("version", .ofNat 1), ("kind", .string kind.text), ("value", kind.write value)]

/-- `CursorPayloadOwned` with the checks on its version and its kind. -/
def readPayload (kind : CursorKind) (payload : Json) : Option kind.Value := do
  let fields ← structFields false ["version", "kind", "value"] payload
  let version ← fields.required 0 (asUnsigned 8)
  let named ← fields.required 1 asText
  let value ← fields.required 2 kind.read
  if version ≠ 1 ∨ named ≠ kind.text then none else some value

variable (crates : CursorCrates) (key : List UInt8)

def sealedEnvelope (payload : List UInt8) : CursorEnvelope where
  payload := encodeUrlSafe payload
  tag := encodeUrlSafe (crates.hmac key payload)

def encodeCursor (kind : CursorKind) (value : kind.Value) : String :=
  encodeUrlSafe (toVec (sealedEnvelope crates key (toVec (cursorPayload kind value))).write)

def decodeCursor (encoded : String) (kind : CursorKind) : Option kind.Value := do
  let envelopeBytes ← decodeUrlSafe encoded
  let envelope ← crates.fromSlice envelopeBytes
  let envelope ← CursorEnvelope.read envelope
  let payload ← decodeUrlSafe envelope.payload
  let tag ← decodeUrlSafe envelope.tag
  if tag ≠ crates.hmac key payload then none
  else
    let decoded ← crates.fromSlice payload
    readPayload kind decoded

/-- The cursors of `list` and `history`. -/
def sealedPages : PageCursors where
  encodeList := encodeCursor crates key .list
  decodeList encoded := decodeCursor crates key encoded .list
  encodeHistory := encodeCursor crates key .history
  decodeHistory encoded := decodeCursor crates key encoded .history

/-- The cursors of `check`, with the hash of the requests and the reader of numbers. -/
def sealedChecks (sha256 : String → String) (readNumber : NumberText → NumberText) :
    Externals where
  sha256 := sha256
  readNumber := readNumber
  encodeCursor := encodeCursor crates key .check
  decodeCursor encoded := decodeCursor crates key encoded .check

end RemindiCore
