import RemindiCore.Lib.JsonReader
import RemindiCore.Proof.AdminRows
import RemindiCore.Proof.HistoryWalk
import RemindiCore.Service.Cursors

/-!
# The integrity of page cursors

A cursor that the service has issued is opened again to the value that it was sealed with,
and to nothing else: not as another kind, and with another key only where the two tags agree.
A text that is opened carries the payload of an issued cursor of that kind with that value, or
else the tag of a payload that was never sealed (`Forged`).  The next cursors of the pages are
issued ones.

    crates.ReadsBack → CursorsAuthentic crates secret issued                  (cursors_authentic)
-/

namespace RemindiCore

open Admin JsonText Serde Transaction

variable {crates : CursorCrates} {key secret : List UInt8} {kind : CursorKind}

/-! ## What is read back from its text -/

/-- Values of texts, integers of 64 bits and objects, nested at most `depth` times. -/
inductive Shallow : Nat → Json → Prop
  | null {depth : Nat} : Shallow depth .null
  | string {depth : Nat} (text : String) : Shallow depth (.string text)
  | natural {depth n : Nat} (upper : n < 2 ^ 63) : Shallow depth (.ofNat n)
  | integer {depth : Nat} {n : Int} (lower : -(2 ^ 63) ≤ n) (upper : n < 2 ^ 63) :
      Shallow depth (.ofInt n)
  | object {depth : Nat} {members : List (String × Json)}
      (members_shallow : ∀ m ∈ members, Shallow depth m.2) : Shallow (depth + 1) (.object members)

/-- What `serde_json` writes of such a value, it reads back. -/
def CursorCrates.ReadsBack (crates : CursorCrates) : Prop :=
  ∀ value, Shallow 2 value → crates.fromSlice (toVec value) = some value

theorem decodeUrlSafe_encodeUrlSafe (bytes : List UInt8) :
    decodeUrlSafe (encodeUrlSafe bytes) = some bytes := by
  unfold decodeUrlSafe encodeUrlSafe
  rw [String.toList_ofList]
  exact Base64Url.decode_encode bytes

/-! ## Values -/

namespace CursorKind

theorem text_injective {a b : CursorKind} (h : a.text = b.text) : a = b := by
  cases a <;> cases b <;> first | rfl | exact absurd h (by decide)

/-- The numbers of the cursor fit their types. -/
def Fits : (kind : CursorKind) → kind.Value → Prop
  | .list => fun _ => True
  | .history => fun cursor => -(2 ^ 63) ≤ cursor.sequence ∧ cursor.sequence < 2 ^ 63
  | .check => fun cursor => cursor.readiness < 2 ^ 8 ∧ cursor.priority < 2 ^ 8

end CursorKind

namespace CursorKind

/-- **A value that was written is read back.** -/
theorem read_write {value : kind.Value} (h : kind.Fits value) :
    kind.read (kind.write value) = some value := by
  match kind, value, h with
  | .list, _, _ => rfl
  | .history, cursor, ⟨hlower, hupper⟩ =>
    show ((asI64 (.ofInt cursor.sequence)).bind fun _ => _) = _
    rw [asI64_ofInt ⟨cursor.sequence, hlower, hupper⟩]
    rfl
  | .check, cursor, ⟨hreadiness, hpriority⟩ =>
    have hnext : asOption asText (Json.ofOption Json.string cursor.nextFireAt) =
        some cursor.nextFireAt := by
      cases cursor.nextFireAt with
      | none => rfl
      | some text => rfl
    show ((asUnsigned 8 (.ofNat cursor.readiness)).bind fun _ =>
      (asUnsigned 8 (.ofNat cursor.priority)).bind fun _ =>
        (asOption asText (Json.ofOption Json.string cursor.nextFireAt)).bind fun _ => _) = _
    rw [asUnsigned_ofNat hreadiness, asUnsigned_ofNat hpriority, hnext]
    rfl

theorem shallow_write {value : kind.Value} (h : kind.Fits value) : Shallow 1 (kind.write value) := by
  match kind, value, h with
  | .list, _, _ =>
    refine .object fun m hm => ?_
    simp only [List.mem_cons, List.not_mem_nil, or_false] at hm
    rcases hm with rfl | rfl <;> exact .string _
  | .history, cursor, ⟨hlower, hupper⟩ =>
    refine .object fun m hm => ?_
    obtain rfl := List.mem_singleton.mp hm
    exact .integer hlower hupper
  | .check, cursor, ⟨hreadiness, hpriority⟩ =>
    refine .object fun m hm => ?_
    simp only [List.mem_cons, List.not_mem_nil, or_false] at hm
    rcases hm with rfl | rfl | rfl | rfl
    · exact .natural (by omega)
    · exact .natural (by omega)
    · show Shallow 0 (Json.ofOption Json.string cursor.nextFireAt)
      cases cursor.nextFireAt with
      | none => exact .null
      | some text => exact .string text
    · exact .string _

end CursorKind

/-! ## Envelopes and payloads -/

theorem CursorEnvelope.read_write (envelope : CursorEnvelope) :
    CursorEnvelope.read envelope.write = some envelope := rfl

theorem CursorEnvelope.shallow_write (envelope : CursorEnvelope) : Shallow 2 envelope.write := by
  refine .object fun m hm => ?_
  simp only [List.mem_cons, List.not_mem_nil, or_false] at hm
  rcases hm with rfl | rfl <;> exact .string _

theorem shallow_cursorPayload {value : kind.Value} (h : kind.Fits value) :
    Shallow 2 (cursorPayload kind value) := by
  refine .object fun m hm => ?_
  simp only [List.mem_cons, List.not_mem_nil, or_false] at hm
  rcases hm with rfl | rfl | rfl
  · exact .natural (by decide)
  · exact .string _
  · exact CursorKind.shallow_write h

/-- How a payload is read, whatever the kind it is read as. -/
theorem readPayload_eq (kind' : CursorKind) (value : kind.Value) :
    readPayload kind' (cursorPayload kind value) =
      (kind'.read (kind.write value)).bind fun opened =>
        if kind.text ≠ kind'.text then none else some opened := by
  have hversion : asUnsigned 8 (.ofNat 1) = some 1 := asUnsigned_ofNat (by decide)
  show ((asUnsigned 8 (.ofNat 1)).bind fun version =>
    (kind'.read (kind.write value)).bind fun opened =>
      if version ≠ 1 ∨ kind.text ≠ kind'.text then none else some opened) = _
  rw [hversion]
  simp only [Option.bind_some, ne_eq, not_true_eq_false, false_or]

/-- A payload is read as its kind only. -/
theorem readPayload_kind {kind' : CursorKind} {value : kind.Value} {value' : kind'.Value}
    (h : readPayload kind' (cursorPayload kind value) = some value') : kind = kind' := by
  rw [readPayload_eq] at h
  obtain ⟨opened, -, h⟩ := Option.bind_eq_some_iff.mp h
  split at h
  · cases h
  · next hnamed => exact CursorKind.text_injective (not_not.mp hnamed)

theorem readPayload_cursorPayload {value : kind.Value} (h : kind.Fits value) :
    readPayload kind (cursorPayload kind value) = some value := by
  rw [readPayload_eq, CursorKind.read_write h, Option.bind_some, if_neg (not_not.mpr rfl)]

/-! ## Opening -/

/-- The text carries this payload under this tag. -/
structure Carries (crates : CursorCrates) (text : String) (payload tag : List UInt8) : Prop where
  exists_envelope : ∃ envelopeBytes value envelope, decodeUrlSafe text = some envelopeBytes ∧
    crates.fromSlice envelopeBytes = some value ∧ CursorEnvelope.read value = some envelope ∧
      decodeUrlSafe envelope.payload = some payload ∧ decodeUrlSafe envelope.tag = some tag

/-- A text carries one payload and one tag. -/
theorem Carries.unique {text : String} {payload payload' tag tag' : List UInt8}
    (h : Carries crates text payload tag) (h' : Carries crates text payload' tag') :
    payload = payload' ∧ tag = tag' := by
  obtain ⟨_, _, _, htext, hvalue, hread, hpayload, htag⟩ := h.exists_envelope
  obtain ⟨_, _, _, htext', hvalue', hread', hpayload', htag'⟩ := h'.exists_envelope
  obtain rfl := Option.some.inj (htext.symm.trans htext')
  obtain rfl := Option.some.inj (hvalue.symm.trans hvalue')
  obtain rfl := Option.some.inj (hread.symm.trans hread')
  exact ⟨Option.some.inj (hpayload.symm.trans hpayload'), Option.some.inj (htag.symm.trans htag')⟩

/-- **A text is opened when the tag is that of its payload, and the payload says so.** -/
theorem decodeCursor_iff {text : String} {value : kind.Value} :
    decodeCursor crates key text kind = some value ↔
      ∃ payload decoded, Carries crates text payload (crates.hmac key payload) ∧
        crates.fromSlice payload = some decoded ∧ readPayload kind decoded = some value := by
  unfold decodeCursor
  simp only [Option.bind_eq_bind, Option.bind_eq_some_iff]
  constructor
  · rintro ⟨bytes, hbytes, json, hjson, envelope, hread, payload, hpayload, tag, htag, h⟩
    by_cases hmac : tag = crates.hmac key payload
    · rw [if_neg (not_not.mpr hmac), Option.bind_eq_some_iff] at h
      obtain ⟨decoded, hdecoded, hvalue⟩ := h
      exact ⟨payload, decoded, ⟨bytes, json, envelope, hbytes, hjson, hread, hpayload, hmac ▸ htag⟩,
        hdecoded, hvalue⟩
    · rw [if_pos hmac] at h
      cases h
  · rintro ⟨payload, decoded, hcarries, hdecoded, hvalue⟩
    obtain ⟨bytes, json, envelope, hbytes, hjson, hread, hpayload, htag⟩ := hcarries.exists_envelope
    refine ⟨bytes, hbytes, json, hjson, envelope, hread, payload, hpayload, _, htag, ?_⟩
    rw [if_neg (not_not.mpr rfl), Option.bind_eq_some_iff]
    exact ⟨decoded, hdecoded, hvalue⟩

theorem carries_encodeCursor (hreads : crates.ReadsBack) (value : kind.Value) :
    Carries crates (encodeCursor crates key kind value) (toVec (cursorPayload kind value))
      (crates.hmac key (toVec (cursorPayload kind value))) where
  exists_envelope := by
    refine ⟨_, _, _, decodeUrlSafe_encodeUrlSafe _, hreads _ (CursorEnvelope.shallow_write _),
      CursorEnvelope.read_write _, ?_, ?_⟩
    · exact decodeUrlSafe_encodeUrlSafe _
    · exact decodeUrlSafe_encodeUrlSafe _

theorem decodeCursor_encodeCursor (hreads : crates.ReadsBack) {value : kind.Value}
    (h : kind.Fits value) :
    decodeCursor crates key (encodeCursor crates key kind value) kind = some value :=
  decodeCursor_iff.mpr ⟨_, _, carries_encodeCursor hreads value,
    hreads _ (shallow_cursorPayload h), readPayload_cursorPayload h⟩

/-! ## Walks with the cursors of the service -/

theorem sealedPages_sealsList (hreads : crates.ReadsBack) : (sealedPages crates key).SealsList :=
  fun cursor => @decodeCursor_encodeCursor crates key .list hreads cursor trivial

/-- The ranks of an item are small, so that the cursor of an item is opened again. -/
theorem checkCursor_fits {item : CheckedItem} {cursor : CheckCursor}
    (h : checkCursor item = .ok cursor) : CursorKind.check.Fits cursor := by
  obtain ⟨nextFireAt, -, h⟩ := except_bind_ok.mp h
  cases h
  constructor
  · show readinessRank item.readiness < 2 ^ 8
    cases item.readiness <;> decide
  · show priorityRank item.remindi.priority < 2 ^ 8
    cases item.remindi.priority <;> decide

/-! ## Issued cursors -/

/-- A cursor that the service has sealed. -/
structure IssuedCursor where
  kind : CursorKind
  value : kind.Value
  fits : kind.Fits value

namespace IssuedCursor

def payload (cursor : IssuedCursor) : List UInt8 := toVec (cursorPayload cursor.kind cursor.value)

def text (crates : CursorCrates) (key : List UInt8) (cursor : IssuedCursor) : String :=
  encodeCursor crates key cursor.kind cursor.value

end IssuedCursor

/-- The text carries a payload that was not sealed, and yet its tag. -/
def Forged (crates : CursorCrates) (key : List UInt8) (issued : List IssuedCursor)
    (text : String) : Prop :=
  ∃ payload, Carries crates text payload (crates.hmac key payload) ∧
    ∀ cursor ∈ issued, payload ≠ cursor.payload

/-- The text carries an issued cursor of this kind with this value. -/
def Stands (crates : CursorCrates) (key : List UInt8) (issued : List IssuedCursor) (text : String)
    (kind : CursorKind) (value : kind.Value) : Prop :=
  ∃ cursor ∈ issued, Carries crates text cursor.payload (crates.hmac key cursor.payload) ∧
    (⟨cursor.kind, cursor.value⟩ : Σ kind : CursorKind, kind.Value) = ⟨kind, value⟩

/-- The text is opened to this value, for which it stands unless it is forged. -/
structure Authentic (crates : CursorCrates) (key : List UInt8) (issued : List IssuedCursor)
    (text : String) (kind : CursorKind) (value : kind.Value) : Prop where
  opened : decodeCursor crates key text kind = some value
  origin : Stands crates key issued text kind value ∨ Forged crates key issued text

variable {issued : List IssuedCursor}

theorem authentic_of_opened (hreads : crates.ReadsBack) {text : String} {value : kind.Value}
    (h : decodeCursor crates key text kind = some value) :
    Authentic crates key issued text kind value := by
  refine ⟨h, ?_⟩
  obtain ⟨payload, decoded, hcarries, hdecoded, hvalue⟩ := decodeCursor_iff.mp h
  by_cases hissued : ∃ cursor ∈ issued, payload = cursor.payload
  · obtain ⟨cursor, hmem, rfl⟩ := hissued
    obtain ⟨kind', value', hfits⟩ := cursor
    have hback : crates.fromSlice (toVec (cursorPayload kind' value')) = some _ :=
      hreads _ (shallow_cursorPayload hfits)
    obtain rfl := Option.some.inj (hback.symm.trans hdecoded)
    obtain rfl := readPayload_kind hvalue
    rw [readPayload_cursorPayload hfits] at hvalue
    obtain rfl := Option.some.inj hvalue
    exact Or.inl ⟨_, hmem, hcarries, rfl⟩
  · refine Or.inr ⟨payload, hcarries, fun cursor hmem heq => ?_⟩
    exact hissued ⟨cursor, hmem, heq⟩

/-- An issued cursor is opened as its own kind only, and by another key only where the tags
agree. -/
theorem issued_opened (hreads : crates.ReadsBack) {cursor : IssuedCursor} {key' : List UInt8}
    {value : kind.Value} (h : decodeCursor crates key' (cursor.text crates key) kind = some value) :
    (⟨cursor.kind, cursor.value⟩ : Σ kind : CursorKind, kind.Value) = ⟨kind, value⟩ ∧
      crates.hmac key' cursor.payload = crates.hmac key cursor.payload := by
  obtain ⟨kind', value', hfits⟩ := cursor
  obtain ⟨payload, decoded, hcarries, hdecoded, hvalue⟩ := decodeCursor_iff.mp h
  obtain ⟨rfl, htag⟩ := hcarries.unique (carries_encodeCursor hreads value')
  have hback := hreads _ (shallow_cursorPayload hfits)
  obtain rfl := Option.some.inj (hback.symm.trans hdecoded)
  obtain rfl := readPayload_kind hvalue
  rw [readPayload_cursorPayload hfits] at hvalue
  obtain rfl := Option.some.inj hvalue
  exact ⟨rfl, htag⟩

/-! ## The three operations -/

variable {service : RemindiService} {actor : Actor} {text : String}

theorem list_opens {cursors : PageCursors} {request : ListRequest} {env : ReadEnv}
    {page : Page Remindi} (hanswer : ((service.list cursors actor request).run env ()).1 = .ok page)
    (htext : request.cursor = some text) : ∃ cursor, cursors.decodeList text = some cursor := by
  rcases hrun : (service.list cursors actor request).run env () with ⟨outcome, s⟩
  rw [hrun] at hanswer
  obtain rfl : outcome = .ok page := hanswer
  obtain ⟨m, h⟩ := Txn.run_ok.mp hrun
  unfold RemindiService.list at h
  obtain ⟨_, _, _, hrun, h⟩ := Txn.bind_ok.mp h
  obtain ⟨-, rfl, rfl⟩ := Txn.ofExcept_ok.mp hrun
  obtain ⟨_, _, _, hrun, h⟩ := Txn.bind_ok.mp h
  obtain ⟨-, rfl, rfl⟩ := Txn.ofExcept_ok.mp hrun
  obtain ⟨_, _, _, hrun, h⟩ := Txn.bind_ok.mp h
  obtain ⟨-, rfl, rfl⟩ := Txn.ofExcept_ok.mp hrun
  obtain ⟨_, _, _, hrun, -⟩ := Txn.bind_ok.mp h
  obtain ⟨hcursor, -, -⟩ := Txn.ofExcept_ok.mp hrun
  rw [htext] at hcursor
  obtain ⟨opened, hopen, -⟩ := except_map_ok.mp hcursor
  unfold openCursor at hopen
  split at hopen
  · next cursor hdecode => exact ⟨cursor, hdecode⟩
  · cases hopen

/-- The number that a page of the history begins after, and the cursor that it ends with. -/
theorem history_ok {cursors : PageCursors} {request : HistoryRequest} {env : ReadEnv}
    {page : HistoryPage}
    (hanswer : ((service.history cursors actor request).run env ()).1 = .ok page) :
    (∃ start, historyStart cursors request = .ok start) ∧
      ∃ hasMore, page.nextCursor = nextHistoryCursor cursors hasMore page.items.getLast? := by
  rcases hrun : (service.history cursors actor request).run env () with ⟨outcome, s⟩
  rw [hrun] at hanswer
  obtain rfl : outcome = .ok page := hanswer
  obtain ⟨m, h⟩ := Txn.run_ok.mp hrun
  unfold RemindiService.history at h
  obtain ⟨_, _, _, hrun, h⟩ := Txn.bind_ok.mp h
  obtain ⟨-, rfl, rfl⟩ := Txn.ofExcept_ok.mp hrun
  obtain ⟨_, _, _, hrun, h⟩ := Txn.bind_ok.mp h
  obtain ⟨-, rfl, rfl⟩ := Txn.ofExcept_ok.mp hrun
  obtain ⟨start, _, _, hrun, h⟩ := Txn.bind_ok.mp h
  obtain ⟨hstart, rfl, rfl⟩ := Txn.ofExcept_ok.mp hrun
  refine ⟨⟨start, hstart⟩, ?_⟩
  obtain ⟨_, _, _, -, h⟩ := Txn.bind_ok.mp h
  obtain ⟨found, _, _, -, h⟩ := Txn.bind_ok.mp h
  cases found with
  | none =>
    rw [if_pos Option.isNone_none] at h
    exact absurd h Txn.throw_ok
  | some item =>
    rw [if_neg (by simp)] at h
    obtain ⟨items, _, _, -, h⟩ := Txn.bind_ok.mp h
    obtain ⟨evidence, _, _, -, h⟩ := Txn.bind_ok.mp h
    obtain ⟨rfl, -, -⟩ := Txn.pure_ok.mp h
    exact ⟨_, rfl⟩

theorem history_opens {cursors : PageCursors} {request : HistoryRequest} {env : ReadEnv}
    {page : HistoryPage}
    (hanswer : ((service.history cursors actor request).run env ()).1 = .ok page)
    (htext : request.cursor = some text) : ∃ cursor, cursors.decodeHistory text = some cursor := by
  obtain ⟨⟨start, hstart⟩, -⟩ := history_ok hanswer
  unfold historyStart at hstart
  obtain ⟨_, hcursor, -⟩ := except_bind_ok.mp hstart
  rw [htext] at hcursor
  obtain ⟨opened, hopen, -⟩ := except_map_ok.mp hcursor
  unfold openCursor at hopen
  split at hopen
  · next cursor hdecode => exact ⟨cursor, hdecode⟩
  · cases hopen

theorem check_opens {request : CheckRequest} {db db' : Db} {readEnv persistEnv : Env}
    {result : CheckResult}
    (hanswer : service.check actor request readEnv persistEnv db = (.ok result, db'))
    (htext : request.cursor = some text) :
    ∃ cursor, service.externals.decodeCursor text = some cursor := by
  obtain ⟨page, -⟩ := check_ok hanswer
  have hcursor := page.hcursor
  unfold RemindiService.decodeCursor at hcursor
  rw [htext] at hcursor
  dsimp only at hcursor
  split at hcursor
  · next cursor hdecode => exact ⟨cursor, hdecode⟩
  · cases hcursor

/-! ## Next cursors -/

theorem nextListCursor_ok {cursors : PageCursors} {hasMore : Bool} {last : Option Remindi}
    (h : nextListCursor cursors hasMore last = .ok (some text)) :
    ∃ cursor, cursors.encodeList cursor = text := by
  unfold nextListCursor at h
  cases hasMore with
  | false => cases h
  | true =>
    cases last with
    | none => cases h
    | some item =>
      obtain ⟨encoded, hencoded, hsome⟩ := except_map_ok.mp h
      obtain ⟨createdAt, -, hcursor⟩ := except_bind_ok.mp hencoded
      cases hcursor
      exact ⟨_, Option.some.inj hsome⟩

theorem pageCursor_ok {hasMore : Bool} {last : Option CheckedItem}
    (h : service.pageCursor hasMore last = .ok (some text)) :
    ∃ cursor, CursorKind.check.Fits cursor ∧ service.externals.encodeCursor cursor = text := by
  unfold RemindiService.pageCursor at h
  cases hasMore with
  | false => cases h
  | true =>
    cases last with
    | none => cases h
    | some item =>
      obtain ⟨encoded, hencoded, hsome⟩ := except_map_ok.mp h
      obtain ⟨cursor, hcursor, hseal⟩ := except_bind_ok.mp hencoded
      cases hseal
      exact ⟨cursor, checkCursor_fits hcursor, Option.some.inj hsome⟩

/-- The next cursor of a listing is issued. -/
theorem list_issues {request : ListRequest} {env : ReadEnv} {page : Page Remindi}
    (hanswer : ((service.list (sealedPages crates key) actor request).run env ()).1 = .ok page)
    (hnext : page.nextCursor = some text) :
    ∃ cursor : IssuedCursor, cursor.kind = .list ∧ cursor.text crates key = text := by
  rcases hrun : (service.list (sealedPages crates key) actor request).run env ()
    with ⟨outcome, s⟩
  rw [hrun] at hanswer
  obtain rfl : outcome = .ok page := hanswer
  obtain ⟨m, h⟩ := Txn.run_ok.mp hrun
  obtain ⟨limit, rows, hpage⟩ := list_ok h
  have hcursor := hpage.next
  rw [hnext] at hcursor
  obtain ⟨cursor, hseal⟩ := nextListCursor_ok hcursor
  exact ⟨⟨.list, cursor, trivial⟩, rfl, hseal⟩

/-- The next cursor of a page of events with numbers of 64 bits is issued. -/
theorem history_issues {request : HistoryRequest} {env : ReadEnv} {page : HistoryPage}
    (hanswer : ((service.history (sealedPages crates key) actor request).run env ()).1 = .ok page)
    (hevents : ∀ event ∈ page.items, event.sequence < 2 ^ 63)
    (hnext : page.nextCursor = some text) :
    ∃ cursor : IssuedCursor, cursor.kind = .history ∧ cursor.text crates key = text := by
  obtain ⟨-, hasMore, hcursor⟩ := history_ok hanswer
  rw [hnext] at hcursor
  unfold nextHistoryCursor at hcursor
  cases hasMore with
  | false => cases hcursor
  | true =>
    rw [if_pos rfl] at hcursor
    obtain ⟨event, hlast, hseal⟩ := Option.map_eq_some_iff.mp hcursor.symm
    have hfits : CursorKind.history.Fits ⟨event.sequence⟩ := by
      have hevent := hevents event (List.mem_of_getLast? hlast)
      constructor
      · show -(2 ^ 63) ≤ (event.sequence : Int)
        omega
      · show (event.sequence : Int) < 2 ^ 63
        omega
    exact ⟨⟨.history, ⟨event.sequence⟩, hfits⟩, rfl, hseal⟩

/-- The next cursor of a check is issued. -/
theorem check_issues {sha256 : String → String} {readNumber : NumberText → NumberText}
    {ownerId : String} {request : CheckRequest} {readEnv persistEnv : Env} {db db' : Db}
    {result : CheckResult}
    (hanswer : RemindiService.check ⟨sealedChecks crates key sha256 readNumber, ownerId⟩ actor
      request readEnv persistEnv db = (.ok result, db')) (hnext : result.nextCursor = some text) :
    ∃ cursor : IssuedCursor, cursor.kind = .check ∧ cursor.text crates key = text := by
  obtain ⟨page, items, rfl, -⟩ := check_ok hanswer
  have hcursor := page.hnext
  rw [show page.nextCursor = some text from hnext] at hcursor
  obtain ⟨cursor, hfits, hseal⟩ := pageCursor_ok hcursor
  exact ⟨⟨.check, cursor, hfits⟩, rfl, hseal⟩

/-! ## Main -/

/-- What the cursors issued under a secret are worth to the service with that secret. -/
structure CursorsAuthentic (crates : CursorCrates) (secret : List UInt8)
    (issued : List IssuedCursor) : Prop where
  opens : ∀ cursor ∈ issued, decodeCursor crates (cursorKey crates secret)
    (cursor.text crates (cursorKey crates secret)) cursor.kind = some cursor.value
  own_kind : ∀ cursor ∈ issued, ∀ secret' kind value,
    decodeCursor crates (cursorKey crates secret') (cursor.text crates (cursorKey crates secret))
      kind = some value →
    (⟨cursor.kind, cursor.value⟩ : Σ kind : CursorKind, kind.Value) = ⟨kind, value⟩ ∧
      crates.hmac (cursorKey crates secret') cursor.payload =
        crates.hmac (cursorKey crates secret) cursor.payload
  list : ∀ (service : RemindiService) actor request env page text,
    ((service.list (sealedPages crates (cursorKey crates secret)) actor request).run env ()).1 =
      .ok page → request.cursor = some text →
    ∃ cursor, Authentic crates (cursorKey crates secret) issued text .list cursor
  history : ∀ (service : RemindiService) actor request env page text,
    ((service.history (sealedPages crates (cursorKey crates secret)) actor request).run env ()).1 =
      .ok page → request.cursor = some text →
    ∃ cursor, Authentic crates (cursorKey crates secret) issued text .history cursor
  check : ∀ sha256 readNumber ownerId actor request readEnv persistEnv db result db' text,
    RemindiService.check ⟨sealedChecks crates (cursorKey crates secret) sha256 readNumber, ownerId⟩
      actor request readEnv persistEnv db = (.ok result, db') → request.cursor = some text →
    ∃ cursor, Authentic crates (cursorKey crates secret) issued text .check cursor
  list_issues : ∀ (service : RemindiService) actor request env page text,
    ((service.list (sealedPages crates (cursorKey crates secret)) actor request).run env ()).1 =
      .ok page → page.nextCursor = some text →
    ∃ cursor : IssuedCursor, cursor.kind = .list ∧
      cursor.text crates (cursorKey crates secret) = text
  history_issues : ∀ (service : RemindiService) actor request env page text,
    ((service.history (sealedPages crates (cursorKey crates secret)) actor request).run env ()).1 =
      .ok page → (∀ event ∈ page.items, event.sequence < 2 ^ 63) → page.nextCursor = some text →
    ∃ cursor : IssuedCursor, cursor.kind = .history ∧
      cursor.text crates (cursorKey crates secret) = text
  check_issues : ∀ sha256 readNumber ownerId actor request readEnv persistEnv db result db' text,
    RemindiService.check ⟨sealedChecks crates (cursorKey crates secret) sha256 readNumber, ownerId⟩
      actor request readEnv persistEnv db = (.ok result, db') → result.nextCursor = some text →
    ∃ cursor : IssuedCursor, cursor.kind = .check ∧
      cursor.text crates (cursorKey crates secret) = text
  walk : ∀ x labels service actor request
    (first : ListedPage x labels service (sealedPages crates (cursorKey crates secret)) actor
      request) pages, ListWalk (first :: pages) → ListsOnce first pages

/-- **No page is given for a cursor that was not issued**, unless its tag is forged, and an
issued one stands for what it was issued for. -/
theorem cursors_authentic {crates : CursorCrates} (hreads : crates.ReadsBack)
    (secret : List UInt8) (issued : List IssuedCursor) :
    CursorsAuthentic crates secret issued where
  opens cursor _ := decodeCursor_encodeCursor hreads cursor.fits
  own_kind _ _ _ _ _ h := issued_opened hreads h
  list _ _ _ _ _ _ hanswer htext := by
    obtain ⟨cursor, hopen⟩ := list_opens hanswer htext
    exact ⟨cursor, authentic_of_opened hreads hopen⟩
  history _ _ _ _ _ _ hanswer htext := by
    obtain ⟨cursor, hopen⟩ := history_opens hanswer htext
    exact ⟨cursor, authentic_of_opened hreads hopen⟩
  check _ _ _ _ _ _ _ _ _ _ _ hanswer htext := by
    obtain ⟨cursor, hopen⟩ := check_opens hanswer htext
    exact ⟨cursor, authentic_of_opened hreads hopen⟩
  list_issues _ _ _ _ _ _ hanswer hnext := list_issues hanswer hnext
  history_issues _ _ _ _ _ _ hanswer hevents hnext := history_issues hanswer hevents hnext
  check_issues _ _ _ _ _ _ _ _ _ _ _ hanswer hnext := check_issues hanswer hnext
  walk _ _ _ _ _ _ _ hwalk := hwalk.listsOnce (sealedPages_sealsList hreads)

/-! ## Samples -/

namespace Sample

/-- The bytes as text, read. -/
def readBytes (bytes : List UInt8) : Option Json :=
  (String.fromUTF8? ⟨bytes.toArray⟩).bind read

theorem readBytes_toVec (value : Json) : readBytes (toVec value) = some value := by
  unfold readBytes toVec textBytes String.fromUTF8?
  rw [Array.toArray_toList, dif_pos value.text.isValidUTF8]
  exact read_text value

def cursorCrates : CursorCrates where
  sha256 := fun bytes => bytes.take 32
  hmac := fun key message => (key ++ message).reverse.take 32
  fromSlice := readBytes

theorem cursorCrates_readsBack : cursorCrates.ReadsBack := fun value _ => readBytes_toVec value

/-- A cursor of each kind. -/
def issuedCursors : List IssuedCursor :=
  [⟨.list, ⟨"2026-01-01T00:00:00.000000Z", (uuid 1).text⟩, trivial⟩,
    ⟨.history, ⟨7⟩, by constructor <;> decide⟩,
    ⟨.check, ⟨0, 3, none, (uuid 2).text⟩, by constructor <;> decide⟩]

theorem cursors_authentic_sample :
    CursorsAuthentic cursorCrates (textBytes "secret") issuedCursors :=
  cursors_authentic cursorCrates_readsBack _ _

end Sample

end RemindiCore
