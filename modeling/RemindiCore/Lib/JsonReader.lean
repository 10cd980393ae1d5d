import RemindiCore.Lib.JsonText
import Mathlib.Data.List.TakeWhile

/-!
# Reading a value back

`read` reads the texts that the writer prints.  The readers take fuel, one for every
character at most.

    a.write.length ≤ n → Ends s → readValue n (a.write ++ s) = some (a, s)      (readValue_write)

so a whole text is read back (`read_text`).
-/

namespace JsonText

/-! ## The readers -/

/-- The characters of a text up to its closing quote. -/
def readChars : Nat → List Char → Option (List Char × List Char)
  | 0, _ => none
  | n + 1, s =>
    if s.head? = some '"' then some ([], s.tail)
    else do
      let (c, s) ← unescape s
      let (cs, s) ← readChars n s
      return (c :: cs, s)

def readText (n : Nat) (s : List Char) : Option (String × List Char) :=
  if s.head? = some '"' then (readChars n s.tail).map fun (cs, s) => (String.ofList cs, s)
  else none

/-- The characters of a number, as many as there are. -/
def readNumber (s : List Char) : Option (NumberText × List Char) :=
  if h : s.takeWhile isNumberChar ≠ [] then
    some (⟨s.takeWhile isNumberChar, h, fun _ => List.mem_takeWhile_imp⟩, s.dropWhile isNumberChar)
  else none

/-- What follows this text. -/
def readAfter (word s : List Char) : Option (List Char) :=
  if word.isPrefixOf s then some (s.drop word.length) else none

mutual
def readValue : Nat → List Char → Option (Json × List Char)
  | 0, _ => none
  | n + 1, s =>
    match headKind s with
    | 0 => (readAfter ['n', 'u', 'l', 'l'] s).map fun s => (.null, s)
    | 1 => (readAfter ['t', 'r', 'u', 'e'] s).map fun s => (.bool true, s)
    | 2 => (readAfter ['f', 'a', 'l', 's', 'e'] s).map fun s => (.bool false, s)
    | 3 => (readText n s).map fun (text, s) => (.string text, s)
    | 4 => (readItems n [] s.tail).map fun (items, s) => (.array items, s)
    | 5 => (readMembers n [] s.tail).map fun (members, s) => (.object members, s)
    | _ => (readNumber s).map fun (number, s) => (.number number, s)

/-- Items up to the closing bracket, `sep` before the first one. -/
def readItems : Nat → List Char → List Char → Option (List Json × List Char)
  | 0, _, _ => none
  | n + 1, sep, s =>
    if s.head? = some ']' then some ([], s.tail)
    else do
      let s ← readAfter sep s
      let (x, s) ← readValue n s
      let (xs, s) ← readItems n [','] s
      return (x :: xs, s)

/-- Members up to the closing brace, `sep` before the first one. -/
def readMembers : Nat → List Char → List Char → Option (List (String × Json) × List Char)
  | 0, _, _ => none
  | n + 1, sep, s =>
    if s.head? = some '}' then some ([], s.tail)
    else do
      let s ← readAfter sep s
      let (k, s) ← readText n s
      let s ← readAfter [':'] s
      let (x, s) ← readValue n s
      let (ms, s) ← readMembers n [','] s
      return ((k, x) :: ms, s)
end

/-- A whole text. -/
def read (text : String) : Option Json :=
  match readValue text.length text.toList with
  | some (a, []) => some a
  | _ => none

/-! ## What the writer prints -/

theorem readAfter_append (word s : List Char) : readAfter word (word ++ s) = some s := by
  have hprefix : word.isPrefixOf (word ++ s) = true :=
    List.isPrefixOf_iff_prefix.mpr (List.prefix_append word s)
  unfold readAfter
  rw [if_pos hprefix, List.drop_left]

theorem escapeChar_ne_nil (c : Char) : escapeChar c ≠ [] := by
  intro h
  have hc := unescape_escapeChar c []
  rw [h] at hc
  cases hc

theorem escapeChar_pos (c : Char) : 0 < (escapeChar c).length :=
  List.length_pos_iff.mpr (escapeChar_ne_nil c)

theorem head?_escapeChar (c : Char) (s : List Char) :
    (escapeChar c ++ s).head? ≠ some '"' := by
  intro h
  obtain ⟨t, ht⟩ := List.head?_eq_some_iff.mp h
  exact escapeChar_ne_quote c s t ht

theorem readChars_escaped {n : Nat} {cs : List Char} (s : List Char)
    (hn : (cs.flatMap escapeChar).length < n) :
    readChars n (cs.flatMap escapeChar ++ '"' :: s) = some (cs, s) := by
  induction cs generalizing n with
  | nil =>
    cases n with
    | zero => cases hn
    | succ n => rfl
  | cons c cs ih =>
    cases n with
    | zero => cases hn
    | succ n =>
      have hpos := escapeChar_pos c
      rw [List.flatMap_cons, List.length_append] at hn
      rw [List.flatMap_cons, List.append_assoc]
      unfold readChars
      rw [if_neg (head?_escapeChar c _), unescape_escapeChar]
      dsimp only [Option.bind_eq_bind, Option.bind_some]
      rw [ih (by omega)]
      rfl

theorem length_writeText (text : String) :
    (writeText text).length = (text.toList.flatMap escapeChar).length + 2 := by
  simp [writeText]

theorem readText_writeText {n : Nat} {text : String} (s : List Char)
    (hn : (writeText text).length ≤ n + 1) : readText n (writeText text ++ s) = some (text, s) := by
  rw [length_writeText] at hn
  have happend : writeText text ++ s = '"' :: (text.toList.flatMap escapeChar ++ '"' :: s) := by
    simp [writeText]
  unfold readText
  rw [happend, if_pos List.head?_cons, List.tail_cons, readChars_escaped s (by omega),
    Option.map_some]
  dsimp only
  rw [String.ofList_toList]

theorem readNumber_chars (number : NumberText) {s : List Char} (hs : Ends s) :
    readNumber (number.chars ++ s) = some (number, s) := by
  have hstops : s.takeWhile isNumberChar = [] ∧ s.dropWhile isNumberChar = s := by
    cases s with
    | nil => exact ⟨rfl, rfl⟩
    | cons c s =>
      have hc := hs c s rfl
      exact ⟨List.takeWhile_cons_of_neg (by simp [hc]), List.dropWhile_cons_of_neg (by simp [hc])⟩
  have htake : (number.chars ++ s).takeWhile isNumberChar = number.chars := by
    rw [List.takeWhile_append_of_pos number.numeric, hstops.1, List.append_nil]
  have hdrop : (number.chars ++ s).dropWhile isNumberChar = s := by
    rw [List.dropWhile_append_of_pos number.numeric, hstops.2]
  unfold readNumber
  simp only [htake, hdrop]
  rw [dif_pos number.ne_nil]

theorem write_pos (a : Json) : 0 < a.write.length := by
  cases a with
  | number number => exact List.length_pos_iff.mpr number.ne_nil
  | bool b => cases b <;> exact Nat.succ_pos _
  | _ => exact Nat.succ_pos _

theorem writeItems_pos (sep : List Char) (xs : List Json) : 0 < (writeItems sep xs).length := by
  cases xs with
  | nil => exact Nat.succ_pos _
  | cons x xs =>
    have hx := write_pos x
    unfold writeItems
    rw [List.length_append, List.length_append]
    omega

theorem writeMembers_pos (sep : List Char) (ms : List (String × Json)) :
    0 < (writeMembers sep ms).length := by
  cases ms with
  | nil => exact Nat.succ_pos _
  | cons m ms =>
    unfold writeMembers
    rw [List.length_append, List.length_append, length_writeText]
    omega

/-- No item, and no member, begins with a closing bracket. -/
theorem head?_ne_close {sep s : List Char} (hsep : sep = [] ∨ sep = [',']) {c d : Char}
    (hc : c = ']' ∨ c = '}') (hs : s.head? = some d) (hd : d ≠ c) :
    (sep ++ s).head? ≠ some c := by
  rcases hsep with rfl | rfl
  · rw [List.nil_append, hs]
    exact fun h => hd (Option.some.inj h)
  · show some ',' ≠ some c
    rcases hc with rfl | rfl <;> decide

theorem head?_write (a : Json) (s : List Char) :
    ∃ d, (a.write ++ s).head? = some d ∧ d ≠ ']' := by
  cases hhead : (a.write ++ s).head? with
  | none =>
    have hpos := write_pos a
    rw [List.head?_eq_none_iff, List.append_eq_nil_iff] at hhead
    rw [hhead.1] at hpos
    cases hpos
  | some d =>
    refine ⟨d, rfl, ?_⟩
    rintro rfl
    obtain ⟨t, ht⟩ := List.head?_eq_some_iff.mp hhead
    exact close_ne_item (Or.inl rfl) (Or.inl rfl) a t s ht.symm

mutual
/-- **A written value is read from the front of a longer text.** -/
theorem readValue_write : ∀ (a : Json) (n : Nat) (s : List Char), a.write.length ≤ n → Ends s →
    readValue n (a.write ++ s) = some (a, s)
  | a, 0, s, hn, _ => by
    have hpos := write_pos a
    omega
  | .null, n + 1, s, _, _ => rfl
  | .bool true, n + 1, s, _, _ => rfl
  | .bool false, n + 1, s, _, _ => rfl
  | .number number, n + 1, s, _, hs => by
    unfold readValue
    rw [headKind_write]
    show (readNumber (number.chars ++ s)).map _ = _
    rw [readNumber_chars number hs]
    rfl
  | .string text, n + 1, s, hn, _ => by
    unfold readValue
    rw [headKind_write]
    show (readText n (writeText text ++ s)).map _ = _
    rw [readText_writeText s hn]
    rfl
  | .array items, n + 1, s, hn, _ => by
    have hitems := readItems_write items n [] s (Nat.le_of_succ_le_succ hn) (Or.inl rfl)
    unfold readValue
    rw [headKind_write]
    show (readItems n [] (writeItems [] items ++ s)).map _ = _
    rw [hitems]
    rfl
  | .object members, n + 1, s, hn, _ => by
    have hmembers := readMembers_write members n [] s (Nat.le_of_succ_le_succ hn) (Or.inl rfl)
    unfold readValue
    rw [headKind_write]
    show (readMembers n [] (writeMembers [] members ++ s)).map _ = _
    rw [hmembers]
    rfl

theorem readItems_write : ∀ (xs : List Json) (n : Nat) (sep s : List Char),
    (writeItems sep xs).length ≤ n → sep = [] ∨ sep = [','] →
      readItems n sep (writeItems sep xs ++ s) = some (xs, s)
  | xs, 0, sep, s, hn, _ => by
    have hpos := writeItems_pos sep xs
    omega
  | [], n + 1, sep, s, _, _ => rfl
  | x :: xs, n + 1, sep, s, hn, hsep => by
    have hx := write_pos x
    have hxs := writeItems_pos [','] xs
    obtain ⟨d, hd, hclose⟩ := head?_write x (writeItems [','] xs ++ s)
    have hlength : (writeItems sep (x :: xs)).length =
        sep.length + (x.write.length + (writeItems [','] xs).length) := by
      simp [writeItems]
    have happend : writeItems sep (x :: xs) ++ s =
        sep ++ (x.write ++ (writeItems [','] xs ++ s)) := by
      simp [writeItems]
    have hvalue := readValue_write x n (writeItems [','] xs ++ s) (by omega) (ends_items xs s)
    have hrest := readItems_write xs n [','] s (by omega) (Or.inr rfl)
    unfold readItems
    rw [happend, if_neg (head?_ne_close hsep (Or.inl rfl) hd hclose), readAfter_append]
    dsimp only [Option.bind_eq_bind, Option.bind_some]
    rw [hvalue]
    dsimp only [Option.bind_some]
    rw [hrest]
    rfl

theorem readMembers_write : ∀ (ms : List (String × Json)) (n : Nat) (sep s : List Char),
    (writeMembers sep ms).length ≤ n → sep = [] ∨ sep = [','] →
      readMembers n sep (writeMembers sep ms ++ s) = some (ms, s)
  | ms, 0, sep, s, hn, _ => by
    have hpos := writeMembers_pos sep ms
    omega
  | [], n + 1, sep, s, _, _ => rfl
  | (k, x) :: ms, n + 1, sep, s, hn, hsep => by
    have hx := write_pos x
    have hms := writeMembers_pos [','] ms
    have hlength : (writeMembers sep ((k, x) :: ms)).length =
        sep.length + ((writeText k).length + (x.write.length +
          (writeMembers [','] ms).length + 1)) := by
      simp [writeMembers]
    have happend : writeMembers sep ((k, x) :: ms) ++ s =
        sep ++ (writeText k ++ ([':'] ++ (x.write ++ (writeMembers [','] ms ++ s)))) := by
      simp [writeMembers]
    have hhead : (writeText k ++ ([':'] ++ (x.write ++ (writeMembers [','] ms ++ s)))).head? =
        some '"' := rfl
    have hvalue := readValue_write x n (writeMembers [','] ms ++ s) (by omega) (ends_members ms s)
    have hrest := readMembers_write ms n [','] s (by omega) (Or.inr rfl)
    unfold readMembers
    rw [happend, if_neg (head?_ne_close hsep (Or.inr rfl) hhead (by decide)), readAfter_append]
    dsimp only [Option.bind_eq_bind, Option.bind_some]
    rw [readText_writeText _ (by omega)]
    dsimp only [Option.bind_some]
    rw [readAfter_append]
    dsimp only [Option.bind_some]
    rw [hvalue]
    dsimp only [Option.bind_some]
    rw [hrest]
    rfl
end

/-- **A written text is read back.** -/
theorem read_text (a : Json) : read a.text = some a := by
  have hvalue := readValue_write a a.write.length [] le_rfl ends_nil
  rw [List.append_nil] at hvalue
  unfold read Json.text
  rw [String.toList_ofList, String.length_ofList, hvalue]

end JsonText
