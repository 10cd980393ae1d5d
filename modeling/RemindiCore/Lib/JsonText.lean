import RemindiCore.Lib.Digits

/-!
# JSON values and the compact writer

`Json` is a JSON value with the members of an object in the order they are
written; `write` prints it with no whitespace, escaping a text the way
`serde_json` does.  A number is kept by the text it prints.

    a.write ++ s = b.write ++ t → Ends s → Ends t → a = b ∧ s = t       (write_append_inj)

so the text determines the value (`text_injective`), and a value can be read back from
the front of any longer text.
-/

namespace JsonText

open DigitText

/-! ## Numbers -/

def isNumberChar (c : Char) : Bool :=
  c.isDigit || c == '+' || c == '-' || c == '.' || c == 'e' || c == 'E'

/-- `s` does not go on with a character of a number. -/
def Ends (s : List Char) : Prop := ∀ c r, s = c :: r → isNumberChar c = false

theorem ends_cons {c : Char} {s : List Char} (h : isNumberChar c = false) : Ends (c :: s) := by
  intro d r e
  cases e
  exact h

theorem ends_nil : Ends [] := by
  intro c r e
  cases e

/-! ## Values -/

/-- A number, kept by the text it prints. -/
structure NumberText where
  chars : List Char
  ne_nil : chars ≠ []
  numeric : ∀ c ∈ chars, isNumberChar c = true
deriving DecidableEq

def NumberText.ofNat (n : Nat) : NumberText where
  chars := decimal n
  ne_nil := decimal_ne_nil n
  numeric := by
    intro c hc
    simp [isNumberChar, isDigit_of_mem_decimal hc]

theorem NumberText.ofNat_injective {m n : Nat} (h : NumberText.ofNat m = NumberText.ofNat n) :
    m = n :=
  decimal_injective (congrArg NumberText.chars h)

/-- The digits after a minus sign for a negative number. -/
def NumberText.ofInt (n : Int) : NumberText where
  chars := if n < 0 then '-' :: decimal n.natAbs else decimal n.natAbs
  ne_nil := by
    split
    · exact List.cons_ne_nil _ _
    · exact decimal_ne_nil _
  numeric := by
    intro c hc
    split at hc
    · rcases List.mem_cons.mp hc with rfl | hc
      · rfl
      · simp [isNumberChar, isDigit_of_mem_decimal hc]
    · simp [isNumberChar, isDigit_of_mem_decimal hc]

theorem NumberText.ofInt_injective {m n : Int} (h : NumberText.ofInt m = NumberText.ofInt n) :
    m = n := by
  have hsign : ∀ k : Nat, ∀ s : List Char, decimal k ≠ '-' :: s := by
    intro k s hk
    have := isDigit_of_mem_decimal (n := k) (c := '-') (by rw [hk]; exact List.mem_cons_self)
    simp [Char.isDigit] at this
  have hc := congrArg NumberText.chars h
  simp only [NumberText.ofInt] at hc
  by_cases hm : m < 0 <;> by_cases hn : n < 0
  · rw [if_pos hm, if_pos hn] at hc
    have := decimal_injective (List.cons.inj hc).2
    omega
  · rw [if_pos hm, if_neg hn] at hc
    exact absurd hc.symm (hsign _ _)
  · rw [if_neg hm, if_pos hn] at hc
    exact absurd hc (hsign _ _)
  · rw [if_neg hm, if_neg hn] at hc
    have := decimal_injective hc
    omega

/-- A JSON value; the members of an object stand in the order they are written. -/
inductive Json where
  | null
  | bool (b : Bool)
  | number (n : NumberText)
  | string (s : String)
  | array (items : List Json)
  | object (members : List (String × Json))

namespace Json

def ofNat (n : Nat) : Json := .number (.ofNat n)

def isObject : Json → Bool
  | .object _ => true
  | _ => false

def ofInt (n : Int) : Json := .number (.ofInt n)

/-- `null` for an absent value. -/
def ofOption {α : Type} (f : α → Json) : Option α → Json
  | none => .null
  | some a => f a

mutual
/-- The value with every number replaced. -/
def mapNumbers (f : NumberText → NumberText) : Json → Json
  | .null => .null
  | .bool b => .bool b
  | .number n => .number (f n)
  | .string s => .string s
  | .array items => .array (mapItems f items)
  | .object members => .object (mapMembers f members)

def mapItems (f : NumberText → NumberText) : List Json → List Json
  | [] => []
  | x :: xs => x.mapNumbers f :: mapItems f xs

def mapMembers (f : NumberText → NumberText) : List (String × Json) → List (String × Json)
  | [] => []
  | (k, x) :: ms => (k, x.mapNumbers f) :: mapMembers f ms
end

@[simp] theorem isObject_mapNumbers (f : NumberText → NumberText) (value : Json) :
    (value.mapNumbers f).isObject = value.isObject := by
  cases value <;> rfl

mutual
/-- How many arrays and objects stand inside one another. -/
def depth : Json → Nat
  | .array items => depthItems items + 1
  | .object members => depthMembers members + 1
  | _ => 0

def depthItems : List Json → Nat
  | [] => 0
  | x :: xs => max x.depth (depthItems xs)

def depthMembers : List (String × Json) → Nat
  | [] => 0
  | (_, x) :: ms => max x.depth (depthMembers ms)
end

/-- Set a member of an object whose members are ordered by their names. -/
def insertMember (k : String) (x : Json) : List (String × Json) → List (String × Json)
  | [] => [(k, x)]
  | (l, y) :: rest =>
    if k < l then (k, x) :: (l, y) :: rest
    else if k = l then (k, x) :: rest
    else (l, y) :: insertMember k x rest

/-- An object built in memory: its members are ordered by their names. -/
def ofMap (members : List (String × Json)) : Json :=
  .object (members.foldl (fun acc m => insertMember m.1 m.2 acc) [])

/-- The member of an object with this name. -/
def member? (name : String) : Json → Option Json
  | .object members => members.lookup name
  | _ => none

theorem lookup_insertMember (name k : String) (x : Json) (members : List (String × Json)) :
    (insertMember k x members).lookup name = if name = k then some x else members.lookup name := by
  have hbeq : ∀ l, (name == l) = decide (name = l) := fun l => by
    rw [Bool.eq_iff_iff, beq_iff_eq, decide_eq_true_iff]
  induction members with
  | nil => by_cases hk : name = k <;> simp [insertMember, List.lookup_cons, hbeq, hk]
  | cons m rest ih =>
    obtain ⟨l, y⟩ := m
    unfold insertMember
    split
    · by_cases hk : name = k <;> simp [List.lookup_cons, hbeq, hk]
    · split
      · next hl =>
        subst hl
        by_cases hk : name = k <;> simp [List.lookup_cons, hbeq, hk]
      · next hl =>
        rw [List.lookup_cons, List.lookup_cons, ih, hbeq]
        by_cases hk : name = k
        · simp [hk, hl]
        · simp [hk]

/-- The member of an object built in memory is the last one given under its name. -/
theorem member?_ofMap_cons (name : String) (members : List (String × Json)) (m : String × Json) :
    (ofMap (members ++ [m])).member? name =
      if name = m.1 then some m.2 else (ofMap members).member? name := by
  unfold ofMap
  rw [List.foldl_append]
  exact lookup_insertMember name m.1 m.2 _

theorem member?_ofMap (name : String) (members : List (String × Json)) :
    (ofMap members).member? name = members.reverse.lookup name := by
  induction members using List.reverseRecOn with
  | nil => rfl
  | append_singleton members m ih =>
    obtain ⟨k, x⟩ := m
    rw [member?_ofMap_cons, ih, List.reverse_append, List.reverse_singleton, List.singleton_append,
      List.lookup_cons]
    by_cases hk : name = k
    · rw [if_pos hk, beq_iff_eq.mpr hk]
    · rw [if_neg hk, beq_eq_false_iff_ne.mpr hk]

/-- The members of an object, when each of them can be written. -/
def collect : List (String × Option Json) → Option (List (String × Json))
  | [] => some []
  | (_, none) :: _ => none
  | (k, some x) :: rest => (collect rest).map ((k, x) :: ·)

def ofMembers (members : List (String × Option Json)) : Option Json :=
  (collect members).map .object

theorem collect_eq_some {members : List (String × Option Json)} {xs : List (String × Json)}
    (h : collect members = some xs) : members = xs.map fun m => (m.1, some m.2) := by
  induction members generalizing xs with
  | nil =>
    cases h
    rfl
  | cons m members ih =>
    obtain ⟨k, x⟩ := m
    cases x with
    | none => cases h
    | some x =>
      simp only [collect, Option.map_eq_some_iff] at h
      obtain ⟨ys, hys, rfl⟩ := h
      rw [ih hys]
      rfl

/-- An object determines what its members were written from. -/
theorem ofMembers_injective {ms ns : List (String × Option Json)} {a : Json}
    (hm : ofMembers ms = some a) (hn : ofMembers ns = some a) : ms = ns := by
  simp only [ofMembers, Option.map_eq_some_iff] at hm hn
  obtain ⟨xs, hxs, rfl⟩ := hm
  obtain ⟨ys, hys, e⟩ := hn
  cases e
  rw [collect_eq_some hxs, collect_eq_some hys]

theorem isSome_of_ofMembers {ms : List (String × Option Json)} {a : Json}
    (h : ofMembers ms = some a) {m : String × Option Json} (hm : m ∈ ms) : m.2.isSome = true := by
  simp only [ofMembers, Option.map_eq_some_iff] at h
  obtain ⟨xs, hxs, rfl⟩ := h
  rw [collect_eq_some hxs] at hm
  obtain ⟨x, -, rfl⟩ := List.mem_map.mp hm
  rfl

end Json

/-! ## Encodings that determine what they encode -/

section

variable {α : Type}

/-- Two values with one encoding are the same. -/
def Faithful (f : α → Option Json) : Prop := ∀ a b x, f a = some x → f b = some x → a = b

/-- Equal encodings, one of which exists, are encodings of one value. -/
theorem Faithful.eq {f : α → Option Json} (hf : Faithful f) {a b : α} (h : f a = f b)
    (ha : (f a).isSome = true) : a = b := by
  obtain ⟨x, hx⟩ := Option.isSome_iff_exists.mp ha
  exact hf a b x hx (h ▸ hx)

/-- `null` for an absent value, where no value is encoded as `null`. -/
def orNull (f : α → Option Json) : Option α → Option Json
  | none => some .null
  | some a => f a

theorem Faithful.orNull {f : α → Option Json} (hf : Faithful f) (hnull : ∀ a, f a ≠ some .null) :
    Faithful (orNull f) := by
  intro a b x ha hb
  cases a with
  | none =>
    cases b with
    | none => rfl
    | some b =>
      cases ha
      exact absurd hb (hnull b)
  | some a =>
    cases b with
    | none =>
      cases hb
      exact absurd ha (hnull a)
    | some b => rw [hf a b x ha hb]

end

/-! ## The compact writer -/

def hexDigit (n : Nat) : Char := Nat.digitChar n

/-- One character of a text: the two-character escapes, `\u00xx` for the other
control characters, itself otherwise. -/
def escapeChar (c : Char) : List Char :=
  if c = '"' then ['\\', '"']
  else if c = '\\' then ['\\', '\\']
  else if c.toNat = 8 then ['\\', 'b']
  else if c.toNat = 9 then ['\\', 't']
  else if c.toNat = 10 then ['\\', 'n']
  else if c.toNat = 12 then ['\\', 'f']
  else if c.toNat = 13 then ['\\', 'r']
  else if c.toNat < 32 then
    ['\\', 'u', '0', '0', hexDigit (c.toNat / 16), hexDigit (c.toNat % 16)]
  else [c]

def writeText (s : String) : List Char := '"' :: (s.toList.flatMap escapeChar ++ ['"'])

mutual
def Json.write : Json → List Char
  | .null => ['n', 'u', 'l', 'l']
  | .bool true => ['t', 'r', 'u', 'e']
  | .bool false => ['f', 'a', 'l', 's', 'e']
  | .number n => n.chars
  | .string s => writeText s
  | .array items => '[' :: writeItems [] items
  | .object members => '{' :: writeMembers [] members

/-- The items of an array, `sep` before the first one, and the closing bracket. -/
def writeItems (sep : List Char) : List Json → List Char
  | [] => [']']
  | x :: xs => sep ++ (x.write ++ writeItems [','] xs)

/-- The members of an object, `sep` before the first one, and the closing brace. -/
def writeMembers (sep : List Char) : List (String × Json) → List Char
  | [] => ['}']
  | (k, x) :: ms => sep ++ (writeText k ++ ':' :: (x.write ++ writeMembers [','] ms))
end

/-- The bytes `serde_json::to_vec` gives, as a text. -/
def Json.text (a : Json) : String := String.ofList a.write

/-! ## Reading a text back -/

def hexVal (c : Char) : Nat := if c.isDigit then c.toNat - 48 else c.toNat - 87

theorem hexVal_hexDigit : ∀ n, n < 16 → hexVal (hexDigit n) = n := by
  decide

/-- The character written at the front, and what follows it. -/
def unescape : List Char → Option (Char × List Char)
  | [] => none
  | '\\' :: '"' :: s => some ('"', s)
  | '\\' :: '\\' :: s => some ('\\', s)
  | '\\' :: 'b' :: s => some (Char.ofNat 8, s)
  | '\\' :: 't' :: s => some (Char.ofNat 9, s)
  | '\\' :: 'n' :: s => some (Char.ofNat 10, s)
  | '\\' :: 'f' :: s => some (Char.ofNat 12, s)
  | '\\' :: 'r' :: s => some (Char.ofNat 13, s)
  | '\\' :: 'u' :: '0' :: '0' :: h :: l :: s => some (Char.ofNat (hexVal h * 16 + hexVal l), s)
  | c :: s => some (c, s)

theorem eq_ofNat {c : Char} {n : Nat} (h : c.toNat = n) : c = Char.ofNat n := by
  rw [← h, Char.ofNat_toNat]

theorem unescape_escapeChar (c : Char) (s : List Char) :
    unescape (escapeChar c ++ s) = some (c, s) := by
  unfold escapeChar
  split
  · next h => subst h; rfl
  split
  · next h => subst h; rfl
  split
  · next h => rw [eq_ofNat h]; rfl
  split
  · next h => rw [eq_ofNat h]; rfl
  split
  · next h => rw [eq_ofNat h]; rfl
  split
  · next h => rw [eq_ofNat h]; rfl
  split
  · next h => rw [eq_ofNat h]; rfl
  split
  · next h =>
    have h1 := hexVal_hexDigit (c.toNat / 16) (by omega)
    have h2 := hexVal_hexDigit (c.toNat % 16) (by omega)
    have hc : Char.ofNat (c.toNat / 16 * 16 + c.toNat % 16) = c := by
      rw [show c.toNat / 16 * 16 + c.toNat % 16 = c.toNat by omega, Char.ofNat_toNat]
    simp only [List.cons_append, List.nil_append, unescape, h1, h2, hc]
  · next hbs _ _ _ _ _ _ =>
    simp only [List.cons_append, List.nil_append]
    rw [unescape.eq_def]
    split <;> simp_all

theorem escapeChar_append_inj {c d : Char} {s t : List Char}
    (h : escapeChar c ++ s = escapeChar d ++ t) : c = d ∧ s = t := by
  have hc := unescape_escapeChar c s
  rw [h, unescape_escapeChar] at hc
  simp only [Option.some.injEq, Prod.mk.injEq] at hc
  exact ⟨hc.1.symm, hc.2.symm⟩

/-- No escaped character starts with the closing quote. -/
theorem escapeChar_ne_quote (c : Char) (s t : List Char) : escapeChar c ++ s ≠ '"' :: t := by
  intro h
  have hc := unescape_escapeChar c s
  rw [h] at hc
  simp only [unescape] at hc
  cases hc
  simp [escapeChar] at h

theorem escaped_append_inj {u v s t : List Char}
    (h : u.flatMap escapeChar ++ '"' :: s = v.flatMap escapeChar ++ '"' :: t) : u = v ∧ s = t := by
  induction u generalizing v with
  | nil =>
    cases v with
    | nil => simpa using h
    | cons d v =>
      rw [List.flatMap_cons, List.append_assoc] at h
      exact absurd h.symm (escapeChar_ne_quote d _ _)
  | cons c u ih =>
    cases v with
    | nil =>
      rw [List.flatMap_cons, List.append_assoc] at h
      exact absurd h (escapeChar_ne_quote c _ _)
    | cons d v =>
      simp only [List.flatMap_cons, List.append_assoc] at h
      obtain ⟨rfl, h1⟩ := escapeChar_append_inj h
      obtain ⟨rfl, h2⟩ := ih h1
      exact ⟨rfl, h2⟩

theorem writeText_append_inj {a b : String} {s t : List Char}
    (h : writeText a ++ s = writeText b ++ t) : a = b ∧ s = t := by
  simp only [writeText, List.cons_append, List.append_assoc, List.cons.injEq, true_and,
    List.nil_append] at h
  obtain ⟨h1, h2⟩ := escaped_append_inj h
  exact ⟨String.toList_inj.mp h1, h2⟩

/-! ## Reading a value back -/

/-- What the first character of a written value says about it. -/
def headKind : List Char → Nat
  | 'n' :: _ => 0
  | 't' :: _ => 1
  | 'f' :: _ => 2
  | '"' :: _ => 3
  | '[' :: _ => 4
  | '{' :: _ => 5
  | ']' :: _ => 6
  | '}' :: _ => 7
  | ',' :: _ => 8
  | _ => 9

theorem headKind_number (n : NumberText) (s : List Char) : headKind (n.chars ++ s) = 9 := by
  obtain ⟨cs, hne, hnum⟩ := n
  cases cs with
  | nil => exact absurd rfl hne
  | cons c cs =>
    have hc := hnum c List.mem_cons_self
    simp only [List.cons_append]
    unfold headKind
    split <;> simp_all [isNumberChar]

/-- The first character tells the constructor of a written value. -/
def Json.kind : Json → Nat
  | .null => 0
  | .bool true => 1
  | .bool false => 2
  | .string _ => 3
  | .array _ => 4
  | .object _ => 5
  | .number _ => 9

theorem headKind_write (a : Json) (s : List Char) : headKind (a.write ++ s) = a.kind := by
  cases a with
  | null => rfl
  | bool b => cases b <;> rfl
  | number n =>
    simp only [Json.write, Json.kind]
    exact headKind_number n s
  | string x => rfl
  | array xs => rfl
  | object ms => rfl

theorem kind_eq_of_write {a b : Json} {s t : List Char} (h : a.write ++ s = b.write ++ t) :
    a.kind = b.kind := by
  rw [← headKind_write a s, h, headKind_write]

theorem ends_items (xs : List Json) (s : List Char) : Ends (writeItems [','] xs ++ s) := by
  cases xs with
  | nil => exact ends_cons (by decide)
  | cons x xs => exact ends_cons (by decide)

theorem ends_members (ms : List (String × Json)) (s : List Char) :
    Ends (writeMembers [','] ms ++ s) := by
  cases ms with
  | nil => exact ends_cons (by decide)
  | cons m ms => exact ends_cons (by decide)

/-- A closing bracket does not start an item. -/
theorem close_ne_item {sep : List Char} (hsep : sep = [] ∨ sep = [',']) {c : Char}
    (hc : c = ']' ∨ c = '}') (y : Json) (s t : List Char) : c :: s ≠ sep ++ (y.write ++ t) := by
  intro h
  have hk := congrArg headKind h
  rcases hsep with rfl | rfl
  · rw [List.nil_append, headKind_write] at hk
    rcases hc with rfl | rfl <;> cases y with
      | bool b => cases b <;> simp [headKind, Json.kind] at hk
      | _ => simp [headKind, Json.kind] at hk
  · rcases hc with rfl | rfl <;> simp [headKind] at hk

mutual
/-- **A written value is read back from the front of a longer text.** -/
theorem write_append_inj : ∀ (a b : Json) (s t : List Char), Ends s → Ends t →
    a.write ++ s = b.write ++ t → a = b ∧ s = t
  | .null, b, s, t, _, _, h => by
    have hk := kind_eq_of_write h
    cases b with
    | null => exact ⟨rfl, by simpa [Json.write] using h⟩
    | bool b => cases b <;> simp [Json.kind] at hk
    | _ => simp [Json.kind] at hk
  | .bool c, b, s, t, _, _, h => by
    have hk := kind_eq_of_write h
    cases b with
    | bool b =>
      cases b <;> cases c <;> simp [Json.kind] at hk
      · exact ⟨rfl, by simpa [Json.write] using h⟩
      · exact ⟨rfl, by simpa [Json.write] using h⟩
    | _ => cases c <;> simp [Json.kind] at hk
  | .number m, b, s, t, hs, ht, h => by
    have hk := kind_eq_of_write h
    cases b with
    | number n =>
      simp only [Json.write] at h
      obtain ⟨h1, h2⟩ := run_append_inj isNumberChar m.numeric n.numeric hs ht h
      refine ⟨?_, h2⟩
      obtain ⟨_, _, _⟩ := m
      obtain ⟨_, _, _⟩ := n
      cases h1
      rfl
    | bool b => cases b <;> simp [Json.kind] at hk
    | _ => simp [Json.kind] at hk
  | .string x, b, s, t, _, _, h => by
    have hk := kind_eq_of_write h
    cases b with
    | string y =>
      simp only [Json.write] at h
      obtain ⟨rfl, h2⟩ := writeText_append_inj h
      exact ⟨rfl, h2⟩
    | bool b => cases b <;> simp [Json.kind] at hk
    | _ => simp [Json.kind] at hk
  | .array xs, b, s, t, _, _, h => by
    have hk := kind_eq_of_write h
    cases b with
    | array ys =>
      simp only [Json.write, List.cons_append, List.cons.injEq, true_and] at h
      obtain ⟨rfl, h2⟩ := writeItems_append_inj xs ys [] s t (Or.inl rfl) h
      exact ⟨rfl, h2⟩
    | bool b => cases b <;> simp [Json.kind] at hk
    | _ => simp [Json.kind] at hk
  | .object xs, b, s, t, _, _, h => by
    have hk := kind_eq_of_write h
    cases b with
    | object ys =>
      simp only [Json.write, List.cons_append, List.cons.injEq, true_and] at h
      obtain ⟨rfl, h2⟩ := writeMembers_append_inj xs ys [] s t (Or.inl rfl) h
      exact ⟨rfl, h2⟩
    | bool b => cases b <;> simp [Json.kind] at hk
    | _ => simp [Json.kind] at hk

theorem writeItems_append_inj : ∀ (xs ys : List Json) (sep s t : List Char),
    sep = [] ∨ sep = [','] → writeItems sep xs ++ s = writeItems sep ys ++ t → xs = ys ∧ s = t
  | [], [], _, s, t, _, h => ⟨rfl, by simpa [writeItems] using h⟩
  | [], y :: ys, sep, s, t, hsep, h => by
    simp only [writeItems, List.append_assoc] at h
    exact absurd h (close_ne_item hsep (Or.inl rfl) y _ _)
  | x :: xs, [], sep, s, t, hsep, h => by
    simp only [writeItems, List.append_assoc] at h
    exact absurd h.symm (close_ne_item hsep (Or.inl rfl) x _ _)
  | x :: xs, y :: ys, sep, s, t, _, h => by
    simp only [writeItems, List.append_assoc, List.append_cancel_left_eq] at h
    obtain ⟨rfl, h1⟩ := write_append_inj x y _ _ (ends_items xs s) (ends_items ys t) h
    obtain ⟨rfl, h2⟩ := writeItems_append_inj xs ys [','] s t (Or.inr rfl) h1
    exact ⟨rfl, h2⟩

theorem writeMembers_append_inj : ∀ (xs ys : List (String × Json)) (sep s t : List Char),
    sep = [] ∨ sep = [','] → writeMembers sep xs ++ s = writeMembers sep ys ++ t → xs = ys ∧ s = t
  | [], [], _, s, t, _, h => ⟨rfl, by simpa [writeMembers] using h⟩
  | [], (k, y) :: ys, sep, s, t, hsep, h => by
    simp only [writeMembers, List.append_assoc] at h
    exact absurd h (close_ne_item hsep (Or.inr rfl) (.string k) _ _)
  | (k, x) :: xs, [], sep, s, t, hsep, h => by
    simp only [writeMembers, List.append_assoc] at h
    exact absurd h.symm (close_ne_item hsep (Or.inr rfl) (.string k) _ _)
  | (k, x) :: xs, (l, y) :: ys, sep, s, t, _, h => by
    simp only [writeMembers, List.append_assoc, List.append_cancel_left_eq] at h
    obtain ⟨rfl, h1⟩ := writeText_append_inj h
    simp only [List.cons_append, List.append_assoc, List.cons.injEq, true_and] at h1
    obtain ⟨rfl, h2⟩ := write_append_inj x y _ _ (ends_members xs s) (ends_members ys t) h1
    obtain ⟨rfl, h3⟩ := writeMembers_append_inj xs ys [','] s t (Or.inr rfl) h2
    exact ⟨rfl, h3⟩
end

/-- **The written text determines the value.** -/
theorem text_injective {a b : Json} (h : a.text = b.text) : a = b := by
  have hw : a.write ++ [] = b.write ++ [] := by
    rw [List.append_nil, List.append_nil]
    exact String.ofList_injective h
  exact (write_append_inj a b [] [] ends_nil ends_nil hw).1

end JsonText
