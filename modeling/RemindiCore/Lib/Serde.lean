import Mathlib.Data.List.Nodup
import Mathlib.Data.String.Basic
import RemindiCore.Lib.JsonText

/-!
# Reading JSON the way serde does

A struct is read from an object, by the names of its members, or from an array, by position
(`structFields`); `required`, `optional` and `defaulted` say what stands in for a field that is
missing.  An enumeration is read from a name, one with data from an object or array that is
tagged with a name.

A text can be read at once or by way of a value built in memory (`toValue`).  Where no object
has a name twice (`Distinct`) both find the same fields:

    structFields closed names (toValue json) =
      (structFields closed names json).map (Fields.map toValue)            (structFields_toValue)
-/

namespace Serde

open JsonText

variable {α β : Type}

/-! ## Texts, numbers and lists -/

def asText : Json → Option String
  | .string text => some text
  | _ => none

def asBool : Json → Option Bool
  | .bool b => some b
  | _ => none

/-- A number of so many bits, without a sign, a fraction or an exponent. -/
def asUnsigned (bits : Nat) : Json → Option Nat
  | .number n =>
    let value := Nat.ofDigitChars 10 n.chars 0
    if n.chars.all Char.isDigit ∧ value < 2 ^ bits then some value else none
  | _ => none

def asList (read : Json → Option α) : Json → Option (List α)
  | .array items => items.mapM read
  | _ => none

/-- An `Option` that is there. -/
def asOption (read : Json → Option α) : Json → Option (Option α)
  | .null => some none
  | value => (read value).map some

/-- One of some names: its text, or an object whose one member it is, without a value. -/
def asUnit (names : List (String × α)) : Json → Option α
  | .string name => names.lookup name
  | .object [(name, .null)] => names.lookup name
  | _ => none

theorem asUnit_object {names : List (String × α)} {members : List (String × Json)}
    (h : members.length ≠ 1) : asUnit names (.object members) = none := by
  unfold asUnit
  split
  · next heq => cases heq
  · next heq =>
    cases heq
    exact absurd rfl h
  · rfl

theorem asUnsigned_ofNat {bits n : Nat} (h : n < 2 ^ bits) :
    asUnsigned bits (.ofNat n) = some n := by
  have hdigits : (DigitText.decimal n).all Char.isDigit = true :=
    List.all_eq_true.mpr fun c hc => DigitText.isDigit_of_mem_decimal hc
  have hvalue : Nat.ofDigitChars 10 (NumberText.ofNat n).chars 0 = n := DigitText.value_decimal n
  unfold asUnsigned Json.ofNat
  dsimp only
  rw [hvalue, if_pos ⟨hdigits, h⟩]

/-! ## Values in memory -/

mutual
/-- The value that is built of a text: members are ordered by their names, and the last of one
name stays. -/
def toValue : Json → Json
  | .array items => .array (toValues items)
  | .object members => .ofMap (toMembers members)
  | json => json

def toValues : List Json → List Json
  | [] => []
  | x :: xs => toValue x :: toValues xs

def toMembers : List (String × Json) → List (String × Json)
  | [] => []
  | (k, x) :: ms => (k, toValue x) :: toMembers ms
end

mutual
/-- No object has a name twice. -/
def Distinct : Json → Prop
  | .array items => DistinctItems items
  | .object members => (members.map Prod.fst).Nodup ∧ DistinctMembers members
  | _ => True

def DistinctItems : List Json → Prop
  | [] => True
  | x :: xs => Distinct x ∧ DistinctItems xs

def DistinctMembers : List (String × Json) → Prop
  | [] => True
  | (_, x) :: ms => Distinct x ∧ DistinctMembers ms
end

theorem toValues_eq (items : List Json) : toValues items = items.map toValue := by
  induction items with
  | nil => rfl
  | cons x xs ih => rw [toValues, ih, List.map_cons]

theorem toMembers_eq (members : List (String × Json)) :
    toMembers members = members.map fun m => (m.1, toValue m.2) := by
  induction members with
  | nil => rfl
  | cons m ms ih => rw [toMembers, ih, List.map_cons]

theorem distinctItems_iff {items : List Json} : DistinctItems items ↔ ∀ x ∈ items, Distinct x := by
  induction items with
  | nil => simp [DistinctItems]
  | cons x xs ih => rw [DistinctItems, ih, List.forall_mem_cons]

theorem distinctMembers_iff {members : List (String × Json)} :
    DistinctMembers members ↔ ∀ m ∈ members, Distinct m.2 := by
  induction members with
  | nil => simp [DistinctMembers]
  | cons m ms ih => rw [DistinctMembers, ih, List.forall_mem_cons]

/-! ## The members of an object in memory -/

/-- The members are strictly ordered by their names. -/
def Ordered (members : List (String × Json)) : Prop := members.Pairwise fun a b => a.1 < b.1

theorem mem_keys_insertMember {k name : String} {x : Json} {members : List (String × Json)} :
    name ∈ (Json.insertMember k x members).map Prod.fst ↔
      name = k ∨ name ∈ members.map Prod.fst := by
  induction members with
  | nil => simp [Json.insertMember]
  | cons m rest ih =>
    obtain ⟨l, y⟩ := m
    unfold Json.insertMember
    split
    · simp
    · split
      · next hkl => simp [hkl]
      · simp only [List.map_cons, List.mem_cons, ih]
        tauto

theorem Ordered.insertMember {members : List (String × Json)} (h : Ordered members) (k : String)
    (x : Json) : Ordered (Json.insertMember k x members) := by
  induction members with
  | nil => exact List.pairwise_singleton _ _
  | cons m rest ih =>
    obtain ⟨l, y⟩ := m
    obtain ⟨hl, hrest⟩ := List.pairwise_cons.mp h
    unfold Json.insertMember
    split
    · next hkl =>
      refine List.pairwise_cons.mpr ⟨fun n hn => ?_, h⟩
      rcases List.mem_cons.mp hn with rfl | hn
      · exact hkl
      · exact lt_trans hkl (hl n hn)
    · next hkl =>
      split
      · next heq =>
        subst heq
        exact List.pairwise_cons.mpr ⟨hl, hrest⟩
      · next hne =>
        refine List.pairwise_cons.mpr ⟨fun n hn => ?_, ih hrest⟩
        have hkey := mem_keys_insertMember.mp (List.mem_map_of_mem (f := Prod.fst) hn)
        rcases hkey with hk | hold
        · rw [hk]
          exact lt_of_le_of_ne (not_lt.mp hkl) (Ne.symm hne)
        · obtain ⟨n', hn', heq⟩ := List.mem_map.mp hold
          rw [← heq]
          exact hl n' hn'

/-- The members of an object built in memory. -/
def built (members : List (String × Json)) : List (String × Json) :=
  members.foldl (fun acc m => Json.insertMember m.1 m.2 acc) []

theorem built_append (members : List (String × Json)) (m : String × Json) :
    built (members ++ [m]) = Json.insertMember m.1 m.2 (built members) := by
  unfold built
  rw [List.foldl_append]
  rfl

theorem ordered_built (members : List (String × Json)) : Ordered (built members) := by
  induction members using List.reverseRecOn with
  | nil => exact List.Pairwise.nil
  | append_singleton members m ih =>
    rw [built_append]
    exact ih.insertMember m.1 m.2

theorem mem_keys_built {name : String} {members : List (String × Json)} :
    name ∈ (built members).map Prod.fst ↔ name ∈ members.map Prod.fst := by
  induction members using List.reverseRecOn with
  | nil => exact Iff.rfl
  | append_singleton members m ih =>
    rw [built_append, mem_keys_insertMember, ih, List.map_append, List.mem_append]
    simp [or_comm]

theorem insertMember_perm {k : String} {x : Json} {members : List (String × Json)}
    (h : k ∉ members.map Prod.fst) : (Json.insertMember k x members).Perm ((k, x) :: members) := by
  induction members with
  | nil => exact .refl _
  | cons m rest ih =>
    obtain ⟨l, y⟩ := m
    rw [List.map_cons, List.mem_cons, not_or] at h
    obtain ⟨hkl, hrest⟩ := h
    unfold Json.insertMember
    split
    · exact .refl _
    · exact ((ih hrest).cons _).trans (.swap _ _ _)

theorem built_perm {members : List (String × Json)} (h : (members.map Prod.fst).Nodup) :
    (built members).Perm members := by
  induction members using List.reverseRecOn with
  | nil => exact .refl _
  | append_singleton members m ih =>
    rw [List.map_append] at h
    obtain ⟨hnodup, -, hapart⟩ := List.nodup_append.mp h
    have hnew : m.1 ∉ (built members).map Prod.fst := fun hmem =>
      hapart m.1 (mem_keys_built.mp hmem) m.1 (by simp) rfl
    rw [built_append]
    refine (insertMember_perm hnew).trans (((ih hnodup).cons m).trans ?_)
    exact (List.perm_append_singleton m members).symm

theorem Ordered.nodup {members : List (String × Json)} (h : Ordered members) :
    (members.map Prod.fst).Nodup :=
  List.pairwise_map.mpr (List.Pairwise.imp (fun hlt => ne_of_lt hlt) h)

/-! ## One member -/

/-- What an object says of a name, unless it says it twice. -/
def single (members : List (String × Json)) (name : String) : Option (Option Json) :=
  match members.filter (·.1 == name) with
  | [] => some none
  | [member] => some (some member.2)
  | _ => none

/-- Where no name stands twice, a member is what is looked up. -/
theorem single_of_nodup {members : List (String × Json)} (h : (members.map Prod.fst).Nodup)
    (name : String) : single members name = some (members.lookup name) := by
  unfold single
  induction members with
  | nil => rfl
  | cons m rest ih =>
    obtain ⟨l, y⟩ := m
    obtain ⟨hl, hrest⟩ := List.nodup_cons.mp h
    by_cases hname : l = name
    · subst hname
      have hnone : rest.filter (·.1 == l) = [] := by
        refine List.filter_eq_nil_iff.mpr fun n hn heq => ?_
        exact hl (List.mem_map.mpr ⟨n, hn, beq_iff_eq.mp heq⟩)
      rw [List.filter_cons_of_pos (by simp), hnone]
      simp
    · rw [List.filter_cons_of_neg (by simpa using hname), ih hrest, List.lookup_cons,
        beq_eq_false_iff_ne.mpr (Ne.symm hname)]

theorem lookup_map_value (f : Json → Json) (members : List (String × Json)) (name : String) :
    (members.map fun m => (m.1, f m.2)).lookup name = (members.lookup name).map f := by
  induction members with
  | nil => rfl
  | cons m rest ih =>
    obtain ⟨l, y⟩ := m
    rw [List.map_cons, List.lookup_cons, List.lookup_cons, ih]
    by_cases hname : name = l
    · rw [beq_iff_eq.mpr hname]
      rfl
    · rw [beq_eq_false_iff_ne.mpr hname]

theorem lookup_reverse {members : List (String × Json)} (h : (members.map Prod.fst).Nodup)
    (name : String) : members.reverse.lookup name = members.lookup name := by
  have hreverse : (members.reverse.map Prod.fst).Nodup := by
    rw [List.map_reverse]
    exact List.nodup_reverse.mpr h
  have hsingle : single members.reverse name = single members name := by
    have hperm : (members.filter (·.1 == name)).length ≤ 1 := by
      have hcount := List.nodup_iff_count_le_one.mp h name
      rwa [List.count, List.countP_map, List.countP_eq_length_filter] at hcount
    unfold single
    rw [List.filter_reverse]
    rcases hfilter : members.filter (·.1 == name) with _ | ⟨m, _ | ⟨n, rest⟩⟩
    · rw [hfilter]
      rfl
    · rw [hfilter]
      rfl
    · rw [hfilter, List.length_cons, List.length_cons] at hperm
      omega
  rw [single_of_nodup hreverse, single_of_nodup h] at hsingle
  exact Option.some.inj hsingle

/-- **A member of the value is the value of the member.** -/
theorem single_toValue {members : List (String × Json)} (h : (members.map Prod.fst).Nodup)
    (name : String) :
    single (built (toMembers members)) name = (single members name).map (Option.map toValue) := by
  have hkeys : ((toMembers members).map Prod.fst).Nodup := by
    rw [toMembers_eq, List.map_map]
    exact h
  have hlookup := Json.member?_ofMap name (toMembers members)
  rw [single_of_nodup (ordered_built _).nodup, single_of_nodup h]
  show some ((built (toMembers members)).lookup name) = some _
  have hbuilt : (built (toMembers members)).lookup name = (toMembers members).reverse.lookup name :=
    hlookup
  rw [hbuilt, lookup_reverse hkeys, toMembers_eq, lookup_map_value]

theorem singles_toValue {members : List (String × Json)} (h : (members.map Prod.fst).Nodup)
    (names : List String) : names.mapM (single (built (toMembers members))) =
      (names.mapM (single members)).map (List.map (Option.map toValue)) := by
  induction names with
  | nil => rfl
  | cons name rest ih =>
    rw [List.mapM_cons, List.mapM_cons, single_toValue h, ih]
    cases single members name with
    | none => rfl
    | some value =>
      cases rest.mapM (single members) with
      | none => rfl
      | some values => rfl

/-! ## The fields of a struct -/

/-- The fields that were found, in the order of the struct, and whether in an array. -/
structure Fields where
  values : List (Option Json)
  sequence : Bool

/-- The fields of a struct; a closed one has no other members.  An array may end early. -/
def structFields (closed : Bool) (names : List String) : Json → Option Fields
  | .object members =>
    if closed && members.any (fun m => !names.contains m.1) then none
    else (names.mapM (single members)).map fun values => { values := values, sequence := false }
  | .array items =>
    if items.length ≤ names.length then
      some { values := items.map some ++ List.replicate (names.length - items.length) none
             sequence := true }
    else none
  | _ => none

namespace Fields

def value (fields : Fields) (i : Nat) : Option Json := (fields.values[i]?).join

def required (fields : Fields) (i : Nat) (read : Json → Option α) : Option α :=
  (fields.value i).bind read

/-- An `Option`: a member may be missing, an item may not. -/
def optional (fields : Fields) (i : Nat) (read : Json → Option α) : Option (Option α) :=
  match fields.value i with
  | none => if fields.sequence then none else some none
  | some value => asOption read value

/-- A field with a default. -/
def defaulted (fields : Fields) (i : Nat) (default' : α) (read : Json → Option α) : Option α :=
  match fields.value i with
  | none => some default'
  | some value => read value

def map (f : Json → Json) (fields : Fields) : Fields where
  values := fields.values.map (Option.map f)
  sequence := fields.sequence

theorem defaulted_of_none {fields : Fields} {i : Nat} {default' : α} {read : Json → Option α}
    (h : fields.value i = none) : fields.defaulted i default' read = some default' := by
  unfold defaulted
  rw [h]

theorem value_map (f : Json → Json) (fields : Fields) (i : Nat) :
    (fields.map f).value i = (fields.value i).map f := by
  unfold value map
  rw [List.getElem?_map]
  cases fields.values[i]? with
  | none => rfl
  | some found => rfl

end Fields

/-- The fields found in the value are the values of those found in the text. -/
theorem structFields_toValue (closed : Bool) (names : List String) {json : Json}
    (h : Distinct json) :
    structFields closed names (toValue json) =
      (structFields closed names json).map (Fields.map toValue) := by
  cases json with
  | null => rfl
  | bool b => rfl
  | number n => rfl
  | string s => rfl
  | array items =>
    show structFields closed names (.array (toValues items)) = _
    rw [toValues_eq]
    unfold structFields
    dsimp only
    rw [List.length_map]
    split
    · simp [Fields.map, Function.comp_def]
    · rfl
  | object members =>
    obtain ⟨hnodup, -⟩ := h
    have hother : (built (toMembers members)).any (fun m => !names.contains m.1) =
        members.any fun m => !names.contains m.1 := by
      have hkeys : ∀ ms : List (String × Json), ms.any (fun m => !names.contains m.1) =
          (ms.map Prod.fst).any fun k => !names.contains k := fun ms => by
        rw [List.any_map]
        rfl
      have hmem : ∀ name, name ∈ (built (toMembers members)).map Prod.fst ↔
          name ∈ members.map Prod.fst := fun name => by
        rw [mem_keys_built, toMembers_eq, List.map_map]
        rfl
      rw [hkeys, hkeys, Bool.eq_iff_iff, List.any_eq_true, List.any_eq_true]
      simp only [hmem]
    show structFields closed names (.object (built (toMembers members))) = _
    unfold structFields
    dsimp only
    rw [hother, singles_toValue hnodup]
    split
    · rfl
    · cases names.mapM (single members) with
      | none => rfl
      | some values => rfl

theorem exists_of_mapM {f : β → Option α} {l : List β} {values : List α}
    (h : l.mapM f = some values) {a : α} (ha : a ∈ values) : ∃ b, f b = some a := by
  induction l generalizing values with
  | nil =>
    cases h
    cases ha
  | cons b rest ih =>
    rw [List.mapM_cons] at h
    obtain ⟨c, hc, h⟩ := Option.bind_eq_some_iff.mp h
    obtain ⟨more, hmore, h⟩ := Option.bind_eq_some_iff.mp h
    cases h
    rcases List.mem_cons.mp ha with rfl | ha
    · exact ⟨b, hc⟩
    · exact ih hmore ha

/-- No field has a name twice in it. -/
def Fields.Distinct (fields : Fields) : Prop :=
  ∀ i found, fields.value i = some found → Serde.Distinct found

theorem structFields_distinct {closed : Bool} {names : List String} {json : Json} {fields : Fields}
    (h : Distinct json) (hfields : structFields closed names json = some fields) :
    fields.Distinct := by
  intro i found hfound
  have hmem : some found ∈ fields.values :=
    List.mem_of_getElem? (Option.join_eq_some_iff.mp hfound)
  unfold structFields at hfields
  split at hfields
  · next members =>
    split at hfields
    · cases hfields
    · obtain ⟨values, hvalues, rfl⟩ := Option.map_eq_some_iff.mp hfields
      obtain ⟨name, hsingle⟩ := exists_of_mapM hvalues hmem
      have hlookup := single_of_nodup h.1 name
      rw [hsingle] at hlookup
      obtain ⟨before, after, rfl, -⟩ := List.lookup_eq_some_iff.mp (Option.some.inj hlookup).symm
      exact distinctMembers_iff.mp h.2 (name, found) (by simp)
  · next items =>
    split at hfields
    · obtain rfl := Option.some.inj hfields
      rcases List.mem_append.mp hmem with hitem | hnone
      · obtain ⟨item, hitem, heq⟩ := List.mem_map.mp hitem
        cases heq
        exact distinctItems_iff.mp h found hitem
      · cases List.eq_of_mem_replicate hnone
    · cases hfields
  · cases hfields

/-- A struct is read from the value as from the text if its fields are. -/
theorem bind_structFields_toValue {closed : Bool} {names : List String} {json : Json}
    {f g : Fields → Option α} (h : Distinct json)
    (hread : ∀ fields : Fields, fields.Distinct → f (fields.map toValue) = g fields) :
    (structFields closed names (toValue json) >>= f) = structFields closed names json >>= g := by
  rw [structFields_toValue closed names h]
  cases hfields : structFields closed names json with
  | none => rfl
  | some fields => exact hread fields (structFields_distinct h hfields)

/-- The fields of an object without a name twice are what is looked up in it. -/
theorem structFields_object {closed : Bool} {names : List String} {members : List (String × Json)}
    (h : (members.map Prod.fst).Nodup) :
    structFields closed names (.object members) =
      if closed && members.any (fun m => !names.contains m.1) then none
      else some { values := names.map fun name => members.lookup name, sequence := false } := by
  have hvalues : names.mapM (single members) =
      some (names.map fun name => members.lookup name) := by
    induction names with
    | nil => rfl
    | cons name rest ih =>
      rw [List.mapM_cons, single_of_nodup h, ih]
      rfl
  unfold structFields
  dsimp only
  rw [hvalues]
  rfl

/-- One more field, in front of the others. -/
def Fields.cons (json : Json) (fields : Fields) : Fields :=
  { fields with values := some json :: fields.values }

theorem distinct_string (text : String) : Distinct (.string text) := trivial

theorem Fields.Distinct.cons {json : Json} {fields : Fields} (hjson : Serde.Distinct json)
    (h : fields.Distinct) : (fields.cons json).Distinct := by
  intro i found hfound
  cases i with
  | zero =>
    cases hfound
    exact hjson
  | succ i => exact h i found hfound

/-- One more field, which the object begins with. -/
theorem structFields_cons {closed : Bool} {name : String} {names : List String} {json : Json}
    {members : List (String × Json)} (hother : name ∉ members.map Prod.fst) (hnew : name ∉ names) :
    structFields closed (name :: names) (.object ((name, json) :: members)) =
      (structFields closed names (.object members)).map (Fields.cons json) := by
  have hsingle : single ((name, json) :: members) name = some (some json) := by
    have hnone : members.filter (·.1 == name) = [] := by
      refine List.filter_eq_nil_iff.mpr fun m hm heq => ?_
      exact hother (List.mem_map.mpr ⟨m, hm, beq_iff_eq.mp heq⟩)
    unfold single
    rw [List.filter_cons_of_pos (by simp), hnone]
  have hsame : names.mapM (single ((name, json) :: members)) = names.mapM (single members) := by
    clear hsingle
    induction names with
    | nil => rfl
    | cons other rest ih =>
      obtain ⟨hne, hrest⟩ := List.ne_and_not_mem_of_not_mem_cons hnew
      have hskip : single ((name, json) :: members) other = single members other := by
        unfold single
        rw [List.filter_cons_of_neg (by simpa using hne)]
      rw [List.mapM_cons, List.mapM_cons, hskip, ih hrest]
  have hclosed : ((name, json) :: members).any (fun m => !(name :: names).contains m.1) =
      members.any fun m => !names.contains m.1 := by
    have hrest : ∀ m ∈ members, (name :: names).contains m.1 = names.contains m.1 := by
      intro m hm
      have hne : m.1 ≠ name := fun heq => hother (heq ▸ List.mem_map_of_mem hm)
      rw [List.contains_cons, beq_eq_false_iff_ne.mpr hne, Bool.false_or]
    rw [List.any_cons, List.contains_cons, beq_self_eq_true, Bool.true_or, Bool.not_true,
      Bool.false_or]
    rw [Bool.eq_iff_iff, List.any_eq_true, List.any_eq_true]
    exact exists_congr fun m => and_congr_right fun hm => by rw [hrest m hm]
  unfold structFields
  dsimp only
  rw [hclosed, List.mapM_cons, hsingle, hsame]
  split
  · rfl
  · cases names.mapM (single members) with
    | none => rfl
    | some values => rfl

/-- A number of fewer bits is a small one of more. -/
theorem asUnsigned_narrow {bits : Nat} (wide : Nat) (h : bits ≤ wide) (json : Json) :
    asUnsigned bits json = (asUnsigned wide json).filter (· < 2 ^ bits) := by
  cases json with
  | number n =>
    have hpow : 2 ^ bits ≤ 2 ^ wide := Nat.pow_le_pow_right (by omega) h
    unfold asUnsigned
    dsimp only
    by_cases hdigits : n.chars.all Char.isDigit = true
    · by_cases hsmall : Nat.ofDigitChars 10 n.chars 0 < 2 ^ bits
      · rw [if_pos ⟨hdigits, hsmall⟩, if_pos ⟨hdigits, lt_of_lt_of_le hsmall hpow⟩]
        exact (if_pos (decide_eq_true hsmall)).symm
      · rw [if_neg fun hboth => hsmall hboth.2]
        split
        · exact (if_neg (by simpa using hsmall)).symm
        · rfl
    · rw [if_neg fun hboth => hdigits hboth.1, if_neg fun hboth => hdigits hboth.1]
      rfl
  | _ => rfl

theorem defaulted_narrow {bits default' : Nat} (wide : Nat) (h : bits ≤ wide)
    (hdefault : default' < 2 ^ bits) (fields : Fields) (i : Nat) :
    fields.defaulted i default' (asUnsigned bits) =
      (fields.defaulted i default' (asUnsigned wide)).filter (· < 2 ^ bits) := by
  unfold Fields.defaulted
  cases fields.value i with
  | none => exact (if_pos (decide_eq_true hdefault)).symm
  | some json => exact asUnsigned_narrow wide h json

/-! ## Reading the value for the text -/

@[simp] theorem asText_toValue (json : Json) : asText (toValue json) = asText json := by
  cases json <;> rfl

@[simp] theorem asBool_toValue (json : Json) : asBool (toValue json) = asBool json := by
  cases json <;> rfl

@[simp] theorem asUnsigned_toValue (bits : Nat) (json : Json) :
    asUnsigned bits (toValue json) = asUnsigned bits json := by
  cases json <;> rfl

theorem asOption_toValue {read read' : Json → Option α} {json : Json}
    (h : read (toValue json) = read' json) :
    asOption read (toValue json) = asOption read' json := by
  cases json with
  | null => rfl
  | _ => exact congrArg (Option.map some) h

theorem asList_toValue {read read' : Json → Option α} {json : Json}
    (h : Distinct json) (hread : ∀ item, Distinct item → read (toValue item) = read' item) :
    asList read (toValue json) = asList read' json := by
  cases json with
  | array items =>
    have hitems := distinctItems_iff.mp h
    show (toValues items).mapM read = items.mapM read'
    rw [toValues_eq]
    clear h
    induction items with
    | nil => rfl
    | cons x xs ih =>
      obtain ⟨hx, hxs⟩ := List.forall_mem_cons.mp hitems
      rw [List.map_cons, List.mapM_cons, List.mapM_cons, hread x hx, ih hxs]
  | _ => rfl

theorem asUnit_toValue (names : List (String × α)) {json : Json} (h : Distinct json) :
    asUnit names (toValue json) = asUnit names json := by
  cases json with
  | object members =>
    have hkeys : ((toMembers members).map Prod.fst).Nodup := by
      rw [toMembers_eq, List.map_map]
      exact h.1
    have hlength : (built (toMembers members)).length = members.length := by
      rw [(built_perm hkeys).length_eq, toMembers_eq, List.length_map]
    show asUnit names (.object (built (toMembers members))) = _
    rcases members with _ | ⟨⟨name, x⟩, _ | ⟨n, rest⟩⟩
    · rfl
    · show asUnit names (.object [(name, toValue x)]) = _
      unfold asUnit
      cases x <;> rfl
    · rw [asUnit_object (by rw [hlength]; simp), asUnit_object (by simp)]
  | _ => rfl

namespace Fields

variable {fields : Fields} {i : Nat}

/-- The fields of the value are read as those of the text. -/
theorem required_toValue {read read' : Json → Option α}
    (h : ∀ found, fields.value i = some found → read (toValue found) = read' found) :
    (fields.map toValue).required i read = fields.required i read' := by
  unfold required
  rw [value_map]
  cases hvalue : fields.value i with
  | none => rfl
  | some found => exact h found hvalue

theorem optional_toValue {read read' : Json → Option α}
    (h : ∀ found, fields.value i = some found → read (toValue found) = read' found) :
    (fields.map toValue).optional i read = fields.optional i read' := by
  unfold optional
  rw [value_map]
  cases hvalue : fields.value i with
  | none => rfl
  | some found => exact asOption_toValue (h found hvalue)

theorem defaulted_toValue {read read' : Json → Option α} {default' : α}
    (h : ∀ found, fields.value i = some found → read (toValue found) = read' found) :
    (fields.map toValue).defaulted i default' read = fields.defaulted i default' read' := by
  unfold defaulted
  rw [value_map]
  cases hvalue : fields.value i with
  | none => rfl
  | some found => exact h found hvalue

@[simp] theorem required_asText :
    (fields.map toValue).required i asText = fields.required i asText :=
  required_toValue fun found _ => asText_toValue found

@[simp] theorem required_asUnsigned (bits : Nat) :
    (fields.map toValue).required i (asUnsigned bits) = fields.required i (asUnsigned bits) :=
  required_toValue fun found _ => asUnsigned_toValue bits found

@[simp] theorem optional_asText :
    (fields.map toValue).optional i asText = fields.optional i asText :=
  optional_toValue fun found _ => asText_toValue found

@[simp] theorem optional_asUnsigned (bits : Nat) :
    (fields.map toValue).optional i (asUnsigned bits) = fields.optional i (asUnsigned bits) :=
  optional_toValue fun found _ => asUnsigned_toValue bits found

@[simp] theorem defaulted_asBool (default' : Bool) :
    (fields.map toValue).defaulted i default' asBool = fields.defaulted i default' asBool :=
  defaulted_toValue fun found _ => asBool_toValue found

@[simp] theorem defaulted_asUnsigned (bits default' : Nat) :
    (fields.map toValue).defaulted i default' (asUnsigned bits) =
      fields.defaulted i default' (asUnsigned bits) :=
  defaulted_toValue fun found _ => asUnsigned_toValue bits found

end Fields

/-! ## Enumerations with data -/

/-- The tag of an object or of an array. -/
def tagOf (tag : String) : Json → Option String
  | .object members => (single members tag).join.bind asText
  | .array (item :: _) => asText item
  | _ => none

/-- Nothing but the tag; the other members of an object are not looked at. -/
def tagOnly : Json → Bool
  | .object _ => true
  | .array [_] => true
  | _ => false

theorem tagOf_toValue (tag : String) {json : Json} (h : Distinct json) :
    tagOf tag (toValue json) = tagOf tag json := by
  cases json with
  | object members =>
    show (single (built (toMembers members)) tag).join.bind asText =
      (single members tag).join.bind asText
    rw [single_toValue h.1]
    cases single members tag with
    | none => rfl
    | some value =>
      cases value with
      | none => rfl
      | some found => exact asText_toValue found
  | array items =>
    cases items with
    | nil => rfl
    | cons x xs => exact asText_toValue x
  | _ => rfl

@[simp] theorem tagOnly_toValue (json : Json) : tagOnly (toValue json) = tagOnly json := by
  cases json with
  | array items => rcases items with _ | ⟨x, _ | ⟨y, rest⟩⟩ <;> rfl
  | _ => rfl

end Serde
