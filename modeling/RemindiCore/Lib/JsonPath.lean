import RemindiCore.Lib.JsonText

/-!
# Paths into a JSON value

A path is a list of member names.  `at?` reads what is there, `modify` changes it
in its place, and neither notices a path that lies apart:

    (json.modify path f).at? path = (json.at? path).map f                  (at?_modify)
    Apart path other → (json.modify path f).at? other = json.at? other     (at?_modify_apart)

`modifyAll` does so at several paths.  What it leaves alone is read off by blanking
the same paths before and after.
-/

namespace JsonText.Json

theorem ofMap_append {members written : List (String × Json)} {name : String} {value : Json}
    (h : ofMap members = .object written) :
    ofMap (members ++ [(name, value)]) = .object (insertMember name value written) := by
  unfold ofMap at *
  rw [List.foldl_append, Json.object.inj h]
  rfl

/-! ## One path -/

/-- What is at a path. -/
def at? : List String → Json → Option Json
  | [], json => some json
  | name :: path, json => (json.member? name).bind (at? path)

/-- Change the first member with the name. -/
def modifyMember (name : String) (f : Json → Json) : List (String × Json) → List (String × Json)
  | [] => []
  | (l, y) :: rest => if name = l then (l, f y) :: rest else (l, y) :: modifyMember name f rest

/-- Change what is at a path; nothing is added where there is nothing. -/
def modify : List String → (Json → Json) → Json → Json
  | [], f, json => f json
  | name :: path, f, .object members => .object (modifyMember name (modify path f) members)
  | _ :: _, _, json => json

/-- Put a value in the place of a member that is there. -/
def setMember (json : Json) (name : String) (value : Json) : Json :=
  json.modify [name] fun _ => value

/-- Neither path leads to the other. -/
def Apart : List String → List String → Prop
  | a :: p, b :: q => a = b → Apart p q
  | _, _ => False

theorem Apart.symm {p q : List String} (h : Apart p q) : Apart q p := by
  induction p generalizing q with
  | nil => cases h
  | cons a p ih =>
    cases q with
    | nil => cases h
    | cons b q =>
      intro hba
      exact ih (h hba.symm)

section

variable {f g : Json → Json} {name other : String} {members : List (String × Json)}

theorem lookup_modifyMember :
    (modifyMember name f members).lookup name = (members.lookup name).map f := by
  induction members with
  | nil => rfl
  | cons m rest ih =>
    obtain ⟨l, y⟩ := m
    unfold modifyMember
    by_cases hl : name = l
    · simp [hl]
    · rw [if_neg hl, List.lookup_cons, List.lookup_cons, beq_eq_false_iff_ne.mpr hl, ih]

theorem lookup_modifyMember_ne (h : name ≠ other) :
    (modifyMember name f members).lookup other = members.lookup other := by
  induction members with
  | nil => rfl
  | cons m rest ih =>
    obtain ⟨l, y⟩ := m
    unfold modifyMember
    by_cases hl : name = l
    · have hol : other ≠ l := fun ho => h (hl.trans ho.symm)
      rw [if_pos hl, List.lookup_cons, List.lookup_cons, beq_eq_false_iff_ne.mpr hol]
    · rw [if_neg hl, List.lookup_cons, List.lookup_cons, ih]

theorem modifyMember_modifyMember :
    modifyMember name g (modifyMember name f members) = modifyMember name (g ∘ f) members := by
  induction members with
  | nil => rfl
  | cons m rest ih =>
    obtain ⟨l, y⟩ := m
    by_cases hl : name = l
    · simp [modifyMember, hl]
    · simp [modifyMember, hl, ih]

theorem modifyMember_comm (h : name ≠ other) :
    modifyMember other g (modifyMember name f members) =
      modifyMember name f (modifyMember other g members) := by
  induction members with
  | nil => rfl
  | cons m rest ih =>
    obtain ⟨l, y⟩ := m
    by_cases hl : name = l
    · have hol : other ≠ l := fun ho => h (hl.trans ho.symm)
      simp [modifyMember, hl, hol]
    · by_cases hol : other = l
      · simp [modifyMember, hl, hol]
      · simp [modifyMember, hl, hol, ih]

theorem modifyMember_congr (h : ∀ v, members.lookup name = some v → f v = g v) :
    modifyMember name f members = modifyMember name g members := by
  induction members with
  | nil => rfl
  | cons m rest ih =>
    obtain ⟨l, y⟩ := m
    unfold modifyMember
    by_cases hl : name = l
    · rw [if_pos hl, if_pos hl, h y (by simp [hl])]
    · rw [if_neg hl, if_neg hl, ih fun v hv => h v ?_]
      rw [List.lookup_cons, beq_eq_false_iff_ne.mpr hl]
      exact hv

theorem modifyMember_id : modifyMember name (fun v => v) members = members := by
  induction members with
  | nil => rfl
  | cons m rest ih =>
    obtain ⟨l, y⟩ := m
    unfold modifyMember
    rw [ih]
    split <;> rfl

end

section

variable {f g : Json → Json} {json : Json} {p q : List String}

theorem at?_singleton (name : String) : json.at? [name] = json.member? name := by
  show (json.member? name).bind (at? []) = _
  cases json.member? name <;> rfl

theorem at?_modify : (json.modify p f).at? p = (json.at? p).map f := by
  induction p generalizing json with
  | nil => rfl
  | cons name p ih =>
    cases json with
    | object members =>
      show ((modifyMember name (modify p f) members).lookup name).bind (at? p) =
        ((members.lookup name).bind (at? p)).map f
      have hbelow : at? p ∘ modify p f = Option.map f ∘ at? p := funext fun v => ih
      rw [lookup_modifyMember, Option.bind_map, Option.map_bind, hbelow]
    | _ => rfl

theorem at?_modify_apart (h : Apart p q) : (json.modify p f).at? q = json.at? q := by
  induction p generalizing json q with
  | nil => cases h
  | cons name p ih =>
    cases q with
    | nil => cases h
    | cons other q =>
      cases json with
      | object members =>
        show ((modifyMember name (modify p f) members).lookup other).bind (at? q) =
          (members.lookup other).bind (at? q)
        by_cases hname : name = other
        · subst hname
          have hbelow : at? q ∘ modify p f = at? q := funext fun v => ih (h rfl)
          rw [lookup_modifyMember, Option.bind_map, hbelow]
        · rw [lookup_modifyMember_ne hname]
      | _ => rfl

theorem modify_modify : (json.modify p f).modify p g = json.modify p (g ∘ f) := by
  induction p generalizing json with
  | nil => rfl
  | cons name p ih =>
    cases json with
    | object members =>
      show Json.object (modifyMember name (modify p g) (modifyMember name (modify p f) members)) =
        .object (modifyMember name (modify p (g ∘ f)) members)
      have hbelow : modify p g ∘ modify p f = modify p (g ∘ f) := funext fun v => ih
      rw [modifyMember_modifyMember, hbelow]
    | _ => rfl

theorem modify_comm (h : Apart p q) :
    (json.modify p f).modify q g = (json.modify q g).modify p f := by
  induction p generalizing json q with
  | nil => cases h
  | cons name p ih =>
    cases q with
    | nil => cases h
    | cons other q =>
      cases json with
      | object members =>
        show Json.object (modifyMember other (modify q g)
            (modifyMember name (modify p f) members)) =
          .object (modifyMember name (modify p f) (modifyMember other (modify q g) members))
        by_cases hname : name = other
        · subst hname
          have hbelow : modify q g ∘ modify p f = modify p f ∘ modify q g :=
            funext fun v => ih (h rfl)
          rw [modifyMember_modifyMember, modifyMember_modifyMember, hbelow]
        · rw [modifyMember_comm hname]
      | _ => rfl

theorem modify_congr (h : ∀ v, json.at? p = some v → f v = g v) :
    json.modify p f = json.modify p g := by
  induction p generalizing json with
  | nil => exact h json rfl
  | cons name p ih =>
    cases json with
    | object members =>
      show Json.object (modifyMember name (modify p f) members) =
        .object (modifyMember name (modify p g) members)
      congr 1
      apply modifyMember_congr
      intro member hmember
      apply ih
      intro v hv
      apply h
      show (members.lookup name).bind (at? p) = some v
      rw [hmember]
      exact hv
    | _ => rfl

theorem modify_id : json.modify p (fun v => v) = json := by
  induction p generalizing json with
  | nil => rfl
  | cons name p ih =>
    cases json with
    | object members =>
      show Json.object (modifyMember name (modify p fun v => v) members) = .object members
      rw [show (modify p fun v => v) = fun v => v from funext fun v => ih, modifyMember_id]
    | _ => rfl

/-- Two changes below one member are one change of the member. -/
theorem modify_below {name : String} :
    (json.modify (name :: p) f).modify (name :: q) g =
      json.modify [name] fun v => (v.modify p f).modify q g := by
  cases json with
  | object members =>
    show Json.object (modifyMember name (modify q g) (modifyMember name (modify p f) members)) = _
    rw [modifyMember_modifyMember]
    rfl
  | _ => rfl

/-- A member that is set to a function of itself is modified. -/
theorem setMember_eq {name : String} {v : Json} (h : json.member? name = some v) :
    json.setMember name (f v) = json.modify [name] f := by
  unfold setMember
  apply modify_congr
  intro w hw
  rw [at?_singleton] at hw
  obtain rfl : v = w := Option.some.inj (h.symm.trans hw)
  rfl

theorem modify_of_absent (h : json.at? p = none) : json.modify p f = json := by
  rw [modify_congr (g := fun v => v), modify_id]
  intro v hv
  rw [h] at hv
  cases hv

end

/-! ## Several paths -/

/-- The same change at each of the paths. -/
def modifyAll (paths : List (List String)) (f : Json → Json) (json : Json) : Json :=
  paths.foldl (fun json path => json.modify path f) json

/-- What is left when the paths are blanked. -/
def blank (paths : List (List String)) : Json → Json := modifyAll paths fun _ => .null

section

variable {f g : Json → Json} {json : Json} {path : List String} {paths : List (List String)}

theorem modifyAll_cons :
    json.modifyAll (path :: paths) f = (json.modify path f).modifyAll paths f := rfl

theorem at?_modifyAll_apart (h : ∀ p ∈ paths, Apart p path) :
    (json.modifyAll paths f).at? path = json.at? path := by
  induction paths generalizing json with
  | nil => rfl
  | cons p paths ih =>
    rw [modifyAll_cons, ih fun q hq => h q (List.mem_cons_of_mem p hq),
      at?_modify_apart (h p List.mem_cons_self)]

theorem at?_modifyAll (hapart : paths.Pairwise Apart) (h : path ∈ paths) :
    (json.modifyAll paths f).at? path = (json.at? path).map f := by
  induction paths generalizing json with
  | nil => cases h
  | cons p paths ih =>
    obtain ⟨hp, hpaths⟩ := List.pairwise_cons.mp hapart
    rw [modifyAll_cons]
    rcases List.mem_cons.mp h with rfl | hmem
    · rw [at?_modifyAll_apart fun q hq => (hp q hq).symm, at?_modify]
    · rw [ih hpaths hmem, at?_modify_apart (hp path hmem)]

theorem modifyAll_modify_comm (h : ∀ p ∈ paths, Apart path p) :
    (json.modify path f).modifyAll paths g = (json.modifyAll paths g).modify path f := by
  induction paths generalizing json with
  | nil => rfl
  | cons p paths ih =>
    rw [modifyAll_cons, modify_comm (h p List.mem_cons_self),
      ih fun q hq => h q (List.mem_cons_of_mem p hq)]
    rfl

/-- Two changes at paths that lie apart are one. -/
theorem modifyAll_modifyAll (hapart : paths.Pairwise Apart) :
    (json.modifyAll paths f).modifyAll paths g = json.modifyAll paths (g ∘ f) := by
  induction paths generalizing json with
  | nil => rfl
  | cons p paths ih =>
    obtain ⟨hp, hpaths⟩ := List.pairwise_cons.mp hapart
    rw [modifyAll_cons, modifyAll_cons, modifyAll_cons, ← modifyAll_modify_comm hp, ih hpaths,
      modify_modify]

theorem modifyAll_congr (hapart : paths.Pairwise Apart)
    (h : ∀ p ∈ paths, ∀ v, json.at? p = some v → f v = g v) :
    json.modifyAll paths f = json.modifyAll paths g := by
  induction paths generalizing json with
  | nil => rfl
  | cons p paths ih =>
    obtain ⟨hp, hpaths⟩ := List.pairwise_cons.mp hapart
    rw [modifyAll_cons, modifyAll_cons, modify_congr (h p List.mem_cons_self)]
    apply ih hpaths
    intro q hq v hv
    rw [at?_modify_apart (hp q hq)] at hv
    exact h q (List.mem_cons_of_mem p hq) v hv

theorem blank_modifyAll (hapart : paths.Pairwise Apart) :
    (json.modifyAll paths f).blank paths = json.blank paths :=
  modifyAll_modifyAll hapart

end

end JsonText.Json
