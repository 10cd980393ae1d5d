import RemindiCore.Lib.FractionOrder
import RemindiCore.Lib.Leaders
import RemindiCore.Proof.ManualVerification
import RemindiCore.Proof.SchedulerDrain

/-!
# Who waits longest

The scheduler's query orders its candidates by texts: canonical columns, and for
a condition that waits for its manual check the RFC 3339 text in the trigger,
which leaves zeros at the end of the fraction out.  The candidates that it
returns are those that have waited longest unless one of these is overtaken: it
waits for a manual check that is written with fewer than three decimals, and
another candidate waits since an instant in the span these leave open
(`longest_waiting_first_iff`).
-/

namespace RemindiCore

open CivilTime JsonText KeyedTable Transaction Leaders

/-! ## Waiting -/

/-- The earlier of two instants. -/
def earlierOf : Option OffsetDateTime → Option OffsetDateTime → Option OffsetDateTime
  | none, t => t
  | s, none => s
  | some s, some t => some (if s.utc ≤ t.utc then s else t)

/-- The instant since which an item waits for the scheduler. -/
def Remindi.waitingSince (r : Remindi) : Option OffsetDateTime :=
  match r.state with
  | .snoozed => r.snoozeUntil
  | .due => r.dueSince
  | _ =>
    if r.trigger.isCondition then
      earlierOf r.nextEvaluationAt (Repository.manualCheckAt r.trigger)
    else r.nextFireAt

/-- The order in which items have waited: by instants, then by identifiers. -/
def Remindi.waitingRank (r : Remindi) : Int ×ₗ String :=
  toLex ((r.waitingSince.map (·.utc)).getD 0, r.id.text)

/-- A condition whose manual check comes before its next poll. -/
def Remindi.WaitsForManualCheck (r : Remindi) : Prop :=
  r.state ≠ .snoozed ∧ r.state ≠ .due ∧ ∃ manual ∈ Repository.manualCheckAt r.trigger,
    ∀ next ∈ r.nextEvaluationAt, manual.utc < next.utc

/-- All items that the query selects. -/
def fullCandidates (ownerId : String) (now : OffsetDateTime) (db : Db) : List Remindi :=
  db.remindi.rows.filter fun row => row.ownerId == ownerId && Repository.schedulerSelects now row

/-- `b` has not waited longer than `a`, and lies in the span that the text of `a`'s manual check
leaves open, with another text. -/
structure Overtakes (b a : Remindi) : Prop where
  manual : a.WaitsForManualCheck
  later : a.waitingRank < b.waitingRank
  within : ∀ s ∈ a.waitingSince, ∀ t ∈ b.waitingSince, t.utc < s.utc + openSpan s
  written : b.WaitsForManualCheck → ∀ s ∈ a.waitingSince, ∀ t ∈ b.waitingSince, t.utc ≠ s.utc

/-! ## The order of the query -/

/-- The order in which the query returns items. -/
def servedRank (r : Remindi) : WithBot String ×ₗ String :=
  toLex (match Repository.waitingText r with
    | none => ⊥
    | some text => (text : WithBot String), r.id.text)

theorem waitsBefore_iff {a b : Remindi} :
    Repository.waitsBefore a b ↔ servedRank a ≤ servedRank b := by
  unfold Repository.waitsBefore servedRank
  rw [Prod.Lex.toLex_le_toLex]
  cases Repository.waitingText a with
  | none =>
    cases Repository.waitingText b with
    | none => simp
    | some y => simp
  | some x =>
    cases Repository.waitingText b with
    | none => simp
    | some y => simp [WithBot.coe_lt_coe]

instance : Std.Total Repository.waitsBefore where
  total a b := by
    rw [waitsBefore_iff, waitsBefore_iff]
    exact le_total _ _

instance : IsTrans Remindi Repository.waitsBefore where
  trans a b c hab hbc := by
    rw [waitsBefore_iff] at hab hbc ⊢
    exact hab.trans hbc

section

variable {a b r : Remindi} {s t now : OffsetDateTime} {db : Db} {ownerId : String}
  {rows : List Remindi} {limit i j : Nat}

theorem mem_fullCandidates : r ∈ fullCandidates ownerId now db ↔
    r ∈ db.remindi.rows ∧ r.ownerId = ownerId ∧ Repository.schedulerSelects now r = true := by
  unfold fullCandidates
  rw [List.mem_filter, Bool.and_eq_true, beq_iff_eq]

/-- Different items have different identifiers. -/
theorem nodup_text (ownerId : String) (now : OffsetDateTime) (db : Db) :
    ((fullCandidates ownerId now db).map fun r => r.id.text).Nodup := by
  have hids : (db.remindi.rows.map (·.id)).Nodup := db.remindi.nodup
  have hcandidates : ((fullCandidates ownerId now db).map (·.id)).Nodup :=
    hids.sublist (List.filter_sublist.map _)
  rw [show (fun r : Remindi => r.id.text) = Uuid.text ∘ fun r => r.id from rfl, ← List.map_map]
  refine hcandidates.map fun u v h => ?_
  cases u
  cases v
  cases h
  rfl

theorem nodup_waitingRank (ownerId : String) (now : OffsetDateTime) (db : Db) :
    ((fullCandidates ownerId now db).map Remindi.waitingRank).Nodup := by
  refine List.Nodup.of_map (fun rank : Int ×ₗ String => (ofLex rank).2) ?_
  rw [List.map_map]
  exact nodup_text ownerId now db

theorem nodup_servedRank (ownerId : String) (now : OffsetDateTime) (db : Db) :
    ((fullCandidates ownerId now db).map servedRank).Nodup := by
  refine List.Nodup.of_map (fun rank : WithBot String ×ₗ String => (ofLex rank).2) ?_
  rw [List.map_map]
  exact nodup_text ownerId now db

theorem pairwise_selectedItems :
    (selectedItems ownerId now db).Pairwise fun a b => servedRank a < servedRank b := by
  have hsorted : (selectedItems ownerId now db).Pairwise Repository.waitsBefore :=
    List.pairwise_insertionSort _ _
  have hdistinct : ((selectedItems ownerId now db).map servedRank).Nodup :=
    (((List.perm_insertionSort _ _).map servedRank).nodup_iff).mpr (nodup_servedRank ownerId now db)
  have hne : (selectedItems ownerId now db).Pairwise fun a b => servedRank a ≠ servedRank b :=
    List.pairwise_map.mp hdistinct
  exact (hsorted.and hne).imp fun h => lt_of_le_of_ne (waitsBefore_iff.mp h.1) h.2

/-! ## Texts and instants -/

/-- The instant since which the item waits, and the digits that its text has. -/
structure WaitsAs (r : Remindi) (t : OffsetDateTime) (digits : Nat) : Prop where
  since : r.waitingSince = some t
  stamped : Stamped t
  text : Repository.waitingText r = some (stampText digits t)
  canonical : ¬ r.WaitsForManualCheck → digits = 3
  manual : r.WaitsForManualCheck → digits = fractionDigits (milliOf t)

theorem WaitsAs.written (h : WaitsAs r t i) : WrittenWith i t := by
  by_cases hmanual : r.WaitsForManualCheck
  · exact Or.inr (h.manual hmanual)
  · exact Or.inl (h.canonical hmanual)

theorem WaitsAs.waitingRank (h : WaitsAs r t i) : r.waitingRank = toLex (t.utc, r.id.text) := by
  unfold Remindi.waitingRank
  rw [h.since]
  rfl

theorem WaitsAs.servedRank (h : WaitsAs r t i) :
    servedRank r = toLex ((stampText i t : WithBot String), r.id.text) := by
  unfold RemindiCore.servedRank
  rw [h.text]

theorem WaitsAs.waited_lt (ha : WaitsAs a s i) (hb : WaitsAs b t j) :
    a.waitingRank < b.waitingRank ↔
      s.utc < t.utc ∨ s.utc = t.utc ∧ a.id.text < b.id.text := by
  rw [ha.waitingRank, hb.waitingRank, Prod.Lex.toLex_lt_toLex]

theorem WaitsAs.served_lt (ha : WaitsAs a s i) (hb : WaitsAs b t j) :
    RemindiCore.servedRank a < RemindiCore.servedRank b ↔
      stampText i s < stampText j t ∨
        stampText i s = stampText j t ∧ a.id.text < b.id.text := by
  rw [ha.servedRank, hb.servedRank, Prod.Lex.toLex_lt_toLex, WithBot.coe_lt_coe, WithBot.coe_inj]

/-- **An item keeps its place unless it is overtaken.** -/
theorem WaitsAs.served_iff (ha : WaitsAs a s i) (hb : WaitsAs b t j)
    (hwaited : a.waitingRank < b.waitingRank) :
    RemindiCore.servedRank a < RemindiCore.servedRank b ↔ ¬ Overtakes b a := by
  have hovertaken : Overtakes b a → stampText j t < stampText i s := by
    intro h
    have hle : s.utc ≤ t.utc := by
      rcases (ha.waited_lt hb).mp hwaited with hlt | ⟨heq, -⟩
      · exact hlt.le
      · exact heq.le
    rw [ha.manual h.manual]
    refine stampText_overtaken ha.stamped hb.stamped hb.written hle
      (h.within s ha.since t hb.since) fun heq => hb.canonical fun hmanual => ?_
    exact h.written hmanual s ha.since t hb.since heq
  rw [ha.served_lt hb]
  constructor
  · rintro (hlt | ⟨heq, -⟩) h
    · exact absurd (hovertaken h) (lt_asymm hlt)
    · exact absurd (heq ▸ hovertaken h) (lt_irrefl _)
  · intro hnot
    rcases (ha.waited_lt hb).mp hwaited with hlt | ⟨heq, hid⟩
    · -- a later instant, outside of the open span
      left
      refine stampText_above ha.stamped hb.stamped ha.written hb.written hlt ?_
      by_cases hmanual : a.WaitsForManualCheck
      · right
        by_contra hwithin
        refine hnot ⟨hmanual, hwaited, ?_, ?_⟩
        · intro s' hs' t' ht'
          obtain rfl := Option.some.inj (ha.since.symm.trans hs')
          obtain rfl := Option.some.inj (hb.since.symm.trans ht')
          exact not_le.mp hwithin
        · intro _ s' hs' t' ht'
          obtain rfl := Option.some.inj (ha.since.symm.trans hs')
          obtain rfl := Option.some.inj (hb.since.symm.trans ht')
          exact hlt.ne'
      · exact Or.inl (ha.canonical hmanual)
    · -- the same instant
      have hsame : s = t := by
        refine OffsetDateTime.ext heq ?_
        rw [ha.stamped.offset, hb.stamped.offset]
      subst hsame
      by_cases hdigits : i = j
      · subst hdigits
        exact Or.inr ⟨rfl, hid⟩
      left
      have hthree : i = 3 := by
        rcases ha.written with hthree | hneeded
        · exact hthree
        rcases hb.written with hother | hother
        · -- the needed digits are fewer than three, and the other text is canonical
          by_contra hshort
          have hmanual : a.WaitsForManualCheck := not_not.mp fun h => hshort (ha.canonical h)
          have hcanonical : ¬ b.WaitsForManualCheck := by
            intro h
            rw [hneeded, hb.manual h] at hdigits
            exact hdigits rfl
          refine hnot ⟨hmanual, hwaited, ?_, fun h => absurd h hcanonical⟩
          intro s' hs' t' ht'
          obtain rfl := Option.some.inj (ha.since.symm.trans hs')
          obtain rfl := Option.some.inj (hb.since.symm.trans ht')
          rcases fractionDigits_cases ha.stamped with h | h | h | h <;> omega
        · exact absurd (hneeded.trans hother.symm) hdigits
      subst hthree
      exact (stampText_three_le ha.stamped hb.written).resolve_right (Ne.symm hdigits)

/-! ## Stored items -/

/-- What a stored candidate waits for, from the year 0 on or before. -/
structure Waits (r : Remindi) (t : OffsetDateTime) : Prop where
  since : r.waitingSince = some t
  whole : t.truncateMillis = t
  bound : (canonicalText t).isSome = true
  canonical : ¬ r.WaitsForManualCheck → Repository.waitingText r = canonicalText t
  manual : r.WaitsForManualCheck → Repository.waitingText r = rfc3339 t ∧ FromYearZero t

theorem Waits.waitsAs (h : Waits r t) (hyear : FromYearZero t) : ∃ digits, WaitsAs r t digits := by
  have hstamped : Stamped t := by
    refine ⟨h.whole, ?_⟩
    rw [year_of_truncated h.whole]
    exact ⟨hyear, (canonicalText_isSome.mp h.bound).2⟩
  by_cases hmanual : r.WaitsForManualCheck
  · refine ⟨fractionDigits (milliOf t), h.since, hstamped, ?_, fun hnot => absurd hmanual hnot,
      fun _ => rfl⟩
    rw [(h.manual hmanual).1]
    exact hstamped.rfc3339
  · refine ⟨3, h.since, hstamped, ?_, fun _ => rfl, fun hmanual' => absurd hmanual' hmanual⟩
    rw [h.canonical hmanual]
    exact hstamped.canonicalText

/-- The columns of instants that the query reads could be bound. -/
theorem Remindi.Bound.columns (h : r.Bound) :
    (∀ t ∈ r.nextFireAt, (canonicalText t).isSome = true) ∧
      (∀ t ∈ r.nextEvaluationAt, (canonicalText t).isSome = true) ∧
      (∀ t ∈ r.dueSince, (canonicalText t).isSome = true) ∧
      ∀ t ∈ r.snoozeUntil, (canonicalText t).isSome = true := by
  have hupdate := (Remindi.bindInsert_ok.mp h.bound).1
  unfold Remindi.bindUpdate at hupdate
  simp only [except_bind_ok] at hupdate
  obtain ⟨_, -, _, -, _, hfire, _, hpoll, _, -, _, hdue, _, hsnooze, -⟩ := hupdate
  have hcolumn : ∀ {value stored : Option OffsetDateTime}, optionalTimestamp value = .ok stored →
      ∀ t ∈ value, (canonicalText t).isSome = true := by
    intro value stored hvalue t ht
    obtain rfl := Option.mem_def.mp ht
    unfold optionalTimestamp at hvalue
    rw [Option.mapM_some] at hvalue
    obtain ⟨s, hs, -⟩ := except_map_ok.mp hvalue
    exact timestamp_isOk.mp ⟨s, hs⟩
  exact ⟨hcolumn hfire, hcolumn hpoll, hcolumn hdue, hcolumn hsnooze⟩

/-- A stored item, whatever the clock has shown. -/
structure StoredItem (r : Remindi) : Prop where
  coherent : Coherent r
  bound : r.Bound
  whole : ∀ t ∈ r.trigger.instants, t.truncateMillis = t

theorem storedItem_runOf {x : Externals} (labels : List Label)
    (h : r ∈ (runOf x labels).db.remindi.rows) : StoredItem r where
  coherent := stored_items_coherent x labels r.id r (Table.find?_of_mem h)
  bound := stored_rows_bound labels r h
  whole := rows_invariant Change.wholeTrigger labels r.id r (Table.find?_of_mem h)

theorem StoredItem.waits (h : StoredItem r) (hselected : Repository.schedulerSelects now r = true) :
    ∃ t, Waits r t := by
  obtain ⟨hfire, hpoll, hdue, hsnooze⟩ := h.bound.columns
  cases hstate : r.state with
  | snoozed =>
    obtain ⟨t, ht⟩ := Option.isSome_iff_exists.mp (h.coherent.snoozeUntil.mpr hstate)
    have hnot : ¬ r.WaitsForManualCheck := fun hmanual => hmanual.1 hstate
    refine ⟨t, ?_, h.bound.whole ht rfl, hsnooze t ht, fun _ => ?_, fun hmanual => absurd hmanual hnot⟩
    · simp only [Remindi.waitingSince, hstate, ht]
    · simp only [Repository.waitingText, hstate, ht, Option.bind_some]
  | due =>
    obtain ⟨t, ht⟩ := Option.isSome_iff_exists.mp (h.coherent.dueSince (Or.inl hstate))
    have hnot : ¬ r.WaitsForManualCheck := fun hmanual => hmanual.2.1 hstate
    refine ⟨t, ?_, h.bound.whole ht rfl, hdue t ht, fun _ => ?_, fun hmanual => absurd hmanual hnot⟩
    · simp only [Remindi.waitingSince, hstate, ht]
    · simp only [Repository.waitingText, hstate, ht, Option.bind_some]
  | overdue | completed | cancelled =>
    simp only [Repository.schedulerSelects, hstate] at hselected
    cases hselected
  | scheduled =>
    by_cases hcondition : r.trigger.isCondition = true
    · obtain ⟨next, hnext⟩ := Option.isSome_iff_exists.mp (h.coherent.polled hstate hcondition)
      have hnextWhole := h.bound.whole hnext rfl
      cases hcheck : Repository.manualCheckAt r.trigger with
      | none =>
        have hnot : ¬ r.WaitsForManualCheck := by
          rintro ⟨-, -, manual, hmanual, -⟩
          rw [hcheck] at hmanual
          cases hmanual
        refine ⟨next, ?_, hnextWhole, hpoll next hnext, fun _ => ?_,
          fun hmanual => absurd hmanual hnot⟩
        · simp only [Remindi.waitingSince, hstate, hcondition, hnext, hcheck, if_true, earlierOf]
        · simp only [Repository.waitingText, hstate, hcondition, hnext, hcheck, if_true]
      | some manual =>
        have hinstant : manual ∈ r.trigger.instants := by
          obtain ⟨adapter, parameters, poll, htrigger⟩ := Sample.manualCheckAt_eq_some hcheck
          rw [htrigger]
          exact List.mem_singleton_self _
        have hmanualWhole := h.whole manual hinstant
        have hprinted := instants_printed h.bound.trigger manual hinstant
        -- whole instants are compared as their milliseconds are
        have hcompare : next.utc / 1000000 ≤ manual.utc / 1000000 ↔ next.utc ≤ manual.utc := by
          have hone : next.utc / 1000000 * 1000000 = next.utc := congrArg OffsetDateTime.utc hnextWhole
          have htwo : manual.utc / 1000000 * 1000000 = manual.utc :=
            congrArg OffsetDateTime.utc hmanualWhole
          omega
        by_cases hle : next.utc ≤ manual.utc
        · have hnot : ¬ r.WaitsForManualCheck := by
            rintro ⟨-, -, manual', hmanual', hbefore⟩
            rw [hcheck] at hmanual'
            obtain rfl := Option.some.inj hmanual'
            have := hbefore next hnext
            omega
          refine ⟨next, ?_, hnextWhole, hpoll next hnext, fun _ => ?_,
            fun hmanual => absurd hmanual hnot⟩
          · simp only [Remindi.waitingSince, hstate, hcondition, hnext, hcheck, if_true, earlierOf,
              if_pos hle]
          · simp only [Repository.waitingText, hstate, hcondition, hnext, hcheck, if_true,
              if_pos (hcompare.mpr hle)]
        · have hwaits : r.WaitsForManualCheck := by
            refine ⟨by rw [hstate]; decide, by rw [hstate]; decide, manual, hcheck, ?_⟩
            intro next' hnext'
            rw [hnext] at hnext'
            obtain rfl := Option.some.inj hnext'
            omega
          have hyear := fromYearZero_of_instantJson hprinted hmanualWhole
          refine ⟨manual, ?_, hmanualWhole, ?_, fun hnot => absurd hwaits hnot, fun _ => ⟨?_, hyear⟩⟩
          · simp only [Remindi.waitingSince, hstate, hcondition, hnext, hcheck, if_true, earlierOf,
              if_neg hle]
          · have hbefore := (canonicalText_isSome.mp (hpoll next hnext)).2
            have hmono := year_mono (s := manual) (t := next) (by omega)
            unfold FromYearZero at hyear
            rw [canonicalText_isSome]
            omega
          · simp only [Repository.waitingText, hstate, hcondition, hnext, hcheck, if_true,
              if_neg (fun h => hle (hcompare.mp h))]
    · have htimed : r.trigger.isTimed = true := by
        simp only [Repository.schedulerSelects, hstate, Bool.not_eq_true _ ▸ hcondition,
          Bool.false_and, Bool.or_false, Bool.and_eq_true] at hselected
        exact hselected.1
      obtain ⟨t, ht⟩ := Option.isSome_iff_exists.mp (h.coherent.nextFireAt.mpr htimed)
      have hnot : ¬ r.WaitsForManualCheck := by
        rintro ⟨-, -, manual, hmanual, -⟩
        obtain ⟨adapter, parameters, poll, htrigger⟩ := Sample.manualCheckAt_eq_some hmanual
        rw [htrigger] at hcondition
        exact hcondition rfl
      refine ⟨t, ?_, h.bound.whole ht rfl, hfire t ht, fun _ => ?_,
        fun hmanual => absurd hmanual hnot⟩
      · simp only [Remindi.waitingSince, hstate, hcondition, ht]
        rfl
      · simp only [Repository.waitingText, hstate, hcondition, ht, Option.bind_some]
        rfl

/-- What the query has returned is read back from the front of the sorted candidates. -/
theorem candidates_rows (h : Repository.schedulerCandidates ownerId now limit db = .ok rows) :
    rows = (selectedItems ownerId now db).take limit ∧
      ∀ row ∈ rows, remindiFromRow row = .ok row := by
  unfold Repository.schedulerCandidates at h
  obtain ⟨_, -, h⟩ := except_bind_ok.mp h
  obtain ⟨_, -, h⟩ := except_bind_ok.mp h
  have hrows : rows = (selectedItems ownerId now db).take limit := mapM_remindiFromRow_ok h
  refine ⟨hrows, ?_⟩
  rw [hrows]
  exact remindiFromRow_of_mapM h

/-- An item that is read back waits since the year 0 or later. -/
theorem Waits.readable (h : Waits r t) (hread : remindiFromRow r = .ok r) : FromYearZero t := by
  have hcolumn : ∀ s ∈ r.times, s.truncateMillis = s → FromYearZero s := by
    intro s hs hwhole
    unfold FromYearZero
    rw [← year_of_truncated hwhole]
    exact remindiFromRow_iff.mp hread s hs
  by_cases hmanual : r.WaitsForManualCheck
  · exact (h.manual hmanual).2
  · refine hcolumn t ?_ h.whole
    have hsince := h.since
    unfold Remindi.waitingSince at hsince
    unfold Remindi.times
    rw [List.reduceOption_mem_iff]
    simp only [List.mem_cons]
    split at hsince
    · rw [hsince]
      simp
    · rw [hsince]
      simp
    · split at hsince
      · -- a poll, for the manual check is not before it
        cases hnext : r.nextEvaluationAt with
        | none =>
          exfalso
          refine hmanual ⟨by assumption, by assumption, t, ?_, ?_⟩
          · rw [hnext] at hsince
            exact hsince
          · rw [hnext]
            exact fun next hnext => by cases hnext
        | some next =>
          rw [hnext] at hsince
          cases hcheck : Repository.manualCheckAt r.trigger with
          | none =>
            rw [hcheck] at hsince
            rw [show some t = some next from hsince.symm]
            simp
          | some manual =>
            rw [hcheck] at hsince
            simp only [earlierOf] at hsince
            split at hsince
            · rw [← hsince]
              simp
            · exfalso
              refine hmanual ⟨by assumption, by assumption, manual, hcheck, ?_⟩
              intro next' hnext'
              rw [hnext] at hnext'
              obtain rfl := Option.some.inj hnext'
              omega
      · rw [hsince]
        simp

/-- Where something is returned, every candidate waits since the year 0 or later. -/
theorem candidates_fromYearZero (hstored : ∀ r ∈ db.remindi.rows, StoredItem r)
    (h : Repository.schedulerCandidates ownerId now limit db = .ok rows) (hlimit : 0 < limit)
    (hr : r ∈ fullCandidates ownerId now db) (hwaits : Waits r t) : FromYearZero t := by
  obtain ⟨hrows, hread⟩ := candidates_rows h
  have hsorted : (selectedItems ownerId now db).Pairwise fun a b => servedRank a < servedRank b :=
    pairwise_selectedItems
  have hmem : ∀ a, a ∈ selectedItems ownerId now db ↔ a ∈ fullCandidates ownerId now db :=
    fun a => List.mem_insertionSort _
  cases hselected : selectedItems ownerId now db with
  | nil =>
    have hin := (hmem r).mpr hr
    rw [hselected] at hin
    cases hin
  | cons first rest =>
    rw [hselected] at hsorted hrows hmem
    obtain ⟨limit, rfl⟩ := Nat.exists_eq_succ_of_ne_zero hlimit.ne'
    rw [List.take_succ_cons] at hrows
    have hfirst : first ∈ fullCandidates ownerId now db := (hmem first).mp List.mem_cons_self
    obtain ⟨hrow, -, hselects⟩ := mem_fullCandidates.mp hfirst
    obtain ⟨s, hs⟩ := (hstored first hrow).waits hselects
    have hyear := hs.readable (hread first (by rw [hrows]; exact List.mem_cons_self))
    obtain ⟨i, hfirstWaits⟩ := hs.waitsAs hyear
    rcases List.mem_cons.mp ((hmem r).mpr hr) with rfl | hrest
    · obtain rfl := Option.some.inj (hs.since.symm.trans hwaits.since)
      exact hyear
    · -- an earlier year would come first
      have hlt := (List.pairwise_cons.mp hsorted).1 r hrest
      by_contra hnegative
      have hnot : ¬ r.WaitsForManualCheck := fun hmanual => hnegative (hwaits.manual hmanual).2
      obtain ⟨text, htext⟩ := Option.isSome_iff_exists.mp hwaits.bound
      have hbelow := negative_lt_stampText (by unfold FromYearZero at hnegative; omega) htext
        hfirstWaits.stamped i
      have hrank : servedRank r = toLex ((text : WithBot String), r.id.text) := by
        unfold servedRank
        rw [hwaits.canonical hnot, htext]
      rw [hfirstWaits.servedRank, hrank, Prod.Lex.toLex_lt_toLex, WithBot.coe_lt_coe,
        WithBot.coe_inj] at hlt
      rcases hlt with hlt | ⟨heq, -⟩
      · exact absurd hlt (lt_asymm hbelow)
      · exact absurd (heq ▸ hbelow) (lt_irrefl _)

end

/-- **The longest-waiting candidates are served first** exactly when none of them is overtaken. -/
theorem longest_waiting_first_iff (x : Externals) (labels : List Label) (ownerId : String)
    (now : OffsetDateTime) (limit : Nat) (rows : List Remindi)
    (h : Repository.schedulerCandidates ownerId now limit (runOf x labels).db = .ok rows) :
    (∀ r ∈ fullCandidates ownerId now (runOf x labels).db, r.waitingSince.isSome = true) ∧
    (Lowest Remindi.waitingRank (fullCandidates ownerId now (runOf x labels).db) limit rows ↔
      ∀ a ∈ fullCandidates ownerId now (runOf x labels).db,
        ∀ b ∈ fullCandidates ownerId now (runOf x labels).db,
          preceding Remindi.waitingRank (fullCandidates ownerId now (runOf x labels).db) a < limit →
            ¬ Overtakes b a) := by
  have hstored : ∀ r ∈ (runOf x labels).db.remindi.rows, StoredItem r :=
    fun r hr => storedItem_runOf labels hr
  have hwaits : ∀ r ∈ fullCandidates ownerId now (runOf x labels).db, ∃ t, Waits r t := by
    intro r hr
    obtain ⟨hrow, -, hselects⟩ := mem_fullCandidates.mp hr
    exact (hstored r hrow).waits hselects
  refine ⟨fun r hr => ?_, ?_⟩
  · obtain ⟨t, ht⟩ := hwaits r hr
    rw [ht.since]
    rfl
  have hperm : (selectedItems ownerId now (runOf x labels).db).Perm
      (fullCandidates ownerId now (runOf x labels).db) := List.perm_insertionSort _ _
  have hdistinct : ((selectedItems ownerId now (runOf x labels).db).map
      Remindi.waitingRank).Nodup :=
    ((hperm.map Remindi.waitingRank).nodup_iff).mpr (nodup_waitingRank ownerId now _)
  rw [← lowest_perm hperm, (candidates_rows h).1, lowest_take_iff hdistinct pairwise_selectedItems]
  constructor
  · intro hall a ha b hb hless hovertakes
    have hlimit : 0 < limit := by omega
    obtain ⟨s, hs⟩ := hwaits a ha
    obtain ⟨t, ht⟩ := hwaits b hb
    obtain ⟨i, hi⟩ := hs.waitsAs (candidates_fromYearZero hstored h hlimit ha hs)
    obtain ⟨j, hj⟩ := ht.waitsAs (candidates_fromYearZero hstored h hlimit hb ht)
    rw [← preceding_perm hperm] at hless
    exact (hi.served_iff hj hovertakes.later).mp (hall a (hperm.mem_iff.mpr ha) b
      (hperm.mem_iff.mpr hb) hless hovertakes.later) hovertakes
  · intro hall a ha b hb hless hlater
    have hlimit : 0 < limit := by omega
    have ha' := hperm.mem_iff.mp ha
    have hb' := hperm.mem_iff.mp hb
    obtain ⟨s, hs⟩ := hwaits a ha'
    obtain ⟨t, ht⟩ := hwaits b hb'
    obtain ⟨i, hi⟩ := hs.waitsAs (candidates_fromYearZero hstored h hlimit ha' hs)
    obtain ⟨j, hj⟩ := ht.waitsAs (candidates_fromYearZero hstored h hlimit hb' ht)
    rw [preceding_perm hperm] at hless
    exact (hi.served_iff hj hlater).mpr (hall a ha' b hb' hless)

/-! ## A second with a half -/

namespace Sample

/-- A reminder half a second after the manual check of `byHand`. -/
def halfPast : AddRequest :=
  { everyMinute with
    trigger := .atTime ⟨1000500000000, 0⟩
    recurrence := none
    idempotencyKey := "add-0002" }

/-- After the poll at second 990 the condition waits for its manual check at second 1000. -/
def overtakenRun : List Label :=
  [call (.add byHand) 960 0, call (.add halfPast) 960 1, pollRead 990,
    .pollApply 0 (fun _ => none)
      { env 990 1 with ids := fun n => if n % 2 = 0 then uuid 3 else uuid 4 }]

def overtakenStore : Db := (runOf externals overtakenRun).db

/-- Who has been returned. -/
def servedIds (result : Except RepositoryError (List Remindi)) : Option (List Uuid) :=
  match result with
  | .ok rows => some (rows.map (·.id))
  | .error _ => none

theorem served_overtaken :
    servedIds (Repository.schedulerCandidates "owner" (second 1001) 1 overtakenStore) =
      some [uuid 1] := by
  decide +kernel

theorem waiting_overtaken :
    (fullCandidates "owner" (second 1001) overtakenStore).map
        (fun r => (r.id, r.waitingSince.map (·.utc))) =
      [(uuid 0, some 1000000000000), (uuid 1, some 1000500000000)] := by
  decide +kernel

theorem ok_of_servedIds {result : Except RepositoryError (List Remindi)} {ids : List Uuid}
    (h : servedIds result = some ids) : ∃ rows, result = .ok rows ∧ rows.map (·.id) = ids := by
  cases result with
  | error e => cases h
  | ok rows => exact ⟨rows, rfl, Option.some.inj h⟩

end Sample

/-- The query answers, and every candidate waits since some instant. -/
theorem sample_longest_waiting_first :
    ∃ rows, Repository.schedulerCandidates "owner" (Sample.second 1001) 1
        (runOf Sample.externals Sample.overtakenRun).db = .ok rows ∧
      ∀ r ∈ fullCandidates "owner" (Sample.second 1001)
        (runOf Sample.externals Sample.overtakenRun).db, r.waitingSince.isSome = true := by
  obtain ⟨rows, hrows, -⟩ := Sample.ok_of_servedIds Sample.served_overtaken
  exact ⟨rows, hrows, (longest_waiting_first_iff _ _ _ _ _ _ hrows).1⟩

/-- The manual check of second 1000 is not served first. -/
theorem manual_check_overtaken :
    ¬ ∀ (x : Externals) (labels : List Label) (ownerId : String) (now : OffsetDateTime)
        (limit : Nat) (rows : List Remindi),
      Repository.schedulerCandidates ownerId now limit (runOf x labels).db = .ok rows →
        Lowest Remindi.waitingRank (fullCandidates ownerId now (runOf x labels).db) limit rows := by
  intro hall
  obtain ⟨rows, hrows, hids⟩ := Sample.ok_of_servedIds Sample.served_overtaken
  have hlow := hall Sample.externals Sample.overtakenRun "owner" (Sample.second 1001) 1 rows hrows
  have hwaiting := Sample.waiting_overtaken
  have hcandidates : ∀ id utc, (id, utc) ∈ [(Sample.uuid 0, some (1000000000000 : Int)),
      (Sample.uuid 1, some 1000500000000)] →
      ∃ r ∈ fullCandidates "owner" (Sample.second 1001) Sample.overtakenStore,
        r.id = id ∧ r.waitingSince.map (·.utc) = utc := by
    intro id utc hmem
    rw [← hwaiting] at hmem
    obtain ⟨r, hr, heq⟩ := List.mem_map.mp hmem
    exact ⟨r, hr, congrArg Prod.fst heq, congrArg Prod.snd heq⟩
  obtain ⟨a, ha, haid, hawaits⟩ := hcandidates _ _ List.mem_cons_self
  obtain ⟨r, hr⟩ := List.map_eq_singleton_iff.mp hids
  obtain ⟨rfl, hrid⟩ := hr
  -- the one that is returned has waited for a shorter time
  have hrmem := hlow.mem r (List.mem_singleton_self r)
  have hrwaits : r.waitingSince.map (·.utc) = some 1000500000000 := by
    have hin : (r.id, r.waitingSince.map (·.utc)) ∈ [(Sample.uuid 0, some (1000000000000 : Int)),
        (Sample.uuid 1, some 1000500000000)] := by
      rw [← hwaiting]
      exact List.mem_map_of_mem hrmem
    rcases List.mem_cons.mp hin with heq | hin
    · have hne : Sample.uuid 1 ≠ Sample.uuid 0 := by decide
      exact absurd (hrid.symm.trans (congrArg Prod.fst heq)) hne
    · exact congrArg Prod.snd (List.mem_singleton.mp hin)
  have hout : a ∉ [r] := by
    intro hin
    obtain rfl := List.mem_singleton.mp hin
    rw [hawaits] at hrwaits
    exact absurd (Option.some.inj hrwaits) (by decide)
  have hlt := hlow.lowest r (List.mem_singleton_self r) a ha hout
  unfold Remindi.waitingRank at hlt
  rw [hrwaits, hawaits, Prod.Lex.toLex_lt_toLex] at hlt
  rcases hlt with hlt | ⟨heq, -⟩
  · have hlt : (1000500000000 : Int) < 1000000000000 := hlt
    omega
  · have heq : (1000500000000 : Int) = 1000000000000 := heq
    omega

end RemindiCore
