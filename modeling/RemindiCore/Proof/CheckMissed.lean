import RemindiCore.Proof.CheckWalk

/-!
# What a walk through the pages of a check misses

An item that is ready at the first page is ready at every later one, so it can
only be missed by moving behind the cursor.  It does so when its grace period
ends between two pages (`PassedBy`), and then it is never returned
(`check_walk_complete_iff`).
-/

namespace RemindiCore

open CivilTime KeyedTable Transaction Paging

variable {service : RemindiService} {actor : Actor} {request : CheckRequest} {scope : CheckScope}
  {db db' : Db} {pages : List WalkPage} {cursor : Option String}

/-! ## What is missed -/

/-- Between two pages an item falls overdue that the first one has left over, and
as an overdue item it does not lie after the cursor any more. -/
def PassedBy (x : Externals) (row : Remindi) (p q : WalkPage) : Prop :=
  row.FallsOverdue p.result.checkedAt q.result.checkedAt ∧
    ∃ text cursor, q.cursor = some text ∧ x.decodeCursor text = some cursor ∧
      checkAfterCursor { remindi := row, readiness := .due } cursor = true ∧
      checkAfterCursor { remindi := row, readiness := .overdue } cursor = false

/-- The walk returns the item. -/
def Returned (pages : List WalkPage) (id : Uuid) : Prop :=
  ∃ p ∈ pages, ∃ a ∈ p.result.items, a.remindi.id = id

/-- The cursor of a page that is passed by. -/
theorem PassedBy.keys {row : Remindi} {p q : WalkPage} {v : Visit Uuid CheckKey}
    (h : PassedBy service.externals row p q) (hfires : Fires row)
    (hv : VisitOf service scope q v) :
    ∃ k, v.cursor = some k ∧ k < toLex (readinessRank .due, itemKey row) ∧
      toLex (readinessRank .overdue, itemKey row) ≤ k := by
  obtain ⟨-, text, cursor, htext, hopen, hdue, hoverdue⟩ := h
  obtain ⟨opened, hopened, hat⟩ := hv.cursor
  have hdecode : service.decodeCursor (some text) = .ok (some cursor) := by
    unfold RemindiService.decodeCursor
    dsimp only
    rw [hopen]
  rw [htext, hdecode] at hopened
  obtain rfl := Except.ok.inj hopened
  generalize hk : v.cursor = k at hat
  cases hat with
  | @item last cursor hcursor hlast =>
    have hafter : ∀ readiness, checkAfterCursor ⟨row, readiness⟩ cursor = true ↔
        checkKey last < checkKey ⟨row, readiness⟩ :=
      fun readiness => checkAfterCursor_iff hcursor hfires hlast
    refine ⟨_, rfl, (hafter .due).mp hdue, not_lt.mp fun hlt => ?_⟩
    rw [(hafter .overdue).mpr hlt] at hoverdue
    cases hoverdue

/-- The other way round. -/
theorem passedBy_of_keys {row : Remindi} {p q : WalkPage} {v : Visit Uuid CheckKey} {k : CheckKey}
    (hfires : Fires row) (hv : VisitOf service scope q v) (hcursor : v.cursor = some k)
    (hfalls : row.FallsOverdue p.result.checkedAt q.result.checkedAt)
    (hdue : k < toLex (readinessRank .due, itemKey row))
    (hoverdue : toLex (readinessRank .overdue, itemKey row) ≤ k) :
    PassedBy service.externals row p q := by
  obtain ⟨opened, hopened, hat⟩ := hv.cursor
  rw [hcursor] at hat
  generalize hK : some k = K at hat
  cases hat with
  | start => cases hK
  | @item last cursor hcursor' hlast =>
    obtain rfl := Option.some.inj hK
    unfold RemindiService.decodeCursor at hopened
    split at hopened
    · cases Except.ok.inj hopened
    next text htext =>
    split at hopened
    · next hopen =>
      obtain rfl := Option.some.inj (Except.ok.inj hopened)
      refine ⟨hfalls, text, _, htext, hopen, (checkAfterCursor_iff hcursor' hfires hlast).mpr hdue, ?_⟩
      have hafter : checkAfterCursor ⟨row, .overdue⟩ _ = true ↔ _ < checkKey ⟨row, .overdue⟩ :=
        checkAfterCursor_iff hcursor' hfires hlast
      rw [← Bool.not_eq_true, hafter]
      exact not_lt.mpr hoverdue
    · cases hopened

theorem CheckWalk.head (hwalk : CheckWalk service actor request cursor db pages db') :
    ∃ result rest, pages = ⟨cursor, db, result⟩ :: rest := by
  cases hwalk with
  | last answered => exact ⟨_, [], rfl⟩
  | more answered next rest => exact ⟨_, _, rfl⟩

/-- No page after the one that has returned an item passes it by. -/
theorem not_passedBy_of_returned {row : Remindi} {readiness : Readiness} {p : WalkPage}
    {v : Visit Uuid CheckKey} {visits : List (Visit Uuid CheckKey)} (hfires : Fires row)
    (hvisits : List.Forall₂ (VisitOf service scope) pages visits)
    (hchain : (v :: visits).IsChain Follows)
    (hclock : ClockRises (p :: pages))
    (hready : row.ReadyBy p.result.checkedAt scope.context readiness)
    (hwithin : Within v.next (toLex (readinessRank readiness, itemKey row))) :
    (p :: pages).IsChain fun p q => ¬ PassedBy service.externals row p q := by
  obtain ⟨hhead, htail⟩ := List.pairwise_cons.mp hclock
  -- a later page only passes by what was due at `p`, and lies before its cursor
  have hnone : ∀ p', p.result.checkedAt.utc ≤ p'.result.checkedAt.utc → ∀ q ∈ pages,
      p'.result.checkedAt.utc ≤ q.result.checkedAt.utc →
      ¬ PassedBy service.externals row p' q := by
    intro p' hle q hq hle' hpassed
    obtain ⟨w, hw, hvisit⟩ := exists_of_forall₂ hvisits.flip hq
    obtain ⟨k, hk, hdue, -⟩ := hpassed.keys hfires (show VisitOf service scope q w from hvisit)
    obtain ⟨c, c', hnext, hc', hlast⟩ := next_le_cursor hchain hw
    obtain rfl := Option.some.inj (hk.symm.trans hc')
    have hnow : row.pastGrace p.result.checkedAt = false := by
      rw [← Bool.not_eq_true]
      intro hpast
      have hbefore := hpassed.1.before
      rw [Remindi.pastGrace_mono hle hpast] at hbefore
      cases hbefore
    obtain ⟨rfl, -⟩ := hready.falls ⟨hpassed.1.state, hnow, hpassed.1.after⟩ (le_trans hle hle')
    exact absurd (lt_of_le_of_lt hlast hdue) (not_lt.mpr (hwithin c hnext))
  refine List.Pairwise.isChain (List.pairwise_cons.mpr ⟨fun q hq => ?_, ?_⟩)
  · exact hnone p (le_refl _) q hq (hhead q hq)
  · exact htail.imp_of_mem fun {p' q} hp' hq hle => hnone p' (hhead p' hp') q hq hle

/-- **An item slips behind a cursor exactly when a page passes it by.** -/
theorem CheckWalk.stays_iff (hseals : service.externals.SealsCursors)
    (hscope : request.scope actor = .ok scope)
    (hwalk : CheckWalk service actor request cursor db pages db') (hcolumns : db.Columns)
    (hclock : ClockRises pages) {visits : List (Visit Uuid CheckKey)}
    (hvisits : List.Forall₂ (VisitOf service scope) pages visits)
    (hchain : visits.IsChain Follows) {row : Remindi} {id : Uuid} (hnever : NeverRises id visits)
    (hrow : db.remindi.find? id = some row) (hin : InScope service.ownerId scope row)
    (hreadable : remindiFromRow row = .ok row) (hfires : Fires row)
    (hahead : ∀ p ∈ pages.head?, ∀ v ∈ visits.head?, ∃ readiness,
      row.ReadyBy p.result.checkedAt scope.context readiness ∧
        After v.cursor (toLex (readinessRank readiness, itemKey row))) :
    (visits.IsChain fun p q => ¬ Slips id p q) ↔
      pages.IsChain fun p q => ¬ PassedBy service.externals row p q := by
  induction hwalk generalizing visits with
  | last answered =>
    cases hvisits with
    | cons hv hrest =>
      cases hrest
      exact ⟨fun _ => List.isChain_singleton _, fun _ => List.isChain_singleton _⟩
  | @more cursor db db₁ db' result pages text _ _ answered next rest ih =>
    cases hvisits with
    | @cons _ v _ visits hv hrest =>
    obtain ⟨readiness, hready, hafter⟩ := hahead _ rfl v rfl
    obtain ⟨opened, hopened, hat⟩ := hv.cursor
    obtain ⟨-, -, -, hleaves, -, -⟩ := page_of_answer hseals hscope hcolumns answered hopened hat
    have hkey : v.key id = some (toLex (readinessRank readiness, itemKey row)) :=
      (hv.key id _).mpr ⟨row, readiness, hrow, hin, hready, hreadable, rfl⟩
    obtain ⟨result', pages', rfl⟩ := rest.head
    cases hrest with
    | @cons _ w _ visits hw hrest =>
    obtain ⟨⟨c, hnext, hcursor⟩, hchain'⟩ := List.isChain_cons_cons.mp hchain
    obtain ⟨hhead, htail⟩ := List.pairwise_cons.mp hclock
    by_cases hreturned : id ∈ v.items
    · -- returned here: from now on neither happens
      obtain ⟨k, hk, -, hwithin⟩ := (v.mem_iff id).mp hreturned
      obtain rfl := Option.some.inj (hkey.symm.trans hk)
      have hle := hwithin c hnext
      refine iff_of_true (List.isChain_cons_cons.mpr ⟨?_, stays_of_le hchain' hcursor ?_⟩)
        (not_passedBy_of_returned hfires (.cons hw hrest) hchain hclock hready hwithin)
      · rintro ⟨d, k₁, k', hd, hk₁, -, hlt, -⟩
        obtain rfl := Option.some.inj (hnext.symm.trans hd)
        obtain rfl := Option.some.inj (hkey.symm.trans hk₁)
        exact absurd hle (not_le.mpr hlt)
      · intro r hr k' hk'
        exact le_trans ((List.pairwise_cons.mp hnever).1 r hr _ k' hkey hk') hle
    · -- left over: at the next page it lies after the cursor, or it slips behind it
      have hleft : db₁.remindi.find? id = some row := by
        rw [hleaves.other id fun a ha hid => hreturned ?_]
        · exact hrow
        · rw [hv.items, ← hid]
          exact List.mem_map_of_mem ha
      have hle := hhead _ List.mem_cons_self
      have hbehind : c < toLex (readinessRank readiness, itemKey row) := by
        rw [← not_le]
        intro hle'
        refine hreturned ((v.mem_iff id).mpr ⟨_, hkey, hafter, fun d hd => ?_⟩)
        obtain rfl := Option.some.inj (hnext.symm.trans hd)
        exact hle'
      obtain ⟨readiness', hready', hlater⟩ := hready.later hle
      have hkey' : w.key id = some (toLex (readinessRank readiness', itemKey row)) :=
        (hw.key id _).mpr ⟨row, readiness', hleft, hin, hready', hreadable, rfl⟩
      rw [List.isChain_cons_cons, List.isChain_cons_cons]
      rcases le_or_gt (toLex (readinessRank readiness', itemKey row)) c with hslip | hstays
      · refine iff_of_false (fun h => h.1 ⟨c, _, _, hnext, hkey, hkey', hbehind, hslip⟩)
          fun h => h.1 ?_
        rcases hlater with rfl | ⟨rfl, rfl, hfalls⟩
        · exact absurd hslip (not_le.mpr hbehind)
        · exact passedBy_of_keys hfires hw hcursor hfalls hbehind hslip
      · refine and_congr (iff_of_true ?_ ?_) (ih (hleaves.columns hcolumns) htail (.cons hw hrest)
          hchain' (List.pairwise_cons.mp hnever).2 hleft ?_)
        · rintro ⟨d, _, k', hd, -, hk', -, hle'⟩
          obtain rfl := Option.some.inj (hnext.symm.trans hd)
          obtain rfl := Option.some.inj (hkey'.symm.trans hk')
          exact absurd hle' (not_le.mpr hstays)
        · intro hpassed
          obtain ⟨-, hoverdue⟩ := hready.falls hpassed.1 hle
          obtain rfl := hoverdue.unique hready'
          obtain ⟨d, hd, -, hle'⟩ := hpassed.keys hfires hw
          obtain rfl := Option.some.inj (hcursor.symm.trans hd)
          exact absurd hle' (not_le.mpr hstays)
        · intro p hp v hv
          obtain rfl := Option.some.inj hp
          obtain rfl := Option.some.inj hv
          refine ⟨readiness', hready', fun d hd => ?_⟩
          obtain rfl := Option.some.inj (hcursor.symm.trans hd)
          exact hstays

/-- A row that cannot be read back is on no page, and stays as it is. -/
theorem CheckWalk.not_returned_of_unreadable (hseals : service.externals.SealsCursors)
    (hscope : request.scope actor = .ok scope)
    (hwalk : CheckWalk service actor request cursor db pages db') (hcolumns : db.Columns)
    {opened : Option CheckCursor} {K : Option CheckKey}
    (hopened : service.decodeCursor cursor = .ok opened) (hK : CursorAt opened K) {row : Remindi}
    {id : Uuid} (hrow : db.remindi.find? id = some row) (hunread : remindiFromRow row ≠ .ok row) :
    ¬ Returned pages id := by
  have hhead : ∀ {cursor db result db' readEnv persistEnv opened K}, db.Columns →
      db.remindi.find? id = some row →
      service.check actor { request with cursor := cursor } readEnv persistEnv db =
        (.ok result, db') →
      service.decodeCursor cursor = .ok opened → CursorAt opened K →
      ∀ a ∈ result.items, a.remindi.id ≠ id := by
    rintro cursor db result db' _ _ opened K hcolumns hrow answered hopened hK a ha rfl
    obtain ⟨v, hv, -⟩ := page_of_answer hseals hscope hcolumns answered hopened hK
    have hmem : a.remindi.id ∈ v.items := by
      rw [hv.items]
      exact List.mem_map_of_mem ha
    obtain ⟨k, hk, -⟩ := (v.mem_iff _).mp hmem
    obtain ⟨row', -, hrow', -, -, hread, -⟩ := (hv.key _ k).mp hk
    obtain rfl := Option.some.inj (hrow.symm.trans hrow')
    exact hunread hread
  induction hwalk generalizing opened K with
  | last answered =>
    rintro ⟨p, hp, a, ha, hid⟩
    obtain rfl := List.mem_singleton.mp hp
    exact hhead hcolumns hrow answered hopened hK a ha hid
  | more answered next rest ih =>
    have hnone := hhead hcolumns hrow answered hopened hK
    obtain ⟨v, -, -, hleaves, -, hnext⟩ :=
      page_of_answer hseals hscope hcolumns answered hopened hK
    obtain ⟨opened', k, -, hopened', hat⟩ := hnext _ next
    rintro ⟨p, hp, a, ha, hid⟩
    rcases List.mem_cons.mp hp with rfl | hp
    · exact hnone a ha hid
    · exact ih (hleaves.columns hcolumns) hopened' hat ((hleaves.other id hnone).trans hrow)
        ⟨p, hp, a, ha, hid⟩

/-- What is not returned of the first page's ready items, row by row. -/
theorem CheckWalk.returned_iff (hseals : service.externals.SealsCursors)
    (hscope : request.scope actor = .ok scope)
    (hwalk : CheckWalk service actor request none db pages db') (hends : WalkEnds pages)
    (hcolumns : db.Columns) (hclock : ClockRises pages) {row : Remindi} (hrow : row ∈ db.remindi.rows)
    (hin : InScope service.ownerId scope row) {first : WalkPage} (hfirst : first ∈ pages.head?)
    {readiness : Readiness}
    (hready : row.ReadyBy first.result.checkedAt scope.context readiness) :
    Returned pages row.id ↔ remindiFromRow row = .ok row ∧
      pages.IsChain fun p q => ¬ PassedBy service.externals row p q := by
  obtain ⟨v, visits, hvisits, hstart, hchain⟩ := hwalk.visits hseals hscope hcolumns rfl .start
  have hnever := hwalk.visits_neverRise hseals hscope hcolumns hclock hvisits row.id
  have hfound := Table.find?_of_mem hrow
  by_cases hreadable : remindiFromRow row = .ok row
  · -- ready at every page: the walk returns it unless it slips
    have htracked : Tracked service.ownerId scope first.result.checkedAt db row.id
        (toLex (readinessRank readiness, itemKey row)) :=
      ⟨row, readiness, hfound, hin, hready, hreadable, rfl⟩
    have halways : AlwaysReady row.id (v :: visits) := by
      intro w hw
      obtain ⟨q, hq, hvisit⟩ := exists_of_forall₂ hvisits hw
      obtain ⟨row', hup⟩ := htracked.upcoming
      obtain ⟨k, -, hk⟩ :=
        hwalk.tracked hseals hscope hcolumns rfl .start hclock (hclock.first_le hfirst) hup q hq
      exact Option.isSome_iff_exists.mpr ⟨k, (hvisit.key _ k).mpr hk⟩
    have hlast : ∀ w ∈ (v :: visits).getLast?, w.next = none := by
      intro w hw
      obtain ⟨q, hq, hvisit⟩ := exists_last_of_forall₂ hvisits hw
      exact hvisit.last (hends q hq)
    have hreturned : Returned pages row.id ↔ ∃ w ∈ v :: visits, row.id ∈ w.items := by
      constructor
      · rintro ⟨q, hq, a, ha, hid⟩
        obtain ⟨w, hw, hvisit⟩ := exists_of_forall₂ hvisits.flip hq
        have hvisit : VisitOf service scope q w := hvisit
        refine ⟨w, hw, ?_⟩
        rw [hvisit.items, ← hid]
        exact List.mem_map_of_mem ha
      · rintro ⟨w, hw, hid⟩
        obtain ⟨q, hq, hvisit⟩ := exists_of_forall₂ hvisits hw
        rw [hvisit.items] at hid
        obtain ⟨a, ha, hid⟩ := List.mem_map.mp hid
        exact ⟨q, hq, a, ha, hid⟩
    rw [hreturned, Paging.returned_iff hchain hstart hlast halways hnever,
      hwalk.stays_iff hseals hscope hcolumns hclock hvisits hchain hnever hfound hin hreadable
        ((hcolumns row hrow).fires hreadable) ?_, and_iff_right hreadable]
    intro p hp w hw
    obtain rfl := Option.some.inj hw
    obtain rfl := Option.mem_unique hp hfirst
    refine ⟨readiness, hready, fun c hc => ?_⟩
    rw [hstart] at hc
    cases hc
  · refine iff_of_false ?_ fun h => hreadable h.1
    exact hwalk.not_returned_of_unreadable hseals hscope hcolumns rfl .start hfound hreadable

/-- The item is in the store, and active. -/
def Active (db : Db) (id : Uuid) : Prop :=
  ∃ row, db.remindi.find? id = some row ∧ row.state.isActive = true

/-- Checks alone leave every active item active. -/
theorem CheckWalk.active (hseals : service.externals.SealsCursors)
    (hscope : request.scope actor = .ok scope)
    (hwalk : CheckWalk service actor request cursor db pages db') (hcolumns : db.Columns)
    {opened : Option CheckCursor} {K : Option CheckKey}
    (hopened : service.decodeCursor cursor = .ok opened) (hK : CursorAt opened K) {id : Uuid}
    (hactive : Active db id) : Active db' id := by
  have hstep : ∀ {db result db'}, Leaves service scope db result db' → Active db id →
      Active db' id := by
    rintro db result db' hleaves ⟨row, hrow, hactive⟩
    by_cases hreturned : ∃ a ∈ result.items, a.remindi.id = id
    · obtain ⟨a, ha, rfl⟩ := hreturned
      obtain ⟨row', hrow', -, hsettled, -⟩ := hleaves.returned a ha
      refine ⟨row', hrow', ?_⟩
      rcases hsettled with ⟨hstate, -⟩ | ⟨hstate, -⟩ <;> rw [hstate] <;> rfl
    · refine ⟨row, ?_, hactive⟩
      rw [hleaves.other id fun a ha hid => hreturned ⟨a, ha, hid⟩]
      exact hrow
  induction hwalk generalizing opened K with
  | last answered =>
    obtain ⟨-, -, -, hleaves, -⟩ := page_of_answer hseals hscope hcolumns answered hopened hK
    exact hstep hleaves hactive
  | more answered next rest ih =>
    obtain ⟨v, -, -, hleaves, -, hnext⟩ :=
      page_of_answer hseals hscope hcolumns answered hopened hK
    obtain ⟨opened', k, -, hopened', hat⟩ := hnext _ next
    exact ih (hleaves.columns hcolumns) hopened' hat (hstep hleaves hactive)

/-- A walk loses nothing: what was ready at the first page and is active at the end is returned. -/
def LosesNothing (ownerId : String) (scope : CheckScope) (pages : List WalkPage) (db' : Db) : Prop :=
  ∀ first ∈ pages.head?, ∀ row ∈ first.before.remindi.rows, InScope ownerId scope row →
    (∃ checked, row.IsReady first.result.checkedAt scope.context checked) →
    Active db' row.id → Returned pages row.id

/-- Every ready item of the first page can be read back, and no later page passes it by. -/
def NonePassedBy (service : RemindiService) (scope : CheckScope) (pages : List WalkPage) : Prop :=
  ∀ first ∈ pages.head?, ∀ row ∈ first.before.remindi.rows, InScope service.ownerId scope row →
    (∃ checked, row.IsReady first.result.checkedAt scope.context checked) →
    remindiFromRow row = .ok row ∧ pages.IsChain fun p q => ¬ PassedBy service.externals row p q

/-- **What a walk loses**: exactly the items whose grace period ends between two
pages while the cursor lies between their place as due and their place as overdue. -/
theorem check_walk_complete_iff (hseals : service.externals.SealsCursors)
    (hscope : request.scope actor = .ok scope)
    (hwalk : CheckWalk service actor request none db pages db') (hends : WalkEnds pages)
    (hcolumns : db.Columns) (hclock : ClockRises pages) :
    LosesNothing service.ownerId scope pages db' ↔ NonePassedBy service scope pages := by
  obtain ⟨result, rest, hpages⟩ := hwalk.head
  have hbefore : ∀ first ∈ pages.head?, first.before = db := by
    rintro first hfirst
    rw [hpages] at hfirst
    rw [← Option.some.inj hfirst]
  refine forall₂_congr fun first hfirst => ?_
  refine forall₂_congr fun row hrow => forall₂_congr fun hin hready => ?_
  rw [hbefore first hfirst] at hrow
  obtain ⟨checked, events, hevaluate⟩ := hready
  have hreadyBy := Remindi.readyBy_iff.mpr ⟨_, events, hevaluate⟩
  have hactive := hwalk.active hseals hscope hcolumns rfl .start
    ⟨row, Table.find?_of_mem hrow, hreadyBy.isActive⟩
  rw [imp_iff_right hactive]
  exact hwalk.returned_iff hseals hscope hends hcolumns hclock hrow hin hfirst hreadyBy

/-! ## A reminder that is missed -/

/-- The second reminder is left over by the first page.  When the second page is asked
for both are overdue, and overdue ones lie before the cursor: it is lost. -/
theorem walk_loses_reminder :
    CheckWalk Sample.owner Sample.agent Sample.checkRequest none Sample.twoDue
        (Sample.twoPages 1100 1700).1 (Sample.twoPages 1100 1700).2 ∧
      WalkEnds (Sample.twoPages 1100 1700).1 ∧ ClockRises (Sample.twoPages 1100 1700).1 ∧
      ¬ LosesNothing "owner" Sample.projectScope (Sample.twoPages 1100 1700).1
        (Sample.twoPages 1100 1700).2 := by
  have hwalks : Sample.walks 1100 1700 = true := by decide +kernel
  obtain ⟨hwalk, hends, hclock⟩ := Sample.walk_of_walks hwalks
  refine ⟨hwalk, hends, hclock, fun h => ?_⟩
  have hreturned : (Sample.twoPages 1100 1700).1.flatMap
      (fun p => p.result.items.map (·.remindi.id)) = [Sample.uuid 0] := by
    decide +kernel
  have hbefore : (Sample.twoDue.remindi.find? (Sample.uuid 1)).map
      (fun row => (row.state, row.ownerId, row.projectId)) = some (.due, "owner", "project") := by
    decide +kernel
  have hafter : ((Sample.twoPages 1100 1700).2.remindi.find? (Sample.uuid 1)).map
      (fun row => row.state.isActive) = some true := by
    decide +kernel
  obtain ⟨row, hrow, hfields⟩ := Option.map_eq_some_iff.mp hbefore
  obtain ⟨hstate, howner, hproject⟩ : row.state = .due ∧ row.ownerId = "owner" ∧
      row.projectId = "project" := by simpa using hfields
  obtain ⟨last, hlast, hactive⟩ := Option.map_eq_some_iff.mp hafter
  have hid := Table.key_of_find? hrow
  obtain ⟨p, hp, a, ha, hmem⟩ := h _ (Sample.twoPages_head 1100 1700) row
    (Table.find?_eq_some.mp hrow).1 ⟨howner, hproject, fun task htask => by cases htask⟩
    (Remindi.ReadyBy.due hstate).isReady ⟨last, hid ▸ hlast, hactive⟩
  have hlisted : Sample.uuid 1 ∈ (Sample.twoPages 1100 1700).1.flatMap
      (fun p => p.result.items.map (·.remindi.id)) :=
    List.mem_flatMap.mpr ⟨p, hp, List.mem_map.mpr ⟨a, ha, hmem.trans hid⟩⟩
  rw [hreturned] at hlisted
  revert hlisted
  decide +kernel

/-- A minute later nothing has become overdue, and the walk is complete. -/
theorem sample_walk_complete :
    LosesNothing "owner" Sample.projectScope (Sample.twoPages 1100 1200).1
        (Sample.twoPages 1100 1200).2 ↔
      NonePassedBy Sample.owner Sample.projectScope (Sample.twoPages 1100 1200).1 := by
  have hwalks : Sample.walks 1100 1200 = true := by decide +kernel
  obtain ⟨hwalk, hends, hclock⟩ := Sample.walk_of_walks hwalks
  exact check_walk_complete_iff Sample.sealing_seals rfl hwalk hends Sample.twoDue_columns hclock

end RemindiCore
