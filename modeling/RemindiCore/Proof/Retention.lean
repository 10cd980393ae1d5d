import RemindiCore.Admin.Catalog
import RemindiCore.Service.System

/-!
# What retention keeps

`apply_retention` expires exactly the eligible records that at least `n` others
surpass by creation time and identifier, each with its event, and removes their
files where the file system lets it (`retention_keeps_newest`).  It may stop
after any of them; what it has left is taken up by the next run, which comes to
the same records.
-/

namespace RemindiCore.Admin.Catalog

open CivilTime JsonText KeyedTable Leaders

variable {s t u : Store} {env : RetentionEnv} {actor : AdminActor} {n : Nat}
  {records : Table BackupRecord.id} {r : BackupRecord} {rows done : List BackupRecord}

/-! ## Ranks -/

/-- The eligible records. -/
def eligible (records : Table BackupRecord.id) : List BackupRecord :=
  records.rows.filter (·.eligible)

/-- Retention with this count is to expire the record. -/
def expires (n : Nat) (records : Table BackupRecord.id) (record : BackupRecord) : Bool :=
  record.eligible && decide (n ≤ surpassing BackupRecord.rank (eligible records) record)

theorem rank_nodup (records : Table BackupRecord.id) :
    ((eligible records).map BackupRecord.rank).Nodup := by
  have hids : ((eligible records).map BackupRecord.id).Nodup := (records.filter _).nodup
  refine List.Nodup.of_map (fun rank => (ofLex rank).2) ?_
  rw [List.map_map]
  exact hids

theorem mem_surplus : r ∈ surplus records n ↔ r ∈ records.rows ∧ expires n records r = true := by
  have hdrop : r ∈ surplus records n ↔
      r ∈ eligible records ∧ n ≤ surpassing BackupRecord.rank (eligible records) r :=
    mem_drop_descending (rank_nodup records)
  rw [hdrop]
  unfold expires eligible
  rw [List.mem_filter, Bool.and_eq_true, decide_eq_true_eq, and_assoc]

theorem surplus_ids_nodup (records : Table BackupRecord.id) (n : Nat) :
    ((surplus records n).map BackupRecord.id).Nodup := by
  have hids : ((eligible records).map BackupRecord.id).Nodup := (records.filter _).nodup
  have hsorted : ((descending BackupRecord.rank (eligible records)).map BackupRecord.id).Nodup :=
    ((perm_descending _).map _).nodup_iff.mpr hids
  exact hsorted.sublist ((List.drop_sublist _ _).map _)

/-! ## Expiring -/

/-- The records once these identifiers have expired. -/
def mark (ids : List String) (records : Table BackupRecord.id) : Table BackupRecord.id :=
  expireWhere (fun record => decide (record.id ∈ ids)) records

theorem table_ext {a b : Table BackupRecord.id} (h : a.rows = b.rows) : a = b := by
  cases a
  cases b
  cases h
  rfl

theorem mark_nil (records : Table BackupRecord.id) : mark [] records = records := by
  refine table_ext ?_
  show records.rows.map _ = records.rows
  simp

theorem mark_mark (a b : List String) (records : Table BackupRecord.id) :
    mark b (mark a records) = mark (a ++ b) records := by
  refine table_ext ?_
  show (records.rows.map _).map _ = records.rows.map _
  rw [List.map_map]
  refine List.map_congr_left fun record _ => ?_
  by_cases ha : record.id ∈ a
  · simp only [Function.comp, ha, decide_true, if_true, List.mem_append, true_or]
    split <;> rfl
  · simp only [Function.comp, ha, decide_false, Bool.false_eq_true, if_false, List.mem_append,
      false_or]

/-- The update finds the ready row of the query. -/
theorem expireRecord_eq (hr : r ∈ records.rows) (hready : r.status = .ready) :
    expireRecord r.id records = mark [r.id] records := by
  refine table_ext (List.map_congr_left fun record hrecord => ?_)
  by_cases hid : record.id = r.id
  · obtain rfl := records.eq_of_key_eq hrecord hr hid
    rw [if_pos (by simp [hready]), if_pos (by simp)]
  · rw [if_neg (by simp [hid]), if_neg (by simp [hid])]

theorem mem_mark_of_notMem {ids : List String} (hr : r ∈ records.rows) (hid : r.id ∉ ids) :
    r ∈ (mark ids records).rows :=
  List.mem_map.mpr ⟨r, hr, by simp [hid]⟩

/-! ## The loop -/

/-- The names that the loop removes for these records. -/
def removals (rows : List BackupRecord) : List String :=
  rows.flatMap fun record => [record.fileName, manifestPath record.fileName]

/-- The files without those that may be removed. -/
def without (refused : String → Bool) (names : List String) (files : String → Option Content) :
    String → Option Content :=
  fun name => if name ∈ names ∧ refused name = false then none else files name

/-- What a run has done when these records are expired: their events are
appended, and the files of the first of them are gone. -/
structure Progress (refused : String → Bool) (actor : AdminActor) (s t : Store)
    (done : List BackupRecord) : Prop where
  records : t.records = mark (done.map (·.id)) s.records
  events : ∃ new : List BackupEvent, t.events = s.events ++ new ∧
    new.map (·.backupId) = done.map (·.id) ∧ ∀ event ∈ new, event.eventType = .backupExpired ∧
      event.actorId = actor.actorId ∧ event.requestId = actor.requestId ∧
      event.outcome = .succeeded
  files : ∃ names, names.Sublist (removals done) ∧ t.files = without refused names s.files
  retention : t.retention = s.retention

theorem without_nil (refused : String → Bool) (files : String → Option Content) :
    without refused [] files = files := by
  funext name
  exact if_neg fun h => List.not_mem_nil h.1

theorem without_append (refused : String → Bool) (a b : List String)
    (files : String → Option Content) :
    without refused b (without refused a files) = without refused (a ++ b) files := by
  funext name
  unfold without
  by_cases hrefused : refused name = false
  · by_cases hb : name ∈ b
    · rw [if_pos ⟨hb, hrefused⟩, if_pos ⟨List.mem_append_right a hb, hrefused⟩]
    · rw [if_neg fun h => hb h.1]
      by_cases ha : name ∈ a
      · rw [if_pos ⟨ha, hrefused⟩, if_pos ⟨List.mem_append_left b ha, hrefused⟩]
      · rw [if_neg fun h => ha h.1, if_neg]
        rintro ⟨hab, -⟩
        exact (List.mem_append.mp hab).elim ha hb
  · rw [if_neg fun h => hrefused h.2, if_neg fun h => hrefused h.2, if_neg fun h => hrefused h.2]

theorem removeIfExists_files (refused : String → Bool) (name : String) (s : Store) :
    removeIfExists refused name s = { s with files := without refused [name] s.files } := by
  have hfiles : (if refused name then s.files else Function.update s.files name none) =
      without refused [name] s.files := by
    funext q
    unfold without
    by_cases hrefused : refused name = true
    · rw [if_pos hrefused, if_neg]
      rintro ⟨hq, hallowed⟩
      rw [List.mem_singleton.mp hq, hrefused] at hallowed
      cases hallowed
    · rw [if_neg hrefused]
      by_cases hq : q = name
      · subst hq
        rw [Function.update_self, if_pos ⟨List.mem_singleton_self _, by simpa using hrefused⟩]
      · rw [Function.update_of_ne hq, if_neg fun h => hq (List.mem_singleton.mp h.1)]
  rw [← hfiles]
  unfold removeIfExists Store.remove
  by_cases hrefused : refused name = true
  · rw [if_pos hrefused, if_pos hrefused]
  · rw [if_neg hrefused, if_neg hrefused]

theorem Progress.refl (refused : String → Bool) (actor : AdminActor) (s : Store) :
    Progress refused actor s s [] where
  records := (mark_nil s.records).symm
  events := ⟨[], (List.append_nil _).symm, rfl, fun _ h => absurd h List.not_mem_nil⟩
  files := ⟨[], List.Sublist.slnil, (without_nil refused s.files).symm⟩
  retention := rfl

theorem removals_append (a b : List BackupRecord) : removals (a ++ b) = removals a ++ removals b :=
  List.flatMap_append

theorem Progress.trans {refused : String → Bool} {more : List BackupRecord}
    (h : Progress refused actor s t done) (h' : Progress refused actor t u more) :
    Progress refused actor s u (done ++ more) where
  records := by
    rw [h'.records, h.records, mark_mark, List.map_append]
  events := by
    obtain ⟨new, hevents, hids, hnew⟩ := h.events
    obtain ⟨later, hevents', hids', hlater⟩ := h'.events
    refine ⟨new ++ later, ?_, ?_, ?_⟩
    · rw [hevents', hevents, List.append_assoc]
    · rw [List.map_append, List.map_append, hids, hids']
    · intro event hevent
      exact (List.mem_append.mp hevent).elim (hnew event) (hlater event)
  files := by
    obtain ⟨names, hnames, hfiles⟩ := h.files
    obtain ⟨names', hnames', hfiles'⟩ := h'.files
    refine ⟨names ++ names', ?_, ?_⟩
    · rw [removals_append]
      exact hnames.append hnames'
    · rw [hfiles', hfiles, without_append]
  retention := h'.retention.trans h.retention

/-- One transaction changes nothing and fails, or expires the record with its event. -/
theorem expireTransaction_cases (refused : String → Bool) {expire : ExpireEnv}
    {result : Except BackupError Unit} (hr : r ∈ s.records.rows) (hready : r.status = .ready)
    (h : expireTransaction expire actor r.id s = (result, t)) :
    (∃ e, result = .error e) ∧ t = s ∨
      Progress refused actor s t [r] ∧ t.files = s.files := by
  have hexpired : ∀ occurredAt, Progress refused actor s
      { s with
        records := expireRecord r.id s.records
        events := s.events ++ [expiredEvent actor expire occurredAt r.id] } [r] := by
    intro occurredAt
    refine ⟨expireRecord_eq hr hready, ⟨[expiredEvent actor expire occurredAt r.id], rfl, rfl, ?_⟩,
      ⟨[], List.nil_sublist _, (without_nil refused s.files).symm⟩, rfl⟩
    intro event hevent
    rw [List.mem_singleton.mp hevent]
    exact ⟨rfl, rfl, rfl, rfl⟩
  unfold expireTransaction at h
  by_cases hbegun : (!expire.begin || !expire.update) = true
  · rw [if_pos hbegun] at h
    cases h
    exact Or.inl ⟨⟨_, rfl⟩, rfl⟩
  rw [if_neg hbegun] at h
  cases hclock : canonicalTimestamp expire.now with
  | error e =>
    rw [hclock] at h
    cases h
    exact Or.inl ⟨⟨_, rfl⟩, rfl⟩
  | ok occurredAt =>
    rw [hclock] at h
    dsimp only at h
    by_cases hinserted : (!expire.insert) = true
    · rw [if_pos hinserted] at h
      cases h
      exact Or.inl ⟨⟨_, rfl⟩, rfl⟩
    rw [if_neg hinserted] at h
    by_cases hcommitted : (!expire.commit) = true
    · rw [if_pos hcommitted] at h
      by_cases happlied : expire.applied = true
      · rw [if_pos happlied] at h
        cases h
        exact Or.inr ⟨hexpired occurredAt, rfl⟩
      · rw [if_neg happlied] at h
        cases h
        exact Or.inl ⟨⟨_, rfl⟩, rfl⟩
    · rw [if_neg hcommitted] at h
      cases h
      exact Or.inr ⟨hexpired occurredAt, rfl⟩

/-- **The loop** expires the first of the rows, and all of them when it ends well. -/
theorem expireAll_progress {result : Except BackupError Unit}
    (hrows : ∀ r ∈ rows, r ∈ s.records.rows ∧ r.status = .ready)
    (hids : (rows.map (·.id)).Nodup) (h : expireAll env actor n rows s = (result, t)) :
    ∃ done rest, rows = done ++ rest ∧ Progress env.refused actor s t done ∧
      (result = .ok () → rest = [] ∧ t.files = without env.refused (removals rows) s.files) := by
  induction rows generalizing n s with
  | nil =>
    cases h
    exact ⟨[], [], rfl, .refl _ actor _, fun _ => ⟨rfl, (without_nil _ _).symm⟩⟩
  | cons row rest ih =>
    obtain ⟨⟨hrow, hready⟩, hrows⟩ := List.forall_mem_cons.mp hrows
    rw [List.map_cons, List.nodup_cons] at hids
    unfold expireAll at h
    rcases htransaction : expireTransaction (env.expire n) actor row.id s with ⟨made, s₁⟩
    rw [htransaction] at h
    rcases expireTransaction_cases env.refused hrow hready htransaction with
      ⟨⟨e, rfl⟩, rfl⟩ | ⟨hprogress, hfiles⟩
    · cases h
      exact ⟨[], row :: rest, rfl, .refl _ actor _, fun h => by cases h⟩
    cases made with
    | error e =>
      cases h
      exact ⟨[row], rest, rfl, hprogress, fun h => by cases h⟩
    | ok _ =>
      dsimp only at h
      rw [removeIfExists_files, removeIfExists_files] at h
      dsimp only at h
      rw [without_append, hfiles] at h
      have hremoved : Progress env.refused actor s { s₁ with
          files := without env.refused [row.fileName, manifestPath row.fileName] s.files } [row] :=
        ⟨hprogress.records, hprogress.events, ⟨_, List.Sublist.refl _, rfl⟩, hprogress.retention⟩
      have hlater : ∀ r ∈ rest, r ∈ s₁.records.rows ∧ r.status = .ready := by
        intro r hr
        refine ⟨?_, (hrows r hr).2⟩
        rw [hprogress.records]
        refine mem_mark_of_notMem (hrows r hr).1 fun hid => hids.1 ?_
        have hsame : r.id = row.id := by simpa using hid
        rw [← hsame]
        exact List.mem_map_of_mem hr
      obtain ⟨done, left, hsplit, hdone, hok⟩ := @ih { s₁ with
        files := without env.refused [row.fileName, manifestPath row.fileName] s.files } _ hlater
        hids.2 h
      refine ⟨row :: done, left, by rw [hsplit]; rfl, hremoved.trans hdone, ?_⟩
      intro hresult
      obtain ⟨hleft, hall⟩ := hok hresult
      refine ⟨hleft, ?_⟩
      rw [hall, without_append]
      rfl

/-! ## Whole runs -/

/-- Every record that retention is to expire has expired. -/
def retained (n : Nat) (records : Table BackupRecord.id) : Table BackupRecord.id :=
  expireWhere (expires n records) records

theorem expires_ready (h : expires n records r = true) : r.eligible = true ∧ r.status = .ready := by
  unfold expires at h
  obtain ⟨heligible, -⟩ := Bool.and_eq_true_iff.mp h
  refine ⟨heligible, ?_⟩
  unfold BackupRecord.eligible at heligible
  exact of_decide_eq_true (Bool.and_eq_true_iff.mp heligible).1

/-- Nothing changes but the status of the chosen ones. -/
theorem retained_eq_mark (h : ∀ r ∈ records.rows, r.id ∈ done.map (·.id) ↔ expires n records r = true) :
    mark (done.map (·.id)) records = retained n records := by
  refine table_ext (List.map_congr_left fun r hr => ?_)
  by_cases hexpires : expires n records r = true
  · rw [if_pos hexpires, if_pos (decide_eq_true ((h r hr).mpr hexpires))]
  · rw [if_neg hexpires, if_neg fun hin => hexpires ((h r hr).mp (of_decide_eq_true hin))]

theorem mem_surplus_ids (hr : r ∈ records.rows) :
    r.id ∈ (surplus records n).map (·.id) ↔ expires n records r = true := by
  constructor
  · intro hid
    obtain ⟨r', hr', hsame⟩ := List.mem_map.mp hid
    obtain ⟨hmem, hexpires⟩ := mem_surplus.mp hr'
    obtain rfl := records.eq_of_key_eq hmem hr hsame
    exact hexpires
  · intro hexpires
    exact List.mem_map_of_mem (mem_surplus.mpr ⟨hr, hexpires⟩)

theorem expire_ineligible (r : BackupRecord) : r.expire.eligible = false := rfl

theorem eligible_expireWhere (chosen : BackupRecord → Bool) (records : Table BackupRecord.id) :
    eligible (expireWhere chosen records) = (eligible records).filter fun r => !chosen r := by
  unfold eligible expireWhere
  dsimp only
  induction records.rows with
  | nil => rfl
  | cons r rest ih =>
    rw [List.map_cons, List.filter_cons, List.filter_cons, ih]
    by_cases hchosen : chosen r = true
    · rw [if_pos hchosen, if_neg (by rw [expire_ineligible]; decide)]
      by_cases heligible : r.eligible = true
      · rw [if_pos heligible, List.filter_cons_of_neg (by simp [hchosen])]
      · rw [if_neg heligible]
    · rw [if_neg hchosen]
      by_cases heligible : r.eligible = true
      · rw [if_pos heligible, if_pos heligible, List.filter_cons_of_pos (by simpa using hchosen)]
      · rw [if_neg heligible, if_neg heligible]

/-- **What a part of the work leaves to do**: the rest of it. -/
theorem expires_mark (hdone : ∀ r ∈ done, r ∈ surplus records n) (r : BackupRecord) :
    expires n (mark (done.map (·.id)) records) r = expires n records r := by
  have hkept : ∀ b ∈ eligible records, (!decide (b.id ∈ done.map (·.id))) = false →
      n ≤ surpassing BackupRecord.rank (eligible records) b := by
    intro b hb hout
    have hin : b.id ∈ done.map (·.id) := by simpa using hout
    obtain ⟨b', hb', hsame⟩ := List.mem_map.mp hin
    obtain ⟨hmem, hexpires⟩ := mem_surplus.mp (hdone b' hb')
    obtain rfl := records.eq_of_key_eq hmem (List.mem_filter.mp hb).1 hsame
    exact of_decide_eq_true (Bool.and_eq_true_iff.mp hexpires).2
  unfold expires
  rw [show eligible (mark (done.map (·.id)) records) =
    (eligible records).filter fun r => !decide (r.id ∈ done.map (·.id)) from
      eligible_expireWhere _ records]
  rw [decide_eq_decide.mpr (surpassed_of_kept (rank_nodup records) hkept)]

/-- Retention after a part of it comes to what it would have come to at once. -/
theorem retained_mark (hdone : ∀ r ∈ done, r ∈ surplus records n) :
    retained n (mark (done.map (·.id)) records) = retained n records := by
  refine table_ext ?_
  show (records.rows.map _).map _ = records.rows.map _
  rw [List.map_map]
  refine List.map_congr_left fun r hr => ?_
  dsimp only [Function.comp]
  by_cases hid : r.id ∈ done.map (·.id)
  · obtain ⟨r', hr', hsame⟩ := List.mem_map.mp hid
    obtain ⟨hmem, hexpires⟩ := mem_surplus.mp (hdone r' hr')
    obtain rfl := records.eq_of_key_eq hmem hr hsame
    simp only [hid, decide_true, if_true, hexpires]
    split <;> rfl
  · simp only [hid, decide_false, Bool.false_eq_true, if_false]
    rw [expires_mark hdone r]

theorem applyRetention_progress {result : Except BackupError Nat} {retention : Int}
    (hset : s.retention = some retention) (hn : retention.toNat = n)
    (h : applyRetention env actor s = (result, t)) :
    ∃ done rest, surplus s.records n = done ++ rest ∧ Progress env.refused actor s t done ∧
      ∀ count, result = .ok count → rest = [] ∧ count = done.length ∧
        t.files = without env.refused (removals done) s.files := by
  have hsurplus : surplus s.records retention = surplus s.records n := by
    rw [← hn]
    rfl
  have hnone : ∃ done rest, surplus s.records n = done ++ rest ∧
      Progress env.refused actor s s done ∧ done = [] := ⟨[], _, rfl, .refl _ actor s, rfl⟩
  unfold applyRetention at h
  rw [hset] at h
  cases hreads : env.reads with
  | false =>
    rw [hreads] at h
    cases h
    obtain ⟨done, rest, hsplit, hprogress, -⟩ := hnone
    exact ⟨done, rest, hsplit, hprogress, fun count hcount => by cases hcount⟩
  | true =>
    rw [hreads] at h
    dsimp only at h
    rw [hsurplus] at h
    rcases hloop : expireAll env actor 0 (surplus s.records n) s with ⟨looped, t'⟩
    rw [hloop] at h
    have hrows : ∀ r ∈ surplus s.records n, r ∈ s.records.rows ∧ r.status = .ready :=
      fun r hr => ⟨(mem_surplus.mp hr).1, (expires_ready (mem_surplus.mp hr).2).2⟩
    obtain ⟨done, rest, hsplit, hprogress, hok⟩ :=
      expireAll_progress hrows (surplus_ids_nodup s.records n) hloop
    cases looped with
    | error e =>
      cases h
      exact ⟨done, rest, hsplit, hprogress, fun count hcount => by cases hcount⟩
    | ok _ =>
      obtain ⟨rfl, hfiles⟩ := hok rfl
      rw [List.append_nil] at hsplit
      dsimp only at h
      by_cases hsync : ((surplus s.records n).isEmpty || env.sync) = true
      · rw [if_pos hsync] at h
        cases h
        refine ⟨done, [], by rw [hsplit, List.append_nil], hprogress, fun count hcount => ?_⟩
        cases hcount
        exact ⟨rfl, by rw [hsplit], by rw [← hsplit]; exact hfiles⟩
      · rw [if_neg hsync] at h
        cases h
        exact ⟨done, [], by rw [hsplit, List.append_nil], hprogress, fun count hcount => by cases hcount⟩

theorem applyRetention_retains {count : Nat} (hset : s.retention = some (n : Int))
    (h : applyRetention env actor s = (.ok count, t)) : t.records = retained n s.records := by
  obtain ⟨done, rest, hsplit, hprogress, hok⟩ := applyRetention_progress hset (Int.toNat_natCast n) h
  obtain ⟨rfl, -, -⟩ := hok count rfl
  rw [List.append_nil] at hsplit
  rw [hprogress.records, ← hsplit]
  exact retained_eq_mark fun r hr => mem_surplus_ids hr

/-- **Retention keeps the newest.**  It expires records that at least `n`
eligible ones surpass, each with its event, and removes no other files than
theirs; when it succeeds it has expired all of them, and their files are gone
but for those that the file system would not remove; and whatever it has left,
the next run that succeeds comes to the same records. -/
theorem retention_keeps_newest {result : Except BackupError Nat}
    (hset : s.retention = some (n : Int)) (h : applyRetention env actor s = (result, t)) :
    ∃ done, Progress env.refused actor s t done ∧ (done.map (·.id)).Nodup ∧
      (∀ r ∈ done, r ∈ s.records.rows ∧ expires n s.records r = true) ∧
      (∀ count, result = .ok count → count = done.length ∧
        (∀ r, r ∈ eligible t.records ↔ r ∈ eligible s.records ∧
          surpassing BackupRecord.rank (eligible s.records) r < n) ∧
        t.records = retained n s.records ∧
        t.files = without env.refused (removals done) s.files) ∧
      ∀ env' actor' count t', applyRetention env' actor' t = (.ok count, t') →
        t'.records = retained n s.records := by
  obtain ⟨done, rest, hsplit, hprogress, hok⟩ := applyRetention_progress hset (Int.toNat_natCast n) h
  have hsurplus : ∀ r ∈ done, r ∈ surplus s.records n := by
    intro r hr
    rw [hsplit]
    exact List.mem_append_left rest hr
  have hdistinct := surplus_ids_nodup s.records n
  rw [hsplit, List.map_append] at hdistinct
  refine ⟨done, hprogress, (List.nodup_append.mp hdistinct).1,
    fun r hr => mem_surplus.mp (hsurplus r hr), ?_, ?_⟩
  · rintro count rfl
    obtain ⟨-, hcount, hfiles⟩ := hok count rfl
    have hretained := applyRetention_retains hset h
    refine ⟨hcount, fun r => ?_, hretained, hfiles⟩
    rw [hretained]
    unfold retained
    rw [eligible_expireWhere, List.mem_filter]
    refine and_congr_right fun hr => ?_
    unfold expires
    rw [(List.mem_filter.mp hr).2]
    simp
  · intro env' actor' count t' hagain
    have hset' : t.retention = some (n : Int) := hprogress.retention.trans hset
    rw [applyRetention_retains hset' hagain, hprogress.records, retained_mark hsurplus]

namespace Sample

def record (id createdAt : String) : BackupRecord where
  id := id
  fileName := "remindi-" ++ id ++ ".sqlite3"
  source := .automatic
  status := .ready
  sha256 := ""
  sizeBytes := ⟨1, by decide, by decide⟩
  schemaVersion := ⟨2, by decide, by decide⟩
  createdAt := createdAt
  verifiedAt := none
  createdBy := "system"
  details := .ofMap []

/-- Two automatic backups, of which one is to be kept. -/
def twoBackups : Store where
  files := fun name =>
    if name = "remindi-a.sqlite3" ∨ name = "remindi-a.sqlite3.json" then some (.text "") else none
  records := ⟨[record "a" "2026-01-01T00:00:00.000Z", record "b" "2026-01-02T00:00:00.000Z"],
    by decide⟩
  events := []
  retention := some 1

def admin : AdminActor := ⟨"admin", none⟩

/-- Everything succeeds but the removal of some files. -/
def retentionEnv (refused : String → Bool) : RetentionEnv where
  reads := true
  expire := fun _ =>
    { begin := true
      update := true
      insert := true
      commit := true
      applied := true
      now := RemindiCore.Sample.second 1000
      eventId := RemindiCore.Sample.uuid 0 }
  refused := refused
  sync := true

def refusing : RetentionEnv := retentionEnv fun name => name = "remindi-a.sqlite3"

end Sample

/-- The older one of two is expired. -/
theorem sample_keeps_newest :
    (applyRetention (Sample.retentionEnv fun _ => false) Sample.admin Sample.twoBackups).1 = .ok 1 ∧
      ∃ done, Progress (fun _ => false) Sample.admin Sample.twoBackups
        (applyRetention (Sample.retentionEnv fun _ => false) Sample.admin Sample.twoBackups).2
          done ∧ done.length = 1 := by
  have hresult : (applyRetention (Sample.retentionEnv fun _ => false) Sample.admin
      Sample.twoBackups).1 = .ok 1 := by decide +kernel
  refine ⟨hresult, ?_⟩
  have hset : Sample.twoBackups.retention = some ((1 : Nat) : Int) := rfl
  have hrun : applyRetention (Sample.retentionEnv fun _ => false) Sample.admin Sample.twoBackups =
      (.ok 1, (applyRetention (Sample.retentionEnv fun _ => false) Sample.admin
        Sample.twoBackups).2) := Prod.ext hresult rfl
  obtain ⟨done, hprogress, -, -, hok, -⟩ := retention_keeps_newest hset hrun
  exact ⟨done, hprogress, (hok 1 rfl).1.symm⟩

/-- **A file that the file system will not remove stays**, and retention succeeds. -/
theorem refused_file_stays :
    ¬ ∀ (env : RetentionEnv) (actor : AdminActor) (s t : Store) (n count : Nat), 1 ≤ n →
      s.retention = some (n : Int) → applyRetention env actor s = (.ok count, t) →
        ∀ r ∈ s.records.rows, expires n s.records r = true →
          t.files r.fileName = none ∧ t.files (manifestPath r.fileName) = none := by
  intro h
  have hresult : (applyRetention Sample.refusing Sample.admin Sample.twoBackups).1 = .ok 1 := by
    decide +kernel
  have hstays : ((applyRetention Sample.refusing Sample.admin Sample.twoBackups).2.files
      "remindi-a.sqlite3").isSome = true := by decide +kernel
  have hmem : Sample.record "a" "2026-01-01T00:00:00.000Z" ∈ Sample.twoBackups.records.rows :=
    List.mem_cons_self
  have hexpires : expires 1 Sample.twoBackups.records
      (Sample.record "a" "2026-01-01T00:00:00.000Z") = true := by decide +kernel
  rcases hrun : applyRetention Sample.refusing Sample.admin Sample.twoBackups with ⟨result, t⟩
  rw [hrun] at hresult hstays
  dsimp only at hresult hstays
  subst hresult
  have hgone : t.files "remindi-a.sqlite3" = none :=
    (h _ _ _ t 1 1 (le_refl 1) rfl hrun _ hmem hexpires).1
  rw [hgone] at hstays
  cases hstays

end RemindiCore.Admin.Catalog
