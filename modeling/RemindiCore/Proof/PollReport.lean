import RemindiCore.Proof.SchedulerDrain
import RemindiCore.Scheduler.Loop

/-!
# What a poll reports

The counters of `poll_once` against what became of each evaluation, with any
writers between the transactions.  An evaluation whose row is gone comes back
as `NotFound` and is a conflict; one whose row has another version comes back
as `Ok` from `persist_evaluated` and is counted as applied
(`poll_report_truthful_iff`, `overtaken_counted_as_applied`).
-/

namespace RemindiCore

open CivilTime JsonText Transaction KeyedTable

/-! ## What becomes of an evaluation -/

/-- Neither of the two errors of a lost race. -/
def Other (e : ServiceError) : Prop := e ≠ .notFound ∧ ∀ version, e ≠ .versionConflict version

/-- What the candidate's adapter has it evaluate to. -/
def evaluationOf (candidate : Remindi) (now : OffsetDateTime)
    (adapters : RemindiService.AdapterProvider) : Except ServiceError (Remindi × EvaluationResult) :=
  let answer := RemindiService.evaluateCondition adapters candidate
  RemindiService.evaluateCandidate candidate now RemindiService.schedulerContext
    (conditionOf answer) (answer.map (·.summary))

/-- Every call of the transaction of an evaluation succeeds, and it finds the row
at another version. -/
structure FindsNewer (service : RemindiService) (prior : Remindi) (env : Env) (db : Db) : Prop where
  begin : env.fault 0 = none
  query : env.fault 1 = none
  commit : env.fault 2 = none
  newer : ∃ current, Repository.find service.ownerId prior.id db = .ok (some current) ∧
    current.version ≠ prior.version

namespace Application

variable (a : Application) (s : Scheduler) (env : PollEnv)

def evaluation : Except ServiceError (Remindi × EvaluationResult) :=
  evaluationOf a.candidate (env.read.clock 0) (env.provider a.index)

def NothingToWrite : Prop := ∃ item result, a.evaluation env = .ok (item, result) ∧ result.events = []

/-- It has something to write. -/
def Writes : Prop := ∃ item result, a.evaluation env = .ok (item, result) ∧ result.events ≠ []

/-- Its transaction stored the evaluated item and its events. -/
def Committed : Prop := ∃ item result old, a.evaluation env = .ok (item, result) ∧
  result.events ≠ [] ∧
    Persisted s.service.externals a.before a.after a.candidate old item result.events

/-- The row is gone, or has another version than the candidate. -/
def Moved : Prop := ∀ row, a.before.remindi.find? a.candidate.id = some row →
  row.ownerId = s.service.ownerId → row.version ≠ a.candidate.version

def Failed : Prop := ∃ e, a.result = .error e ∧ Other e

/-- Nothing was written because the row had moved. -/
structure Overtaken : Prop where
  writes : a.Writes env
  moved : a.Moved s
  unwritten : a.after = a.before
  unfailed : ¬ a.Failed

/-- It has something to write, and its row has moved on to another version. -/
structure LosesRace : Prop where
  writes : a.Writes env
  newer : FindsNewer s.service a.candidate (env.apply a.index) a.before

end Application

/-! ## One transaction -/

theorem other_database (e : DatabaseError) : Other (mapDatabase e) := by
  cases e <;> exact ⟨by decide, fun version h => by cases h⟩

theorem other_repository (e : RepositoryError) : Other (mapRepository e) := by
  cases e <;> exact ⟨by decide, fun version h => by cases h⟩

theorem other_domain (e : DomainError) : Other (mapDomain e) := by
  unfold mapDomain
  split <;> exact ⟨by decide, fun version h => by cases h⟩

theorem fails_statement {α : Type} (f : Db → Except RepositoryError (α × Db)) :
    Txn.Fails Other (Tx.statement f) := by
  refine Txn.Fails.call ?_ ?_
  · intro r n e h
    obtain ⟨fault, -, rfl⟩ := Option.map_eq_some_iff.mp h
    exact other_repository _
  · intro db e h
    cases hf : f db with
    | ok done =>
      rw [hf] at h
      cases h
    | error error =>
      rw [hf] at h
      obtain rfl := Except.error.inj h
      exact other_repository error

theorem fails_database : Txn.Fails Other Tx.database := by
  refine Txn.Fails.call ?_ (fun db e h => by cases h)
  intro r n e h
  obtain ⟨fault, -, rfl⟩ := Option.map_eq_some_iff.mp h
  exact other_database fault

theorem fails_appendEvaluated {actor : Actor} {prior item : Remindi} {context : CheckContext}
    {detail : Option String} (types : List EventType) :
    Txn.Fails Other (RemindiService.appendEvaluated actor prior item context detail types) := by
  induction types with
  | nil => exact .pure ()
  | cons type rest ih =>
    refine .bind ?_ fun _ => ih
    exact .bind (.ask _) fun _ => .bind (.ask _) fun _ => fails_statement _

section

variable {service : RemindiService} {actor : Actor} {prior item : Remindi} {result : EvaluationResult}
  {now : OffsetDateTime} {context : CheckContext} {detail : Option String}
  {env : Env} {db db' : Db}

/-- What the transaction of an evaluation with something to write comes to. -/
inductive Transacted (service : RemindiService) (prior item : Remindi) (types : List EventType)
    (env : Env) (db : Db) : Except ServiceError Db → Prop
  | broken {e : ServiceError} (other : Other e) (unmoved : ¬ FindsNewer service prior env db) :
    Transacted service prior item types env db (.error e)
  | gone (none : Repository.find service.ownerId prior.id db = .ok none) :
    Transacted service prior item types env db (.error .notFound)
  | overtaken (newer : FindsNewer service prior env db) :
    Transacted service prior item types env db (.ok db)
  | committed {db' : Db} {old : Remindi}
    (persisted : Persisted service.externals db db' prior old item types)
    (unmoved : ¬ FindsNewer service prior env db) :
    Transacted service prior item types env db (.ok db')

/-- `evaluate_one` from `begin_immediate` on. -/
def transact (service : RemindiService) (actor : Actor) (prior item : Remindi)
    (result : EvaluationResult) (context : CheckContext) (detail : Option String) :
    Tx (Option CheckedItem) := do
  Tx.database
  let evaluated ← service.persistEvaluated actor prior item result.readiness result.events
    context detail
  Tx.database
  return evaluated

theorem findItem_error {id : Uuid} {n : Nat} {e : ServiceError}
    (h : service.findItem id env n db = .error e) :
    Other e ∨ e = .notFound ∧ Repository.find service.ownerId id db = .ok none := by
  unfold RemindiService.findItem at h
  cases hquery : Tx.query (Repository.find service.ownerId id) env n db with
  | error e' =>
    rw [Txn.bind_of_error hquery] at h
    obtain rfl := Except.error.inj h
    exact Or.inl (fails_statement _ env n db e' hquery)
  | ok done =>
    obtain ⟨found, m, db'⟩ := done
    rw [Txn.bind_of_ok hquery] at h
    obtain ⟨hfind, rfl⟩ := Tx.query_ok hquery
    cases found with
    | some row => cases h
    | none =>
      obtain rfl := Except.error.inj h
      exact Or.inr ⟨rfl, hfind⟩

/-- An error is the missing row's, or another one. -/
theorem transact_error {e : ServiceError} (hid : item.id = prior.id)
    (h : transact service actor prior item result context detail env 0 db = .error e) :
    Other e ∨ e = .notFound ∧ Repository.find service.ownerId prior.id db = .ok none := by
  unfold transact at h
  cases hbegin : Tx.database env 0 db with
  | error e' =>
    rw [Txn.bind_of_error hbegin] at h
    obtain rfl := Except.error.inj h
    exact Or.inl (fails_database env 0 db e' hbegin)
  | ok begun =>
    obtain ⟨_, m, db'⟩ := begun
    rw [Txn.bind_of_ok hbegin] at h
    obtain rfl := Tx.database_ok hbegin
    unfold RemindiService.persistEvaluated at h
    rw [Txn.bind_assoc] at h
    cases hfind : service.findItem item.id env m db with
    | error e' =>
      rw [Txn.bind_of_error hfind] at h
      obtain rfl := Except.error.inj h
      rw [hid] at hfind
      exact findItem_error hfind
    | ok found =>
      obtain ⟨current, k, db'⟩ := found
      rw [Txn.bind_of_ok hfind] at h
      -- from here on only statements of the database fail
      refine Or.inl (Txn.Fails.bind ?_ (fun _ => .bind fails_database fun _ => .pure _) env k db' e h)
      by_cases hversion : current.version ≠ prior.version
      · rw [if_pos hversion]
        exact .pure _
      · rw [if_neg hversion]
        refine .bind (fails_statement _) fun updated => ?_
        cases updated with
        | false => exact .pure _
        | true => exact .bind (fails_appendEvaluated _) fun _ => .pure _

theorem database_ok_iff {n m : Nat} {u : Unit} :
    Tx.database env n db = .ok (u, m, db') ↔ env.fault n = none ∧ n + 1 = m ∧ db = db' := by
  constructor
  · intro h
    obtain ⟨hfault, hdb, hm⟩ := Txn.call_ok.mp h
    exact ⟨Option.map_eq_none_iff.mp hfault, hm, Tx.database_ok h⟩
  · rintro ⟨hfault, rfl, rfl⟩
    exact Txn.call_ok.mpr ⟨Option.map_eq_none_iff.mpr hfault, rfl, rfl⟩

theorem query_ok_iff {α : Type} {f : Db → Except RepositoryError α} {n m : Nat} {a : α} :
    Tx.query f env n db = .ok (a, m, db') ↔
      env.fault n = none ∧ f db = .ok a ∧ n + 1 = m ∧ db = db' := by
  unfold Tx.query Tx.statement
  rw [Txn.call_ok, Option.map_eq_none_iff, except_mapError_ok]
  constructor
  · rintro ⟨hfault, hmade, hm⟩
    obtain ⟨b, hf, hpair⟩ := except_map_ok.mp hmade
    cases hpair
    exact ⟨hfault, hf, hm, rfl⟩
  · rintro ⟨hfault, hf, hm, rfl⟩
    exact ⟨hfault, except_map_ok.mpr ⟨a, hf, rfl⟩, hm⟩

theorem findItem_ok_iff {id : Uuid} {n m : Nat} :
    service.findItem id env n db = .ok (item, m, db') ↔
      env.fault n = none ∧ Repository.find service.ownerId id db = .ok (some item) ∧
        n + 1 = m ∧ db = db' := by
  unfold RemindiService.findItem
  rw [Txn.bind_ok]
  constructor
  · rintro ⟨found, k, u, hquery, h⟩
    obtain ⟨hfault, hfind, rfl, rfl⟩ := query_ok_iff.mp hquery
    cases found with
    | none => exact absurd h Txn.throw_ok
    | some row =>
      obtain ⟨rfl, hm, hdb⟩ := Txn.pure_ok.mp h
      exact ⟨hfault, hfind, hm, hdb⟩
  · rintro ⟨hfault, hfind, hm, hdb⟩
    exact ⟨some item, m, db', query_ok_iff.mpr ⟨hfault, hfind, hm, hdb⟩, rfl⟩

theorem transact_of_newer (hid : item.id = prior.id) (h : FindsNewer service prior env db) :
    transact service actor prior item result context detail env 0 db = .ok (none, 3, db) := by
  obtain ⟨hbegin, hquery, hcommit, current, hfind, hversion⟩ := h
  have hfound : service.findItem item.id env 1 db = .ok (current, 2, db) :=
    findItem_ok_iff.mpr ⟨hquery, hid ▸ hfind, rfl, rfl⟩
  have hbegun : Tx.database env 0 db = .ok ((), 1, db) := database_ok_iff.mpr ⟨hbegin, rfl, rfl⟩
  have hcommitted : Tx.database env 2 db = .ok ((), 3, db) :=
    database_ok_iff.mpr ⟨hcommit, rfl, rfl⟩
  unfold transact RemindiService.persistEvaluated
  rw [Txn.bind_of_ok hbegun, Txn.bind_assoc, Txn.bind_of_ok hfound, if_pos hversion]
  show (Tx.database >>= fun _ => pure none) env 2 db = _
  rw [Txn.bind_of_ok hcommitted]
  rfl

/-- A transaction that commits has stored the evaluation, or found a newer row. -/
theorem transact_ok {checked : Option CheckedItem} {m : Nat} (hid : item.id = prior.id)
    (howner : item.ownerId = service.ownerId)
    (h : transact service actor prior item result context detail env 0 db = .ok (checked, m, db')) :
    db' = db ∧ FindsNewer service prior env db ∨
      (¬ FindsNewer service prior env db) ∧
        ∃ old, Persisted service.externals db db' prior old item result.events := by
  unfold transact at h
  obtain ⟨_, _, _, hbegin, h⟩ := Txn.bind_ok.mp h
  obtain ⟨hbegun, rfl, rfl⟩ := database_ok_iff.mp hbegin
  obtain ⟨evaluated, k, _, hpersist, h⟩ := Txn.bind_ok.mp h
  obtain ⟨_, _, _, hcommit, h⟩ := Txn.bind_ok.mp h
  obtain ⟨hcommitted, -, rfl⟩ := database_ok_iff.mp hcommit
  obtain ⟨-, -, rfl⟩ := Txn.pure_ok.mp h
  have hstored := persistEvaluated_result hpersist
  unfold RemindiService.persistEvaluated at hpersist
  obtain ⟨current, _, _, hfound, hpersist⟩ := Txn.bind_ok.mp hpersist
  obtain ⟨hqueried, hfind, rfl, rfl⟩ := findItem_ok_iff.mp hfound
  by_cases hversion : current.version ≠ prior.version
  · rw [if_pos hversion] at hpersist
    obtain ⟨-, rfl, rfl⟩ := Txn.pure_ok.mp hpersist
    exact Or.inl ⟨rfl, hbegun, hqueried, hcommitted, current, hid ▸ hfind, hversion⟩
  · refine Or.inr ⟨?_, ?_⟩
    · rintro ⟨-, -, -, newer, hnewer, hmoved⟩
      rw [hid, hnewer] at hfind
      exact hversion (Option.some.inj (Except.ok.inj hfind) ▸ hmoved)
    · rcases hstored with ⟨-, -, hmissed⟩ | ⟨-, hpersisted⟩
      · obtain ⟨hrow, hcurrent⟩ := Repository.find_ok hfind
        rcases hmissed current hrow with hother | hother
        · exact absurd (hcurrent.trans howner.symm) hother
        · exact absurd hother hversion
      · exact hpersisted

theorem transact_cases (hid : item.id = prior.id) (howner : item.ownerId = service.ownerId) :
    Transacted service prior item result.events env db
      ((transact service actor prior item result context detail env 0 db).map (·.2.2)) := by
  cases hmade : transact service actor prior item result context detail env 0 db with
  | error e =>
    rcases transact_error hid hmade with hother | ⟨rfl, hnone⟩
    · refine .broken hother fun hnewer => ?_
      rw [transact_of_newer hid hnewer] at hmade
      cases hmade
    · exact .gone hnone
  | ok done =>
    obtain ⟨checked, m, db'⟩ := done
    rcases transact_ok hid howner hmade with ⟨rfl, hnewer⟩ | ⟨hunmoved, old, hpersisted⟩
    · exact .overtaken hnewer
    · exact .committed hpersisted hunmoved

variable {adapters : RemindiService.AdapterProvider}

theorem apply_refused {e : ServiceError} (h : evaluationOf prior now adapters = .error e) :
    (service.applySchedulerEvaluation actor prior now adapters).run env db = (.error e, db) := by
  unfold Txn.run
  have herror : service.applySchedulerEvaluation actor prior now adapters env 0 db = .error e := by
    unfold RemindiService.applySchedulerEvaluation RemindiService.evaluateOne
    refine Txn.bind_of_error (Txn.bind_of_error ?_)
    show Txn.ofExcept (evaluationOf prior now adapters) env 0 db = _
    rw [h]
    rfl
  rw [herror]

theorem apply_nothing (h : evaluationOf prior now adapters = .ok (item, result))
    (hevents : result.events = []) :
    (service.applySchedulerEvaluation actor prior now adapters).run env db = (.ok (), db) := by
  refine Txn.run_ok.mpr ⟨0, ?_⟩
  unfold RemindiService.applySchedulerEvaluation RemindiService.evaluateOne
  have hevaluated : Txn.ofExcept (evaluationOf prior now adapters) env 0 db =
      .ok ((item, result), 0, db) := Txn.ofExcept_ok.mpr ⟨h, rfl, rfl⟩
  refine Txn.bind_ok.mpr ⟨result.readiness.map fun readiness => ⟨prior, readiness⟩, 0, db, ?_, rfl⟩
  refine Txn.bind_ok.mpr ⟨(item, result), 0, db, hevaluated, ?_⟩
  dsimp only
  rw [hevents]
  rfl

/-- With something to write, the transaction decides. -/
theorem apply_writes (h : evaluationOf prior now adapters = .ok (item, result))
    (hevents : result.events ≠ []) :
    (service.applySchedulerEvaluation actor prior now adapters).run env db =
      match (transact service actor prior item result RemindiService.schedulerContext
        ((RemindiService.evaluateCondition adapters prior).map (·.summary)) env 0 db).map (·.2.2) with
      | .ok db' => (.ok (), db')
      | .error e => (.error e, db) := by
  have hone : service.evaluateOne actor prior now RemindiService.schedulerContext
      (conditionOf (RemindiService.evaluateCondition adapters prior))
      ((RemindiService.evaluateCondition adapters prior).map (·.summary)) env 0 db =
        transact service actor prior item result RemindiService.schedulerContext
          ((RemindiService.evaluateCondition adapters prior).map (·.summary)) env 0 db := by
    unfold RemindiService.evaluateOne
    have hevaluated : Txn.ofExcept (evaluationOf prior now adapters) env 0 db =
        .ok ((item, result), 0, db) := Txn.ofExcept_ok.mpr ⟨h, rfl, rfl⟩
    refine (Txn.bind_of_ok hevaluated).trans ?_
    dsimp only
    rw [List.isEmpty_eq_false_iff.mpr hevents]
    rfl
  cases hmade : transact service actor prior item result RemindiService.schedulerContext
      ((RemindiService.evaluateCondition adapters prior).map (·.summary)) env 0 db with
  | error e =>
    rw [hmade] at hone
    have herror : service.applySchedulerEvaluation actor prior now adapters env 0 db = .error e :=
      Txn.bind_of_error hone
    unfold Txn.run
    rw [herror]
    rfl
  | ok done =>
    obtain ⟨checked, m, db'⟩ := done
    rw [hmade] at hone
    exact Txn.run_ok.mpr ⟨m, Txn.bind_ok.mpr ⟨checked, m, db', hone, rfl⟩⟩

theorem evaluationOf_error {e : ServiceError} (h : evaluationOf prior now adapters = .error e) :
    Other e := by
  unfold evaluationOf RemindiService.evaluateCandidate at h
  dsimp only at h
  cases hevaluate : prior.evaluate now RemindiService.schedulerContext
      (conditionOf (RemindiService.evaluateCondition adapters prior)) with
  | error error =>
    rw [hevaluate] at h
    obtain rfl := Except.error.inj h
    exact other_domain error
  | ok done =>
    rw [hevaluate] at h
    simp only [domain, Except.mapError, bind, Except.bind] at h
    split at h <;> cases h

theorem evaluationOf_same (h : evaluationOf prior now adapters = .ok (item, result))
    (hevents : result.events ≠ []) : item.id = prior.id ∧ item.ownerId = prior.ownerId :=
  ⟨(evaluateCandidate_ok hevents h).sameSchedule.id,
    (evaluateCandidate_ok hevents h).sameSchedule.ownerId⟩

theorem apply_transacted (howner : prior.ownerId = service.ownerId)
    (h : evaluationOf prior now adapters = .ok (item, result)) (hevents : result.events ≠ []) :
    ∃ made, Transacted service prior item result.events env db made ∧
      (service.applySchedulerEvaluation actor prior now adapters).run env db =
        match made with
        | .ok db' => (.ok (), db')
        | .error e => (.error e, db) := by
  obtain ⟨hid, hsame⟩ := evaluationOf_same h hevents
  exact ⟨_, transact_cases hid (hsame.trans howner), apply_writes h hevents⟩

end

/-! ## The counters -/

section

variable {s : Scheduler} {env : PollEnv} {a : Application} {n : Nat} {candidate : Remindi} {db : Db}

theorem Application.not_committed (h : a.after = a.before) : ¬ a.Committed s env := by
  rintro ⟨item, result, old, -, hevents, hpersisted⟩
  obtain ⟨new, hrows, hnew⟩ := hpersisted.events
  rw [h, List.self_eq_append_right] at hrows
  exact hevents (by rw [← hnew.types, hrows]; rfl)

theorem Application.Writes.not_nothing (h : a.Writes env) : ¬ a.NothingToWrite env := by
  obtain ⟨item, result, hevaluated, hevents⟩ := h
  rintro ⟨_, _, hagain, hnothing⟩
  cases hevaluated.symm.trans hagain
  exact hevents hnothing

/-- How the transaction of an evaluation ends, and what has become of it. -/
inductive Application.Ends (a : Application) (s : Scheduler) (env : PollEnv) : Prop
  /-- stored, or nothing to store -/
  | applied (result : a.result = .ok ()) (done : a.Committed s env ∨ a.NothingToWrite env)
    (unmoved : ¬ a.LosesRace s env) (kept : ¬ a.Overtaken s env)
  /-- the row has another version: it comes back as `Ok` -/
  | newer (result : a.result = .ok ()) (undone : ¬ (a.Committed s env ∨ a.NothingToWrite env))
    (newer : a.LosesRace s env) (overtaken : a.Overtaken s env)
  /-- the row is gone -/
  | gone (result : a.result = .error .notFound)
    (undone : ¬ (a.Committed s env ∨ a.NothingToWrite env))
    (unmoved : ¬ a.LosesRace s env) (overtaken : a.Overtaken s env)
  | failed (failed : a.Failed) (undone : ¬ (a.Committed s env ∨ a.NothingToWrite env))
    (unmoved : ¬ a.LosesRace s env) (kept : ¬ a.Overtaken s env)

theorem applyTo_ends (howner : candidate.ownerId = s.service.ownerId) :
    (s.applyTo env (env.read.clock 0) n candidate db).Ends s env := by
  have hmade : ∀ result after, (s.service.applySchedulerEvaluation s.actor candidate
      (env.read.clock 0) (env.provider n)).run (env.apply n) db = (result, after) →
      s.applyTo env (env.read.clock 0) n candidate db = ⟨n, candidate, db, result, after⟩ := by
    intro result after hrun
    unfold Scheduler.applyTo
    rw [hrun]
  cases hev : evaluationOf candidate (env.read.clock 0) (env.provider n) with
  | error e =>
    rw [hmade _ _ (apply_refused hev)]
    have hrefused : ∀ item result, (⟨n, candidate, db, .error e, db⟩ : Application).evaluation env ≠
        .ok (item, result) := by
      intro item result hok
      cases hev.symm.trans hok
    refine .failed ⟨e, rfl, evaluationOf_error hev⟩ ?_ ?_ ?_
    · rintro (⟨item, result, _, hok, -⟩ | ⟨item, result, hok, -⟩)
      · exact hrefused item result hok
      · exact hrefused item result hok
    · rintro ⟨⟨item, result, hok, -⟩, -⟩
      exact hrefused item result hok
    · rintro ⟨⟨item, result, hok, -⟩, -⟩
      exact hrefused item result hok
  | ok evaluated =>
    obtain ⟨item, result⟩ := evaluated
    by_cases hevents : result.events = []
    · rw [hmade _ _ (apply_nothing hev hevents)]
      have hnothing : (⟨n, candidate, db, .ok (), db⟩ : Application).NothingToWrite env :=
        ⟨item, result, hev, hevents⟩
      refine .applied rfl (Or.inr hnothing) ?_ ?_
      · intro hloses
        exact hloses.writes.not_nothing hnothing
      · intro hovertaken
        exact hovertaken.writes.not_nothing hnothing
    · obtain ⟨made, htransacted, hrun⟩ := apply_transacted howner hev hevents
      have hwrites : ∀ result' after, (⟨n, candidate, db, result', after⟩ : Application).Writes env :=
        fun _ _ => ⟨item, result, hev, hevents⟩
      have hundone : ∀ result', ¬ ((⟨n, candidate, db, result', db⟩ : Application).Committed s env ∨
          (⟨n, candidate, db, result', db⟩ : Application).NothingToWrite env) := by
        rintro result' (hcommitted | hnothing)
        · exact Application.not_committed rfl hcommitted
        · exact (hwrites _ _).not_nothing hnothing
      cases htransacted with
      | @broken e other unmoved =>
        rw [hmade _ _ hrun]
        refine .failed ⟨e, rfl, other⟩ (hundone _) (fun h => unmoved h.newer) fun h => ?_
        exact h.unfailed ⟨e, rfl, other⟩
      | gone none =>
        rw [hmade _ _ hrun]
        refine .gone rfl (hundone _) ?_ ⟨hwrites _ _, ?_, rfl, ?_⟩
        · rintro ⟨-, -, -, -, current, hfind, -⟩
          cases none.symm.trans hfind
        · intro row hrow hown
          unfold Repository.find at none
          rw [show db.remindi.find? candidate.id = some row from hrow] at none
          dsimp only at none
          rw [if_pos hown] at none
          obtain ⟨_, -, h⟩ := except_map_ok.mp none
          cases h
        · rintro ⟨e, he, hother⟩
          cases he
          exact hother.1 rfl
      | overtaken newer =>
        rw [hmade _ _ hrun]
        refine .newer rfl (hundone _) ⟨hwrites _ _, newer⟩ ⟨hwrites _ _, ?_, rfl, ?_⟩
        · intro row hrow _
          obtain ⟨current, hfind, hversion⟩ := newer.newer
          obtain rfl := Option.some.inj (hrow.symm.trans (Repository.find_ok hfind).1)
          exact hversion
        · rintro ⟨e, he, -⟩
          cases he
      | @committed db' old persisted unmoved =>
        rw [hmade _ _ hrun]
        have hcommitted : (⟨n, candidate, db, .ok (), db'⟩ : Application).Committed s env :=
          ⟨item, result, old, hev, hevents, persisted⟩
        refine .applied rfl (Or.inl hcommitted) (fun h => unmoved h.newer) fun h => ?_
        exact Application.not_committed h.unwritten hcommitted

open Classical in
/-- How many of them have the property. -/
noncomputable def howMany (P : Application → Prop) (applications : List Application) : Nat :=
  applications.countP fun a => decide (P a)

section

variable {P : Application → Prop} {l : List Application}

theorem howMany_cons_pos (h : P a) : howMany P (a :: l) = howMany P l + 1 := by
  unfold howMany
  rw [List.countP_cons_of_pos]
  simpa using h

theorem howMany_cons_neg (h : ¬ P a) : howMany P (a :: l) = howMany P l := by
  unfold howMany
  rw [List.countP_cons_of_neg]
  simpa using h

theorem howMany_eq_zero : howMany P l = 0 ↔ ∀ a ∈ l, ¬ P a := by
  unfold howMany
  rw [List.countP_eq_zero]
  simp only [decide_eq_true_eq]

end

/-- What the counters have gained from these transactions. -/
structure Gained (s : Scheduler) (env : PollEnv) (candidates : List Remindi)
    (applications : List Application) (report report' : PollReport) : Prop where
  each : applications.map (·.candidate) = candidates
  selected : report'.selected = report.selected
  applied : report'.applied = report.applied +
    howMany (fun a => a.Committed s env ∨ a.NothingToWrite env) applications +
      howMany (fun a => a.LosesRace s env) applications
  conflicts : report'.conflicts + howMany (fun a => a.LosesRace s env) applications =
    report.conflicts + howMany (fun a => a.Overtaken s env) applications
  failures : report'.failures = report.failures + howMany Application.Failed applications
  total : report'.applied + report'.conflicts + report'.failures =
    report.applied + report.conflicts + report.failures + candidates.length

theorem count_failed {report : PollReport} {e : ServiceError} (h : Other e) :
    report.count (.error e) = { report with failures := report.failures + 1 } := by
  unfold PollReport.count
  split
  · next h' => cases h'
  · next version h' =>
    cases h'
    exact absurd rfl (h.2 version)
  · next h' =>
    cases h'
    exact absurd rfl h.1
  · rfl

/-- One transaction more. -/
theorem Gained.cons {candidates : List Remindi} {applications : List Application}
    {report report' : PollReport} (hends : a.Ends s env)
    (h : Gained s env candidates applications (report.count a.result) report') :
    Gained s env (a.candidate :: candidates) (a :: applications) report report' := by
  obtain ⟨heach, hselected, happlied, hconflicts, hfailures, htotal⟩ := h
  have hunfailed : ∀ result, a.result = result → (∀ e, result = .error e → ¬ Other e) →
      ¬ a.Failed := by
    rintro result hresult hnot ⟨e, he, hother⟩
    exact hnot e (hresult.symm.trans he) hother
  have hlist : (a :: applications).map (·.candidate) = a.candidate :: candidates := by
    rw [List.map_cons, heach]
  cases hends with
  | applied result done unmoved kept =>
    have hfailed := hunfailed _ result fun e he => by cases he
    rw [result] at hselected happlied hconflicts hfailures htotal
    dsimp only [PollReport.count] at hselected happlied hconflicts hfailures htotal
    refine ⟨hlist, hselected, ?_, ?_, ?_, ?_⟩
    · rw [howMany_cons_pos done, howMany_cons_neg unmoved]
      omega
    · rw [howMany_cons_neg unmoved, howMany_cons_neg kept]
      exact hconflicts
    · rw [howMany_cons_neg hfailed]
      exact hfailures
    · rw [List.length_cons]
      omega
  | newer result undone newer overtaken =>
    have hfailed := hunfailed _ result fun e he => by cases he
    rw [result] at hselected happlied hconflicts hfailures htotal
    dsimp only [PollReport.count] at hselected happlied hconflicts hfailures htotal
    refine ⟨hlist, hselected, ?_, ?_, ?_, ?_⟩
    · rw [howMany_cons_neg undone, howMany_cons_pos newer]
      omega
    · rw [howMany_cons_pos newer, howMany_cons_pos overtaken]
      omega
    · rw [howMany_cons_neg hfailed]
      exact hfailures
    · rw [List.length_cons]
      omega
  | gone result undone unmoved overtaken =>
    have hfailed := hunfailed _ result fun e he hother => by
      cases he
      exact hother.1 rfl
    rw [result] at hselected happlied hconflicts hfailures htotal
    dsimp only [PollReport.count] at hselected happlied hconflicts hfailures htotal
    refine ⟨hlist, hselected, ?_, ?_, ?_, ?_⟩
    · rw [howMany_cons_neg undone, howMany_cons_neg unmoved]
      exact happlied
    · rw [howMany_cons_neg unmoved, howMany_cons_pos overtaken]
      omega
    · rw [howMany_cons_neg hfailed]
      exact hfailures
    · rw [List.length_cons]
      omega
  | failed failed undone unmoved kept =>
    have hresult := failed
    obtain ⟨e, he, hother⟩ := hresult
    rw [he, count_failed hother] at hselected happlied hconflicts hfailures htotal
    dsimp only at hselected happlied hconflicts hfailures htotal
    refine ⟨hlist, hselected, ?_, ?_, ?_, ?_⟩
    · rw [howMany_cons_neg undone, howMany_cons_neg unmoved]
      exact happlied
    · rw [howMany_cons_neg unmoved, howMany_cons_neg kept]
      exact hconflicts
    · rw [howMany_cons_pos failed]
      omega
    · rw [List.length_cons]
      omega

theorem applyAllAmong_gained {tables : Nat → Db → Db} {candidates : List Remindi}
    {report report' : PollReport} {db' : Db} {applications : List Application}
    (howned : ∀ c ∈ candidates, c.ownerId = s.service.ownerId)
    (h : s.applyAllAmong env tables (env.read.clock 0) n candidates report db =
      (report', db', applications)) :
    Gained s env candidates applications report report' := by
  induction candidates generalizing n report db db' report' applications with
  | nil =>
    cases h
    exact ⟨rfl, rfl, rfl, rfl, rfl, rfl⟩
  | cons candidate rest ih =>
    obtain ⟨howner, howned⟩ := List.forall_mem_cons.mp howned
    simp only [Scheduler.applyAllAmong] at h
    cases h
    exact Gained.cons (applyTo_ends howner) (ih howned rfl)

end

/-! ## The report -/

section

variable {s : Scheduler} {env : PollEnv}

/-- The report tells what happened. -/
structure Truthful (s : Scheduler) (env : PollEnv) (trace : PollTrace) (report : PollReport) :
    Prop where
  each : trace.applications = [] ∧ env.cancelled = true ∨
    trace.applications.map (·.candidate) = trace.candidates
  selected : report.selected = trace.candidates.length
  total : report.selected = report.applied + report.conflicts + report.failures
  applied : report.applied =
    howMany (fun a => a.Committed s env ∨ a.NothingToWrite env) trace.applications
  conflicts : report.conflicts = howMany (fun a => a.Overtaken s env) trace.applications
  failures : report.failures = howMany Application.Failed trace.applications +
    (trace.candidates.length - trace.applications.length)

/-- A poll was cancelled before its first evaluation, or has applied all of them. -/
def Tallies (s : Scheduler) (env : PollEnv) (trace : PollTrace) (report : PollReport) : Prop :=
  env.cancelled = true ∧ trace.applications = [] ∧
      report = ⟨trace.candidates.length, 0, 0, trace.candidates.length⟩ ∨
    Gained s env trace.candidates trace.applications ⟨trace.candidates.length, 0, 0, 0⟩ report

theorem pollRenewedAmong_tallies {others : Others} {guard : LeaseGuard} {row : Option LeaseRow}
    {db : Db} {report : PollReport}
    (h : (s.pollRenewedAmong env others guard row db).outcome.result = .ok report) :
    Tallies s env (s.pollRenewedAmong env others guard row db) report := by
  unfold Scheduler.pollRenewedAmong at h ⊢
  cases hread : (s.service.schedulerCandidates s.config.candidateBatchSize).run env.read db with
  | mk result db' =>
    rw [hread] at h
    cases result with
    | error e => cases h
    | ok pair =>
      obtain ⟨now, candidates⟩ := pair
      have hrows : ((s.service.schedulerCandidates s.config.candidateBatchSize).run
          env.read db).1 = .ok (now, candidates) := by rw [hread]
      obtain rfl : now = env.read.clock 0 := schedulerCandidates_clock hrows
      have howned : ∀ c ∈ candidates, c.ownerId = s.service.ownerId := by
        intro c hc
        rw [schedulerCandidates_rows hrows] at hc
        exact (mem_selectedItems.mp (List.mem_of_mem_take hc)).2.1
      dsimp only at h ⊢
      by_cases hcancelled : env.cancelled = true
      · rw [if_pos hcancelled] at h ⊢
        cases h
        exact Or.inl ⟨hcancelled, rfl, rfl⟩
      · rw [if_neg hcancelled] at h ⊢
        cases hrenew : s.renewLease (env.leaseFault 1) guard ((env.read.clock 0).addNanos
            (Workers.finish s.config.adapterConcurrency (env.latencies candidates) +
              env.elsewhere : Nat)) (others.lease row) with
        | error e =>
          rw [hrenew] at h
          cases h
        | ok renewed =>
          rw [hrenew] at h
          cases h
          exact Or.inr (applyAllAmong_gained howned rfl)

theorem pollOnceAmong_tallies {others : Others} {guard : LeaseGuard} {row : Option LeaseRow}
    {db : Db} {report : PollReport}
    (h : (s.pollOnceAmong env others guard row db).outcome.result = .ok report) :
    Tallies s env (s.pollOnceAmong env others guard row db) report := by
  unfold Scheduler.pollOnceAmong at h ⊢
  dsimp only at h ⊢
  by_cases hdue : guard.renewalDue (env.read.clock 0) = true
  · rw [if_pos hdue] at h ⊢
    cases hrenew : s.renewLease (env.leaseFault 0) guard (env.read.clock 0) row with
    | error e =>
      rw [hrenew] at h
      cases h
    | ok renewed =>
      rw [hrenew] at h
      exact pollRenewedAmong_tallies h
  · rw [if_neg hdue] at h ⊢
    exact pollRenewedAmong_tallies h

theorem Tallies.truthful_iff {trace : PollTrace} {report : PollReport}
    (h : Tallies s env trace report) :
    Truthful s env trace report ↔ ∀ a ∈ trace.applications, ¬ a.LosesRace s env := by
  rcases h with ⟨hcancelled, hnone, rfl⟩ | hgained
  · refine iff_of_true ?_ ?_
    · refine ⟨Or.inl ⟨hnone, hcancelled⟩, rfl, (Nat.zero_add _).symm, ?_, ?_, ?_⟩ <;> rw [hnone]
      · rfl
      · rfl
      · exact (Nat.zero_add _).symm
    · rw [hnone]
      exact fun a ha => absurd ha List.not_mem_nil
  · obtain ⟨heach, hselected, happlied, hconflicts, hfailures, htotal⟩ := hgained
    have hlength := congrArg List.length heach
    rw [List.length_map] at hlength
    dsimp only at hselected happlied hconflicts hfailures htotal
    rw [← howMany_eq_zero]
    constructor
    · rintro ⟨-, -, -, happlied', -, -⟩
      omega
    · intro hzero
      refine ⟨Or.inr heach, hselected, ?_, ?_, ?_, ?_⟩ <;> omega

/-- **The report of a poll tells what happened exactly when no evaluation with
something to write finds its row at another version** in a transaction whose
calls succeed: that one is counted as applied. -/
theorem poll_report_truthful_iff {others : Others} {guard : LeaseGuard} {row : Option LeaseRow}
    {db : Db} {report : PollReport}
    (h : (s.pollOnceAmong env others guard row db).outcome.result = .ok report) :
    Truthful s env (s.pollOnceAmong env others guard row db) report ↔
      ∀ a ∈ (s.pollOnceAmong env others guard row db).applications, ¬ a.LosesRace s env :=
  (pollOnceAmong_tallies h).truthful_iff

end

namespace Sample

/-- The item that waits, as the poll reads it. -/
def waitingRow : Remindi where
  id := uuid 0
  ownerId := "owner"
  projectId := "project"
  taskId := none
  message := "message"
  instructions := none
  state := .scheduled
  priority := .normal
  trigger := .condition "probe" (.ofMap []) none none
  recurrence := none
  nextFireAt := none
  nextEvaluationAt := some (second 1030)
  originalNextFireAt := none
  dueSince := none
  snoozeUntil := none
  snoozedFromState := none
  overdueAfterSeconds := 600
  occurrenceNo := 1
  sourceSessionId := none
  sourceTaskLineageId := none
  lastCheckedAt := none
  lastConditionStatus := none
  lastConditionDetail := none
  snoozeCount := 0
  version := 1
  createdAt := second 1000
  updatedAt := second 1000
  completedAt := none
  cancelledAt := none

def promptPoll (tables : Nat → Db → Db) : PollTrace :=
  (schedulerOf false).pollOnceAmong promptEnv { tables := tables, lease := fun row => row } granted
    (some grantedRow) waiting

/-- Its one evaluation. -/
theorem promptPoll_applications (tables : Nat → Db → Db) : (promptPoll tables).applications =
    [(schedulerOf false).applyTo promptEnv (second 1030) 0 waitingRow (tables 0 waiting)] := by
  have hread : ((schedulerOf false).service.schedulerCandidates
      (schedulerOf false).config.candidateBatchSize).run promptEnv.read waiting =
        (.ok (second 1030, [waitingRow]), waiting) := rfl
  have hrenew : ∃ renewed, (schedulerOf false).renewLease none granted
      ((second 1030).addNanos ((0 : Nat) : Int)) (some grantedRow) = .ok renewed := ⟨_, rfl⟩
  obtain ⟨renewed, hrenew⟩ := hrenew
  unfold promptPoll Scheduler.pollOnceAmong
  dsimp only
  rw [if_neg (by decide +kernel)]
  unfold Scheduler.pollRenewedAmong
  rw [hread]
  dsimp only
  rw [if_neg (by decide)]
  rw [show (Workers.finish (schedulerOf false).config.adapterConcurrency
    (promptEnv.latencies [waitingRow]) + promptEnv.elsewhere : Nat) = 0 by decide]
  rw [show promptEnv.leaseFault 1 = none from rfl, hrenew]
  rfl

/-- Somebody cancels the waiting item before its evaluation is applied. -/
def cancelling (db : Db) : Db :=
  ((schedulerOf false).service.cancel agent
    { remindiId := uuid 0
      expectedVersion := 1
      reason := "not needed"
      idempotencyKey := "cancel-0001" }).run (RemindiCore.Sample.env 1031 3) db |>.2

theorem cancelled_losesRace : ((schedulerOf false).applyTo promptEnv (second 1030) 0 waitingRow
    (cancelling waiting)).LosesRace (schedulerOf false) promptEnv := by
  refine ⟨⟨_, _, rfl, by decide +kernel⟩, rfl, rfl, rfl, ?_⟩
  have hversion : (Repository.find "owner" (uuid 0) (cancelling waiting)).map
      (fun found => found.map (·.version)) = .ok (some 2) := by decide +kernel
  obtain ⟨found, hfind, hfound⟩ := except_map_ok.mp hversion
  obtain ⟨current, rfl, htwo⟩ := Option.map_eq_some_iff.mp hfound
  refine ⟨current, hfind, ?_⟩
  rw [htwo]
  decide

end Sample

/-- The report of a poll that nobody disturbs. -/
theorem sample_report_truthful :
    (Sample.promptPoll fun _ db => db).outcome.result = .ok ⟨1, 1, 0, 0⟩ ∧
      (Truthful (Sample.schedulerOf false) Sample.promptEnv (Sample.promptPoll fun _ db => db)
          ⟨1, 1, 0, 0⟩ ↔
        ∀ a ∈ (Sample.promptPoll fun _ db => db).applications,
          ¬ a.LosesRace (Sample.schedulerOf false) Sample.promptEnv) := by
  have hresult : (Sample.promptPoll fun _ db => db).outcome.result = .ok ⟨1, 1, 0, 0⟩ := by
    decide +kernel
  exact ⟨hresult, poll_report_truthful_iff hresult⟩

/-- **An evaluation that has lost its race is reported as applied.** -/
theorem overtaken_counted_as_applied :
    ¬ ∀ (s : Scheduler) (env : PollEnv) (others : Others) (guard : LeaseGuard)
      (row : Option LeaseRow) (db : Db) (report : PollReport),
      (s.pollOnceAmong env others guard row db).outcome.result = .ok report →
        Truthful s env (s.pollOnceAmong env others guard row db) report := by
  intro h
  have hresult : (Sample.promptPoll fun _ => Sample.cancelling).outcome.result =
      .ok ⟨1, 1, 0, 0⟩ := by decide +kernel
  have hmem := Sample.promptPoll_applications fun _ => Sample.cancelling
  have hlost : ∀ a ∈ (Sample.promptPoll fun _ => Sample.cancelling).applications,
      ¬ a.LosesRace (Sample.schedulerOf false) Sample.promptEnv :=
    (pollOnceAmong_tallies hresult).truthful_iff.mp (h _ _ _ _ _ _ _ hresult)
  rw [hmem] at hlost
  exact hlost _ (List.mem_singleton_self _) Sample.cancelled_losesRace

end RemindiCore
