import Cppgres.Executor.SpiExecutor

/-!
# A statement as a string and as a plan

`query<Ret>` comes in two overloads that decide in two ways whether a statement produced
results. `Cppgres.SpiExecutor.query_alike_iff` says for which replies of SPI they behave alike.
-/
namespace Cppgres
open NonLocal

/-- What SPI reports for a statement. A call that it turns down leaves its globals alone. -/
def Session.reported (statement : Statement) (s : Session) : SpiReply :=
  if statement.tcount < 0 then .done spiErrorArgument s.spiTuptable s.spiProcessed
  else
    match s.spi with
    | [] => .done spiErrorUnconnected s.spiTuptable s.spiProcessed
    | _ :: _ => s.outcome s.executed statement

section Reported
variable {statement : Statement} {s : Session}

/-- What SPI returns and leaves behind is what the report says. -/
theorem Session.spiExecuteWithArgs_reported :
    match s.reported statement with
    | .raised edata => ∃ t, s.spiExecuteWithArgs statement = (.error (.error edata), t)
    | .done rc tuptable _ =>
      ∃ t, s.spiExecuteWithArgs statement = (.ok rc, t) ∧ t.spiTuptable = tuptable := by
  unfold reported spiExecuteWithArgs
  by_cases count : statement.tcount < 0
  · rw [if_pos count, if_pos count]
    exact ⟨_, rfl, rfl⟩
  · rw [if_neg count, if_neg count]
    cases s.spi with
    | nil => exact ⟨_, rfl, rfl⟩
    | cons connection outer =>
      dsimp only
      unfold execute
      cases s.outcome s.executed statement with
      | raised edata => exact ⟨_, rfl⟩
      | done rc tuptable processed => exact ⟨_, rfl, rfl⟩

theorem Session.spiExecuteWithArgs_raised {edata : ErrorData}
    (reply : s.reported statement = .raised edata) :
    ∃ t, s.spiExecuteWithArgs statement = (.error (.error edata), t) := by
  have goes := @spiExecuteWithArgs_reported statement s
  rwa [reply] at goes

theorem Session.spiExecuteWithArgs_done {rc : Int} {tuptable : Option SpiTupleTable}
    {processed : Nat} (reply : s.reported statement = .done rc tuptable processed) :
    ∃ t, s.spiExecuteWithArgs statement = (.ok rc, t) ∧ t.spiTuptable = tuptable := by
  have goes := @spiExecuteWithArgs_reported statement s
  rwa [reply] at goes

end Reported

/-- The two ways a query is to end: results over a table, or an exception. -/
inductive Answer where
  | results (table : SpiTupleTable)
  | thrown
  deriving DecidableEq, Repr

/-- An exit as an answer. A null pointer that is followed ends the process instead. -/
def answer : Exit CppException SigjmpBuf SpiTupleTable → Option Answer
  | .returned table => some (.results table)
  | .thrown _ => some .thrown
  | .jumped _ => none
  | .aborted => none

/-- Both return results over the same tuple table, or both throw. -/
def Alike (one two : Exit CppException SigjmpBuf SpiTupleTable) : Prop :=
  (∃ table, one = .returned table ∧ two = .returned table) ∨
    ∃ exception exception', one = .thrown exception ∧ two = .thrown exception'

theorem alike_iff {one two : Exit CppException SigjmpBuf SpiTupleTable} :
    Alike one two ↔ answer one = answer two ∧ answer one ≠ none := by
  unfold Alike
  cases one <;> cases two <;> simp [answer, eq_comm]

namespace SpiExecutor
variable {V : Type} {catalog : Catalog} {ret : Ret V} {this : SpiExecutor} {s : Machine Backend}

/-! ## The parts of both functions -/

/-- What is made of a table that was found good. -/
def resultsAnswer (catalog : Catalog) (ret : Ret V) : Option SpiTupleTable → Option Answer
  | none => none
  | some table =>
    match ret.checkColumns catalog table.tupdesc with
    | .error _ => some .thrown
    | .ok () => some (.results table)

/-- What is made of a reply, by the condition a function has. -/
def replyAnswer (accepts : Int → Option SpiTupleTable → Bool) (catalog : Catalog) (ret : Ret V) :
    SpiReply → Option Answer
  | .raised _ => some .thrown
  | .done rc tuptable _ =>
    if accepts rc tuptable then resultsAnswer catalog ret tuptable else some .thrown

theorem answer_results (table : Option SpiTupleTable) :
    answer (results catalog ret table s).1 = resultsAnswer catalog ret table := by
  cases table with
  | none => rfl
  | some table =>
    unfold results resultsAnswer
    dsimp only
    cases ret.checkColumns catalog table.tupdesc <;> rfl

theorem answer_conclude (accepts : Int → Option SpiTupleTable → Bool) (what : String) (rc : Int) :
    answer (conclude accepts catalog ret what rc s).1 =
      if accepts rc s.store.session.spiTuptable then
        resultsAnswer catalog ret s.store.session.spiTuptable
      else some .thrown := by
  unfold conclude
  rw [Code.get_bind]
  split
  · exact answer_results _
  · rfl

/-- A guarded call of SPI and what is concluded from it. -/
theorem answer_guarded {statement : Statement} {reply : SpiReply}
    (accepts : Int → Option SpiTupleTable → Bool) (what : String)
    (reported : s.store.session.reported statement = reply) :
    answer ((do
      let rc ← ffiGuard (postgres (·.spiExecuteWithArgs statement))
      conclude accepts catalog ret what rc) s).1 = replyAnswer accepts catalog ret reply := by
  cases reply with
  | raised edata =>
    obtain ⟨session, run⟩ := Session.spiExecuteWithArgs_raised reported
    obtain ⟨errorCxt, elog, called⟩ := ffiGuard_postgres_error (s := s) run
    have called : ffiGuard (postgres (·.spiExecuteWithArgs statement)) s = _ := called
    rw [Code.bind_thrown called]
    rfl
  | done rc tuptable processed =>
    obtain ⟨session, run, found⟩ := Session.spiExecuteWithArgs_done reported
    have called : ffiGuard (postgres (·.spiExecuteWithArgs statement)) s = _ :=
      ffiGuard_postgres_ok run
    rw [Code.bind_returned called, answer_conclude]
    subst found
    rfl

/-! ## The two functions -/

variable {pgMajorversionNum : Nat} {sql : String} {opts : Options} {args : List Outgoing}

/-- The plan that `plan<Args...>(query)` makes of a string, for the types of `args`. -/
def prepared (kept : Bool) (query : String) (args : List Outgoing) : SpiPlan where
  kept := kept
  plan := ⟨query, args.map Outgoing.typeFor⟩
  resets := 0

theorem plan_prepared {top : SpiExecutor} {below : List SpiExecutor} {connection : SpiConnection}
    {outer : List SpiConnection} (stack : s.store.executors = top :: below)
    (same : top.address = this.address) (connected : s.store.session.spi = connection :: outer)
    (works : s.store.session.spiFailure = none) :
    ∃ t, this.plan sql (args.map Outgoing.typeFor) s = (.returned (prepared false sql args), t) := by
  have run : s.store.session.spiPrepare sql (args.map Outgoing.typeFor) =
      (.ok (some ⟨sql, args.map Outgoing.typeFor⟩),
        { s.store.session.touch connection with
          spiFailures := s.store.session.spiFailures.tail
          currentMemoryContext := connection.procCxt }) := by
    unfold Session.spiPrepare
    rw [connected]
    dsimp only
    rw [works]
  have called : ffiGuard (postgres (·.spiPrepare sql (args.map Outgoing.typeFor))) s = _ :=
    ffiGuard_postgres_ok run
  unfold plan
  rw [Code.bind_returned (requireCurrent_current stack same), Code.bind_returned called]
  exact ⟨_, rfl⟩

/-- For an executor that is on top both go by the reply; for one that is not both throw. -/
theorem query_answer {top : SpiExecutor} {below : List SpiExecutor}
    (stack : s.store.executors = top :: below) :
    answer (query pgMajorversionNum catalog ret this sql opts args s).1 =
      if top.address = this.address then
        replyAnswer (accepted pgMajorversionNum) catalog ret
          (s.store.session.reported (statement sql opts args))
      else some .thrown := by
  unfold query
  by_cases same : top.address = this.address
  · rw [if_pos same, Code.bind_returned (requireCurrent_current stack same)]
    exact answer_guarded _ _ rfl
  · rw [if_neg same, Code.bind_thrown (requireCurrent_other stack same)]
    rfl

theorem queryPlan_answer {kept : Bool} {top : SpiExecutor} {below : List SpiExecutor}
    (stack : s.store.executors = top :: below) :
    answer (queryPlan catalog ret this (prepared kept sql args) opts args s).1 =
      if top.address = this.address then
        replyAnswer positive catalog ret (s.store.session.reported (statement sql opts args))
      else some .thrown := by
  unfold queryPlan
  by_cases same : top.address = this.address
  · rw [if_pos same, Code.bind_returned (requireCurrent_current stack same)]
    -- the plan's context is alive, so the guarded call is that of the same statement
    have reported : s.store.session.reported (statement sql opts args) = _ := rfl
    exact answer_guarded _ _ reported
  · rw [if_neg same, Code.bind_thrown (requireCurrent_other stack same)]
    rfl

theorem positive_of_accepted {rc : Int} {tuptable : Option SpiTupleTable}
    (accepts : accepted pgMajorversionNum rc tuptable = true) : positive rc tuptable = true := by
  unfold accepted spiOkSelect spiOkInsertReturning spiOkUpdateReturning spiOkDeleteReturning
    spiOkUtility spiOkMergeReturning at accepts
  unfold positive
  simp only [Bool.or_eq_true, Bool.and_eq_true, beq_iff_eq, decide_eq_true_eq] at accepts ⊢
  omega

/-- When a reply is treated alike: SPI failed, or there is a tuple table, and the other
overload takes its code too or neither takes its columns. -/
def Settled (pgMajorversionNum : Nat) (catalog : Catalog) (ret : Ret V) : SpiReply → Prop
  | .raised _ => True
  | .done rc tuptable _ =>
    rc ≤ 0 ∨ ∃ table, tuptable = some table ∧
      (accepted pgMajorversionNum rc tuptable = true ∨
        ∃ refusal, ret.checkColumns catalog table.tupdesc = .error refusal)

theorem replyAnswer_alike_iff {reply : SpiReply} :
    (replyAnswer (accepted pgMajorversionNum) catalog ret reply =
        replyAnswer positive catalog ret reply ∧
      replyAnswer (accepted pgMajorversionNum) catalog ret reply ≠ none) ↔
    Settled pgMajorversionNum catalog ret reply := by
  cases reply with
  | raised edata => simp [replyAnswer, Settled]
  | done rc tuptable processed =>
    unfold replyAnswer Settled
    dsimp only
    cases accepts : accepted pgMajorversionNum rc tuptable with
    | true =>
      have taken := positive_of_accepted accepts
      have ahead : 0 < rc := by simpa [positive] using taken
      rw [if_pos rfl, if_pos taken]
      cases tuptable with
      | none => simp [resultsAnswer, ahead]
      | some table =>
        unfold resultsAnswer
        dsimp only
        cases ret.checkColumns catalog table.tupdesc <;> simp
    | false =>
      rw [if_neg (by simp)]
      by_cases taken : positive rc tuptable = true
      · have ahead : 0 < rc := by simpa [positive] using taken
        rw [if_pos taken]
        cases tuptable with
        | none => simp [resultsAnswer, ahead]
        | some table =>
          unfold resultsAnswer
          dsimp only
          cases check : ret.checkColumns catalog table.tupdesc <;> simp [ahead, check]
      · have behind : rc ≤ 0 := by simpa [positive] using taken
        rw [if_neg taken]
        simp [behind]

/-- When a statement run as a string and through its plan behaves alike: another executor is
on top of the stack, or the reply of SPI is settled. -/
def RunsAlike (pgMajorversionNum : Nat) (catalog : Catalog) (ret : Ret V) (this : SpiExecutor)
    (statement : Statement) (b : Backend) : Prop :=
  ∃ top, b.executors.head? = some top ∧
    (top.address = this.address →
      Settled pgMajorversionNum catalog ret (b.session.reported statement))

theorem query_alike_iff (pgMajorversionNum : Nat) (catalog : Catalog) (ret : Ret V)
    (this : SpiExecutor) (kept : Bool) (sql : String) (opts : Options) (args : List Outgoing)
    (s : Machine Backend) :
    Alike (query pgMajorversionNum catalog ret this sql opts args s).1
        (queryPlan catalog ret this (prepared kept sql args) opts args s).1 ↔
      RunsAlike pgMajorversionNum catalog ret this (statement sql opts args) s.store := by
  rw [alike_iff]
  unfold RunsAlike
  cases stack : s.store.executors with
  | nil =>
    have run : query pgMajorversionNum catalog ret this sql opts args s = _ :=
      Code.bind_aborted (requireCurrent_nil stack)
    rw [run]
    simp [answer]
  | cons top below =>
    rw [query_answer stack, queryPlan_answer stack]
    by_cases same : top.address = this.address
    · rw [if_pos same, if_pos same, replyAnswer_alike_iff]
      simp [same]
    · rw [if_neg same, if_neg same]
      simp [same]

/-- An executor of a backend in which every statement is an `INSERT` without `RETURNING`:
`SPI_OK_INSERT`, and no tuple table. -/
def inserting : SpiExecutor × Machine Backend :=
  let this : SpiExecutor := ⟨0, 0, 1⟩
  (this, { idle with store := { idle.store with
    executors := [this]
    session := { idle.store.session with
      spi := [⟨1, 0, none, true⟩]
      outcome := fun _ _ => .done 7 none 1 } } })

/-- As a string it throws, through a plan a null pointer is followed. -/
theorem insert_crashes :
    let sql := "INSERT INTO t VALUES (1)"
    let string := (query 17 ⟨fun _ => none, fun _ => ""⟩ (.fields ([] : List (Element Nat)))
      inserting.1 sql ⟨false, 0⟩ [] inserting.2).1
    let plan := (queryPlan ⟨fun _ => none, fun _ => ""⟩ (.fields ([] : List (Element Nat)))
      inserting.1 (prepared false sql []) ⟨false, 0⟩ [] inserting.2).1
    string = .thrown (.std "spi error in `INSERT INTO t VALUES (1)`") ∧ plan = .aborted ∧
      ¬ Alike string plan := by
  refine ⟨rfl, rfl, ?_⟩
  rintro (⟨table, _, plan⟩ | ⟨_, _, _, plan⟩)
  · cases plan
  · cases plan

end SpiExecutor

end Cppgres
