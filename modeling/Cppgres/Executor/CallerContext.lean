import Cppgres.Executor.ConnectionSpecs

/-!
# The memory context of the caller

The constructor of an executor puts back the memory context that was current before
`SPI_connect`. `Cppgres.callerContext_kept_iff` says for which operations on the executor
it stays the current one.
-/
namespace Cppgres
open NonLocal

variable {V : Type}

/-- The operations that leave the transaction alone. The overload of `plan` that takes
`SPIPrepareOptions` is `plan` without types here: it differs in how the types are found. -/
inductive StatementOp (V : Type) where
  | query (ret : Ret V) (sql : String) (opts : Options) (args : List Outgoing)
  | queryPlan (ret : Ret V) (prepared : SpiPlan) (opts : Options) (args : List Outgoing)
  | plan (sql : String) (types : List Oid)
  | execute (sql : String) (opts : Options) (args : List Outgoing)

namespace StatementOp

def op : StatementOp V → ExecutorOp V
  | .query ret sql opts args => .query ret sql opts args
  | .queryPlan ret prepared opts args => .queryPlan ret prepared opts args
  | .plan sql types => .plan sql types
  | .execute sql opts args => .execute sql opts args

/-- SPI executes the statement and reports no error. A negative count of rows it turns down. -/
def executes (statement : Statement) (session : Session) : Bool :=
  decide (0 ≤ statement.tcount) &&
    match session.outcome session.executed statement with
    | .raised _ => false
    | .done _ _ _ => true

/-- The function of SPI that the operation calls is going to succeed. A plan whose memory is gone
is not given to SPI. -/
def succeeds (session : Session) : StatementOp V → Bool
  | .query _ sql opts args => executes (SpiExecutor.statement sql opts args) session
  | .queryPlan _ prepared opts args =>
    decide (prepared.resets = 0) && executes
      { SpiExecutor.statement prepared.plan.src opts args with argtypes := prepared.plan.argtypes }
      session
  | .plan _ _ => session.spiFailure.isNone
  | .execute sql opts args => executes (SpiExecutor.statement sql opts args) session

end StatementOp

/-- An operation that came back to the caller, with the backend before and after it. -/
structure OpStep (V : Type) where
  op : StatementOp V
  before : Backend
  after : Backend

section
variable (pgMajorversionNum : Nat) (catalog : Catalog) (this : SpiExecutor)

/-- The operations of a caller who takes each exception and goes on. -/
def steps : List (StatementOp V) → Machine Backend → List (OpStep V)
  | [], _ => []
  | op :: ops, s =>
    match Code.catching (op.op.run pgMajorversionNum catalog this) dropException s with
    | (.returned (), t) => ⟨op, s.store, t.store⟩ :: steps ops t
    | (.thrown _, _) => []
    | (.jumped _, _) => []
    | (.aborted, _) => []

end

/-- The caller allocates where it did before, which `SPI_finish` does not delete. -/
structure OpStep.Undisturbed (step : OpStep V) (callers : MemoryContext) (this : SpiExecutor) :
    Prop where
  current : step.after.session.currentMemoryContext = callers
  survives : step.after.session.currentMemoryContext ≠ this.spi

/-! ## Where a call leaves the current context -/

/-- A guarded function of Postgres that fails leaves the context as it was. -/
def Session.contextAfter {α : Type} (f : Session → Except Failure α × Session) (s : Session) :
    MemoryContext :=
  match f s with
  | (.ok _, t) => t.currentMemoryContext
  | (.error _, _) => s.currentMemoryContext

/-- The two stacks stay as they are, and the current context is this one. -/
structure Backend.MovesTo (context : MemoryContext) (before after : Backend) : Prop where
  executors : after.executors = before.executors
  spi : after.session.spi = before.session.spi
  current : after.session.currentMemoryContext = context

/-- Where the executor is: it is on top, over its own connection. -/
structure Backend.Innermost (this : SpiExecutor) (b : Backend) : Prop where
  executors : ∃ below, b.executors = this :: below
  spi : ∃ connection outer, b.session.spi = connection :: outer ∧ connection.procCxt = this.spi

theorem Backend.Innermost.moved {this : SpiExecutor} {b c : Backend} {context : MemoryContext}
    (innermost : b.Innermost this) (moves : b.MovesTo context c) : c.Innermost this where
  executors := moves.executors ▸ innermost.executors
  spi := moves.spi ▸ innermost.spi

section
variable {s : Machine Backend} {α : Type}

theorem ends_movesTo {f : Session → Except Failure α × Session}
    (spi : (f s.store.session).2.spi = s.store.session.spi) :
    (ffiGuard (postgres f)).Ends s
      (fun _ b => s.store.MovesTo (s.store.session.contextAfter f) b)
      fun _ b => s.store.MovesTo (s.store.session.contextAfter f) b := by
  apply ends_ffiGuard_postgres
  · intro value session elog run
    rw [run] at spi
    exact ⟨rfl, spi, by rw [Session.contextAfter, run]⟩
  · intro edata session exception elog run
    rw [run] at spi
    exact ⟨rfl, spi, by rw [Session.contextAfter, run]⟩

/-- Where an operation leaves the current context: a statement that succeeds, in the context of
the connection. -/
def StatementOp.context (op : StatementOp V) (this : SpiExecutor) (session : Session) :
    MemoryContext :=
  if op.succeeds session then this.spi else session.currentMemoryContext

variable {connection : SpiConnection} {outer : List SpiConnection}

theorem spi_executeWithArgs {statement : Statement}
    (connected : s.store.session.spi = connection :: outer) :
    (s.store.session.spiExecuteWithArgs statement).2.spi = s.store.session.spi := by
  by_cases count : statement.tcount < 0
  · unfold Session.spiExecuteWithArgs
    rw [if_pos count]
  · exact (Session.worked_executeWithArgs connected count).spi

theorem contextAfter_executeWithArgs {statement : Statement}
    (connected : s.store.session.spi = connection :: outer) :
    s.store.session.contextAfter (·.spiExecuteWithArgs statement) =
      if StatementOp.executes statement s.store.session then connection.procCxt
      else s.store.session.currentMemoryContext := by
  unfold StatementOp.executes
  by_cases count : statement.tcount < 0
  · have refused : s.store.session.spiExecuteWithArgs statement =
        (.ok spiErrorArgument, s.store.session) := if_pos count
    rw [Session.contextAfter, refused, decide_eq_false (Int.not_le.mpr count)]
    rfl
  · have called : s.store.session.spiExecuteWithArgs statement =
        s.store.session.execute connection statement := by
      unfold Session.spiExecuteWithArgs
      rw [if_neg count, connected]
    rw [Session.contextAfter, called, decide_eq_true (Int.not_lt.mp count)]
    unfold Session.execute
    cases s.store.session.outcome s.store.session.executed statement <;> rfl

theorem spi_prepare {src : String} {argtypes : List Oid}
    (connected : s.store.session.spi = connection :: outer) :
    (s.store.session.spiPrepare src argtypes).2.spi = s.store.session.spi :=
  (Session.worked_prepare connected).spi

theorem contextAfter_prepare {src : String} {argtypes : List Oid}
    (connected : s.store.session.spi = connection :: outer) :
    s.store.session.contextAfter (·.spiPrepare src argtypes) =
      if s.store.session.spiFailure.isNone then connection.procCxt
      else s.store.session.currentMemoryContext := by
  unfold Session.contextAfter
  beta_reduce
  unfold Session.spiPrepare
  rw [connected]
  dsimp only
  cases s.store.session.spiFailure <;> rfl

/-- A statement, and what is concluded from its return code. -/
theorem ends_concludedTo {accepts : Int → Option SpiTupleTable → Bool} {catalog : Catalog}
    {ret : Ret V} {what : String} {statement : Statement}
    (connected : s.store.session.spi = connection :: outer) :
    (do
      let rc ← ffiGuard (postgres (·.spiExecuteWithArgs statement))
      SpiExecutor.conclude accepts catalog ret what rc).Ends s
      (fun _ b => s.store.MovesTo
        (if StatementOp.executes statement s.store.session then connection.procCxt
          else s.store.session.currentMemoryContext) b)
      fun _ b => s.store.MovesTo
        (if StatementOp.executes statement s.store.session then connection.procCxt
          else s.store.session.currentMemoryContext) b := by
  rw [← contextAfter_executeWithArgs connected]
  refine .bind (ends_movesTo (spi_executeWithArgs connected)) ?_ fun _ _ moves => moves
  intro rc t _ moves
  exact SpiExecutor.ends_conclude.mono (fun _ _ same => same.2 ▸ moves) fun _ _ same => same ▸ moves

/-- The call for a plan whose memory is gone is not made. -/
theorem ends_goneTo {prepared : SpiPlan} {call : Cpp Int} (gone : prepared.resets > 0) :
    (ffiGuard (if prepared.resets > 0 then
        Code.throwing (.std "pointer belongs to a MemoryContext that has been reset or deleted")
      else call)).Ends s (fun _ _ => False)
      fun _ b => s.store.MovesTo s.store.session.currentMemoryContext b :=
  .congr (ffiGuard_congr (congrFun (if_pos gone) _))
    (.of_thrown (ffiGuard_thrown rfl) rfl ⟨rfl, rfl, rfl⟩)

namespace StatementOp
variable {pgMajorversionNum : Nat} {catalog : Catalog} {this : SpiExecutor}

/-- An operation on the innermost executor. -/
theorem ends_run (op : StatementOp V) (innermost : s.store.Innermost this) :
    (op.op.run pgMajorversionNum catalog this).Ends s
      (fun _ b => s.store.MovesTo (op.context this s.store.session) b)
      fun _ b => s.store.MovesTo (op.context this s.store.session) b := by
  obtain ⟨⟨below, stack⟩, connection, outer, connected, context⟩ := innermost
  have current := SpiExecutor.requireCurrent_current stack rfl
  unfold StatementOp.context
  rw [← context]
  cases op with
  | query ret sql opts args =>
    exact .ignore (.after current rfl (ends_concludedTo connected))
  | queryPlan ret prepared opts args =>
    refine .ignore (.after current rfl ?_)
    by_cases gone : prepared.resets > 0
    · have refused : succeeds s.store.session (.queryPlan ret prepared opts args) = false := by
        unfold succeeds
        simp [Nat.pos_iff_ne_zero.mp gone]
      rw [refused]
      exact .bind (ends_goneTo gone) (fun _ _ _ never => never.elim) fun _ _ moves => moves
    · have alive : succeeds s.store.session (.queryPlan ret prepared opts args) = executes
          { SpiExecutor.statement prepared.plan.src opts args with
            argtypes := prepared.plan.argtypes } s.store.session := by
        unfold succeeds
        simp [Nat.eq_zero_of_not_pos gone]
      rw [alive]
      exact .congr (SpiExecutor.queryPlan_alive gone) (ends_concludedTo connected)
  | plan sql types =>
    unfold succeeds
    rw [← contextAfter_prepare connected]
    refine .ignore (.after current rfl (.bind (ends_movesTo (spi_prepare connected)) ?_
      fun _ _ moves => moves))
    intro made t _ moves
    cases made with
    | none => exact .throwing moves
    | some plan => exact .pure moves
  | execute sql opts args =>
    unfold succeeds
    rw [← contextAfter_executeWithArgs connected]
    refine .ignore (.after current rfl (.bind (ends_movesTo (spi_executeWithArgs connected)) ?_
      fun _ _ moves => moves))
    intro rc t _ moves
    refine .get_bind ?_
    split
    · exact .pure moves
    · exact .throwing moves

theorem ends_dropMoves {context : MemoryContext} {b : Backend} (moves : b.MovesTo context s.store)
    (exception : CppException) :
    (dropException exception).Ends s (fun _ c => b.MovesTo context c) fun _ _ => False := by
  cases exception <;> exact .of_returned rfl rfl ⟨moves.executors, moves.spi, moves.current⟩

/-- Whatever becomes of the operation, the caller goes on from there. -/
theorem ends_taken (op : StatementOp V) (innermost : s.store.Innermost this) :
    (Code.catching (op.op.run pgMajorversionNum catalog this) dropException).Ends s
      (fun _ b => s.store.MovesTo (op.context this s.store.session) b) fun _ _ => False :=
  .catching (op.ends_run innermost) (fun _ _ moves => moves)
    fun exception _ _ moves => ends_dropMoves moves exception

end StatementOp

/-! ## Sequences of operations -/

variable {pgMajorversionNum : Nat} {catalog : Catalog} {this : SpiExecutor}

/-- The constructor puts the caller's context back. -/
theorem ends_connectRestores (nonatomicOpt : Bool) :
    (SpiExecutor.connect nonatomicOpt).Ends s
      (fun _ b => b.session.currentMemoryContext = s.store.session.currentMemoryContext)
      fun _ _ => True := by
  refine .get_bind (.after (Code.modify_apply _ _) rfl ?_)
  have called (t : Machine Backend) :
      (ffiGuard (postgres (·.spiConnectExt nonatomicOpt))).Ends t (fun _ _ => True)
        fun _ _ => True :=
    ends_ffiGuard_postgres (fun _ _ _ _ => trivial) fun _ _ _ _ _ => trivial
  refine .bind (called _) ?_ fun _ _ _ => trivial
  intro _ t _ _
  exact .get_bind (.after (modifySession_apply _ _) rfl (.after (Code.modify_apply _ _) rfl
    (.pure rfl)))

theorem ends_constructRestores (decl : ExecutorDecl) :
    (SpiExecutor.construct decl).Ends s
      (fun _ b => b.session.currentMemoryContext = s.store.session.currentMemoryContext)
      fun _ _ => True := by
  cases decl with
  | plain nonatomicOpt => exact ends_connectRestores nonatomicOpt
  | nonatomic =>
    refine .bind (ends_connectRestores true) ?_ fun _ _ _ => trivial
    intro this t _ current
    have left : (Code.leaving SpiExecutor.checkContext fun unwinding =>
        if unwinding then SpiExecutor.destroy this else pure ()).Ends t
          (fun _ b => b.session.currentMemoryContext = s.store.session.currentMemoryContext)
          fun _ _ => True := by
      refine .leaving SpiExecutor.ends_checkContext ?_ ?_
      · intro _ u _ same
        exact .pure (same ▸ current)
      · intro _ u _ _
        exact (SpiExecutor.ends_destroy this).mono (fun _ _ _ => trivial) fun _ _ never =>
          never.elim
    exact .bind left (fun _ _ _ here => .pure here) fun _ _ here => here

/-- After the constructor the executor is on top, and the context of its connection is new. -/
theorem ends_constructed (decl : ExecutorDecl) :
    (SpiExecutor.construct decl).Ends s
      (fun this b => b.Innermost this ∧ s.store.session.nextProcCxt ≤ this.spi ∧
        b.session.currentMemoryContext = s.store.session.currentMemoryContext)
      fun _ _ => True :=
  ((SpiExecutor.ends_construct decl).both (ends_constructRestores decl)).mono
    (fun _ _ ⟨opened, current⟩ =>
      have ⟨connection, spi, context⟩ := opened.spi
      ⟨⟨⟨_, opened.executors⟩, ⟨connection, _, spi, context⟩⟩, opened.context.1, current⟩)
    fun _ _ _ => trivial

/-- What the operations say of the context, from any state with the executor on top. -/
theorem steps_undisturbed_iff (ops : List (StatementOp V)) {callers : MemoryContext}
    (innermost : s.store.Innermost this)
    (current : s.store.session.currentMemoryContext = callers) (other : callers ≠ this.spi) :
    (∀ step ∈ steps pgMajorversionNum catalog this ops s, step.Undisturbed callers this) ↔
      ∀ step ∈ steps pgMajorversionNum catalog this ops s,
        step.op.succeeds step.before.session = false := by
  induction ops generalizing s with
  | nil => simp [steps]
  | cons op ops ih =>
    have ends : (Code.catching (op.op.run pgMajorversionNum catalog this) dropException).Ends s
        (fun _ b => s.store.MovesTo (op.context this s.store.session) b) fun _ _ => False :=
      op.ends_taken innermost
    unfold Code.Ends at ends
    unfold steps
    generalize Code.catching (op.op.run pgMajorversionNum catalog this) dropException s = run
      at ends ⊢
    obtain ⟨exit, t⟩ := run
    cases exit with
    | returned value =>
      have moves := ends.2
      simp only [List.forall_mem_cons]
      cases succeeded : op.succeeds s.store.session with
      | false =>
        have here : t.store.session.currentMemoryContext = callers := by
          rw [moves.current, StatementOp.context, succeeded, ← current]
          rfl
        rw [ih (innermost.moved moves) here]
        have undisturbed : OpStep.Undisturbed ⟨op, s.store, t.store⟩ callers this :=
          ⟨here, here ▸ other⟩
        simp only [undisturbed, true_and]
      | true =>
        have there : t.store.session.currentMemoryContext = this.spi := by
          rw [moves.current, StatementOp.context, succeeded]
          rfl
        have disturbed : ¬ OpStep.Undisturbed ⟨op, s.store, t.store⟩ callers this :=
          fun undisturbed => undisturbed.survives there
        simp [disturbed]
    | thrown exception => exact ends.2.elim
    | jumped buffer => exact ends.elim
    | aborted => simp

/-- The operations on an executor leave the caller's context current as long as none of them
succeeds. The context of a caller is older than that of a new connection. -/
theorem callerContext_kept_iff (pgMajorversionNum : Nat) (catalog : Catalog) (decl : ExecutorDecl)
    (this : SpiExecutor) (ops : List (StatementOp V)) (s t : Machine Backend)
    (constructed : SpiExecutor.construct decl s = (.returned this, t))
    (existing : s.store.session.currentMemoryContext < s.store.session.nextProcCxt) :
    (∀ step ∈ steps pgMajorversionNum catalog this ops t,
        step.Undisturbed s.store.session.currentMemoryContext this) ↔
      ∀ step ∈ steps pgMajorversionNum catalog this ops t,
        step.op.succeeds step.before.session = false := by
  have ends := ends_constructed (s := s) decl
  unfold Code.Ends at ends
  rw [constructed] at ends
  obtain ⟨-, innermost, new, current⟩ := ends
  exact steps_undisturbed_iff ops innermost current
    (Nat.ne_of_lt (Nat.lt_of_lt_of_le existing new))

/-- The executor made by `spi_executor()` in an idle backend. -/
def constructedIdle : SpiExecutor × Machine Backend :=
  match SpiExecutor.construct (.plain false) idle with
  | (.returned this, t) => (this, t)
  | (.thrown _, t) => (⟨0, 0, 0⟩, t)
  | (.jumped _, t) => (⟨0, 0, 0⟩, t)
  | (.aborted, t) => (⟨0, 0, 0⟩, t)

/-- A statement that is turned down, and then one that is executed. -/
def twoStatements : List (StatementOp Nat) :=
  [.execute "SELECT 1" ⟨true, -1⟩ [], .execute "SELECT 1" ⟨true, 0⟩ []]

/-- `execute` of a plain `SELECT` leaves the context of the connection current. -/
theorem execute_moves_caller :
    (steps 17 ⟨fun _ => none, fun _ => ""⟩ constructedIdle.1 twoStatements constructedIdle.2).map
        (·.after.session.currentMemoryContext) = [0, 1] ∧
      constructedIdle.1.spi = 1 ∧
      ¬ ∀ step ∈ steps 17 ⟨fun _ => none, fun _ => ""⟩ constructedIdle.1 twoStatements
          constructedIdle.2,
        step.Undisturbed idle.store.session.currentMemoryContext constructedIdle.1 := by
  refine ⟨rfl, rfl, ?_⟩
  intro undisturbed
  have current := (undisturbed _ (.tail _ (.head _))).current
  exact absurd current (by decide)

theorem twoStatements_moves_iff :
    idle.store.session.currentMemoryContext < idle.store.session.nextProcCxt ∧
      ((∀ step ∈ steps 17 ⟨fun _ => none, fun _ => ""⟩ constructedIdle.1 twoStatements
          constructedIdle.2,
        step.Undisturbed idle.store.session.currentMemoryContext constructedIdle.1) ↔
      ∀ step ∈ steps 17 ⟨fun _ => none, fun _ => ""⟩ constructedIdle.1 twoStatements
          constructedIdle.2,
        step.op.succeeds step.before.session = false) :=
  ⟨by decide, callerContext_kept_iff 17 _ (.plain false) _ twoStatements idle _ rfl (by decide)⟩

end

end Cppgres
