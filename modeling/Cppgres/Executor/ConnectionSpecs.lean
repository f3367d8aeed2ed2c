import Cppgres.Executor.SpiExecutor
import Cppgres.Xact.InternalSubtransaction

/-!
# What each operation does to the two stacks

The static stack `executors` and the connections of SPI, after a constructor, a destructor
or an operation, of an executor or of a subtransaction guard.
-/
namespace Cppgres
open NonLocal

/-- From one backend to another both stacks stay as they are, and the connections that SPI
worked on are `calls`. -/
structure Backend.Works (calls : List MemoryContext) (before after : Backend) : Prop where
  executors : after.executors = before.executors
  nextAddress : before.nextAddress ≤ after.nextAddress
  session : before.session.Worked calls after.session

namespace Backend

theorem Works.refl (b : Backend) : b.Works [] b := ⟨rfl, Nat.le_refl _, rfl, Nat.le_refl _, rfl⟩

theorem Works.trans {b c d : Backend} {calls calls' : List MemoryContext}
    (one : b.Works calls c) (two : c.Works calls' d) : b.Works (calls' ++ calls) d where
  executors := two.executors.trans one.executors
  nextAddress := Nat.le_trans one.nextAddress two.nextAddress
  session := one.session.trans two.session

theorem Works.still {b c d : Backend} {calls : List MemoryContext} (one : b.Works calls c)
    (two : c.Works [] d) : b.Works calls d := by
  have both := one.trans two
  exact both

/-- A change of the session that concerns neither stack. -/
theorem Works.modify {b c : Backend} {calls : List MemoryContext} {session : Session}
    (one : b.Works calls c) (worked : c.session.Worked [] session) :
    b.Works calls { c with session := session } :=
  one.still ⟨rfl, Nat.le_refl _, worked⟩

/-- An executor `this` was constructed: it is on top, and so is a connection of its own. -/
structure Opened (this : SpiExecutor) (before after : Backend) : Prop where
  executors : after.executors = this :: before.executors
  spi : ∃ connection, after.session.spi = connection :: before.session.spi ∧
    connection.procCxt = this.spi
  address : before.nextAddress ≤ this.address ∧ this.address < after.nextAddress
  context : before.session.nextProcCxt ≤ this.spi ∧ this.spi < after.session.nextProcCxt
  spiCalls : after.session.spiCalls = before.session.spiCalls

/-- One executor and one connection are gone. -/
structure Closed (before after : Backend) : Prop where
  executors : after.executors = before.executors.tail
  spi : after.session.spi = before.session.spi.tail
  nextAddress : before.nextAddress ≤ after.nextAddress
  nextProcCxt : before.session.nextProcCxt ≤ after.session.nextProcCxt
  spiCalls : after.session.spiCalls = before.session.spiCalls

/-- What is closed again right after it was opened was not there. -/
theorem Opened.closed {this : SpiExecutor} {b c d : Backend} (opened : Opened this b c)
    (closed : Closed c d) : b.Works [] d := by
  obtain ⟨connection, spi, _⟩ := opened.spi
  refine ⟨?_, ?_, ?_, ?_, ?_⟩
  · rw [closed.executors, opened.executors, List.tail_cons]
  · exact Nat.le_trans opened.address.1 (Nat.le_trans (Nat.le_of_lt opened.address.2) closed.nextAddress)
  · rw [closed.spi, spi, List.tail_cons]
  · exact Nat.le_trans opened.context.1 (Nat.le_trans (Nat.le_of_lt opened.context.2) closed.nextProcCxt)
  · rw [closed.spiCalls, opened.spiCalls]
    rfl

end Backend

section Specs
variable {α : Type} {s : Machine Backend} {calls : List MemoryContext}

theorem ends_modifySession {f : Session → Session}
    (worked : s.store.session.Worked calls (f s.store.session)) :
    (modifySession f).Ends s (fun _ b => s.store.Works calls b) fun _ _ => False :=
  .of_returned (modifySession_apply f s) rfl ⟨rfl, Nat.le_refl _, worked⟩

/-- A guarded call of Postgres. -/
theorem ends_guarded {f : Session → Except Failure α × Session}
    (worked : s.store.session.Worked calls (f s.store.session).2) :
    (ffiGuard (postgres f)).Ends s (fun _ b => s.store.Works calls b)
      fun _ b => s.store.Works calls b := by
  apply ends_ffiGuard_postgres
  · intro value session elog run
    rw [run] at worked
    exact ⟨rfl, Nat.le_refl _, worked⟩
  · intro edata session exception elog run
    rw [run] at worked
    exact ⟨rfl, Nat.le_refl _, worked.spi, worked.nextProcCxt, worked.spiCalls⟩

theorem ends_dropException (exception : CppException) :
    (dropException exception).Ends s (fun _ b => s.store.Works [] b) fun _ _ => False := by
  cases exception <;>
    exact .of_returned rfl rfl ⟨rfl, Nat.le_refl _, rfl, Nat.le_refl _, rfl⟩

/-- A failure becomes a warning. -/
theorem ends_ffiGuardNoexcept {f : Cpp Unit} {warningMessage : String}
    (ends : (ffiGuard f).Ends s (fun _ b => s.store.Works [] b) fun _ b => s.store.Works [] b) :
    (ffiGuardNoexcept f warningMessage).Ends s (fun _ b => s.store.Works [] b)
      fun _ _ => False := by
  refine .catching ends (fun _ _ same => same) ?_
  intro exception t _ one
  refine .after (modifyElog_apply _ t) rfl ?_
  have dropped := ends_dropException (s := { t with store := { t.store with
    elog := { t.store.elog with warnings := warningMessage :: t.store.elog.warnings } } }) exception
  refine dropped.mono (fun _ _ two => one.still ?_) fun _ _ never => never
  exact ⟨two.executors, two.nextAddress, two.session⟩

/-! ## Subtransaction guards -/

namespace InternalSubtransaction
variable {this : InternalSubtransaction}

theorem ends_construct (decl : SubtransactionDecl) :
    (construct decl).Ends s (fun _ b => s.store.Works [] b) fun _ b => s.store.Works [] b := by
  have begun : s.store.session.Worked []
      (s.store.session.beginInternalSubTransaction decl.name).2 := ⟨rfl, Nat.le_refl _, rfl⟩
  refine .get_bind (.after (Code.uncaughtExceptions_apply s) rfl ?_)
  refine .bind (ends_guarded begun) ?_ fun _ _ same => same
  intro _ t _ one
  exact .after (modifySession_apply _ t) rfl (.pure (one.modify ⟨rfl, Nat.le_refl _, rfl⟩))

/-- `commit()` and `rollback()`: the guarded call, and the two globals restored. -/
theorem ends_finish {op : SubtransactionOp} (spares : s.store.session.discards op.fate = false) :
    (op.run this).Ends s (fun _ b => s.store.Works [] b) fun _ b => s.store.Works [] b := by
  have restored (t : Machine Backend) (one : s.store.Works [] t.store) :
      (do
        this.restore
        pure { this with finished := true } : Cpp InternalSubtransaction).Ends t
        (fun _ b => s.store.Works [] b) fun _ b => s.store.Works [] b :=
    .after (modifySession_apply _ t) rfl (.pure (one.modify ⟨rfl, Nat.le_refl _, rfl⟩))
  cases op with
  | commit =>
    exact .bind (ends_guarded (Session.worked_release spares)) (fun _ t _ => restored t)
      fun _ _ same => same
  | rollback =>
    exact .bind (ends_guarded (Session.worked_rollback spares)) (fun _ t _ => restored t)
      fun _ _ same => same

/-- What the destructor of an unfinished guard is going to ask for. -/
def impending (this : InternalSubtransaction) (s : Machine Backend) : Fate :=
  if s.uncaught > this.uncaught || !this.shouldCommit then .rolledBack else .released

/-- The function of the session that this is. -/
def impendingCall : Fate → Session → Except Failure Unit × Session
  | .released => Session.releaseCurrentSubTransaction
  | .rolledBack => Session.rollbackAndReleaseCurrentSubTransaction

theorem worked_impendingCall {fate : Fate} {session : Session}
    (spares : session.discards fate = false) :
    session.Worked [] (impendingCall fate session).2 := by
  cases fate with
  | released => exact Session.worked_release spares
  | rolledBack => exact Session.worked_rollback spares

theorem finish_entry : this.finish (ffiGuardEntry s) =
    postgres (impendingCall (this.impending s)) (ffiGuardEntry s) := by
  unfold finish impending
  rw [Code.bind_returned (Code.uncaughtExceptions_apply _)]
  change (if (decide (s.uncaught > this.uncaught) || !this.shouldCommit) = true then
    postgres (·.rollbackAndReleaseCurrentSubTransaction) else
    postgres (·.releaseCurrentSubTransaction)) (ffiGuardEntry s) = _
  split <;> rfl

theorem ends_destroy (spares : this.finished = true ∨
    s.store.session.discards (this.impending s) = false) :
    this.destroy.Ends s (fun _ b => s.store.Works [] b) fun _ _ => False := by
  unfold destroy
  by_cases finished : this.finished = true
  · rw [if_pos finished]
    exact .pure (.refl _)
  · rw [if_neg finished]
    have called : (ffiGuard this.finish).Ends s (fun _ b => s.store.Works [] b)
        fun _ b => s.store.Works [] b :=
      .congr (ffiGuard_congr finish_entry)
        (ends_guarded (worked_impendingCall (spares.resolve_left finished)))
    refine .bind (ends_ffiGuardNoexcept called) ?_ fun _ _ never => never
    intro _ t _ one
    exact .of_returned (modifySession_apply _ t) rfl (one.modify ⟨rfl, Nat.le_refl _, rfl⟩)

end InternalSubtransaction

/-! ## Executors -/

namespace SpiExecutor
variable {this : SpiExecutor}

theorem ends_connect (nonatomicOpt : Bool) :
    (connect nonatomicOpt).Ends s (fun this b => Backend.Opened this s.store b)
      fun _ b => s.store.Works [] b := by
  refine .get_bind (.after (Code.modify_apply _ _) rfl ?_)
  let entered : Machine Backend :=
    { s with store := { s.store with nextAddress := s.store.nextAddress + 1 } }
  -- the address is taken, whether the connection succeeds or not
  have called : (ffiGuard (postgres (·.spiConnectExt nonatomicOpt))).Ends entered
      (fun _ b => ∃ elog, b = { entered.store with
        elog := elog
        session := s.store.session.connected nonatomicOpt })
      fun _ b => s.store.Works [] b := by
    apply ends_ffiGuard_postgres
    · intro rc session elog run
      obtain ⟨_, rfl⟩ | ⟨_, failed, _⟩ := Session.spiConnectExt_cases run
      · exact ⟨elog, rfl⟩
      · cases failed
    · intro edata session exception elog run
      obtain ⟨connected, _⟩ | ⟨_, _, rfl⟩ := Session.spiConnectExt_cases run
      · cases connected
      · exact ⟨rfl, Nat.le_succ _, rfl, Nat.le_refl _, rfl⟩
  refine .bind called ?_ fun _ _ same => same
  rintro _ ⟨uncaught, _⟩ _ ⟨elog, rfl⟩
  refine .get_bind (.after (modifySession_apply _ _) rfl (.after (Code.modify_apply _ _) rfl ?_))
  exact .pure ⟨rfl, ⟨_, rfl, rfl⟩, ⟨Nat.le_refl _, Nat.lt_succ_self _⟩,
    ⟨Nat.le_refl _, Nat.lt_succ_self _⟩, rfl⟩

theorem ends_destroy (this : SpiExecutor) :
    this.destroy.Ends s (fun _ b => s.store.Closed b) fun _ _ => False := by
  have called : (ffiGuard (postgres (·.spiFinish))).Ends s
      (fun _ b => b.executors = s.store.executors ∧ b.nextAddress = s.store.nextAddress ∧
        b.session.spi = s.store.session.spi.tail ∧
        b.session.nextProcCxt = s.store.session.nextProcCxt ∧
        b.session.spiCalls = s.store.session.spiCalls)
      fun _ _ => False := by
    apply ends_ffiGuard_postgres
    · intro rc session elog run
      unfold Session.spiFinish at run
      split at run
      · rename_i none
        cases run
        exact ⟨rfl, rfl, by rw [none]; rfl, rfl, rfl⟩
      · rename_i connection outer top
        cases run
        exact ⟨rfl, rfl, by rw [top]; rfl, rfl, rfl⟩
    · intro edata session exception elog run
      unfold Session.spiFinish at run
      split at run <;> cases run
  refine .bind called ?_ fun _ _ never => never
  rintro _ t _ ⟨executors, address, spi, context, calls⟩
  exact .of_returned (Code.modify_apply _ t) rfl
    ⟨congrArg List.tail executors, spi, Nat.le_of_eq address.symm, Nat.le_of_eq context.symm,
      calls⟩

theorem ends_checkContext :
    checkContext.Ends s (fun _ b => b = s.store) fun _ b => b = s.store := by
  have asked : atomic.Ends s (fun _ b => b = s.store) fun _ _ => False := by
    refine .get_bind ?_
    split
    · exact .pure rfl
    · split <;> exact .pure rfl
  refine .bind asked ?_ fun _ _ never => never.elim
  intro isAtomic t _ same
  split
  · exact .throwing same
  · exact .pure same
  · exact .pure same

theorem ends_construct (decl : ExecutorDecl) :
    (construct decl).Ends s (fun this b => Backend.Opened this s.store b)
      fun _ b => s.store.Works [] b := by
  cases decl with
  | plain nonatomicOpt => exact ends_connect nonatomicOpt
  | nonatomic =>
    refine .bind (ends_connect true) ?_ fun _ _ same => same
    intro this t _ opened
    have checked : (Code.leaving checkContext fun unwinding =>
        if unwinding then this.destroy else pure ()).Ends t
        (fun _ b => Backend.Opened this s.store b) fun _ b => s.store.Works [] b := by
      refine .leaving ends_checkContext ?_ ?_
      · intro _ u _ same
        exact .pure (same ▸ opened)
      · intro _ u _ same
        exact (ends_destroy this).mono (fun _ _ closed => opened.closed (same ▸ closed))
          fun _ _ never => never.elim
    exact .bind checked (fun _ u _ opened => .pure opened) fun _ _ same => same

/-! ## Operations -/

section Operations
variable {V : Type} {top : SpiExecutor} {below : List SpiExecutor} {connection : SpiConnection}
  {outer : List SpiConnection}

/-- The connections that are worked on, by a call that may be refused before. -/
def callsOf (refused : Bool) (context : MemoryContext) : List MemoryContext :=
  if refused then [] else [context]

/-- A negative count of rows is refused. -/
theorem ends_executeWithArgs (statement : Statement)
    (connected : s.store.session.spi = connection :: outer) :
    (ffiGuard (postgres (·.spiExecuteWithArgs statement))).Ends s
      (fun rc b => (statement.tcount < 0 → rc = spiErrorArgument) ∧
        s.store.Works (callsOf (decide (statement.tcount < 0)) connection.procCxt) b)
      fun _ b => s.store.Works (callsOf (decide (statement.tcount < 0)) connection.procCxt) b := by
  unfold callsOf
  by_cases count : statement.tcount < 0
  · have run : s.store.session.spiExecuteWithArgs statement =
        (.ok spiErrorArgument, s.store.session) := if_pos count
    rw [if_pos (decide_eq_true count)]
    exact .of_returned (ffiGuard_postgres_ok run) rfl
      ⟨fun _ => rfl, rfl, Nat.le_refl _, rfl, Nat.le_refl _, rfl⟩
  · rw [if_neg (by simpa using count)]
    exact (ends_guarded (Session.worked_executeWithArgs connected count)).mono
      (fun _ _ works => ⟨fun refused => absurd refused count, works⟩) fun _ _ works => works

theorem ends_conclude {accepts : Int → Option SpiTupleTable → Bool} {catalog : Catalog}
    {ret : Ret V} {what : String} {rc : Int} :
    (conclude accepts catalog ret what rc).Ends s
      (fun _ b => accepts rc s.store.session.spiTuptable = true ∧ b = s.store)
      fun _ b => b = s.store := by
  refine .get_bind ?_
  split
  · rename_i accepted
    unfold results
    split
    · exact .abort
    · split
      · exact .throwing rfl
      · exact .pure ⟨accepted, rfl⟩
  · exact .throwing rfl

/-- A statement and what is concluded from its return code. -/
theorem ends_concluded {accepts : Int → Option SpiTupleTable → Bool} {catalog : Catalog}
    {ret : Ret V} {what : String} (statement : Statement)
    (refuses : ∀ tuptable, accepts spiErrorArgument tuptable = false)
    (connected : s.store.session.spi = connection :: outer) :
    (do
      let rc ← ffiGuard (postgres (·.spiExecuteWithArgs statement))
      conclude accepts catalog ret what rc).Ends s
      (fun _ b => decide (statement.tcount < 0) = false ∧
        s.store.Works (callsOf (decide (statement.tcount < 0)) connection.procCxt) b)
      fun _ b => s.store.Works (callsOf (decide (statement.tcount < 0)) connection.procCxt) b := by
  refine .bind (ends_executeWithArgs statement connected) ?_ fun _ _ works => works
  rintro rc t _ ⟨refused, works⟩
  refine ends_conclude.mono ?_ fun _ b same => same ▸ works
  rintro _ b ⟨accepted, rfl⟩
  refine ⟨decide_eq_false fun count => ?_, works⟩
  rw [refused count, refuses] at accepted
  cases accepted

theorem accepted_spiErrorArgument {pgMajorversionNum : Nat} (tuptable : Option SpiTupleTable) :
    accepted pgMajorversionNum spiErrorArgument tuptable = false := by
  simp [accepted, spiErrorArgument, spiOkSelect, spiOkInsertReturning, spiOkUpdateReturning,
    spiOkDeleteReturning, spiOkUtility, spiOkMergeReturning]

theorem positive_spiErrorArgument (tuptable : Option SpiTupleTable) :
    positive spiErrorArgument tuptable = false := rfl

/-- The call for a plan whose memory is gone is not made. -/
theorem ends_gonePlan {prepared : SpiPlan} {call : Cpp Int} (gone : prepared.resets > 0) :
    (ffiGuard (if prepared.resets > 0 then
        Code.throwing (.std "pointer belongs to a MemoryContext that has been reset or deleted")
      else call)).Ends s (fun _ _ => False) fun _ b => s.store.Works [] b :=
  .congr (ffiGuard_congr (congrFun (if_pos gone) _))
    (.of_thrown (ffiGuard_thrown rfl) rfl ⟨rfl, Nat.le_refl _, rfl, Nat.le_refl _, rfl⟩)

/-- Otherwise it is that of the statement of the plan. -/
theorem queryPlan_alive {prepared : SpiPlan} {statement : Statement}
    {conclusion : Int → Cpp SpiTupleTable} (alive : ¬ prepared.resets > 0) :
    (do
      let rc ← ffiGuard (if prepared.resets > 0 then
          Code.throwing (.std "pointer belongs to a MemoryContext that has been reset or deleted")
        else postgres (·.spiExecuteWithArgs statement))
      conclusion rc) s =
    (do
      let rc ← ffiGuard (postgres (·.spiExecuteWithArgs statement))
      conclusion rc) s := by
  rw [if_neg alive]

end Operations

end SpiExecutor

end Specs

/-- The operations of an executor. Only a `spi_nonatomic_executor` has the last two. -/
inductive ExecutorOp (V : Type) where
  | query (ret : Ret V) (sql : String) (opts : Options) (args : List Outgoing)
  | queryPlan (ret : Ret V) (prepared : SpiPlan) (opts : Options) (args : List Outgoing)
  | plan (sql : String) (types : List Oid)
  | execute (sql : String) (opts : Options) (args : List Outgoing)
  | commit (chain : Bool)
  | rollback (chain : Bool)

namespace ExecutorOp
variable {V : Type}

def run (pgMajorversionNum : Nat) (catalog : Catalog) : ExecutorOp V → SpiExecutor → Cpp Unit
  | .query ret sql opts args, this => do
    let _results ← SpiExecutor.query pgMajorversionNum catalog ret this sql opts args
    pure ()
  | .queryPlan ret prepared opts args, this => do
    let _results ← SpiExecutor.queryPlan catalog ret this prepared opts args
    pure ()
  | .plan sql types, this => do
    let _plan ← this.plan sql types
    pure ()
  | .execute sql opts args, this => do
    let _processed ← this.execute sql opts args
    pure ()
  | .commit chain, this => this.commit chain
  | .rollback chain, this => this.rollback chain

/-- Operations that are refused before a connection is looked at: a negative count of rows,
a plan whose memory is gone. -/
def refused : ExecutorOp V → Bool
  | .query _ _ opts _ => decide (opts.count < 0)
  | .queryPlan _ prepared opts _ => decide (prepared.resets > 0 ∨ opts.count < 0)
  | .plan _ _ => false
  | .execute _ opts _ => decide (opts.count < 0)
  | .commit _ => false
  | .rollback _ => false

/-- The connections that the operation is to work on, when `context` is the executor's. -/
def calls (op : ExecutorOp V) (context : MemoryContext) : List MemoryContext :=
  SpiExecutor.callsOf op.refused context

variable {pgMajorversionNum : Nat} {catalog : Catalog} {op : ExecutorOp V}
  {this top : SpiExecutor} {below : List SpiExecutor} {connection : SpiConnection}
  {outer : List SpiConnection} {s : Machine Backend}

/-- An operation on the executor on top of the stack. A refused one throws. -/
theorem ends_run (stack : s.store.executors = top :: below) (same : top.address = this.address)
    (connected : s.store.session.spi = connection :: outer) :
    (op.run pgMajorversionNum catalog this).Ends s
      (fun _ b => op.refused = false ∧ s.store.Works (op.calls connection.procCxt) b)
      fun _ b => s.store.Works (op.calls connection.procCxt) b := by
  have current := SpiExecutor.requireCurrent_current stack same
  cases op with
  | query ret sql opts args =>
    refine .ignore (.after current rfl ?_)
    exact SpiExecutor.ends_concluded (SpiExecutor.statement sql opts args)
      SpiExecutor.accepted_spiErrorArgument connected
  | queryPlan ret prepared opts args =>
    refine .ignore (.after current rfl ?_)
    by_cases gone : prepared.resets > 0
    · have nothing : (queryPlan ret prepared opts args).calls connection.procCxt = [] :=
        if_pos (decide_eq_true (.inl gone))
      rw [nothing]
      exact .bind (SpiExecutor.ends_gonePlan gone) (fun _ _ _ never => never.elim)
        fun _ _ works => works
    · have same : (queryPlan ret prepared opts args).refused = decide (opts.count < 0) := by
        unfold refused
        simp [gone]
      unfold calls
      rw [same]
      exact .congr (SpiExecutor.queryPlan_alive gone)
        (SpiExecutor.ends_concluded
          ⟨prepared.plan.src, prepared.plan.argtypes,
            SpiExecutor.makeDatums (SpiExecutor.makeNullableDatums args),
            SpiExecutor.makeNulls (SpiExecutor.makeNullableDatums args), opts.readOnly, opts.count⟩
          SpiExecutor.positive_spiErrorArgument connected)
  | plan sql types =>
    refine .ignore (.after current rfl (.bind
      (ends_guarded (Session.worked_prepare connected)) ?_ fun _ _ works => works))
    intro made t _ works
    cases made with
    | none => exact .throwing works
    | some plan => exact .pure ⟨rfl, works⟩
  | execute sql opts args =>
    refine .ignore (.after current rfl (.bind
      (SpiExecutor.ends_executeWithArgs _ connected) ?_ fun _ _ works => works))
    rintro rc t _ ⟨refused, works⟩
    refine .get_bind ?_
    split
    · rename_i positive
      refine .pure ⟨decide_eq_false fun count => ?_, works⟩
      rw [refused count] at positive
      exact absurd positive (by decide)
    · exact .throwing works
  | commit chain =>
    refine .after current rfl ?_
    have done := ends_guarded (Session.worked_end .released connected)
    cases chain <;> exact done.mono (fun _ _ works => ⟨rfl, works⟩) fun _ _ works => works
  | rollback chain =>
    refine .after current rfl ?_
    have done := ends_guarded (Session.worked_end .rolledBack connected)
    cases chain <;> exact done.mono (fun _ _ works => ⟨rfl, works⟩) fun _ _ works => works

/-- An operation on any other executor. -/
theorem run_other (stack : s.store.executors = top :: below) (other : top.address ≠ this.address) :
    op.run pgMajorversionNum catalog this s =
      (.thrown (.std "not a current SPI executor"), { s with uncaught := s.uncaught + 1 }) := by
  have refused := SpiExecutor.requireCurrent_other stack other
  cases op with
  | query ret query opts args => exact Code.bind_thrown (Code.bind_thrown refused)
  | queryPlan ret query opts args => exact Code.bind_thrown (Code.bind_thrown refused)
  | plan query types => exact Code.bind_thrown (Code.bind_thrown refused)
  | execute query opts args => exact Code.bind_thrown (Code.bind_thrown refused)
  | commit chain => exact Code.bind_thrown refused
  | rollback chain => exact Code.bind_thrown refused

end ExecutorOp

end Cppgres
