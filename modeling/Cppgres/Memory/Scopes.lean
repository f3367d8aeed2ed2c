import Cppgres.Executor.ConnectionSpecs
import Cppgres.NonLocal.Catches

/-!
# Scopes that save the current memory context

`memory_context_scope` and `memory_context_execution` of `memory.hpp` save
`CurrentMemoryContext` in their constructors and restore it in their destructors. So do
`internal_subtransaction` with its member, `spi_executor` with what SPI saved at the
connection, and a `pg_exception` when it is built. The programs here have all five.
-/
namespace Cppgres
open NonLocal

structure MemoryContextScope where
  previous : MemoryContext
  ctx : MemoryContext
  deriving DecidableEq, Repr

namespace MemoryContextScope

/-- `memory_context_scope(Context &ctx)`. -/
def construct (ctx : MemoryContext) : Cpp MemoryContextScope := do
  let b ← Code.get
  let this : MemoryContextScope := { previous := b.session.currentMemoryContext, ctx }
  modifySession fun s => { s with currentMemoryContext := ctx }
  pure this

/-- `~memory_context_scope()`. -/
def destroy (this : MemoryContextScope) : Cpp Unit :=
  modifySession fun s => { s with currentMemoryContext := this.previous }

end MemoryContextScope

/-- The thunk is the code that runs in its scope. `ctx` is the member `_ctx`, the context to
go back to. -/
structure MemoryContextExecution where
  ctx : MemoryContext
  deriving DecidableEq, Repr

namespace MemoryContextExecution

/-- `memory_context_execution(T thunk, abstract_memory_context &ctx)`. -/
def construct (ctx : MemoryContext) : Cpp MemoryContextExecution := do
  let b ← Code.get
  let this : MemoryContextExecution := { ctx := b.session.currentMemoryContext }
  modifySession fun s => { s with currentMemoryContext := ctx }
  pure this

/-- `~memory_context_execution()`. -/
def destroy (this : MemoryContextExecution) : Cpp Unit :=
  modifySession fun s => { s with currentMemoryContext := this.ctx }

end MemoryContextExecution

/-! ## Calls of Postgres -/

namespace Session

/-- The connections and the open subtransactions are the same, and identifiers go on. -/
structure Steady (before after : Session) : Prop where
  spi : after.spi = before.spi
  subtransactions : after.subtransactions = before.subtransactions
  nextSubTransaction : before.nextSubTransaction ≤ after.nextSubTransaction

end Session

/-- A function that opens and closes no connection and no subtransaction of its caller.
What it does to the current memory context is left open. -/
structure SpiCall where
  call : Session → Except Failure Unit × Session
  steady : ∀ s : Session, s.Steady (call s).2

/-- A function that leaves the current memory context as it was when it succeeds. It may
fail with any. -/
structure GuardedCall extends SpiCall where
  context : ∀ s : Session, (call s).1 = .ok () →
    (call s).2.currentMemoryContext = s.currentMemoryContext

def SpiCall.run (call : SpiCall) : Cpp Unit := ffiGuard (postgres call.call)

/-! ## Programs -/

inductive ContextDecl where
  | scope (ctx : MemoryContext)
  | execution (ctx : MemoryContext)
  | subtransaction (decl : SubtransactionDecl)
  | executor (decl : ExecutorDecl)
  deriving DecidableEq, Repr

inductive ContextObj where
  | scope (this : MemoryContextScope)
  | execution (this : MemoryContextExecution)
  | subtransaction (guard : InternalSubtransaction)
  | executor (this : SpiExecutor)
  deriving DecidableEq, Repr

/-- The operations of an executor, and any other call of SPI under it. -/
inductive SpiOp (V : Type) where
  | operate (op : ExecutorOp V)
  | other (call : SpiCall)

namespace ContextObj
variable {V : Type}

def executor? : ContextObj → Option SpiExecutor
  | .executor this => some this
  | .scope _ => none
  | .execution _ => none
  | .subtransaction _ => none

def construct : ContextDecl → Cpp ContextObj
  | .scope ctx => do
    let this ← MemoryContextScope.construct ctx
    pure (.scope this)
  | .execution ctx => do
    let this ← MemoryContextExecution.construct ctx
    pure (.execution this)
  | .subtransaction decl => do
    let guard ← InternalSubtransaction.construct decl
    pure (.subtransaction guard)
  | .executor decl => do
    let this ← SpiExecutor.construct decl
    pure (.executor this)

def destroy : ContextObj → Cpp Unit
  | .scope this => this.destroy
  | .execution this => this.destroy
  | .subtransaction guard => guard.destroy
  | .executor this => this.destroy

/-- Only executors have operations. -/
def method (pgMajorversionNum : Nat) (catalog : Catalog) :
    SpiOp V → ContextObj → Cpp ContextObj
  | .operate op, .executor this => do
    op.run pgMajorversionNum catalog this
    pure (.executor this)
  | .other call, .executor this => do
    call.run
    pure (.executor this)
  | _, .scope this => pure (.scope this)
  | _, .execution this => pure (.execution this)
  | _, .subtransaction guard => pure (.subtransaction guard)

end ContextObj

abbrev contextScopes (V : Type) (pgMajorversionNum : Nat) (catalog : Catalog) :
    GuardClass CppException SigjmpBuf Backend where
  Decl := ContextDecl
  Obj := ContextObj
  Op := SpiOp V
  Act := GuardedCall
  construct := ContextObj.construct
  destroy := ContextObj.destroy
  method := ContextObj.method pgMajorversionNum catalog
  act call := call.run
  drop := dropException

/-! ## Calls under a guard -/

section Calls
variable {α : Type} {s : Machine Backend}

/-- What a guarded call leaves of the session, when it does not depend on the current memory
context. That one is the context of the call's entry again when the call fails. -/
theorem ends_ffiGuard_session {f : Session → Except Failure α × Session} {P : Session → Prop}
    (switched : ∀ t ctx, P t → P { t with currentMemoryContext := ctx })
    (called : P (f s.store.session).2) :
    (ffiGuard (postgres f)).Ends s
      (fun value b => P b.session ∧ f s.store.session = (.ok value, b.session))
      fun _ b => P b.session ∧
        b.session.currentMemoryContext = s.store.session.currentMemoryContext := by
  apply ends_ffiGuard_postgres
  · intro value session elog run
    rw [run] at called
    exact ⟨called, run⟩
  · intro edata session exception elog run
    rw [run] at called
    exact ⟨switched _ _ called, rfl⟩

end Calls

namespace Session.Steady
variable {s t u : Session}

theorem refl (s : Session) : s.Steady s := ⟨rfl, rfl, Nat.le_refl _⟩

theorem trans (one : s.Steady t) (two : t.Steady u) : s.Steady u where
  spi := two.spi.trans one.spi
  subtransactions := two.subtransactions.trans one.subtransactions
  nextSubTransaction := Nat.le_trans one.nextSubTransaction two.nextSubTransaction

theorem switched (steady : s.Steady t) (ctx : MemoryContext) :
    s.Steady { t with currentMemoryContext := ctx } :=
  ⟨steady.spi, steady.subtransactions, steady.nextSubTransaction⟩

theorem executeWithArgs (statement : Statement) :
    s.Steady (s.spiExecuteWithArgs statement).2 := by
  unfold spiExecuteWithArgs
  split
  · exact refl s
  · split
    · exact refl s
    · unfold execute
      split <;> exact ⟨rfl, rfl, Nat.le_refl _⟩

theorem prepare (src : String) (argtypes : List Oid) : s.Steady (s.spiPrepare src argtypes).2 := by
  unfold spiPrepare
  split
  · exact refl s
  · dsimp only
    split <;> exact ⟨rfl, rfl, Nat.le_refl _⟩

theorem nextTransactionCommand (fate : Fate) : s.Steady (s.nextTransactionCommand fate).2 := by
  unfold Session.nextTransactionCommand endTransaction commitTransactionCommand
    abortCurrentTransaction startTransactionCommand
  cases fate <;> cases transaction : s.transaction <;> simp only [transaction] <;>
    exact ⟨rfl, rfl, Nat.le_refl _⟩

theorem end_ (fate : Fate) : s.Steady (s.spiEnd fate).2 := by
  unfold spiEnd
  split
  · exact refl s
  · rename_i connection outer connected
    let used : Session := { s.touch connection with spiFailures := s.spiFailures.tail }
    have touched : s.Steady used := ⟨rfl, rfl, Nat.le_refl _⟩
    have next (fate : Fate) : s.Steady (used.nextTransactionCommand fate).2 :=
      touched.trans (nextTransactionCommand fate)
    dsimp only
    split
    · exact touched
    · cases s.spiFailure with
      | none => exact next fate
      | some edata =>
        have failed := next .rolledBack
        dsimp only
        generalize used.nextTransactionCommand .rolledBack = ended at failed ⊢
        obtain ⟨failure | done, t⟩ := ended <;> exact failed

end Session.Steady

/-! ## Operations of an executor -/

section Operations
variable {V α : Type} {pgMajorversionNum : Nat} {catalog : Catalog} {s : Machine Backend}
  {this : SpiExecutor}

/-- Code that neither connects nor begins or ends a subtransaction. -/
def EndsSteady (m : Cpp α) (s : Machine Backend) : Prop :=
  m.Ends s (fun _ b => s.store.session.Steady b.session) fun _ b => s.store.session.Steady b.session

theorem EndsSteady.guarded {f : Session → Except Failure α × Session}
    (called : s.store.session.Steady (f s.store.session).2) :
    EndsSteady (ffiGuard (postgres f)) s :=
  (ends_ffiGuard_session (fun _ ctx steady => steady.switched ctx) called).mono
    (fun _ _ post => post.1) fun _ _ post => post.1

theorem EndsSteady.bind {γ : Type} {m : Cpp α} {f : α → Cpp γ} (first : EndsSteady m s)
    (second : ∀ value t, EndsSteady (f value) t) : EndsSteady (m >>= f) s := by
  refine Code.Ends.bind first ?_ fun _ _ steady => steady
  intro value t _ steady
  exact (second value t).mono (fun _ _ later => steady.trans later) fun _ _ later =>
    steady.trans later

theorem EndsSteady.pure (value : α) : EndsSteady (Pure.pure value : Cpp α) s :=
  Code.Ends.pure (.refl _)

theorem EndsSteady.throwing (exception : CppException) :
    EndsSteady (Code.throwing exception : Cpp α) s := Code.Ends.throwing (.refl _)

theorem SpiExecutor.steady_requireCurrent : EndsSteady this.requireCurrent s := by
  refine .get_bind ?_
  split
  · exact .abort
  · split
    · exact EndsSteady.pure ()
    · exact EndsSteady.throwing _

theorem SpiExecutor.steady_conclude {accepts : Int → Option SpiTupleTable → Bool} {ret : Ret V}
    {what : String} {rc : Int} : EndsSteady (conclude accepts catalog ret what rc) s :=
  SpiExecutor.ends_conclude.mono (fun _ _ same => same.2 ▸ .refl _) fun _ _ same => same ▸ .refl _

/-- Any operation, on any executor. -/
theorem ExecutorOp.steady_run (op : ExecutorOp V) :
    EndsSteady (op.run pgMajorversionNum catalog this) s := by
  cases op with
  | query ret sql opts args =>
    apply EndsSteady.bind _ fun _ _ => .pure _
    apply EndsSteady.bind SpiExecutor.steady_requireCurrent
    intro _ t
    exact .bind (.guarded (.executeWithArgs _)) fun _ _ => SpiExecutor.steady_conclude
  | queryPlan ret prepared opts args =>
    apply EndsSteady.bind _ fun _ _ => .pure _
    apply EndsSteady.bind SpiExecutor.steady_requireCurrent
    intro _ t
    apply EndsSteady.bind _ fun _ _ => SpiExecutor.steady_conclude
    split
    · exact Code.Ends.of_thrown (ffiGuard_thrown rfl) rfl (.refl _)
    · exact .guarded (.executeWithArgs _)
  | plan sql types =>
    apply EndsSteady.bind _ fun _ _ => .pure _
    apply EndsSteady.bind SpiExecutor.steady_requireCurrent
    intro _ t
    apply EndsSteady.bind (.guarded (.prepare _ _))
    intro made u
    cases made with
    | none => exact .throwing _
    | some plan => exact .pure _
  | execute sql opts args =>
    apply EndsSteady.bind _ fun _ _ => .pure _
    apply EndsSteady.bind SpiExecutor.steady_requireCurrent
    intro _ t
    apply EndsSteady.bind (.guarded (.executeWithArgs _))
    intro rc u
    refine .get_bind ?_
    split
    · exact EndsSteady.pure _
    · exact EndsSteady.throwing _
  | commit chain =>
    apply EndsSteady.bind SpiExecutor.steady_requireCurrent
    intro _ t
    cases chain <;> exact .guarded (.end_ _)
  | rollback chain =>
    apply EndsSteady.bind SpiExecutor.steady_requireCurrent
    intro _ t
    cases chain <;> exact .guarded (.end_ _)

end Operations

end Cppgres
