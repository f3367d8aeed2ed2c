import Cppgres.Executor.Results
import Cppgres.Function.CurrentFunction
import Cppgres.Postgres.Spi

/-!
# Executors

`spi_executor` and `spi_nonatomic_executor` of `executor.hpp`: constructors, destructor and
the operations on the executor that is on top of `executors`.
-/
namespace Cppgres
open NonLocal

/-- How an executor is declared: by `spi_executor(spi_opt)`, which `spi_nonatomic_executor`
inherits, or by the constructor that the latter has of its own. -/
inductive ExecutorDecl where
  | plain (nonatomicOpt : Bool)
  | nonatomic
  deriving DecidableEq, Repr

/-- `spi_executor::options`. -/
structure Options where
  readOnly : Bool
  count : Int
  deriving DecidableEq, Repr

/-- `spi_plan`. `resets` counts those of the memory context of the plan. -/
structure SpiPlan where
  kept : Bool
  plan : SpiPlanPtr
  resets : Nat
  deriving DecidableEq, Repr

namespace SpiExecutor

/-! ## Life and death -/

/-- `spi_executor(int flags)`. -/
def connect (nonatomicOpt : Bool) : Cpp SpiExecutor := do
  let b ← Code.get
  let address := b.nextAddress
  Code.modify fun b => { b with nextAddress := address + 1 }
  let beforeSpi := b.session.currentMemoryContext
  let _rc ← ffiGuard (postgres (·.spiConnectExt nonatomicOpt))
  let b ← Code.get
  let this : SpiExecutor :=
    { address
      beforeSpi
      spi := b.session.currentMemoryContext }
  modifySession fun s => { s with currentMemoryContext := beforeSpi }
  Code.modify fun b => { b with executors := this :: b.executors }
  pure this

/-- `~spi_executor()`. -/
def destroy (_this : SpiExecutor) : Cpp Unit := do
  let _rc ← ffiGuard (postgres (·.spiFinish))
  Code.modify fun b => { b with executors := b.executors.tail }

/-- The body of `spi_nonatomic_executor()`. -/
def checkContext : Cpp Unit := do
  let isAtomic ← atomic
  match isAtomic with
  | some true => Code.throwing (.std "must be called in a non-atomic context")
  | some false => pure ()
  | none => pure ()

/-- An exception in the body of a constructor destroys the base. -/
def construct : ExecutorDecl → Cpp SpiExecutor
  | .plain nonatomicOpt => connect nonatomicOpt
  | .nonatomic => do
    let this ← connect true
    Code.leaving checkContext fun unwinding => if unwinding then this.destroy else pure ()
    pure this

/-! ## Operations -/

/-- `if (executors.top() != this)`. -/
def requireCurrent (this : SpiExecutor) : Cpp Unit := do
  let b ← Code.get
  match b.executors with
  | [] => Code.abort
  | top :: _ =>
    if top.address = this.address then pure ()
    else Code.throwing (.std "not a current SPI executor")

def makeNullableDatums (args : List Outgoing) : List NullableDatum :=
  args.map Outgoing.intoNullableDatum

def makeDatums (values : List NullableDatum) : List Datum :=
  values.map fun value => if value.isnull then 0 else value.value

def makeNulls (values : List NullableDatum) : List Char :=
  values.map fun value => if value.isnull then 'n' else ' '

/-- The statement that SPI is given for a string and its arguments. -/
def statement (query : String) (opts : Options) (args : List Outgoing) : Statement where
  src := query
  argtypes := args.map Outgoing.typeFor
  values := makeDatums (makeNullableDatums args)
  nulls := makeNulls (makeNullableDatums args)
  readOnly := opts.readOnly
  tcount := opts.count

variable {V : Type}

/-- `results<Ret>::results`. It follows the pointer it is given. -/
def results (catalog : Catalog) (ret : Ret V) (table : Option SpiTupleTable) : Cpp SpiTupleTable :=
  match table with
  | none => Code.abort
  | some table =>
    match ret.checkColumns catalog table.tupdesc with
    | .error refusal => Code.throwing refusal.exception
    | .ok () => pure table

/-- The condition of `query` on a string. -/
def accepted (pgMajorversionNum : Nat) (rc : Int) (tuptable : Option SpiTupleTable) : Bool :=
  rc == spiOkSelect || rc == spiOkInsertReturning || rc == spiOkUpdateReturning ||
    rc == spiOkDeleteReturning || (rc == spiOkUtility && tuptable.isSome) ||
    (decide (17 ≤ pgMajorversionNum) && rc == spiOkMergeReturning)

/-- The condition of `query` on a plan. -/
def positive (rc : Int) (_tuptable : Option SpiTupleTable) : Bool := decide (rc > 0)

/-- The end of both functions, with the condition of each. -/
def conclude (accepts : Int → Option SpiTupleTable → Bool) (catalog : Catalog) (ret : Ret V)
    (what : String) (rc : Int) : Cpp SpiTupleTable := do
  let b ← Code.get
  if accepts rc b.session.spiTuptable then results catalog ret b.session.spiTuptable
  else Code.throwing (.std what)

/-- `query<Ret>(query, opts, args...)` with a string. -/
def query (pgMajorversionNum : Nat) (catalog : Catalog) (ret : Ret V) (this : SpiExecutor)
    (query : String) (opts : Options) (args : List Outgoing) : Cpp SpiTupleTable := do
  this.requireCurrent
  let rc ← ffiGuard (postgres (·.spiExecuteWithArgs (statement query opts args)))
  conclude (accepted pgMajorversionNum) catalog ret ("spi error in `" ++ query ++ "`") rc

/-- `query<Ret>(plan, opts, args...)`. The plan is converted to its pointer among the
arguments of the guarded call. -/
def queryPlan (catalog : Catalog) (ret : Ret V) (this : SpiExecutor) (query : SpiPlan)
    (opts : Options) (args : List Outgoing) : Cpp SpiTupleTable := do
  this.requireCurrent
  let datums := makeDatums (makeNullableDatums args)
  let nulls := makeNulls (makeNullableDatums args)
  let rc ← ffiGuard do
    if query.resets > 0 then
      Code.throwing (.std "pointer belongs to a MemoryContext that has been reset or deleted")
    else postgres (·.spiExecutePlan query.plan datums nulls opts.readOnly opts.count)
  conclude positive catalog ret "spi error in a query plan" rc

/-- `spi_plan::spi_plan`, with the context of the pointer to track. -/
def spiPlan (plan : Option SpiPlanPtr) : Cpp SpiPlan :=
  match plan with
  | none => Code.throwing (.std "invalid pointer")
  | some plan => pure { kept := false, plan, resets := 0 }

/-- `plan<Args...>(query)`. -/
def plan (this : SpiExecutor) (query : String) (types : List Oid) : Cpp SpiPlan := do
  this.requireCurrent
  let prepared ← ffiGuard (postgres (·.spiPrepare query types))
  spiPlan prepared

/-- `execute(query, opts, args...)`. -/
def execute (this : SpiExecutor) (query : String) (opts : Options) (args : List Outgoing) :
    Cpp Nat := do
  this.requireCurrent
  let rc ← ffiGuard (postgres (·.spiExecuteWithArgs (statement query opts args)))
  let b ← Code.get
  if rc ≥ 0 then pure b.session.spiProcessed
  else Code.throwing (.std ("spi error in `" ++ query ++ "`"))

/-- `spi_nonatomic_executor::commit`. -/
def commit (this : SpiExecutor) (chain : Bool) : Cpp Unit := do
  this.requireCurrent
  if chain then ffiGuard (postgres (·.spiCommitAndChain)) else ffiGuard (postgres (·.spiCommit))

/-- `spi_nonatomic_executor::rollback`. -/
def rollback (this : SpiExecutor) (chain : Bool) : Cpp Unit := do
  this.requireCurrent
  if chain then ffiGuard (postgres (·.spiRollbackAndChain))
  else ffiGuard (postgres (·.spiRollback))

/-! ## The check -/

section RequireCurrent
variable {this : SpiExecutor} {s : Machine Backend}

theorem requireCurrent_current {top : SpiExecutor} {below : List SpiExecutor}
    (stack : s.store.executors = top :: below) (same : top.address = this.address) :
    this.requireCurrent s = (.returned (), s) := by
  unfold requireCurrent
  rw [Code.get_bind, stack]
  exact congrFun (if_pos same) s

theorem requireCurrent_other {top : SpiExecutor} {below : List SpiExecutor}
    (stack : s.store.executors = top :: below) (other : top.address ≠ this.address) :
    this.requireCurrent s =
      (.thrown (.std "not a current SPI executor"), { s with uncaught := s.uncaught + 1 }) := by
  unfold requireCurrent
  rw [Code.get_bind, stack]
  exact congrFun (if_neg other) s

theorem requireCurrent_nil (stack : s.store.executors = []) :
    this.requireCurrent s = (.aborted, s) := by
  unfold requireCurrent
  rw [Code.get_bind, stack]
  rfl

end RequireCurrent

end SpiExecutor

end Cppgres
