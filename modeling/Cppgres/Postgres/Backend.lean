import Cppgres.NonLocal.Code

/-!
# The backend a piece of cppgres code runs in

The part of a Postgres backend process that the library reads and writes: the
error machinery of `elog.c` (`PG_exception_stack`, `error_context_stack`, the
error stack and `ErrorContext`), the session state that guards save and restore,
and the library's own static stacks, `current_postgres_function::calls` and
`spi_executor::executors`.

Postgres is not part of the repository. Its functions appear here with the
behaviour their documentation gives them, and only as far as cppgres calls them.
-/
namespace Cppgres
open NonLocal

abbrev Oid := Nat
abbrev Datum := Nat
abbrev MemoryContext := Nat
abbrev ResourceOwner := Nat
abbrev SigjmpBuf := Nat
abbrev SubTransactionId := Nat

/-- What an error context callback adds to the record being reported. -/
abbrev ErrorContextCallback := String

/-- The error record. `context` is kept as the lines the callbacks added. -/
structure ErrorData where
  sqlerrcode : Nat
  message : String
  detail : Option String
  detailLog : Option String
  hint : Option String
  context : List String
  schemaName : Option String
  tableName : Option String
  columnName : Option String
  datatypeName : Option String
  constraintName : Option String
  cursorpos : Int
  internalpos : Int
  internalquery : Option String
  filename : String
  lineno : Nat
  funcname : String
  deriving DecidableEq, Repr

structure NullableDatum where
  value : Datum
  isnull : Bool
  deriving DecidableEq, Repr

/-- The node in `fcinfo->context`, as far as it is told apart: a `CallContext`, or the state
of an aggregate with its memory context. -/
inductive FmgrNode where
  | callContext (atomic : Bool)
  | aggState (aggcontext : MemoryContext)
  | other
  deriving DecidableEq, Repr

def FmgrNode.atomic : FmgrNode → Option Bool
  | .callContext atomic => some atomic
  | .aggState _ => none
  | .other => none

/-- `address` tells two calls with equal contents apart: the stack holds pointers. -/
structure FunctionCallInfo where
  address : Nat
  context : Option FmgrNode
  deriving DecidableEq, Repr

/-- The globals of `elog.c`. A `pg_exception` keeps its record in a private context;
`records` gives the record held in a context for as long as that context lives. -/
structure Elog where
  exceptionStack : Option SigjmpBuf
  errorContextStack : List ErrorContextCallback
  errordata : List ErrorData
  /-- Contexts that the reset callbacks registered on `ErrorContext` delete. -/
  resetCallbacks : List MemoryContext
  records : MemoryContext → Option ErrorData
  /-- Messages reported at WARNING level, newest first. -/
  warnings : List String
  nextContext : MemoryContext
  nextBuffer : SigjmpBuf

/-- `SPITupleTable`: the types of the columns, and the rows. -/
structure SpiTupleTable where
  tupdesc : List Oid
  vals : List (List NullableDatum)
  deriving DecidableEq, Repr

/-- One connection on the SPI stack. -/
structure SpiConnection where
  procCxt : MemoryContext
  savedcxt : MemoryContext
  connectSubid : Option SubTransactionId
  atomic : Bool
  deriving DecidableEq, Repr

/-- A statement as SPI is given it to execute. -/
structure Statement where
  src : String
  argtypes : List Oid
  values : List Datum
  nulls : List Char
  readOnly : Bool
  tcount : Int
  deriving DecidableEq, Repr

/-- What comes of executing a statement: a return code with `SPI_tuptable` and
`SPI_processed`, or an error. -/
inductive SpiReply where
  | done (rc : Int) (tuptable : Option SpiTupleTable) (processed : Nat)
  | raised (edata : ErrorData)
  deriving DecidableEq, Repr

inductive Fate where
  | released
  | rolledBack
  deriving DecidableEq, Repr

/-- A piece of work, with the subtransactions that were open when it was done. -/
structure Work where
  within : List SubTransactionId
  discarded : Bool
  deriving DecidableEq, Repr

/-- Session state. Stacks have their innermost element first. `contextOf` and
`ownerOf` are the context and the resource owner that are current once a level
(`none` is the top-level transaction) is the innermost one. -/
structure Session where
  currentMemoryContext : MemoryContext
  currentResourceOwner : ResourceOwner
  transaction : Option Nat
  /-- The transactions that ended, latest first. -/
  ended : List (Nat × Fate)
  snapshots : List Nat
  subtransactions : List SubTransactionId
  /-- Open subtransactions whose release failed: only a rollback finishes them. -/
  failed : List SubTransactionId
  /-- Which of the coming calls of `ReleaseCurrentSubTransaction` fail, and with what. -/
  releaseFailures : List (Option ErrorData)
  /-- What a call in the wrong state of the transaction is answered with. -/
  stateError : ErrorData
  /-- The finished subtransactions, latest first. -/
  fates : List (SubTransactionId × Fate)
  work : List Work
  spi : List SpiConnection
  /-- What the next executions of statements come to, counted by `executed`. -/
  outcome : Nat → Statement → SpiReply
  executed : Nat
  spiTuptable : Option SpiTupleTable
  spiProcessed : Nat
  /-- Which of the coming calls of other SPI functions fail, and with what. -/
  spiFailures : List (Option ErrorData)
  /-- The connections that SPI functions worked on so far, newest first. Nothing reads it. -/
  spiCalls : List MemoryContext
  contextOf : Option SubTransactionId → MemoryContext
  ownerOf : Option SubTransactionId → ResourceOwner
  nextSubTransaction : SubTransactionId
  nextTransaction : Nat
  nextSnapshot : Nat
  nextProcCxt : MemoryContext

/-- A `spi_executor`: `address` is what `this` points to. -/
structure SpiExecutor where
  address : Nat
  beforeSpi : MemoryContext
  spi : MemoryContext
  deriving DecidableEq, Repr

/-- `ReturnSetInfo`, with the rows of the tuplestore that `setResult` points to. -/
structure ReturnSetInfo where
  /-- the types of the columns of `expectedDesc` -/
  expectedDesc : Option (List Oid)
  perQueryMemory : MemoryContext
  /-- `returnMode` is `SFRM_Materialize` -/
  materialize : Bool
  setResult : Option (List (List NullableDatum))
  deriving DecidableEq, Repr

/-- The C++ exception objects that travel: a `pg_exception` (its record lives in
`errorCxt`), another `std::exception` with its `what()`, anything else. -/
inductive CppException where
  | pg (mcxt errorCxt : MemoryContext)
  | std (what : String)
  | other
  deriving DecidableEq, Repr

structure Backend where
  elog : Elog
  session : Session
  /-- `current_postgres_function::calls` -/
  calls : List FunctionCallInfo
  /-- `spi_executor::executors` -/
  executors : List SpiExecutor
  nextAddress : Nat
  /-- `fc->resultinfo` and `fc->isnull` of the running call -/
  rsinfo : ReturnSetInfo
  isnull : Bool
  /-- Which of the coming `CHECK_FOR_INTERRUPTS` raise an error. -/
  interrupts : List (Option ErrorData)
  /-- The exceptions that were caught and whose handlers have not ended, latest first, as the C++
  runtime keeps them. A handler that a jump leaves does not end. -/
  caughtExceptions : List CppException
  /-- What `call_info()` and `atomic()` answered so far, newest first. Nothing reads it. -/
  answers : List (Option FunctionCallInfo × Option Bool)

abbrev Cpp (α : Type) := Code CppException SigjmpBuf Backend α

/-! ## elog.c -/

/-- `ERRCODE_INTERNAL_ERROR` (XX000), what `errstart(ERROR, ...)` fills in. -/
def errcodeInternalError : Nat := 2600

/-- The record of `elog(ERROR, ...)` at a place of the source. -/
def elogData (filename : String) (lineno : Nat) (funcname message : String) : ErrorData where
  sqlerrcode := errcodeInternalError
  message := message
  detail := none
  detailLog := none
  hint := none
  context := []
  schemaName := none
  tableName := none
  columnName := none
  datatypeName := none
  constraintName := none
  cursorpos := 0
  internalpos := 0
  internalquery := none
  filename := filename
  lineno := lineno
  funcname := funcname

/-- A backend in the middle of a top-level transaction, with `PostgresMain`'s handler and
nothing else on its stacks. -/
def idle : Machine Backend where
  uncaught := 0
  store :=
    { elog :=
        { exceptionStack := some 0
          errorContextStack := []
          errordata := []
          resetCallbacks := []
          records := fun _ => none
          warnings := []
          nextContext := 1
          nextBuffer := 1 }
      session :=
        { currentMemoryContext := 0
          currentResourceOwner := 0
          transaction := some 0
          ended := []
          snapshots := []
          subtransactions := []
          failed := []
          releaseFailures := []
          stateError := elogData "xact.c" 0 "" "unexpected state"
          fates := []
          work := []
          spi := []
          outcome := fun _ _ => .done 5 (some ⟨[], []⟩) 0
          executed := 0
          spiTuptable := none
          spiProcessed := 0
          spiFailures := []
          spiCalls := []
          contextOf := fun level => level.elim 0 (· + 1)
          ownerOf := fun level => level.elim 0 (· + 1)
          nextSubTransaction := 0
          nextTransaction := 1
          nextSnapshot := 0
          nextProcCxt := 1 }
      calls := []
      executors := []
      nextAddress := 0
      rsinfo := ⟨none, 0, false, none⟩
      isnull := false
      interrupts := []
      caughtExceptions := []
      answers := [] }

namespace Elog

/-- `errfinish`: the callbacks add their lines and the record goes on the error stack. -/
def errfinish (elog : Elog) (edata : ErrorData) : Elog :=
  { elog with
    errordata := { edata with context := edata.context ++ elog.errorContextStack } ::
      elog.errordata }

/-- `ReThrowError`: the record goes on the error stack as it is, without the callbacks. -/
def reThrowError (elog : Elog) (edata : ErrorData) : Elog :=
  { elog with errordata := edata :: elog.errordata }

/-- `FlushErrorState` empties the error stack and resets `ErrorContext`, whose
callbacks delete their contexts. -/
def flushErrorState (elog : Elog) : Elog :=
  { elog with
    errordata := []
    resetCallbacks := []
    records := fun context => if context ∈ elog.resetCallbacks then none else elog.records context }

/-- An address for a new context: past every one handed out or waiting for deletion. -/
def freshContext (elog : Elog) : MemoryContext :=
  elog.resetCallbacks.foldr (fun context next => max (context + 1) next) elog.nextContext

/-- A fresh context that holds a copy of `edata`. -/
def storeRecord (elog : Elog) (edata : ErrorData) : Elog :=
  { elog with
    records := fun context =>
      if context = elog.freshContext then some edata else elog.records context
    nextContext := elog.freshContext + 1 }

def deleteRecord (elog : Elog) (context : MemoryContext) : Elog :=
  { elog with records := fun other => if other = context then none else elog.records other }

end Elog

theorem Elog.nextContext_le_fresh (elog : Elog) : elog.nextContext ≤ elog.freshContext := by
  unfold freshContext
  induction elog.resetCallbacks with
  | nil => exact Nat.le_refl _
  | cons context rest ih =>
    simp only [List.foldr_cons]
    exact Nat.le_trans ih (Nat.le_max_right _ _)

theorem Elog.lt_fresh_of_mem (elog : Elog) {context : MemoryContext}
    (pending : context ∈ elog.resetCallbacks) : context < elog.freshContext := by
  unfold freshContext
  generalize elog.resetCallbacks = callbacks at pending
  induction callbacks with
  | nil => cases pending
  | cons head rest ih =>
    simp only [List.foldr_cons]
    rcases List.mem_cons.mp pending with equal | member
    · subst equal
      exact Nat.le_max_left _ _
    · exact Nat.lt_of_lt_of_le (ih member) (Nat.le_max_right _ _)

/-- The context a `pg_exception` is given survives the flush that follows. -/
theorem Elog.fresh_not_pending (elog : Elog) : elog.freshContext ∉ elog.resetCallbacks :=
  fun pending => Nat.lt_irrefl _ (elog.lt_fresh_of_mem pending)

def modifyElog (f : Elog → Elog) : Cpp Unit :=
  Code.modify fun b => { b with elog := f b.elog }

def modifySession (f : Session → Session) : Cpp Unit :=
  Code.modify fun b => { b with session := f b.session }

/-- `PG_RE_THROW`: jump to the innermost handler. Without one the error is fatal. -/
def pgReThrow {α : Type} : Cpp α := do
  let b ← Code.get
  match b.elog.exceptionStack with
  | some buffer => Code.siglongjmp buffer
  | none => Code.abort

/-- Raise a Postgres error: `ereport(ERROR, ...)` up to the jump in `errfinish`. -/
def ereport {α : Type} (edata : ErrorData) : Cpp α := do
  modifyElog (·.errfinish edata)
  pgReThrow

/-- `elog(ERROR, ...)` is caught by the innermost handler, `elog(FATAL, ...)` by none. -/
inductive Failure where
  | error (edata : ErrorData)
  | fatal
  deriving DecidableEq, Repr

/-- A call of a Postgres function that works on the session and may fail. -/
def postgres {α : Type} (f : Session → Except Failure α × Session) : Cpp α := do
  let b ← Code.get
  modifySession fun s => (f s).2
  match (f b.session).1 with
  | .ok value => pure value
  | .error (.error edata) => ereport edata
  | .error .fatal => Code.abort

@[simp] theorem modifyElog_apply (f : Elog → Elog) (s : Machine Backend) :
    modifyElog f s = (.returned (), { s with store := { s.store with elog := f s.store.elog } }) :=
  rfl

@[simp] theorem modifySession_apply (f : Session → Session) (s : Machine Backend) :
    modifySession f s =
      (.returned (), { s with store := { s.store with session := f s.store.session } }) :=
  rfl

/-- Where a Postgres error goes from a given store. -/
def Elog.landing {α : Type} (elog : Elog) : Exit CppException SigjmpBuf α :=
  match elog.exceptionStack with
  | some buffer => .jumped buffer
  | none => .aborted

theorem pgReThrow_apply {α : Type} (s : Machine Backend) :
    (pgReThrow : Cpp α) s = (s.store.elog.landing, s) := by
  unfold pgReThrow Elog.landing
  simp only [Code.get_bind]
  cases s.store.elog.exceptionStack <;> rfl

theorem ereport_apply {α : Type} (edata : ErrorData) (s : Machine Backend) :
    (ereport edata : Cpp α) s =
      (s.store.elog.landing,
        { s with store := { s.store with elog := s.store.elog.errfinish edata } }) := by
  unfold ereport
  rw [Code.bind_returned (modifyElog_apply _ s), pgReThrow_apply]
  rfl

end Cppgres
