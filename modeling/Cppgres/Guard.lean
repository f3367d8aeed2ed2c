import Cppgres.NonLocal.Ends
import Cppgres.NonLocal.Returns
import Cppgres.Postgres.Backend

/-!
# Guards between C++ and Postgres

`guard.hpp`, `exception_impl.hpp` and `error.hpp`: `ffi_guard` turns a Postgres error
into a `pg_exception`, `exception_guard` turns an exception back into a Postgres error.
The calls that `pg_exception`'s constructor and `rethrow` make under `ffi_guard`s of
their own (`CopyErrorData`, `FlushErrorState`, a small `MemoryContextAlloc`) raise no
error, so they stand here without those guards.
-/
namespace Cppgres
open NonLocal

/-- `pg_exception::pg_exception(mcxt)`: the record on top of the error stack is copied
into a context of its own, and the error stack is flushed. -/
def pgException (mcxt : MemoryContext) : Cpp CppException := do
  let b ← Code.get
  match b.elog.errordata with
  | [] => Code.abort
  | edata :: _ => do
    modifyElog (·.storeRecord edata)
    modifySession fun s => { s with currentMemoryContext := mcxt }
    modifyElog (·.flushErrorState)
    pure (.pg mcxt b.elog.freshContext)

/-- `ffi_guard::operator()`. The deferred lambda that restores the two stacks is a local
object: it runs on return and on an exception, never on a jump. -/
def ffiGuard {α : Type} (func : Cpp α) : Cpp α := do
  let b ← Code.get
  let mcxt := b.session.currentMemoryContext
  let pbuf := b.elog.exceptionStack
  let cb := b.elog.errorContextStack
  let buf := b.elog.nextBuffer
  modifyElog fun e => { e with exceptionStack := some buf, nextBuffer := buf + 1 }
  Code.raii
    (Code.sigsetjmp buf func (do Code.throwing (← pgException mcxt)))
    (modifyElog fun e => { e with errorContextStack := cb, exceptionStack := pbuf })

/-- The end of an exception object: `~pg_exception` deletes its context. -/
def dropException : CppException → Cpp Unit
  | .pg _ errorCxt => modifyElog (·.deleteRecord errorCxt)
  | .std _ => pure ()
  | .other => pure ()

/-- The context of a `pg_exception` is gone: the exception became a Postgres error again, and
the error was handled. -/
def CppException.deleted (elog : Elog) : CppException → Bool
  | .pg _ errorCxt => (elog.records errorCxt).isNone
  | .std _ => false
  | .other => false

/-- `ffi_guard_noexcept`: any failure becomes a warning. Its handler leaves nothing on top of
its own exception. -/
def ffiGuardNoexcept (f : Cpp Unit) (warningMessage : String) : Cpp Unit :=
  Code.catching (ffiGuard f) fun exception => do
    modifyElog fun e => { e with warnings := warningMessage :: e.warnings }
    dropException exception

/-- The record `cppgres::report(ERROR, ...)` builds around a formatted message. -/
def reportData (message : String) : ErrorData := elogData "error.hpp" 48 "report" message

/-- `cppgres::report(ERROR, ...)`: an error raised by C++ code itself. -/
def report {α : Type} (message : String) : Cpp α := ereport (reportData message)

/-- `pg_exception::rethrow`. The jump skips the destructor of the exception, so its
context is left to a reset callback of `ErrorContext`. -/
def rethrow {α : Type} (errorCxt : MemoryContext) : Cpp α := do
  let b ← Code.get
  match b.elog.records errorCxt with
  | none => Code.abort
  | some edata => do
    modifyElog fun e => { e with resetCallbacks := errorCxt :: e.resetCallbacks }
    modifyElog (·.reThrowError edata)
    pgReThrow

/-- The catch clauses of `exception_guard`, in their order. -/
def exceptionGuardHandler {α : Type} : CppException → Cpp α
  | .pg _ errorCxt => rethrow errorCxt
  | .std what => report ("exception: " ++ what)
  | .other => report "some exception occurred"

/-- A handler is entered. -/
def beginCatch (exception : CppException) : Cpp Unit :=
  Code.modify fun b => { b with caughtExceptions := exception :: b.caughtExceptions }

/-- The runtime takes the exception that was caught last off its stack. -/
def takeCaught : Cpp CppException := do
  let b ← Code.get
  match b.caughtExceptions with
  | [] => Code.abort
  | exception :: older => do
    Code.modify fun b => { b with caughtExceptions := older }
    pure exception

/-- A handler ends, by its closing brace or with an exception out of it: the runtime destroys
the exception on top of its stack, whichever that is. To delete one context twice is undefined. -/
def endCatch : Cpp Unit := do
  let exception ← takeCaught
  let b ← Code.get
  if exception.deleted b.elog then Code.abort else dropException exception

/-- `throw;` throws the exception on top of that stack. Without one the process ends. -/
def throwAgain {α : Type} : Cpp α := do
  Code.throwing (← takeCaught)

/-- `exception_guard::operator()`. A jump leaves its handlers, so they do not end. -/
def exceptionGuard {α : Type} (func : Cpp α) : Cpp α :=
  Code.catching func fun exception => do
    beginCatch exception
    exceptionGuardHandler exception

/-- The machine in which the handler of an exception runs. -/
def handlerEntry (exception : CppException) (t : Machine Backend) : Machine Backend where
  uncaught := t.uncaught - 1
  store := { t.store with caughtExceptions := exception :: t.store.caughtExceptions }

theorem exceptionGuard_thrown {α : Type} {func : Cpp α} {exception : CppException}
    {s t : Machine Backend} (run : func s = (.thrown exception, t)) :
    exceptionGuard func s = exceptionGuardHandler exception (handlerEntry exception t) := by
  unfold exceptionGuard Code.catching
  rw [run]
  rfl

section CaughtExceptions
variable {exception : CppException} {older : List CppException} {s : Machine Backend}

/-- A machine whose caught exceptions are others. -/
def withCaught (older : List CppException) (s : Machine Backend) : Machine Backend :=
  { s with store := { s.store with caughtExceptions := older } }

theorem takeCaught_apply (top : s.store.caughtExceptions = exception :: older) :
    takeCaught s = (.returned exception, withCaught older s) := by
  unfold takeCaught
  simp only [Code.get_bind, top, Code.modify_bind]
  rfl

theorem endCatch_apply (top : s.store.caughtExceptions = exception :: older) :
    endCatch s =
      if exception.deleted s.store.elog then (.aborted, withCaught older s)
      else dropException exception (withCaught older s) := by
  unfold endCatch
  rw [Code.bind_returned (takeCaught_apply top), Code.get_bind]
  have same : (withCaught older s).store.elog = s.store.elog := rfl
  rw [same]
  split <;> rfl

theorem throwAgain_apply {α : Type} (top : s.store.caughtExceptions = exception :: older) :
    (throwAgain : Cpp α) s = (Code.throwing exception : Cpp α) (withCaught older s) := by
  unfold throwAgain
  rw [Code.bind_returned (takeCaught_apply top)]

end CaughtExceptions

/-- The record of an exception that still has one is on its way to the innermost handler. -/
theorem rethrow_apply {α : Type} {errorCxt : MemoryContext} {edata : ErrorData}
    {s : Machine Backend} (held : s.store.elog.records errorCxt = some edata) :
    (rethrow errorCxt : Cpp α) s =
      (s.store.elog.landing, { s with store := { s.store with
        elog := { s.store.elog with
          resetCallbacks := errorCxt :: s.store.elog.resetCallbacks
          errordata := edata :: s.store.elog.errordata } } }) := by
  unfold rethrow
  simp only [Code.get_bind, held]
  rw [Code.bind_returned (modifyElog_apply _ _), Code.bind_returned (modifyElog_apply _ _),
    pgReThrow_apply]
  rfl

/-! ## What a guard does, by the way its body ends -/

section FfiGuard
variable {α : Type} (func : Cpp α) (s : Machine Backend)

/-- The machine an `ffi_guard` runs its body in. -/
def ffiGuardEntry : Machine Backend :=
  { s with
    store := { s.store with
      elog := { s.store.elog with
        exceptionStack := some s.store.elog.nextBuffer
        nextBuffer := s.store.elog.nextBuffer + 1 } } }

/-- The machine it leaves: both stacks of `entry`, all else as the body left it. -/
def ffiGuardRestore (entry t : Machine Backend) : Machine Backend :=
  { t with
    store := { t.store with
      elog := { t.store.elog with
        errorContextStack := entry.store.elog.errorContextStack
        exceptionStack := entry.store.elog.exceptionStack } } }

/-- The machine after a Postgres error with record `edata` has become a `pg_exception`. -/
def ffiGuardCaught (entry t : Machine Backend) (edata : ErrorData) : Machine Backend where
  uncaught := t.uncaught + 1
  store := { t.store with
    elog := { (t.store.elog.storeRecord edata).flushErrorState with
      errorContextStack := entry.store.elog.errorContextStack
      exceptionStack := entry.store.elog.exceptionStack }
    session := { t.store.session with
      currentMemoryContext := entry.store.session.currentMemoryContext } }

variable {func s} {t : Machine Backend}

theorem ffiGuard_eq :
    ffiGuard func s =
      Code.raii
        (Code.sigsetjmp s.store.elog.nextBuffer func
          (do Code.throwing (← pgException s.store.session.currentMemoryContext)))
        (modifyElog fun e => { e with
          errorContextStack := s.store.elog.errorContextStack
          exceptionStack := s.store.elog.exceptionStack })
        (ffiGuardEntry s) := rfl

/-- A guard sees of its body what it does from the guard's entry on. -/
theorem ffiGuard_congr {other : Cpp α} (same : func (ffiGuardEntry s) = other (ffiGuardEntry s)) :
    ffiGuard func s = ffiGuard other s := by
  rw [ffiGuard_eq, ffiGuard_eq]
  simp only [Code.raii, Code.leaving, Code.sigsetjmp, same]

theorem ffiGuard_returned {value : α} (run : func (ffiGuardEntry s) = (.returned value, t)) :
    ffiGuard func s = (.returned value, ffiGuardRestore s t) := by
  rw [ffiGuard_eq]
  simp only [Code.raii, Code.leaving, Code.unwound, Code.sigsetjmp, run, modifyElog_apply]
  rfl

theorem ffiGuard_thrown {exception : CppException}
    (run : func (ffiGuardEntry s) = (.thrown exception, t)) :
    ffiGuard func s = (.thrown exception, ffiGuardRestore s t) := by
  rw [ffiGuard_eq]
  simp only [Code.raii, Code.leaving, Code.unwound, Code.sigsetjmp, run, modifyElog_apply]
  rfl

theorem ffiGuard_aborted (run : func (ffiGuardEntry s) = (.aborted, t)) :
    ffiGuard func s = (.aborted, t) := by
  rw [ffiGuard_eq]
  simp only [Code.raii, Code.leaving, Code.sigsetjmp, run]

/-- A jump to the guard's own buffer becomes a `pg_exception`. -/
theorem ffiGuard_jumped {edata : ErrorData} {older : List ErrorData}
    (run : func (ffiGuardEntry s) = (.jumped s.store.elog.nextBuffer, t))
    (raised : t.store.elog.errordata = edata :: older) :
    ffiGuard func s =
      (.thrown (.pg s.store.session.currentMemoryContext t.store.elog.freshContext),
        ffiGuardCaught s t edata) := by
  rw [ffiGuard_eq]
  simp only [Code.raii, Code.leaving, Code.unwound, Code.sigsetjmp, run, if_pos]
  have built : pgException s.store.session.currentMemoryContext t =
      (.returned (.pg s.store.session.currentMemoryContext t.store.elog.freshContext),
        { t with store := { t.store with
          elog := (t.store.elog.storeRecord edata).flushErrorState
          session := { t.store.session with
            currentMemoryContext := s.store.session.currentMemoryContext } } }) := by
    unfold pgException
    simp only [Code.get_bind, raised]
    rfl
  rw [Code.bind_returned built]
  rfl

end FfiGuard

theorem ffiGuardNoexcept_returned {f : Cpp Unit} {warningMessage : String} {s t : Machine Backend}
    (run : ffiGuard f s = (.returned (), t)) :
    ffiGuardNoexcept f warningMessage s = (.returned (), t) := by
  unfold ffiGuardNoexcept Code.catching
  rw [run]

/-! ## A Postgres function under a guard -/

section Postgres
variable {α : Type} {f : Session → Except Failure α × Session} {s : Machine Backend}
  {session : Session}

/-- A machine that goes on with another session. -/
def Session.into (session : Session) (s : Machine Backend) : Machine Backend :=
  { s with store := { s.store with session := session } }

theorem postgres_apply :
    postgres f s =
      match (f s.store.session).1 with
      | .ok value => (.returned value, (f s.store.session).2.into s)
      | .error (.error edata) => ereport edata ((f s.store.session).2.into s)
      | .error .fatal => (.aborted, (f s.store.session).2.into s) := by
  unfold postgres
  simp only [Code.get_bind]
  rw [Code.bind_returned (modifySession_apply _ _)]
  rcases (f s.store.session).1 with (edata | _) | value <;> rfl

theorem postgres_ok {value : α} (run : f s.store.session = (.ok value, session)) :
    postgres f s = (.returned value, session.into s) := by
  rw [postgres_apply, run]

theorem postgres_error {edata : ErrorData}
    (run : f s.store.session = (.error (.error edata), session)) :
    postgres f s = ereport edata (session.into s) := by
  rw [postgres_apply, run]

theorem postgres_fatal (run : f s.store.session = (.error .fatal, session)) :
    postgres f s = (.aborted, session.into s) := by
  rw [postgres_apply, run]

theorem ffiGuard_postgres_ok {value : α} (run : f s.store.session = (.ok value, session)) :
    ffiGuard (postgres f) s =
      (.returned value, ffiGuardRestore s (session.into (ffiGuardEntry s))) :=
  ffiGuard_returned (postgres_ok run)

/-- The current memory context is the one of the guard's entry again. -/
theorem ffiGuard_postgres_error {edata : ErrorData}
    (run : f s.store.session = (.error (.error edata), session)) :
    ∃ errorCxt elog, ffiGuard (postgres f) s =
      (.thrown (.pg s.store.session.currentMemoryContext errorCxt),
        { uncaught := s.uncaught + 1
          store := { s.store with
            elog := elog
            session := { session with
              currentMemoryContext := s.store.session.currentMemoryContext } } }) := by
  have raised : postgres f (ffiGuardEntry s) =
      (.jumped s.store.elog.nextBuffer, { session.into (ffiGuardEntry s) with
        store := { (session.into (ffiGuardEntry s)).store with
          elog := (ffiGuardEntry s).store.elog.errfinish edata } }) := by
    have called : postgres f (ffiGuardEntry s) = ereport edata _ := postgres_error run
    rw [called, ereport_apply]
    rfl
  exact ⟨_, _, ffiGuard_jumped raised rfl⟩

theorem ffiGuard_postgres_fatal (run : f s.store.session = (.error .fatal, session)) :
    ffiGuard (postgres f) s = (.aborted, session.into (ffiGuardEntry s)) :=
  ffiGuard_aborted (postgres_fatal run)

/-- A guarded call returns or throws as the function of the session does. -/
theorem ends_ffiGuard_postgres {returns : α → Backend → Prop}
    {throws : CppException → Backend → Prop}
    (ok : ∀ value session elog, f s.store.session = (.ok value, session) →
      returns value { s.store with elog := elog, session := session })
    (error : ∀ edata session exception elog, f s.store.session = (.error (.error edata), session) →
      throws exception { s.store with
        elog := elog
        session := { session with
          currentMemoryContext := s.store.session.currentMemoryContext } }) :
    (ffiGuard (postgres f)).Ends s returns throws := by
  rcases run : f s.store.session with ⟨(edata | _) | value, session⟩
  · obtain ⟨errorCxt, elog, called⟩ := ffiGuard_postgres_error run
    exact .of_thrown called rfl (error _ _ _ _ run)
  · exact .of_aborted (ffiGuard_postgres_fatal run)
  · exact .of_returned (ffiGuard_postgres_ok run) rfl (ok _ _ _ run)

end Postgres

/-! ## When guarded code returns -/

section Returns
variable {α : Type} {s : Machine Backend}

theorem not_returns_pgReThrow {post : α → Machine Backend → Prop} :
    ¬ (pgReThrow : Cpp α).Returns s post := by
  unfold Code.Returns
  rw [pgReThrow_apply]
  unfold Elog.landing
  cases s.store.elog.exceptionStack <;> exact False.elim

@[simp] theorem returns_ereport {edata : ErrorData} {post : α → Machine Backend → Prop} :
    (ereport edata : Cpp α).Returns s post ↔ False := by
  unfold ereport
  rw [Code.returns_bind]
  exact ⟨not_returns_pgReThrow, False.elim⟩

/-- What was reported as an error does not return. -/
theorem not_returns_exceptionGuardHandler {post : α → Machine Backend → Prop}
    (exception : CppException) : ¬ (exceptionGuardHandler exception : Cpp α).Returns s post := by
  cases exception with
  | pg mcxt errorCxt =>
    unfold exceptionGuardHandler rethrow
    rw [Code.returns_bind, Code.returns_get]
    cases s.store.elog.records errorCxt with
    | none => exact False.elim
    | some edata => exact not_returns_pgReThrow
  | std what => exact returns_ereport.mp
  | other => exact returns_ereport.mp

@[simp] theorem returns_exceptionGuard {func : Cpp α} {post : α → Machine Backend → Prop} :
    (exceptionGuard func).Returns s post ↔ func.Returns s post :=
  Code.returns_catching fun exception _ => not_returns_exceptionGuardHandler exception

@[simp] theorem returns_ffiGuard {func : Cpp α} {post : α → Machine Backend → Prop} :
    (ffiGuard func).Returns s post ↔
      func.Returns (ffiGuardEntry s) fun value t => post value (ffiGuardRestore s t) := by
  rw [Code.Returns.congr (@ffiGuard_eq _ func s), Code.returns_raii]
  refine (Code.returns_sigsetjmp fun t => ?_).trans Iff.rfl
  unfold pgException
  rw [Code.returns_bind, Code.returns_bind, Code.returns_get]
  cases t.store.elog.errordata <;> exact id

end Returns

end Cppgres
