import Cppgres.Function.CurrentFunction

/-!
# Nested layers of C++ and Postgres code

A `Layer` is a tree of nested C++ and Postgres frames together with the way each of
them ends. Postgres functions called under `ffi_guard`, C++ callbacks under
`exception_guard` and functions wrapped by `postgres_function` nest to any depth.

`Layer.run` is the code such a tree stands for, put together from the library's own
guards. `Layer.outcome` says what should come of it, with an error as a plain value
that handlers either take or pass on: no buffers, no error stack, no contexts.
`Layer.ending` says what does come of it: beside the outcome it keeps the exceptions
whose handlers never ended, because `throw;` and the end of a handler are about the
latest of them.
-/
namespace Cppgres
open NonLocal

/-- The exception type a catch clause names. `pg_exception` is a `std::exception`. -/
inductive CatchClause where
  | pgException
  | stdException
  | all
  deriving DecidableEq, Repr

def CatchClause.accepts : CatchClause → CppException → Bool
  | .pgException, .pg _ _ => true
  | .stdException, .pg _ _ => true
  | .stdException, .std _ => true
  | .all, _ => true
  | _, _ => false

/-- How a handler of C++ code ends when its own statements return. -/
inductive Handler where
  /-- the handler's block ends and the exception with it -/
  | swallow (clause : CatchClause)
  /-- `throw;` -/
  | resume (clause : CatchClause)
  /-- `e.rethrow();` in a handler of `pg_exception &e` -/
  | toPostgres
  deriving DecidableEq, Repr

def Handler.clause : Handler → CatchClause
  | .swallow clause => clause
  | .resume clause => clause
  | .toPostgres => .pgException

inductive Layer where
  | done
  | seq (first second : Layer)
  /-- C++ code asks `call_info()` and `atomic()` -/
  | inquire
  /-- `MemoryContextSwitchTo` -/
  | switchTo (context : MemoryContext)
  /-- a Postgres error raised at this place: by Postgres code, or by C++ code through
  `cppgres::report(ERROR, ...)` or `CHECK_FOR_INTERRUPTS` -/
  | ereport (edata : ErrorData)
  | throwStd (what : String)
  | throwOther
  /-- a C++ try-block with one catch clause -/
  | attempt (body : Layer) (handler : Handler) (statements : Layer)
  /-- a Postgres function under `ffi_guard`; it works with error context callbacks of its own -/
  | guarded (callbacks : List ErrorContextCallback) (body : Layer)
  /-- a C++ callback under `exception_guard` -/
  | callback (body : Layer)
  /-- a call of a function wrapped by `postgres_function` -/
  | call (fc : FunctionCallInfo) (checks body : Layer)

/-- The statements of a handler. An exception out of them ends the handler. -/
def handlerBlock (statements : Cpp Unit) : Cpp Unit :=
  Code.catching statements fun replacement => do
    endCatch
    Code.throwing replacement

/-- A try-block. Its handler ends and throws again what is then on top of the runtime's stack:
the caught exception, unless the statements left others there. `e.rethrow()` is about the
caught one in any case. -/
def tryCatch (body : Cpp Unit) (handler : Handler) (statements : Cpp Unit) : Cpp Unit :=
  Code.catching body fun exception =>
    if handler.clause.accepts exception then do
      beginCatch exception
      handlerBlock statements
      match handler, exception with
      | .swallow _, _ => endCatch
      | .resume _, _ => throwAgain
      | .toPostgres, .pg _ errorCxt => rethrow errorCxt
      | .toPostgres, _ => throwAgain
    else Code.throwing exception

/-- A Postgres function that runs `body` with its own callbacks on `error_context_stack`
and takes them off again before it returns. -/
def withErrorContext (callbacks : List ErrorContextCallback) (body : Cpp Unit) : Cpp Unit := do
  let b ← Code.get
  modifyElog fun e => { e with errorContextStack := callbacks ++ e.errorContextStack }
  body
  modifyElog fun e => { e with errorContextStack := b.elog.errorContextStack }

def Layer.run : Layer → Cpp Unit
  | .done => pure ()
  | .seq first second => do
    first.run
    second.run
  | .inquire => Cppgres.inquire
  | .switchTo context => modifySession fun s => { s with currentMemoryContext := context }
  | .ereport edata => Cppgres.ereport edata
  | .throwStd what => Code.throwing (.std what)
  | .throwOther => Code.throwing .other
  | .attempt body handler statements => tryCatch body.run handler statements.run
  | .guarded callbacks body => ffiGuard (withErrorContext callbacks body.run)
  | .callback body => exceptionGuard body.run
  | .call fc checks body => postgresFunction fc checks.run fun _ => body.run

/-! ## What should come of it -/

/-- An exception as a value, without the context its record is kept in. -/
inductive Raised where
  | pg (edata : ErrorData)
  /-- a `pg_exception` that became a Postgres error again, which was handled: its record is gone -/
  | gone
  | std (what : String)
  | other
  deriving DecidableEq, Repr

/-- How a layer ends: it returns, a Postgres error passes it, an exception does, or it touches
a record that is gone. -/
inductive Outcome where
  | finished
  | error (edata : ErrorData)
  | exception (raised : Raised)
  | undefined
  deriving DecidableEq, Repr

/-- What an exception becomes at an `exception_guard`, below the given callbacks. -/
def Raised.reported (callbacks : List ErrorContextCallback) : Raised → Outcome
  | .pg edata => .error edata
  | .gone => .undefined
  | .std what => .error { reportData ("exception: " ++ what) with context := callbacks }
  | .other => .error { reportData "some exception occurred" with context := callbacks }

def CatchClause.takes : CatchClause → Raised → Bool
  | .pgException, .pg _ => true
  | .pgException, .gone => true
  | .stdException, .pg _ => true
  | .stdException, .gone => true
  | .stdException, .std _ => true
  | .all, _ => true
  | _, _ => false

/-- An `ffi_guard` seen from outside: errors leave it as exceptions. -/
def Outcome.asException : Outcome → Outcome
  | .error edata => .exception (.pg edata)
  | outcome => outcome

/-- An `exception_guard` seen from outside: exceptions leave it as errors. -/
def Outcome.asError (callbacks : List ErrorContextCallback) : Outcome → Outcome
  | .exception raised => raised.reported callbacks
  | outcome => outcome

/-- The end of a handler whose own statements returned. -/
def Handler.conclude : Handler → Raised → Outcome
  | .swallow _, .gone => .undefined
  | .swallow _, _ => .finished
  | .resume _, raised => .exception raised
  | .toPostgres, .pg edata => .error edata
  | .toPostgres, .gone => .undefined
  | .toPostgres, raised => .exception raised

/-- Two statements in a row. -/
def Outcome.andThen : Outcome → Outcome → Outcome
  | .finished, second => second
  | stopped, _ => stopped

/-- A try-block, from the outcomes of its body and of its handler's statements. -/
def Handler.around (handler : Handler) : Outcome → Outcome → Outcome
  | .exception raised, statements =>
    if handler.clause.takes raised then
      match statements with
      | .finished => handler.conclude raised
      | replaced => replaced
    else .exception raised
  | passed, _ => passed

/-- The outcome of a layer below the given error context callbacks. -/
def Layer.outcome : List ErrorContextCallback → Layer → Outcome
  | _, .done => .finished
  | callbacks, .seq first second => (first.outcome callbacks).andThen (second.outcome callbacks)
  | _, .inquire => .finished
  | _, .switchTo _ => .finished
  | callbacks, .ereport edata => .error { edata with context := edata.context ++ callbacks }
  | _, .throwStd what => .exception (.std what)
  | _, .throwOther => .exception .other
  | callbacks, .attempt body handler statements =>
    handler.around (body.outcome callbacks) (statements.outcome callbacks)
  | callbacks, .guarded own body => (body.outcome (own ++ callbacks)).asException
  | callbacks, .callback body => (body.outcome callbacks).asError callbacks
  | callbacks, .call _ checks body =>
    ((checks.outcome callbacks).andThen (body.outcome callbacks)).asError callbacks

/-! ## What does come of it -/

/-- How a layer ends, and the exceptions it leaves on the runtime's stack, latest first: a
handler that a Postgres error leaves does not end, and its exception stays there. -/
structure LayerEnding where
  outcome : Outcome
  left : List Raised
  deriving DecidableEq, Repr

def Outcome.isFinished : Outcome → Bool
  | .finished => true
  | _ => false

/-- What is left of an exception that becomes a Postgres error. The context of a
`pg_exception` goes with the error. -/
def Raised.handedOver : Raised → Raised
  | .pg _ => .gone
  | raised => raised

/-- A handler ends by destroying the exception on top of the stack. -/
def Outcome.endingCatch (outcome : Outcome) : List Raised → LayerEnding
  | [] => ⟨.undefined, []⟩
  | .gone :: older => ⟨.undefined, older⟩
  | _ :: older => ⟨outcome, older⟩

/-- `throw;` with these exceptions on the stack. -/
def throwingAgain : List Raised → LayerEnding
  | [] => ⟨.undefined, []⟩
  | raised :: older => ⟨.exception raised, older⟩

namespace LayerEnding

def andThen (first second : LayerEnding) : LayerEnding where
  outcome := first.outcome.andThen second.outcome
  left := (if first.outcome.isFinished then second.left else []) ++ first.left

def asException (ending : LayerEnding) : LayerEnding :=
  { ending with outcome := ending.outcome.asException }

/-- The exception a handler of `exception_guard` reports stays caught. -/
def asError (callbacks : List ErrorContextCallback) : LayerEnding → LayerEnding
  | ⟨.exception raised, left⟩ => ⟨raised.reported callbacks, raised.handedOver :: left⟩
  | ending => ending

end LayerEnding

/-- A handler that was entered with `raised`, from the ending of its statements; `older` is what
the try-block's body left. -/
def Handler.close (handler : Handler) (raised : Raised) (statements : LayerEnding)
    (older : List Raised) : LayerEnding :=
  match statements.outcome, handler, raised with
  | .finished, .swallow _, _ => Outcome.finished.endingCatch (statements.left ++ raised :: older)
  | .finished, .resume _, _ => throwingAgain (statements.left ++ raised :: older)
  | .finished, .toPostgres, .pg edata => ⟨.error edata, statements.left ++ .gone :: older⟩
  | .finished, .toPostgres, .gone => ⟨.undefined, statements.left ++ .gone :: older⟩
  | .finished, .toPostgres, _ => throwingAgain (statements.left ++ raised :: older)
  | .exception replacement, _, _ =>
    (Outcome.exception replacement).endingCatch (statements.left ++ raised :: older)
  | stopped, _, _ => ⟨stopped, statements.left ++ raised :: older⟩

/-- A try-block with what its handler leaves behind. -/
def Handler.attempting (handler : Handler) (body statements : LayerEnding) : LayerEnding :=
  match body.outcome with
  | .exception raised =>
    if handler.clause.takes raised then handler.close raised statements body.left else body
  | _ => body

def Layer.ending : List ErrorContextCallback → Layer → LayerEnding
  | _, .done => ⟨.finished, []⟩
  | callbacks, .seq first second => (first.ending callbacks).andThen (second.ending callbacks)
  | _, .inquire => ⟨.finished, []⟩
  | _, .switchTo _ => ⟨.finished, []⟩
  | callbacks, .ereport edata => ⟨.error { edata with context := edata.context ++ callbacks }, []⟩
  | _, .throwStd what => ⟨.exception (.std what), []⟩
  | _, .throwOther => ⟨.exception .other, []⟩
  | callbacks, .attempt body handler statements =>
    handler.attempting (body.ending callbacks) (statements.ending callbacks)
  | callbacks, .guarded own body => (body.ending (own ++ callbacks)).asException
  | callbacks, .callback body => (body.ending callbacks).asError callbacks
  | callbacks, .call _ checks body =>
    ((checks.ending callbacks).andThen (body.ending callbacks)).asError callbacks

end Cppgres
