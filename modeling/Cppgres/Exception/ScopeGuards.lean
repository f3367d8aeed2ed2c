import Cppgres.Guard
import Cppgres.NonLocal.GuardTraces

/-!
# Scope guards

`scope_fail` and `scope_exit` of `guard.hpp`, in programs that hold them in nested scopes, throw and
catch exceptions, and construct guards in destructors and in the callables of other guards.
-/
namespace Cppgres
open NonLocal

/-- The backend, and what a program did with its guards. Those below `fresh` were constructed. -/
structure Traced where
  backend : Backend
  trace : List (ScopeEvent CppException)
  fresh : Nat

abbrev Tracing (α : Type) := Code CppException SigjmpBuf Traced α

namespace Traced
variable {α : Type}

/-- Code of the backend, of which nothing is traced. -/
def lift (m : Cpp α) : Tracing α := fun s =>
  let (exit, t) := m ⟨s.uncaught, s.store.backend⟩
  (exit, ⟨t.uncaught, { s.store with backend := t.store }⟩)

def note (event : ScopeEvent CppException) : Tracing Unit :=
  Code.modify fun traced => { traced with trace := traced.trace ++ [event] }

/-- How code gave control back, where it did not jump and the process goes on. -/
def noting (event : Option CppException → ScopeEvent CppException) (m : Tracing Unit) :
    Tracing Unit := fun s =>
  match m s with
  | (.returned value, t) => (.returned value, (note (event none) t).2)
  | (.thrown exception, t) => (.thrown exception, (note (event (some exception)) t).2)
  | exit => exit

/-- `ffi_guard::operator()` around a program. -/
def ffiGuard (func : Tracing α) : Tracing α := do
  let b ← lift Code.get
  let mcxt := b.session.currentMemoryContext
  let pbuf := b.elog.exceptionStack
  let cb := b.elog.errorContextStack
  let buf := b.elog.nextBuffer
  lift (modifyElog fun e => { e with exceptionStack := some buf, nextBuffer := buf + 1 })
  Code.raii
    (Code.sigsetjmp buf func (do Code.throwing (← lift (pgException mcxt))))
    (lift (modifyElog fun e => { e with errorContextStack := cb, exceptionStack := pbuf }))

/-- `ffi_guard_noexcept` around a program. -/
def ffiGuardNoexcept (f : Tracing Unit) (warningMessage : String) : Tracing Unit :=
  Code.catching (ffiGuard f) fun exception => lift do
    modifyElog fun e => { e with warnings := warningMessage :: e.warnings }
    dropException exception

/-- A number for a new guard. -/
def constructed (trigger : Trigger) : Tracing Nat := do
  let traced ← Code.get
  Code.modify fun traced => { traced with fresh := traced.fresh + 1 }
  note (.constructed traced.fresh trigger)
  pure traced.fresh

end Traced

open Traced

/-- `~scope_fail`, with what `uncaught` was initialised to. -/
def scopeFailDestruct (uncaught : Nat) (func : Tracing Unit) (warningMessage : String) :
    Tracing Unit := do
  let now ← Code.uncaughtExceptions
  if now > uncaught then Traced.ffiGuardNoexcept func warningMessage else pure ()

/-- `~scope_exit` -/
def scopeExitDestruct (func : Tracing Unit) (warningMessage : String) : Tracing Unit :=
  Traced.ffiGuardNoexcept func warningMessage

/-- A scope that begins with the construction of a guard. -/
def guardScope (trigger : Trigger) (func : Tracing Unit) (warningMessage : String)
    (body : Tracing Unit) : Tracing Unit := do
  let id ← constructed trigger
  let func := do
    note (.ran id)
    func
  match trigger with
  | .fail => do
    let uncaught ← Code.uncaughtExceptions
    noting (.ended id)
      (Code.raii (noting (.left id) body) (scopeFailDestruct uncaught func warningMessage))
  | .exit =>
    noting (.ended id) (Code.raii (noting (.left id) body) (scopeExitDestruct func warningMessage))

/-- Programs. One that is `bare` may raise Postgres errors which jump out of it: between it and the
handler there is no object with a destructor, as C++ demands of a jump. `guarded` is a call under
`ffi_guard`; `cleanup` is a scope whose object has a program for a destructor, which may catch all of
its exceptions; `attempt` is a try-block for the exceptions that `accepts` picks, and `again` says
whether its handler ends with `throw;`. -/
inductive ScopeProg : Bool → Type where
  | skip {bare : Bool} : ScopeProg bare
  | work {bare : Bool} (f : Session → Session) : ScopeProg bare
  | branch {bare : Bool} (condition : Session → Bool) (yes no : ScopeProg bare) : ScopeProg bare
  | seq {bare : Bool} (first second : ScopeProg bare) : ScopeProg bare
  | throw {bare : Bool} (exception : CppException) : ScopeProg bare
  | attempt {bare : Bool} (accepts : CppException → Bool) (body handler : ScopeProg bare)
    (again : Bool) : ScopeProg bare
  | error (edata : ErrorData) : ScopeProg true
  | guarded {bare : Bool} (func : ScopeProg true) : ScopeProg bare
  | cleanup {bare : Bool} (catches : Bool) (destructor body : ScopeProg false) : ScopeProg bare
  | guard {bare : Bool} (trigger : Trigger) (func : ScopeProg true) (warningMessage : String)
    (body : ScopeProg false) : ScopeProg bare

/-- The end of a handler. None of these programs hands an exception back to Postgres, so the
context of the one that ends is there to be deleted. -/
def destroyCaught : Cpp Unit := do
  dropException (← takeCaught)

/-- The try-block's handler, in the middle of the exception that it caught. A Postgres error that
passes the handler leaves this exception on the runtime's stack, and `throw;` throws the latest. -/
def handling (handler : Tracing Unit) (again : Bool) (exception : CppException) : Tracing Unit := do
  lift (beginCatch exception)
  Code.catching handler fun replacement => do
    lift destroyCaught
    Code.throwing replacement
  if again then lift throwAgain else lift destroyCaught

/-- `try { ... } catch (...) {}`. The handler has no statements, so it ends what it caught. -/
def catchingAll (m : Tracing Unit) : Tracing Unit :=
  Code.catching m fun exception => lift (dropException exception)

def ScopeProg.run {bare : Bool} : ScopeProg bare → Tracing Unit
  | .skip => pure ()
  | .work f => lift (modifySession f)
  | .branch condition yes no => do
    let b ← lift Code.get
    if condition b.session then yes.run else no.run
  | .seq first second => do
    first.run
    second.run
  | .throw exception => Code.throwing exception
  | .attempt accepts body handler again =>
    Code.catching body.run fun exception =>
      if accepts exception then handling handler.run again exception else Code.throwing exception
  | .error edata => lift (ereport edata)
  | .guarded func => Traced.ffiGuard func.run
  | .cleanup catches destructor body =>
    Code.raii body.run (if catches then catchingAll destructor.run else destructor.run)
  | .guard trigger func warningMessage body =>
    guardScope trigger func.run warningMessage body.run

/-- No destructor of the program lets an exception out, which would end the process. -/
def ScopeProg.catches {bare : Bool} : ScopeProg bare → Bool
  | .branch _ yes no => yes.catches && no.catches
  | .seq first second => first.catches && second.catches
  | .attempt _ body handler _ => body.catches && handler.catches
  | .guarded func => func.catches
  | .cleanup all destructor body => all && destructor.catches && body.catches
  | .guard _ func _ body => func.catches && body.catches
  | _ => true

/-! ## What guards are for -/

/-- How code gives control back that neither jumps nor ends the process. -/
def exitOf : Option CppException → Exit CppException SigjmpBuf Unit
  | none => .returned ()
  | some exception => .thrown exception

/-- The machine after a guard was constructed. -/
def openedBy (trigger : Trigger) (s : Machine Traced) : Machine Traced :=
  { s with store := { s.store with
    fresh := s.store.fresh + 1
    trace := s.store.trace ++ [.constructed s.store.fresh trigger] } }

def noted (event : ScopeEvent CppException) (s : Machine Traced) : Machine Traced :=
  { s with store := { s.store with trace := s.store.trace ++ [event] } }

/-- The scope of a guard as it is meant. It is left in the way its body ends, and if that is what
the guard waits for, the callable runs once, under `ffi_guard_noexcept`, from the machine that the
body leaves. The scope ends in the way it was left. -/
def guardMeaning (trigger : Trigger) (func : Tracing Unit) (warningMessage : String)
    (body : Tracing Unit) : Tracing Unit := fun s =>
  let ending (exception : Option CppException) (t : Machine Traced) :=
    let left := noted (.left s.store.fresh exception) t
    if trigger.runs exception then
      match Traced.ffiGuardNoexcept (do note (.ran s.store.fresh); func) warningMessage left with
      | (.returned (), u) => (exitOf exception, noted (.ended s.store.fresh exception) u)
      | failed => failed
    else (exitOf exception, noted (.ended s.store.fresh exception) left)
  match body (openedBy trigger s) with
  | (.returned (), t) => ending none t
  | (.thrown exception, t) => ending (some exception) t
  | notLeft => notLeft

/-- A program with its guards as they are meant: no count of exceptions and no destructors of
guards. -/
def ScopeProg.meaning {bare : Bool} : ScopeProg bare → Tracing Unit
  | .skip => pure ()
  | .work f => lift (modifySession f)
  | .branch condition yes no => do
    let b ← lift Code.get
    if condition b.session then yes.meaning else no.meaning
  | .seq first second => do
    first.meaning
    second.meaning
  | .throw exception => Code.throwing exception
  | .attempt accepts body handler again =>
    Code.catching body.meaning fun exception =>
      if accepts exception then handling handler.meaning again exception
      else Code.throwing exception
  | .error edata => lift (ereport edata)
  | .guarded func => Traced.ffiGuard func.meaning
  | .cleanup catches destructor body =>
    Code.raii body.meaning (if catches then catchingAll destructor.meaning else destructor.meaning)
  | .guard trigger func warningMessage body =>
    guardMeaning trigger func.meaning warningMessage body.meaning

/-! ## The guards of the library -/

namespace Traced
variable {α γ : Type}

theorem lift_bind (m : Cpp α) (f : α → Cpp γ) :
    lift (m >>= f) = lift m >>= fun value => lift (f value) := by
  funext s
  simp only [lift, Code.bind_apply]
  rcases m ⟨s.uncaught, s.store.backend⟩ with ⟨exit, t⟩
  cases exit <;> rfl

theorem lift_raii (body : Cpp α) (destructor : Cpp Unit) :
    lift (Code.raii body destructor) = Code.raii (lift body) (lift destructor) := by
  funext s
  simp only [lift, Code.raii, Code.leaving]
  rcases body ⟨s.uncaught, s.store.backend⟩ with ⟨exit, uncaught, store⟩
  cases exit with
  | returned value =>
    dsimp only
    rcases destructor ⟨uncaught, store⟩ with ⟨done, u⟩
    cases done <;> rfl
  | thrown exception =>
    dsimp only
    rcases destructor ⟨uncaught, store⟩ with ⟨done, u⟩
    cases done <;> rfl
  | jumped buffer => rfl
  | aborted => rfl

theorem lift_catching (body : Cpp α) (handler : CppException → Cpp α) :
    lift (Code.catching body handler) =
      Code.catching (lift body) fun exception => lift (handler exception) := by
  funext s
  simp only [lift, Code.catching]
  rcases body ⟨s.uncaught, s.store.backend⟩ with ⟨exit, t⟩
  cases exit <;> rfl

theorem lift_sigsetjmp (buffer : SigjmpBuf) (body landed : Cpp α) :
    lift (Code.sigsetjmp buffer body landed) = Code.sigsetjmp buffer (lift body) (lift landed) := by
  funext s
  simp only [lift, Code.sigsetjmp]
  rcases body ⟨s.uncaught, s.store.backend⟩ with ⟨exit, t⟩
  cases exit with
  | jumped target =>
    by_cases same : target = buffer
    · simp [same]
    · simp [same]
  | returned value => rfl
  | thrown exception => rfl
  | aborted => rfl

/-- Around code of the backend, the guards are those of the library. -/
theorem lift_ffiGuard (func : Cpp α) : lift (Cppgres.ffiGuard func) = ffiGuard (lift func) := by
  unfold Cppgres.ffiGuard ffiGuard
  simp only [lift_bind, lift_raii, lift_sigsetjmp]
  rfl

theorem lift_ffiGuardNoexcept (f : Cpp Unit) (warningMessage : String) :
    lift (Cppgres.ffiGuardNoexcept f warningMessage) =
      ffiGuardNoexcept (lift f) warningMessage := by
  unfold Cppgres.ffiGuardNoexcept ffiGuardNoexcept
  rw [lift_catching, lift_ffiGuard]

end Traced

/-! ## What a program does -/

/-- The process goes on. -/
def goesOn {α : Type} : Exit CppException SigjmpBuf α → Bool
  | .aborted => false
  | _ => true

/-- What no program changes for the code around it: the handler of Postgres errors, and the
exceptions that were caught before. -/
structure Around (s t : Machine Traced) : Prop where
  handler : t.store.backend.elog.exceptionStack = s.store.backend.elog.exceptionStack
  caught : s.store.backend.caughtExceptions <:+ t.store.backend.caughtExceptions

theorem Around.refl (s : Machine Traced) : Around s s := ⟨rfl, List.suffix_rfl⟩

theorem Around.trans {s t u : Machine Traced} (one : Around s t) (two : Around t u) : Around s u :=
  ⟨two.handler.trans one.handler, one.caught.trans two.caught⟩

/-- How control comes back: an exception is one more in flight, and a Postgres error lands at the
handler that was there before. -/
def BalancedExit (bare safe : Bool) (s t : Machine Traced) : Exit CppException SigjmpBuf Unit → Prop
  | .returned () => t.uncaught = s.uncaught ∧ Around s t
  | .thrown _ => t.uncaught = s.uncaught + 1 ∧ Around s t
  | .jumped buffer => bare = true ∧ t.uncaught = s.uncaught ∧
      s.store.backend.elog.exceptionStack = some buffer ∧ t.store.backend.elog.errordata ≠ [] ∧
      s.store.backend.caughtExceptions <:+ t.store.backend.caughtExceptions
  | .aborted => safe = true → s.store.backend.elog.exceptionStack = none

/-- A run from one machine to another, by its exit. -/
structure Follows (bare safe : Bool) (s : Machine Traced)
    (run : Exit CppException SigjmpBuf Unit × Machine Traced) : Prop where
  trace : ∃ events, run.2.store.trace = s.store.trace ++ events ∧
    Segment s.store.fresh run.2.store.fresh events (goesOn run.1)
  balanced : BalancedExit bare safe s run.2 run.1

section Rules
variable {bare safe : Bool} {s t u : Machine Traced} {exit : Exit CppException SigjmpBuf Unit}

/-- Nothing is traced. -/
theorem Follows.of_silent (trace : t.store.trace = s.store.trace) (fresh : t.store.fresh = s.store.fresh)
    (balanced : BalancedExit bare safe s t exit) : Follows bare safe s (exit, t) where
  trace := by
    refine ⟨[], by simpa using trace, ?_⟩
    rw [fresh]
    exact .nil
  balanced := balanced

theorem Follows.trans (one : Follows bare safe s (.returned (), t))
    (two : Follows bare safe t (exit, u)) : Follows bare safe s (exit, u) := by
  obtain ⟨⟨events, traced, segment⟩, balanced⟩ := one
  obtain ⟨⟨more, tracedToo, rest⟩, after⟩ := two
  constructor
  case trace =>
    refine ⟨events ++ more, ?_, segment.append rest⟩
    rw [tracedToo, traced, List.append_assoc]
  case balanced =>
    obtain ⟨count, around⟩ := balanced
    cases exit with
    | returned value => exact ⟨after.1.trans count, around.trans after.2⟩
    | thrown exception => exact ⟨by rw [after.1, count], around.trans after.2⟩
    | jumped buffer =>
      obtain ⟨isBare, count', target, raised, caught⟩ := after
      exact ⟨isBare, count'.trans count, around.handler ▸ target, raised,
        around.caught.trans caught⟩
    | aborted => exact fun isSafe => around.handler ▸ after isSafe

/-- An exception that is caught is no longer in flight. -/
theorem Follows.caught {exception : CppException} (thrown : Follows bare safe s (.thrown exception, t)) :
    Follows bare safe s (.returned (), { t with uncaught := t.uncaught - 1 }) where
  trace := thrown.trace
  balanced := by
    obtain ⟨count, stack, caught⟩ := thrown.balanced
    refine ⟨?_, stack, caught⟩
    rw [count]
    rfl

theorem Follows.seq {first second : Tracing Unit} (one : Follows bare safe s (first s))
    (two : ∀ t, Follows bare safe t (second t)) :
    Follows bare safe s ((first >>= fun _ => second) s) := by
  rw [Code.bind_apply]
  generalize first s = run at one ⊢
  obtain ⟨exit, t⟩ := run
  cases exit with
  | returned value => exact one.trans (two t)
  | thrown exception => exact one
  | jumped buffer => exact one
  | aborted => exact one

theorem Follows.catching {body : Tracing Unit} {handler : CppException → Tracing Unit}
    (one : Follows bare safe s (body s))
    (two : ∀ exception t, Follows bare safe t (handler exception t)) :
    Follows bare safe s (Code.catching body handler s) := by
  unfold Code.catching
  generalize body s = run at one ⊢
  obtain ⟨exit, t⟩ := run
  cases exit with
  | thrown exception => exact one.caught.trans (two exception _)
  | returned value => exact one
  | jumped buffer => exact one
  | aborted => exact one

theorem Follows.throwing (exception : CppException) :
    Follows bare safe s (Code.throwing exception s) :=
  .of_silent rfl rfl ⟨rfl, rfl, List.suffix_rfl⟩

theorem exceptionStack_dropException (exception : CppException) (m : Machine Backend) :
    ∃ elog, elog.exceptionStack = m.store.elog.exceptionStack ∧
      dropException exception m = (.returned (), { m with store := { m.store with elog } }) := by
  cases exception with
  | pg mcxt errorCxt => exact ⟨m.store.elog.deleteRecord errorCxt, rfl, rfl⟩
  | std what => exact ⟨m.store.elog, rfl, rfl⟩
  | other => exact ⟨m.store.elog, rfl, rfl⟩

theorem Follows.dropping (exception : CppException) :
    Follows bare safe s (lift (dropException exception) s) := by
  obtain ⟨elog, stack, dropped⟩ :=
    exceptionStack_dropException exception ⟨s.uncaught, s.store.backend⟩
  unfold lift
  rw [dropped]
  exact .of_silent rfl rfl ⟨rfl, stack, List.suffix_rfl⟩

/-- A handler was entered: its exception is on top of the stack. -/
def caughtBy (exception : CppException) (s : Machine Traced) : Machine Traced :=
  { s with store := { s.store with backend := { s.store.backend with
    caughtExceptions := exception :: s.store.backend.caughtExceptions } } }

/-- What a handler does is what is done around it, with one exception more on the stack. -/
theorem Follows.of_caughtBy {exception : CppException}
    {run : Exit CppException SigjmpBuf Unit × Machine Traced}
    (follows : Follows bare safe (caughtBy exception s) run) : Follows bare safe s run := by
  have older : s.store.backend.caughtExceptions <:+
      (caughtBy exception s).store.backend.caughtExceptions := List.suffix_cons _ _
  obtain ⟨exit, t⟩ := run
  refine ⟨follows.trace, ?_⟩
  have balanced := follows.balanced
  cases exit with
  | returned value =>
    exact ⟨balanced.1, balanced.2.handler, older.trans balanced.2.caught⟩
  | thrown thrown => exact ⟨balanced.1, balanced.2.handler, older.trans balanced.2.caught⟩
  | jumped buffer =>
    obtain ⟨isBare, count, target, raised, caught⟩ := balanced
    exact ⟨isBare, count, target, raised, older.trans caught⟩
  | aborted => exact balanced

/-- The machine without the exception on top of the stack. -/
theorem takeCaught_lifted {exception : CppException} {around : List CppException}
    (caught : exception :: around <:+ t.store.backend.caughtExceptions) :
    ∃ top rest, around <:+ rest ∧
      takeCaught ⟨t.uncaught, t.store.backend⟩ = (.returned top,
        ⟨t.uncaught, { t.store.backend with caughtExceptions := rest }⟩) := by
  obtain ⟨newer, stack⟩ := caught
  cases newer with
  | nil => exact ⟨exception, around, List.suffix_rfl, takeCaught_apply stack.symm⟩
  | cons top newer =>
    refine ⟨top, newer ++ exception :: around, ⟨newer ++ [exception], by simp⟩, ?_⟩
    exact takeCaught_apply stack.symm

/-- A handler ends, with the exceptions around it still caught. -/
theorem Follows.destroying {exception : CppException}
    (follows : Follows bare safe (caughtBy exception s) (.returned (), t)) :
    ∃ u, lift destroyCaught t = (.returned (), u) ∧ Follows bare safe s (.returned (), u) := by
  obtain ⟨top, rest, older, taken⟩ := takeCaught_lifted follows.balanced.2.caught
  obtain ⟨elog, stack, dropped⟩ := exceptionStack_dropException top
    ⟨t.uncaught, { t.store.backend with caughtExceptions := rest }⟩
  refine ⟨⟨t.uncaught, { t.store with backend :=
    { t.store.backend with caughtExceptions := rest, elog } }⟩, ?_, follows.trace,
    follows.balanced.1, stack.trans follows.balanced.2.handler, older⟩
  unfold lift destroyCaught
  rw [Code.bind_returned taken, dropped]

theorem Follows.throwingAgain {exception : CppException}
    (follows : Follows bare safe (caughtBy exception s) (.returned (), t)) :
    Follows bare safe s (lift throwAgain t) := by
  obtain ⟨top, rest, older, taken⟩ := takeCaught_lifted follows.balanced.2.caught
  unfold lift throwAgain
  rw [Code.bind_returned taken]
  exact ⟨follows.trace, congrArg (· + 1) follows.balanced.1, follows.balanced.2.handler, older⟩

theorem Follows.handling {handler : Tracing Unit} (again : Bool) (exception : CppException)
    (follows : ∀ s, Follows bare safe s (handler s)) :
    Follows bare safe s (Cppgres.handling handler again exception s) := by
  have one := follows (caughtBy exception s)
  have begun : lift (beginCatch exception) s = (.returned (), caughtBy exception s) := rfl
  unfold Cppgres.handling
  rw [Code.bind_returned begun, Code.bind_apply]
  unfold Code.catching
  generalize handler (caughtBy exception s) = run at one ⊢
  obtain ⟨exit, t⟩ := run
  cases exit with
  | jumped buffer => exact one.of_caughtBy
  | aborted => exact one.of_caughtBy
  | thrown replacement =>
    obtain ⟨u, destroyed, ended⟩ := one.caught.destroying
    dsimp only
    rw [Code.bind_returned destroyed]
    exact ended.trans (.throwing replacement)
  | returned value =>
    cases again with
    | true => exact one.throwingAgain
    | false =>
      obtain ⟨u, destroyed, ended⟩ := one.destroying
      change Follows bare safe s (lift destroyCaught t)
      rw [destroyed]
      exact ended

theorem Follows.ereport (edata : ErrorData) :
    Follows true safe s (lift (ereport edata) s) := by
  unfold lift
  rw [ereport_apply]
  refine .of_silent rfl rfl ?_
  unfold Elog.landing
  cases stack : s.store.backend.elog.exceptionStack with
  | none => exact fun _ => stack
  | some buffer => exact ⟨rfl, rfl, stack, by simp [Elog.errfinish], List.suffix_rfl⟩

theorem pgException_returned {mcxt : MemoryContext} {m : Machine Backend}
    (raised : m.store.elog.errordata ≠ []) :
    ∃ exception backend, pgException mcxt m = (.returned exception, ⟨m.uncaught, backend⟩) ∧
      backend.caughtExceptions = m.store.caughtExceptions := by
  unfold pgException
  rw [Code.get_bind]
  cases found : m.store.elog.errordata with
  | nil => exact absurd found raised
  | cons edata older => exact ⟨_, _, rfl, rfl⟩

/-- The machine that an `ffi_guard` runs its body in. -/
def guardEntry (s : Machine Traced) : Machine Traced :=
  { s with store := { s.store with backend := (ffiGuardEntry ⟨s.uncaught, s.store.backend⟩).store } }

/-- The machine that it leaves. -/
def guardRestore (s t : Machine Traced) : Machine Traced :=
  { t with store := { t.store with
      backend := (ffiGuardRestore ⟨s.uncaught, s.store.backend⟩ ⟨t.uncaught, t.store.backend⟩).store } }

theorem tracedFfiGuard_eq (func : Tracing Unit) :
    Traced.ffiGuard func s =
      Code.raii
        (Code.sigsetjmp s.store.backend.elog.nextBuffer func
          (lift (pgException s.store.backend.session.currentMemoryContext) >>= Code.throwing))
        (fun t => (.returned (), guardRestore s t)) (guardEntry s) := rfl

/-- A Postgres error under a guard becomes an exception, and the handler is the one from before. -/
theorem Follows.ffiGuard {func : Tracing Unit} (follows : ∀ s, Follows true safe s (func s)) :
    Follows false safe s (Traced.ffiGuard func s) := by
  have one := follows (guardEntry s)
  rw [tracedFfiGuard_eq]
  simp only [Code.raii, Code.leaving, Code.sigsetjmp]
  generalize func (guardEntry s) = run at one ⊢
  obtain ⟨exit, t⟩ := run
  obtain ⟨traced, balanced⟩ := one
  cases exit with
  | returned value => exact ⟨traced, balanced.1, rfl, balanced.2.caught⟩
  | thrown exception => exact ⟨traced, balanced.1, rfl, balanced.2.caught⟩
  | aborted =>
    refine ⟨traced, fun isSafe => ?_⟩
    have handled : (guardEntry s).store.backend.elog.exceptionStack =
        some s.store.backend.elog.nextBuffer := rfl
    rw [balanced isSafe] at handled
    cases handled
  | jumped buffer =>
    obtain ⟨_, count, stack, raised, caught⟩ := balanced
    obtain rfl : s.store.backend.elog.nextBuffer = buffer := Option.some.inj stack
    obtain ⟨exception, backend, built, same⟩ :=
      @pgException_returned s.store.backend.session.currentMemoryContext
        ⟨t.uncaught, t.store.backend⟩ raised
    simp only [if_true, Code.bind_apply, lift, built, Code.throwing, Code.unwound]
    refine ⟨traced, by rw [count]; rfl, rfl, ?_⟩
    change _ <:+ backend.caughtExceptions
    rw [same]
    exact caught

theorem Follows.of_closed (closed : Follows false safe s (exit, t)) :
    Follows bare safe s (exit, t) where
  trace := closed.trace
  balanced := by
    have balanced := closed.balanced
    cases exit with
    | returned value => exact balanced
    | thrown exception => exact balanced
    | jumped buffer => exact absurd balanced.1 Bool.false_ne_true
    | aborted => exact balanced

theorem Follows.warning (warningMessage : String) (exception : CppException) :
    ∃ u, lift (do
        modifyElog fun e => { e with warnings := warningMessage :: e.warnings }
        dropException exception) s = (.returned (), u) ∧
      Follows bare safe s (.returned (), u) := by
  obtain ⟨elog, stack, dropped⟩ := exceptionStack_dropException exception
    ⟨s.uncaught, { s.store.backend with elog := { s.store.backend.elog with
      warnings := warningMessage :: s.store.backend.elog.warnings } }⟩
  refine ⟨⟨s.uncaught, { s.store with backend := { s.store.backend with elog } }⟩, ?_,
    .of_silent rfl rfl ⟨rfl, stack, List.suffix_rfl⟩⟩
  unfold lift
  rw [Code.bind_returned (modifyElog_apply _ _), dropped]

/-- A callable that fails leaves nothing behind but a warning. -/
theorem Follows.ffiGuardNoexcept {func : Tracing Unit} (warningMessage : String)
    (follows : ∀ s, Follows true safe s (func s)) :
    ∃ t, (Traced.ffiGuardNoexcept func warningMessage s = (.returned (), t) ∧
        Follows false safe s (.returned (), t)) ∨
      (Traced.ffiGuardNoexcept func warningMessage s = (.aborted, t) ∧
        Follows false safe s (.aborted, t)) := by
  have one := @Follows.ffiGuard safe s func follows
  unfold Traced.ffiGuardNoexcept Code.catching
  generalize Traced.ffiGuard func s = run at one ⊢
  obtain ⟨exit, t⟩ := run
  cases exit with
  | returned value => exact ⟨t, .inl ⟨rfl, one⟩⟩
  | aborted => exact ⟨t, .inr ⟨rfl, one⟩⟩
  | jumped buffer => exact absurd one.balanced.1 Bool.false_ne_true
  | thrown exception =>
    obtain ⟨u, warned, silent⟩ := @Follows.warning false safe
      { t with uncaught := t.uncaught - 1 } warningMessage exception
    exact ⟨u, .inl ⟨warned, one.caught.trans silent⟩⟩

/-- What a guard of either kind does at the end of its scope. -/
def guardDestruct (trigger : Trigger) (uncaught : Nat) (func : Tracing Unit)
    (warningMessage : String) : Tracing Unit :=
  match trigger with
  | .fail => scopeFailDestruct uncaught func warningMessage
  | .exit => scopeExitDestruct func warningMessage

theorem noting_exitOf {m : Tracing Unit} {exception : Option CppException}
    (event : Option CppException → ScopeEvent CppException) (run : m s = (exitOf exception, t)) :
    noting event m s = (exitOf exception, noted (event exception) t) := by
  unfold noting
  rw [run]
  cases exception <;> rfl

theorem noting_aborted {m : Tracing Unit} (event : Option CppException → ScopeEvent CppException)
    (run : m s = (.aborted, t)) : noting event m s = (.aborted, t) := by
  unfold noting
  rw [run]

theorem raii_exitOf {body destructor : Tracing Unit} {exception : Option CppException}
    (run : body s = (exitOf exception, t)) :
    Code.raii body destructor s = Code.unwound (exitOf exception) (destructor t) := by
  unfold Code.raii Code.leaving
  rw [run]
  cases exception <;> rfl

theorem guardScope_eq (trigger : Trigger) (func : Tracing Unit) (warningMessage : String)
    (body : Tracing Unit) :
    guardScope trigger func warningMessage body s =
      noting (.ended s.store.fresh)
        (Code.raii (noting (.left s.store.fresh) body)
          (guardDestruct trigger s.uncaught (note (.ran s.store.fresh) >>= fun _ => func)
            warningMessage))
        (openedBy trigger s) := by
  cases trigger <;> rfl

theorem scopeFailDestruct_apply (uncaught : Nat) (func : Tracing Unit) (warningMessage : String) :
    scopeFailDestruct uncaught func warningMessage t =
      if t.uncaught > uncaught then Traced.ffiGuardNoexcept func warningMessage t
      else (.returned (), t) := by
  unfold scopeFailDestruct
  rw [Code.bind_returned (Code.uncaughtExceptions_apply t)]
  split
  · rfl
  · rfl

/-- The count of exceptions in flight has grown if and only if one left the scope. -/
theorem guardDestruct_eq {uncaught : Nat} (trigger : Trigger) (exception : Option CppException)
    (func : Tracing Unit) (warningMessage : String)
    (count : t.uncaught = uncaught + if exception.isSome then 1 else 0) :
    guardDestruct trigger uncaught func warningMessage t =
      if trigger.runs exception then Traced.ffiGuardNoexcept func warningMessage t
      else (.returned (), t) := by
  cases trigger with
  | exit => rfl
  | fail =>
    refine (scopeFailDestruct_apply uncaught func warningMessage).trans ?_
    rw [count]
    cases exception with
    | none => simp [Trigger.runs]
    | some exception => simp [Trigger.runs]

/-- A scope that neither jumped nor ended the process, with one exception more in flight if one left
it. -/
theorem follows_exitOf_iff {exception : Option CppException} :
    Follows false safe s (exitOf exception, t) ↔
      (∃ events, t.store.trace = s.store.trace ++ events ∧
        Segment s.store.fresh t.store.fresh events true) ∧
      t.uncaught = s.uncaught + (if exception.isSome then 1 else 0) ∧ Around s t := by
  cases exception with
  | none => exact ⟨fun follows => ⟨follows.trace, follows.balanced⟩, fun both => ⟨both.1, both.2⟩⟩
  | some exception =>
    exact ⟨fun follows => ⟨follows.trace, follows.balanced⟩, fun both => ⟨both.1, both.2⟩⟩

section Scope
variable {trigger : Trigger} {func body : Tracing Unit} {warningMessage : String}
  {exception : Option CppException}

/-- The end of such a scope, from what its guard does. -/
theorem raii_guardDestruct (run : body (openedBy trigger s) = (exitOf exception, t))
    (count : t.uncaught = s.uncaught + if exception.isSome then 1 else 0) :
    Code.raii (noting (.left s.store.fresh) body)
        (guardDestruct trigger s.uncaught (note (.ran s.store.fresh) >>= fun _ => func)
          warningMessage) (openedBy trigger s) =
      Code.unwound (exitOf exception)
        (if trigger.runs exception then
          Traced.ffiGuardNoexcept func warningMessage
            (noted (.ran s.store.fresh) (noted (.left s.store.fresh exception) t))
        else (.returned (), noted (.left s.store.fresh exception) t)) := by
  have ends : guardDestruct trigger s.uncaught (note (.ran s.store.fresh) >>= fun _ => func)
      warningMessage (noted (.left s.store.fresh exception) t) = _ :=
    guardDestruct_eq trigger exception _ warningMessage count
  refine (raii_exitOf (noting_exitOf (.left s.store.fresh) run)).trans ?_
  rw [ends]
  rfl

theorem guardScope_spared (run : body (openedBy trigger s) = (exitOf exception, t))
    (count : t.uncaught = s.uncaught + if exception.isSome then 1 else 0)
    (runs : trigger.runs exception = false) :
    guardScope trigger func warningMessage body s =
      (exitOf exception,
        noted (.ended s.store.fresh exception) (noted (.left s.store.fresh exception) t)) := by
  have scope := @raii_guardDestruct s t trigger func body warningMessage exception run count
  rw [runs, if_neg Bool.false_ne_true] at scope
  rw [guardScope_eq]
  exact noting_exitOf _ scope

theorem guardScope_cleaned (run : body (openedBy trigger s) = (exitOf exception, t))
    (count : t.uncaught = s.uncaught + if exception.isSome then 1 else 0)
    (runs : trigger.runs exception = true)
    (cleaned : Traced.ffiGuardNoexcept func warningMessage
      (noted (.ran s.store.fresh) (noted (.left s.store.fresh exception) t)) = (.returned (), u)) :
    guardScope trigger func warningMessage body s =
      (exitOf exception, noted (.ended s.store.fresh exception) u) := by
  have scope := @raii_guardDestruct s t trigger func body warningMessage exception run count
  rw [runs, if_pos rfl, cleaned] at scope
  rw [guardScope_eq]
  exact noting_exitOf _ scope

theorem guardScope_aborted (run : body (openedBy trigger s) = (exitOf exception, t))
    (count : t.uncaught = s.uncaught + if exception.isSome then 1 else 0)
    (runs : trigger.runs exception = true)
    (cleaned : Traced.ffiGuardNoexcept func warningMessage
      (noted (.ran s.store.fresh) (noted (.left s.store.fresh exception) t)) = (.aborted, u)) :
    guardScope trigger func warningMessage body s = (.aborted, u) := by
  have scope := @raii_guardDestruct s t trigger func body warningMessage exception run count
  rw [runs, if_pos rfl, cleaned] at scope
  rw [guardScope_eq]
  exact noting_aborted _ scope

end Scope

/-- Its guard. -/
theorem Follows.guarded {trigger : Trigger} {func : Tracing Unit} (warningMessage : String)
    {body : Tracing Unit} (exception : Option CppException)
    (run : body (openedBy trigger s) = (exitOf exception, t))
    (inner : Follows false safe (openedBy trigger s) (exitOf exception, t))
    (callable : ∀ s, Follows true safe s (func s)) :
    Follows false safe s (guardScope trigger func warningMessage body s) := by
  obtain ⟨⟨events, traced, segment⟩, count, around⟩ := follows_exitOf_iff.mp inner
  cases runs : trigger.runs exception with
  | false =>
    rw [guardScope_spared run count runs]
    refine follows_exitOf_iff.mpr
      ⟨⟨_, ?_, segment.spared runs⟩, count, around.handler, around.caught⟩
    simp [noted, openedBy, traced]
  | true =>
    obtain ⟨u, ⟨cleaned, after⟩ | ⟨aborted, after⟩⟩ :=
      @Follows.ffiGuardNoexcept safe
        (noted (.ran s.store.fresh) (noted (.left s.store.fresh exception) t)) func
        warningMessage callable
    · rw [guardScope_cleaned run count runs cleaned]
      obtain ⟨more, tracedToo, clean⟩ := after.trace
      have whole := segment.cleaned runs clean
      refine follows_exitOf_iff.mpr ⟨⟨_, ?_, whole⟩, after.balanced.1.trans count,
        after.balanced.2.handler.trans around.handler,
        around.caught.trans after.balanced.2.caught⟩
      dsimp only at tracedToo
      simp [noted, tracedToo, openedBy, traced, goesOn]
    · rw [guardScope_aborted run count runs aborted]
      obtain ⟨more, tracedToo, clean⟩ := after.trace
      refine ⟨⟨_, ?_, segment.cleaned runs clean⟩, fun isSafe => ?_⟩
      · dsimp only at tracedToo
        simp [tracedToo, noted, openedBy, traced, goesOn]
      · have none := after.balanced isSafe
        exact around.handler.symm.trans none

theorem Follows.guardScope {func body : Tracing Unit} (trigger : Trigger) (warningMessage : String)
    (inner : ∀ s, Follows false safe s (body s)) (callable : ∀ s, Follows true safe s (func s)) :
    Follows false safe s (guardScope trigger func warningMessage body s) := by
  have within := inner (openedBy trigger s)
  rcases run : body (openedBy trigger s) with ⟨exit, t⟩
  rw [run] at within
  cases exit with
  | returned value => exact within.guarded warningMessage none run callable
  | thrown exception => exact within.guarded warningMessage (some exception) run callable
  | jumped buffer => exact absurd within.balanced.1 Bool.false_ne_true
  | aborted =>
    have aborted : Code.raii (noting (.left s.store.fresh) body)
        (guardDestruct trigger s.uncaught (note (.ran s.store.fresh) >>= fun _ => func)
          warningMessage) (openedBy trigger s) = (.aborted, t) := by
      unfold Code.raii Code.leaving
      rw [noting_aborted _ run]
    rw [guardScope_eq, noting_aborted _ aborted]
    obtain ⟨⟨events, traced, segment⟩, balanced⟩ := within
    refine ⟨⟨_, ?_, segment.inside trigger⟩, balanced⟩
    dsimp only at traced
    simp [traced, openedBy]

/-- A scope whose object has a destructor that does not throw, or ends the process if it does. -/
theorem Follows.raii {body destructor : Tracing Unit} (inner : ∀ s, Follows false safe s (body s))
    (ends : ∀ s, Follows false safe s (destructor s))
    (quiet : safe = true → ∀ s exception t, destructor s ≠ (.thrown exception, t)) :
    Follows false safe s (Code.raii body destructor s) := by
  have within := inner s
  rcases run : body s with ⟨exit, t⟩
  rw [run] at within
  have after := ends t
  rcases ran : destructor t with ⟨done, u⟩
  rw [ran] at after
  have unwound : ∀ exception, body s = (exitOf exception, t) →
      Follows false safe s (exitOf exception, t) → Follows false safe s (Code.raii body destructor s) := by
    intro exception run within
    obtain ⟨⟨events, traced, segment⟩, count, around⟩ := follows_exitOf_iff.mp within
    obtain ⟨⟨more, tracedToo, rest⟩, balanced⟩ := after
    have trace : u.store.trace = s.store.trace ++ (events ++ more) := by
      rw [← List.append_assoc, ← traced]
      exact tracedToo
    rw [raii_exitOf run, ran]
    cases done with
    | returned value =>
      exact follows_exitOf_iff.mpr ⟨⟨_, trace, segment.append rest⟩, balanced.1.trans count,
        around.trans balanced.2⟩
    | thrown failure =>
      refine ⟨⟨_, trace, (segment.append rest).unfinished⟩, fun isSafe => ?_⟩
      exact absurd ran (quiet isSafe t failure u)
    | jumped buffer => exact absurd balanced.1 Bool.false_ne_true
    | aborted => exact ⟨⟨_, trace, segment.append rest⟩, fun isSafe =>
      around.handler ▸ balanced isSafe⟩
  cases exit with
  | returned value => exact unwound none run within
  | thrown exception => exact unwound (some exception) run within
  | jumped buffer => exact absurd within.balanced.1 Bool.false_ne_true
  | aborted =>
    unfold Code.raii Code.leaving
    rw [run]
    exact within

theorem catchingAll_not_thrown {m : Tracing Unit} (exception : CppException) :
    catchingAll m s ≠ (.thrown exception, t) := by
  unfold catchingAll Code.catching
  rcases m s with ⟨exit, u⟩
  cases exit with
  | returned value => simp
  | jumped buffer => simp
  | aborted => simp
  | thrown failure =>
    obtain ⟨elog, _, dropped⟩ :=
      exceptionStack_dropException failure ⟨u.uncaught - 1, u.store.backend⟩
    simp [lift, dropped]

end Rules

/-- Whatever a program does, what it leaves on the trace is a part of an orderly one. -/
theorem ScopeProg.follows {bare safe : Bool} (p : ScopeProg bare)
    (catches : safe = true → p.catches = true) (s : Machine Traced) :
    Follows bare safe s (p.run s) := by
  induction p generalizing s with
  | skip => exact .of_silent rfl rfl ⟨rfl, rfl, List.suffix_rfl⟩
  | work f => exact .of_silent rfl rfl ⟨rfl, rfl, List.suffix_rfl⟩
  | throw exception => exact .throwing exception
  | error edata => exact .ereport edata
  | branch condition yes no ihYes ihNo =>
    simp only [ScopeProg.catches, Bool.and_eq_true] at catches
    have chosen : (ScopeProg.branch condition yes no).run s =
        if condition s.store.backend.session then yes.run s else no.run s := by
      simp only [ScopeProg.run, Code.bind_apply]
      change (if condition s.store.backend.session then yes.run else no.run) _ = _
      split <;> rfl
    rw [chosen]
    split
    · exact ihYes (fun isSafe => (catches isSafe).1) s
    · exact ihNo (fun isSafe => (catches isSafe).2) s
  | seq first second ihFirst ihSecond =>
    simp only [ScopeProg.catches, Bool.and_eq_true] at catches
    exact (ihFirst (fun isSafe => (catches isSafe).1) s).seq
      fun t => ihSecond (fun isSafe => (catches isSafe).2) t
  | attempt accepts body handler again ihBody ihHandler =>
    simp only [ScopeProg.catches, Bool.and_eq_true] at catches
    apply (ihBody (fun isSafe => (catches isSafe).1) s).catching
    intro exception t
    split
    · exact .handling again exception (ihHandler fun isSafe => (catches isSafe).2)
    · exact .throwing exception
  | guarded func ih => exact .of_closed (.ffiGuard (ih catches))
  | cleanup all destructor body ihDestructor ihBody =>
    simp only [ScopeProg.catches, Bool.and_eq_true] at catches
    have destroys := ihDestructor fun isSafe => (catches isSafe).1.2
    apply Follows.of_closed
    apply Follows.raii (ihBody fun isSafe => (catches isSafe).2)
    · intro t
      split
      · exact (destroys t).catching fun exception u => .dropping exception
      · exact destroys t
    · intro isSafe t exception u
      rw [if_pos (catches isSafe).1.1]
      exact catchingAll_not_thrown exception
  | guard trigger func warningMessage body ihFunc ihBody =>
    simp only [ScopeProg.catches, Bool.and_eq_true] at catches
    exact .of_closed (.guardScope trigger warningMessage
      (ihBody fun isSafe => (catches isSafe).2) (ihFunc fun isSafe => (catches isSafe).1))

section Meaning
variable {trigger : Trigger} {func body : Tracing Unit} {warningMessage : String}
  {s t : Machine Traced}

/-- The end of a guard's scope that was left by a return or an exception. -/
theorem guardMeaning_exitOf {exception : Option CppException}
    (run : body (openedBy trigger s) = (exitOf exception, t)) :
    guardMeaning trigger func warningMessage body s =
      if trigger.runs exception then
        match Traced.ffiGuardNoexcept (do note (.ran s.store.fresh); func) warningMessage
          (noted (.left s.store.fresh exception) t) with
        | (.returned (), u) => (exitOf exception, noted (.ended s.store.fresh exception) u)
        | failed => failed
      else (exitOf exception,
        noted (.ended s.store.fresh exception) (noted (.left s.store.fresh exception) t)) := by
  unfold guardMeaning
  rw [run]
  cases exception <;> rfl

theorem guardScope_exitOf (exception : Option CppException)
    (run : body (openedBy trigger s) = (exitOf exception, t))
    (count : t.uncaught = s.uncaught + if exception.isSome then 1 else 0)
    (callable : ∀ s, Follows true false s (func s)) :
    guardScope trigger func warningMessage body s =
      guardMeaning trigger func warningMessage body s := by
  rw [guardMeaning_exitOf run]
  cases runs : trigger.runs exception with
  | false => exact guardScope_spared run count runs
  | true =>
    have cleanup : Traced.ffiGuardNoexcept (do note (.ran s.store.fresh); func) warningMessage
        (noted (.left s.store.fresh exception) t) =
      Traced.ffiGuardNoexcept func warningMessage
        (noted (.ran s.store.fresh) (noted (.left s.store.fresh exception) t)) := rfl
    obtain ⟨u, ⟨cleaned, _⟩ | ⟨aborted, _⟩⟩ := @Follows.ffiGuardNoexcept false
      (noted (.ran s.store.fresh) (noted (.left s.store.fresh exception) t)) func
      warningMessage callable
    · rw [guardScope_cleaned run count runs cleaned, if_pos rfl, cleanup, cleaned]
    · rw [guardScope_aborted run count runs aborted, if_pos rfl, cleanup, aborted]

/-- The count of exceptions in flight tells how a scope was left. -/
theorem guardScope_meaning (inner : Follows false false (openedBy trigger s) (body (openedBy trigger s)))
    (callable : ∀ s, Follows true false s (func s)) :
    guardScope trigger func warningMessage body s =
      guardMeaning trigger func warningMessage body s := by
  rcases run : body (openedBy trigger s) with ⟨exit, t⟩
  rw [run] at inner
  cases exit with
  | returned value => exact guardScope_exitOf none run inner.balanced.1 callable
  | thrown exception => exact guardScope_exitOf (some exception) run inner.balanced.1 callable
  | jumped buffer => exact absurd inner.balanced.1 Bool.false_ne_true
  | aborted =>
    have aborted : Code.raii (noting (.left s.store.fresh) body)
        (guardDestruct trigger s.uncaught (note (.ran s.store.fresh) >>= fun _ => func)
          warningMessage) (openedBy trigger s) = (.aborted, t) := by
      unfold Code.raii Code.leaving
      rw [noting_aborted _ run]
    rw [guardScope_eq, noting_aborted _ aborted]
    unfold guardMeaning
    rw [run]

end Meaning

/-- Programs do what their guards are meant for. -/
theorem ScopeProg.run_eq_meaning {bare : Bool} (p : ScopeProg bare) : p.run = p.meaning := by
  induction p with
  | skip => rfl
  | work f => rfl
  | throw exception => rfl
  | error edata => rfl
  | branch condition yes no ihYes ihNo => simp only [ScopeProg.run, ScopeProg.meaning, ihYes, ihNo]
  | seq first second one two => simp only [ScopeProg.run, ScopeProg.meaning, one, two]
  | attempt accepts body handler again one two =>
    simp only [ScopeProg.run, ScopeProg.meaning, one, two]
  | guarded func ih => simp only [ScopeProg.run, ScopeProg.meaning, ih]
  | cleanup all destructor body one two => simp only [ScopeProg.run, ScopeProg.meaning, one, two]
  | guard trigger func warningMessage body one two =>
    funext s
    simp only [ScopeProg.run, ScopeProg.meaning, ← one, ← two]
    exact guardScope_meaning (body.follows Bool.noConfusion _) (func.follows Bool.noConfusion)

/-- In every program of scopes that hold guards, each guard does what it is meant for: the callable
of a `scope_exit` runs when its scope is left, that of a `scope_fail` if an exception leaves it, and
the scope ends as it was left, even if the callable fails. Each callable runs once, in reverse order;
and unless an exception leaves a destructor, or a Postgres error has no handler at all, they all
run. -/
theorem ScopeProg.guards_run {bare : Bool} (p : ScopeProg bare) (s : Machine Traced) :
    p.run s = p.meaning s ∧
    (∃ events, (p.run s).2.store.trace = s.store.trace ++ events ∧
      Orderly events (goesOn (p.run s).1)) ∧
    (p.catches = true → s.store.backend.elog.exceptionStack ≠ none → goesOn (p.run s).1 = true) := by
  refine ⟨congrFun p.run_eq_meaning s, ?_, ?_⟩
  · obtain ⟨events, traced, segment⟩ := (p.follows Bool.noConfusion s : Follows bare false s (p.run s)).trace
    exact ⟨events, traced, segment.orderly⟩
  · intro catches handled
    have balanced := (p.follows (fun _ => catches) s : Follows bare true s (p.run s)).balanced
    generalize p.run s = run at balanced ⊢
    obtain ⟨exit, t⟩ := run
    cases exit with
    | aborted => exact absurd (balanced rfl) handled
    | returned value => rfl
    | thrown exception => rfl
    | jumped buffer => rfl

/-- A `scope_exit` around a `scope_fail`; an exception passes both, and both callables fail. -/
def failingGuards : ScopeProg true :=
  .attempt (fun _ => true)
    (.guard .exit (.throw (.std "second")) "exit"
      (.guard .fail (.error (reportData "first")) "fail" (.throw (.std "gone wrong"))))
    .skip false

def idleTraced : Machine Traced := ⟨0, ⟨idle.store, [], 0⟩⟩

/-- Both run, the inner one first, and the exception arrives. -/
theorem failingGuards_run :
    (failingGuards.run idleTraced).1 = .returned () ∧
    (failingGuards.run idleTraced).2.store.trace =
      [.constructed 0 .exit, .constructed 1 .fail, .left 1 (some (.std "gone wrong")), .ran 1,
        .ended 1 (some (.std "gone wrong")), .left 0 (some (.std "gone wrong")), .ran 0,
        .ended 0 (some (.std "gone wrong"))] ∧
    failingGuards.run idleTraced = failingGuards.meaning idleTraced ∧
    goesOn (failingGuards.run idleTraced).1 = true :=
  ⟨by decide +kernel, by decide +kernel, (failingGuards.guards_run idleTraced).1,
    (failingGuards.guards_run idleTraced).2.2 rfl (by simp [idleTraced, idle])⟩

/-- `throw;` throws what was caught last. A callable of a guard in the handler, failing by a Postgres
error in a handler of its own, leaves that handler's exception behind. -/
example :
    ((.attempt (fun _ => true) (.throw (.std "caught"))
      (.guard .exit
        (.attempt (fun _ => true) (.throw (.std "left behind")) (.error (reportData "failed"))
          false) "cleanup" .skip) true : ScopeProg true).run idleTraced).1 = .thrown (.std "left behind") := by
  decide +kernel

end Cppgres
