import Cppgres.Guard
import Cppgres.Labelled.Runs
import Cppgres.Shared.Handles

/-!
# Objects that own a context or a tuple

`pg_exception` of `exception.hpp` and `syscache` of `syscache.hpp` release in their destructors
what they own, and have the copy operations that the compiler makes. A move is a copy. The runtime
keeps the exceptions that were caught on a stack, and the end of a handler destroys the latest of
them: a handler that a jump leaves does not end. `Elog` is the one of the guards.
-/
namespace Cppgres
open Labelled Shared

variable {ω : Type} [DecidableEq ω]

/-- The record that `error` points to is in the context. -/
structure PgException where
  mcxt : MemoryContext
  errorCxt : MemoryContext
  deriving DecidableEq, Repr

/-- `lookup` is not of the source: the tuple was pinned by the lookup of that number. -/
structure Syscache where
  cacheId : Int
  tuple : Nat
  lookup : Nat
  deriving DecidableEq, Repr

/-- An exception on the stack of the runtime; none is an exception of another type. -/
inductive Caught (ω : Type) where
  /-- its handler is active -/
  | handled (exception : Option ω)
  /-- its handler was left by a jump, or ended another exception in its place -/
  | left (exception : Option PgException)
  deriving DecidableEq, Repr

/-- `deletions` counts the calls of `MemoryContextDelete` for each context, `releases` those of
`ReleaseSysCache` for the tuple of each lookup. -/
structure Owners (ω : Type) where
  elog : Elog
  exceptions : ω → Option PgException
  caught : List (Caught ω)
  deletions : MemoryContext → Nat
  caches : ω → Option Syscache
  lookups : Nat
  releases : Nat → Nat

/-- `raise` is an error of Postgres. What is `skipped` are the copies in the frames that a jump
leaves, and `handlers` is the number of the handlers that it leaves. `throwAgain` is `throw;`; `this`
names the exception that is thrown where it is not the one of the handler. -/
inductive OwnerAction (ω : Type) where
  | raise (edata : ErrorData) (skipped : List ω) (handlers : Nat)
  | flush
  | capture (this : ω) (mcxt : MemoryContext)
  | beginCatch (exception : Option ω)
  | endCatch
  | throwAgain (this : ω)
  | copy (this other : ω)
  | assign (this other : ω)
  | destroy (this : ω)
  | rethrow (this : ω) (skipped : List ω) (handlers : Nat)
  | error (this : ω) (skipped : List ω) (handlers : Nat)
  | message (this : ω)
  | errorData (this : ω)
  | lookup (this : ω) (cacheId : Int) (tuple : Option Nat)
  | copyCache (this other : ω)
  | assignCache (this other : ω)
  | destroyCache (this : ω)

/-- `freed` tells that a record was read in a context that is no more. -/
inductive OwnerOutcome where
  | done
  | raised
  | thrown (what : String)
  | message (message : String)
  | errorData (edata : ErrorData)
  | freed
  deriving DecidableEq, Repr

namespace Owners

def start : Owners ω where
  elog := { idle.store.elog with nextContext := 0 }
  exceptions _ := none
  caught := []
  deletions _ := 0
  caches _ := none
  lookups := 0
  releases _ := 0

section Operations
variable (m : Owners ω)

/-- `FlushErrorState` resets `ErrorContext`, and the callbacks delete. -/
def flush : Owners ω :=
  { m with
    elog := m.elog.flushErrorState
    deletions := fun context => m.deletions context + m.elog.resetCallbacks.count context }

def bind (this : ω) (object : PgException) : Owners ω :=
  { m with exceptions := Function.update m.exceptions this (some object) }

/-- Nobody has these objects any more, and their destructors were not called. -/
def leave (gone : List ω) : Owners ω :=
  { m with exceptions := fun this => if this ∈ gone then none else m.exceptions this }

/-- The exceptions of the innermost handlers. -/
def innermost : Nat → List (Caught ω) → List ω
  | 0, _ => []
  | _, [] => []
  | n + 1, .handled exception :: older => exception.toList ++ innermost n older
  | n + 1, .left _ :: older => innermost (n + 1) older

/-- The stack where the innermost handlers are no more. -/
def abandon : Nat → List (Caught ω) → List (Caught ω)
  | 0, stack => stack
  | _, [] => []
  | n + 1, .handled exception :: older => .left (exception.bind m.exceptions) :: abandon n older
  | n + 1, .left exception :: older => .left exception :: abandon (n + 1) older

/-- A jump leaves frames with these copies and a number of handlers. -/
def jump (skipped : List ω) (handlers : Nat) : Owners ω :=
  { m.leave (skipped ++ innermost handlers m.caught) with caught := m.abandon handlers m.caught }

/-- A context is deleted by a destructor. -/
def delete (context : MemoryContext) : Owners ω :=
  { m with
    elog := m.elog.deleteRecord context
    deletions := Function.update m.deletions context (m.deletions context + 1) }

/-- `pg_exception(mcxt)` -/
def capture (this : ω) (mcxt : MemoryContext) : Option (Owners ω) :=
  match m.elog.errordata with
  | [] => none
  | edata :: _ =>
    some ({ m with elog := m.elog.storeRecord edata }.bind this ⟨mcxt, m.elog.freshContext⟩).flush

/-- `~pg_exception()` -/
def destroy (this : ω) : Option (Owners ω) := do
  let object ← m.exceptions this
  some ((m.delete object.errorCxt).leave [this])

/-- There is a handler to be ended. -/
def inHandler (stack : List (Caught ω)) : Bool :=
  stack.any fun
    | .handled _ => true
    | .left _ => false

/-- A handler ends. The runtime destroys the exception on top of its stack. If that is another one,
the handler's own stays. -/
def endCatch : Option (Owners ω) :=
  match m.caught with
  | [] => none
  | .handled none :: older => some { m with caught := older }
  | .handled (some this) :: older => { m with caught := older }.destroy this
  | .left none :: older => if inHandler older then some ({ m with caught := older }.jump [] 1) else none
  | .left (some object) :: older =>
    if inHandler older then
      some (({ m with caught := older }.delete object.errorCxt).jump [] 1)
    else none

/-- `throw;` at the end of a handler: the exception on top of the stack is in flight again. -/
def throwAgain (this : ω) : Option (Owners ω) :=
  match m.caught with
  | [] => none
  | .handled _ :: older => some { m with caught := older }
  | .left none :: older => if inHandler older then some ({ m with caught := older }.jump [] 1) else none
  | .left (some object) :: older =>
    if inHandler older && (m.exceptions this).isNone then
      some (({ m with caught := older }.bind this object).jump [] 1)
    else none

/-- Something is done with the record of an object. -/
def reading (this : ω) (use : PgException → ErrorData → OwnerOutcome × Owners ω) :
    Option (OwnerOutcome × Owners ω) := do
  let object ← m.exceptions this
  match m.elog.records object.errorCxt with
  | none => some (.freed, m)
  | some edata => some (use object edata)

/-- A reset callback of `ErrorContext` is given the context, and `ReThrowError` copies the record. -/
def rethrow (this : ω) (skipped : List ω) (handlers : Nat) : Option (OwnerOutcome × Owners ω) :=
  m.reading this fun object edata => (.raised, { m with
    elog := { m.elog with
      resetCallbacks := object.errorCxt :: m.elog.resetCallbacks }.reThrowError edata }.jump
    skipped handlers)

/-- `error(pg_exception e)`: no destructor is called for `e`, which is a copy. -/
def error (this : ω) (skipped : List ω) (handlers : Nat) : Option (OwnerOutcome × Owners ω) :=
  m.reading this fun _ edata => (.raised, { m with
    elog := m.elog.errfinish (elogData "error.hpp" 26 "error" edata.message) }.jump skipped handlers)

/-- The exception of an active handler is not an object of a frame. -/
def isHandled (this : ω) : Bool := m.caught.contains (.handled (some this))

def bindCache (this : ω) (object : Syscache) : Owners ω :=
  { m with caches := Function.update m.caches this (some object) }

/-- `syscache(cache_id, key...)`, for the tuple that `SearchSysCache` finds. A constructor that
throws leaves no object. -/
def lookup (this : ω) (cacheId : Int) : Option Nat → OwnerOutcome × Owners ω
  | none => (.thrown "invalid tuple", m)
  | some tuple => (.done,
    { m.bindCache this ⟨cacheId, tuple, m.lookups⟩ with lookups := m.lookups + 1 })

/-- `~syscache()` -/
def destroyCache (this : ω) : Option (Owners ω) := do
  let object ← m.caches this
  some { m with
    releases := Function.update m.releases object.lookup (m.releases object.lookup + 1)
    caches := Function.update m.caches this none }

/-- None where there is no such object, or where the object exists already. An exception is handled
by one handler, and the end of the handler destroys it. -/
def exec : OwnerAction ω → Option (OwnerOutcome × Owners ω)
  | .raise edata skipped handlers =>
    if skipped.any m.isHandled then none
    else some (.raised, { m with elog := m.elog.errfinish edata }.jump skipped handlers)
  | .flush => some (.done, m.flush)
  | .beginCatch none => some (.done, { m with caught := .handled none :: m.caught })
  | .beginCatch (some this) =>
    if m.isHandled this || (m.exceptions this).isNone then none
    else some (.done, { m with caught := .handled (some this) :: m.caught })
  | .endCatch => m.endCatch.map fun next => (.done, next)
  | .throwAgain this => (m.throwAgain this).map fun next => (.done, next)
  | .capture this mcxt =>
    if (m.exceptions this).isSome then none else (m.capture this mcxt).map fun next => (.done, next)
  | .copy this other => do
    let object ← m.exceptions other
    if (m.exceptions this).isSome then none else some (.done, m.bind this object)
  | .assign this other => do
    let object ← m.exceptions other
    let _target ← m.exceptions this
    some (.done, m.bind this object)
  | .destroy this =>
    if m.isHandled this then none else (m.destroy this).map fun next => (.done, next)
  | .rethrow this skipped handlers =>
    if skipped.any m.isHandled then none else m.rethrow this skipped handlers
  | .error this skipped handlers =>
    if skipped.any m.isHandled then none else m.error this skipped handlers
  | .message this => m.reading this fun _ edata => (.message edata.message, m)
  | .errorData this => m.reading this fun _ edata => (.errorData edata, m)
  | .lookup this cacheId tuple =>
    if (m.caches this).isSome then none else some (m.lookup this cacheId tuple)
  | .copyCache this other => do
    let object ← m.caches other
    if (m.caches this).isSome then none else some (.done, m.bindCache this object)
  | .assignCache this other => do
    let object ← m.caches other
    let _target ← m.caches this
    some (.done, m.bindCache this object)
  | .destroyCache this => (m.destroyCache this).map fun next => (.done, next)

def step (action : OwnerAction ω) : Option (Owners ω) := (m.exec action).map Prod.snd

end Operations

/-! ## What owners promise -/

section Promise
variable (m next : Owners ω)

/-- The exceptions as handles of their contexts. A context that a reset of `ErrorContext` is to
delete counts as deleted. -/
def contexts : Handles ω where
  resource this := (m.exceptions this).map (·.errorCxt)
  spent context := m.deletions context + m.elog.resetCallbacks.count context
  fresh := m.elog.nextContext

/-- The caches as handles of the pins of their lookups. -/
def pins : Handles ω where
  resource this := (m.caches this).map (·.lookup)
  spent := m.releases
  fresh := m.lookups

/-- The context of the exception on top of a stack. -/
def top : List (Caught ω) → Option MemoryContext
  | .handled (some this) :: _ => m.contexts.resource this
  | .left (some object) :: _ => some object.errorCxt
  | _ => none

/-- The context that a destructor deletes. -/
def destroys : OwnerAction ω → Option MemoryContext
  | .destroy this => m.contexts.resource this
  | .endCatch => m.top m.caught
  | _ => none

/-- Each context is deleted once and each pin released once, by the time that no object has it; a
destructor deletes as the last owner; and no record is read that was freed. -/
structure Right (outcome : OwnerOutcome) (action : OwnerAction ω) : Prop where
  contexts : next.contexts.Settled
  pins : next.pins.Settled
  last : ∀ context, m.destroys action = some context →
    ∀ other, next.contexts.resource other ≠ some context
  read : outcome ≠ .freed

/-- What a jump leaves. -/
def lost (skipped : List ω) (handlers : Nat) : List ω := skipped ++ innermost handlers m.caught

/-- Where its context was not deleted, and is not to be, no other object than these has it. -/
def Sole (context : MemoryContext) (gone : List ω) : Prop :=
  m.contexts.spent context = 0 ∧ ∀ other, other ∉ gone → m.contexts.resource other ≠ some context

/-- A handler may end where the exception on top is its own and may be destroyed. Where it is
another one, the handler's own is nobody's from then on. -/
def MayEnd : List (Caught ω) → Prop
  | .handled (some this) :: _ =>
    ∀ context, m.contexts.resource this = some context → m.Sole context [this]
  | .left none :: older => m.contexts.Spared (innermost 1 older)
  | .left (some object) :: older =>
    m.Sole object.errorCxt (innermost 1 older) ∧
      (m.contexts.spend object.errorCxt).Spared (innermost 1 older)
  | _ => True

/-- So it is where `throw;` throws another one. -/
def MayThrowAgain (this : ω) : List (Caught ω) → Prop
  | .left none :: older => m.contexts.Spared (innermost 1 older)
  | .left (some object) :: older =>
    (m.contexts.share this object.errorCxt).Spared (innermost 1 older)
  | _ => True

/-- An object is destroyed or rethrown only if no object with its context was, and destroyed only
if no other has the context; what is skipped or overwritten, and what a handler that ends did not
end, is not all that has a context, unless the context was deleted or is to be; and a record is read
while its context is there. Of the caches with one pin, one is destroyed, and what is overwritten is
not all that has a pin. -/
def Allowed : OwnerAction ω → Prop
  | .raise _ skipped handlers => m.contexts.Spared (m.lost skipped handlers)
  | .endCatch => m.MayEnd m.caught
  | .throwAgain this => m.MayThrowAgain this m.caught
  | .assign this other =>
    m.contexts.resource this = m.contexts.resource other ∨ m.contexts.Spared [this]
  | .destroy this => ∀ context, m.contexts.resource this = some context → m.Sole context [this]
  | .rethrow this skipped handlers => ∀ context, m.contexts.resource this = some context →
    m.contexts.spent context = 0 ∧ (m.contexts.spend context).Spared (m.lost skipped handlers)
  | .error this skipped handlers => (∀ context, m.contexts.resource this = some context →
    m.deletions context = 0) ∧ m.contexts.Spared (m.lost skipped handlers)
  | .message this => ∀ context, m.contexts.resource this = some context → m.deletions context = 0
  | .errorData this => ∀ context, m.contexts.resource this = some context → m.deletions context = 0
  | .assignCache this other => m.pins.resource this = m.pins.resource other ∨ m.pins.Spared [this]
  | .destroyCache this => ∀ pin, m.pins.resource this = some pin → m.pins.spent pin = 0
  | _ => True

/-- An action of a run, in the state that it is taken in. -/
def DoneRight (action : OwnerAction ω) : Prop :=
  ∀ outcome next, m.exec action = some (outcome, next) → m.Right next outcome action

end Promise

end Owners
end Cppgres
