import Cppgres.Memory.Follows

/-!
# Variable-length values

`text` and `bytea`: a datum that points to memory of a context, and the detoasted copy of
it once the value was read. Each comes with a tracking memory context. The objects have
those as members, so what happens to an object is a sequence of operations on them.
-/
namespace Cppgres
open Regions Labelled

variable {ω : Type} [DecidableEq ω]

/-- `::varlena`, and the bytes that it stands for, which are elsewhere if it is toasted. -/
structure Varlena where
  isExtended : Bool
  bytes : List (BitVec 8)
  deriving DecidableEq, Repr

/-- `varlena`, the class. Not of the source are `value`, the bytes that the source had when the
first object was made of it, and `moved`, which tells whether the object was moved from. -/
structure VarlenaValue where
  valueDatum : Nat
  detoasted : Option Nat
  value : List (BitVec 8)
  moved : Bool
  deriving DecidableEq, Repr

/-- The members that are tracking memory contexts. `detoasted_ctx` is optional. -/
inductive VarlenaMember where
  | ctx | detoastedCtx
  deriving DecidableEq, Repr

structure VarlenaMemory (ω : Type) where
  tracked : TrackedMemory (ω × VarlenaMember) Varlena
  objects : AList fun _ : ω => VarlenaValue

inductive VarlenaAction (ω : Type) where
  | create (parent : Option Nat)
  | reset (ctx : Nat)
  | delete (ctx : Nat)
  | alloc (ctx : Nat) (varlena : Varlena)
  | construct (this : ω) (source : Nat)
  | copyConstruct (this other : ω)
  | moveConstruct (this other : ω)
  | moveAssign (this other : ω)
  | destroy (this : ω)
  | read (this : ω) (currentMemoryContext : Nat)
  deriving DecidableEq, Repr

/-- What a conversion comes to. Handing out memory that is freed has no meaning. -/
inductive Reading where
  | bytes (bytes : List (BitVec 8))
  | pointerGone
  | freed
  deriving DecidableEq, Repr

namespace VarlenaMemory

def start : VarlenaMemory ω := ⟨.start, ∅⟩

section Members
variable (m : VarlenaMemory ω) (this other : ω)

/-- `detoasted_ctx.has_value()` -/
def engaged : Bool := decide ((this, .detoastedCtx) ∈ m.tracked.trackers)

def copyMembers : List (TrackingAction (ω × VarlenaMember)) :=
  .copyConstruct (this, .ctx) (other, .ctx) ::
    if m.engaged other then [.copyConstruct (this, .detoastedCtx) (other, .detoastedCtx)] else []

def moveMembers : List (TrackingAction (ω × VarlenaMember)) :=
  .moveConstruct (this, .ctx) (other, .ctx) ::
    if m.engaged other then [.moveConstruct (this, .detoastedCtx) (other, .detoastedCtx)] else []

/-- The move assignment of the base, and then that of the optional member. -/
def assignMembers : List (TrackingAction (ω × VarlenaMember)) :=
  .moveAssign (this, .ctx) (other, .ctx) ::
    match m.engaged this, m.engaged other with
    | true, true => [.moveAssign (this, .detoastedCtx) (other, .detoastedCtx)]
    | true, false => [.destroy (this, .detoastedCtx)]
    | false, true => [.moveConstruct (this, .detoastedCtx) (other, .detoastedCtx)]
    | false, false => []

def destroyMembers : List (TrackingAction (ω × VarlenaMember)) :=
  (if m.engaged this then [.destroy (this, .detoastedCtx)] else []) ++ [.destroy (this, .ctx)]

/-- `detoasted_ctx = ctx` -/
def trackSource : List (TrackingAction (ω × VarlenaMember)) :=
  if m.engaged this then [.copyAssign (this, .detoastedCtx) (this, .ctx)]
  else [.copyConstruct (this, .detoastedCtx) (this, .ctx)]

/-- `detoasted_ctx.emplace(memory_context())` -/
def trackCopy (currentMemoryContext : Nat) : List (TrackingAction (ω × VarlenaMember)) :=
  (if m.engaged this then [.destroy (this, .detoastedCtx)] else []) ++
    [.construct (this, .detoastedCtx) currentMemoryContext]

/-- Operations on the members, and then what they leave the objects. -/
def perform (actions : List (TrackingAction (ω × VarlenaMember)))
    (objects : AList fun _ : ω => VarlenaValue) : Option (VarlenaMemory ω) :=
  (run TrackedMemory.step m.tracked actions).map fun tracked => ⟨tracked, objects⟩

end Members

/-- The bytes at a pointer. -/
def view (m : VarlenaMemory ω) (pointer : Nat) : Reading :=
  match m.tracked.memory.chunks pointer with
  | some (_, varlena) => .bytes varlena.bytes
  | none => .freed

/-- `detoasted_ptr()` where there is a detoasted pointer. -/
def cached (m : VarlenaMemory ω) (this : ω) (pointer : Nat) : Reading :=
  match m.tracked.trackers.lookup (this, .detoastedCtx) with
  | some detoastedCtx => if 0 < m.tracked.resets detoastedCtx then .pointerGone else m.view pointer
  | none => m.view pointer

/-- `detoasted_ptr()`, and what a conversion reads there. `pg_detoast_datum` gives the source
back or, if that is extended, a copy in the current memory context. -/
def read (m : VarlenaMemory ω) (this : ω) (currentMemoryContext : Nat) :
    Option (Reading × VarlenaMemory ω) := do
  let object ← m.objects.lookup this
  match object.detoasted with
  | some pointer => some (m.cached this pointer, m)
  | none =>
    let ctx ← m.tracked.trackers.lookup (this, .ctx)
    if 0 < m.tracked.resets ctx then some (.pointerGone, m)
    else
      match m.tracked.memory.chunks object.valueDatum with
      | none => some (.freed, m)
      | some (_, varlena) =>
        if varlena.isExtended then
          if isLive : m.tracked.memory.live currentMemoryContext then
            let tracked := { m.tracked with
              memory := m.tracked.memory.alloc currentMemoryContext ⟨false, varlena.bytes⟩ isLive }
            let copy := { object with detoasted := some m.tracked.memory.fresh }
            let next ← perform ⟨tracked, m.objects⟩ (m.trackCopy this currentMemoryContext)
              (m.objects.insert this copy)
            some (.bytes varlena.bytes, next)
          else none
        else
          let source := { object with detoasted := some object.valueDatum }
          let next ← m.perform (m.trackSource this) (m.objects.insert this source)
          some (.bytes varlena.bytes, next)

/-- An operation on contexts only. -/
def onContexts (m : VarlenaMemory ω) (action : TrackingAction (ω × VarlenaMember)) :
    Option (VarlenaMemory ω) :=
  m.perform [action] m.objects

/-- None where there is no such object, context or memory, where the object exists already,
and after freed memory was handed out. -/
def step (m : VarlenaMemory ω) : VarlenaAction ω → Option (VarlenaMemory ω)
  | .create parent => m.onContexts (.create parent)
  | .reset ctx => m.onContexts (.reset ctx)
  | .delete ctx => m.onContexts (.delete ctx)
  | .alloc ctx varlena =>
    if isLive : m.tracked.memory.live ctx then
      some { m with tracked :=
        { m.tracked with memory := m.tracked.memory.alloc ctx varlena isLive } }
    else none
  | .construct this source => do
    let (ctx, varlena) ← m.tracked.memory.chunks source
    m.perform [.construct (this, .ctx) ctx]
      (m.objects.insert this ⟨source, none, varlena.bytes, false⟩)
  | .copyConstruct this other => do
    let object ← m.objects.lookup other
    m.perform (m.copyMembers this other) (m.objects.insert this object)
  | .moveConstruct this other => do
    let object ← m.objects.lookup other
    m.perform (m.moveMembers this other)
      ((m.objects.insert other { object with moved := true }).insert this object)
  | .moveAssign this other => do
    let object ← m.objects.lookup other
    if this ∈ m.objects then
      m.perform (m.assignMembers this other) (if this = other then m.objects else
        (m.objects.insert other { object with moved := true }).insert this object)
    else none
  | .destroy this => do
    let _object ← m.objects.lookup this
    m.perform (m.destroyMembers this) (m.objects.erase this)
  | .read this currentMemoryContext => do
    let (reading, next) ← m.read this currentMemoryContext
    if reading = .freed then none else some next

end VarlenaMemory
end Cppgres
