import Cppgres.Memory.Follows

/-!
# Plans

`spi_plan` over the life of executors. A plan lives in a memory context of its own, below
that of the SPI connection until `SPI_keepplan` moves it; the object follows it with a
tracking memory context.
-/
namespace Cppgres
open Regions Labelled

variable {ω : Type} [DecidableEq ω]

/-- `_SPI_plan` -/
structure SavedPlan where
  src : String
  plancxt : Nat
  deriving DecidableEq, Repr

/-- What became of an object. -/
inductive PlanUsage where
  | owner | released | moved
  deriving DecidableEq, Repr

/-- `spi_plan`; its tracking memory context is kept apart. Not of the source are `executor` and
`src`, the connection that prepared the plan and the query it is for, and `usage`. -/
structure PlanObject where
  kept : Bool
  plan : Nat
  executor : Nat
  src : String
  usage : PlanUsage
  deriving DecidableEq, Repr

/-- What was done to a plan: `keep()` returned, `release()`, its owner was destroyed. -/
structure PlanFate where
  kept : Bool
  released : Bool
  destroyed : Bool
  deriving DecidableEq, Repr

/-- `executors` has the memory contexts of the live connections, the innermost first;
`freed` the plans that `SPI_freeplan` was called on. `terminated` tells that a destructor
has thrown. -/
structure PlanMemory (ω : Type) where
  tracked : TrackedMemory ω SavedPlan
  objects : AList fun _ : ω => PlanObject
  executors : List Nat
  freed : List Nat
  fates : Nat → PlanFate
  terminated : Bool

inductive PlanAction (ω : Type) where
  | connect
  | finish
  | prepare (this : ω) (executor : Nat) (query : String)
  | keep (this : ω)
  | moveConstruct (this other : ω)
  | query (executor : Nat) (this : ω)
  | release (this : ω)
  | destroy (this : ω)
  deriving DecidableEq, Repr

/-- What a use of a plan comes to. -/
inductive PlanReply where
  | plan (pointer : Nat)
  | executed (src : String)
  | pointerGone
  | notCurrent
  | freed
  deriving DecidableEq, Repr

def cacheMemoryContext : Nat := 0

def topTransactionContext : Nat := 1

namespace PlanMemory

/-- Before the first connection. -/
def start : PlanMemory ω where
  tracked := { (TrackedMemory.start : TrackedMemory ω SavedPlan) with
    memory := (Store.empty.create none).create none }
  objects := ∅
  executors := []
  freed := []
  fates _ := ⟨false, false, false⟩
  terminated := false

section Operations
variable (m : PlanMemory ω)

/-- `spi_plan::operator ::SPIPlanPtr` -/
def toPointer (this : ω) (object : PlanObject) : PlanReply :=
  match m.tracked.trackers.lookup this with
  | some ctx => if 0 < m.tracked.resets ctx then .pointerGone else .plan object.plan
  | none => .plan object.plan

/-- `spi_executor::query`, on a plan. -/
def queryPlan (executor : Nat) (this : ω) (object : PlanObject) : PlanReply :=
  if m.executors.head? ≠ some executor then .notCurrent
  else
    match m.toPointer this object with
    | .plan plan =>
      match m.tracked.memory.chunks plan with
      | some (_, saved) => .executed saved.src
      | none => .freed
    | reply => reply

def setObject (this : ω) (object : PlanObject) : PlanMemory ω :=
  { m with objects := m.objects.insert this object }

def setFate (plan : Nat) (f : PlanFate → PlanFate) : PlanMemory ω :=
  { m with fates := fun other => if other = plan then f (m.fates plan) else m.fates other }

/-- `SPI_connect_ext` -/
def connect : PlanMemory ω :=
  { m with
    tracked := { m.tracked with memory := m.tracked.memory.create (some topTransactionContext) }
    executors := m.tracked.memory.fresh :: m.executors }

/-- `SPI_finish` of the innermost connection. -/
def finish (executor : Nat) (outer : List Nat) : PlanMemory ω :=
  { m with tracked := m.tracked.release executor true, executors := outer }

/-- `SPI_keepplan` -/
def spiKeepplan (plan : Nat) : PlanMemory ω :=
  match m.tracked.memory.chunks plan with
  | some (_, saved) =>
    { m with tracked := { m.tracked with
        memory := m.tracked.memory.reparent saved.plancxt cacheMemoryContext } }
  | none => { m with tracked := { m.tracked with undefined := true } }

/-- `SPI_freeplan` -/
def spiFreeplan (plan : Nat) : PlanMemory ω :=
  match m.tracked.memory.chunks plan with
  | some (_, saved) =>
    { m with tracked := m.tracked.release saved.plancxt true, freed := plan :: m.freed }
  | none => { m with tracked := { m.tracked with undefined := true } }

/-- `spi_executor::plan`: `SPI_prepare` makes the plan in a new context, and the object
follows that. -/
def prepare (this : ω) (executor : Nat) (query : String) : Option (PlanMemory ω) :=
  let plancxt := m.tracked.memory.fresh
  let memory := m.tracked.memory.create (some executor)
  if isLive : memory.live plancxt then
    let plan := memory.fresh
    let tracked := { m.tracked with memory := memory.alloc plancxt ⟨query, plancxt⟩ isLive }
    (tracked.step (.construct this plancxt)).map fun tracked =>
      setObject { m with tracked := tracked } this ⟨false, plan, executor, query, .owner⟩
  else none

/-- `spi_plan::keep`, which returns if the conversion does. -/
def keep (this : ω) (object : PlanObject) : PlanMemory ω :=
  match m.toPointer this object with
  | .plan plan =>
    ((m.spiKeepplan plan).setObject this { object with kept := true }).setFate plan
      fun fate => { fate with kept := true }
  | _ => m

/-- `spi_plan(spi_plan &&)` -/
def moveConstruct (this other : ω) (object : PlanObject) : Option (PlanMemory ω) :=
  (m.tracked.step (.moveConstruct this other)).map fun tracked =>
    (setObject { m with tracked := tracked } other
      { object with kept := false, usage := .moved }).setObject this object

/-- `spi_plan::release` -/
def release (this : ω) (object : PlanObject) : PlanMemory ω :=
  (m.setObject this { object with kept := false, usage := .released }).setFate object.plan
    fun fate => { fate with released := true }

/-- The body of `~spi_plan`, from which nothing can be thrown. -/
def freeKept (this : ω) (object : PlanObject) : PlanMemory ω :=
  if object.kept then
    match m.toPointer this object with
    | .plan plan => m.spiFreeplan plan
    | _ => { m with terminated := true }
  else m

/-- `~spi_plan`, and then that of its member. -/
def destroy (this : ω) (object : PlanObject) : Option (PlanMemory ω) :=
  let body := m.freeKept this object
  (body.tracked.step (.destroy this)).map fun tracked =>
    let gone := { body with tracked := tracked, objects := m.objects.erase this }
    if object.usage = .moved then gone
    else gone.setFate object.plan fun fate => { fate with destroyed := true }

end Operations

/-- None where there is no such object or executor, where the object exists already, and
where an object that was released or moved from is not just destroyed. -/
def step (m : PlanMemory ω) : PlanAction ω → Option (PlanMemory ω)
  | .connect => some m.connect
  | .finish =>
    match m.executors with
    | [] => none
    | executor :: outer => some (m.finish executor outer)
  | .prepare this executor query =>
    if executor ∈ m.executors then
      if m.executors.head? ≠ some executor then some m else m.prepare this executor query
    else none
  | .keep this => do
    let object ← m.objects.lookup this
    if object.usage = .owner then some (m.keep this object) else none
  | .moveConstruct this other => do
    let object ← m.objects.lookup other
    if object.usage = .owner then m.moveConstruct this other object else none
  | .query executor this => do
    let object ← m.objects.lookup this
    if object.usage = .owner ∧ executor ∈ m.executors then some m else none
  | .release this => do
    let object ← m.objects.lookup this
    if object.usage = .owner then some (m.release this object) else none
  | .destroy this => do
    let object ← m.objects.lookup this
    m.destroy this object

end PlanMemory
end Cppgres
