import Cppgres.Datum.Conversion
import Cppgres.Function.CurrentFunction

/-!
# Support functions of an aggregate

`aggregate_sfunc`, `aggregate_ffunc`, `aggregate_serial`, `aggregate_deserial` and
`aggregate_combine` of `aggregate.hpp`, for a class that is finalizable, serializable and
combinable and is not itself convertible into a datum: its transition value is a pointer,
an `internal` datum, and each of the five decides for itself what a null one stands for.
-/
namespace Cppgres
open NonLocal

abbrev Bytea := List UInt8

/-- The user's class: its constructors and member functions. -/
structure Aggregate (InTs Agg : Type) where
  /-- `Agg()` -/
  initial : Agg
  update : Agg → InTs → Agg
  finalize : Agg → Outgoing
  serialize : Agg → Bytea
  /-- `Agg(bytea &)` -/
  deserialize : Bytea → Agg
  /-- `Agg(const Agg &, const Agg &)` -/
  combine : Agg → Agg → Agg

/-- The objects of the class in the memory of a process. An address is a position, counted
from 1. -/
structure Heap (Agg : Type) where
  objects : List Agg

namespace Heap
variable {Agg : Type}

def empty : Heap Agg := ⟨[]⟩

/-- `memory_context::construct`. -/
def construct (heap : Heap Agg) (object : Agg) : Heap Agg × Datum :=
  (⟨heap.objects ++ [object]⟩, heap.objects.length + 1)

def read (heap : Heap Agg) : Datum → Option Agg
  | 0 => none
  | index + 1 => heap.objects[index]?

def write (heap : Heap Agg) (pointer : Datum) (object : Agg) : Heap Agg :=
  ⟨heap.objects.set (pointer - 1) object⟩

/-- What was there is still there. -/
def Extends (heap later : Heap Agg) : Prop :=
  ∀ pointer object, heap.read pointer = some object → later.read pointer = some object

theorem Extends.refl (heap : Heap Agg) : heap.Extends heap := fun _ _ found => found

theorem Extends.trans {heap later last : Heap Agg} (one : heap.Extends later)
    (two : later.Extends last) : heap.Extends last :=
  fun pointer object found => two pointer object (one pointer object found)

theorem read_construct (heap : Heap Agg) (object : Agg) :
    (heap.construct object).1.read (heap.construct object).2 = some object :=
  List.getElem?_concat_length

theorem extends_construct (heap : Heap Agg) (object : Agg) :
    heap.Extends (heap.construct object).1 := by
  intro pointer other found
  cases pointer with
  | zero => cases found
  | succ index =>
    have below := (List.getElem?_eq_some_iff.mp found).1
    exact (List.getElem?_append_left below).trans found

theorem read_write {heap : Heap Agg} {pointer : Datum} {old : Agg} (object : Agg)
    (found : heap.read pointer = some old) : (heap.write pointer object).read pointer = some object := by
  cases pointer with
  | zero => cases found
  | succ index =>
    have below := (List.getElem?_eq_some_iff.mp found).1
    exact List.getElem?_set_self below

end Heap

/-- `cppgres::value`. -/
structure Value where
  datum : NullableDatum
  type : Oid
  deriving DecidableEq, Repr

/-- `INTERNALOID` -/
def internalOid : Oid := 2281

/-- `AggCheckCallContext`. -/
def aggCheckCallContext (fc : FunctionCallInfo) : Cpp (Option MemoryContext) :=
  match fc.context with
  | some (.aggState aggcontext) => pure (some aggcontext)
  | some (.callContext _) => pure none
  | some .other => pure none
  | none => pure none

/-- The check that three of the functions begin with. -/
def requireAggContext : Cpp MemoryContext := do
  let info ← callInfo
  match info with
  | none => Code.abort
  | some fc => do
    let aggctx ← ffiGuard (aggCheckCallContext fc)
    match aggctx with
    | none => report "not aggregate context"
    | some aggctx => pure aggctx

/-- `from_nullable_datum<void *>`. -/
def voidPointer (datum : NullableDatum) : Cpp Datum :=
  if datum.isnull then Code.throwing (Refusal.nullDatum "void *").exception else pure datum.value

section Functions
variable {InTs Agg : Type} (agg : Aggregate InTs Agg)

/-- The state that a transition value stands for: a null one for a new object. -/
def stateOrNew (heap : Heap Agg) (state : Value) : Cpp (Heap Agg × Datum) :=
  if state.datum.isnull then pure (heap.construct agg.initial)
  else do
    let pointer ← voidPointer state.datum
    pure (heap, pointer)

/-- Follow a pointer. -/
def dereference (heap : Heap Agg) (pointer : Datum) : Cpp Agg :=
  match heap.read pointer with
  | none => Code.abort
  | some object => pure object

def aggregateSfunc (heap : Heap Agg) (state : Value) (args : InTs) : Cpp (Heap Agg × Datum) := do
  let _aggctx ← requireAggContext
  let (heap, state0) ← stateOrNew agg heap state
  let object ← dereference heap state0
  pure (heap.write state0 (agg.update object args), state0)

def aggregateFfunc (heap : Heap Agg) (state : Value) : Cpp NullableDatum := do
  let (heap, state0) ← stateOrNew agg heap state
  let object ← dereference heap state0
  pure (agg.finalize object).intoNullableDatum

def aggregateSerial (heap : Heap Agg) (state : Value) : Cpp Bytea := do
  if state.type = internalOid then
    let state0 ← voidPointer state.datum
    let object ← dereference heap state0
    pure (agg.serialize object)
  else report "this aggregate does not support serialize"

def aggregateDeserial (heap : Heap Agg) (ba : Bytea) : Cpp (Heap Agg × Datum) := do
  let _aggctx ← requireAggContext
  pure (heap.construct (agg.deserialize ba))

def aggregateCombine (heap : Heap Agg) (state other : Value) : Cpp (Heap Agg × Datum) := do
  let _aggctx ← requireAggContext
  let (heap, state0) ← stateOrNew agg heap state
  let (heap, state1) ← stateOrNew agg heap other
  let object0 ← dereference heap state0
  let object1 ← dereference heap state1
  pure (heap.construct (agg.combine object0 object1))

end Functions

end Cppgres
