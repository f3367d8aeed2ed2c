import Cppgres.Labelled.Runs
import Cppgres.Regions.Store
import Mathlib.Data.List.AList

/-!
# Tracking memory contexts

`tracking_memory_context` counts the resets of a context: a callback on the context points
to a state that the copies of the object share. The last of them is to disarm the callback.
-/
namespace Cppgres
open Regions

/-! ## Tables of objects -/

section Tables
variable {ι β : Type} [DecidableEq ι] {table : AList fun _ : ι => β} {key name : ι}
  {value entry : β}

theorem mem_of_lookup (found : table.lookup key = some value) : key ∈ table :=
  AList.lookup_isSome.mp (by rw [found]; rfl)

theorem mem_insert_of_mem (there : key ∈ table) : name ∈ table.insert key value ↔ name ∈ table := by
  rw [AList.mem_insert]
  constructor
  · intro either
    cases either with
    | inl same => rwa [same]
    | inr old => exact old
  · exact .inr

theorem lookup_insert_eq (name : ι) :
    (table.insert key value).lookup name = if name = key then some value else table.lookup name := by
  by_cases same : name = key
  · rw [if_pos same, same, AList.lookup_insert]
  · rw [if_neg same, AList.lookup_insert_ne same]

/-- What is found after an insertion is what was inserted, or was there. -/
theorem lookup_insert_cases (found : (table.insert key value).lookup name = some entry) :
    name = key ∧ entry = value ∨ name ≠ key ∧ table.lookup name = some entry := by
  rw [lookup_insert_eq] at found
  by_cases same : name = key
  · rw [if_pos same, Option.some.injEq] at found
    exact .inl ⟨same, found.symm⟩
  · rw [if_neg same] at found
    exact .inr ⟨same, found⟩

/-- What is found after an erasure was there under another name. -/
theorem lookup_erase_cases (found : (table.erase key).lookup name = some entry) :
    name ≠ key ∧ table.lookup name = some entry := by
  have different : name ≠ key := by
    intro same
    rw [same, AList.lookup_erase] at found
    cases found
  rw [AList.lookup_erase_ne different] at found
  exact ⟨different, found⟩

end Tables

variable {ι α : Type} [DecidableEq ι]

/-- What a callback calls: `track_reset`, or the function that does nothing. -/
inductive CallbackFunction where
  | trackReset | nothing
  deriving DecidableEq, Repr

/-- `::MemoryContextCallback` -/
structure ResetCallback where
  address : Nat
  func : CallbackFunction
  arg : Option Nat
  deriving DecidableEq, Repr

/-- `callback_state` -/
structure CallbackState where
  counter : Nat
  callback : Option Nat
  deriving DecidableEq, Repr

/-- `tracking_memory_context`: `state` is a shared pointer. -/
structure TrackingMemoryContext where
  ctx : Nat
  state : Option Nat
  deriving DecidableEq, Repr

/-- The memory contexts, the states that were made, and the objects alive, which ι names.
`undefined` tells that a destroyed state, or a callback that is freed, was written to. -/
structure TrackedMemory (ι α : Type) where
  memory : Store ResetCallback α
  states : Nat → CallbackState
  fresh : Nat
  trackers : AList fun _ : ι => TrackingMemoryContext
  undefined : Bool

inductive TrackingAction (ι : Type) where
  | create (parent : Option Nat)
  | reset (ctx : Nat)
  | delete (ctx : Nat)
  | construct (this : ι) (ctx : Nat)
  | copyConstruct (this other : ι)
  | moveConstruct (this other : ι)
  | copyAssign (this other : ι)
  | moveAssign (this other : ι)
  | destroy (this : ι)
  deriving DecidableEq, Repr

namespace TrackedMemory

/-- Before the first context and the first object. -/
def start : TrackedMemory ι α where
  memory := .empty
  states _ := ⟨0, none⟩
  fresh := 0
  trackers := ∅
  undefined := false

section Operations
variable (m : TrackedMemory ι α)

/-- `use_count()` -/
def useCount (state : Nat) : Nat := m.trackers.entries.countP fun object => object.2.state = some state

/-- What the callback is called for: `func(arg)`. A state without an owner is destroyed. -/
def call (callback : ResetCallback) : TrackedMemory ι α :=
  match callback.func, callback.arg with
  | .nothing, _ => m
  | .trackReset, none => { m with undefined := true }
  | .trackReset, some state =>
    if m.useCount state = 0 then { m with undefined := true }
    else { m with states := fun other =>
            if other = state then ⟨(m.states state).counter + 1, none⟩ else m.states other }

/-- `MemoryContextReset` and `MemoryContextDelete` -/
def release (ctx : Nat) (delete : Bool) : TrackedMemory ι α :=
  { (m.memory.due ctx).foldl call m with memory := m.memory.release ctx delete }

/-- `tracking_memory_context(C ctx)`: a new state, and its callback under the same number. -/
def construct (this : ι) (ctx : Nat) (isLive : m.memory.live ctx) : TrackedMemory ι α where
  memory := m.memory.register ctx ⟨m.fresh, .trackReset, some m.fresh⟩ isLive
  states other := if other = m.fresh then ⟨0, some m.fresh⟩ else m.states other
  fresh := m.fresh + 1
  trackers := m.trackers.insert this ⟨ctx, some m.fresh⟩
  undefined := m.undefined

def copyConstruct (this : ι) (other : TrackingMemoryContext) : TrackedMemory ι α :=
  { m with trackers := m.trackers.insert this other }

/-- Moving leaves the other object without a state. -/
def moveConstruct (this : ι) (name : ι) (other : TrackingMemoryContext) : TrackedMemory ι α :=
  { m with trackers := (m.trackers.insert name ⟨other.ctx, none⟩).insert this other }

/-- `operator=(const tracking_memory_context &)` -/
def copyAssign (this name : ι) (other : TrackingMemoryContext) : TrackedMemory ι α :=
  if this ≠ name then { m with trackers := m.trackers.insert this other } else m

/-- `operator=(tracking_memory_context &&)` -/
def moveAssign (this name : ι) (other : TrackingMemoryContext) : TrackedMemory ι α :=
  if this ≠ name then
    { m with trackers := (m.trackers.insert name ⟨other.ctx, none⟩).insert this other }
  else m

/-- The callback does nothing from now on, and the state knows of none. -/
def disarm (state callback : Nat) : TrackedMemory ι α :=
  { m with
    memory := m.memory.updateCallbacks fun registered =>
      if registered.address = callback then ⟨callback, .nothing, none⟩ else registered
    states := fun other =>
      if other = state then { m.states state with callback := none } else m.states other
    undefined := m.undefined ||
      !m.memory.callbacks.any fun registered => registered.2.address = callback }

/-- The body of `~tracking_memory_context`. -/
def disarmLast (this : TrackingMemoryContext) : TrackedMemory ι α :=
  match this.state with
  | none => m
  | some state =>
    match (m.states state).callback with
    | none => m
    | some callback => if m.useCount state = 1 then m.disarm state callback else m

/-- `~tracking_memory_context` -/
def destroy (name : ι) (this : TrackingMemoryContext) : TrackedMemory ι α :=
  { m.disarmLast this with trackers := m.trackers.erase name }

/-- `resets()` -/
def resets (this : TrackingMemoryContext) : Nat :=
  this.state.elim 0 fun state => (m.states state).counter

end Operations

/-- None where there is no such object or context, or where the object exists already. -/
def step (m : TrackedMemory ι α) : TrackingAction ι → Option (TrackedMemory ι α)
  | .create parent =>
    if parent.all m.memory.live then some { m with memory := m.memory.create parent } else none
  | .reset ctx => if m.memory.live ctx then some (m.release ctx false) else none
  | .delete ctx => if m.memory.live ctx then some (m.release ctx true) else none
  | .construct this ctx =>
    if this ∈ m.trackers then none
    else if isLive : m.memory.live ctx then some (m.construct this ctx isLive) else none
  | .copyConstruct this name =>
    if this ∈ m.trackers then none else (m.trackers.lookup name).map (m.copyConstruct this)
  | .moveConstruct this name =>
    if this ∈ m.trackers then none else (m.trackers.lookup name).map (m.moveConstruct this name)
  | .copyAssign this name =>
    if this ∈ m.trackers then (m.trackers.lookup name).map (m.copyAssign this name) else none
  | .moveAssign this name =>
    if this ∈ m.trackers then (m.trackers.lookup name).map (m.moveAssign this name) else none
  | .destroy this => (m.trackers.lookup this).map (m.destroy this)

end TrackedMemory
end Cppgres
