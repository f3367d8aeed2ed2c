import Cppgres.Memory.VarlenaReads

/-!
# Expanded values

`expanded_varlena` over a flattenable type: a variable-length value that is also kept as a
C++ object in a memory context of its own, once it was constructed as one or was accessed.
The object that it derives from is the one of `VarlenaMemory`.
-/
namespace Cppgres
open Regions Labelled

variable {ω T : Type} [DecidableEq ω]

/-- `flattenable`, with what its members promise. `flattenInto x size` is what is in a buffer of
that many bytes afterwards. -/
structure Flattenable (T : Type) where
  flatSize : T → Nat
  flattenInto : T → Nat → List (BitVec 8)
  restoreFrom : List (BitVec 8) → T
  length_flattenInto : ∀ x, (flattenInto x (flatSize x)).length = flatSize x
  restoreFrom_flattenInto : ∀ x, restoreFrom (flattenInto x (flatSize x)) = x

namespace Flattenable
variable (flattenable : Flattenable T)

/-- `sizeof(header)` -/
def headerSize : Nat := 4

/-- `.get_flat_size` -/
def getFlatSize (inner : T) : Nat := flattenable.flatSize inner + headerSize

/-- `.flatten_into`: a header, and the buffer behind it. -/
def flattenIntoResult (inner : T) (allocatedSize : Nat) : Varlena where
  isExtended := false
  bytes := flattenable.flattenInto inner (allocatedSize - headerSize)

/-- `EOH_flatten_into` as Postgres calls it, with the size that it was told. -/
def flatten (inner : T) : Varlena :=
  flattenable.flattenIntoResult inner (flattenable.getFlatSize inner)

end Flattenable

/-- `base` has the contexts, the memory in them and the base class of each object. A piece of
memory that is an expanded object has its value in `inners`, and stands for a varlena elsewhere
there. An object has its `detoasted_value` in `detoastedValue`. -/
structure ExpandedMemory (ω T : Type) where
  base : VarlenaMemory ω
  inners : Nat → Option T
  detoastedValue : AList fun _ : ω => Nat

inductive ExpandedAction (ω T : Type) where
  | create (parent : Option Nat)
  | reset (ctx : Nat)
  | delete (ctx : Nat)
  | alloc (ctx : Nat) (varlena : Varlena)
  | construct (this : ω) (inner : T) (currentMemoryContext : Nat)
  | fromDatum (this : ω) (source : Nat) (ctx : Nat)
  | copy (this other : ω)
  | access (this : ω) (currentMemoryContext : Nat)
  | update (this : ω) (inner : T) (currentMemoryContext : Nat)
  | intoDatum (this : ω)
  | flatten (expanded : Nat) (ctx : Nat)

/-- What an action comes to. `value` is what a `T &` refers to; `freed` tells that it refers to
freed memory, or that such memory was read. -/
inductive ExpandedOutcome (T : Type) where
  | done
  | value (inner : T)
  | pointerGone
  | freed
  | datum (pointer : Nat)
  | notExpanded
  deriving DecidableEq, Repr

namespace ExpandedMemory

def start : ExpandedMemory ω T := ⟨.start, fun _ => none, ∅⟩

section Operations
variable (flattenable : Flattenable T) (m : ExpandedMemory ω T)

/-- The memory at an address is not freed. -/
def there (address : Nat) : Bool := (m.base.tracked.memory.chunks address).isSome

/-- What is in the memory of an expanded object is not read as a varlena. -/
def expandedHeader : Varlena := ⟨true, []⟩

/-- An operation of the base class. -/
def onBase (action : VarlenaAction ω) : Option (ExpandedMemory ω T) :=
  (m.base.step action).map fun base => { m with base }

/-- A new context below the current one, and an expanded object in it. -/
def makeExpanded (inner : T) (currentMemoryContext : Nat) : Option (Nat × ExpandedMemory ω T) := do
  let ctx := m.base.tracked.memory.fresh
  let created ← m.onBase (.create (some currentMemoryContext))
  let expanded := created.base.tracked.memory.fresh
  let allocated ← created.onBase (.alloc ctx expandedHeader)
  some (expanded, { allocated with
    inners := fun address => if address = expanded then some inner else m.inners address })

/-- `expanded_varlena(args...)`, where `T(args...)` is `inner`. -/
def construct (this : ω) (inner : T) (currentMemoryContext : Nat) : Option (ExpandedMemory ω T) := do
  let (expanded, made) ← m.makeExpanded inner currentMemoryContext
  let next ← made.onBase (.construct this expanded)
  some { next with detoastedValue := m.detoastedValue.insert this expanded }

/-- `from_datum(d, oid, ctx)`: the pointer may be to a varlena or to an expanded object. A context
that is not the one of this memory tells as little of it as that of an object moved from. -/
def fromDatum (this : ω) (source ctx : Nat) : Option (ExpandedMemory ω T) := do
  let (owner, varlena) ← m.base.tracked.memory.chunks source
  let base ← m.base.perform [.construct (this, .ctx) ctx]
    (m.base.objects.insert this ⟨source, none, varlena.bytes, decide (ctx ≠ owner)⟩)
  some { m with base }

/-- The implicit copy constructor. -/
def copy (this other : ω) : Option (ExpandedMemory ω T) := do
  let next ← m.onBase (.copyConstruct this other)
  some { next with detoastedValue := match m.detoastedValue.lookup other with
    | some expanded => m.detoastedValue.insert this expanded
    | none => m.detoastedValue }

/-- The object keeps the address and hands out what is there. -/
def cache (this : ω) (expanded : Nat) : ExpandedMemory ω T :=
  { m with detoastedValue := m.detoastedValue.insert this expanded }

/-- The flat value is restored into an expanded object. -/
def expand (this : ω) (currentMemoryContext : Nat) :
    Option (ExpandedOutcome T × ExpandedMemory ω T) := do
  let (reading, base) ← m.base.read this currentMemoryContext
  match reading with
  | .freed => some (.freed, m)
  | .pointerGone => some (.pointerGone, m)
  | .bytes bytes =>
    let (expanded, made) ← { m with base }.makeExpanded (flattenable.restoreFrom bytes)
      currentMemoryContext
    some (.value (flattenable.restoreFrom bytes), made.cache this expanded)

/-- `operator T&` -/
def access (this : ω) (currentMemoryContext : Nat) :
    Option (ExpandedOutcome T × ExpandedMemory ω T) := do
  let object ← m.base.objects.lookup this
  match m.detoastedValue.lookup this with
  | some expanded =>
    if m.there expanded then
      let inner ← m.inners expanded
      some (.value inner, m)
    else some (.freed, m)
  | none =>
    let ctx ← m.base.tracked.trackers.lookup (this, .ctx)
    if 0 < m.base.tracked.resets ctx then some (.pointerGone, m)
    -- `VARATT_IS_EXTERNAL_EXPANDED` reads the memory
    else if m.there object.valueDatum = false then some (.freed, m)
    else
      match m.inners object.valueDatum with
      | some inner => some (.value inner, m.cache this object.valueDatum)
      | none => m.expand flattenable this currentMemoryContext

/-- The value is written to where the `T &` refers. -/
def update (this : ω) (inner : T) (currentMemoryContext : Nat) :
    Option (ExpandedOutcome T × ExpandedMemory ω T) := do
  let (outcome, next) ← m.access flattenable this currentMemoryContext
  match outcome with
  | .value _ =>
    let expanded ← next.detoastedValue.lookup this
    some (outcome, { next with
      inners := fun address => if address = expanded then some inner else next.inners address })
  | _ => some (outcome, next)

/-- `get_expanded_datum()` -/
def intoDatum (this : ω) : Option (ExpandedOutcome T) := do
  let _object ← m.base.objects.lookup this
  match m.detoastedValue.lookup this with
  | some expanded => some (.datum expanded)
  | none => some .notExpanded

/-- Postgres flattens an expanded object into a context. -/
def flatten (expanded ctx : Nat) : Option (ExpandedOutcome T × ExpandedMemory ω T) := do
  if m.there expanded then
    let inner ← m.inners expanded
    let next ← m.onBase (.alloc ctx (flattenable.flatten inner))
    some (.datum m.base.tracked.memory.fresh, next)
  else none

/-- None where there is no such object, context or memory, or where the object exists already. -/
def exec : ExpandedAction ω T → Option (ExpandedOutcome T × ExpandedMemory ω T)
  | .create parent => (m.onBase (.create parent)).map (.done, ·)
  | .reset ctx => (m.onBase (.reset ctx)).map (.done, ·)
  | .delete ctx => (m.onBase (.delete ctx)).map (.done, ·)
  | .alloc ctx varlena => (m.onBase (.alloc ctx varlena)).map (.done, ·)
  | .construct this inner currentMemoryContext =>
    (m.construct this inner currentMemoryContext).map (.done, ·)
  | .fromDatum this source ctx => (m.fromDatum this source ctx).map (.done, ·)
  | .copy this other => (m.copy this other).map (.done, ·)
  | .access this currentMemoryContext => m.access flattenable this currentMemoryContext
  | .update this inner currentMemoryContext => m.update flattenable this inner currentMemoryContext
  | .intoDatum this => (m.intoDatum this).map (·, m)
  | .flatten expanded ctx => m.flatten flattenable expanded ctx

def step (action : ExpandedAction ω T) : Option (ExpandedMemory ω T) :=
  (m.exec flattenable action).map Prod.snd

end Operations

/-! ## What objects and datums stand for -/

section Meaning
variable (flattenable : Flattenable T) (m : ExpandedMemory ω T)

/-- The value of a datum: that of the expanded object at the pointer, or that of the bytes. -/
def denotes (pointer : Nat) : Option T :=
  (m.base.tracked.memory.chunks pointer).map fun chunk =>
    (m.inners pointer).getD (flattenable.restoreFrom chunk.2.bytes)

/-- Where the value of an object is: in its expanded object once there is one. -/
def place (this : ω) : Option Nat :=
  (m.base.objects.lookup this).map fun object =>
    (m.detoastedValue.lookup this).getD object.valueDatum

/-- The value of an object, as long as the memory that holds it is there. -/
def current (this : ω) : Option T := (m.place this).bind (m.denotes flattenable)

end Meaning

/-- The memory that holds the value of an object is not among what a reset frees. -/
def spared (m : ExpandedMemory ω T) (ctx : Nat) (other : ω) : Bool :=
  ((m.place other).bind m.base.tracked.memory.chunks).any fun chunk =>
    !m.base.tracked.memory.covers ctx chunk.1

/-- What becomes of the value of an object. A reset takes the values in the memory that it frees;
an update is one of all objects that share the expanded object. -/
def expected (flattenable : Flattenable T) (m next : ExpandedMemory ω T)
    (outcome : ExpandedOutcome T) (other : ω) : ExpandedAction ω T → Option T
  | .reset ctx | .delete ctx =>
    if m.spared ctx other then m.current flattenable other else none
  | .update this inner _ =>
    match outcome with
    | .value _ => if next.place other = next.place this then some inner
      else m.current flattenable other
    | _ => m.current flattenable other
  | _ => m.current flattenable other

/-- What an action is to do for its own object or datum. A flat copy is written into a buffer of
exactly `flat_size()` bytes. -/
def Does (flattenable : Flattenable T) (m next : ExpandedMemory ω T) (outcome : ExpandedOutcome T) :
    ExpandedAction ω T → Prop
  | .construct this inner _ => next.current flattenable this = some inner
  | .fromDatum this source _ => next.current flattenable this = m.denotes flattenable source
  | .copy this other => next.current flattenable this = m.current flattenable other
  | .access this _ | .update this _ _ =>
    outcome = (m.current flattenable this).elim .pointerGone .value
  | .intoDatum this => ∀ inner, m.current flattenable this = some inner →
    ∃ pointer, outcome = .datum pointer ∧ m.denotes flattenable pointer = some inner
  | .flatten expanded ctx => ∃ pointer inner, outcome = .datum pointer ∧
    m.denotes flattenable expanded = some inner ∧
    next.base.tracked.memory.chunks pointer =
      some (ctx, ⟨false, flattenable.flattenInto inner (flattenable.flatSize inner)⟩) ∧
    next.denotes flattenable pointer = some inner
  | .create _ | .reset _ | .delete _ | .alloc _ _ => True

/-- The action does what it is to do, and leaves the values of the objects that were there as it
is to leave them. -/
structure Right (flattenable : Flattenable T) (m next : ExpandedMemory ω T)
    (outcome : ExpandedOutcome T) (action : ExpandedAction ω T) : Prop where
  does : m.Does flattenable next outcome action
  leaves : ∀ other ∈ m.base.objects,
    next.current flattenable other = m.expected flattenable next outcome other action

/-- An object that keeps an expanded object is accessible while that is there. Any other is where
its tracker has counted a reset if and only if its memory is freed. -/
def Accessible (m : ExpandedMemory ω T) (this : ω) (object : VarlenaValue)
    (tracker : TrackingMemoryContext) : Prop :=
  match m.detoastedValue.lookup this with
  | some expanded => m.there expanded = true
  | none => m.there object.valueDatum = false ↔ 0 < m.base.tracked.resets tracker

/-- Accesses are to accessible objects, and a datum is made only of an object that keeps an expanded
object, as long as its value is there. -/
def Allowed (m : ExpandedMemory ω T) : ExpandedAction ω T → Prop
  | .access this _ | .update this _ _ =>
    ∀ object tracker, m.base.objects.lookup this = some object →
      m.base.tracked.trackers.lookup (this, .ctx) = some tracker → m.Accessible this object tracker
  | .intoDatum this => (m.place this).any m.there = true → m.detoastedValue.lookup this ≠ none
  | _ => True

end ExpandedMemory
end Cppgres
