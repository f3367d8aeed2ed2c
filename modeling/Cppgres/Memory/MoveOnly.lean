import Cppgres.Labelled.Runs
import Cppgres.Shared.Titles

/-!
# Move-only owners

A `resource_owner` or an `executor_state` owns what its pointer points to, an `owned_memory_context`
owns its context unless its flag `moved` is set. They are moved, released and destroyed in any order,
and the Postgres functions that dispose of their resources may fail.
-/
namespace Cppgres
open Shared Labelled

inductive DisposalCall where
  | releaseAllPlanCacheRefsInOwner
  | resourceOwnerDelete
  | freeExecutorState
  | memoryContextDelete
  deriving DecidableEq, Repr

/-- The calls that were made to dispose of a resource, and whether the last of them raised an error. -/
structure Disposal where
  resource : Nat
  calls : List DisposalCall
  failed : Bool
  deriving DecidableEq, Repr

/-- Calls, one after the other, until one raises an error. -/
def makeCalls (failing : Option DisposalCall) : List DisposalCall → List DisposalCall × Bool
  | [] => ([], false)
  | call :: calls =>
    if failing = some call then ([call], true)
    else
      let (made, failed) := makeCalls failing calls
      (call :: made, failed)

/-- An owner with a pointer, which is null if it owns nothing. -/
structure PointerOwner where
  pointer : Option Nat
  deriving DecidableEq, Repr

namespace PointerOwner

/-- An error of one of the calls is caught. -/
def dispose (calls : List DisposalCall) (failing : Option DisposalCall) (this : PointerOwner) :
    Option Disposal × PointerOwner :=
  match this.pointer with
  | none => (none, this)
  | some resource =>
    let (made, failed) := makeCalls failing calls
    (some ⟨resource, made, failed⟩, ⟨none⟩)

def moveConstruct (other : PointerOwner) : PointerOwner × PointerOwner :=
  (⟨other.pointer⟩, ⟨none⟩)

/-- `operator=(T &&)` from another object. -/
def moveAssign (calls : List DisposalCall) (failing : Option DisposalCall)
    (this other : PointerOwner) : Option Disposal × PointerOwner × PointerOwner :=
  let (disposal, _) := this.dispose calls failing
  (disposal, ⟨other.pointer⟩, ⟨none⟩)

def release (this : PointerOwner) : Option Nat × PointerOwner :=
  (this.pointer, ⟨none⟩)

end PointerOwner

namespace ResourceOwner

/-- `ResourceOwnerReleaseAllPlanCacheRefs` is the first one's name before Postgres 17. -/
def dispose : Option DisposalCall → PointerOwner → Option Disposal × PointerOwner :=
  PointerOwner.dispose [.releaseAllPlanCacheRefsInOwner, .resourceOwnerDelete]

def moveAssign : Option DisposalCall → PointerOwner → PointerOwner →
    Option Disposal × PointerOwner × PointerOwner :=
  PointerOwner.moveAssign [.releaseAllPlanCacheRefsInOwner, .resourceOwnerDelete]

end ResourceOwner

namespace ExecutorState

def dispose : Option DisposalCall → PointerOwner → Option Disposal × PointerOwner :=
  PointerOwner.dispose [.freeExecutorState]

def moveAssign : Option DisposalCall → PointerOwner → PointerOwner →
    Option Disposal × PointerOwner × PointerOwner :=
  PointerOwner.moveAssign [.freeExecutorState]

end ExecutorState

inductive MoveOnlyOutcome where
  | done
  | thrown
  | pointer (resource : Option Nat)
  | terminated
  deriving DecidableEq, Repr

structure OwnedMemoryContext where
  context : Nat
  moved : Bool
  deriving DecidableEq, Repr

namespace OwnedMemoryContext

def deleteContext (failing : Option DisposalCall) (this : OwnedMemoryContext) : Disposal :=
  let (made, failed) := makeCalls failing [.memoryContextDelete]
  ⟨this.context, made, failed⟩

def moveConstruct (other : OwnedMemoryContext) : OwnedMemoryContext × OwnedMemoryContext :=
  (⟨other.context, other.moved⟩, { other with moved := true })

/-- `operator=(owned_memory_context &&)` from another object. -/
def moveAssign (failing : Option DisposalCall) (this other : OwnedMemoryContext) :
    MoveOnlyOutcome × Option Disposal × OwnedMemoryContext × OwnedMemoryContext :=
  let assigned := (⟨other.context, other.moved⟩, { other with moved := true })
  if !this.moved then
    let disposal := this.deleteContext failing
    if disposal.failed then (.thrown, some disposal, this, other)
    else (.done, some disposal, assigned)
  else (.done, none, assigned)

/-- The destructor, which may not throw. -/
def destruct (failing : Option DisposalCall) (this : OwnedMemoryContext) :
    MoveOnlyOutcome × Option Disposal :=
  if !this.moved then
    let disposal := this.deleteContext failing
    (if disposal.failed then .terminated else .done, some disposal)
  else (.done, none)

/-- `memory_context(owned_memory_context &&)` -/
def intoMemoryContext (this : OwnedMemoryContext) : Nat × OwnedMemoryContext :=
  (this.context, { this with moved := true })

end OwnedMemoryContext

inductive OwnerClass where
  | resourceOwner
  | executorState
  | ownedMemoryContext
  deriving DecidableEq, Repr

/-- The calls that dispose of a resource. -/
def OwnerClass.calls : OwnerClass → List DisposalCall
  | .resourceOwner => [.releaseAllPlanCacheRefsInOwner, .resourceOwnerDelete]
  | .executorState => [.freeExecutorState]
  | .ownedMemoryContext => [.memoryContextDelete]

/-- What is to be done about a resource: each call once, up to the one that raises an error. -/
def Disposal.due (cls : OwnerClass) (failing : Option DisposalCall) (resource : Nat) : Disposal where
  resource := resource
  calls := match failing with
    | none => cls.calls
    | some call => cls.calls.take (cls.calls.idxOf call + 1)
  failed := match failing with
    | none => false
    | some call => cls.calls.contains call

inductive MoveOnly where
  | resourceOwner (this : PointerOwner)
  | executorState (this : PointerOwner)
  | ownedMemoryContext (this : OwnedMemoryContext)
  deriving DecidableEq, Repr

namespace MoveOnly

/-- What a constructor makes of a resource that it acquired. -/
def construct (resource : Nat) : OwnerClass → MoveOnly
  | .resourceOwner => .resourceOwner ⟨some resource⟩
  | .executorState => .executorState ⟨some resource⟩
  | .ownedMemoryContext => .ownedMemoryContext ⟨resource, false⟩

/-- The new object, and the other one. -/
def moveConstruct : MoveOnly → MoveOnly × MoveOnly
  | .resourceOwner other => other.moveConstruct.map .resourceOwner .resourceOwner
  | .executorState other => other.moveConstruct.map .executorState .executorState
  | .ownedMemoryContext other => other.moveConstruct.map .ownedMemoryContext .ownedMemoryContext

/-- None where the classes differ. -/
def moveAssign (failing : Option DisposalCall) :
    MoveOnly → MoveOnly → Option (MoveOnlyOutcome × Option Disposal × MoveOnly × MoveOnly)
  | .resourceOwner this, .resourceOwner other =>
    let (disposal, this, other) := ResourceOwner.moveAssign failing this other
    some (.done, disposal, .resourceOwner this, .resourceOwner other)
  | .executorState this, .executorState other =>
    let (disposal, this, other) := ExecutorState.moveAssign failing this other
    some (.done, disposal, .executorState this, .executorState other)
  | .ownedMemoryContext this, .ownedMemoryContext other =>
    let (outcome, disposal, this, other) := OwnedMemoryContext.moveAssign failing this other
    some (outcome, disposal, .ownedMemoryContext this, .ownedMemoryContext other)
  | _, _ => none

/-- `release()`, or the conversion into a `memory_context`. -/
def release : MoveOnly → Option Nat × MoveOnly
  | .resourceOwner this => this.release.map id .resourceOwner
  | .executorState this => this.release.map id .executorState
  | .ownedMemoryContext this => this.intoMemoryContext.map some .ownedMemoryContext

def destruct (failing : Option DisposalCall) : MoveOnly → MoveOnlyOutcome × Option Disposal
  | .resourceOwner this => (.done, (ResourceOwner.dispose failing this).1)
  | .executorState this => (.done, (ExecutorState.dispose failing this).1)
  | .ownedMemoryContext this => this.destruct failing

def cls : MoveOnly → OwnerClass
  | .resourceOwner _ => .resourceOwner
  | .executorState _ => .executorState
  | .ownedMemoryContext _ => .ownedMemoryContext

/-- What an object owns. -/
def resource : MoveOnly → Option Nat
  | .resourceOwner this => this.pointer
  | .executorState this => this.pointer
  | .ownedMemoryContext this => if this.moved then none else some this.context

/-- Whether it is a context whose deletion fails. -/
def deleteFails (failing : Option DisposalCall) : MoveOnly → Bool
  | .resourceOwner _ => false
  | .executorState _ => false
  | .ownedMemoryContext this => !this.moved && decide (failing = some .memoryContextDelete)

end MoveOnly

/-- The Postgres call that is to raise an error, if it is made, comes with an action. -/
inductive MoveOnlyAction (ω : Type) where
  | construct (this : ω) (cls : OwnerClass) (fails : Bool)
  | moveConstruct (this other : ω)
  | moveAssign (this other : ω) (failing : Option DisposalCall)
  | release (this : ω)
  | destruct (this : ω) (failing : Option DisposalCall)
  deriving DecidableEq, Repr

/-- The objects that are there; and what was disposed of and released, latest first. -/
structure MoveOnlyRun (ω : Type) where
  objects : ω → Option MoveOnly
  disposals : List Disposal
  released : List Nat
  fresh : Nat
  terminated : Bool

namespace MoveOnlyRun
variable {ω : Type}

def start : MoveOnlyRun ω := ⟨fun _ => none, [], [], 0, false⟩

/-- What an object owns. -/
def owned (m : MoveOnlyRun ω) (this : ω) : Option Nat := (m.objects this).bind MoveOnly.resource

section Operations
variable [DecidableEq ω] (m : MoveOnlyRun ω)

def set (this : ω) (object : Option MoveOnly) : MoveOnlyRun ω :=
  { m with objects := Function.update m.objects this object }

/-- None where an object is not there, or another one is, and after `std::terminate`. -/
def exec (action : MoveOnlyAction ω) : Option (MoveOnlyOutcome × MoveOnlyRun ω) :=
  if m.terminated then none
  else
    match action with
    | .construct this cls fails =>
      if (m.objects this).isSome then none
      else if fails then some (.thrown, m)
      else
        some (.done, { m.set this (some (.construct m.fresh cls)) with fresh := m.fresh + 1 })
    | .moveConstruct this other =>
      if (m.objects this).isSome then none
      else (m.objects other).map fun source =>
        let (object, source) := source.moveConstruct
        (.done, (m.set this (some object)).set other (some source))
    | .moveAssign this other failing =>
      (m.objects this).bind fun object =>
        if this = other then some (.done, m)
        else (m.objects other).bind fun source =>
          (object.moveAssign failing source).map fun (outcome, disposal, object, source) =>
            (outcome, { (m.set this (some object)).set other (some source) with
              disposals := disposal.toList ++ m.disposals })
    | .release this =>
      (m.objects this).map fun object =>
        let (pointer, left) := object.release
        (.pointer pointer,
          { m.set this (some left) with released := object.resource.toList ++ m.released })
    | .destruct this failing =>
      (m.objects this).map fun object =>
        let (outcome, disposal) := object.destruct failing
        let terminated := decide (outcome = .terminated)
        (outcome, { m.set this (if terminated then some object else none) with
          disposals := disposal.toList ++ m.disposals
          terminated })

def step (action : MoveOnlyAction ω) : Option (MoveOnlyRun ω) :=
  (m.exec action).map Prod.snd

/-! ## What is asked of a run -/

/-- The disposal of what an object owns. -/
def disposalOf (failing : Option DisposalCall) (this : ω) : Option Disposal :=
  (m.objects this).bind fun object => object.resource.map (.due object.cls failing)

/-- What a destruction or an assignment is to dispose of. -/
def disposes : MoveOnlyAction ω → Option Disposal
  | .moveAssign this other failing => if this = other then none else m.disposalOf failing this
  | .destruct this failing => m.disposalOf failing this
  | _ => none

def releases : MoveOnlyAction ω → Option Nat
  | .release this => m.owned this
  | _ => none

/-- Who owns what, as the abstract component has it. -/
def titles : Titles ω where
  resource := m.owned
  disposed := m.disposals.map (·.resource)
  released := m.released
  fresh := m.fresh

/-- Each resource has its one owner, is disposed of once, by the destruction of its owner or an
assignment over it, with each of its calls once up to one that fails, or never if it was released; and
whether or not the disposal failed, no object has it any more. -/
structure Right (next : MoveOnlyRun ω) (action : MoveOnlyAction ω) : Prop where
  kept : next.titles.Kept
  disposes : next.disposals = (m.disposes action).toList ++ m.disposals
  releases : next.released = (m.releases action).toList ++ m.released
  emptied : ∀ disposal ∈ next.disposals, ∀ this, next.owned this ≠ some disposal.resource

/-- An action of a run, in the state that it is taken in. -/
def DoneRight (action : MoveOnlyAction ω) : Prop :=
  ∀ outcome next, m.exec action = some (outcome, next) → m.Right next action

/-- No owned context that is destroyed or assigned over fails to be deleted. -/
def DeletesContext : MoveOnlyAction ω → Prop
  | .moveAssign this other failing =>
    this ≠ other → ∀ object, m.objects this = some object → object.deleteFails failing = false
  | .destruct this failing =>
    ∀ object, m.objects this = some object → object.deleteFails failing = false
  | _ => True

end Operations

end MoveOnlyRun

/-! ## What the members of an object do -/

/-- The calls that are made are those up to the first that raises an error. -/
theorem makeCalls_eq (failing : Option DisposalCall) (calls : List DisposalCall) :
    makeCalls failing calls =
      match failing with
      | none => (calls, false)
      | some call => (calls.take (calls.idxOf call + 1), calls.contains call) := by
  induction calls with
  | nil => cases failing <;> rfl
  | cons first calls ih =>
    cases failing with
    | none => simp [makeCalls, ih]
    | some call =>
      by_cases same : call = first
      · simp [makeCalls, same]
      · have different : ¬ first = call := fun equal => same equal.symm
        simp [makeCalls, ih, same, different]

theorem makeCalls_due (cls : OwnerClass) (failing : Option DisposalCall) (resource : Nat) :
    (⟨resource, (makeCalls failing cls.calls).1, (makeCalls failing cls.calls).2⟩ : Disposal) =
      .due cls failing resource := by
  unfold Disposal.due
  rw [makeCalls_eq]
  cases failing <;> rfl

theorem due_resource (cls : OwnerClass) (failing : Option DisposalCall) (resource : Option Nat) :
    (resource.map (Disposal.due cls failing)).map (·.resource) = resource := by
  cases resource <;> rfl

theorem PointerOwner.dispose_due (cls : OwnerClass) (failing : Option DisposalCall)
    (this : PointerOwner) :
    (this.dispose cls.calls failing).1 = this.pointer.map (.due cls failing) := by
  unfold PointerOwner.dispose
  cases this.pointer with
  | none => rfl
  | some resource => exact congrArg some (makeCalls_due cls failing resource)

theorem OwnedMemoryContext.deleteContext_due (failing : Option DisposalCall)
    (this : OwnedMemoryContext) :
    this.deleteContext failing = .due .ownedMemoryContext failing this.context :=
  makeCalls_due .ownedMemoryContext failing this.context

theorem OwnedMemoryContext.failed_deleteContext (failing : Option DisposalCall)
    (this : OwnedMemoryContext) :
    (this.deleteContext failing).failed = decide (failing = some .memoryContextDelete) := by
  by_cases fails : failing = some .memoryContextDelete
  · simp [deleteContext, makeCalls, fails]
  · simp [deleteContext, makeCalls, fails]

namespace MoveOnly
variable {failing : Option DisposalCall} {object source object' source' : MoveOnly}
  {outcome : MoveOnlyOutcome} {disposal : Option Disposal}

theorem resource_construct (resource : Nat) (cls : OwnerClass) :
    (construct resource cls).resource = some resource := by
  cases cls <;> rfl

theorem resource_moveConstruct (source : MoveOnly) :
    source.moveConstruct.1.resource = source.resource ∧ source.moveConstruct.2.resource = none := by
  cases source with
  | resourceOwner other => exact ⟨rfl, rfl⟩
  | executorState other => exact ⟨rfl, rfl⟩
  | ownedMemoryContext other => exact ⟨rfl, rfl⟩

theorem resource_release (object : MoveOnly) : object.release.2.resource = none := by
  cases object <;> rfl

theorem resource_of_deleteFails (fails : object.deleteFails failing = true) :
    ∃ r, object.resource = some r := by
  cases object with
  | resourceOwner this => cases fails
  | executorState this => cases fails
  | ownedMemoryContext this =>
    simp only [deleteFails, Bool.and_eq_true, Bool.not_eq_true'] at fails
    exact ⟨this.context, by simp [resource, fails.1]⟩

/-- The resource of an object that is destroyed is disposed of; the destructor terminates the process
where it cannot delete a context. -/
theorem destruct_spec (failing : Option DisposalCall) (object : MoveOnly) :
    (object.destruct failing).2 = object.resource.map (.due object.cls failing) ∧
      decide ((object.destruct failing).1 = .terminated) = object.deleteFails failing := by
  cases object with
  | resourceOwner this => exact ⟨this.dispose_due .resourceOwner failing, rfl⟩
  | executorState this => exact ⟨this.dispose_due .executorState failing, rfl⟩
  | ownedMemoryContext this =>
    simp only [destruct, OwnedMemoryContext.destruct, resource, deleteFails,
      this.failed_deleteContext failing]
    cases this.moved with
    | true => simp
    | false =>
      constructor
      · exact congrArg some (this.deleteContext_due failing)
      · by_cases fails : failing = some .memoryContextDelete
        · simp [fails]
        · simp [fails]

/-- An assignment disposes of what the object owned, and takes over, unless a context could not be
deleted. -/
theorem moveAssign_spec
    (assigned : object.moveAssign failing source = some (outcome, disposal, object', source')) :
    disposal = object.resource.map (.due object.cls failing) ∧
      if object.deleteFails failing then object' = object ∧ source' = source
      else object'.resource = source.resource ∧ source'.resource = none := by
  cases object with
  | resourceOwner this =>
    cases source with
    | resourceOwner other =>
      simp only [moveAssign, Option.some.injEq, Prod.mk.injEq] at assigned
      obtain ⟨-, rfl, rfl, rfl⟩ := assigned
      exact ⟨this.dispose_due .resourceOwner failing, rfl, rfl⟩
    | executorState other => cases assigned
    | ownedMemoryContext other => cases assigned
  | executorState this =>
    cases source with
    | executorState other =>
      simp only [moveAssign, Option.some.injEq, Prod.mk.injEq] at assigned
      obtain ⟨-, rfl, rfl, rfl⟩ := assigned
      exact ⟨this.dispose_due .executorState failing, rfl, rfl⟩
    | resourceOwner other => cases assigned
    | ownedMemoryContext other => cases assigned
  | ownedMemoryContext this =>
    cases source with
    | ownedMemoryContext other =>
      simp only [moveAssign, OwnedMemoryContext.moveAssign, this.failed_deleteContext failing]
        at assigned
      obtain ⟨context, moved⟩ := this
      cases moved with
      | true =>
        simp only [Bool.not_true, Bool.false_eq_true, if_false] at assigned
        cases assigned
        exact ⟨rfl, rfl, rfl⟩
      | false =>
        by_cases fails : failing = some .memoryContextDelete
        · simp only [fails, Bool.not_false, if_true, decide_true] at assigned
          cases assigned
          rw [fails]
          refine ⟨congrArg some (OwnedMemoryContext.deleteContext_due _ _), ?_⟩
          simp [deleteFails]
        · simp only [fails, Bool.not_false, if_true, decide_false, Bool.false_eq_true, if_false]
            at assigned
          cases assigned
          refine ⟨congrArg some (OwnedMemoryContext.deleteContext_due _ _), ?_⟩
          simp [fails, deleteFails, resource]
    | resourceOwner other => cases assigned
    | executorState other => cases assigned

end MoveOnly

/-! ## The runs -/

namespace MoveOnlyRun
variable {ω : Type} {m next : MoveOnlyRun ω} {this other : ω}
  {object : Option MoveOnly} {action : MoveOnlyAction ω} {outcome : MoveOnlyOutcome}

theorem start_kept : (start : MoveOnlyRun ω).titles.Kept := Titles.kept_empty

theorem owned_of_objects {object : MoveOnly} (here : m.objects this = some object) :
    m.owned this = object.resource := by
  rw [owned, here]
  rfl

theorem disposalOf_of_objects {object : MoveOnly} {failing : Option DisposalCall}
    (here : m.objects this = some object) :
    m.disposalOf failing this = object.resource.map (.due object.cls failing) := by
  rw [disposalOf, here]
  rfl

theorem titles_eq {t : Titles ω} (owned : next.owned = t.resource)
    (disposed : next.disposals.map (·.resource) = t.disposed) (released : next.released = t.released)
    (fresh : next.fresh = t.fresh) : next.titles = t := by
  unfold titles
  rw [owned, disposed, released, fresh]

theorem map_toList_append {disposal : Option Disposal} {r : Option Nat} {disposals : List Disposal}
    (disposes : disposal.map (·.resource) = r) :
    (disposal.toList ++ disposals).map (·.resource) = r.toList ++ disposals.map (·.resource) := by
  rw [← disposes]
  cases disposal <;> rfl

variable [DecidableEq ω]

theorem owned_set : (m.set this object).owned = Function.update m.owned this
    (object.bind MoveOnly.resource) := by
  funext one
  by_cases same : one = this
  · simp [owned, set, same]
  · simp [owned, set, same]

theorem right_of_kept (kept : next.titles.Kept)
    (disposes : next.disposals = (m.disposes action).toList ++ m.disposals)
    (releases : next.released = (m.releases action).toList ++ m.released) : m.Right next action where
  kept := kept
  disposes := disposes
  releases := releases
  emptied disposal listed this owns :=
    (kept.held this disposal.resource owns).2.1 (List.mem_map.mpr ⟨disposal, listed, rfl⟩)

/-- A step that changes nothing. -/
theorem right_same (kept : m.titles.Kept) (disposes : m.disposes action = none)
    (releases : m.releases action = none) : m.Right m action := by
  apply right_of_kept kept
  · rw [disposes]
    rfl
  · rw [releases]
    rfl

section Steps
variable {m : MoveOnlyRun ω} {this other : ω} {object source object' source' : MoveOnly}
  {disposal : Option Disposal}

theorem titles_construct (cls : OwnerClass) :
    ({ m.set this (some (.construct m.fresh cls)) with fresh := m.fresh + 1 } :
      MoveOnlyRun ω).titles = m.titles.acquire this := by
  refine titles_eq ?_ rfl rfl rfl
  refine owned_set.trans ?_
  rw [Option.bind_some, MoveOnly.resource_construct]
  rfl

theorem titles_moveConstruct (here : m.objects other = some source) :
    ((m.set this (some source.moveConstruct.1)).set other (some source.moveConstruct.2)).titles =
      m.titles.transfer this other := by
  obtain ⟨takes, left⟩ := source.resource_moveConstruct
  refine titles_eq ?_ rfl rfl rfl
  rw [owned_set, owned_set, Option.bind_some, Option.bind_some, takes, left,
    ← owned_of_objects here]
  rfl

/-- An assignment disposes of what was there and takes over the rest. -/
theorem titles_moveAssign (different : this ≠ other) (here : m.objects this = some object)
    (there : m.objects other = some source)
    (disposes : disposal.map (·.resource) = object.resource)
    (takes : object'.resource = source.resource) (left : source'.resource = none) :
    ({ (m.set this (some object')).set other (some source') with
      disposals := disposal.toList ++ m.disposals } : MoveOnlyRun ω).titles =
      (m.titles.dispose this).transfer this other := by
  rw [← owned_of_objects here] at disposes
  refine titles_eq ?_ (map_toList_append disposes) rfl rfl
  have owns : ((m.set this (some object')).set other (some source')).owned =
      Function.update (Function.update m.owned this (m.owned other)) other none := by
    rw [owned_set, owned_set, Option.bind_some, Option.bind_some, takes, left,
      ← owned_of_objects there]
  refine owns.trans ?_
  simp only [Titles.transfer, Titles.dispose, titles]
  rw [Function.update_of_ne different.symm, Function.update_idem]

theorem titles_release (here : m.objects this = some object) :
    ({ m.set this (some object.release.2) with
      released := object.resource.toList ++ m.released } : MoveOnlyRun ω).titles =
      m.titles.release this := by
  rw [← owned_of_objects here]
  refine titles_eq ?_ rfl rfl rfl
  refine owned_set.trans ?_
  rw [Option.bind_some, object.resource_release]
  rfl

theorem titles_destruct (here : m.objects this = some object) (terminated : Bool)
    (disposes : disposal.map (·.resource) = object.resource) :
    ({ m.set this none with disposals := disposal.toList ++ m.disposals, terminated } :
      MoveOnlyRun ω).titles = m.titles.dispose this := by
  rw [← owned_of_objects here] at disposes
  refine titles_eq ?_ (map_toList_append disposes) rfl rfl
  refine owned_set.trans ?_
  rfl

theorem running_of_exec (executed : m.exec action = some (outcome, next)) :
    m.terminated = false := by
  cases terminated : m.terminated with
  | false => rfl
  | true =>
    simp [exec, terminated] at executed

theorem construct_right {cls : OwnerClass} {fails : Bool} (kept : m.titles.Kept)
    (executed : m.exec (.construct this cls fails) = some (outcome, next)) :
    next.titles.Kept ∧ m.Right next (.construct this cls fails) := by
  have running := running_of_exec executed
  simp only [exec, running, Bool.false_eq_true, if_false] at executed
  split at executed
  case isTrue => cases executed
  case isFalse absent =>
    split at executed
    case isTrue =>
      cases executed
      exact ⟨kept, right_same kept rfl rfl⟩
    case isFalse =>
      cases executed
      have nothing : m.titles.resource this = none := by
        have free : m.objects this = none := by simpa using absent
        simp [titles, owned, free]
      have after := kept.acquire nothing
      rw [← titles_construct cls] at after
      exact ⟨after, right_of_kept after rfl rfl⟩

theorem moveConstruct_right (kept : m.titles.Kept)
    (executed : m.exec (.moveConstruct this other) = some (outcome, next)) :
    next.titles.Kept ∧ m.Right next (.moveConstruct this other) := by
  have running := running_of_exec executed
  simp only [exec, running, Bool.false_eq_true, if_false] at executed
  split at executed
  case isTrue => cases executed
  case isFalse absent =>
    have free : m.objects this = none := by simpa using absent
    obtain ⟨source, there, same⟩ := Option.map_eq_some_iff.mp executed
    cases same
    have different : this ≠ other := by
      intro equal
      rw [← equal, free] at there
      cases there
    have nothing : m.titles.resource this = none := by simp [titles, owned, free]
    have after := kept.transfer different nothing
    rw [← titles_moveConstruct there] at after
    exact ⟨after, right_of_kept after rfl rfl⟩

theorem release_right (kept : m.titles.Kept)
    (executed : m.exec (.release this) = some (outcome, next)) :
    next.titles.Kept ∧ m.Right next (.release this) := by
  have running := running_of_exec executed
  simp only [exec, running, Bool.false_eq_true, if_false] at executed
  obtain ⟨object, here, same⟩ := Option.map_eq_some_iff.mp executed
  cases same
  have after : (m.titles.release this).Kept := kept.release
  rw [← titles_release here] at after
  refine ⟨after, right_of_kept after rfl ?_⟩
  rw [releases, owned_of_objects here]

/-- An object that still has a context whose deletion failed. -/
theorem not_right_of_fails (this : ω) {failing : Option DisposalCall}
    (fails : object.deleteFails failing = true)
    (disposes : disposal.map (·.resource) = object.resource)
    (owns : next.owned this = object.resource)
    (disposals : next.disposals = disposal.toList ++ m.disposals) : ¬ m.Right next action := by
  intro right
  obtain ⟨r, owned⟩ := MoveOnly.resource_of_deleteFails fails
  have disposed := @map_toList_append disposal _ m.disposals disposes
  rw [← disposals, owned] at disposed
  have listed : r ∈ next.titles.disposed := by
    change r ∈ next.disposals.map (·.resource)
    simp [disposed]
  exact (right.kept.held this r (owns.trans owned)).2.1 listed

theorem moveAssign_right_iff {failing : Option DisposalCall} (kept : m.titles.Kept)
    (executed : m.exec (.moveAssign this other failing) = some (outcome, next)) :
    (m.DeletesContext (.moveAssign this other failing) → next.titles.Kept) ∧
      (m.Right next (.moveAssign this other failing) ↔
        m.DeletesContext (.moveAssign this other failing)) := by
  have running := running_of_exec executed
  simp only [exec, running, Bool.false_eq_true, if_false] at executed
  obtain ⟨object, here, executed⟩ := Option.bind_eq_some_iff.mp executed
  by_cases self : this = other
  · rw [if_pos self] at executed
    have nothing : m.disposes (.moveAssign this other failing) = none := if_pos self
    cases executed
    refine ⟨fun _ => kept, iff_of_true (right_same kept nothing rfl) ?_⟩
    exact fun different => absurd self different
  · rw [if_neg self] at executed
    obtain ⟨source, there, executed⟩ := Option.bind_eq_some_iff.mp executed
    obtain ⟨⟨result, disposal, object', source'⟩, assigned, same⟩ :=
      Option.map_eq_some_iff.mp executed
    cases same
    obtain ⟨due, ends⟩ := MoveOnly.moveAssign_spec assigned
    have disposes : disposal.map (·.resource) = object.resource := by rw [due, due_resource]
    have deletes : m.DeletesContext (.moveAssign this other failing) ↔
        object.deleteFails failing = false := by
      simp [DeletesContext, self, here]
    rw [deletes]
    cases fails : object.deleteFails failing with
    | false =>
      rw [fails, if_neg Bool.false_ne_true] at ends
      have titles := titles_moveAssign self here there disposes ends.1 ends.2
      have nothing : (m.titles.dispose this).resource this = none := by simp [Titles.dispose]
      have after := (Titles.Kept.dispose kept).transfer self nothing
      rw [← titles] at after
      refine ⟨fun _ => after, iff_of_true (right_of_kept after ?_ rfl) rfl⟩
      rw [MoveOnlyRun.disposes, if_neg self, disposalOf_of_objects here, ← due]
    | true =>
      rw [fails, if_pos rfl] at ends
      obtain ⟨rfl, rfl⟩ := ends
      refine ⟨fun deleted => Bool.noConfusion deleted, iff_of_false ?_ Bool.noConfusion⟩
      refine not_right_of_fails this fails disposes ?_ rfl
      refine (congrFun owned_set this).trans ?_
      rw [Function.update_of_ne self, owned_set, Function.update_self, Option.bind_some]

/-- A destructor that cannot delete its context terminates the process, and the object is still
there. -/
theorem destruct_right_iff {failing : Option DisposalCall} (kept : m.titles.Kept)
    (executed : m.exec (.destruct this failing) = some (outcome, next)) :
    (m.DeletesContext (.destruct this failing) → next.titles.Kept) ∧
      (m.Right next (.destruct this failing) ↔ m.DeletesContext (.destruct this failing)) := by
  have running := running_of_exec executed
  simp only [exec, running, Bool.false_eq_true, if_false] at executed
  obtain ⟨object, here, same⟩ := Option.map_eq_some_iff.mp executed
  obtain ⟨due, terminates⟩ := MoveOnly.destruct_spec failing object
  have disposes : (object.destruct failing).2.map (·.resource) = object.resource := by
    rw [due, due_resource]
  have deletes : m.DeletesContext (.destruct this failing) ↔
      object.deleteFails failing = false := by
    simp [DeletesContext, here]
  rw [deletes]
  rw [terminates] at same
  cases fails : object.deleteFails failing with
  | false =>
    rw [fails, if_neg Bool.false_ne_true] at same
    cases same
    have titles := titles_destruct here false disposes
    have after : (m.titles.dispose this).Kept := kept.dispose
    rw [← titles] at after
    refine ⟨fun _ => after, iff_of_true (right_of_kept after ?_ rfl) rfl⟩
    rw [MoveOnlyRun.disposes, disposalOf_of_objects here, ← due]
  | true =>
    rw [fails, if_pos rfl] at same
    cases same
    refine ⟨fun deleted => Bool.noConfusion deleted, iff_of_false ?_ Bool.noConfusion⟩
    refine not_right_of_fails this fails disposes ?_ rfl
    refine (congrFun owned_set this).trans ?_
    rw [Function.update_self, Option.bind_some]

end Steps

/-- A step is right if and only if it does not fail to delete a context. -/
theorem right_iff (kept : m.titles.Kept) (executed : m.exec action = some (outcome, next)) :
    (m.DeletesContext action → next.titles.Kept) ∧
      (m.Right next action ↔ m.DeletesContext action) := by
  cases action with
  | construct this cls fails =>
    obtain ⟨after, right⟩ := construct_right kept executed
    exact ⟨fun _ => after, iff_of_true right trivial⟩
  | moveConstruct this other =>
    obtain ⟨after, right⟩ := moveConstruct_right kept executed
    exact ⟨fun _ => after, iff_of_true right trivial⟩
  | moveAssign this other failing => exact moveAssign_right_iff kept executed
  | release this =>
    obtain ⟨after, right⟩ := release_right kept executed
    exact ⟨fun _ => after, iff_of_true right trivial⟩
  | destruct this failing => exact destruct_right_iff kept executed

/-- The resources of move-only objects are disposed of once, by their owners, if and only if no
context that is owned fails to be deleted: the other two classes catch the error and forget what they
owned, but an `owned_memory_context` does not. -/
theorem disposed_once_iff (actions : List (MoveOnlyAction ω)) :
    Meets step DoneRight start actions ↔ Meets step DeletesContext start actions :=
  meets_done_iff (fun _ _ _ _ kept executed => right_iff kept executed) start_kept

/-- A context whose deletion failed in an assignment is deleted again by the destructor. -/
theorem failed_delete_retried :
    ¬ Meets step DoneRight (start : MoveOnlyRun Nat)
      [.construct 0 .ownedMemoryContext false, .construct 1 .ownedMemoryContext false,
        .moveAssign 0 1 (some .memoryContextDelete), .destruct 0 none] := by
  intro meets
  obtain ⟨_, meets⟩ := meets _ rfl
  obtain ⟨_, meets⟩ := meets _ rfl
  obtain ⟨_, meets⟩ := meets _ rfl
  obtain ⟨done, _⟩ := meets _ rfl
  have right := done _ _ rfl
  have twice : ¬ [0, 0].Nodup := by decide
  exact twice right.kept.once

end MoveOnlyRun
end Cppgres
