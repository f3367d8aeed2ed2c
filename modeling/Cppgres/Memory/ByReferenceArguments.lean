import Cppgres.Memory.VarlenaReads

/-!
# Arguments that are passed by reference

`postgres_function` converts its arguments without a memory context, and the conversion of a
`text`, a `bytea` or an `expanded_varlena` then tracks TopMemoryContext, with a callback that is
allocated and registered there. What calls leave behind in that context, which is never reset.
-/
namespace Cppgres
open Regions Labelled

/-! ## Callbacks of a context that stays -/

namespace TrackedMemory
variable {ι α : Type} {m next last : TrackedMemory ι α} {root number : Nat}

/-- The callbacks that are registered on a context, by their numbers. -/
def registeredOn (m : TrackedMemory ι α) (ctx : Nat) : List Nat :=
  (m.memory.callbacks.filter fun callback => callback.1 = ctx).map fun callback => callback.2.address

/-- Resetting a context, or one above it, is what frees its callbacks. -/
def Spares (root : Nat) : TrackingAction ι → Prop
  | .reset ctx | .delete ctx => ctx ≠ root
  | _ => True

/-- A context without a parent is there, and its callbacks have numbers already given. -/
structure Rooted (m : TrackedMemory ι α) (root : Nat) : Prop where
  noParent : m.memory.regions root = some []
  below : ∀ number ∈ m.registeredOn root, number < m.fresh

/-- The context stays, and so do its callbacks. -/
structure Onward (m next : TrackedMemory ι α) (root : Nat) : Prop extends Rooted next root where
  fresh : m.fresh ≤ next.fresh
  registered : ∀ number ∈ m.registeredOn root, number ∈ next.registeredOn root

theorem Onward.trans (one : Onward m next root) (two : Onward next last root) :
    Onward m last root where
  toRooted := two.toRooted
  fresh := Nat.le_trans one.fresh two.fresh
  registered number listed := two.registered number (one.registered number listed)

theorem Rooted.onward (rooted : m.Rooted root) (regions : next.memory.regions root = some [])
    (callbacks : next.registeredOn root = m.registeredOn root) (fresh : next.fresh = m.fresh) :
    Onward m next root where
  noParent := regions
  below number listed := by
    rw [callbacks] at listed
    have below := rooted.below number listed
    omega
  fresh := Nat.le_of_eq fresh.symm
  registered number listed := by rwa [callbacks]

theorem Rooted.refl (rooted : m.Rooted root) : Onward m m root :=
  rooted.onward rooted.noParent rfl rfl

/-- Memory is allocated. -/
theorem Rooted.alloc (rooted : m.Rooted root) {ctx : Nat} (contents : α)
    (isLive : m.memory.live ctx) :
    Onward m { m with memory := m.memory.alloc ctx contents isLive } root :=
  rooted.onward rooted.noParent rfl rfl

theorem covers_root (noParent : m.memory.regions root = some []) {ctx : Nat} (other : ctx ≠ root) :
    m.memory.covers ctx root = false := by
  simpa [Store.covers, noParent] using other.symm

theorem registeredOn_release (noParent : m.memory.regions root = some []) {ctx : Nat}
    (other : ctx ≠ root) (delete : Bool) :
    (m.release ctx delete).registeredOn root = m.registeredOn root := by
  have uncovered := covers_root noParent other
  unfold registeredOn
  congr 1
  show (m.memory.callbacks.filter _).filter _ = _
  rw [List.filter_filter]
  apply List.filter_congr
  intro callback _
  by_cases same : callback.1 = root
  · simp [same, uncovered]
  · simp [same]

theorem regions_release (noParent : m.memory.regions root = some []) {ctx : Nat}
    (other : ctx ≠ root) (delete : Bool) :
    (m.release ctx delete).memory.regions root = some [] := by
  simp [release, Store.release, covers_root noParent other, noParent]

theorem fresh_release (ctx : Nat) (delete : Bool) : (m.release ctx delete).fresh = m.fresh := by
  have called : ∀ (callbacks : List ResetCallback) (t : TrackedMemory ι α),
      (callbacks.foldl call t).fresh = t.fresh := by
    intro callbacks
    induction callbacks with
    | nil => exact fun _ => rfl
    | cons callback callbacks ih =>
      intro t
      rw [List.foldl_cons, ih]
      unfold call
      split
      · rfl
      · rfl
      · split <;> rfl
  exact called _ m

/-- A callback that is disarmed is still registered. -/
theorem registeredOn_disarm (state callback : Nat) :
    (m.disarm state callback).registeredOn root = m.registeredOn root := by
  simp only [registeredOn, disarm, Store.updateCallbacks, List.filter_map, List.map_map]
  congr 1
  funext registered
  simp only [Function.comp_apply]
  split
  · rename_i same
    exact same.symm
  · rfl

variable [DecidableEq ι]

theorem registeredOn_destroy (this : ι) (object : TrackingMemoryContext) :
    (m.destroy this object).registeredOn root = m.registeredOn root := by
  show (m.disarmLast object).registeredOn root = _
  obtain same | ⟨state, callback, disarmed⟩ := m.disarmLast_cases object
  · rw [same]
  · rw [disarmed, registeredOn_disarm]

theorem fresh_destroy (this : ι) (object : TrackingMemoryContext) :
    (m.destroy this object).fresh = m.fresh := by
  show (m.disarmLast object).fresh = _
  obtain same | ⟨state, callback, disarmed⟩ := m.disarmLast_cases object
  · rw [same]
  · rw [disarmed]
    rfl

theorem mem_registeredOn_construct {this : ι} {ctx : Nat}
    {isLive : m.memory.live ctx} :
    number ∈ (m.construct this ctx isLive).registeredOn root ↔
      ctx = root ∧ number = m.fresh ∨ number ∈ m.registeredOn root := by
  simp only [registeredOn, construct, Store.callbacks_register, List.filter_cons]
  by_cases same : ctx = root <;> simp [same]

/-- What each operation keeps of a context that it does not reset. -/
theorem Rooted.step (rooted : m.Rooted root) {action : TrackingAction ι} (spares : Spares root action)
    (taking : m.step action = some next) : Onward m next root := by
  cases action with
  | create parent =>
    obtain ⟨_, same⟩ := Option.ite_none_right_eq_some.mp taking
    cases same
    exact rooted.onward (Store.regions_create_of_some rooted.noParent) rfl rfl
  | reset ctx | delete ctx =>
    obtain ⟨_, same⟩ := Option.ite_none_right_eq_some.mp taking
    cases same
    exact rooted.onward (regions_release rooted.noParent spares _)
      (registeredOn_release rooted.noParent spares _) (fresh_release ctx _)
  | construct this ctx =>
    obtain ⟨_, taking⟩ := Option.ite_none_left_eq_some.mp taking
    obtain ⟨isLive, same⟩ := Option.dite_none_right_eq_some.mp taking
    cases same
    refine ⟨⟨rooted.noParent, fun number listed => ?_⟩, Nat.le_succ _, fun number listed => ?_⟩
    · show number < m.fresh + 1
      cases mem_registeredOn_construct.mp listed with
      | inl new => omega
      | inr old =>
        have below := rooted.below number old
        omega
    · exact mem_registeredOn_construct.mpr (.inr listed)
  | copyConstruct this other | moveConstruct this other =>
    obtain ⟨_, taking⟩ := Option.ite_none_left_eq_some.mp taking
    obtain ⟨object, _, rfl⟩ := Option.map_eq_some_iff.mp taking
    exact rooted.onward rooted.noParent rfl rfl
  | copyAssign this other =>
    obtain ⟨_, taking⟩ := Option.ite_none_right_eq_some.mp taking
    obtain ⟨object, _, rfl⟩ := Option.map_eq_some_iff.mp taking
    unfold copyAssign
    split <;> exact rooted.onward rooted.noParent rfl rfl
  | moveAssign this other =>
    obtain ⟨_, taking⟩ := Option.ite_none_right_eq_some.mp taking
    obtain ⟨object, _, rfl⟩ := Option.map_eq_some_iff.mp taking
    unfold moveAssign
    split <;> exact rooted.onward rooted.noParent rfl rfl
  | destroy this =>
    obtain ⟨object, _, rfl⟩ := Option.map_eq_some_iff.mp taking
    exact rooted.onward (by rw [(memory_destroy this object).1, rooted.noParent])
      (registeredOn_destroy this object) (fresh_destroy this object)

theorem Rooted.run (rooted : m.Rooted root) {actions : List (TrackingAction ι)}
    (spares : ∀ action ∈ actions, Spares root action)
    (reached : run TrackedMemory.step m actions = some next) : Onward m next root := by
  induction actions generalizing m with
  | nil =>
    cases reached
    exact rooted.refl
  | cons action actions ih =>
    obtain ⟨t, taking, later⟩ := run_cons.mp reached
    have first := rooted.step (spares action List.mem_cons_self) taking
    exact first.trans
      (ih first.toRooted (fun one listed => spares one (List.mem_cons_of_mem _ listed)) later)

end TrackedMemory

/-! ## Calls -/

/-- `TopMemoryContext`, which is made first. -/
def topMemoryContext : Nat := 0

/-- The memory of a `::MemoryContextCallback` is not read as a varlena. -/
def callbackMemory : Varlena := ⟨false, []⟩

/-- What a parameter gets. `null` is for `std::optional`: anything else throws, and the call ends.
A `std::string_view` or a `byte_array` is a value of its own that is accessed and destroyed. -/
inductive FunctionArgument where
  | null
  | byValue
  | byReference (source : Nat)
  deriving DecidableEq, Repr

/-- `values` are those of the calls in progress, by the depth of their call. -/
structure CallMemory (ν : Type) where
  values : VarlenaMemory (Nat × ν)
  depth : Nat

/-- TopMemoryContext is never reset, and what is allocated there for other reasons is left out. A
call may be made by the function of another one. -/
inductive CallAction (ν : Type) where
  | create (parent : Nat)
  | reset (ctx : Nat)
  | delete (ctx : Nat)
  | alloc (ctx : Nat) (varlena : Varlena)
  | enter
  | convert (this : ν) (argument : FunctionArgument)
  | copyConstruct (this other : ν)
  | moveConstruct (this other : ν)
  | moveAssign (this other : ν)
  | destroy (this : ν)
  | access (this : ν) (currentMemoryContext : Nat)
  | leave
  deriving DecidableEq, Repr

variable {ν : Type} [DecidableEq ν]

namespace CallMemory

def start : CallMemory ν where
  values :=
    let tracked : TrackedMemory ((Nat × ν) × VarlenaMember) Varlena := .start
    ⟨{ tracked with memory := tracked.memory.create none }, ∅⟩
  depth := 0

section Operations
variable (m : CallMemory ν)

/-- A value of the call in progress. -/
def here (this : ν) : Nat × ν := (m.depth, this)

def onValues (action : VarlenaAction (Nat × ν)) : Option (CallMemory ν) :=
  (m.values.step action).map fun values => { m with values }

/-- `from_nullable_datum<ptyp>(nullable_datum(fc->args[Is]), typ.oid)`: without a context, the
tracker of the value is one of TopMemoryContext. -/
def convert (this : ν) : FunctionArgument → Option (CallMemory ν)
  | .null | .byValue => if m.depth = 0 then none else some m
  | .byReference source =>
    if m.depth = 0 then none
    else do
      let (owner, varlena) ← m.values.tracked.memory.chunks source
      let allocated ← m.values.step (.alloc topMemoryContext callbackMemory)
      let values ← allocated.perform [.construct (m.here this, .ctx) topMemoryContext]
        (m.values.objects.insert (m.here this)
          ⟨source, none, varlena.bytes, decide (topMemoryContext ≠ owner)⟩)
      some { m with values }

/-- `operator void *()`. A copy that it makes has a tracker of its own, with its callback. -/
def access (this : ν) (currentMemoryContext : Nat) : Option (CallMemory ν) := do
  let next ← m.onValues (.read (m.here this) currentMemoryContext)
  if next.values.tracked.fresh = m.values.tracked.fresh then some next
  else next.onValues (.alloc currentMemoryContext callbackMemory)

end Operations

/-- None where there is no such value, context or memory, and where a call is left with values
that are not destroyed. -/
def step (m : CallMemory ν) : CallAction ν → Option (CallMemory ν)
  | .create parent => m.onValues (.create (some parent))
  | .reset ctx => if ctx = topMemoryContext then none else m.onValues (.reset ctx)
  | .delete ctx => if ctx = topMemoryContext then none else m.onValues (.delete ctx)
  | .alloc ctx varlena =>
    if ctx = topMemoryContext then none else m.onValues (.alloc ctx varlena)
  | .enter => some { m with depth := m.depth + 1 }
  | .convert this argument => m.convert this argument
  | .copyConstruct this other => m.onValues (.copyConstruct (m.here this) (m.here other))
  | .moveConstruct this other => m.onValues (.moveConstruct (m.here this) (m.here other))
  | .moveAssign this other => m.onValues (.moveAssign (m.here this) (m.here other))
  | .destroy this => m.onValues (.destroy (m.here this))
  | .access this currentMemoryContext => m.access this currentMemoryContext
  | .leave =>
    if m.depth = 0 ∨ ∃ name ∈ m.values.objects.keys, name.1 = m.depth then none
    else some { m with depth := m.depth - 1 }

/-- The callbacks on TopMemoryContext and the memory there are what they were. -/
structure LeavesNothing (m next : CallMemory ν) : Prop where
  registered : ∀ number, number ∈ next.values.tracked.registeredOn topMemoryContext ↔
    number ∈ m.values.tracked.registeredOn topMemoryContext
  chunks : ∀ address contents,
    next.values.tracked.memory.chunks address = some (topMemoryContext, contents) ↔
      m.values.tracked.memory.chunks address = some (topMemoryContext, contents)

/-- How many calls are in progress. -/
def inProgress (calls : Nat) : CallAction ν → Option Nat
  | .enter => some (calls + 1)
  | .leave => if calls = 0 then none else some (calls - 1)
  | _ => some calls

/-- Every call that is entered is left. -/
def Closed (actions : List (CallAction ν)) : Prop := run inProgress 0 actions = some 0

/-- The session has a call with these actions inside, after some others. -/
def Call (session before inside : List (CallAction ν)) : Prop :=
  Closed inside ∧ ∃ after, session = before ++ (.enter :: inside ++ [.leave]) ++ after

/-- No call of the session leaves anything in TopMemoryContext. -/
def CallsLeaveNothing (session : List (CallAction ν)) : Prop :=
  ∀ before inside, Call session before inside → ∀ s t, run step start before = some s →
    run step s (.enter :: inside ++ [.leave]) = some t → LeavesNothing s t

/-- No call of the session has an argument that is passed by reference and is not null. -/
def NoneByReference (session : List (CallAction ν)) : Prop :=
  ∀ before inside, Call session before inside →
    ∀ this source, .convert this (.byReference source) ∉ inside

end CallMemory

/-! ## Callbacks are added, and none is removed -/

namespace VarlenaMemory
open TrackedMemory
variable {ω : Type} [DecidableEq ω] {m next : VarlenaMemory ω} {root : Nat}

/-- Resetting a context is what frees its callbacks. -/
def Spares (root : Nat) : VarlenaAction ω → Prop
  | .reset ctx | .delete ctx => ctx ≠ root
  | _ => True

/-- The action makes a new object. -/
def Makes (this : ω) : VarlenaAction ω → Prop
  | .construct name _ | .copyConstruct name _ | .moveConstruct name _ => name = this
  | _ => False

/-- Memory is allocated, if at all, before the operations on the members and on the contexts.
These reset a context only where the action does. -/
structure Operates (m next : VarlenaMemory ω) (action : VarlenaAction ω) : Prop where
  tracked : ∃ between actions,
    (between = m.tracked ∨ ∃ ctx contents isLive,
      between = { m.tracked with memory := m.tracked.memory.alloc ctx contents isLive }) ∧
    run TrackedMemory.step between actions = some next.tracked ∧
    ∀ root, Spares root action → ∀ operation ∈ actions, TrackedMemory.Spares root operation
  objects : ∀ this ∈ next.objects, this ∈ m.objects ∨ Makes this action

theorem objects_perform {actions : List (TrackingAction (ω × VarlenaMember))}
    {objects : AList fun _ : ω => VarlenaValue} (performed : m.perform actions objects = some next) :
    next.objects = objects := by
  obtain ⟨tracked, _, rfl⟩ := perform_eq_some.mp performed
  rfl

theorem operates_perform {action : VarlenaAction ω}
    {actions : List (TrackingAction (ω × VarlenaMember))} {objects : AList fun _ : ω => VarlenaValue}
    (performed : m.perform actions objects = some next)
    (spares : ∀ root, Spares root action → ∀ operation ∈ actions, TrackedMemory.Spares root operation)
    (made : ∀ this ∈ objects, this ∈ m.objects ∨ Makes this action) : Operates m next action := by
  obtain ⟨tracked, reached, rfl⟩ := perform_eq_some.mp performed
  exact ⟨⟨m.tracked, actions, .inl rfl, reached, spares⟩, made⟩

/-- A conversion leaves which objects there are, and may give the object a copy. -/
theorem operates_read {this : ω} {currentMemoryContext : Nat} {reading : Reading}
    (taking : m.read this currentMemoryContext = some (reading, next)) :
    Operates m next (.read this currentMemoryContext) := by
  cases read_cases taking with
  | inl same =>
    rw [same]
    exact ⟨⟨m.tracked, [], .inl rfl, rfl, by simp⟩, fun _ there => .inl there⟩
  | inr caches =>
    obtain ⟨object, owner, varlena, found, _, _, copies | shares⟩ := caches
    · obtain ⟨isLive, performed⟩ := copies
      have kept := objects_perform performed
      obtain ⟨tracked, reached, same⟩ := perform_eq_some.mp performed
      refine ⟨⟨_, m.trackCopy this currentMemoryContext, .inr ⟨_, ⟨false, varlena.bytes⟩, isLive, rfl⟩,
        ?_, ?_⟩, ?_⟩
      · rw [same]
        exact reached
      · unfold trackCopy
        split <;> simp [TrackedMemory.Spares]
      · intro name there
        rw [kept, mem_insert_of_mem (mem_of_lookup found)] at there
        exact .inl there
    · refine operates_perform shares ?_ fun name there => ?_
      · unfold trackSource
        split <;> simp [TrackedMemory.Spares]
      · rw [mem_insert_of_mem (mem_of_lookup found)] at there
        exact .inl there

/-- An object that was not there before is one that the action makes. -/
theorem operates_step {action : VarlenaAction ω} (taking : m.step action = some next) :
    Operates m next action := by
  cases action with
  | create parent =>
    exact operates_perform taking (by simp [TrackedMemory.Spares]) fun _ there => .inl there
  | reset ctx | delete ctx =>
    exact operates_perform taking (by simp [TrackedMemory.Spares, Spares])
      fun _ there => .inl there
  | alloc ctx varlena =>
    obtain ⟨isLive, same⟩ := Option.dite_none_right_eq_some.mp taking
    cases same
    exact ⟨⟨_, [], .inr ⟨ctx, varlena, isLive, rfl⟩, rfl, by simp⟩, fun _ there => .inl there⟩
  | construct this source =>
    obtain ⟨⟨owner, varlena⟩, _, taking⟩ := Option.bind_eq_some_iff.mp taking
    refine operates_perform taking (by simp [TrackedMemory.Spares]) fun name there => ?_
    rw [AList.mem_insert] at there
    exact there.symm.imp_right Eq.symm
  | copyConstruct this other =>
    obtain ⟨object, _, taking⟩ := Option.bind_eq_some_iff.mp taking
    refine operates_perform taking ?_ fun name there => ?_
    · unfold copyMembers
      split <;> simp [TrackedMemory.Spares]
    · rw [AList.mem_insert] at there
      exact there.symm.imp_right Eq.symm
  | moveConstruct this other =>
    obtain ⟨object, found, taking⟩ := Option.bind_eq_some_iff.mp taking
    refine operates_perform taking ?_ fun name there => ?_
    · unfold moveMembers
      split <;> simp [TrackedMemory.Spares]
    · rw [AList.mem_insert, mem_insert_of_mem (mem_of_lookup found)] at there
      exact there.symm.imp_right Eq.symm
  | moveAssign this other =>
    obtain ⟨object, found, taking⟩ := Option.bind_eq_some_iff.mp taking
    obtain ⟨present, taking⟩ := Option.ite_none_right_eq_some.mp taking
    refine operates_perform taking ?_ fun name there => ?_
    · unfold assignMembers
      split <;> simp [TrackedMemory.Spares]
    · split at there
      · exact .inl there
      · rw [AList.mem_insert, mem_insert_of_mem (mem_of_lookup found)] at there
        cases there with
        | inl same => exact .inl (same ▸ present)
        | inr old => exact .inl old
  | destroy this =>
    obtain ⟨object, _, taking⟩ := Option.bind_eq_some_iff.mp taking
    refine operates_perform taking ?_ fun name there => ?_
    · unfold destroyMembers
      split <;> simp [TrackedMemory.Spares]
    · rw [AList.mem_erase] at there
      exact .inl there.2
  | read this currentMemoryContext =>
    obtain ⟨⟨reading, after⟩, taking, same⟩ := Option.bind_eq_some_iff.mp taking
    obtain ⟨_, same⟩ := Option.ite_none_left_eq_some.mp same
    cases same
    exact operates_read taking

theorem onward_step {action : VarlenaAction ω} (rooted : m.tracked.Rooted root)
    (spares : Spares root action) (taking : m.step action = some next) :
    Onward m.tracked next.tracked root := by
  obtain ⟨between, actions, allocated, reached, spared⟩ := (operates_step taking).tracked
  obtain rfl | ⟨ctx, contents, isLive, rfl⟩ := allocated
  · exact rooted.run (spared root spares) reached
  · have first := rooted.alloc contents isLive
    exact first.trans (first.toRooted.run (spared root spares) reached)

end VarlenaMemory

namespace CallMemory
open TrackedMemory (Onward Rooted)
variable {m next s t : CallMemory ν} {action : CallAction ν} {actions : List (CallAction ν)}

/-- What every action keeps: no value is of a call that is not in progress. -/
structure Sound (m : CallMemory ν) : Prop where
  rooted : Rooted m.values.tracked topMemoryContext
  depths : ∀ name ∈ m.values.objects, name.1 ≤ m.depth

/-- The callbacks on TopMemoryContext, as it is not reset. -/
structure Adds (m next : CallMemory ν) : Prop extends Sound next where
  onward : Onward m.values.tracked next.values.tracked topMemoryContext

theorem onValues_eq_some {action : VarlenaAction (Nat × ν)} :
    m.onValues action = some next ↔
      ∃ values, m.values.step action = some values ∧ next = { m with values } := by
  simp [onValues, eq_comm]

omit [DecidableEq ν] in
theorem start_sound : (start : CallMemory ν).Sound where
  rooted := ⟨rfl, by simp [start, TrackedMemory.registeredOn, TrackedMemory.start, Store.create,
    Store.empty]⟩
  depths name there := by simp [start] at there

omit [DecidableEq ν] in
theorem Sound.refl (sound : m.Sound) : Adds m m := ⟨sound, sound.rooted.refl⟩

theorem Sound.onValues (sound : m.Sound) {action : VarlenaAction (Nat × ν)}
    (taking : m.onValues action = some next)
    (spares : VarlenaMemory.Spares topMemoryContext action)
    (makes : ∀ name, VarlenaMemory.Makes name action → name = m.here name.2) : Adds m next := by
  obtain ⟨values, stepped, rfl⟩ := onValues_eq_some.mp taking
  have onward := VarlenaMemory.onward_step sound.rooted spares stepped
  refine ⟨⟨onward.toRooted, fun name there => ?_⟩, onward⟩
  cases (VarlenaMemory.operates_step stepped).objects name there with
  | inl old => exact sound.depths name old
  | inr made =>
    rw [makes name made]
    exact Nat.le_refl _

/-- The conversion without a context, step by step. -/
theorem convert_byReference {this : ν} {source : Nat}
    (taking : m.convert this (.byReference source) = some next) :
    ∃ allocated values object,
      m.values.step (.alloc topMemoryContext callbackMemory) = some allocated ∧
      allocated.perform [.construct (m.here this, .ctx) topMemoryContext]
        (m.values.objects.insert (m.here this) object) = some values ∧
      next = { m with values } := by
  obtain ⟨_, taking⟩ := Option.ite_none_left_eq_some.mp taking
  obtain ⟨⟨owner, varlena⟩, _, taking⟩ := Option.bind_eq_some_iff.mp taking
  obtain ⟨allocated, allocating, taking⟩ := Option.bind_eq_some_iff.mp taking
  obtain ⟨values, performed, same⟩ := Option.bind_eq_some_iff.mp taking
  cases same
  exact ⟨allocated, values, _, allocating, performed, rfl⟩

theorem Sound.convert (sound : m.Sound) {this : ν} {argument : FunctionArgument}
    (taking : m.convert this argument = some next) : Adds m next := by
  cases argument with
  | null | byValue =>
    obtain ⟨_, same⟩ := Option.ite_none_left_eq_some.mp taking
    cases same
    exact sound.refl
  | byReference source =>
    obtain ⟨allocated, values, object, allocating, performed, rfl⟩ := convert_byReference taking
    have spares : VarlenaMemory.Spares topMemoryContext
        (.alloc topMemoryContext callbackMemory : VarlenaAction (Nat × ν)) := trivial
    have first := VarlenaMemory.onward_step sound.rooted spares allocating
    obtain ⟨tracked, reached, rfl⟩ := VarlenaMemory.perform_eq_some.mp performed
    have second := first.toRooted.run (by simp [TrackedMemory.Spares]) reached
    refine ⟨⟨second.toRooted, fun name there => ?_⟩, first.trans second⟩
    show name.1 ≤ m.depth
    rw [VarlenaMemory.objects_perform performed, AList.mem_insert] at there
    cases there with
    | inl same =>
      rw [same]
      exact Nat.le_refl _
    | inr old => exact sound.depths name old

theorem Sound.access (sound : m.Sound) {this : ν} {currentMemoryContext : Nat}
    (taking : m.access this currentMemoryContext = some next) : Adds m next := by
  obtain ⟨read, reading, taking⟩ := Option.bind_eq_some_iff.mp taking
  have first := sound.onValues reading trivial fun _ none => none.elim
  split at taking
  · cases taking
    exact first
  · have second := first.toSound.onValues taking trivial fun _ none => none.elim
    exact ⟨second.toSound, first.onward.trans second.onward⟩

theorem Sound.step (sound : m.Sound) (taking : m.step action = some next) : Adds m next := by
  cases action with
  | create parent => exact sound.onValues taking trivial fun _ none => none.elim
  | reset ctx =>
    obtain ⟨other, taking⟩ := Option.ite_none_left_eq_some.mp taking
    exact sound.onValues taking other fun _ none => none.elim
  | delete ctx =>
    obtain ⟨other, taking⟩ := Option.ite_none_left_eq_some.mp taking
    exact sound.onValues taking other fun _ none => none.elim
  | alloc ctx varlena =>
    obtain ⟨_, taking⟩ := Option.ite_none_left_eq_some.mp taking
    exact sound.onValues taking trivial fun _ none => none.elim
  | enter =>
    cases taking
    exact ⟨⟨sound.rooted, fun name there => Nat.le_succ_of_le (sound.depths name there)⟩,
      sound.rooted.refl⟩
  | convert this argument => exact sound.convert taking
  | copyConstruct this other =>
    exact sound.onValues taking trivial fun _ same => by rw [← same]; rfl
  | moveConstruct this other =>
    exact sound.onValues taking trivial fun _ same => by rw [← same]; rfl
  | moveAssign this other => exact sound.onValues taking trivial fun _ none => none.elim
  | destroy this => exact sound.onValues taking trivial fun _ none => none.elim
  | access this currentMemoryContext => exact sound.access taking
  | leave =>
    obtain ⟨left, same⟩ := Option.ite_none_left_eq_some.mp taking
    cases same
    refine ⟨⟨sound.rooted, fun name there => ?_⟩, sound.rooted.refl⟩
    have below := sound.depths name there
    have other : name.1 ≠ m.depth := fun same => left (.inr ⟨name, there, same⟩)
    show name.1 ≤ m.depth - 1
    omega

theorem Sound.run (sound : m.Sound)
    (reached : Labelled.run CallMemory.step m actions = some next) : Adds m next := by
  induction actions generalizing m with
  | nil =>
    cases reached
    exact sound.refl
  | cons action actions ih =>
    obtain ⟨t, taking, later⟩ := run_cons.mp reached
    have first := sound.step taking
    have second := ih first.toSound later
    exact ⟨second.toSound, first.onward.trans second.onward⟩

/-- Such a conversion registers a callback that was not there. -/
theorem registered_convert {this : ν} {source : Nat}
    (taking : m.convert this (.byReference source) = some next) :
    m.values.tracked.fresh ∈ next.values.tracked.registeredOn topMemoryContext := by
  obtain ⟨allocated, values, object, allocating, performed, rfl⟩ := convert_byReference taking
  obtain ⟨isLive, same⟩ := Option.dite_none_right_eq_some.mp allocating
  cases same
  obtain ⟨tracked, reached, rfl⟩ := VarlenaMemory.perform_eq_some.mp performed
  have constructed := run_singleton.mp reached
  obtain ⟨_, constructed⟩ := Option.ite_none_left_eq_some.mp constructed
  obtain ⟨_, same⟩ := Option.dite_none_right_eq_some.mp constructed
  cases same
  exact TrackedMemory.mem_registeredOn_construct.mpr (.inl ⟨rfl, rfl⟩)

/-- It stays there, whatever happens to the value. -/
theorem Sound.left_behind (sound : s.Sound) {this : ν} {source : Nat}
    (converted : .convert this (.byReference source) ∈ actions)
    (reached : Labelled.run CallMemory.step s actions = some t) : ¬ LeavesNothing s t := by
  intro leaves
  obtain ⟨before, after, split⟩ := List.append_of_mem converted
  rw [split, run_append] at reached
  obtain ⟨m, first, reached⟩ := Option.bind_eq_some_iff.mp reached
  obtain ⟨next, taking, later⟩ := run_cons.mp reached
  have start := sound.run first
  have stays := ((start.toSound.step taking).toSound.run later).onward.registered
    m.values.tracked.fresh (registered_convert taking)
  have old := sound.rooted.below _ ((leaves.registered _).mp stays)
  have grown := start.onward.fresh
  omega

/-! ## Calls without such arguments -/

/-- Since a call was entered in `s`, it got no value to track, and TopMemoryContext is as it was. -/
structure Quiet (s m : CallMemory ν) : Prop where
  noParent : m.values.tracked.memory.regions topMemoryContext = some []
  leaves : LeavesNothing s m
  absent : ∀ name ∈ m.values.objects, name.1 ≤ s.depth

omit [DecidableEq ν] in
theorem LeavesNothing.trans (one : LeavesNothing s m) (two : LeavesNothing m next) :
    LeavesNothing s next where
  registered number := (two.registered number).trans (one.registered number)
  chunks address contents := (two.chunks address contents).trans (one.chunks address contents)

omit [DecidableEq ν] in
theorem Sound.quiet (sound : s.Sound) : Quiet s s :=
  ⟨sound.rooted.noParent, ⟨fun _ => Iff.rfl, fun _ _ => Iff.rfl⟩, sound.depths⟩

/-- Creating a context, and what a reset of another context does. -/
theorem Quiet.onContexts (quiet : Quiet s m) {action : TrackingAction ((Nat × ν) × VarlenaMember)}
    (contexts : (∃ parent, action = .create parent) ∨
      ∃ ctx, ctx ≠ topMemoryContext ∧ (action = .reset ctx ∨ action = .delete ctx))
    (taking : (m.values.onContexts action).map (fun values => { m with values }) = some next) :
    Quiet s next := by
  obtain ⟨values, performed, rfl⟩ := Option.map_eq_some_iff.mp taking
  obtain ⟨tracked, reached, rfl⟩ := VarlenaMemory.perform_eq_some.mp performed
  have stepped := run_singleton.mp reached
  obtain ⟨parent, rfl⟩ | ⟨ctx, other, rfl | rfl⟩ := contexts
  · obtain ⟨_, same⟩ := Option.ite_none_right_eq_some.mp stepped
    cases same
    exact ⟨Store.regions_create_of_some quiet.noParent,
      quiet.leaves.trans ⟨fun _ => Iff.rfl, fun _ _ => Iff.rfl⟩, quiet.absent⟩
  all_goals
    obtain ⟨_, same⟩ := Option.ite_none_right_eq_some.mp stepped
    cases same
    refine ⟨TrackedMemory.regions_release quiet.noParent other _, quiet.leaves.trans ⟨?_, ?_⟩,
      quiet.absent⟩
    · intro number
      rw [TrackedMemory.registeredOn_release quiet.noParent other]
    · intro address contents
      have uncovered := TrackedMemory.covers_root quiet.noParent other
      simp [TrackedMemory.release, Store.chunks_release_eq_some, uncovered]

theorem Quiet.alloc (quiet : Quiet s m) {ctx : Nat} {varlena : Varlena}
    (other : ctx ≠ topMemoryContext) (taking : m.onValues (.alloc ctx varlena) = some next) :
    Quiet s next := by
  obtain ⟨values, stepped, rfl⟩ := onValues_eq_some.mp taking
  obtain ⟨isLive, same⟩ := Option.dite_none_right_eq_some.mp stepped
  cases same
  refine ⟨quiet.noParent, quiet.leaves.trans ⟨fun _ => Iff.rfl, fun address contents => ?_⟩,
    quiet.absent⟩
  show (if address = _ then _ else _) = _ ↔ _
  split
  · rename_i new
    rw [new, m.values.tracked.memory.chunks_fresh _ (Nat.le_refl _)]
    simp [other]
  · rfl

/-- There is no value to copy, to move, to access or to destroy. -/
theorem Quiet.no_value (quiet : Quiet s m) (inside : s.depth < m.depth) {this : ν}
    {object : VarlenaValue} (found : m.values.objects.lookup (m.here this) = some object) : False := by
  have below := quiet.absent (m.here this) (mem_of_lookup found)
  have same : (m.here this).1 = m.depth := rfl
  omega

theorem Quiet.step (quiet : Quiet s m) (inside : s.depth < m.depth)
    (none : ∀ this source, action ≠ .convert this (.byReference source))
    (taking : m.step action = some next) : Quiet s next := by
  cases action with
  | create parent => exact quiet.onContexts (.inl ⟨_, rfl⟩) taking
  | reset ctx =>
    obtain ⟨other, taking⟩ := Option.ite_none_left_eq_some.mp taking
    exact quiet.onContexts (.inr ⟨ctx, other, .inl rfl⟩) taking
  | delete ctx =>
    obtain ⟨other, taking⟩ := Option.ite_none_left_eq_some.mp taking
    exact quiet.onContexts (.inr ⟨ctx, other, .inr rfl⟩) taking
  | alloc ctx varlena =>
    obtain ⟨other, taking⟩ := Option.ite_none_left_eq_some.mp taking
    exact quiet.alloc other taking
  | enter =>
    cases taking
    exact ⟨quiet.noParent, quiet.leaves.trans ⟨fun _ => Iff.rfl, fun _ _ => Iff.rfl⟩, quiet.absent⟩
  | convert this argument =>
    cases argument with
    | null | byValue =>
      obtain ⟨_, same⟩ := Option.ite_none_left_eq_some.mp taking
      cases same
      exact quiet
    | byReference source => exact absurd rfl (none this source)
  | copyConstruct this other | moveConstruct this other | moveAssign this other =>
    obtain ⟨values, stepped, _⟩ := onValues_eq_some.mp taking
    obtain ⟨object, found, _⟩ := Option.bind_eq_some_iff.mp stepped
    exact (quiet.no_value inside found).elim
  | destroy this =>
    obtain ⟨values, stepped, _⟩ := onValues_eq_some.mp taking
    obtain ⟨object, found, _⟩ := Option.bind_eq_some_iff.mp stepped
    exact (quiet.no_value inside found).elim
  | access this currentMemoryContext =>
    obtain ⟨read, reading, _⟩ := Option.bind_eq_some_iff.mp taking
    obtain ⟨values, stepped, _⟩ := onValues_eq_some.mp reading
    obtain ⟨outcome, reading, _⟩ := Option.bind_eq_some_iff.mp stepped
    obtain ⟨object, found, _⟩ := Option.bind_eq_some_iff.mp reading
    exact (quiet.no_value inside found).elim
  | leave =>
    obtain ⟨_, same⟩ := Option.ite_none_left_eq_some.mp taking
    cases same
    exact ⟨quiet.noParent, quiet.leaves.trans ⟨fun _ => Iff.rfl, fun _ _ => Iff.rfl⟩, quiet.absent⟩

theorem depth_onValues {action : VarlenaAction (Nat × ν)} (taking : m.onValues action = some next) :
    next.depth = m.depth := by
  obtain ⟨values, _, rfl⟩ := onValues_eq_some.mp taking
  rfl

/-- Only calls change the depth. -/
theorem depth_step {base calls after : Nat} (counted : inProgress calls action = some after)
    (deep : m.depth = base + calls) (taking : m.step action = some next) :
    next.depth = base + after := by
  cases action with
  | enter =>
    cases counted
    cases taking
    show m.depth + 1 = base + (calls + 1)
    omega
  | leave =>
    obtain ⟨some, same⟩ := Option.ite_none_left_eq_some.mp counted
    cases same
    obtain ⟨_, same⟩ := Option.ite_none_left_eq_some.mp taking
    cases same
    show m.depth - 1 = base + (calls - 1)
    omega
  | reset ctx | delete ctx | alloc ctx varlena =>
    cases counted
    obtain ⟨_, taking⟩ := Option.ite_none_left_eq_some.mp taking
    rw [depth_onValues taking, deep]
  | convert this argument =>
    cases counted
    cases argument with
    | null | byValue =>
      obtain ⟨_, same⟩ := Option.ite_none_left_eq_some.mp taking
      cases same
      exact deep
    | byReference source =>
      obtain ⟨_, _, _, _, _, same⟩ := convert_byReference taking
      rw [same]
      exact deep
  | access this currentMemoryContext =>
    cases counted
    obtain ⟨read, reading, taking⟩ := Option.bind_eq_some_iff.mp taking
    split at taking
    · cases taking
      rw [depth_onValues reading, deep]
    · rw [depth_onValues taking, depth_onValues reading, deep]
  | create parent | copyConstruct this other | moveConstruct this other | moveAssign this other
  | destroy this =>
    cases counted
    rw [depth_onValues taking, deep]

/-- The body of a call, the calls within it included. -/
theorem Quiet.run {calls after : Nat} (quiet : Quiet s m) (deep : m.depth = s.depth + 1 + calls)
    (none : ∀ this source, .convert this (.byReference source) ∉ actions)
    (counted : Labelled.run inProgress calls actions = some after)
    (reached : Labelled.run CallMemory.step m actions = some next) :
    Quiet s next ∧ next.depth = s.depth + 1 + after := by
  induction actions generalizing m calls with
  | nil =>
    cases counted
    cases reached
    exact ⟨quiet, deep⟩
  | cons action actions ih =>
    obtain ⟨between, counts, countedLater⟩ := run_cons.mp counted
    obtain ⟨t, taking, later⟩ := run_cons.mp reached
    refine ih (quiet.step (by omega) (fun this source same => ?_) taking)
      (depth_step counts deep taking) (fun this source listed => ?_) countedLater later
    · exact none this source (same ▸ List.mem_cons_self)
    · exact none this source (List.mem_cons_of_mem _ listed)

/-- A call leaves TopMemoryContext as it was if and only if it has no such argument. -/
theorem Sound.call_leaves_iff (sound : s.Sound) (closed : Closed actions)
    (reached : Labelled.run CallMemory.step s (.enter :: actions ++ [.leave]) = some t) :
    LeavesNothing s t ↔ ∀ this source, .convert this (.byReference source) ∉ actions := by
  constructor
  · intro leaves this source converted
    have listed : .convert this (.byReference source) ∈ .enter :: actions ++ [.leave] := by
      simp [converted]
    exact sound.left_behind listed reached leaves
  · intro none
    rw [List.cons_append] at reached
    obtain ⟨entered, entering, reached⟩ := run_cons.mp reached
    rw [run_append] at reached
    obtain ⟨last, inside, leaving⟩ := Option.bind_eq_some_iff.mp reached
    cases entering
    have first : Quiet s { s with depth := s.depth + 1 } :=
      ⟨sound.rooted.noParent, ⟨fun _ => Iff.rfl, fun _ _ => Iff.rfl⟩, sound.depths⟩
    obtain ⟨quiet, deep⟩ := first.run rfl none closed inside
    exact (quiet.step (by omega) (by simp) (run_singleton.mp leaving)).leaves

/-- The calls of a session leave nothing behind in TopMemoryContext if and only if none of them,
nor a call within it, gets an argument by reference that is not null. -/
theorem calls_leave_nothing_iff {session : List (CallAction ν)} {last : CallMemory ν}
    (ran : run CallMemory.step start session = some last) :
    CallsLeaveNothing session ↔ NoneByReference session := by
  constructor
  · intro leaves before inside call
    obtain ⟨closed, after, split⟩ := call
    rw [split, run_append, run_append] at ran
    obtain ⟨t, ran, _⟩ := Option.bind_eq_some_iff.mp ran
    obtain ⟨s, reached, ran⟩ := Option.bind_eq_some_iff.mp ran
    have sound := (start_sound.run reached).toSound
    exact (sound.call_leaves_iff closed ran).mp
      (leaves before inside ⟨closed, after, split⟩ s t reached ran)
  · intro none before inside call s t reached ran
    have sound := (start_sound.run reached).toSound
    exact (sound.call_leaves_iff call.1 ran).mpr (none before inside call)

/-- Two calls, one within the other, of a function with an optional text that is null. -/
def nullTexts : List (CallAction Unit) :=
  [.enter, .convert () .null, .enter, .convert () .null, .leave, .leave]

theorem nullTexts_leave_nothing : CallsLeaveNothing nullTexts := by
  obtain ⟨last, ran⟩ : ∃ last, run CallMemory.step start nullTexts = some last := ⟨_, rfl⟩
  apply (calls_leave_nothing_iff ran).mpr
  intro before inside call this source converted
  obtain ⟨_, after, split⟩ := call
  have listed : .convert this (.byReference source) ∈ nullTexts := by
    rw [split]
    simp [converted]
  simp [nullTexts] at listed

/-- A call that gets a text, and destroys it. -/
def oneText : List (CallAction Unit) := [.convert () (.byReference 2), .destroy ()]

/-- The callback of the tracker is still registered when the call has ended. -/
theorem text_left_behind : ¬ CallsLeaveNothing
    ([.create topMemoryContext, .alloc 1 ⟨false, [97]⟩] ++ (.enter :: oneText ++ [.leave])) := by
  intro leaves
  have ran : ((run CallMemory.step start [.create topMemoryContext, .alloc 1 ⟨false, [97]⟩]).bind
      fun s => (run CallMemory.step s (.enter :: oneText ++ [.leave])).map fun t =>
        (s.values.tracked.registeredOn topMemoryContext,
          t.values.tracked.registeredOn topMemoryContext)) = some ([], [0]) := by decide +kernel
  obtain ⟨s, reached, ran⟩ := Option.bind_eq_some_iff.mp ran
  obtain ⟨t, ran, registered⟩ := Option.map_eq_some_iff.mp ran
  obtain ⟨before, after⟩ := Prod.mk.inj registered
  have left := (leaves _ oneText ⟨rfl, [], by simp⟩ s t reached ran).registered 0
  rw [before, after] at left
  simp at left

end CallMemory
end Cppgres
