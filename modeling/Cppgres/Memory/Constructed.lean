import Mathlib.Data.List.Nodup
import Cppgres.Labelled.Runs
import Cppgres.Regions.Nested

/-!
# Objects in memory contexts

`abstract_memory_context::construct<T>` allocates an object and, if its type has a destructor that
does something, a callback that runs the destructor when the context is reset or deleted. Each of the
steps may fail. Postgres deletes the contexts below one before it runs the callbacks of that one.
-/
namespace Cppgres
open Regions Labelled

variable {τ : Type}

/-- What a piece of memory was allocated for. -/
inductive ConstructedChunk (τ : Type) where
  | object (type : τ)
  | callback
  deriving DecidableEq, Repr

/-- An object, by the context and the address that it was constructed at. -/
structure ConstructedObject (τ : Type) where
  ctx : Nat
  address : Nat
  type : τ
  deriving DecidableEq, Repr

/-- `::MemoryContextCallback`, at `block`: `func` destroys an object of a type, and `arg` points to the
object. -/
structure DestructorCallback (τ : Type) where
  block : Nat
  object : ConstructedObject τ
  deriving DecidableEq, Repr

/-- The memory, the objects that `construct` returned and those that were destroyed, both latest
first. `undefined` tells that a destructor ran on memory that holds no such object, or from a callback
that is freed. -/
structure ConstructedMemory (τ : Type) where
  memory : Store (DestructorCallback τ) (ConstructedChunk τ)
  constructed : List (ConstructedObject τ)
  destroyed : List (ConstructedObject τ)
  undefined : Bool

/-- The step of `construct` that fails. -/
inductive ConstructFailure where
  | object
  | callback
  | constructor
  deriving DecidableEq, Repr

/-- The contexts below one that is reset or deleted come in the order in which they are deleted. -/
inductive ConstructAction (τ : Type) where
  | create (parent : Option Nat)
  | reset (ctx : Nat) (below : List Nat)
  | delete (ctx : Nat) (below : List Nat)
  | construct (ctx : Nat) (type : τ) (failure : Option ConstructFailure)
  deriving DecidableEq, Repr

inductive ConstructOutcome where
  | done
  | thrown
  | pointer (address : Nat)
  deriving DecidableEq, Repr

namespace ConstructedMemory

def start : ConstructedMemory τ := ⟨.empty, [], [], false⟩

section Operations
variable [DecidableEq τ] (trivial_ : τ → Bool) (m : ConstructedMemory τ)

/-- `alloc<T>()` or `alloc<::MemoryContextCallback>()`, in a context that is there. -/
def alloc (ctx : Nat) (chunk : ConstructedChunk τ) (isLive : m.memory.live ctx) :
    ConstructedMemory τ :=
  { m with memory := m.memory.alloc ctx chunk isLive }

/-- `std::construct_at` returned. -/
def constructAt (object : ConstructedObject τ) : ConstructedMemory τ :=
  { m with constructed := object :: m.constructed }

def register (ctx : Nat) (callback : DestructorCallback τ) (isLive : m.memory.live ctx) :
    ConstructedMemory τ :=
  { m with memory := m.memory.register ctx callback isLive }

/-- `construct<T>(args...)` -/
def construct (ctx : Nat) (type : τ) (failure : Option ConstructFailure)
    (isLive : m.memory.live ctx) : ConstructOutcome × ConstructedMemory τ :=
  if failure = some .object then (.thrown, m)
  else
    let ptr := m.memory.fresh
    let m := m.alloc ctx (.object type) isLive
    if trivial_ type then
      if failure = some .constructor then (.thrown, m)
      else (.pointer ptr, m.constructAt ⟨ctx, ptr, type⟩)
    else if failure = some .callback then (.thrown, m)
    else
      let cb := m.memory.fresh
      let m := m.alloc ctx .callback isLive
      if failure = some .constructor then (.thrown, m)
      else
        let m := m.constructAt ⟨ctx, ptr, type⟩
        (.pointer ptr, m.register ctx ⟨cb, ⟨ctx, ptr, type⟩⟩ isLive)

/-- The callback is there, and its argument points to an object of its type. -/
def callable (callback : DestructorCallback τ) : Bool :=
  let object := callback.object
  decide (m.memory.chunks callback.block = some (object.ctx, .callback) ∧
    m.memory.chunks object.address = some (object.ctx, .object object.type) ∧
    object ∈ m.constructed ∧ object ∉ m.destroyed)

/-- `std::destroy_at`, called by a callback. -/
def call (callback : DestructorCallback τ) : ConstructedMemory τ :=
  { m with
    destroyed := callback.object :: m.destroyed
    undefined := m.undefined || !m.callable callback }

/-- The callbacks of a context run, and then its memory is released. -/
def releaseOnly (ctx : Nat) (delete : Bool) : ConstructedMemory τ :=
  let ran := (m.memory.due ctx).foldl call m
  { ran with memory := m.memory.release ctx delete }

/-- `MemoryContextReset` and `MemoryContextDelete` -/
def release (ctx : Nat) (below : List Nat) (delete : Bool) : ConstructedMemory τ :=
  (below.foldl (fun m child => m.releaseOnly child true) m).releaseOnly ctx delete

/-- All of the contexts below one, each of them before those that it is below. -/
def Deletes (ctx : Nat) (below : List Nat) : Prop :=
  (∀ other < m.memory.fresh, m.memory.covers ctx other = true → other ≠ ctx → other ∈ below) ∧
    (∀ other ∈ below, m.memory.covers ctx other = true ∧ other ≠ ctx) ∧
    below.Pairwise fun one two => m.memory.covers one two = false

instance (ctx : Nat) (below : List Nat) : Decidable (m.Deletes ctx below) := by
  unfold Deletes
  infer_instance

/-- None where there is no such context, or the contexts below it are others. -/
def exec : ConstructAction τ → Option (ConstructOutcome × ConstructedMemory τ)
  | .create parent =>
    if parent.all m.memory.live then some (.done, { m with memory := m.memory.create parent })
    else none
  | .reset ctx below =>
    if m.memory.live ctx ∧ m.Deletes ctx below then some (.done, m.release ctx below false) else none
  | .delete ctx below =>
    if m.memory.live ctx ∧ m.Deletes ctx below then some (.done, m.release ctx below true) else none
  | .construct ctx type failure =>
    if isLive : m.memory.live ctx then some (m.construct trivial_ ctx type failure isLive) else none

def step (action : ConstructAction τ) : Option (ConstructedMemory τ) :=
  (m.exec trivial_ action).map Prod.snd

end Operations

/-! ## What is asked of a run -/

section Asked
variable [DecidableEq τ] (trivial_ : τ → Bool) (m next : ConstructedMemory τ)

/-- The objects with a destructor that did not run yet, latest first. -/
def pending : List (ConstructedObject τ) :=
  m.constructed.filter fun object => !trivial_ object.type && !decide (object ∈ m.destroyed)

/-- The objects in a context. -/
def within (ctx : Nat) (objects : List (ConstructedObject τ)) : List (ConstructedObject τ) :=
  objects.filter (·.ctx == ctx)

/-- These destructors ran, in this order: in each of the contexts those of all objects that were
left, the one constructed last first. -/
structure Destroys (contexts : Nat → Bool) (ran : List (ConstructedObject τ)) : Prop where
  constructed : next.constructed = m.constructed
  destroyed : next.destroyed = ran.reverse ++ m.destroyed
  each : ∀ ctx, within ctx ran = if contexts ctx then within ctx (m.pending trivial_) else []

/-- One of the steps that are taken fails: where the destructor does nothing, no callback is
allocated. -/
def stepFails (type : τ) : Option ConstructFailure → Bool
  | none => false
  | some .callback => !trivial_ type
  | some _ => true

/-- `construct` throws if a step fails, with nothing constructed, and otherwise returns a pointer to
an object of the type. -/
def Constructs (ctx : Nat) (type : τ) (failure : Option ConstructFailure)
    (outcome : ConstructOutcome) : Prop :=
  if stepFails trivial_ type failure then
    outcome = .thrown ∧ next.constructed = m.constructed
  else ∃ address, outcome = .pointer address ∧
    next.constructed = ⟨ctx, address, type⟩ :: m.constructed

/-- Destructors run when contexts are reset or deleted, those of the objects in these contexts, and at
no other time; none runs twice, or for an object that `construct` did not return, which it does
unless a step of it fails; and none where its object is not. -/
structure Right (action : ConstructAction τ) (outcome : ConstructOutcome) : Prop where
  released : ∀ ctx below, action = .reset ctx below ∨ action = .delete ctx below →
    ∃ ran, m.Destroys trivial_ next (m.memory.covers ctx) ran
  quiet : (∀ ctx below, action ≠ .reset ctx below ∧ action ≠ .delete ctx below) →
    next.destroyed = m.destroyed
  returned : ∀ ctx type failure, action = .construct ctx type failure →
    m.Constructs trivial_ next ctx type failure outcome
  once : next.destroyed.Nodup
  only : ∀ object ∈ next.destroyed, object ∈ next.constructed ∧ trivial_ object.type = false
  defined : next.undefined = false

/-- An action of a run, in the state that it is taken in. -/
def DoneRight (action : ConstructAction τ) : Prop :=
  ∀ outcome next, m.exec trivial_ action = some (outcome, next) →
    m.Right trivial_ next action outcome

end Asked

/-! ## What the callbacks of a context do -/

/-- The registered callbacks are those of the objects that are pending, in the order in which these
were constructed, and all of them can be called. -/
structure Sound [DecidableEq τ] (trivial_ : τ → Bool) (m : ConstructedMemory τ) : Prop where
  nested : m.memory.Nested
  callbacks : m.memory.callbacks.map (·.2.object) = m.pending trivial_
  placed : ∀ callback ∈ m.memory.callbacks, callback.1 = callback.2.object.ctx ∧
    m.memory.chunks callback.2.block = some (callback.2.object.ctx, .callback) ∧
    m.memory.chunks callback.2.object.address =
      some (callback.2.object.ctx, .object callback.2.object.type)
  fresh : ∀ object ∈ m.constructed, object.address < m.memory.fresh
  distinct : m.constructed.Nodup
  once : m.destroyed.Nodup
  only : ∀ object ∈ m.destroyed, object ∈ m.constructed ∧ trivial_ object.type = false
  defined : m.undefined = false

section Within
variable {object : ConstructedObject τ} {objects : List (ConstructedObject τ)} {ctx : Nat}

theorem mem_within : object ∈ within ctx objects ↔ object ∈ objects ∧ object.ctx = ctx := by
  simp [within]

theorem within_append {others : List (ConstructedObject τ)} :
    within ctx (objects ++ others) = within ctx objects ++ within ctx others := by
  simp [within]

theorem nodup_of_within [DecidableEq τ] (each : ∀ ctx, (within ctx objects).Nodup) :
    objects.Nodup := by
  rw [List.nodup_iff_count_le_one]
  intro object
  have here := List.nodup_iff_count_le_one.mp (each object.ctx) object
  rwa [within, List.count_filter (by simp)] at here

end Within

section Callbacks
variable [DecidableEq τ] {trivial_ : τ → Bool} {m next later : ConstructedMemory τ} {ctx x : Nat}
  {object : ConstructedObject τ}

theorem mem_pending :
    object ∈ m.pending trivial_ ↔
      object ∈ m.constructed ∧ trivial_ object.type = false ∧ object ∉ m.destroyed := by
  simp [pending]

/-- Callbacks that can be called, of different objects, destroy these one after the other. -/
theorem foldl_call (callbacks : List (DestructorCallback τ)) (m : ConstructedMemory τ)
    (defined : m.undefined = false) (distinct : (callbacks.map (·.object)).Nodup)
    (callable : ∀ callback ∈ callbacks, m.callable callback = true) :
    callbacks.foldl call m =
      { m with destroyed := (callbacks.map (·.object)).reverse ++ m.destroyed } := by
  induction callbacks generalizing m with
  | nil => rfl
  | cons callback callbacks ih =>
    have first : m.call callback = { m with destroyed := callback.object :: m.destroyed } := by
      have here := callable callback List.mem_cons_self
      unfold call
      rw [here, defined]
      rfl
    rw [List.map_cons, List.nodup_cons] at distinct
    have others : ∀ other ∈ callbacks,
        ConstructedMemory.callable { m with destroyed := callback.object :: m.destroyed } other =
          true := by
      intro other listed
      have there := callable other (List.mem_cons_of_mem _ listed)
      have different : other.object ≠ callback.object := by
        intro same
        exact distinct.1 (List.mem_map.mpr ⟨other, listed, same⟩)
      simp only [ConstructedMemory.callable, decide_eq_true_eq] at there ⊢
      obtain ⟨block, chunk, made, left⟩ := there
      refine ⟨block, chunk, made, ?_⟩
      simpa [different] using left
    have rest := ih { m with destroyed := callback.object :: m.destroyed } defined distinct.2 others
    rw [List.foldl_cons, first, rest]
    simp

/-- The objects whose destructors a release of the context runs, in order. -/
def dueObjects (m : ConstructedMemory τ) (ctx : Nat) : List (ConstructedObject τ) :=
  (m.memory.due ctx).map (·.object)

/-- A context that is not covered has no objects that are due, and one that is has all that are
pending due, in their order. -/
theorem Sound.within_due (sound : m.Sound trivial_) (ctx x : Nat) :
    within x (m.dueObjects ctx) =
      if m.memory.covers ctx x then within x (m.pending trivial_) else [] := by
  have own : ∀ callback ∈ m.memory.callbacks,
      (callback.2.object.ctx == x) = (callback.1 == x) := by
    intro callback registered
    rw [(sound.placed callback registered).1]
  have left : within x (m.pending trivial_) =
      (m.memory.callbacks.filter fun callback => callback.1 == x).map (·.2.object) := by
    rw [← sound.callbacks, within, List.filter_map]
    congr 1
    apply List.filter_congr
    exact own
  rw [left, within, dueObjects, List.filter_map]
  rw [Store.due_of own]
  cases m.memory.covers ctx x with
  | true => simp [List.map_map, Function.comp_def]
  | false => rfl

theorem Sound.pending_nodup (sound : m.Sound trivial_) : (m.pending trivial_).Nodup :=
  sound.distinct.filter _

theorem Sound.mem_dueObjects (sound : m.Sound trivial_) :
    object ∈ m.dueObjects ctx ↔
      object ∈ m.pending trivial_ ∧ m.memory.covers ctx object.ctx = true := by
  have here : object ∈ m.dueObjects ctx ↔ object ∈ within object.ctx (m.dueObjects ctx) := by
    simp [mem_within]
  rw [here, sound.within_due]
  cases m.memory.covers ctx object.ctx with
  | true => simp [mem_within]
  | false => simp

theorem Sound.dueObjects_nodup (sound : m.Sound trivial_) (ctx : Nat) :
    (m.dueObjects ctx).Nodup := by
  apply nodup_of_within
  intro x
  rw [sound.within_due]
  split
  · exact sound.pending_nodup.filter _
  · exact List.nodup_nil

/-- What is registered can be called. -/
theorem Sound.callable (sound : m.Sound trivial_) {callback : Nat × DestructorCallback τ}
    (registered : callback ∈ m.memory.callbacks) : m.callable callback.2 = true := by
  obtain ⟨_, block, chunk⟩ := sound.placed callback registered
  have left : callback.2.object ∈ m.pending trivial_ := by
    rw [← sound.callbacks]
    exact List.mem_map.mpr ⟨callback, registered, rfl⟩
  obtain ⟨made, _, undestroyed⟩ := mem_pending.mp left
  simp only [ConstructedMemory.callable, decide_eq_true_eq]
  exact ⟨block, chunk, made, undestroyed⟩

theorem Sound.releaseOnly_eq (sound : m.Sound trivial_) (ctx : Nat) (delete : Bool) :
    m.releaseOnly ctx delete =
      { m with
        destroyed := (m.dueObjects ctx).reverse ++ m.destroyed
        memory := m.memory.release ctx delete } := by
  have ran : (m.memory.due ctx).foldl call m =
      { m with destroyed := (m.dueObjects ctx).reverse ++ m.destroyed } := by
    apply foldl_call _ _ sound.defined (sound.dueObjects_nodup ctx)
    intro callback listed
    obtain ⟨owner, _, registered⟩ := Store.mem_due.mp listed
    exact sound.callable registered
  unfold releaseOnly
  rw [ran]

/-- What is left to destroy is what was left, without what is in the released contexts. -/
theorem Sound.pending_releaseOnly (sound : m.Sound trivial_) (ctx : Nat) (delete : Bool) :
    (m.releaseOnly ctx delete).pending trivial_ =
      (m.pending trivial_).filter fun object => !m.memory.covers ctx object.ctx := by
  rw [sound.releaseOnly_eq]
  unfold pending
  rw [List.filter_filter]
  apply List.filter_congr
  intro object made
  have due : object ∈ m.dueObjects ctx ↔ object ∈ m.pending trivial_ ∧ _ := sound.mem_dueObjects
  rw [mem_pending] at due
  simp only [List.mem_append, List.mem_reverse, due]
  cases trivial_ object.type with
  | true => simp
  | false =>
    by_cases gone : object ∈ m.destroyed
    · simp [gone]
    · simp [gone, made]

theorem Sound.destroys_releaseOnly (sound : m.Sound trivial_) (ctx : Nat) (delete : Bool) :
    m.Destroys trivial_ (m.releaseOnly ctx delete) (m.memory.covers ctx) (m.dueObjects ctx) := by
  rw [sound.releaseOnly_eq]
  constructor
  · rfl
  · rfl
  · exact sound.within_due ctx

theorem Sound.releaseOnly (sound : m.Sound trivial_) (ctx : Nat) (delete : Bool) :
    (m.releaseOnly ctx delete).Sound trivial_ := by
  have left := sound.pending_releaseOnly ctx delete
  rw [sound.releaseOnly_eq] at left ⊢
  constructor
  case nested => exact sound.nested.release
  case callbacks =>
    rw [left, ← sound.callbacks, List.filter_map]
    apply congrArg
    apply List.filter_congr
    intro callback registered
    rw [(sound.placed callback registered).1]
    rfl
  case placed =>
    intro callback registered
    obtain ⟨registered, outside⟩ := Store.mem_callbacks_release.mp registered
    obtain ⟨own, block, chunk⟩ := sound.placed callback registered
    rw [own] at outside
    exact ⟨own, Store.chunks_release_eq_some.mpr ⟨block, outside⟩,
      Store.chunks_release_eq_some.mpr ⟨chunk, outside⟩⟩
  case fresh => exact sound.fresh
  case distinct => exact sound.distinct
  case once =>
    apply List.Nodup.append (List.nodup_reverse.mpr (sound.dueObjects_nodup ctx)) sound.once
    intro object due gone
    have pending := (sound.mem_dueObjects.mp (List.mem_reverse.mp due)).1
    exact (mem_pending.mp pending).2.2 gone
  case only =>
    intro object listed
    rcases List.mem_append.mp listed with due | gone
    · have pending := (sound.mem_dueObjects.mp (List.mem_reverse.mp due)).1
      obtain ⟨made, nontrivial, _⟩ := mem_pending.mp pending
      exact ⟨made, nontrivial⟩
    · exact sound.only object gone
  case defined => exact sound.defined

end Callbacks

/-! ## A reset, the contexts below included -/

section Released
variable [DecidableEq τ] {trivial_ : τ → Bool} {m next later : ConstructedMemory τ}
  {first second : Nat → Bool} {ran others : List (ConstructedObject τ)}

/-- Nothing is left of contexts that were released. -/
theorem Destroys.within_pending (destroys : m.Destroys trivial_ next first ran) (ctx : Nat) :
    within ctx (next.pending trivial_) =
      if first ctx then [] else within ctx (m.pending trivial_) := by
  have each := destroys.each ctx
  have left : within ctx (next.pending trivial_) =
      (within ctx (m.pending trivial_)).filter fun object => !decide (object ∈ ran) := by
    unfold within pending
    rw [destroys.constructed, destroys.destroyed]
    simp only [List.filter_filter]
    apply List.filter_congr
    intro object _
    simp only [List.mem_append, List.mem_reverse, Bool.decide_or, Bool.not_or]
    grind
  rw [left]
  cases released : first ctx with
  | true =>
    rw [released, if_pos rfl] at each
    rw [← each, if_pos rfl]
    apply List.filter_eq_nil_iff.mpr
    intro object listed
    simp [(mem_within.mp listed).1]
  | false =>
    rw [released, if_neg Bool.false_ne_true] at each
    rw [if_neg Bool.false_ne_true]
    apply List.filter_eq_self.mpr
    intro object listed
    have absent : object ∉ within ctx ran := by
      rw [each]
      exact List.not_mem_nil
    simp only [mem_within, not_and] at absent
    simp only [Bool.not_eq_true', decide_eq_false_iff_not]
    intro mem
    exact absent mem (mem_within.mp listed).2

theorem Destroys.nothing : m.Destroys trivial_ m (fun _ => false) [] where
  constructed := rfl
  destroyed := rfl
  each _ := rfl

theorem Destroys.trans (one : m.Destroys trivial_ next first ran)
    (two : next.Destroys trivial_ later second others) :
    m.Destroys trivial_ later (fun ctx => first ctx || second ctx) (ran ++ others) := by
  constructor
  case constructed => rw [two.constructed, one.constructed]
  case destroyed =>
    rw [two.destroyed, one.destroyed, List.reverse_append, List.append_assoc]
  case each =>
    intro ctx
    rw [within_append, one.each, two.each, one.within_pending]
    cases first ctx with
    | true => simp
    | false => simp

/-- Deleting contexts, one after the other, destroys what is in them and in those below. -/
theorem Sound.foldl_releaseOnly (below : List Nat) (m : ConstructedMemory τ)
    (sound : m.Sound trivial_) :
    let deleted := below.foldl (fun m child => m.releaseOnly child true) m
    (∃ ran, m.Destroys trivial_ deleted
      (fun ctx => below.any fun child => m.memory.covers child ctx) ran) ∧
      deleted.Sound trivial_ ∧ ∀ higher ctx, deleted.memory.covers higher ctx =
        (m.memory.covers higher ctx && !below.any fun child => m.memory.covers child ctx) := by
  induction below generalizing m with
  | nil => exact ⟨⟨[], .nothing⟩, sound, by simp⟩
  | cons child below ih =>
    have covers : ∀ higher ctx, (m.releaseOnly child true).memory.covers higher ctx =
        (m.memory.covers higher ctx && !m.memory.covers child ctx) :=
      fun higher ctx => Store.covers_delete
    have split (ctx : Nat) : ((child :: below).any fun other => m.memory.covers other ctx) =
        (m.memory.covers child ctx ||
          below.any fun other => (m.releaseOnly child true).memory.covers other ctx) := by
      rw [List.any_cons]
      simp only [covers]
      cases m.memory.covers child ctx <;> simp
    obtain ⟨⟨ran, rest⟩, later, remaining⟩ := ih _ (sound.releaseOnly child true)
    refine ⟨⟨m.dueObjects child ++ ran, ?_⟩, later, ?_⟩
    · have both := (sound.destroys_releaseOnly child true).trans rest
      rw [← funext split] at both
      exact both
    · intro higher ctx
      rw [List.foldl_cons, remaining, covers, split, Bool.not_or, Bool.and_assoc]

/-- All objects that are left in a context and in those below are destroyed, and nothing else. -/
theorem Sound.release (sound : m.Sound trivial_) {ctx : Nat} {below : List Nat}
    (deletes : m.Deletes ctx below) (delete : Bool) :
    (∃ ran, m.Destroys trivial_ (m.release ctx below delete) (m.memory.covers ctx) ran) ∧
      (m.release ctx below delete).Sound trivial_ := by
  obtain ⟨⟨ran, deleted⟩, later, remaining⟩ := foldl_releaseOnly below m sound
  have both := deleted.trans (later.destroys_releaseOnly ctx delete)
  have all (x : Nat) : ((below.any fun child => m.memory.covers child x) ||
      (below.foldl (fun m child => m.releaseOnly child true) m).memory.covers ctx x) =
      m.memory.covers ctx x := by
    rw [remaining]
    cases listed : below.any fun child => m.memory.covers child x with
    | false => simp
    | true =>
      obtain ⟨child, mem, covered⟩ := List.any_eq_true.mp listed
      have above := (deletes.2.1 child mem).1
      rw [sound.nested.covers_trans above covered]
      rfl
  rw [funext all] at both
  constructor
  · exact ⟨_, both⟩
  · exact later.releaseOnly ctx delete

end Released

/-! ## A construction -/

section Construction
variable {trivial_ : τ → Bool} {m : ConstructedMemory τ} {ctx : Nat}

/-- No object is constructed twice at one address. -/
theorem not_constructed {address : Nat} {type : τ}
    (new : ∀ object ∈ m.constructed, object.address < address) :
    (⟨ctx, address, type⟩ : ConstructedObject τ) ∉ m.constructed := by
  intro made
  exact Nat.lt_irrefl _ (new _ made)

theorem stepFails_eq_false {type : τ} {failure : Option ConstructFailure}
    (allocated : failure ≠ some .object) (constructed : failure ≠ some .constructor)
    (registered : trivial_ type = true ∨ failure ≠ some .callback) :
    stepFails trivial_ type failure = false := by
  rcases failure with _ | _ | _ | _
  · rfl
  · exact absurd rfl allocated
  · rcases registered with isTrivial | other
    · unfold stepFails
      rw [isTrivial]
      rfl
    · exact absurd rfl other
  · exact absurd rfl constructed

theorem constructs_pointer {next : ConstructedMemory τ} {type : τ}
    {failure : Option ConstructFailure} {address : Nat}
    (none_ : stepFails trivial_ type failure = false)
    (made : next.constructed = ⟨ctx, address, type⟩ :: m.constructed) :
    m.Constructs trivial_ next ctx type failure (.pointer address) := by
  unfold Constructs
  rw [none_, if_neg Bool.false_ne_true]
  exact ⟨address, rfl, made⟩

variable [DecidableEq τ]

theorem start_sound : (start : ConstructedMemory τ).Sound trivial_ where
  nested := Store.nested_empty
  callbacks := rfl
  placed := by simp [start, Store.empty]
  fresh := by simp [start]
  distinct := List.nodup_nil
  once := List.nodup_nil
  only := by simp [start]
  defined := rfl

theorem Sound.create (sound : m.Sound trivial_) {parent : Option Nat}
    (isLive : parent.all m.memory.live) :
    Sound trivial_ { m with memory := m.memory.create parent } where
  nested := sound.nested.create isLive
  callbacks := sound.callbacks
  placed := sound.placed
  fresh object made := Nat.lt_succ_of_lt (sound.fresh object made)
  distinct := sound.distinct
  once := sound.once
  only := sound.only
  defined := sound.defined

theorem Sound.alloc (sound : m.Sound trivial_) (chunk : ConstructedChunk τ)
    (isLive : m.memory.live ctx) : (m.alloc ctx chunk isLive).Sound trivial_ := by
  have kept (address : Nat) (found) (there : m.memory.chunks address = some found) :
      (m.alloc ctx chunk isLive).memory.chunks address = some found := by
    have used : address ≠ m.memory.fresh := by
      intro same
      rw [same, m.memory.chunks_fresh _ (Nat.le_refl _)] at there
      cases there
    simp only [ConstructedMemory.alloc, Store.alloc]
    rwa [if_neg used]
  constructor
  case nested => exact sound.nested
  case callbacks => exact sound.callbacks
  case placed =>
    intro callback registered
    obtain ⟨own, block, chunk⟩ := sound.placed callback registered
    exact ⟨own, kept _ _ block, kept _ _ chunk⟩
  case fresh => exact fun object made => Nat.lt_succ_of_lt (sound.fresh object made)
  case distinct => exact sound.distinct
  case once => exact sound.once
  case only => exact sound.only
  case defined => exact sound.defined

theorem Sound.fresh_constructAt (sound : m.Sound trivial_) {object : ConstructedObject τ}
    (below : object.address < m.memory.fresh) :
    ∀ made ∈ (m.constructAt object).constructed, made.address < m.memory.fresh := by
  intro other made
  rcases List.mem_cons.mp made with rfl | made
  · exact below
  · exact sound.fresh other made

theorem Sound.only_constructAt (sound : m.Sound trivial_) {object : ConstructedObject τ} :
    ∀ gone ∈ m.destroyed,
      gone ∈ (m.constructAt object).constructed ∧ trivial_ gone.type = false := by
  intro other gone
  obtain ⟨made, nontrivial⟩ := sound.only other gone
  exact ⟨List.mem_cons_of_mem _ made, nontrivial⟩

/-- An object whose destructor does nothing needs no callback. -/
theorem Sound.constructAt (sound : m.Sound trivial_) {address : Nat} {type : τ}
    (below : address < m.memory.fresh) (new : ∀ object ∈ m.constructed, object.address < address)
    (isTrivial : trivial_ type = true) :
    (m.constructAt ⟨ctx, address, type⟩).Sound trivial_ := by
  constructor
  case nested => exact sound.nested
  case callbacks =>
    have same : (m.constructAt ⟨ctx, address, type⟩).pending trivial_ = m.pending trivial_ := by
      apply List.filter_cons_of_neg
      simp [isTrivial]
    rw [same]
    exact sound.callbacks
  case placed => exact sound.placed
  case fresh => exact sound.fresh_constructAt below
  case distinct => exact List.nodup_cons.mpr ⟨not_constructed new, sound.distinct⟩
  case once => exact sound.once
  case only => exact sound.only_constructAt
  case defined => exact sound.defined

/-- One whose destructor does something is constructed and then registered. -/
theorem Sound.constructAt_register (sound : m.Sound trivial_) {address block : Nat} {type : τ}
    (isLive : m.memory.live ctx) (below : address < m.memory.fresh)
    (new : ∀ object ∈ m.constructed, object.address < address)
    (nontrivial : trivial_ type = false)
    (object : m.memory.chunks address = some (ctx, .object type))
    (callback : m.memory.chunks block = some (ctx, .callback)) :
    ((m.constructAt ⟨ctx, address, type⟩).register ctx ⟨block, ⟨ctx, address, type⟩⟩
      isLive).Sound trivial_ := by
  constructor
  case nested => exact sound.nested
  case callbacks =>
    have left : (⟨ctx, address, type⟩ : ConstructedObject τ) ∉ m.destroyed := by
      intro gone
      exact not_constructed new (sound.only _ gone).1
    have more : ((m.constructAt ⟨ctx, address, type⟩).register ctx ⟨block, ⟨ctx, address, type⟩⟩
        isLive).pending trivial_ = ⟨ctx, address, type⟩ :: m.pending trivial_ := by
      apply List.filter_cons_of_pos
      simp only [nontrivial, Bool.not_false, Bool.true_and, Bool.not_eq_true']
      exact decide_eq_false left
    rw [more, ← sound.callbacks]
    rfl
  case placed =>
    intro other registered
    rcases List.mem_cons.mp registered with rfl | registered
    · exact ⟨rfl, callback, object⟩
    · exact sound.placed other registered
  case fresh => exact sound.fresh_constructAt below
  case distinct => exact List.nodup_cons.mpr ⟨not_constructed new, sound.distinct⟩
  case once => exact sound.once
  case only => exact sound.only_constructAt
  case defined => exact sound.defined

/-- Whatever fails, what was constructed before stays, and what is constructed is returned. -/
theorem Sound.construct (sound : m.Sound trivial_) {type : τ} {failure : Option ConstructFailure}
    {isLive : m.memory.live ctx} {outcome : ConstructOutcome} {next : ConstructedMemory τ}
    (constructed : m.construct trivial_ ctx type failure isLive = (outcome, next)) :
    next.Sound trivial_ ∧ next.destroyed = m.destroyed ∧
      m.Constructs trivial_ next ctx type failure outcome := by
  unfold ConstructedMemory.construct at constructed
  have one := sound.alloc (.object type) isLive
  have two := one.alloc .callback isLive
  have block : (m.alloc ctx (.object type) isLive).memory.fresh = m.memory.fresh + 1 := rfl
  have object : ((m.alloc ctx (.object type) isLive).alloc ctx .callback isLive).memory.chunks
      m.memory.fresh = some (ctx, .object type) := by
    simp [ConstructedMemory.alloc, Store.alloc]
  have callback : ((m.alloc ctx (.object type) isLive).alloc ctx .callback isLive).memory.chunks
      (m.memory.fresh + 1) = some (ctx, .callback) := by
    simp [ConstructedMemory.alloc, Store.alloc]
  split at constructed
  case isTrue failed =>
    cases constructed
    subst failed
    exact ⟨sound, rfl, rfl, rfl⟩
  case isFalse allocated =>
    cases isTrivial : trivial_ type with
    | true =>
      rw [isTrivial, if_pos rfl] at constructed
      split at constructed
      case isTrue failed =>
        cases constructed
        subst failed
        exact ⟨one, rfl, rfl, rfl⟩
      case isFalse made =>
        cases constructed
        refine ⟨one.constructAt ?_ sound.fresh isTrivial, rfl,
          constructs_pointer (stepFails_eq_false allocated made (.inl isTrivial)) rfl⟩
        exact Nat.lt_succ_self _
    | false =>
      rw [isTrivial, if_neg Bool.false_ne_true] at constructed
      split at constructed
      case isTrue failed =>
        cases constructed
        subst failed
        have some_ : stepFails trivial_ type (some .callback) = true := by
          simp [stepFails, isTrivial]
        exact ⟨one, rfl, (if_pos some_).mpr ⟨rfl, rfl⟩⟩
      case isFalse registered =>
        dsimp only at constructed
        split at constructed
        case isTrue failed =>
          cases constructed
          subst failed
          exact ⟨two, rfl, rfl, rfl⟩
        case isFalse made =>
          cases constructed
          refine ⟨?_, rfl,
            constructs_pointer (stepFails_eq_false allocated made (.inr registered)) rfl⟩
          apply two.constructAt_register isLive _ sound.fresh isTrivial object callback
          exact Nat.lt_add_of_pos_right (Nat.succ_pos 1)

end Construction

/-! ## The runs -/

section Runs
variable [DecidableEq τ] {trivial_ : τ → Bool} {m next : ConstructedMemory τ}
  {action : ConstructAction τ} {outcome : ConstructOutcome}

/-- A step that is no reset and no deletion, and destroys nothing. -/
theorem Sound.right_of_quiet (sound : next.Sound trivial_)
    (other : ∀ ctx below, action ≠ .reset ctx below ∧ action ≠ .delete ctx below)
    (quiet : next.destroyed = m.destroyed)
    (returned : ∀ ctx type failure, action = .construct ctx type failure →
      m.Constructs trivial_ next ctx type failure outcome) :
    m.Right trivial_ next action outcome where
  released ctx below which := by
    rcases which with rfl | rfl
    · exact absurd rfl (other ctx below).1
    · exact absurd rfl (other ctx below).2
  quiet _ := quiet
  returned := returned
  once := sound.once
  only := sound.only
  defined := sound.defined

theorem Sound.right_of_release {ctx : Nat} {below : List Nat} {ran : List (ConstructedObject τ)}
    (sound : next.Sound trivial_) (which : action = .reset ctx below ∨ action = .delete ctx below)
    (destroys : m.Destroys trivial_ next (m.memory.covers ctx) ran) :
    m.Right trivial_ next action .done := by
  have only : ∀ other lower, action = .reset other lower ∨ action = .delete other lower →
      other = ctx := by
    intro other lower also
    rcases which with rfl | rfl
    · simp at also
      exact also.1.symm
    · simp at also
      exact also.1.symm
  constructor
  case released =>
    intro other lower also
    rw [only other lower also]
    exact ⟨ran, destroys⟩
  case quiet =>
    intro other
    rcases which with rfl | rfl
    · exact absurd rfl (other ctx below).1
    · exact absurd rfl (other ctx below).2
  case returned =>
    intro other type failure same
    rcases which with rfl | rfl
    · cases same
    · cases same
  case once => exact sound.once
  case only => exact sound.only
  case defined => exact sound.defined

theorem Sound.exec (sound : m.Sound trivial_)
    (executed : m.exec trivial_ action = some (outcome, next)) :
    next.Sound trivial_ ∧ m.Right trivial_ next action outcome := by
  cases action with
  | create parent =>
    simp only [ConstructedMemory.exec] at executed
    split at executed
    case isFalse => cases executed
    case isTrue isLive =>
      cases executed
      have later := sound.create isLive
      exact ⟨later, later.right_of_quiet (by simp) rfl (by simp)⟩
  | construct ctx type failure =>
    simp only [ConstructedMemory.exec] at executed
    split at executed
    case isFalse => cases executed
    case isTrue isLive =>
      obtain ⟨later, quiet, returned⟩ := sound.construct (Option.some.inj executed)
      refine ⟨later, later.right_of_quiet (by simp) quiet ?_⟩
      intro ctx type failure same
      cases same
      exact returned
  | reset ctx below =>
    simp only [ConstructedMemory.exec] at executed
    split at executed
    case isFalse => cases executed
    case isTrue taken =>
      cases executed
      obtain ⟨⟨ran, destroys⟩, later⟩ := sound.release taken.2 false
      exact ⟨later, later.right_of_release (.inl rfl) destroys⟩
  | delete ctx below =>
    simp only [ConstructedMemory.exec] at executed
    split at executed
    case isFalse => cases executed
    case isTrue taken =>
      cases executed
      obtain ⟨⟨ran, destroys⟩, later⟩ := sound.release taken.2 true
      exact ⟨later, later.right_of_release (.inr rfl) destroys⟩

end Runs

end ConstructedMemory
end Cppgres
