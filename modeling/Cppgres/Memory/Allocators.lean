import Cppgres.Labelled.Runs
import Mathlib.Data.List.Nodup
import Mathlib.Logic.Function.Basic

/-!
# Allocators of containers

`memory_context_allocator` of `memory.hpp`. For `memory_context` it has a copy constructor of its own,
which does not initialise the flag `explicit_deallocation`; for another class of contexts copies are the
implicit ones. Containers copy an allocator and deallocate through any of the copies.
-/
namespace Cppgres
open Labelled

/-- The parameter `Context` of an allocator. -/
inductive AllocatorContextClass where
  | memoryContext
  | alwaysCurrentMemoryContext
  deriving DecidableEq, Repr

inductive AllocatorContext where
  | memoryContext (context : Nat)
  | alwaysCurrentMemoryContext
  deriving DecidableEq, Repr

namespace AllocatorContext

/-- `Context()` -/
def default_ (currentMemoryContext : Nat) : AllocatorContextClass → AllocatorContext
  | .memoryContext => .memoryContext currentMemoryContext
  | .alwaysCurrentMemoryContext => .alwaysCurrentMemoryContext

/-- `_memory_context()` -/
def memoryContext_ (currentMemoryContext : Nat) : AllocatorContext → Nat
  | .memoryContext context => context
  | .alwaysCurrentMemoryContext => currentMemoryContext

end AllocatorContext

structure MemoryContextAllocator where
  context : AllocatorContext
  explicitDeallocation : Bool
  deriving DecidableEq, Repr

/-- How an allocator is made that is no copy. -/
inductive AllocatorOrigin where
  | byDefault (class_ : AllocatorContextClass)
  | ofContext (ctx : AllocatorContext) (explicitDeallocation : Bool)
  deriving DecidableEq, Repr

namespace MemoryContextAllocator

def construct (currentMemoryContext : Nat) : AllocatorOrigin → MemoryContextAllocator
  | .byDefault class_ => ⟨.default_ currentMemoryContext class_, false⟩
  | .ofContext ctx explicitDeallocation => ⟨ctx, explicitDeallocation⟩

/-- The copy constructor. `indeterminate` is what is in the place of the flag. -/
def copy (c : MemoryContextAllocator) (indeterminate : Bool) : MemoryContextAllocator :=
  match c.context with
  | .memoryContext context => ⟨.memoryContext context, indeterminate⟩
  | .alwaysCurrentMemoryContext => c

/-- `operator==` -/
def equals (this c : MemoryContextAllocator) (currentMemoryContext : Nat) : Bool :=
  this.context.memoryContext_ currentMemoryContext == c.context.memoryContext_ currentMemoryContext

end MemoryContextAllocator

/-- `sizeof(T) * n` bytes of a context. -/
structure AllocatorChunk where
  context : Nat
  bytes : BitVec 64
  deriving DecidableEq, Repr

/-- An allocator with its copies, and the memory that was allocated through them. `handed` are the
chunks that were not deallocated yet. -/
structure AllocatorCopies (ω : Type) where
  currentMemoryContext : Nat
  topMemoryContext : Nat
  allocators : ω → Option MemoryContextAllocator
  memory : Nat → Option AllocatorChunk
  handed : List Nat
  fresh : Nat

inductive AllocatorAction (ω : Type) where
  | switchTo (ctx : Nat)
  | copy (this c : ω) (indeterminate : Bool)
  | allocate (this : ω) (n : BitVec 64) (fails : Bool)
  | deallocate (this : ω) (p : Nat)
  deriving DecidableEq, Repr

inductive AllocatorOutcome where
  | done
  | pointer (p : Nat)
  | badAlloc
  deriving DecidableEq, Repr

variable {ω : Type}

namespace AllocatorCopies

def start [DecidableEq ω] (origin : AllocatorOrigin) (a : ω)
    (currentMemoryContext topMemoryContext : Nat) : AllocatorCopies ω where
  currentMemoryContext := currentMemoryContext
  topMemoryContext := topMemoryContext
  allocators := Function.update (fun _ => none) a (some (.construct currentMemoryContext origin))
  memory _ := none
  handed := []
  fresh := 0

section Operations
variable (m : AllocatorCopies ω) (sizeofT : BitVec 64)

/-- The context that an allocator allocates in. -/
def contextOf (allocator : MemoryContextAllocator) : Nat :=
  allocator.context.memoryContext_ m.currentMemoryContext

/-- An error of Postgres becomes `std::bad_alloc`. -/
def allocate (allocator : MemoryContextAllocator) (n : BitVec 64) (fails : Bool) :
    AllocatorOutcome × AllocatorCopies ω :=
  if fails then (.badAlloc, m)
  else (.pointer m.fresh,
    { m with
      memory := Function.update m.memory m.fresh (some ⟨m.contextOf allocator, sizeofT * n⟩)
      handed := m.fresh :: m.handed
      fresh := m.fresh + 1 })

def pfree (p : Nat) : AllocatorCopies ω := { m with memory := Function.update m.memory p none }

def deallocate (allocator : MemoryContextAllocator) (p : Nat) : AllocatorCopies ω :=
  let m := { m with handed := m.handed.erase p }
  if allocator.explicitDeallocation || m.contextOf allocator == m.topMemoryContext then m.pfree p
  else m

/-- What a container does. A chunk is deallocated once, and copies have names of their own. -/
def exec [DecidableEq ω] : AllocatorAction ω → Option (AllocatorOutcome × AllocatorCopies ω)
  | .switchTo ctx => some (.done, { m with currentMemoryContext := ctx })
  | .copy this c indeterminate =>
    match m.allocators this, m.allocators c with
    | none, some c =>
      some (.done,
        { m with allocators := Function.update m.allocators this (some (c.copy indeterminate)) })
    | _, _ => none
  | .allocate this n fails => (m.allocators this).map fun this => m.allocate sizeofT this n fails
  | .deallocate this p =>
    if p ∈ m.handed then (m.allocators this).map fun this => (.done, m.deallocate this p) else none

end Operations

def step [DecidableEq ω] (sizeofT : BitVec 64) (m : AllocatorCopies ω)
    (action : AllocatorAction ω) : Option (AllocatorCopies ω) :=
  (m.exec sizeofT action).map Prod.snd

end AllocatorCopies

namespace AllocatorOrigin

/-- `explicit_deallocation` was asked for. -/
def requested : AllocatorOrigin → Bool
  | .byDefault _ => false
  | .ofContext _ explicitDeallocation => explicitDeallocation

end AllocatorOrigin

/-- The original and its copies can stand for one another. -/
structure Interchangeable (origin : AllocatorOrigin) (original : MemoryContextAllocator)
    (before : AllocatorCopies ω) (action : AllocatorAction ω) (after : AllocatorCopies ω) : Prop where
  equal : ∀ b allocator, after.allocators b = some allocator →
    allocator.equals original after.currentMemoryContext = true
  freeable : ∀ p ∈ after.handed, (after.memory p).isSome
  policy : ∀ this p, action = .deallocate this p →
    (after.memory p = none ↔
      origin.requested = true ∨ before.contextOf original = before.topMemoryContext)
  others : ∀ this p, action = .deallocate this p →
    ∀ other, other ≠ p → after.memory other = before.memory other

/-- The flag of the allocator that deallocates is the one that was asked for, or it is not looked at. -/
def FlagAsRequested (origin : AllocatorOrigin) (original : MemoryContextAllocator)
    (m : AllocatorCopies ω) : AllocatorAction ω → Prop
  | .deallocate this _ => ∀ allocator, m.allocators this = some allocator →
    allocator.explicitDeallocation = origin.requested ∨
      m.contextOf original = m.topMemoryContext
  | _ => True

/-! ## Runs -/

section Runs
variable {origin : AllocatorOrigin} {original allocator : MemoryContextAllocator}
  {m t : AllocatorCopies ω} {sizeofT : BitVec 64} {action : AllocatorAction ω}
  {outcome : AllocatorOutcome}

/-- Every copy has the context of the original, and what the containers hold is there. -/
structure CopiesInv (original : MemoryContextAllocator) (m : AllocatorCopies ω) : Prop where
  context : ∀ b allocator, m.allocators b = some allocator → allocator.context = original.context
  freeable : ∀ p ∈ m.handed, (m.memory p).isSome
  nodup : m.handed.Nodup
  fresh : ∀ p ∈ m.handed, p < m.fresh

theorem CopiesInv.equal (inv : CopiesInv original m) {b : ω} (found : m.allocators b = some allocator) :
    allocator.equals original m.currentMemoryContext = true := by
  unfold MemoryContextAllocator.equals
  rw [inv.context b allocator found]
  exact beq_self_eq_true _

theorem CopiesInv.contextOf (inv : CopiesInv original m) {b : ω}
    (found : m.allocators b = some allocator) : m.contextOf allocator = m.contextOf original := by
  unfold AllocatorCopies.contextOf
  rw [inv.context b allocator found]

@[simp] theorem MemoryContextAllocator.copy_context (c : MemoryContextAllocator)
    (indeterminate : Bool) : (c.copy indeterminate).context = c.context := by
  obtain ⟨context, explicitDeallocation⟩ := c
  cases context <;> rfl

theorem CopiesInv.start [DecidableEq ω] (a : ω) (currentMemoryContext topMemoryContext : Nat) :
    CopiesInv (.construct currentMemoryContext origin)
      (AllocatorCopies.start origin a currentMemoryContext topMemoryContext) where
  context b allocator found := by
    unfold AllocatorCopies.start at found
    dsimp only at found
    rw [Function.update_apply] at found
    split at found
    · cases found
      rfl
    · cases found
  freeable _ member := nomatch member
  nodup := List.nodup_nil
  fresh _ member := nomatch member

theorem CopiesInv.copy [DecidableEq ω] (inv : CopiesInv original m) (this : ω) {c : ω}
    (indeterminate : Bool) (found : m.allocators c = some allocator) :
    CopiesInv original { m with
      allocators := Function.update m.allocators this (some (allocator.copy indeterminate)) } where
  context b other there := by
    dsimp only at there
    rw [Function.update_apply] at there
    split at there
    · cases there
      rw [MemoryContextAllocator.copy_context]
      exact inv.context c allocator found
    · exact inv.context b other there
  freeable := inv.freeable
  nodup := inv.nodup
  fresh := inv.fresh

theorem CopiesInv.allocate (inv : CopiesInv original m) (sizeofT : BitVec 64)
    (allocator : MemoryContextAllocator) (n : BitVec 64) (fails : Bool) :
    CopiesInv original (m.allocate sizeofT allocator n fails).2 := by
  unfold AllocatorCopies.allocate
  cases fails with
  | true => exact inv
  | false =>
    refine ⟨inv.context, ?_, ?_, ?_⟩
    · intro p member
      rw [if_neg Bool.false_ne_true] at member ⊢
      dsimp only at member ⊢
      rw [Function.update_apply]
      split
      · rfl
      · rename_i different
        exact inv.freeable p ((List.mem_cons.mp member).resolve_left different)
    · refine List.nodup_cons.mpr ⟨?_, inv.nodup⟩
      intro member
      exact absurd (inv.fresh _ member) (Nat.lt_irrefl _)
    · intro p member
      cases List.mem_cons.mp member with
      | inl same => exact same ▸ Nat.lt_succ_self _
      | inr old => exact Nat.lt_succ_of_lt (inv.fresh p old)

/-- A chunk that goes back is gone if the flag of the allocator is set or its context is the topmost
one. -/
theorem AllocatorCopies.deallocate_memory (allocator : MemoryContextAllocator) {p : Nat}
    (there : (m.memory p).isSome) :
    (m.deallocate allocator p).memory p = none ↔
      allocator.explicitDeallocation = true ∨ m.contextOf allocator = m.topMemoryContext := by
  have same : ({ m with handed := m.handed.erase p } : AllocatorCopies ω).contextOf allocator =
      m.contextOf allocator := rfl
  unfold deallocate
  simp only [same, Bool.or_eq_true, beq_iff_eq]
  split
  · rename_i frees
    apply iff_of_true _ frees
    exact Function.update_self p none m.memory
  · rename_i keeps
    refine iff_of_false ?_ keeps
    intro gone
    dsimp only at gone
    rw [gone] at there
    cases there

theorem AllocatorCopies.deallocate_other (allocator : MemoryContextAllocator) {p other : Nat}
    (different : other ≠ p) : (m.deallocate allocator p).memory other = m.memory other := by
  unfold deallocate
  dsimp only
  split
  · exact Function.update_of_ne different none m.memory
  · rfl

@[simp] theorem AllocatorCopies.deallocate_handed (allocator : MemoryContextAllocator) (p : Nat) :
    (m.deallocate allocator p).handed = m.handed.erase p := by
  unfold deallocate
  dsimp only
  split <;> rfl

@[simp] theorem AllocatorCopies.deallocate_allocators (allocator : MemoryContextAllocator) (p : Nat) :
    (m.deallocate allocator p).allocators = m.allocators := by
  unfold deallocate
  dsimp only
  split <;> rfl

@[simp] theorem AllocatorCopies.deallocate_fresh (allocator : MemoryContextAllocator) (p : Nat) :
    (m.deallocate allocator p).fresh = m.fresh := by
  unfold deallocate
  dsimp only
  split <;> rfl

theorem CopiesInv.deallocate (inv : CopiesInv original m) (allocator : MemoryContextAllocator)
    (p : Nat) :
    CopiesInv original (m.deallocate allocator p) where
  context := by
    rw [AllocatorCopies.deallocate_allocators]
    exact inv.context
  freeable other member := by
    rw [AllocatorCopies.deallocate_handed] at member
    have different : other ≠ p := (inv.nodup.mem_erase_iff.mp member).1
    rw [AllocatorCopies.deallocate_other allocator different]
    exact inv.freeable other (List.mem_of_mem_erase member)
  nodup := by
    rw [AllocatorCopies.deallocate_handed]
    exact inv.nodup.erase p
  fresh other member := by
    rw [AllocatorCopies.deallocate_handed] at member
    rw [AllocatorCopies.deallocate_fresh]
    exact inv.fresh other (List.mem_of_mem_erase member)

/-- A step that deallocates nothing is right. -/
theorem CopiesInv.interchangeable (inv : CopiesInv original t)
    (other : ∀ this p, action ≠ .deallocate this p) :
    Interchangeable origin original m action t where
  equal _ _ found := inv.equal found
  freeable := inv.freeable
  policy this p same := absurd same (other this p)
  others this p same := absurd same (other this p)

/-- What a step comes to: the copies stay what they are, and the step is right if and only if the flag
that decides is the one that was asked for. -/
theorem CopiesInv.exec [DecidableEq ω] (inv : CopiesInv original m)
    (executed : m.exec sizeofT action = some (outcome, t)) :
    CopiesInv original t ∧
      (Interchangeable origin original m action t ↔ FlagAsRequested origin original m action) := by
  cases action with
  | switchTo ctx =>
    cases executed
    have after : CopiesInv original { m with currentMemoryContext := ctx } :=
      ⟨inv.context, inv.freeable, inv.nodup, inv.fresh⟩
    exact ⟨after, iff_of_true (after.interchangeable nofun) trivial⟩
  | copy this c indeterminate =>
    unfold AllocatorCopies.exec at executed
    dsimp only at executed
    split at executed
    · rename_i _ found
      cases executed
      have after := inv.copy this indeterminate found
      exact ⟨after, iff_of_true (after.interchangeable nofun) trivial⟩
    · cases executed
  | allocate this n fails =>
    obtain ⟨allocator, _, made⟩ := Option.map_eq_some_iff.mp executed
    have after := inv.allocate sizeofT allocator n fails
    rw [made] at after
    exact ⟨after, iff_of_true (after.interchangeable nofun) trivial⟩
  | deallocate this p =>
    unfold AllocatorCopies.exec at executed
    dsimp only at executed
    split at executed
    · rename_i handed
      obtain ⟨allocator, found, made⟩ := Option.map_eq_some_iff.mp executed
      cases made
      have after := inv.deallocate allocator p
      have gone := AllocatorCopies.deallocate_memory allocator (inv.freeable p handed)
      rw [inv.contextOf found] at gone
      refine ⟨after, ?_⟩
      constructor
      · intro right other there
        cases found.symm.trans there
        have policy := right.policy this p rfl
        rw [gone] at policy
        by_cases topmost : m.contextOf original = m.topMemoryContext
        · exact .inr topmost
        · left
          simpa [topmost] using policy
      · intro flag
        refine ⟨fun _ _ there => after.equal there, after.freeable, ?_, ?_⟩
        · intro other q same
          cases same
          rw [gone]
          cases flag allocator found with
          | inl asked => rw [asked]
          | inr topmost => simp [topmost]
        · intro other q same rest different
          cases same
          exact AllocatorCopies.deallocate_other allocator different
    · cases executed

end Runs

/-- Along every run of an allocator and its copies: all steps are right if and only if whatever
deallocates a chunk has the flag that was asked for, or the context is the topmost one. -/
theorem AllocatorCopies.interchangeable_iff [DecidableEq ω] (origin : AllocatorOrigin) (a : ω)
    (currentMemoryContext topMemoryContext : Nat) (sizeofT : BitVec 64)
    (actions : List (AllocatorAction ω)) :
    Meets (step sizeofT)
        (fun m action => ∀ outcome t, m.exec sizeofT action = some (outcome, t) →
          Interchangeable origin (.construct currentMemoryContext origin) m action t)
        (start origin a currentMemoryContext topMemoryContext) actions ↔
      Meets (step sizeofT) (FlagAsRequested origin (.construct currentMemoryContext origin))
        (start origin a currentMemoryContext topMemoryContext) actions :=
  meets_done_iff
    (fun _ _ _ _ inv executed => (inv.exec executed).imp_left fun after _ => after)
    (CopiesInv.start a currentMemoryContext topMemoryContext)

/-- A copy for a container, which allocates and deallocates through it. -/
def containerActions (indeterminate : Bool) : List (AllocatorAction Nat) :=
  [.copy 1 0 indeterminate, .allocate 1 4 false, .deallocate 1 0]

/-- The container does not give back what it was asked to, or gives back what it was not asked to. -/
theorem AllocatorCopies.copied_flag_wrong :
    ¬ Meets (step 8)
        (fun m action => ∀ outcome t, m.exec 8 action = some (outcome, t) →
          Interchangeable (.ofContext (.memoryContext 5) true) ⟨.memoryContext 5, true⟩ m action t)
        (start (.ofContext (.memoryContext 5) true) 0 1 0) (containerActions false) ∧
      ¬ Meets (step 8)
        (fun m action => ∀ outcome t, m.exec 8 action = some (outcome, t) →
          Interchangeable (.byDefault .memoryContext) ⟨.memoryContext 1, false⟩ m action t)
        (start (.byDefault .memoryContext) 0 1 0) (containerActions true) := by
  constructor
  · intro meets
    have policy := ((((meets _ rfl).2 _ rfl).2 _ rfl).1 _ _ rfl).policy 1 0 rfl
    cases policy.mpr (.inl rfl)
  · intro meets
    have policy := ((((meets _ rfl).2 _ rfl).2 _ rfl).1 _ _ rfl).policy 1 0 rfl
    cases policy.mp rfl with
    | inl asked => cases asked
    | inr topmost => cases topmost

end Cppgres
