import Mathlib.Data.Option.Basic
import Mathlib.Data.List.Basic

/-!
# Memory in a tree of regions

Memory is allocated in regions, which form a tree. Callbacks are registered on a region and
run, once each, when it or one of its ancestors is reset or deleted.
-/
namespace Regions

/-- `regions` has the ancestors of each live region, its parent first; `callbacks` come
with their region, the one registered last first; `chunks` are the live pieces of memory,
with their region and what they hold. No region and no chunk was numbered `fresh` or
above. -/
structure Store (κ α : Type) where
  regions : Nat → Option (List Nat)
  callbacks : List (Nat × κ)
  chunks : Nat → Option (Nat × α)
  fresh : Nat
  regions_fresh : ∀ region, fresh ≤ region → regions region = none
  chunks_fresh : ∀ address, fresh ≤ address → chunks address = none
  callbacks_live : ∀ callback ∈ callbacks, (regions callback.1).isSome
  chunks_live : ∀ address chunk, chunks address = some chunk → (regions chunk.1).isSome

namespace Store
variable {κ α : Type}

def empty : Store κ α where
  regions _ := none
  callbacks := []
  chunks _ := none
  fresh := 0
  regions_fresh := by simp
  chunks_fresh := by simp
  callbacks_live := by simp
  chunks_live := by simp

section Operations
variable (s : Store κ α)

def live (region : Nat) : Bool := (s.regions region).isSome

/-- Whether resetting `region` frees the memory of `other`. -/
def covers (region other : Nat) : Bool :=
  (s.regions other).any fun ancestors => other == region || ancestors.contains region

/-- A new region below `parent`. -/
def create (parent : Option Nat) : Store κ α where
  regions other := if other = s.fresh
    then some (parent.elim [] fun above => above :: (s.regions above).getD []) else s.regions other
  callbacks := s.callbacks
  chunks := s.chunks
  fresh := s.fresh + 1
  regions_fresh other above := by
    rw [if_neg (by omega)]
    exact s.regions_fresh other (by omega)
  chunks_fresh address above := s.chunks_fresh address (by omega)
  callbacks_live callback registered := by
    split
    · rfl
    · exact s.callbacks_live callback registered
  chunks_live address chunk found := by
    split
    · rfl
    · exact s.chunks_live address chunk found

/-- A new piece of memory of a live region. -/
def alloc (region : Nat) (contents : α) (isLive : s.live region) : Store κ α where
  regions := s.regions
  callbacks := s.callbacks
  chunks address := if address = s.fresh then some (region, contents) else s.chunks address
  fresh := s.fresh + 1
  regions_fresh other above := s.regions_fresh other (by omega)
  chunks_fresh address above := by
    rw [if_neg (by omega)]
    exact s.chunks_fresh address (by omega)
  callbacks_live := s.callbacks_live
  chunks_live address chunk found := by
    split at found
    · cases found
      exact isLive
    · exact s.chunks_live address chunk found

def register (region : Nat) (callback : κ) (isLive : s.live region) : Store κ α where
  regions := s.regions
  callbacks := (region, callback) :: s.callbacks
  chunks := s.chunks
  fresh := s.fresh
  regions_fresh := s.regions_fresh
  chunks_fresh := s.chunks_fresh
  callbacks_live other registered := by
    cases List.mem_cons.mp registered with
    | inl same => rw [same]; exact isLive
    | inr registered => exact s.callbacks_live other registered
  chunks_live := s.chunks_live

/-- Writing to the registered callbacks. -/
def updateCallbacks (f : κ → κ) : Store κ α where
  regions := s.regions
  callbacks := s.callbacks.map fun callback => (callback.1, f callback.2)
  chunks := s.chunks
  fresh := s.fresh
  regions_fresh := s.regions_fresh
  chunks_fresh := s.chunks_fresh
  callbacks_live other registered := by
    obtain ⟨callback, registered, same⟩ := List.mem_map.mp registered
    rw [← same]
    exact s.callbacks_live callback registered
  chunks_live := s.chunks_live

/-- The callbacks that a reset of `region` is to run, in their order: the descendants go
first. -/
def due (region : Nat) : List κ :=
  ((s.callbacks.filter fun callback => callback.1 != region && s.covers region callback.1) ++
    s.callbacks.filter fun callback => callback.1 == region).map Prod.snd

/-- What a reset of `region` leaves, and what its deletion leaves: the descendants are
deleted, the memory and the callbacks are gone. -/
def release (region : Nat) (delete : Bool) : Store κ α where
  regions other := if s.covers region other && (delete || other != region) then none
    else s.regions other
  callbacks := s.callbacks.filter fun callback => !s.covers region callback.1
  chunks address := (s.chunks address).filter fun chunk => !s.covers region chunk.1
  fresh := s.fresh
  regions_fresh other above := by
    rw [s.regions_fresh other above]
    simp
  chunks_fresh address above := by
    rw [s.chunks_fresh address above]
    simp
  callbacks_live callback registered := by
    obtain ⟨registered, outside⟩ := List.mem_filter.mp registered
    rw [if_neg (by simp only [Bool.not_eq_true'] at outside; simp [outside])]
    exact s.callbacks_live callback registered
  chunks_live address chunk found := by
    obtain ⟨found, outside⟩ := Option.filter_eq_some_iff.mp found
    rw [if_neg (by simp only [Bool.not_eq_true'] at outside; simp [outside])]
    exact s.chunks_live address chunk found

/-- `region`, with what is below it, goes below `parent`. -/
def reparent (region parent : Nat) : Store κ α where
  regions other := (s.regions other).map fun ancestors =>
    let above := parent :: (s.regions parent).getD []
    if other = region then above
    else if region ∈ ancestors then ancestors.takeWhile (· != region) ++ region :: above
    else ancestors
  callbacks := s.callbacks
  chunks := s.chunks
  fresh := s.fresh
  regions_fresh other above := by
    rw [s.regions_fresh other above]
    rfl
  chunks_fresh := s.chunks_fresh
  callbacks_live callback registered := by
    rw [Option.isSome_map]
    exact s.callbacks_live callback registered
  chunks_live address chunk found := by
    rw [Option.isSome_map]
    exact s.chunks_live address chunk found

end Operations

variable {s : Store κ α} {region other address : Nat}

theorem covers_self (isLive : s.live region) : s.covers region region := by
  unfold live at isLive
  unfold covers
  cases found : s.regions region with
  | none => simp [found] at isLive
  | some ancestors => simp

theorem covers_iff {ancestors : List Nat} (found : s.regions other = some ancestors) :
    s.covers region other ↔ other = region ∨ region ∈ ancestors := by
  simp [covers, found]

theorem lt_fresh {ancestors : List Nat} (found : s.regions region = some ancestors) :
    region < s.fresh := by
  by_contra above
  rw [s.regions_fresh region (by omega)] at found
  cases found

theorem regions_create_of_some {parent : Option Nat} {ancestors : List Nat}
    (found : s.regions region = some ancestors) :
    (s.create parent).regions region = some ancestors := by
  have below := lt_fresh found
  simp only [create]
  rw [if_neg (by omega), found]

theorem region_of_chunk {chunk : Nat × α} (found : s.chunks address = some chunk) :
    ∃ ancestors, s.regions chunk.1 = some ancestors :=
  Option.isSome_iff_exists.mp (s.chunks_live address chunk found)

theorem regions_delete_eq_some {ancestors : List Nat} :
    (s.release region true).regions other = some ancestors ↔
      s.regions other = some ancestors ∧ s.covers region other = false := by
  cases covered : s.covers region other <;> simp [release, covered]

theorem mem_due {callback : κ} :
    callback ∈ s.due region ↔
      ∃ owner, s.covers region owner ∧ (owner, callback) ∈ s.callbacks := by
  simp only [due, List.mem_map, List.mem_append, List.mem_filter, Bool.and_eq_true, bne_iff_ne,
    beq_iff_eq]
  constructor
  · intro listed
    obtain ⟨⟨owner, found⟩, ⟨registered, _, covered⟩ | ⟨registered, same⟩, rfl⟩ := listed
    · exact ⟨owner, covered, registered⟩
    · refine ⟨owner, ?_, registered⟩
      have isLive : s.live owner := s.callbacks_live _ registered
      rw [← same]
      exact covers_self isLive
  · intro registered
    obtain ⟨owner, covered, registered⟩ := registered
    by_cases same : owner = region
    · exact ⟨(owner, callback), .inr ⟨registered, same⟩, rfl⟩
    · exact ⟨(owner, callback), .inl ⟨registered, same, covered⟩, rfl⟩

@[simp] theorem live_alloc {contents : α} {isLive : s.live region} :
    (s.alloc region contents isLive).live other = s.live other := rfl

@[simp] theorem callbacks_register {callback : κ} {isLive : s.live region} :
    (s.register region callback isLive).callbacks = (region, callback) :: s.callbacks := rfl

theorem mem_callbacks_release {delete : Bool} {callback : Nat × κ} :
    callback ∈ (s.release region delete).callbacks ↔
      callback ∈ s.callbacks ∧ s.covers region callback.1 = false := by
  simp [release]

theorem chunks_release_eq_some {delete : Bool} {chunk : Nat × α} :
    (s.release region delete).chunks address = some chunk ↔
      s.chunks address = some chunk ∧ s.covers region chunk.1 = false := by
  simp [release, Option.filter_eq_some_iff]

end Store
end Regions
