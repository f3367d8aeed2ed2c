import Mathlib.Logic.Function.Basic

/-!
# Handles that share a resource

A handle may be copied, given up, or used to spend its resource. A resource is to be spent once by
the time that no handle of it is left.
-/
namespace Shared

/-- The resource of each handle, and how often each resource was spent. Resources below `fresh` were
acquired. -/
structure Handles (ω : Type) where
  resource : ω → Option Nat
  spent : Nat → Nat
  fresh : Nat

namespace Handles
variable {ω : Type} (h : Handles ω)

/-- No resource was spent twice, and each one without a handle was spent. -/
structure Settled : Prop where
  once : ∀ r, h.spent r ≤ 1
  ended : ∀ r, r < h.fresh → (∀ this, h.resource this ≠ some r) → h.spent r = 1

/-- Handles are of resources that were acquired, and only such were spent. -/
structure Bounded : Prop where
  below : ∀ this r, h.resource this = some r → r < h.fresh
  unspent : ∀ r, h.fresh ≤ r → h.spent r = 0

/-- Where these handles are given up, each resource that is not spent keeps another. -/
def Spared (gone : List ω) : Prop :=
  ∀ this ∈ gone, ∀ r, h.resource this = some r → h.spent r = 0 →
    ∃ other, other ∉ gone ∧ h.resource other = some r

/-- Each resource has one handle, which has not spent it. -/
def Exclusive : Prop :=
  ∀ this r, h.resource this = some r → h.spent r = 0 ∧
    ∀ other, h.resource other = some r → other = this

section Operations
variable [DecidableEq ω]

def acquire (this : ω) : Handles ω :=
  { h with resource := Function.update h.resource this (some h.fresh), fresh := h.fresh + 1 }

/-- A new handle, or one that is of another resource from now on. -/
def share (this : ω) (r : Nat) : Handles ω :=
  { h with resource := Function.update h.resource this (some r) }

def leave (gone : List ω) : Handles ω :=
  { h with resource := fun this => if this ∈ gone then none else h.resource this }

end Operations

def spend (r : Nat) : Handles ω :=
  { h with spent := Function.update h.spent r (h.spent r + 1) }

variable {h} {this other : ω} {r s : Nat} {gone : List ω}

theorem Settled.held (settled : h.Settled) (below : r < h.fresh) (unspent : h.spent r = 0) :
    ∃ this, h.resource this = some r := by
  by_contra none
  have spent := settled.ended r below fun this held => none ⟨this, held⟩
  rw [unspent] at spent
  cases spent

/-- Where other handles have the resources, all is settled if and only if what is not spent still
has a handle. -/
theorem Settled.iff_held (settled : h.Settled) (bounded : h.Bounded) (resource : ω → Option Nat) :
    ({ h with resource } : Handles ω).Settled ↔
      ∀ this r, h.resource this = some r → h.spent r = 0 → ∃ other, resource other = some r := by
  constructor
  · intro after this r held unspent
    exact after.held (bounded.below this r held) unspent
  · intro held
    refine ⟨settled.once, fun r below gone => ?_⟩
    by_contra spent
    have unspent : h.spent r = 0 := by
      have once := settled.once r
      have never : h.spent r ≠ 1 := spent
      omega
    obtain ⟨this, holds⟩ := settled.held below unspent
    obtain ⟨other, holds⟩ := held this r holds unspent
    exact gone other holds

/-- A resource may be spent if it was not. -/
theorem Settled.spend_iff (settled : h.Settled) : (h.spend r).Settled ↔ h.spent r = 0 := by
  constructor
  · intro after
    have once := after.once r
    simp only [spend, Function.update_self] at once
    omega
  · intro unspent
    constructor
    · intro s
      by_cases same : s = r
      · subst same
        simp [spend, unspent]
      · simpa [spend, same] using settled.once s
    · intro s below gone
      by_cases same : s = r
      · subst same
        simp [spend, unspent]
      · simpa [spend, same] using settled.ended s below gone

/-- What the handle of a resource that was just spent leaves behind. -/
theorem spared_spend (held : h.resource this = some r) :
    (h.spend r).Spared [this] := by
  intro one listed s holds unspent
  obtain rfl := List.mem_singleton.mp listed
  have same : r = s := Option.some.inj (held.symm.trans holds)
  simp [spend, same] at unspent

theorem Bounded.spend (bounded : h.Bounded) (below : r < h.fresh) : (h.spend r).Bounded where
  below := bounded.below
  unspent s beyond := by
    have different : s ≠ r := by
      rintro rfl
      exact absurd below (Nat.not_lt.mpr beyond)
    simpa [Handles.spend, different] using bounded.unspent s beyond

section Operations
variable [DecidableEq ω]

theorem Settled.acquire (settled : h.Settled) (absent : h.resource this = none) :
    (h.acquire this).Settled := by
  refine ⟨settled.once, fun r below gone => ?_⟩
  have other : r ≠ h.fresh := by
    rintro rfl
    exact gone this (by simp [Handles.acquire])
  refine settled.ended r (by simp only [Handles.acquire] at below; omega) fun one held => ?_
  have different : one ≠ this := by
    rintro rfl
    rw [absent] at held
    cases held
  exact gone one (by simpa [Handles.acquire, different] using held)

theorem Bounded.acquire (bounded : h.Bounded) : (h.acquire this).Bounded where
  below one r held := by
    by_cases same : one = this
    · simp only [Handles.acquire, same, Function.update_self, Option.some.injEq] at held
      simp [Handles.acquire, ← held]
    · simp only [Handles.acquire, Function.update_of_ne same] at held
      exact Nat.lt_succ_of_lt (bounded.below one r held)
  unspent r beyond := bounded.unspent r (Nat.le_of_succ_le beyond)

theorem Bounded.share (bounded : h.Bounded) (below : r < h.fresh) : (h.share this r).Bounded where
  below one s holds := by
    by_cases same : one = this
    · simp only [Handles.share, same, Function.update_self, Option.some.injEq] at holds
      exact holds ▸ below
    · simp only [Handles.share, Function.update_of_ne same] at holds
      exact bounded.below one s holds
  unspent := bounded.unspent

/-- A new handle. -/
theorem Settled.share (settled : h.Settled) (bounded : h.Bounded)
    (absent : h.resource this = none) : (h.share this r).Settled := by
  refine (settled.iff_held bounded _).mpr fun one s held _ => ⟨one, ?_⟩
  have different : one ≠ this := by
    rintro rfl
    rw [absent] at held
    cases held
  rwa [Function.update_of_ne different]

/-- A handle that is of another resource from now on. -/
theorem Settled.share_iff (settled : h.Settled) (bounded : h.Bounded) :
    (h.share this r).Settled ↔ h.resource this = some r ∨ h.Spared [this] := by
  apply (settled.iff_held bounded _).trans
  constructor
  · intro held
    by_cases same : h.resource this = some r
    · exact .inl same
    · right
      intro one listed s holds unspent
      obtain rfl := List.mem_singleton.mp listed
      obtain ⟨other, after⟩ := held one s holds unspent
      have different : other ≠ one := by
        rintro rfl
        rw [Function.update_self, Option.some.injEq] at after
        exact same (after ▸ holds)
      rw [Function.update_of_ne different] at after
      exact ⟨other, by simpa using different, after⟩
  · intro either one s holds unspent
    by_cases moved : one = this
    · subst moved
      rcases either with same | spared
      · refine ⟨one, ?_⟩
        rw [Function.update_self, ← same, holds]
      · obtain ⟨other, different, after⟩ := spared one (List.mem_singleton.mpr rfl) s holds unspent
        refine ⟨other, ?_⟩
        rwa [Function.update_of_ne (by simpa using different)]
    · exact ⟨one, by rwa [Function.update_of_ne moved]⟩

theorem Bounded.leave (bounded : h.Bounded) : (h.leave gone).Bounded where
  below this r held := by
    simp only [Handles.leave] at held
    split at held
    · cases held
    · exact bounded.below this r held
  unspent := bounded.unspent

/-- Handles may be given up where what is not spent is spared. -/
theorem Settled.leave_iff (settled : h.Settled) (bounded : h.Bounded) :
    (h.leave gone).Settled ↔ h.Spared gone := by
  apply (settled.iff_held bounded _).trans
  constructor
  · intro held this _ r holds unspent
    obtain ⟨other, after⟩ := held this r holds unspent
    by_cases listed : other ∈ gone
    · rw [if_pos listed] at after
      cases after
    · rw [if_neg listed] at after
      exact ⟨other, listed, after⟩
  · intro spared this r holds unspent
    by_cases listed : this ∈ gone
    · obtain ⟨other, stays, holds⟩ := spared this listed r holds unspent
      exact ⟨other, by rwa [if_neg stays]⟩
    · exact ⟨this, by rwa [if_neg listed]⟩

/-- A resource is spent, and handles are given up. -/
theorem Settled.spend_leave_iff (settled : h.Settled) (bounded : h.Bounded)
    (below : r < h.fresh) :
    ((h.spend r).leave gone).Settled ↔ h.spent r = 0 ∧ (h.spend r).Spared gone := by
  constructor
  · intro after
    have unspent : h.spent r = 0 := settled.spend_iff.mp ⟨after.once, fun s bound none => by
      refine after.ended s bound fun this held => ?_
      simp only [leave] at held
      split at held
      · cases held
      · exact none this held⟩
    exact ⟨unspent, ((settled.spend_iff.mpr unspent).leave_iff (bounded.spend below)).mp after⟩
  · rintro ⟨unspent, spared⟩
    exact ((settled.spend_iff.mpr unspent).leave_iff (bounded.spend below)).mpr spared

theorem Exclusive.acquire (exclusive : h.Exclusive) (bounded : h.Bounded) :
    (h.acquire this).Exclusive := by
  have old : ∀ one r, one ≠ this → (h.acquire this).resource one = some r →
      h.resource one = some r ∧ r < h.fresh := by
    intro one r different held
    simp only [Handles.acquire, Function.update_of_ne different] at held
    exact ⟨held, bounded.below one r held⟩
  have new : ∀ r, (h.acquire this).resource this = some r → r = h.fresh := by
    intro r held
    simp only [Handles.acquire, Function.update_self, Option.some.injEq] at held
    exact held.symm
  intro one r held
  by_cases same : one = this
  · subst same
    obtain rfl := new r held
    refine ⟨bounded.unspent h.fresh (Nat.le_refl _), fun other also => ?_⟩
    by_contra different
    exact Nat.lt_irrefl _ (old other h.fresh different also).2
  · obtain ⟨before, below⟩ := old one r same held
    refine ⟨(exclusive one r before).1, fun other also => ?_⟩
    have different : other ≠ this := by
      rintro rfl
      exact absurd below (Nat.not_lt.mpr (Nat.le_of_eq (new r also).symm))
    exact (exclusive one r before).2 other (old other r different also).1

theorem Exclusive.spend_leave (exclusive : h.Exclusive) (held : h.resource this = some r) :
    ((h.spend r).leave [this]).Exclusive := by
  have stays : ∀ one s, ((h.spend r).leave [this]).resource one = some s →
      one ≠ this ∧ h.resource one = some s := by
    intro one s holds
    by_cases same : one = this
    · simp [leave, same] at holds
    · simp only [leave, List.mem_singleton, if_neg same] at holds
      exact ⟨same, holds⟩
  intro one s holds
  obtain ⟨different, before⟩ := stays one s holds
  have other : s ≠ r := by
    rintro rfl
    exact different ((exclusive this s held).2 one before)
  refine ⟨?_, fun also holdsAlso => (exclusive one s before).2 also (stays also s holdsAlso).2⟩
  simpa [leave, spend, other] using (exclusive one s before).1

end Operations

end Handles
end Shared
