import Mathlib.Logic.Function.Basic
import Mathlib.Data.List.Nodup

/-!
# Titles to resources

A resource has one holder from the time that it is acquired, who may pass it on, until it is disposed
of or released.
-/
namespace Shared

/-- What each holder holds, and what was disposed of and released, latest first. Resources below
`fresh` were acquired. -/
structure Titles (ω : Type) where
  resource : ω → Option Nat
  disposed : List Nat
  released : List Nat
  fresh : Nat

namespace Titles
variable {ω : Type} (t : Titles ω)

/-- Each resource that was neither disposed of nor released has one holder, and none was disposed of
twice, or both. -/
structure Kept : Prop where
  one : ∀ r < t.fresh, r ∉ t.disposed → r ∉ t.released →
    ∃ this, t.resource this = some r ∧ ∀ other, t.resource other = some r → other = this
  held : ∀ this r, t.resource this = some r → r < t.fresh ∧ r ∉ t.disposed ∧ r ∉ t.released
  known : ∀ r, r ∈ t.disposed ∨ r ∈ t.released → r < t.fresh
  once : t.disposed.Nodup
  never : ∀ r ∈ t.released, r ∉ t.disposed

def empty : Titles ω := ⟨fun _ => none, [], [], 0⟩

section Operations
variable [DecidableEq ω] (this other : ω)

def acquire : Titles ω :=
  { t with resource := Function.update t.resource this (some t.fresh), fresh := t.fresh + 1 }

/-- What `other` holds goes to `this`. -/
def transfer : Titles ω :=
  { t with
    resource := Function.update (Function.update t.resource this (t.resource other)) other none }

/-- What `this` holds, if it holds something, is disposed of. -/
def dispose : Titles ω :=
  { t with
    resource := Function.update t.resource this none
    disposed := (t.resource this).toList ++ t.disposed }

def release : Titles ω :=
  { t with
    resource := Function.update t.resource this none
    released := (t.resource this).toList ++ t.released }

end Operations

variable {t : Titles ω} {this other : ω} {r : Nat}

theorem kept_empty : (empty : Titles ω).Kept where
  one r below := absurd below (Nat.not_lt_zero r)
  held _ _ holds := by cases holds
  known r listed := by simp [empty] at listed
  once := List.nodup_nil
  never _ listed := absurd listed List.not_mem_nil

theorem Kept.unique (kept : t.Kept) (here : t.resource this = some r)
    (there : t.resource other = some r) : other = this := by
  obtain ⟨below, undisposed, unreleased⟩ := kept.held this r here
  obtain ⟨holder, _, only⟩ := kept.one r below undisposed unreleased
  rw [only this here, only other there]

variable [DecidableEq ω]

theorem Kept.acquire (kept : t.Kept) (nothing : t.resource this = none) :
    (t.acquire this).Kept := by
  have listed : ∀ r, r ∈ t.disposed ∨ r ∈ t.released → r ≠ t.fresh := by
    intro r listed same
    exact Nat.lt_irrefl _ (same ▸ kept.known r listed)
  have old : ∀ holder r, holder ≠ this → (t.acquire this).resource holder = some r →
      t.resource holder = some r := by
    intro holder r different holds
    simpa [Titles.acquire, different] using holds
  have new : ∀ r, (t.acquire this).resource this = some r → r = t.fresh := by
    intro r holds
    simp only [Titles.acquire, Function.update_self, Option.some.injEq] at holds
    exact holds.symm
  constructor
  case one =>
    intro r below undisposed unreleased
    by_cases same : r = t.fresh
    · refine ⟨this, ?_, fun holder holds => ?_⟩
      · simp [Titles.acquire, same]
      · by_contra different
        have before := (kept.held holder r (old holder r different holds)).1
        omega
    · have before : r < t.fresh := by
        simp only [Titles.acquire] at below
        omega
      obtain ⟨holder, holds, only⟩ := kept.one r before undisposed unreleased
      have different : holder ≠ this := by
        intro equal
        rw [equal, nothing] at holds
        cases holds
      refine ⟨holder, ?_, fun other also => ?_⟩
      · simpa [Titles.acquire, different] using holds
      · by_cases equal : other = this
        · subst equal
          exact absurd (new r also) same
        · exact only other (old other r equal also)
  case held =>
    intro holder r holds
    by_cases equal : holder = this
    · subst equal
      obtain rfl := new r holds
      refine ⟨Nat.lt_succ_self _, fun gone => ?_, fun gone => ?_⟩
      · exact listed t.fresh (.inl gone) rfl
      · exact listed t.fresh (.inr gone) rfl
    · obtain ⟨below, rest⟩ := kept.held holder r (old holder r equal holds)
      exact ⟨Nat.lt_succ_of_lt below, rest⟩
  case known => exact fun r listed => Nat.lt_succ_of_lt (kept.known r listed)
  case once => exact kept.once
  case never => exact kept.never

theorem resource_transfer (different : this ≠ other) (holder : ω) :
    (t.transfer this other).resource holder =
      if holder = other then none
      else if holder = this then t.resource other else t.resource holder := by
  unfold transfer
  by_cases one : holder = other
  · simp [one]
  · by_cases two : holder = this
    · simp [two, different]
    · simp [one, two]

/-- Where one who holds nothing takes over from another. -/
theorem Kept.transfer (kept : t.Kept) (different : this ≠ other)
    (nothing : t.resource this = none) : (t.transfer this other).Kept := by
  have before : ∀ holder r, (t.transfer this other).resource holder = some r →
      holder ≠ other ∧
        ((holder = this ∧ t.resource other = some r) ∨
          (holder ≠ this ∧ t.resource holder = some r)) := by
    intro holder r holds
    rw [resource_transfer different] at holds
    split at holds
    case isTrue => cases holds
    case isFalse one =>
      split at holds
      case isTrue two => exact ⟨one, .inl ⟨two, holds⟩⟩
      case isFalse two => exact ⟨one, .inr ⟨two, holds⟩⟩
  constructor
  case one =>
    intro r below undisposed unreleased
    obtain ⟨holder, holds, only⟩ := kept.one r below undisposed unreleased
    by_cases passed : holder = other
    · subst passed
      refine ⟨this, ?_, fun one also => ?_⟩
      · rw [resource_transfer different, if_neg different, if_pos rfl, holds]
      · obtain ⟨stays, ⟨same, _⟩ | ⟨_, also⟩⟩ := before one r also
        · exact same
        · exact absurd (only one also) stays
    · have stays : holder ≠ this := by
        intro same
        rw [same, nothing] at holds
        cases holds
      refine ⟨holder, ?_, fun one also => ?_⟩
      · rw [resource_transfer different, if_neg passed, if_neg stays, holds]
      · obtain ⟨_, ⟨_, also⟩ | ⟨_, also⟩⟩ := before one r also
        · exact absurd (only other also).symm passed
        · exact only one also
  case held =>
    intro holder r holds
    obtain ⟨_, ⟨_, held⟩ | ⟨_, held⟩⟩ := before holder r holds
    · exact kept.held other r held
    · exact kept.held holder r held
  case known => exact kept.known
  case once => exact kept.once
  case never => exact kept.never

/-- Where a holder is left without what it held, and that is listed as gone. -/
theorem Kept.leave (kept : t.Kept) {disposed released : List Nat}
    (gone : ∀ r, r ∈ disposed ∨ r ∈ released ↔
      r ∈ t.disposed ∨ r ∈ t.released ∨ t.resource this = some r)
    (once : disposed.Nodup) (never : ∀ r ∈ released, r ∉ disposed) :
    ({ t with resource := Function.update t.resource this none, disposed, released } :
      Titles ω).Kept := by
  have before : ∀ holder r, Function.update t.resource this none holder = some r →
      holder ≠ this ∧ t.resource holder = some r := by
    intro holder r holds
    by_cases same : holder = this
    · simp [same] at holds
    · exact ⟨same, by rwa [Function.update_of_ne same] at holds⟩
  constructor
  case one =>
    intro r below undisposed unreleased
    have left : ¬ (r ∈ t.disposed ∨ r ∈ t.released ∨ t.resource this = some r) := by
      rw [← gone r, not_or]
      exact ⟨undisposed, unreleased⟩
    simp only [not_or] at left
    obtain ⟨holder, holds, only⟩ := kept.one r below left.1 left.2.1
    have different : holder ≠ this := by
      intro same
      exact left.2.2 (same ▸ holds)
    refine ⟨holder, ?_, fun other also => only other (before other r also).2⟩
    simpa [different] using holds
  case held =>
    intro holder r holds
    obtain ⟨different, held⟩ := before holder r holds
    obtain ⟨below, undisposed, unreleased⟩ := kept.held holder r held
    have stays : ¬ (r ∈ disposed ∨ r ∈ released) := by
      rw [gone r]
      rintro (listed | listed | also)
      · exact undisposed listed
      · exact unreleased listed
      · exact different (kept.unique also held)
    rw [not_or] at stays
    exact ⟨below, stays.1, stays.2⟩
  case known =>
    intro r listed
    rcases (gone r).mp listed with listed | listed | holds
    · exact kept.known r (.inl listed)
    · exact kept.known r (.inr listed)
    · exact (kept.held this r holds).1
  case once => exact once
  case never => exact never

theorem Kept.dispose (kept : t.Kept) : (t.dispose this).Kept := by
  apply kept.leave
  · intro r
    simp only [List.mem_append, Option.mem_toList]
    tauto
  · cases held : t.resource this with
    | none => simpa using kept.once
    | some r => simpa using ⟨(kept.held this r held).2.1, kept.once⟩
  · intro r released
    simp only [List.mem_append, Option.mem_toList, not_or]
    constructor
    · intro holds
      exact (kept.held this r holds).2.2 released
    · exact kept.never r released

theorem Kept.release (kept : t.Kept) : (t.release this).Kept := by
  apply kept.leave
  · intro r
    simp only [List.mem_append, Option.mem_toList]
    tauto
  · exact kept.once
  · intro r listed
    simp only [List.mem_append, Option.mem_toList] at listed
    rcases listed with holds | released
    · exact (kept.held this r holds).2.1
    · exact kept.never r released

end Titles
end Shared
