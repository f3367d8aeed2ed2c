import Cppgres.Regions.Store

/-!
# Trees of regions

What is above a region that is above another is above that one too, and a region is created after
those above it. This holds of every tree that was made by creating regions and releasing them.
-/
namespace Regions.Store
variable {κ α : Type} {s : Store κ α} {region other higher : Nat}

def Nested (s : Store κ α) : Prop :=
  ∀ region ancestors, s.regions region = some ancestors → ∀ above ∈ ancestors,
    above < region ∧ ∃ others, s.regions above = some others ∧ others ⊆ ancestors

theorem nested_empty : (empty : Store κ α).Nested := by
  intro region ancestors found
  cases found

theorem Nested.create (nested : s.Nested) {parent : Option Nat} (isLive : parent.all s.live) :
    (s.create parent).Nested := by
  intro region ancestors found above listed
  by_cases new : region = s.fresh
  · subst new
    cases parent with
    | none =>
      simp only [Store.create, if_pos, Option.elim_none, Option.some.injEq] at found
      subst found
      cases listed
    | some parent =>
      obtain ⟨higher, known⟩ : ∃ higher, s.regions parent = some higher :=
        Option.isSome_iff_exists.mp isLive
      simp only [Store.create, if_pos, Option.elim_some, known, Option.getD_some,
        Option.some.injEq] at found
      subst found
      have below := lt_fresh known
      rcases List.mem_cons.mp listed with rfl | listed
      · exact ⟨below, higher, regions_create_of_some known, List.subset_cons_self _ _⟩
      · obtain ⟨lower, others, found, within⟩ := nested parent higher known above listed
        refine ⟨Nat.lt_trans lower below, others, regions_create_of_some found, ?_⟩
        exact List.subset_cons_of_subset _ within
  · simp only [Store.create, if_neg new] at found
    obtain ⟨lower, others, known, within⟩ := nested region ancestors found above listed
    exact ⟨lower, others, regions_create_of_some known, within⟩

/-- What a region below another one covers, the other one covers too. -/
theorem Nested.covers_trans (nested : s.Nested) (one : s.covers higher region)
    (two : s.covers region other) : s.covers higher other := by
  cases found : s.regions other with
  | none => simp [covers, found] at two
  | some ancestors =>
    rw [covers_iff found] at two ⊢
    rcases two with rfl | listed
    · exact (covers_iff found).mp one
    · obtain ⟨_, others, known, within⟩ := nested other ancestors found region listed
      rcases (covers_iff known).mp one with rfl | above
      · exact .inr listed
      · exact .inr (within above)

theorem Nested.release (nested : s.Nested) {delete : Bool} : (s.release region delete).Nested := by
  intro other ancestors found above listed
  have stays : ¬ (s.covers region other && (delete || other != region)) = true := by
    intro gone
    simp only [Store.release] at found
    rw [if_pos gone] at found
    cases found
  have before : s.regions other = some ancestors := by
    simp only [Store.release] at found
    rwa [if_neg stays] at found
  obtain ⟨lower, others, known, within⟩ := nested other ancestors before above listed
  refine ⟨lower, others, ?_, within⟩
  -- a region above one that stays is not below the one that is released
  have uncovered : s.covers region above = false := by
    rw [Bool.eq_false_iff]
    intro covered
    have reach : s.covers above other := (covers_iff before).mpr (.inr listed)
    have below := nested.covers_trans covered reach
    rw [below, Bool.true_and] at stays
    have same : other = region := by
      by_contra different
      apply stays
      simp [different]
    subst same
    rcases (covers_iff known).mp covered with rfl | higher
    · exact Nat.lt_irrefl _ lower
    · exact Nat.lt_irrefl _ (Nat.lt_trans lower (nested above others known other higher).1)
  simp only [Store.release]
  rw [uncovered, Bool.false_and, if_neg Bool.false_ne_true]
  exact known

theorem regions_delete :
    (s.release region true).regions other =
      if s.covers region other then none else s.regions other := by
  simp [Store.release]

/-- After a deletion, what is covered is what was covered and is not deleted. -/
theorem covers_delete :
    (s.release region true).covers higher other = (s.covers higher other && !s.covers region other) := by
  have left : (s.release region true).covers higher other =
      (if s.covers region other then none else s.regions other).any fun ancestors =>
        other == higher || ancestors.contains higher := by
    rw [← regions_delete]
    rfl
  rw [left]
  cases s.covers region other with
  | true => simp
  | false => simp [covers]

/-- What is due of one region: nothing, or all that is registered on it, in its order. -/
theorem due_of {keep : κ → Bool}
    (own : ∀ callback ∈ s.callbacks, keep callback.2 = (callback.1 == other)) :
    (s.due region).filter keep =
      if s.covers region other
      then (s.callbacks.filter fun callback => callback.1 == other).map Prod.snd else [] := by
  have select (select : Nat × κ → Bool) :
      ((s.callbacks.filter select).map Prod.snd).filter keep =
        (s.callbacks.filter fun callback => callback.1 == other && select callback).map Prod.snd := by
    rw [List.filter_map, List.filter_filter]
    congr 1
    apply List.filter_congr
    intro callback registered
    rw [Function.comp_apply, own callback registered]
  rw [due, List.map_append, List.filter_append, select, select]
  by_cases same : other = region
  · subst same
    have none : (s.callbacks.filter fun callback =>
        callback.1 == other && (callback.1 != other && s.covers other callback.1)) = [] := by
      apply List.filter_eq_nil_iff.mpr
      intro callback registered
      by_cases equal : callback.1 = other
      · simp [equal]
      · simp [equal]
    have all : (s.callbacks.filter fun callback => callback.1 == other && callback.1 == other) =
        if s.covers other other then s.callbacks.filter fun callback => callback.1 == other
        else [] := by
      split
      case isTrue => simp
      case isFalse absent =>
        apply List.filter_eq_nil_iff.mpr
        intro callback registered
        simp only [Bool.and_self, beq_iff_eq]
        intro equal
        subst equal
        exact absent (covers_self (s.callbacks_live callback registered))
    rw [none, List.map_nil, List.nil_append, all]
    cases s.covers other other <;> rfl
  · have none : (s.callbacks.filter fun callback =>
        callback.1 == other && callback.1 == region) = [] := by
      apply List.filter_eq_nil_iff.mpr
      intro callback registered
      simp only [Bool.and_eq_true, beq_iff_eq, not_and]
      intro equal
      rw [equal]
      exact same
    have all : (s.callbacks.filter fun callback =>
        callback.1 == other && (callback.1 != region && s.covers region callback.1)) =
        s.callbacks.filter fun callback => callback.1 == other && s.covers region other := by
      apply List.filter_congr
      intro callback registered
      cases equal : callback.1 == other with
      | true => simp [eq_of_beq equal, same]
      | false => rfl
    rw [none, List.map_nil, List.append_nil, all]
    cases s.covers region other <;> simp

end Regions.Store
