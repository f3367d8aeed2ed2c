import Mathlib.Data.BitVec

/-!
# Bounds of attributes

`tuple_descriptor` and `record` each have a `check_bounds`, with one condition in the arithmetic of
`int`. An index that passes it is one of an attribute, or the largest `int`.
-/
namespace Cppgres

variable {α β : Type}

/-- The condition of both copies of `check_bounds`: `n + 1 > natts || n < 0` -/
def indexOutOfBounds (n natts : BitVec 32) : Bool := natts.slt (n + 1) || n.slt 0

/-- The text of the exception. `whose` is what the class calls itself there. -/
def outOfBoundsText (whose : String) (n natts : BitVec 32) : String :=
  "attribute index " ++ toString n.toInt ++ " is out of bounds for " ++ whose ++
    " with the size of " ++ toString natts.toInt

/-- `check_bounds`, and the entry of an array with one for each attribute that is reached behind it. It
is none past the array. -/
def checkBounds (whose : String) (entries : List α) (n : BitVec 32) : Except String (Option α) :=
  if indexOutOfBounds n (BitVec.ofNat 32 entries.length) then
    .error (outOfBoundsText whose n (BitVec.ofNat 32 entries.length))
  else .ok entries[n.toNat]?

/-- The index is that of an attribute. -/
def InBounds (size : Nat) (n : BitVec 32) : Prop := 0 ≤ n.toInt ∧ n.toInt < size

/-- `std::numeric_limits<int>::max()` -/
def intMax : BitVec 32 := 2147483647

section Check
variable {size i : Nat} {n : BitVec 32} {whose : String} {entries : List α} {entry : α}

theorem toInt_succ (below : n ≠ intMax) : (n + 1).toInt = n.toInt + 1 := by
  have different : n.toNat ≠ 2147483647 := by
    intro same
    exact below (BitVec.eq_of_toNat_eq same)
  have bound := n.isLt
  rw [BitVec.toInt_eq_toNat_cond, BitVec.toInt_eq_toNat_cond, BitVec.toNat_add]
  simp
  split <;> split <;> omega

theorem toInt_ofNat_of_few (few : size < 0x80000000) : (BitVec.ofNat 32 size).toInt = size := by
  rw [BitVec.toInt_eq_toNat_cond, BitVec.toNat_ofNat]
  simp
  omega

theorem not_inBounds_intMax (few : size < 0x80000000) : ¬ InBounds size intMax := by
  have positive : intMax.toInt = 2147483647 := by decide
  unfold InBounds
  omega

/-- The largest `int` is let pass: the sum wraps around to the smallest one. -/
theorem indexOutOfBounds_eq_false_iff (few : size < 0x80000000) :
    indexOutOfBounds n (BitVec.ofNat 32 size) = false ↔ n = intMax ∨ InBounds size n := by
  have size_toInt := toInt_ofNat_of_few few
  unfold indexOutOfBounds InBounds
  simp only [Bool.or_eq_false_iff, BitVec.slt, decide_eq_false_iff_not, size_toInt]
  by_cases largest : n = intMax
  · have wrapped : (intMax + 1).toInt = -2147483648 := by decide
    have positive : intMax.toInt = 2147483647 := by decide
    subst largest
    rw [wrapped, positive]
    simp
  · rw [toInt_succ largest]
    simp [largest]
    omega

theorem inBounds_iff_toNat (few : size < 0x80000000) : InBounds size n ↔ n.toNat < size := by
  have bound := n.isLt
  unfold InBounds
  rw [BitVec.toInt_eq_toNat_cond]
  split <;> omega

/-- What is reached is the entry with the index. -/
theorem getElem?_of_checkBounds (reached : checkBounds whose entries n = .ok (some entry)) :
    entries[n.toNat]? = some entry := by
  unfold checkBounds at reached
  split at reached
  · cases reached
  · exact Except.ok.inj reached

/-- An attribute is reached at its own index. -/
theorem checkBounds_ofNat (few : entries.length < 0x80000000) (here : entries[i]? = some entry) :
    checkBounds whose entries (BitVec.ofNat 32 i) = .ok (some entry) := by
  have below := (List.getElem?_eq_some_iff.mp here).1
  have index : (BitVec.ofNat 32 i).toNat = i := by
    rw [BitVec.toNat_ofNat]
    omega
  have inside : InBounds entries.length (BitVec.ofNat 32 i) := by
    rw [inBounds_iff_toNat few, index]
    exact below
  have passes := (indexOutOfBounds_eq_false_iff few).mpr (.inr inside)
  unfold checkBounds
  rw [passes, if_neg Bool.false_ne_true, index, here]

/-- Past the array is what is reached with the largest `int`, and nothing else. -/
theorem checkBounds_eq_none_iff (few : entries.length < 0x80000000) :
    checkBounds whose entries n = .ok none ↔ n = intMax := by
  have passes := indexOutOfBounds_eq_false_iff (n := n) few
  unfold checkBounds
  cases check : indexOutOfBounds n (BitVec.ofNat 32 entries.length) with
  | true =>
    rw [check] at passes
    rw [if_pos rfl]
    refine iff_of_false nofun fun largest => ?_
    cases passes.mpr (.inl largest)
  | false =>
    rw [if_neg Bool.false_ne_true, Except.ok.injEq, List.getElem?_eq_none_iff]
    constructor
    · intro past
      refine (passes.mp check).resolve_right fun inside => ?_
      exact absurd ((inBounds_iff_toNat few).mp inside) (Nat.not_lt.mpr past)
    · rintro rfl
      have largest : intMax.toNat = 2147483647 := by decide
      omega

/-- The check looks at how many entries there are, not at what they are. -/
theorem checkBounds_map (whose : String) (f : α → β) (entries : List α) (n : BitVec 32) :
    checkBounds whose (entries.map f) n = (checkBounds whose entries n).map (Option.map f) := by
  unfold checkBounds
  rw [List.length_map, List.getElem?_map]
  split <;> rfl

end Check

end Cppgres
