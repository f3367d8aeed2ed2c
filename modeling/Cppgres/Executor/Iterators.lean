import Cppgres.Executor.Results

/-!
# Iterators over the rows of a query

`result_iterator` with its position as the `size_t` that it is, and all of its operators. Both
`operator*` and a subscript of the caller go through `operator[]`, which takes the number of a row.
`Cppgres.RowIterator.laws_iff` says which iterators obey the laws of random access.
-/
namespace Cppgres

variable {V : Type}

/-- The tuple tables of a backend by address, and what their rows are decoded to. There are no
tables of `2 ^ 63` rows. -/
structure ResultTables (V : Type) where
  catalog : Catalog
  ret : Ret V
  tables : Nat → SpiTupleTable
  few : ∀ address, (tables address).vals.length < 0x8000000000000000

/-- `result_iterator` -/
structure RowIterator (V : Type) where
  tuptable : Nat
  index : BitVec 64
  tuples : List (Option (List V))

/-- `std::vector::at` is out of range, or a conversion throws. -/
inductive RowFailure where
  | outOfRange
  | conversion (refusal : Refusal)
  deriving DecidableEq, Repr

namespace RowIterator
variable (env : ResultTables V) (it other : RowIterator V)

def numvals (tuptable : Nat) : Nat := (env.tables tuptable).vals.length

/-- `result_iterator(tuptable, n)` -/
def make (tuptable : Nat) (n : BitVec 64) : RowIterator V :=
  ⟨tuptable, n, List.replicate (numvals env tuptable) none⟩

/-- `result_iterator(tuptable)`, which is `results::begin()` -/
def begin_ (tuptable : Nat) : RowIterator V := make env tuptable 0

/-- What a row is decoded to, with its number. -/
def row (tuptable : Nat) (n : Nat) : Except RowFailure (Nat × List V) :=
  match (env.tables tuptable).vals[n]? with
  | none => .error .outOfRange
  | some vals =>
    match env.ret.decode env.catalog (env.tables tuptable).tupdesc vals with
    | .error refusal => .error (.conversion refusal)
    | .ok value => .ok (n, value)

/-- `operator[]`: the slot that the reference is to, and what is in it. A negative number is a
large one for `at`. -/
def subscript (n : BitVec 64) : Except RowFailure (Nat × List V) × RowIterator V :=
  match it.tuples[n.toNat]? with
  | none => (.error .outOfRange, it)
  | some (some value) => (.ok (n.toNat, value), it)
  | some none =>
    match row env it.tuptable n.toNat with
    | .error failure => (.error failure, it)
    | .ok (_, value) =>
      (.ok (n.toNat, value), { it with tuples := it.tuples.set n.toNat (some value) })

/-- `operator*` -/
def deref : Except RowFailure (Nat × List V) × RowIterator V := subscript env it it.index

/-- `operator++()` and `operator--()` -/
def increment : RowIterator V := { it with index := it.index + 1 }
def decrement : RowIterator V := { it with index := it.index - 1 }

/-- `operator++(int)` and `operator--(int)`: what is returned, and what is left. -/
def postIncrement : RowIterator V × RowIterator V := (it, it.increment)
def postDecrement : RowIterator V × RowIterator V := (it, it.decrement)

/-- `operator+` and `operator-` with a number: an iterator with a cache of its own. -/
def plus (n : BitVec 64) : RowIterator V := make env it.tuptable (it.index + n)
def minus (n : BitVec 64) : RowIterator V := make env it.tuptable (it.index - n)

/-- `operator+=` and `operator-=` -/
def addAssign (n : BitVec 64) : RowIterator V := { it with index := it.index + n }
def subAssign (n : BitVec 64) : RowIterator V := { it with index := it.index - n }

/-- `operator-` of two iterators, a `difference_type` -/
def distance : BitVec 64 := it.index - other.index

/-- The comparisons of two iterators -/
def eq : Bool := it.tuptable == other.tuptable && it.index == other.index
def ne : Bool := !(it.tuptable == other.tuptable && it.index == other.index)
def lt : Bool := decide (it.index < other.index)
def gt : Bool := decide (other.index < it.index)
def le : Bool := decide (it.index ≤ other.index)
def ge : Bool := decide (other.index ≤ it.index)

/-- `++it` or `--it` so many times. -/
def increments : Nat → RowIterator V → RowIterator V
  | 0, it => it
  | steps + 1, it => increments steps it.increment

def decrements : Nat → RowIterator V → RowIterator V
  | 0, it => it
  | steps + 1, it => decrements steps it.decrement

/-- The position `n` further on, as a number that may be outside of the table. -/
def position (n : BitVec 64) : Int := it.index.toNat + n.toInt

/-- It is a row, or it is a row or the end. -/
def InRows (position : Int) : Prop := 0 ≤ position ∧ position < numvals env it.tuptable
def Within (position : Int) : Prop := 0 ≤ position ∧ position ≤ numvals env it.tuptable

/-- The slots are as many as the rows, and one that is filled holds what its row is decoded to. -/
structure Coherent : Prop where
  slots : it.tuples.length = numvals env it.tuptable
  filled : ∀ (n : Nat) value, it.tuples[n]? = some (some value) →
    row env it.tuptable n = .ok (n, value)

/-! ## The laws -/

/-- What an iterator is asked for, at whatever position it is, other than its subscripts. -/
structure MovementLaws : Prop where
  plus_row : ∀ n, it.InRows env (it.position n) →
    (deref env (it.plus env n)).1 = row env it.tuptable (it.position n).toNat
  increments_row : ∀ steps : Nat, it.InRows env ((it.index.toNat : Int) + steps) →
    (deref env (increments steps it)).1 = row env it.tuptable (it.index.toNat + steps)
  decrements_row : ∀ steps : Nat, it.InRows env ((it.index.toNat : Int) - steps) →
    (deref env (decrements steps it)).1 = row env it.tuptable (it.index.toNat - steps)
  addAssign_row : ∀ n, it.InRows env (it.position n) →
    (deref env (it.addAssign n)).1 = row env it.tuptable (it.position n).toNat
  distance_plus : ∀ n, it.Within env (it.position n) → (it.plus env n).distance it = n
  plus_plus : ∀ n m, it.Within env (it.position n) → it.Within env (it.position (n + m)) →
    (it.plus env n).plus env m = it.plus env (n + m)
  plus_minus : ∀ n, it.Within env (it.position n) → ((it.plus env n).minus env n).eq it = true
  post : it.postIncrement.1.eq it = true ∧ it.postIncrement.2.index = it.index + 1 ∧
    it.postDecrement.1.eq it = true ∧ it.postDecrement.2.index = it.index - 1
  compare : ∀ other : RowIterator V, other.tuptable = it.tuptable →
    (it.eq other = true ↔ it.index.toNat = other.index.toNat) ∧
    (it.ne other = true ↔ it.index.toNat ≠ other.index.toNat) ∧
    (it.lt other = true ↔ it.index.toNat < other.index.toNat) ∧
    (it.gt other = true ↔ other.index.toNat < it.index.toNat) ∧
    (it.le other = true ↔ it.index.toNat ≤ other.index.toNat) ∧
    (it.ge other = true ↔ other.index.toNat ≤ it.index.toNat)

/-- All of the laws of random access -/
structure Laws : Prop extends MovementLaws env it where
  subscript_row : ∀ n, it.InRows env (it.position n) →
    (subscript env it n).1 = row env it.tuptable (it.position n).toNat

/-- An iterator at a row or at the end, with a cache that is right. -/
structure Proper (env : ResultTables V) where
  it : RowIterator V
  coherent : it.Coherent env
  within : it.index.toNat ≤ numvals env it.tuptable

section Positions
variable {env : ResultTables V} {it : RowIterator V} {i n : BitVec 64} {p : Int}

/-- Where a position is a place in a table, the arithmetic of `size_t` is exact. -/
theorem toNat_add_of_position (at_ : (i.toNat : Int) + n.toInt = p) (nonneg : 0 ≤ p)
    (below : p < 0x8000000000000000) : (i + n).toNat = p.toNat := by
  have first := i.isLt
  have second := n.isLt
  rw [BitVec.toInt_eq_toNat_cond] at at_
  rw [BitVec.toNat_add]
  split at at_ <;> omega

theorem position_below (within : it.Within env (it.position n)) :
    it.position n < 0x8000000000000000 := by
  have few := env.few it.tuptable
  have bound := within.2
  unfold numvals at bound
  omega

theorem Within.of_inRows (inRows : it.InRows env p) : it.Within env p :=
  ⟨inRows.1, Int.le_of_lt inRows.2⟩

theorem toNat_plus (within : it.Within env (it.position n)) :
    (it.index + n).toNat = (it.position n).toNat :=
  toNat_add_of_position rfl within.1 (position_below within)

/-- Where a slot for the row is there, `operator[]` gives the row of that number. -/
theorem subscript_row (coherent : it.Coherent env) (below : n.toNat < numvals env it.tuptable) :
    (subscript env it n).1 = row env it.tuptable n.toNat := by
  have slot : n.toNat < it.tuples.length := by
    rw [coherent.slots]
    exact below
  unfold subscript
  cases held : it.tuples[n.toNat]? with
  | none => exact absurd (List.getElem?_eq_none_iff.mp held) (Nat.not_le.mpr slot)
  | some cached =>
    cases cached with
    | some value => exact (coherent.filled n.toNat value held).symm
    | none =>
      cases decoded : row env it.tuptable n.toNat with
      | error failure => rfl
      | ok result =>
        obtain ⟨number, value⟩ := result
        have same : number = n.toNat := by
          unfold row at decoded
          split at decoded
          · cases decoded
          · split at decoded
            · cases decoded
            · cases decoded
              rfl
        rw [same]

theorem make_coherent (tuptable : Nat) (n : BitVec 64) : (make env tuptable n).Coherent env := by
  constructor
  · exact List.length_replicate
  · intro m value held
    have none := List.eq_of_mem_replicate (List.mem_of_getElem? held)
    cases none

/-- The cache does not depend on where the iterator is. -/
theorem Coherent.moved (coherent : it.Coherent env) (index : BitVec 64) :
    ({ it with index } : RowIterator V).Coherent env :=
  ⟨coherent.slots, coherent.filled⟩

end Positions

/-! ## Which iterators obey them -/

section Obey
variable {env : ResultTables V} {it : RowIterator V}

theorem increment_toNat (below : it.index.toNat < 0x8000000000000000) :
    it.increment.index.toNat = it.index.toNat + 1 := by
  change (it.index + 1).toNat = _
  rw [BitVec.toNat_add]
  simp
  omega

/-- Steps change the index only, by as many. -/
theorem increments_eq (steps : Nat) (it : RowIterator V)
    (below : it.index.toNat + steps < 0x8000000000000000) :
    ∃ index : BitVec 64, increments steps it = { it with index } ∧
      index.toNat = it.index.toNat + steps := by
  induction steps generalizing it with
  | zero => exact ⟨it.index, rfl, rfl⟩
  | succ steps ih =>
    have next : it.increment.index.toNat = it.index.toNat + 1 := increment_toNat (by omega)
    obtain ⟨index, same, at_⟩ := ih it.increment (by omega)
    refine ⟨index, same, ?_⟩
    omega

theorem decrements_eq (steps : Nat) (it : RowIterator V) (above : steps ≤ it.index.toNat) :
    ∃ index : BitVec 64, decrements steps it = { it with index } ∧
      index.toNat = it.index.toNat - steps := by
  induction steps generalizing it with
  | zero => exact ⟨it.index, rfl, rfl⟩
  | succ steps ih =>
    have next : it.decrement.index.toNat = it.index.toNat - 1 := by
      change (it.index - 1).toNat = _
      have bound := it.index.isLt
      rw [BitVec.toNat_sub]
      simp
      omega
    obtain ⟨index, same, at_⟩ := ih it.decrement (by omega)
    refine ⟨index, same, ?_⟩
    omega

/-- `operator*`, at a row. -/
theorem deref_row (coherent : it.Coherent env) {n : Nat} (at_ : it.index.toNat = n)
    (below : n < numvals env it.tuptable) : (deref env it).1 = row env it.tuptable n := by
  unfold deref
  rw [← at_] at below ⊢
  exact subscript_row coherent below

/-- The comparisons are those of the positions. -/
theorem compare_positions (it other : RowIterator V) (same : other.tuptable = it.tuptable) :
    (it.eq other = true ↔ it.index.toNat = other.index.toNat) ∧
    (it.ne other = true ↔ it.index.toNat ≠ other.index.toNat) ∧
    (it.lt other = true ↔ it.index.toNat < other.index.toNat) ∧
    (it.gt other = true ↔ other.index.toNat < it.index.toNat) ∧
    (it.le other = true ↔ it.index.toNat ≤ other.index.toNat) ∧
    (it.ge other = true ↔ other.index.toNat ≤ it.index.toNat) := by
  have equal : it.index = other.index ↔ it.index.toNat = other.index.toNat :=
    BitVec.toNat_inj.symm
  refine ⟨?_, ?_, ?_, ?_, ?_, ?_⟩
  · simp [eq, same, equal]
  · simp [ne, same, equal]
  · simp [lt, BitVec.lt_def]
  · simp [gt, BitVec.lt_def]
  · simp [le, BitVec.le_def]
  · simp [ge, BitVec.le_def]

/-- A subscript gives the row that is so far on if and only if there is nothing before the
iterator. -/
theorem subscript_laws_iff (proper : Proper env) :
    (∀ n, proper.it.InRows env (proper.it.position n) →
      (subscript env proper.it n).1 =
        row env proper.it.tuptable (proper.it.position n).toNat) ↔
      proper.it.index = 0 := by
  obtain ⟨it, coherent, within⟩ := proper
  dsimp only at within ⊢
  constructor
  · intro law
    by_contra elsewhere
    have positive : 0 < it.index.toNat := by
      rcases Nat.eq_zero_or_pos it.index.toNat with zero | positive
      · exact absurd (BitVec.eq_of_toNat_eq zero) elsewhere
      · exact positive
    have few := env.few it.tuptable
    have short : it.index.toNat < 0x8000000000000000 := Nat.lt_of_le_of_lt within few
    -- the number that leads back to the first row is negative
    have back : (-it.index).toNat = 0x10000000000000000 - it.index.toNat := by
      rw [BitVec.toNat_neg]
      omega
    have first : it.position (-it.index) = 0 := by
      unfold position
      rw [BitVec.toInt_eq_toNat_cond, back]
      split <;> omega
    have inRows : it.InRows env (it.position (-it.index)) := by
      rw [first]
      exact ⟨Int.le_refl 0, by omega⟩
    have gives := law (-it.index) inRows
    have refuses : (subscript env it (-it.index)).1 = .error .outOfRange := by
      have absent : it.tuples[(-it.index).toNat]? = none := by
        apply List.getElem?_eq_none_iff.mpr
        rw [coherent.slots, back]
        unfold numvals
        omega
      unfold subscript
      rw [absent]
    obtain ⟨vals, there⟩ : ∃ vals, (env.tables it.tuptable).vals[0]? = some vals :=
      ⟨_, List.getElem?_eq_getElem (Nat.lt_of_lt_of_le positive within)⟩
    rw [refuses, first] at gives
    unfold row at gives
    rw [Int.toNat_zero, there] at gives
    dsimp only at gives
    split at gives <;> cases gives
  · intro start n inRows
    have at_ : n.toNat = (it.position n).toNat := by
      rw [← toNat_plus (Within.of_inRows inRows), start]
      simp
    rw [← at_]
    apply subscript_row coherent
    have nonneg := inRows.1
    have bound := inRows.2
    omega

/-- An iterator moves as it should wherever it is. -/
theorem movementLaws (proper : Proper env) : MovementLaws env proper.it := by
  obtain ⟨it, coherent, within⟩ := proper
  dsimp only at within ⊢
  have few := env.few it.tuptable
  have below : ∀ {p : Int} {n : Nat}, it.InRows env p → p.toNat = n →
      n < numvals env it.tuptable := by
    intro p n inRows same
    have nonneg := inRows.1
    have bound := inRows.2
    omega
  constructor
  · intro n inRows
    exact deref_row (make_coherent _ _) (toNat_plus (Within.of_inRows inRows)) (below inRows rfl)
  · intro steps inRows
    have inside : it.index.toNat + steps < numvals env it.tuptable := below inRows (by omega)
    obtain ⟨index, same, at_⟩ := increments_eq steps it (Nat.lt_trans inside few)
    rw [same]
    exact deref_row (coherent.moved index) at_ inside
  · intro steps inRows
    have nonneg := inRows.1
    have inside : it.index.toNat - steps < numvals env it.tuptable := below inRows (by omega)
    obtain ⟨index, same, at_⟩ := decrements_eq steps it (by omega)
    rw [same]
    exact deref_row (coherent.moved index) at_ inside
  · intro n inRows
    exact deref_row (coherent.moved _) (toNat_plus (Within.of_inRows inRows)) (below inRows rfl)
  · intro n _
    change it.index + n - it.index = n
    rw [BitVec.add_comm, BitVec.add_sub_cancel]
  · intro n m _ _
    simp [plus, make, BitVec.add_assoc]
  · intro n _
    simp only [plus, minus, make, eq, BitVec.add_sub_cancel, beq_self_eq_true, Bool.and_self]
  · simp [postIncrement, postDecrement, increment, decrement, eq]
  · exact fun other same => compare_positions it other same

/-- An iterator moves as it should wherever it is, and obeys all of the laws if and only if it is at
the first row. -/
theorem laws_iff (proper : Proper env) :
    MovementLaws env proper.it ∧ (Laws env proper.it ↔ proper.it.index = 0) := by
  have movement := movementLaws proper
  refine ⟨movement, ?_⟩
  constructor
  · intro laws
    exact (subscript_laws_iff proper).mp laws.subscript_row
  · intro start
    exact { movement with subscript_row := (subscript_laws_iff proper).mpr start }

end Obey

/-- Two rows of one number each. -/
def twoRows : ResultTables Datum where
  catalog := pairCatalog
  ret := .single (.scalar ⟨"int64_t", (· == 20), id⟩)
  tables _ := ⟨[20], [[⟨10, false⟩], [⟨20, false⟩]]⟩
  few _ := by decide

/-- At the second row, the subscript 0 is the first row, and the subscript -1 is out of range. -/
theorem second_row_subscripts :
    let it := (begin_ twoRows 0).increment
    (deref twoRows it).1 = .ok (1, [20]) ∧ (subscript twoRows it 0).1 = .ok (0, [10]) ∧
      (subscript twoRows it (-1)).1 = .error .outOfRange ∧
      (deref twoRows (it.plus twoRows (-1))).1 = .ok (0, [10]) ∧ ¬ Laws twoRows it := by
  refine ⟨rfl, rfl, rfl, rfl, fun laws => ?_⟩
  have gives := laws.subscript_row 0 ⟨by decide +kernel, by decide +kernel⟩
  revert gives
  decide +kernel

end RowIterator
end Cppgres
