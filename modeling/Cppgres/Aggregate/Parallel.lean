import Cppgres.Aggregate.Support
import Mathlib.Data.BitVec

/-!
# Parallel aggregation

Workers aggregate a chunk of the rows each and serialize their state; the leader combines
the states along a tree and finalizes the last one.
`Cppgres.parallel_eq_sequential_iff` says for which chunks that is aggregation of all the
rows in their order.
-/
namespace Cppgres
open NonLocal

variable {InTs Agg : Type}

/-- The state after `update()` on these rows in order. -/
def Aggregate.stateOf (agg : Aggregate InTs Agg) (rows : List InTs) : Agg :=
  rows.foldl agg.update agg.initial

/-- A class whose combining constructor and serialization mean what they are for.
`BehavesAs` is any relation of states that `finalize()` respects. -/
structure LawfulAggregate (InTs Agg : Type) extends Aggregate InTs Agg where
  BehavesAs : Agg → Agg → Prop
  finalize_eq : ∀ {one two}, BehavesAs one two → finalize one = finalize two
  combine_append : ∀ {one two xs ys}, BehavesAs one (toAggregate.stateOf xs) →
    BehavesAs two (toAggregate.stateOf ys) →
    BehavesAs (combine one two) (toAggregate.stateOf (xs ++ ys))
  deserialize_serialize : ∀ state, BehavesAs (deserialize (serialize state)) state

/-- How the states of the workers' chunks are combined. -/
inductive CombineTree (InTs : Type) where
  | worker (chunk : List InTs)
  | combine (left right : CombineTree InTs)
  deriving DecidableEq, Repr

namespace CombineTree

def chunks : CombineTree InTs → List (List InTs)
  | .worker chunk => [chunk]
  | .combine left right => left.chunks ++ right.chunks

/-- All the rows, in their order. -/
def rows (tree : CombineTree InTs) : List InTs := tree.chunks.flatten

end CombineTree

section Run
variable (agg : Aggregate InTs Agg) (fc : FunctionCallInfo)

/-- An argument that is declared `internal`. -/
def internal (datum : NullableDatum) : Value := ⟨datum, internalOid⟩

/-- A call by way of `postgres_function`, for a function that returns a pointer. -/
def callForState (func : Cpp (Heap Agg × Datum)) : Cpp (Heap Agg × NullableDatum) := do
  let (heap, datum) ← postgresFunction fc (pure ()) fun _ => func
  pure (heap, ⟨datum, false⟩)

/-- The transition function over the rows of a chunk. -/
def advance (heap : Heap Agg) (state : NullableDatum) :
    List InTs → Cpp (Heap Agg × NullableDatum)
  | [] => pure (heap, state)
  | args :: rows => do
    let (heap, state) ← callForState fc (aggregateSfunc agg heap (internal state) args)
    advance heap state rows

/-- A worker, in a process of its own. -/
def partialAggregate (chunk : List InTs) : Cpp Bytea := do
  let (heap, state) ← advance agg fc Heap.empty ⟨0, true⟩ chunk
  postgresFunction fc (pure ()) fun _ => aggregateSerial agg heap (internal state)

/-- The leader: the state of a tree. -/
def combineAggregate : CombineTree InTs → Heap Agg → Cpp (Heap Agg × NullableDatum)
  | .worker chunk, heap => do
    let ba ← partialAggregate agg fc chunk
    callForState fc (aggregateDeserial agg heap ba)
  | .combine left right, heap => do
    let (heap, state) ← combineAggregate left heap
    let (heap, other) ← combineAggregate right heap
    callForState fc (aggregateCombine agg heap (internal state) (internal other))

/-- How a call returns a result: no datum comes with a null. -/
def NullableDatum.returned (result : NullableDatum) : NullableDatum :=
  if result.isnull then ⟨0, true⟩ else ⟨result.value, false⟩

def parallelAggregate (tree : CombineTree InTs) : Cpp NullableDatum := do
  let (heap, state) ← combineAggregate agg fc tree Heap.empty
  postgresFunction fc (pure ()) fun _ => do
    let result ← aggregateFfunc agg heap (internal state)
    pure result.returned

/-- What aggregation is for. -/
def Aggregate.sequential (rows : List InTs) : NullableDatum :=
  (agg.finalize (agg.stateOf rows)).intoNullableDatum.returned

end Run

/-! ## Each call -/

section Calls
variable {agg : Aggregate InTs Agg} {address : Nat} {aggcontext : MemoryContext}
  {s : Machine Backend} {heap : Heap Agg}

/-- The call of an aggregate's support function. -/
def aggregateCall (address : Nat) (aggcontext : MemoryContext) : FunctionCallInfo :=
  ⟨address, some (.aggState aggcontext)⟩

theorem returns_checked {α : Type} {func : Cpp α} {post : α → Prop}
    (body : ∀ t, func.Returns t fun value _ => post value) :
    (postgresFunction (aggregateCall address aggcontext) (pure ()) fun _ => do
      let _aggctx ← requireAggContext
      func).Returns s fun value _ => post value := by
  rw [returns_postgresFunction, Code.returns_pure]
  unfold requireAggContext callInfo
  simp only [Code.returns_bind, Code.returns_get, Code.returns_pure]
  exact body _

theorem returns_callForState {func : Cpp (Heap Agg × Datum)}
    {post : Heap Agg × NullableDatum → Prop}
    (body : ∀ t, func.Returns t fun result _ => post (result.1, ⟨result.2, false⟩)) :
    (callForState (aggregateCall address aggcontext) (do
      let _aggctx ← requireAggContext
      func)).Returns s fun result _ => post result := by
  unfold callForState
  exact .bind (returns_checked body) fun _ _ holds => holds

/-- The object that a transition value stands for: a null one for a new object. -/
def StandsFor (agg : Aggregate InTs Agg) (heap : Heap Agg) (state : NullableDatum)
    (object : Agg) : Prop :=
  if state.isnull then object = agg.initial else heap.read state.value = some object

/-- The value points to an object that is as described. -/
def PointsTo (result : Heap Agg × NullableDatum) (described : Agg → Prop) : Prop :=
  result.2.isnull = false ∧ ∃ object, result.1.read result.2.value = some object ∧ described object

theorem standsFor_pointer {state : NullableDatum} {object : Agg} (pointer : state.isnull = false)
    (found : heap.read state.value = some object) : StandsFor agg heap state object := by
  unfold StandsFor
  rw [if_neg (by rw [pointer]; simp)]
  exact found

theorem PointsTo.standsFor {result : Heap Agg × NullableDatum} {object : Agg}
    (points : PointsTo result (· = object)) : StandsFor agg result.1 result.2 object := by
  obtain ⟨pointer, _, found, rfl⟩ := points
  exact standsFor_pointer pointer found

theorem returns_stateOrNew {state : NullableDatum} {object : Agg}
    (stands : StandsFor agg heap state object) :
    (stateOrNew agg heap (internal state)).Returns s fun result _ =>
      heap.Extends result.1 ∧ result.1.read result.2 = some object := by
  obtain ⟨value, isnull⟩ := state
  cases isnull with
  | true =>
    have new : object = agg.initial := stands
    subst new
    exact ⟨heap.extends_construct _, heap.read_construct _⟩
  | false => exact ⟨.refl heap, stands⟩

@[simp] theorem returns_dereference {pointer : Datum} {object : Agg}
    {post : Agg → Machine Backend → Prop} (found : heap.read pointer = some object) :
    (dereference heap pointer).Returns s post ↔ post object s := by
  unfold dereference
  rw [found]
  exact Iff.rfl

theorem returns_sfunc {state : NullableDatum} {object : Agg} {args : InTs}
    (stands : StandsFor agg heap state object) :
    (callForState (aggregateCall address aggcontext)
      (aggregateSfunc agg heap (internal state) args)).Returns s fun result _ =>
      PointsTo result (· = agg.update object args) := by
  refine returns_callForState fun t => .bind (returns_stateOrNew stands) ?_
  rintro ⟨heap', pointer⟩ u ⟨_, found⟩
  refine Code.returns_bind.mpr ((returns_dereference found).mpr ?_)
  exact ⟨rfl, _, Heap.read_write _ found, rfl⟩

theorem Aggregate.stateOf_append (agg : Aggregate InTs Agg) (seen : List InTs) (args : InTs) :
    agg.stateOf (seen ++ [args]) = agg.update (agg.stateOf seen) args := by
  unfold stateOf
  rw [List.foldl_append]
  rfl

/-- Over a chunk with a row the state becomes a pointer, to the state of the rows so far. -/
theorem returns_advance {state : NullableDatum} {seen rows : List InTs}
    (stands : StandsFor agg heap state (agg.stateOf seen))
    (some_ : rows ≠ [] ∨ state.isnull = false) :
    (advance agg (aggregateCall address aggcontext) heap state rows).Returns s fun result _ =>
      PointsTo result (· = agg.stateOf (seen ++ rows)) := by
  induction rows generalizing heap state seen s with
  | nil =>
    have pointer := some_.resolve_left fun other => other rfl
    unfold StandsFor at stands
    rw [if_neg (by rw [pointer]; simp)] at stands
    rw [List.append_nil]
    exact ⟨pointer, _, stands, rfl⟩
  | cons args rows ih =>
    refine .bind (returns_sfunc stands) ?_
    rintro ⟨heap', state'⟩ t points
    rw [← agg.stateOf_append] at points
    have rest := ih (s := t) points.standsFor (.inr points.1)
    rw [List.append_assoc] at rest
    exact rest

theorem returns_partialAggregate {chunk : List InTs} (some_ : chunk ≠ []) :
    (partialAggregate agg (aggregateCall address aggcontext) chunk).Returns s fun ba _ =>
      ba = agg.serialize (agg.stateOf chunk) := by
  have start : StandsFor agg Heap.empty ⟨0, true⟩ (agg.stateOf []) := rfl
  refine .bind (returns_advance start (.inl some_)) ?_
  rintro ⟨heap, state⟩ t ⟨pointer, _, found, rfl⟩
  dsimp only at pointer found
  rw [returns_postgresFunction, Code.returns_pure]
  unfold aggregateSerial voidPointer internal
  simp only [if_true, pointer, Bool.false_eq_true, if_false, Code.returns_bind,
    Code.returns_pure, returns_dereference found]
  rfl

/-- A null transition value cannot be serialized. -/
theorem not_returns_partialAggregate {post : Bytea → Machine Backend → Prop} :
    ¬ (partialAggregate agg (aggregateCall address aggcontext) []).Returns s post := by
  unfold partialAggregate advance aggregateSerial voidPointer internal
  simp

end Calls

/-! ## The tree -/

section Tree
variable (agg : LawfulAggregate InTs Agg) {address : Nat} {aggcontext : MemoryContext}
  {s : Machine Backend}

theorem returns_combineAggregate {tree : CombineTree InTs} {heap : Heap Agg}
    (some_ : ∀ chunk ∈ tree.chunks, chunk ≠ []) :
    (combineAggregate agg.toAggregate (aggregateCall address aggcontext) tree heap).Returns s
      fun result _ => heap.Extends result.1 ∧
        PointsTo result (agg.BehavesAs · (agg.stateOf tree.rows)) := by
  induction tree generalizing heap s with
  | worker chunk =>
    refine .bind (returns_partialAggregate (some_ chunk List.mem_cons_self)) ?_
    rintro _ t rfl
    refine returns_callForState fun u => ?_
    refine ⟨heap.extends_construct _, rfl, _, heap.read_construct _, ?_⟩
    have rows : (CombineTree.worker chunk).rows = chunk := List.append_nil chunk
    rw [rows]
    exact agg.deserialize_serialize _
  | combine left right one two =>
    have rows : (CombineTree.combine left right).rows = left.rows ++ right.rows :=
      List.flatten_append
    refine .bind (one fun chunk member => some_ chunk (List.mem_append_left _ member)) ?_
    rintro ⟨heap₁, state⟩ t ⟨extends₁, pointer₁, object₁, found₁, behaves₁⟩
    refine .bind (two fun chunk member => some_ chunk (List.mem_append_right _ member)) ?_
    rintro ⟨heap₂, other⟩ u ⟨extends₂, pointer₂, object₂, found₂, behaves₂⟩
    have stands₁ : StandsFor agg.toAggregate heap₂ state object₁ :=
      standsFor_pointer pointer₁ (extends₂ _ _ found₁)
    refine returns_callForState fun v => .bind (returns_stateOrNew stands₁) ?_
    rintro ⟨heap₃, state0⟩ w ⟨extends₃, found0⟩
    have stands₂ : StandsFor agg.toAggregate heap₃ other object₂ :=
      standsFor_pointer pointer₂ (extends₃ _ _ found₂)
    refine .bind (returns_stateOrNew stands₂) ?_
    rintro ⟨heap₄, state1⟩ x ⟨extends₄, found1⟩
    refine Code.returns_bind.mpr ((returns_dereference (extends₄ _ _ found0)).mpr ?_)
    refine Code.returns_bind.mpr ((returns_dereference found1).mpr ?_)
    have extended : heap.Extends heap₄ := ((extends₁.trans extends₂).trans extends₃).trans extends₄
    refine ⟨extended.trans (heap₄.extends_construct _), rfl, _, heap₄.read_construct _, ?_⟩
    rw [rows]
    exact agg.combine_append behaves₁ behaves₂

/-- A tree that is combined has no empty chunk. -/
theorem chunks_of_returns {tree : CombineTree InTs} {heap : Heap Agg}
    {post : Heap Agg × NullableDatum → Machine Backend → Prop}
    (returns : (combineAggregate agg.toAggregate (aggregateCall address aggcontext) tree
      heap).Returns s post) : ∀ chunk ∈ tree.chunks, chunk ≠ [] := by
  induction tree generalizing heap s post with
  | worker chunk =>
    intro chunk' member
    cases List.mem_singleton.mp member
    rintro rfl
    exact not_returns_partialAggregate (Code.returns_bind.mp returns)
  | combine left right one two =>
    have first := Code.returns_bind.mp returns
    obtain ⟨_, t, _, second⟩ := Code.returns_iff.mp first
    intro chunk member
    rcases List.mem_append.mp member with here | there
    · exact one first chunk here
    · exact two (Code.returns_bind.mp second) chunk there

theorem returns_ffunc {heap : Heap Agg} {state : NullableDatum} {object : Agg}
    (pointer : state.isnull = false) (found : heap.read state.value = some object) :
    (aggregateFfunc agg.toAggregate heap (internal state)).Returns s fun result _ =>
      result = (agg.finalize object).intoNullableDatum := by
  refine .bind (returns_stateOrNew (standsFor_pointer pointer found)) ?_
  rintro ⟨heap', state0⟩ t ⟨_, found0⟩
  exact Code.returns_bind.mpr ((returns_dereference found0).mpr rfl)

/-- Parallel aggregation is sequential aggregation exactly when no worker goes without
rows. -/
theorem parallel_eq_sequential_iff (agg : LawfulAggregate InTs Agg) (address : Nat)
    (aggcontext : MemoryContext) (tree : CombineTree InTs) (s : Machine Backend) :
    (parallelAggregate agg.toAggregate (aggregateCall address aggcontext) tree).Returns s
      (fun result _ => result = agg.sequential tree.rows) ↔
    ∀ chunk ∈ tree.chunks, chunk ≠ [] := by
  constructor
  · intro returns
    exact chunks_of_returns agg (Code.returns_bind.mp returns)
  · intro some_
    refine .bind (returns_combineAggregate agg some_) ?_
    rintro ⟨heap, state⟩ t ⟨_, pointer, object, found, behaves⟩
    rw [returns_postgresFunction, Code.returns_pure]
    refine .bind (returns_ffunc agg pointer found) ?_
    rintro _ u rfl
    exact congrArg (·.intoNullableDatum.returned) (agg.finalize_eq behaves)

end Tree

/-! ## An aggregate of the repository's tests -/

/-- `aggregate_test::serialize`: the eight bytes of `x`. -/
def aggregateTestSerialize (x : BitVec 64) : Bytea :=
  [0, 1, 2, 3, 4, 5, 6, 7].map fun index => UInt8.ofNat (x.toNat >>> (8 * index))

/-- `aggregate_test(cppgres::bytea &)` -/
def aggregateTestDeserialize (a : Bytea) : BitVec 64 :=
  BitVec.ofNat 64 (a.foldr (fun byte rest => byte.toNat + 256 * rest) 0)

theorem aggregateTest_deserialize_serialize (x : BitVec 64) :
    aggregateTestDeserialize (aggregateTestSerialize x) = x := by
  apply BitVec.eq_of_toNat_eq
  have bound := x.isLt
  simp [aggregateTestDeserialize, aggregateTestSerialize]
  omega

/-- `aggregate_test`: a sum. -/
def aggregateTest : Aggregate (BitVec 64) (BitVec 64) where
  initial := 0
  update x v := x + v
  finalize x := .plain 20 x.toNat
  serialize := aggregateTestSerialize
  deserialize := aggregateTestDeserialize
  combine self other := self + other

theorem aggregateTest_stateOf (rows : List (BitVec 64)) : aggregateTest.stateOf rows = rows.sum :=
  List.sum_eq_foldl.symm

def lawfulAggregateTest : LawfulAggregate (BitVec 64) (BitVec 64) where
  toAggregate := aggregateTest
  BehavesAs := Eq
  finalize_eq := congrArg aggregateTest.finalize
  combine_append := by
    rintro _ _ xs ys rfl rfl
    rw [aggregateTest_stateOf, aggregateTest_stateOf, aggregateTest_stateOf, List.sum_append]
    rfl
  deserialize_serialize := aggregateTest_deserialize_serialize

example : (parallelAggregate aggregateTest (aggregateCall 0 1)
    (.combine (.worker [5, 7]) (.worker [1])) idle).1 = .returned ⟨13, false⟩ := by
  decide +kernel

/-- Two workers, of which one has no row: the sum would have been 5. -/
theorem idleWorker_fails :
    let tree : CombineTree (BitVec 64) := .combine (.worker [5]) (.worker [])
    let call := parallelAggregate lawfulAggregateTest.toAggregate (aggregateCall 0 1) tree
    lawfulAggregateTest.sequential tree.rows = ⟨5, false⟩ ∧ (call idle).1 = .jumped 0 ∧
      (call idle).2.store.elog.errordata.map (·.message) =
        ["exception: datum is null and can't be coerced into void *"] ∧
      ¬ call.Returns idle (fun result _ => result = lawfulAggregateTest.sequential tree.rows) :=
  ⟨rfl, rfl, rfl, id⟩

end Cppgres
