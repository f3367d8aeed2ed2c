import Cppgres.Aggregate.Parallel
import Cppgres.Datum.Arguments

/-!
# Aggregates of a class that is convertible into a datum

The other branch of `aggregate_sfunc` and `aggregate_combine`: the transition value is the
datum of the state itself, so that each call reads it and writes a new one, and a worker hands
its value to the leader as it is. Which state a null value stands for is up to the
`datum_conversion` of the class.
-/
namespace Cppgres
open NonLocal

/-- The user's class, with its `datum_conversion`. -/
structure ConvertibleAggregate (InTs Agg : Type) where
  /-- `Agg()` -/
  initial : Agg
  update : Agg → InTs → Agg
  /-- `Agg(const Agg &, const Agg &)` -/
  combine : Agg → Agg → Agg
  fromNullableDatum : NullableDatum → Oid → Except CppException Agg
  intoDatum : Agg → Except CppException Datum

variable {InTs Agg : Type}

section Functions
variable (agg : ConvertibleAggregate InTs Agg) (fc : FunctionCallInfo)

/-- `aggregate_sfunc`. The type of the argument is not looked at. -/
def convertibleSfunc (state : NullableDatum) (args : InTs) : Cpp Datum := do
  let _aggctx ← requireAggContext
  let state0 ← orThrow (agg.fromNullableDatum state anyOid)
  orThrow (agg.intoDatum (agg.update state0 args))

/-- `aggregate_combine` -/
def convertibleCombine (state other : NullableDatum) : Cpp Datum := do
  let _aggctx ← requireAggContext
  let state0 ← orThrow (agg.fromNullableDatum state anyOid)
  let state1 ← orThrow (agg.fromNullableDatum other anyOid)
  orThrow (agg.intoDatum (agg.combine state0 state1))

/-- A call by way of `postgres_function`, for a function that returns a datum. -/
def callForDatum (func : Cpp Datum) : Cpp NullableDatum := do
  let datum ← postgresFunction fc (pure ()) fun _ => func
  pure ⟨datum, false⟩

/-- The transition function over some rows, from a transition value on. -/
def advanceConvertible (state : NullableDatum) : List InTs → Cpp NullableDatum
  | [] => pure state
  | args :: rows => do
    let state ← callForDatum fc (convertibleSfunc agg state args)
    advanceConvertible state rows

/-- The transition value of a tree. Each worker begins with `start`, which is null or comes from
`initcond`, and so does the leader, as one more worker without rows. -/
def combineConvertible (start : NullableDatum) : CombineTree InTs → Cpp NullableDatum
  | .worker chunk => advanceConvertible agg fc start chunk
  | .combine left right => do
    let state ← combineConvertible start left
    let other ← combineConvertible start right
    callForDatum fc (convertibleCombine agg state other)

/-- The state after `update()` on these rows in order. -/
def ConvertibleAggregate.stateOf (rows : List InTs) : Agg := rows.foldl agg.update agg.initial

end Functions

/-- A class whose conversions and combining constructor mean what they are for. `BehavesAs` is any
relation of states that the operations respect. -/
structure LawfulConvertible (InTs Agg : Type) extends ConvertibleAggregate InTs Agg where
  BehavesAs : Agg → Agg → Prop
  intoDatum_eq : ∀ {one two}, BehavesAs one two → intoDatum one = intoDatum two
  update_behaves : ∀ {one two} args, BehavesAs one two →
    BehavesAs (update one args) (update two args)
  combine_append : ∀ {one two xs ys}, BehavesAs one (toConvertibleAggregate.stateOf xs) →
    BehavesAs two (toConvertibleAggregate.stateOf ys) →
    BehavesAs (combine one two) (toConvertibleAggregate.stateOf (xs ++ ys))
  comesBack : ∀ state, ∃ d later, intoDatum state = .ok d ∧
    fromNullableDatum ⟨d, false⟩ anyOid = .ok later ∧ BehavesAs later state

namespace LawfulConvertible
variable (agg : LawfulConvertible InTs Agg)

/-- The transition value to begin with stands for a new state. -/
def Begins (start : NullableDatum) : Prop :=
  ∃ state, agg.fromNullableDatum start anyOid = .ok state ∧ agg.BehavesAs state agg.initial

/-- The transition value stands for the state after these rows. -/
def StandsFor (value : NullableDatum) (rows : List InTs) : Prop :=
  ∃ state, agg.fromNullableDatum value anyOid = .ok state ∧
    agg.BehavesAs state (agg.stateOf rows)

/-- The transition value is the datum of the state after these rows. -/
def Holds (value : NullableDatum) (rows : List InTs) : Prop :=
  value.isnull = false ∧ agg.intoDatum (agg.stateOf rows) = .ok value.value

/-- The transition value of a tree: what to begin with if it is a lone worker without rows, the
datum of the state otherwise, also where no worker has a row. -/
def EndsWith (start : NullableDatum) (tree : CombineTree InTs) (value : NullableDatum) : Prop :=
  (tree = .worker [] → value = start) ∧ (tree ≠ .worker [] → agg.Holds value tree.rows)

end LawfulConvertible

/-! ## Each call -/

section Calls
variable {agg : LawfulConvertible InTs Agg} {address : Nat} {aggcontext : MemoryContext}
  {s : Machine Backend}

theorem LawfulConvertible.Holds.standsFor {value : NullableDatum} {rows : List InTs}
    (holds : agg.Holds value rows) : agg.StandsFor value rows := by
  obtain ⟨d, later, into, back, behaves⟩ := agg.comesBack (agg.stateOf rows)
  obtain ⟨value, isnull⟩ := value
  obtain ⟨notNull, same⟩ := holds
  cases notNull
  rw [into] at same
  cases same
  exact ⟨later, back, behaves⟩

theorem LawfulConvertible.Holds.unique {one two : NullableDatum} {rows : List InTs}
    (first : agg.Holds one rows) (second : agg.Holds two rows) : one = two := by
  obtain ⟨value, isnull⟩ := one
  obtain ⟨value', isnull'⟩ := two
  obtain ⟨notNull, same⟩ := first
  obtain ⟨notNull', same'⟩ := second
  cases notNull
  cases notNull'
  rw [same] at same'
  cases same'
  rfl

@[simp] theorem returns_orThrow {α : Type} {made : Except CppException α}
    {post : α → Machine Backend → Prop} :
    (orThrow made).Returns s post ↔ ∃ value, made = .ok value ∧ post value s := by
  cases made with
  | ok value =>
    constructor
    · exact fun holds => ⟨value, rfl, holds⟩
    · rintro ⟨_, same, holds⟩
      cases same
      exact holds
  | error exception => exact ⟨False.elim, fun ⟨_, same, _⟩ => nomatch same⟩

/-- The check of the context passes, and nothing that it changes is looked at later. -/
theorem returns_callForDatum {func : Cpp Datum} {post : NullableDatum → Prop} {returned : Prop}
    (body : ∀ t, func.Returns t (fun d _ => post ⟨d, false⟩) ↔ returned) :
    (callForDatum (aggregateCall address aggcontext) (do
      let _aggctx ← requireAggContext
      func)).Returns s (fun result _ => post result) ↔ returned := by
  unfold callForDatum
  rw [Code.returns_bind, returns_postgresFunction, Code.returns_pure]
  unfold requireAggContext callInfo
  simp only [Code.returns_bind, Code.returns_get, Code.returns_pure]
  exact body _

/-- A call of the transition function. -/
theorem returns_convertibleSfunc {state : NullableDatum} {args : InTs}
    {post : NullableDatum → Prop} :
    (callForDatum (aggregateCall address aggcontext)
      (convertibleSfunc agg.toConvertibleAggregate state args)).Returns s
        (fun result _ => post result) ↔
      ∃ state0, agg.fromNullableDatum state anyOid = .ok state0 ∧
        ∃ d, agg.intoDatum (agg.update state0 args) = .ok d ∧ post ⟨d, false⟩ :=
  returns_callForDatum fun t => by simp only [Code.returns_bind, returns_orThrow]

/-- A call of the combining function. -/
theorem returns_convertibleCombine {state other : NullableDatum} {post : NullableDatum → Prop} :
    (callForDatum (aggregateCall address aggcontext)
      (convertibleCombine agg.toConvertibleAggregate state other)).Returns s
        (fun result _ => post result) ↔
      ∃ state0, agg.fromNullableDatum state anyOid = .ok state0 ∧
        ∃ state1, agg.fromNullableDatum other anyOid = .ok state1 ∧
          ∃ d, agg.intoDatum (agg.combine state0 state1) = .ok d ∧ post ⟨d, false⟩ :=
  returns_callForDatum fun t => by simp only [Code.returns_bind, returns_orThrow]

theorem ConvertibleAggregate.stateOf_append (agg : ConvertibleAggregate InTs Agg)
    (seen : List InTs) (args : InTs) :
    agg.stateOf (seen ++ [args]) = agg.update (agg.stateOf seen) args := by
  unfold stateOf
  rw [List.foldl_append]
  rfl

/-! ## Over all rows -/

/-- The transition value over some rows: after the first one it is a datum. -/
theorem returns_advanceConvertible {value : NullableDatum} {seen rows : List InTs}
    (stands : agg.StandsFor value seen) :
    (advanceConvertible agg.toConvertibleAggregate (aggregateCall address aggcontext) value
      rows).Returns s fun result _ =>
        (rows = [] → result = value) ∧ (rows ≠ [] → agg.Holds result (seen ++ rows)) := by
  induction rows generalizing value seen s with
  | nil => exact ⟨fun _ => rfl, fun other => absurd rfl other⟩
  | cons args rows ih =>
    obtain ⟨state0, read, behaves⟩ := stands
    obtain ⟨d, -, into, -⟩ := agg.comesBack (agg.update state0 args)
    have holds : agg.Holds ⟨d, false⟩ (seen ++ [args]) := by
      refine ⟨rfl, ?_⟩
      rw [agg.stateOf_append, ← agg.intoDatum_eq (agg.update_behaves args behaves), into]
    have first : (callForDatum (aggregateCall address aggcontext)
        (convertibleSfunc agg.toConvertibleAggregate value args)).Returns s
          fun result _ => result = ⟨d, false⟩ :=
      returns_convertibleSfunc.mpr ⟨state0, read, d, into, rfl⟩
    refine .bind first ?_
    rintro _ t rfl
    refine (ih (s := t) holds.standsFor).mono ?_
    rintro result _ ⟨none, some_⟩
    refine ⟨nofun, fun _ => ?_⟩
    by_cases more : rows = []
    · rw [none more, more]
      exact holds
    · have rest := some_ more
      rwa [List.append_assoc] at rest

/-- What a tree ends with stands for the state after its rows. -/
theorem LawfulConvertible.EndsWith.standsFor {start result : NullableDatum}
    {tree : CombineTree InTs} (begins : agg.Begins start) (ends : agg.EndsWith start tree result) :
    agg.StandsFor result tree.rows := by
  by_cases empty : tree = .worker []
  · rw [ends.1 empty, empty]
    exact begins
  · exact (ends.2 empty).standsFor

theorem LawfulConvertible.EndsWith.unique {start one two : NullableDatum}
    {tree : CombineTree InTs} (first : agg.EndsWith start tree one)
    (second : agg.EndsWith start tree two) : one = two := by
  by_cases empty : tree = .worker []
  · rw [first.1 empty, second.1 empty]
  · exact (first.2 empty).unique (second.2 empty)

theorem returns_combineConvertible {start : NullableDatum} (begins : agg.Begins start)
    (tree : CombineTree InTs) :
    (combineConvertible agg.toConvertibleAggregate (aggregateCall address aggcontext) start
      tree).Returns s fun result _ => agg.EndsWith start tree result := by
  induction tree generalizing s with
  | worker chunk =>
    have advanced : (advanceConvertible agg.toConvertibleAggregate
        (aggregateCall address aggcontext) start chunk).Returns s fun result _ =>
          (chunk = [] → result = start) ∧ (chunk ≠ [] → agg.Holds result ([] ++ chunk)) :=
      returns_advanceConvertible begins
    refine advanced.mono ?_
    rintro result _ ⟨none, some_⟩
    have rows : (CombineTree.worker chunk).rows = chunk := List.append_nil chunk
    unfold LawfulConvertible.EndsWith
    rw [rows]
    refine ⟨fun same => none (CombineTree.worker.inj same), fun other => some_ ?_⟩
    rintro rfl
    exact other rfl
  | combine left right one two =>
    refine .bind one ?_
    intro state t first
    refine .bind two ?_
    intro other u second
    obtain ⟨state0, read0, behaves0⟩ := first.standsFor begins
    obtain ⟨state1, read1, behaves1⟩ := second.standsFor begins
    obtain ⟨d, -, into, -⟩ := agg.comesBack (agg.combine state0 state1)
    refine returns_convertibleCombine.mpr ⟨state0, read0, state1, read1, d, into, nofun, fun _ => ?_⟩
    have rows : (CombineTree.combine left right).rows = left.rows ++ right.rows :=
      List.flatten_append
    refine ⟨rfl, ?_⟩
    rw [rows, ← agg.intoDatum_eq (agg.combine_append behaves0 behaves1), into]

/-- The final function answers for a new state, or for the object that the value is taken to be
the address of. -/
theorem returns_aggregateFfunc {cls : Aggregate InTs Agg} {heap : Heap Agg} {state : Value}
    {post : NullableDatum → Prop} :
    (aggregateFfunc cls heap state).Returns s (fun result _ => post result) ↔
      state.datum.isnull = true ∧ post (cls.finalize cls.initial).intoNullableDatum ∨
        state.datum.isnull = false ∧ ∃ object, heap.read state.datum.value = some object ∧
          post (cls.finalize object).intoNullableDatum := by
  obtain ⟨⟨pointer, isnull⟩, type⟩ := state
  unfold aggregateFfunc stateOrNew voidPointer dereference
  cases isnull with
  | true =>
    rw [if_pos rfl, Code.returns_bind, Code.returns_pure]
    simp only [heap.read_construct, Code.returns_bind, Code.returns_pure]
    simp
  | false =>
    simp only [Bool.false_eq_true, if_false, Code.returns_bind, Code.returns_pure, false_and,
      false_or, true_and]
    cases heap.read pointer with
    | none =>
      constructor
      · exact False.elim
      · rintro ⟨object, found, -⟩
        cases found
    | some object => simp

/-- Where what to begin with cannot be read, each call of a function throws. -/
theorem not_returns_unreadable {start : NullableDatum}
    (unreadable : ∀ state, agg.fromNullableDatum start anyOid ≠ .ok state)
    {tree : CombineTree InTs} (calls : tree ≠ .worker [])
    {post : NullableDatum → Machine Backend → Prop} :
    ¬ (combineConvertible agg.toConvertibleAggregate (aggregateCall address aggcontext) start
      tree).Returns s post := by
  induction tree generalizing s post with
  | worker chunk =>
    cases chunk with
    | nil => exact absurd rfl calls
    | cons args rows =>
      intro returns
      have first : (callForDatum (aggregateCall address aggcontext)
          (convertibleSfunc agg.toConvertibleAggregate start args)).Returns s fun _ _ => True :=
        (Code.returns_bind.mp returns).mono fun _ _ _ => trivial
      obtain ⟨state0, read, -⟩ := returns_convertibleSfunc.mp first
      exact unreadable state0 read
  | combine left right one _ =>
    intro returns
    have first := Code.returns_bind.mp returns
    by_cases empty : left = .worker []
    · subst empty
      obtain ⟨other, u, _, second⟩ := Code.returns_iff.mp (Code.returns_bind.mp first)
      have combined : (callForDatum (aggregateCall address aggcontext)
          (convertibleCombine agg.toConvertibleAggregate start other)).Returns u
            fun _ _ => True := second.mono fun _ _ _ => trivial
      obtain ⟨state0, read, -⟩ := returns_convertibleCombine.mp combined
      exact unreadable state0 read
    · exact one empty first

end Calls

/-! ## Parallel and sequential aggregation -/

section Results
variable (agg : LawfulConvertible InTs Agg) (address : Nat) (aggcontext : MemoryContext)
  (start : NullableDatum) (tree : CombineTree InTs) (s : Machine Backend)

/-- Where a new state is what the aggregate begins with, a tree of workers comes to the same as one
process over all rows, if there is a row, or what there is to begin with is the datum of a new
state: in a tree, no rows have the datum of a new state as well. Where what to begin with cannot be
read, as a null by `default_datum_conversion`, whatever calls a function fails. -/
theorem convertible_parallel_iff :
    (agg.Begins start →
      ((combineConvertible agg.toConvertibleAggregate (aggregateCall address aggcontext) start
          tree).Returns s (fun result t =>
        (advanceConvertible agg.toConvertibleAggregate (aggregateCall address aggcontext) start
          tree.rows).Returns t fun whole _ => result = whole) ↔
        tree.rows ≠ [] ∨ tree = .worker [] ∨ agg.Holds start [])) ∧
    ((∀ state, agg.fromNullableDatum start anyOid ≠ .ok state) →
      ((combineConvertible agg.toConvertibleAggregate (aggregateCall address aggcontext) start
          tree).Returns s (fun _ _ => True) ↔ tree = .worker [])) := by
  constructor
  · intro begins
    obtain ⟨result, t, run, alone, combined⟩ :=
      Code.returns_iff.mp (@returns_combineConvertible _ _ agg address aggcontext s start begins tree)
    obtain ⟨whole, u, run', none, some_⟩ := Code.returns_iff.mp
      (@returns_advanceConvertible _ _ agg address aggcontext t start [] tree.rows begins)
    have same : (combineConvertible agg.toConvertibleAggregate (aggregateCall address aggcontext)
        start tree).Returns s (fun result t =>
          (advanceConvertible agg.toConvertibleAggregate (aggregateCall address aggcontext) start
            tree.rows).Returns t fun whole _ => result = whole) ↔ result = whole := by
      simp only [Code.Returns, run, run']
    rw [same]
    by_cases empty : tree = .worker []
    · have rows : tree.rows = [] := by rw [empty]; rfl
      rw [alone empty, none rows]
      exact ⟨fun _ => .inr (.inl empty), fun _ => rfl⟩
    · have holds := combined empty
      by_cases rows : tree.rows = []
      · rw [none rows]
        rw [rows] at holds
        constructor
        · rintro rfl
          exact .inr (.inr holds)
        · rintro (some_ | alone | holds')
          · exact absurd rows some_
          · exact absurd alone empty
          · exact holds.unique holds'
      · exact ⟨fun _ => .inl rows, fun _ => holds.unique (some_ rows)⟩
  · intro unreadable
    constructor
    · intro returns
      by_contra calls
      exact not_returns_unreadable unreadable calls returns
    · rintro rfl
      trivial

/-- A class that is convertible and has `finalize()` besides: the final function takes the datum
of its state for the address of an object, and answers for whatever object is there. Where there is
none, it has no answer. -/
theorem convertible_final_iff (begins : agg.Begins start) (cls : Aggregate InTs Agg) (stype : Oid)
    (heap : Heap Agg) (answer : NullableDatum) :
    (do
      let state ← combineConvertible agg.toConvertibleAggregate
        (aggregateCall address aggcontext) start tree
      postgresFunction (aggregateCall address aggcontext) (pure ()) fun _ =>
        aggregateFfunc cls heap ⟨state, stype⟩ : Cpp NullableDatum).Returns s
        (fun result _ => result = answer) ↔
      ∃ value, agg.EndsWith start tree value ∧
        (value.isnull = true ∧ (cls.finalize cls.initial).intoNullableDatum = answer ∨
          value.isnull = false ∧ ∃ object, heap.read value.value = some object ∧
            (cls.finalize object).intoNullableDatum = answer) := by
  obtain ⟨result, t, run, ends⟩ :=
    Code.returns_iff.mp (@returns_combineConvertible _ _ agg address aggcontext s start begins tree)
  rw [Code.Returns.congr (Code.bind_returned run), returns_postgresFunction, Code.returns_pure,
    returns_aggregateFfunc]
  constructor
  · exact fun found => ⟨result, ends, found⟩
  · rintro ⟨value, ends', found⟩
    rwa [ends.unique ends']

end Results

/-! ## An aggregate of the repository's tests -/

/-- `aggregate_convertible_test`, with its `datum_conversion`: a sum. -/
def aggregateConvertibleTest : ConvertibleAggregate (BitVec 64) (BitVec 64) where
  initial := 0
  update x v := x + v
  combine self other := self + other
  fromNullableDatum d _ := if d.isnull then .ok 0 else .ok (BitVec.ofNat 64 d.value)
  intoDatum x := int64.intoDatum x

theorem aggregateConvertibleTest_stateOf (rows : List (BitVec 64)) :
    aggregateConvertibleTest.stateOf rows = rows.sum :=
  List.sum_eq_foldl.symm

def lawfulConvertibleTest : LawfulConvertible (BitVec 64) (BitVec 64) where
  toConvertibleAggregate := aggregateConvertibleTest
  BehavesAs := Eq
  intoDatum_eq := congrArg aggregateConvertibleTest.intoDatum
  update_behaves args same := congrArg (aggregateConvertibleTest.update · args) same
  combine_append := by
    rintro _ _ xs ys rfl rfl
    rw [aggregateConvertibleTest_stateOf, aggregateConvertibleTest_stateOf,
      aggregateConvertibleTest_stateOf, List.sum_append]
    rfl
  comesBack state := ⟨state.toNat, state, rfl, by
    change Except.ok (BitVec.ofNat 64 state.toNat) = _
    rw [BitVec.ofNat_toNat, BitVec.setWidth_eq], rfl⟩

/-- Without rows and `initcond`, one process gives null and a tree of two gives 0. -/
theorem noRows_differ :
    ¬ (combineConvertible aggregateConvertibleTest (aggregateCall 0 1) ⟨0, true⟩
        (.combine (.worker []) (.worker []))).Returns idle (fun result t =>
      (advanceConvertible aggregateConvertibleTest (aggregateCall 0 1) ⟨0, true⟩ []).Returns t
        fun whole _ => result = whole) := by
  have iff := (convertible_parallel_iff lawfulConvertibleTest 0 1 ⟨0, true⟩
    (.combine (.worker []) (.worker [])) idle).1 ⟨0, rfl, rfl⟩
  intro same
  rcases iff.mp same with some_ | alone | holds
  · exact some_ rfl
  · cases alone
  · cases holds.1

/-- With `initcond` 0, a class that also had `finalize()`: of the sum 2 it answers for the second object
in memory. -/
theorem aggregateTest_final :
    (do
      let state ← combineConvertible aggregateConvertibleTest (aggregateCall 0 1) ⟨0, false⟩
        (.worker [2])
      postgresFunction (aggregateCall 0 1) (pure ()) fun _ =>
        aggregateFfunc aggregateTest ⟨[7, 8]⟩ ⟨state, 20⟩ : Cpp NullableDatum).Returns idle
        (fun result _ => result = (aggregateTest.finalize 8).intoNullableDatum) :=
  (convertible_final_iff lawfulConvertibleTest 0 1 ⟨0, false⟩ (.worker [2]) idle ⟨0, rfl, rfl⟩
    aggregateTest 20 ⟨[7, 8]⟩ (aggregateTest.finalize 8).intoNullableDatum).mpr
    ⟨⟨2, false⟩, ⟨nofun, fun _ => ⟨rfl, rfl⟩⟩, .inr ⟨rfl, 8, rfl, rfl⟩⟩

end Cppgres
