import Cppgres.Datum.Arguments
import Cppgres.Executor.SpiExecutor

/-!
# Parameters of a query

How `query` and `execute` make the arrays for SPI of their arguments. The types come from
`type_traits` of the deduced types, which for an lvalue is the specialization for references.
-/
namespace Cppgres

inductive Category where
  | lvalue
  | rvalue
  deriving DecidableEq, Repr

/-- An argument, with its type less `const` and reference. -/
inductive Given where
  | plain (T : StaticType) (v : T.Carrier)
  | optional (T : StaticType) (v : Option T.Carrier)
  | value (v : RuntimeValue)

/-- An argument as `Args &&...` has it. -/
structure Argument where
  category : Category
  isConst : Bool
  given : Given

namespace Given

/-- `type_traits<T>().type_for()`, where `T` may be `const`. In the primary template
`type_for` is deleted: no such call compiles. -/
def defaultTypeFor (isConst : Bool) : Given → Option Oid
  | .plain T _ => if isConst && !T.constTraits then none else some T.oid
  | .optional T _ => if isConst then none else some T.oid
  | .value _ => if isConst then none else some unknownOid

/-- `type_traits<T>(arg).type_for()`, where `T` may be `const`. -/
def typeFor (isConst : Bool) : Given → Option Oid
  | .plain T _ => if !T.constructed || (isConst && !T.constTraits) then none else some T.oid
  | .optional T _ => if isConst then none else some T.oid
  | .value v => if isConst then none else some v.type

end Given

namespace Argument

/-- `type_traits<Args>(arg).type_for()`. For a reference it is
`type_traits<std::remove_reference_t<Args>>().type_for()`, without the argument. -/
def typeFor (arg : Argument) : Option Oid :=
  match arg.category with
  | .lvalue => arg.given.defaultTypeFor arg.isConst
  | .rvalue => arg.given.typeFor arg.isConst

/-- `into_nullable_datum`. -/
def intoNullableDatum (arg : Argument) : Except CppException NullableDatum :=
  match arg.given with
  | .plain T v => (T.intoDatum v).map fun d => ⟨d, false⟩
  | .optional T (some v) => (T.intoDatum v).map fun d => ⟨d, false⟩
  | .optional _ none => .ok ⟨0, true⟩
  | .value v => .ok v.datum

/-- `into_nullable_datum(std::forward<Args>(args))...`, with the positions of the arguments
that were converted. -/
def makeNullableDatums (position : Nat) : List Argument →
    StateT (List Nat) (Except CppException) (List NullableDatum)
  | [] => pure []
  | arg :: args => do
    let d ← arg.intoNullableDatum
    modify (· ++ [position])
    let ds ← makeNullableDatums (position + 1) args
    pure (d :: ds)

/-- `{type_traits<Args>(args).type_for().oid...}`. -/
def types : List Argument → Option (List Oid)
  | [] => some []
  | arg :: args => do
    let oid ← arg.typeFor
    let oids ← types args
    some (oid :: oids)

/-- What SPI is given. A call that does not compile gives it nothing. -/
def statement (query : String) (opts : Options) (args : List Argument) :
    Option (StateT (List Nat) (Except CppException) Statement) := do
  let argtypes ← types args
  some do
    let nullableDatums ← makeNullableDatums 0 args
    pure {
      src := query
      argtypes
      values := SpiExecutor.makeDatums nullableDatums
      nulls := SpiExecutor.makeNulls nullableDatums
      readOnly := opts.readOnly
      tcount := opts.count }

/-- The statement, and the positions of the arguments that were converted for it. -/
def Hands (query : String) (opts : Options) (args : List Argument) (statement : Statement)
    (converted : List Nat) : Prop :=
  ∃ run, Argument.statement query opts args = some run ∧ run [] = .ok (statement, converted)

/-! ## What the arrays are to be -/

def sqlType (arg : Argument) : Oid :=
  match arg.given with
  | .plain T _ => T.oid
  | .optional T _ => T.oid
  | .value v => v.type

def isNull (arg : Argument) : Bool :=
  match arg.given with
  | .plain _ _ => false
  | .optional _ v => v.isNone
  | .value v => v.datum.isnull

/-- The datum of an argument that is not null. -/
def datum (arg : Argument) : Except CppException Datum :=
  match arg.given with
  | .plain T v => T.intoDatum v
  | .optional T (some v) => T.intoDatum v
  | .optional _ none => .error nullDatumException
  | .value v => v.datum.datum

/-- One entry per argument and array, in order. -/
structure Marshalled (args : List Argument) (statement : Statement) (converted : List Nat) :
    Prop where
  types : List.Forall₂ (fun arg oid => oid = arg.sqlType) args statement.argtypes
  nulls : List.Forall₂ (fun arg flag => flag = 'n' ↔ arg.isNull = true) args statement.nulls
  datums : List.Forall₂ (fun arg d => arg.isNull = false → arg.datum = .ok d) args statement.values
  once : converted = List.range args.length

/-- The argument is no `cppgres::value` that has a name and a type. -/
def TypeKept (arg : Argument) : Prop :=
  ∀ v, arg.category = .lvalue → arg.given = .value v → v.type = unknownOid

/-! ## Array by array -/

variable {arg : Argument} {args : List Argument}

/-- The only type that is lost is that of a value with a name. -/
theorem typeFor_eq {oid : Oid} (found : arg.typeFor = some oid) :
    oid = arg.sqlType ↔ arg.TypeKept := by
  obtain ⟨category, isConst, given⟩ := arg
  cases given with
  | plain T v =>
    have same : oid = T.oid := by
      cases category <;> simp_all [typeFor, Given.defaultTypeFor, Given.typeFor]
    simp [same, sqlType, TypeKept]
  | optional T v =>
    have same : oid = T.oid := by
      cases category <;> simp_all [typeFor, Given.defaultTypeFor, Given.typeFor]
    simp [same, sqlType, TypeKept]
  | value v =>
    cases category with
    | lvalue =>
      have same : oid = unknownOid := by
        simp_all [typeFor, Given.defaultTypeFor]
      simp [same, sqlType, TypeKept, eq_comm]
    | rvalue =>
      have same : oid = v.type := by
        simp_all [typeFor, Given.typeFor]
      simp [same, sqlType, TypeKept]

theorem types_found {oids : List Oid} (found : types args = some oids) :
    List.Forall₂ (fun arg oid => arg.typeFor = some oid) args oids := by
  induction args generalizing oids with
  | nil =>
    cases found
    exact .nil
  | cons arg args ih =>
    simp only [types, Option.bind_eq_bind, Option.bind_eq_some_iff, Option.some.injEq] at found
    obtain ⟨oid, first, oids, rest, same⟩ := found
    subst same
    exact .cons first (ih rest)

theorem types_kept_iff {oids : List Oid}
    (found : List.Forall₂ (fun arg oid => arg.typeFor = some oid) args oids) :
    List.Forall₂ (fun arg oid => oid = arg.sqlType) args oids ↔ ∀ arg ∈ args, arg.TypeKept :=
  forall₂_iff_forall_mem found fun _ _ _ here => typeFor_eq here

/-- Each argument is converted once, in order. -/
theorem makeNullableDatums_ok {position : Nat} {before converted : List Nat}
    {ds : List NullableDatum}
    (made : makeNullableDatums position args before = .ok (ds, converted)) :
    List.Forall₂ (fun arg d => arg.intoNullableDatum = .ok d) args ds ∧
      converted = before ++ List.range' position args.length := by
  induction args generalizing position before ds with
  | nil =>
    cases made
    exact ⟨.nil, by simp⟩
  | cons arg args ih =>
    cases first : arg.intoNullableDatum with
    | error failure =>
      rw [makeNullableDatums, first] at made
      cases made
    | ok d =>
      have split : makeNullableDatums position (arg :: args) before =
          (makeNullableDatums (position + 1) args (before ++ [position])).map
            fun later => (d :: later.1, later.2) := by
        rw [makeNullableDatums, first]
        change Except.bind (makeNullableDatums (position + 1) args (before ++ [position])) _ = _
        cases makeNullableDatums (position + 1) args (before ++ [position]) <;> rfl
      rw [split] at made
      cases rest : makeNullableDatums (position + 1) args (before ++ [position]) with
      | error failure =>
        rw [rest] at made
        cases made
      | ok later =>
        obtain ⟨later, after⟩ := later
        rw [rest] at made
        cases made
        obtain ⟨each, same⟩ := ih rest
        refine ⟨.cons first each, ?_⟩
        rw [same, List.length_cons, List.range'_succ, List.append_assoc, List.singleton_append]

/-- A value that was converted is not null. -/
theorem converted_ok {value : Except CppException Datum} {d : NullableDatum}
    (into : (value.map fun datum => NullableDatum.mk datum false) = .ok d) :
    d.isnull = false ∧ value = .ok d.value := by
  cases value with
  | error failure => cases into
  | ok value =>
    cases into
    exact ⟨rfl, rfl⟩

theorem intoNullableDatum_ok {d : NullableDatum} (into : arg.intoNullableDatum = .ok d) :
    d.isnull = arg.isNull ∧ (arg.isNull = false → arg.datum = .ok d.value) := by
  obtain ⟨category, isConst, given⟩ := arg
  cases given with
  | plain T v =>
    obtain ⟨notNull, converted⟩ := converted_ok into
    exact ⟨notNull, fun _ => converted⟩
  | optional T v =>
    cases v with
    | none =>
      cases into
      exact ⟨rfl, nofun⟩
    | some v =>
      obtain ⟨notNull, converted⟩ := converted_ok into
      exact ⟨notNull, fun _ => converted⟩
  | value v =>
    cases into
    refine ⟨rfl, fun notNull => ?_⟩
    have notNull : v.datum.isnull = false := notNull
    simp [datum, NullableDatum.datum, notNull]

theorem nulls_right {ds : List NullableDatum}
    (each : List.Forall₂ (fun arg d => arg.intoNullableDatum = .ok d) args ds) :
    List.Forall₂ (fun arg flag => flag = 'n' ↔ arg.isNull = true) args
      (SpiExecutor.makeNulls ds) := by
  rw [SpiExecutor.makeNulls, List.forall₂_map_right_iff]
  apply each.imp
  intro arg d into
  rw [← (intoNullableDatum_ok into).1]
  cases d.isnull <;> simp

theorem datums_right {ds : List NullableDatum}
    (each : List.Forall₂ (fun arg d => arg.intoNullableDatum = .ok d) args ds) :
    List.Forall₂ (fun arg d => arg.isNull = false → arg.datum = .ok d) args
      (SpiExecutor.makeDatums ds) := by
  rw [SpiExecutor.makeDatums, List.forall₂_map_right_iff]
  apply each.imp
  intro arg d into notNull
  obtain ⟨flag, value⟩ := intoNullableDatum_ok into
  rw [value notNull, flag, notNull]
  rfl

/-- What is handed over, by the parts that it was made of. -/
theorem hands_iff {query : String} {opts : Options} {statement : Statement} {converted : List Nat} :
    Hands query opts args statement converted ↔ ∃ argtypes ds, types args = some argtypes ∧
      makeNullableDatums 0 args [] = .ok (ds, converted) ∧
      statement = ⟨query, argtypes, SpiExecutor.makeDatums ds, SpiExecutor.makeNulls ds,
        opts.readOnly, opts.count⟩ := by
  unfold Hands Argument.statement
  cases found : types args with
  | none => simp
  | some argtypes =>
    simp only [Option.bind_eq_bind, Option.bind_some, Option.some.injEq, exists_eq_left']
    change Except.bind (makeNullableDatums 0 args []) _ = _ ↔ _
    cases made : makeNullableDatums 0 args [] with
    | error failure => simp [Except.bind]
    | ok result =>
      obtain ⟨ds, after⟩ := result
      constructor
      · intro run
        cases run
        exact ⟨argtypes, ds, rfl, rfl, rfl⟩
      · rintro ⟨argtypes', ds', same, made', whole⟩
        cases same
        cases made'
        rw [whole]
        rfl

/-- The arrays are right if and only if no value with a name has a type to lose. -/
theorem marshalled_iff {query : String} {opts : Options} {statement : Statement}
    {converted : List Nat} (hands : Hands query opts args statement converted) :
    Marshalled args statement converted ↔ ∀ arg ∈ args, arg.TypeKept := by
  obtain ⟨argtypes, ds, found, made, same⟩ := hands_iff.mp hands
  obtain ⟨each, once⟩ := makeNullableDatums_ok made
  subst same
  have kept := types_kept_iff (types_found found)
  constructor
  · intro right
    exact kept.mp right.types
  · intro keeps
    have once : converted = List.range args.length := by
      rw [once, List.nil_append, List.range_eq_range']
    exact ⟨kept.mpr keeps, nulls_right each, datums_right each, once⟩

/-- An `int64_t` with a name, a value without one, and a null. -/
def mixed : List Argument :=
  [⟨.lvalue, false, .plain int64 (5 : BitVec 64)⟩, ⟨.rvalue, false, .value ⟨⟨7, false⟩, 23⟩⟩,
    ⟨.lvalue, false, .optional int64 none⟩]

def mixedStatement : Statement :=
  ⟨"select $1, $2, $3", [20, 23, 20], [5, 7, 0], [' ', ' ', 'n'], false, 0⟩

theorem mixed_marshalled : Hands "select $1, $2, $3" ⟨false, 0⟩ mixed mixedStatement [0, 1, 2] ∧
    Marshalled mixed mixedStatement [0, 1, 2] := by
  have hands : Hands "select $1, $2, $3" ⟨false, 0⟩ mixed mixedStatement [0, 1, 2] :=
    ⟨_, rfl, rfl⟩
  refine ⟨hands, (marshalled_iff hands).mpr ?_⟩
  intro arg member v category given
  simp only [mixed, List.mem_cons, List.not_mem_nil, or_false] at member
  obtain same | same | same := member <;> subst same <;> cases given
  cases category

/-- `spi.query<int64_t>("select $1", v)`, with `v` an `int8` that was declared before. -/
theorem named_value_loses_type :
    Hands "select $1" ⟨false, 0⟩ [⟨.lvalue, false, .value ⟨⟨5, false⟩, 20⟩⟩]
      ⟨"select $1", [unknownOid], [5], [' '], false, 0⟩ [0] ∧
    ¬ Marshalled [⟨.lvalue, false, .value ⟨⟨5, false⟩, 20⟩⟩]
      ⟨"select $1", [unknownOid], [5], [' '], false, 0⟩ [0] := by
  refine ⟨⟨_, rfl, rfl⟩, fun right => ?_⟩
  have types := right.types
  simp [sqlType, unknownOid] at types

/-! ## The same statement -/

/-- An argument as an executor has it, by its type and datum. -/
def outgoing (oid : Oid) (d : NullableDatum) : Outgoing :=
  if d.isnull then .optional oid none else .plain oid d.value

theorem outgoing_arrays {oids : List Oid} {ds : List NullableDatum}
    (length : oids.length = ds.length) :
    (List.zipWith outgoing oids ds).map Outgoing.typeFor = oids ∧
      SpiExecutor.makeDatums (SpiExecutor.makeNullableDatums (List.zipWith outgoing oids ds)) =
        SpiExecutor.makeDatums ds ∧
      SpiExecutor.makeNulls (SpiExecutor.makeNullableDatums (List.zipWith outgoing oids ds)) =
        SpiExecutor.makeNulls ds := by
  induction oids generalizing ds with
  | nil =>
    cases ds with
    | nil => exact ⟨rfl, rfl, rfl⟩
    | cons d ds => cases length
  | cons oid oids ih =>
    cases ds with
    | nil => cases length
    | cons d ds =>
      obtain ⟨types, datums, nulls⟩ := ih (Nat.succ.inj length)
      cases null : d.isnull <;>
        simp_all [outgoing, Outgoing.typeFor, Outgoing.intoNullableDatum, SpiExecutor.makeDatums,
          SpiExecutor.makeNulls, SpiExecutor.makeNullableDatums]

/-- It is the statement of `SpiExecutor.query` and `SpiExecutor.execute` for the arguments by
their types and datums. -/
theorem hands_statement {query : String} {opts : Options} {statement : Statement}
    {converted : List Nat} (hands : Hands query opts args statement converted) :
    ∃ outgoing : List Outgoing, outgoing.length = args.length ∧
      statement = SpiExecutor.statement query opts outgoing := by
  obtain ⟨argtypes, ds, found, made, same⟩ := hands_iff.mp hands
  have types := (types_found found).length_eq
  have datums := (makeNullableDatums_ok made).1.length_eq
  have length : argtypes.length = ds.length := by omega
  obtain ⟨oids, values, nulls⟩ := outgoing_arrays length
  refine ⟨List.zipWith outgoing argtypes ds, ?_, ?_⟩
  · rw [List.length_zipWith]
    omega
  · simp [same, SpiExecutor.statement, oids, values, nulls]

end Argument

end Cppgres
