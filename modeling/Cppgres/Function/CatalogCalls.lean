import Cppgres.Executor.SpiExecutor
import Cppgres.Function.CatalogFunction

/-!
# Calls of catalog functions

What a call is to pass to the function and to return, and for which arguments it does:
`CatalogFunction.passesExactly_iff`.
-/
namespace Cppgres

namespace Plain

def isNull : (A : Plain) → A.Carrier → Bool
  | .static _, _ => false
  | .value, (v : RuntimeValue) => v.datum.isnull
  | .nullable, (d : NullableDatum) => d.isnull

/-- A null that `into_datum` makes a zero of. -/
def Hidden : (A : Plain) → A.Carrier → Prop
  | .static _, _ => False
  | .value, _ => False
  | .nullable, (d : NullableDatum) => d.isnull = true

/-- `into_nullable_datum`. -/
def intoNullableDatum : (A : Plain) → A.Carrier → Except CppException NullableDatum
  | .static T, v => (T.intoDatum v).map fun d => ⟨d, false⟩
  | .value, (v : RuntimeValue) => .ok v.datum
  | .nullable, (d : NullableDatum) => .ok d

/-- The SQL type of a value, where it has one. -/
def sqlType : (A : Plain) → A.Carrier → Option Oid
  | .static T, _ => some T.oid
  | .value, (v : RuntimeValue) => some v.type
  | .nullable, _ => none

/-- The type that a value carries at run time. -/
def runTimeType : (A : Plain) → A.Carrier → Option Oid
  | .static _, _ => none
  | .value, (v : RuntimeValue) => some v.type
  | .nullable, _ => none

end Plain

namespace CallArg

/-! ## What an argument says -/

/-- The argument denotes SQL NULL. -/
def isNull : CallArg → Bool
  | .given A _ v => A.isNull v
  | .optional A (some v) => A.isNull v
  | .optional _ none => true
  | .nullopt _ => true
  | .converted c _ v => c.source.isNull v
  | .optionalConverted c (some v) => c.source.isNull v
  | .optionalConverted _ none => true

/-- `into_nullable_datum`, of the argument by itself. -/
def intoNullableDatum : CallArg → Except CppException NullableDatum
  | .given A _ v => A.intoNullableDatum v
  | .optional A (some v) => (A.intoDatum v).map fun d => ⟨d, false⟩
  | .optional _ none => .ok ⟨0, true⟩
  | .nullopt _ => .ok ⟨0, true⟩
  | .converted c _ v => c.source.intoNullableDatum v
  | .optionalConverted c (some v) => (c.source.intoDatum v).map fun d => ⟨d, false⟩
  | .optionalConverted _ none => .ok ⟨0, true⟩

/-- The SQL type of the datum that is passed for it. What is converted is a number, a text and so
on of the parameter's type then. -/
def sqlType : CallArg → Option Oid
  | .given A _ v => A.sqlType v
  | .optional A (some v) => A.sqlType v
  | .optional _ none => none
  | .nullopt _ => none
  | .converted c _ _ => some c.target.oid
  | .optionalConverted c v => v.map fun _ => c.target.oid

def runTimeType : CallArg → Option Oid
  | .given A _ v => A.runTimeType v
  | .optional A (some v) => A.runTimeType v
  | .optional _ none => none
  | .nullopt _ => none
  | .converted _ _ _ => none
  | .optionalConverted _ _ => none

/-- Neither `into_nullable_datum` nor what `operator()` makes of it throws. -/
def Converts (arg : CallArg) : Prop :=
  (∃ d, arg.intoNullableDatum = .ok d) ∧ ∃ value, arg.optval = .ok value

/-- `std::nullopt`, or an optional that is empty. -/
def Absent (arg : CallArg) : Prop := arg.isnull = true

/-- A null `nullable_datum`, for a parameter of that type. -/
def Hidden : CallArg → Prop
  | .given A _ v => A.Hidden v
  | .optional A (some v) => A.Hidden v
  | _ => False

/-- What is converted into the type of the parameter has the same datum as before. -/
def Unchanged : CallArg → Prop
  | .converted c _ v => c.source.isNull v = false → c.intoDatum v = c.source.intoDatum v
  | .optionalConverted c (some v) =>
    c.source.isNull v = false → c.intoDatum v = c.source.intoDatum v
  | _ => True

end CallArg

namespace CatalogFunction

/-- The callee is strict, and some argument is null. -/
def ShortCircuits (p : FormPgProc) (args : List CallArg) : Prop :=
  p.proisstrict = true ∧ ∃ arg ∈ args, arg.isNull = true

/-- The result has a place for a null. -/
def HasNull : ResultType → Prop
  | .optional _ => True
  | .plain .value => True
  | .plain .nullable => True
  | .plain (.static _) => False

/-- A null that is reported is refused, though the result has a place for it. -/
def RefusesNull : ResultType → Prop
  | .plain .nullable => True
  | _ => False

/-- What is asked of a call. Where the callee is invoked, it has the arguments that SPI would
have had. -/
structure PassesExactly (R : ResultType) (p : FormPgProc)
    (invoke : List NullableDatum → Except CppException NullableDatum) (args : List CallArg)
    (outcome : Outcome R) : Prop where
  strict : ShortCircuits p args → outcome.invocations = [] ∧
    (outcome.result = R.shortCircuit ∨ outcome.result = .error nullDatumException)
  invoked : ¬ ShortCircuits p args → ∃ passed, outcome.invocations = [passed] ∧
    List.Forall₂ (fun arg d => (d.isnull = true ↔ arg.isNull = true) ∧
      (arg.isNull = false → arg.intoNullableDatum = .ok d)) args passed
  typed : ¬ ShortCircuits p args → List.Forall₂ (fun arg oid => arg.isNull = false →
    ∀ type, arg.sqlType = some type → type = oid) args p.proargtypes
  agrees : ¬ ShortCircuits p args → ∃ ds,
    List.Forall₂ (fun arg d => arg.intoNullableDatum = .ok d) args ds ∧
    ∀ passed ∈ outcome.invocations,
      SpiExecutor.makeDatums passed = SpiExecutor.makeDatums ds ∧
      SpiExecutor.makeNulls passed = SpiExecutor.makeNulls ds
  result : ∀ passed reply r, outcome.invocations = [passed] → invoke passed = .ok reply →
    outcome.result = .ok r → (R.isNull r = true ↔ reply.isnull = true)
  null : ∀ passed reply, outcome.invocations = [passed] → invoke passed = .ok reply →
    reply.isnull = true → HasNull R → ∃ r, outcome.result = .ok r ∧ R.isNull r = true

/-- The arguments that are passed as they are, to a callee that reports no null for them where the
result refuses it. -/
def Faithful (R : ResultType) (p : FormPgProc)
    (invoke : List NullableDatum → Except CppException NullableDatum) (args : List CallArg) : Prop :=
  (ShortCircuits p args → ∃ arg ∈ args, arg.isNull = true ∧ ¬ arg.Hidden) ∧
  (¬ ShortCircuits p args →
    (∀ arg ∈ args, arg.isNull = true → arg.Absent) ∧
    (∀ arg ∈ args, arg.Unchanged) ∧
    List.Forall₂ (fun arg oid => arg.isNull = false → ∀ type, arg.runTimeType = some type →
      type = oid) args p.proargtypes ∧
    (RefusesNull R → ∀ ds reply, List.Forall₂ (fun arg d => arg.intoNullableDatum = .ok d) args ds →
      invoke ds = .ok reply → reply.isnull = false))

end CatalogFunction

/-! ## One argument -/

theorem Plain.Hidden.intoDatum {A : Plain} {v : A.Carrier} (hidden : A.Hidden v) :
    A.intoDatum v = .ok 0 := by
  cases A with
  | static T => cases hidden
  | value => cases hidden
  | nullable =>
    have null : (v : NullableDatum).isnull = true := hidden
    simp [Plain.intoDatum, null]

theorem Plain.null_cases {A : Plain} {v : A.Carrier} (null : A.isNull v = true) :
    A.Hidden v ∨ A.intoDatum v = .error nullDatumException := by
  cases A with
  | static T => cases null
  | nullable => exact .inl null
  | value =>
    have null : (v : RuntimeValue).datum.isnull = true := null
    exact .inr (by simp [Plain.intoDatum, NullableDatum.datum, null])

/-- A null that is a `nullable_datum` is not converted. -/
theorem Implicit.null_throws {c : Implicit} {v : c.source.Carrier}
    (null : c.source.isNull v = true) : c.intoDatum v = .error nullDatumException := by
  cases c with
  | static U T convert => cases null
  | raw T convert =>
    have null : (v : NullableDatum).isnull = true := null
    simp [Implicit.intoDatum, Implicit.apply, NullableDatum.datum, null, Except.map, bind,
      Except.bind]

namespace CallArg
variable {arg : CallArg} {args : List CallArg}

/-- An argument that is absent is a null, converted as one. -/
theorem Absent.spec (absent : arg.Absent) :
    arg.isNull = true ∧ arg.optval = .ok 0 ∧ arg.intoNullableDatum = .ok ⟨0, true⟩ := by
  cases arg with
  | given A isOptional v => cases absent
  | converted c isOptional v => cases absent
  | nullopt A => exact ⟨rfl, rfl, rfl⟩
  | optional A v =>
    cases v with
    | none => exact ⟨rfl, rfl, rfl⟩
    | some v => cases absent
  | optionalConverted c v =>
    cases v with
    | none => exact ⟨rfl, rfl, rfl⟩
    | some v => cases absent

theorem Hidden.optval (hidden : arg.Hidden) : arg.optval = .ok 0 ∧ arg.isnull = false := by
  cases arg with
  | given A isOptional v => exact ⟨Plain.Hidden.intoDatum hidden, rfl⟩
  | optional A v =>
    cases v with
    | none => cases hidden
    | some v => exact ⟨Plain.Hidden.intoDatum hidden, rfl⟩
  | nullopt A => cases hidden
  | converted c isOptional v => cases hidden
  | optionalConverted c v => cases hidden

/-- A null is absent, or hidden, or its conversion throws. -/
theorem null_cases (null : arg.isNull = true) :
    arg.Absent ∨ arg.Hidden ∨ arg.optval = .error nullDatumException := by
  cases arg with
  | nullopt A => exact .inl rfl
  | given A isOptional v => exact .inr (Plain.null_cases null)
  | converted c isOptional v => exact .inr (.inr (Implicit.null_throws null))
  | optional A v =>
    cases v with
    | none => exact .inl rfl
    | some v => exact .inr (Plain.null_cases null)
  | optionalConverted c v =>
    cases v with
    | none => exact .inl rfl
    | some v => exact .inr (.inr (Implicit.null_throws null))

theorem isnull_of_notNull (notNull : arg.isNull = false) : arg.isnull = false := by
  cases absent : arg.isnull with
  | false => rfl
  | true =>
    rw [Absent.spec absent |>.1] at notNull
    cases notNull

theorem intoDatum_notNull {A : Plain} {v : A.Carrier} {d : NullableDatum}
    (notNull : A.isNull v = false) (into : A.intoNullableDatum v = .ok d) :
    A.intoDatum v = .ok d.value ∧ d.isnull = false := by
  cases A with
  | static T =>
    change (T.intoDatum v).map (fun d => ⟨d, false⟩) = .ok d at into
    cases converted : T.intoDatum v with
    | error failure =>
      rw [converted] at into
      cases into
    | ok value =>
      rw [converted] at into
      cases into
      exact ⟨converted, rfl⟩
  | value =>
    have notNull : (v : RuntimeValue).datum.isnull = false := notNull
    cases into
    exact ⟨by simp [Plain.intoDatum, NullableDatum.datum, notNull], notNull⟩
  | nullable =>
    have notNull : (v : NullableDatum).isnull = false := notNull
    cases into
    exact ⟨by simp [Plain.intoDatum, notNull], notNull⟩

/-- The datum of an argument with a value, which is what an optional has. -/
theorem some_intoDatum {A : Plain} {v : A.Carrier} {d : NullableDatum}
    (into : ((A.intoDatum v).map fun d => (⟨d, false⟩ : NullableDatum)) = .ok d) :
    A.intoDatum v = .ok d.value ∧ d.isnull = false := by
  cases converted : A.intoDatum v with
  | error failure =>
    rw [converted] at into
    cases into
  | ok value =>
    rw [converted] at into
    cases into
    exact ⟨rfl, rfl⟩

/-- The datum of an argument that is not null, before it was converted. -/
theorem ownDatum_notNull {c : Implicit} {v : c.source.Carrier} {d : NullableDatum} {value : Datum}
    (notNull : c.source.isNull v = false) (own : c.source.intoDatum v = .ok d.value)
    (flag : d.isnull = false) (passed : c.intoDatum v = .ok value) :
    (c.source.isNull v = false → c.intoDatum v = c.source.intoDatum v) ↔ d = ⟨value, false⟩ := by
  rw [own, passed]
  constructor
  · intro unchanged
    have same := Except.ok.inj (unchanged notNull)
    rw [same, ← flag]
  · rintro rfl _
    rfl

/-- An argument that is not null is converted, into its own datum if the conversion to the type of
the parameter leaves that unchanged. -/
theorem optval_notNull (notNull : arg.isNull = false) (converts : arg.Converts) :
    ∃ value, arg.optval = .ok value ∧
      (arg.Unchanged ↔ arg.intoNullableDatum = .ok ⟨value, false⟩) := by
  obtain ⟨⟨d, into⟩, value, passed⟩ := converts
  refine ⟨value, passed, ?_⟩
  rw [into, Except.ok.injEq]
  have whole (own : arg.optval = .ok d.value) (flag : d.isnull = false) :
      d = ⟨value, false⟩ := by
    rw [← Except.ok.inj (own.symm.trans passed), ← flag]
  cases arg with
  | nullopt A => cases notNull
  | given A isOptional v =>
    obtain ⟨own, flag⟩ := intoDatum_notNull notNull into
    exact iff_of_true trivial (whole own flag)
  | optional A v =>
    cases v with
    | none => cases notNull
    | some v =>
      obtain ⟨own, flag⟩ := some_intoDatum into
      exact iff_of_true trivial (whole own flag)
  | converted c isOptional v =>
    obtain ⟨own, flag⟩ := intoDatum_notNull notNull into
    exact ownDatum_notNull notNull own flag passed
  | optionalConverted c v =>
    cases v with
    | none => cases notNull
    | some v =>
      obtain ⟨own, flag⟩ := some_intoDatum into
      exact ownDatum_notNull notNull own flag passed

/-- An argument that hides no null is converted, changed or not. -/
theorem exists_optval (converts : arg.isNull = false → arg.Converts)
    (quiet : arg.isNull = true → arg.Absent ∨ arg.Hidden) : ∃ value, arg.optval = .ok value := by
  cases null : arg.isNull with
  | false => exact (converts null).2
  | true =>
    obtain absent | hidden := quiet null
    · exact ⟨0, absent.spec.2.1⟩
    · exact ⟨0, hidden.optval.1⟩

/-- What is passed for an argument is right if and only if a null is absent and what is converted
is unchanged. -/
theorem passed_iff {value : Datum} (converts : arg.isNull = false → arg.Converts)
    (converted : arg.optval = .ok value) :
    ((arg.isnull = true ↔ arg.isNull = true) ∧
      (arg.isNull = false → arg.intoNullableDatum = .ok ⟨value, arg.isnull⟩)) ↔
    (arg.isNull = true → arg.Absent) ∧ arg.Unchanged := by
  cases null : arg.isNull with
  | false =>
    obtain ⟨value', converted', whole⟩ := optval_notNull null (converts null)
    have same : value' = value := Except.ok.inj (converted'.symm.trans converted)
    subst same
    simp [isnull_of_notNull null, whole]
  | true =>
    have unchanged : arg.Unchanged := by
      unfold Unchanged
      split
      · intro notNull
        cases null.symm.trans notNull
      · intro notNull
        cases null.symm.trans notNull
      · trivial
    simp [Absent, unchanged]

/-- A type that is not carried at run time is that of the parameter. -/
theorem sqlType_cases {type : Oid} (typed : arg.sqlType = some type) :
    arg.runTimeType = some type ∨ type = arg.param.typeFor ∧ type ≠ unknownOid := by
  have plain {A : Plain} {v : A.Carrier} (typed : A.sqlType v = some type) :
      A.runTimeType v = some type ∨ type = A.typeFor ∧ type ≠ unknownOid := by
    cases A with
    | static T =>
      cases typed
      exact .inr ⟨rfl, T.known⟩
    | value => exact .inl typed
    | nullable => cases typed
  cases arg with
  | given A isOptional v => exact plain typed
  | optional A v =>
    cases v with
    | none => cases typed
    | some v => exact plain typed
  | nullopt A => cases typed
  | converted c isOptional v =>
    cases typed
    exact .inr ⟨rfl, c.target.known⟩
  | optionalConverted c v =>
    cases v with
    | none => cases typed
    | some v =>
      cases typed
      exact .inr ⟨rfl, c.target.known⟩

theorem sqlType_of_runTimeType {type : Oid} (typed : arg.runTimeType = some type) :
    arg.sqlType = some type := by
  have plain {A : Plain} {v : A.Carrier} (typed : A.runTimeType v = some type) :
      A.sqlType v = some type := by
    cases A with
    | static T => cases typed
    | value => exact typed
    | nullable => cases typed
  cases arg with
  | given A isOptional v => exact plain typed
  | optional A v =>
    cases v with
    | none => cases typed
    | some v => exact plain typed
  | nullopt A => cases typed
  | converted c isOptional v => cases typed
  | optionalConverted c v => cases typed

end CallArg

namespace CatalogFunction
variable {formatType : Oid → String} {R : ResultType} {args : List CallArg} {oid : Oid}
  {p : FormPgProc} {f : CatalogFunction}
  {invoke : List NullableDatum → Except CppException NullableDatum}

/-! ## The constructor -/

theorem checkArguments_ok {i : Nat} {params : List Plain} {oids : List Oid}
    (length : oids.length = params.length)
    (accepted : checkArguments formatType i params oids = .ok ()) :
    List.Forall₂ (fun A oid => A.typeFor ≠ unknownOid → oid = A.typeFor) params oids := by
  induction params generalizing i oids with
  | nil =>
    cases oids with
    | nil => exact .nil
    | cons oid oids => cases length
  | cons A params ih =>
    cases oids with
    | nil => cases length
    | cons oid oids =>
      unfold checkArguments at accepted
      split at accepted
      · cases accepted
      · next passes =>
        have first : A.typeFor ≠ unknownOid → oid = A.typeFor := by
          intro known
          exact Classical.byContradiction fun other => passes ⟨known, other⟩
        exact .cons first (ih (Nat.succ.inj length) accepted)

/-- What the constructor has checked, and what it has kept. -/
theorem ofOid_ok {params : List Plain} (made : ofOid formatType R params oid (some p) = .ok f) :
    List.Forall₂ (fun A oid => A.typeFor ≠ unknownOid → oid = A.typeFor) params p.proargtypes ∧
      f = ⟨oid, p.prorettype, p.proisstrict⟩ := by
  unfold ofOid at made
  by_cases length : p.proargtypes.length = params.length
  · cases accepted : checkArguments formatType 0 params p.proargtypes with
    | error exception => simp [length, accepted, bind, Except.bind] at made
    | ok done =>
      have checked := checkArguments_ok length accepted
      by_cases ret : R.typeFor ≠ unknownOid ∧ p.prorettype ≠ R.typeFor
      · simp [length, accepted, ret, bind, Except.bind] at made
      · simp only [length, accepted, ret, ne_eq, not_true_eq_false, if_false, bind, Except.bind,
          Except.ok.injEq] at made
        exact ⟨checked, made.symm⟩
  · simp [length, bind, Except.bind] at made

/-! ## The two ways of a call -/

variable (R invoke) in
/-- The callee is invoked once. -/
theorem call_invokes {values : List Datum} (converted : args.mapM CallArg.optval = .ok values)
    (goes : (args.any CallArg.isnull && f.strict) = false) :
    f.call R invoke args =
      ⟨[List.zipWith NullableDatum.mk values (args.map CallArg.isnull)], do
        let reply ← invoke (List.zipWith NullableDatum.mk values (args.map CallArg.isnull))
        R.fromNullableDatum (if reply.isnull then ⟨0, true⟩ else ⟨reply.value, false⟩) f.rettype⟩ := by
  simp [call, converted, goes]

theorem call_invoked {passed : List NullableDatum}
    (invoked : (f.call R invoke args).invocations = [passed]) :
    ∃ values, args.mapM CallArg.optval = .ok values ∧
      passed = List.zipWith NullableDatum.mk values (args.map CallArg.isnull) ∧
      (f.call R invoke args).result = (do
        let reply ← invoke passed
        R.fromNullableDatum (if reply.isnull then ⟨0, true⟩ else ⟨reply.value, false⟩)
          f.rettype) := by
  cases converted : args.mapM CallArg.optval with
  | error exception => simp [call, converted] at invoked
  | ok values =>
    cases goes : args.any CallArg.isnull && f.strict with
    | true => simp [call, converted, goes] at invoked
    | false =>
      have whole := call_invokes R invoke converted goes
      rw [whole] at invoked ⊢
      cases invoked
      exact ⟨values, rfl, rfl, rfl⟩

/-- The arguments that are passed, one by one. -/
theorem passed_each {P : CallArg → NullableDatum → Prop} {values : List Datum}
    (length : args.length = values.length) :
    List.Forall₂ P args (List.zipWith NullableDatum.mk values (args.map CallArg.isnull)) ↔
      List.Forall₂ (fun arg value => P arg ⟨value, arg.isnull⟩) args values := by
  induction args generalizing values with
  | nil =>
    cases values with
    | nil => simp
    | cons value values => cases length
  | cons arg args ih =>
    cases values with
    | nil => cases length
    | cons value values => simp [ih (Nat.succ.inj length)]

theorem isNull_fromDatum {B : PlainResult} {d : Datum} {oid : Oid} {r : B.Carrier}
    (made : B.fromDatum d oid = .ok r) : B.isNull r = false := by
  cases B with
  | static T => rfl
  | value =>
    cases made
    rfl
  | nullable =>
    cases made
    rfl

/-- A result is null if and only if that is what was reported. -/
theorem isNull_fromNullableDatum {d : NullableDatum} {oid : Oid} {r : R.Carrier}
    (made : R.fromNullableDatum d oid = .ok r) : R.isNull r = d.isnull := by
  cases R with
  | plain B =>
    cases B with
    | static T =>
      cases null : d.isnull with
      | true => simp [ResultType.fromNullableDatum, PlainResult.fromNullableDatum, null] at made
      | false => rfl
    | value =>
      cases made
      rfl
    | nullable =>
      cases null : d.isnull with
      | true => simp [ResultType.fromNullableDatum, PlainResult.fromNullableDatum, null] at made
      | false =>
        change (if d.isnull then _ else _) = _ at made
        rw [null] at made
        cases made
        rfl
  | optional B =>
    cases null : d.isnull with
    | true =>
      change (if d.isnull then _ else _) = _ at made
      rw [null] at made
      cases made
      rfl
    | false =>
      change (if d.isnull then _ else (B.fromDatum d.value oid).map some) = .ok r at made
      rw [null] at made
      change (B.fromDatum d.value oid).map some = .ok r at made
      cases value : B.fromDatum d.value oid with
      | error exception =>
        rw [value] at made
        cases made
      | ok v =>
        rw [value] at made
        cases made
        exact isNull_fromDatum value

theorem hasNull_of_refusesNull (refuses : RefusesNull R) : HasNull R := by
  unfold RefusesNull at refuses
  split at refuses
  · exact trivial
  · cases refuses

/-- A result with a place for a null takes one, unless it is a `nullable_datum`. -/
theorem fromNullableDatum_null (place : HasNull R) (oid : Oid) :
    (∃ r, R.fromNullableDatum ⟨0, true⟩ oid = .ok r ∧ R.isNull r = true) ↔ ¬ RefusesNull R := by
  cases R with
  | optional B => exact iff_of_true ⟨_, rfl, rfl⟩ nofun
  | plain B =>
    cases B with
    | value => exact iff_of_true ⟨_, rfl, rfl⟩ nofun
    | static T => cases place
    | nullable =>
      refine iff_of_false ?_ (fun takes => takes trivial)
      rintro ⟨r, made, _⟩
      cases made

/-! ## Calls that pass and return what they are to -/

/-- What is returned is null if and only if that was reported, and a null that is reported is
returned unless the result refuses it. -/
theorem call_result {passed : List NullableDatum} {reply : NullableDatum}
    (invoked : (f.call R invoke args).invocations = [passed]) (replied : invoke passed = .ok reply) :
    (∀ r, (f.call R invoke args).result = .ok r → (R.isNull r = true ↔ reply.isnull = true)) ∧
      (reply.isnull = true → HasNull R →
        ((∃ r, (f.call R invoke args).result = .ok r ∧ R.isNull r = true) ↔ ¬ RefusesNull R)) := by
  obtain ⟨values, _, _, result⟩ := call_invoked invoked
  have result : (f.call R invoke args).result =
      R.fromNullableDatum (if reply.isnull then ⟨0, true⟩ else ⟨reply.value, false⟩) f.rettype := by
    rw [result, replied]
    rfl
  rw [result]
  constructor
  · intro r made
    rw [isNull_fromNullableDatum made]
    cases reply.isnull <;> simp
  · intro null place
    rw [null]
    exact fromNullableDatum_null place f.rettype

/-- The first conversion that throws is that of a null. -/
theorem thrown_of_null (converts : ∀ arg ∈ args, arg.isNull = false → arg.Converts)
    {exception : CppException} (converted : args.mapM CallArg.optval = .error exception) :
    exception = nullDatumException := by
  obtain ⟨thrower, among, thrown⟩ := mapM_error converted
  cases nullThrower : thrower.isNull with
  | false =>
    obtain ⟨value, fine, _⟩ :=
      CallArg.optval_notNull nullThrower (converts thrower among nullThrower)
    rw [fine] at thrown
    cases thrown
  | true =>
    obtain absent | hidden | throws := CallArg.null_cases nullThrower
    · rw [absent.spec.2.1] at thrown
      cases thrown
    · rw [hidden.optval.1] at thrown
      cases thrown
    · exact Except.error.inj (thrown.symm.trans throws)

/-- Where no conversion throws, a null that is not hidden is absent. -/
theorem absent_of_converted {values : List Datum} {arg : CallArg}
    (converted : args.mapM CallArg.optval = .ok values) (member : arg ∈ args)
    (null : arg.isNull = true) (shows : ¬ arg.Hidden) : arg.Absent := by
  obtain absent | hidden | throws := CallArg.null_cases null
  · exact absent
  · exact absurd hidden shows
  · obtain ⟨value, fine⟩ := exists_mapM_iff.mp ⟨values, converted⟩ arg member
    rw [fine] at throws
    cases throws

variable (R invoke) in
/-- A strict function with a null is left alone if and only if one of the nulls shows. -/
theorem shortCircuits_iff (strict : f.strict = true)
    (converts : ∀ arg ∈ args, arg.isNull = false → arg.Converts) :
    ((f.call R invoke args).invocations = [] ∧
      ((f.call R invoke args).result = R.shortCircuit ∨
        (f.call R invoke args).result = .error nullDatumException)) ↔
    ∃ arg ∈ args, arg.isNull = true ∧ ¬ arg.Hidden := by
  constructor
  · rintro ⟨untouched, _⟩
    by_contra none
    have hidden : ∀ arg ∈ args, arg.isNull = true → arg.Hidden := by
      intro arg member null
      exact Classical.byContradiction fun shows => none ⟨arg, member, null, shows⟩
    have each : ∀ arg ∈ args, ∃ value, arg.optval = .ok value := fun arg member =>
      CallArg.exists_optval (converts arg member) fun null => .inr (hidden arg member null)
    obtain ⟨values, converted⟩ := exists_mapM_iff.mpr each
    have flags : ∀ arg ∈ args, arg.isnull = false := by
      intro arg member
      cases null : arg.isNull with
      | false => exact CallArg.isnull_of_notNull null
      | true => exact (hidden arg member null).optval.2
    have goes : (args.any CallArg.isnull && f.strict) = false := by
      rw [Bool.and_eq_false_iff, List.any_eq_false]
      exact .inl fun arg member => by simp [flags arg member]
    rw [call_invokes R invoke converted goes] at untouched
    cases untouched
  · rintro ⟨arg, member, null, shows⟩
    cases converted : args.mapM CallArg.optval with
    | error exception =>
      have whole : f.call R invoke args = ⟨[], .error exception⟩ := by
        simp [call, converted]
      rw [whole, thrown_of_null converts converted]
      exact ⟨rfl, .inr rfl⟩
    | ok values =>
      have stops : (args.any CallArg.isnull && f.strict) = true := by
        rw [strict, Bool.and_true, List.any_eq_true]
        exact ⟨arg, member, absent_of_converted converted member null shows⟩
      have whole : f.call R invoke args = ⟨[], R.shortCircuit⟩ := by
        simp [call, converted, stops]
      rw [whole]
      exact ⟨rfl, .inl rfl⟩

variable (R invoke) in
/-- A call that is not cut short passes the right arguments if and only if its nulls are absent
and its numbers unchanged. -/
theorem invoked_iff (goes : ¬ (f.strict = true ∧ ∃ arg ∈ args, arg.isNull = true))
    (converts : ∀ arg ∈ args, arg.isNull = false → arg.Converts) :
    (∃ passed, (f.call R invoke args).invocations = [passed] ∧
      List.Forall₂ (fun arg d => (d.isnull = true ↔ arg.isNull = true) ∧
        (arg.isNull = false → arg.intoNullableDatum = .ok d)) args passed) ↔
    ∀ arg ∈ args, (arg.isNull = true → arg.Absent) ∧ arg.Unchanged := by
  have right {values : List Datum} (converted : args.mapM CallArg.optval = .ok values) :
      List.Forall₂ (fun arg value => (arg.isnull = true ↔ arg.isNull = true) ∧
        (arg.isNull = false → arg.intoNullableDatum = .ok ⟨value, arg.isnull⟩)) args values ↔
      ∀ arg ∈ args, (arg.isNull = true → arg.Absent) ∧ arg.Unchanged :=
    forall₂_iff_forall_mem (mapM_ok.mp converted) fun arg member _ here =>
      CallArg.passed_iff (converts arg member) here
  constructor
  · rintro ⟨passed, invoked, each⟩
    obtain ⟨values, converted, same, _⟩ := call_invoked invoked
    subst same
    rw [passed_each (mapM_ok.mp converted).length_eq] at each
    exact (right converted).mp each
  · intro fine
    have each : ∀ arg ∈ args, ∃ value, arg.optval = .ok value := fun arg member =>
      CallArg.exists_optval (converts arg member) fun null => .inl ((fine arg member).1 null)
    obtain ⟨values, converted⟩ := exists_mapM_iff.mpr each
    have goes : (args.any CallArg.isnull && f.strict) = false := by
      rw [Bool.and_eq_false_iff, List.any_eq_false]
      cases strict : f.strict with
      | false => exact .inr rfl
      | true =>
        refine .inl fun arg member flag => goes ⟨strict, arg, member, ?_⟩
        exact (CallArg.Absent.spec flag).1
    refine ⟨_, by rw [call_invokes R invoke converted goes], ?_⟩
    rw [passed_each (mapM_ok.mp converted).length_eq]
    exact (right converted).mpr fine

/-- The types are right if and only if those that values carry are. -/
theorem typed_iff (checked : List.Forall₂ (fun A oid => A.typeFor ≠ unknownOid → oid = A.typeFor)
      (args.map CallArg.param) p.proargtypes) :
    List.Forall₂ (fun arg oid => arg.isNull = false → ∀ type, arg.sqlType = some type → type = oid)
        args p.proargtypes ↔
      List.Forall₂ (fun arg oid => arg.isNull = false → ∀ type, arg.runTimeType = some type →
        type = oid) args p.proargtypes := by
  rw [List.forall₂_map_left_iff] at checked
  constructor
  · intro typed
    apply typed.imp
    intro arg oid right notNull type carried
    exact right notNull type (CallArg.sqlType_of_runTimeType carried)
  · intro carried
    apply List.Forall₂.mp _ checked carried
    intro arg oid declared right notNull type typed
    obtain carried | ⟨same, known⟩ := CallArg.sqlType_cases typed
    · exact right notNull type carried
    · rw [same] at known ⊢
      exact (declared known).symm

/-- What is passed is what an executor gives SPI. -/
theorem spi_agrees {passed : List NullableDatum}
    (absent : ∀ arg ∈ args, arg.isNull = true → arg.Absent)
    (each : List.Forall₂ (fun arg d => (d.isnull = true ↔ arg.isNull = true) ∧
      (arg.isNull = false → arg.intoNullableDatum = .ok d)) args passed) :
    ∃ ds, List.Forall₂ (fun arg d => arg.intoNullableDatum = .ok d) args ds ∧
      SpiExecutor.makeDatums passed = SpiExecutor.makeDatums ds ∧
      SpiExecutor.makeNulls passed = SpiExecutor.makeNulls ds := by
  refine ⟨passed.map fun d => if d.isnull then ⟨0, true⟩ else d, ?_, ?_, ?_⟩
  · rw [List.forall₂_map_right_iff]
    apply ((List.forall₂_and_left _ _).mpr ⟨absent, each⟩).imp
    intro arg d ⟨absent, flag, whole⟩
    cases null : d.isnull with
    | true => exact (absent (flag.mp null)).spec.2.2
    | false =>
      have notNull : arg.isNull = false := by
        rw [Bool.eq_false_iff, ne_eq, ← flag, null]
        decide
      exact whole notNull
  · rw [SpiExecutor.makeDatums, SpiExecutor.makeDatums, List.map_map]
    apply List.map_congr_left
    intro d _
    cases null : d.isnull <;> simp [null]
  · rw [SpiExecutor.makeNulls, SpiExecutor.makeNulls, List.map_map]
    apply List.map_congr_left
    intro d _
    cases null : d.isnull <;> simp [null]

/-- Arguments that are passed right are those that `into_nullable_datum` makes, a null included. -/
theorem passed_eq {passed ds : List NullableDatum}
    (absent : ∀ arg ∈ args, arg.isNull = true → arg.Absent)
    (invoked : (f.call R invoke args).invocations = [passed])
    (each : List.Forall₂ (fun arg d => (d.isnull = true ↔ arg.isNull = true) ∧
      (arg.isNull = false → arg.intoNullableDatum = .ok d)) args passed)
    (given : List.Forall₂ (fun arg d => arg.intoNullableDatum = .ok d) args ds) : passed = ds := by
  obtain ⟨values, converted, rfl, -⟩ := call_invoked invoked
  have paired := mapM_ok.mp converted
  rw [passed_each paired.length_eq] at each
  have made : List.Forall₂ (fun arg d => arg.intoNullableDatum = .ok d) args
      (List.zipWith NullableDatum.mk values (args.map CallArg.isnull)) := by
    rw [passed_each paired.length_eq]
    have both := (List.forall₂_and_left _ _).mpr ⟨absent, each⟩
    refine List.Forall₂.mp ?_ both paired
    rintro arg value ⟨absent, -, whole⟩ optval
    cases null : arg.isNull with
    | false => exact whole null
    | true =>
      obtain ⟨-, zero, into⟩ := (absent null).spec
      have flag : arg.isnull = true := absent null
      rw [into, flag, Except.ok.inj (zero.symm.trans optval)]
  refine List.right_unique_forall₂' ?_ made given
  intro arg one other first second
  exact Except.ok.inj (first.symm.trans second)

/-- A call passes exactly its arguments, and returns what was reported, if and only if they are
faithful. -/
theorem passesExactly_iff (made : ofOid formatType R (args.map CallArg.param) oid (some p) = .ok f)
    (converts : ∀ arg ∈ args, arg.isNull = false → arg.Converts) :
    PassesExactly R p invoke args (f.call R invoke args) ↔ Faithful R p invoke args := by
  obtain ⟨checked, same⟩ := ofOid_ok made
  have strict : f.strict = p.proisstrict := by rw [same]
  have typed := typed_iff checked
  by_cases short : ShortCircuits p args
  · have cut := shortCircuits_iff R invoke (strict.trans short.1) converts
    constructor
    · intro exactly
      exact ⟨fun _ => cut.mp (exactly.strict short), fun goes => absurd short goes⟩
    · intro faithful
      have untouched := cut.mpr (faithful.1 short)
      constructor
      · exact fun _ => untouched
      · exact fun goes => absurd short goes
      · exact fun goes => absurd short goes
      · exact fun goes => absurd short goes
      · intro passed reply r invoked
        rw [untouched.1] at invoked
        cases invoked
      · intro passed reply invoked
        rw [untouched.1] at invoked
        cases invoked
  · have goes : ¬ (f.strict = true ∧ ∃ arg ∈ args, arg.isNull = true) := by
      rw [strict]
      exact short
    have passes := invoked_iff R invoke goes converts
    constructor
    · intro exactly
      have fine := passes.mp (exactly.invoked short)
      refine ⟨fun cut => absurd cut short, fun _ => ⟨fun arg member => (fine arg member).1,
        fun arg member => (fine arg member).2, typed.mp (exactly.typed short), ?_⟩⟩
      intro refuses ds reply given replied
      obtain ⟨passed, invoked, each⟩ := exactly.invoked short
      obtain rfl := passed_eq (fun arg member => (fine arg member).1) invoked each given
      by_contra reported
      have null : reply.isnull = true := by simpa using reported
      have place := hasNull_of_refusesNull refuses
      exact ((call_result invoked replied).2 null place).mp
        (exactly.null passed reply invoked replied null place) refuses
    · intro faithful
      obtain ⟨absent, unchanged, carried, unreported⟩ := faithful.2 short
      obtain ⟨passed, invoked, each⟩ :=
        passes.mpr fun arg member => ⟨absent arg member, unchanged arg member⟩
      constructor
      · exact fun cut => absurd cut short
      · exact fun _ => ⟨passed, invoked, each⟩
      · exact fun _ => typed.mpr carried
      · intro _
        obtain ⟨ds, made, datums, nulls⟩ := spi_agrees absent each
        refine ⟨ds, made, fun passed' member => ?_⟩
        rw [invoked, List.mem_singleton] at member
        rw [member]
        exact ⟨datums, nulls⟩
      · intro passed reply r invoked replied
        exact (call_result invoked replied).1 r
      · intro passed' reply invoked' replied null place
        refine ((call_result invoked' replied).2 null place).mpr fun refuses => ?_
        obtain ⟨ds, given, _⟩ := spi_agrees absent each
        obtain rfl := List.singleton_inj.mp (invoked.symm.trans invoked')
        obtain rfl := passed_eq absent invoked each given
        rw [unreported refuses passed reply given replied] at null
        cases null

/-- `std::int64_t` as a result. -/
def int64Result : StaticResult where
  Carrier := BitVec 64
  typeName := "int64_t"
  oid := 20
  fromDatum d _ := .ok (BitVec.ofNat 64 d)

/-- `int32_t` for a parameter that is an `int64_t`, and the other way around. -/
def widened : Implicit := .static staticInt32 int64 fun v : BitVec 32 => v.signExtend 64

def narrowed : Implicit := .static int64 staticInt32 fun v : BitVec 64 => v.setWidth 32

/-- `f(int32_t(5), std::nullopt)`, for a function of two `int8` that is not strict. -/
def fiveAndNull : List CallArg :=
  [.converted widened false (5 : BitVec 32), .nullopt (.static int64)]

theorem fiveAndNull_passesExactly :
    ofOid toString (.optional (.static int64Result)) (fiveAndNull.map CallArg.param) 100
        (some ⟨[20, 20], 20, false⟩) = .ok ⟨100, 20, false⟩ ∧
      PassesExactly (.optional (.static int64Result)) ⟨[20, 20], 20, false⟩ (fun _ => .ok ⟨7, false⟩)
        fiveAndNull
        (call ⟨100, 20, false⟩ (.optional (.static int64Result)) (fun _ => .ok ⟨7, false⟩)
          fiveAndNull) := by
  have made : ofOid toString (.optional (.static int64Result)) (fiveAndNull.map CallArg.param) 100
      (some ⟨[20, 20], 20, false⟩) = .ok ⟨100, 20, false⟩ := rfl
  refine ⟨made, (passesExactly_iff made ?_).mpr ⟨?_, fun _ => ⟨?_, ?_, ?_, nofun⟩⟩⟩
  · intro arg member notNull
    simp only [fiveAndNull, List.mem_cons, List.not_mem_nil, or_false] at member
    obtain same | same := member <;> subst same
    · exact ⟨⟨⟨5, false⟩, rfl⟩, ⟨5, rfl⟩⟩
    · cases notNull
  · rintro ⟨strict, _⟩
    cases strict
  · intro arg member null
    simp only [fiveAndNull, List.mem_cons, List.not_mem_nil, or_false] at member
    obtain same | same := member <;> subst same
    · cases null
    · exact rfl
  · intro arg member
    simp only [fiveAndNull, List.mem_cons, List.not_mem_nil, or_false] at member
    obtain same | same := member <;> subst same
    · exact fun _ => rfl
    · trivial
  · refine .cons ?_ (.cons ?_ .nil) <;> intro _ type carried <;> cases carried

/-- A null `value` never gets to a function that is not strict; a null `nullable_datum` gets to
one that is, as a zero; a `value` of `text` gets to one of `int4`; 2^40 gets to one of `int4`, as a
zero; and a null that is reported is no `nullable_datum`. -/
theorem null_value_not_passed :
    ofOid toString (.plain .value) [.value] 100 (some ⟨[23], 23, false⟩) = .ok ⟨100, 23, false⟩ ∧
    call ⟨100, 23, false⟩ (.plain .value) (fun _ => .ok ⟨7, false⟩)
        [.given .value false (⟨⟨0, true⟩, 23⟩ : RuntimeValue)] = ⟨[], .error nullDatumException⟩ ∧
    ¬ PassesExactly (.plain .value) ⟨[23], 23, false⟩ (fun _ => .ok ⟨7, false⟩)
        [.given .value false (⟨⟨0, true⟩, 23⟩ : RuntimeValue)]
        (call ⟨100, 23, false⟩ (.plain .value) (fun _ => .ok ⟨7, false⟩)
          [.given .value false (⟨⟨0, true⟩, 23⟩ : RuntimeValue)]) ∧
    (call ⟨100, 16, true⟩ (.plain .value) (fun _ => .ok ⟨7, false⟩)
        [.given .nullable false (⟨0, true⟩ : NullableDatum)]).invocations = [[⟨0, false⟩]] ∧
    (call ⟨100, 23, false⟩ (.plain .value) (fun _ => .ok ⟨7, false⟩)
        [.given .value false (⟨⟨4096, false⟩, 25⟩ : RuntimeValue)]).invocations = [[⟨4096, false⟩]] ∧
    (call ⟨100, 23, false⟩ (.plain .value) (fun _ => .ok ⟨7, false⟩)
        [.converted narrowed false (BitVec.ofNat 64 0x10000000000)]).invocations = [[⟨0, false⟩]] ∧
    (call ⟨100, anyOid, false⟩ (.plain .nullable) (fun _ => .ok ⟨0, true⟩) []).result =
      .error (.std "datum is null and can't be coerced into cppgres::nullable_datum") := by
  refine ⟨rfl, rfl, ?_, rfl, rfl, rfl, rfl⟩
  intro exactly
  have goes : ¬ ShortCircuits ⟨[23], 23, false⟩ [.given .value false (⟨⟨0, true⟩, 23⟩ : RuntimeValue)] := by
    rintro ⟨strict, _⟩
    cases strict
  obtain ⟨passed, invoked, _⟩ := exactly.invoked goes
  cases invoked

end CatalogFunction

end Cppgres
