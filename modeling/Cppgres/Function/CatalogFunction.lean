import Cppgres.Datum.Arguments

/-!
# Functions of the catalog

`function<R, A...>` of `function.hpp`: the check of an entry of `pg_proc`, and the call. The
value and the flag of an argument come from two lambdas, of which the second looks at the C++
type of the argument only.
-/
namespace Cppgres

/-- What a parameter or an argument is, less `std::optional`. -/
inductive Plain where
  | static (T : StaticType)
  | value
  | nullable

namespace Plain

def Carrier : Plain → Type
  | .static T => T.Carrier
  | .value => RuntimeValue
  | .nullable => NullableDatum

/-- `type_traits<T>().type_for()`. -/
def typeFor : Plain → Oid
  | .static T => T.oid
  | .value => unknownOid
  | .nullable => anyOid

/-- `datum_conversion<T>::into_datum`. -/
def intoDatum : (A : Plain) → A.Carrier → Except CppException Datum
  | .static T, v => T.intoDatum v
  | .value, (v : RuntimeValue) => v.datum.datum
  | .nullable, (d : NullableDatum) => .ok (if d.isnull then 0 else d.value)

end Plain

/-- An implicit conversion of C++, to a type of a parameter: from another type with a SQL type of
its own, or from a `nullable_datum` by `operator const ::Datum &()`. -/
inductive Implicit where
  | static (U T : StaticType) (convert : U.Carrier → T.Carrier)
  | raw (T : StaticType) (convert : Datum → T.Carrier)

namespace Implicit

def source : Implicit → Plain
  | .static U _ _ => .static U
  | .raw _ _ => .nullable

def target : Implicit → StaticType
  | .static _ T _ => T
  | .raw T _ => T

def apply : (c : Implicit) → c.source.Carrier → Except CppException c.target.Carrier
  | .static _ _ convert, v => .ok (convert v)
  | .raw _ convert, (d : NullableDatum) => d.datum.map convert

/-- `datum_conversion<T>::into_datum` of the value that was converted. -/
def intoDatum (c : Implicit) (v : c.source.Carrier) : Except CppException Datum := do
  let converted ← c.apply v
  c.target.intoDatum converted

end Implicit

/-- An argument that `operator()` admits, with the parameter that it is for: `A` or
`std::optional<A>`. What is `converted` has another type than the parameter. -/
inductive CallArg where
  | given (A : Plain) (isOptional : Bool) (v : A.Carrier)
  | optional (A : Plain) (v : Option A.Carrier)
  | nullopt (A : Plain)
  | converted (c : Implicit) (isOptional : Bool) (v : c.source.Carrier)
  | optionalConverted (c : Implicit) (v : Option c.source.Carrier)

namespace CallArg

/-- The parameter, less `std::optional`: `type_traits` has the same type for both. -/
def param : CallArg → Plain
  | .given A _ _ => A
  | .optional A _ => A
  | .nullopt A => A
  | .converted c _ _ => .static c.target
  | .optionalConverted c _ => .static c.target

/-- `optval`. -/
def optval : CallArg → Except CppException Datum
  | .given A _ v => A.intoDatum v
  | .optional A (some v) => A.intoDatum v
  | .optional _ none => .ok 0
  | .nullopt _ => .ok 0
  | .converted c _ v => c.intoDatum v
  | .optionalConverted c (some v) => c.intoDatum v
  | .optionalConverted _ none => .ok 0

/-- `isnull`. -/
def isnull : CallArg → Bool
  | .given _ _ _ => false
  | .optional _ v => v.isNone
  | .nullopt _ => true
  | .converted _ _ _ => false
  | .optionalConverted _ v => v.isNone

end CallArg

/-- A type of a result, less `std::optional`, that is converted by `default_datum_conversion`
and has no null. -/
structure StaticResult where
  Carrier : Type
  typeName : String
  oid : Oid
  fromDatum : Datum → Oid → Except CppException Carrier

inductive PlainResult where
  | static (T : StaticResult)
  | value
  | nullable

inductive ResultType where
  | plain (R : PlainResult)
  | optional (R : PlainResult)

namespace PlainResult

def Carrier : PlainResult → Type
  | .static T => T.Carrier
  | .value => RuntimeValue
  | .nullable => NullableDatum

def typeFor : PlainResult → Oid
  | .static T => T.oid
  | .value => unknownOid
  | .nullable => anyOid

/-- `datum_conversion<R>::from_datum`. -/
def fromDatum : (R : PlainResult) → Datum → Oid → Except CppException R.Carrier
  | .static T, d, oid => T.fromDatum d oid
  | .value, d, oid => .ok (⟨⟨d, false⟩, oid⟩ : RuntimeValue)
  | .nullable, d, _ => .ok (⟨d, false⟩ : NullableDatum)

/-- `datum_conversion<R>::from_nullable_datum`. -/
def fromNullableDatum : (R : PlainResult) → NullableDatum → Oid → Except CppException R.Carrier
  | .static T, d, oid =>
    if d.isnull then .error (.std ("datum is null and can't be coerced into " ++ T.typeName))
    else T.fromDatum d.value oid
  | .value, d, oid => .ok (⟨d, oid⟩ : RuntimeValue)
  | .nullable, d, _ =>
    if d.isnull then .error (.std "datum is null and can't be coerced into cppgres::nullable_datum")
    else .ok (⟨d.value, false⟩ : NullableDatum)

def isNull : (R : PlainResult) → R.Carrier → Bool
  | .static _, _ => false
  | .value, (v : RuntimeValue) => v.datum.isnull
  | .nullable, (d : NullableDatum) => d.isnull

end PlainResult

namespace ResultType

def Carrier : ResultType → Type
  | .plain R => R.Carrier
  | .optional R => Option R.Carrier

def typeFor : ResultType → Oid
  | .plain R => R.typeFor
  | .optional R => R.typeFor

def fromNullableDatum : (R : ResultType) → NullableDatum → Oid → Except CppException R.Carrier
  | .plain R, d, oid => R.fromNullableDatum d oid
  | .optional R, d, oid =>
    if d.isnull then .ok (none : Option R.Carrier) else (R.fromDatum d.value oid).map some

def isNull : (R : ResultType) → R.Carrier → Bool
  | .plain R, v => R.isNull v
  | .optional _, none => true
  | .optional R, some v => R.isNull v

/-- What a strict function comes to that is not called. -/
def shortCircuit : (R : ResultType) → Except CppException R.Carrier
  | .plain _ => .error nullDatumException
  | .optional R => .ok (none : Option R.Carrier)

end ResultType

/-- `FormData_pg_proc`. -/
structure FormPgProc where
  proargtypes : List Oid
  prorettype : Oid
  proisstrict : Bool
  deriving DecidableEq, Repr

/-- `function<R, A...>`. -/
structure CatalogFunction where
  oid : Oid
  rettype : Oid
  strict : Bool
  deriving DecidableEq, Repr

namespace CatalogFunction

/-- The loop over `proargtypes`. -/
def checkArguments (formatType : Oid → String) : Nat → List Plain → List Oid →
    Except CppException Unit
  | i, A :: params, arg :: args =>
    if A.typeFor ≠ unknownOid ∧ arg ≠ A.typeFor then
      .error (.std ("expected type " ++ formatType A.typeFor ++ " for argument " ++ toString i ++
        ", got " ++ formatType arg))
    else checkArguments formatType (i + 1) params args
  | _, _, _ => .ok ()

/-- `function(oid oid)`, with what the system cache has for it. -/
def ofOid (formatType : Oid → String) (R : ResultType) (params : List Plain) (oid : Oid)
    (entry : Option FormPgProc) : Except CppException CatalogFunction :=
  match entry with
  | none => .error (.std "invalid tuple")
  | some p => do
    if p.proargtypes.length ≠ params.length then
      .error (.std ("expected " ++ toString params.length ++ " argument" ++
        (if params.length = 1 then "" else "s") ++ ", got " ++ toString p.proargtypes.length ++
        " instead"))
    checkArguments formatType 0 params p.proargtypes
    if R.typeFor ≠ unknownOid ∧ p.prorettype ≠ R.typeFor then
      .error (.std ("expected return type " ++ formatType R.typeFor ++ ", got " ++
        formatType p.prorettype))
    .ok ⟨oid, p.prorettype, p.proisstrict⟩

/-- What a call came to: the arguments of each invocation of the callee, and the result. -/
structure Outcome (R : ResultType) where
  invocations : List (List NullableDatum)
  result : Except CppException R.Carrier

/-- `operator()`. `invoke` is `FunctionCallInvoke`, behind its guard; `fmgr_info` finds an
entry that the constructor has found. -/
def call (f : CatalogFunction) (R : ResultType)
    (invoke : List NullableDatum → Except CppException NullableDatum) (args : List CallArg) :
    Outcome R :=
  match args.mapM CallArg.optval with
  | .error exception => ⟨[], .error exception⟩
  | .ok values =>
    if args.any CallArg.isnull && f.strict then ⟨[], R.shortCircuit⟩
    else
      let passed := List.zipWith NullableDatum.mk values (args.map CallArg.isnull)
      ⟨[passed], do
        let reply ← invoke passed
        R.fromNullableDatum (if reply.isnull then ⟨0, true⟩ else ⟨reply.value, false⟩) f.rettype⟩

end CatalogFunction

end Cppgres
