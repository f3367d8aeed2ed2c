import Cppgres.Datum.Conversion
import Cppgres.Function.CurrentFunction
import Mathlib.Algebra.GroupWithZero.Nat

/-!
# Calls of exported functions

`postgres_function::operator()` for a function that does not return a set: the checks of its
types and of its arguments, the call of the C++ function, and what is given back to Postgres.
-/
namespace Cppgres
open NonLocal

/-- How a check or a conversion fails: by `report(ERROR, ...)`, by a C++ exception, with its
`what()` if it has one, or by a Postgres error in a guarded call. -/
inductive CheckFailure where
  | report (message : String)
  | thrown (what : Option String)
  | postgres (edata : ErrorData)
  deriving DecidableEq, Repr

/-- The failure where it happens. -/
def CheckFailure.raise {α : Type} : CheckFailure → Cpp α
  | .report message => Cppgres.report message
  | .thrown (some what) => Code.throwing (.std what)
  | .thrown none => Code.throwing .other
  | .postgres edata => ffiGuard (ereport edata)

def attempt {α : Type} : Except CheckFailure α → Cpp α
  | .ok value => pure value
  | .error failure => failure.raise

/-- A parameter type, with `type_traits` and `from_nullable_datum`. -/
structure Parameter (V : Type) where
  typeName : String
  representsNull : Bool
  is : Oid → Except CheckFailure Bool
  fromNullableDatum : NullableDatum → Oid → Except CheckFailure V
  refusesNull : representsNull = false → ∀ (d : NullableDatum) oid, d.isnull = true →
    ∃ failure, fromNullableDatum d oid = .error failure

/-- A return type that is not `void`. -/
structure ValueType where
  Carrier : Type
  typeName : String
  is : Oid → Except CheckFailure Bool
  intoNullableDatum : Carrier → Except CheckFailure NullableDatum

inductive ReturnType where
  | void
  | value (T : ValueType)

/-- `VOIDOID` -/
def voidOid : Oid := 2278

namespace ReturnType

def Carrier : ReturnType → Type
  | .void => Unit
  | .value T => T.Carrier

def typeName : ReturnType → String
  | .void => "void"
  | .value T => T.typeName

def is : ReturnType → Oid → Except CheckFailure Bool
  | .void, oid => .ok (oid == voidOid)
  | .value T, oid => T.is oid

end ReturnType

/-- The signature of a C++ function. -/
structure Signature (V : Type) where
  parameters : List (Parameter V)
  result : ReturnType

/-- `FmgrInfo`. `fnExpr` is the type of the calling expression with those of its arguments. -/
structure FmgrInfo where
  fnOid : Oid
  fnRetset : Bool
  fnExpr : Option (Oid × List Oid)
  deriving DecidableEq, Repr

/-- `FunctionCallInfoBaseData`: `nargs`, which is a `short`, is the number of `args`. -/
structure FunctionCall where
  info : FunctionCallInfo
  flinfo : FmgrInfo
  isnull : Bool
  args : List NullableDatum
  short : args.length < 2 ^ 15

/-- A row of `pg_proc`. -/
structure PgProc where
  prorettype : Oid
  proretset : Bool
  proargtypes : List Oid
  deriving DecidableEq, Repr

/-- What a call looks up: `SearchSysCache` on `PROCOID`, and `format_type_be`. -/
structure ProcCatalog where
  searchProc : Oid → Except CheckFailure (Option PgProc)
  formatType : Oid → String

def invalidOid : Oid := 0

def getFnExprRettype (flinfo : FmgrInfo) : Oid := (flinfo.fnExpr.map Prod.fst).getD invalidOid

def getFnExprArgtype (flinfo : FmgrInfo) (argnum : Nat) : Oid :=
  (flinfo.fnExpr.bind fun expr => expr.2[argnum]?).getD invalidOid

namespace ProcCatalog
variable (catalog : ProcCatalog)

/-- `syscache<Form_pg_proc, oid>` -/
def proc (oid : Oid) : Except CheckFailure PgProc := do
  match ← catalog.searchProc oid with
  | some proc => .ok proc
  | none => .error (.thrown (some "invalid tuple"))

/-- `type::name` -/
def name (oid : Oid) : Except CheckFailure String :=
  if oid = invalidOid then .error (.thrown (some "invalid type")) else .ok (catalog.formatType oid)

end ProcCatalog

namespace Signature
variable {V : Type} (F : Signature V) (catalog : ProcCatalog) (call : FunctionCall)

/-- `rettype` and `retset`. -/
def resultType : Except CheckFailure (Oid × Bool) :=
  let rettype := getFnExprRettype call.flinfo
  if rettype = invalidOid then do
    let proc ← catalog.proc call.flinfo.fnOid
    .ok (proc.prorettype, proc.proretset)
  else .ok (rettype, call.flinfo.fnRetset)

def checkResult : Except CheckFailure Unit := do
  let (rettype, retset) ← resultType catalog call
  if retset then
    .error (.report ("unexpected return type, set is expected, but `" ++ F.result.typeName ++
      "` does not conform to `cppgres::datumable_iterator`"))
  else if ← F.result.is rettype then .ok ()
  else do
    let name ← catalog.name rettype
    .error (.report ("unexpected return type, can't convert `" ++ name ++ "` into `" ++
      F.result.typeName ++ "`"))

def tooFew (arity got : Nat) : CheckFailure :=
  .report ("expected " ++ toString arity ++ " arguments, got " ++ toString got ++ " instead")

/-- `typ` -/
def argumentType (index : Nat) : Except CheckFailure Oid :=
  let typ := getFnExprArgtype call.flinfo index
  if typ = invalidOid then do
    let proc ← catalog.proc call.flinfo.fnOid
    .ok (proc.proargtypes[index]?.getD typ)
  else .ok typ

/-- The lambda for one argument. -/
def convertArgument (P : Parameter V) (index : Nat) (arg : NullableDatum) :
    Except CheckFailure V := do
  let typ ← argumentType catalog call index
  if ← P.is typ then P.fromNullableDatum arg typ
  else do
    let name ← catalog.name typ
    .error (.report ("unexpected type in position " ++ toString index ++ ", can't convert `" ++
      name ++ "` into `" ++ P.typeName ++ "`"))

/-- The pack expansion: the arguments from position `index` on. -/
def convertArguments : Nat → List (Parameter V) → List NullableDatum → Except CheckFailure (List V)
  | _, [], _ => .ok []
  | _, _ :: _, [] => .error (.thrown none)
  | index, P :: parameters, arg :: args => do
    let value ← convertArgument catalog call P index arg
    let values ← convertArguments (index + 1) parameters args
    .ok (value :: values)

/-- A `short` that was incremented so many times, as it compares with a `std::size_t`. -/
def accountedForArgs (count : Nat) : BitVec 64 := (BitVec.ofNat 16 count).signExtend 64

/-- All that comes before the call of the C++ function. -/
def checks : Except CheckFailure (List V) := do
  checkResult F catalog call
  let arity := F.parameters.length
  if call.args.length < arity then .error (tooFew arity call.args.length)
  else do
    let values ← convertArguments catalog call 0 F.parameters call.args
    if BitVec.ofNat 64 arity ≠ accountedForArgs values.length then
      .error (tooFew arity values.length)
    else .ok values

/-- The call of the C++ function, and what is given back: the datum and `fc->isnull`. -/
def callFunction : (R : ReturnType) → (List V → Cpp R.Carrier) → List V → Cpp NullableDatum
  | .void, func, values => do
    let _ ← func values
    pure ⟨0, call.isnull⟩
  | .value T, func, values => do
    let result ← func values
    let nd ← attempt (T.intoNullableDatum result)
    if nd.isnull then pure ⟨0, true⟩ else pure ⟨nd.value, call.isnull⟩

/-- `postgres_function::operator()` -/
def invoke (func : List V → Cpp F.result.Carrier) : Cpp NullableDatum :=
  postgresFunction call.info (attempt (F.checks catalog call)) (callFunction call F.result func)

end Signature

/-! ## The calls that reach the function -/

namespace Signature
variable {V : Type} (F : Signature V) (catalog : ProcCatalog) (call : FunctionCall)

/-- The argument at this position is taken, and converted to `value`. -/
structure TakesArgument (P : Parameter V) (index : Nat) (arg : NullableDatum) (value : V) :
    Prop where
  typed : ∃ typ, argumentType catalog call index = .ok typ ∧ P.is typ = .ok true ∧
    P.fromNullableDatum arg typ = .ok value
  null : P.representsNull = false → arg.isnull = false

/-- There are enough arguments, no set is expected, the type of the result is accepted, and
each parameter takes its argument. -/
structure Admits (values : List V) : Prop where
  enough : F.parameters.length ≤ call.args.length
  result : ∃ rettype, resultType catalog call = .ok (rettype, false) ∧
    F.result.is rettype = .ok true
  length : values.length = F.parameters.length
  arguments : ∀ index P, F.parameters[index]? = some P → ∃ arg value,
    call.args[index]? = some arg ∧ values[index]? = some value ∧
      TakesArgument catalog call P index arg value

/-- The call is that of the function with these values, whatever the function is. -/
def Invokes (s : Machine Backend) (values : List V) : Prop :=
  ∀ func : List V → Cpp F.result.Carrier, F.invoke catalog call func s =
    exceptionGuard (withCallHandle call.info (callFunction call F.result func values)) s

/-- The call raises an error, the same one whatever the function is: the error is on its way to
the innermost handler, with the failure on top of the error stack. -/
def Refuses (s : Machine Backend) (edata : ErrorData) : Prop :=
  ∃ t : Machine Backend, t.store.elog.errordata.head? = some edata ∧
    ∀ func : List V → Cpp F.result.Carrier,
      F.invoke catalog call func s = (s.store.elog.landing, t)

/-! ### The checks -/

theorem bind_eq_ok {ε α β : Type} {first : Except ε α} {next : α → Except ε β} {value : β} :
    first >>= next = .ok value ↔ ∃ middle, first = .ok middle ∧ next middle = .ok value := by
  cases first with
  | error failure => exact ⟨nofun, nofun⟩
  | ok middle => exact ⟨fun run => ⟨middle, rfl, run⟩, fun ⟨_, same, run⟩ => by cases same; exact run⟩

variable {F catalog call}

theorem checkResult_ok : checkResult F catalog call = .ok () ↔
    ∃ rettype, resultType catalog call = .ok (rettype, false) ∧
      F.result.is rettype = .ok true := by
  unfold checkResult
  rw [bind_eq_ok]
  constructor
  · rintro ⟨⟨rettype, retset⟩, found, checked⟩
    cases retset with
    | true => cases checked
    | false =>
      obtain ⟨accepted, is, checked⟩ := bind_eq_ok.mp checked
      cases accepted with
      | true => exact ⟨rettype, found, is⟩
      | false =>
        obtain ⟨name, _, refused⟩ := bind_eq_ok.mp checked
        cases refused
  · rintro ⟨rettype, found, is⟩
    exact ⟨(rettype, false), found, bind_eq_ok.mpr ⟨true, is, rfl⟩⟩

theorem convertArgument_ok {P : Parameter V} {index : Nat} {arg : NullableDatum} {value : V} :
    convertArgument catalog call P index arg = .ok value ↔
      TakesArgument catalog call P index arg value := by
  unfold convertArgument
  rw [bind_eq_ok]
  constructor
  · rintro ⟨typ, found, checked⟩
    obtain ⟨accepted, is, checked⟩ := bind_eq_ok.mp checked
    cases accepted with
    | true =>
      refine ⟨⟨typ, found, is, checked⟩, ?_⟩
      intro never
      by_contra null
      obtain ⟨failure, failed⟩ := P.refusesNull never arg typ (by simpa using null)
      have converted : P.fromNullableDatum arg typ = .ok value := checked
      rw [failed] at converted
      cases converted
    | false =>
      obtain ⟨name, _, refused⟩ := bind_eq_ok.mp checked
      cases refused
  · rintro ⟨⟨typ, found, is, converted⟩, _⟩
    exact ⟨typ, found, bind_eq_ok.mpr ⟨true, is, converted⟩⟩

theorem convertArguments_ok {index : Nat} {parameters : List (Parameter V)}
    {args : List NullableDatum} {values : List V} :
    convertArguments catalog call index parameters args = .ok values ↔
      values.length = parameters.length ∧
        ∀ offset P, parameters[offset]? = some P → ∃ arg value,
          args[offset]? = some arg ∧ values[offset]? = some value ∧
            TakesArgument catalog call P (index + offset) arg value := by
  induction parameters generalizing index args values with
  | nil =>
    unfold convertArguments
    cases values <;> simp
  | cons P parameters ih =>
    cases args with
    | nil =>
      unfold convertArguments
      refine ⟨nofun, ?_⟩
      rintro ⟨_, each⟩
      obtain ⟨arg, value, absent, _⟩ := each 0 P rfl
      cases absent
    | cons arg args =>
      unfold convertArguments
      simp only [bind_eq_ok, convertArgument_ok, ih]
      constructor
      · rintro ⟨value, taken, rest, ⟨length, each⟩, same⟩
        cases same
        refine ⟨congrArg Nat.succ length, ?_⟩
        intro offset Q found
        cases offset with
        | zero =>
          cases found
          exact ⟨arg, value, rfl, rfl, taken⟩
        | succ offset =>
          obtain ⟨arg', value', there, converted, takes⟩ := each offset Q found
          refine ⟨arg', value', there, converted, ?_⟩
          rwa [Nat.add_right_comm] at takes
      · rintro ⟨length, each⟩
        cases values with
        | nil => cases length
        | cons value rest =>
          obtain ⟨arg', value', there, converted, takes⟩ := each 0 P rfl
          cases there
          cases converted
          refine ⟨value, takes, rest, ⟨Nat.succ.inj length, ?_⟩, rfl⟩
          intro offset Q found
          obtain ⟨arg', value', there, converted, takes⟩ := each (offset + 1) Q found
          refine ⟨arg', value', there, converted, ?_⟩
          rwa [Nat.add_right_comm]

/-- A `short` counts as many arguments as a call can have. -/
theorem accountedForArgs_eq {count : Nat} (short : count < 2 ^ 15) :
    accountedForArgs count = BitVec.ofNat 64 count := by
  unfold accountedForArgs
  have positive : (BitVec.ofNat 16 count).msb = false := by
    rw [BitVec.msb_eq_false_iff_two_mul_lt, BitVec.toNat_ofNat, Nat.mod_eq_of_lt (by omega)]
    omega
  rw [BitVec.signExtend_eq_setWidth_of_msb_false positive]
  apply BitVec.eq_of_toNat_eq
  rw [BitVec.toNat_setWidth, BitVec.toNat_ofNat, BitVec.toNat_ofNat]
  omega

theorem checks_ok {values : List V} :
    F.checks catalog call = .ok values ↔ F.Admits catalog call values := by
  unfold checks
  rw [bind_eq_ok]
  constructor
  · rintro ⟨⟨⟩, checked, rest⟩
    have result := checkResult_ok.mp checked
    by_cases few : call.args.length < F.parameters.length
    · rw [if_pos few] at rest
      cases rest
    · rw [if_neg few] at rest
      obtain ⟨converted, each, rest⟩ := bind_eq_ok.mp rest
      obtain ⟨length, arguments⟩ := convertArguments_ok.mp each
      split at rest
      · cases rest
      · cases rest
        refine ⟨Nat.le_of_not_lt few, result, length, ?_⟩
        intro index P found
        obtain ⟨arg, value, there, converted, takes⟩ := arguments index P found
        rw [Nat.zero_add] at takes
        exact ⟨arg, value, there, converted, takes⟩
  · rintro ⟨enough, result, length, arguments⟩
    refine ⟨(), checkResult_ok.mpr result, ?_⟩
    rw [if_neg (Nat.not_lt.mpr enough)]
    refine bind_eq_ok.mpr ⟨values, ?_, ?_⟩
    · refine convertArguments_ok.mpr ⟨length, ?_⟩
      intro index P found
      rw [Nat.zero_add]
      exact arguments index P found
    · rw [if_neg]
      have short := call.short
      rw [length, accountedForArgs_eq (by omega)]
      simp

end Signature

/-! ### A failure under the guard -/

/-- The record of a failure, as it is given to Postgres. -/
def CheckFailure.edata : CheckFailure → ErrorData
  | .report message => reportData message
  | .thrown (some what) => reportData ("exception: " ++ what)
  | .thrown none => reportData "some exception occurred"
  | .postgres edata => edata

/-- With the lines of the callbacks that are installed. -/
def ErrorData.within (edata : ErrorData) (callbacks : List ErrorContextCallback) : ErrorData :=
  { edata with context := edata.context ++ callbacks }

section Failures
variable {α β : Type} {s : Machine Backend}

/-- An error on its way passes by what is left of the code, and by the handlers of exceptions. -/
theorem guarded_landing {m : Cpp α} {elog : Elog} {t : Machine Backend} (next : α → Cpp β)
    (run : m s = (elog.landing, t)) : exceptionGuard (m >>= next) s = (elog.landing, t) := by
  unfold exceptionGuard Code.catching
  rw [Code.bind_apply, run]
  unfold Elog.landing
  cases elog.exceptionStack <;> rfl

/-- An exception goes to its handler. -/
theorem guarded_thrown {m : Cpp α} {exception : CppException} {t : Machine Backend}
    (next : α → Cpp β) (run : m s = (.thrown exception, t)) :
    exceptionGuard (m >>= next) s =
      exceptionGuardHandler exception (handlerEntry exception t) :=
  exceptionGuard_thrown (Code.bind_thrown run)

/-- A guarded error is a `pg_exception` whose context has the record, after the flush too. -/
theorem ffiGuard_ereport (edata : ErrorData) :
    ∃ mcxt errorCxt u, (ffiGuard (ereport edata) : Cpp α) s = (.thrown (.pg mcxt errorCxt), u) ∧
      u.store.elog.records errorCxt = some (edata.within s.store.elog.errorContextStack) ∧
      u.store.elog.exceptionStack = s.store.elog.exceptionStack := by
  have jumped : (ereport edata : Cpp α) (ffiGuardEntry s) =
      (.jumped s.store.elog.nextBuffer, { ffiGuardEntry s with
        store := { (ffiGuardEntry s).store with
          elog := (ffiGuardEntry s).store.elog.errfinish edata } }) := by
    rw [ereport_apply]
    rfl
  have kept := ((ffiGuardEntry s).store.elog.errfinish edata).fresh_not_pending
  refine ⟨_, _, _, ffiGuard_jumped jumped rfl, ?_, rfl⟩
  unfold ffiGuardCaught
  dsimp only [Elog.flushErrorState, Elog.storeRecord]
  rw [if_neg kept, if_pos rfl]
  rfl

/-- However a check fails, an error with its record is raised, and what comes after the check
is not run. -/
theorem raised_failure (failure : CheckFailure) :
    ∃ t : Machine Backend,
      t.store.elog.errordata.head? =
        some (failure.edata.within s.store.elog.errorContextStack) ∧
      ∀ next : α → Cpp β,
        exceptionGuard (failure.raise >>= next) s = (s.store.elog.landing, t) := by
  cases failure with
  | report message =>
    exact ⟨_, rfl, fun next => guarded_landing next (ereport_apply (reportData message) s)⟩
  | thrown what =>
    cases what with
    | none =>
      have raised := @ereport_apply β (reportData "some exception occurred")
        (handlerEntry .other { s with uncaught := s.uncaught + 1 })
      refine ⟨_, ?_, fun next => (guarded_thrown next rfl).trans raised⟩
      rfl
    | some what =>
      have raised := @ereport_apply β (reportData ("exception: " ++ what))
        (handlerEntry (.std what) { s with uncaught := s.uncaught + 1 })
      refine ⟨_, ?_, fun next => (guarded_thrown next rfl).trans raised⟩
      rfl
  | postgres edata =>
    obtain ⟨mcxt, errorCxt, u, thrown, held, handlers⟩ := @ffiGuard_ereport α s edata
    have landing : (u.store.elog.landing : Exit CppException SigjmpBuf β) =
        s.store.elog.landing := by
      unfold Elog.landing
      rw [handlers]
    have rethrown := @rethrow_apply β errorCxt _ (handlerEntry (.pg mcxt errorCxt) u) held
    change _ = (u.store.elog.landing, _) at rethrown
    rw [landing] at rethrown
    refine ⟨_, ?_, fun next => (guarded_thrown next thrown).trans rethrown⟩
    rfl

end Failures

/-! ## The contract -/

/-- What is to be given back for a result. -/
def ReturnType.intoNullableDatum : (R : ReturnType) → R.Carrier → Except CheckFailure NullableDatum
  | .void, _ => .ok ⟨0, false⟩
  | .value T, (result : T.Carrier) => T.intoNullableDatum result

/-- A null has the datum 0. -/
def NullableDatum.normal (d : NullableDatum) : NullableDatum := if d.isnull then ⟨0, true⟩ else d

namespace Signature
variable {V : Type} {F : Signature V} {catalog : ProcCatalog} {call : FunctionCall}
  {s : Machine Backend} {values : List V}

theorem invokes_of_admits (admits : F.Admits catalog call values) :
    F.Invokes catalog call s values := by
  intro func
  unfold invoke postgresFunction
  rw [checks_ok.mpr admits]
  rfl

theorem refuses_of_not_admits (none : ¬ ∃ values, F.Admits catalog call values) :
    ∃ edata, F.Refuses catalog call s edata := by
  cases checked : F.checks catalog call with
  | ok values => exact absurd ⟨values, checks_ok.mp checked⟩ none
  | error failure =>
    obtain ⟨t, record, raised⟩ := @raised_failure (List V) NullableDatum s failure
    refine ⟨_, t, record, fun func => ?_⟩
    unfold invoke postgresFunction
    rw [checked]
    exact raised _

/-- A function that tells by a jump what it was called with. -/
def probe {R : Type} (target : List V → SigjmpBuf) (values : List V) : Cpp R := fun s =>
  (.jumped (target values), s)

theorem probed (target : List V → SigjmpBuf) (invokes : F.Invokes catalog call s values) :
    F.invoke catalog call (probe target) s = (.jumped (target values), pushed call.info s) := by
  rw [invokes]
  unfold exceptionGuard Code.catching
  rw [withCallHandle_apply]
  cases F.result <;> rfl

theorem not_invokes_of_refuses {edata : ErrorData} (refuses : F.Refuses catalog call s edata) :
    ¬ F.Invokes catalog call s values := by
  intro invokes
  obtain ⟨t, _, refused⟩ := refuses
  have other := probed (fun _ => s.store.elog.exceptionStack.getD 0 + 1) invokes
  rw [refused] at other
  unfold Elog.landing at other
  cases handler : s.store.elog.exceptionStack with
  | none => simp [handler] at other
  | some buffer => simp [handler] at other

theorem admits_of_invokes (invokes : F.Invokes catalog call s values) :
    F.Admits catalog call values := by
  classical
  by_cases some : ∃ values, F.Admits catalog call values
  · obtain ⟨admitted, admits⟩ := some
    let target (called : List V) : SigjmpBuf := if called = values then 1 else 0
    have one := probed target invokes
    rw [probed target (invokes_of_admits admits)] at one
    have same : admitted = values := by
      by_contra different
      simp [target, different] at one
    rwa [← same]
  · obtain ⟨edata, refuses⟩ := refuses_of_not_admits (s := s) some
    exact absurd invokes (not_invokes_of_refuses refuses)

theorem callFunction_returned (initially : call.isnull = false) {R : ReturnType}
    {func : List V → Cpp R.Carrier} {result : R.Carrier} {t u : Machine Backend}
    {nd : NullableDatum} (returned : func values t = (.returned result, u))
    (converted : R.intoNullableDatum result = .ok nd) :
    callFunction call R func values t = (.returned nd.normal, u) := by
  cases R with
  | void =>
    cases converted
    refine (Code.bind_returned returned).trans ?_
    rw [initially]
    rfl
  | value T =>
    have converted : T.intoNullableDatum result = .ok nd := converted
    refine (Code.bind_returned returned).trans ?_
    rw [converted, initially]
    obtain ⟨value, isnull⟩ := nd
    cases isnull <;> rfl

theorem gives_back (initially : call.isnull = false) {func : List V → Cpp F.result.Carrier}
    {result : F.result.Carrier} {u : Machine Backend} {nd : NullableDatum}
    (invokes : F.Invokes catalog call s values)
    (returned : func values (pushed call.info s) = (.returned result, u))
    (converted : F.result.intoNullableDatum result = .ok nd) :
    F.invoke catalog call func s = (.returned nd.normal, popped u) := by
  rw [invokes func]
  unfold exceptionGuard Code.catching
  rw [withCallHandle_apply, callFunction_returned initially returned converted]

/-- A call that meets all the conditions invokes the function, with the converted arguments, and
gives back what its result becomes; any other call raises an error without it. -/
theorem invocation_contract (F : Signature V) (catalog : ProcCatalog) (call : FunctionCall)
    (initially : call.isnull = false) (s : Machine Backend) :
    (∀ values, F.Invokes catalog call s values ↔ F.Admits catalog call values) ∧
    ((∃ edata, F.Refuses catalog call s edata) ↔ ¬ ∃ values, F.Admits catalog call values) ∧
    ∀ values, F.Admits catalog call values → ∀ func result u nd,
      func values (pushed call.info s) = (.returned result, u) →
      F.result.intoNullableDatum result = .ok nd →
      F.invoke catalog call func s = (.returned nd.normal, popped u) := by
  refine ⟨fun values => ⟨admits_of_invokes, invokes_of_admits⟩, ⟨?_, refuses_of_not_admits⟩, ?_⟩
  · rintro ⟨edata, refuses⟩ ⟨values, admits⟩
    exact not_invokes_of_refuses refuses (invokes_of_admits admits)
  · intro values admits func result u nd returned converted
    exact gives_back initially (invokes_of_admits admits) returned converted

end Signature

/-! ## The types of the library as parameters -/

/-- A type that throws a refusal where it does not convert. -/
def CheckFailure.ofRefusal (refusal : Refusal) : CheckFailure := .thrown (some refusal.what)

namespace Element
variable {V : Type} (catalog : Catalog)

def representsNull : Element V → Bool
  | .scalar _ => false
  | .composite _ => false
  | .converted _ => true
  | .optional _ _ => true

theorem refusesNull {element : Element V} (never : element.representsNull = false)
    {d : NullableDatum} (null : d.isnull = true) (oid : Oid) :
    ∃ refusal, (element.type catalog).fromNullableDatum d oid = .error refusal := by
  cases element with
  | scalar cast => exact ⟨_, if_pos null⟩
  | composite record => exact ⟨_, if_pos null⟩
  | converted conversion => cases never
  | optional nullopt element => cases never

def parameter (element : Element V) : Parameter V where
  typeName := (element.type catalog).typeName
  representsNull := element.representsNull
  is oid := ((element.type catalog).is oid).mapError .ofRefusal
  fromNullableDatum d oid := ((element.type catalog).fromNullableDatum d oid).mapError .ofRefusal
  refusesNull never d oid null := by
    obtain ⟨refusal, refused⟩ := refusesNull catalog never null oid
    exact ⟨.ofRefusal refusal, by rw [refused]; rfl⟩

end Element

/-- `int32_t` and `std::optional<int32_t>` to `int32_t`. -/
def addOptional : Signature (Option Datum) where
  parameters :=
    let int32 : Element (Option Datum) := .scalar ⟨"int", fun oid => oid == 23 || oid == 21, some⟩
    let catalog : Catalog := ⟨fun _ => none, fun _ => "integer"⟩
    [int32.parameter catalog, (Element.optional none int32).parameter catalog]
  result := .value ⟨Datum, "int", fun oid => .ok (oid == 23 || oid == 21), fun d => .ok ⟨d, false⟩⟩

/-- A call without types, as of an input function: one argument more than the function has. -/
def untypedCall : FunctionCall :=
  ⟨⟨0, none⟩, ⟨100, false, none⟩, false, [⟨5, false⟩, ⟨0, true⟩, ⟨7, false⟩], by decide⟩

def addOptionalCatalog : ProcCatalog :=
  ⟨fun _ => .ok (some ⟨23, false, [23, 23]⟩), fun _ => "integer"⟩

theorem untypedCall_admitted :
    addOptional.Admits addOptionalCatalog untypedCall [some 5, none] :=
  Signature.checks_ok.mp rfl

theorem untypedCall_invokes :
    addOptional.invoke addOptionalCatalog untypedCall
        (fun values => pure ((values.filterMap id).sum : Datum)) idle =
      (.returned ⟨5, false⟩, popped (pushed ⟨0, none⟩ idle)) :=
  (Signature.invocation_contract addOptional addOptionalCatalog untypedCall rfl idle).2.2
    [some 5, none] untypedCall_admitted _ (5 : Datum) _ ⟨5, false⟩ rfl rfl

end Cppgres
