import Cppgres.Function.CatalogCalls
import Cppgres.Function.ResultNumbers

/-!
# Calls from C++ to C++

What a `function<R, A...>` calls may be an exported C++ function. Its arguments are then made
into datums on one side and read on the other, with `FunctionCallInvoke` under an `ffi_guard`
between them, and the result comes back the same way.
-/
namespace Cppgres
open NonLocal

namespace CatalogFunction

/-- `operator()`, where `invoke` is `FunctionCallInvoke` on the arguments of `fcinfo`, and gives
back the datum with `fcinfo->isnull`. -/
def callOnMachine (f : CatalogFunction) (R : ResultType)
    (invoke : List NullableDatum → Cpp NullableDatum) (args : List CallArg) : Cpp R.Carrier := do
  let values ← orThrow (args.mapM CallArg.optval)
  if args.any CallArg.isnull && f.strict then orThrow R.shortCircuit
  else do
    let reply ← ffiGuard (invoke (List.zipWith NullableDatum.mk values (args.map CallArg.isnull)))
    orThrow (R.fromNullableDatum (if reply.isnull then ⟨0, true⟩ else ⟨reply.value, false⟩)
      f.rettype)

/-- It ends as `call` does, where the callee's replies do not depend on the machine. -/
theorem callOnMachine_call {f : CatalogFunction} {R : ResultType} {s : Machine Backend}
    {invoke : List NullableDatum → Cpp NullableDatum}
    {reply : List NullableDatum → Except CppException NullableDatum}
    (replies : ∀ passed, (ffiGuard (invoke passed) s).1 = (orThrow (reply passed) s).1)
    (args : List CallArg) :
    (f.callOnMachine R invoke args s).1 = (orThrow (f.call R reply args).result s).1 := by
  unfold callOnMachine call
  cases args.mapM CallArg.optval with
  | error exception => rfl
  | ok values =>
    change ((ite _ _ _ : Cpp R.Carrier) s).1 = _
    dsimp only
    by_cases circuits : (args.any CallArg.isnull && f.strict) = true
    · rw [if_pos circuits, if_pos circuits]
    · have replied := replies (List.zipWith NullableDatum.mk values (args.map CallArg.isnull))
      revert replied
      rcases run : ffiGuard (invoke (List.zipWith NullableDatum.mk values
        (args.map CallArg.isnull))) s with ⟨exit, t⟩
      intro replied
      rw [if_neg circuits, if_neg circuits, Code.bind_apply, run]
      generalize reply (List.zipWith NullableDatum.mk values (args.map CallArg.isnull)) = said at *
      cases said with
      | error exception =>
        cases replied
        rfl
      | ok d =>
        cases replied
        change (orThrow (R.fromNullableDatum (if d.isnull then ⟨0, true⟩ else ⟨d.value, false⟩)
          f.rettype) t).1 = (orThrow (R.fromNullableDatum _ f.rettype) s).1
        cases R.fromNullableDatum (if d.isnull then ⟨0, true⟩ else ⟨d.value, false⟩) f.rettype <;>
          rfl

end CatalogFunction

namespace Signature
variable {V : Type}

/-- The exported function as what `FunctionCallInvoke` calls: `fcinfo` has neither a context nor
a calling expression. No function in `pg_proc` has as many arguments as a `short` cannot count. -/
def exported (F : Signature V) (catalog : ProcCatalog) (address : Nat) (flinfo : FmgrInfo)
    (func : List V → Cpp F.result.Carrier) (args : List NullableDatum) : Cpp NullableDatum :=
  if short : args.length < 2 ^ 15 then
    F.invoke catalog ⟨⟨address, none⟩, flinfo, false, args, short⟩ func
  else Code.abort

end Signature

/-! ## A type on both sides -/

/-- A type of an argument on one side and of a parameter on the other. `absent` is the value of
the parameter for a null, if it has one. -/
structure Crossing (V : Type) where
  type : StaticType
  parameter : Parameter V
  inject : type.Carrier → V
  absent : Option V
  is : parameter.is type.oid = .ok true
  converts : ∀ v d, type.intoDatum v = .ok d →
    parameter.fromNullableDatum ⟨d, false⟩ type.oid = .ok (inject v)
  null : ∀ d : NullableDatum, d.isnull = true → parameter.fromNullableDatum d type.oid =
    match absent with
    | some v => .ok v
    | none => .error (.thrown (some ("datum is null and can't be coerced into " ++
        parameter.typeName)))

/-- What a null becomes, or what is said of it. -/
def Crossing.ofNull {V : Type} (c : Crossing V) : Except String V :=
  match c.absent with
  | some v => .ok v
  | none => .error ("datum is null and can't be coerced into " ++ c.parameter.typeName)

/-- What stands at the call for a parameter of this type. A value of another type `U` is converted
as C++ converts it. -/
inductive Crossing.Argument {V : Type} (c : Crossing V) where
  | given (isOptional : Bool) (v : c.type.Carrier)
  | optional (v : Option c.type.Carrier)
  | nullopt
  | converted (U : StaticType) (convert : U.Carrier → c.type.Carrier) (isOptional : Bool)
      (v : U.Carrier)
  | optionalConverted (U : StaticType) (convert : U.Carrier → c.type.Carrier)
      (v : Option U.Carrier)

/-- An argument with the type that it is for. -/
abbrev Crosser (V : Type) := (c : Crossing V) × c.Argument

namespace Crosser
variable {V : Type}

def callArg : Crosser V → CallArg
  | ⟨c, .given isOptional v⟩ => .given (.static c.type) isOptional v
  | ⟨c, .optional v⟩ => .optional (.static c.type) v
  | ⟨c, .nullopt⟩ => .nullopt (.static c.type)
  | ⟨c, .converted U convert isOptional v⟩ => .converted (.static U c.type convert) isOptional v
  | ⟨c, .optionalConverted U convert v⟩ => .optionalConverted (.static U c.type convert) v

/-- What the function gets for it: its value, or what the parameter has for a null. -/
def deliver : Crosser V → Except String V
  | ⟨c, .given _ v⟩ => .ok (c.inject v)
  | ⟨c, .optional (some v)⟩ => .ok (c.inject v)
  | ⟨c, .optional none⟩ => c.ofNull
  | ⟨c, .nullopt⟩ => c.ofNull
  | ⟨c, .converted _ convert _ v⟩ => .ok (c.inject (convert v))
  | ⟨c, .optionalConverted _ convert (some v)⟩ => .ok (c.inject (convert v))
  | ⟨c, .optionalConverted _ _ none⟩ => c.ofNull

/-- Its value, if it has one, is converted without an exception. -/
def Converts : Crosser V → Prop
  | ⟨c, .given _ v⟩ => ∃ d, c.type.intoDatum v = .ok d
  | ⟨c, .optional (some v)⟩ => ∃ d, c.type.intoDatum v = .ok d
  | ⟨_, .optional none⟩ => True
  | ⟨_, .nullopt⟩ => True
  | ⟨c, .converted _ convert _ v⟩ => ∃ d, c.type.intoDatum (convert v) = .ok d
  | ⟨c, .optionalConverted _ convert (some v)⟩ => ∃ d, c.type.intoDatum (convert v) = .ok d
  | ⟨_, .optionalConverted _ _ none⟩ => True

end Crosser

/-- A type of a result, on both sides. -/
structure ReturnCrossing where
  valueType : ValueType
  type : ResultType
  known : type.typeFor ≠ unknownOid
  inject : valueType.Carrier → type.Carrier
  is : valueType.is type.typeFor = .ok true
  converts : ∀ r nd, valueType.intoNullableDatum r = .ok nd →
    type.fromNullableDatum nd.normal type.typeFor = .ok (inject r)

/-! ## What is asked of the call -/

/-- The record that `exception_guard` makes Postgres report for an exception. -/
def CppException.edata (elog : Elog) : CppException → Option ErrorData
  | .pg _ errorCxt => elog.records errorCxt
  | .std what => some ((reportData ("exception: " ++ what)).within elog.errorContextStack)
  | .other => some ((reportData "some exception occurred").within elog.errorContextStack)

section
variable {α : Type} (s : Machine Backend) (calls : List FunctionCallInfo) (edata : ErrorData)

/-- A `pg_exception` with this record has left the call, and the handlers of Postgres are those
from before it. -/
structure Raises (run : Exit CppException SigjmpBuf α × Machine Backend) : Prop where
  thrown : ∃ mcxt errorCxt, run.1 = .thrown (.pg mcxt errorCxt) ∧
    run.2.store.elog.records errorCxt = some edata
  calls : run.2.store.calls = calls
  exceptionStack : run.2.store.elog.exceptionStack = s.store.elog.exceptionStack
  errorContextStack : run.2.store.elog.errorContextStack = s.store.elog.errorContextStack

end

/-- The machine in which the function is called. -/
def calleeEntry (address : Nat) (s : Machine Backend) : Machine Backend :=
  pushed ⟨address, none⟩ (ffiGuardEntry s)

/-- The call is one of `func` with these values: what it returns is the result, and what it
throws or raises comes out as a `pg_exception`. -/
structure Reaches {V : Type} (result : ReturnCrossing) (address : Nat) (s : Machine Backend)
    (func : List V → Cpp result.valueType.Carrier) (values : List V)
    (run : Exit CppException SigjmpBuf result.type.Carrier × Machine Backend) : Prop where
  returned : ∀ r nd t, func values (calleeEntry address s) = (.returned r, t) →
    result.valueType.intoNullableDatum r = .ok nd →
    run = (.returned (result.inject r), ffiGuardRestore s (popped t))
  unconverted : ∀ r failure t, func values (calleeEntry address s) = (.returned r, t) →
    t.store.elog.exceptionStack = (calleeEntry address s).store.elog.exceptionStack →
    result.valueType.intoNullableDatum r = .error failure → (∀ text, failure ≠ .report text) →
    Raises s t.store.calls.tail (failure.edata.within t.store.elog.errorContextStack) run
  thrown : ∀ exception edata t, func values (calleeEntry address s) = (.thrown exception, t) →
    t.store.elog.exceptionStack = (calleeEntry address s).store.elog.exceptionStack →
    exception.edata t.store.elog = some edata → Raises s t.store.calls.tail edata run
  /-- The jump skips the handle: the call stays on the stack. -/
  raised : ∀ edata older t, func values (calleeEntry address s) =
      (.jumped s.store.elog.nextBuffer, t) →
    t.store.elog.errordata = edata :: older → Raises s t.store.calls edata run
  aborted : ∀ t, func values (calleeEntry address s) = (.aborted, t) → run = (.aborted, t)


/-! ## Exceptions and errors under the two guards -/

section Guards
variable {α β : Type} {s t : Machine Backend} {calls : List FunctionCallInfo} {edata : ErrorData}

/-- Nothing follows it. -/
theorem Raises.bind {m : Cpp α} {next : α → Cpp β} (raises : Raises s calls edata (m t)) :
    Raises s calls edata ((m >>= next) t) := by
  obtain ⟨⟨mcxt, errorCxt, thrown, held⟩, same, handler, callbacks⟩ := raises
  rcases run : m t with ⟨exit, u⟩
  rw [run] at thrown held same handler callbacks
  cases thrown
  rw [Code.bind_thrown run]
  exact ⟨⟨mcxt, errorCxt, rfl, held⟩, same, handler, callbacks⟩

/-- An error that lands in an `ffi_guard`. -/
theorem raises_of_jumped {func : Cpp α} {older : List ErrorData}
    (run : func (ffiGuardEntry s) = (.jumped s.store.elog.nextBuffer, t))
    (raised : t.store.elog.errordata = edata :: older) :
    Raises s t.store.calls edata (ffiGuard func s) := by
  rw [ffiGuard_jumped run raised]
  have held : (ffiGuardCaught s t edata).store.elog.records t.store.elog.freshContext =
      some edata := by
    unfold ffiGuardCaught
    dsimp only [Elog.flushErrorState, Elog.storeRecord]
    rw [if_neg t.store.elog.fresh_not_pending, if_pos rfl]
  exact ⟨⟨_, _, rfl, held⟩, rfl, rfl, rfl⟩

/-- Each exception with a record is reported with it. -/
theorem handler_lands {exception : CppException}
    (record : exception.edata t.store.elog = some edata) :
    ∃ older u, (exceptionGuardHandler exception : Cpp α) t = (t.store.elog.landing, u) ∧
      u.store.elog.errordata = edata :: older ∧ u.store.calls = t.store.calls := by
  cases exception with
  | pg mcxt errorCxt => exact ⟨_, _, rethrow_apply record, rfl, rfl⟩
  | std what =>
    cases record
    exact ⟨_, _, ereport_apply _ t, rfl, rfl⟩
  | other =>
    cases record
    exact ⟨_, _, ereport_apply _ t, rfl, rfl⟩

/-- An exception that leaves a function goes to the caller as a `pg_exception`. -/
theorem raises_of_thrown {func : Cpp α} {exception : CppException}
    (run : func (ffiGuardEntry s) = (.thrown exception, t))
    (handler : t.store.elog.exceptionStack = some s.store.elog.nextBuffer)
    (record : exception.edata t.store.elog = some edata) :
    Raises s t.store.calls edata (ffiGuard (exceptionGuard func) s) := by
  have record : exception.edata (handlerEntry exception t).store.elog = some edata := record
  obtain ⟨older, u, lands, raised, same⟩ := handler_lands (α := α) record
  have guarded : exceptionGuard func (ffiGuardEntry s) = (.jumped s.store.elog.nextBuffer, u) := by
    refine (exceptionGuard_thrown run).trans (lands.trans ?_)
    unfold Elog.landing
    rw [show (handlerEntry exception t).store.elog.exceptionStack =
      some s.store.elog.nextBuffer from handler]
  have raises := raises_of_jumped guarded raised
  rwa [same] at raises

/-- All failures but a report are exceptions. -/
theorem CheckFailure.raise_thrown {failure : CheckFailure} (other : ∀ text, failure ≠ .report text)
    (t : Machine Backend) :
    ∃ exception u, (failure.raise : Cpp α) t = (.thrown exception, u) ∧
      exception.edata u.store.elog =
        some (failure.edata.within t.store.elog.errorContextStack) ∧
      u.store.elog.exceptionStack = t.store.elog.exceptionStack ∧
      u.store.calls = t.store.calls := by
  cases failure with
  | report text => exact absurd rfl (other text)
  | thrown what => cases what <;> exact ⟨_, _, rfl, rfl, rfl, rfl⟩
  | postgres edata =>
    have jumped : (ereport edata : Cpp α) (ffiGuardEntry t) =
        (.jumped t.store.elog.nextBuffer, { ffiGuardEntry t with
          store := { (ffiGuardEntry t).store with
            elog := (ffiGuardEntry t).store.elog.errfinish edata } }) := by
      rw [ereport_apply]
      rfl
    have raises := raises_of_jumped jumped rfl
    obtain ⟨⟨mcxt, errorCxt, thrown, held⟩, same, handler, _⟩ := raises
    exact ⟨_, _, Prod.ext thrown rfl, held, handler, same⟩

/-- What comes after a failure is not run. -/
theorem CheckFailure.raises (failure : CheckFailure) (next : α → Cpp β) :
    Raises s s.store.calls (failure.edata.within s.store.elog.errorContextStack)
      (ffiGuard (exceptionGuard (failure.raise >>= next)) s) := by
  by_cases other : ∀ text, failure ≠ .report text
  · obtain ⟨exception, u, raised, record, handler, same⟩ :=
      raise_thrown (α := α) other (ffiGuardEntry s)
    have left : (failure.raise >>= next) (ffiGuardEntry s) = (.thrown exception, u) :=
      Code.bind_thrown raised
    have raises := raises_of_thrown left handler record
    rwa [same] at raises
  · obtain ⟨text, rfl⟩ : ∃ text, failure = .report text := by
      simpa only [not_forall, ne_eq, not_not] using other
    have landed : exceptionGuard ((CheckFailure.report text).raise >>= next) (ffiGuardEntry s) = _ :=
      guarded_landing next (ereport_apply (reportData text) (ffiGuardEntry s))
    have raises := raises_of_jumped landed rfl
    exact raises

end Guards

/-! ## The arguments -/

namespace Crosser
variable {V : Type}

/-- The parameter's reading of what an argument was made into. -/
theorem fromNullableDatum_optval (arg : Crosser V) {d : Datum}
    (converted : arg.callArg.optval = .ok d) :
    arg.1.parameter.fromNullableDatum ⟨d, arg.callArg.isnull⟩ arg.1.type.oid =
      arg.deliver.mapError fun what => .thrown (some what) := by
  have nothing : ∀ d, arg.1.parameter.fromNullableDatum ⟨d, true⟩ arg.1.type.oid =
      arg.1.ofNull.mapError fun what => .thrown (some what) := by
    intro d
    rw [arg.1.null ⟨d, true⟩ rfl]
    unfold Crossing.ofNull
    cases arg.1.absent <;> rfl
  obtain ⟨c, argument⟩ := arg
  cases argument with
  | given isOptional v => exact c.converts v d converted
  | nullopt => exact nothing d
  | converted U convert isOptional v => exact c.converts (convert v) d converted
  | optional v =>
    cases v with
    | some v => exact c.converts v d converted
    | none => exact nothing d
  | optionalConverted U convert v =>
    cases v with
    | some v => exact c.converts (convert v) d converted
    | none => exact nothing d

theorem exists_optval {arg : Crosser V} (converts : arg.Converts) :
    ∃ d, arg.callArg.optval = .ok d := by
  obtain ⟨c, argument⟩ := arg
  cases argument with
  | given isOptional v => exact converts
  | nullopt => exact ⟨0, rfl⟩
  | converted U convert isOptional v => exact converts
  | optional v =>
    cases v with
    | some v => exact converts
    | none => exact ⟨0, rfl⟩
  | optionalConverted U convert v =>
    cases v with
    | some v => exact converts
    | none => exact ⟨0, rfl⟩

theorem exists_datums {args : List (Crosser V)} (converts : ∀ arg ∈ args, arg.Converts) :
    ∃ ds, (args.map callArg).mapM CallArg.optval = .ok ds := by
  rw [exists_mapM_iff]
  intro callArg member
  obtain ⟨arg, given, rfl⟩ := List.mem_map.mp member
  exact exists_optval (converts arg given)

end Crosser

section Arguments
variable {V : Type} {catalog : ProcCatalog} {call : FunctionCall}

/-- The parameters read their arguments one after the other, up to the first that cannot. -/
theorem convertArguments_delivers {args : List (Crosser V)} {ds : List Datum}
    (paired : List.Forall₂ (fun callArg d => CallArg.optval callArg = .ok d)
      (args.map Crosser.callArg) ds) (index : Nat)
    (typed : ∀ offset arg, args[offset]? = some arg →
      Signature.argumentType catalog call (index + offset) = .ok arg.1.type.oid) :
    Signature.convertArguments catalog call index (args.map fun arg => arg.1.parameter)
        (List.zipWith NullableDatum.mk ds ((args.map Crosser.callArg).map CallArg.isnull)) =
      (args.mapM Crosser.deliver).mapError fun what => .thrown (some what) := by
  induction args generalizing index ds with
  | nil =>
    cases paired
    rfl
  | cons arg args ih =>
    obtain ⟨d, ds, converted, rest, rfl⟩ := List.forall₂_cons_left_iff.mp paired
    have first : Signature.convertArgument catalog call arg.1.parameter index
        ⟨d, arg.callArg.isnull⟩ = arg.deliver.mapError fun what => .thrown (some what) := by
      have type := typed 0 arg rfl
      rw [Nat.add_zero] at type
      unfold Signature.convertArgument
      rw [type]
      change (do if ← arg.1.parameter.is arg.1.type.oid then _ else _) = _
      rw [arg.1.is]
      exact arg.fromNullableDatum_optval converted
    have later := ih rest (index + 1) fun offset other found => by
      rw [Nat.add_right_comm]
      exact typed (offset + 1) other found
    simp only [List.map_cons, List.zipWith_cons_cons, Signature.convertArguments, first, later,
      List.mapM_cons]
    cases arg.deliver with
    | error what => rfl
    | ok v => cases args.mapM Crosser.deliver <;> rfl

end Arguments

/-! ## The checks of the callee -/

theorem CatalogFunction.ofOid_rettype {formatType : Oid → String} {R : ResultType}
    {params : List Plain} {oid : Oid} {p : FormPgProc} {f : CatalogFunction}
    (made : ofOid formatType R params oid (some p) = .ok f) (known : R.typeFor ≠ unknownOid) :
    p.prorettype = R.typeFor := by
  by_contra other
  unfold ofOid at made
  by_cases length : p.proargtypes.length = params.length
  · cases accepted : checkArguments formatType 0 params p.proargtypes with
    | error exception => simp [length, accepted, bind, Except.bind] at made
    | ok done => simp [length, accepted, known, other, bind, Except.bind] at made
  · simp [length, bind, Except.bind] at made

/-- An exported function, as C++ code calls it: the types on both sides, and where it is. -/
structure Exported where
  result : ReturnCrossing
  catalog : ProcCatalog
  oid : Oid
  row : FormPgProc
  proretset : Bool
  found : catalog.searchProc oid = .ok (some ⟨row.prorettype, proretset, row.proargtypes⟩)

namespace Exported
variable {V : Type} (callee : Exported)

/-- Its signature, where the parameters are those that these arguments are for. -/
def signature (args : List (Crosser V)) : Signature V :=
  ⟨args.map fun arg => arg.1.parameter, .value callee.result.valueType⟩

def flinfo : FmgrInfo := ⟨callee.oid, callee.proretset, none⟩

/-- The call of the function from C++. -/
def call (f : CatalogFunction) (address : Nat) (args : List (Crosser V))
    (func : List V → Cpp callee.result.valueType.Carrier) : Cpp callee.result.type.Carrier :=
  f.callOnMachine callee.result.type
    ((callee.signature args).exported callee.catalog address callee.flinfo func)
    (args.map Crosser.callArg)

/-- `fcinfo` -/
def fcinfo (address : Nat) (args : List NullableDatum) (short : args.length < 2 ^ 15) :
    FunctionCall :=
  ⟨⟨address, none⟩, callee.flinfo, false, args, short⟩

/-- What is said where the function returns a set. -/
def setRefusal : String :=
  "unexpected return type, set is expected, but `" ++ callee.result.valueType.typeName ++
    "` does not conform to `cppgres::datumable_iterator`"

variable {callee}

theorem proc_found : callee.catalog.proc callee.oid =
    .ok ⟨callee.row.prorettype, callee.proretset, callee.row.proargtypes⟩ := by
  unfold ProcCatalog.proc
  rw [callee.found]
  rfl

section Checks
variable {formatType : Oid → String} {f : CatalogFunction} {args : List (Crosser V)}
  {address : Nat} {passed : List NullableDatum} {short : passed.length < 2 ^ 15}

/-- The types of the parameters are those in the catalog. -/
theorem argumentType_found
    (made : CatalogFunction.ofOid formatType callee.result.type
      ((args.map Crosser.callArg).map CallArg.param) callee.oid (some callee.row) = .ok f)
    {index : Nat} {arg : Crosser V} (found : args[index]? = some arg) :
    Signature.argumentType callee.catalog (callee.fcinfo address passed short) index =
      .ok arg.1.type.oid := by
  have param : arg.callArg.param = .static arg.1.type := by
    obtain ⟨c, argument⟩ := arg
    cases argument <;> rfl
  have there : ((args.map Crosser.callArg).map CallArg.param)[index]? =
      some (.static arg.1.type) := by
    rw [List.getElem?_map, List.getElem?_map, found, ← param]
    rfl
  obtain ⟨oid, type, same⟩ : ∃ oid, callee.row.proargtypes[index]? = some oid ∧
      oid = arg.1.type.oid := by
    have checked := List.forall₂_iff_get.mp (CatalogFunction.ofOid_ok made).1
    obtain ⟨bound, here⟩ := List.getElem?_eq_some_iff.mp there
    have bound' := checked.1 ▸ bound
    refine ⟨_, List.getElem?_eq_getElem bound', ?_⟩
    have each := checked.2 index bound bound'
    rw [List.get_eq_getElem, List.get_eq_getElem, here] at each
    exact each arg.1.type.known
  unfold Signature.argumentType
  change (do let proc ← callee.catalog.proc callee.oid; _) = _
  rw [proc_found]
  change Except.ok (callee.row.proargtypes[index]?.getD _) = _
  rw [type, same]
  rfl

theorem checkResult_found
    (rettype : callee.row.prorettype = callee.result.type.typeFor) :
    Signature.checkResult (callee.signature args) callee.catalog
        (callee.fcinfo address passed short) =
      if callee.proretset then .error (.report callee.setRefusal) else .ok () := by
  have found : Signature.resultType callee.catalog (callee.fcinfo address passed short) =
      .ok (callee.row.prorettype, callee.proretset) := by
    unfold Signature.resultType
    change (do let proc ← callee.catalog.proc callee.oid; _) = _
    rw [proc_found]
    rfl
  have is : (callee.signature args).result.is callee.row.prorettype = .ok true := by
    rw [rettype]
    exact callee.result.is
  unfold Signature.checkResult
  rw [found]
  change (if callee.proretset then _ else do
    if ← (callee.signature args).result.is callee.row.prorettype then _ else _) = _
  rw [is]
  rfl

/-- What comes of the checks and the conversions of the callee. -/
theorem checks_found {ds : List Datum}
    (made : CatalogFunction.ofOid formatType callee.result.type
      ((args.map Crosser.callArg).map CallArg.param) callee.oid (some callee.row) = .ok f)
    (paired : List.Forall₂ (fun callArg d => CallArg.optval callArg = .ok d)
      (args.map Crosser.callArg) ds)
    (same : passed = List.zipWith NullableDatum.mk ds
      ((args.map Crosser.callArg).map CallArg.isnull)) :
    (callee.signature args).checks callee.catalog (callee.fcinfo address passed short) =
      if callee.proretset then .error (.report callee.setRefusal)
      else (args.mapM Crosser.deliver).mapError fun what => .thrown (some what) := by
  have rettype := CatalogFunction.ofOid_rettype made callee.result.known
  unfold Signature.checks
  rw [checkResult_found rettype]
  cases callee.proretset with
  | true => rfl
  | false =>
    have length : passed.length = args.length := by
      have count := paired.length_eq
      rw [List.length_map] at count
      rw [same, List.length_zipWith, List.length_map, List.length_map, count, Nat.min_self]
    have enough : ¬ (callee.fcinfo address passed short).args.length <
        (callee.signature args).parameters.length := by
      change ¬ passed.length < (args.map _).length
      rw [length, List.length_map]
      exact Nat.lt_irrefl _
    have typed : ∀ offset arg, args[offset]? = some arg → Signature.argumentType callee.catalog
        (callee.fcinfo address passed short) (0 + offset) = .ok arg.1.type.oid := by
      intro offset arg found
      rw [Nat.zero_add]
      exact argumentType_found made found
    have converted := convertArguments_delivers paired 0 typed
    rw [← same] at converted
    change (if _ then _ else do
      let values ← Signature.convertArguments callee.catalog _ 0
        (callee.signature args).parameters passed
      _) = _
    rw [if_neg enough]
    change (do
      let values ← Signature.convertArguments callee.catalog
        (callee.fcinfo address passed short) 0 (args.map fun arg : Crosser V => arg.1.parameter)
        passed
      _) = _
    rw [converted]
    cases delivered : args.mapM Crosser.deliver with
    | error what => rfl
    | ok values =>
      have counted : values.length = args.length := (mapM_ok.mp delivered).length_eq.symm
      change (if _ then _ else _) = _
      rw [if_neg]
      · rfl
      · rw [counted, Signature.accountedForArgs_eq (by omega)]
        simp [signature]

end Checks

/-! ## The call -/

section Call
variable {F : Signature V} {catalog : ProcCatalog} {fc : FunctionCall} {s : Machine Backend}
  {func : List V → Cpp F.result.Carrier}

/-- A call that does not get to the function. -/
theorem raises_of_refused {failure : CheckFailure} (refused : F.checks catalog fc = .error failure) :
    Raises s s.store.calls (failure.edata.within s.store.elog.errorContextStack)
      (ffiGuard (F.invoke catalog fc func) s) := by
  have guarded : F.invoke catalog fc func = exceptionGuard (failure.raise >>= fun values =>
      withCallHandle fc.info (Signature.callFunction fc F.result func values)) := by
    unfold Signature.invoke postgresFunction
    rw [refused]
    rfl
  rw [guarded]
  exact failure.raises _

end Call

section Reached
variable {args : List (Crosser V)} {fc : FunctionCall} {s : Machine Backend} {values : List V}
  {func : List V → Cpp callee.result.valueType.Carrier}

/-- What `operator()` makes of the reply. -/
def conclude (callee : Exported) (reply : NullableDatum) : Cpp callee.result.type.Carrier :=
  orThrow (callee.result.type.fromNullableDatum
    (if reply.isnull then ⟨0, true⟩ else ⟨reply.value, false⟩) callee.result.type.typeFor)

theorem conclude_normal {r : callee.result.valueType.Carrier} {nd : NullableDatum}
    (converted : callee.result.valueType.intoNullableDatum r = .ok nd) :
    callee.conclude nd.normal = pure (callee.result.inject r) := by
  have normal : (if nd.normal.isnull then (⟨0, true⟩ : NullableDatum)
      else ⟨nd.normal.value, false⟩) = nd.normal := by
    obtain ⟨value, isnull⟩ := nd
    cases isnull <;> rfl
  unfold conclude
  rw [normal, callee.result.converts r nd converted]
  rfl

/-- A call that is admitted gets to the function. -/
theorem reaches_of_checks
    (checked : (callee.signature args).checks callee.catalog fc = .ok values)
    (initially : fc.isnull = false) {address : Nat} (info : fc.info = ⟨address, none⟩) :
    Reaches callee.result address s func values
      ((ffiGuard ((callee.signature args).invoke callee.catalog fc func) >>= callee.conclude) s) := by
  have invokes := Signature.invokes_of_admits (s := ffiGuardEntry s) (Signature.checks_ok.mp checked)
  have entry : pushed fc.info (ffiGuardEntry s) = calleeEntry address s := by
    rw [info]
    rfl
  have guarded : ffiGuard ((callee.signature args).invoke callee.catalog fc func) s =
      ffiGuard (exceptionGuard (withCallHandle fc.info
        (Signature.callFunction fc (.value callee.result.valueType) func values))) s :=
    ffiGuard_congr (invokes func)
  -- what leaves the body of the handle by an exception
  have thrown : ∀ exception edata t,
      Signature.callFunction fc (.value callee.result.valueType) func values
        (calleeEntry address s) = (.thrown exception, t) →
      t.store.elog.exceptionStack = some s.store.elog.nextBuffer →
      exception.edata t.store.elog = some edata → Raises s t.store.calls.tail edata
        ((ffiGuard ((callee.signature args).invoke callee.catalog fc func) >>= callee.conclude)
          s) := by
    intro exception edata t run handler record
    refine Raises.bind ?_
    rw [guarded]
    have left : withCallHandle fc.info
        (Signature.callFunction fc (.value callee.result.valueType) func values)
        (ffiGuardEntry s) = (.thrown exception, popped t) := by
      rw [withCallHandle_apply, entry, run]
    exact raises_of_thrown left handler record
  constructor
  · intro r nd t run converted
    have given : (callee.signature args).invoke callee.catalog fc func (ffiGuardEntry s) =
        (.returned nd.normal, popped t) :=
      Signature.gives_back initially invokes (entry ▸ run) converted
    rw [Code.bind_returned (ffiGuard_returned given), conclude_normal converted]
    rfl
  · intro r failure t run handler failed other
    obtain ⟨exception, u, raised, record, kept, same⟩ :=
      CheckFailure.raise_thrown (α := NullableDatum) other t
    have raises := thrown exception _ u ?_ (kept.trans handler) record
    · rwa [same] at raises
    · refine (Code.bind_returned run).trans ?_
      rw [failed]
      exact Code.bind_thrown raised
  · intro exception edata t run handler record
    exact thrown exception edata t (Code.bind_thrown run) handler record
  · intro edata older t run raised
    refine Raises.bind ?_
    rw [guarded]
    refine raises_of_jumped ?_ raised
    have jumped : Signature.callFunction fc (.value callee.result.valueType) func values
        (calleeEntry address s) = (.jumped s.store.elog.nextBuffer, t) := Code.bind_jumped run
    unfold exceptionGuard Code.catching
    rw [withCallHandle_apply, entry, jumped]
  · intro t run
    rw [Code.bind_aborted]
    rw [guarded]
    refine ffiGuard_aborted ?_
    have ended : Signature.callFunction fc (.value callee.result.valueType) func values
        (calleeEntry address s) = (.aborted, t) := Code.bind_aborted run
    unfold exceptionGuard Code.catching
    rw [withCallHandle_apply, entry, ended]

end Reached

/-- A call of an exported function through `function<R, A...>`, which the constructor has checked
against the catalog. A strict function is not called with a null. Otherwise the function is called
with the values of the arguments, and its result, its exception or its error comes back, unless a
parameter has no place for a null, or the function is declared to return a set: then an error says
so, and the function is not called. -/
theorem call_crosses (callee : Exported) (formatType : Oid → String) (f : CatalogFunction)
    (address : Nat) (args : List (Crosser V)) (s : Machine Backend)
    (made : CatalogFunction.ofOid formatType callee.result.type
      ((args.map Crosser.callArg).map CallArg.param) callee.oid (some callee.row) = .ok f)
    (converts : ∀ arg ∈ args, arg.Converts) (short : args.length < 2 ^ 15) :
    ((callee.row.proisstrict = true ∧ ∃ arg ∈ args, arg.callArg.isnull = true) →
      ∀ func, callee.call f address args func s = orThrow callee.result.type.shortCircuit s) ∧
    (¬ (callee.row.proisstrict = true ∧ ∃ arg ∈ args, arg.callArg.isnull = true) →
      (callee.proretset = true → ∀ func, Raises s s.store.calls
        ((reportData callee.setRefusal).within s.store.elog.errorContextStack)
        (callee.call f address args func s)) ∧
      (callee.proretset = false →
        (∀ what, args.mapM Crosser.deliver = .error what → ∀ func, Raises s s.store.calls
          ((reportData ("exception: " ++ what)).within s.store.elog.errorContextStack)
          (callee.call f address args func s)) ∧
        (∀ values, args.mapM Crosser.deliver = .ok values → ∀ func,
          Reaches callee.result address s func values (callee.call f address args func s)))) := by
  obtain ⟨-, kept⟩ := CatalogFunction.ofOid_ok made
  have rettype : f.rettype = callee.result.type.typeFor := by
    rw [kept]
    exact CatalogFunction.ofOid_rettype made callee.result.known
  have strict : f.strict = callee.row.proisstrict := by rw [kept]
  obtain ⟨ds, converted⟩ := Crosser.exists_datums converts
  have circuits : ((args.map Crosser.callArg).any CallArg.isnull && f.strict) = true ↔
      callee.row.proisstrict = true ∧ ∃ arg ∈ args, arg.callArg.isnull = true := by
    rw [strict, Bool.and_eq_true, List.any_map, List.any_eq_true, and_comm]
    rfl
  constructor
  · intro both func
    unfold Exported.call CatalogFunction.callOnMachine
    rw [converted]
    change (if _ then _ else _ : Cpp _) s = _
    rw [if_pos (circuits.mpr both)]
  · intro notBoth
    obtain ⟨passed, same⟩ : ∃ passed, passed = List.zipWith NullableDatum.mk ds
        ((args.map Crosser.callArg).map CallArg.isnull) := ⟨_, rfl⟩
    have counted : passed.length < 2 ^ 15 := by
      rw [same, List.length_zipWith, List.length_map, List.length_map]
      omega
    have goes : ∀ func, callee.call f address args func =
        ffiGuard ((callee.signature args).invoke callee.catalog
          (callee.fcinfo address passed counted) func) >>= callee.conclude := by
      intro func
      unfold Exported.call CatalogFunction.callOnMachine
      rw [converted]
      change (if _ then _ else _ : Cpp _) = _
      rw [if_neg (notBoth ∘ circuits.mp), ← same, rettype]
      unfold Signature.exported
      rw [dif_pos counted]
      rfl
    have checks : (callee.signature args).checks callee.catalog
        (callee.fcinfo address passed counted) =
          if callee.proretset then .error (.report callee.setRefusal)
          else (args.mapM Crosser.deliver).mapError fun what => .thrown (some what) :=
      checks_found made (mapM_ok.mp converted) same
    refine ⟨?_, fun single => ⟨?_, ?_⟩⟩
    · intro set func
      rw [set] at checks
      rw [goes]
      exact (raises_of_refused checks).bind
    · intro what refused func
      have thrown : (callee.signature args).checks callee.catalog
          (callee.fcinfo address passed counted) = .error (.thrown (some what)) := by
        rw [single, refused] at checks
        exact checks
      rw [goes]
      exact (raises_of_refused thrown).bind
    · intro values delivered func
      rw [single, delivered] at checks
      rw [goes]
      exact reaches_of_checks checks rfl rfl

end Exported

/-! ## Types that are converted by a cast -/

namespace Crossing
variable {V : Type} (catalog : Catalog) (T : StaticType) (scalar : Scalar V)
  (inject : T.Carrier → V) (accepts : scalar.accepts T.oid = true)
  (comesBack : ∀ v d, T.intoDatum v = .ok d → scalar.cast d = inject v)

def ofScalar : Crossing V where
  type := T
  parameter := (Element.scalar scalar).parameter catalog
  inject := inject
  absent := none
  is := congrArg Except.ok accepts
  converts v d into := by rw [← comesBack v d into]; rfl
  null d null := by
    change Except.mapError _ (if d.isnull then _ else _) = _
    rw [if_pos null]
    rfl

/-- `std::optional` of it. -/
def ofOptional (nullopt : V) : Crossing V where
  type := T
  parameter := (Element.optional nullopt (.scalar scalar)).parameter catalog
  inject := inject
  absent := some nullopt
  is := congrArg Except.ok accepts
  converts v d into := by rw [← comesBack v d into]; rfl
  null d null := by
    change Except.mapError _ (if d.isnull then _ else _) = _
    rw [if_pos null]
    rfl

end Crossing

/-! ## Scalars on both sides -/

namespace ScalarType
variable (T : ScalarType)

def staticType : StaticType where
  Carrier := T.Value
  oid := T.builtin.own
  known := by cases T <;> decide
  constructed := true
  constTraits := false
  intoDatum x := .ok (T.datum x).toNat

theorem sqlValue_word (x : T.Value) :
    T.sqlValue (BitVec.ofNat 64 (T.datum x).toNat) = x := by
  rw [BitVec.ofNat_toNat, BitVec.setWidth_eq, sqlValue_datum]

/-- A scalar as a result, on both sides. -/
def returnCrossing : ReturnCrossing where
  valueType := T.valueType
  type := .plain (.static ⟨T.Value, T.builtin.typeName, T.builtin.own,
    fun d _ => .ok (T.sqlValue (BitVec.ofNat 64 d))⟩)
  known := T.staticType.known
  inject x := x
  is := by cases T <;> rfl
  converts x nd into := by
    cases into
    exact congrArg Except.ok (T.sqlValue_word x)

end ScalarType

/-- A parameter that is a scalar or a `std::optional` of one. -/
def ScalarColumn.crossing : ScalarColumn → Crossing ScalarReading
  | .plain T => .ofScalar ⟨fun _ => none, toString⟩ T.staticType T.reading (fun x => ⟨T, some x⟩)
      (by cases T <;> rfl) fun x _ into => by
        cases into
        exact congrArg (fun x => (⟨T, some x⟩ : ScalarReading)) (T.sqlValue_word x)
  | .optional T => .ofOptional ⟨fun _ => none, toString⟩ T.staticType T.reading
      (fun x => ⟨T, some x⟩) (by cases T <;> rfl) (fun x _ into => by
        cases into
        exact congrArg (fun x => (⟨T, some x⟩ : ScalarReading)) (T.sqlValue_word x)) ⟨T, none⟩

/-- `int64_t add(int64_t, std::optional<int64_t>)`, which is not strict. -/
def addBigints : Exported where
  result := ScalarType.int8.returnCrossing
  catalog := ⟨fun _ => .ok (some ⟨20, false, [20, 20]⟩), toString⟩
  oid := 100
  row := ⟨[20, 20], 20, false⟩
  proretset := false
  found := rfl

/-- The sum of the values that are there. -/
def sumOf (values : List ScalarReading) : Cpp addBigints.result.valueType.Carrier :=
  let longs : List (BitVec 64) := values.filterMap fun
    | ⟨.int8, x⟩ => x
    | _ => none
  pure (longs.foldr (· + ·) 0 : BitVec 64)

/-- `add(int32_t(5), std::nullopt)`. -/
def fiveAndNullopt : List (Crosser ScalarReading) :=
  [⟨(ScalarColumn.plain .int8).crossing,
      .converted staticInt32 (fun v : BitVec 32 => v.signExtend 64) false (5 : BitVec 32)⟩,
    ⟨(ScalarColumn.optional .int8).crossing, .nullopt⟩]

theorem fiveAndNullopt_crosses :
    addBigints.call ⟨100, 20, false⟩ 0 fiveAndNullopt sumOf idle =
      (.returned (5 : BitVec 64), ffiGuardRestore idle (popped (calleeEntry 0 idle))) := by
  have converts : ∀ arg ∈ fiveAndNullopt, arg.Converts := by
    intro arg member
    simp only [fiveAndNullopt, List.mem_cons, List.not_mem_nil, or_false] at member
    obtain rfl | rfl := member
    · exact ⟨5, rfl⟩
    · trivial
  have crosses := Exported.call_crosses addBigints toString ⟨100, 20, false⟩ 0 fiveAndNullopt idle
    rfl converts (by decide)
  have reaches := (crosses.2 (by rintro ⟨strict, -⟩; cases strict)).2 rfl
  exact (reaches.2 [⟨.int8, some (5 : BitVec 64)⟩, ⟨.int8, none⟩] rfl sumOf).returned
    (5 : BitVec 64) ⟨5, false⟩ _ rfl rfl

end Cppgres
