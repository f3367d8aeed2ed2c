import Cppgres.Datum.SqlNumbers
import Cppgres.Function.Invocation
import Cppgres.Function.SetReturning

/-!
# Numbers in results

What becomes of the numbers that a function returns, alone or in the rows of a set, where the
checks take a SQL type that is narrower than the C++ one.
-/
namespace Cppgres
open NonLocal

/-! ## The result of a function -/

/-- A scalar as the result of an exported function. -/
def ScalarType.valueType (T : ScalarType) : ValueType where
  Carrier := T.Value
  typeName := T.builtin.typeName
  is oid := .ok (T.builtin.is oid)
  intoNullableDatum x := .ok ⟨(T.datum x).toNat, false⟩

section Result
variable {V : Type} (T : ScalarType) (parameters : List (Parameter V)) (catalog : ProcCatalog)
  (call : FunctionCall) (s : Machine Backend) (values : List V)

/-- A call that passes the checks gives Postgres the number of its result if and only if that fits into
the bits that the SQL type which the function is declared to return takes of the datum. The checks take
some types into which it does not fit. -/
theorem scalar_result_iff (initially : call.isnull = false)
    (admits : (Signature.mk parameters (.value T.valueType)).Admits catalog call values) :
    ∃ t : ScalarType, Signature.resultType catalog call = .ok (t.builtin.own, false) ∧
      ∀ (func : List V → Cpp T.Value) x u, func values (pushed call.info s) = (.returned x, u) →
        ∃ d, (Signature.mk parameters (.value T.valueType)).invoke catalog call func s =
            (.returned ⟨d, false⟩, popped u) ∧
          (t.number (t.sqlValue (BitVec.ofNat 64 d)) = T.number x ↔ T.Fits t x) := by
  obtain ⟨rettype, declared, is⟩ := admits.result
  have taken : T.builtin.is rettype = true := Except.ok.inj is
  obtain ⟨t, rfl⟩ := ScalarType.scalar_of_is taken
  refine ⟨t, declared, fun func x u returned => ⟨(T.datum x).toNat, ?_, ?_⟩⟩
  · exact Signature.gives_back initially (Signature.invokes_of_admits admits) returned rfl
  · rw [BitVec.ofNat_toNat, BitVec.setWidth_eq]
    exact ScalarType.arrives_iff taken x

end Result

/-- A call of a function without arguments that is declared to return an `int4`. -/
def intCall : FunctionCall := ⟨⟨0, none⟩, ⟨100, false, some (int4Oid, [])⟩, false, [], by decide⟩

/-- An `int64_t` of five milliards is returned, and what is left of it. -/
theorem fiveMilliards_cut :
    ∃ d, (Signature.mk ([] : List (Parameter Unit)) (.value ScalarType.int8.valueType)).invoke
        addOptionalCatalog intCall (fun _ => pure (5000000000 : BitVec 64)) idle =
          (.returned ⟨d, false⟩, popped (pushed ⟨0, none⟩ idle)) ∧
      ScalarType.int4.number (ScalarType.int4.sqlValue (BitVec.ofNat 64 d)) ≠
        ScalarType.int8.number (5000000000 : BitVec 64) := by
  obtain ⟨t, declared, result⟩ := scalar_result_iff .int8 ([] : List (Parameter Unit))
    addOptionalCatalog intCall idle [] rfl (Signature.checks_ok.mp rfl)
  have int4 : ScalarType.int4 = t :=
    ScalarType.own_injective (Prod.mk.inj (Except.ok.inj declared)).1
  subst int4
  obtain ⟨d, returned, arrives⟩ := result (fun _ => pure (5000000000 : BitVec 64)) _ _ rfl
  refine ⟨d, returned, ?_⟩
  rw [ne_eq, arrives]
  exact fun fits => absurd fits.2 (by decide)

/-! ## Columns of scalars -/

/-- A scalar as the element of a row, with a null or without. -/
inductive ScalarColumn where
  | plain (T : ScalarType)
  | optional (T : ScalarType)
  deriving DecidableEq, Repr

/-- A value that was read, with its type, or a null. -/
abbrev ScalarReading := (T : ScalarType) × Option T.Value

/-- Its instances, where the values of all types are read into one. -/
def ScalarType.reading (T : ScalarType) : Scalar ScalarReading where
  typeName := T.builtin.typeName
  accepts := T.builtin.is
  cast d := ⟨T, some (T.sqlValue (BitVec.ofNat 64 d))⟩

namespace ScalarColumn

def scalar : ScalarColumn → ScalarType
  | .plain T => T
  | .optional T => T

abbrev Value : ScalarColumn → Type
  | .plain T => T.Value
  | .optional T => Option T.Value

/-- `T`, or `std::optional<T>`. -/
def element : ScalarColumn → Element ScalarReading
  | .plain T => .scalar T.reading
  | .optional T => .optional ⟨T, none⟩ (.scalar T.reading)

def type : ScalarColumn → CppType ScalarReading
  | .plain T => T.reading.type
  | .optional T => .optional ⟨T, none⟩ T.reading.type

theorem element_type (c : ScalarColumn) (catalog : Catalog) : c.element.type catalog = c.type := by
  cases c <;> rfl

/-- The number, if there is one. -/
def given : (c : ScalarColumn) → c.Value → Option c.scalar.Value
  | .plain _, x => some x
  | .optional _, x => x

def outgoing : (c : ScalarColumn) → c.Value → Outgoing
  | .plain T, x => .plain T.builtin.own (T.datum x).toNat
  | .optional T, x => .optional T.builtin.own (x.map fun x => (T.datum x).toNat)

theorem takes_iff {c : ScalarColumn} {oid : Oid} :
    c.type.Takes oid ↔ c.scalar.builtin.is oid = true := by
  have same : c.type.is oid = .ok (c.scalar.builtin.is oid) := by cases c <;> rfl
  unfold CppType.Takes
  rw [same]
  exact ⟨fun taken => Except.ok.inj taken, fun taken => congrArg _ taken⟩

/-- A column of Postgres has the number of an element. -/
def Holds (c : ScalarColumn) (x : c.Value) (t : ScalarType) (column : NullableDatum) : Prop :=
  ∃ number, c.given x = some number ∧ column.isnull = false ∧
    t.number (t.sqlValue (BitVec.ofNat 64 column.value)) = c.scalar.number number

/-- An element is a number that fits into the type of the column. -/
def Fits (c : ScalarColumn) (x : c.Value) (t : ScalarType) : Prop :=
  ∃ number, c.given x = some number ∧ c.scalar.Fits t number

theorem holds_iff {c : ScalarColumn} {t : ScalarType}
    (taken : c.scalar.builtin.is t.builtin.own = true) (x : c.Value) :
    c.Holds x t (c.outgoing x).column ↔ c.Fits x t := by
  have arrives (T : ScalarType) (taken : T.builtin.is t.builtin.own = true) (number : T.Value) :
      t.number (t.sqlValue (BitVec.ofNat 64 (T.datum number).toNat)) = T.number number ↔
        T.Fits t number := by
    rw [BitVec.ofNat_toNat, BitVec.setWidth_eq]
    exact ScalarType.arrives_iff taken number
  unfold Holds Fits
  cases c with
  | plain T =>
    refine exists_congr fun number => and_congr_right fun same => ?_
    cases same
    exact (and_iff_right rfl).trans (arrives T taken x)
  | optional T =>
    refine exists_congr fun number => and_congr_right fun same => ?_
    have same : x = some number := same
    subst same
    exact (and_iff_right rfl).trans (arrives T taken number)

theorem notNull_of_fits {c : ScalarColumn} {x : c.Value} {t : ScalarType} (fits : c.Fits x t) :
    (c.outgoing x).intoNullableDatum.isnull = false := by
  obtain ⟨number, same, -⟩ := fits
  cases c with
  | plain T => rfl
  | optional T =>
    have same : x = some number := same
    subst same
    rfl

/-- What a value is read as where it comes back. -/
def reading (c : ScalarColumn) (x : c.Value) : ScalarReading := ⟨c.scalar, c.given x⟩

/-- From a column of its own type each value comes back. -/
theorem fromNullableDatum_column (c : ScalarColumn) (x : c.Value) :
    c.type.fromNullableDatum (c.outgoing x).column (c.outgoing x).typeFor = .ok (c.reading x) := by
  have back (T : ScalarType) (number : T.Value) :
      T.reading.cast (T.datum number).toNat = ⟨T, some number⟩ := by
    change (⟨T, some (T.sqlValue (BitVec.ofNat 64 (T.datum number).toNat))⟩ : ScalarReading) = _
    rw [BitVec.ofNat_toNat, BitVec.setWidth_eq, T.sqlValue_datum]
  cases c with
  | plain T => exact congrArg Except.ok (back T x)
  | optional T =>
    change Option T.Value at x
    cases x with
    | none => rfl
    | some number => exact congrArg Except.ok (back T number)

theorem typeFor_outgoing (c : ScalarColumn) (x : c.Value) :
    (c.outgoing x).typeFor = c.scalar.builtin.own := by
  cases c <;> rfl

theorem takes_own (c : ScalarColumn) : c.type.Takes c.scalar.builtin.own := by
  rw [takes_iff]
  cases c.scalar <;> decide

end ScalarColumn

/-! ## The rows of a set -/

/-- A row of these columns. -/
structure ScalarRow (columns : List ScalarColumn) where
  cells : List ((c : ScalarColumn) × c.Value)
  typed : cells.map Sigma.fst = columns

namespace ScalarRow
variable {columns : List ScalarColumn}

/-- As a `std::tuple`. -/
def row (r : ScalarRow columns) : Row (columns.map ScalarColumn.type).length where
  value := .tuple (r.cells.map fun cell => cell.1.outgoing cell.2)
  size := by
    have count := congrArg List.length r.typed
    rw [List.length_map] at count
    change (r.cells.map _).length = _
    rw [List.length_map, List.length_map, count]

/-- A tuple of Postgres has the numbers of a row. -/
def Carried (types : List ScalarType) (r : ScalarRow columns) (tuple : List NullableDatum) : Prop :=
  tuple.length = r.cells.length ∧ ∀ (index : Nat) cell t column, r.cells[index]? = some cell →
    types[index]? = some t → tuple[index]? = some column → cell.1.Holds cell.2 t column

/-- All of a row fits into the columns. -/
def Fits (types : List ScalarType) (r : ScalarRow columns) : Prop :=
  ∀ (index : Nat) cell t, r.cells[index]? = some cell → types[index]? = some t →
    cell.1.Fits cell.2 t

variable {types : List ScalarType}

theorem column_of_cell {r : ScalarRow columns} {index : Nat} {cell : (c : ScalarColumn) × c.Value}
    (found : r.cells[index]? = some cell) : columns[index]? = some cell.1 := by
  rw [← r.typed, List.getElem?_map, found]
  rfl

theorem carried_iff (taken : List.Forall₂ (fun c t => c.scalar.builtin.is t.builtin.own = true)
    columns types) (r : ScalarRow columns) : r.Carried types r.row.columns ↔ r.Fits types := by
  have column {index : Nat} {cell : (c : ScalarColumn) × c.Value}
      (found : r.cells[index]? = some cell) :
      r.row.columns[index]? = some (cell.1.outgoing cell.2).column := by
    change ((r.cells.map _).map Outgoing.column)[index]? = _
    rw [List.getElem?_map, List.getElem?_map, found]
    rfl
  have accepts {index : Nat} {cell : (c : ScalarColumn) × c.Value} {t : ScalarType}
      (found : r.cells[index]? = some cell) (declared : types[index]? = some t) :
      cell.1.scalar.builtin.is t.builtin.own = true := by
    obtain ⟨below, same⟩ := List.getElem?_eq_some_iff.mp (column_of_cell found)
    obtain ⟨below', same'⟩ := List.getElem?_eq_some_iff.mp declared
    have here := taken.get below below'
    rwa [List.get_eq_getElem, List.get_eq_getElem, same, same'] at here
  constructor
  · rintro ⟨-, carries⟩ index cell t found declared
    exact (ScalarColumn.holds_iff (accepts found declared) cell.2).mp
      (carries index cell t _ found declared (column found))
  · intro fits
    refine ⟨by simp [row, Row.columns, SetValue.tie], ?_⟩
    intro index cell t stored found declared there
    cases (column found).symm.trans there
    exact (ScalarColumn.holds_iff (accepts found declared) cell.2).mpr
      (fits index cell t found declared)

theorem full_of_fits (length : columns.length = types.length) {r : ScalarRow columns}
    (fits : r.Fits types) : r.row.Full := by
  intro element member
  obtain ⟨cell, there, rfl⟩ := List.mem_map.mp member
  obtain ⟨index, below, same⟩ := List.getElem_of_mem there
  have found : r.cells[index]? = some cell := List.getElem?_eq_some_iff.mpr ⟨below, same⟩
  obtain ⟨inside, -⟩ := List.getElem?_eq_some_iff.mp (column_of_cell found)
  have declared : types[index]? = some types[index] := List.getElem?_eq_getElem (by omega)
  exact ScalarColumn.notNull_of_fits (fits index cell _ found declared)

end ScalarRow

section Set
variable {V τ : Type} {elements : List (CppType V)} {s : Machine Backend} {tupdesc : List Oid}

/-- However much is asked of a call that returns, it has gone through all the rows. -/
theorem full_of_returns {func : τ → List (Row elements.length)} {arguments : τ}
    {post : Datum → Machine Backend → Prop}
    (described : s.store.rsinfo.expectedDesc = some tupdesc)
    (accepted : List.Forall₂ CppType.Takes elements tupdesc)
    (returns : (setReturning elements func arguments).Returns s post) :
    (∀ failure ∈ s.store.interrupts.take (func arguments).length, failure = none) ∧
      ∀ row ∈ func arguments, row.Full := by
  have checked : checkTypes .recordType 0 elements tupdesc = .ok () :=
    (checkTypes_ok 0 accepted.length_eq).mpr accepted
  have natts : tupdesc.length = elements.length := accepted.length_eq.symm
  unfold setReturning modifySession fillSet tuplestoreBeginHeap at returns
  simp only [Code.returns_bind, Code.returns_get, described, natts, ne_eq, not_true_eq_false,
    if_false, checked, Code.returns_modify, Code.returns_raii, returns_ffiGuard,
    returns_putRows, Code.returns_pure] at returns
  exact ⟨returns.1, returns.2.1⟩

/-- What a call leaves in the tuplestore is the columns of all its rows, if nothing stops it. -/
theorem returns_rows_iff {fc : FunctionCallInfo} {func : τ → List (Row elements.length)}
    {arguments : τ} {post : List (List NullableDatum) → Prop}
    (described : s.store.rsinfo.expectedDesc = some tupdesc)
    (accepted : List.Forall₂ CppType.Takes elements tupdesc) :
    (setReturningFunction fc elements func arguments).Returns s (fun _ t =>
      ∃ tuples, t.store.rsinfo.setResult = some tuples ∧ post tuples) ↔
      (∀ failure ∈ s.store.interrupts.take (func arguments).length, failure = none) ∧
        (∀ row ∈ func arguments, row.Full) ∧ post ((func arguments).map Row.columns) := by
  unfold setReturningFunction
  rw [returns_postgresFunction, Code.returns_pure]
  constructor
  · intro returns
    obtain ⟨clear, full⟩ := full_of_returns (s := pushed fc s) described accepted returns
    have delivers :=
      (returns_setReturning (s := pushed fc s) described accepted).mpr ⟨clear, full⟩
    obtain ⟨datum, t, run, tuples, held, claimed⟩ := Code.returns_iff.mp returns
    obtain ⟨datum', t', run', -, -, -, held'⟩ := Code.returns_iff.mp delivers
    cases run.symm.trans run'
    cases held.symm.trans held'
    exact ⟨clear, full, claimed⟩
  · rintro ⟨clear, full, claimed⟩
    refine ((returns_setReturning (s := pushed fc s) described accepted).mpr ⟨clear, full⟩).mono ?_
    rintro datum t ⟨-, -, -, held⟩
    exact ⟨_, held, claimed⟩

end Set

/-- Each column that is accepted has the type of a scalar. -/
theorem exists_types {columns : List ScalarColumn} {tupdesc : List Oid}
    (takes : List.Forall₂ (fun c oid => c.type.Takes oid) columns tupdesc) :
    ∃ types : List ScalarType, tupdesc = types.map (·.builtin.own) ∧
      List.Forall₂ (fun c t => c.scalar.builtin.is t.builtin.own = true) columns types := by
  induction takes with
  | nil => exact ⟨[], rfl, .nil⟩
  | cons first rest ih =>
    obtain ⟨types, rfl, taken⟩ := ih
    have first := ScalarColumn.takes_iff.mp first
    obtain ⟨t, rfl⟩ := ScalarType.scalar_of_is first
    exact ⟨t :: types, rfl, .cons first taken⟩

/-- A set of rows of scalars whose columns pass the check ends with the numbers of all its rows
if and only if no interrupt comes in between, no element is null, and the numbers fit into the types of
their columns: an integer by its range, a `double` in a `float4` by the lower half of its pattern. -/
theorem set_numbers_iff {τ : Type} (fc : FunctionCallInfo) (columns : List ScalarColumn)
    (func : τ → List (ScalarRow columns)) (arguments : τ) (s : Machine Backend)
    (tupdesc : List Oid) (described : s.store.rsinfo.expectedDesc = some tupdesc)
    (accepted : checkTypes .recordType 0 (columns.map ScalarColumn.type) tupdesc = .ok ())
    (count : columns.length = tupdesc.length) :
    ∃ types : List ScalarType, tupdesc = types.map (·.builtin.own) ∧
      ((setReturningFunction fc (columns.map ScalarColumn.type)
          (fun arguments => (func arguments).map ScalarRow.row) arguments).Returns s (fun _ t =>
        ∃ tuples, t.store.rsinfo.setResult = some tuples ∧
          List.Forall₂ (ScalarRow.Carried types) (func arguments) tuples) ↔
        (∀ failure ∈ s.store.interrupts.take (func arguments).length, failure = none) ∧
          ∀ row ∈ func arguments, row.Fits types) := by
  have length : (columns.map ScalarColumn.type).length = tupdesc.length := by
    rw [List.length_map, count]
  have takes := (checkTypes_ok 0 length).mp accepted
  obtain ⟨types, rfl, taken⟩ := exists_types (List.forall₂_map_left_iff.mp takes)
  have rows : ∀ rows : List (ScalarRow columns), List.Forall₂ (ScalarRow.Carried types) rows
      ((rows.map ScalarRow.row).map Row.columns) ↔ ∀ row ∈ rows, row.Fits types := by
    intro rows
    rw [List.map_map, List.forall₂_map_right_iff, List.forall₂_same]
    exact forall₂_congr fun row _ => ScalarRow.carried_iff taken row
  refine ⟨types, rfl, ?_⟩
  refine (returns_rows_iff (s := s) described takes).trans ?_
  rw [List.length_map]
  refine and_congr_right fun _ => ?_
  constructor
  · exact fun carried => (rows _).mp carried.2
  · refine fun fits => ⟨fun row member => ?_, (rows _).mpr fits⟩
    obtain ⟨row, there, rfl⟩ := List.mem_map.mp member
    exact ScalarRow.full_of_fits taken.length_eq (fits row there)

/-- Rows of an `int64_t`, for a column that is an `int4`. -/
def wideRow (x : BitVec 64) : ScalarRow [.plain .int8] := ⟨[⟨.plain .int8, x⟩], rfl⟩

/-- Such a set ends with all its numbers. -/
def WideRowsCarried (xs : List (BitVec 64)) : Prop :=
  (setReturningFunction ⟨0, none⟩ ([.plain .int8].map ScalarColumn.type)
    (fun _ : Unit => (xs.map wideRow).map ScalarRow.row) ()).Returns (expecting [int4Oid])
      fun _ t => ∃ tuples, t.store.rsinfo.setResult = some tuples ∧
        List.Forall₂ (ScalarRow.Carried [.int4]) (xs.map wideRow) tuples

theorem fiveMilliards_cut_in_row :
    WideRowsCarried [7, 8] ∧ ¬ WideRowsCarried [7, 5000000000] := by
  have complete (xs : List (BitVec 64)) : WideRowsCarried xs ↔
      ∀ row ∈ xs.map wideRow, row.Fits [.int4] := by
    obtain ⟨types, same, complete⟩ := set_numbers_iff ⟨0, none⟩ [.plain .int8]
      (fun _ : Unit => xs.map wideRow) () (expecting [int4Oid]) [int4Oid] rfl rfl rfl
    have int4 : [ScalarType.int4] = types := ScalarType.own_injective.list_map same
    subst int4
    refine complete.trans (and_iff_right ?_)
    rw [show (expecting [int4Oid]).store.interrupts = [] from rfl, List.take_nil]
    exact fun _ member => nomatch member
  have small (x : BitVec 64) (low : -2 ^ 31 ≤ x.toInt) (high : x.toInt < 2 ^ 31) :
      ScalarColumn.Fits (.plain .int8) x .int4 := ⟨x, rfl, low, high⟩
  rw [complete, complete]
  constructor
  · intro row member index cell t found declared
    cases index with
    | succ index => cases declared
    | zero =>
      cases declared
      simp only [List.map_cons, List.map_nil, List.mem_cons, List.not_mem_nil, or_false] at member
      obtain rfl | rfl := member
      · cases found
        exact small 7 (by decide) (by decide)
      · cases found
        exact small 8 (by decide) (by decide)
  · intro fits
    obtain ⟨number, given, below⟩ := fits (wideRow 5000000000) (by simp) 0 _ _ rfl rfl
    cases given
    exact absurd below.2 (by decide)

end Cppgres
