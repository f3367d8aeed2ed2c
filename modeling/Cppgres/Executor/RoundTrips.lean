import Cppgres.Datum.Arguments
import Cppgres.Executor.Query
import Cppgres.Function.ResultNumbers

/-!
# Parameters that come back

A statement such as `select $1, $2` has its parameters for a result: what a query takes apart
into types, datums and nulls is put together again by the iterator of its results.
-/
namespace Cppgres
open NonLocal SpiExecutor

/-- What SPI has for a parameter, by its two arrays. -/
def parameterColumn (value : Datum) (null : Char) : NullableDatum :=
  if null = 'n' then ⟨0, true⟩ else ⟨value, false⟩

/-- The result of a statement that selects its parameters. -/
def Statement.echo (statement : Statement) : SpiTupleTable where
  tupdesc := statement.argtypes
  vals := [List.zipWith parameterColumn statement.values statement.nulls]

/-- Scalars as the arguments of a query. -/
abbrev ScalarArgument := (c : ScalarColumn) × c.Value

namespace ScalarArgument

def outgoing (arg : ScalarArgument) : Outgoing := arg.1.outgoing arg.2

def reading (arg : ScalarArgument) : ScalarReading := arg.1.reading arg.2

/-- It is taken as it was given. -/
theorem takes_outgoing (arg : ScalarArgument) : arg.1.type.Takes arg.outgoing.typeFor := by
  have own : arg.outgoing.typeFor = arg.1.scalar.builtin.own := arg.1.typeFor_outgoing arg.2
  rw [own]
  exact arg.1.takes_own

end ScalarArgument

/-- What a row of these can be asked for as. -/
inductive AskedFor (args : List ScalarArgument) : Ret ScalarReading → Prop where
  | fields : AskedFor args (.fields (args.map (·.1.element)))
  | vector (c : ScalarColumn) (all : ∀ arg ∈ args, arg.1 = c) : AskedFor args (.vector c.element)
  | single (arg : ScalarArgument) (one : args = [arg]) : AskedFor args (.single arg.1.element)

/-! ## The statement -/

section Arrays
variable {query : String} {opts : Options} {args : List Outgoing}

/-- Taken apart into the two arrays, and put together again. -/
theorem echo_vals : (statement query opts args).echo.vals = [args.map Outgoing.column] := by
  have columns : List.zipWith parameterColumn (makeDatums (makeNullableDatums args))
      (makeNulls (makeNullableDatums args)) = args.map Outgoing.column := by
    unfold makeDatums makeNulls makeNullableDatums
    rw [List.map_map, List.map_map, List.zipWith_map, List.zipWith_self]
    apply List.map_congr_left
    intro arg _
    change parameterColumn (if arg.intoNullableDatum.isnull then 0 else arg.intoNullableDatum.value)
      (if arg.intoNullableDatum.isnull then 'n' else ' ') = arg.column
    unfold Outgoing.column
    cases arg.intoNullableDatum.isnull <;> rfl
  exact congrArg (fun row => [row]) columns

end Arrays

/-! ## The results -/

section Results
variable {catalog : Catalog} {args : List ScalarArgument} {ret : Ret ScalarReading}

/-- The columns of the arguments, with the types that they are given. -/
def ScalarArgument.types (args : List ScalarArgument) : List Oid :=
  args.map fun arg => arg.outgoing.typeFor

def ScalarArgument.columns (args : List ScalarArgument) : List NullableDatum :=
  args.map fun arg => arg.outgoing.column

theorem AskedFor.checked (asked : AskedFor args ret) :
    ret.checkColumns catalog (ScalarArgument.types args) = .ok () := by
  cases asked with
  | fields =>
    have accepts :
        (Ret.fields (args.map (·.1.element))).checkColumns catalog (ScalarArgument.types args) =
          .ok () ↔
        List.Forall₂ CppType.Takes ((args.map (·.1.element)).map (·.type catalog))
          (ScalarArgument.types args) := by
      rw [← check_fields_ok]
      unfold Ret.checkColumns
      simp [Ret.convertibleFromDatum, Ret.tupleElements]
    rw [accepts, List.map_map]
    unfold ScalarArgument.types
    rw [List.forall₂_map_left_iff, List.forall₂_map_right_iff, List.forall₂_same]
    intro arg _
    change (arg.1.element.type catalog).Takes _
    rw [ScalarColumn.element_type]
    exact arg.takes_outgoing
  | vector c all =>
    refine Ret.check_vector_ok.mpr ?_
    intro oid member
    obtain ⟨arg, there, rfl⟩ := List.mem_map.mp member
    rw [ScalarColumn.element_type, ← all arg there]
    exact arg.takes_outgoing
  | single arg one =>
    subst one
    refine Ret.check_single_ok.mpr ⟨_, rfl, ?_⟩
    rw [ScalarColumn.element_type]
    exact arg.takes_outgoing

/-- Each of the shapes reads the columns one after the other. -/
theorem AskedFor.reads (asked : AskedFor args ret) :
    ret.reads catalog (ScalarArgument.types args).length =
      (args.map (·.1.type)).zipIdx.map fun (T, index) => (index + 1, T) := by
  have element (arg : ScalarArgument) : arg.1.element.type catalog = arg.1.type :=
    arg.1.element_type catalog
  cases asked with
  | fields =>
    unfold Ret.reads Ret.tupleElements
    simp only [List.map_map, Function.comp_def, element]
  | vector c all =>
    unfold Ret.reads
    apply List.ext_getElem
    · simp [ScalarArgument.types]
    · intro index below _
      have inside : index < args.length := by simpa [ScalarArgument.types] using below
      have same : args[index].1 = c := all _ (List.getElem_mem inside)
      simp [ScalarColumn.element_type, same]
  | single arg one =>
    subst one
    exact congrArg (fun T => [(1, T)]) (element arg)

theorem AskedFor.decoded (asked : AskedFor args ret) :
    ret.decode catalog (ScalarArgument.types args) (ScalarArgument.columns args) =
      .ok (args.map ScalarArgument.reading) := by
  unfold Ret.decode
  rw [asked.reads, mapM_ok, List.forall₂_map_left_iff, List.forall₂_iff_get]
  refine ⟨by simp, fun index below _ => ?_⟩
  have inside : index < args.length := by simpa using below
  have value :
      spiGetbinval (ScalarArgument.columns args) (index + 1) = args[index].outgoing.column := by
    simp [spiGetbinval, ScalarArgument.columns, inside]
  have type :
      spiGettypeid (ScalarArgument.types args) (index + 1) = args[index].outgoing.typeFor := by
    simp [spiGettypeid, ScalarArgument.types, inside]
  have back : args[index].1.type.fromNullableDatum args[index].outgoing.column
      args[index].outgoing.typeFor = .ok args[index].reading :=
    args[index].1.fromNullableDatum_column args[index].2
  unfold readColumn
  simp only [List.get_eq_getElem, List.getElem_zipIdx, List.getElem_map, Nat.zero_add]
  rw [value, type, back]

end Results

namespace ResultIterator
variable {V : Type} (catalog : Catalog) (ret : Ret V)

/-- An iterator through which these rows were asked for, one after the other. -/
def after (iterator : ResultIterator V) : List Nat → ResultIterator V
  | [] => iterator
  | n :: ns =>
    match iterator.get catalog ret n with
    | .ok (_, later) => later.after ns
    | .error _ => iterator.after ns

variable {catalog ret} {iterator later : ResultIterator V}

theorem get_table {n : Nat} {value : List V}
    (got : iterator.get catalog ret n = .ok (value, later)) : later.table = iterator.table := by
  unfold get at got
  cases cached : iterator.tuples[n]? with
  | none =>
    rw [cached] at got
    cases got
  | some tuple =>
    rw [cached] at got
    cases tuple with
    | some tuple =>
      cases got
      rfl
    | none =>
      cases found : iterator.table.vals[n]? with
      | none =>
        rw [found] at got
        cases got
      | some row =>
        rw [found] at got
        cases decoded : ret.decode catalog iterator.table.tupdesc row with
        | error refusal =>
          simp only [decoded] at got
          cases got
        | ok decodedValue =>
          simp only [decoded] at got
          cases got
          rfl

/-- Whatever was asked for, the cache is coherent. -/
theorem after_coherent (coherent : iterator.Coherent catalog ret) (ns : List Nat) :
    (iterator.after catalog ret ns).Coherent catalog ret ∧
      (iterator.after catalog ret ns).table = iterator.table := by
  induction ns generalizing iterator with
  | nil => exact ⟨coherent, rfl⟩
  | cons n ns ih =>
    unfold after
    cases got : iterator.get catalog ret n with
    | error refusal => exact ih coherent
    | ok result =>
      obtain ⟨value, later⟩ := result
      obtain ⟨kept, same⟩ := ih (get_coherent coherent got)
      exact ⟨kept, same.trans (get_table got)⟩

end ResultIterator

/-- As a string and as a plan, a statement that selects its parameters returns them: whatever was
read through the iterator before, its first row is the values that were given, nulls included. -/
theorem parameters_come_back (pgMajorversionNum : Nat) (catalog : Catalog) (this top : SpiExecutor)
    (below : List SpiExecutor) (connection : SpiConnection) (outer : List SpiConnection)
    (sql : String) (opts : Options) (args : List ScalarArgument) (ret : Ret ScalarReading)
    (s : Machine Backend) (asked : AskedFor args ret) (stack : s.store.executors = top :: below)
    (same : top.address = this.address) (connected : s.store.session.spi = connection :: outer)
    (count : 0 ≤ opts.count)
    (echoes : s.store.session.outcome s.store.session.executed
        (statement sql opts (args.map ScalarArgument.outgoing)) =
      .done spiOkSelect (some (statement sql opts (args.map ScalarArgument.outgoing)).echo) 1) :
    ∃ table,
      answer (query pgMajorversionNum catalog ret this sql opts
        (args.map ScalarArgument.outgoing) s).1 = some (.results table) ∧
      answer (queryPlan catalog ret this (prepared false sql (args.map ScalarArgument.outgoing)) opts
        (args.map ScalarArgument.outgoing) s).1 = some (.results table) ∧
      ∀ before : List Nat, (((ResultIterator.begin_ table).after catalog ret before).get catalog ret
        0).map Prod.fst = .ok (args.map ScalarArgument.reading) := by
  let given := statement sql opts (args.map ScalarArgument.outgoing)
  have reported : s.store.session.reported given = .done spiOkSelect (some given.echo) 1 := by
    have counted : ¬ given.tcount < 0 := not_lt.mpr count
    unfold Session.reported
    rw [if_neg counted, connected]
    exact echoes
  have described : given.echo.tupdesc = ScalarArgument.types args := List.map_map
  have row : given.echo.vals = [ScalarArgument.columns args] := by
    refine echo_vals.trans ?_
    rw [List.map_map]
    rfl
  have good : resultsAnswer catalog ret (some given.echo) = some (.results given.echo) := by
    unfold resultsAnswer
    dsimp only
    rw [described, asked.checked]
  refine ⟨given.echo, ?_, ?_, fun before => ?_⟩
  · rw [query_answer stack, if_pos same, reported]
    exact good
  · rw [queryPlan_answer stack, if_pos same, reported]
    exact good
  · obtain ⟨coherent, table⟩ := ResultIterator.after_coherent
      (ResultIterator.begin_coherent catalog ret given.echo) before
    have found : (ResultIterator.after catalog ret (.begin_ given.echo) before).table.vals[0]? =
        some (ScalarArgument.columns args) := by
      rw [table]
      change given.echo.vals[0]? = _
      rw [row]
      rfl
    rw [ResultIterator.get_eq_decode coherent found, table]
    change ret.decode catalog given.echo.tupdesc _ = _
    rw [described, asked.decoded]

/-- A backend that gives each statement its parameters back. -/
def selecting : SpiExecutor × Machine Backend :=
  let this : SpiExecutor := ⟨0, 0, 1⟩
  (this, { idle with store := { idle.store with
    executors := [this]
    session := { idle.store.session with
      spi := [⟨1, 0, none, true⟩]
      outcome := fun _ statement => .done spiOkSelect (some statement.echo) 1 } } })

/-- An `int64_t`, a null and a `bool`. -/
def mixedArguments : List ScalarArgument :=
  [⟨.plain .int8, (-5 : BitVec 64)⟩, ⟨.optional .int4, none⟩, ⟨.plain .bool, true⟩]

theorem mixedArguments_come_back :
    ∃ table, answer (query 17 ⟨fun _ => none, fun _ => ""⟩
        (.fields (mixedArguments.map (·.1.element))) selecting.1 "select $1, $2, $3" ⟨false, 0⟩
        (mixedArguments.map ScalarArgument.outgoing) selecting.2).1 = some (.results table) ∧
      ((ResultIterator.begin_ table).get ⟨fun _ => none, fun _ => ""⟩
        (.fields (mixedArguments.map (·.1.element))) 0).map Prod.fst =
          .ok (mixedArguments.map ScalarArgument.reading) := by
  obtain ⟨table, asked, -, back⟩ := parameters_come_back 17 ⟨fun _ => none, fun _ => ""⟩
    selecting.1 selecting.1 [] ⟨1, 0, none, true⟩ [] "select $1, $2, $3" ⟨false, 0⟩
    mixedArguments (.fields (mixedArguments.map (·.1.element))) selecting.2 .fields rfl rfl rfl
    (by decide) rfl
  exact ⟨table, asked, back []⟩

end Cppgres
