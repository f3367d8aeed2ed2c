import Cppgres.Datum.Conversion

/-!
# Results of a query

`spi_executor::results` checks the columns of a tuple table against a result type when it
is constructed; `result_iterator::operator[]` decodes a row into it. Both choose by the
shape of the type, each in its own way. `Ret.agrees_iff` says for which shapes and columns
they choose the same.
-/
namespace Cppgres

variable {V : Type}

/-- What a query is asked to return. -/
inductive Ret (V : Type) where
  /-- a type that is one column -/
  | single (element : Element V)
  /-- a `std::tuple` or a plain aggregate -/
  | fields (elements : List (Element V))
  /-- a `composite_type` struct -/
  | composite (record : Composite V)
  /-- an aggregate with a `datum_conversion` of its own -/
  | converted (elements : List (Element V)) (conversion : CppType V)
  /-- a `std::vector` -/
  | vector (element : Element V)

namespace Ret
variable (catalog : Catalog)

/-- `convertible_from_datum<Ret>`. -/
def convertibleFromDatum : Ret V → Bool
  | .single _ => true
  | .fields _ => false
  | .composite _ => true
  | .converted _ _ => true
  | .vector _ => false

/-- `utils::tuple_element_t<Is, Ret>` for every `Is` below `utils::tuple_size_v<Ret>`. -/
def tupleElements : Ret V → List (CppType V)
  | .single element => [element.type catalog]
  | .fields elements => elements.map (·.type catalog)
  | .composite record => record.fields
  | .converted elements _ => elements.map (·.type catalog)
  | .vector element => [element.type catalog]

end Ret

/-- `results::results`, with the columns of the table. -/
def Ret.checkColumns (catalog : Catalog) (ret : Ret V) (tupdesc : List Oid) :
    Except Refusal Unit :=
  match ret with
  | .vector element =>
    checkTypes .returnType 0 (List.replicate tupdesc.length (element.type catalog)) tupdesc
  | _ =>
    let elements := ret.tupleElements catalog
    if tupdesc.length ≠ elements.length then
      if tupdesc.length = 1 ∧ ret.convertibleFromDatum then
        -- okay, this is just a type we can convert
        .ok ()
      else .error (.returnCount elements.length tupdesc.length)
    else checkTypes .returnType 0 elements tupdesc

/-- `SPI_getbinval`: a column that is not there is a null. Columns are counted from 1. -/
def spiGetbinval (row : List NullableDatum) (column : Nat) : NullableDatum :=
  match column with
  | 0 => ⟨0, true⟩
  | index + 1 => row[index]?.getD ⟨0, true⟩

/-- `SPI_gettypeid`: a column that is not there has an invalid type. -/
def spiGettypeid (tupdesc : List Oid) (column : Nat) : Oid :=
  match column with
  | 0 => 0
  | index + 1 => tupdesc[index]?.getD 0

/-- Which columns a row is decoded from, and as what: the branches of `operator[]`. -/
def Ret.reads (catalog : Catalog) (ret : Ret V) (natts : Nat) : List (Nat × CppType V) :=
  let byElement := (ret.tupleElements catalog).zipIdx.map fun (T, index) => (index + 1, T)
  match ret with
  | .composite record => [(1, record.type catalog)]
  | .single element => if natts = 1 then [(1, element.type catalog)] else byElement
  | .converted _ conversion => if natts = 1 then [(1, conversion)] else byElement
  | .vector element => (List.range natts).map fun index => (index + 1, element.type catalog)
  | .fields _ => byElement

def readColumn (tupdesc : List Oid) (row : List NullableDatum) (read : Nat × CppType V) :
    Except Refusal V :=
  read.2.fromNullableDatum (spiGetbinval row read.1) (spiGettypeid tupdesc read.1)

/-- What `operator[]` makes of a row that is not in its cache. -/
def Ret.decode (catalog : Catalog) (ret : Ret V) (tupdesc : List Oid) (row : List NullableDatum) :
    Except Refusal (List V) :=
  (ret.reads catalog tupdesc.length).mapM (readColumn tupdesc row)

/-- `result_iterator`, with the rows decoded so far. -/
structure ResultIterator (V : Type) where
  table : SpiTupleTable
  index : Nat
  tuples : List (Option (List V))

/-- `results::begin()`. -/
def ResultIterator.begin_ (table : SpiTupleTable) : ResultIterator V :=
  ⟨table, 0, List.replicate table.vals.length none⟩

/-- `result_iterator::operator[]`. -/
def ResultIterator.get (catalog : Catalog) (ret : Ret V) (iterator : ResultIterator V) (n : Nat) :
    Except Refusal (List V × ResultIterator V) :=
  match iterator.tuples[n]?, iterator.table.vals[n]? with
  | none, _ => .error .rowBounds
  | some (some cached), _ => .ok (cached, iterator)
  | some none, none => .error .rowBounds
  | some none, some row => do
    let value ← ret.decode catalog iterator.table.tupdesc row
    .ok (value, { iterator with tuples := iterator.tuples.set n (some value) })

/-- The cache holds what its rows decode to. -/
def ResultIterator.Coherent (catalog : Catalog) (ret : Ret V) (iterator : ResultIterator V) :
    Prop :=
  iterator.tuples.length = iterator.table.vals.length ∧
  ∀ (n : Nat) (value : List V), iterator.tuples[n]? = some (some value) →
    ∃ row, iterator.table.vals[n]? = some row ∧
      ret.decode catalog iterator.table.tupdesc row = .ok value

theorem ResultIterator.begin_coherent (catalog : Catalog) (ret : Ret V) (table : SpiTupleTable) :
    (ResultIterator.begin_ table).Coherent catalog ret := by
  refine ⟨List.length_replicate, fun n value cached => ?_⟩
  have none := List.eq_of_mem_replicate (List.mem_of_getElem? cached)
  cases none

/-- On an existing row `operator[]` gives what the row decodes to, cached or not. -/
theorem ResultIterator.get_eq_decode {catalog : Catalog} {ret : Ret V}
    {iterator : ResultIterator V} (coherent : iterator.Coherent catalog ret) {n : Nat}
    {row : List NullableDatum} (found : iterator.table.vals[n]? = some row) :
    (iterator.get catalog ret n).map Prod.fst =
      ret.decode catalog iterator.table.tupdesc row := by
  obtain ⟨length, cache⟩ := coherent
  obtain ⟨below, _⟩ := List.getElem?_eq_some_iff.mp found
  unfold get
  cases at_ : iterator.tuples[n]? with
  | none => exact absurd (List.getElem?_eq_none_iff.mp at_) (by omega)
  | some cached =>
    cases cached with
    | none =>
      rw [found]
      dsimp only
      cases ret.decode catalog iterator.table.tupdesc row <;> rfl
    | some value =>
      obtain ⟨row', found', decoded⟩ := cache n value at_
      cases found.symm.trans found'
      exact decoded.symm

/-- And it leaves a cache that holds what its rows decode to. -/
theorem ResultIterator.get_coherent {catalog : Catalog} {ret : Ret V}
    {iterator later : ResultIterator V} (coherent : iterator.Coherent catalog ret) {n : Nat}
    {value : List V} (got : iterator.get catalog ret n = .ok (value, later)) :
    later.Coherent catalog ret := by
  obtain ⟨length, cache⟩ := coherent
  unfold get at got
  cases at_ : iterator.tuples[n]? with
  | none =>
    rw [at_] at got
    cases got
  | some cached =>
    cases cached with
    | some cached =>
      rw [at_] at got
      cases got
      exact ⟨length, cache⟩
    | none =>
      cases found : iterator.table.vals[n]? with
      | none =>
        rw [at_, found] at got
        cases got
      | some row =>
        rw [at_, found] at got
        cases decoded : ret.decode catalog iterator.table.tupdesc row with
        | error refusal =>
          simp only [decoded] at got
          cases got
        | ok decodedValue =>
          simp only [decoded] at got
          cases got
          refine ⟨List.length_set.trans length, fun m other here => ?_⟩
          by_cases same : n = m
          · subst same
            obtain ⟨below, _⟩ := List.getElem?_eq_some_iff.mp at_
            dsimp only at here
            rw [List.getElem?_set_self below] at here
            cases here
            exact ⟨row, found, decoded⟩
          · dsimp only at here
            rw [List.getElem?_set_ne same] at here
            exact cache m other here

/-! ## What the check accepts -/

section Accepts
variable {catalog : Catalog} {tupdesc : List Oid}

/-- Columns against as many elements. -/
theorem check_fields_ok {types : List (CppType V)} :
    (if tupdesc.length ≠ types.length then
        (.error (.returnCount types.length tupdesc.length) : Except Refusal Unit)
      else checkTypes .returnType 0 types tupdesc) = .ok () ↔
    List.Forall₂ CppType.Takes types tupdesc := by
  by_cases length : types.length = tupdesc.length
  · rw [if_neg (by rw [length]; simp)]
    exact checkTypes_ok 0 length
  · rw [if_pos (fun same => length same.symm)]
    constructor
    · intro accepted
      cases accepted
    · intro takes
      exact absurd takes.length_eq length

/-- A type that converts from one column is accepted with any one column, unless it also has
exactly one element. -/
theorem check_convertible_ok {types : List (CppType V)} :
    (if tupdesc.length ≠ types.length then
        (if tupdesc.length = 1 ∧ true then .ok ()
        else .error (.returnCount types.length tupdesc.length) : Except Refusal Unit)
      else checkTypes .returnType 0 types tupdesc) = .ok () ↔
    (tupdesc.length = 1 ∧ types.length ≠ 1) ∨ List.Forall₂ CppType.Takes types tupdesc := by
  by_cases length : types.length = tupdesc.length
  · rw [if_neg (by rw [length]; simp), checkTypes_ok 0 length, length]
    constructor
    · exact .inr
    · rintro (⟨one, other⟩ | takes)
      · exact absurd one other
      · exact takes
  · rw [if_pos (fun same => length same.symm)]
    by_cases one : tupdesc.length = 1
    · rw [if_pos ⟨one, rfl⟩]
      exact ⟨fun _ => .inl ⟨one, fun single => length (single.trans one.symm)⟩, fun _ => rfl⟩
    · rw [if_neg (fun both => one both.1)]
      constructor
      · intro accepted
        cases accepted
      · rintro (⟨one', _⟩ | takes)
        · exact absurd one' one
        · exact absurd takes.length_eq length

theorem Ret.check_single_ok {element : Element V} :
    (Ret.single element).checkColumns catalog tupdesc = .ok () ↔
      ∃ oid, tupdesc = [oid] ∧ (element.type catalog).Takes oid := by
  refine check_convertible_ok.trans ?_
  constructor
  · rintro (⟨_, other⟩ | takes)
    · exact absurd rfl other
    · obtain ⟨oid, rest, first, none, rfl⟩ := List.forall₂_cons_left_iff.mp takes
      cases none
      exact ⟨oid, rfl, first⟩
  · rintro ⟨oid, rfl, takes⟩
    exact .inr (.cons takes .nil)

theorem Ret.check_vector_ok {element : Element V} :
    (Ret.vector element).checkColumns catalog tupdesc = .ok () ↔
      ∀ oid ∈ tupdesc, (element.type catalog).Takes oid := by
  change checkTypes .returnType 0 _ tupdesc = .ok () ↔ _
  rw [checkTypes_ok 0 (by rw [List.length_replicate])]
  induction tupdesc with
  | nil => exact ⟨fun _ _ member => (nomatch member), fun _ => .nil⟩
  | cons oid tupdesc ih =>
    rw [List.length_cons, List.replicate_succ, List.forall₂_cons, List.forall_mem_cons, ih]

end Accepts

/-! ## What is read agrees with it -/

/-- A column that is read exists, and the type it is read as took the column's type and
fails on it for nothing but a null. -/
def ReadOk (tupdesc : List Oid) (read : Nat × CppType V) : Prop :=
  ∃ index oid, read.1 = index + 1 ∧ tupdesc[index]? = some oid ∧ read.2.Takes oid ∧
    read.2.OnlyNull oid

/-- Part one: what the check accepts is read as it was checked. Part two: a single column of
the type of a composite struct is accepted and read as that struct. -/
def Ret.Agrees (catalog : Catalog) (ret : Ret V) (tupdesc : List Oid) : Prop :=
  (ret.checkColumns catalog tupdesc = .ok () →
    ∀ read ∈ ret.reads catalog tupdesc.length, ReadOk tupdesc read) ∧
  (∀ record, ret = .composite record → tupdesc = [record.own] →
    ret.checkColumns catalog tupdesc = .ok () ∧
      ret.reads catalog tupdesc.length = [(1, record.type catalog)])

section Reads
variable {catalog : Catalog} {tupdesc : List Oid}

/-- So a row fails to decode for a null only. -/
theorem Ret.decode_error {ret : Ret V} {row : List NullableDatum} {refusal : Refusal}
    (ok : ∀ read ∈ ret.reads catalog tupdesc.length, ReadOk tupdesc read)
    (failed : ret.decode catalog tupdesc row = .error refusal) : refusal.OfNull := by
  obtain ⟨read, member, failed⟩ := mapM_error failed
  obtain ⟨index, oid, column, found, _, onlyNull⟩ := ok read member
  refine onlyNull (spiGetbinval row read.1) refusal ?_
  have type : spiGettypeid tupdesc read.1 = oid := by
    rw [column]
    change tupdesc[index]?.getD 0 = oid
    rw [found]
    rfl
  rw [← type]
  exact failed

theorem readOk_element {element : Element V} {index : Nat} {oid : Oid}
    (found : tupdesc[index]? = some oid) (takes : (element.type catalog).Takes oid) :
    ReadOk tupdesc (index + 1, element.type catalog) ↔ element.Reads oid := by
  rw [← Element.reads_iff catalog]
  constructor
  · rintro ⟨index', oid', column, found', _, onlyNull⟩
    cases Nat.succ.inj column
    cases found.symm.trans found'
    exact onlyNull
  · exact fun onlyNull => ⟨index, oid, rfl, found, takes, onlyNull⟩

/-- Elements read one after the other. -/
theorem readOk_elements {elements : List (Element V)}
    (takes : List.Forall₂ CppType.Takes (elements.map (·.type catalog)) tupdesc) :
    (∀ read ∈ (elements.map (·.type catalog)).zipIdx.map fun (T, index) => (index + 1, T),
      ReadOk tupdesc read) ↔
    List.Forall₂ Element.Reads elements tupdesc := by
  have length : elements.length = tupdesc.length := by
    have length := takes.length_eq
    rwa [List.length_map] at length
  have column (index : Nat) (below : index < elements.length) :
      tupdesc[index]? = some tupdesc[index] ∧
        (elements[index].type catalog).Takes tupdesc[index] := by
    have here := takes.get (by rw [List.length_map]; exact below) (length ▸ below)
    simp only [List.get_eq_getElem, List.getElem_map] at here
    exact ⟨List.getElem?_eq_getElem _, here⟩
  constructor
  · intro ok
    refine List.forall₂_iff_get.mpr ⟨length, fun index below _ => ?_⟩
    obtain ⟨found, takes⟩ := column index below
    refine (readOk_element found takes).mp (ok _ ?_)
    refine List.mem_map.mpr ⟨(elements[index].type catalog, index), ?_, rfl⟩
    rw [List.mem_zipIdx_iff_getElem?, List.getElem?_map, List.getElem?_eq_getElem below]
    rfl
  · intro own read member
    obtain ⟨⟨T, index⟩, here, rfl⟩ := List.mem_map.mp member
    rw [List.mem_zipIdx_iff_getElem?, List.getElem?_map] at here
    obtain ⟨element, at_, rfl⟩ := Option.map_eq_some_iff.mp here
    obtain ⟨below, same⟩ := List.getElem?_eq_some_iff.mp at_
    dsimp only at below same
    obtain ⟨found, takes⟩ := column index below
    have here := (readOk_element found takes).mpr (own.get below (length ▸ below))
    rwa [same] at here

end Reads

/-- When the two choices agree. A column that is accepted for an element can be read as it: no
column is read as a composite struct of another type, or as one whose fields do not fit. A struct
that accepts a single column through a conversion of its own takes the column's type; one that is
read from its first column has that column's type for its own; and a composite struct of one field
has a field that takes the struct's type. -/
def Ret.Suits (catalog : Catalog) : Ret V → List Oid → Prop
  | .single element, tupdesc =>
    ∀ oid, tupdesc = [oid] → (element.type catalog).Takes oid → element.Reads oid
  | .fields elements, tupdesc =>
    List.Forall₂ CppType.Takes (elements.map (·.type catalog)) tupdesc →
      List.Forall₂ Element.Reads elements tupdesc
  | .vector element, tupdesc =>
    (∀ oid ∈ tupdesc, (element.type catalog).Takes oid) →
      ∀ oid ∈ tupdesc, element.Reads oid
  | .converted elements conversion, tupdesc =>
    (∀ oid, tupdesc = [oid] →
      elements.length ≠ 1 ∨ List.Forall₂ CppType.Takes (elements.map (·.type catalog)) [oid] →
        conversion.Takes oid ∧ conversion.OnlyNull oid) ∧
    (tupdesc.length ≠ 1 → List.Forall₂ CppType.Takes (elements.map (·.type catalog)) tupdesc →
      List.Forall₂ Element.Reads elements tupdesc)
  | .composite record, tupdesc =>
    ((tupdesc.length = 1 ∧ record.fields.length ≠ 1) ∨
        List.Forall₂ CppType.Takes record.fields tupdesc →
      tupdesc.head? = some record.own ∧ record.Fits) ∧
    (tupdesc = [record.own] → record.fields.length ≠ 1 ∨
      List.Forall₂ CppType.Takes record.fields [record.own])

section Agrees
variable {catalog : Catalog} {tupdesc : List Oid}

theorem Ret.agrees_single {element : Element V} :
    (Ret.single element).Agrees catalog tupdesc ↔ (Ret.single element).Suits catalog tupdesc := by
  constructor
  · rintro ⟨ok, _⟩ oid rfl takes
    have read := ok (check_single_ok.mpr ⟨oid, rfl, takes⟩) _ List.mem_cons_self
    exact (readOk_element rfl takes).mp read
  · intro suits
    refine ⟨fun accepted read member => ?_, fun record other => nomatch other⟩
    obtain ⟨oid, rfl, takes⟩ := check_single_ok.mp accepted
    cases List.mem_singleton.mp member
    exact (readOk_element rfl takes).mpr (suits oid rfl takes)

theorem Ret.agrees_fields {elements : List (Element V)} :
    (Ret.fields elements).Agrees catalog tupdesc ↔ (Ret.fields elements).Suits catalog tupdesc := by
  have accepts : (Ret.fields elements).checkColumns catalog tupdesc = .ok () ↔
      List.Forall₂ CppType.Takes (elements.map (·.type catalog)) tupdesc := by
    rw [← check_fields_ok]
    unfold checkColumns
    simp [convertibleFromDatum, tupleElements]
  constructor
  · rintro ⟨ok, _⟩ takes
    exact (readOk_elements takes).mp (ok (accepts.mpr takes))
  · intro suits
    refine ⟨fun accepted => ?_, fun record other => nomatch other⟩
    have takes := accepts.mp accepted
    exact (readOk_elements takes).mpr (suits takes)

theorem Ret.agrees_vector {element : Element V} :
    (Ret.vector element).Agrees catalog tupdesc ↔ (Ret.vector element).Suits catalog tupdesc := by
  have read (index : Nat) (oid : Oid) (found : tupdesc[index]? = some oid) :
      (index + 1, element.type catalog) ∈
        (Ret.vector element).reads catalog tupdesc.length :=
    List.mem_map.mpr
      ⟨index, List.mem_range.mpr (List.getElem?_eq_some_iff.mp found).1, rfl⟩
  constructor
  · rintro ⟨ok, _⟩ takes oid member
    obtain ⟨index, found⟩ := List.mem_iff_getElem?.mp member
    exact (readOk_element found (takes oid member)).mp
      (ok (check_vector_ok.mpr takes) _ (read index oid found))
  · intro suits
    refine ⟨fun accepted read member => ?_, fun record other => nomatch other⟩
    have takes := check_vector_ok.mp accepted
    obtain ⟨index, below, rfl⟩ := List.mem_map.mp member
    have found := List.getElem?_eq_getElem (List.mem_range.mp below)
    have here := List.getElem_mem (List.mem_range.mp below)
    exact (readOk_element found (takes _ here)).mpr (suits takes _ here)

theorem Ret.agrees_converted {elements : List (Element V)} {conversion : CppType V} :
    (Ret.converted elements conversion).Agrees catalog tupdesc ↔
      (Ret.converted elements conversion).Suits catalog tupdesc := by
  have accepts : (Ret.converted elements conversion).checkColumns catalog tupdesc = .ok () ↔
      (tupdesc.length = 1 ∧ (elements.map (·.type catalog)).length ≠ 1) ∨
        List.Forall₂ CppType.Takes (elements.map (·.type catalog)) tupdesc :=
    check_convertible_ok
  rw [List.length_map] at accepts
  unfold Agrees
  rw [accepts]
  by_cases one : tupdesc.length = 1
  · obtain ⟨oid, rfl⟩ := List.length_eq_one_iff.mp one
    constructor
    · rintro ⟨ok, _⟩
      refine ⟨?_, fun other => absurd rfl other⟩
      intro oid' same accepted
      cases same
      obtain ⟨index, oid', column, found, takes, onlyNull⟩ :=
        ok (accepted.imp_left fun many => ⟨rfl, many⟩) _ List.mem_cons_self
      cases Nat.succ.inj column
      cases found
      exact ⟨takes, onlyNull⟩
    · rintro ⟨suits, _⟩
      refine ⟨fun accepted read member => ?_, fun record other => nomatch other⟩
      cases List.mem_singleton.mp member
      exact ⟨0, oid, rfl, rfl, suits oid rfl (accepted.imp_left (·.2))⟩
  · have reads : (Ret.converted elements conversion).reads catalog tupdesc.length =
        (elements.map (·.type catalog)).zipIdx.map fun (T, index) => (index + 1, T) := if_neg one
    rw [reads]
    constructor
    · rintro ⟨ok, _⟩
      refine ⟨fun oid same => absurd (congrArg List.length same) one, fun _ takes => ?_⟩
      exact (readOk_elements takes).mp (ok (.inr takes))
    · rintro ⟨_, suits⟩
      refine ⟨?_, fun record other => nomatch other⟩
      rintro (⟨one', _⟩ | takes)
      · exact absurd one' one
      · exact (readOk_elements takes).mpr (suits one takes)

/-- A composite struct is read from the first column, whatever was checked. -/
theorem readOk_composite {record : Composite V} :
    ReadOk tupdesc (1, record.type catalog) ↔ tupdesc.head? = some record.own ∧ record.Fits := by
  rw [List.head?_eq_getElem?]
  constructor
  · rintro ⟨index, oid, column, found, takes, onlyNull⟩
    cases Nat.succ.inj column
    obtain ⟨own, fits⟩ :=
      (@readOk_element V catalog tupdesc (.composite record) 0 oid found takes).mp
        ⟨0, oid, rfl, found, takes, onlyNull⟩
    exact ⟨own ▸ found, fits⟩
  · rintro ⟨found, fits⟩
    have takes : (record.type catalog).Takes record.own := if_pos rfl
    exact (@readOk_element V catalog tupdesc (.composite record) 0 record.own found takes).mpr
      ⟨rfl, fits⟩

theorem Ret.agrees_composite {record : Composite V} :
    (Ret.composite record).Agrees catalog tupdesc ↔
      (Ret.composite record).Suits catalog tupdesc := by
  have accepts : (Ret.composite record).checkColumns catalog tupdesc = .ok () ↔
      (tupdesc.length = 1 ∧ record.fields.length ≠ 1) ∨
        List.Forall₂ CppType.Takes record.fields tupdesc := check_convertible_ok
  unfold Agrees
  rw [accepts]
  constructor
  · rintro ⟨ok, own⟩
    refine ⟨fun accepted => readOk_composite.mp (ok accepted _ List.mem_cons_self), ?_⟩
    rintro rfl
    exact (own record rfl rfl).1.imp_left (·.2)
  · rintro ⟨first, suits⟩
    constructor
    · intro accepted read member
      cases List.mem_singleton.mp member
      exact readOk_composite.mpr (first accepted)
    · intro record' same own
      cases same
      subst own
      exact ⟨(suits rfl).imp_left fun many => ⟨rfl, many⟩, rfl⟩

/-- The check and the decoding of a row agree exactly where the type suits the columns. -/
theorem Ret.agrees_iff (catalog : Catalog) (ret : Ret V) (tupdesc : List Oid) :
    ret.Agrees catalog tupdesc ↔ ret.Suits catalog tupdesc := by
  cases ret with
  | single element => exact agrees_single
  | fields elements => exact agrees_fields
  | composite record => exact agrees_composite
  | converted elements conversion => exact agrees_converted
  | vector element => exact agrees_vector

end Agrees

/-- `struct { std::string s; int32_t i; }` with a row type of its own, number 20000. -/
def pair : Composite Datum where
  typeName := "pair"
  own := 20000
  fields :=
    [(Scalar.mk "std::string" (· == 25) id).type, (Scalar.mk "int32_t" (· == 23) id).type]
  rowOf datum := [(⟨datum, false⟩, 25), (⟨datum, false⟩, 23)]
  make values := values.foldl (· + ·) 0

def pairCatalog : Catalog where
  typtype oid := if oid = 20000 then some 'c' else some 'b'
  formatType oid := if oid = 20000 then "pair" else if oid = 25 then "text" else "integer"

/-- Two columns of the types of its fields are accepted, and then the first one is read as
the whole struct. -/
theorem pair_misread :
    (Ret.composite pair).checkColumns pairCatalog [25, 23] = .ok () ∧
    (Ret.composite pair).decode pairCatalog [25, 23] [⟨1, false⟩, ⟨2, false⟩] =
      .error (.foreignComposite "pair" "text") ∧
    ¬ (Ret.composite pair).Agrees pairCatalog [25, 23] := by
  refine ⟨rfl, rfl, fun agrees => ?_⟩
  cases (readOk_composite.mp (agrees.1 rfl _ List.mem_cons_self)).1

/-- A row type with fewer attributes than the struct has fields: a column of it is accepted, and no
row can be read. -/
example :
    let short : Composite Datum := { pair with rowOf := fun datum => [(⟨datum, false⟩, 25)] }
    (Ret.composite short).checkColumns pairCatalog [20000] = .ok () ∧
    (Ret.composite short).decode pairCatalog [20000] [⟨1, false⟩] = .error (.attributeBounds 1 1) :=
  ⟨rfl, rfl⟩

end Cppgres
