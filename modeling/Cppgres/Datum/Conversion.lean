import Cppgres.Postgres.Backend
import Mathlib.Data.List.Forall2

/-!
# Types, datums and their conversions

What the templates of `datum.hpp`, `types.hpp` and `record.hpp` look up for a C++ type:
`type_traits<T>::is`, `datum_conversion<T>::from_nullable_datum` and its name. The values
of all C++ types live in one type `V`.
-/
namespace Cppgres

/-- The exceptions that validation and conversion throw, one constructor for each place. -/
inductive Refusal where
  | nullDatum (typeName : String)
  | foreignComposite (expected got : String)
  | invalidTuple
  | attributeBounds (index size : Nat)
  | rowBounds
  | returnCount (expected got : Nat)
  | returnType (position : Nat) (typeName : String) (oid : Oid)
  | setCount (nargs natts : Nat)
  | recordType (position : Nat) (typeName : String) (oid : Oid)
  deriving DecidableEq, Repr

def Refusal.what : Refusal → String
  | .nullDatum typeName => "datum is null and can't be coerced into " ++ typeName
  | .foreignComposite expected got =>
    "invalid type: expected composite type " ++ expected ++ " got " ++ got
  | .invalidTuple => "invalid tuple"
  | .attributeBounds index size =>
    "attribute index " ++ toString index ++ " is out of bounds for record with the size of " ++
      toString size
  | .rowBounds => "vector::at"
  | .returnCount expected got =>
    "expected " ++ toString expected ++ " return values, got " ++ toString got
  | .returnType position typeName oid =>
    "invalid return type in position " ++ toString position ++ " (" ++ typeName ++
      "), got OID " ++ toString oid
  | .setCount nargs natts =>
    "expected set with " ++ toString nargs ++ " value" ++ (if nargs = 1 then "" else "s") ++
      ", got " ++ toString natts ++ " instead"
  | .recordType position typeName oid =>
    "invalid type in record's position " ++ toString position ++ " (" ++ typeName ++
      "), got OID " ++ toString oid

def Refusal.exception (refusal : Refusal) : CppException := .std refusal.what

/-- The failure is that of a null where the C++ type has no place for one. -/
def Refusal.OfNull (refusal : Refusal) : Prop := ∃ typeName, refusal = .nullDatum typeName

/-- The rows of `pg_type` that conversions look up. -/
structure Catalog where
  typtype : Oid → Option Char
  formatType : Oid → String

variable {V : Type}

/-- The instances a C++ type has. -/
structure CppType (V : Type) where
  typeName : String
  is : Oid → Except Refusal Bool
  fromDatum : Datum → Oid → Except Refusal V
  fromNullableDatum : NullableDatum → Oid → Except Refusal V

namespace CppType

/-- `is` accepts the type. -/
def Takes (T : CppType V) (oid : Oid) : Prop := T.is oid = .ok true

/-- A column of this type is converted with no failure but that of a null. -/
def OnlyNull (T : CppType V) (oid : Oid) : Prop :=
  ∀ datum refusal, T.fromNullableDatum datum oid = .error refusal → refusal.OfNull

/-- `default_datum_conversion`. -/
def default_ (typeName : String) (is : Oid → Except Refusal Bool)
    (fromDatum : Datum → Oid → Except Refusal V) : CppType V where
  typeName := typeName
  is := is
  fromDatum := fromDatum
  fromNullableDatum datum oid :=
    if datum.isnull then .error (.nullDatum typeName) else fromDatum datum.value oid

/-- `std::optional<T>`, with the value `nullopt` is. -/
def optional (nullopt : V) (T : CppType V) : CppType V where
  typeName := "std::optional<" ++ T.typeName ++ ">"
  is := T.is
  fromDatum := T.fromDatum
  fromNullableDatum datum oid :=
    if datum.isnull then .ok nullopt else T.fromDatum datum.value oid

end CppType

/-- A type whose `from_datum` is a cast: the integers, `bool`, `oid`, `datum`, the varlenas.
`accepts` is its `type_traits::is`. -/
structure Scalar (V : Type) where
  typeName : String
  accepts : Oid → Bool
  cast : Datum → V

def Scalar.type (scalar : Scalar V) : CppType V :=
  .default_ scalar.typeName (fun oid => .ok (scalar.accepts oid)) fun datum _ =>
    .ok (scalar.cast datum)

/-- A composite type of C++: a struct with `composite_type()`. `rowOf` reads the tuple a datum
points to, with the types of its attributes. Nothing checks the fields against the attributes. -/
structure Composite (V : Type) where
  typeName : String
  own : Oid
  fields : List (CppType V)
  rowOf : Datum → List (NullableDatum × Oid)
  make : List V → V

namespace Composite
variable (catalog : Catalog) (composite : Composite V)

/-- `type_traits<T>::is`: any composite type will do. -/
def is (oid : Oid) : Except Refusal Bool :=
  if oid = composite.own then .ok true
  else
    match catalog.typtype oid with
    | none => .error .invalidTuple
    | some typtype => .ok (typtype == 'c')

/-- `from_nullable_datum<tuple_element_t<Is, T>>(rec.get_attribute(Is), ...)`. -/
def fromAttribute (row : List (NullableDatum × Oid)) (field : CppType V × Nat) :
    Except Refusal V :=
  match row[field.2]? with
  | none => .error (.attributeBounds field.2 row.length)
  | some (datum, oid) => field.1.fromNullableDatum datum oid

/-- `datum_conversion<T>::from_datum`: only the struct's own type will do. -/
def fromDatum (datum : Datum) (oid : Oid) : Except Refusal V :=
  if oid ≠ composite.own then
    .error (.foreignComposite (catalog.formatType composite.own) (catalog.formatType oid))
  else do
    let values ← composite.fields.zipIdx.mapM (fromAttribute (composite.rowOf datum))
    .ok (composite.make values)

def type : CppType V :=
  .default_ composite.typeName (composite.is catalog) (composite.fromDatum catalog)

/-- Each field that is reached has an attribute, and fails on it for nothing but a null. A field
is reached where the fields before it were read. -/
def Fits : Prop :=
  ∀ datum (index : Nat) field, composite.fields[index]? = some field →
    (∀ before ∈ composite.fields.zipIdx.take index,
      ∃ value, fromAttribute (composite.rowOf datum) before = .ok value) →
    ∃ value oid, (composite.rowOf datum)[index]? = some (value, oid) ∧
      ∀ refusal, field.fromNullableDatum value oid = .error refusal → refusal.OfNull

end Composite

/-- The types of a column or of a field. What is `converted` has a `datum_conversion` of the
user's own. -/
inductive Element (V : Type) where
  | scalar (scalar : Scalar V)
  | composite (composite : Composite V)
  | converted (conversion : CppType V)
  | optional (nullopt : V) (element : Element V)

namespace Element
variable (catalog : Catalog)

def type : Element V → CppType V
  | .scalar cast => cast.type
  | .composite record => record.type catalog
  | .converted conversion => conversion
  | .optional nullopt element => .optional nullopt element.type

/-- What is not null in a column of the type can be read: a composite type is read as itself, with
the attributes that its fields need. -/
def ReadsValues : Element V → Oid → Prop
  | .scalar _, _ => True
  | .composite record, oid => oid = record.own ∧ record.Fits
  | .converted conversion, oid =>
    ∀ datum refusal, conversion.fromDatum datum oid = .error refusal → refusal.OfNull
  | .optional _ element, oid => element.ReadsValues oid

/-- A column of the type can be read, but for a null. A conversion of the user's own has a function
for what may be null. -/
def Reads : Element V → Oid → Prop
  | .converted conversion, oid => conversion.OnlyNull oid
  | element, oid => element.ReadsValues oid

end Element

/-- The check of the types of the columns, one after the other, with what is thrown for one
that is not taken. -/
def checkTypes (refuse : Nat → String → Oid → Refusal) :
    Nat → List (CppType V) → List Oid → Except Refusal Unit
  | position, T :: types, oid :: oids => do
    if ← T.is oid then checkTypes refuse (position + 1) types oids
    else .error (refuse position T.typeName oid)
  | _, _, _ => .ok ()

/-- A C++ value on its way into Postgres: of a plain type, of a `std::optional`, or a
`nullable_datum` as it is. -/
inductive Outgoing where
  | plain (type : Oid) (datum : Datum)
  | optional (type : Oid) (value : Option Datum)
  | nullable (datum : NullableDatum)
  deriving DecidableEq, Repr

/-- `ANYOID` -/
def anyOid : Oid := 2276

/-- `type_traits<T>::type_for()`. -/
def Outgoing.typeFor : Outgoing → Oid
  | .plain type _ => type
  | .optional type _ => type
  | .nullable _ => anyOid

/-- `into_nullable_datum`. -/
def Outgoing.intoNullableDatum : Outgoing → NullableDatum
  | .plain _ datum => ⟨datum, false⟩
  | .optional _ (some datum) => ⟨datum, false⟩
  | .optional _ none => ⟨0, true⟩
  | .nullable datum => datum

/-! ## What a check accepts -/

theorem checkTypes_ok {refuse : Nat → String → Oid → Refusal} {types : List (CppType V)}
    {oids : List Oid} (position : Nat)
    (length : types.length = oids.length) :
    checkTypes refuse position types oids = .ok () ↔ List.Forall₂ CppType.Takes types oids := by
  induction types generalizing position oids with
  | nil =>
    cases oids with
    | nil => exact ⟨fun _ => .nil, fun _ => rfl⟩
    | cons oid oids => cases length
  | cons T types ih =>
    cases oids with
    | nil => cases length
    | cons oid oids =>
      unfold checkTypes
      rw [List.forall₂_cons]
      unfold CppType.Takes
      cases is : T.is oid with
      | error refusal =>
        constructor
        · intro accepted
          cases accepted
        · rintro ⟨accepted, _⟩
          cases accepted
      | ok answer =>
        cases answer with
        | false =>
          constructor
          · intro accepted
            cases accepted
          · rintro ⟨accepted, _⟩
            cases accepted
        | true =>
          have rest := ih (position + 1) (Nat.succ.inj length)
          exact ⟨fun accepted => ⟨rfl, rest.mp accepted⟩, fun accepted => rest.mpr accepted.2⟩

/-! ## What conversion can fail for -/

/-- The first failure is the one that counts. -/
theorem mapM_error_iff {α : Type*} {β ε : Type} {f : α → Except ε β} {items : List α}
    {failure : ε} :
    items.mapM f = .error failure ↔ ∃ (index : Nat) (item : α), items[index]? = some item ∧
      (∀ before ∈ items.take index, ∃ value, f before = .ok value) ∧ f item = .error failure := by
  induction items with
  | nil =>
    constructor
    · intro failed
      cases failed
    · rintro ⟨index, item, found, _⟩
      cases found
  | cons first items ih =>
    rw [List.mapM_cons]
    cases here : f first with
    | error failure' =>
      constructor
      · intro failed
        cases failed
        exact ⟨0, first, rfl, nofun, here⟩
      · rintro ⟨index, item, found, earlier, failed⟩
        cases index with
        | zero =>
          cases found
          cases here.symm.trans failed
          rfl
        | succ index =>
          obtain ⟨value, read⟩ := earlier first List.mem_cons_self
          cases here.symm.trans read
    | ok value =>
      have rest : ((do
          let value ← Except.ok value
          let values ← items.mapM f
          pure (value :: values)) = .error failure) ↔ items.mapM f = .error failure := by
        cases items.mapM f with
        | error _ => exact Iff.rfl
        | ok values => exact ⟨nofun, nofun⟩
      refine rest.trans (ih.trans ?_)
      constructor
      · rintro ⟨index, item, found, earlier, failed⟩
        refine ⟨index + 1, item, found, fun before listed => ?_, failed⟩
        rcases List.mem_cons.mp listed with rfl | listed
        · exact ⟨value, here⟩
        · exact earlier before listed
      · rintro ⟨index, item, found, earlier, failed⟩
        cases index with
        | zero =>
          cases found
          cases here.symm.trans failed
        | succ index =>
          exact ⟨index, item, found,
            fun before listed => earlier before (List.mem_cons_of_mem _ listed), failed⟩

theorem mapM_error {α : Type*} {β ε : Type} {f : α → Except ε β} {items : List α} {failure : ε}
    (failed : items.mapM f = .error failure) : ∃ item ∈ items, f item = .error failure := by
  obtain ⟨index, item, found, _, here⟩ := mapM_error_iff.mp failed
  exact ⟨item, List.mem_of_getElem? found, here⟩

/-- A conversion by default fails for a null, or where the conversion of what is not null does. -/
theorem CppType.default_onlyNull_iff {typeName : String} {is : Oid → Except Refusal Bool}
    {fromDatum : Datum → Oid → Except Refusal V} {oid : Oid} :
    (CppType.default_ typeName is fromDatum).OnlyNull oid ↔
      ∀ datum refusal, fromDatum datum oid = .error refusal → refusal.OfNull := by
  constructor
  · exact fun only datum refusal failed => only ⟨datum, false⟩ refusal failed
  · intro only datum refusal failed
    unfold CppType.default_ at failed
    dsimp only at failed
    split at failed
    · cases failed
      exact ⟨typeName, rfl⟩
    · exact only _ _ failed

theorem Composite.fromDatum_own (catalog : Catalog) (composite : Composite V) (datum : Datum) :
    composite.fromDatum catalog datum composite.own = (do
      let values ← composite.fields.zipIdx.mapM (fromAttribute (composite.rowOf datum))
      .ok (composite.make values)) := by
  unfold fromDatum
  rw [if_neg (by simp)]

/-- A datum of any other type is refused for its type. -/
theorem Composite.foreign_refused (catalog : Catalog) (composite : Composite V) {oid : Oid}
    (foreign : oid ≠ composite.own) (datum : Datum) :
    composite.fromDatum catalog datum oid =
      .error (.foreignComposite (catalog.formatType composite.own) (catalog.formatType oid)) := by
  unfold fromDatum
  rw [if_pos foreign]

/-- What the read of a field fails with. -/
theorem Composite.fromAttribute_onlyNull_iff {row : List (NullableDatum × Oid)}
    {field : CppType V} {index : Nat} :
    (∀ refusal, fromAttribute row (field, index) = .error refusal → refusal.OfNull) ↔
      ∃ value oid, row[index]? = some (value, oid) ∧
        ∀ refusal, field.fromNullableDatum value oid = .error refusal → refusal.OfNull := by
  unfold fromAttribute
  dsimp only
  cases row[index]? with
  | none =>
    constructor
    · intro only
      obtain ⟨typeName, same⟩ := only _ rfl
      cases same
    · rintro ⟨value, oid, found, _⟩
      cases found
  | some found =>
    obtain ⟨value, oid⟩ := found
    constructor
    · exact fun only => ⟨value, oid, rfl, only⟩
    · rintro ⟨value', oid', same, only⟩
      cases same
      exact only

/-- Values of the struct's own type are refused for a null in one of its fields only, if and only
if the fields fit the attributes. -/
theorem Composite.fits_iff (catalog : Catalog) (composite : Composite V) :
    (∀ datum refusal, composite.fromDatum catalog datum composite.own = .error refusal →
      refusal.OfNull) ↔ composite.Fits := by
  have failure (datum : Datum) (refusal : Refusal) :
      composite.fromDatum catalog datum composite.own = .error refusal ↔
        composite.fields.zipIdx.mapM (fromAttribute (composite.rowOf datum)) = .error refusal := by
    rw [fromDatum_own]
    cases composite.fields.zipIdx.mapM (fromAttribute (composite.rowOf datum)) with
    | error failure =>
      constructor
      · rintro ⟨⟩
        rfl
      · rintro ⟨⟩
        rfl
    | ok values => exact ⟨nofun, nofun⟩
  unfold Fits
  simp only [failure, mapM_error_iff, ← fromAttribute_onlyNull_iff]
  constructor
  · intro only datum index field found earlier refusal failed
    refine only datum refusal ⟨index, (field, index), ?_, earlier, failed⟩
    rw [List.getElem?_zipIdx, found]
    simp
  · rintro fits datum refusal ⟨index, item, found, earlier, failed⟩
    rw [List.getElem?_zipIdx] at found
    obtain ⟨field, here, same⟩ := Option.map_eq_some_iff.mp found
    rw [Nat.zero_add] at same
    subst same
    exact fits datum index field here earlier refusal failed

namespace Element
variable (catalog : Catalog)

theorem readsValues_iff {element : Element V} {oid : Oid} :
    (∀ datum refusal, (element.type catalog).fromDatum datum oid = .error refusal →
      refusal.OfNull) ↔ element.ReadsValues oid := by
  induction element with
  | scalar cast => exact iff_of_true (fun _ _ failed => nomatch failed) trivial
  | converted conversion => exact Iff.rfl
  | optional nullopt element ih => exact ih
  | composite record =>
    constructor
    · intro only
      have own : oid = record.own := by
        by_contra foreign
        obtain ⟨typeName, same⟩ := only 0 _ (record.foreign_refused catalog foreign 0)
        cases same
      subst own
      exact ⟨rfl, (record.fits_iff catalog).mp only⟩
    · rintro ⟨rfl, fits⟩
      exact (record.fits_iff catalog).mpr fits

/-- A column is read with no failure but that of a null, if and only if the element reads the
type. -/
theorem reads_iff {element : Element V} {oid : Oid} :
    (element.type catalog).OnlyNull oid ↔ element.Reads oid := by
  have values := @readsValues_iff V catalog element oid
  cases element with
  | scalar cast => exact CppType.default_onlyNull_iff.trans values
  | composite record => exact CppType.default_onlyNull_iff.trans values
  | converted conversion => exact Iff.rfl
  | optional nullopt element =>
    refine Iff.trans ?_ values
    constructor
    · exact fun only datum refusal failed => only ⟨datum, false⟩ refusal failed
    · intro only datum refusal failed
      change (if datum.isnull then .ok nullopt
        else (element.type catalog).fromDatum datum.value oid) = .error refusal at failed
      split at failed
      · cases failed
      · exact only _ _ failed

end Element

end Cppgres
