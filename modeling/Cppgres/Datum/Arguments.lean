import Cppgres.Datum.Conversion

/-!
# Arguments of C++

What `type_traits` and `datum_conversion` have for the types of arguments: types that the
compiler knows the SQL type of, and `cppgres::value`, which carries it.
-/
namespace Cppgres
open NonLocal

/-- `UNKNOWNOID` -/
def unknownOid : Oid := 705

/-- `cppgres::value`. -/
structure RuntimeValue where
  datum : NullableDatum
  type : Oid
  deriving DecidableEq, Repr

/-- A type with a SQL type of its own. `constructed` says whether `type_traits<T>` can be made
of a `T`, `constTraits` whether it is also specialized for `const T`. -/
structure StaticType where
  Carrier : Type
  oid : Oid
  known : oid ≠ unknownOid
  constructed : Bool
  constTraits : Bool
  intoDatum : Carrier → Except CppException Datum

/-- `int64_t`, for `INT8OID`. -/
def int64 : StaticType where
  Carrier := BitVec 64
  oid := 20
  known := by decide
  constructed := true
  constTraits := false
  intoDatum v := .ok v.toNat

/-- `int32_t`, for `INT4OID`. Its datum is that of the same number of 64 bits. -/
def staticInt32 : StaticType where
  Carrier := BitVec 32
  oid := 23
  known := by decide
  constructed := true
  constTraits := false
  intoDatum v := .ok (v.signExtend 64).toNat

/-- `null_datum_exception`. -/
def nullDatumException : CppException := .std "passed datum is null"

/-- A value, or the exception that is thrown in its place. -/
def orThrow {α : Type} : Except CppException α → Cpp α
  | .ok value => pure value
  | .error exception => Code.throwing exception

/-- `operator const datum &()`. -/
def NullableDatum.datum (d : NullableDatum) : Except CppException Datum :=
  if d.isnull then .error nullDatumException else .ok d.value

/-! ## Lists of arguments -/

/-- What is said of each pair, said of the items alone. -/
theorem forall₂_iff_forall_mem {α : Type*} {β : Type} {R P : α → β → Prop} {Q : α → Prop}
    {items : List α} {values : List β} (paired : List.Forall₂ R items values)
    (each : ∀ item ∈ items, ∀ value, R item value → (P item value ↔ Q item)) :
    List.Forall₂ P items values ↔ ∀ item ∈ items, Q item := by
  induction paired with
  | nil => simp
  | cons first rest ih =>
    have later := ih fun item member => each item (List.mem_cons_of_mem _ member)
    rw [List.forall₂_cons, List.forall_mem_cons, later, each _ List.mem_cons_self _ first]

theorem mapM_ok {α : Type*} {β ε : Type} {f : α → Except ε β} {items : List α} {values : List β} :
    items.mapM f = .ok values ↔ List.Forall₂ (fun item value => f item = .ok value) items values := by
  induction items generalizing values with
  | nil => cases values <;> simp [pure, Except.pure]
  | cons item items ih =>
    rw [List.mapM_cons]
    cases first : f item with
    | error failure => cases values <;> simp [first, bind, Except.bind]
    | ok value =>
      cases rest : items.mapM f with
      | error failure => cases values <;> simp [first, rest, ← ih, bind, Except.bind]
      | ok later =>
        cases values <;>
          simp [first, rest, ← ih, bind, Except.bind, pure, Except.pure]

/-- The whole succeeds exactly if each item does. -/
theorem exists_mapM_iff {α : Type*} {β ε : Type} {f : α → Except ε β} {items : List α} :
    (∃ values, items.mapM f = .ok values) ↔ ∀ item ∈ items, ∃ value, f item = .ok value := by
  simp only [mapM_ok]
  induction items with
  | nil => simp
  | cons item items ih =>
    rw [List.forall_mem_cons, ← ih]
    constructor
    · rintro ⟨values, each⟩
      cases each with
      | cons first rest => exact ⟨⟨_, first⟩, ⟨_, rest⟩⟩
    · rintro ⟨⟨value, first⟩, ⟨values, rest⟩⟩
      exact ⟨_, .cons first rest⟩

end Cppgres
