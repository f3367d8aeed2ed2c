import Cppgres.Datum.Arguments
import Cppgres.Datum.Numbers

/-!
# Nulls under std::optional

The overloads of `into_nullable_datum` go by the static type of a value, and only some of the
conversions they call have a place for a null. A null that is in a `std::optional` with a
value is lost on the way, or the conversion throws.
-/
namespace Cppgres

/-- A type without nulls: what is read from the datum of a value is that value. -/
structure PlainType where
  Carrier : Type
  typeName : String
  intoDatum : Carrier → Datum
  fromDatum : Datum → Except CppException Carrier
  comesBack : ∀ x, fromDatum (intoDatum x) = .ok x

/-- A type of the user's own that can be null, with a `datum_conversion` that is right about
each of its values; what its `into_datum` does with a null is not said. -/
structure UserType where
  Carrier : Type
  sqlValue : Carrier → Option Datum
  intoDatum : Carrier → Except CppException Datum
  intoNullableDatum : Carrier → NullableDatum
  fromDatum : Datum → Oid → Except CppException Carrier
  fromNullableDatum : NullableDatum → Oid → Except CppException Carrier
  into_null : ∀ x, sqlValue x = none → (intoNullableDatum x).isnull = true
  into_value : ∀ x d, sqlValue x = some d → intoNullableDatum x = ⟨d, false⟩
  datum_value : ∀ x d, sqlValue x = some d → intoDatum x = .ok d
  from_value : ∀ x d oid, sqlValue x = some d →
    ∃ y, fromDatum d oid = .ok y ∧ sqlValue y = some d
  from_nullable : ∀ x oid, ∃ y, fromNullableDatum (intoNullableDatum x) oid = .ok y ∧
    sqlValue y = sqlValue x

/-- A number that knows a null of its own, which it has no datum for. -/
def UserType.nullableNumber : UserType where
  Carrier := Option Datum
  sqlValue x := x
  intoDatum x := x.elim (.error .other) .ok
  intoNullableDatum x := x.elim ⟨0, true⟩ fun d => ⟨d, false⟩
  fromDatum d _ := .ok (some d)
  fromNullableDatum d _ := .ok (if d.isnull then none else some d.value)
  into_null x null := by
    subst null
    rfl
  into_value x d value := by
    subst value
    rfl
  datum_value x d value := by
    subst value
    rfl
  from_value x d _ _ := ⟨some d, rfl, rfl⟩
  from_nullable x _ := by
    cases x with
    | none => exact ⟨none, rfl, rfl⟩
    | some d => exact ⟨some d, rfl, rfl⟩

/-- A type that is no `std::optional`. -/
inductive LeafType where
  | plain (T : PlainType)
  | value
  | nullableDatum
  | user (T : UserType)

/-- `std::optional`s around a leaf. -/
inductive NestedType where
  | leaf (T : LeafType)
  | optional (T : NestedType)

def LeafType.Carrier : LeafType → Type
  | .plain T => T.Carrier
  | .value => RuntimeValue
  | .nullableDatum => NullableDatum
  | .user T => T.Carrier

def NestedType.Carrier : NestedType → Type
  | .leaf T => T.Carrier
  | .optional T => Option T.Carrier

/-- The SQL value of a datum: its value, or NULL. -/
def NullableDatum.sqlValue (d : NullableDatum) : Option Datum :=
  if d.isnull then none else some d.value

/-- What a default conversion from null throws. -/
def nullCoerced (typeName : String) : CppException := (Refusal.nullDatum typeName).exception

/-- What `value()` of a `std::optional` without a value throws. -/
def badOptionalAccess : CppException := .std "bad optional access"

namespace LeafType

/-- The SQL value that a value denotes. -/
def sqlValue : (T : LeafType) → T.Carrier → Option Datum
  | .plain T, (x : T.Carrier) => some (T.intoDatum x)
  | .value, (x : RuntimeValue) => x.datum.sqlValue
  | .nullableDatum, (x : NullableDatum) => x.sqlValue
  | .user T, (x : T.Carrier) => T.sqlValue x

/-- `datum_conversion<T>::into_datum` -/
def intoDatum : (T : LeafType) → T.Carrier → Except CppException Datum
  | .plain T, (x : T.Carrier) => .ok (T.intoDatum x)
  | .value, (x : RuntimeValue) => x.datum.datum
  | .nullableDatum, (x : NullableDatum) => if x.isnull then .ok 0 else x.datum
  | .user T, (x : T.Carrier) => T.intoDatum x

/-- `datum_conversion<T>::into_nullable_datum`, which `nullable_datum` has the default of. -/
def traitIntoNullableDatum : (T : LeafType) → T.Carrier → Except CppException NullableDatum
  | .plain T, (x : T.Carrier) => .ok ⟨T.intoDatum x, false⟩
  | .value, (x : RuntimeValue) => .ok x.datum
  | .nullableDatum, (x : NullableDatum) => do
    let d ← nullableDatum.intoDatum x
    .ok ⟨d, false⟩
  | .user T, (x : T.Carrier) => .ok (T.intoNullableDatum x)

/-- `datum_conversion<T>::from_datum` -/
def fromDatum : (T : LeafType) → Datum → Oid → Except CppException T.Carrier
  | .plain T, d, _ => T.fromDatum d
  | .value, d, oid => .ok (RuntimeValue.mk ⟨d, false⟩ oid)
  | .nullableDatum, d, _ => .ok (NullableDatum.mk d false)
  | .user T, d, oid => T.fromDatum d oid

/-- `datum_conversion<T>::from_nullable_datum` -/
def fromNullableDatum : (T : LeafType) → NullableDatum → Oid → Except CppException T.Carrier
  | .plain T, d, _ => if d.isnull then .error (nullCoerced T.typeName) else T.fromDatum d.value
  | .value, d, oid => .ok (RuntimeValue.mk d oid)
  | .nullableDatum, d, oid =>
    if d.isnull then .error (nullCoerced "cppgres::nullable_datum") else nullableDatum.fromDatum d.value oid
  | .user T, d, oid => T.fromNullableDatum d oid

end LeafType

namespace NestedType

def sqlValue : (T : NestedType) → T.Carrier → Option Datum
  | .leaf T, (x : T.Carrier) => T.sqlValue x
  | .optional _, none => none
  | .optional T, some (x : T.Carrier) => T.sqlValue x

def intoDatum : (T : NestedType) → T.Carrier → Except CppException Datum
  | .leaf T, (x : T.Carrier) => T.intoDatum x
  | .optional _, none => .error badOptionalAccess
  | .optional T, some (x : T.Carrier) => T.intoDatum x

def traitIntoNullableDatum : (T : NestedType) → T.Carrier → Except CppException NullableDatum
  | .leaf T, (x : T.Carrier) => T.traitIntoNullableDatum x
  | .optional _, none => .ok ⟨0, true⟩
  | .optional T, some (x : T.Carrier) => do
    let d ← T.intoDatum x
    .ok ⟨d, false⟩

/-- The overloads of the free `into_nullable_datum`. A `nullable_datum` is returned as it is. -/
def intoNullableDatum : (T : NestedType) → T.Carrier → Except CppException NullableDatum
  | .optional T, some (x : T.Carrier) => do
    let d ← T.intoDatum x
    .ok ⟨d, false⟩
  | .optional _, none => .ok ⟨0, true⟩
  | .leaf .nullableDatum, (x : NullableDatum) => .ok x
  | .leaf T, (x : T.Carrier) => T.traitIntoNullableDatum x

def fromDatum : (T : NestedType) → Datum → Oid → Except CppException T.Carrier
  | .leaf T, d, oid => T.fromDatum d oid
  | .optional T, d, oid => (T.fromDatum d oid).map some

def fromNullableDatum : (T : NestedType) → NullableDatum → Oid → Except CppException T.Carrier
  | .leaf T, d, oid => T.fromNullableDatum d oid
  | .optional T, d, oid => if d.isnull then .ok none else (T.fromDatum d.value oid).map some

/-- `into_nullable_datum(x)` does not throw and stands for what `x` denotes, the two functions
give the same result, and what is read back denotes the same as `x`. -/
def Survives (T : NestedType) (oid : Oid) (x : T.Carrier) : Prop :=
  ∃ d, T.intoNullableDatum x = .ok d ∧ d.sqlValue = T.sqlValue x ∧
    T.traitIntoNullableDatum x = .ok d ∧
    ∃ y, T.fromNullableDatum d oid = .ok y ∧ T.sqlValue y = T.sqlValue x

/-- `x` is no `nullable_datum` that is null, and no `std::optional` whose value denotes NULL. -/
def Outermost : (T : NestedType) → T.Carrier → Prop
  | .leaf .nullableDatum, (x : NullableDatum) => x.isnull = false
  | .leaf (.plain _), _ => True
  | .leaf .value, _ => True
  | .leaf (.user _), _ => True
  | .optional _, none => True
  | .optional T, some (x : T.Carrier) => T.sqlValue x ≠ none

end NestedType

/-! ## A value that is not null, on its way through `into_datum` and `from_datum` -/

namespace NullableDatum
variable {x : NullableDatum} {d : Datum}

theorem sqlValue_eq_some : x.sqlValue = some d ↔ x.isnull = false ∧ x.value = d := by
  unfold sqlValue
  cases x.isnull <;> simp

theorem sqlValue_eq_none : x.sqlValue = none ↔ x.isnull = true := by
  unfold sqlValue
  cases x.isnull <;> simp

end NullableDatum

namespace LeafType

theorem intoDatum_of_some {T : LeafType} {x : T.Carrier} {d : Datum}
    (denoted : T.sqlValue x = some d) : T.intoDatum x = .ok d := by
  cases T with
  | plain T => exact congrArg _ (Option.some.inj denoted)
  | value =>
    obtain ⟨full, rfl⟩ := NullableDatum.sqlValue_eq_some.mp denoted
    exact if_neg (by simp [full])
  | nullableDatum =>
    obtain ⟨full, rfl⟩ := NullableDatum.sqlValue_eq_some.mp denoted
    exact (if_neg (by simp [full])).trans (if_neg (by simp [full]))
  | user T => exact T.datum_value x d denoted

theorem fromDatum_of_some {T : LeafType} {x : T.Carrier} {d : Datum} (oid : Oid)
    (denoted : T.sqlValue x = some d) :
    ∃ y, T.fromDatum d oid = .ok y ∧ T.sqlValue y = some d := by
  cases T with
  | plain T =>
    cases denoted
    exact ⟨x, T.comesBack x, rfl⟩
  | value => exact ⟨RuntimeValue.mk ⟨d, false⟩ oid, rfl, rfl⟩
  | nullableDatum => exact ⟨NullableDatum.mk d false, rfl, rfl⟩
  | user T => exact T.from_value x d oid denoted

end LeafType

namespace NestedType

theorem intoDatum_of_some {T : NestedType} {x : T.Carrier} {d : Datum}
    (denoted : T.sqlValue x = some d) : T.intoDatum x = .ok d := by
  induction T with
  | leaf T => exact LeafType.intoDatum_of_some denoted
  | optional T ih =>
    cases x with
    | none => cases denoted
    | some x => exact ih denoted

theorem fromDatum_of_some {T : NestedType} {x : T.Carrier} {d : Datum} (oid : Oid)
    (denoted : T.sqlValue x = some d) :
    ∃ y, T.fromDatum d oid = .ok y ∧ T.sqlValue y = some d := by
  induction T with
  | leaf T => exact LeafType.fromDatum_of_some oid denoted
  | optional T ih =>
    cases x with
    | none => cases denoted
    | some x =>
      obtain ⟨y, read, same⟩ := ih denoted
      refine ⟨some y, ?_, same⟩
      simp only [fromDatum, read]
      rfl

/-! ## Nulls -/

theorem leaf_survives_iff {T : LeafType} {x : T.Carrier} (oid : Oid) :
    (leaf T).Survives oid x ↔ (leaf T).Outermost x := by
  cases T with
  | plain T =>
    refine ⟨fun _ => trivial, fun _ => ⟨_, rfl, rfl, rfl, x, ?_, rfl⟩⟩
    exact T.comesBack x
  | value => exact ⟨fun _ => trivial, fun _ => ⟨_, rfl, rfl, rfl, _, rfl, rfl⟩⟩
  | user T =>
    refine ⟨fun _ => trivial, fun _ => ⟨_, rfl, ?_, rfl, T.from_nullable x oid⟩⟩
    cases denoted : T.sqlValue x with
    | none =>
      have null := T.into_null x denoted
      exact (NullableDatum.sqlValue_eq_none.mpr null).trans denoted.symm
    | some d =>
      have value := T.into_value x d denoted
      rw [value]
      exact denoted.symm
  | nullableDatum =>
    change NullableDatum at x
    obtain ⟨value, isnull⟩ := x
    cases isnull with
    | false => exact ⟨fun _ => rfl, fun _ => ⟨_, rfl, rfl, rfl, _, rfl, rfl⟩⟩
    | true =>
      constructor
      · rintro ⟨d, into, _, trait, _⟩
        cases into
        cases trait
      · intro outermost
        cases outermost

/-- A null is kept at the outermost level, and nowhere below. -/
theorem survives_iff (T : NestedType) (oid : Oid) (x : T.Carrier) :
    T.Survives oid x ↔ T.Outermost x := by
  cases T with
  | leaf T => exact leaf_survives_iff oid
  | optional T =>
    cases x with
    | none => exact ⟨fun _ => trivial, fun _ => ⟨_, rfl, rfl, rfl, none, rfl, rfl⟩⟩
    | some x =>
      constructor
      · rintro ⟨d, into, denotes, _⟩ null
        -- whatever `into_datum` gives for a null comes out as a value
        cases inner : T.intoDatum x with
        | error exception =>
          simp only [intoNullableDatum, inner] at into
          cases into
        | ok datum =>
          simp only [intoNullableDatum, inner] at into
          cases into
          have lost : some datum = T.sqlValue x := denotes
          rw [null] at lost
          cases lost
      · intro full
        obtain ⟨d, denoted⟩ := Option.ne_none_iff_exists'.mp full
        have into := intoDatum_of_some denoted
        obtain ⟨y, read, same⟩ := fromDatum_of_some oid denoted
        refine ⟨⟨d, false⟩, ?_, denoted.symm, ?_, some y, ?_, same.trans denoted.symm⟩
        · simp only [intoNullableDatum, into]
          rfl
        · simp only [traitIntoNullableDatum, into]
          rfl
        · simp only [fromNullableDatum, read]
          rfl

/-- A null of a type of the user's own survives, where it is the outermost. -/
example (oid : Oid) : (leaf (.user .nullableNumber)).Survives oid none :=
  (leaf_survives_iff oid).mpr trivial

/-- `std::optional<nullable_datum>` with a null: it becomes a zero that is not null. -/
theorem nullInOptional_lost :
    let T : NestedType := .optional (.leaf .nullableDatum)
    let x : T.Carrier := some (NullableDatum.mk 0 true)
    T.sqlValue x = none ∧ T.intoNullableDatum x = .ok ⟨0, false⟩ ∧ ∀ oid, ¬ T.Survives oid x := by
  refine ⟨rfl, rfl, ?_⟩
  rintro oid ⟨d, into, denotes, _⟩
  cases into
  cases denotes

end NestedType

/-! ## The scalars -/

/-- A scalar of the library. A datum is a word. -/
def ScalarType.plain (T : ScalarType) : PlainType where
  Carrier := T.Value
  typeName := T.builtin.typeName
  intoDatum x := (T.datum x).toNat
  fromDatum d := (T.builtin.fromDatum (.word (BitVec.ofNat 64 d))).mapError fun _ => .other
  comesBack x := by
    rw [BitVec.ofNat_toNat, BitVec.setWidth_eq, ← intoDatum_eq, T.comesBack x]
    rfl

end Cppgres
