import Cppgres.Record.Record
import Mathlib.Data.List.Forall2

/-!
# Fields of a struct

The C++ types that a field of a composite struct can have, with their `type_traits` and
`datum_conversion`, and what becomes of their values in an attribute of a SQL type.
-/
namespace Cppgres

/-- `datum_conversion<T>` with `type_traits<T>::is`, for a type that has no null of its own.
Some value of it is converted without an exception. -/
structure Conversion where
  typeName : String
  Carrier : Type
  is : Oid → Bool
  intoDatum : Carrier → Except RecordFailure TypedDatum
  fromDatum : TypedDatum → Oid → Except RecordFailure Carrier
  sample : Carrier
  converts : ∀ what, intoDatum sample ≠ .error (.thrown what)

/-- The type of a field, by what `into_nullable_datum` and `from_nullable_datum` do. -/
structure Field where
  Carrier : Type
  is : Oid → Bool
  intoNullableDatum : Carrier → Except RecordFailure (Option TypedDatum)
  fromNullableDatum : Option TypedDatum → Oid → Except RecordFailure Carrier
  sample : Carrier
  converts : ∀ what, intoNullableDatum sample ≠ .error (.thrown what)

/-- Each value comes back from an attribute of that type. -/
def Field.Keeps (server : Server) (F : Field) (att : Attribute) : Prop :=
  ∀ v, ∃ stored kept, F.intoNullableDatum v = .ok stored ∧
    (server.formOf att.atttypid).keepNullable stored = some kept ∧
    F.fromNullableDatum kept att.atttypid = .ok v

namespace Conversion

theorem map_not_thrown {α β : Type} {made : Except RecordFailure α} (f : α → β) {what : String}
    (other : made ≠ .error (.thrown what)) : made.map f ≠ .error (.thrown what) := by
  cases made with
  | ok value => simp [Except.map]
  | error failure => simpa [Except.map] using other

/-- `default_datum_conversion`. -/
def field (T : Conversion) : Field where
  Carrier := T.Carrier
  is := T.is
  intoNullableDatum v := (T.intoDatum v).map some
  fromNullableDatum d oid :=
    match d with
    | none => .error (.thrown ("datum is null and can't be coerced into " ++ T.typeName))
    | some d => T.fromDatum d oid
  sample := T.sample
  converts what := map_not_thrown some (T.converts what)

/-- `std::optional<T>`. -/
def optional (T : Conversion) : Field where
  Carrier := Option T.Carrier
  is := T.is
  intoNullableDatum
    | none => .ok none
    | some v => (T.intoDatum v).map some
  fromNullableDatum d oid :=
    match d with
    | none => .ok none
    | some d => (T.fromDatum d oid).map some
  sample := some T.sample
  converts what := map_not_thrown some (T.converts what)

variable {server : Server} {T : Conversion} {att : Attribute}

theorem keeps_field : T.field.Keeps server att ↔ ∀ v, ∃ stored kept, T.intoDatum v = .ok stored ∧
    (server.formOf att.atttypid).keep stored = some kept ∧ T.fromDatum kept att.atttypid = .ok v := by
  constructor
  · intro keeps v
    obtain ⟨stored, kept, into, stays, back⟩ := keeps v
    cases converted : T.intoDatum v with
    | error failure => simp [field, converted, Except.map] at into
    | ok d =>
      have same : some d = stored := by simpa [field, converted, Except.map] using into
      subst same
      cases here : (server.formOf att.atttypid).keep d with
      | none => simp [AttForm.keepNullable, here] at stays
      | some d' =>
        have same : some d' = kept := by simpa [AttForm.keepNullable, here] using stays
        subst same
        exact ⟨d, d', rfl, here, back⟩
  · intro keeps v
    obtain ⟨stored, kept, into, stays, back⟩ := keeps v
    exact ⟨some stored, some kept, by simp [field, into, Except.map],
      by simp [AttForm.keepNullable, stays], back⟩

/-- A null takes nothing from the values. -/
theorem keeps_optional : T.optional.Keeps server att ↔ T.field.Keeps server att := by
  constructor
  · intro keeps v
    obtain ⟨stored, kept, into, stays, back⟩ := keeps (some v)
    refine ⟨stored, kept, into, stays, ?_⟩
    cases kept with
    | none => simp [optional] at back
    | some d =>
      have back : (T.fromDatum d att.atttypid).map some = .ok (some v) := back
      cases read : T.fromDatum d att.atttypid with
      | error failure => simp [read, Except.map] at back
      | ok w =>
        rw [read] at back
        cases back
        simp [field, read]
  · intro keeps v
    cases v with
    | none => exact ⟨none, none, rfl, rfl, rfl⟩
    | some v =>
      obtain ⟨stored, kept, into, stays, back⟩ := keeps v
      refine ⟨stored, kept, into, stays, ?_⟩
      cases kept with
      | none => simp [field] at back
      | some d =>
        have read : T.fromDatum d att.atttypid = .ok v := back
        simp [optional, read, Except.map]

end Conversion

namespace Builtin

/-- `bool`, `byte_array`, `int64_t`, `int16_t`, `int32_t`, `std::string`, `oid`, `float` and
`double`, floating point by its bits. -/
def Carrier : Builtin → Type
  | .bool => Bool
  | .bytea => List UInt8
  | .int8 => BitVec 64
  | .int2 => BitVec 16
  | .int4 => BitVec 32
  | .text => List UInt8
  | .oid => BitVec 32
  | .float4 => BitVec 32
  | .float8 => BitVec 64

instance : (T : Builtin) → DecidableEq T.Carrier
  | .bool => inferInstanceAs (DecidableEq Bool)
  | .bytea | .text => inferInstanceAs (DecidableEq (List UInt8))
  | .int2 => inferInstanceAs (DecidableEq (BitVec 16))
  | .int4 | .oid | .float4 => inferInstanceAs (DecidableEq (BitVec 32))
  | .int8 | .float8 => inferInstanceAs (DecidableEq (BitVec 64))

/-- The types under the names of the source; `utils::type_name` spells some of them in the
way of the compiler. -/
def typeName : Builtin → String
  | .bool => "bool"
  | .bytea => "byte_array"
  | .int8 => "int64_t"
  | .int2 => "int16_t"
  | .int4 => "int32_t"
  | .text => "std::string"
  | .oid => "oid"
  | .float4 => "float"
  | .float8 => "double"

/-- `type_traits<T>::is`. -/
def is : Builtin → Oid → Bool
  | .int8, t => t = int8Oid || t = int4Oid || t = int2Oid
  | .int4, t => t = int4Oid || t = int2Oid
  | .float8, t => t = float8Oid || t = float4Oid
  | .bool, t => t = boolOid
  | .bytea, t => t = byteaOid
  | .int2, t => t = int2Oid
  | .text, t => t = textOid
  | .oid, t => t = oidOid
  | .float4, t => t = float4Oid

/-- `datum_conversion<T>::into_datum`. -/
def intoDatum : (T : Builtin) → T.Carrier → TypedDatum
  | .bool, (v : Bool) => .word (if v then 1 else 0)
  | .bytea, (v : List UInt8) => .varlena v
  | .int8, (v : BitVec 64) => .word v
  | .int2, (v : BitVec 16) => .word (v.signExtend 64)
  | .int4, (v : BitVec 32) => .word (v.signExtend 64)
  | .text, (v : List UInt8) => .varlena v
  | .oid, (v : BitVec 32) => .word (v.setWidth 64)
  | .float4, (v : BitVec 32) => .word (v.signExtend 64)
  | .float8, (v : BitVec 64) => .word v

/-- `datum_conversion<T>::from_datum`: no type is looked at. -/
def fromDatum : (T : Builtin) → TypedDatum → Except RecordFailure T.Carrier
  | .bool, .word bits => .ok (bits != 0 : Bool)
  | .bytea, .varlena bytes => .ok (bytes : List UInt8)
  | .int8, .word bits => .ok (bits : BitVec 64)
  | .int2, .word bits => .ok (bits.setWidth 16 : BitVec 16)
  | .int4, .word bits => .ok (bits.setWidth 32 : BitVec 32)
  | .text, .varlena bytes => .ok (bytes : List UInt8)
  | .oid, .word bits => .ok (bits.setWidth 32 : BitVec 32)
  | .float4, .word bits => .ok (bits.setWidth 32 : BitVec 32)
  | .float8, .word bits => .ok (bits : BitVec 64)
  | _, _ => .error .undefined

def zero : (T : Builtin) → T.Carrier
  | .bool => (false : Bool)
  | .bytea => ([] : List UInt8)
  | .int8 => (0 : BitVec 64)
  | .int2 => (0 : BitVec 16)
  | .int4 => (0 : BitVec 32)
  | .text => ([] : List UInt8)
  | .oid => (0 : BitVec 32)
  | .float4 => (0 : BitVec 32)
  | .float8 => (0 : BitVec 64)

def conversion (T : Builtin) : Conversion where
  typeName := T.typeName
  Carrier := T.Carrier
  is := T.is
  intoDatum v := .ok (T.intoDatum v)
  fromDatum d _ := T.fromDatum d
  sample := T.zero
  converts _ := by simp

/-- The low bits of a word are those that the sign was extended from. -/
theorem setWidth_signExtend {width : Nat} (bits : BitVec width) (small : width ≤ 64) :
    (bits.signExtend 64).setWidth width = bits := by
  apply BitVec.eq_of_getLsbD_eq
  intro index bound
  have inside : index < 64 := by omega
  rw [BitVec.getLsbD_setWidth, BitVec.getLsbD_signExtend]
  simp [bound, inside]

/-- A value comes back from an attribute of its own type. -/
theorem fromDatum_keep_own (T : Builtin) (v : T.Carrier) :
    ∃ kept, T.form.keep (T.intoDatum v) = some kept ∧ T.fromDatum kept = .ok v := by
  cases T with
  | bool =>
    change Bool at v
    cases v <;> exact ⟨_, rfl, rfl⟩
  | bytea => exact ⟨_, rfl, rfl⟩
  | text => exact ⟨_, rfl, rfl⟩
  | int8 =>
    change BitVec 64 at v
    refine ⟨_, rfl, ?_⟩
    simp [fromDatum]
  | float8 =>
    change BitVec 64 at v
    refine ⟨_, rfl, ?_⟩
    simp [fromDatum]
  | int2 =>
    change BitVec 16 at v
    refine ⟨_, rfl, ?_⟩
    simp [fromDatum, setWidth_signExtend]
  | int4 =>
    change BitVec 32 at v
    refine ⟨_, rfl, ?_⟩
    simp [fromDatum, setWidth_signExtend]
  | oid =>
    change BitVec 32 at v
    refine ⟨_, rfl, ?_⟩
    simp [fromDatum, setWidth_signExtend]
  | float4 =>
    change BitVec 32 at v
    refine ⟨_, rfl, ?_⟩
    simp [fromDatum, setWidth_signExtend]

/-- The value whose sign no shorter type has room for. -/
def wide : (T : Builtin) → T.Carrier
  | .int8 => BitVec.intMin 64
  | .int4 => BitVec.intMin 32
  | .float8 => BitVec.intMin 64
  | T => T.zero

/-- A shorter type that is taken loses the high bits. -/
theorem wide_lost {T shorter : Builtin} (taken : T.is shorter.own = true) (other : shorter ≠ T) :
    ∀ kept, shorter.form.keep (T.intoDatum T.wide) = some kept → T.fromDatum kept ≠ .ok T.wide := by
  cases T <;> cases shorter <;> first
    | exact absurd rfl other
    | exact absurd taken (by decide)
    | (intro kept stays
       cases stays
       decide)

variable {server : Server} {att : Attribute}

theorem is_own (T : Builtin) : T.is T.own = true := by
  cases T <;> rfl

/-- What is taken is a built-in type. -/
theorem builtin_of_is {T : Builtin} {oid : Oid} (taken : T.is oid = true) :
    ∃ shorter : Builtin, oid = shorter.own := by
  cases T with
  | int8 =>
    have cases : (oid = int8Oid ∨ oid = int4Oid) ∨ oid = int2Oid := by simpa [is] using taken
    obtain (same | same) | same := cases
    · exact ⟨.int8, same⟩
    · exact ⟨.int4, same⟩
    · exact ⟨.int2, same⟩
  | int4 =>
    have cases : oid = int4Oid ∨ oid = int2Oid := by simpa [is] using taken
    obtain same | same := cases
    · exact ⟨.int4, same⟩
    · exact ⟨.int2, same⟩
  | float8 =>
    have cases : oid = float8Oid ∨ oid = float4Oid := by simpa [is] using taken
    obtain same | same := cases
    · exact ⟨.float8, same⟩
    · exact ⟨.float4, same⟩
  | bool => exact ⟨.bool, by simpa [is, own] using taken⟩
  | bytea => exact ⟨.bytea, by simpa [is, own] using taken⟩
  | int2 => exact ⟨.int2, by simpa [is, own] using taken⟩
  | text => exact ⟨.text, by simpa [is, own] using taken⟩
  | oid => exact ⟨.oid, by simpa [is, own] using taken⟩
  | float4 => exact ⟨.float4, by simpa [is, own] using taken⟩

/-- Of the types that are taken, the own one keeps the values. -/
theorem is_keeps_iff (T : Builtin) :
    T.is att.atttypid = true ∧ T.conversion.field.Keeps server att ↔ att.atttypid = T.own := by
  constructor
  · rintro ⟨taken, keeps⟩
    obtain ⟨shorter, type⟩ := builtin_of_is taken
    by_cases same : shorter = T
    · rw [type, same]
    · obtain ⟨stored, kept, into, stays, back⟩ := Conversion.keeps_field.mp keeps T.wide
      cases into
      rw [type, server.builtins shorter] at stays
      rw [type] at taken
      exact absurd back (wide_lost taken same kept stays)
  · intro type
    rw [type]
    refine ⟨T.is_own, Conversion.keeps_field.mpr fun v => ?_⟩
    obtain ⟨kept, stays, back⟩ := T.fromDatum_keep_own v
    exact ⟨_, kept, rfl, by rw [type, server.builtins T]; exact stays, back⟩

end Builtin

/-! ## The fields of a struct -/

/-- The type of a field: a built-in one, a `std::optional` of one, or a type with conversions
of its own, such as another composite struct, `nullable_datum` or `value`. -/
inductive FieldType where
  | builtin (T : Builtin)
  | optional (T : Builtin)
  | other (F : Field)

namespace FieldType

def field : FieldType → Field
  | .builtin T => T.conversion.field
  | .optional T => T.conversion.optional
  | .other F => F

/-- A built-in type in an attribute of its own SQL type; any other one in an attribute that it
takes and that keeps its values. -/
def Fits (server : Server) : FieldType → Attribute → Prop
  | .builtin T, att => att.atttypid = T.own
  | .optional T, att => att.atttypid = T.own
  | .other F, att => F.is att.atttypid = true ∧ F.Keeps server att

theorem fits_iff {server : Server} {F : FieldType} {att : Attribute} :
    F.Fits server att ↔ F.field.is att.atttypid = true ∧ F.field.Keeps server att := by
  cases F with
  | builtin T => exact T.is_keeps_iff.symm
  | optional T =>
    have keeps : T.conversion.optional.Keeps server att ↔ T.conversion.field.Keeps server att :=
      Conversion.keeps_optional
    exact T.is_keeps_iff.symm.trans (and_congr_right fun _ => keeps.symm)
  | other F => exact Iff.rfl

end FieldType

end Cppgres
