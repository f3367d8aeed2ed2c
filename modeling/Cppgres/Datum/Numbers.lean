import Cppgres.Ieee.Binary
import Cppgres.Record.Fields

/-!
# Numbers in datums

Which SQL types a C++ scalar takes is said in one table, `type_traits`, and how it is read
in another, `datum_conversion`, which does not look at the type. A number that is read
should be the one that was stored.
-/
namespace Cppgres

/-- The scalars with both a `type_traits` and a `datum_conversion`; each is also the SQL type
of its `type_for`. -/
inductive ScalarType where
  | bool | int8 | int2 | int4 | oid | float4 | float8
  deriving DecidableEq, Repr

namespace ScalarType

def builtin : ScalarType → Builtin
  | .bool => .bool
  | .int8 => .int8
  | .int2 => .int2
  | .int4 => .int4
  | .oid => .oid
  | .float4 => .float4
  | .float8 => .float8

/-- The values of the SQL type, and those of the C++ type. -/
abbrev Value (t : ScalarType) : Type := t.builtin.Carrier

/-- The datum that Postgres has for a value: an integer with its sign extended, as is the
pattern of a `float4`. -/
def datum : (t : ScalarType) → t.Value → BitVec 64
  | .bool, (v : Bool) => if v then 1 else 0
  | .int8, (v : BitVec 64) => v
  | .int2, (v : BitVec 16) => v.signExtend 64
  | .int4, (v : BitVec 32) => v.signExtend 64
  | .oid, (v : BitVec 32) => v.setWidth 64
  | .float4, (v : BitVec 32) => v.signExtend 64
  | .float8, (v : BitVec 64) => v

open Ieee in
/-- The number that a value is. -/
def number : (t : ScalarType) → t.Value → Number
  | .bool, (v : Bool) => .finite (if v then 1 else 0)
  | .int8, (v : BitVec 64) => .finite v.toInt
  | .int2, (v : BitVec 16) => .finite v.toInt
  | .int4, (v : BitVec 32) => .finite v.toInt
  | .oid, (v : BitVec 32) => .finite v.toNat
  | .float4, (v : BitVec 32) => binary32.number v.toNat
  | .float8, (v : BitVec 64) => binary64.number v.toNat

/-- `datum_conversion<T>::from_datum`, applied to Postgres's datum of a value of type `t`, yields
the number that the value is. -/
def Reads (T t : ScalarType) (v : t.Value) : Prop :=
  ∃ x, T.builtin.fromDatum (.word (t.datum v)) = .ok x ∧ T.number x = t.number v

/-- `from_datum(into_datum(x))` is `x`. -/
def ComesBack (T : ScalarType) (x : T.Value) : Prop :=
  T.builtin.fromDatum (T.builtin.intoDatum x) = .ok x

/-- The value is not a `float4` on its way into a `double`, or it is zero, all bits clear, or it
is no number and has its sign set. -/
def SameWidth (T t : ScalarType) (v : t.Value) : Prop :=
  T = .float8 → t = .float4 → t.datum v = 0 ∨ t.number v = .nan ∧ (t.datum v).msb = true

/-- Each SQL type that a scalar takes is one of a scalar. -/
theorem scalar_of_is {T : ScalarType} {oid : Oid} (taken : T.builtin.is oid = true) :
    ∃ t : ScalarType, t.builtin.own = oid := by
  obtain ⟨shorter, rfl⟩ := Builtin.builtin_of_is taken
  cases shorter with
  | bool => exact ⟨.bool, rfl⟩
  | int8 => exact ⟨.int8, rfl⟩
  | int2 => exact ⟨.int2, rfl⟩
  | int4 => exact ⟨.int4, rfl⟩
  | oid => exact ⟨.oid, rfl⟩
  | float4 => exact ⟨.float4, rfl⟩
  | float8 => exact ⟨.float8, rfl⟩
  | bytea => cases T <;> exact absurd taken (by decide)
  | text => cases T <;> exact absurd taken (by decide)

/-! ## What is read -/

/-- A wider integer that is read is the one whose sign was extended. -/
theorem toInt_setWidth_signExtend {narrow wide : Nat} (bits : BitVec narrow)
    (wider : narrow ≤ wide) (word : wide ≤ 64) :
    ((bits.signExtend 64).setWidth wide).toInt = bits.toInt := by
  have same : (bits.signExtend 64).setWidth wide = bits.signExtend wide := by
    apply BitVec.eq_of_getLsbD_eq
    intro index bound
    have inside : index < 64 := by omega
    rw [BitVec.getLsbD_setWidth, BitVec.getLsbD_signExtend, BitVec.getLsbD_signExtend]
    simp [bound, inside]
  rw [same, BitVec.toInt_signExtend_of_le wider]

/-- The scale of a `double` is so much finer that no pattern of a `float4` has room for the
least number. -/
theorem binary64_finer : 2 ^ Ieee.binary32.payload * Ieee.binary64.tiny ≤ Ieee.binary32.tiny := by
  have single : 1 - Ieee.binary32.bias - Ieee.binary32.fractionBits = -149 := by decide
  have double : 1 - Ieee.binary64.bias - Ieee.binary64.fractionBits = -1074 := by decide
  unfold Ieee.Format.tiny
  rw [single, double]
  calc (2 : ℚ) ^ Ieee.binary32.payload * 2 ^ (-1074 : ℤ)
      = 2 ^ ((31 : ℤ) + -1074) := by rw [zpow_add₀ (by norm_num)]; rfl
    _ ≤ 2 ^ (-149 : ℤ) := zpow_le_zpow_right₀ (by norm_num) (by norm_num)

/-- A `float4` that is read as a `double`. -/
theorem double_of_float4_iff (v : BitVec 32) :
    Ieee.binary64.number (v.signExtend 64).toNat = Ieee.binary32.number v.toNat ↔
      v.signExtend 64 = 0 ∨
        Ieee.binary32.number v.toNat = .nan ∧ (v.signExtend 64).msb = true := by
  have sign : (v.signExtend 64).msb = v.msb := by simp [BitVec.msb_signExtend]
  have below := v.isLt
  cases signed : v.msb with
  | false =>
    have small : v.toNat < 2 ^ Ieee.binary32.payload := BitVec.toNat_lt_of_msb_false signed
    have extended : (v.signExtend 64).toNat = v.toNat := by
      rw [BitVec.signExtend_eq_setWidth_of_msb_false signed, BitVec.toNat_setWidth]
      omega
    have zero : v.signExtend 64 = 0 ↔ v.toNat = 0 := by
      rw [← BitVec.toNat_inj, extended]
      rfl
    rw [sign, signed, extended, zero,
      Ieee.Format.number_eq_wider_iff (by decide) binary64_finer small]
    simp
  | true =>
    have large : 2 ^ Ieee.binary32.payload ≤ v.toNat := BitVec.toNat_ge_of_msb_true signed
    have extended : (v.signExtend 64).toNat =
        2 ^ (Ieee.binary64.payload + 1) - 2 ^ (Ieee.binary32.payload + 1) + v.toNat := by
      rw [BitVec.toNat_signExtend, signed, BitVec.toNat_setWidth]
      change _ + (2 ^ 64 - 2 ^ 32) = 2 ^ 64 - 2 ^ 32 + _
      omega
    have nonzero : v.signExtend 64 ≠ 0 := by
      intro zero
      rw [zero] at extended
      have wide : 2 ^ (Ieee.binary32.payload + 1) < 2 ^ (Ieee.binary64.payload + 1) := by decide
      have none : (0 : BitVec 64).toNat = 0 := rfl
      omega
    rw [sign, signed, extended, Ieee.Format.number_signExtended (by decide) large below]
    simp only [nonzero, false_or, and_true]
    exact eq_comm

/-- A scalar goes into a datum as Postgres would have it. -/
theorem intoDatum_eq (T : ScalarType) (x : T.Value) :
    T.builtin.intoDatum x = .word (T.datum x) := by
  cases T <;> rfl

theorem comesBack (T : ScalarType) (x : T.Value) : T.ComesBack x := by
  unfold ComesBack
  rw [intoDatum_eq]
  cases T with
  | bool =>
    change Bool at x
    cases x <;> rfl
  | int8 => rfl
  | float8 => rfl
  | int2 => exact congrArg Except.ok (@Builtin.setWidth_signExtend 16 x (by decide))
  | int4 => exact congrArg Except.ok (@Builtin.setWidth_signExtend 32 x (by decide))
  | float4 => exact congrArg Except.ok (@Builtin.setWidth_signExtend 32 x (by decide))
  | oid => exact congrArg Except.ok (@BitVec.setWidth_setWidth_of_le 32 _ _ x (by decide))

/-- The types that are taken beside the own one. -/
inductive Widens : ScalarType → ScalarType → Prop where
  | int8_int4 : Widens .int8 .int4
  | int8_int2 : Widens .int8 .int2
  | int4_int2 : Widens .int4 .int2
  | float8_float4 : Widens .float8 .float4

theorem eq_or_widens {T t : ScalarType} (taken : T.builtin.is t.builtin.own = true) :
    t = T ∨ Widens T t := by
  cases T <;> cases t <;> first
    | exact .inl rfl
    | exact absurd taken (by decide)
    | exact .inr (by constructor)

/-- Whatever is taken is read as the number that it is, except where a `double` takes a
`float4`. -/
theorem reads_iff {T t : ScalarType} (taken : T.builtin.is t.builtin.own = true) (v : t.Value) :
    T.Reads t v ↔ T.SameWidth t v := by
  cases eq_or_widens taken with
  | inl same =>
    subst same
    constructor
    · intro _ double single
      rw [double] at single
      cases single
    · intro _
      refine ⟨v, ?_, rfl⟩
      rw [← intoDatum_eq]
      exact t.comesBack v
  | inr widens =>
    cases widens with
    | int8_int4 =>
      change BitVec 32 at v
      have same : (v.signExtend 64).toInt = v.toInt := BitVec.toInt_signExtend_of_le (by decide)
      refine ⟨fun _ => nofun, fun _ => ⟨v.signExtend 64, rfl, ?_⟩⟩
      exact congrArg (fun n : Int => Ieee.Number.finite n) same
    | int8_int2 =>
      change BitVec 16 at v
      have same : (v.signExtend 64).toInt = v.toInt := BitVec.toInt_signExtend_of_le (by decide)
      refine ⟨fun _ => nofun, fun _ => ⟨v.signExtend 64, rfl, ?_⟩⟩
      exact congrArg (fun n : Int => Ieee.Number.finite n) same
    | int4_int2 =>
      change BitVec 16 at v
      have same : ((v.signExtend 64).setWidth 32).toInt = v.toInt :=
        toInt_setWidth_signExtend v (by decide) (by decide)
      refine ⟨fun _ => nofun, fun _ => ⟨(v.signExtend 64).setWidth 32, rfl, ?_⟩⟩
      exact congrArg (fun n : Int => Ieee.Number.finite n) same
    | float8_float4 =>
      change BitVec 32 at v
      constructor
      · rintro ⟨x, read, same⟩ _ _
        cases read
        exact (double_of_float4_iff v).mp same
      · intro sameWidth
        exact ⟨v.signExtend 64, rfl, (double_of_float4_iff v).mpr (sameWidth rfl rfl)⟩

/-- Each SQL type that a scalar takes is one whose values it reads as what they are, but for the
values of `float4` that a `double` misreads; and each value of its own comes back. -/
theorem conversion_faithful_iff (T : ScalarType) :
    (∀ oid, T.builtin.is oid = true → ∃ t : ScalarType, t.builtin.own = oid ∧
      ∀ v : t.Value, T.Reads t v ↔ T.SameWidth t v) ∧
    ∀ x : T.Value, T.ComesBack x := by
  refine ⟨?_, T.comesBack⟩
  intro oid taken
  obtain ⟨t, rfl⟩ := scalar_of_is taken
  exact ⟨t, rfl, reads_iff taken⟩

/-- 1.5, as a `float4`. -/
def oneAndHalf : ScalarType.float4.Value := (0x3FC00000 : BitVec 32)

theorem oneAndHalf_misread :
    ScalarType.float8.builtin.is ScalarType.float4.builtin.own = true ∧
      ¬ ScalarType.float8.Reads .float4 oneAndHalf := by
  refine ⟨by decide, ?_⟩
  rw [reads_iff (by decide)]
  intro sameWidth
  have misread := sameWidth rfl rfl
  revert misread
  decide

end ScalarType
end Cppgres
