import Cppgres.Datum.Numbers
import Cppgres.Ieee.Narrowed

/-!
# Numbers that Postgres is given

The same `type_traits<T>::is` says which SQL types a C++ scalar can be read from, and which ones it
can be returned as. The first widens a number, the second cuts its datum: of an integer Postgres has
the lower bits, and of a `double`, for a `float4`, the lower half of the pattern, which is another
number almost always.
-/
namespace Cppgres

namespace ScalarType

/-- The value that Postgres takes a datum for: `DatumGetInt32` and the like. -/
def sqlValue : (t : ScalarType) → BitVec 64 → t.Value
  | .bool, d => (d != 0 : Bool)
  | .int8, d => d
  | .int2, d => d.setWidth 16
  | .int4, d => d.setWidth 32
  | .oid, d => d.setWidth 32
  | .float4, d => d.setWidth 32
  | .float8, d => d

open Ieee in
/-- What is left of the datum is the number: an integer is within the range of the narrower type, and a
`double` whose lower half is taken for a `float4` is zero, or a NaN of which that half is one, too. Most
numbers that a `float4` has, such as 0.5, do not fit into it so. -/
def Fits : (T t : ScalarType) → T.Value → Prop
  | .int8, .int4, (x : BitVec 64) => -2 ^ 31 ≤ x.toInt ∧ x.toInt < 2 ^ 31
  | .int8, .int2, (x : BitVec 64) => -2 ^ 15 ≤ x.toInt ∧ x.toInt < 2 ^ 15
  | .int4, .int2, (x : BitVec 32) => -2 ^ 15 ≤ x.toInt ∧ x.toInt < 2 ^ 15
  | .float8, .float4, (x : BitVec 64) =>
    binary64.number x.toNat = .finite 0 ∨
      binary64.number x.toNat = .nan ∧ binary32.number (binary32.cut x.toNat) = .nan
  | _, _, _ => True

/-- Postgres takes the datum of a C++ value for the number that the value is. -/
def Arrives (T t : ScalarType) (x : T.Value) : Prop :=
  t.number (t.sqlValue (T.datum x)) = T.number x

theorem fromDatum_word (t : ScalarType) (d : BitVec 64) :
    t.builtin.fromDatum (.word d) = .ok (t.sqlValue d) := by
  cases t <;> rfl

theorem sqlValue_datum (t : ScalarType) (v : t.Value) : t.sqlValue (t.datum v) = v := by
  have back : t.ComesBack v := t.comesBack v
  unfold ComesBack at back
  rw [intoDatum_eq, fromDatum_word] at back
  exact Except.ok.inj back

/-! ## What is cut -/

/-- An integer that is cut keeps its number if and only if the width has it. -/
theorem toInt_setWidth_iff {wide narrow : Nat} (bits : BitVec wide) (some_ : 0 < narrow)
    (narrower : narrow ≤ wide) :
    (bits.setWidth narrow).toInt = bits.toInt ↔
      -2 ^ (narrow - 1) ≤ bits.toInt ∧ bits.toInt < 2 ^ (narrow - 1) := by
  constructor
  · intro same
    rw [← same]
    exact ⟨BitVec.le_toInt _, BitVec.toInt_lt⟩
  · rintro ⟨low, high⟩
    have whole : ((2 ^ narrow : Nat) : Int) = 2 * 2 ^ (narrow - 1) := by
      obtain ⟨less, rfl⟩ : ∃ less, narrow = less + 1 := ⟨narrow - 1, by omega⟩
      rw [Nat.pow_succ, Nat.mul_comm]
      push_cast
      rfl
    have part : (bits.setWidth narrow).toInt = Int.bmod bits.toInt (2 ^ narrow) := by
      rw [BitVec.toInt_setWidth, BitVec.toInt_eq_toNat_bmod, Int.bmod_bmod_of_dvd]
      exact Nat.pow_dvd_pow 2 narrower
    rw [part]
    apply Int.bmod_eq_of_le_mul_two <;> omega

/-- The sign of a datum is not among the bits that are kept. -/
theorem setWidth_signExtend_narrower {given kept : Nat} (bits : BitVec given)
    (narrower : kept ≤ given) (word : given ≤ 64) :
    (bits.signExtend 64).setWidth kept = bits.setWidth kept := by
  apply BitVec.eq_of_getLsbD_eq
  intro index bound
  have inside : index < 64 := by omega
  have given_ : index < given := by omega
  rw [BitVec.getLsbD_setWidth, BitVec.getLsbD_setWidth, BitVec.getLsbD_signExtend]
  simp [inside, given_]

theorem binary64_subnormal :
    2 ^ Ieee.binary64.fractionBits * Ieee.binary64.tiny ≤ Ieee.binary32.tiny := by
  have single : 1 - Ieee.binary32.bias - Ieee.binary32.fractionBits = -149 := by decide
  have double : 1 - Ieee.binary64.bias - Ieee.binary64.fractionBits = -1074 := by decide
  unfold Ieee.Format.tiny
  rw [single, double]
  calc (2 : ℚ) ^ Ieee.binary64.fractionBits * 2 ^ (-1074 : ℤ)
      = 2 ^ ((52 : ℤ) + -1074) := by rw [zpow_add₀ (by norm_num)]; rfl
    _ ≤ 2 ^ (-149 : ℤ) := zpow_le_zpow_right₀ (by norm_num) (by norm_num)

/-- Whatever type a result is returned as, its number arrives if and only if it fits into the datum's
lower bits. -/
theorem arrives_iff {T t : ScalarType} (taken : T.builtin.is t.builtin.own = true) (x : T.Value) :
    T.Arrives t x ↔ T.Fits t x := by
  have finite {one two : Int} : Ieee.Number.finite one = .finite two ↔ one = two := by
    rw [Ieee.Number.finite.injEq]
    exact Int.cast_inj
  cases eq_or_widens taken with
  | inl same =>
    subst same
    have arrives : t.Arrives t x := congrArg t.number (t.sqlValue_datum x)
    cases t <;> exact ⟨fun _ => trivial, fun _ => arrives⟩
  | inr widens =>
    cases widens with
    | int8_int4 =>
      change BitVec 64 at x
      exact finite.trans (toInt_setWidth_iff x (by decide) (by decide))
    | int8_int2 =>
      change BitVec 64 at x
      exact finite.trans (toInt_setWidth_iff x (by decide) (by decide))
    | int4_int2 =>
      change BitVec 32 at x
      have same : (x.signExtend 64).setWidth 16 = x.setWidth 16 :=
        setWidth_signExtend_narrower x (by decide) (by decide)
      have arrives : ScalarType.int4.Arrives .int2 x ↔ (x.setWidth 16).toInt = x.toInt := by
        rw [← same]
        exact finite
      exact arrives.trans (toInt_setWidth_iff x (by decide) (by decide))
    | float8_float4 =>
      change BitVec 64 at x
      have low : (x.setWidth 32).toNat = Ieee.binary32.cut x.toNat := BitVec.toNat_setWidth ..
      have arrives : ScalarType.float8.Arrives .float4 x ↔
          Ieee.binary32.number (Ieee.binary32.cut x.toNat) = Ieee.binary64.number x.toNat := by
        rw [← low]
        exact Iff.rfl
      exact arrives.trans (Ieee.Format.number_cut_iff (by decide) (by decide) binary64_subnormal)

/-- Each scalar has a SQL type of its own. -/
theorem own_injective : Function.Injective fun t : ScalarType => t.builtin.own := by
  intro t other same
  cases t <;> cases other <;> first | rfl | exact absurd same (by decide)

end ScalarType

end Cppgres
