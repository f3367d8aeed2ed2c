import Mathlib.Algebra.Order.Field.Power
import Mathlib.Algebra.Order.Ring.Rat
import Mathlib.Data.Nat.Bitwise
import Mathlib.Tactic.GCongr
import Mathlib.Tactic.Positivity
import Mathlib.Tactic.Ring
import Mathlib.Tactic.Linarith

/-!
# Binary floating-point formats

A pattern of bits is a sign, a biased exponent and a fraction. A finite one denotes a
rational number, exactly.
-/
namespace Ieee

/-- A binary interchange format, by the widths of its two fields below the sign. -/
structure Format where
  exponentBits : Nat
  fractionBits : Nat
  exponentBits_pos : 0 < exponentBits

def binary32 : Format := ⟨8, 23, by decide⟩

def binary64 : Format := ⟨11, 52, by decide⟩

/-- What a pattern denotes. -/
inductive Number where
  | finite (value : ℚ)
  | infinite (negative : Bool)
  | nan
  deriving DecidableEq, Repr

namespace Format
variable (F : Format)

/-- The bits below the sign. -/
def payload : Nat := F.exponentBits + F.fractionBits

def negative (bits : Nat) : Bool := bits.testBit F.payload

def exponent (bits : Nat) : Nat := bits / 2 ^ F.fractionBits % 2 ^ F.exponentBits

def fraction (bits : Nat) : Nat := bits % 2 ^ F.fractionBits

def bias : ℤ := 2 ^ (F.exponentBits - 1) - 1

/-- The least positive number. -/
def tiny : ℚ := 2 ^ (1 - F.bias - F.fractionBits)

def magnitude (bits : Nat) : ℚ :=
  if F.exponent bits = 0 then F.fraction bits * F.tiny
  else (2 ^ F.fractionBits + F.fraction bits) * F.tiny * 2 ^ (F.exponent bits - 1)

def number (bits : Nat) : Number :=
  if F.exponent bits = 2 ^ F.exponentBits - 1 then
    if F.fraction bits = 0 then .infinite (F.negative bits) else .nan
  else .finite (if F.negative bits then -F.magnitude bits else F.magnitude bits)

variable {F} {bits : Nat}

theorem tiny_pos : 0 < F.tiny := by
  unfold tiny
  positivity

/-- The two fields of a pattern that is not all zero below the sign. -/
theorem tiny_le_magnitude (nonzero : F.exponent bits ≠ 0 ∨ F.fraction bits ≠ 0) :
    F.tiny ≤ F.magnitude bits := by
  have positive := F.tiny_pos
  unfold magnitude
  split
  · rename_i subnormal
    have some : 1 ≤ F.fraction bits :=
      Nat.one_le_iff_ne_zero.mpr (nonzero.resolve_left (not_not.mpr subnormal))
    have some : (1 : ℚ) ≤ F.fraction bits := by exact_mod_cast some
    nlinarith
  · have significand : (1 : ℚ) ≤ 2 ^ F.fractionBits + F.fraction bits := by
      have power : (1 : ℚ) ≤ 2 ^ F.fractionBits := one_le_pow₀ (by norm_num)
      have rest : (0 : ℚ) ≤ F.fraction bits := Nat.cast_nonneg _
      linarith
    have scale : (1 : ℚ) ≤ 2 ^ (F.exponent bits - 1) := one_le_pow₀ (by norm_num)
    calc F.tiny = 1 * F.tiny * 1 := by ring
      _ ≤ (2 ^ F.fractionBits + F.fraction bits) * F.tiny * 2 ^ (F.exponent bits - 1) := by
        gcongr

theorem fields_eq_zero (below : bits < 2 ^ F.payload) (exponent : F.exponent bits = 0)
    (fraction : F.fraction bits = 0) : bits = 0 := by
  unfold Format.exponent at exponent
  unfold Format.fraction at fraction
  have quotient : bits / 2 ^ F.fractionBits < 2 ^ F.exponentBits := by
    apply Nat.div_lt_of_lt_mul
    rw [← pow_add, Nat.add_comm]
    exact below
  rw [Nat.mod_eq_of_lt quotient] at exponent
  have whole := Nat.div_add_mod bits (2 ^ F.fractionBits)
  rw [exponent, fraction] at whole
  simpa using whole.symm

theorem number_eq_nan_iff :
    F.number bits = .nan ↔ F.exponent bits = 2 ^ F.exponentBits - 1 ∧ F.fraction bits ≠ 0 := by
  unfold number
  split
  · rename_i full
    split <;> simp_all
  · rename_i partly
    simp [partly]

/-- A pattern with nothing above the fraction is subnormal. -/
theorem number_of_lt (below : bits < 2 ^ F.fractionBits) :
    F.number bits = .finite (bits * F.tiny) := by
  have exponent : F.exponent bits = 0 := by
    unfold Format.exponent
    rw [Nat.div_eq_of_lt below, Nat.zero_mod]
  have positive : F.negative bits = false := by
    unfold negative
    apply Nat.testBit_lt_two_pow
    exact below.trans_le (Nat.pow_le_pow_right (by decide) (Nat.le_add_left _ _))
  have partly : (0 : Nat) ≠ 2 ^ F.exponentBits - 1 := by
    have large : 2 ^ 1 ≤ 2 ^ F.exponentBits := Nat.pow_le_pow_right (by decide) F.exponentBits_pos
    omega
  unfold number magnitude
  rw [if_neg (by rw [exponent]; exact partly), if_pos exponent, positive, fraction,
    Nat.mod_eq_of_lt below]
  rfl

/-! ## A pattern read in a wider format -/

/-- In the fraction of a format with a much finer scale, a pattern without a sign keeps its
number if it is that of zero. -/
theorem number_eq_wider_iff {G : Format} (room : F.payload ≤ G.fractionBits)
    (finer : 2 ^ F.payload * G.tiny ≤ F.tiny) (below : bits < 2 ^ F.payload) :
    G.number bits = F.number bits ↔ bits = 0 := by
  have inside : bits < 2 ^ G.fractionBits :=
    below.trans_le (Nat.pow_le_pow_right (by decide) room)
  rw [number_of_lt inside]
  constructor
  · intro same
    by_contra nonzero
    have positive : F.negative bits = false := Nat.testBit_lt_two_pow below
    unfold number at same
    split at same
    · split at same <;> cases same
    · rw [positive] at same
      have same : (bits : ℚ) * G.tiny = F.magnitude bits := by simpa using same
      have least : F.tiny ≤ F.magnitude bits := by
        apply tiny_le_magnitude
        by_contra zero
        push Not at zero
        exact nonzero (fields_eq_zero below zero.1 zero.2)
      have less : (bits : ℚ) < 2 ^ F.payload := by exact_mod_cast below
      have shrunk : (bits : ℚ) * G.tiny < 2 ^ F.payload * G.tiny :=
        mul_lt_mul_of_pos_right less G.tiny_pos
      linarith
  · intro zero
    subst zero
    rw [number_of_lt (Nat.two_pow_pos _)]
    simp

/-- With all the bits above it set, a pattern with a sign is no number in that format. -/
theorem number_signExtended {G : Format} (room : F.payload + 1 ≤ G.fractionBits)
    (signed : 2 ^ F.payload ≤ bits) (below : bits < 2 ^ (F.payload + 1)) :
    G.number (2 ^ (G.payload + 1) - 2 ^ (F.payload + 1) + bits) = .nan := by
  have narrow : 2 ^ (F.payload + 1) ≤ 2 ^ G.fractionBits := Nat.pow_le_pow_right (by decide) room
  have some := Nat.two_pow_pos F.payload
  have width : 2 ^ (G.payload + 1) = 2 ^ G.fractionBits * (2 * 2 ^ G.exponentBits) := by
    unfold payload
    ring
  -- the low part is the fraction, all the rest are ones
  obtain ⟨rest, low⟩ : ∃ rest, rest + 2 ^ (F.payload + 1) = 2 ^ G.fractionBits + bits :=
    ⟨2 ^ G.fractionBits + bits - 2 ^ (F.payload + 1), by omega⟩
  have large : 1 ≤ 2 ^ G.exponentBits := Nat.one_le_two_pow
  have whole : 2 ^ (G.payload + 1) - 2 ^ (F.payload + 1) + bits =
      2 ^ G.fractionBits * (2 * 2 ^ G.exponentBits - 1) + rest := by
    rw [width, Nat.mul_sub_one]
    have enough : 2 ^ G.fractionBits ≤ 2 ^ G.fractionBits * (2 * 2 ^ G.exponentBits) :=
      Nat.le_mul_of_pos_right _ (by omega)
    omega
  have fraction : rest < 2 ^ G.fractionBits := by omega
  rw [number_eq_nan_iff, whole]
  constructor
  · unfold exponent
    rw [Nat.mul_add_div (Nat.two_pow_pos _), Nat.div_eq_of_lt fraction, Nat.add_zero]
    rw [show 2 * 2 ^ G.exponentBits - 1 = 2 ^ G.exponentBits + (2 ^ G.exponentBits - 1) by omega,
      Nat.add_mod_left, Nat.mod_eq_of_lt (by omega)]
  · unfold Format.fraction
    rw [Nat.mul_add_mod, Nat.mod_eq_of_lt fraction]
    omega

end Format
end Ieee
