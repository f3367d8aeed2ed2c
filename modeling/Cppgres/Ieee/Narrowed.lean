import Cppgres.Ieee.Binary

/-!
# Patterns cut to a narrower format

The low bits of a pattern, as many as another format has, are a pattern of that format. It
denotes the same number for next to no pattern.
-/
namespace Ieee

/-- A number with the larger significand has the smaller exponent. -/
theorem exists_shift {m n : Nat} {a b : ℤ} (same : (m : ℚ) * 2 ^ a = n * 2 ^ b) (less : m < n) :
    ∃ k : Nat, n = m * 2 ^ k := by
  rcases le_total a b with low | high
  · obtain ⟨k, rfl⟩ := Int.le.dest low
    have scale : (2 : ℚ) ^ a ≠ 0 := by positivity
    have whole : (m : ℚ) = n * 2 ^ k := by
      apply mul_right_cancel₀ scale
      rw [same, zpow_add₀ (by norm_num), zpow_natCast]
      ring
    have whole : m = n * 2 ^ k := by exact_mod_cast whole
    have larger : n ≤ n * 2 ^ k := Nat.le_mul_of_pos_right n (Nat.two_pow_pos k)
    omega
  · obtain ⟨k, rfl⟩ := Int.le.dest high
    have scale : (2 : ℚ) ^ b ≠ 0 := by positivity
    have whole : (n : ℚ) = m * 2 ^ k := by
      apply mul_right_cancel₀ scale
      rw [← same, zpow_add₀ (by norm_num), zpow_natCast]
      ring
    exact ⟨k, by exact_mod_cast whole⟩

namespace Format
variable {F G : Format} {bits : Nat}

/-- As many of the low bits as a pattern of this format has. -/
def cut (F : Format) (bits : Nat) : Nat := bits % 2 ^ (F.payload + 1)

/-- A finite magnitude is a whole number of the least one, with a shift. -/
theorem exists_significand (F : Format) (bits : Nat) :
    ∃ (m : Nat) (a : ℤ), F.magnitude bits = m * 2 ^ a ∧ m < 2 ^ (F.fractionBits + 1) ∧
      (F.exponent bits = 0 → m = F.fraction bits) ∧
      (F.exponent bits ≠ 0 → m = 2 ^ F.fractionBits + F.fraction bits) := by
  have fraction : F.fraction bits < 2 ^ F.fractionBits := Nat.mod_lt _ (Nat.two_pow_pos _)
  have twice : 2 ^ (F.fractionBits + 1) = 2 ^ F.fractionBits + 2 ^ F.fractionBits := by
    rw [Nat.pow_succ, Nat.mul_two]
  unfold magnitude tiny
  by_cases subnormal : F.exponent bits = 0
  · rw [if_pos subnormal]
    exact ⟨F.fraction bits, _, rfl, by omega, fun _ => rfl, fun normal => absurd subnormal normal⟩
  · rw [if_neg subnormal]
    refine ⟨2 ^ F.fractionBits + F.fraction bits,
      (1 - F.bias - F.fractionBits) + (F.exponent bits - 1 : Nat), ?_, by omega,
      fun zero => absurd zero subnormal, fun _ => rfl⟩
    rw [zpow_add₀ (by norm_num), zpow_natCast]
    push_cast
    ring

/-- The narrower pattern has a part of the wider one's fraction. -/
theorem cut_fraction (room : F.payload + 1 ≤ G.fractionBits) :
    F.cut (G.fraction bits) = F.cut bits :=
  Nat.mod_mod_of_dvd bits (Nat.pow_dvd_pow 2 room)

theorem cut_of_fraction_eq_zero (room : F.payload + 1 ≤ G.fractionBits)
    (nothing : G.fraction bits = 0) : F.cut bits = 0 := by
  rw [← cut_fraction room, nothing]
  exact Nat.zero_mod _

theorem fraction_cut : F.fraction (F.cut bits) = F.fraction bits :=
  Nat.mod_mod_of_dvd bits (Nat.pow_dvd_pow 2 (by unfold payload; omega))

/-- Below the significand of a normal pattern there is no place for all of the narrower one. -/
theorem magnitude_ne_of_normal (room : F.payload + 1 ≤ G.fractionBits)
    (double : 2 * F.fractionBits ≤ G.fractionBits) (normal : G.exponent bits ≠ 0) :
    F.magnitude (F.cut bits) ≠ G.magnitude bits := by
  intro same
  have narrower : F.fractionBits + 1 ≤ G.fractionBits := by
    have some := F.exponentBits_pos
    unfold payload at room
    omega
  have wide : 2 ^ (F.fractionBits + 1) ≤ 2 ^ G.fractionBits :=
    Nat.pow_le_pow_right (by decide) narrower
  have whole : G.fraction bits < 2 ^ G.fractionBits := Nat.mod_lt _ (Nat.two_pow_pos _)
  obtain ⟨m, a, narrow, small, subnormal, significand⟩ := F.exists_significand (F.cut bits)
  obtain ⟨n, b, value, -, -, leading⟩ := G.exists_significand bits
  have leading : n = 2 ^ G.fractionBits + G.fraction bits := leading normal
  obtain ⟨k, shifted⟩ : ∃ k : Nat, n = m * 2 ^ k := by
    apply exists_shift (a := a) (b := b) _ (by omega)
    rw [← narrow, ← value, same]
  -- the shift is at least the difference of the two precisions
  have far : G.fractionBits - F.fractionBits ≤ k := by
    have less : 2 ^ G.fractionBits < 2 ^ (F.fractionBits + 1 + k) := by
      calc
        2 ^ G.fractionBits ≤ n := by omega
        _ = m * 2 ^ k := shifted
        _ < 2 ^ (F.fractionBits + 1) * 2 ^ k :=
          Nat.mul_lt_mul_of_pos_right small (Nat.two_pow_pos k)
        _ = 2 ^ (F.fractionBits + 1 + k) := (Nat.pow_add 2 _ _).symm
    have exponents := (Nat.pow_lt_pow_iff_right (by decide)).mp less
    omega
  -- so that the narrower fraction is zero
  have cleared : F.fraction (F.cut bits) = 0 := by
    have low : 2 ^ F.fractionBits ∣ n := by
      rw [shifted]
      exact (Nat.pow_dvd_pow 2 (by omega)).mul_left m
    have high : 2 ^ F.fractionBits ∣ 2 ^ G.fractionBits := Nat.pow_dvd_pow 2 (by omega)
    rw [leading] at low
    have part : 2 ^ F.fractionBits ∣ G.fraction bits := (Nat.dvd_add_right high).mp low
    have same : F.fraction bits = G.fraction bits % 2 ^ F.fractionBits :=
      (Nat.mod_mod_of_dvd bits high).symm
    rw [fraction_cut, same]
    exact Nat.mod_eq_zero_of_dvd part
  have power : m = 2 ^ F.fractionBits := by
    by_cases zero : F.exponent (F.cut bits) = 0
    · have none : m = 0 := (subnormal zero).trans cleared
      rw [none, Nat.zero_mul] at shifted
      have some := Nat.two_pow_pos G.fractionBits
      omega
    · rw [significand zero, cleared, Nat.add_zero]
  have fits : F.fractionBits + k = G.fractionBits := by
    have exact_ : n = 2 ^ (F.fractionBits + k) := by rw [shifted, power, Nat.pow_add]
    have less : 2 ^ (F.fractionBits + k) < 2 ^ (G.fractionBits + 1) := by
      rw [← exact_, Nat.pow_succ]
      omega
    have exponents := (Nat.pow_lt_pow_iff_right (by decide)).mp less
    omega
  -- and then all of the wider one is zero
  have nothing : G.fraction bits = 0 := by
    rw [shifted, power, ← Nat.pow_add, fits] at leading
    omega
  have zero : F.exponent (F.cut bits) = 0 := by
    rw [cut_of_fraction_eq_zero room nothing]
    unfold exponent
    rw [Nat.zero_div, Nat.zero_mod]
  have none : m = 0 := (subnormal zero).trans cleared
  rw [power] at none
  exact absurd none (Nat.two_pow_pos _).ne'

theorem magnitude_nonneg (F : Format) (bits : Nat) : 0 ≤ F.magnitude bits := by
  unfold magnitude
  have positive := F.tiny_pos
  split <;> positivity

theorem magnitude_of_number {value : ℚ} (finite : F.number bits = .finite value) :
    F.magnitude bits = |value| := by
  have nonneg := F.magnitude_nonneg bits
  unfold number at finite
  split at finite
  · split at finite <;> cases finite
  · split at finite
    · cases finite
      rw [abs_neg, abs_of_nonneg nonneg]
    · cases finite
      rw [abs_of_nonneg nonneg]

theorem number_zero (F : Format) : F.number 0 = .finite 0 := by
  rw [number_of_lt (Nat.two_pow_pos _), Nat.cast_zero, zero_mul]

theorem magnitude_eq_zero_iff :
    F.magnitude bits = 0 ↔ F.exponent bits = 0 ∧ F.fraction bits = 0 := by
  constructor
  · intro zero
    by_contra nonzero
    have least : F.tiny ≤ F.magnitude bits := by
      apply tiny_le_magnitude
      by_contra both
      push Not at both
      exact nonzero both
    rw [zero] at least
    exact absurd F.tiny_pos (not_lt.mpr least)
  · rintro ⟨exponent, fraction⟩
    unfold magnitude
    rw [if_pos exponent, fraction, Nat.cast_zero, zero_mul]

/-- A subnormal number of a much finer scale is below the least one of the other. -/
theorem magnitude_lt_tiny (finer : 2 ^ G.fractionBits * G.tiny ≤ F.tiny)
    (subnormal : G.exponent bits = 0) : G.magnitude bits < F.tiny := by
  have whole : G.fraction bits < 2 ^ G.fractionBits := Nat.mod_lt _ (Nat.two_pow_pos _)
  have whole : (G.fraction bits : ℚ) < 2 ^ G.fractionBits := by exact_mod_cast whole
  unfold magnitude
  rw [if_pos subnormal]
  exact (mul_lt_mul_of_pos_right whole G.tiny_pos).trans_le finer

/-- The same number is denoted by the low bits of a pattern if and only if that is zero, or
neither of the two is a number. -/
theorem number_cut_iff (room : F.payload + 1 ≤ G.fractionBits)
    (double : 2 * F.fractionBits ≤ G.fractionBits)
    (finer : 2 ^ G.fractionBits * G.tiny ≤ F.tiny) :
    F.number (F.cut bits) = G.number bits ↔
      G.number bits = .finite 0 ∨ G.number bits = .nan ∧ F.number (F.cut bits) = .nan := by
  constructor
  · intro same
    cases wide : G.number bits with
    | nan => exact .inr ⟨rfl, same.trans wide⟩
    | infinite negative =>
      -- an infinity has no bits to cut
      have nothing : G.fraction bits = 0 := by
        by_contra some_
        unfold number at wide
        rw [if_neg some_] at wide
        split at wide <;> cases wide
      rw [cut_of_fraction_eq_zero room nothing, number_zero, wide] at same
      cases same
    | finite value =>
      rw [wide] at same
      have magnitudes : F.magnitude (F.cut bits) = G.magnitude bits := by
        rw [magnitude_of_number same, magnitude_of_number wide]
      have subnormal : G.exponent bits = 0 := by
        by_contra normal
        exact magnitude_ne_of_normal room double normal magnitudes
      have below := magnitude_lt_tiny finer subnormal
      rw [← magnitudes] at below
      have zero : F.magnitude (F.cut bits) = 0 := by
        rw [magnitude_eq_zero_iff]
        by_contra nonzero
        exact absurd (tiny_le_magnitude (not_and_or.mp nonzero)) (not_le.mpr below)
      rw [magnitude_of_number same, abs_eq_zero] at zero
      rw [zero]
      exact .inl rfl
  · rintro (zero | ⟨wide, narrow⟩)
    · have none := magnitude_of_number zero
      rw [abs_zero, magnitude_eq_zero_iff] at none
      rw [cut_of_fraction_eq_zero room none.2, number_zero, zero]
    · rw [wide, narrow]

end Format
end Ieee
