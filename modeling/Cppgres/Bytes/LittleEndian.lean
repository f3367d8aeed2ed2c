import Mathlib.Algebra.Group.Nat.Even
import Mathlib.Tactic.Common

/-!
# Little-endian numbers

A number as its bytes, least significant first, and back.
-/
namespace Bytes

abbrev Byte := BitVec 8

/-- The first `count` bytes of a number. What does not fit is cut off. -/
def split : Nat → Nat → List Byte
  | 0, _ => []
  | count + 1, n => BitVec.ofNat 8 n :: split count (n / 256)

def combine : List Byte → Nat
  | [] => 0
  | byte :: bytes => byte.toNat + 256 * combine bytes

@[simp] theorem length_split (count n : Nat) : (split count n).length = count := by
  induction count generalizing n with
  | zero => rfl
  | succ count ih => simp [split, ih]

theorem drop_split {count n past : Nat} (beyond : count ≤ past) : (split count n).drop past = [] :=
  List.drop_eq_nil_of_le (by rw [length_split]; exact beyond)

/-- What comes back is what fits. -/
theorem combine_split (count n : Nat) : combine (split count n) = n % 256 ^ count := by
  induction count generalizing n with
  | zero => simp [split, combine, Nat.mod_one]
  | succ count ih =>
    have byte : (BitVec.ofNat 8 n).toNat = n % 256 := by simp
    rw [split, combine, ih, byte, pow_succ', Nat.mod_mul]

theorem combine_split_of_lt {count n : Nat} (fits : n < 256 ^ count) :
    combine (split count n) = n := by
  rw [combine_split, Nat.mod_eq_of_lt fits]

theorem combine_append (low high : List Byte) :
    combine (low ++ high) = combine low + 256 ^ low.length * combine high := by
  induction low with
  | nil => simp [combine]
  | cons byte low ih =>
    rw [List.cons_append, combine, combine, ih, List.length_cons, pow_succ', Nat.mul_add, Nat.mul_assoc,
      Nat.add_assoc]

theorem drop_split_add (count more n : Nat) :
    (split (count + more) n).drop count = split more (n / 256 ^ count) := by
  induction count generalizing n with
  | zero => simp
  | succ count ih =>
    rw [Nat.succ_add, split, List.drop_succ_cons, ih, Nat.div_div_eq_div_mul, pow_succ']

end Bytes
