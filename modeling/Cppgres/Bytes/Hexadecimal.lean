import Cppgres.Bytes.LittleEndian
import Mathlib.Data.List.TakeWhile

/-!
# Bytes as hexadecimal digits

Bytes are written as words of two digits with blanks between them, and read again.
-/
namespace Bytes

/-- Two digits, the high one first. -/
def hexPair (byte : Byte) : List Char :=
  [Nat.digitChar (byte.toNat / 16), Nat.digitChar (byte.toNat % 16)]

def hexWords (bytes : List Byte) : List Char := List.intercalate [' '] (bytes.map hexPair)

def hexValue (c : Char) : Nat :=
  if c.isDigit then c.toNat - '0'.toNat else c.toNat - 'a'.toNat + 10

/-- Blanks are passed over, and two digits are a byte. -/
def unhex : List Char → List Byte
  | [] => []
  | [_] => []
  | high :: low :: cs =>
    if high = ' ' then unhex (low :: cs)
    else BitVec.ofNat 8 (16 * hexValue high + hexValue low) :: unhex cs

/-- The characters that a digit can be. -/
def IsHex (c : Char) : Prop := c ≠ ' ' ∧ c ≠ ':' ∧ c ≠ '|' ∧ c.isUpper = false

theorem isHex_digitChar {n : Nat} (digit : n < 16) : IsHex (Nat.digitChar n) := by
  unfold IsHex
  revert n
  decide

theorem hexValue_digitChar {n : Nat} (digit : n < 16) : hexValue (Nat.digitChar n) = n := by
  revert n
  decide

theorem isHex_toDigits {n : Nat} {c : Char} (member : c ∈ Nat.toDigits 16 n) : IsHex c := by
  induction n using Nat.strongRecOn with
  | ind n ih =>
    rw [Nat.toDigits_eq_if (by decide)] at member
    split at member
    · rename_i small
      rw [List.mem_singleton.mp member]
      exact isHex_digitChar small
    · rcases List.mem_append.mp member with high | low
      · exact ih (n / 16) (by omega) high
      · rw [List.mem_singleton.mp low]
        exact isHex_digitChar (Nat.mod_lt n (by decide))

section Words
variable {byte : Byte} {bytes : List Byte} {cs : List Char}

theorem unhex_hexPair : unhex (hexPair byte ++ cs) = byte :: unhex cs := by
  have bound := byte.isLt
  have high : byte.toNat / 16 < 16 := by omega
  have low : byte.toNat % 16 < 16 := Nat.mod_lt _ (by decide)
  have whole : 16 * (byte.toNat / 16) + byte.toNat % 16 = byte.toNat := Nat.div_add_mod _ _
  change unhex (Nat.digitChar (byte.toNat / 16) :: Nat.digitChar (byte.toNat % 16) :: cs) = _
  rw [unhex, if_neg (isHex_digitChar high).1, hexValue_digitChar high, hexValue_digitChar low, whole,
    BitVec.ofNat_toNat, BitVec.setWidth_eq]

theorem unhex_blank : unhex (' ' :: cs) = unhex cs := by
  cases cs with
  | nil => rfl
  | cons c cs => rw [unhex, if_pos rfl]

theorem unhex_blanks (count : Nat) : unhex (List.replicate count ' ') = [] := by
  induction count with
  | zero => rfl
  | succ count ih => rw [List.replicate_succ, unhex_blank, ih]

theorem hexWords_cons {other : Byte} :
    hexWords (byte :: other :: bytes) = hexPair byte ++ ' ' :: hexWords (other :: bytes) := by
  unfold hexWords
  rw [List.map_cons, List.map_cons, List.intercalate_cons_cons]
  simp

theorem isHex_hexPair {c : Char} (member : c ∈ hexPair byte) : IsHex c := by
  have bound := byte.isLt
  unfold hexPair at member
  rcases List.mem_cons.mp member with high | low
  · rw [high]
    exact isHex_digitChar (by omega)
  · rw [List.mem_singleton.mp low]
    exact isHex_digitChar (Nat.mod_lt _ (by decide))

theorem hexWords_blank_or_hex {c : Char} (member : c ∈ hexWords bytes) : c = ' ' ∨ IsHex c := by
  induction bytes with
  | nil => cases member
  | cons byte bytes ih =>
    cases bytes with
    | nil => exact .inr (@isHex_hexPair byte c member)
    | cons other bytes =>
      rw [hexWords_cons] at member
      rcases List.mem_append.mp member with pair | later
      · exact .inr (isHex_hexPair pair)
      · rcases List.mem_cons.mp later with blank | later
        · exact .inl blank
        · exact ih later

/-- What is written is read, whatever blanks follow. -/
theorem unhex_hexWords (bytes : List Byte) (count : Nat) :
    unhex (hexWords bytes ++ List.replicate count ' ') = bytes := by
  induction bytes with
  | nil => exact unhex_blanks count
  | cons byte bytes ih =>
    cases bytes with
    | nil =>
      change unhex (hexPair byte ++ List.replicate count ' ') = [byte]
      rw [unhex_hexPair, unhex_blanks]
    | cons other bytes =>
      rw [hexWords_cons, List.append_assoc, unhex_hexPair, List.cons_append, unhex_blank, ih]

end Words

end Bytes
