import Cppgres.Bytes.LittleEndian

/-!
# Headers of variable-length values

The macros of Postgres for a value that says its own length, on a little-endian machine. The two
low bits of its first byte tell the kinds of headers apart; the length of the plain kind is in the
rest of the first four bytes. A read past the bytes that there are gives nothing.
-/
namespace Cppgres
open Bytes

/-- `VARHDRSZ` -/
def varhdrsz : Nat := 4

/-- A 32-bit word at the beginning of the bytes. -/
def word32 (image : List Byte) : Option Nat :=
  if 4 ≤ image.length then some (combine (image.take 4)) else none

def firstByte (image : List Byte) : Option Nat := image.head?.map BitVec.toNat

/-- `VARATT_IS_4B_U`: a plain value. -/
def varattIs4bU (image : List Byte) : Bool := (firstByte image).any (· % 4 = 0)

/-- `VARATT_IS_4B_C`: a compressed value. -/
def varattIs4bC (image : List Byte) : Bool := (firstByte image).any (· % 4 = 2)

/-- `VARATT_IS_1B`: a value with a short header, or one that is elsewhere. -/
def varattIs1b (image : List Byte) : Bool := (firstByte image).any (· % 2 = 1)

/-- `VARATT_IS_1B_E`: a value that is elsewhere. -/
def varattIs1bE (image : List Byte) : Bool := (firstByte image).any (· = 1)

/-- `VARSIZE_4B`, which is `VARSIZE` -/
def varsize4b (image : List Byte) : Option Nat :=
  (word32 image).map fun header => header / 4 % 0x40000000

/-- `VARSIZE_1B` -/
def varsize1b (image : List Byte) : Option Nat := (firstByte image).map fun header => header / 2 % 0x80

/-- `VARTAG_SIZE` -/
def vartagSize (tag : Nat) : Option Nat :=
  if tag = 1 ∨ tag = 2 ∨ tag = 3 then some 8
  else if tag = 18 then some 16
  else none

/-- `VARSIZE_EXTERNAL`, less `VARHDRSZ_EXTERNAL` -/
def externalSize (image : List Byte) : Option Nat := do
  let tag ← image[1]?
  vartagSize tag.toNat

/-- `VARSIZE_ANY` -/
def varsizeAny (image : List Byte) : Option Nat :=
  if varattIs1bE image then (externalSize image).map (· + 2)
  else if varattIs1b image then varsize1b image
  else varsize4b image

/-- `VARSIZE_ANY_EXHDR` -/
def varsizeAnyExhdr (image : List Byte) : Option Nat :=
  if varattIs1bE image then externalSize image
  else if varattIs1b image then (varsize1b image).map (· - 1)
  else (varsize4b image).map (· - varhdrsz)

/-- `VARDATA_ANY`, from the beginning of the value. -/
def vardataAny (image : List Byte) : Nat := if varattIs1b image then 1 else varhdrsz

/-- The word that `SET_VARSIZE` stores. -/
def setVarsizeWord (len : Nat) : Nat := len % 0x100000000 * 4 % 0x100000000

/-- Up to the limit of an allocation, no bit of the length is lost. -/
theorem setVarsizeWord_eq {len : Nat} (within : len < 0x40000000) : setVarsizeWord len = 4 * len := by
  unfold setVarsizeWord
  omega

section Plain
variable {len : Nat} {rest : List Byte}

theorem word32_split (n : Nat) (rest : List Byte) :
    word32 (split 4 n ++ rest) = some (n % 0x100000000) := by
  have within : 4 ≤ (split 4 n ++ rest).length := by simp
  have first : (split 4 n ++ rest).take 4 = split 4 n := List.take_left' (length_split 4 n)
  rw [word32, if_pos within, first, combine_split]
  rfl

theorem firstByte_split (n : Nat) (rest : List Byte) :
    firstByte (split 4 n ++ rest) = some (n % 256) := by
  simp [firstByte, split]

/-- What `SET_VARSIZE` wrote is a plain header, and nothing else. -/
theorem varattIs4bU_setVarsize :
    varattIs4bU (split 4 (setVarsizeWord len) ++ rest) = true := by
  rw [varattIs4bU, firstByte_split]
  simp only [setVarsizeWord, Option.any_some, decide_eq_true_eq]
  omega

theorem varattIs4bC_setVarsize :
    varattIs4bC (split 4 (setVarsizeWord len) ++ rest) = false := by
  rw [varattIs4bC, firstByte_split]
  simp only [setVarsizeWord, Option.any_some, decide_eq_false_iff_not]
  omega

theorem varattIs1b_setVarsize :
    varattIs1b (split 4 (setVarsizeWord len) ++ rest) = false := by
  rw [varattIs1b, firstByte_split]
  simp only [setVarsizeWord, Option.any_some, decide_eq_false_iff_not]
  omega

theorem varattIs1bE_setVarsize :
    varattIs1bE (split 4 (setVarsizeWord len) ++ rest) = false := by
  rw [varattIs1bE, firstByte_split]
  simp only [setVarsizeWord, Option.any_some, decide_eq_false_iff_not]
  omega

/-- The length is read back. -/
theorem varsize4b_setVarsize (within : len < 0x40000000) :
    varsize4b (split 4 (setVarsizeWord len) ++ rest) = some len := by
  rw [varsize4b, word32_split, setVarsizeWord_eq within, Option.map_some]
  congr 1
  omega

end Plain

end Cppgres
