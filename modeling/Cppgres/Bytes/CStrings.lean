import Cppgres.Bytes.LittleEndian
import Mathlib.Data.List.TakeWhile

/-!
# Arrays of characters

An array of a fixed size with a C string in it, and the text that the string is: it has no NUL and
is shorter than the array.
-/
namespace Bytes

/-- What a pointer to these bytes is as a C string. -/
def cstring (bytes : List Byte) : List Byte := bytes.takeWhile (· ≠ 0)

section CString
variable {bytes text rest : List Byte}

theorem nulFree_cstring : 0 ∉ cstring bytes := by
  intro member
  have other := List.mem_takeWhile_imp member
  simp at other

theorem cstring_of_nulFree (nulFree : 0 ∉ bytes) : cstring bytes = bytes := by
  apply List.takeWhile_eq_self_iff.mpr
  intro byte member
  simp only [ne_eq, decide_not, Bool.not_eq_eq_eq_not, Bool.not_true, decide_eq_false_iff_not]
  rintro rfl
  exact nulFree member

/-- What is behind a NUL does not count. -/
theorem cstring_append_nul : cstring (text ++ 0 :: rest) = cstring text := by
  induction text with
  | nil => simp [cstring]
  | cons byte text ih =>
    unfold cstring at ih ⊢
    by_cases nul : byte = 0
    · simp [nul]
    · rw [List.cons_append, List.takeWhile_cons_of_pos (by simpa using nul),
        List.takeWhile_cons_of_pos (by simpa using nul), ih]

theorem length_cstring_le : (cstring bytes).length ≤ bytes.length :=
  (List.takeWhile_sublist _).length_le

theorem length_cstring_lt (terminated : 0 ∈ bytes) : (cstring bytes).length < bytes.length := by
  induction bytes with
  | nil => cases terminated
  | cons byte bytes ih =>
    unfold cstring at ih ⊢
    by_cases nul : byte = 0
    · simp [nul]
    · have later : 0 ∈ bytes := by
        rcases List.mem_cons.mp terminated with same | later
        · exact absurd same.symm nul
        · exact later
      have short := ih later
      rw [List.takeWhile_cons_of_pos (by simpa using nul), List.length_cons, List.length_cons]
      omega

end CString

/-- `char array[size]`, with a string in it. -/
structure CharArray (size : Nat) where
  bytes : List Byte
  length : bytes.length = size
  terminated : 0 ∈ bytes
  deriving DecidableEq

/-- A string that fits into such an array. -/
structure CText (size : Nat) where
  bytes : List Byte
  nulFree : 0 ∉ bytes
  short : bytes.length < size
  deriving DecidableEq

variable {size : Nat}

/-- As much of a string as an array of this size has place for. -/
def CText.cut (positive : 0 < size) (text : List Byte) : CText size where
  bytes := cstring (text.take (size - 1))
  nulFree := nulFree_cstring
  short := by
    have cut : (cstring (text.take (size - 1))).length ≤ (text.take (size - 1)).length :=
      length_cstring_le
    rw [List.length_take] at cut
    omega

/-- A text that fits is not cut. -/
theorem CText.cut_bytes {fewer : Nat} (positive : 0 < size) (text : CText fewer)
    (fits : fewer ≤ size) : (CText.cut positive text.bytes).bytes = text.bytes := by
  have short := text.short
  unfold CText.cut
  dsimp only
  rw [List.take_of_length_le (by omega), cstring_of_nulFree text.nulFree]

namespace CharArray

theorem positive (array : CharArray size) : 0 < size := by
  have there := List.length_pos_of_mem array.terminated
  rw [array.length] at there
  exact there

def zeroed (positive : 0 < size) : CharArray size where
  bytes := List.replicate size 0
  length := List.length_replicate
  terminated := List.mem_replicate.mpr ⟨by omega, rfl⟩

/-- The bytes of a text are copied in, as many as leave place for a NUL, and then the NUL. -/
def copyIn (array : CharArray size) (text : List Byte) : CharArray size :=
  let n := min text.length (size - 1)
  { bytes := text.take n ++ 0 :: array.bytes.drop (n + 1)
    length := by
      have whole := array.length
      have room := array.positive
      simp only [List.length_append, List.length_take, List.length_cons, List.length_drop]
      omega
    terminated := by simp }

/-- The text that is in it. -/
def text (array : CharArray size) : CText size where
  bytes := cstring array.bytes
  nulFree := nulFree_cstring
  short := by
    have short := length_cstring_lt array.terminated
    rwa [array.length] at short

end CharArray

end Bytes
