import Mathlib.Data.List.DropRight
import Mathlib.Data.Option.Basic

/-!
# Scanning lines of text

What a hand-written matcher is made of (blanks, a number, a fixed word), and what each part does
on text that begins with what it looks for.
-/
namespace Text

/-- What Python takes for white space, in a pattern and in `str.strip`. -/
def isSpace (c : Char) : Bool :=
  let code := c.toNat
  (9 ≤ code && code ≤ 13) || (28 ≤ code && code ≤ 32) || (8192 ≤ code && code ≤ 8202) ||
    [133, 160, 5760, 8232, 8233, 8239, 8287, 12288].contains code

def skipSpaces (cs : List Char) : List Char := cs.dropWhile isSpace

/-- Without the white space at both ends. -/
def strip (cs : List Char) : List Char := (skipSpaces (skipSpaces cs).reverse).reverse

/-- A number in decimal digits, at least one, and what is behind it. -/
def number (cs : List Char) : Option (Nat × List Char) :=
  match cs.takeWhile Char.isDigit with
  | [] => none
  | digit :: digits => some (Nat.ofDigitChars 10 (digit :: digits) 0, cs.dropWhile Char.isDigit)

/-- What is behind a word. -/
def literal (word : String) (cs : List Char) : Option (List Char) := cs.dropPrefix? word.toList

/-- What is behind the last blank, or the whole. -/
def lastWord (cs : List Char) : List Char := (cs.reverse.takeWhile (· ≠ ' ')).reverse

/-- The decimal digits of a number. -/
def decimal (n : Nat) : List Char := Nat.toDigits 10 n

/-- A line that ends here. -/
def line (indent : Nat) (cs : List Char) : List Char := List.replicate indent ' ' ++ cs ++ ['\n']

variable {c : Char} {cs rest : List Char} {n : Nat}

@[simp] theorem isSpace_blank : isSpace ' ' = true := rfl

theorem skipSpaces_of_head (solid : isSpace c = false) : skipSpaces (c :: cs) = c :: cs := by
  simp [skipSpaces, solid]

theorem skipSpaces_blank (solid : isSpace c = false) : skipSpaces (' ' :: c :: cs) = c :: cs := by
  simp [skipSpaces, List.dropWhile_cons, solid]

theorem skipSpaces_replicate (n : Nat) :
    skipSpaces (List.replicate n ' ' ++ cs) = skipSpaces cs := by
  simp [skipSpaces]

/-- Text between two characters that are not blank stays. -/
theorem strip_solid {last : Char} (first : isSpace c = false) (final : isSpace last = false)
    (ends : (c :: cs).getLast? = some last) : strip (c :: cs) = c :: cs := by
  obtain ⟨before, split⟩ := List.getLast?_eq_some_iff.mp ends
  unfold strip
  rw [skipSpaces_of_head first, split]
  simp [skipSpaces, final]

/-- What is around such text in a line goes. -/
theorem strip_line {last : Char} (indent : Nat) (first : isSpace c = false)
    (final : isSpace last = false) (ends : (c :: cs).getLast? = some last) :
    strip (line indent (c :: cs)) = c :: cs := by
  obtain ⟨before, split⟩ := List.getLast?_eq_some_iff.mp ends
  unfold strip line
  rw [List.append_assoc, skipSpaces_replicate, List.cons_append, skipSpaces_of_head first,
    ← List.cons_append, split]
  have newline : isSpace '\n' = true := rfl
  simp [skipSpaces, newline, final]

theorem strip_blank : strip (line 0 []) = [] := rfl

theorem isDigit_decimal : ∀ digit ∈ decimal n, digit.isDigit :=
  fun _ listed => Nat.isDigit_of_mem_toDigits (by omega) (by omega) listed

/-- A number is read back. -/
theorem number_decimal (behind : c.isDigit = false) :
    number (decimal n ++ c :: cs) = some (n, c :: cs) := by
  have digits : (decimal n).takeWhile Char.isDigit = decimal n :=
    List.takeWhile_eq_self_iff.mpr isDigit_decimal
  have gone : (decimal n).dropWhile Char.isDigit = [] :=
    List.dropWhile_eq_nil_iff.mpr isDigit_decimal
  have taken : (decimal n ++ c :: cs).takeWhile Char.isDigit = decimal n := by
    rw [List.takeWhile_append, digits]
    simp [behind]
  have dropped : (decimal n ++ c :: cs).dropWhile Char.isDigit = c :: cs := by
    rw [List.dropWhile_append, gone]
    simp [behind]
  unfold number
  rw [taken, dropped]
  have value : Nat.ofDigitChars 10 (decimal n) 0 = n :=
    Nat.ofDigitChars_toDigits (by omega) (by omega)
  cases digits : decimal n with
  | nil => exact absurd digits Nat.toDigits_ne_nil
  | cons digit digits => simp_all

theorem number_of_head (other : c.isDigit = false) : number (c :: cs) = none := by
  simp [number, other]

/-- A digit is not blank. -/
theorem solid_of_isDigit (digit : c.isDigit) : isSpace c = false := by
  simp only [Char.isDigit, Bool.and_eq_true, decide_eq_true_eq, ge_iff_le,
    UInt32.le_iff_toNat_le] at digit
  have low : 48 ≤ c.toNat := digit.1
  have high : c.toNat ≤ 57 := digit.2
  simp [isSpace]
  omega

theorem decimal_eq_cons (n : Nat) :
    ∃ digit digits, decimal n = digit :: digits ∧ digit.isDigit ∧ isSpace digit = false := by
  cases digits : decimal n with
  | nil => exact absurd digits Nat.toDigits_ne_nil
  | cons digit rest =>
    have isDigit := isDigit_decimal digit (digits ▸ List.mem_cons_self)
    exact ⟨digit, rest, rfl, isDigit, solid_of_isDigit isDigit⟩

/-- A line that begins with a number. -/
theorem strip_line_decimal {last : Char} (indent : Nat) (final : isSpace last = false)
    (ends : rest.getLast? = some last) :
    strip (line indent (decimal n ++ rest)) = decimal n ++ rest := by
  obtain ⟨digit, digits, split, _, solid⟩ := decimal_eq_cons n
  rw [split, List.cons_append]
  apply strip_line indent solid final
  rw [← List.cons_append, List.getLast?_append, ends]
  rfl

theorem literal_append (word : String) : literal word (word.toList ++ cs) = some cs :=
  List.dropPrefix?_append_of_beq cs BEq.rfl

theorem literal_of_head {word : String} {w : Char} {ws : List Char} (spelled : word.toList = w :: ws)
    (other : c ≠ w) : literal word (c :: cs) = none := by
  unfold literal
  rw [spelled]
  simp [List.dropPrefix?, other]

theorem lastWord_append {first last : List Char} (whole : ' ' ∉ last) :
    lastWord (first ++ ' ' :: last) = last := by
  have kept : last.reverse.takeWhile (· ≠ ' ') = last.reverse := by
    rw [List.takeWhile_eq_self_iff]
    intro c listed
    simp only [ne_eq, decide_not, Bool.not_eq_true', decide_eq_false_iff_not]
    intro same
    exact whole (same ▸ List.mem_reverse.mp listed)
  unfold lastWord
  rw [List.reverse_append, List.reverse_cons, List.append_assoc, List.takeWhile_append, kept]
  simp

end Text
