import Cppgres.Bytes.Hexadecimal
import Cppgres.Lldb.VarlenaPrinter

/-!
# The text that the varlena printer puts out

`print_varlena_data` and `print_hex_dump` with their wording. From the lines that are put out the
data can be read again, unless it is text that is cut short: `Cppgres.printed_read_iff`.
-/
namespace Cppgres
open Bytes

/-- `{i:04x}` -/
def hexOffset (offset : Nat) : List Char := (Nat.toDigits 16 offset).leftpad 4 '0'

/-- `chr(b) if 32 <= b <= 126 else '.'` -/
def asciiChar (byte : Byte) : Char :=
  if 32 ≤ byte.toNat ∧ byte.toNat ≤ 126 then Char.ofNat byte.toNat else '.'

/-- A line of `print_hex_dump`. -/
def hexDumpLine (indent offset : Nat) (chunk : List Byte) : List Char :=
  List.replicate indent ' ' ++ hexOffset offset ++ ": ".toList ++
    (hexWords chunk).rightpad 48 ' ' ++ " |".toList ++ chunk.map asciiChar ++ "|".toList

/-- `print_hex_dump`, with the text of its lines. -/
def hexDumpText (indent : Nat) (data : List Byte) : List (List Char) :=
  (List.range ((data.length + 15) / 16)).map fun i =>
    hexDumpLine indent (16 * i) ((data.drop (16 * i)).take 16)

section Text
variable (printable : Char → Bool) (doubleText : Nat → List Char)

/-- The text of the lines about a number. `doubleText` formats a number of type double with these
bits. -/
def numbersText (bytes : List Byte) (length : Nat) : Except PythonError (List (List Char)) :=
  if length = 4 then
    (structUnpack 4 (bytes.take 4)).map fun val =>
      ["    Possible int32: ".toList ++ Nat.toDigits 10 val ++ " (0x".toList ++
        Nat.toDigits 16 val ++ ")".toList]
  else if length = 8 then
    (structUnpack 8 (bytes.take 8)).map fun val =>
      ["    Possible int64: ".toList ++ Nat.toDigits 10 val ++ " (0x".toList ++
          Nat.toDigits 16 val ++ ")".toList,
        "    Possible double: ".toList ++ doubleText val]
  else .ok []

/-- `print_varlena_data`, with the text of its lines. -/
def varlenaDataText (bytes : List Byte) (length : Nat) : Printed (List Char) :=
  match asText printable bytes with
  | some text =>
    .done
      (if text.length ≤ 100 then ["    Text: \"".toList ++ text.toList ++ "\"".toList]
      else ["    Text (first 100 chars): \"".toList ++ text.toList.take 100 ++ "...\"".toList])
  | none =>
    match asCString printable bytes with
    | some (text, nullPos) =>
      .done
        (("    C String: \"".toList ++ text.toList ++ "\"".toList) ::
          if nullPos + 1 < bytes.length then
            ("    Remaining ".toList ++ Nat.toDigits 10 (bytes.length - nullPos - 1) ++
                " bytes after null:".toList) ::
              hexDumpText 6 (bytes.drop (nullPos + 1))
          else [])
    | none =>
      match numbersText doubleText bytes length with
      | .error error => ⟨[], some error⟩
      | .ok numbers =>
        .done (numbers ++
          ("    Binary data (".toList ++ Nat.toDigits 10 length ++ " bytes):".toList) ::
            hexDumpText 4 bytes)

end Text

/-! ## Reading the lines -/

/-- The text between two others. -/
def between (before after line : List Char) : Option String :=
  if before <+: line then
    some (String.ofList ((line.drop before.length).take (line.length - before.length - after.length)))
  else none

/-- The words between the offset and the characters. -/
def readHexDumpLine (line : List Char) : List Byte :=
  unhex (((line.dropWhile (· ≠ ':')).drop 1).takeWhile (· ≠ '|'))

/-- The bytes that are between quotes. -/
def readText (line : List Char) : List Byte :=
  match between "Text: \"".toList "\"".toList line with
  | some text => utf8Bytes text
  | none =>
    match between "Text (first 100 chars): \"".toList "...\"".toList line with
    | some text => utf8Bytes text
    | none =>
      match between "C String: \"".toList "\"".toList line with
      | some text => utf8Bytes text ++ [0]
      | none => []

/-- The bytes that a reader takes from a line. -/
def readLine (line : List Char) : List Byte :=
  let body := line.dropWhile (· = ' ')
  if body.head?.any Char.isUpper then readText body else readHexDumpLine body

section Lines
variable {indent : Nat}

theorem between_wrapped (before after text : List Char) :
    between before after (before ++ text ++ after) = some (String.ofList text) := by
  unfold between
  rw [List.append_assoc, if_pos (List.prefix_append _ _)]
  simp

/-- Reading starts behind the blanks. -/
theorem dropWhile_blanks {c : Char} (cs : List Char) (solid : c ≠ ' ') :
    (List.replicate indent ' ' ++ c :: cs).dropWhile (· = ' ') = c :: cs := by
  induction indent with
  | zero => simp [solid]
  | succ indent ih => simpa [List.replicate_succ] using ih

theorem readLine_indented {c : Char} (cs : List Char) (solid : c ≠ ' ') :
    readLine (List.replicate indent ' ' ++ c :: cs) =
      if c.isUpper then readText (c :: cs) else readHexDumpLine (c :: cs) := by
  unfold readLine
  rw [dropWhile_blanks cs solid]
  rfl

theorem isHex_hexOffset {offset : Nat} {c : Char} (member : c ∈ hexOffset offset) : IsHex c := by
  unfold hexOffset List.leftpad at member
  rcases List.mem_append.mp member with padding | digits
  · rw [List.eq_of_mem_replicate padding]
    unfold IsHex
    decide
  · exact isHex_toDigits digits

theorem hexOffset_ne_nil (offset : Nat) : hexOffset offset ≠ [] := by
  unfold hexOffset List.leftpad
  exact List.append_ne_nil_of_right_ne_nil _ Nat.toDigits_ne_nil

/-- What is found behind an offset and before the characters. -/
theorem words_found {offset words characters : List Char} (hex : ∀ c ∈ offset, IsHex c)
    (noBar : '|' ∉ words) :
    (((offset ++ ':' :: (words ++ '|' :: characters)).dropWhile (· ≠ ':')).drop 1).takeWhile
      (· ≠ '|') = words := by
  have passed : (offset ++ ':' :: (words ++ '|' :: characters)).dropWhile (· ≠ ':') =
      ':' :: (words ++ '|' :: characters) := by
    rw [List.dropWhile_append_of_pos fun c member => by simpa using (hex c member).2.1]
    simp
  rw [passed, List.drop_succ_cons, List.drop_zero, List.takeWhile_append_of_pos]
  · simp
  · rintro c member
    simp only [ne_eq, decide_not, Bool.not_eq_eq_eq_not, Bool.not_true, decide_eq_false_iff_not]
    rintro rfl
    exact noBar member

/-- A line of the dump is read as the bytes it was made of. -/
theorem readLine_hexDumpLine (offset : Nat) (chunk : List Byte) :
    readLine (hexDumpLine indent offset chunk) = chunk := by
  let words := ' ' :: (hexWords chunk ++ List.replicate (48 - (hexWords chunk).length + 1) ' ')
  have line : hexDumpLine indent offset chunk = List.replicate indent ' ' ++
      (hexOffset offset ++ ':' :: (words ++ '|' :: (chunk.map asciiChar ++ ['|']))) := by
    simp [hexDumpLine, List.rightpad, words, List.replicate_succ']
  have noBar : '|' ∉ words := by
    intro member
    rcases List.mem_cons.mp member with blank | member
    · cases blank
    · rcases List.mem_append.mp member with digit | padding
      · rcases hexWords_blank_or_hex digit with blank | hex
        · cases blank
        · exact hex.2.2.1 rfl
      · cases List.eq_of_mem_replicate padding
  have found := @words_found (hexOffset offset) words (chunk.map asciiChar ++ ['|'])
    (fun c member => isHex_hexOffset member) noBar
  obtain ⟨first, digits, split⟩ := List.exists_cons_of_ne_nil (hexOffset_ne_nil offset)
  have hex : IsHex first := @isHex_hexOffset offset first (split ▸ List.mem_cons_self)
  rw [line]
  rw [split] at found ⊢
  rw [List.cons_append] at found ⊢
  rw [readLine_indented _ hex.1, hex.2.2.2, if_neg (by decide), readHexDumpLine, found, unhex_blank,
    unhex_hexWords]

theorem read_hexDumpText (indent : Nat) (data : List Byte) :
    (hexDumpText indent data).flatMap readLine = data := by
  have enough : data.length ≤ 16 * ((data.length + 15) / 16) := by omega
  unfold hexDumpText
  rw [List.flatMap_map]
  simp only [readLine_hexDumpLine]
  rw [flatMap_chunks, List.take_of_length_le enough]

theorem readLine_text (text : List Char) :
    readLine ("    Text: \"".toList ++ text ++ "\"".toList) = utf8Bytes (String.ofList text) := by
  have body : readLine ("    Text: \"".toList ++ text ++ "\"".toList) =
      readText ("Text: \"".toList ++ text ++ "\"".toList) := @readLine_indented 4 'T' _ (by decide)
  rw [body, readText, between_wrapped]

theorem readLine_textFirst100Chars (text : List Char) :
    readLine ("    Text (first 100 chars): \"".toList ++ text ++ "...\"".toList) =
      utf8Bytes (String.ofList text) := by
  have body : readLine ("    Text (first 100 chars): \"".toList ++ text ++ "...\"".toList) =
      readText ("Text (first 100 chars): \"".toList ++ text ++ "...\"".toList) :=
    @readLine_indented 4 'T' _ (by decide)
  have other : between "Text: \"".toList "\"".toList
      ("Text (first 100 chars): \"".toList ++ text ++ "...\"".toList) = none :=
    if_neg (by simp)
  rw [body, readText, other, between_wrapped]

theorem readLine_cString (text : List Char) :
    readLine ("    C String: \"".toList ++ text ++ "\"".toList) =
      utf8Bytes (String.ofList text) ++ [0] := by
  have body : readLine ("    C String: \"".toList ++ text ++ "\"".toList) =
      readText ("C String: \"".toList ++ text ++ "\"".toList) :=
    @readLine_indented 4 'C' _ (by decide)
  have other : between "Text: \"".toList "\"".toList
      ("C String: \"".toList ++ text ++ "\"".toList) = none := if_neg (by simp)
  have other' : between "Text (first 100 chars): \"".toList "...\"".toList
      ("C String: \"".toList ++ text ++ "\"".toList) = none := if_neg (by simp)
  rw [body, readText, other, other', between_wrapped]

theorem between_none {first c : Char} (before after cs : List Char) (other : first ≠ c) :
    between (first :: before) after (c :: cs) = none :=
  if_neg (by simp [other])

/-- A line that begins with another word has no bytes. -/
theorem readLine_other {c : Char} (cs : List Char) (upper : c.isUpper = true) (noText : 'T' ≠ c)
    (noString : 'C' ≠ c) : readLine (List.replicate 4 ' ' ++ c :: cs) = [] := by
  have solid : c ≠ ' ' := by
    rintro rfl
    cases upper
  have text : between "Text: \"".toList "\"".toList (c :: cs) = none :=
    between_none _ _ cs noText
  have first : between "Text (first 100 chars): \"".toList "...\"".toList (c :: cs) = none :=
    between_none _ _ cs noText
  have string : between "C String: \"".toList "\"".toList (c :: cs) = none :=
    between_none _ _ cs noString
  rw [readLine_indented cs solid, upper, if_pos rfl, readText, text, first, string]

end Lines

section Printed
variable {printable : Char → Bool} {doubleText : Nat → List Char} {bytes : List Byte}

/-- The lines about a number are read as nothing, and are there where the printer has them. -/
theorem read_numbersText (bytes : List Byte) (length : Nat) :
    (numbersText doubleText bytes length).map (List.flatMap readLine) =
      (printNumbers bytes length).map fun _ => [] := by
  have int32 (cs : List Char) : readLine ("    Possible int32: ".toList ++ cs) = [] :=
    readLine_other _ (by decide) (by decide) (by decide)
  have int64 (cs : List Char) : readLine ("    Possible int64: ".toList ++ cs) = [] :=
    readLine_other _ (by decide) (by decide) (by decide)
  have double (cs : List Char) : readLine ("    Possible double: ".toList ++ cs) = [] :=
    readLine_other _ (by decide) (by decide) (by decide)
  unfold numbersText printNumbers
  split
  · cases structUnpack 4 (bytes.take 4) with
    | error error => rfl
    | ok val =>
      refine congrArg Except.ok ?_
      rw [List.flatMap_singleton, List.append_assoc, List.append_assoc, List.append_assoc, int32]
  · split
    · cases structUnpack 8 (bytes.take 8) with
      | error error => rfl
      | ok val =>
        refine congrArg Except.ok ?_
        rw [List.flatMap_cons, List.flatMap_singleton, List.append_assoc, List.append_assoc,
          List.append_assoc, int64, double]
        rfl
    · rfl

/-- The lines are read as what they show, and an error ends both. -/
theorem read_varlenaDataText (length : Nat) :
    (varlenaDataText printable doubleText bytes length).lines.flatMap readLine =
        (printVarlenaData printable bytes length).lines.flatMap DataLine.shown ∧
      (varlenaDataText printable doubleText bytes length).raised =
        (printVarlenaData printable bytes length).raised := by
  unfold varlenaDataText printVarlenaData
  cases asText printable bytes with
  | some text =>
    dsimp only [Printed.done]
    refine ⟨?_, rfl⟩
    split
    · rw [List.flatMap_singleton, readLine_text, String.ofList_toList]
      simp [DataLine.shown]
    · rw [List.flatMap_singleton, readLine_textFirst100Chars]
      simp [DataLine.shown]
  | none =>
    cases asCString printable bytes with
    | some pair =>
      obtain ⟨text, nullPos⟩ := pair
      have remaining (cs : List Char) : readLine ("    Remaining ".toList ++ cs) = [] :=
        readLine_other _ (by decide) (by decide) (by decide)
      dsimp only [Printed.done]
      refine ⟨?_, rfl⟩
      rw [List.flatMap_cons, List.flatMap_cons, readLine_cString, String.ofList_toList]
      split
      · rw [List.append_assoc "    Remaining ".toList, List.flatMap_cons, remaining,
          read_hexDumpText, List.flatMap_cons, shown_printHexDump]
        rfl
      · rfl
    | none =>
      have binary (cs : List Char) : readLine ("    Binary data (".toList ++ cs) = [] :=
        readLine_other _ (by decide) (by decide) (by decide)
      have dump : (("    Binary data (".toList ++ Nat.toDigits 10 length ++ " bytes):".toList) ::
          hexDumpText 4 bytes).flatMap readLine = bytes := by
        rw [List.flatMap_cons, List.append_assoc, binary, read_hexDumpText, List.nil_append]
      have both := @read_numbersText doubleText bytes length
      dsimp only
      rcases printNumbers_cases bytes length with ⟨numbers, read, unseen, _⟩ | ⟨error, failed, _⟩
      · rw [read] at both ⊢
        cases text : numbersText doubleText bytes length with
        | error error =>
          rw [text] at both
          cases both
        | ok lines =>
          rw [text] at both
          have nothing : lines.flatMap readLine = [] := Except.ok.inj both
          refine ⟨?_, rfl⟩
          dsimp only [Printed.done]
          rw [List.flatMap_append, nothing, dump, List.flatMap_append, unseen, List.flatMap_cons,
            shown_printHexDump]
          rfl
      · rw [failed] at both ⊢
        cases text : numbersText doubleText bytes length with
        | error other =>
          rw [text] at both
          cases Except.error.inj both
          exact ⟨rfl, rfl⟩
        | ok lines =>
          rw [text] at both
          cases both

/-- All of the data can be read from the lines that are printed for it, unless it is text that is
cut short, or an error ends them: the data is taken for a number and has too few bytes for it. -/
theorem printed_read_iff (printable : Char → Bool) (doubleText : Nat → List Char)
    (bytes : List Byte) (length : Nat) :
    ((varlenaDataText printable doubleText bytes length).lines.flatMap readLine = bytes ↔
      ¬ CutShort printable bytes ∧ ¬ TooFew printable bytes length) ∧
    ((varlenaDataText printable doubleText bytes length).raised ≠ none ↔
      TooFew printable bytes length) := by
  obtain ⟨lines, raised⟩ := @read_varlenaDataText printable doubleText bytes length
  rw [lines, raised]
  exact ⟨shown_printVarlenaData_iff length, raised_printVarlenaData_iff length⟩

end Printed

end Cppgres
