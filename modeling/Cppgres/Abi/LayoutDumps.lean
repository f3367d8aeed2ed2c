import Cppgres.Abi.LayoutParser

/-!
# Dumps of record layouts

What Clang prints of a sequence of records, as values of a type, and what the parser does at each of
the lines.
-/
namespace Cppgres.Abi
open Text

/-- The bits of a bit-field, none if it has no width. -/
inductive BitRange where
  | empty
  | range (first last : Nat)
  deriving DecidableEq, Repr

/-- A member, or a member of a member, which is a level deeper. The last word of its line is the name
or, for an anonymous one, the end of where it is declared. -/
structure MemberLine where
  offset : Nat
  bits : Option BitRange
  level : Nat
  type : List Char
  name : List Char
  level_pos : 0 < level
  type_solid : type.head?.any fun c => !isSpace c
  name_solid : name.getLast?.any fun c => !isSpace c
  name_whole : ' ' ∉ name

inductive RecordKind where
  | structRecord | unionRecord | classRecord
  deriving DecidableEq, Repr

/-- What is known of C++ records only. -/
structure CxxSizes where
  dsize : Nat
  nvsize : Nat
  nvalign : Nat
  deriving DecidableEq, Repr

structure RecordBlock where
  kind : RecordKind
  name : List Char
  members : List MemberLine
  size : Nat
  align : Nat
  cxx : Option CxxSizes
  name_solid : name.getLast?.any fun c => !isSpace c

/-! ## What is printed -/

theorem exists_of_any_getLast {cs : List Char} (solid : cs.getLast?.any fun c => !isSpace c) :
    ∃ last, cs.getLast? = some last ∧ isSpace last = false := by
  cases ends : cs.getLast? with
  | none => simp [ends] at solid
  | some last => exact ⟨last, rfl, by simpa [ends] using solid⟩

namespace MemberLine
variable (m : MemberLine)

def text : List Char := m.type ++ ' ' :: m.name

/-- The bits are behind the offset of a bit-field. -/
def place : List Char :=
  decimal m.offset ++ match m.bits with
    | none => []
    | some .empty => [':', '-']
    | some (.range first last) => ':' :: decimal first ++ '-' :: decimal last

def body : List Char :=
  m.place ++ ' ' :: '|' :: ' ' :: (List.replicate (2 * m.level) ' ' ++ m.text)

def line : List Char := Text.line (10 - m.place.length) m.body

theorem text_eq_cons :
    ∃ first second rest, m.text = first :: second :: rest ∧ isSpace first = false := by
  have solid := m.type_solid
  unfold text
  cases type : m.type with
  | nil => simp [type] at solid
  | cons first rest =>
    have first_solid : isSpace first = false := by simpa [type] using solid
    cases rest with
    | nil => exact ⟨first, ' ', m.name, rfl, first_solid⟩
    | cons second rest => exact ⟨first, second, rest ++ ' ' :: m.name, rfl, first_solid⟩

theorem text_last : ∃ last, m.text.getLast? = some last ∧ isSpace last = false := by
  obtain ⟨last, ends, solid⟩ := exists_of_any_getLast m.name_solid
  exact ⟨last, by simp [text, List.getLast?_append, List.getLast?_cons, ends], solid⟩

end MemberLine

def RecordKind.keyword : RecordKind → String
  | .structRecord => "struct "
  | .unionRecord => "union "
  | .classRecord => "class "

namespace RecordBlock
variable (b : RecordBlock)

def headBody : List Char := decimal 0 ++ ' ' :: '|' :: ' ' :: (b.kind.keyword.toList ++ b.name)

def sizeLines : List (List Char) :=
  match b.cxx with
  | none =>
    [Text.line 11 ("| [sizeof=".toList ++ decimal b.size ++ ", align=".toList ++ decimal b.align ++
      "]".toList)]
  | some cxx =>
    [Text.line 11 ("| [sizeof=".toList ++ decimal b.size ++ ", dsize=".toList ++ decimal cxx.dsize ++
      ", align=".toList ++ decimal b.align ++ ",".toList),
    Text.line 11 ("|  nvsize=".toList ++ decimal cxx.nvsize ++ ", nvalign=".toList ++
      decimal cxx.nvalign ++ "]".toList)]

def lines : List (List Char) :=
  Text.line 0 [] :: Text.line 0 "*** Dumping AST Record Layout".toList :: Text.line 9 b.headBody ::
    (b.members.map MemberLine.line ++ b.sizeLines)

end RecordBlock

/-- A dump, as `for line in file` goes through it. -/
def dumpLines (dump : List RecordBlock) : List (List Char) := dump.flatMap RecordBlock.lines

/-! ## What the patterns find -/

section Patterns
variable {n : Nat} {c : Char} {rest text : List Char} {keyword : String}

theorem ne_of_isDigit {d : Char} (digit : c.isDigit) (other : d.isDigit = false) : c ≠ d := by
  intro same
  rw [same, other] at digit
  cases digit

theorem literal_decimal {word : String} {w : Char} {ws : List Char} (spelled : word.toList = w :: ws)
    (other : w.isDigit = false) : literal word (decimal n ++ rest) = none := by
  obtain ⟨digit, digits, split, isDigit, _⟩ := decimal_eq_cons n
  rw [split, List.cons_append]
  exact literal_of_head spelled (ne_of_isDigit isDigit other)

theorem skipSpaces_decimal : skipSpaces (decimal n ++ rest) = decimal n ++ rest := by
  obtain ⟨digit, digits, split, _, solid⟩ := decimal_eq_cons n
  rw [split, List.cons_append, skipSpaces_of_head solid]

/-- A line that begins with an offset. -/
theorem behindOffset_decimal : behindOffset (decimal n ++ ' ' :: '|' :: rest) = some (n, rest) := by
  have bar : skipSpaces (' ' :: '|' :: rest) = '|' :: rest :=
    (skipSpaces_replicate 1).trans (skipSpaces_of_head rfl)
  have behind : literal "|" ('|' :: rest) = some rest := literal_append "|"
  simp [behindOffset, skipSpaces_decimal, number_decimal (c := ' ') rfl, bar, behind]

/-- The offset of a bit-field is not one to the patterns. -/
theorem behindOffset_bits : behindOffset (decimal n ++ ':' :: rest) = none := by
  have colon : skipSpaces (':' :: rest) = ':' :: rest := skipSpaces_of_head rfl
  have none : literal "|" (':' :: rest) = none := literal_of_head rfl (by decide)
  simp [behindOffset, skipSpaces_decimal, number_decimal (c := ':') rfl, colon, none]

theorem behindOffset_bar : behindOffset ('|' :: rest) = none := by
  have bar : skipSpaces ('|' :: rest) = '|' :: rest := skipSpaces_of_head rfl
  simp [behindOffset, bar, number_of_head (c := '|') rfl]

theorem recordMatch_decimal :
    recordMatch keyword (decimal n ++ ' ' :: '|' :: rest) = recordNamed keyword (skipSpaces rest) := by
  simp [recordMatch, behindOffset_decimal]

theorem fieldMatch_decimal :
    fieldMatch (decimal n ++ ' ' :: '|' :: rest) = (fieldInfo rest).map fun info => (n, info) := by
  cases found : fieldInfo rest <;> simp [fieldMatch, behindOffset_decimal, found]

theorem recordMatch_of_behindOffset {line : List Char} (unplaced : behindOffset line = none) :
    recordMatch keyword line = none := by
  simp [recordMatch, unplaced]

theorem fieldMatch_of_behindOffset {line : List Char} (unplaced : behindOffset line = none) :
    fieldMatch line = none := by
  simp [fieldMatch, unplaced]

/-- A line with an offset is not one with a size. -/
theorem sizeMatch_decimal : sizeMatch (decimal n ++ rest) = none := by
  have bar : literal "|" (decimal n ++ rest) = none := literal_decimal rfl rfl
  have bracket : literal "[" (decimal n ++ rest) = none := literal_decimal rfl rfl
  simp [sizeMatch, skipSpaces_decimal, bar, bracket]

/-- The first half of the line with the size. -/
theorem sizeMatch_bracket {size : Nat} :
    sizeMatch ('|' :: ' ' :: '[' :: ("sizeof=".toList ++ (decimal size ++ ',' :: rest))) =
      (literal "align=" (skipSpaces ((dsizeMatch rest).getD rest))).bind fun rest =>
        (number rest).map fun found => (size, found.1) := by
  have bar : ∀ {cs}, literal "|" ('|' :: cs) = some cs := literal_append "|"
  have bracket : ∀ {cs}, literal "[" ('[' :: cs) = some cs := literal_append "["
  have comma : ∀ {cs}, literal "," (',' :: cs) = some cs := literal_append ","
  have word : ∀ {cs}, skipSpaces ("sizeof=".toList ++ cs) = "sizeof=".toList ++ cs :=
    skipSpaces_of_head rfl
  simp only [sizeMatch, skipSpaces_of_head (c := '|') rfl, bar, Option.getD_some,
    skipSpaces_blank (c := '[') rfl, bracket, Option.bind_eq_bind, Option.bind_some, word,
    literal_append, number_decimal (c := ',') rfl, comma]
  congr 1
  funext rest
  cases number rest <;> rfl

/-- The line with the size, as it is for C. -/
theorem sizeMatch_c {size align : Nat} :
    sizeMatch ('|' :: ' ' :: '[' :: ("sizeof=".toList ++ (decimal size ++ ',' :: ' ' ::
      ("align=".toList ++ (decimal align ++ [']']))))) = some (size, align) := by
  have word : ∀ {cs}, skipSpaces (' ' :: ("align=".toList ++ cs)) = "align=".toList ++ cs :=
    skipSpaces_blank rfl
  have none : ∀ {cs}, literal "dsize=" ("align=".toList ++ cs) = none :=
    literal_of_head rfl (by decide)
  rw [sizeMatch_bracket]
  simp only [dsizeMatch, word, none, literal_append, number_decimal (c := ']') rfl,
    Option.bind_eq_bind, Option.bind_none, Option.bind_some, Option.getD_none, Option.map_some]

/-- The line with the size, as it is for C++. -/
theorem sizeMatch_cxx {size align : Nat} (dsize : Nat) :
    sizeMatch ('|' :: ' ' :: '[' :: ("sizeof=".toList ++ (decimal size ++ ',' :: ' ' ::
      ("dsize=".toList ++ (decimal dsize ++ ',' :: ' ' ::
        ("align=".toList ++ (decimal align ++ [',']))))))) = some (size, align) := by
  have first : ∀ {cs}, skipSpaces (' ' :: ("dsize=".toList ++ cs)) = "dsize=".toList ++ cs :=
    skipSpaces_blank rfl
  have second : ∀ {cs}, skipSpaces (' ' :: ("align=".toList ++ cs)) = "align=".toList ++ cs :=
    skipSpaces_blank rfl
  have comma : ∀ {cs}, literal "," (',' :: cs) = some cs := literal_append ","
  rw [sizeMatch_bracket]
  simp only [dsizeMatch, first, second, comma, literal_append, number_decimal (c := ',') rfl,
    Option.bind_eq_bind, Option.bind_some, Option.getD_some, Option.map_some]

/-- The line behind it is not one with a size. -/
theorem sizeMatch_nv : sizeMatch ('|' :: ' ' :: ' ' :: 'n' :: rest) = none := by
  have bar : ∀ {cs}, literal "|" ('|' :: cs) = some cs := literal_append "|"
  have word : skipSpaces (' ' :: ' ' :: 'n' :: rest) = 'n' :: rest :=
    (skipSpaces_replicate 2).trans (skipSpaces_of_head rfl)
  have none : literal "[" ('n' :: rest) = none := literal_of_head rfl (by decide)
  simp only [sizeMatch, skipSpaces_of_head (c := '|') rfl, bar, Option.getD_some, word, none,
    Option.bind_eq_bind, Option.bind_none]

end Patterns

/-! ## The parser at each line -/

namespace LayoutParser
variable {s : LayoutParser} {text line : List Char}

theorem parseBody_of_none {name : List Char} (field : fieldMatch line = none)
    (size : sizeMatch line = none) : s.parseBody name line = (.other, s) := by
  simp [parseBody, parseField, parseSize, field, size]

/-- A line that is none of a record is one of the current struct, if there is one. -/
theorem parseLine_of_none (stripped : strip text = line)
    (unmarked : literal "*** Dumping AST Record Layout" line = none)
    (unplaced : behindOffset line = none) :
    s.parseLine text = match s.currentStruct with
      | some name => s.parseBody name line
      | none => (.other, s) := by
  simp only [parseLine, stripped, unmarked, recordMatch_of_behindOffset unplaced,
    Option.isSome_none, Bool.false_eq_true, if_false]
  cases s.previousLineWasMarker <;> rfl

/-- Such a line without a size is used for nothing. -/
theorem parseLine_unused (stripped : strip text = line)
    (unmarked : literal "*** Dumping AST Record Layout" line = none)
    (unplaced : behindOffset line = none) (size : sizeMatch line = none) :
    s.parseLine text = (.other, s) := by
  rw [parseLine_of_none stripped unmarked unplaced]
  split
  · exact parseBody_of_none (fieldMatch_of_behindOffset unplaced) size
  · rfl

theorem parseLine_blank : s.parseLine (Text.line 0 []) = (.other, s) :=
  parseLine_unused strip_blank rfl rfl rfl

theorem parseLine_marker : s.parseLine (Text.line 0 "*** Dumping AST Record Layout".toList) =
    (.other, { s with previousLineWasMarker := true }) := by
  have stripped : strip (Text.line 0 "*** Dumping AST Record Layout".toList) =
      "*** Dumping AST Record Layout".toList := by decide
  have marked : literal "*** Dumping AST Record Layout" "*** Dumping AST Record Layout".toList =
      some [] := by decide
  simp only [parseLine, stripped, marked, Option.isSome_some, if_true]

/-- A line that begins with an offset, at which a record begins if it is behind a marker. -/
theorem parseLine_decimal {n : Nat} {rest : List Char}
    (stripped : strip text = decimal n ++ ' ' :: '|' :: rest) :
    s.parseLine text =
      match s.previousLineWasMarker, recordNamed "struct " (skipSpaces rest),
        recordNamed "union " (skipSpaces rest) with
      | true, some name, _ => (.entry, ⟨s.cleanup.insert name ⟨[], none, none⟩, some name, false⟩)
      | true, none, some _ => (.other, { s with structs := s.cleanup, currentStruct := none })
      | _, _, _ =>
        match s.currentStruct, fieldInfo rest with
        | some name, some info => (.field, s.appendField name ⟨n, lastWord (strip info)⟩)
        | _, _ => (.other, s) := by
  have unmarked : literal "*** Dumping AST Record Layout" (decimal n ++ ' ' :: '|' :: rest) = none :=
    literal_decimal rfl rfl
  simp only [parseLine, stripped, unmarked, Option.isSome_none, Bool.false_eq_true, if_false,
    recordMatch_decimal]
  have body : ∀ name, s.parseBody name (decimal n ++ ' ' :: '|' :: rest) =
      match fieldInfo rest with
      | some info => (.field, s.appendField name ⟨n, lastWord (strip info)⟩)
      | none => (.other, s) := by
    intro name
    cases info : fieldInfo rest <;>
      simp [parseBody, parseField, parseSize, fieldMatch_decimal, sizeMatch_decimal, info]
  cases s.previousLineWasMarker <;> cases recordNamed "struct " (skipSpaces rest) <;>
    cases recordNamed "union " (skipSpaces rest) <;> cases s.currentStruct <;>
    cases info : fieldInfo rest <;> simp [body, info]

section Heads
variable {kind : RecordKind} {name : List Char}

theorem skipSpaces_keyword :
    skipSpaces (' ' :: (kind.keyword.toList ++ name)) = kind.keyword.toList ++ name := by
  cases kind <;> exact skipSpaces_blank rfl

theorem fieldInfo_keyword : fieldInfo (' ' :: (kind.keyword.toList ++ name)) = none := by
  cases kind <;> rfl

theorem recordNamed_keyword (other : RecordKind) (named : name ≠ []) :
    recordNamed other.keyword (kind.keyword.toList ++ name) = if kind = other then some name else none := by
  by_cases same : kind = other
  · simp [recordNamed, same, literal_append, named]
  · have differs : literal other.keyword (kind.keyword.toList ++ name) = none := by
      cases kind <;> cases other <;> first | exact absurd rfl same | exact literal_of_head rfl (by decide)
    simp [recordNamed, same, differs]

end Heads

/-- The first line of a record, behind its marker. -/
theorem parseLine_head {b : RecordBlock} (marker : s.previousLineWasMarker = true) :
    s.parseLine (Text.line 9 b.headBody) = match b.kind with
      | .structRecord => (.entry, ⟨s.cleanup.insert b.name ⟨[], none, none⟩, some b.name, false⟩)
      | .unionRecord => (.other, { s with structs := s.cleanup, currentStruct := none })
      | .classRecord => (.other, s) := by
  obtain ⟨last, ends, solid⟩ := exists_of_any_getLast b.name_solid
  have named : b.name ≠ [] := by
    intro empty
    rw [empty] at ends
    cases ends
  have stripped : strip (Text.line 9 b.headBody) = b.headBody :=
    strip_line_decimal 9 solid (by simp [List.getLast?_append, List.getLast?_cons, ends])
  have struct : recordNamed "struct " (b.kind.keyword.toList ++ b.name) =
      if b.kind = .structRecord then some b.name else none := recordNamed_keyword .structRecord named
  have union : recordNamed "union " (b.kind.keyword.toList ++ b.name) =
      if b.kind = .unionRecord then some b.name else none := recordNamed_keyword .unionRecord named
  rw [parseLine_decimal stripped, marker, skipSpaces_keyword, fieldInfo_keyword, struct, union]
  cases b.kind <;> cases s.currentStruct <;> simp

/-- A bit-field is used for nothing. -/
theorem parseLine_bits {m : MemberLine} {bits : BitRange} (found : m.bits = some bits) :
    s.parseLine m.line = (.other, s) := by
  obtain ⟨last, ends, solid⟩ := m.text_last
  obtain ⟨rest, split⟩ : ∃ rest, m.place = decimal m.offset ++ ':' :: rest := by
    cases bits with
    | empty => exact ⟨['-'], by simp [MemberLine.place, found]⟩
    | range first last => exact ⟨decimal first ++ '-' :: decimal last, by simp [MemberLine.place, found]⟩
  have body : m.body = decimal m.offset ++
      ':' :: (rest ++ ' ' :: '|' :: ' ' :: (List.replicate (2 * m.level) ' ' ++ m.text)) := by
    simp [MemberLine.body, split]
  have stripped : strip m.line = m.body := by
    unfold MemberLine.line
    rw [body]
    exact strip_line_decimal _ solid (by simp [List.getLast?_append, List.getLast?_cons, ends])
  rw [body] at stripped
  exact parseLine_unused stripped (literal_decimal rfl rfl) behindOffset_bits sizeMatch_decimal

/-- A member that is not a bit-field. -/
theorem parseLine_member {m : MemberLine} (found : m.bits = none) :
    s.parseLine m.line =
      match s.previousLineWasMarker, recordNamed "struct " m.text, recordNamed "union " m.text with
      | true, some name, _ => (.entry, ⟨s.cleanup.insert name ⟨[], none, none⟩, some name, false⟩)
      | true, none, some _ => (.other, { s with structs := s.cleanup, currentStruct := none })
      | _, _, _ =>
        match s.currentStruct with
        | some name =>
          if m.level = 1 then (.field, s.appendField name ⟨m.offset, m.name⟩) else (.other, s)
        | none => (.other, s) := by
  obtain ⟨last, ends, solid⟩ := m.text_last
  obtain ⟨first, second, rest, split, first_solid⟩ := m.text_eq_cons
  have body : m.body = decimal m.offset ++
      ' ' :: '|' :: ' ' :: (List.replicate (2 * m.level) ' ' ++ m.text) := by
    simp [MemberLine.body, MemberLine.place, found]
  have stripped : strip m.line = m.body := by
    unfold MemberLine.line
    rw [body]
    exact strip_line_decimal _ solid (by simp [List.getLast?_append, List.getLast?_cons, ends])
  have skipped : skipSpaces (' ' :: (List.replicate (2 * m.level) ' ' ++ m.text)) = m.text := by
    have blanks : skipSpaces (List.replicate (2 * m.level + 1) ' ' ++ m.text) = skipSpaces m.text :=
      skipSpaces_replicate _
    rw [List.replicate_succ, List.cons_append] at blanks
    rw [blanks, split, skipSpaces_of_head first_solid]
  have info : fieldInfo (' ' :: (List.replicate (2 * m.level) ' ' ++ m.text)) =
      if m.level = 1 then some m.text else none := by
    have deep := m.level_pos
    by_cases direct : m.level = 1
    · simp [direct, split, fieldInfo, first_solid, List.replicate_succ]
    · obtain ⟨more, level⟩ : ∃ more, 2 * m.level = more + 4 := ⟨2 * m.level - 4, by omega⟩
      simp [direct, level, fieldInfo, List.replicate_succ]
  have word : lastWord (strip m.text) = m.name := by
    rw [split] at ends
    rw [split, strip_solid first_solid solid ends, ← split]
    exact lastWord_append m.name_whole
  rw [body] at stripped
  rw [parseLine_decimal stripped, skipped, info]
  cases s.previousLineWasMarker <;> cases recordNamed "struct " m.text <;>
    cases recordNamed "union " m.text <;> cases s.currentStruct <;>
    by_cases direct : m.level = 1 <;> simp [direct, word]

/-- The size is that of the current struct, if there is one. -/
def setCurrentSize (s : LayoutParser) (size align : Nat) : LayoutParser :=
  match s.currentStruct with
  | some name => s.setSize name size align
  | none => s

/-- A line without an offset, with a size. -/
theorem parseLine_size {size align : Nat} {last : Char} (found : sizeMatch ('|' :: line) = some (size, align))
    (ends : ('|' :: line).getLast? = some last) (solid : isSpace last = false) :
    s.parseLine (Text.line 11 ('|' :: line)) = (.other, s.setCurrentSize size align) := by
  unfold setCurrentSize
  rw [parseLine_of_none (strip_line 11 rfl solid ends) (literal_of_head rfl (by decide))
    behindOffset_bar]
  cases s.currentStruct with
  | none => rfl
  | some name =>
    simp [parseBody, parseField, parseSize, fieldMatch_of_behindOffset behindOffset_bar, found]

/-- The lines behind the members give the size. -/
theorem parseLines_sizeLines {b : RecordBlock} :
    s.parseLines b.sizeLines =
      (b.sizeLines.map fun _ => .other, s.setCurrentSize b.size b.align) := by
  unfold RecordBlock.sizeLines
  cases b.cxx with
  | none =>
    obtain ⟨line, spelled, sized, ends⟩ : ∃ line, "| [sizeof=".toList ++ decimal b.size ++
        ", align=".toList ++ decimal b.align ++ "]".toList = '|' :: line ∧
        sizeMatch ('|' :: line) = some (b.size, b.align) ∧ ('|' :: line).getLast? = some ']' :=
      ⟨_, by simp, sizeMatch_c, by simp [List.getLast?_cons]⟩
    rw [spelled]
    simp only [parseLines, parseLine_size sized ends rfl]
    rfl
  | some cxx =>
    obtain ⟨line, spelled, sized, ends⟩ : ∃ line, "| [sizeof=".toList ++ decimal b.size ++
        ", dsize=".toList ++ decimal cxx.dsize ++ ", align=".toList ++ decimal b.align ++
        ",".toList = '|' :: line ∧
        sizeMatch ('|' :: line) = some (b.size, b.align) ∧ ('|' :: line).getLast? = some ',' :=
      ⟨_, by simp, sizeMatch_cxx cxx.dsize, by simp [List.getLast?_cons]⟩
    obtain ⟨nv, spelled_nv, unsized, ends_nv⟩ : ∃ nv, "|  nvsize=".toList ++ decimal cxx.nvsize ++
        ", nvalign=".toList ++ decimal cxx.nvalign ++ "]".toList = '|' :: nv ∧
        sizeMatch ('|' :: nv) = none ∧ ('|' :: nv).getLast? = some ']' :=
      ⟨' ' :: ' ' :: 'n' :: ("vsize=".toList ++ decimal cxx.nvsize ++ ", nvalign=".toList ++
        decimal cxx.nvalign ++ "]".toList), by simp, sizeMatch_nv, by simp [List.getLast?_cons]⟩
    have unused : ∀ t : LayoutParser, t.parseLine (Text.line 11 ('|' :: nv)) = (.other, t) :=
      fun t => parseLine_unused (strip_line 11 rfl rfl ends_nv) (literal_of_head rfl (by decide))
        behindOffset_bar unsized
    simp only [spelled, spelled_nv, parseLines, parseLine_size sized ends rfl, unused]
    rfl

end LayoutParser
end Cppgres.Abi
