import Cppgres.Text.Scanning
import Mathlib.Data.List.AList

/-!
# Record layouts, parsed and compared

`abi_layout.py` reads what Clang prints of the layouts of records, line by line, and `check_abi.py`
compares what it makes of the C headers with what it makes of the C++ ones. Between the two the
layouts are stored as JSON, which keeps them as they are.
-/
namespace Cppgres.Abi
open Text

/-- An element of `fields`. -/
structure LayoutField where
  offset : Nat
  type : List Char
  deriving DecidableEq, Repr

/-- A value of `structs`. -/
structure StructLayout where
  fields : List LayoutField
  size : Option Nat
  align : Option Nat
  deriving DecidableEq, Repr

/-- The variables of `parse_clang_layout`. -/
structure LayoutParser where
  structs : AList fun _ : List Char => StructLayout
  currentStruct : Option (List Char)
  previousLineWasMarker : Bool

/-- What a line is used for, which the source does not keep: to make an entry of `structs`, as a field
of the entry made last, or for neither. -/
inductive LineUse where
  | entry | field | other
  deriving DecidableEq, Repr

/-! ## The patterns -/

/-- `^\s*(\d+)\s*\|` -/
def behindOffset (line : List Char) : Option (Nat × List Char) := do
  let (offset, rest) ← number (skipSpaces line)
  let rest ← literal "|" (skipSpaces rest)
  some (offset, rest)

/-- `struct (.+)`, for one keyword or another. -/
def recordNamed (keyword : String) (text : List Char) : Option (List Char) :=
  (literal keyword text).filter (· ≠ [])

/-- `^\s*\d+\s*\|\s*struct (.+)` -/
def recordMatch (keyword : String) (line : List Char) : Option (List Char) := do
  let (_, rest) ← behindOffset line
  recordNamed keyword (skipSpaces rest)

/-- `\s\s\s([^\s].+)` -/
def fieldInfo : List Char → Option (List Char)
  | a :: b :: c :: first :: second :: rest =>
    if isSpace a && isSpace b && isSpace c && !isSpace first then some (first :: second :: rest)
    else none
  | _ => none

/-- `field_pattern` -/
def fieldMatch (line : List Char) : Option (Nat × List Char) := do
  let (offset, rest) ← behindOffset line
  let info ← fieldInfo rest
  some (offset, info)

/-- `\s*dsize=\d+,` -/
def dsizeMatch (line : List Char) : Option (List Char) := do
  let rest ← literal "dsize=" (skipSpaces line)
  let (_, rest) ← number rest
  literal "," rest

/-- `size_pattern` -/
def sizeMatch (line : List Char) : Option (Nat × Nat) := do
  let line := skipSpaces line
  let rest ← literal "[" (skipSpaces ((literal "|" line).getD line))
  let rest ← literal "sizeof=" (skipSpaces rest)
  let (size, rest) ← number rest
  let rest ← literal "," rest
  let rest ← literal "align=" (skipSpaces ((dsizeMatch rest).getD rest))
  let (align, _) ← number rest
  some (size, align)

/-! ## The parser -/

namespace LayoutParser

def start : LayoutParser := ⟨∅, none, false⟩

section Lines
variable (s : LayoutParser)

/-- `current_struct.startswith("(unnamed")` -/
def isUnnamed (name : List Char) : Bool := (literal "(unnamed" name).isSome

/-- `del structs[current_struct]`, for an unnamed one. -/
def cleanup : AList fun _ : List Char => StructLayout :=
  match s.currentStruct with
  | some name => if isUnnamed name then s.structs.erase name else s.structs
  | none => s.structs

/-- `structs[current_struct]`, changed. The current struct always has an entry. -/
def change (name : List Char) (f : StructLayout → StructLayout) : LayoutParser :=
  match s.structs.lookup name with
  | some layout => { s with structs := s.structs.insert name (f layout) }
  | none => s

/-- `structs[current_struct]["fields"].append(...)` -/
def appendField (name : List Char) (field : LayoutField) : LayoutParser :=
  s.change name fun layout => { layout with fields := layout.fields ++ [field] }

def setSize (name : List Char) (size align : Nat) : LayoutParser :=
  s.change name fun layout => { layout with size := some size, align := some align }

/-- `# Match field declaration` -/
def parseField (name line : List Char) : LineUse × LayoutParser :=
  match fieldMatch line with
  | some (offset, info) => (.field, s.appendField name ⟨offset, lastWord (strip info)⟩)
  | none => (.other, s)

/-- `# Match struct size and alignment` -/
def parseSize (name line : List Char) : LayoutParser :=
  match sizeMatch line with
  | some (size, align) => s.setSize name size align
  | none => s

/-- A line while there is a current struct. -/
def parseBody (name line : List Char) : LineUse × LayoutParser :=
  let (use, t) := s.parseField name line
  (use, t.parseSize name line)

def parseLine (text : List Char) : LineUse × LayoutParser :=
  let line := strip text
  if (literal "*** Dumping AST Record Layout" line).isSome then
    (.other, { s with previousLineWasMarker := true })
  else
    match s.previousLineWasMarker, recordMatch "struct " line, recordMatch "union " line with
    | true, some name, _ => (.entry, ⟨s.cleanup.insert name ⟨[], none, none⟩, some name, false⟩)
    | true, none, some _ => (.other, { s with structs := s.cleanup, currentStruct := none })
    | _, _, _ =>
      match s.currentStruct with
      | some name => s.parseBody name line
      | none => (.other, s)

end Lines

/-- The loop over the lines of the file. -/
def parseLines : LayoutParser → List (List Char) → List LineUse × LayoutParser
  | s, [] => ([], s)
  | s, line :: lines =>
    let (use, t) := s.parseLine line
    let (uses, last) := t.parseLines lines
    (use :: uses, last)

end LayoutParser

def parseClangLayout (file : List (List Char)) : AList fun _ : List Char => StructLayout :=
  (LayoutParser.start.parseLines file).2.structs

/-! ## The comparison -/

inductive LayoutError where
  | structMissing (struct : List Char)
  | sizeMismatch (struct : List Char) (c cxx : Option Nat)
  | fieldMissing (struct field : List Char)
  | offsetMismatch (struct field : List Char) (c cxx : Nat)
  deriving DecidableEq, Repr

/-- How Python prints a size. -/
def printSize : Option Nat → String
  | some size => toString size
  | none => "None"

def LayoutError.message : LayoutError → String
  | .structMissing struct =>
    "❌ struct " ++ String.ofList struct ++ " is missing in the C++ version!"
  | .sizeMismatch struct c cxx =>
    "❌ struct " ++ String.ofList struct ++ ": Size mismatch (C: " ++ printSize c ++
      " bytes, C++: " ++ printSize cxx ++ " bytes)"
  | .fieldMissing struct field =>
    "❌ struct " ++ String.ofList struct ++ ": Field '" ++ String.ofList field ++
      "' is missing in C++ version!"
  | .offsetMismatch struct field c cxx =>
    "❌ Struct " ++ String.ofList struct ++ ": Field '" ++ String.ofList field ++
      "' offset mismatch (C: " ++ toString c ++ ", C++: " ++ toString cxx ++ ")"

def structIgnoreList : List (List Char) := ["exception".toList]

def isIgnored (name : List Char) : Bool :=
  structIgnoreList.contains name || (literal "__" name).isSome

/-- `{field["type"]: field["offset"] for field in ...}` -/
def fieldOffsets (fields : List LayoutField) : AList fun _ : List Char => Nat :=
  fields.foldl (fun offsets field => offsets.insert field.type field.offset) ∅

def compareStruct (name : List Char) (old new : StructLayout) : List LayoutError :=
  (if old.size ≠ new.size then [.sizeMismatch name old.size new.size] else []) ++
    (fieldOffsets old.fields).entries.flatMap fun field =>
      match (fieldOffsets new.fields).lookup field.1 with
      | none => [.fieldMissing name field.1]
      | some offset =>
        if offset ≠ field.2 then [.offsetMismatch name field.1 field.2 offset] else []

/-- The errors, though not in the order in which the source goes through the dictionaries. -/
def compareStructLayouts (old new : AList fun _ : List Char => StructLayout) : List LayoutError :=
  old.entries.flatMap fun struct =>
    if isIgnored struct.1 then []
    else match new.lookup struct.1 with
      | none => [.structMissing struct.1]
      | some layout => compareStruct struct.1 struct.2 layout

end Cppgres.Abi
