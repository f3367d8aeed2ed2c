import Cppgres.Abi.LayoutDumps

/-!
# What the parser makes of a record

Each line of a dump is to be used for the record it is printed for. In which dumps that is so, and
what the parser makes of the records of such a dump.
-/
namespace Cppgres.Abi
open Text

/-! ## Lines, and what they are to be used for -/

namespace MemberLine
variable (m : MemberLine)

/-- A member of the record itself that is not a bit-field. -/
def isField : Bool := decide (m.level = 1) && m.bits.isNone

/-- The line looks like the first one of a struct record, or of a union record. -/
def namesStruct : Bool := m.bits.isNone && (recordNamed "struct " m.text).isSome

def namesUnion : Bool := m.bits.isNone && (recordNamed "union " m.text).isSome

def field : LayoutField := ⟨m.offset, m.name⟩

end MemberLine

namespace RecordBlock
variable (b : RecordBlock)

/-- The first line of a struct record makes an entry, and the members of the record are its fields. -/
def uses : List LineUse :=
  .other :: .other :: (if b.kind = .structRecord then .entry else .other) ::
    (b.members.map (fun m => if b.kind = .structRecord ∧ m.level = 1 then .field else .other) ++
      b.sizeLines.map fun _ => .other)

def fields : List LayoutField := (b.members.filter MemberLine.isField).map MemberLine.field

/-- Behind the record there is no current struct unless it is the record. -/
def closes : Bool := decide (b.kind ≠ .classRecord) || b.members.any MemberLine.namesUnion

/-- The record has a struct for a current one behind it, given whether there is one before it. -/
def isCurrent (before : Bool) : Bool :=
  match b.kind with
  | .structRecord => true
  | .unionRecord => false
  | .classRecord => before && !b.members.any MemberLine.namesUnion

end RecordBlock

/-- Every line is used for the record it is printed for, and entries are made for structs only. -/
def Attributed (dump : List RecordBlock) : Prop :=
  (LayoutParser.start.parseLines (dumpLines dump)).1 = dump.flatMap RecordBlock.uses

/-- While the marker is pending, these members are used for nothing: none begins a struct, and there is
no field before the first that begins a union, if there is a current struct. -/
structure Silent (current : Bool) (members : List MemberLine) : Prop where
  noStruct : ∀ m ∈ members, m.namesStruct = false
  noField : current = true →
    ∀ m ∈ members.takeWhile (fun m => !m.namesUnion), m.isField = false

/-- The lines of the record are used as they are to be. -/
def RecordBlock.Clean (current : Bool) (b : RecordBlock) : Prop :=
  match b.kind with
  | .structRecord => ∀ m ∈ b.members, m.level = 1 → m.bits = none
  | .unionRecord => Silent false b.members
  | .classRecord => Silent current b.members

/-- The lines of all records are, given whether a struct is the current one before them. -/
def Separate : Bool → List RecordBlock → Prop
  | _, [] => True
  | current, b :: dump => b.Clean current ∧ Separate (b.isCurrent current) dump

/-! ## What the parser makes of a record -/

namespace LayoutParser
variable {s : LayoutParser}

/-- The parser behind a record whose lines are used as they are to be. -/
def readBlock (s : LayoutParser) (b : RecordBlock) : LayoutParser :=
  match b.kind with
  | .structRecord =>
    ⟨s.cleanup.insert b.name ⟨b.fields, some b.size, some b.align⟩, some b.name, false⟩
  | .unionRecord => ⟨s.cleanup, none, true⟩
  | .classRecord =>
    if b.members.any MemberLine.namesUnion then ⟨s.cleanup, none, true⟩
    else { s with previousLineWasMarker := true }.setCurrentSize b.size b.align

theorem parseLines_append (first second : List (List Char)) :
    s.parseLines (first ++ second) =
      ((s.parseLines first).1 ++ ((s.parseLines first).2.parseLines second).1,
        ((s.parseLines first).2.parseLines second).2) := by
  induction first generalizing s with
  | nil => rfl
  | cons line lines ih => simp [parseLines, ih]

theorem length_parseLines (lines : List (List Char)) : (s.parseLines lines).1.length = lines.length := by
  induction lines generalizing s with
  | nil => rfl
  | cons line lines ih => simp [parseLines, ih]

/-- A member of the current struct. -/
theorem parseLine_current {name : List Char} (marker : s.previousLineWasMarker = false)
    (current : s.currentStruct = some name) (m : MemberLine) :
    s.parseLine m.line =
      if m.isField then (.field, s.appendField name m.field) else (.other, s) := by
  cases bits : m.bits with
  | some range => simp [parseLine_bits bits, MemberLine.isField, bits]
  | none =>
    rw [parseLine_member bits, marker, current]
    by_cases direct : m.level = 1 <;> simp [MemberLine.isField, MemberLine.field, bits, direct]

theorem appendField_insert {structs : AList fun _ : List Char => StructLayout} {name : List Char}
    {layout : StructLayout} {current : Option (List Char)} {marker : Bool} {field : LayoutField} :
    (LayoutParser.mk (structs.insert name layout) current marker).appendField name field =
      ⟨structs.insert name { layout with fields := layout.fields ++ [field] }, current, marker⟩ := by
  simp [appendField, change, AList.lookup_insert, AList.insert_insert]

theorem setSize_insert {structs : AList fun _ : List Char => StructLayout} {name : List Char}
    {layout : StructLayout} {current : Option (List Char)} {marker : Bool} {size align : Nat} :
    (LayoutParser.mk (structs.insert name layout) current marker).setSize name size align =
      ⟨structs.insert name { layout with size := some size, align := some align }, current,
        marker⟩ := by
  simp [setSize, change, AList.lookup_insert, AList.insert_insert]

/-- The members of a struct: the fields among them are appended to its entry. -/
theorem parseLines_struct {structs : AList fun _ : List Char => StructLayout} {name : List Char}
    {layout : StructLayout} (members : List MemberLine) :
    (LayoutParser.mk (structs.insert name layout) (some name) false).parseLines
        (members.map MemberLine.line) =
      (members.map fun m => if m.isField then .field else .other,
        ⟨structs.insert name { layout with
          fields := layout.fields ++ (members.filter MemberLine.isField).map MemberLine.field },
          some name, false⟩) := by
  induction members generalizing layout with
  | nil => simp [parseLines]
  | cons m members ih =>
    rw [List.map_cons, parseLines, parseLine_current rfl rfl]
    cases isField : m.isField with
    | true => simp [appendField_insert, ih, isField]
    | false => simp [ih, isField]

/-- What the pending marker makes of a member, where that is used for nothing. -/
def pass (s : LayoutParser) (m : MemberLine) : LayoutParser :=
  if m.namesUnion then { s with structs := s.cleanup, currentStruct := none } else s

/-- A member while the marker is pending. -/
theorem parseLine_pending (marker : s.previousLineWasMarker = true) (m : MemberLine) :
    ((s.parseLine m.line).1 = .other ↔ m.namesStruct = false ∧
      (m.namesUnion = false → s.currentStruct.isSome → m.isField = false)) ∧
    ((s.parseLine m.line).1 = .other → (s.parseLine m.line).2 = s.pass m) := by
  cases bits : m.bits with
  | some range =>
    simp [parseLine_bits bits, MemberLine.isField, MemberLine.namesStruct, MemberLine.namesUnion,
      pass, bits]
  | none =>
    rw [parseLine_member bits, marker]
    cases struct : recordNamed "struct " m.text <;> cases union : recordNamed "union " m.text <;>
      cases s.currentStruct <;> by_cases direct : m.level = 1 <;>
      simp [MemberLine.isField, MemberLine.namesStruct, MemberLine.namesUnion, pass, bits, struct,
        union, direct, marker]

theorem silent_cons {current : Bool} {m : MemberLine} {members : List MemberLine} :
    Silent current (m :: members) ↔ m.namesStruct = false ∧
      (m.namesUnion = false → current = true → m.isField = false) ∧
      Silent (current && !m.namesUnion) members := by
  constructor
  · intro silent
    refine ⟨silent.noStruct m List.mem_cons_self, fun plain is => ?_,
      fun one listed => silent.noStruct one (List.mem_cons_of_mem _ listed), fun is one listed => ?_⟩
    · exact silent.noField is m (by simp [plain])
    · obtain ⟨is, plain⟩ : current = true ∧ m.namesUnion = false := by simpa using is
      exact silent.noField is one (by simp [plain, listed])
  · intro parts
    obtain ⟨struct, field, silent⟩ := parts
    refine ⟨fun one listed => ?_, fun is one listed => ?_⟩
    · cases List.mem_cons.mp listed with
      | inl same => rwa [same]
      | inr listed => exact silent.noStruct one listed
    · cases plain : m.namesUnion with
      | true => simp [plain] at listed
      | false =>
        rw [List.takeWhile_cons_of_pos (by simp [plain])] at listed
        cases List.mem_cons.mp listed with
        | inl same =>
          rw [same]
          exact field plain is
        | inr listed => exact silent.noField (by simp [is, plain]) one listed

theorem isSome_pass (m : MemberLine) :
    (s.pass m).currentStruct.isSome = (s.currentStruct.isSome && !m.namesUnion) := by
  cases union : m.namesUnion <;> simp [pass, union]

theorem marker_pass (m : MemberLine) :
    (s.pass m).previousLineWasMarker = s.previousLineWasMarker := by
  unfold pass
  split <;> rfl

/-- The members of another record than a struct, behind its marker. -/
theorem parseLines_pending (marker : s.previousLineWasMarker = true) (members : List MemberLine) :
    ((s.parseLines (members.map MemberLine.line)).1 = members.map (fun _ => .other) ↔
      Silent s.currentStruct.isSome members) ∧
    (Silent s.currentStruct.isSome members →
      (s.parseLines (members.map MemberLine.line)).2 = members.foldl pass s) := by
  induction members generalizing s with
  | nil => exact ⟨⟨fun _ => ⟨by simp, by simp⟩, fun _ => rfl⟩, fun _ => rfl⟩
  | cons m members ih =>
    obtain ⟨other_iff, passed⟩ := parseLine_pending marker m
    obtain ⟨silent_iff, folded⟩ := ih (s := s.pass m) (by rw [marker_pass, marker])
    rw [isSome_pass] at silent_iff folded
    rw [silent_cons]
    simp only [List.map_cons, parseLines, List.cons.injEq, List.foldl_cons]
    constructor
    · constructor
      · intro used
        have fine := other_iff.mp used.1
        rw [passed used.1] at used
        exact ⟨fine.1, fine.2, silent_iff.mp used.2⟩
      · intro silent
        have other := other_iff.mpr ⟨silent.1, silent.2.1⟩
        rw [passed other]
        exact ⟨other, silent_iff.mpr silent.2.2⟩
    · intro silent
      rw [passed (other_iff.mpr ⟨silent.1, silent.2.1⟩)]
      exact folded silent.2.2

theorem foldl_pass (members : List MemberLine) :
    members.foldl pass s = if members.any MemberLine.namesUnion then
      { s with structs := s.cleanup, currentStruct := none } else s := by
  induction members generalizing s with
  | nil => rfl
  | cons m members ih =>
    rw [List.foldl_cons, ih]
    cases union : m.namesUnion <;> simp [pass, union, cleanup]

/-- The lines of a record, given what its members do. -/
theorem parseLines_lines (b : RecordBlock) :
    let headed := ({ s with previousLineWasMarker := true } : LayoutParser).parseLine
      (Text.line 9 b.headBody)
    let body := headed.2.parseLines (b.members.map MemberLine.line)
    s.parseLines b.lines = (.other :: .other :: headed.1 ::
      (body.1 ++ b.sizeLines.map fun _ => .other), body.2.setCurrentSize b.size b.align) := by
  simp only [RecordBlock.lines, parseLines, parseLine_blank, parseLine_marker, parseLines_append,
    parseLines_sizeLines]

/-- What is expected of the lines of a record is a matter of its first line and its members. -/
theorem uses_eq_iff {b : RecordBlock} {head : LineUse} {uses : List LineUse} :
    .other :: .other :: head :: (uses ++ b.sizeLines.map fun _ => .other) = b.uses ↔
      head = (if b.kind = .structRecord then .entry else .other) ∧
      uses = b.members.map fun m =>
        if b.kind = .structRecord ∧ m.level = 1 then .field else .other := by
  simp [RecordBlock.uses]

/-- The lines of a struct. -/
theorem parseLines_block_struct {b : RecordBlock} (kind : b.kind = .structRecord) :
    ((s.parseLines b.lines).1 = b.uses ↔ ∀ m ∈ b.members, m.level = 1 → m.bits = none) ∧
      (s.parseLines b.lines).2 =
        ⟨s.cleanup.insert b.name ⟨b.fields, some b.size, some b.align⟩, some b.name, false⟩ := by
  rw [parseLines_lines, parseLine_head rfl]
  simp only [kind, uses_eq_iff, if_true, true_and, parseLines_struct, List.map_inj_left]
  constructor
  · refine forall_congr' fun m => forall_congr' fun _ => ?_
    cases bits : m.bits <;> by_cases direct : m.level = 1 <;>
      simp [MemberLine.isField, bits, direct]
  · simp only [setCurrentSize, setSize_insert, List.nil_append]
    rfl

/-- The lines of another record. -/
theorem parseLines_block_other {b : RecordBlock} {t : LayoutParser} (kind : b.kind ≠ .structRecord)
    (head : ({ s with previousLineWasMarker := true } : LayoutParser).parseLine
      (Text.line 9 b.headBody) = (.other, t)) (marker : t.previousLineWasMarker = true) :
    ((s.parseLines b.lines).1 = b.uses ↔ Silent t.currentStruct.isSome b.members) ∧
      (Silent t.currentStruct.isSome b.members →
        (s.parseLines b.lines).2 = (b.members.foldl pass t).setCurrentSize b.size b.align) := by
  obtain ⟨silent_iff, folded⟩ := parseLines_pending marker b.members
  rw [parseLines_lines, head]
  simp only [kind, uses_eq_iff, if_false, true_and, false_and, silent_iff]
  intro silent
  rw [folded silent]

/-- The lines of a record are used as they are to be if and only if it is clean, and then the parser
makes of it what it is to make. -/
theorem parseLines_block (b : RecordBlock) :
    ((s.parseLines b.lines).1 = b.uses ↔ b.Clean s.currentStruct.isSome) ∧
      (b.Clean s.currentStruct.isSome → (s.parseLines b.lines).2 = s.readBlock b) := by
  have head := parseLine_head (s := { s with previousLineWasMarker := true }) (b := b) rfl
  unfold RecordBlock.Clean readBlock
  cases kind : b.kind with
  | structRecord =>
    obtain ⟨uses_iff, read⟩ := parseLines_block_struct (s := s) kind
    exact ⟨uses_iff, fun _ => read⟩
  | unionRecord =>
    rw [kind] at head
    obtain ⟨uses_iff, read⟩ := parseLines_block_other (by simp [kind]) head rfl
    refine ⟨uses_iff, fun silent => ?_⟩
    rw [read silent, foldl_pass]
    split <;> rfl
  | classRecord =>
    rw [kind] at head
    obtain ⟨uses_iff, read⟩ := parseLines_block_other (by simp [kind]) head rfl
    refine ⟨uses_iff, fun silent => ?_⟩
    rw [read silent, foldl_pass]
    split <;> rfl

theorem isSome_setCurrentSize {size align : Nat} :
    (s.setCurrentSize size align).currentStruct.isSome = s.currentStruct.isSome := by
  unfold setCurrentSize setSize change
  split
  · split <;> rfl
  · rfl

/-- Whether there is a current struct behind a record. -/
theorem isSome_readBlock (b : RecordBlock) :
    (s.readBlock b).currentStruct.isSome = b.isCurrent s.currentStruct.isSome := by
  unfold readBlock RecordBlock.isCurrent
  cases b.kind with
  | structRecord => rfl
  | unionRecord => rfl
  | classRecord =>
    cases union : b.members.any MemberLine.namesUnion with
    | true => simp
    | false => simp [isSome_setCurrentSize]

/-- The lines of a dump are used as they are to be if and only if its records are separate, and then
the parser reads them one by one. -/
theorem parseLines_dump (dump : List RecordBlock) :
    ((s.parseLines (dumpLines dump)).1 = dump.flatMap RecordBlock.uses ↔
      Separate s.currentStruct.isSome dump) ∧
    (Separate s.currentStruct.isSome dump →
      (s.parseLines (dumpLines dump)).2 = dump.foldl readBlock s) := by
  induction dump generalizing s with
  | nil => exact ⟨⟨fun _ => trivial, fun _ => rfl⟩, fun _ => rfl⟩
  | cons b dump ih =>
    obtain ⟨uses_iff, read⟩ := parseLines_block (s := s) b
    obtain ⟨later_iff, folded⟩ := ih (s := s.readBlock b)
    rw [isSome_readBlock] at later_iff folded
    have lengths : (s.parseLines b.lines).1.length = b.uses.length := by
      simp [length_parseLines, RecordBlock.lines, RecordBlock.uses]
    simp only [dumpLines, List.flatMap_cons, parseLines_append, Separate, List.foldl_cons]
    constructor
    · constructor
      · intro used
        obtain ⟨first, rest⟩ := List.append_inj used lengths
        have clean := uses_iff.mp first
        rw [read clean] at rest
        exact ⟨clean, later_iff.mp rest⟩
      · intro separate
        rw [read separate.1, uses_iff.mpr separate.1]
        exact congrArg _ (later_iff.mpr separate.2)
    · intro separate
      rw [read separate.1]
      exact folded separate.2

end LayoutParser

/-- For which dumps every line is used for the record it is printed for. -/
theorem attributed_iff_separate (dump : List RecordBlock) : Attributed dump ↔ Separate false dump :=
  (LayoutParser.parseLines_dump dump).1

/-- What the parse gives for such a dump. -/
theorem parseClangLayout_eq {dump : List RecordBlock} (separate : Separate false dump) :
    parseClangLayout (dumpLines dump) =
      (dump.foldl LayoutParser.readBlock LayoutParser.start).structs := by
  have read : (LayoutParser.start.parseLines (dumpLines dump)).2 =
      dump.foldl LayoutParser.readBlock LayoutParser.start :=
    (LayoutParser.parseLines_dump dump).2 separate
  unfold parseClangLayout
  rw [read]

end Cppgres.Abi
