import Cppgres.Trees.Linked
import Mathlib.Data.List.DropRight

/-!
# The debugger's view of the memory contexts

The command `memory_contexts` of `lldb.py`: a line for each memory context below
`TopMemoryContext`, by a function that calls itself for the first child and for the next sibling
of a context. Python lets only so many of these calls be active, and raises `RecursionError`
beyond.
-/
namespace Cppgres
open Trees

/-- `MemoryContextData`, as the debugger has it: a field that is not valid is `none`, and so is the
summary of a null string. -/
structure ContextData where
  name : Option (Option String)
  ident : Option (Option String)
  firstchild : Option Nat
  nextchild : Option Nat
  deriving DecidableEq, Repr

/-- What the debugger has of a process. `top_context_var` has its text and its value. -/
structure Debugged where
  validTarget : Bool
  validProcess : Bool
  topContextVar : Option (String × Nat)
  currentContextVar : Option Nat
  contextAt : Nat → ContextData

/-- The lines that were printed, and whether an exception ended the command. -/
structure PrintedLines where
  lines : List String
  finished : Bool
  deriving DecidableEq, Repr

/-! ## A line -/

def quotationMark : Char := Char.ofNat 34

/-- `text.strip('"')` -/
def stripQuotes (text : String) : String :=
  String.ofList ((text.toList.dropWhile (· == quotationMark)).rdropWhile (· == quotationMark))

/-- `f"{n:x}"` -/
def hex (n : Nat) : String := String.ofList (Nat.toDigits 16 n)

namespace ContextData

def nameText (context : ContextData) : String :=
  match context.name with
  | none => "<no name field>"
  | some none => "<unnamed>"
  | some (some summary) => if summary = "" then "<unnamed>" else stripQuotes summary

/-- The summary of the field is fetched, and the name is taken in its place. -/
def identText (context : ContextData) : String :=
  let name := context.nameText
  let ident :=
    match context.ident with
    | none => "<no name field>"
    | some _ => if name = "" then "<undefintified>" else stripQuotes name
  if ident = name then "" else "<" ++ ident ++ ">"

end ContextData

def contextLine (currentContextAddr indent contextAddr : Nat) (context : ContextData) : String :=
  let marker := if contextAddr = currentContextAddr then " *" else ""
  String.ofList (List.replicate (2 * indent) ' ') ++ context.nameText ++ " " ++
    context.identText ++ " (0x" ++ hex contextAddr ++ ")" ++ marker

/-! ## The command -/

/-- The links of a context: a field that is not valid is as a null pointer. -/
def Debugged.node (process : Debugged) (contextAddr : Nat) : Node ContextData :=
  let context := process.contextAt contextAddr
  ⟨context, context.firstchild.getD 0, context.nextchild.getD 0⟩

def PrintedLines.andThen (first second : PrintedLines) : PrintedLines :=
  if first.finished then ⟨first.lines ++ second.lines, second.finished⟩ else first

section Command
variable (process : Debugged)

def currentContextAddr : Nat := process.currentContextVar.getD 0

/-- `print_context_tree`, where `frames` of its calls can be active. -/
def printContextTree : Nat → Nat → Nat → PrintedLines
  | 0, _, _ => ⟨[], false⟩
  | frames + 1, contextAddr, indent =>
    if contextAddr = 0 then ⟨[], true⟩
    else
      let context := process.contextAt contextAddr
      let children : PrintedLines :=
        match context.firstchild with
        | some childAddr =>
          if childAddr ≠ 0 then printContextTree frames childAddr (indent + 1) else ⟨[], true⟩
        | none => ⟨[], true⟩
      let siblings : PrintedLines :=
        match context.nextchild with
        | some siblingAddr =>
          if siblingAddr ≠ 0 then printContextTree frames siblingAddr indent else ⟨[], true⟩
        | none => ⟨[], true⟩
      PrintedLines.andThen ⟨[contextLine (currentContextAddr process) indent contextAddr context], true⟩
        (children.andThen siblings)

/-- What is printed before the contexts. -/
def heading (topContextVar : String × Nat) : List String :=
  ["Found TopMemoryContext variable: " ++ topContextVar.1,
    match process.currentContextVar with
    | some addr => "CurrentMemoryContext: 0x" ++ hex addr
    | none => "CurrentMemoryContext not found",
    "TopMemoryContext address: 0x" ++ hex topContextVar.2]

def hierarchyHeading : List String :=
  ["Memory Context Hierarchy:", String.ofList (List.replicate 50 '=')]

def legend : String := "\n* = Current Memory Context"

/-- `print_memory_contexts` -/
def printMemoryContexts (frames : Nat) : PrintedLines :=
  if process.validTarget = false then ⟨["No valid target"], true⟩
  else if process.validProcess = false then ⟨["No valid process"], true⟩
  else
    match process.topContextVar with
    | none => ⟨["TopMemoryContext not found - is this a Postgres process?"], true⟩
    | some topContextVar =>
      let begun := heading process topContextVar
      if topContextVar.2 = 0 then ⟨begun ++ ["TopMemoryContext is NULL"], true⟩
      else
        PrintedLines.andThen ⟨begun ++ hierarchyHeading, true⟩
          ((printContextTree process frames topContextVar.2 0).andThen ⟨[legend], true⟩)

end Command

/-! ## What is printed -/

/-- The line of a context at its depth and address. -/
def Debugged.line (process : Debugged) (entry : Nat × Nat × ContextData) : String :=
  contextLine (currentContextAddr process) entry.1 entry.2.1 entry.2.2

/-- The lines of a walk. -/
def Debugged.printed (process : Debugged) (walked : Walked ContextData) : PrintedLines :=
  ⟨walked.items.map process.line, walked.finished⟩

section Lines
variable {process : Debugged} {frames contextAddr indent : Nat}

theorem printed_andThen (first second : Walked ContextData) :
    process.printed (first.andThen second) =
      (process.printed first).andThen (process.printed second) := by
  obtain ⟨items, finished⟩ := first
  cases finished with
  | true =>
    change (⟨(items ++ second.items).map process.line, second.finished⟩ : PrintedLines) = _
    rw [List.map_append]
    rfl
  | false => rfl

theorem printed_link {link : Option Nat}
    (each : ∀ addr, addr ≠ 0 → printContextTree process frames addr indent =
      process.printed (follow process.node frames addr indent)) :
    (match link with
      | some addr => if addr ≠ 0 then printContextTree process frames addr indent else ⟨[], true⟩
      | none => ⟨[], true⟩ : PrintedLines) =
      process.printed (follow process.node frames (link.getD 0) indent) := by
  cases link with
  | none => rfl
  | some addr =>
    by_cases null : addr = 0
    · subst null
      rfl
    · rw [Option.getD_some, ← each addr null]
      exact if_pos null

/-- The function is the walk over the links, with a line for each item. -/
theorem printContextTree_eq (some_ : contextAddr ≠ 0) :
    printContextTree process frames contextAddr indent =
      process.printed (follow process.node frames contextAddr indent) := by
  induction frames generalizing contextAddr indent with
  | zero =>
    unfold follow
    rw [if_neg some_]
    rfl
  | succ frames ih =>
    unfold printContextTree
    rw [if_neg some_, follow_succ some_]
    dsimp only
    rw [printed_link fun addr here => ih here, printed_link fun addr here => ih here,
      ← printed_andThen]
    rfl

/-- What was stripped stays as it is. -/
theorem stripQuotes_stripQuotes (text : String) :
    stripQuotes (stripQuotes text) = stripQuotes text := by
  unfold stripQuotes
  rw [String.toList_ofList]
  obtain ⟨chars, same⟩ : ∃ chars, chars = text.toList.dropWhile (· == quotationMark) := ⟨_, rfl⟩
  have first : chars.dropWhile (· == quotationMark) = chars := by
    rw [same, List.dropWhile_idempotent]
  have front : (chars.rdropWhile (· == quotationMark)).dropWhile (· == quotationMark) =
      chars.rdropWhile (· == quotationMark) := by
    rw [List.dropWhile_eq_self_iff] at first ⊢
    intro some_
    have begins := List.rdropWhile_prefix (· == quotationMark) (l := chars)
    have longer := begins.length_le
    rw [begins.getElem some_]
    exact first (by omega)
  rw [← same, front, List.rdropWhile_idempotent]

/-- Where the field is there and the context has a name, its ident is not printed. -/
theorem identText_eq_empty {context : ContextData} {summary : Option String}
    (field : context.ident = some summary) (named : context.nameText ≠ "") :
    context.identText = "" := by
  have stripped : stripQuotes context.nameText = context.nameText := by
    unfold ContextData.nameText
    split
    · rfl
    · rfl
    · split
      · rfl
      · exact stripQuotes_stripQuotes _
  unfold ContextData.identText
  rw [field]
  dsimp only
  rw [if_neg named, stripped, if_pos rfl]

end Lines

/-! ## The whole command -/

section Whole
variable {process : Debugged} {topContextVar : String × Nat} {frames : Nat}

/-- The command comes to the tree. -/
structure Debugged.Reaches (process : Debugged) (topContextVar : String × Nat) : Prop where
  target : process.validTarget = true
  valid : process.validProcess = true
  found : process.topContextVar = some topContextVar
  notNull : topContextVar.2 ≠ 0

theorem printMemoryContexts_eq (reaches : process.Reaches topContextVar) :
    printMemoryContexts process frames =
      PrintedLines.andThen ⟨heading process topContextVar ++ hierarchyHeading, true⟩
        ((process.printed (follow process.node frames topContextVar.2 0)).andThen
          ⟨[legend], true⟩) := by
  unfold printMemoryContexts
  rw [if_neg (by simp [reaches.target]), if_neg (by simp [reaches.valid]), reaches.found]
  dsimp only
  rw [if_neg reaches.notNull, printContextTree_eq reaches.notNull]

theorem finished_printMemoryContexts (reaches : process.Reaches topContextVar) :
    (printMemoryContexts process frames).finished =
      (follow process.node frames topContextVar.2 0).finished := by
  rw [printMemoryContexts_eq reaches]
  unfold Debugged.printed PrintedLines.andThen
  cases (follow process.node frames topContextVar.2 0).finished <;> rfl

/-- A walk that stops ends the command. -/
theorem lines_of_stopped (reaches : process.Reaches topContextVar)
    (stopped : (follow process.node frames topContextVar.2 0).finished = false) :
    (printMemoryContexts process frames).lines =
      heading process topContextVar ++ hierarchyHeading ++
        (follow process.node frames topContextVar.2 0).items.map process.line := by
  rw [printMemoryContexts_eq reaches]
  unfold Debugged.printed PrintedLines.andThen
  rw [stopped]
  rfl

/-- The command prints a line for each memory context, parents first, with the indentation of its
depth, if there is no cycle among the contexts and Python has frames for the longest way along first
children and next siblings; otherwise it fails. Without a cycle it does so after a part of these
lines; with one, after as many lines as there are frames or more, a beginning of what the links
unfold to. Where each context is linked once, no context has two lines, and a line with a name never
shows an ident. -/
theorem printMemoryContexts_exact (reaches : process.Reaches topContextVar) (frames : Nat) :
    ((printMemoryContexts process frames).finished = true ↔
      ∃ forest, Holds process.node topContextVar.2 forest ∧ forest.height ≤ frames) ∧
    (∀ forest, Holds process.node topContextVar.2 forest →
      (forest.height ≤ frames → (printMemoryContexts process frames).lines =
        heading process topContextVar ++ hierarchyHeading ++
          ((forest.preorder 0).map process.line ++ [legend])) ∧
      (frames < forest.height → ∃ printed, printed <+: forest.preorder 0 ∧
        (printMemoryContexts process frames).lines =
          heading process topContextVar ++ hierarchyHeading ++ printed.map process.line) ∧
      (∀ back, LinkedOnce process.node forest.pointers back →
        ((forest.preorder 0).map fun entry => entry.2.1).Nodup)) ∧
    ((¬ ∃ forest, Holds process.node topContextVar.2 forest) → ∃ printed,
      frames ≤ printed.length ∧
      (∀ deep, frames ≤ deep →
        printed <+: (unfolding process.node deep topContextVar.2).preorder 0) ∧
      (printMemoryContexts process frames).lines =
        heading process topContextVar ++ hierarchyHeading ++ printed.map process.line) ∧
    ∀ entry : Nat × Nat × ContextData, entry.2.2.ident.isSome = true →
      entry.2.2.nameText ≠ "" → process.line entry =
        String.ofList (List.replicate (2 * entry.1) ' ') ++ entry.2.2.nameText ++ " " ++
          " (0x" ++ hex entry.2.1 ++ ")" ++
          (if entry.2.1 = currentContextAddr process then " *" else "") := by
  refine ⟨?_, ?_, ?_, ?_⟩
  · rw [finished_printMemoryContexts reaches]
    constructor
    · intro finished
      obtain ⟨forest, holds⟩ := holds_of_follow_finished finished
      exact ⟨forest, holds, holds.follow_finished_iff.mp finished⟩
    · rintro ⟨forest, holds, fits⟩
      exact holds.follow_finished_iff.mpr fits
  · intro forest holds
    obtain ⟨begins, whole⟩ : (follow process.node frames topContextVar.2 0).items <+:
          forest.preorder 0 ∧
        ((follow process.node frames topContextVar.2 0).finished = true →
          (follow process.node frames topContextVar.2 0).items = forest.preorder 0) :=
      holds.follow_mono
    refine ⟨fun fits => ?_, fun few => ?_, fun back once => ?_⟩
    · have finished : (follow process.node frames topContextVar.2 0).finished = true :=
        holds.follow_finished_iff.mpr fits
      rw [printMemoryContexts_eq reaches]
      unfold Debugged.printed PrintedLines.andThen
      rw [finished, whole finished]
      rfl
    · have stopped : (follow process.node frames topContextVar.2 0).finished = false := by
        rw [Bool.eq_false_iff, ne_eq, holds.follow_finished_iff]
        omega
      exact ⟨_, begins, lines_of_stopped reaches stopped⟩
    · rw [Forest.map_preorder]
      exact holds.nodup once
  · intro cyclic
    have stopped : (follow process.node frames topContextVar.2 0).finished = false :=
      Bool.eq_false_iff.mpr fun finished => cyclic (holds_of_follow_finished finished)
    exact ⟨_, le_length_of_stopped stopped, fun deep few => (follow_mono few).1,
      lines_of_stopped reaches stopped⟩
  · intro entry field named
    obtain ⟨summary, there⟩ := Option.isSome_iff_exists.mp field
    unfold Debugged.line contextLine
    rw [identText_eq_empty there named, String.append_empty]

end Whole

/-- `TopMemoryContext` with two children, of which the second is the current context. -/
def threeContexts : Debugged where
  validTarget := true
  validProcess := true
  topContextVar := some ("(MemoryContext) TopMemoryContext = 0x10", 16)
  currentContextVar := some 48
  contextAt
    | 16 => ⟨some (some "\"TopMemoryContext\""), some none, some 32, some 0⟩
    | 32 => ⟨some (some "\"CacheMemoryContext\""), some none, some 0, some 48⟩
    | _ => ⟨some (some "\"MessageContext\""), some (some "\"select 1\""), some 0, some 0⟩

/-- Two frames are not enough for a child and its sibling. -/
theorem threeContexts_printed :
    (printMemoryContexts threeContexts 2).finished = false ∧
      (printMemoryContexts threeContexts 3).finished = true := by
  have reaches : threeContexts.Reaches ("(MemoryContext) TopMemoryContext = 0x10", 16) :=
    ⟨rfl, rfl, rfl, by decide⟩
  let forest : Forest ContextData :=
    .node 16 (threeContexts.contextAt 16)
      (.node 32 (threeContexts.contextAt 32) .nil (.node 48 (threeContexts.contextAt 48) .nil .nil))
      .nil
  have holds : Holds threeContexts.node 16 forest := by
    refine ⟨by decide, rfl, rfl, ⟨by decide, rfl, rfl, rfl, ?_⟩, rfl⟩
    exact ⟨by decide, rfl, rfl, rfl, rfl⟩
  constructor
  · rw [Bool.eq_false_iff, ne_eq, (printMemoryContexts_exact reaches 2).1]
    rintro ⟨other, held, fits⟩
    rw [← holds.unique held] at fits
    exact absurd fits (by decide)
  · exact (printMemoryContexts_exact reaches 3).1.mpr ⟨forest, holds, by decide⟩

end Cppgres
