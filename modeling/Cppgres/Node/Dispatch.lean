import Mathlib.Logic.Basic

/-!
# Visiting a node

The overloads of `visit_node`: by the static type of a pointer, or by the tag that is found in
the node, through a switch that the preprocessor makes of a table.
-/
namespace Cppgres

/-- `NodeTag`: the tags that the walkers tell apart, and all others. -/
inductive NodeTag (τ : Type) where
  | list
  | rawStmt
  | other (tag : τ)
  deriving DecidableEq, Repr

/-- `T_List` and `T_RawStmt` are in the table. -/
def NodeTag.isListed {τ : Type} (listed : τ → Bool) : NodeTag τ → Bool
  | .list => true
  | .rawStmt => true
  | .other tag => listed tag

/-- `node_dispatch_table.hpp` and `node_mapping_table.hpp`, which have the same entries, as the
version of Postgres selects them. `structOf` is the struct of the nodes with a tag: that of
`T_IntList` is `List`, and that of `T_DistinctExpr` is `OpExpr`. A struct is covered if a tag of
the table has it; `List` and `RawStmt` are those of one such tag each. -/
structure NodeTable (τ κ : Type) where
  listed : τ → Bool
  structOf : NodeTag τ → κ
  covered : κ → Bool
  covered_iff : ∀ name, covered name = true ↔
    ∃ tag : NodeTag τ, tag.isListed listed = true ∧ structOf tag = name
  walkers : ∀ tag, listed tag = true →
    structOf (.other tag) ≠ structOf .list ∧ structOf (.other tag) ≠ structOf .rawStmt

/-- The argument of a visitor: the wrapper `nodes::name` of a struct, or `nodes::unknown_node`. -/
inductive NodeCall (κ : Type) where
  | wrapper (name : κ)
  | unknownNode
  deriving DecidableEq, Repr

/-- The static type of the argument of `visit_node`: `void *` or `Node *`, a pointer to another
struct, or a wrapper. -/
inductive NodeView (κ : Type) where
  | pointer
  | struct (name : κ)
  | value (name : κ)
  deriving DecidableEq, Repr

/-- What ends a visit before its time: an exception, or the read of the tag of a null pointer,
which has no meaning. -/
inductive VisitStop where
  | thrown (what : String)
  | nullTag
  deriving DecidableEq, Repr

/-- What visits did so far, and what stopped them. -/
structure Visits (β : Type) where
  log : List β
  stop : Option VisitStop
  deriving DecidableEq, Repr

namespace Visits
variable {β : Type}

def nothing : Visits β := ⟨[], none⟩

def stopped (stop : VisitStop) : Visits β := ⟨[], some stop⟩

def andThen (first second : Visits β) : Visits β :=
  match first.stop with
  | some _ => first
  | none => ⟨first.log ++ second.log, second.stop⟩

@[simp] theorem nothing_andThen (visits : Visits β) : nothing.andThen visits = visits := rfl

theorem andThen_of_none {first second : Visits β} (free : first.stop = none) :
    first.andThen second = ⟨first.log ++ second.log, second.stop⟩ := by
  unfold andThen
  rw [free]

theorem mem_andThen {first second : Visits β} {entry : β} (listed : entry ∈ (first.andThen second).log) :
    entry ∈ first.log ∨ entry ∈ second.log := by
  unfold andThen at listed
  cases stopped : first.stop with
  | some stop =>
    rw [stopped] at listed
    exact .inl listed
  | none =>
    rw [stopped] at listed
    exact List.mem_append.mp listed

theorem stop_andThen_eq_none {first second : Visits β} :
    (first.andThen second).stop = none ↔ first.stop = none ∧ second.stop = none := by
  unfold andThen
  cases stopped : first.stop with
  | some stop => simp [stopped]
  | none => simp

end Visits

/-- A visitor: whether it can be called with `unknown_node`, and what a call does, which may
depend on the calls before. -/
structure NodeVisitor (κ β : Type) where
  acceptsUnknown : Bool
  call : List (NodeCall κ) → NodeCall κ → Visits β

def unknownNodeTag : VisitStop := .thrown "unknown node tag"

section
variable {τ κ β : Type}

def NodeTable.dispatches (table : NodeTable τ κ) (tag : NodeTag τ) : Bool :=
  tag.isListed table.listed

namespace NodeVisitor

section
variable (visitor : NodeVisitor κ β) (table : NodeTable τ κ) (tag : NodeTag τ)

/-- `visit_node(void *, ...)`. The `break` of a case goes on after the switch. -/
def visitPointer : Visits β :=
  let name := NodeCall.wrapper (table.structOf tag)
  let switched := if table.dispatches tag then visitor.call [] name else .nothing
  let before := if table.dispatches tag then [name] else []
  switched.andThen
    (if visitor.acceptsUnknown then visitor.call before .unknownNode else .stopped unknownNodeTag)

/-- The overload that is chosen. -/
def visitNode : NodeView κ → Visits β
  | .pointer => visitor.visitPointer table tag
  | .struct name =>
    if table.covered name then visitor.call [] (.wrapper name) else visitor.visitPointer table tag
  | .value name => visitor.call [] (.wrapper name)

/-- What a visit is to do, whatever the node is viewed as: one call. -/
def once : Visits β :=
  if table.dispatches tag then visitor.call [] (.wrapper (table.structOf tag))
  else if visitor.acceptsUnknown then visitor.call [] .unknownNode
  else .stopped unknownNodeTag

end

/-! ## One call, by the tag of the node -/

/-- A visitor with its calls on record. `throws` is the exception of a call, which may depend on
the calls before. -/
def recorded (acceptsUnknown : Bool) (throws : List (NodeCall κ) → NodeCall κ → Option VisitStop) :
    NodeVisitor κ (NodeCall κ) where
  acceptsUnknown := acceptsUnknown
  call before argument := ⟨[argument], throws before argument⟩

section
variable {acceptsUnknown : Bool} {throws : List (NodeCall κ) → NodeCall κ → Option VisitStop}
  {table : NodeTable τ κ} {tag : NodeTag τ}

/-- The tag is not in the table, or the call for it throws. -/
def SwitchLeaves (throws : List (NodeCall κ) → NodeCall κ → Option VisitStop)
    (table : NodeTable τ κ) (tag : NodeTag τ) : Prop :=
  table.dispatches tag = true → throws [] (.wrapper (table.structOf tag)) ≠ none

/-- A node viewed as a covered struct has a tag in the table, which is one of that struct. -/
def ViewedRight (throws : List (NodeCall κ) → NodeCall κ → Option VisitStop)
    (table : NodeTable τ κ) (tag : NodeTag τ) : NodeView κ → Prop
  | .pointer => SwitchLeaves throws table tag
  | .struct name =>
    if table.covered name then table.dispatches tag = true ∧ table.structOf tag = name
    else SwitchLeaves throws table tag
  | .value name => table.dispatches tag = true ∧ table.structOf tag = name

theorem visitPointer_once_iff :
    (recorded acceptsUnknown throws).visitPointer table tag =
      (recorded acceptsUnknown throws).once table tag ↔ SwitchLeaves throws table tag := by
  unfold visitPointer once SwitchLeaves
  cases table.dispatches tag with
  | false => simp
  | true =>
    cases thrown : throws [] (.wrapper (table.structOf tag)) with
    | some what => simp [recorded, Visits.andThen, thrown]
    | none => cases acceptsUnknown <;> simp [recorded, Visits.andThen, thrown, Visits.stopped]

theorem call_once_iff {name : κ} :
    (recorded acceptsUnknown throws).call [] (.wrapper name) =
      (recorded acceptsUnknown throws).once table tag ↔
        table.dispatches tag = true ∧ table.structOf tag = name := by
  unfold once
  cases table.dispatches tag with
  | false => cases acceptsUnknown <;> simp [recorded, Visits.stopped]
  | true =>
    constructor
    · intro same
      have wrappers : NodeCall.wrapper name = .wrapper (table.structOf tag) := by
        simpa [recorded] using congrArg Visits.log same
      exact ⟨rfl, (NodeCall.wrapper.inj wrappers).symm⟩
    · rintro ⟨_, same⟩
      rw [if_pos rfl, same]

end

/-- A visit makes one call, with the wrapper of the tag of the node, where the view is right. -/
theorem visitNode_once_iff (acceptsUnknown : Bool)
    (throws : List (NodeCall κ) → NodeCall κ → Option VisitStop) (table : NodeTable τ κ)
    (tag : NodeTag τ) (view : NodeView κ) :
    (recorded acceptsUnknown throws).visitNode table tag view =
      (recorded acceptsUnknown throws).once table tag ↔ ViewedRight throws table tag view := by
  cases view with
  | pointer => exact visitPointer_once_iff
  | value name => exact call_once_iff
  | struct name =>
    unfold visitNode ViewedRight
    dsimp only
    cases table.covered name with
    | true => exact call_once_iff
    | false => exact visitPointer_once_iff

end NodeVisitor
end

/-! ## An excerpt of the table -/

inductive SampleTag where
  | rangeVar | path | indexPath | intList
  deriving DecidableEq, Repr

inductive SampleStruct where
  | list | rawStmt | rangeVar | path | indexPath
  deriving DecidableEq, Repr

def sampleTable : NodeTable SampleTag SampleStruct where
  listed tag := tag ≠ .intList
  structOf
    | .list => .list
    | .rawStmt => .rawStmt
    | .other .rangeVar => .rangeVar
    | .other .path => .path
    | .other .indexPath => .indexPath
    | .other .intList => .list
  covered _ := true
  covered_iff name := by
    refine ⟨fun _ => ?_, fun _ => rfl⟩
    cases name with
    | list => exact ⟨.list, rfl, rfl⟩
    | rawStmt => exact ⟨.rawStmt, rfl, rfl⟩
    | rangeVar => exact ⟨.other .rangeVar, rfl, rfl⟩
    | path => exact ⟨.other .path, rfl, rfl⟩
    | indexPath => exact ⟨.other .indexPath, rfl, rfl⟩
  walkers tag := by cases tag <;> decide

/-- A visitor that throws nothing. -/
def quietVisitor (acceptsUnknown : Bool) : NodeVisitor SampleStruct (NodeCall SampleStruct) :=
  .recorded acceptsUnknown fun _ _ => none

/-- A `RangeVar` as a `Node *`, and an `IndexPath` as a `Path *`. -/
theorem rangeVar_visitedTwice :
    (quietVisitor true).visitNode sampleTable (.other .rangeVar) .pointer =
        ⟨[.wrapper .rangeVar, .unknownNode], none⟩ ∧
      (quietVisitor false).visitNode sampleTable (.other .rangeVar) .pointer =
        ⟨[.wrapper .rangeVar], some unknownNodeTag⟩ ∧
      (quietVisitor true).visitNode sampleTable (.other .indexPath) (.struct .path) =
        ⟨[.wrapper .path], none⟩ ∧
      ∀ acceptsUnknown,
        (quietVisitor acceptsUnknown).visitNode sampleTable (.other .rangeVar) .pointer ≠
          (quietVisitor acceptsUnknown).once sampleTable (.other .rangeVar) := by
  refine ⟨rfl, rfl, rfl, ?_⟩
  intro acceptsUnknown
  cases acceptsUnknown <;> decide

end Cppgres
