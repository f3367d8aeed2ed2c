import Cppgres.Bytes.Chunks
import Cppgres.Node.Dispatch

/-!
# Allocating a node

`node_traits<nodes::name>::allocate` and the default constructor of `nodes::name`, which the macro
`node_mapping` makes for each mapped type. The constructor writes the tag over the beginning of the
value; `allocate` writes it over the beginning of the pointer, which is its own variable. Addresses have
eight bytes, the one of least value first.
-/
namespace Cppgres
open Bytes

/-- The mapped types. `number` are the values of the enumeration. -/
structure NodeTypes (τ κ : Type) where
  table : NodeTable τ κ
  number : NodeTag τ ≃ BitVec 32
  tagOf : κ → NodeTag τ
  size : κ → Nat
  listed : ∀ name, table.covered name = true → (tagOf name).isListed table.listed = true
  structOf_tagOf : ∀ name, table.covered name = true → table.structOf (tagOf name) = name
  sizeof_tag : ∀ name, 4 ≤ size name

variable {τ κ : Type}

/-- A type with a line in the table. -/
structure NodeTypes.Mapped (types : NodeTypes τ κ) where
  name : κ
  covered : types.table.covered name = true

structure NodeBlock where
  context : Nat
  address : BitVec 64
  bytes : Nat
  deriving DecidableEq, Repr

/-- An address that `MemoryContextAlloc` may return. -/
structure NodeAddress (bytes : Nat) where
  address : BitVec 64
  nonnull : address ≠ 0
  aligned : 8 ∣ address.toNat
  fits : address.toNat + bytes ≤ 2 ^ 64

/-- What is in memory is what was there before: blocks are not initialised. -/
structure NodeHeap where
  memory : BitVec 64 → Byte
  blocks : List NodeBlock

namespace NodeHeap
variable (heap : NodeHeap)

/-- `alloc<T>()` -/
def alloc (ctx bytes : Nat) (chosen : NodeAddress bytes) : NodeHeap :=
  { heap with blocks := ⟨ctx, chosen.address, bytes⟩ :: heap.blocks }

def load (address : BitVec 64) (length : Nat) : List Byte :=
  (List.range length).map fun i => heap.memory (address + BitVec.ofNat 64 i)

/-- `nodeTag(node)` -/
def nodeTag (node : BitVec 64) : BitVec 32 := BitVec.ofNat 32 (combine (heap.load node 4))

end NodeHeap

/-- The static type of the argument of `node_traits<M>::is`: `Node *`, the struct's own pointer or
`void *`, or the pointer to the wrapper of a type, from a variable or from an expression. -/
inductive NodeArgument (κ : Type) where
  | pointer
  | wrapperVariable (name : κ)
  | wrapperExpression (name : κ)
  deriving DecidableEq, Repr

namespace NodeTypes
variable [DecidableEq κ] (types : NodeTypes τ κ)

/-- `T_##name` -/
def tag (N : types.Mapped) : BitVec 32 := types.number (types.tagOf N.name)

/-- `node_traits<nodes::M>::is`. A pointer to another wrapper goes to `is(auto &)` if it is a variable
and to `is(void *)` if not. -/
def is (M : types.Mapped) (heap : NodeHeap) (node : BitVec 64) : NodeArgument κ → Bool
  | .pointer => heap.nodeTag node == types.tag M
  | .wrapperVariable name => name == M.name
  | .wrapperExpression name => name == M.name || heap.nodeTag node == types.tag M

/-- `visit_node(void *, ...)`, which a pointer to a wrapper goes to as well. -/
def visit {β : Type} (visitor : NodeVisitor κ β) (heap : NodeHeap) (node : BitVec 64) : Visits β :=
  visitor.visitPointer types.table (types.number.symm (heap.nodeTag node))

/-- `nodes::name()` -/
def construct (N : types.Mapped) : List Byte :=
  Pointer.overwrite (List.replicate (types.size N.name) 0) 0 (split 4 (types.tag N).toNat)

/-- `reinterpret_cast<node_tag &>(ptr) = tag` -/
def overwritePointer (ptr : BitVec 64) (tag : BitVec 32) : BitVec 64 :=
  BitVec.ofNat 64 (combine (Pointer.overwrite (split 8 ptr.toNat) 0 (split 4 tag.toNat)))

/-- `node_traits<nodes::name>::allocate` -/
def allocate (N : types.Mapped) (ctx : Nat) (heap : NodeHeap)
    (chosen : NodeAddress (types.size N.name)) : BitVec 64 × NodeHeap :=
  let heap := heap.alloc ctx (types.size N.name) chosen
  let ptr := overwritePointer chosen.address (types.tag N)
  (ptr, heap)

/-- The block of an allocated node is a node of the type. -/
structure Usable (N : types.Mapped) (ctx : Nat) (block : NodeBlock) (result : BitVec 64 × NodeHeap) :
    Prop where
  allocated : block ∈ result.2.blocks ∧ block.context = ctx ∧ types.size N.name ≤ block.bytes
  address : result.1 = block.address
  tag : result.2.nodeTag result.1 = types.tag N
  is : ∀ (M : types.Mapped) argument,
    argument ∈ [.pointer, .wrapperVariable N.name, .wrapperExpression N.name] →
      (types.is M result.2 result.1 argument = true ↔ M.name = N.name)
  visited : ∀ acceptsUnknown throws,
    (types.visit (.recorded acceptsUnknown throws) result.2 result.1).log.head? =
      some (.wrapper N.name)
  constructed : combine ((types.construct N).take 4) = (result.2.nodeTag result.1).toNat

/-- The address begins with the tag, and the bytes that are in the block too. -/
def BeginsWithTag (N : types.Mapped) (heap : NodeHeap) (address : BitVec 64) : Prop :=
  address.setWidth 32 = types.tag N ∧ heap.nodeTag address = types.tag N

end NodeTypes

/-! ## The bytes of a value -/

section Bytes
variable {types : NodeTypes τ κ} {N M : types.Mapped}

/-- The constructor writes the tag, and zeros behind it. -/
theorem NodeTypes.construct_eq (N : types.Mapped) :
    types.construct N =
      split 4 (types.tag N).toNat ++ List.replicate (types.size N.name - 4) 0 := by
  unfold construct Pointer.overwrite
  simp

theorem NodeTypes.construct_tag (N : types.Mapped) :
    combine ((types.construct N).take 4) = (types.tag N).toNat := by
  have bound := (types.tag N).isLt
  have first : (split 4 (types.tag N).toNat).length = 4 := length_split 4 _
  rw [construct_eq, List.take_left' first]
  exact combine_split_of_lt bound

namespace NodeTypes

/-- Half of the pointer is lost. -/
theorem overwritePointer_toNat (ptr : BitVec 64) (tag : BitVec 32) :
    (overwritePointer ptr tag).toNat = tag.toNat + 2 ^ 32 * (ptr.toNat / 2 ^ 32) := by
  have ptr_bound := ptr.isLt
  have tag_bound := tag.isLt
  have behind : (split 8 ptr.toNat).drop 4 = split 4 (ptr.toNat / 256 ^ 4) := drop_split_add 4 4 _
  have bytes : combine (Pointer.overwrite (split 8 ptr.toNat) 0 (split 4 tag.toNat)) =
      tag.toNat % 256 ^ 4 + 256 ^ 4 * (ptr.toNat / 256 ^ 4 % 256 ^ 4) := by
    unfold Pointer.overwrite
    rw [List.take_zero, List.nil_append, length_split, behind, combine_append, length_split,
      combine_split, combine_split]
  unfold overwritePointer
  rw [bytes, BitVec.toNat_ofNat]
  omega

theorem overwritePointer_eq_iff {ptr : BitVec 64} {tag : BitVec 32} :
    overwritePointer ptr tag = ptr ↔ ptr.setWidth 32 = tag := by
  have written := overwritePointer_toNat ptr tag
  have tag_bound := tag.isLt
  constructor
  · intro same
    apply BitVec.eq_of_toNat_eq
    rw [same] at written
    rw [BitVec.toNat_setWidth]
    omega
  · intro same
    have low : ptr.toNat % 2 ^ 32 = tag.toNat := by rw [← same, BitVec.toNat_setWidth]
    apply BitVec.eq_of_toNat_eq
    rw [written]
    omega

/-! ## Nodes with a tag -/

theorem tag_inj : types.tag M = types.tag N ↔ M.name = N.name := by
  constructor
  · intro same
    have tags : types.tagOf M.name = types.tagOf N.name := types.number.injective same
    rw [← types.structOf_tagOf M.name M.covered, tags, types.structOf_tagOf N.name N.covered]
  · intro same
    unfold tag
    rw [same]

variable [DecidableEq κ] {heap : NodeHeap} {node : BitVec 64}

theorem is_iff (tagged : heap.nodeTag node = types.tag N) {argument : NodeArgument κ}
    (viewed : argument ∈ [.pointer, .wrapperVariable N.name, .wrapperExpression N.name]) :
    types.is M heap node argument = true ↔ M.name = N.name := by
  have read : heap.nodeTag node = types.tag M ↔ M.name = N.name := by
    rw [tagged, eq_comm]
    exact tag_inj
  simp only [List.mem_cons, List.not_mem_nil, or_false] at viewed
  rcases viewed with rfl | rfl | rfl
  · rw [is, beq_iff_eq, read]
  · rw [is, beq_iff_eq, eq_comm]
  · rw [is, Bool.or_eq_true, beq_iff_eq, beq_iff_eq, read, eq_comm, or_self]

omit [DecidableEq κ] in
/-- The first call of a visit, by the tag that is found. -/
theorem visit_head (tagged : heap.nodeTag node = types.tag N) (acceptsUnknown : Bool)
    (throws : List (NodeCall κ) → NodeCall κ → Option VisitStop) :
    (types.visit (.recorded acceptsUnknown throws) heap node).log.head? =
      some (.wrapper N.name) := by
  have found : types.number.symm (heap.nodeTag node) = types.tagOf N.name := by
    rw [tagged]
    exact types.number.symm_apply_apply _
  have dispatched : types.table.dispatches (types.tagOf N.name) = true := types.listed N.name N.covered
  unfold visit NodeVisitor.visitPointer Visits.andThen
  dsimp only
  rw [found, if_pos dispatched, types.structOf_tagOf N.name N.covered]
  dsimp only [NodeVisitor.recorded]
  split <;> rfl

/-- For every mapped type, every context and every address: the allocated node is one of its type if and
only if the address happens to begin with the tag, and so does what is in the block. -/
theorem allocate_usable_iff (types : NodeTypes τ κ) (N : types.Mapped) (ctx : Nat) (heap : NodeHeap)
    (chosen : NodeAddress (types.size N.name)) :
    types.Usable N ctx ⟨ctx, chosen.address, types.size N.name⟩ (types.allocate N ctx heap chosen) ↔
      types.BeginsWithTag N heap chosen.address := by
  have read (address : BitVec 64) :
      (types.allocate N ctx heap chosen).2.nodeTag address = heap.nodeTag address := rfl
  have pointer : (types.allocate N ctx heap chosen).1 =
      overwritePointer chosen.address (types.tag N) := rfl
  constructor
  · intro usable
    have kept : overwritePointer chosen.address (types.tag N) = chosen.address := usable.address
    have tagged := usable.tag
    rw [read, pointer, kept] at tagged
    exact ⟨overwritePointer_eq_iff.mp kept, tagged⟩
  · intro begins
    have kept : (types.allocate N ctx heap chosen).1 = chosen.address :=
      overwritePointer_eq_iff.mpr begins.1
    have tagged : (types.allocate N ctx heap chosen).2.nodeTag
        (types.allocate N ctx heap chosen).1 = types.tag N := by
      rw [read, kept]
      exact begins.2
    constructor
    case allocated => exact ⟨List.mem_cons_self, rfl, Nat.le_refl _⟩
    case address => exact kept
    case tag => exact tagged
    case is => exact fun M argument viewed => is_iff tagged viewed
    case visited => exact visit_head tagged
    case constructed => rw [construct_tag, tagged]

end NodeTypes
end Bytes

/-! ## A table of three types -/

/-- The tags that are neither `T_List` nor `T_RawStmt`. -/
abbrev SampleTagNumber := { number : BitVec 32 // number ≠ 1 ∧ number ≠ 240 }

def sampleTagOf (number : BitVec 32) : NodeTag SampleTagNumber :=
  if list : number = 1 then .list
  else if rawStmt : number = 240 then .rawStmt
  else .other ⟨number, list, rawStmt⟩

def sampleNumber : NodeTag SampleTagNumber ≃ BitVec 32 where
  toFun
    | .list => 1
    | .rawStmt => 240
    | .other tag => tag.val
  invFun := sampleTagOf
  left_inv tag := by
    cases tag with
    | list => rfl
    | rawStmt => rfl
    | other tag =>
      unfold sampleTagOf
      rw [dif_neg tag.property.1, dif_neg tag.property.2]
  right_inv number := by
    unfold sampleTagOf
    by_cases list : number = 1
    · rw [dif_pos list]
      exact list.symm
    · rw [dif_neg list]
      by_cases rawStmt : number = 240
      · rw [dif_pos rawStmt]
        exact rawStmt.symm
      · rw [dif_neg rawStmt]

inductive SampleNode where
  | list | rawStmt | plannedStmt | unmapped
  deriving DecidableEq, Repr

/-- `T_PlannedStmt` -/
def isPlannedStmt (tag : SampleTagNumber) : Bool := tag.val = 326

def sampleNodes : NodeTypes SampleTagNumber SampleNode where
  table :=
    { listed := isPlannedStmt
      structOf
        | .list => .list
        | .rawStmt => .rawStmt
        | .other tag => if isPlannedStmt tag then .plannedStmt else .unmapped
      covered name := name ≠ .unmapped
      covered_iff name := by
        cases name with
        | list => exact iff_of_true rfl ⟨.list, rfl, rfl⟩
        | rawStmt => exact iff_of_true rfl ⟨.rawStmt, rfl, rfl⟩
        | plannedStmt => exact iff_of_true rfl ⟨.other ⟨326, by decide⟩, rfl, rfl⟩
        | unmapped =>
          apply iff_of_false Bool.false_ne_true
          rintro ⟨tag, listed, same⟩
          cases tag with
          | list => cases same
          | rawStmt => cases same
          | other tag =>
            have planned : isPlannedStmt tag = true := listed
            simp [planned] at same
      walkers tag listed := by simp [listed] }
  number := sampleNumber
  tagOf
    | .list => .list
    | .rawStmt => .rawStmt
    | .plannedStmt => .other ⟨326, by decide⟩
    | .unmapped => .list
  size _ := 136
  listed name covered := by
    cases name with
    | list => rfl
    | rawStmt => rfl
    | plannedStmt => rfl
    | unmapped => cases covered
  structOf_tagOf name covered := by
    cases name with
    | list => rfl
    | rawStmt => rfl
    | plannedStmt => rfl
    | unmapped => cases covered
  sizeof_tag _ := by decide

/-- The tag goes into the pointer, and the block stays as it was. -/
theorem plannedStmt_misplaced :
    let chosen : NodeAddress 136 := ⟨0x5581a0b0c8d0, by decide, by decide, by decide⟩
    let result := sampleNodes.allocate ⟨.plannedStmt, rfl⟩ 3 ⟨fun _ => 0, []⟩ chosen
    result.1 = 0x558100000146 ∧ result.2.nodeTag chosen.address = 0 ∧
      ¬ sampleNodes.Usable ⟨.plannedStmt, rfl⟩ 3 ⟨3, chosen.address, 136⟩ result := by
  intro chosen result
  have pointer : result.1 = 0x558100000146 := by decide +kernel
  refine ⟨pointer, by decide +kernel, ?_⟩
  intro usable
  have kept := usable.address
  rw [pointer] at kept
  exact absurd kept (by decide)

end Cppgres
