import Mathlib.Data.List.Nodup

/-!
# Trees of first children and next siblings

Nodes in a memory, each with a pointer to its first child and one to its next sibling, where 0
points to nothing. A walk prints a node, then what is below it, then its siblings, by calling
itself for both pointers, and a call takes one of so many frames. It comes to its end if and only if
the pointer is that of a forest that is not too high. Where the links have a cycle, there is no such
forest, only what they unfold to.
-/
namespace Trees

/-- The trees of a list: the root of the first one, the trees below it, and the trees after it. -/
inductive Forest (α : Type) where
  | nil
  | node (pointer : Nat) (item : α) (children rest : Forest α)
  deriving DecidableEq, Repr

structure Node (α : Type) where
  item : α
  firstChild : Nat
  nextSibling : Nat

/-- What a walk came to: the items with their depths, and whether no frame was missing. -/
structure Walked (α : Type) where
  items : List (Nat × Nat × α)
  finished : Bool
  deriving DecidableEq, Repr

variable {α : Type}

namespace Forest

/-- The items with their depths and pointers, parents first. -/
def preorder (depth : Nat) : Forest α → List (Nat × Nat × α)
  | .nil => []
  | .node pointer item children rest =>
    (depth, pointer, item) :: (children.preorder (depth + 1) ++ rest.preorder depth)

/-- The longest way along children and siblings. -/
def height : Forest α → Nat
  | .nil => 0
  | .node _ _ children rest => max children.height rest.height + 1

def pointers : Forest α → List Nat
  | .nil => []
  | .node pointer _ children rest => pointer :: (children.pointers ++ rest.pointers)

end Forest

namespace Walked

def nothing : Walked α := ⟨[], true⟩

/-- What is done after a part that was finished. -/
def andThen (first second : Walked α) : Walked α :=
  if first.finished then ⟨first.items ++ second.items, second.finished⟩ else first

end Walked

section Memory
variable (memory : Nat → Node α)

def walk : Nat → Nat → Nat → Walked α
  | 0, _, _ => ⟨[], false⟩
  | frames + 1, pointer, depth =>
    let node := memory pointer
    let below := if node.firstChild = 0 then .nothing
      else walk frames node.firstChild (depth + 1)
    let after := if node.nextSibling = 0 then .nothing else walk frames node.nextSibling depth
    Walked.andThen ⟨[(depth, pointer, node.item)], true⟩ (below.andThen after)

/-- The forest is the one at this pointer. -/
def Holds : Nat → Forest α → Prop
  | pointer, .nil => pointer = 0
  | pointer, .node own item children rest =>
    pointer ≠ 0 ∧ own = pointer ∧ (memory pointer).item = item ∧
      Holds (memory pointer).firstChild children ∧ Holds (memory pointer).nextSibling rest

/-- What the links say, with at most so many nodes on a way. -/
def unfolding : Nat → Nat → Forest α
  | 0, _ => .nil
  | deep + 1, pointer =>
    if pointer = 0 then .nil
    else .node pointer (memory pointer).item (unfolding deep (memory pointer).firstChild)
      (unfolding deep (memory pointer).nextSibling)

end Memory

/-! ## The items of a walk -/

section Walks
variable {memory : Nat → Node α} {pointer frames depth : Nat} {forest : Forest α}

/-- A walk for a pointer, where a null one is not followed. -/
def follow (memory : Nat → Node α) (frames pointer depth : Nat) : Walked α :=
  if pointer = 0 then .nothing else walk memory frames pointer depth

theorem follow_succ (some_ : pointer ≠ 0) :
    follow memory (frames + 1) pointer depth =
      let walked := (follow memory frames (memory pointer).firstChild (depth + 1)).andThen
        (follow memory frames (memory pointer).nextSibling depth)
      ⟨(depth, pointer, (memory pointer).item) :: walked.items, walked.finished⟩ := by
  unfold follow
  rw [if_neg some_]
  rfl

theorem unfolding_zero (memory : Nat → Node α) (deep : Nat) : unfolding memory deep 0 = .nil := by
  cases deep <;> rfl

theorem unfolding_succ (deep : Nat) (some_ : pointer ≠ 0) :
    unfolding memory (deep + 1) pointer =
      .node pointer (memory pointer).item (unfolding memory deep (memory pointer).firstChild)
        (unfolding memory deep (memory pointer).nextSibling) := if_neg some_

/-- A walk prints a beginning of what the links unfold to, and all of it if it is finished. -/
theorem follow_mono {deep : Nat} (few : frames ≤ deep) :
    (follow memory frames pointer depth).items <+: (unfolding memory deep pointer).preorder depth ∧
      ((follow memory frames pointer depth).finished = true →
        (follow memory frames pointer depth).items =
          (unfolding memory deep pointer).preorder depth) := by
  induction frames generalizing pointer depth deep with
  | zero =>
    by_cases null : pointer = 0
    · rw [null, unfolding_zero]
      exact ⟨List.prefix_rfl, fun _ => rfl⟩
    · unfold follow
      rw [if_neg null]
      exact ⟨List.nil_prefix, nofun⟩
  | succ frames ih =>
    by_cases null : pointer = 0
    · rw [null, unfolding_zero]
      exact ⟨List.prefix_rfl, fun _ => rfl⟩
    · obtain ⟨less, rfl⟩ : ∃ less, deep = less + 1 := ⟨deep - 1, by omega⟩
      rw [follow_succ null, unfolding_succ less null]
      have first := @ih (memory pointer).firstChild (depth + 1) less (by omega)
      have second := @ih (memory pointer).nextSibling depth less (by omega)
      unfold Walked.andThen Forest.preorder
      split
      · next done =>
        rw [first.2 done]
        refine ⟨?_, fun all => ?_⟩
        · exact List.cons_prefix_cons.mpr ⟨rfl, (List.prefix_append_right_inj _).mpr second.1⟩
        · rw [second.2 all]
      · next stopped =>
        refine ⟨?_, fun all => absurd all stopped⟩
        exact List.cons_prefix_cons.mpr ⟨rfl, first.1.trans (List.prefix_append _ _)⟩

/-- Before a walk stops, it has printed the nodes of a way that is too long. -/
theorem le_length_of_stopped (stopped : (follow memory frames pointer depth).finished = false) :
    frames ≤ (follow memory frames pointer depth).items.length := by
  induction frames generalizing pointer depth with
  | zero => exact Nat.zero_le _
  | succ frames ih =>
    have some_ : pointer ≠ 0 := by
      rintro rfl
      cases stopped
    rw [follow_succ some_] at stopped ⊢
    unfold Walked.andThen at stopped ⊢
    split
    · next done =>
      rw [if_pos done] at stopped
      have after := ih stopped
      simp only [List.length_cons, List.length_append]
      omega
    · next below =>
      exact Nat.succ_le_succ (ih (Bool.eq_false_iff.mpr below))

theorem Holds.unfolding_eq {deep : Nat} (holds : Holds memory pointer forest)
    (fits : forest.height ≤ deep) : unfolding memory deep pointer = forest := by
  induction forest generalizing pointer deep with
  | nil =>
    have null : pointer = 0 := holds
    subst null
    cases deep <;> rfl
  | node own item children rest ihChildren ihRest =>
    obtain ⟨some_, rfl, rfl, below, after⟩ := holds
    unfold Forest.height at fits
    obtain ⟨deep, rfl⟩ : ∃ less, deep = less + 1 := ⟨deep - 1, by omega⟩
    rw [unfolding_succ deep some_, ihChildren below (by omega), ihRest after (by omega)]

theorem Holds.follow_mono (holds : Holds memory pointer forest) :
    (follow memory frames pointer depth).items <+: forest.preorder depth ∧
      ((follow memory frames pointer depth).finished = true →
        (follow memory frames pointer depth).items = forest.preorder depth) := by
  rw [← holds.unfolding_eq (Nat.le_max_right frames forest.height)]
  exact Trees.follow_mono (Nat.le_max_left frames forest.height)

/-- A forest is walked to the end if and only if there are frames for its height. -/
theorem Holds.follow_finished_iff (holds : Holds memory pointer forest) :
    (follow memory frames pointer depth).finished = true ↔ forest.height ≤ frames := by
  induction forest generalizing pointer frames depth with
  | nil =>
    have null : pointer = 0 := holds
    subst null
    exact ⟨fun _ => Nat.zero_le _, fun _ => rfl⟩
  | node own item children rest ihChildren ihRest =>
    obtain ⟨some_, rfl, rfl, below, after⟩ := holds
    unfold Forest.height
    cases frames with
    | zero =>
      unfold follow
      rw [if_neg some_]
      exact ⟨nofun, fun few => by omega⟩
    | succ frames =>
      rw [follow_succ some_]
      have first := @ihChildren _ frames (depth + 1) below
      have second := @ihRest _ frames depth after
      unfold Walked.andThen
      split
      · next done =>
        have fits := first.mp done
        rw [second]
        omega
      · next stopped =>
        have high : ¬ children.height ≤ frames := fun fits => stopped (first.mpr fits)
        refine ⟨fun all => absurd all stopped, fun fits => ?_⟩
        omega

/-- A walk that is finished was over a forest. -/
theorem holds_of_follow_finished
    (finished : (follow memory frames pointer depth).finished = true) :
    ∃ forest, Holds memory pointer forest := by
  induction frames generalizing pointer depth with
  | zero =>
    by_cases null : pointer = 0
    · exact ⟨.nil, null⟩
    · unfold follow at finished
      rw [if_neg null] at finished
      cases finished
  | succ frames ih =>
    by_cases null : pointer = 0
    · exact ⟨.nil, null⟩
    · rw [follow_succ null] at finished
      unfold Walked.andThen at finished
      split at finished
      · next done =>
        obtain ⟨children, below⟩ := ih done
        obtain ⟨rest, after⟩ := ih finished
        exact ⟨.node pointer _ children rest, null, rfl, rfl, below, after⟩
      · next stopped => exact absurd finished stopped

theorem Holds.unique {other : Forest α} (holds : Holds memory pointer forest)
    (also : Holds memory pointer other) : forest = other := by
  induction forest generalizing pointer other with
  | nil =>
    have null : pointer = 0 := holds
    cases other with
    | nil => rfl
    | node own item children rest => exact absurd null also.1
  | node own item children rest ihChildren ihRest =>
    obtain ⟨some_, rfl, rfl, below, after⟩ := holds
    cases other with
    | nil => exact absurd also some_
    | node own' item' children' rest' =>
      obtain ⟨_, rfl, rfl, below', after'⟩ := also
      rw [ihChildren below below', ihRest after after']

end Walks

/-! ## Where each node has one place -/

/-- No node is behind two links of these nodes: `back` is the node that a node is linked from, with
whether it is the first child of it. -/
structure LinkedOnce (memory : Nat → Node α) (nodes : List Nat) (back : Nat → Option (Nat × Bool)) :
    Prop where
  child : ∀ pointer ∈ nodes, (memory pointer).firstChild ≠ 0 →
    back (memory pointer).firstChild = some (pointer, true)
  sibling : ∀ pointer ∈ nodes, (memory pointer).nextSibling ≠ 0 →
    back (memory pointer).nextSibling = some (pointer, false)

section Places
variable {memory : Nat → Node α} {back : Nat → Option (Nat × Bool)} {pointer : Nat}
  {forest : Forest α} {nodes : List Nat}

theorem LinkedOnce.mono {fewer : List Nat} (once : LinkedOnce memory nodes back)
    (subset : ∀ pointer ∈ fewer, pointer ∈ nodes) : LinkedOnce memory fewer back where
  child pointer member := once.child pointer (subset pointer member)
  sibling pointer member := once.sibling pointer (subset pointer member)

/-- Of the nodes of a forest, those below its first one and those after it. -/
theorem LinkedOnce.parts {own : Nat} {item : α} {children rest : Forest α}
    (once : LinkedOnce memory (Forest.node own item children rest).pointers back) :
    LinkedOnce memory children.pointers back ∧ LinkedOnce memory rest.pointers back := by
  constructor
  · exact once.mono fun _ there => List.mem_cons_of_mem _ (List.mem_append_left _ there)
  · exact once.mono fun _ there => List.mem_cons_of_mem _ (List.mem_append_right _ there)

theorem Holds.ne_zero (holds : Holds memory pointer forest) {found : Nat}
    (listed : found ∈ forest.pointers) : pointer ≠ 0 := by
  cases forest with
  | nil => cases listed
  | node own item children rest => exact holds.1

/-- What is below a pointer of a forest is a part of the forest. -/
theorem Holds.part (holds : Holds memory pointer forest) {found : Nat}
    (listed : found ∈ forest.pointers) :
    ∃ part : Forest α, Holds memory found part ∧ part.pointers.length ≤ forest.pointers.length := by
  induction forest generalizing pointer with
  | nil => cases listed
  | node own item children rest ihChildren ihRest =>
    have whole := holds
    obtain ⟨_, rfl, _, below, after⟩ := holds
    have size : (Forest.node own item children rest).pointers.length =
        children.pointers.length + rest.pointers.length + 1 := by
      simp [Forest.pointers]
    rw [size]
    rcases List.mem_cons.mp listed with rfl | inside
    · exact ⟨_, whole, Nat.le_of_eq size⟩
    · rcases List.mem_append.mp inside with child | later
      · obtain ⟨part, held, small⟩ := ihChildren below child
        exact ⟨part, held, by omega⟩
      · obtain ⟨part, held, small⟩ := ihRest after later
        exact ⟨part, held, by omega⟩

/-- A node is neither below itself nor after itself. -/
theorem Holds.not_inside {own : Nat} {item : α} {children rest : Forest α}
    (holds : Holds memory pointer (.node own item children rest)) :
    own ∉ children.pointers ∧ own ∉ rest.pointers := by
  have same : own = pointer := holds.2.1
  have size : (Forest.node own item children rest).pointers.length =
      children.pointers.length + rest.pointers.length + 1 := by
    simp [Forest.pointers]
  subst same
  constructor
  · intro inside
    obtain ⟨part, held, small⟩ := holds.2.2.2.1.part inside
    rw [← holds.unique held, size] at small
    omega
  · intro inside
    obtain ⟨part, held, small⟩ := holds.2.2.2.2.part inside
    rw [← holds.unique held, size] at small
    omega

/-- A node of a forest is the first one, or is linked from another node of it. -/
theorem Holds.linked (holds : Holds memory pointer forest) {found : Nat}
    (listed : found ∈ forest.pointers) :
    found = pointer ∨ found ≠ 0 ∧ ∃ from_ ∈ forest.pointers,
      (memory from_).firstChild = found ∨ (memory from_).nextSibling = found := by
  induction forest generalizing pointer with
  | nil => cases listed
  | node own item children rest ihChildren ihRest =>
    obtain ⟨_, rfl, _, below, after⟩ := holds
    rcases List.mem_cons.mp listed with rfl | inside
    · exact .inl rfl
    · refine .inr ?_
      rcases List.mem_append.mp inside with child | later
      · rcases ihChildren below child with rfl | ⟨some_, from_, there, link⟩
        · exact ⟨below.ne_zero child, own, List.mem_cons_self, .inl rfl⟩
        · exact ⟨some_, from_, List.mem_cons_of_mem _ (List.mem_append_left _ there), link⟩
      · rcases ihRest after later with rfl | ⟨some_, from_, there, link⟩
        · exact ⟨after.ne_zero later, own, List.mem_cons_self, .inr rfl⟩
        · exact ⟨some_, from_, List.mem_cons_of_mem _ (List.mem_append_right _ there), link⟩

/-- A forest of which no node is `parent`, and whose first node is not in `others`, is apart from
`others`, if these are linked from each other and from `parent` as a sibling. -/
theorem Holds.apart (once : LinkedOnce memory forest.pointers back)
    (holds : Holds memory pointer forest) {parent : Nat} {others : List Nat}
    (closed : ∀ found ∈ others, back found = some (parent, false) ∨
      ∃ from_ ∈ others, ∃ child, back found = some (from_, child))
    (outside : parent ∉ forest.pointers) (first : pointer ∉ others) :
    ∀ found ∈ forest.pointers, found ∉ others := by
  induction forest generalizing pointer with
  | nil => exact fun _ listed => nomatch listed
  | node own item children rest ihChildren ihRest =>
    obtain ⟨_, rfl, _, below, after⟩ := holds
    have head := List.mem_cons_self (a := own) (l := children.pointers ++ rest.pointers)
    obtain ⟨inChildren, inRest⟩ := once.parts
    have notOwn : parent ≠ own := fun same => outside (same ▸ List.mem_cons_self)
    intro found listed
    rcases List.mem_cons.mp listed with rfl | inside
    · exact first
    · rcases List.mem_append.mp inside with child | later
      · refine ihChildren inChildren below (fun there => outside ?_) ?_ found child
        · exact List.mem_cons_of_mem _ (List.mem_append_left _ there)
        · intro member
          have linked := once.child own head (below.ne_zero child)
          rcases closed _ member with sibling | ⟨from_, there, _, other⟩
          · rw [linked] at sibling
            cases sibling
          · rw [linked] at other
            cases other
            exact first there
      · refine ihRest inRest after (fun there => outside ?_) ?_ found later
        · exact List.mem_cons_of_mem _ (List.mem_append_right _ there)
        · intro member
          have linked := once.sibling own head (after.ne_zero later)
          rcases closed _ member with sibling | ⟨from_, there, _, other⟩
          · rw [linked] at sibling
            cases sibling
            exact notOwn rfl
          · rw [linked] at other
            cases other
            exact first there

/-- In a memory where no node is behind two links, a walk meets no node twice. -/
theorem Holds.nodup (once : LinkedOnce memory forest.pointers back)
    (holds : Holds memory pointer forest) :
    forest.pointers.Nodup := by
  induction forest generalizing pointer with
  | nil => exact List.nodup_nil
  | node own item children rest ihChildren ihRest =>
    have notInside := holds.not_inside
    have head := List.mem_cons_self (a := own) (l := children.pointers ++ rest.pointers)
    obtain ⟨inChildren, inRest⟩ := once.parts
    obtain ⟨_, rfl, _, below, after⟩ := holds
    refine List.nodup_cons.mpr ⟨?_,
      List.nodup_append.mpr ⟨ihChildren inChildren below, ihRest inRest after, ?_⟩⟩
    · intro listed
      rcases List.mem_append.mp listed with child | later
      · exact notInside.1 child
      · exact notInside.2 later
    · have closed : ∀ found ∈ rest.pointers, back found = some (own, false) ∨
          ∃ from_ ∈ rest.pointers, ∃ child, back found = some (from_, child) := by
        intro found listed
        rcases after.linked listed with rfl | ⟨some_, from_, there, link⟩
        · exact .inl (once.sibling own head (after.ne_zero listed))
        · rcases link with rfl | rfl
          · exact .inr ⟨from_, there, true, inRest.child from_ there some_⟩
          · exact .inr ⟨from_, there, false, inRest.sibling from_ there some_⟩
      intro found child other later same
      subst same
      refine below.apart inChildren closed notInside.1 ?_ found child later
      intro member
      have linked := once.child own head (below.ne_zero child)
      rcases closed _ member with sibling | ⟨from_, there, _, back_⟩
      · rw [linked] at sibling
        cases sibling
      · rw [linked] at back_
        cases back_
        exact notInside.2 there

end Places

namespace Forest

theorem map_preorder (depth : Nat) (forest : Forest α) :
    (forest.preorder depth).map (fun entry => entry.2.1) = forest.pointers := by
  induction forest generalizing depth with
  | nil => rfl
  | node own item children rest ihChildren ihRest =>
    simp [preorder, pointers, ihChildren, ihRest]

end Forest

end Trees
