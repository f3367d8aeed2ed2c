import Cppgres.Node.Dispatch
import Mathlib.Data.List.Basic

/-!
# Walking a raw parse tree

A visitor that, at each node it is given, walks on with `raw_expr_node_walker`. The walkers
of `List` and `RawStmt` pass a pointer on as it is, the others look whether it is null.
-/
namespace Cppgres

/-- A raw parse tree. The links are the cells of a `List`, the `stmt` of a `RawStmt`, and the child
pointers of any other node. -/
inductive RawNode (τ : Type) where
  | node (tag : NodeTag τ) (links : List (Option (RawNode τ)))

def RawNode.tag {τ : Type} : RawNode τ → NodeTag τ
  | .node tag _ => tag

/-- Whether the walker of these nodes looks for a null pointer: the callback of
`raw_expression_tree_walker` does. -/
def NodeTag.checksNull {τ : Type} : NodeTag τ → Bool
  | .list => false
  | .rawStmt => false
  | .other _ => true

/-- A call of the visitor with the node at a place of the tree. -/
structure NodeVisit (κ : Type) where
  place : List Nat
  call : NodeCall κ
  deriving DecidableEq, Repr

/-- A visitor at one place, where the walk on comes to `walked`. There is no walker for an
`unknown_node`. -/
def NodeVisitor.walking {κ : Type} (acceptsUnknown : Bool) (place : List Nat)
    (walked : Visits (NodeVisit κ)) : NodeVisitor κ (NodeVisit κ) where
  acceptsUnknown := acceptsUnknown
  call
    | _, .wrapper name => Visits.andThen ⟨[⟨place, .wrapper name⟩], none⟩ walked
    | _, .unknownNode => ⟨[⟨place, .unknownNode⟩], none⟩

section
variable {τ κ : Type} (table : NodeTable τ κ) (acceptsUnknown : Bool)

mutual

/-- `raw_expr_node_walker<T>` -/
def RawNode.walk (place : List Nat) : RawNode τ → Visits (NodeVisit κ)
  | .node tag links => walkLinks tag.checksNull place 0 links

/-- The loop over the links, from `index` on. -/
def walkLinks (checksNull : Bool) (place : List Nat) (index : Nat) :
    List (Option (RawNode τ)) → Visits (NodeVisit κ)
  | [] => .nothing
  | none :: links =>
    if checksNull then walkLinks checksNull place (index + 1) links else .stopped .nullTag
  | some node :: links =>
    let there := place ++ [index]
    ((NodeVisitor.walking acceptsUnknown there (node.walk there)).visitPointer table
      node.tag).andThen (walkLinks checksNull place (index + 1) links)

end

/-- `visit_node` of the root, viewed as `view`. -/
def RawNode.visit (view : NodeView κ) (root : RawNode τ) : Visits (NodeVisit κ) :=
  (NodeVisitor.walking acceptsUnknown [] (root.walk table acceptsUnknown [])).visitNode table
    root.tag view

mutual

/-- The places of the nodes, parents before children. -/
def RawNode.preorder (place : List Nat) : RawNode τ → List (List Nat)
  | .node _ links => place :: preorderLinks place 0 links

def preorderLinks (place : List Nat) (index : Nat) : List (Option (RawNode τ)) → List (List Nat)
  | [] => []
  | none :: links => preorderLinks place (index + 1) links
  | some node :: links => node.preorder (place ++ [index]) ++ preorderLinks place (index + 1) links

end

/-- Each node at these places was visited once, in order, and nothing stopped the visits. -/
structure Visits.Cover (visits : Visits (NodeVisit κ)) (places : List (List Nat)) : Prop where
  free : visits.stop = none
  order : visits.log.map NodeVisit.place = places

/-- A node that is visited once through a pointer: its tag is not in the table, the visitor takes
`unknown_node`, and there is nothing below. -/
def RawNode.Single : RawNode τ → Prop
  | .node tag links => table.dispatches tag = false ∧ acceptsUnknown = true ∧
    ∀ link ∈ links, link = none

/-- Each node below is one that is visited once, and a null pointer is looked for. -/
def RawNode.Shallow : RawNode τ → Prop
  | .node tag links => ∀ link ∈ links,
    (link = none → tag.checksNull = true) ∧
      ∀ node, link = some node → node.Single table acceptsUnknown

/-- What makes a walk from the root right. -/
def RawNode.Walkable (root : RawNode τ) : NodeView κ → Prop
  | .pointer => root.Single table acceptsUnknown
  | .struct name =>
    if table.covered name then root.Shallow table acceptsUnknown
    else root.Single table acceptsUnknown
  | .value _ => root.Shallow table acceptsUnknown

/-! ## Places -/

section
variable {place found : List Nat}

mutual

theorem RawNode.prefix_of_mem_preorder :
    ∀ {place : List Nat} {root : RawNode τ}, found ∈ root.preorder place → place <+: found
  | place, .node _ links, listed => by
    unfold RawNode.preorder at listed
    cases List.mem_cons.mp listed with
    | inl same => exact same ▸ List.prefix_rfl
    | inr below =>
      obtain ⟨index, _, inside⟩ := prefix_of_mem_preorderLinks below
      exact (List.prefix_append _ _).trans inside

/-- A node below is below one of the links. -/
theorem prefix_of_mem_preorderLinks :
    ∀ {place : List Nat} {index : Nat} {links : List (Option (RawNode τ))},
      found ∈ preorderLinks place index links → ∃ k, index ≤ k ∧ place ++ [k] <+: found
  | _, _, [], listed => by cases listed
  | place, index, none :: links, listed => by
    unfold preorderLinks at listed
    obtain ⟨k, later, inside⟩ := prefix_of_mem_preorderLinks listed
    exact ⟨k, by omega, inside⟩
  | place, index, some node :: links, listed => by
    unfold preorderLinks at listed
    cases List.mem_append.mp listed with
    | inl here => exact ⟨index, Nat.le_refl _, RawNode.prefix_of_mem_preorder here⟩
    | inr later =>
      obtain ⟨k, later, inside⟩ := prefix_of_mem_preorderLinks later
      exact ⟨k, by omega, inside⟩

end

variable {table acceptsUnknown}

/-- What is on record of a visit through a pointer is at the place of the node or below. -/
theorem prefix_of_mem_visitPointer {walked : Visits (NodeVisit κ)} {tag : NodeTag τ}
    {visit : NodeVisit κ} (below : ∀ visit ∈ walked.log, place <+: visit.place)
    (listed : visit ∈ ((NodeVisitor.walking acceptsUnknown place walked).visitPointer table
      tag).log) : place <+: visit.place := by
  unfold NodeVisitor.visitPointer at listed
  cases Visits.mem_andThen listed with
  | inl switched =>
    split at switched
    · cases Visits.mem_andThen switched with
      | inl here =>
        cases List.mem_singleton.mp here
        exact List.prefix_rfl
      | inr later => exact below visit later
    · cases switched
  | inr unknown =>
    split at unknown
    · cases List.mem_singleton.mp unknown
      exact List.prefix_rfl
    · cases unknown

mutual

theorem RawNode.prefix_of_mem_walk :
    ∀ {place : List Nat} {root : RawNode τ} {visit : NodeVisit κ},
      visit ∈ (root.walk table acceptsUnknown place).log → place <+: visit.place
  | place, .node _ links, visit, listed => by
    unfold RawNode.walk at listed
    obtain ⟨k, _, inside⟩ := prefix_of_mem_walkLinks listed
    exact (List.prefix_append _ _).trans inside

/-- What is on record of a walk over the links is below one of them. -/
theorem prefix_of_mem_walkLinks :
    ∀ {checksNull : Bool} {place : List Nat} {index : Nat} {links : List (Option (RawNode τ))}
      {visit : NodeVisit κ},
      visit ∈ (walkLinks table acceptsUnknown checksNull place index links).log →
        ∃ k, index ≤ k ∧ place ++ [k] <+: visit.place
  | _, _, _, [], _, listed => by
    unfold walkLinks at listed
    cases listed
  | checksNull, place, index, none :: links, visit, listed => by
    unfold walkLinks at listed
    split at listed
    · obtain ⟨k, later, inside⟩ := prefix_of_mem_walkLinks listed
      exact ⟨k, by omega, inside⟩
    · cases listed
  | checksNull, place, index, some node :: links, visit, listed => by
    unfold walkLinks at listed
    cases Visits.mem_andThen listed with
    | inl here =>
      exact ⟨index, Nat.le_refl _,
        prefix_of_mem_visitPointer (fun _ => RawNode.prefix_of_mem_walk) here⟩
    | inr later =>
      obtain ⟨k, later, inside⟩ := prefix_of_mem_walkLinks later
      exact ⟨k, by omega, inside⟩

end

/-- Two lists that are each made of a part below one link and a part below later ones. -/
theorem parts_eq_of_append_eq {index : Nat} {first first' later later' : List (List Nat)}
    (same : first ++ later = first' ++ later')
    (below : ∀ p ∈ first, place ++ [index] <+: p) (below' : ∀ p ∈ first', place ++ [index] <+: p)
    (above : ∀ p ∈ later, ∃ k, index + 1 ≤ k ∧ place ++ [k] <+: p)
    (above' : ∀ p ∈ later', ∃ k, index + 1 ≤ k ∧ place ++ [k] <+: p) :
    first = first' ∧ later = later' := by
  have apart : ∀ p k, index + 1 ≤ k → place ++ [k] <+: p → ¬ place ++ [index] <+: p := by
    intro p k larger inside own
    have equal := List.prefix_of_prefix_length_le own inside (by simp)
    have last := List.append_cancel_left (equal.eq_of_length (by simp))
    simp at last
    omega
  have firsts : ∀ {one two : List (List Nat)}, (∀ p ∈ one, place ++ [index] <+: p) →
      (∀ p ∈ two, ∃ k, index + 1 ≤ k ∧ place ++ [k] <+: p) →
      (one ++ two).filter (fun p => decide (place ++ [index] <+: p)) = one := by
    intro one two inside outside
    rw [List.filter_append, List.filter_eq_self.mpr (by simpa using inside),
      List.filter_eq_nil_iff.mpr, List.append_nil]
    intro p listed
    obtain ⟨k, larger, there⟩ := outside p listed
    simpa using apart p k larger there
  have head : first = first' := by
    rw [← firsts below above, same, firsts below' above']
  rw [head] at same
  exact ⟨head, List.append_cancel_left same⟩

/-! ## Which walks are right -/

theorem place_not_mem_preorderLinks {index : Nat} {links : List (Option (RawNode τ))} :
    place ∉ preorderLinks place index links := by
  intro listed
  obtain ⟨k, _, inside⟩ := prefix_of_mem_preorderLinks listed
  have longer := inside.length_le
  rw [List.length_append, List.length_singleton] at longer
  omega

theorem preorderLinks_eq_nil_iff {index : Nat} {links : List (Option (RawNode τ))} :
    preorderLinks place index links = [] ↔ ∀ link ∈ links, link = none := by
  induction links generalizing index with
  | nil => simp [preorderLinks]
  | cons link links ih =>
    cases link with
    | none => simp [preorderLinks, ih]
    | some node =>
      obtain ⟨tag, links⟩ := node
      simp [preorderLinks, RawNode.preorder]

/-- Through a pointer, a node of a tag in the table is visited twice or not to the end. -/
theorem cover_visitPointer_iff {node : RawNode τ} :
    ((NodeVisitor.walking acceptsUnknown place
      (node.walk table acceptsUnknown place)).visitPointer table node.tag).Cover
        (node.preorder place) ↔ node.Single table acceptsUnknown := by
  obtain ⟨tag, links⟩ := node
  unfold RawNode.preorder RawNode.Single RawNode.tag NodeVisitor.visitPointer
  cases dispatched : table.dispatches tag with
  | true =>
    refine ⟨?_, fun single => by simp [dispatched] at single⟩
    rintro ⟨free, order⟩
    obtain ⟨first, second⟩ := Visits.stop_andThen_eq_none.mp free
    rw [Visits.andThen_of_none first] at order
    cases accepts : acceptsUnknown with
    | false => simp [NodeVisitor.walking, accepts, Visits.stopped] at second
    | true =>
      simp only [if_true, NodeVisitor.walking, accepts] at order
      rw [Visits.andThen_of_none rfl] at order
      simp only [List.map_append, List.map_cons, List.map_nil, List.cons_append, List.nil_append,
        List.cons.injEq, true_and] at order
      have again : place ∈ preorderLinks place 0 links := by
        rw [← order]
        simp
      exact absurd again place_not_mem_preorderLinks
  | false =>
    cases accepts : acceptsUnknown with
    | false =>
      refine ⟨?_, by simp⟩
      rintro ⟨free, _⟩
      simp [NodeVisitor.walking, Visits.stopped] at free
    | true =>
      constructor
      · rintro ⟨_, order⟩
        have empty : [] = preorderLinks place 0 links := by
          simpa [NodeVisitor.walking] using order
        exact ⟨dispatched, rfl, preorderLinks_eq_nil_iff.mp empty.symm⟩
      · rintro ⟨_, _, none⟩
        have empty : preorderLinks place 0 links = [] := preorderLinks_eq_nil_iff.mpr none
        exact ⟨rfl, by simp [NodeVisitor.walking, empty]⟩

theorem walkLinks_none {checksNull : Bool} {index : Nat} {links : List (Option (RawNode τ))} :
    walkLinks table acceptsUnknown checksNull place index (none :: links) =
      if checksNull then walkLinks table acceptsUnknown checksNull place (index + 1) links
      else .stopped .nullTag := by
  rw [walkLinks]

theorem walkLinks_some {checksNull : Bool} {index : Nat} {node : RawNode τ}
    {links : List (Option (RawNode τ))} :
    walkLinks table acceptsUnknown checksNull place index (some node :: links) =
      ((NodeVisitor.walking acceptsUnknown (place ++ [index])
        (node.walk table acceptsUnknown (place ++ [index]))).visitPointer table node.tag).andThen
          (walkLinks table acceptsUnknown checksNull place (index + 1) links) := by
  rw [walkLinks]

theorem preorderLinks_some {index : Nat} {node : RawNode τ} {links : List (Option (RawNode τ))} :
    preorderLinks place index (some node :: links) =
      node.preorder (place ++ [index]) ++ preorderLinks place (index + 1) links := by
  rw [preorderLinks]

/-- The loop visits each link once if each is one that is visited once. -/
theorem cover_walkLinks_iff {checksNull : Bool} {index : Nat} {links : List (Option (RawNode τ))} :
    (walkLinks table acceptsUnknown checksNull place index links).Cover
        (preorderLinks place index links) ↔
      ∀ link ∈ links, (link = none → checksNull = true) ∧
        ∀ node, link = some node → node.Single table acceptsUnknown := by
  induction links generalizing index with
  | nil => exact ⟨fun _ => nofun, fun _ => ⟨rfl, rfl⟩⟩
  | cons link links ih =>
    rw [List.forall_mem_cons, ← @ih (index + 1)]
    cases link with
    | none =>
      rw [walkLinks_none, show preorderLinks place index (none :: links) =
        preorderLinks place (index + 1) links from rfl]
      cases checksNull with
      | true => simp
      | false =>
        simp only [Bool.false_eq_true, if_false, true_implies, false_and, iff_false]
        intro cover
        cases cover.free
    | some node =>
      rw [walkLinks_some, preorderLinks_some]
      simp only [reduceCtorEq, false_implies, Option.some.injEq, true_and, forall_eq']
      rw [← @cover_visitPointer_iff _ _ table acceptsUnknown (place ++ [index])]
      constructor
      · rintro ⟨free, order⟩
        obtain ⟨first, second⟩ := Visits.stop_andThen_eq_none.mp free
        rw [Visits.andThen_of_none first, List.map_append] at order
        obtain ⟨here, later⟩ := parts_eq_of_append_eq order
          (by
            rintro p listed
            obtain ⟨visit, recorded, rfl⟩ := List.mem_map.mp listed
            exact prefix_of_mem_visitPointer (fun _ => RawNode.prefix_of_mem_walk) recorded)
          (fun p => RawNode.prefix_of_mem_preorder)
          (by
            rintro p listed
            obtain ⟨visit, recorded, rfl⟩ := List.mem_map.mp listed
            exact prefix_of_mem_walkLinks recorded)
          (fun p => prefix_of_mem_preorderLinks)
        exact ⟨⟨first, here⟩, ⟨second, later⟩⟩
      · rintro ⟨⟨free, order⟩, ⟨freeLater, orderLater⟩⟩
        rw [Visits.andThen_of_none free]
        refine ⟨freeLater, ?_⟩
        rw [List.map_append, order, orderLater]

/-- The visitor is called with the root as a struct, and walks on. -/
theorem cover_call_iff {root : RawNode τ} {name : κ} :
    ((NodeVisitor.walking acceptsUnknown [] (root.walk table acceptsUnknown [])).call []
      (.wrapper name)).Cover (root.preorder []) ↔ root.Shallow table acceptsUnknown := by
  obtain ⟨tag, links⟩ := root
  have below : (RawNode.node tag links).Shallow table acceptsUnknown ↔ _ :=
    (@cover_walkLinks_iff _ _ table acceptsUnknown [] _ 0 _).symm
  rw [below]
  unfold NodeVisitor.walking RawNode.walk RawNode.preorder
  dsimp only
  rw [Visits.andThen_of_none rfl]
  constructor
  · rintro ⟨free, order⟩
    exact ⟨free, (List.cons.inj order).2⟩
  · rintro ⟨free, order⟩
    exact ⟨free, congrArg _ order⟩

/-- Each node of the tree is visited once, parents before children and in order, and no null
pointer is looked into, where the tree has no more than one level below the root, of nodes
whose tags are not in the table and which a visitor for `unknown_node` takes. -/
theorem cover_visit_iff (table : NodeTable τ κ) (acceptsUnknown : Bool) (root : RawNode τ)
    (view : NodeView κ) :
    (root.visit table acceptsUnknown view).Cover (root.preorder []) ↔
      root.Walkable table acceptsUnknown view := by
  unfold RawNode.visit NodeVisitor.visitNode RawNode.Walkable
  cases view with
  | pointer => exact cover_visitPointer_iff
  | value name => exact cover_call_iff
  | struct name =>
    dsimp only
    cases table.covered name with
    | true => exact cover_call_iff
    | false => exact cover_visitPointer_iff

/-! ## The calls with wrappers -/

/-- The visitor was given the wrapper of the node. -/
def NodeVisit.wrapped (visit : NodeVisit κ) : Bool :=
  match visit.call with
  | .wrapper _ => true
  | .unknownNode => false

/-- Nothing stopped the visits, and those with wrappers were at these places, in order. -/
structure Visits.Wrap (visits : Visits (NodeVisit κ)) (places : List (List Nat)) : Prop where
  free : visits.stop = none
  order : (visits.log.filter NodeVisit.wrapped).map NodeVisit.place = places

variable (table) in
mutual

/-- The tags are all in the table, and each null pointer is looked for. -/
def RawNode.Known : RawNode τ → Prop
  | .node tag links => table.dispatches tag = true ∧ KnownLinks tag.checksNull links

def KnownLinks (checksNull : Bool) : List (Option (RawNode τ)) → Prop
  | [] => True
  | none :: links => checksNull = true ∧ KnownLinks checksNull links
  | some node :: links => node.Known ∧ KnownLinks checksNull links

end

mutual

/-- Of a tree with known tags and no null pointer in a list, a visitor that takes `unknown_node`
is given each wrapper once. -/
theorem RawNode.wrap_visitPointer :
    ∀ {place : List Nat} {node : RawNode τ}, node.Known table →
      ((NodeVisitor.walking true place (node.walk table true place)).visitPointer table
        node.tag).Wrap (node.preorder place)
  | place, .node tag links, known => by
    unfold RawNode.Known at known
    obtain ⟨dispatched, known⟩ := known
    obtain ⟨free, order⟩ := @wrap_walkLinks _ place 0 links known
    unfold NodeVisitor.visitPointer RawNode.tag RawNode.walk RawNode.preorder
    simp only [dispatched, if_true, NodeVisitor.walking]
    have switched := Visits.stop_andThen_eq_none.mpr
      (show (⟨[⟨place, .wrapper (table.structOf tag)⟩], none⟩ : Visits (NodeVisit κ)).stop = none ∧ _
        from ⟨rfl, free⟩)
    rw [Visits.andThen_of_none switched, Visits.andThen_of_none rfl]
    refine ⟨rfl, ?_⟩
    rw [List.filter_append, List.filter_append, List.map_append, List.map_append, order]
    exact List.append_nil (place :: preorderLinks place 0 links)

theorem wrap_walkLinks :
    ∀ {checksNull : Bool} {place : List Nat} {index : Nat} {links : List (Option (RawNode τ))},
      KnownLinks table checksNull links →
        (walkLinks table true checksNull place index links).Wrap (preorderLinks place index links)
  | _, _, _, [], _ => by
    unfold walkLinks preorderLinks
    exact ⟨rfl, rfl⟩
  | checksNull, place, index, none :: links, known => by
    unfold KnownLinks at known
    rw [walkLinks_none, if_pos known.1]
    exact wrap_walkLinks known.2
  | checksNull, place, index, some node :: links, known => by
    unfold KnownLinks at known
    obtain ⟨free, order⟩ := @RawNode.wrap_visitPointer (place ++ [index]) node known.1
    obtain ⟨freeLater, orderLater⟩ := @wrap_walkLinks _ place (index + 1) links known.2
    rw [walkLinks_some, preorderLinks_some, Visits.andThen_of_none free]
    refine ⟨freeLater, ?_⟩
    rw [List.filter_append, List.map_append, order, orderLater]

end

end
end

/-! ## Two trees -/

/-- The `List` with one null cell that a plain `DISTINCT` is. -/
def plainDistinct : RawNode SampleTag := .node .list [none]

/-- A `RawStmt` over a `RangeVar`. -/
def overRangeVar : RawNode SampleTag := .node .rawStmt [some (.node (.other .rangeVar) [none])]

theorem plainDistinct_nullTag :
    plainDistinct.visit sampleTable true (.struct .list) =
        ⟨[⟨[], .wrapper .list⟩], some .nullTag⟩ ∧
      overRangeVar.visit sampleTable true (.struct .rawStmt) =
        ⟨[⟨[], .wrapper .rawStmt⟩, ⟨[0], .wrapper .rangeVar⟩, ⟨[0], .unknownNode⟩], none⟩ ∧
      overRangeVar.visit sampleTable false (.struct .rawStmt) =
        ⟨[⟨[], .wrapper .rawStmt⟩, ⟨[0], .wrapper .rangeVar⟩], some unknownNodeTag⟩ ∧
      (∀ acceptsUnknown, ¬ (plainDistinct.visit sampleTable acceptsUnknown (.struct .list)).Cover
        (plainDistinct.preorder [])) ∧
      ∀ acceptsUnknown, ¬ (overRangeVar.visit sampleTable acceptsUnknown (.struct .rawStmt)).Cover
        (overRangeVar.preorder []) := by
  refine ⟨by decide, by decide, by decide, ?_, ?_⟩
  · rintro acceptsUnknown ⟨free, _⟩
    cases acceptsUnknown <;> exact absurd free (by decide)
  · rintro acceptsUnknown ⟨free, order⟩
    cases acceptsUnknown with
    | false => exact absurd free (by decide)
    | true => exact absurd order (by decide)

end Cppgres
