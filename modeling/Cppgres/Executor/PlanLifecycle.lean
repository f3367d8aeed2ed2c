import Cppgres.Executor.Plans

/-!
# The life of a plan

`SPI_freeplan` is called once on each plan that was kept and not released once its owner is
destroyed, and on no other; an owner is told that its plan is gone once the executor of a
plan that was not kept has finished, and never that of a plan that was kept.
-/
namespace Cppgres
open Regions Labelled TrackedMemory

variable {ω : Type} [DecidableEq ω]

variable {κ : Type}

namespace PlanMemory

/-- The plan is to be there: it was kept, or its executor has not finished. -/
def Lasting (m : PlanMemory ω) (object : PlanObject) : Prop :=
  (m.fates object.plan).kept ∨ object.executor ∈ m.executors

/-- How many calls of `SPI_freeplan` a plan is to have seen. -/
def callsDue (fate : PlanFate) : Nat :=
  if fate.kept ∧ ¬ fate.released ∧ fate.destroyed then 1 else 0

/-- `keep()` and a query convert the object. -/
structure PlansRight (m : PlanMemory ω) : Prop where
  defined : m.tracked.undefined = false
  safe : m.terminated = false
  freed : ∀ plan, m.freed.count plan = callsDue (m.fates plan)
  usable : ∀ this object, m.objects.lookup this = some object → object.usage = .owner →
    m.Lasting object → m.toPointer this object = .plan object.plan ∧
      ∀ executor, m.executors.head? = some executor →
        m.queryPlan executor this object = .executed object.src
  refused : ∀ this object, m.objects.lookup this = some object → object.usage = .owner →
    ¬ m.Lasting object → m.toPointer this object = .pointerGone ∧
      ∀ executor, m.executors.head? = some executor →
        m.queryPlan executor this object = .pointerGone
  elsewhere : ∀ this object executor, m.executors.head? ≠ some executor →
    m.queryPlan executor this object = .notCurrent

/-! ## Where plans are -/

section Shape
variable {s : Store κ SavedPlan} {executors : List Nat}

/-- The contexts of the connections, and those of the plans: each below its connection, or
below the permanent context if it was kept. -/
structure Shape (s : Store κ SavedPlan) (executors : List Nat) : Prop where
  cache : s.regions cacheMemoryContext = some []
  top : s.regions topTransactionContext = some []
  nodup : executors.Nodup
  connections : ∀ executor ∈ executors, s.regions executor = some [topTransactionContext]
  saved : ∀ address ctx plan, s.chunks address = some (ctx, plan) → plan.plancxt = ctx
  single : ∀ one two ctx plan other, s.chunks one = some (ctx, plan) →
    s.chunks two = some (ctx, other) → one = two
  placed : ∀ address ctx plan, s.chunks address = some (ctx, plan) →
    s.regions ctx = some [cacheMemoryContext] ∨
      ∃ executor ∈ executors, s.regions ctx = some [executor, topTransactionContext]
  leaf : ∀ address ctx plan other ancestors, s.chunks address = some (ctx, plan) →
    s.regions other = some ancestors → ctx ∉ ancestors
  bounded : ∀ other ancestors above, s.regions other = some ancestors → above ∈ ancestors →
    above < s.fresh

theorem Shape.executor_ne (shape : Shape s executors) {executor : Nat}
    (running : executor ∈ executors) :
    executor ≠ cacheMemoryContext ∧ executor ≠ topTransactionContext := by
  have region := shape.connections executor running
  constructor
  · intro same
    rw [same, shape.cache] at region
    cases region
  · intro same
    rw [same, shape.top] at region
    cases region

/-- The context of a plan is none of the others. -/
theorem Shape.plancxt_ne (shape : Shape s executors) {address ctx : Nat} {plan : SavedPlan}
    (held : s.chunks address = some (ctx, plan)) :
    ctx ≠ cacheMemoryContext ∧ ctx ≠ topTransactionContext ∧ ctx ∉ executors := by
  have placed := shape.placed address ctx plan held
  refine ⟨?_, ?_, ?_⟩
  · intro same
    rw [same, shape.cache] at placed
    simp at placed
  · intro same
    rw [same, shape.top] at placed
    simp at placed
  · intro running
    rw [shape.connections ctx running] at placed
    simp [cacheMemoryContext, topTransactionContext] at placed

/-- Deleting a context that is none of those to be left. -/
theorem Shape.delete (shape : Shape s executors) {region : Nat} {left : List Nat}
    (among : left.Sublist executors) (cache : s.covers region cacheMemoryContext = false)
    (top : s.covers region topTransactionContext = false)
    (stay : ∀ executor ∈ left, s.covers region executor = false)
    (gone : ∀ executor ∈ executors, executor ∉ left → executor = region) :
    Shape (s.release region true) left where
  cache := Store.regions_delete_eq_some.mpr ⟨shape.cache, cache⟩
  top := Store.regions_delete_eq_some.mpr ⟨shape.top, top⟩
  nodup := among.nodup shape.nodup
  connections executor running := Store.regions_delete_eq_some.mpr
    ⟨shape.connections executor (among.subset running), stay executor running⟩
  saved address ctx plan held :=
    shape.saved address ctx plan (Store.chunks_release_eq_some.mp held).1
  single one two ctx plan other held also := shape.single one two ctx plan other
    (Store.chunks_release_eq_some.mp held).1 (Store.chunks_release_eq_some.mp also).1
  placed address ctx plan held := by
    obtain ⟨held, outside⟩ := Store.chunks_release_eq_some.mp held
    cases shape.placed address ctx plan held with
    | inl kept => exact .inl (Store.regions_delete_eq_some.mpr ⟨kept, outside⟩)
    | inr below =>
      obtain ⟨executor, running, below⟩ := below
      refine .inr ⟨executor, ?_, Store.regions_delete_eq_some.mpr ⟨below, outside⟩⟩
      by_contra absent
      have covered : s.covers region ctx := by
        rw [Store.covers_iff below, gone executor running absent]
        simp
      rw [outside] at covered
      cases covered
  leaf address ctx plan other ancestors held found := shape.leaf address ctx plan other ancestors
    (Store.chunks_release_eq_some.mp held).1 (Store.regions_delete_eq_some.mp found).1
  bounded other ancestors above found := shape.bounded other ancestors above
    (Store.regions_delete_eq_some.mp found).1

theorem covers_eq_false {region other : Nat} {ancestors : List Nat}
    (found : s.regions other = some ancestors) (different : other ≠ region)
    (apart : region ∉ ancestors) : s.covers region other = false := by
  rw [Bool.eq_false_iff, ne_eq, Store.covers_iff found]
  exact fun covered => covered.elim different apart

/-- `SPI_finish` -/
theorem Shape.finish {executor : Nat} {outer : List Nat} (shape : Shape s (executor :: outer)) :
    Shape (s.release executor true) outer := by
  obtain ⟨notCache, notTop⟩ := shape.executor_ne List.mem_cons_self
  have unique := List.nodup_cons.mp shape.nodup
  apply shape.delete (List.sublist_cons_self executor outer)
  · exact covers_eq_false shape.cache (Ne.symm notCache) (by simp)
  · exact covers_eq_false shape.top (Ne.symm notTop) (by simp)
  · intro other running
    have different : other ≠ executor := by
      intro same
      rw [same] at running
      exact unique.1 running
    exact covers_eq_false (shape.connections other (List.mem_cons_of_mem _ running)) different
      (by simpa using notTop)
  · intro other running absent
    exact (List.mem_cons.mp running).resolve_right absent

/-- `SPI_freeplan` -/
theorem Shape.free (shape : Shape s executors) {address ctx : Nat} {plan : SavedPlan}
    (held : s.chunks address = some (ctx, plan)) : Shape (s.release ctx true) executors := by
  obtain ⟨notCache, notTop, notRunning⟩ := shape.plancxt_ne held
  apply shape.delete (List.Sublist.refl _)
  · exact covers_eq_false shape.cache (Ne.symm notCache) (by simp)
  · exact covers_eq_false shape.top (Ne.symm notTop) (by simp)
  · intro executor running
    have different : executor ≠ ctx := by
      intro same
      rw [same] at running
      exact notRunning running
    exact covers_eq_false (shape.connections executor running) different (by simpa using notTop)
  · intro executor running absent
    exact absurd running absent

/-- A new context below one that is not that of a plan. -/
theorem Shape.create (shape : Shape s executors) {parent : Nat} {ancestors : List Nat}
    (found : s.regions parent = some ancestors)
    (apart : ∀ address ctx plan, s.chunks address = some (ctx, plan) → ctx ≠ parent) :
    Shape (s.create (some parent)) executors := by
  have old : ∀ other above, s.regions other = some above →
      (s.create (some parent)).regions other = some above :=
    fun other above found => Store.regions_create_of_some found
  have cases_of : ∀ other above, (s.create (some parent)).regions other = some above →
      above = parent :: ancestors ∨ s.regions other = some above := by
    intro other above region
    by_cases same : other = s.fresh
    · simp only [Store.create, same, if_true, found, Option.elim_some, Option.getD_some,
        Option.some.injEq] at region
      exact .inl region.symm
    · simp only [Store.create, same, if_false] at region
      exact .inr region
  refine ⟨old _ _ shape.cache, old _ _ shape.top, shape.nodup,
    fun executor running => old _ _ (shape.connections executor running), shape.saved,
    shape.single, ?_, ?_, ?_⟩
  · intro address ctx plan held
    cases shape.placed address ctx plan held with
    | inl kept => exact .inl (old _ _ kept)
    | inr below =>
      obtain ⟨executor, running, below⟩ := below
      exact .inr ⟨executor, running, old _ _ below⟩
  · intro address ctx plan other above held region
    cases cases_of other above region with
    | inl fresh =>
      rw [fresh, List.mem_cons, not_or]
      exact ⟨apart address ctx plan held, shape.leaf address ctx plan parent ancestors held found⟩
    | inr region => exact shape.leaf address ctx plan other above held region
  · intro other above one region among
    show one < s.fresh + 1
    cases cases_of other above region with
    | inl fresh =>
      rw [fresh] at among
      cases List.mem_cons.mp among with
      | inl same =>
        have below := Store.lt_fresh found
        omega
      | inr among =>
        have below := shape.bounded parent ancestors one found among
        omega
    | inr region =>
      have below := shape.bounded other above one region among
      omega

theorem regions_create {parent : Nat} {ancestors : List Nat}
    (found : s.regions parent = some ancestors) :
    (s.create (some parent)).regions s.fresh = some (parent :: ancestors) := by
  simp [Store.create, found]

/-- `SPI_connect_ext` -/
theorem Shape.connect (shape : Shape s executors) :
    Shape (s.create (some topTransactionContext)) (s.fresh :: executors) := by
  have made := shape.create shape.top fun address ctx plan held => (shape.plancxt_ne held).2.1
  have new := regions_create shape.top
  refine { made with nodup := ?_, connections := ?_, placed := ?_ }
  · refine List.nodup_cons.mpr ⟨fun running => ?_, shape.nodup⟩
    have below := Store.lt_fresh (shape.connections s.fresh running)
    omega
  · intro executor running
    cases List.mem_cons.mp running with
    | inl same =>
      rw [same]
      exact new
    | inr running => exact made.connections executor running
  · intro address ctx plan held
    cases made.placed address ctx plan held with
    | inl kept => exact .inl kept
    | inr below =>
      obtain ⟨executor, running, below⟩ := below
      exact .inr ⟨executor, List.mem_cons_of_mem _ running, below⟩

/-- The plan that `SPI_prepare` makes, in a context of its own. -/
theorem Shape.alloc (shape : Shape s executors) {ctx executor : Nat} {src : String}
    (isLive : s.live ctx) (running : executor ∈ executors)
    (below : s.regions ctx = some [executor, topTransactionContext])
    (empty : ∀ address plan, s.chunks address ≠ some (ctx, plan))
    (leaf : ∀ other ancestors, s.regions other = some ancestors → ctx ∉ ancestors) :
    Shape (s.alloc ctx ⟨src, ctx⟩ isLive) executors := by
  have cases_of : ∀ address region plan,
      (s.alloc ctx ⟨src, ctx⟩ isLive).chunks address = some (region, plan) →
      address = s.fresh ∧ region = ctx ∧ plan = ⟨src, ctx⟩ ∨
        s.chunks address = some (region, plan) := by
    intro address region plan held
    by_cases same : address = s.fresh
    · simp only [Store.alloc, same, if_true, Option.some.injEq, Prod.mk.injEq] at held
      exact .inl ⟨same, held.1.symm, held.2.symm⟩
    · simp only [Store.alloc, same, if_false] at held
      exact .inr held
  constructor
  case cache => exact shape.cache
  case top => exact shape.top
  case nodup => exact shape.nodup
  case connections => exact shape.connections
  case saved =>
    intro address region plan held
    cases cases_of address region plan held with
    | inl new => rw [new.2.1, new.2.2]
    | inr held => exact shape.saved address region plan held
  case single =>
    intro one two region plan other held also
    cases cases_of one region plan held with
    | inl new =>
      cases cases_of two region other also with
      | inl too => rw [new.1, too.1]
      | inr also => exact absurd (new.2.1 ▸ also) (empty two other)
    | inr held =>
      cases cases_of two region other also with
      | inl new => exact absurd (new.2.1 ▸ held) (empty one plan)
      | inr also => exact shape.single one two region plan other held also
  case placed =>
    intro address region plan held
    cases cases_of address region plan held with
    | inl new =>
      rw [new.2.1]
      exact .inr ⟨executor, running, below⟩
    | inr held => exact shape.placed address region plan held
  case leaf =>
    intro address region plan other ancestors held found
    cases cases_of address region plan held with
    | inl new =>
      rw [new.2.1]
      exact leaf other ancestors found
    | inr held => exact shape.leaf address region plan other ancestors held found
  case bounded =>
    intro other ancestors above found among
    exact Nat.lt_succ_of_lt (shape.bounded other ancestors above found among)

/-- A context for a plan below the context of a connection, and the plan in it. -/
theorem Shape.prepare (shape : Shape s executors) {executor : Nat} {src : String}
    (running : executor ∈ executors) (isLive : (s.create (some executor)).live s.fresh) :
    Shape ((s.create (some executor)).alloc s.fresh ⟨src, s.fresh⟩ isLive) executors := by
  have region := shape.connections executor running
  have created := shape.create region
    (fun address ctx plan held same => (shape.plancxt_ne held).2.2 (same ▸ running))
  have place := regions_create region
  apply created.alloc isLive running place
  · intro address plan held
    obtain ⟨ancestors, found⟩ := @Store.region_of_chunk _ _ s _ _ held
    exact Nat.lt_irrefl _ (Store.lt_fresh found)
  · intro other ancestors found among
    by_cases same : other = s.fresh
    · rw [same, place, Option.some.injEq] at found
      have top := Store.lt_fresh shape.top
      have below := Store.lt_fresh region
      rw [← found] at among
      simp only [List.mem_cons, List.not_mem_nil, or_false] at among
      omega
    · simp only [Store.create, same, if_false] at found
      exact Nat.lt_irrefl _ (shape.bounded other ancestors _ found among)

theorem Shape.regions_reparent (shape : Shape s executors) {address ctx : Nat} {plan : SavedPlan}
    (held : s.chunks address = some (ctx, plan)) (other : Nat) :
    (s.reparent ctx cacheMemoryContext).regions other =
      if other = ctx then some [cacheMemoryContext] else s.regions other := by
  by_cases same : other = ctx
  · obtain ⟨ancestors, found⟩ := Store.region_of_chunk held
    simp only at found
    simp [Store.reparent, same, found, shape.cache]
  · rw [if_neg same]
    cases found : s.regions other with
    | none => simp [Store.reparent, found]
    | some ancestors =>
      simp [Store.reparent, found, same, shape.leaf address ctx plan other ancestors held found]

/-- `SPI_keepplan` -/
theorem Shape.keep (shape : Shape s executors) {address ctx : Nat} {plan : SavedPlan}
    (held : s.chunks address = some (ctx, plan)) :
    Shape (s.reparent ctx cacheMemoryContext) executors := by
  obtain ⟨notCache, notTop, notRunning⟩ := shape.plancxt_ne held
  have regions := shape.regions_reparent held
  refine ⟨?_, ?_, shape.nodup, ?_, shape.saved, shape.single, ?_, ?_, ?_⟩
  · rw [regions, if_neg (Ne.symm notCache), shape.cache]
  · rw [regions, if_neg (Ne.symm notTop), shape.top]
  · intro executor running
    have different : executor ≠ ctx := by
      intro same
      rw [same] at running
      exact notRunning running
    rw [regions, if_neg different, shape.connections executor running]
  · intro one region other held
    rw [regions]
    by_cases same : region = ctx
    · exact .inl (if_pos same)
    · rw [if_neg same]
      exact shape.placed one region other held
  · intro one region other place ancestors held found
    rw [regions] at found
    split at found
    · cases found
      simpa using (shape.plancxt_ne held).1
    · exact shape.leaf one region other place ancestors held found
  · intro place ancestors above found among
    rw [regions] at found
    split at found
    · cases found
      rw [List.mem_singleton.mp among]
      show cacheMemoryContext < s.fresh
      exact Store.lt_fresh shape.cache
    · exact shape.bounded place ancestors above found among

/-- Callbacks do not matter. -/
theorem Shape.congr {other : Store κ SavedPlan} (shape : Shape s executors)
    (regions : other.regions = s.regions) (chunks : other.chunks = s.chunks)
    (fresh : other.fresh = s.fresh) : Shape other executors where
  cache := by rw [regions, shape.cache]
  top := by rw [regions, shape.top]
  nodup := shape.nodup
  connections := by simpa only [regions] using shape.connections
  saved := by simpa only [chunks] using shape.saved
  single := by simpa only [chunks] using shape.single
  placed := by simpa only [regions, chunks] using shape.placed
  leaf := by simpa only [regions, chunks] using shape.leaf
  bounded := by simpa only [regions, fresh] using shape.bounded

end Shape

/-! ## What the operations keep -/

/-- Where the plan of an owner is, or that it is gone. -/
structure Placed (s : Store κ SavedPlan) (executors : List Nat) (object : PlanObject) : Prop where
  kept : object.kept = true → ∃ ctx saved, s.chunks object.plan = some (ctx, saved) ∧
    s.regions ctx = some [cacheMemoryContext]
  running : object.kept = false → object.executor ∈ executors →
    ∃ ctx saved, s.chunks object.plan = some (ctx, saved) ∧
      s.regions ctx = some [object.executor, topTransactionContext]
  gone : object.kept = false → object.executor ∉ executors → s.chunks object.plan = none

/-- An owner's plan: it is followed, nothing was done to it but to keep it, and it is where
it should be. -/
structure Owns (m : PlanMemory ω) (this : ω) (object : PlanObject) : Prop where
  follows : m.tracked.Follows this object.plan fun saved => saved.src = object.src
  fate : m.fates object.plan = ⟨object.kept, false, false⟩
  born : object.executor < m.tracked.memory.fresh
  placed : Placed m.tracked.memory m.executors object

structure PlansInv (m : PlanMemory ω) : Prop where
  tracked : m.tracked.Tracked
  shape : Shape m.tracked.memory m.executors
  safe : m.terminated = false
  freed : ∀ plan, m.freed.count plan = callsDue (m.fates plan)
  unborn : ∀ plan, m.tracked.memory.fresh ≤ plan → m.fates plan = ⟨false, false, false⟩
  owners : ∀ this object, m.objects.lookup this = some object → object.usage = .owner →
    m.Owns this object
  alone : ∀ this other object another, m.objects.lookup this = some object →
    m.objects.lookup other = some another → object.usage = .owner → another.usage = .owner →
    object.plan = another.plan → this = other
  spent : ∀ this object, m.objects.lookup this = some object → object.usage ≠ .owner →
    object.kept = false
  givenUp : ∀ this object, m.objects.lookup this = some object → object.usage = .released →
    (m.fates object.plan).released
  members : ∀ this, this ∈ m.tracked.trackers ↔ this ∈ m.objects

variable {m next : PlanMemory ω} {this other : ω} {object : PlanObject}

/-- An owner's plan is there just while it is to last. -/
theorem PlansInv.lasting_iff (inv : m.PlansInv) (found : m.objects.lookup this = some object)
    (owner : object.usage = .owner) :
    m.Lasting object ↔ ∃ ctx saved, m.tracked.memory.chunks object.plan = some (ctx, saved) := by
  have owns := inv.owners this object found owner
  unfold Lasting
  rw [owns.fate]
  cases kept : object.kept with
  | true =>
    obtain ⟨ctx, saved, held, _⟩ := owns.placed.kept kept
    simp [held]
  | false =>
    by_cases running : object.executor ∈ m.executors
    · obtain ⟨ctx, saved, held, _⟩ := owns.placed.running kept running
      simp [running, held]
    · simp [running, owns.placed.gone kept running]

/-- What an owner is told, and what it has then. -/
theorem PlansInv.toPointer_cases (inv : m.PlansInv)
    (found : m.objects.lookup this = some object) (owner : object.usage = .owner) :
    m.toPointer this object = .pointerGone ∧ ¬ m.Lasting object ∨
      m.toPointer this object = .plan object.plan ∧ m.Lasting object ∧
        ∃ ctx saved, m.tracked.memory.chunks object.plan = some (ctx, saved) ∧
          saved.src = object.src := by
  have owns := inv.owners this object found owner
  have there : this ∈ m.tracked.trackers :=
    (inv.members this).mpr (mem_of_lookup found)
  obtain ⟨ctx, member⟩ := Option.isSome_iff_exists.mp (AList.lookup_isSome.mpr there)
  rw [inv.lasting_iff found owner]
  cases owns.follows.resets inv.tracked member with
  | inl gone =>
    left
    simp [toPointer, member, gone.1, gone.2]
  | inr held =>
    obtain ⟨unreset, region, saved, held, src⟩ := held
    right
    simp [toPointer, member, unreset, held, src]

theorem PlansInv.plansRight (inv : m.PlansInv) : m.PlansRight where
  defined := inv.tracked.defined
  safe := inv.safe
  freed := inv.freed
  usable this object found owner lasting := by
    have told := (inv.toPointer_cases found owner).resolve_left fun gone => gone.2 lasting
    obtain ⟨pointer, _, ctx, saved, held, src⟩ := told
    refine ⟨pointer, fun executor current => ?_⟩
    simp [queryPlan, current, pointer, held, src]
  refused this object found owner gone := by
    have told := (inv.toPointer_cases found owner).resolve_right fun held => gone held.2.1
    refine ⟨told.1, fun executor current => ?_⟩
    simp [queryPlan, current, told.1]
  elsewhere this object executor outer := by
    simp [queryPlan, outer]

theorem Owns.plan_lt (owns : m.Owns this object) : object.plan < m.tracked.memory.fresh :=
  owns.follows.1

/-- Where a plan stays if its context does. -/
theorem Placed.stays {s other : Store κ SavedPlan} {executors left : List Nat}
    (placed : Placed s executors object) (running : object.executor ∈ left ↔
      object.executor ∈ executors)
    (absent : s.chunks object.plan = none → other.chunks object.plan = none)
    (stays : ∀ ctx saved ancestors, s.chunks object.plan = some (ctx, saved) →
      s.regions ctx = some ancestors →
      other.chunks object.plan = some (ctx, saved) ∧ other.regions ctx = some ancestors) :
    Placed other left object where
  kept is_kept := by
    obtain ⟨ctx, saved, held, region⟩ := placed.kept is_kept
    exact ⟨ctx, saved, stays ctx saved _ held region⟩
  running unkept is_running := by
    obtain ⟨ctx, saved, held, region⟩ := placed.running unkept (running.mp is_running)
    exact ⟨ctx, saved, stays ctx saved _ held region⟩
  gone unkept finished := absent (placed.gone unkept fun is_running => finished (running.mpr is_running))

theorem PlansInv.connect (inv : m.PlansInv) : m.connect.PlansInv where
  tracked := { inv.tracked with }
  shape := inv.shape.connect
  safe := inv.safe
  freed := inv.freed
  unborn plan above := inv.unborn plan (Nat.le_of_succ_le above)
  owners this object found owner := by
    have owns := inv.owners this object found owner
    refine ⟨owns.follows.apart ⟨rfl, fun _ _ _ => rfl, rfl, .inr rfl⟩, owns.fate,
      Nat.lt_succ_of_lt owns.born, owns.placed.stays ?_ id ?_⟩
    · have below := owns.born
      have other : object.executor ≠ m.tracked.memory.fresh := by omega
      simp [PlanMemory.connect, other]
    · intro ctx saved ancestors held region
      exact ⟨held, Store.regions_create_of_some region⟩
  alone := inv.alone
  spent := inv.spent
  givenUp := inv.givenUp
  members := inv.members

section Finish
variable {s : Store κ SavedPlan} {executor : Nat} {outer : List Nat}

/-- What is not below a connection that finishes stays. -/
theorem Shape.outside (shape : Shape s (executor :: outer)) {address ctx : Nat}
    {saved : SavedPlan} {ancestors : List Nat} (held : s.chunks address = some (ctx, saved))
    (found : s.regions ctx = some ancestors) (other : ancestors ≠ [topTransactionContext])
    (apart : executor ∉ ancestors) :
    (s.release executor true).chunks address = some (ctx, saved) ∧
      (s.release executor true).regions ctx = some ancestors := by
  have region := shape.connections executor List.mem_cons_self
  have different : ctx ≠ executor := by
    intro same
    rw [same, region, Option.some.injEq] at found
    exact other found.symm
  have uncovered := covers_eq_false found different apart
  exact ⟨Store.chunks_release_eq_some.mpr ⟨held, uncovered⟩,
    Store.regions_delete_eq_some.mpr ⟨found, uncovered⟩⟩

theorem Placed.finish (placed : Placed s (executor :: outer) object)
    (shape : Shape s (executor :: outer)) :
    Placed (s.release executor true) outer object := by
  obtain ⟨notCache, notTop⟩ := shape.executor_ne List.mem_cons_self
  have unique := (List.nodup_cons.mp shape.nodup).1
  constructor
  case kept =>
    intro kept
    obtain ⟨ctx, saved, held, found⟩ := placed.kept kept
    exact ⟨ctx, saved, shape.outside held found
      (by simp [cacheMemoryContext, topTransactionContext]) (by simpa using notCache)⟩
  case running =>
    intro unkept running
    have different : object.executor ≠ executor := by
      intro same
      rw [same] at running
      exact unique running
    obtain ⟨ctx, saved, held, found⟩ :=
      placed.running unkept (List.mem_cons_of_mem _ running)
    refine ⟨ctx, saved, shape.outside held found (by simp) ?_⟩
    simp [Ne.symm different, notTop]
  case gone =>
    intro unkept finished
    by_cases same : object.executor = executor
    · obtain ⟨ctx, saved, held, found⟩ :=
        placed.running unkept (by rw [same]; exact List.mem_cons_self)
      have covered : s.covers executor ctx := by
        rw [Store.covers_iff found, same]
        simp
      simp [Store.release, held, covered]
    · have none : s.chunks object.plan = none := by
        apply placed.gone unkept
        intro running
        exact (List.mem_cons.mp running).elim same finished
      simp [Store.release, none]

end Finish

/-- A connection finishes: the plans in it that were not kept are gone. -/
theorem PlansInv.finish (inv : m.PlansInv) {executor : Nat} {outer : List Nat}
    (nested : m.executors = executor :: outer) : (m.finish executor outer).PlansInv := by
  have shape := inv.shape
  rw [nested] at shape
  constructor
  case tracked => exact inv.tracked.release true
  case shape => exact shape.finish
  case safe => exact inv.safe
  case freed => exact inv.freed
  case unborn => exact inv.unborn
  case owners =>
    intro this object found owner
    have owns := inv.owners this object found owner
    have placed := owns.placed
    rw [nested] at placed
    exact ⟨owns.follows.release inv.tracked executor true, owns.fate, owns.born,
      placed.finish shape⟩
  case alone => exact inv.alone
  case spent => exact inv.spent
  case givenUp => exact inv.givenUp
  case members =>
    intro this
    show this ∈ (m.tracked.release executor true).trackers ↔ _
    rw [trackers_release]
    exact inv.members this

/-- A plan that an owner has is not that of another owner, nor of an object that gave it up. -/
theorem PlansInv.plan_ne (inv : m.PlansInv) (found : m.objects.lookup this = some object)
    (owner : object.usage = .owner) {another : PlanObject}
    (also : m.objects.lookup other = some another) (different : other ≠ this)
    (unmoved : another.usage ≠ .moved) : another.plan ≠ object.plan := by
  intro same
  cases usage : another.usage with
  | owner => exact different (inv.alone other this another object also found usage owner same)
  | released =>
    have given := inv.givenUp other another also usage
    rw [same, (inv.owners this object found owner).fate] at given
    cases given
  | moved => exact unmoved usage

/-- Something is done to one object and to its plan, which no other owner has. -/
theorem PlansInv.update (inv : m.PlansInv) (this : ω)
    {tracked : TrackedMemory ω SavedPlan} {objects : AList fun _ : ω => PlanObject}
    {freed : List Nat} {plan : Nat} {fate : PlanFate}
    (still : tracked.Tracked) (shape : Shape tracked.memory m.executors)
    (fresh : tracked.memory.fresh = m.tracked.memory.fresh)
    (below : plan < m.tracked.memory.fresh)
    (members : ∀ one, one ∈ tracked.trackers ↔ one ∈ objects)
    (elsewhere : ∀ one, one ≠ this → objects.lookup one = m.objects.lookup one)
    (others : ∀ one another, one ≠ this → m.objects.lookup one = some another →
      another.usage = .owner → another.plan ≠ plan ∧
        tracked.Follows one another.plan (fun saved => saved.src = another.src) ∧
        Placed tracked.memory m.executors another)
    (given : (m.fates plan).released → fate.released)
    (mine : ∀ object, objects.lookup this = some object →
      object.plan = plan ∧ (object.usage = .released → fate.released) ∧
        (object.usage ≠ .owner → object.kept = false) ∧
        (object.usage = .owner → tracked.Follows this plan (fun saved => saved.src = object.src) ∧
          fate = ⟨object.kept, false, false⟩ ∧ object.executor < m.tracked.memory.fresh ∧
          Placed tracked.memory m.executors object))
    (counts : ∀ one, freed.count one = callsDue (if one = plan then fate else m.fates one)) :
    PlansInv { m with
      tracked := tracked, objects := objects, freed := freed
      fates := fun other => if other = plan then fate else m.fates other } where
  tracked := still
  shape := shape
  safe := inv.safe
  freed := counts
  unborn one above := by
    have above : m.tracked.memory.fresh ≤ one := by rwa [← fresh]
    simp only
    rw [if_neg (by omega)]
    exact inv.unborn one above
  owners one object found owner := by
    by_cases same : one = this
    · subst same
      obtain ⟨samePlan, _, _, owned⟩ := mine object found
      obtain ⟨follows, fate, born, placed⟩ := owned owner
      subst samePlan
      refine ⟨follows, ?_, ?_, placed⟩
      · simp [fate]
      · rwa [fresh]
    · rw [elsewhere one same] at found
      obtain ⟨different, follows, placed⟩ := others one object same found owner
      have owns := inv.owners one object found owner
      refine ⟨follows, ?_, ?_, placed⟩
      · simp only
        rw [if_neg different]
        exact owns.fate
      · rw [fresh]
        exact owns.born
  alone one two object another found also owner another_owner same := by
    by_cases first : one = this
    · by_cases second : two = this
      · rw [first, second]
      · rw [elsewhere two second] at also
        rw [first] at found
        have apart := (others two another second also another_owner).1
        rw [← same, (mine object found).1] at apart
        exact absurd rfl apart
    · rw [elsewhere one first] at found
      by_cases second : two = this
      · rw [second] at also
        have apart := (others one object first found owner).1
        rw [same, (mine another also).1] at apart
        exact absurd rfl apart
      · rw [elsewhere two second] at also
        exact inv.alone one two object another found also owner another_owner same
  spent one object found spent := by
    by_cases same : one = this
    · rw [same] at found
      exact (mine object found).2.2.1 spent
    · rw [elsewhere one same] at found
      exact inv.spent one object found spent
  givenUp one object found released := by
    by_cases same : one = this
    · rw [same] at found
      obtain ⟨samePlan, given, _⟩ := mine object found
      simp [samePlan, given released]
    · rw [elsewhere one same] at found
      have old := inv.givenUp one object found released
      by_cases samePlan : object.plan = plan
      · rw [samePlan] at old
        simp [samePlan, given old]
      · simp [samePlan, old]
  members := members

/-- A call on a plan that is not to have been freed yet. -/
theorem PlansInv.count_owned (inv : m.PlansInv) (found : m.objects.lookup this = some object)
    (owner : object.usage = .owner) : m.freed.count object.plan = 0 := by
  rw [inv.freed, (inv.owners this object found owner).fate]
  simp [callsDue]

/-- The calls stay what they are due to be where the owned plan gets a fate with none. -/
theorem PlansInv.counts_owned (inv : m.PlansInv) (found : m.objects.lookup this = some object)
    (owner : object.usage = .owner) {fate : PlanFate} (none : callsDue fate = 0) (one : Nat) :
    m.freed.count one = callsDue (if one = object.plan then fate else m.fates one) := by
  split
  · rename_i same
    rw [same, inv.count_owned found owner, none]
  · exact inv.freed one

/-- `keep()` -/
theorem PlansInv.keep (inv : m.PlansInv) (found : m.objects.lookup this = some object)
    (owner : object.usage = .owner) : (m.keep this object).PlansInv := by
  have owns := inv.owners this object found owner
  cases inv.toPointer_cases found owner with
  | inl gone =>
    rw [show m.keep this object = m by simp [PlanMemory.keep, gone.1]]
    exact inv
  | inr told =>
    obtain ⟨pointer, _, ctx, saved, held, _⟩ := told
    have plancxt := inv.shape.saved object.plan ctx saved held
    simp only [PlanMemory.keep, pointer, spiKeepplan, held, plancxt, setObject, setFate]
    have regions := inv.shape.regions_reparent held
    have still : TrackedMemory.Tracked { m.tracked with
        memory := m.tracked.memory.reparent ctx cacheMemoryContext } := { inv.tracked with }
    apply inv.update this still (inv.shape.keep held) rfl owns.plan_lt
    · intro one
      rw [mem_insert_of_mem (mem_of_lookup found)]
      exact inv.members one
    · exact fun one different => AList.lookup_insert_ne different
    · intro one another different also another_owner
      have others := inv.owners one another also another_owner
      refine ⟨inv.plan_ne found owner also different (by simp [another_owner]), others.follows,
        others.placed.stays Iff.rfl id ?_⟩
      intro place other ancestors held' region
      refine ⟨held', ?_⟩
      have apart : place ≠ ctx := by
        intro same
        rw [same] at held'
        have samePlan := inv.shape.single another.plan object.plan ctx other saved held' held
        exact inv.plan_ne found owner also different (by simp [another_owner]) samePlan
      rw [regions, if_neg apart]
      exact region
    · exact id
    · intro after same
      rw [AList.lookup_insert, Option.some.injEq] at same
      subst same
      refine ⟨rfl, by simp [owner], by simp [owner], fun _ => ⟨owns.follows, ?_, owns.born, ?_⟩⟩
      · simp [owns.fate]
      · refine ⟨fun _ => ⟨ctx, saved, held, ?_⟩, by simp, by simp⟩
        rw [regions, if_pos rfl]
    · exact inv.counts_owned found owner (by simp [owns.fate, callsDue])

/-- `release()` -/
theorem PlansInv.release (inv : m.PlansInv) (found : m.objects.lookup this = some object)
    (owner : object.usage = .owner) : (m.release this object).PlansInv := by
  have owns := inv.owners this object found owner
  simp only [PlanMemory.release, setObject, setFate]
  apply inv.update this inv.tracked inv.shape rfl owns.plan_lt
  · intro one
    rw [mem_insert_of_mem (mem_of_lookup found)]
    exact inv.members one
  · exact fun one different => AList.lookup_insert_ne different
  · intro one another different also another_owner
    have others := inv.owners one another also another_owner
    exact ⟨inv.plan_ne found owner also different (by simp [another_owner]), others.follows,
      others.placed⟩
  · simp
  · intro after same
    rw [AList.lookup_insert, Option.some.injEq] at same
    subst same
    simp
  · exact inv.counts_owned found owner (by simp [owns.fate, callsDue])

/-- The objects after the other one was moved into a new one. -/
theorem lookup_moved {objects : AList fun _ : ω => PlanObject} {one : ω} {after : PlanObject}
    (is_after : ((objects.insert other { object with kept := false, usage := .moved }).insert this
      object).lookup one = some after) :
    one = this ∧ after = object ∨
      one = other ∧ after = { object with kept := false, usage := .moved } ∨
      (one ≠ this ∧ one ≠ other) ∧ objects.lookup one = some after := by
  obtain new | ⟨new, is_after⟩ := lookup_insert_cases is_after
  · exact .inl new
  · obtain old | ⟨old, is_after⟩ := lookup_insert_cases is_after
    · exact .inr (.inl old)
    · exact .inr (.inr ⟨⟨new, old⟩, is_after⟩)

/-- An owner after the move was an owner before, the new one under the name of the other. -/
theorem owner_before_move {objects : AList fun _ : ω => PlanObject} {one : ω} {after : PlanObject}
    (found : objects.lookup other = some object)
    (is_after : ((objects.insert other { object with kept := false, usage := .moved }).insert this
      object).lookup one = some after) (is_owner : after.usage = .owner) :
    ∃ before, objects.lookup before = some after ∧
      (before = one ∧ one ≠ this ∧ one ≠ other ∨ before = other ∧ one = this) := by
  obtain new | gone | old := lookup_moved is_after
  · exact ⟨other, by rw [found, new.2], .inr ⟨rfl, new.1⟩⟩
  · rw [gone.2] at is_owner
    cases is_owner
  · exact ⟨one, old.2, .inl ⟨rfl, old.1⟩⟩

/-- The move constructor: the new object owns what the other one did. -/
theorem PlansInv.moveConstruct (inv : m.PlansInv) (found : m.objects.lookup other = some object)
    (owner : object.usage = .owner) (taking : m.moveConstruct this other object = some next) :
    next.PlansInv := by
  obtain ⟨tracked, moving, rfl⟩ := Option.map_eq_some_iff.mp taking
  have memory : tracked.memory = m.tracked.memory := by
    obtain ⟨_, moving⟩ := Option.ite_none_left_eq_some.mp moving
    obtain ⟨_, _, rfl⟩ := Option.map_eq_some_iff.mp moving
    rfl
  constructor
  case tracked => exact tracked_step inv.tracked (by trivial) moving
  case shape =>
    simp only [setObject, memory]
    exact inv.shape
  case safe => exact inv.safe
  case freed => exact inv.freed
  case unborn =>
    intro plan above
    simp only [setObject, memory] at above
    exact inv.unborn plan above
  case owners =>
    intro one after is_after is_owner
    obtain ⟨before, old, which⟩ := owner_before_move found is_after is_owner
    have owns := inv.owners before after old is_owner
    refine ⟨?_, owns.fate, ?_, ?_⟩
    · cases which with
      | inl same =>
        rw [same.1] at owns
        exact follows_step inv.tracked owns.follows (by simpa [Writes] using same.2) moving
      | inr moved =>
        rw [moved.1] at owns
        rw [moved.2]
        exact follows_copied owns.follows (.inr (.inr (.inl rfl))) moving
    · simp only [setObject, memory]
      exact owns.born
    · simp only [setObject, memory]
      exact owns.placed
  case alone =>
    intro one two first second is_first is_second first_owner second_owner same
    obtain ⟨before, old, which⟩ := owner_before_move found is_first first_owner
    obtain ⟨earlier, also, that⟩ := owner_before_move found is_second second_owner
    have equal := inv.alone before earlier first second old also first_owner second_owner same
    grind
  case spent =>
    intro one after is_after spent
    obtain new | gone | old := lookup_moved is_after
    · rw [new.2] at spent
      exact absurd owner spent
    · rw [gone.2]
    · exact inv.spent one after old.2 spent
  case givenUp =>
    intro one after is_after released
    obtain new | gone | old := lookup_moved is_after
    · rw [new.2, owner] at released
      cases released
    · rw [gone.2] at released
      cases released
    · exact inv.givenUp one after old.2 released
  case members =>
    intro one
    refine (mem_step moving).trans ?_
    simp only [setObject, AList.mem_insert, Present, inv.members]
    constructor
    · exact fun either => either.imp_right .inr
    · intro either
      obtain new | same | old := either
      · exact .inl new
      · rw [same]
        exact .inr (mem_of_lookup found)
      · exact .inr old

section Prepare
variable {executor : Nat} {query : String} {tracked : TrackedMemory ω SavedPlan}
  {isLive : (m.tracked.memory.create (some executor)).live m.tracked.memory.fresh}

/-- The memory with a plan, in a context of its own, before an object tracks that. -/
def withPlan (m : PlanMemory ω) (executor : Nat) (query : String)
    (isLive : (m.tracked.memory.create (some executor)).live m.tracked.memory.fresh) :
    TrackedMemory ω SavedPlan :=
  { m.tracked with
    memory := (m.tracked.memory.create (some executor)).alloc m.tracked.memory.fresh
      ⟨query, m.tracked.memory.fresh⟩ isLive }

theorem withPlan_tracked (inv : m.PlansInv) : (m.withPlan executor query isLive).Tracked :=
  { inv.tracked with }

omit [DecidableEq ω] in
theorem withPlan_chunk :
    (m.withPlan executor query isLive).memory.chunks (m.tracked.memory.fresh + 1) =
      some (m.tracked.memory.fresh, ⟨query, m.tracked.memory.fresh⟩) := by
  simp [withPlan, Store.alloc, Store.create]

/-- The object that tracks the context of the plan changes neither regions nor chunks. -/
theorem memory_construct (constructing : (m.withPlan executor query isLive).step
      (.construct this m.tracked.memory.fresh) = some tracked) :
    tracked.memory.regions = (m.tracked.memory.create (some executor)).regions ∧
      tracked.memory.chunks = (m.withPlan executor query isLive).memory.chunks ∧
      tracked.memory.fresh = m.tracked.memory.fresh + 2 := by
  obtain ⟨alive, constructed⟩ := Option.dite_none_right_eq_some.mp
    (Option.ite_none_left_eq_some.mp constructing).2
  cases constructed
  exact ⟨rfl, rfl, rfl⟩

/-- The plan is owned by the object for it. -/
theorem PlansInv.prepare_owns (inv : m.PlansInv) (running : executor ∈ m.executors)
    (constructing : (m.withPlan executor query isLive).step
      (.construct this m.tracked.memory.fresh) = some tracked) :
    ({ m with tracked } : PlanMemory ω).Owns this
      ⟨false, m.tracked.memory.fresh + 1, executor, query, .owner⟩ := by
  have region := inv.shape.connections executor running
  obtain ⟨regions, chunks, fresh⟩ := memory_construct constructing
  constructor
  case follows =>
    obtain ⟨alive, constructed⟩ := Option.dite_none_right_eq_some.mp
      (Option.ite_none_left_eq_some.mp constructing).2
    cases constructed
    exact follows_construct alive withPlan_chunk rfl
  case fate => exact inv.unborn _ (Nat.le_succ _)
  case born =>
    have below := Store.lt_fresh region
    show executor < tracked.memory.fresh
    omega
  case placed =>
    refine ⟨by simp, fun _ _ => ?_, fun _ finished => absurd running finished⟩
    refine ⟨m.tracked.memory.fresh, ⟨query, m.tracked.memory.fresh⟩, ?_, ?_⟩
    · rw [chunks]
      exact withPlan_chunk
    · rw [regions]
      exact regions_create region

/-- What others own is not concerned. -/
theorem Owns.prepare (owns : m.Owns other object) (inv : m.PlansInv) (different : other ≠ this)
    (constructing : (m.withPlan executor query isLive).step
      (.construct this m.tracked.memory.fresh) = some tracked) :
    ({ m with tracked } : PlanMemory ω).Owns other object := by
  have lower := owns.plan_lt
  obtain ⟨regions, chunks, fresh⟩ := memory_construct constructing
  have same_chunk : tracked.memory.chunks object.plan = m.tracked.memory.chunks object.plan := by
    have apart : object.plan ≠ m.tracked.memory.fresh + 1 := by omega
    simp [chunks, withPlan, Store.alloc, Store.create, apart]
  constructor
  case follows =>
    have created : TrackedMemory.Follows { m.tracked with
        memory := m.tracked.memory.create (some executor) } other object.plan
        fun saved => saved.src = object.src :=
      owns.follows.apart ⟨rfl, fun _ _ _ => rfl, rfl, .inr rfl⟩
    exact follows_step (withPlan_tracked inv) (created.alloc isLive)
      (by simpa [Writes] using different) constructing
  case fate => exact owns.fate
  case born =>
    have born := owns.born
    show object.executor < tracked.memory.fresh
    omega
  case placed =>
    refine owns.placed.stays Iff.rfl ?_ ?_
    · intro none
      exact same_chunk.trans none
    · intro ctx saved ancestors held found
      exact ⟨same_chunk.trans held,
        (congrFun regions _).trans (Store.regions_create_of_some found)⟩

/-- `spi_executor::plan`, in the innermost executor. -/
theorem PlansInv.prepare (inv : m.PlansInv) (running : executor ∈ m.executors)
    (taking : m.prepare this executor query = some next) : next.PlansInv := by
  obtain ⟨isLive, taking⟩ := Option.dite_none_right_eq_some.mp taking
  obtain ⟨tracked, constructing, rfl⟩ := Option.map_eq_some_iff.mp taking
  change (m.withPlan executor query isLive).step _ = _ at constructing
  obtain ⟨regions, chunks, fresh⟩ := memory_construct constructing
  -- the plans of the owners that were there are older
  have new_apart : ∀ one after, m.objects.lookup one = some after → after.usage = .owner →
      after.plan ≠ m.tracked.memory.fresh + 1 := by
    intro one after found is_owner
    have lower := (inv.owners one after found is_owner).plan_lt
    omega
  constructor
  case tracked => exact tracked_step (withPlan_tracked inv) (by trivial) constructing
  case shape =>
    have made := @Shape.prepare _ _ _ inv.shape executor query running isLive
    exact made.congr regions chunks fresh
  case safe => exact inv.safe
  case freed => exact inv.freed
  case unborn =>
    intro plan above
    have above : m.tracked.memory.fresh + 2 ≤ plan := fresh ▸ above
    exact inv.unborn plan (by omega)
  case owners =>
    intro one after is_after is_owner
    obtain ⟨rfl, rfl⟩ | ⟨different, old⟩ := lookup_insert_cases is_after
    · have owns := inv.prepare_owns running constructing
      exact ⟨owns.follows, owns.fate, owns.born, owns.placed⟩
    · have owns := (inv.owners one after old is_owner).prepare inv different constructing
      exact ⟨owns.follows, owns.fate, owns.born, owns.placed⟩
  case alone =>
    intro one two first second is_first is_second first_owner second_owner same
    obtain ⟨rfl, rfl⟩ | ⟨_, old⟩ := lookup_insert_cases is_first
    · obtain ⟨rfl, rfl⟩ | ⟨_, also⟩ := lookup_insert_cases is_second
      · rfl
      · exact absurd same.symm (new_apart two second also second_owner)
    · obtain ⟨rfl, rfl⟩ | ⟨_, also⟩ := lookup_insert_cases is_second
      · exact absurd same (new_apart one first old first_owner)
      · exact inv.alone one two first second old also first_owner second_owner same
  case spent =>
    intro one after is_after spent
    obtain ⟨rfl, rfl⟩ | ⟨_, old⟩ := lookup_insert_cases is_after
    · rfl
    · exact inv.spent one after old spent
  case givenUp =>
    intro one after is_after released
    obtain ⟨rfl, rfl⟩ | ⟨_, old⟩ := lookup_insert_cases is_after
    · cases released
    · exact inv.givenUp one after old released
  case members =>
    intro one
    refine (mem_step constructing).trans ?_
    simp only [setObject, AList.mem_insert, Present]
    exact or_congr_right (inv.members one)

end Prepare

/-- What the destruction of the member leaves. -/
structure Dropped (before after : TrackedMemory ω SavedPlan) (this : ω) : Prop where
  tracked : after.Tracked
  regions : after.memory.regions = before.memory.regions
  chunks : after.memory.chunks = before.memory.chunks
  fresh : after.memory.fresh = before.memory.fresh
  members : ∀ one, one ∈ after.trackers ↔ one ≠ this ∧ one ∈ before.trackers
  follows : ∀ one address (holds : SavedPlan → Prop), one ≠ this →
    before.Follows one address holds → after.Follows one address holds

theorem dropped {before after : TrackedMemory ω SavedPlan} (tracked : before.Tracked)
    (destroying : before.step (.destroy this) = some after) : Dropped before after this := by
  have still := tracked_step tracked (by trivial) destroying
  have present := fun one => @mem_step _ _ _ _ _ one _ destroying
  have follows : ∀ one address (holds : SavedPlan → Prop), one ≠ this →
      before.Follows one address holds → after.Follows one address holds := by
    intro one address holds different told
    exact follows_step tracked told (by exact different) destroying
  obtain ⟨object, _, rfl⟩ := Option.map_eq_some_iff.mp destroying
  obtain ⟨regions, chunks, fresh⟩ := memory_destroy (m := before) this object
  exact ⟨still, regions, chunks, fresh, present, follows⟩

/-- The destruction of an object that has kept nothing. -/
theorem PlansInv.drop (inv : m.PlansInv) (found : m.objects.lookup this = some object)
    (unkept : object.kept = false) {tracked : TrackedMemory ω SavedPlan}
    (dropped : Dropped m.tracked tracked this)
    (unmoved : object.usage ≠ .moved) :
    (setFate { m with tracked := tracked, objects := m.objects.erase this } object.plan
      fun fate => { fate with destroyed := true }).PlansInv := by
  have members : ∀ one, one ∈ tracked.trackers ↔ one ∈ m.objects.erase this := by
    intro one
    rw [dropped.members, inv.members, AList.mem_erase]
  have others : ∀ one another, one ≠ this → m.objects.lookup one = some another →
      another.usage = .owner → another.plan ≠ object.plan ∧
        tracked.Follows one another.plan (fun saved => saved.src = another.src) ∧
        Placed tracked.memory m.executors another := by
    intro one another different also another_owner
    have owns := inv.owners one another also another_owner
    refine ⟨?_, dropped.follows one _ _ different owns.follows, ?_⟩
    · intro same
      exact inv.plan_ne also another_owner found (Ne.symm different) unmoved same.symm
    · apply owns.placed.stays Iff.rfl
      · rw [dropped.chunks]
        exact id
      · rw [dropped.chunks, dropped.regions]
        exact fun _ _ _ held region => ⟨held, region⟩
  have fateless : callsDue { m.fates object.plan with destroyed := true } =
      callsDue (m.fates object.plan) := by
    cases usage : object.usage with
    | owner =>
      rw [(inv.owners this object found usage).fate, unkept]
      simp [callsDue]
    | released => simp [callsDue, inv.givenUp this object found usage]
    | moved => exact absurd usage unmoved
  have below : object.plan < m.tracked.memory.fresh := by
    cases usage : object.usage with
    | owner => exact (inv.owners this object found usage).plan_lt
    | released =>
      by_contra above
      have given := inv.givenUp this object found usage
      rw [inv.unborn object.plan (by omega)] at given
      cases given
    | moved => exact absurd usage unmoved
  apply inv.update this dropped.tracked
    (inv.shape.congr dropped.regions dropped.chunks dropped.fresh) dropped.fresh below members
    (fun one different => AList.lookup_erase_ne different) others
  · exact id
  · intro after found
    rw [AList.lookup_erase] at found
    cases found
  · intro one
    rw [inv.freed]
    split
    · rename_i same
      rw [same, ← fateless]
    · rfl

/-- The destruction of an owner that has kept its plan. -/
theorem PlansInv.free (inv : m.PlansInv) (found : m.objects.lookup this = some object)
    (kept : object.kept) {ctx : Nat} {saved : SavedPlan}
    (held : m.tracked.memory.chunks object.plan = some (ctx, saved))
    {tracked : TrackedMemory ω SavedPlan}
    (dropped : Dropped (m.tracked.release ctx true) tracked this) :
    (setFate { m with
      tracked := tracked, objects := m.objects.erase this, freed := object.plan :: m.freed }
      object.plan fun fate => { fate with destroyed := true }).PlansInv := by
  have owner : object.usage = .owner := by
    by_contra spent
    rw [inv.spent this object found spent] at kept
    cases kept
  have owns := inv.owners this object found owner
  apply inv.update this dropped.tracked
    ((inv.shape.free held).congr dropped.regions dropped.chunks dropped.fresh) dropped.fresh
    owns.plan_lt
  · intro one
    rw [dropped.members, trackers_release, inv.members, AList.mem_erase]
  · exact fun one different => AList.lookup_erase_ne different
  · intro one another different also another_owner
    have others := inv.owners one another also another_owner
    have apart := inv.plan_ne found owner also different (by simp [another_owner])
    refine ⟨apart, dropped.follows one _ _ different (others.follows.release inv.tracked ctx true),
      ?_⟩
    apply others.placed.stays Iff.rfl
    · intro none
      rw [dropped.chunks]
      show (m.tracked.memory.release ctx true).chunks another.plan = Option.none
      simp [Store.release, none]
    · intro place other ancestors held' region
      have different : place ≠ ctx := by
        intro same
        rw [same] at held'
        exact apart (inv.shape.single another.plan object.plan ctx other saved held' held)
      have uncovered := covers_eq_false region different
        (inv.shape.leaf object.plan ctx saved place ancestors held region)
      rw [dropped.chunks, dropped.regions]
      exact ⟨Store.chunks_release_eq_some.mpr ⟨held', uncovered⟩,
        Store.regions_delete_eq_some.mpr ⟨region, uncovered⟩⟩
  · exact id
  · intro after found
    rw [AList.lookup_erase] at found
    cases found
  · intro one
    by_cases same : one = object.plan
    · rw [same, if_pos rfl, List.count_cons_self, inv.count_owned found owner, owns.fate, kept]
      simp [callsDue]
    · rw [if_neg same, List.count_cons_of_ne (Ne.symm same), inv.freed]

/-- An object that was moved from goes without a trace. -/
theorem PlansInv.dropMoved (inv : m.PlansInv) {tracked : TrackedMemory ω SavedPlan}
    (dropped : Dropped m.tracked tracked this) :
    PlansInv { m with tracked := tracked, objects := m.objects.erase this } := by
  refine ⟨dropped.tracked, inv.shape.congr dropped.regions dropped.chunks dropped.fresh, inv.safe,
    inv.freed, ?_, ?_, ?_, ?_, ?_, ?_⟩
  · intro plan above
    exact inv.unborn plan (dropped.fresh ▸ above)
  · intro one after found owner
    obtain ⟨different, found⟩ := lookup_erase_cases found
    have owns := inv.owners one after found owner
    refine ⟨dropped.follows one _ _ different owns.follows, owns.fate, dropped.fresh ▸ owns.born,
      owns.placed.stays Iff.rfl ?_ ?_⟩
    · show m.tracked.memory.chunks after.plan = none → tracked.memory.chunks after.plan = none
      rw [dropped.chunks]
      exact id
    · show ∀ _ _ _, _ → _ → tracked.memory.chunks after.plan = _ ∧ tracked.memory.regions _ = _
      rw [dropped.chunks, dropped.regions]
      exact fun _ _ _ held region => ⟨held, region⟩
  · intro one two first second found also
    exact inv.alone one two first second (lookup_erase_cases found).2 (lookup_erase_cases also).2
  · exact fun one after found => inv.spent one after (lookup_erase_cases found).2
  · exact fun one after found => inv.givenUp one after (lookup_erase_cases found).2
  · intro one
    exact (dropped.members one).trans (by rw [inv.members, AList.mem_erase])

theorem PlansInv.destroy (inv : m.PlansInv) (found : m.objects.lookup this = some object)
    (taking : m.destroy this object = some next) : next.PlansInv := by
  obtain ⟨tracked, destroying, same⟩ := Option.map_eq_some_iff.mp taking
  cases kept : object.kept with
  | true =>
    have owner : object.usage = .owner := by
      by_contra spent
      rw [inv.spent this object found spent] at kept
      cases kept
    have lasting : m.Lasting object := .inl (by rw [(inv.owners this object found owner).fate, kept])
    obtain ⟨pointer, _, ctx, saved, held, _⟩ :=
      (inv.toPointer_cases found owner).resolve_left fun gone => gone.2 lasting
    have plancxt := inv.shape.saved object.plan ctx saved held
    simp only [freeKept, kept, if_true, pointer, spiFreeplan, held, plancxt, owner,
      reduceCtorEq, if_false] at destroying same
    rw [← same]
    exact inv.free found kept held (dropped (inv.tracked.release true) destroying)
  | false =>
    simp only [freeKept, kept, Bool.false_eq_true, if_false] at destroying same
    have gone := dropped inv.tracked destroying
    by_cases moved : object.usage = .moved
    · rw [if_pos moved] at same
      rw [← same]
      exact inv.dropMoved gone
    · rw [if_neg moved] at same
      rw [← same]
      exact inv.drop found kept gone moved

/-! ## Runs -/

theorem start_regions {region : Nat} {ancestors : List Nat}
    (found : ((Store.empty.create none).create none : Store κ SavedPlan).regions region =
      some ancestors) : ancestors = [] := by
  by_cases second : region = 1
  · simpa [Store.create, Store.empty, second, eq_comm] using found
  · by_cases first : region = 0
    · simpa [Store.create, Store.empty, first, eq_comm] using found
    · simp [Store.create, Store.empty, first, second] at found

theorem start_shape : Shape ((Store.empty.create none).create none : Store κ SavedPlan) [] where
  cache := rfl
  top := rfl
  nodup := List.nodup_nil
  connections := by simp
  saved address ctx plan held := by cases held
  single one two ctx plan other held := by cases held
  placed address ctx plan held := by cases held
  leaf address ctx plan other ancestors held := by cases held
  bounded other ancestors above found among := by
    rw [start_regions found] at among
    cases among

theorem start_inv : (start : PlanMemory ω).PlansInv where
  tracked := { (start_tracked : (TrackedMemory.start : TrackedMemory ω SavedPlan).Tracked) with }
  shape := start_shape
  safe := rfl
  freed plan := by simp [start, callsDue]
  unborn _ _ := rfl
  owners this object found := by simp [start] at found
  alone this other object another found := by simp [start] at found
  spent this object found := by simp [start] at found
  givenUp this object found := by simp [start] at found
  members this := by simp [start, TrackedMemory.start]

theorem plansInv_step {action : PlanAction ω} (inv : m.PlansInv)
    (taking : m.step action = some next) : next.PlansInv := by
  cases action with
  | connect =>
    cases taking
    exact inv.connect
  | finish =>
    cases nested : m.executors with
    | nil => simp [step, nested] at taking
    | cons executor outer =>
      simp only [step, nested, Option.some.injEq] at taking
      rw [← taking]
      exact inv.finish nested
  | prepare this executor query =>
    obtain ⟨running, taking⟩ := Option.ite_none_right_eq_some.mp taking
    split at taking
    · cases taking
      exact inv
    · exact inv.prepare running taking
  | keep this =>
    obtain ⟨object, found, taking⟩ := Option.bind_eq_some_iff.mp taking
    obtain ⟨owner, same⟩ := Option.ite_none_right_eq_some.mp taking
    cases same
    exact inv.keep found owner
  | moveConstruct this other =>
    obtain ⟨object, found, taking⟩ := Option.bind_eq_some_iff.mp taking
    obtain ⟨owner, taking⟩ := Option.ite_none_right_eq_some.mp taking
    exact inv.moveConstruct found owner taking
  | query executor this =>
    obtain ⟨object, found, taking⟩ := Option.bind_eq_some_iff.mp taking
    obtain ⟨_, same⟩ := Option.ite_none_right_eq_some.mp taking
    cases same
    exact inv
  | release this =>
    obtain ⟨object, found, taking⟩ := Option.bind_eq_some_iff.mp taking
    obtain ⟨owner, same⟩ := Option.ite_none_right_eq_some.mp taking
    cases same
    exact inv.release found owner
  | destroy this =>
    obtain ⟨object, found, taking⟩ := Option.bind_eq_some_iff.mp taking
    exact inv.destroy found taking

/-- Plans are freed and refused as they should be in every history. -/
theorem plans_right (actions : List (PlanAction ω)) :
    Always step PlansRight (start : PlanMemory ω) actions :=
  always_of_meets (fun _ inv => inv.plansRight)
    (fun _ _ _ inv _ taking => plansInv_step inv taking) start_inv
    (meets_of_forall fun _ _ _ => trivial)

/-- Every use of a plan that is gone is refused for that reason, through whichever live
executor. -/
def RefusesGone (m : PlanMemory ω) : Prop :=
  ∀ this object executor, m.objects.lookup this = some object → object.usage = .owner →
    ¬ m.Lasting object → executor ∈ m.executors →
    m.queryPlan executor this object = .pointerGone

/-- A plan that was prepared in an executor that has finished, and two executors. -/
def outlivingPlan : List (PlanAction Unit) :=
  [.connect, .connect, .prepare () 3 "select 1", .finish, .connect]

/-- Through the outer executor the use is refused for another reason. -/
theorem outer_executor_refuses_first :
    ¬ ∀ actions, Always step RefusesGone (start : PlanMemory Unit) actions := by
  intro always
  have reached : (run step (start : PlanMemory Unit) outlivingPlan).any (fun m =>
      (m.objects.lookup ()).any fun object => object.usage = .owner ∧
        (m.fates object.plan).kept = false ∧ object.executor ∉ m.executors ∧ 2 ∈ m.executors ∧
        m.queryPlan 2 () object = .notCurrent) = true := by decide +kernel
  obtain ⟨last, arrived, found⟩ := (Option.any_eq_true _ _).mp reached
  obtain ⟨object, known, told⟩ := (Option.any_eq_true _ _).mp found
  obtain ⟨owner, unkept, finished, running, refused⟩ := of_decide_eq_true told
  have refuses := always_iff.mp (always outlivingPlan) outlivingPlan last List.prefix_rfl arrived
  have gone : ¬ last.Lasting object := by simp [Lasting, unkept, finished]
  rw [refuses () object 2 known owner gone running] at refused
  cases refused

end PlanMemory
end Cppgres
