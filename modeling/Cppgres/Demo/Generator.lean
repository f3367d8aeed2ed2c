import Mathlib.Logic.Function.Basic
import Cppgres.Coroutines.Bodies

/-!
# Generators

`__generator.hpp`, for compilers that have no `std::generator`. A generator may yield the elements of
another, which then runs in its place: the promise of the root points to the innermost one, where the
iterator goes on, and each promise to the one that waits for it. `Cppgres.generator_iterates_iff`
says what a loop reads. A result of `none` is behaviour that is not defined.
-/
namespace Cppgres
open Coroutines

/-- `__generator_promise_base`. What has a `__manual_lifetime` may be constructed or not. -/
structure GeneratorPromise (V E : Type) where
  root : Nat
  parentOrLeaf : Nat
  exception : Option (Option E)
  value : Option V

/-- Where a coroutine is suspended. Where it awaits a nested one, its frame holds that generator. -/
inductive CoroutineFrame (E σ : Type) where
  | suspended (state : σ)
  | awaiting (nested : Nat) (next : σ) (caught : E → σ)
  | done

/-- The generator that a frame holds. -/
def CoroutineFrame.holds {E σ : Type} : CoroutineFrame E σ → Option Nat
  | .awaiting nested _ _ => some nested
  | _ => none

structure Coroutine (V E σ : Type) where
  promise : GeneratorPromise V E
  frame : CoroutineFrame E σ

/-- The coroutines that there are, by their handles. -/
structure CoroutineHeap (V E σ : Type) where
  at_ : Nat → Option (Coroutine V E σ)
  fresh : Nat

/-- Where control goes when a coroutine is suspended: to another, or out of `resume()`. -/
inductive Transfer (E : Type) where
  | resumes (handle : Nat)
  | suspends
  | throws (exception : E)

namespace CoroutineHeap
variable {V E σ : Type}

def none_ : CoroutineHeap V E σ := ⟨fun _ => none, 0⟩

def set (heap : CoroutineHeap V E σ) (handle : Nat) (coroutine : Option (Coroutine V E σ)) :
    CoroutineHeap V E σ :=
  { heap with at_ := Function.update heap.at_ handle coroutine }

def modifyPromise (heap : CoroutineHeap V E σ) (handle : Nat)
    (f : GeneratorPromise V E → GeneratorPromise V E) : Option (CoroutineHeap V E σ) := do
  let coroutine ← heap.at_ handle
  pure (heap.set handle (some { coroutine with promise := f coroutine.promise }))

def setFrame (heap : CoroutineHeap V E σ) (handle : Nat) (frame : CoroutineFrame E σ) :
    Option (CoroutineHeap V E σ) := do
  let coroutine ← heap.at_ handle
  pure (heap.set handle (some { coroutine with frame := frame }))

/-- A call of a coroutine, which is suspended at its start. -/
def create (heap : CoroutineHeap V E σ) (body : σ) : CoroutineHeap V E σ × Nat :=
  ({ heap.set heap.fresh (some ⟨⟨heap.fresh, heap.fresh, none, none⟩, .suspended body⟩) with
      fresh := heap.fresh + 1 }, heap.fresh)

/-- `coroutine_handle::destroy`: the frame with what it holds, then the promise. A generator that is
nested was never started. -/
def destroy : (depth : Nat) → CoroutineHeap V E σ → Nat → Option (CoroutineHeap V E σ)
  | 0, _, _ => none
  | depth + 1, heap, handle => do
    let coroutine ← heap.at_ handle
    let heap ← coroutine.frame.holds.elim (some heap) (destroy depth heap)
    if coroutine.promise.root ≠ handle ∧ coroutine.promise.exception.isNone then none
    else pure (heap.set handle none)

/-- `final_suspend`, and `__final_awaiter::await_suspend`. -/
def finalSuspend (heap : CoroutineHeap V E σ) (handle : Nat) :
    Option (CoroutineHeap V E σ × Transfer E) := do
  let coroutine ← heap.at_ handle
  let heap ← heap.setFrame handle .done
  let promise := coroutine.promise
  if promise.root ≠ handle then
    let heap ← heap.modifyPromise promise.root
      fun root => { root with parentOrLeaf := promise.parentOrLeaf }
    pure (heap, .resumes promise.parentOrLeaf)
  else pure (heap, .suspends)

/-- `unhandled_exception`. If it throws, the coroutine is suspended at its end as well. -/
def unhandledException (heap : CoroutineHeap V E σ) (handle : Nat) (exception : E) :
    Option (CoroutineHeap V E σ × Transfer E) := do
  let coroutine ← heap.at_ handle
  if coroutine.promise.root ≠ handle then
    let _ ← coroutine.promise.exception
    let heap ← heap.modifyPromise handle
      fun promise => { promise with exception := some (some exception) }
    heap.finalSuspend handle
  else
    let heap ← heap.setFrame handle .done
    pure (heap, .throws exception)

/-- `yield_value` of a value. One that is there already would not be destructed. -/
def yieldValue (heap : CoroutineHeap V E σ) (handle : Nat) (value : V) (next : σ) :
    Option (CoroutineHeap V E σ × Transfer E) := do
  let coroutine ← heap.at_ handle
  let root ← heap.at_ coroutine.promise.root
  if root.promise.value.isSome then none
  else
    let heap ← heap.modifyPromise coroutine.promise.root
      fun promise => { promise with value := some value }
    let heap ← heap.setFrame handle (.suspended next)
    pure (heap, .suspends)

/-- `yield_value` of `elements_of` another generator, and `__yield_sequence_awaiter::await_suspend`. -/
def yieldElements (heap : CoroutineHeap V E σ) (handle : Nat) (body next : σ) (caught : E → σ) :
    Option (CoroutineHeap V E σ × Transfer E) := do
  let current ← heap.at_ handle
  let (heap, nested) := heap.create body
  let heap ← heap.setFrame handle (.awaiting nested next caught)
  let heap ← heap.modifyPromise nested fun promise =>
    { promise with root := current.promise.root, parentOrLeaf := handle, exception := some none }
  let heap ← heap.modifyPromise current.promise.root
    fun promise => { promise with parentOrLeaf := nested }
  pure (heap, .resumes nested)

/-- `__yield_sequence_awaiter::await_resume`, and the destruction of the awaiter. -/
def awaitResume (heap : CoroutineHeap V E σ) (nested : Nat) :
    Option (CoroutineHeap V E σ × Option E) := do
  let coroutine ← heap.at_ nested
  let exception ← coroutine.promise.exception
  let heap ← heap.destroy heap.fresh nested
  pure (heap, exception)

variable (code : σ → Step V E σ)

/-- The body runs from a state, and goes on or is suspended. -/
def execute (heap : CoroutineHeap V E σ) (handle : Nat) (state : σ) :
    Option (CoroutineHeap V E σ × Transfer E) :=
  match code state with
  | .goes next => (heap.setFrame handle (.suspended next)).map fun heap => (heap, .resumes handle)
  | .finish => heap.finalSuspend handle
  | .throw e => heap.unhandledException handle e
  | .yield value next => heap.yieldValue handle value next
  | .elements nested next caught => heap.yieldElements handle nested next caught

/-- A coroutine that is at its end must not be resumed. -/
def advance (heap : CoroutineHeap V E σ) (handle : Nat) : Option (CoroutineHeap V E σ × Transfer E) := do
  let coroutine ← heap.at_ handle
  match coroutine.frame with
  | .suspended state => heap.execute code handle state
  | .awaiting nested next caught =>
    let (heap, exception) ← heap.awaitResume nested
    heap.execute code handle (exception.elim next caught)
  | .done => none

end CoroutineHeap

/-- What became of a call, if it took no more turns than there were. -/
inductive Ran (α : Type) where
  | unfinished
  | undefined
  | left (result : α)

instance : Monad Ran where
  pure := .left
  bind ran next :=
    match ran with
    | .unfinished => .unfinished
    | .undefined => .undefined
    | .left result => next result

/-- A result that may be undefined. -/
def Ran.of {α : Type} : Option α → Ran α
  | none => .undefined
  | some result => .left result

namespace CoroutineHeap
variable {V E σ : Type} (code : σ → Step V E σ)

/-- `coroutine_handle::resume`, with the exception that leaves it. -/
def resume : (turns : Nat) → CoroutineHeap V E σ → Nat → Ran (CoroutineHeap V E σ × Option E)
  | 0, _, _ => .unfinished
  | turns + 1, heap, handle =>
    match heap.advance code handle with
    | none => .undefined
    | some (heap, .resumes next) => resume turns heap next
    | some (heap, .suspends) => .left (heap, none)
    | some (heap, .throws e) => .left (heap, some e)

/-- `__value_.destruct()`, which is there. -/
def destructValue (heap : CoroutineHeap V E σ) (root : Nat) : Option (CoroutineHeap V E σ) := do
  let coroutine ← heap.at_ root
  if coroutine.promise.value.isNone then none
  else heap.modifyPromise root fun promise => { promise with value := none }

/-- `iterator::operator++`. -/
def increment (turns : Nat) (heap : CoroutineHeap V E σ) (root : Nat) :
    Ran (CoroutineHeap V E σ × Option E) := do
  let heap ← Ran.of (heap.destructValue root)
  let coroutine ← Ran.of (heap.at_ root)
  heap.resume code turns coroutine.promise.parentOrLeaf

def done (coroutine : Coroutine V E σ) : Bool :=
  match coroutine.frame with
  | .done => true
  | _ => false

/-- The rest of a loop that reads no more than `limit` values, and looks whether there is another. -/
def loop (turns : Nat) : (limit : Nat) → CoroutineHeap V E σ → Nat →
    Ran (List V × Ending E × CoroutineHeap V E σ)
  | limit, heap, root => do
    let coroutine ← Ran.of (heap.at_ root)
    if done coroutine then pure ([], .finished, heap)
    else
      match limit with
      | 0 => pure ([], .suspended, heap)
      | limit + 1 => do
        let value ← Ran.of coroutine.promise.value
        let (heap, exception) ← increment code turns heap root
        match exception with
        | some e => pure ([value], .thrown e, heap)
        | none => do
          let (values, ending, heap) ← loop turns limit heap root
          pure (value :: values, ending, heap)

/-- `~generator` of one that was started. -/
def destruct (heap : CoroutineHeap V E σ) (root : Nat) : Option (CoroutineHeap V E σ) := do
  let coroutine ← heap.at_ root
  let heap ← if done coroutine then pure heap else heap.destructValue root
  heap.destroy heap.fresh root

/-- A coroutine is resumed, and then it is seen to the loop. -/
def goOn (turns limit : Nat) (heap : CoroutineHeap V E σ) (root handle : Nat) :
    Ran (List V × Ending E × CoroutineHeap V E σ) := do
  let (heap, exception) ← heap.resume code turns handle
  match exception with
  | some e => pure ([], .thrown e, heap)
  | none => loop code turns limit heap root

/-- A range-based `for` over a generator, from `begin()` on, and its destruction however the loop is
left. -/
def iterate (turns limit : Nat) (body : σ) : Ran (List V × Ending E × CoroutineHeap V E σ) := do
  let (heap, root) := (none_ : CoroutineHeap V E σ).create body
  let (values, ending, heap) ← goOn code turns limit heap root root
  let heap ← Ran.of (heap.destruct root)
  pure (values, ending, heap)

/-! ## The stack in the heap -/

section Stack
variable {code} {heap heap' : CoroutineHeap V E σ} {root handle : Nat} {stack : List (Waiting E σ)}
  {coroutine : Coroutine V E σ} {value : Option V} {s : σ}

theorem set_at {k : Nat} {c : Option (Coroutine V E σ)} :
    (heap.set handle c).at_ k = if k = handle then c else heap.at_ k := by
  unfold set
  exact Function.update_apply ..

theorem modifyPromise_eq (found : heap.at_ handle = some coroutine)
    {f : GeneratorPromise V E → GeneratorPromise V E} :
    heap.modifyPromise handle f =
      some (heap.set handle (some { coroutine with promise := f coroutine.promise })) := by
  unfold modifyPromise
  rw [found]
  rfl

theorem setFrame_eq (found : heap.at_ handle = some coroutine) {frame : CoroutineFrame E σ} :
    heap.setFrame handle frame =
      some (heap.set handle (some { coroutine with frame := frame })) := by
  unfold setFrame
  rw [found]
  rfl

/-- What is in the frame is destroyed first. -/
theorem destroy_succ {depth : Nat} (found : heap.at_ handle = some coroutine)
    (inner : coroutine.frame.holds.elim (some heap) (destroy depth heap) = some heap')
    (lifetime : coroutine.promise.root = handle ∨ coroutine.promise.exception.isSome = true) :
    heap.destroy (depth + 1) handle = some (heap'.set handle none) := by
  unfold destroy
  rw [found]
  dsimp only [bind, Option.bind]
  rw [inner]
  dsimp only
  rw [if_neg]
  · rfl
  · rintro ⟨nested, unconstructed⟩
    obtain own | constructed := lifetime
    · exact nested own
    · rw [Option.isNone_iff_eq_none] at unconstructed
      rw [unconstructed] at constructed
      cases constructed

/-- The coroutine has the root for its root, and the others up to it wait, each for the one above.
The frame of the uppermost is left open. -/
def Waits (heap : CoroutineHeap V E σ) (root : Nat) : Nat → List (Waiting E σ) → Prop
  | handle, [] =>
    handle = root ∧ (∃ c, heap.at_ root = some c ∧ c.promise.root = root) ∧
      ∀ k < root, heap.at_ k = none
  | handle, waiting :: stack =>
    ∃ c parent d, heap.at_ handle = some c ∧ c.promise.root = root ∧
      c.promise.parentOrLeaf = parent ∧ c.promise.exception = some none ∧ parent < handle ∧
      heap.at_ parent = some d ∧ d.frame = .awaiting handle waiting.next waiting.caught ∧
      (∀ k, parent < k → k < handle → heap.at_ k = none) ∧ Waits heap root parent stack

theorem Waits.root_add_le (waits : Waits heap root handle stack) :
    root + stack.length ≤ handle := by
  induction stack generalizing handle with
  | nil => exact Nat.le_of_eq waits.1.symm
  | cons waiting stack ih =>
    obtain ⟨c, parent, d, -, -, -, -, below, -, -, -, rest⟩ := waits
    have lower := ih rest
    rw [List.length_cons]
    omega

theorem Waits.uppermost (waits : Waits heap root handle stack) :
    ∃ c, heap.at_ handle = some c ∧ c.promise.root = root := by
  cases stack with
  | nil =>
    obtain ⟨rfl, there, -⟩ := waits
    exact there
  | cons waiting stack =>
    obtain ⟨c, parent, d, found, own, -⟩ := waits
    exact ⟨c, found, own⟩

theorem Waits.rooted (waits : Waits heap root handle stack) :
    ∃ c, heap.at_ root = some c ∧ c.promise.root = root := by
  induction stack generalizing handle with
  | nil => exact waits.2.1
  | cons waiting stack ih =>
    obtain ⟨c, parent, d, -, -, -, -, -, -, -, -, rest⟩ := waits
    exact ih rest

/-- Promises that say the same, but for what the root keeps for all. -/
structure Alike (root k : Nat) (c c' : Coroutine V E σ) : Prop where
  own : c'.promise.root = c.promise.root
  exception : c'.promise.exception = c.promise.exception
  parent : k ≠ root → c'.promise.parentOrLeaf = c.promise.parentOrLeaf

theorem Waits.congr (waits : Waits heap root handle stack)
    (gone : ∀ k < handle, heap.at_ k = none → heap'.at_ k = none)
    (kept : ∀ k < handle, ∀ c, heap.at_ k = some c →
      ∃ c', heap'.at_ k = some c' ∧ Alike root k c c' ∧ c'.frame = c.frame)
    (uppermost : ∀ c, heap.at_ handle = some c →
      ∃ c', heap'.at_ handle = some c' ∧ Alike root handle c c') :
    Waits heap' root handle stack := by
  induction stack generalizing handle with
  | nil =>
    obtain ⟨rfl, ⟨c, found, own⟩, none_⟩ := waits
    obtain ⟨c', found', alike⟩ := uppermost c found
    exact ⟨rfl, ⟨c', found', alike.own.trans own⟩, fun k below => gone k below (none_ k below)⟩
  | cons waiting stack ih =>
    have above := waits.root_add_le
    obtain ⟨c, parent, d, found, own, leads, exception, below, waiter, frame, between, rest⟩ := waits
    obtain ⟨c', found', alike⟩ := uppermost c found
    obtain ⟨d', waiter', -, same⟩ := kept parent below d waiter
    have notRoot : handle ≠ root := by
      rw [List.length_cons] at above
      omega
    refine ⟨c', parent, d', found', alike.own.trans own, (alike.parent notRoot).trans leads,
      alike.exception.trans exception, below, waiter', same.trans frame,
      fun k after before => gone k before (between k after before), ih rest ?_ ?_ ?_⟩
    · exact fun k before => gone k (Nat.lt_trans before below)
    · exact fun k before => kept k (Nat.lt_trans before below)
    · intro c there
      obtain ⟨c', there', alike, -⟩ := kept parent below c there
      exact ⟨c', there', alike⟩

/-- What is above does not matter. -/
theorem Waits.of_same (waits : Waits heap root handle stack)
    (same : ∀ k ≤ handle, heap'.at_ k = heap.at_ k) : Waits heap' root handle stack := by
  apply waits.congr
  · exact fun k below gone => (same k (Nat.le_of_lt below)).trans gone
  · exact fun k below c there =>
      ⟨c, (same k (Nat.le_of_lt below)).trans there, ⟨rfl, rfl, fun _ => rfl⟩, rfl⟩
  · exact fun c there => ⟨c, (same handle (Nat.le_refl _)).trans there, rfl, rfl, fun _ => rfl⟩

def Suspended (heap : CoroutineHeap V E σ) (handle : Nat) (s : σ) : Prop :=
  ∃ c, heap.at_ handle = some c ∧ c.frame = .suspended s ∧ ∀ k, handle < k → heap.at_ k = none

/-- The uppermost coroutine is resumed: it goes on from this state, or gets to it by what a nested
one left, which is at its end. -/
def Pending (heap : CoroutineHeap V E σ) (handle : Nat) (s : σ) : Prop :=
  Suspended heap handle s ∨
  ∃ c nested next caught d exception, heap.at_ handle = some c ∧
    c.frame = .awaiting nested next caught ∧ handle < nested ∧ heap.at_ nested = some d ∧
    d.frame = .done ∧ d.promise.exception = some exception ∧ s = exception.elim next caught ∧
    ∀ k, handle < k → k ≠ nested → heap.at_ k = none

/-- What the root keeps: the innermost coroutine and the value. -/
def Keeps (heap : CoroutineHeap V E σ) (root leaf : Nat) (value : Option V) : Prop :=
  ∃ c, heap.at_ root = some c ∧ c.promise.parentOrLeaf = leaf ∧ c.promise.value = value

/-- Before the uppermost coroutine goes on. -/
structure Stands (heap : CoroutineHeap V E σ) (root handle : Nat) (s : σ)
    (stack : List (Waiting E σ)) (value : Option V) : Prop where
  waits : Waits heap root handle stack
  pending : Pending heap handle s
  keeps : Keeps heap root handle value
  fresh : handle < heap.fresh

/-- Between two calls of `resume()`. -/
structure Rests (heap : CoroutineHeap V E σ) (root handle : Nat) (s : σ) (stack : List (Waiting E σ))
    (value : Option V) : Prop where
  waits : Waits heap root handle stack
  suspended : Suspended heap handle s
  keeps : Keeps heap root handle value
  fresh : handle < heap.fresh

theorem Rests.stands (rests : Rests heap root handle s stack value) :
    Stands heap root handle s stack value :=
  ⟨rests.waits, .inl rests.suspended, rests.keeps, rests.fresh⟩

/-- There is no coroutine above the one that runs. -/
structure Runs (heap : CoroutineHeap V E σ) (root handle : Nat) (stack : List (Waiting E σ))
    (value : Option V) : Prop where
  waits : Waits heap root handle stack
  above : ∀ k, handle < k → heap.at_ k = none
  keeps : Keeps heap root handle value
  fresh : handle < heap.fresh

/-- When it goes on, nothing is left of the nested one. -/
theorem Stands.advance_eq (stands : Stands heap root handle s stack value) :
    ∃ heap', Runs heap' root handle stack value ∧
      heap.advance code handle = heap'.execute code handle s := by
  obtain ⟨c, found, suspended, above⟩ |
    ⟨c, nested, next, caught, d, exception, found, awaiting, after, there, done, left, rfl, above⟩ :=
    stands.pending
  · refine ⟨heap, ⟨stands.waits, above, stands.keeps, stands.fresh⟩, ?_⟩
    unfold advance
    rw [found]
    dsimp only [bind, Option.bind]
    rw [suspended]
  · have lower := stands.waits.root_add_le
    refine ⟨heap.set nested none, ⟨?_, ?_, ?_, stands.fresh⟩, ?_⟩
    · refine stands.waits.of_same fun k within => ?_
      rw [set_at, if_neg (by omega)]
    · intro k upper
      rw [set_at]
      split
      · rfl
      next other => exact above k upper other
    · obtain ⟨r, rooted, kept⟩ := stands.keeps
      refine ⟨r, ?_, kept⟩
      rw [set_at, if_neg (by omega)]
      exact rooted
    · have destroyed : heap.destroy heap.fresh nested = some (heap.set nested none) := by
        have some_ := stands.fresh
        obtain ⟨depth, deep⟩ := Nat.exists_eq_add_one_of_ne_zero (show heap.fresh ≠ 0 by omega)
        rw [deep]
        refine destroy_succ there ?_ (.inr ?_)
        · rw [done]
          rfl
        · rw [left]
          rfl
      unfold advance awaitResume
      rw [found]
      dsimp only [bind, Option.bind]
      rw [awaiting]
      dsimp only
      rw [there]
      dsimp only
      rw [left]
      dsimp only
      rw [destroyed]
      rfl

/-! ### One turn -/

theorem Waits.set_root (waits : Waits heap root handle stack) {c c' : Coroutine V E σ}
    (found : heap.at_ root = some c) (alike : Alike root root c c') (frame : c'.frame = c.frame) :
    Waits (heap.set root (some c')) root handle stack := by
  apply waits.congr
  · intro k below gone
    have other : k ≠ root := fun same => by
      rw [same, found] at gone
      cases gone
    rw [set_at, if_neg other]
    exact gone
  · intro k below d there
    by_cases same : k = root
    · subst same
      cases found.symm.trans there
      exact ⟨c', by rw [set_at, if_pos rfl], alike, frame⟩
    · exact ⟨d, by rw [set_at, if_neg same]; exact there, ⟨rfl, rfl, fun _ => rfl⟩, rfl⟩
  · intro d there
    by_cases same : handle = root
    · subst same
      cases found.symm.trans there
      exact ⟨c', by rw [set_at, if_pos rfl], alike⟩
    · exact ⟨d, by rw [set_at, if_neg same]; exact there, rfl, rfl, fun _ => rfl⟩

theorem Waits.set_uppermost (waits : Waits heap root handle stack) {c c' : Coroutine V E σ}
    (found : heap.at_ handle = some c) (same : c'.promise = c.promise) :
    Waits (heap.set handle (some c')) root handle stack := by
  apply waits.congr
  · intro k below gone
    rw [set_at, if_neg (Nat.ne_of_lt below)]
    exact gone
  · intro k below d there
    rw [set_at, if_neg (Nat.ne_of_lt below)]
    exact ⟨d, there, ⟨rfl, rfl, fun _ => rfl⟩, rfl⟩
  · intro d there
    cases found.symm.trans there
    refine ⟨c', by rw [set_at, if_pos rfl], ?_, ?_, fun _ => ?_⟩ <;> rw [same]

theorem Keeps.set_frame {leaf : Nat} (keeps : Keeps heap root leaf value) {c c' : Coroutine V E σ}
    (found : heap.at_ handle = some c) (same : c'.promise = c.promise) :
    Keeps (heap.set handle (some c')) root leaf value := by
  obtain ⟨r, rooted, kept⟩ := keeps
  by_cases own : root = handle
  · subst own
    cases found.symm.trans rooted
    exact ⟨c', by rw [set_at, if_pos rfl], by rw [same]; exact kept⟩
  · exact ⟨r, by rw [set_at, if_neg own]; exact rooted, kept⟩

/-- A coroutine that is there is still there when another one, or its promise, is changed. -/
theorem exists_set {k : Nat} {c : Coroutine V E σ} (found : heap.at_ k = some c)
    {c' : Coroutine V E σ} : ∃ d, (heap.set handle (some c')).at_ k = some d := by
  rw [set_at]
  split
  · exact ⟨c', rfl⟩
  · exact ⟨c, found⟩

theorem Runs.execute_yield (runs : Runs heap root handle stack none) {v : V} {next : σ}
    (does : code s = .yield v next) :
    ∃ heap', heap.execute code handle s = some (heap', .suspends) ∧
      Rests heap' root handle next stack (some v) := by
  obtain ⟨c, found, own⟩ := runs.waits.uppermost
  obtain ⟨r, rooted, leaf, noValue⟩ := runs.keeps
  let r' : Coroutine V E σ := { r with promise := { r.promise with value := some v } }
  have valued : heap.modifyPromise root (fun promise => { promise with value := some v }) =
      some (heap.set root (some r')) := modifyPromise_eq rooted
  obtain ⟨d, there⟩ : ∃ d, (heap.set root (some r')).at_ handle = some d := exists_set found
  refine ⟨(heap.set root (some r')).set handle (some { d with frame := .suspended next }), ?_, ?_⟩
  · unfold execute
    rw [does]
    unfold yieldValue
    rw [found]
    dsimp only [bind, Option.bind]
    rw [own, rooted]
    dsimp only
    rw [noValue, valued, if_neg (by simp)]
    dsimp only
    rw [setFrame_eq there]
    rfl
  · refine ⟨?_, ⟨_, by rw [set_at, if_pos rfl], rfl, fun k above => ?_⟩, ?_, runs.fresh⟩
    · have awaits : Waits (heap.set root (some r')) root handle stack :=
        runs.waits.set_root rooted ⟨rfl, rfl, fun _ => rfl⟩ rfl
      exact awaits.set_uppermost there rfl
    · have lower := runs.waits.root_add_le
      rw [set_at, if_neg (by omega), set_at, if_neg (by omega)]
      exact runs.above k above
    · exact Keeps.set_frame ⟨r', by rw [set_at, if_pos rfl], leaf, rfl⟩ there rfl

theorem Runs.execute_goes (runs : Runs heap root handle stack value) {next : σ}
    (does : code s = .goes next) :
    ∃ heap', heap.execute code handle s = some (heap', .resumes handle) ∧
      Rests heap' root handle next stack value := by
  obtain ⟨c, found, own⟩ := runs.waits.uppermost
  refine ⟨heap.set handle (some { c with frame := .suspended next }), ?_, ?_, ?_, ?_, runs.fresh⟩
  · unfold execute
    rw [does]
    dsimp only
    rw [setFrame_eq found]
    rfl
  · exact runs.waits.set_uppermost found rfl
  · refine ⟨_, by rw [set_at, if_pos rfl], rfl, fun k above => ?_⟩
    rw [set_at, if_neg (by omega)]
    exact runs.above k above
  · exact runs.keeps.set_frame found rfl

theorem Runs.execute_elements (runs : Runs heap root handle stack value) {nested next : σ}
    {caught : E → σ} (does : code s = .elements nested next caught) :
    ∃ heap' called, heap.execute code handle s = some (heap', .resumes called) ∧
      Stands heap' root called nested (⟨next, caught⟩ :: stack) value := by
  obtain ⟨c, found, own⟩ := runs.waits.uppermost
  have lower := runs.waits.root_add_le
  have upper := runs.fresh
  let made := (heap.create nested).1
  let waiter : Coroutine V E σ := { c with frame := .awaiting heap.fresh next caught }
  let held := made.set handle (some waiter)
  let called : Coroutine V E σ := ⟨⟨root, handle, some none, none⟩, .suspended nested⟩
  let started := held.set heap.fresh (some called)
  have made_at (k : Nat) : made.at_ k =
      if k = heap.fresh then
        some ⟨⟨heap.fresh, heap.fresh, none, none⟩, .suspended nested⟩ else heap.at_ k := set_at
  have there : made.at_ handle = some c := by
    rw [made_at, if_neg (by omega)]
    exact found
  have fresh : held.at_ heap.fresh =
      some ⟨⟨heap.fresh, heap.fresh, none, none⟩, .suspended nested⟩ := by
    rw [set_at, if_neg (by omega), made_at, if_pos rfl]
  have waits : Waits held root handle stack := by
    have before : Waits made root handle stack := runs.waits.of_same fun k within => by
      rw [made_at, if_neg (by omega)]
    exact before.set_uppermost there rfl
  have waits : Waits started root handle stack := waits.of_same fun k within => by
    rw [set_at, if_neg (by omega)]
  obtain ⟨r, rooted, leaf, kept⟩ : Keeps started root handle value := by
    obtain ⟨r, rooted, kept⟩ := runs.keeps
    have same : Keeps made root handle value :=
      ⟨r, by rw [made_at, if_neg (by omega)]; exact rooted, kept⟩
    have held_ : Keeps held root handle value := same.set_frame there rfl
    obtain ⟨r, rooted, kept⟩ := held_
    exact ⟨r, by rw [set_at, if_neg (by omega)]; exact rooted, kept⟩
  let r' : Coroutine V E σ := { r with promise := { r.promise with parentOrLeaf := heap.fresh } }
  refine ⟨started.set root (some r'), heap.fresh, ?_, ?_⟩
  · unfold execute
    rw [does]
    unfold yieldElements
    rw [found]
    dsimp only [bind, Option.bind]
    rw [show heap.create nested = (made, heap.fresh) from rfl]
    dsimp only
    rw [setFrame_eq there]
    dsimp only
    rw [modifyPromise_eq fresh]
    dsimp only
    rw [own, modifyPromise_eq rooted]
    rfl
  · have waiting : ∃ d, (started.set root (some r')).at_ handle = some d ∧
        d.frame = .awaiting heap.fresh next caught := by
      have before : started.at_ handle = some waiter := by
        rw [set_at, if_neg (by omega), set_at, if_pos rfl]
      by_cases same : handle = root
      · subst same
        cases rooted.symm.trans before
        exact ⟨r', by rw [set_at, if_pos rfl], rfl⟩
      · exact ⟨waiter, by rw [set_at, if_neg same]; exact before, rfl⟩
    have called_at : (started.set root (some r')).at_ heap.fresh = some called := by
      rw [set_at, if_neg (by omega), set_at, if_pos rfl]
    have none_ (k : Nat) (above : handle < k) (other : k ≠ heap.fresh) :
        (started.set root (some r')).at_ k = none := by
      rw [set_at, if_neg (by omega), set_at, if_neg other, set_at, if_neg (by omega), made_at,
        if_neg other]
      exact runs.above k above
    obtain ⟨d, waiter_at, awaiting⟩ := waiting
    refine ⟨?_, ?_, ⟨r', by rw [set_at, if_pos rfl], rfl, kept⟩, Nat.lt_succ_self heap.fresh⟩
    · exact ⟨called, handle, d, called_at, rfl, rfl, rfl, upper, waiter_at, awaiting,
        fun k above below => none_ k above (Nat.ne_of_lt below),
        waits.set_root rooted ⟨rfl, rfl, fun other => absurd rfl other⟩ rfl⟩
    · exact .inl ⟨called, called_at, rfl, fun k above => none_ k (by omega) (by omega)⟩

/-- One that is at its end hands over to the one that waits for it. -/
theorem finalSuspend_waiting {parent : Nat} {waiting : Waiting E σ} {c d : Coroutine V E σ}
    {exception : Option E} (found : heap.at_ handle = some c) (own : c.promise.root = root)
    (leads : c.promise.parentOrLeaf = parent) (left : c.promise.exception = some exception)
    (below : parent < handle) (waiter : heap.at_ parent = some d)
    (frame : d.frame = .awaiting handle waiting.next waiting.caught)
    (none_ : ∀ k, parent < k → k ≠ handle → heap.at_ k = none)
    (rest : Waits heap root parent stack) (keeps : Keeps heap root handle value)
    (fresh : handle < heap.fresh) :
    ∃ heap', heap.finalSuspend handle = some (heap', .resumes parent) ∧
      Stands heap' root parent (exception.elim waiting.next waiting.caught) stack value := by
  have lower := rest.root_add_le
  obtain ⟨r, rooted, leaf, kept⟩ := keeps
  let ended : Coroutine V E σ := { c with frame := .done }
  let r' : Coroutine V E σ := { r with promise := { r.promise with parentOrLeaf := parent } }
  have rooted' : (heap.set handle (some ended)).at_ root = some r := by
    rw [set_at, if_neg (by omega)]
    exact rooted
  refine ⟨(heap.set handle (some ended)).set root (some r'), ?_, ?_⟩
  · unfold finalSuspend
    rw [found]
    dsimp only [bind, Option.bind]
    rw [setFrame_eq found]
    dsimp only
    rw [own, if_pos (by omega), modifyPromise_eq rooted', leads]
    rfl
  · have waiter' : ∃ d', ((heap.set handle (some ended)).set root (some r')).at_ parent = some d' ∧
        d'.frame = .awaiting handle waiting.next waiting.caught := by
      by_cases same : parent = root
      · subst same
        cases rooted.symm.trans waiter
        exact ⟨r', by rw [set_at, if_pos rfl], frame⟩
      · exact ⟨d, by rw [set_at, if_neg same, set_at, if_neg (by omega)]; exact waiter, frame⟩
    obtain ⟨d', waiter', frame'⟩ := waiter'
    have ended_at : ((heap.set handle (some ended)).set root (some r')).at_ handle =
        some ended := by
      rw [set_at, if_neg (by omega), set_at, if_pos rfl]
    refine ⟨?_, .inr ⟨d', handle, _, _, ended, exception, waiter', frame', below, ended_at, rfl,
      left, rfl, fun k above other => ?_⟩, ⟨r', by rw [set_at, if_pos rfl], rfl, kept⟩,
      Nat.lt_trans below fresh⟩
    · have waits : Waits (heap.set handle (some ended)) root parent stack :=
        rest.of_same fun k within => by rw [set_at, if_neg (by omega)]
      exact waits.set_root rooted' ⟨rfl, rfl, fun other => absurd rfl other⟩ rfl
    · rw [set_at, if_neg (by omega), set_at, if_neg other]
      exact none_ k above other

section Waiting_
variable {waiting : Waiting E σ} (runs : Runs heap root handle (waiting :: stack) value)
include runs

theorem Runs.execute_finish (does : code s = .finish) :
    ∃ heap' parent, heap.execute code handle s = some (heap', .resumes parent) ∧
      Stands heap' root parent waiting.next stack value := by
  obtain ⟨c, parent, d, found, own, leads, left, below, waiter, frame, between, rest⟩ := runs.waits
  have none_ (k : Nat) (above : parent < k) (other : k ≠ handle) : heap.at_ k = none := by
    obtain lower | upper := Nat.lt_or_gt_of_ne other
    · exact between k above lower
    · exact runs.above k upper
  obtain ⟨heap', run, stands⟩ := finalSuspend_waiting found own leads left below waiter frame none_ rest
    runs.keeps runs.fresh
  refine ⟨heap', parent, ?_, stands⟩
  unfold execute
  rw [does]
  exact run

theorem Runs.execute_throw {e : E} (does : code s = .throw e) :
    ∃ heap' parent, heap.execute code handle s = some (heap', .resumes parent) ∧
      Stands heap' root parent (waiting.caught e) stack value := by
  obtain ⟨c, parent, d, found, own, leads, left, below, waiter, frame, between, rest⟩ := runs.waits
  have lower := rest.root_add_le
  let c' : Coroutine V E σ := { c with promise := { c.promise with exception := some (some e) } }
  have found' : (heap.set handle (some c')).at_ handle = some c' := by rw [set_at, if_pos rfl]
  have same {k : Nat} (other : k ≠ handle) : (heap.set handle (some c')).at_ k = heap.at_ k := by
    rw [set_at, if_neg other]
  have none_ (k : Nat) (above : parent < k) (other : k ≠ handle) :
      (heap.set handle (some c')).at_ k = none := by
    rw [same other]
    obtain lower | upper := Nat.lt_or_gt_of_ne other
    · exact between k above lower
    · exact runs.above k upper
  have keeps : Keeps (heap.set handle (some c')) root handle value := by
    obtain ⟨r, rooted, kept⟩ := runs.keeps
    exact ⟨r, (same (by omega)).trans rooted, kept⟩
  have rest : Waits (heap.set handle (some c')) root parent stack :=
    rest.of_same fun k within => same (by omega)
  obtain ⟨heap', run, stands⟩ := finalSuspend_waiting found' own leads rfl below
    ((same (Nat.ne_of_lt below)).trans waiter) frame none_ rest keeps runs.fresh
  refine ⟨heap', parent, ?_, stands⟩
  unfold execute
  rw [does]
  unfold unhandledException
  rw [found]
  dsimp only [bind, Option.bind]
  rw [own, if_pos (by omega), left]
  dsimp only
  rw [modifyPromise_eq found]
  exact run

end Waiting_

/-- Nothing is left but the root, at its end. -/
structure Over (heap : CoroutineHeap V E σ) (root : Nat) : Prop where
  ended : ∃ c, heap.at_ root = some c ∧ c.promise.root = root ∧ c.frame = .done
  alone : ∀ k, k ≠ root → heap.at_ k = none
  fresh : root < heap.fresh

theorem Runs.atEnd (runs : Runs heap root handle [] value) {c : Coroutine V E σ}
    (own : c.promise.root = root) :
    Over (heap.set handle (some { c with frame := .done })) root := by
  obtain ⟨rfl, -, none_⟩ := runs.waits
  refine ⟨⟨{ c with frame := .done }, by rw [set_at, if_pos rfl], own, rfl⟩, fun k other => ?_,
    runs.fresh⟩
  rw [set_at, if_neg other]
  obtain lower | upper := Nat.lt_or_gt_of_ne other
  · exact none_ k lower
  · exact runs.above k upper

theorem Runs.execute_finish_root (runs : Runs heap root handle [] value)
    (does : code s = .finish) :
    ∃ heap', heap.execute code handle s = some (heap', .suspends) ∧ Over heap' root := by
  obtain ⟨c, found, own⟩ := runs.waits.uppermost
  refine ⟨_, ?_, runs.atEnd own⟩
  unfold execute
  rw [does]
  unfold finalSuspend
  rw [found]
  dsimp only [bind, Option.bind]
  rw [setFrame_eq found, own, runs.waits.1]
  dsimp only
  rw [if_neg (fun other => other rfl)]
  rfl

theorem Runs.execute_throw_root (runs : Runs heap root handle [] value) {e : E}
    (does : code s = .throw e) :
    ∃ heap', heap.execute code handle s = some (heap', .throws e) ∧ Over heap' root := by
  obtain ⟨c, found, own⟩ := runs.waits.uppermost
  refine ⟨_, ?_, runs.atEnd own⟩
  unfold execute
  rw [does]
  unfold unhandledException
  rw [found]
  dsimp only [bind, Option.bind]
  rw [setFrame_eq found, own, runs.waits.1, if_neg (fun other => other rfl)]
  rfl

/-! ### Until the next value -/

/-- What a call of `resume()` comes to, by what the stack of bodies comes to. -/
def Resumes (root : Nat) : Option (Resumed V E σ) → Ran (CoroutineHeap V E σ × Option E) → Prop
  | none, ran => ran = .unfinished
  | some (.yielded v t later), ran =>
    ∃ heap handle, ran = .left (heap, none) ∧ Rests heap root handle t later (some v)
  | some (.ended .suspended), _ => False
  | some (.ended .finished), ran => ∃ heap, ran = .left (heap, none) ∧ Over heap root
  | some (.ended (.thrown e)), ran => ∃ heap, ran = .left (heap, some e) ∧ Over heap root

theorem Stands.resumes {turns : Nat} (stands : Stands heap root handle s stack none) :
    Resumes root (Coroutines.resume code turns s stack) (heap.resume code turns handle) := by
  induction turns generalizing heap handle s stack with
  | zero => rfl
  | succ turns ih =>
    obtain ⟨ready, runs, advanced⟩ : ∃ ready, Runs ready root handle stack none ∧
        heap.advance code handle = ready.execute code handle s := stands.advance_eq
    unfold Coroutines.resume turn CoroutineHeap.resume
    rw [advanced]
    cases does : code s with
    | goes next =>
      obtain ⟨heap', executed, after⟩ := runs.execute_goes does
      rw [executed]
      exact ih after.stands
    | yield v next =>
      obtain ⟨heap', executed, after⟩ := runs.execute_yield does
      rw [executed]
      exact ⟨heap', handle, rfl, after⟩
    | elements nested next caught =>
      obtain ⟨heap', called, executed, after⟩ := runs.execute_elements does
      rw [executed]
      exact ih after
    | finish =>
      cases stack with
      | nil =>
        obtain ⟨heap', executed, ended⟩ := runs.execute_finish_root does
        rw [executed]
        exact ⟨heap', rfl, ended⟩
      | cons waiting stack =>
        obtain ⟨heap', parent, executed, after⟩ := runs.execute_finish does
        rw [executed]
        exact ih after
    | throw e =>
      cases stack with
      | nil =>
        obtain ⟨heap', executed, ended⟩ := runs.execute_throw_root does
        rw [executed]
        exact ⟨heap', rfl, ended⟩
      | cons waiting stack =>
        obtain ⟨heap', parent, executed, after⟩ := runs.execute_throw does
        rw [executed]
        exact ih after

/-! ### Loops -/

theorem Waits.root_awaits {waiting : Waiting E σ}
    (waits : Waits heap root handle (waiting :: stack)) :
    ∃ c nested next caught, heap.at_ root = some c ∧ c.frame = .awaiting nested next caught := by
  induction stack generalizing handle waiting with
  | nil =>
    obtain ⟨c, parent, d, -, -, -, -, -, waiter, frame, -, rest⟩ := waits
    obtain ⟨rfl, -⟩ := rest
    exact ⟨d, _, _, _, waiter, frame⟩
  | cons next stack ih =>
    obtain ⟨c, parent, d, -, -, -, -, -, -, -, -, rest⟩ := waits
    exact ih rest

theorem Rests.root_not_done (rests : Rests heap root handle s stack value) :
    ∃ c, heap.at_ root = some c ∧ done c = false ∧ c.promise.parentOrLeaf = handle ∧
      c.promise.value = value := by
  obtain ⟨r, rooted, kept⟩ := rests.keeps
  refine ⟨r, rooted, ?_, kept⟩
  unfold done
  cases stack with
  | nil =>
    obtain ⟨c, found, frame, -⟩ := rests.suspended
    rw [rests.waits.1] at found
    cases rooted.symm.trans found
    rw [frame]
  | cons waiting stack =>
    obtain ⟨c, nested, next, caught, found, frame⟩ := rests.waits.root_awaits
    cases rooted.symm.trans found
    rw [frame]

theorem Rests.destructValue_eq {v : V} (rests : Rests heap root handle s stack (some v)) :
    ∃ heap', heap.destructValue root = some heap' ∧ Rests heap' root handle s stack none := by
  obtain ⟨r, rooted, leaf, kept⟩ := rests.keeps
  have lower := rests.waits.root_add_le
  let r' : Coroutine V E σ := { r with promise := { r.promise with value := none } }
  refine ⟨heap.set root (some r'), ?_, ?_⟩
  · unfold destructValue
    rw [rooted]
    dsimp only [bind, Option.bind]
    rw [kept, if_neg (by simp)]
    exact modifyPromise_eq rooted
  · refine ⟨rests.waits.set_root rooted ⟨rfl, rfl, fun _ => rfl⟩ rfl, ?_,
      ⟨r', by rw [set_at, if_pos rfl], leaf, rfl⟩, rests.fresh⟩
    obtain ⟨c, found, frame, above⟩ := rests.suspended
    have none_ (k : Nat) (upper : handle < k) : (heap.set root (some r')).at_ k = none := by
      rw [set_at, if_neg (by omega)]
      exact above k upper
    by_cases same : handle = root
    · subst same
      cases rooted.symm.trans found
      exact ⟨r', by rw [set_at, if_pos rfl], frame, none_⟩
    · exact ⟨c, by rw [set_at, if_neg same]; exact found, frame, none_⟩

/-- How a loop leaves the generator. -/
def Leaves (heap : CoroutineHeap V E σ) (root : Nat) : Ending E → Prop
  | .suspended => ∃ handle s stack v, Rests heap root handle s stack (some v)
  | _ => Over heap root

/-- A loop, by what is read from the stack of bodies. -/
def Loops (root : Nat) : Option (List V × Ending E) →
    Ran (List V × Ending E × CoroutineHeap V E σ) → Prop
  | none, ran => ran = .unfinished
  | some (vs, o), ran => ∃ heap, ran = .left (vs, o, heap) ∧ Leaves heap root o

theorem Over.loop_eq (ended : Over heap root) {turns limit : Nat} :
    loop code turns limit heap root = .left ([], .finished, heap) := by
  obtain ⟨c, found, -, frame⟩ := ended.ended
  unfold loop
  rw [found]
  have ended : done c = true := by
    unfold done
    rw [frame]
  cases limit <;> simp [Ran.of, bind, pure, ended]

/-- One value is read, and the rest is as if the loop began there. -/
theorem Rests.loop_succ {turns limit : Nat} {v : V}
    (rests : Rests heap root handle s stack (some v)) (freed : heap.destructValue root = some heap')
    (after : Rests heap' root handle s stack none) :
    loop code turns (limit + 1) heap root = (do
      let (vs, o, left) ← goOn code turns limit heap' root handle
      pure (v :: vs, o, left)) := by
  obtain ⟨c, found, working, -, kept⟩ := rests.root_not_done
  obtain ⟨d, there, -, leaf, -⟩ := after.root_not_done
  have incremented : increment code turns heap root = heap'.resume code turns handle := by
    unfold increment
    rw [freed]
    dsimp only [Ran.of, bind]
    rw [there]
    change heap'.resume code turns d.promise.parentOrLeaf = _
    rw [leaf]
  have entered : loop code turns (limit + 1) heap root = (do
      let (heap, exception) ← heap'.resume code turns handle
      match exception with
      | some e => pure ([v], .thrown e, heap)
      | none => do
        let (values, ending, heap) ← loop code turns limit heap root
        pure (v :: values, ending, heap)) := by
    conv => lhs; unfold loop
    rw [found]
    dsimp only [Ran.of, bind]
    rw [working, kept]
    dsimp only
    rw [incremented]
    rfl
  rw [entered]
  unfold goOn
  cases heap'.resume code turns handle with
  | unfinished => rfl
  | undefined => rfl
  | left result =>
    obtain ⟨left, exception⟩ := result
    cases exception <;> rfl

/-- The first value that a stack of bodies yields, or its end. -/
theorem Stands.loops_of {turns limit : Nat} (stands : Stands heap root handle s stack none)
    (yielded : ∀ v t later heap' leaf,
      Coroutines.resume code turns s stack = some (.yielded v t later) →
      Rests heap' root leaf t later (some v) →
      Loops root (collect code turns limit s stack) (loop code turns limit heap' root)) :
    Loops root (collect code turns limit s stack) (goOn code turns limit heap root handle) := by
  have resumes : Resumes root (Coroutines.resume code turns s stack)
      (heap.resume code turns handle) := stands.resumes
  unfold goOn
  cases resumed : Coroutines.resume code turns s stack with
  | none =>
    rw [resumed] at resumes
    rw [resumes]
    unfold collect
    rw [resumed]
    rfl
  | some result =>
    rw [resumed] at resumes
    cases result with
    | yielded v t later =>
      obtain ⟨heap', leaf, left, rests⟩ := resumes
      rw [left]
      exact yielded v t later heap' leaf resumed rests
    | ended o =>
      unfold collect
      rw [resumed]
      cases o with
      | suspended => exact resumes.elim
      | finished =>
        obtain ⟨heap', ran, ended⟩ := resumes
        rw [ran]
        exact ⟨heap', ended.loop_eq, ended⟩
      | thrown e =>
        obtain ⟨heap', ran, ended⟩ := resumes
        rw [ran]
        exact ⟨heap', rfl, ended⟩

theorem Stands.loops {turns limit : Nat} (stands : Stands heap root handle s stack none) :
    Loops root (collect code turns limit s stack) (goOn code turns limit heap root handle) := by
  induction limit generalizing heap handle s stack with
  | zero =>
    refine stands.loops_of fun v t later heap' leaf resumed rests => ?_
    obtain ⟨c, found, working, -⟩ := rests.root_not_done
    unfold collect loop
    rw [resumed, found]
    dsimp only [Ran.of, bind]
    rw [working]
    exact ⟨heap', rfl, leaf, t, later, v, rests⟩
  | succ limit ih =>
    refine stands.loops_of fun v t later heap' leaf resumed rests => ?_
    obtain ⟨heap'', freed, after⟩ := rests.destructValue_eq
    have rest := ih after.stands
    rw [rests.loop_succ freed after]
    unfold collect
    rw [resumed]
    dsimp only
    cases read : collect code turns limit t later with
    | none =>
      rw [read] at rest
      rw [rest]
      rfl
    | some result =>
      rw [read] at rest
      obtain ⟨last, left, leaves⟩ := rest
      rw [left]
      exact ⟨last, rfl, leaves⟩

/-! ### Destruction -/

/-- The coroutines from this one on are gone. -/
def cleared (heap : CoroutineHeap V E σ) (handle : Nat) : CoroutineHeap V E σ :=
  { heap with at_ := fun k => if k < handle then heap.at_ k else none }

theorem cleared_set {parent : Nat} (below : parent ≤ handle)
    (between : ∀ k, parent < k → k < handle → heap.at_ k = none) :
    (heap.cleared handle).set parent none = heap.cleared parent := by
  have same : Function.update (heap.cleared handle).at_ parent none = (heap.cleared parent).at_ := by
    funext k
    rw [Function.update_apply]
    unfold cleared
    dsimp only
    by_cases own : k = parent
    · rw [if_pos own, if_neg (by omega)]
    · rw [if_neg own]
      by_cases lower : k < parent
      · rw [if_pos (by omega), if_pos lower]
      · rw [if_neg lower]
        split
        · exact between k (by omega) ‹_›
        · rfl
  exact congrArg (fun at_ => CoroutineHeap.mk at_ heap.fresh) same

/-- What is nested is destroyed before what waits for it. -/
theorem Waits.destroy_eq {depth : Nat} (waits : Waits heap root handle stack)
    (destroyed : heap.destroy depth handle = some (heap.cleared handle)) :
    heap.destroy (depth + stack.length) root = some (heap.cleared root) := by
  induction stack generalizing handle depth with
  | nil =>
    rw [waits.1] at destroyed
    exact destroyed
  | cons waiting stack ih =>
    obtain ⟨c, parent, d, -, -, -, -, below, waiter, frame, between, rest⟩ := waits
    have lifetime : d.promise.root = parent ∨ d.promise.exception.isSome = true := by
      cases stack with
      | nil =>
        obtain ⟨rfl, ⟨r, rooted, own⟩, -⟩ := rest
        cases waiter.symm.trans rooted
        exact .inl own
      | cons waiting stack =>
        obtain ⟨c', parent', d', found, own, leads, left, -⟩ := rest
        cases waiter.symm.trans found
        rw [left]
        exact .inr rfl
    have parent_ : heap.destroy (depth + 1) parent = some (heap.cleared parent) := by
      rw [← cleared_set (Nat.le_of_lt below) between]
      refine destroy_succ waiter ?_ lifetime
      rw [frame]
      exact destroyed
    have whole := ih rest parent_
    rw [List.length_cons, show depth + (stack.length + 1) = depth + 1 + stack.length by omega]
    exact whole

theorem Rests.destroy_eq (rests : Rests heap root handle s stack value) :
    heap.destroy heap.fresh root = some (heap.cleared root) := by
  have lower := rests.waits.root_add_le
  have upper := rests.fresh
  obtain ⟨c, found, frame, above⟩ := rests.suspended
  have lifetime : c.promise.root = handle ∨ c.promise.exception.isSome = true := by
    cases stack with
    | nil =>
      obtain ⟨rfl, ⟨r, rooted, own⟩, -⟩ := rests.waits
      cases found.symm.trans rooted
      exact .inl own
    | cons waiting stack =>
      obtain ⟨c', parent, d, there, own, leads, left, -⟩ := rests.waits
      cases found.symm.trans there
      rw [left]
      exact .inr rfl
  obtain ⟨depth, deep⟩ : ∃ depth, heap.fresh = depth + 1 + stack.length :=
    ⟨heap.fresh - 1 - stack.length, by omega⟩
  rw [deep]
  refine rests.waits.destroy_eq ?_
  have alone : heap.set handle none = heap.cleared handle := by
    have same : Function.update heap.at_ handle none = (heap.cleared handle).at_ := by
      funext k
      rw [Function.update_apply]
      unfold cleared
      dsimp only
      by_cases own : k = handle
      · rw [if_pos own, if_neg (by omega)]
      · rw [if_neg own]
        split
        · rfl
        · exact above k (by omega)
    exact congrArg (fun at_ => CoroutineHeap.mk at_ heap.fresh) same
  rw [← alone]
  refine destroy_succ found ?_ lifetime
  rw [frame]
  rfl

/-- However the loop was left, all coroutines are destroyed, and a value that is there before. -/
theorem Leaves.destruct_eq {o : Ending E} (leaves : Leaves heap 0 o) :
    ∃ heap', heap.destruct 0 = some heap' ∧ ∀ k, heap'.at_ k = none := by
  have none_ (h : CoroutineHeap V E σ) (k : Nat) : (h.cleared 0).at_ k = none := by
    unfold cleared
    dsimp only
    rw [if_neg (Nat.not_lt_zero k)]
  have finish (ended_ : Over heap 0) : ∃ heap', heap.destruct 0 = some heap' ∧
      ∀ k, heap'.at_ k = none := by
    obtain ⟨c, found, own, frame⟩ := ended_.ended
    have ended : done c = true := by
      unfold done
      rw [frame]
    obtain ⟨depth, deep⟩ :=
      Nat.exists_eq_add_one_of_ne_zero (show heap.fresh ≠ 0 from Nat.ne_of_gt ended_.fresh)
    refine ⟨heap.set 0 none, ?_, fun k => ?_⟩
    · unfold destruct
      rw [found]
      dsimp only [bind, Option.bind]
      rw [if_pos ended]
      change heap.destroy heap.fresh 0 = _
      rw [deep]
      refine destroy_succ found ?_ (.inl own)
      rw [frame]
      rfl
    · rw [set_at]
      split
      · rfl
      next other => exact ended_.alone k other
  cases o with
  | suspended =>
    obtain ⟨handle, s, stack, v, rests⟩ := leaves
    obtain ⟨c, found, working, -⟩ := rests.root_not_done
    obtain ⟨heap', freed, after⟩ := rests.destructValue_eq
    refine ⟨_, ?_, none_ heap'⟩
    unfold destruct
    rw [found]
    dsimp only [bind, Option.bind]
    rw [working, freed]
    exact after.destroy_eq
  | finished => exact finish leaves
  | thrown e => exact finish leaves

end Stack

/-! ## Iteration -/

section Iteration
variable {code : σ → Step V E σ} {body : σ} {turns limit : Nat} {vs : List V} {o : Ending E}

theorem stands_create :
    Stands ((none_ : CoroutineHeap V E σ).create body).1 0 0 body [] none := by
  refine ⟨⟨rfl, ⟨_, rfl, rfl⟩, fun k below => absurd below (Nat.not_lt_zero k)⟩,
    .inl ⟨_, rfl, rfl, fun k above => ?_⟩, ⟨_, rfl, rfl, rfl⟩, Nat.zero_lt_one⟩
  exact Function.update_of_ne (Nat.ne_of_gt above) ..

/-- The coroutines do what a stack of bodies does, and none of them is left. -/
theorem iterate_collect :
    match collect code turns limit body [] with
    | none => iterate code turns limit body = .unfinished
    | some (vs, o) => ∃ heap, iterate code turns limit body = .left (vs, o, heap) ∧
        ∀ k, heap.at_ k = none := by
  have stands : Stands ((none_ : CoroutineHeap V E σ).create body).1 0 0 body [] none :=
    stands_create
  have loops : Loops 0 (collect code turns limit body [])
      (goOn code turns limit ((none_ : CoroutineHeap V E σ).create body).1 0 0) := stands.loops
  have whole : iterate code turns limit body = (do
      let (values, ending, heap) ← goOn code turns limit ((none_ : CoroutineHeap V E σ).create body).1
        0 0
      let heap ← Ran.of (heap.destruct 0)
      pure (values, ending, heap)) := rfl
  rw [whole]
  cases read : collect code turns limit body [] with
  | none =>
    rw [read] at loops
    rw [loops]
    rfl
  | some result =>
    obtain ⟨vs, o⟩ := result
    rw [read] at loops
    obtain ⟨heap, left, leaves⟩ := loops
    obtain ⟨heap', destroyed, none_⟩ := leaves.destruct_eq
    refine ⟨heap', ?_, none_⟩
    rw [left]
    change (Ran.of (heap.destruct 0) >>= _) = _
    rw [destroyed]
    rfl

theorem iterate_left_iff :
    (∃ turns heap, iterate code turns limit body = .left (vs, o, heap)) ↔
      (o = .suspended ∧ vs.length = limit ∧ ∃ v, Gives code body (vs ++ [v]) .suspended) ∨
        (o ≠ .suspended ∧ vs.length ≤ limit ∧ Gives code body vs o) := by
  rw [← collect_iff]
  refine exists_congr fun turns => ?_
  have run := @iterate_collect V E σ code body turns limit
  cases read : collect code turns limit body [] with
  | none =>
    rw [read] at run
    rw [run]
    refine iff_of_false ?_ nofun
    rintro ⟨heap, left⟩
    cases left
  | some result =>
    rw [read] at run
    obtain ⟨heap, left, none_⟩ := run
    rw [left]
    constructor
    · rintro ⟨heap', same⟩
      cases same
      rfl
    · rintro same
      cases same
      exact ⟨heap, rfl⟩

end Iteration
end CoroutineHeap

/-- A loop over a generator reads what its body yields where the bodies whose elements it yields are
written in their places, whether it goes to the end, meets an exception or is left before. Nothing
that is done is undefined: each value is destructed once, before the next is there, no coroutine is
resumed at its end, and all are destroyed. Bodies share no state: how one goes on after the elements
of another is set before that runs, the exception it throws apart. -/
theorem generator_iterates_iff {V E σ : Type} (code : σ → Step V E σ) (body : σ) (limit : Nat) :
    (∀ turns, CoroutineHeap.iterate code turns limit body ≠ .undefined ∧
      ∀ vs o heap, CoroutineHeap.iterate code turns limit body = .left (vs, o, heap) →
        ∀ handle, heap.at_ handle = none) ∧
    ∀ vs o, (∃ turns heap, CoroutineHeap.iterate code turns limit body = .left (vs, o, heap)) ↔
      (o = .suspended ∧ vs.length = limit ∧ ∃ v, Gives code body (vs ++ [v]) .suspended) ∨
        (o ≠ .suspended ∧ vs.length ≤ limit ∧ Gives code body vs o) := by
  refine ⟨fun turns => ?_, fun vs o => CoroutineHeap.iterate_left_iff⟩
  have run := @CoroutineHeap.iterate_collect V E σ code body turns limit
  cases read : collect code turns limit body [] with
  | none =>
    rw [read] at run
    rw [run]
    exact ⟨nofun, nofun⟩
  | some result =>
    rw [read] at run
    obtain ⟨heap, left, none_⟩ := run
    rw [left]
    refine ⟨nofun, fun vs o heap' same => ?_⟩
    cases same
    exact none_

end Cppgres
