import Cppgres.Executor.Iterators
import Cppgres.Labelled.Simulation
import Mathlib.Logic.Function.Basic

/-!
# The cache of rows

Programs of iterators over the rows of queries. Each iterator caches the rows that were decoded
through it; copies and assignments take the cache along, arithmetic begins a new one. Without the
caches an iterator is a place: `Cppgres.IteratorRun.invisible` says that nothing but the number of
conversions depends on them.
-/
namespace Cppgres
open Labelled RowIterator

variable {ω V : Type}

/-- The iterators that are there. Not of the source are the rows that an object converted since it
was made, and those since it was last assigned to, latest first. -/
structure IteratorRun (ω V : Type) where
  objects : ω → Option (RowIterator V)
  converted : ω → List Nat
  recent : ω → List Nat

/-- The actions up to `postDecrement` make an object `this`. -/
inductive IteratorAction (ω : Type) where
  | begin_ (this : ω) (tuptable : Nat)
  | make (this : ω) (tuptable : Nat) (n : BitVec 64)
  | copy (this other : ω)
  | plus (this other : ω) (n : BitVec 64)
  | minus (this other : ω) (n : BitVec 64)
  | postIncrement (this other : ω)
  | postDecrement (this other : ω)
  | assign (this other : ω)
  | increment (this : ω)
  | decrement (this : ω)
  | addAssign (this : ω) (n : BitVec 64)
  | subAssign (this : ω) (n : BitVec 64)
  | deref (this : ω)
  | subscript (this : ω) (n : BitVec 64)
  | destroy (this : ω)
  deriving DecidableEq, Repr

inductive IteratorOutcome (V : Type) where
  | done
  | row (result : Except RowFailure (Nat × List V))

namespace IteratorRun

def start : IteratorRun ω V := ⟨fun _ => none, fun _ => [], fun _ => []⟩

section Operations
variable [DecidableEq ω] (env : ResultTables V) (m : IteratorRun ω V)

/-- A new object. -/
def construct (this : ω) (it : RowIterator V) : IteratorRun ω V where
  objects := Function.update m.objects this (some it)
  converted := Function.update m.converted this []
  recent := Function.update m.recent this []

/-- The assignment of the compiler: the object has the other's cache from then on. -/
def assign (this : ω) (it : RowIterator V) : IteratorRun ω V :=
  { m with
    objects := Function.update m.objects this (some it)
    recent := Function.update m.recent this [] }

/-- An object that changes. -/
def change (this : ω) (it : RowIterator V) : IteratorRun ω V :=
  { m with objects := Function.update m.objects this (some it) }

/-- `operator[]` converts a row whose slot is empty. Where it succeeds, that is noted. -/
def access (this : ω) (it : RowIterator V) (n : BitVec 64) :
    IteratorOutcome V × IteratorRun ω V :=
  match it.tuples[n.toNat]?, RowIterator.subscript env it n with
  | some none, (.ok value, later) =>
    (.row (.ok value), { m.change this later with
      converted := Function.update m.converted this (n.toNat :: m.converted this)
      recent := Function.update m.recent this (n.toNat :: m.recent this) })
  | _, (result, later) => (.row result, m.change this later)

/-- There is no object of this name yet. -/
def fresh (this : ω) (next : IteratorRun ω V) : Option (IteratorOutcome V × IteratorRun ω V) :=
  if (m.objects this).isSome then none else some (.done, next)

/-- None where there is no such object, or where the object that is made exists already. -/
def exec : IteratorAction ω → Option (IteratorOutcome V × IteratorRun ω V)
  | .begin_ this tuptable => m.fresh this (m.construct this (RowIterator.begin_ env tuptable))
  | .make this tuptable n => m.fresh this (m.construct this (RowIterator.make env tuptable n))
  | .copy this other => do
    let it ← m.objects other
    m.fresh this (m.construct this it)
  | .plus this other n => do
    let it ← m.objects other
    m.fresh this (m.construct this (it.plus env n))
  | .minus this other n => do
    let it ← m.objects other
    m.fresh this (m.construct this (it.minus env n))
  | .postIncrement this other => do
    let it ← m.objects other
    m.fresh this ((m.change other it.postIncrement.2).construct this it.postIncrement.1)
  | .postDecrement this other => do
    let it ← m.objects other
    m.fresh this ((m.change other it.postDecrement.2).construct this it.postDecrement.1)
  | .assign this other => do
    let it ← m.objects other
    let _target ← m.objects this
    some (.done, m.assign this it)
  | .increment this => do
    let it ← m.objects this
    some (.done, m.change this it.increment)
  | .decrement this => do
    let it ← m.objects this
    some (.done, m.change this it.decrement)
  | .addAssign this n => do
    let it ← m.objects this
    some (.done, m.change this (it.addAssign n))
  | .subAssign this n => do
    let it ← m.objects this
    some (.done, m.change this (it.subAssign n))
  | .deref this => do
    let it ← m.objects this
    some (m.access env this it it.index)
  | .subscript this n => do
    let it ← m.objects this
    some (m.access env this it n)
  | .destroy this => do
    let _it ← m.objects this
    some (.done, { m with objects := Function.update m.objects this none })

def step (action : IteratorAction ω) : Option (IteratorRun ω V) := (m.exec env action).map Prod.snd

end Operations

end IteratorRun

/-! ## Without a cache -/

/-- What an iterator is without its cache. -/
structure Place where
  tuptable : Nat
  index : BitVec 64
  deriving DecidableEq, Repr

def RowIterator.place (it : RowIterator V) : Place := ⟨it.tuptable, it.index⟩

namespace Place
variable (place : Place)

def moved (n : BitVec 64) : Place := ⟨place.tuptable, place.index + n⟩

def movedBack (n : BitVec 64) : Place := ⟨place.tuptable, place.index - n⟩

section Operations
variable [DecidableEq ω] (env : ResultTables V) (places : ω → Option Place)

/-- An action on places: each access decodes the row itself. -/
def exec : IteratorAction ω → Option (IteratorOutcome V × (ω → Option Place))
  | .begin_ this tuptable => fresh this (set this ⟨tuptable, 0⟩)
  | .make this tuptable n => fresh this (set this ⟨tuptable, n⟩)
  | .copy this other => do fresh this (set this (← places other))
  | .plus this other n => do fresh this (set this ((← places other).moved n))
  | .minus this other n => do fresh this (set this ((← places other).movedBack n))
  | .postIncrement this other => do
    let at_ ← places other
    fresh this (Function.update (set other (at_.moved 1)) this (some at_))
  | .postDecrement this other => do
    let at_ ← places other
    fresh this (Function.update (set other (at_.movedBack 1)) this (some at_))
  | .assign this other => do
    let at_ ← places other
    let _target ← places this
    some (.done, set this at_)
  | .increment this => do some (.done, set this ((← places this).moved 1))
  | .decrement this => do some (.done, set this ((← places this).movedBack 1))
  | .addAssign this n => do some (.done, set this ((← places this).moved n))
  | .subAssign this n => do some (.done, set this ((← places this).movedBack n))
  | .deref this => do
    let at_ ← places this
    some (.row (row env at_.tuptable at_.index.toNat), places)
  | .subscript this n => do
    let at_ ← places this
    some (.row (row env at_.tuptable n.toNat), places)
  | .destroy this => do
    let _at ← places this
    some (.done, Function.update places this none)
where
  set (this : ω) (place : Place) : ω → Option Place := Function.update places this (some place)
  fresh (this : ω) (next : ω → Option Place) : Option (IteratorOutcome V × (ω → Option Place)) :=
    if (places this).isSome then none else some (.done, next)

end Operations

end Place

namespace IteratorRun

/-- Where the iterators are. -/
def places (m : IteratorRun ω V) (this : ω) : Option Place := (m.objects this).map (·.place)

/-! ## What is asked of a run -/

/-- No object has converted a row twice since it was made or last assigned to, and after a failure
all is as it was. -/
structure Right (m next : IteratorRun ω V) (outcome : IteratorOutcome V) : Prop where
  once : ∀ this, (next.recent this).Nodup
  failed : ∀ failure, outcome = .row (.error failure) → next = m

/-- An action of a run, in the state that it is taken in. -/
def DoneRight [DecidableEq ω] (env : ResultTables V) (m : IteratorRun ω V)
    (action : IteratorAction ω) : Prop :=
  ∀ outcome next, m.exec env action = some (outcome, next) → m.Right next outcome

/-! ## Going through a range -/

section Range
variable (env : ResultTables V)

/-- `results::end()`, which is `results::count()` -/
def count (tuptable : Nat) : BitVec 64 := BitVec.ofNat 64 (numvals env tuptable)

/-- `for (auto &value : results)`, with what the body is given, and the failure that ended the loop
if one did. None is a loop that needs more steps. -/
def rangeFor (end_ : BitVec 64) : Nat → RowIterator V →
    Option (List (Nat × List V) × Option RowFailure)
  | 0, _ => none
  | steps + 1, it =>
    if it.index != end_ then
      match RowIterator.deref env it with
      | (.error failure, _) => some ([], some failure)
      | (.ok value, later) =>
        (rangeFor end_ steps later.increment).map fun (rest, failure) => (value :: rest, failure)
    else some ([], none)

/-- The rows from the first on, in order, up to the last one or to one that fails. -/
structure Visits (tuptable : Nat) (visited : List (Nat × List V)) (failure : Option RowFailure) :
    Prop where
  inOrder : ∀ (r : Nat) value, visited[r]? = some value →
    RowIterator.row env tuptable r = .ok value ∧ value.1 = r
  complete : failure = none → visited.length = numvals env tuptable
  stopped : ∀ refusal, failure = some refusal →
    RowIterator.row env tuptable visited.length = .error refusal

end Range

/-! ## An access -/

section Access
variable {env : ResultTables V} {it : RowIterator V} {n : BitVec 64}

theorem row_number {tuptable r : Nat} {value : Nat × List V}
    (decoded : RowIterator.row env tuptable r = .ok value) : value.1 = r := by
  unfold RowIterator.row at decoded
  split at decoded
  · cases decoded
  · split at decoded
    · cases decoded
    · cases decoded
      rfl

/-- With a cache that is right, `operator[]` gives the row of its number, or there is none. -/
theorem subscript_eq_row (coherent : it.Coherent env) :
    (RowIterator.subscript env it n).1 = RowIterator.row env it.tuptable n.toNat := by
  rcases Nat.lt_or_ge n.toNat (numvals env it.tuptable) with below | beyond
  · exact RowIterator.subscript_row coherent below
  · have noSlot : it.tuples[n.toNat]? = none := by
      rw [List.getElem?_eq_none_iff, coherent.slots]
      exact beyond
    have noRow : (env.tables it.tuptable).vals[n.toNat]? = none :=
      List.getElem?_eq_none_iff.mpr beyond
    unfold RowIterator.subscript RowIterator.row
    rw [noSlot, noRow]

/-- An access fills the slot of its row, if that was empty and the row can be decoded. Otherwise it
changes nothing. -/
theorem subscript_cases (coherent : it.Coherent env) :
    (∃ value, it.tuples[n.toNat]? = some none ∧
        RowIterator.row env it.tuptable n.toNat = .ok (n.toNat, value) ∧
        RowIterator.subscript env it n =
          (.ok (n.toNat, value), { it with tuples := it.tuples.set n.toNat (some value) })) ∨
      ((∀ value, ¬ (it.tuples[n.toNat]? = some none ∧
          (RowIterator.subscript env it n).1 = .ok value)) ∧
        RowIterator.subscript env it n = (RowIterator.row env it.tuptable n.toNat, it)) := by
  have result := subscript_eq_row (n := n) coherent
  cases held : it.tuples[n.toNat]? with
  | none =>
    have refused : RowIterator.subscript env it n = (.error .outOfRange, it) := by
      unfold RowIterator.subscript
      rw [held]
    rw [refused] at result ⊢
    exact .inr ⟨by simp, by rw [← result]⟩
  | some cached =>
    cases cached with
    | some value =>
      have found : RowIterator.subscript env it n = (.ok (n.toNat, value), it) := by
        unfold RowIterator.subscript
        rw [held]
      rw [found] at result ⊢
      exact .inr ⟨by simp, by rw [← result]⟩
    | none =>
      cases decoded : RowIterator.row env it.tuptable n.toNat with
      | error failure =>
        have refused : RowIterator.subscript env it n = (.error failure, it) := by
          unfold RowIterator.subscript
          rw [held]
          dsimp only
          rw [decoded]
        rw [refused]
        exact .inr ⟨by simp, rfl⟩
      | ok value =>
        obtain ⟨number, value⟩ := value
        obtain rfl : number = n.toNat := row_number decoded
        refine .inl ⟨value, rfl, rfl, ?_⟩
        unfold RowIterator.subscript
        rw [held]
        dsimp only
        rw [decoded]

theorem deref_error {failure : RowFailure} (coherent : it.Coherent env)
    (refused : RowIterator.row env it.tuptable it.index.toNat = .error failure) :
    RowIterator.deref env it = (.error failure, it) := by
  rcases subscript_cases (n := it.index) coherent with ⟨_, _, decoded, _⟩ | ⟨_, gives⟩
  · rw [refused] at decoded
    cases decoded
  · rw [refused] at gives
    exact gives

/-- A filled slot leaves the others as they are. -/
theorem coherent_set {value : List V} (coherent : it.Coherent env)
    (decoded : RowIterator.row env it.tuptable n.toNat = .ok (n.toNat, value)) :
    ({ it with tuples := it.tuples.set n.toNat (some value) } : RowIterator V).Coherent env := by
  constructor
  · exact List.length_set.trans coherent.slots
  · intro r other held
    dsimp only at held ⊢
    by_cases same : n.toNat = r
    · subst same
      have below := (List.getElem?_eq_some_iff.mp held).1
      rw [List.length_set] at below
      rw [List.getElem?_set_self below] at held
      cases held
      exact decoded
    · rw [List.getElem?_set_ne same] at held
      exact coherent.filled r other held

/-- What an access leaves is where it was, with a cache that is right. -/
theorem deref_ok {value : Nat × List V} (coherent : it.Coherent env)
    (decoded : RowIterator.row env it.tuptable it.index.toNat = .ok value) :
    ∃ later : RowIterator V, RowIterator.deref env it = (.ok value, later) ∧
      later.tuptable = it.tuptable ∧ later.index = it.index ∧ later.Coherent env := by
  rcases subscript_cases (n := it.index) coherent with ⟨other, _, also, gives⟩ | ⟨_, gives⟩
  · have filled := coherent_set coherent also
    rw [decoded] at also
    cases also
    exact ⟨_, gives, rfl, rfl, filled⟩
  · rw [decoded] at gives
    exact ⟨it, gives, rfl, rfl, coherent⟩

end Access

/-! ## Runs -/

/-- Each iterator has a cache that is right, with all rows in it that it converted itself since the
cache was given to it. -/
structure Sound (env : ResultTables V) (m : IteratorRun ω V) : Prop where
  coherent : ∀ this it, m.objects this = some it → it.Coherent env
  once : ∀ this, (m.recent this).Nodup
  cached : ∀ this it, m.objects this = some it → ∀ r ∈ m.recent this,
    ∃ value, it.tuples[r]? = some (some value)

section Runs
variable {env : ResultTables V} {m next : IteratorRun ω V} {this other : ω} {it new : RowIterator V}
  {action : IteratorAction ω} {outcome : IteratorOutcome V} {n : BitVec 64}

theorem start_sound : (start : IteratorRun ω V).Sound env where
  coherent this it found := by cases found
  once this := List.nodup_nil
  cached this it found := by cases found

variable [DecidableEq ω]

/-- An object is the one that was changed, or as it was. -/
theorem update_cases {objects : ω → Option (RowIterator V)} {one : ω}
    (found : Function.update objects this (some new) one = some it) :
    one = this ∧ it = new ∨ one ≠ this ∧ objects one = some it := by
  by_cases same : one = this
  · rw [same, Function.update_self, Option.some.injEq] at found
    exact .inl ⟨same, found.symm⟩
  · rw [Function.update_of_ne same] at found
    exact .inr ⟨same, found⟩

/-- An object that is given a cache which is right. -/
theorem Sound.assign (sound : m.Sound env) (coherent : new.Coherent env) :
    (m.assign this new).Sound env := by
  constructor
  · intro one it found
    obtain ⟨rfl, rfl⟩ | ⟨_, old⟩ := update_cases found
    · exact coherent
    · exact sound.coherent one it old
  · intro one
    by_cases same : one = this
    · simp [IteratorRun.assign, same]
    · simpa [IteratorRun.assign, same] using sound.once one
  · intro one it found r member
    by_cases same : one = this
    · simp [IteratorRun.assign, same] at member
    · simp only [IteratorRun.assign, Function.update_of_ne same] at found member
      exact sound.cached one it found r member

theorem Sound.construct (sound : m.Sound env) (coherent : new.Coherent env) :
    (m.construct this new).Sound env :=
  ⟨(sound.assign coherent).coherent, (sound.assign coherent).once, (sound.assign coherent).cached⟩

/-- An object that moves and keeps its cache. -/
theorem Sound.moved (sound : m.Sound env) (found : m.objects this = some it) (index : BitVec 64) :
    (m.change this { it with index }).Sound env := by
  constructor
  · intro one it' found'
    obtain ⟨rfl, rfl⟩ | ⟨_, old⟩ := update_cases found'
    · exact (sound.coherent one it found).moved index
    · exact sound.coherent one it' old
  · exact sound.once
  · intro one it' found' r member
    obtain ⟨rfl, rfl⟩ | ⟨_, old⟩ := update_cases found'
    · exact sound.cached one it found r member
    · exact sound.cached one it' old r member

theorem change_self (found : m.objects this = some it) : m.change this it = m := by
  have same : Function.update m.objects this (some it) = m.objects := by
    rw [← found]
    exact Function.update_eq_self this m.objects
  unfold change
  rw [same]

variable (m it n) in
/-- What is left of an access that filled a slot. -/
def filled (this : ω) (value : List V) : IteratorRun ω V :=
  { m.change this { it with tuples := it.tuples.set n.toNat (some value) } with
    converted := Function.update m.converted this (n.toNat :: m.converted this)
    recent := Function.update m.recent this (n.toNat :: m.recent this) }

/-- An object whose slot is filled had not converted the row before. -/
theorem Sound.filled (sound : m.Sound env) (found : m.objects this = some it) {value : List V}
    (empty : it.tuples[n.toNat]? = some none)
    (decoded : RowIterator.row env it.tuptable n.toNat = .ok (n.toNat, value)) :
    (m.filled it n this value).Sound env := by
  have below := (List.getElem?_eq_some_iff.mp empty).1
  have fresh : n.toNat ∉ m.recent this := by
    intro member
    obtain ⟨other, held⟩ := sound.cached this it found n.toNat member
    rw [empty] at held
    cases held
  constructor
  · intro one it' found'
    obtain ⟨rfl, rfl⟩ | ⟨_, old⟩ := update_cases found'
    · exact coherent_set (sound.coherent one it found) decoded
    · exact sound.coherent one it' old
  · intro one
    unfold IteratorRun.filled
    by_cases same : one = this
    · subst same
      simpa using ⟨fresh, sound.once one⟩
    · simpa [same] using sound.once one
  · intro one it' found' r member
    unfold IteratorRun.filled at member
    obtain ⟨rfl, rfl⟩ | ⟨different, old⟩ := update_cases found'
    · simp only [Function.update_self, List.mem_cons] at member
      by_cases new : n.toNat = r
      · subst new
        exact ⟨value, List.getElem?_set_self below⟩
      · rcases member with rfl | member
        · exact absurd rfl new
        · dsimp only
          rw [List.getElem?_set_ne new]
          exact sound.cached one it found r member
    · simp only [Function.update_of_ne different] at member
      exact sound.cached one it' old r member

/-- What an access comes to: the row itself, with a slot filled or with all as it was. -/
theorem Sound.access_cases (sound : m.Sound env) (found : m.objects this = some it)
    (n : BitVec 64) :
    (∃ value, RowIterator.row env it.tuptable n.toNat = .ok (n.toNat, value) ∧
      m.access env this it n = (.row (.ok (n.toNat, value)), m.filled it n this value) ∧
      (m.filled it n this value).Sound env) ∨
    m.access env this it n = (.row (RowIterator.row env it.tuptable n.toNat), m) := by
  have coherent := sound.coherent this it found
  rcases subscript_cases (n := n) coherent with ⟨value, empty, decoded, gives⟩ | ⟨other, gives⟩
  · refine .inl ⟨value, decoded, ?_, sound.filled found empty decoded⟩
    simp only [IteratorRun.access, empty, gives, IteratorRun.filled]
  · right
    have same : m.access env this it n =
        (.row (RowIterator.row env it.tuptable n.toNat), m.change this it) := by
      unfold IteratorRun.access
      rw [gives] at other ⊢
      cases held : it.tuples[n.toNat]? with
      | none => rfl
      | some cached =>
        cases cached with
        | some value => rfl
        | none =>
          cases result : RowIterator.row env it.tuptable n.toNat with
          | error failure => rfl
          | ok value => exact absurd ⟨held, result⟩ (other value)
    rw [same, change_self found]

theorem Sound.access (sound : m.Sound env) (found : m.objects this = some it)
    (taken : m.access env this it n = (outcome, next)) :
    next.Sound env ∧ m.Right next outcome := by
  rcases sound.access_cases found n with ⟨value, _, gives, kept⟩ | gives
  · rw [gives] at taken
    cases taken
    exact ⟨kept, kept.once, nofun⟩
  · rw [gives] at taken
    cases taken
    exact ⟨sound, sound.once, fun _ _ => rfl⟩

/-- Each action keeps what is sound, and is right. -/
theorem Sound.exec (sound : m.Sound env) (taken : m.exec env action = some (outcome, next)) :
    next.Sound env ∧ m.Right next outcome := by
  have done {left : IteratorRun ω V} (kept : left.Sound env)
      (same : some ((.done : IteratorOutcome V), left) = some (outcome, next)) :
      next.Sound env ∧ m.Right next outcome := by
    cases same
    exact ⟨kept, kept.once, nofun⟩
  have made {left : IteratorRun ω V} {this : ω} (kept : left.Sound env)
      (same : m.fresh this left = some (outcome, next)) : next.Sound env ∧ m.Right next outcome :=
    done kept (Option.ite_none_left_eq_some.mp same).2
  cases action with
  | begin_ this tuptable => exact made (sound.construct (make_coherent tuptable 0)) taken
  | make this tuptable n => exact made (sound.construct (make_coherent tuptable n)) taken
  | copy this other =>
    obtain ⟨it, found, same⟩ := Option.bind_eq_some_iff.mp taken
    exact made (sound.construct (sound.coherent other it found)) same
  | plus this other n =>
    obtain ⟨it, found, same⟩ := Option.bind_eq_some_iff.mp taken
    exact made (sound.construct (make_coherent it.tuptable (it.index + n))) same
  | minus this other n =>
    obtain ⟨it, found, same⟩ := Option.bind_eq_some_iff.mp taken
    exact made (sound.construct (make_coherent it.tuptable (it.index - n))) same
  | postIncrement this other =>
    obtain ⟨it, found, same⟩ := Option.bind_eq_some_iff.mp taken
    exact made ((sound.moved found _).construct (sound.coherent other it found)) same
  | postDecrement this other =>
    obtain ⟨it, found, same⟩ := Option.bind_eq_some_iff.mp taken
    exact made ((sound.moved found _).construct (sound.coherent other it found)) same
  | assign this other =>
    obtain ⟨it, found, taken⟩ := Option.bind_eq_some_iff.mp taken
    obtain ⟨target, _, same⟩ := Option.bind_eq_some_iff.mp taken
    exact done (sound.assign (sound.coherent other it found)) same
  | increment this =>
    obtain ⟨it, found, same⟩ := Option.bind_eq_some_iff.mp taken
    exact done (sound.moved found _) same
  | decrement this =>
    obtain ⟨it, found, same⟩ := Option.bind_eq_some_iff.mp taken
    exact done (sound.moved found _) same
  | addAssign this n =>
    obtain ⟨it, found, same⟩ := Option.bind_eq_some_iff.mp taken
    exact done (sound.moved found _) same
  | subAssign this n =>
    obtain ⟨it, found, same⟩ := Option.bind_eq_some_iff.mp taken
    exact done (sound.moved found _) same
  | deref this =>
    obtain ⟨it, found, same⟩ := Option.bind_eq_some_iff.mp taken
    exact sound.access found (Option.some.inj same)
  | subscript this n =>
    obtain ⟨it, found, same⟩ := Option.bind_eq_some_iff.mp taken
    exact sound.access found (Option.some.inj same)
  | destroy this =>
    obtain ⟨it, found, same⟩ := Option.bind_eq_some_iff.mp taken
    have still : ∀ one it', Function.update m.objects this none one = some it' →
        m.objects one = some it' := by
      intro one it' found'
      by_cases gone : one = this
      · simp [gone] at found'
      · simpa [gone] using found'
    have kept : ({ m with objects := Function.update m.objects this none } :
        IteratorRun ω V).Sound env :=
      ⟨fun one it' found' => sound.coherent one it' (still one it' found'), sound.once,
        fun one it' found' => sound.cached one it' (still one it' found')⟩
    exact done kept same

end Runs

/-! ## The caches left out -/

/-- An object is made where there is none. -/
theorem fresh_places (m next : IteratorRun ω V) (this : ω) :
    (m.fresh this next).map (Prod.map id places) = Place.exec.fresh m.places this next.places := by
  have same : (m.objects this).isSome = (m.places this).isSome := by simp [places]
  unfold fresh Place.exec.fresh
  rw [same]
  split <;> rfl

/-- An action on an object that is there. -/
theorem bind_places {β : Type} (m : IteratorRun ω V) (this : ω) {act : RowIterator V → Option β}
    {act' : Place → Option β}
    (agree : ∀ it, m.objects this = some it → act it = act' it.place) :
    (m.objects this).bind act = (m.places this).bind act' := by
  unfold places
  cases found : m.objects this with
  | none => rfl
  | some it => exact agree it found

section Places
variable [DecidableEq ω] {env : ResultTables V} {m : IteratorRun ω V} {this : ω}
  {it new : RowIterator V}

/-- An object that is made or changed is at its place. -/
theorem places_update {objects : ω → Option (RowIterator V)} :
    (fun one => (Function.update objects this (some new) one).map (·.place)) =
      Function.update (fun one => (objects one).map (·.place)) this (some new.place) := by
  funext one
  by_cases same : one = this
  · subst same
    simp
  · simp [same]

theorem places_construct : (m.construct this new).places =
    Function.update m.places this (some new.place) := places_update

theorem places_assign : (m.assign this new).places =
    Function.update m.places this (some new.place) := places_update

theorem places_change : (m.change this new).places =
    Function.update m.places this (some new.place) := places_update

/-- An access does not move an iterator, and gives what the row itself is decoded to. -/
theorem Sound.access_places (sound : m.Sound env) (found : m.objects this = some it)
    (n : BitVec 64) :
    Prod.map id places (m.access env this it n) =
      (.row (RowIterator.row env it.tuptable n.toNat), m.places) := by
  rcases sound.access_cases found n with ⟨value, decoded, gives, _⟩ | gives
  · have still : (m.filled it n this value).places = m.places := by
      refine (places_change (m := m)).trans ?_
      have here : m.places this = some it.place := by simp [places, found]
      exact Function.update_eq_self_iff.mpr here.symm
    rw [gives, decoded, Prod.map_apply, still]
    rfl
  · rw [gives]
    rfl

/-- Each action is that on the places. -/
theorem Sound.square (sound : m.Sound env) (action : IteratorAction ω) :
    (m.exec env action).map (Prod.map id places) = Place.exec env m.places action := by
  have done {one two : ω → Option Place} (same : one = two) :
      some ((.done : IteratorOutcome V), one) = some (.done, two) := by rw [same]
  cases action with
  | begin_ this tuptable =>
    refine (fresh_places ..).trans ?_
    rw [places_construct]
    rfl
  | make this tuptable n =>
    refine (fresh_places ..).trans ?_
    rw [places_construct]
    rfl
  | copy this other =>
    refine Option.map_bind.trans (m.bind_places other fun it found => ?_)
    refine (fresh_places ..).trans ?_
    rw [places_construct]
    rfl
  | plus this other n =>
    refine Option.map_bind.trans (m.bind_places other fun it found => ?_)
    refine (fresh_places ..).trans ?_
    rw [places_construct]
    rfl
  | minus this other n =>
    refine Option.map_bind.trans (m.bind_places other fun it found => ?_)
    refine (fresh_places ..).trans ?_
    rw [places_construct]
    rfl
  | postIncrement this other =>
    refine Option.map_bind.trans (m.bind_places other fun it found => ?_)
    refine (fresh_places ..).trans ?_
    rw [places_construct, places_change]
    rfl
  | postDecrement this other =>
    refine Option.map_bind.trans (m.bind_places other fun it found => ?_)
    refine (fresh_places ..).trans ?_
    rw [places_construct, places_change]
    rfl
  | assign this other =>
    refine Option.map_bind.trans (m.bind_places other fun it found => ?_)
    refine Option.map_bind.trans (m.bind_places this fun target _ => ?_)
    exact done places_assign
  | increment this =>
    refine Option.map_bind.trans (m.bind_places this fun it found => ?_)
    exact done places_change
  | decrement this =>
    refine Option.map_bind.trans (m.bind_places this fun it found => ?_)
    exact done places_change
  | addAssign this n =>
    refine Option.map_bind.trans (m.bind_places this fun it found => ?_)
    exact done places_change
  | subAssign this n =>
    refine Option.map_bind.trans (m.bind_places this fun it found => ?_)
    exact done places_change
  | deref this =>
    refine Option.map_bind.trans (m.bind_places this fun it found => ?_)
    exact congrArg some (sound.access_places found it.index)
  | subscript this n =>
    refine Option.map_bind.trans (m.bind_places this fun it found => ?_)
    exact congrArg some (sound.access_places found n)
  | destroy this =>
    refine Option.map_bind.trans (m.bind_places this fun it found => ?_)
    refine done ?_
    funext one
    by_cases same : one = this
    · subst same
      simp [places]
    · simp [places, same]

end Places

/-! ## The loop -/

section Loop
variable {env : ResultTables V} {tuptable : Nat}

/-- The loop from a row on, with as many rows left as there are. -/
theorem rangeFor_from (left : Nat) (steps : Nat) (enough : left < steps) (it : RowIterator V)
    (coherent : it.Coherent env) (rest : it.index.toNat + left = numvals env it.tuptable) :
    ∃ visited failure, rangeFor env (count env it.tuptable) steps it = some (visited, failure) ∧
      (∀ (r : Nat) value, visited[r]? = some value →
        RowIterator.row env it.tuptable (it.index.toNat + r) = .ok value ∧
          value.1 = it.index.toNat + r) ∧
      (failure = none → visited.length = left) ∧
      ∀ refusal, failure = some refusal →
        RowIterator.row env it.tuptable (it.index.toNat + visited.length) = .error refusal := by
  have few : numvals env it.tuptable < 0x8000000000000000 := env.few it.tuptable
  have end_ : (count env it.tuptable).toNat = numvals env it.tuptable := by
    unfold count
    rw [BitVec.toNat_ofNat]
    omega
  induction left generalizing steps it with
  | zero =>
    obtain ⟨steps, rfl⟩ := Nat.exists_eq_add_one_of_ne_zero (Nat.ne_of_gt enough)
    have atEnd : it.index = count env it.tuptable := BitVec.eq_of_toNat_eq (by omega)
    refine ⟨[], none, ?_, by simp, by simp, by simp⟩
    rw [rangeFor, atEnd]
    simp
  | succ left ih =>
    obtain ⟨steps, rfl⟩ := Nat.exists_eq_add_one_of_ne_zero (Nat.ne_of_gt (Nat.zero_lt_of_lt enough))
    have more : (it.index != count env it.tuptable) = true := by
      rw [bne_iff_ne]
      intro atEnd
      rw [atEnd] at rest
      omega
    rw [rangeFor, if_pos more]
    cases decoded : RowIterator.row env it.tuptable it.index.toNat with
    | error failure =>
      refine ⟨[], some failure, ?_, by simp, by simp, ?_⟩
      · rw [deref_error coherent decoded]
      · rintro refusal ⟨⟩
        exact decoded
    | ok value =>
      obtain ⟨later, accessed, table, at_, kept⟩ := deref_ok coherent decoded
      have next : later.increment.index.toNat = it.index.toNat + 1 := by
        rw [RowIterator.increment_toNat (by rw [at_]; omega), at_]
      have sameTable : later.increment.tuptable = it.tuptable := table
      obtain ⟨visited, failure, loop, inOrder, complete, stopped⟩ :=
        ih steps (by omega) later.increment (kept.moved _) (by rw [next, sameTable]; omega)
          (by rw [sameTable]; exact few) (by rw [sameTable]; exact end_)
      rw [sameTable] at loop inOrder stopped
      rw [next] at inOrder stopped
      refine ⟨value :: visited, failure, ?_, ?_, ?_, ?_⟩
      · rw [accessed]
        simp only [loop, Option.map_some]
      · intro r other there
        cases r with
        | zero =>
          cases there
          exact ⟨decoded, row_number decoded⟩
        | succ r =>
          have shift : it.index.toNat + (r + 1) = it.index.toNat + 1 + r := by omega
          rw [shift]
          exact inOrder r other there
      · intro none
        rw [List.length_cons, complete none]
      · intro refusal some
        have shift : it.index.toNat + (value :: visited).length =
            it.index.toNat + 1 + visited.length := by
          rw [List.length_cons]
          omega
        rw [shift]
        exact stopped refusal some

/-- A loop over the rows ends, after having visited them in order. -/
theorem rangeFor_visits (steps : Nat) (enough : numvals env tuptable < steps) :
    ∃ visited failure,
      rangeFor env (count env tuptable) steps (RowIterator.begin_ env tuptable) =
        some (visited, failure) ∧ Visits env tuptable visited failure := by
  obtain ⟨visited, failure, loop, inOrder, complete, stopped⟩ :=
    rangeFor_from (numvals env tuptable) steps enough (RowIterator.begin_ env tuptable)
      (make_coherent tuptable 0) (Nat.zero_add _)
  refine ⟨visited, failure, loop, ⟨fun r value there => ?_, complete, fun refusal some => ?_⟩⟩
  · have visits := inOrder r value there
    have shift : (RowIterator.begin_ env tuptable).index.toNat + r = r := Nat.zero_add r
    rwa [shift] at visits
  · have stops := stopped refusal some
    have shift : (RowIterator.begin_ env tuptable).index.toNat + visited.length = visited.length :=
      Nat.zero_add _
    rwa [shift] at stops

end Loop

/-- Whatever a program of iterators does, each action does to the places of the iterators, and gives,
what it would without their caches; no iterator converts a row twice with the cache that it was made
or assigned with; a conversion that fails leaves everything as it was; and a loop over the rows of a
query visits each of them once, in order, and stops. -/
theorem invisible [DecidableEq ω] (env : ResultTables V) :
    (∀ actions : List (IteratorAction ω),
      (outcomes (exec env) start actions).map (Prod.map id places) =
        outcomes (Place.exec env) (fun _ => none) actions ∧
      Meets (step env) (DoneRight env) start actions) ∧
    ∀ tuptable steps, numvals env tuptable < steps → ∃ visited failure,
      rangeFor env (count env tuptable) steps (RowIterator.begin_ env tuptable) =
        some (visited, failure) ∧ Visits env tuptable visited failure := by
  have kept : ∀ (m : IteratorRun ω V) action outcome next, m.Sound env →
      m.exec env action = some (outcome, next) → next.Sound env :=
    fun m action outcome next sound executed => (sound.exec executed).1
  refine ⟨fun actions => ⟨?_, ?_⟩, fun tuptable steps enough => rangeFor_visits steps enough⟩
  · exact outcomes_of_inv kept (fun m action sound => sound.square action) start_sound actions
  · refine Meets.of_inv (fun m action next sound _ taken => ?_)
      (fun m action sound _ outcome next executed => (sound.exec executed).2) start_sound
      (meets_of_forall fun _ _ _ => trivial : Meets (step env) (fun _ _ => True) start actions)
    obtain ⟨⟨outcome, _⟩, executed, rfl⟩ := Option.map_eq_some_iff.mp taken
    exact kept m action outcome _ sound executed

/-- The rows of a query in another order than they are in, and again. -/
def backAndForth : List (IteratorAction Nat) :=
  [.begin_ 0 0, .subscript 0 1, .subscript 0 0, .increment 0, .copy 1 0, .deref 1]

theorem backAndForth_invisible :
    (outcomes (exec twoRows) start backAndForth).map Prod.fst =
      some [.done, .row (.ok (1, [20])), .row (.ok (0, [10])), .done, .done,
        .row (.ok (1, [20]))] ∧
    ∃ visited failure, rangeFor twoRows (count twoRows 0) 3 (RowIterator.begin_ twoRows 0) =
      some (visited, failure) ∧ Visits twoRows 0 visited failure := by
  have unseen := @invisible Nat Datum _ twoRows
  have same : (outcomes (exec twoRows) start backAndForth).map Prod.fst =
      (outcomes (Place.exec twoRows) (fun _ => none) backAndForth).map Prod.fst := by
    rw [← (unseen.1 backAndForth).1, Option.map_map]
    rfl
  exact ⟨same, unseen.2 0 3 (by decide)⟩

/-- An object that was assigned to converts a row again. -/
theorem assigned_convertsTwice :
    (run (step twoRows) start [.begin_ 0 0, .deref 0, .begin_ 1 0, .assign 0 1, .deref 0]).map
      (·.converted 0) = some [0, 0] ∧
    ¬ ∀ (actions : List (IteratorAction Nat)) m, run (step twoRows) start actions = some m →
      ∀ this, (m.converted this).Nodup := by
  refine ⟨rfl, fun once => ?_⟩
  exact absurd (once [.begin_ 0 0, .deref 0, .begin_ 1 0, .assign 0 1, .deref 0] _ rfl 0) (by decide)

end IteratorRun
end Cppgres
