import Cppgres.Memory.TrackingRuns

/-!
# What a tracking object tells of memory

An object that was made over the context of a piece of memory while the memory was there
has counted a reset just when the memory is gone. No operation that leaves the object alone
changes that.
-/
namespace Cppgres
open Regions Labelled

variable {ι α : Type} [DecidableEq ι]

namespace TrackedMemory

/-- The object's callback has run if the memory is freed; else the memory is in the object's
context and holds what it should. -/
def Follows (m : TrackedMemory ι α) (name : ι) (address : Nat) (holds : α → Prop) : Prop :=
  address < m.memory.fresh ∧ ∃ ctx state, m.trackers.lookup name = some ⟨ctx, some state⟩ ∧
    ((m.states state).callback = none ∧ m.memory.chunks address = none ∨
      (m.states state).callback = some state ∧
        ∃ contents, m.memory.chunks address = some (ctx, contents) ∧ holds contents)

/-- The objects that an action constructs, changes or destroys. -/
def Writes : TrackingAction ι → ι → Prop
  | .construct this _, name | .copyConstruct this _, name | .copyAssign this _, name
  | .destroy this, name => name = this
  | .moveConstruct this other, name | .moveAssign this other, name => name = this ∨ name = other
  | _, _ => False

/-- The action gives `this` what `other` has. -/
def Copies (this other : ι) (action : TrackingAction ι) : Prop :=
  action = .copyConstruct this other ∨ action = .copyAssign this other ∨
    action = .moveConstruct this other ∨ action = .moveAssign this other

/-- Which objects there are after an action, from those that were there. -/
def Present (there : ι → Prop) : TrackingAction ι → ι → Prop
  | .construct this _, name | .copyConstruct this _, name | .moveConstruct this _, name =>
    name = this ∨ there name
  | .destroy this, name => name ≠ this ∧ there name
  | _, name => there name

variable {m next : TrackedMemory ι α} {name : ι} {address : Nat} {holds : α → Prop}

theorem lookup_moved {trackers : AList fun _ : ι => TrackingMemoryContext} {this other : ι}
    {one two : TrackingMemoryContext} (untouched : ¬ (name = this ∨ name = other)) :
    ((trackers.insert other one).insert this two).lookup name = trackers.lookup name := by
  rw [AList.lookup_insert_ne fun same => untouched (.inl same),
    AList.lookup_insert_ne fun same => untouched (.inr same)]

/-- What an action leaves of the objects it does not write to, of the states they own, and
of the memory, other than a reset. -/
structure Apart (m next : TrackedMemory ι α) (name : ι) : Prop where
  lookup : next.trackers.lookup name = m.trackers.lookup name
  states : ∀ ctx state, m.trackers.lookup name = some ⟨ctx, some state⟩ →
    next.states state = m.states state
  chunks : next.memory.chunks = m.memory.chunks
  fresh : next.memory.fresh = m.memory.fresh ∨ next.memory.fresh = m.memory.fresh + 1

theorem Follows.apart (follows : m.Follows name address holds) (apart : Apart m next name) :
    next.Follows name address holds := by
  obtain ⟨below, ctx, state, found, told⟩ := follows
  refine ⟨?_, ctx, state, apart.lookup.trans found, ?_⟩
  · cases apart.fresh with
    | inl same => omega
    | inr more => omega
  · rw [apart.states ctx state found, apart.chunks]
    exact told

theorem Follows.release (follows : m.Follows name address holds) (tracked : m.Tracked)
    (ctx : Nat) (delete : Bool) : (m.release ctx delete).Follows name address holds := by
  obtain ⟨below, place, state, found, told⟩ := follows
  refine ⟨below, place, state, ?_, ?_⟩
  · rw [trackers_release]
    exact found
  · have states := tracked.states_release delete found ctx
    cases told with
    | inl gone =>
      rw [if_neg (by simp [gone.1])] at states
      left
      rw [states]
      refine ⟨gone.1, ?_⟩
      show (m.memory.chunks address).filter _ = none
      rw [gone.2]
      rfl
    | inr there =>
      obtain ⟨armed, contents, held, right⟩ := there
      by_cases covered : m.memory.covers ctx place
      · rw [if_pos ⟨armed, covered⟩] at states
        left
        refine ⟨states.1, ?_⟩
        show (m.memory.chunks address).filter _ = none
        rw [held]
        simp [covered]
      · rw [if_neg fun both => covered both.2] at states
        right
        rw [states]
        refine ⟨armed, contents, Store.chunks_release_eq_some.mpr ⟨held, ?_⟩, right⟩
        simpa using covered

/-- Destroying an object leaves the others what they own. -/
theorem apart_destroy {this : ι} {object : TrackingMemoryContext}
    (destroyed : m.trackers.lookup this = some object) (different : name ≠ this) :
    Apart m (m.destroy this object) name := by
  obtain ⟨ctx, owned⟩ := object
  have erased : Apart m { m with trackers := m.trackers.erase this } name :=
    ⟨AList.lookup_erase_ne different, fun _ _ _ => rfl, rfl, .inl rfl⟩
  unfold destroy disarmLast
  cases owned with
  | none => exact erased
  | some state =>
    cases knows : (m.states state).callback with
    | none =>
      simp only [knows]
      exact erased
    | some callback =>
      by_cases last : m.useCount state = 1
      · simp only [knows, last, if_true]
        refine ⟨AList.lookup_erase_ne different, ?_, rfl, .inl rfl⟩
        intro place other found
        have sole := (useCount_eq_one destroyed).mp last
        have apart : other ≠ state := by
          intro same
          rw [same] at found
          exact different (sole name place found)
        simp [disarm, apart]
      · simp only [knows, last, if_false]
        exact erased

omit [DecidableEq ι] in
/-- What the destructor does: nothing, or disarming a callback. -/
theorem disarmLast_cases (m : TrackedMemory ι α) (object : TrackingMemoryContext) :
    m.disarmLast object = m ∨ ∃ state callback, m.disarmLast object = m.disarm state callback := by
  unfold disarmLast
  split
  · exact .inl rfl
  · split
    · exact .inl rfl
    · split
      · exact .inr ⟨_, _, rfl⟩
      · exact .inl rfl

/-- Destroying an object frees nothing. -/
theorem memory_destroy (this : ι) (object : TrackingMemoryContext) :
    (m.destroy this object).memory.regions = m.memory.regions ∧
      (m.destroy this object).memory.chunks = m.memory.chunks ∧
      (m.destroy this object).memory.fresh = m.memory.fresh := by
  show (m.disarmLast object).memory.regions = _ ∧ (m.disarmLast object).memory.chunks = _ ∧
    (m.disarmLast object).memory.fresh = _
  obtain same | ⟨state, callback, disarmed⟩ := m.disarmLast_cases object
  · simp [same]
  · simp [disarmed, disarm, Store.updateCallbacks]

/-- The action frees memory. -/
def Frees : TrackingAction ι → Prop
  | .reset _ | .delete _ => True
  | _ => False

/-- No other action changes what is in memory. -/
theorem chunks_step {action : TrackingAction ι} (keeps : ¬ Frees action)
    (taking : m.step action = some next) :
    next.memory.chunks = m.memory.chunks ∧ m.memory.fresh ≤ next.memory.fresh := by
  cases action with
  | create parent =>
    obtain ⟨_, same⟩ := Option.ite_none_right_eq_some.mp taking
    cases same
    exact ⟨rfl, Nat.le_succ _⟩
  | reset ctx | delete ctx => exact absurd trivial keeps
  | construct this ctx =>
    obtain ⟨_, taking⟩ := Option.ite_none_left_eq_some.mp taking
    obtain ⟨_, same⟩ := Option.dite_none_right_eq_some.mp taking
    cases same
    exact ⟨rfl, Nat.le_refl _⟩
  | copyConstruct this other | moveConstruct this other =>
    obtain ⟨_, taking⟩ := Option.ite_none_left_eq_some.mp taking
    obtain ⟨object, _, rfl⟩ := Option.map_eq_some_iff.mp taking
    exact ⟨rfl, Nat.le_refl _⟩
  | copyAssign this other =>
    obtain ⟨_, taking⟩ := Option.ite_none_right_eq_some.mp taking
    obtain ⟨object, _, rfl⟩ := Option.map_eq_some_iff.mp taking
    unfold copyAssign
    split <;> exact ⟨rfl, Nat.le_refl _⟩
  | moveAssign this other =>
    obtain ⟨_, taking⟩ := Option.ite_none_right_eq_some.mp taking
    obtain ⟨object, _, rfl⟩ := Option.map_eq_some_iff.mp taking
    unfold moveAssign
    split <;> exact ⟨rfl, Nat.le_refl _⟩
  | destroy this =>
    obtain ⟨object, _, rfl⟩ := Option.map_eq_some_iff.mp taking
    obtain ⟨_, chunks, fresh⟩ := memory_destroy (m := m) this object
    exact ⟨chunks, Nat.le_of_eq fresh.symm⟩

theorem follows_step {action : TrackingAction ι} (tracked : m.Tracked)
    (follows : m.Follows name address holds) (untouched : ¬ Writes action name)
    (taking : m.step action = some next) : next.Follows name address holds := by
  cases action with
  | create parent =>
    obtain ⟨_, same⟩ := Option.ite_none_right_eq_some.mp taking
    cases same
    exact follows.apart ⟨rfl, fun _ _ _ => rfl, rfl, .inr rfl⟩
  | reset ctx =>
    obtain ⟨_, same⟩ := Option.ite_none_right_eq_some.mp taking
    cases same
    exact follows.release tracked ctx false
  | delete ctx =>
    obtain ⟨_, same⟩ := Option.ite_none_right_eq_some.mp taking
    cases same
    exact follows.release tracked ctx true
  | construct this ctx =>
    obtain ⟨absent, taking⟩ := Option.ite_none_left_eq_some.mp taking
    obtain ⟨isLive, same⟩ := Option.dite_none_right_eq_some.mp taking
    cases same
    refine follows.apart ⟨AList.lookup_insert_ne untouched, ?_, rfl, .inl rfl⟩
    intro place state found
    have below := tracked.below name place state found
    simp only [construct]
    rw [if_neg (by omega)]
  | copyConstruct this other =>
    obtain ⟨absent, taking⟩ := Option.ite_none_left_eq_some.mp taking
    obtain ⟨object, found, rfl⟩ := Option.map_eq_some_iff.mp taking
    exact follows.apart ⟨AList.lookup_insert_ne untouched, fun _ _ _ => rfl, rfl, .inl rfl⟩
  | moveConstruct this other =>
    obtain ⟨absent, taking⟩ := Option.ite_none_left_eq_some.mp taking
    obtain ⟨object, found, rfl⟩ := Option.map_eq_some_iff.mp taking
    exact follows.apart ⟨lookup_moved untouched, fun _ _ _ => rfl, rfl, .inl rfl⟩
  | copyAssign this other =>
    obtain ⟨_, taking⟩ := Option.ite_none_right_eq_some.mp taking
    obtain ⟨object, found, rfl⟩ := Option.map_eq_some_iff.mp taking
    unfold copyAssign
    split
    · exact follows.apart ⟨AList.lookup_insert_ne untouched, fun _ _ _ => rfl, rfl, .inl rfl⟩
    · exact follows
  | moveAssign this other =>
    obtain ⟨_, taking⟩ := Option.ite_none_right_eq_some.mp taking
    obtain ⟨object, found, rfl⟩ := Option.map_eq_some_iff.mp taking
    unfold moveAssign
    split
    · exact follows.apart ⟨lookup_moved untouched, fun _ _ _ => rfl, rfl, .inl rfl⟩
    · exact follows
  | destroy this =>
    obtain ⟨object, found, rfl⟩ := Option.map_eq_some_iff.mp taking
    exact follows.apart (apart_destroy found untouched)

/-- An object that is as another one tells the same. -/
theorem Follows.same (follows : m.Follows name address holds) {this : ι}
    (memory : next.memory = m.memory) (states : next.states = m.states)
    (copied : next.trackers.lookup this = m.trackers.lookup name) :
    next.Follows this address holds := by
  obtain ⟨below, ctx, state, found, told⟩ := follows
  refine ⟨by rw [memory]; exact below, ctx, state, copied.trans found, ?_⟩
  rw [memory, states]
  exact told

/-- Memory that is allocated leaves what is told of other memory. -/
theorem Follows.alloc (follows : m.Follows name address holds) {ctx : Nat} {contents : α}
    (isLive : m.memory.live ctx) :
    Follows { m with memory := m.memory.alloc ctx contents isLive } name address holds := by
  obtain ⟨below, place, state, found, told⟩ := follows
  have same : (m.memory.alloc ctx contents isLive).chunks address = m.memory.chunks address := by
    simp only [Store.alloc]
    rw [if_neg (by omega)]
  refine ⟨?_, place, state, found, ?_⟩
  · show address < m.memory.fresh + 1
    omega
  · simp only [same]
    exact told

/-- `resets()` of an object that follows the memory. -/
theorem Follows.resets (follows : m.Follows name address holds) (tracked : m.Tracked)
    {object : TrackingMemoryContext} (found : m.trackers.lookup name = some object) :
    0 < m.resets object ∧ m.memory.chunks address = none ∨
      m.resets object = 0 ∧
        ∃ ctx contents, m.memory.chunks address = some (ctx, contents) ∧ holds contents := by
  obtain ⟨_, ctx, state, also, told⟩ := follows
  rw [found, Option.some.injEq] at also
  subst also
  have counted := tracked.counted name ctx state found
  unfold CallbackState.Counted at counted
  cases told with
  | inl gone =>
    rw [if_pos gone.1] at counted
    exact .inl ⟨counted, gone.2⟩
  | inr there =>
    obtain ⟨armed, contents, held, right⟩ := there
    rw [if_neg (by simp [armed])] at counted
    exact .inr ⟨counted, ctx, contents, held, right⟩

/-- A new object over the context of memory that is there. -/
theorem follows_construct {this : ι} {ctx : Nat} {contents : α} (isLive : m.memory.live ctx)
    (held : m.memory.chunks address = some (ctx, contents)) (right : holds contents) :
    (m.construct this ctx isLive).Follows this address holds := by
  refine ⟨?_, ctx, m.fresh, AList.lookup_insert _, .inr ⟨?_, contents, held, right⟩⟩
  · show address < m.memory.fresh
    by_contra above
    rw [m.memory.chunks_fresh address (by omega)] at held
    cases held
  · simp [construct]

/-! ## Which objects there are -/

theorem mem_step {action : TrackingAction ι} (taking : m.step action = some next) :
    name ∈ next.trackers ↔ Present (· ∈ m.trackers) action name := by
  cases action with
  | create parent =>
    obtain ⟨_, same⟩ := Option.ite_none_right_eq_some.mp taking
    cases same
    rfl
  | reset ctx | delete ctx =>
    obtain ⟨_, same⟩ := Option.ite_none_right_eq_some.mp taking
    cases same
    rw [trackers_release]
    rfl
  | construct this ctx =>
    obtain ⟨absent, taking⟩ := Option.ite_none_left_eq_some.mp taking
    obtain ⟨isLive, same⟩ := Option.dite_none_right_eq_some.mp taking
    cases same
    exact AList.mem_insert _
  | copyConstruct this other =>
    obtain ⟨absent, taking⟩ := Option.ite_none_left_eq_some.mp taking
    obtain ⟨object, found, rfl⟩ := Option.map_eq_some_iff.mp taking
    exact AList.mem_insert _
  | moveConstruct this other =>
    obtain ⟨absent, taking⟩ := Option.ite_none_left_eq_some.mp taking
    obtain ⟨object, found, rfl⟩ := Option.map_eq_some_iff.mp taking
    simp only [moveConstruct, AList.mem_insert, Present]
    constructor
    · intro either
      obtain same | same | old := either
      · exact .inl same
      · exact .inr (same ▸ mem_of_lookup found)
      · exact .inr old
    · intro either
      exact either.imp_right .inr
  | copyAssign this other =>
    obtain ⟨there, taking⟩ := Option.ite_none_right_eq_some.mp taking
    obtain ⟨object, found, rfl⟩ := Option.map_eq_some_iff.mp taking
    unfold copyAssign
    split
    · exact mem_insert_of_mem there
    · rfl
  | moveAssign this other =>
    obtain ⟨there, taking⟩ := Option.ite_none_right_eq_some.mp taking
    obtain ⟨object, found, rfl⟩ := Option.map_eq_some_iff.mp taking
    unfold moveAssign
    split
    · refine (mem_insert_of_mem ?_).trans (mem_insert_of_mem (mem_of_lookup found))
      exact (mem_insert_of_mem (mem_of_lookup found)).mpr there
    · rfl
  | destroy this =>
    obtain ⟨object, found, rfl⟩ := Option.map_eq_some_iff.mp taking
    exact AList.mem_erase

theorem follows_copied {this : ι} {action : TrackingAction ι}
    (follows : m.Follows name address holds) (copies : Copies this name action)
    (taking : m.step action = some next) : next.Follows this address holds := by
  obtain rfl | rfl | rfl | rfl := copies
  · obtain ⟨absent, taking⟩ := Option.ite_none_left_eq_some.mp taking
    obtain ⟨object, found, rfl⟩ := Option.map_eq_some_iff.mp taking
    exact follows.same rfl rfl (by rw [found]; exact AList.lookup_insert _)
  · obtain ⟨_, taking⟩ := Option.ite_none_right_eq_some.mp taking
    obtain ⟨object, found, rfl⟩ := Option.map_eq_some_iff.mp taking
    unfold copyAssign
    split
    · exact follows.same rfl rfl (by rw [found]; exact AList.lookup_insert _)
    · rename_i same
      rw [not_not.mp same]
      exact follows
  · obtain ⟨absent, taking⟩ := Option.ite_none_left_eq_some.mp taking
    obtain ⟨object, found, rfl⟩ := Option.map_eq_some_iff.mp taking
    exact follows.same rfl rfl (by rw [found]; exact AList.lookup_insert _)
  · obtain ⟨_, taking⟩ := Option.ite_none_right_eq_some.mp taking
    obtain ⟨object, found, rfl⟩ := Option.map_eq_some_iff.mp taking
    unfold moveAssign
    split
    · exact follows.same rfl rfl (by rw [found]; exact AList.lookup_insert _)
    · rename_i same
      rw [not_not.mp same]
      exact follows

theorem mem_copied {this : ι} {action : TrackingAction ι} (copies : Copies this name action)
    (taking : m.step action = some next) : this ∈ next.trackers := by
  obtain rfl | rfl | rfl | rfl := copies
  · exact (mem_step taking).mpr (.inl rfl)
  · exact (mem_step taking).mpr (Option.ite_none_right_eq_some.mp taking).1
  · exact (mem_step taking).mpr (.inl rfl)
  · exact (mem_step taking).mpr (Option.ite_none_right_eq_some.mp taking).1

/-! ## Sequences of operations -/

/-- Each assignment among them leaves an owner. -/
abbrev LeaveOwners (m : TrackedMemory ι α) (actions : List (TrackingAction ι)) : Prop :=
  Meets step LeavesOwner m actions

theorem tracked_run {actions : List (TrackingAction ι)} (tracked : m.Tracked)
    (leaves : m.LeaveOwners actions) (reached : run step m actions = some next) :
    next.Tracked :=
  inv_of_meets (fun _ _ _ tracked leaves taking => tracked_step tracked leaves taking) tracked
    leaves reached

theorem chunks_run {actions : List (TrackingAction ι)}
    (keeps : ∀ action ∈ actions, ¬ Frees action) (reached : run step m actions = some next) :
    next.memory.chunks = m.memory.chunks ∧ m.memory.fresh ≤ next.memory.fresh := by
  induction actions generalizing m with
  | nil =>
    cases reached
    exact ⟨rfl, Nat.le_refl _⟩
  | cons action actions ih =>
    obtain ⟨t, taking, reached⟩ := run_cons.mp reached
    have first := chunks_step (keeps action List.mem_cons_self) taking
    have rest := ih (fun later listed => keeps later (List.mem_cons_of_mem _ listed)) reached
    exact ⟨rest.1.trans first.1, Nat.le_trans first.2 rest.2⟩

theorem follows_run {actions : List (TrackingAction ι)} (tracked : m.Tracked)
    (leaves : m.LeaveOwners actions) (follows : m.Follows name address holds)
    (untouched : ∀ action ∈ actions, ¬ Writes action name)
    (reached : run step m actions = some next) : next.Follows name address holds := by
  have apart : Meets step (fun _ action => ¬ Writes action name) m actions :=
    meets_of_forall fun action listed _ => untouched action listed
  have kept : ∀ (s : TrackedMemory ι α) action t, s.Tracked ∧ s.Follows name address holds →
      s.LeavesOwner action ∧ ¬ Writes action name → s.step action = some t →
      t.Tracked ∧ t.Follows name address holds := by
    intro s action t inv cond taking
    exact ⟨tracked_step inv.1 cond.1 taking, follows_step inv.1 inv.2 cond.2 taking⟩
  exact (inv_of_meets kept ⟨tracked, follows⟩ (meets_and leaves apart) reached).2

omit [DecidableEq ι] in
theorem present_of_untouched {there : ι → Prop} {action : TrackingAction ι}
    (untouched : ¬ Writes action name) : Present there action name ↔ there name := by
  cases action with
  | construct this ctx | copyConstruct this other =>
    exact or_iff_right untouched
  | moveConstruct this other => exact or_iff_right fun same => untouched (.inl same)
  | destroy this => exact and_iff_right untouched
  | _ => rfl

theorem mem_run {actions : List (TrackingAction ι)}
    (kept : ∀ action ∈ actions, ∀ there, Present there action name ↔ there name)
    (reached : run step m actions = some next) : name ∈ next.trackers ↔ name ∈ m.trackers := by
  induction actions generalizing m with
  | nil =>
    cases reached
    rfl
  | cons action actions ih =>
    obtain ⟨t, taking, reached⟩ := run_cons.mp reached
    rw [ih (fun later listed => kept later (List.mem_cons_of_mem _ listed)) reached,
      mem_step taking, kept action List.mem_cons_self]

end TrackedMemory
end Cppgres
