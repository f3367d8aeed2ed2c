import Cppgres.Memory.Tracking

/-!
# Armed callbacks and their owners

What the operations on tracking memory contexts keep: a callback that is still to count a
reset points to a state that some object owns. Assignment keeps it only where the object
assigned to is not the last owner of a state that still has its callback.
-/
namespace Cppgres
open Regions Labelled

variable {ι α : Type} [DecidableEq ι]

/-- The counter tells whether the callback has run. -/
def CallbackState.Counted (state : CallbackState) : Prop :=
  if state.callback = none then 0 < state.counter else state.counter = 0

namespace TrackedMemory

/-- A live object owns the state. -/
def Owned (m : TrackedMemory ι α) (state : Nat) : Prop :=
  ∃ this ctx, m.trackers.lookup this = some ⟨ctx, some state⟩

/-- The context has the callback that is to count its reset in the state. -/
def Armed (m : TrackedMemory ι α) (ctx state : Nat) : Prop :=
  (ctx, ⟨state, .trackReset, some state⟩) ∈ m.memory.callbacks

/-- No armed callback outlives its state, and no such callback has run. -/
structure NoneDangling (m : TrackedMemory ι α) : Prop where
  owned : ∀ ctx callback, (ctx, callback) ∈ m.memory.callbacks → callback.func = .trackReset →
    ∃ state, callback.arg = some state ∧ m.Owned state
  defined : m.undefined = false

/-- An assignment to another object finds the state of its target without a callback, or
with another owner. -/
def LeavesOwner (m : TrackedMemory ι α) : TrackingAction ι → Prop
  | .copyAssign this other | .moveAssign this other =>
    this = other ∨ ∀ ctx state, m.trackers.lookup this = some ⟨ctx, some state⟩ →
      (m.states state).callback = none ∨ 2 ≤ m.useCount state
  | _ => True

instance (m : TrackedMemory ι α) : ∀ action, Decidable (m.LeavesOwner action)
  | .copyAssign this other | .moveAssign this other =>
    match found : m.trackers.lookup this with
    | some ⟨ctx, some state⟩ =>
      decidable_of_iff (this = other ∨
        ((m.states state).callback = none ∨ 2 ≤ m.useCount state)) (by simp [LeavesOwner, found])
    | some ⟨ctx, none⟩ => .isTrue (.inr (by simp [found]))
    | none => .isTrue (.inr (by simp [found]))
  | .create _ | .reset _ | .delete _ | .construct _ _ | .copyConstruct _ _ | .moveConstruct _ _
  | .destroy _ => .isTrue trivial

/-- What every operation keeps, an assignment where it leaves an owner. -/
structure Tracked (m : TrackedMemory ι α) : Prop where
  defined : m.undefined = false
  arg : ∀ ctx callback, (ctx, callback) ∈ m.memory.callbacks → callback.func = .trackReset →
    callback.arg = some callback.address
  owned : ∀ ctx state, m.Armed ctx state → m.Owned state
  known : ∀ ctx state, m.Armed ctx state → (m.states state).callback = some state
  once : ∀ ctx other state, m.Armed ctx state → m.Armed other state → ctx = other
  number : ∀ state callback, (m.states state).callback = some callback → callback = state
  armed : ∀ this ctx state, m.trackers.lookup this = some ⟨ctx, some state⟩ →
    (m.states state).callback = some state → m.Armed ctx state
  counted : ∀ this ctx state, m.trackers.lookup this = some ⟨ctx, some state⟩ →
    (m.states state).Counted
  below : ∀ this ctx state, m.trackers.lookup this = some ⟨ctx, some state⟩ → state < m.fresh

variable {m : TrackedMemory ι α} {this other : ι} {ctx state : Nat}

theorem Tracked.noneDangling (tracked : m.Tracked) : m.NoneDangling where
  owned ctx callback registered function := by
    have address := tracked.arg ctx callback registered function
    refine ⟨callback.address, address, tracked.owned ctx callback.address ?_⟩
    unfold Armed
    rwa [← function, ← address]
  defined := tracked.defined

/-! ## How many own a state -/

omit [DecidableEq ι] in
theorem countP_eq_one {β : ι → Type} {p : Sigma β → Bool} {entries : List (Sigma β)}
    (nodup : entries.NodupKeys) {entry : Sigma β} (listed : entry ∈ entries) (counted : p entry) :
    entries.countP p = 1 ↔ ∀ one ∈ entries, p one → one.1 = entry.1 := by
  obtain ⟨before, after, split⟩ := List.append_of_mem listed
  subst split
  have counts : (before ++ entry :: after).countP p = before.countP p + after.countP p + 1 := by
    rw [List.countP_append, List.countP_cons_of_pos counted]
    omega
  constructor
  · intro single one member holds
    have none_before : before.countP p = 0 := by omega
    have none_after : after.countP p = 0 := by omega
    rw [List.countP_eq_zero] at none_before none_after
    cases List.mem_append.mp member with
    | inl member => exact absurd holds (none_before one member)
    | inr member =>
      cases List.mem_cons.mp member with
      | inl same => rw [same]
      | inr member => exact absurd holds (none_after one member)
  · intro only
    have distinct := List.nodupKeys_iff_pairwise.mp nodup
    rw [List.pairwise_append, List.pairwise_cons] at distinct
    have none_before : before.countP p = 0 := by
      rw [List.countP_eq_zero]
      intro one member holds
      exact distinct.2.2 one member entry List.mem_cons_self (only one (by simp [member]) holds)
    have none_after : after.countP p = 0 := by
      rw [List.countP_eq_zero]
      intro one member holds
      exact distinct.2.1.1 one member (only one (by simp [member]) holds).symm
    omega

theorem useCount_eq_zero : m.useCount state = 0 ↔ ¬ m.Owned state := by
  unfold useCount Owned
  rw [List.countP_eq_zero]
  constructor
  · intro none owned
    obtain ⟨this, ctx, found⟩ := owned
    exact none _ (AList.mem_lookup_iff.mp found) (by simp)
  · intro unowned object listed owns
    apply unowned
    refine ⟨object.1, object.2.ctx, AList.mem_lookup_iff.mpr ?_⟩
    rw [← of_decide_eq_true owns]
    exact listed

theorem useCount_eq_one (found : m.trackers.lookup this = some ⟨ctx, some state⟩) :
    m.useCount state = 1 ↔
      ∀ other elsewhere, m.trackers.lookup other = some ⟨elsewhere, some state⟩ → other = this := by
  have listed := AList.mem_lookup_iff.mp found
  unfold useCount
  rw [countP_eq_one m.trackers.nodupKeys listed (by simp)]
  constructor
  · intro only other elsewhere found
    exact only _ (AList.mem_lookup_iff.mp found) (by simp)
  · intro only object listed owns
    apply only object.1 object.2.ctx
    rw [← of_decide_eq_true owns]
    exact AList.mem_lookup_iff.mpr listed

/-- More than one owner: another than this. -/
theorem two_le_useCount (found : m.trackers.lookup this = some ⟨ctx, some state⟩) :
    2 ≤ m.useCount state ↔
      ∃ other elsewhere, other ≠ this ∧
        m.trackers.lookup other = some ⟨elsewhere, some state⟩ := by
  have some_owner : m.useCount state ≠ 0 := by
    intro none
    exact useCount_eq_zero.mp none ⟨this, ctx, found⟩
  have single := useCount_eq_one found
  constructor
  · intro several
    by_contra none
    have one : m.useCount state = 1 := by
      apply single.mpr
      intro other elsewhere owns
      by_contra different
      exact none ⟨other, elsewhere, different, owns⟩
    omega
  · intro another
    obtain ⟨other, elsewhere, different, owns⟩ := another
    have several : m.useCount state ≠ 1 := fun one => different (single.mp one other elsewhere owns)
    omega

/-! ## The operations -/

theorem start_tracked : (start : TrackedMemory ι α).Tracked where
  defined := rfl
  arg := by simp [start, Store.empty]
  owned := by simp [Armed, start, Store.empty]
  known := by simp [Armed, start, Store.empty]
  once := by simp [Armed, start, Store.empty]
  number := by simp [start]
  armed := by simp [start]
  counted := by simp [start]
  below := by simp [start]

/-- Objects may come to own what some object owned, and go where an owner is left for each
armed callback. -/
theorem Tracked.reown (tracked : m.Tracked) {trackers : AList fun _ : ι => TrackingMemoryContext}
    (fromOld : ∀ this ctx state, trackers.lookup this = some ⟨ctx, some state⟩ →
      ∃ other, m.trackers.lookup other = some ⟨ctx, some state⟩)
    (left : ∀ ctx state, m.Armed ctx state →
      ∃ this elsewhere, trackers.lookup this = some ⟨elsewhere, some state⟩) :
    Tracked { m with trackers := trackers } where
  defined := tracked.defined
  arg := tracked.arg
  owned := left
  known := tracked.known
  once := tracked.once
  number := tracked.number
  armed this ctx state found := by
    obtain ⟨other, found⟩ := fromOld this ctx state found
    exact tracked.armed other ctx state found
  counted this ctx state found := by
    obtain ⟨other, found⟩ := fromOld this ctx state found
    exact tracked.counted other ctx state found
  below this ctx state found := by
    obtain ⟨other, found⟩ := fromOld this ctx state found
    exact tracked.below other ctx state found

theorem armed_construct {isLive : m.memory.live ctx} {elsewhere : Nat} :
    (m.construct this ctx isLive).Armed elsewhere state ↔
      elsewhere = ctx ∧ state = m.fresh ∨ m.Armed elsewhere state := by
  simp only [Armed, construct, Store.callbacks_register, List.mem_cons, Prod.mk.injEq,
    ResetCallback.mk.injEq, Option.some.injEq, true_and, and_self]

theorem Tracked.fresh_of_armed (tracked : m.Tracked) (armed : m.Armed ctx state) :
    state < m.fresh := by
  obtain ⟨this, elsewhere, found⟩ := tracked.owned ctx state armed
  exact tracked.below this elsewhere state found

theorem states_construct_of_lt {isLive : m.memory.live ctx} (below : state < m.fresh) :
    (m.construct this ctx isLive).states state = m.states state := by
  simp only [construct]
  rw [if_neg (by omega)]

/-- The new object owns the new state, the others what they did. -/
theorem Tracked.lookup_construct (tracked : m.Tracked) {isLive : m.memory.live ctx}
    {elsewhere : Nat}
    (found : (m.construct this ctx isLive).trackers.lookup other = some ⟨elsewhere, some state⟩) :
    elsewhere = ctx ∧ state = m.fresh ∨
      m.trackers.lookup other = some ⟨elsewhere, some state⟩ ∧ state < m.fresh := by
  cases lookup_insert_cases found with
  | inl new =>
    cases new.2
    exact .inl ⟨rfl, rfl⟩
  | inr old => exact .inr ⟨old.2, tracked.below other elsewhere state old.2⟩

theorem Tracked.construct (tracked : m.Tracked) (absent : this ∉ m.trackers)
    (isLive : m.memory.live ctx) : (m.construct this ctx isLive).Tracked := by
  constructor
  case defined => exact tracked.defined
  case arg =>
    intro elsewhere callback registered function
    simp only [TrackedMemory.construct, Store.callbacks_register, List.mem_cons,
      Prod.mk.injEq] at registered
    cases registered with
    | inl new => rw [new.2]
    | inr old => exact tracked.arg elsewhere callback old function
  case owned =>
    intro elsewhere state armed
    cases armed_construct.mp armed with
    | inl new =>
      refine ⟨this, ctx, ?_⟩
      simp [TrackedMemory.construct, new.2]
    | inr old =>
      obtain ⟨other, place, found⟩ := tracked.owned elsewhere state old
      refine ⟨other, place, ?_⟩
      have different : other ≠ this := by
        intro same
        apply absent
        rw [← same]
        exact mem_of_lookup found
      rw [TrackedMemory.construct, AList.lookup_insert_ne different]
      exact found
  case known =>
    intro elsewhere state armed
    cases armed_construct.mp armed with
    | inl new => simp [TrackedMemory.construct, new.2]
    | inr old =>
      rw [states_construct_of_lt (tracked.fresh_of_armed old)]
      exact tracked.known elsewhere state old
  case once =>
    intro one two state armed again
    cases armed_construct.mp armed with
    | inl new =>
      cases armed_construct.mp again with
      | inl also => rw [new.1, also.1]
      | inr old =>
        have below := tracked.fresh_of_armed old
        omega
    | inr old =>
      cases armed_construct.mp again with
      | inl new =>
        have below := tracked.fresh_of_armed old
        omega
      | inr also => exact tracked.once one two state old also
  case number =>
    intro state callback knows
    simp only [TrackedMemory.construct] at knows
    split at knows
    · rename_i same
      simp only [Option.some.injEq] at knows
      omega
    · exact tracked.number state callback knows
  case armed =>
    intro other elsewhere state found knows
    apply armed_construct.mpr
    cases tracked.lookup_construct found with
    | inl new => exact .inl new
    | inr old =>
      rw [states_construct_of_lt old.2] at knows
      exact .inr (tracked.armed other elsewhere state old.1 knows)
  case counted =>
    intro other elsewhere state found
    cases tracked.lookup_construct found with
    | inl new => simp [TrackedMemory.construct, new.2, CallbackState.Counted]
    | inr old =>
      rw [states_construct_of_lt old.2]
      exact tracked.counted other elsewhere state old.1
  case below =>
    intro other elsewhere state found
    show state < m.fresh + 1
    cases tracked.lookup_construct found with
    | inl new => omega
    | inr old => omega

/-! ## Running callbacks -/

omit [DecidableEq ι] in
theorem trackers_call (callback : ResetCallback) : (m.call callback).trackers = m.trackers := by
  unfold call
  split
  · rfl
  · rfl
  · split <;> rfl

omit [DecidableEq ι] in
theorem trackers_release {delete : Bool} : (m.release ctx delete).trackers = m.trackers := by
  show ((m.memory.due ctx).foldl call m).trackers = m.trackers
  induction m.memory.due ctx generalizing m with
  | nil => rfl
  | cons callback rest ih => rw [List.foldl_cons, ih, trackers_call]

/-- What running these callbacks, whose states all have an owner, comes to. -/
structure Called (m : TrackedMemory ι α) (callbacks : List ResetCallback)
    (after : TrackedMemory ι α) : Prop where
  memory : after.memory = m.memory
  fresh : after.fresh = m.fresh
  undefined : after.undefined = m.undefined
  reset : ∀ state, ⟨state, .trackReset, some state⟩ ∈ callbacks →
    (after.states state).callback = none ∧ 0 < (after.states state).counter
  others : ∀ state, ⟨state, .trackReset, some state⟩ ∉ callbacks →
    after.states state = m.states state

theorem called_foldl {callbacks : List ResetCallback}
    (held : ∀ callback ∈ callbacks, callback.func = .trackReset →
      callback.arg = some callback.address ∧ m.Owned callback.address) :
    Called m callbacks (callbacks.foldl call m) := by
  induction callbacks generalizing m with
  | nil => exact ⟨rfl, rfl, rfl, by simp, by simp⟩
  | cons callback rest ih =>
    obtain ⟨address, func, arg⟩ := callback
    cases func with
    | nothing =>
      have next := @ih m fun one listed => held one (List.mem_cons_of_mem _ listed)
      have same : m.call ⟨address, .nothing, arg⟩ = m := rfl
      rw [List.foldl_cons, same]
      exact ⟨next.memory, next.fresh, next.undefined, by simpa using next.reset,
        by simpa using next.others⟩
    | trackReset =>
      obtain ⟨pointer, owned⟩ := held ⟨address, .trackReset, arg⟩ List.mem_cons_self rfl
      simp only at pointer owned
      have counted : m.useCount address ≠ 0 := fun none => useCount_eq_zero.mp none owned
      have called : m.call ⟨address, .trackReset, arg⟩ =
          { m with states := fun other => if other = address
              then ⟨(m.states address).counter + 1, none⟩ else m.states other } := by
        simp [call, pointer, counted]
      rw [List.foldl_cons, called]
      have next := @ih { m with states := fun other => if other = address
          then ⟨(m.states address).counter + 1, none⟩ else m.states other }
        fun one listed => held one (List.mem_cons_of_mem _ listed)
      refine ⟨next.memory, next.fresh, next.undefined, ?_, ?_⟩
      · intro state listed
        by_cases later : ⟨state, .trackReset, some state⟩ ∈ rest
        · exact next.reset state later
        · rw [next.others state later]
          have same : state = address := by
            cases List.mem_cons.mp listed with
            | inl first => exact congrArg ResetCallback.address first
            | inr listed => exact absurd listed later
          simp [same]
      · intro state unlisted
        rw [next.others state fun later => unlisted (List.mem_cons_of_mem _ later)]
        have different : state ≠ address := by
          intro same
          apply unlisted
          rw [same, pointer]
          exact List.mem_cons_self
        simp [different]

omit [DecidableEq ι] in
/-- The callbacks of a reset: those of the contexts that it covers. -/
theorem armed_due :
    ⟨state, .trackReset, some state⟩ ∈ m.memory.due ctx ↔
      ∃ owner, m.memory.covers ctx owner ∧ m.Armed owner state := Store.mem_due

theorem Tracked.called (tracked : m.Tracked) (ctx : Nat) :
    Called m (m.memory.due ctx) ((m.memory.due ctx).foldl call m) := by
  apply called_foldl
  intro callback listed function
  obtain ⟨owner, _, registered⟩ := Store.mem_due.mp listed
  have address := tracked.arg owner callback registered function
  refine ⟨address, tracked.owned owner callback.address ?_⟩
  unfold Armed
  rwa [← function, ← address]

omit [DecidableEq ι] in
theorem armed_release {delete : Bool} {elsewhere : Nat} :
    (m.release ctx delete).Armed elsewhere state ↔
      m.Armed elsewhere state ∧ m.memory.covers ctx elsewhere = false := Store.mem_callbacks_release

/-- An armed callback that stays is not run. -/
theorem Tracked.states_of_armed (tracked : m.Tracked) {delete : Bool} {elsewhere : Nat}
    (armed : (m.release ctx delete).Armed elsewhere state) :
    (m.release ctx delete).states state = m.states state := by
  apply (tracked.called ctx).others
  intro listed
  obtain ⟨owner, covered, also⟩ := armed_due.mp listed
  obtain ⟨armed, outside⟩ := armed_release.mp armed
  rw [tracked.once owner elsewhere state also armed, outside] at covered
  exact Bool.false_ne_true covered

/-- After a reset a state that is owned has no callback if the reset ran it, and is as it
was otherwise. -/
theorem Tracked.states_release (tracked : m.Tracked) (delete : Bool)
    (found : m.trackers.lookup this = some ⟨ctx, some state⟩) (region : Nat) :
    if (m.states state).callback = some state ∧ m.memory.covers region ctx then
      ((m.release region delete).states state).callback = none ∧
        0 < ((m.release region delete).states state).counter
    else (m.release region delete).states state = m.states state := by
  have called := tracked.called region
  split
  · rename_i due
    exact called.reset state
      (armed_due.mpr ⟨ctx, due.2, tracked.armed this ctx state found due.1⟩)
  · rename_i undue
    apply called.others
    intro listed
    obtain ⟨owner, covered, armed⟩ := armed_due.mp listed
    have knows := tracked.known owner state armed
    have same := tracked.once owner ctx state armed (tracked.armed this ctx state found knows)
    rw [same] at covered
    exact undue ⟨knows, covered⟩

theorem Tracked.release (tracked : m.Tracked) (delete : Bool) :
    (m.release ctx delete).Tracked := by
  have called := tracked.called ctx
  have trackers : (m.release ctx delete).trackers = m.trackers := trackers_release
  constructor
  case defined => exact called.undefined.trans tracked.defined
  case arg =>
    intro elsewhere callback registered function
    exact tracked.arg elsewhere callback (Store.mem_callbacks_release.mp registered).1 function
  case owned =>
    intro elsewhere state armed
    unfold Owned
    rw [trackers]
    exact tracked.owned elsewhere state (armed_release.mp armed).1
  case known =>
    intro elsewhere state armed
    rw [tracked.states_of_armed armed]
    exact tracked.known elsewhere state (armed_release.mp armed).1
  case once =>
    intro one two state armed again
    exact tracked.once one two state (armed_release.mp armed).1 (armed_release.mp again).1
  case number =>
    intro state callback knows
    by_cases listed : ⟨state, .trackReset, some state⟩ ∈ m.memory.due ctx
    · have reset : ((m.release ctx delete).states state).callback = none :=
        (called.reset state listed).1
      rw [reset] at knows
      cases knows
    · have same : (m.release ctx delete).states state = m.states state :=
        called.others state listed
      rw [same] at knows
      exact tracked.number state callback knows
  case armed =>
    intro this elsewhere state found knows
    rw [trackers] at found
    have states := tracked.states_release delete found ctx
    split at states
    · rw [states.1] at knows
      cases knows
    · rename_i undue
      rw [states] at knows
      apply armed_release.mpr
      refine ⟨tracked.armed this elsewhere state found knows, ?_⟩
      cases covered : m.memory.covers ctx elsewhere with
      | false => rfl
      | true => exact absurd ⟨knows, covered⟩ undue
  case counted =>
    intro this elsewhere state found
    rw [trackers] at found
    have states := tracked.states_release delete found ctx
    split at states
    · unfold CallbackState.Counted
      rw [if_pos states.1]
      exact states.2
    · rw [states]
      exact tracked.counted this elsewhere state found
  case below =>
    intro this elsewhere state found
    rw [trackers] at found
    have fresh : (m.release ctx delete).fresh = m.fresh := called.fresh
    rw [fresh]
    exact tracked.below this elsewhere state found

theorem Tracked.create (tracked : m.Tracked) (parent : Option Nat) :
    Tracked { m with memory := m.memory.create parent } :=
  { tracked with }

/-! ## Copies, moves and destruction -/

/-- One object is changed or goes: what it owns then was owned, and it was not the last owner of
a state that is armed, or has it still. -/
theorem Tracked.reownOne (tracked : m.Tracked) {trackers : AList fun _ : ι => TrackingMemoryContext}
    (others : ∀ one, one ≠ this → trackers.lookup one = m.trackers.lookup one)
    (fromOld : ∀ ctx state, trackers.lookup this = some ⟨ctx, some state⟩ →
      ∃ other, m.trackers.lookup other = some ⟨ctx, some state⟩)
    (left : ∀ elsewhere place state, m.Armed elsewhere state →
      m.trackers.lookup this = some ⟨place, some state⟩ →
      (∃ ctx, trackers.lookup this = some ⟨ctx, some state⟩) ∨
        ∃ other ctx, other ≠ this ∧ m.trackers.lookup other = some ⟨ctx, some state⟩) :
    Tracked { m with trackers := trackers } := by
  apply tracked.reown
  · intro one ctx state owns
    by_cases same : one = this
    · rw [same] at owns
      exact fromOld ctx state owns
    · exact ⟨one, by rw [← others one same, owns]⟩
  · intro elsewhere state armed
    obtain ⟨owner, place, owns⟩ := tracked.owned elsewhere state armed
    by_cases same : owner = this
    · rw [same] at owns
      cases left elsewhere place state armed owns with
      | inl still =>
        obtain ⟨ctx, owns⟩ := still
        exact ⟨this, ctx, owns⟩
      | inr another =>
        obtain ⟨other, ctx, different, owns⟩ := another
        exact ⟨other, ctx, by rw [others other different, owns]⟩
    · exact ⟨owner, place, by rw [others owner same, owns]⟩

/-- An object that is put in the place of `this`. -/
theorem Tracked.replace (tracked : m.Tracked) {name : ι} {object : TrackingMemoryContext}
    (found : m.trackers.lookup name = some object)
    (left : ∀ elsewhere place state, m.Armed elsewhere state →
      m.trackers.lookup this = some ⟨place, some state⟩ →
      object.state = some state ∨
        ∃ other ctx, other ≠ this ∧ m.trackers.lookup other = some ⟨ctx, some state⟩) :
    Tracked { m with trackers := m.trackers.insert this object } := by
  apply tracked.reownOne fun one different => AList.lookup_insert_ne different
  · intro ctx state owns
    rw [AList.lookup_insert] at owns
    exact ⟨name, found.trans owns⟩
  · intro elsewhere place state armed owns
    refine (left elsewhere place state armed owns).imp_left fun also => ⟨object.ctx, ?_⟩
    rw [AList.lookup_insert, ← also]

/-- An object that gives up its state where another object has it. -/
theorem Tracked.forget (tracked : m.Tracked) {name : ι}
    (left : ∀ elsewhere place state, m.Armed elsewhere state →
      m.trackers.lookup name = some ⟨place, some state⟩ →
      ∃ other ctx, other ≠ name ∧ m.trackers.lookup other = some ⟨ctx, some state⟩) :
    Tracked { m with trackers := m.trackers.insert name ⟨ctx, none⟩ } := by
  apply tracked.reownOne fun one different => AList.lookup_insert_ne different
  · intro place state owns
    rw [AList.lookup_insert] at owns
    cases owns
  · intro elsewhere place state armed owns
    exact .inr (left elsewhere place state armed owns)

/-- What is moved from `name` to `this`: the one has it after the other is without. -/
theorem moved_eq {trackers : AList fun _ : ι => TrackingMemoryContext} {name : ι}
    {object : TrackingMemoryContext} (different : this ≠ name) (one : ι) :
    ((trackers.insert name ⟨ctx, none⟩).insert this object).lookup one =
      ((trackers.insert this object).insert name ⟨ctx, none⟩).lookup one := by
  by_cases atThis : one = this
  · rw [atThis, AList.lookup_insert, AList.lookup_insert_ne different, AList.lookup_insert]
  · rw [AList.lookup_insert_ne atThis]
    by_cases atName : one = name
    · rw [atName, AList.lookup_insert, AList.lookup_insert]
    · rw [AList.lookup_insert_ne atName, AList.lookup_insert_ne atName,
        AList.lookup_insert_ne atThis]

/-- Moving an object to `this`, which is not the last owner of an armed state, or is to have
the same. -/
theorem Tracked.move (tracked : m.Tracked) {name : ι} {object : TrackingMemoryContext}
    (different : this ≠ name) (found : m.trackers.lookup name = some object)
    (left : ∀ elsewhere place state, m.Armed elsewhere state →
      m.trackers.lookup this = some ⟨place, some state⟩ →
      object.state = some state ∨
        ∃ other ctx, other ≠ this ∧ m.trackers.lookup other = some ⟨ctx, some state⟩) :
    Tracked { m with
      trackers := (m.trackers.insert name ⟨ctx, none⟩).insert this object } := by
  have copied := tracked.replace found left
  have given : Tracked { m with
      trackers := (m.trackers.insert this object).insert name ⟨ctx, none⟩ } := by
    apply copied.forget
    intro elsewhere place state _ owns
    refine ⟨this, object.ctx, different, ?_⟩
    rw [AList.lookup_insert_ne different.symm, found, Option.some.injEq] at owns
    simp [owns]
  apply tracked.reown
  · intro one place state owns
    rw [moved_eq different] at owns
    cases lookup_insert_cases owns with
    | inl gone => cases gone.2
    | inr old =>
      cases lookup_insert_cases old.2 with
      | inl copied => exact ⟨name, by rw [found, ← copied.2]⟩
      | inr old => exact ⟨one, old.2⟩
  · intro elsewhere state armed
    obtain ⟨owner, place, owns⟩ := given.owned elsewhere state armed
    exact ⟨owner, place, by rw [moved_eq different, owns]⟩

omit [DecidableEq ι] in
theorem armed_disarm {elsewhere other : Nat} :
    (m.disarm state state).Armed elsewhere other ↔ m.Armed elsewhere other ∧ other ≠ state := by
  simp only [Armed, disarm, Store.updateCallbacks, List.mem_map, Prod.mk.injEq]
  constructor
  · intro listed
    obtain ⟨⟨owner, registered⟩, listed, rfl, same⟩ := listed
    simp only at same
    split at same
    · cases same
    · rename_i different
      subst same
      exact ⟨listed, different⟩
  · intro armed
    refine ⟨_, armed.1, rfl, ?_⟩
    rw [if_neg armed.2]

/-- The last owner of an armed state disarms it. -/
theorem Tracked.disarm (tracked : m.Tracked)
    (found : m.trackers.lookup this = some ⟨ctx, some state⟩)
    (knows : (m.states state).callback = some state) (last : m.useCount state = 1) :
    Tracked { m.disarm state state with trackers := m.trackers.erase this } := by
  have sole := (useCount_eq_one found).mp last
  have others : ∀ other elsewhere one,
      (m.trackers.erase this).lookup other = some ⟨elsewhere, some one⟩ →
      m.trackers.lookup other = some ⟨elsewhere, some one⟩ ∧ one ≠ state := by
    intro other elsewhere one owns
    obtain ⟨different, owns⟩ := lookup_erase_cases owns
    refine ⟨owns, fun same => different ?_⟩
    rw [same] at owns
    exact sole other elsewhere owns
  have kept : ∀ one, one ≠ state → (m.disarm state state).states one = m.states one := by
    intro one different
    simp [TrackedMemory.disarm, different]
  constructor
  case defined =>
    have registered := tracked.armed this ctx state found knows
    simp only [TrackedMemory.disarm, tracked.defined, Bool.false_or, Bool.not_eq_false',
      List.any_eq_true]
    exact ⟨_, registered, by simp⟩
  case arg =>
    intro elsewhere callback registered function
    obtain ⟨⟨owner, old⟩, listed, same⟩ := List.mem_map.mp registered
    simp only [Prod.mk.injEq] at same
    obtain ⟨_, same⟩ := same
    split at same
    · rw [← same] at function
      cases function
    · rw [← same] at function ⊢
      exact tracked.arg owner old listed function
  case owned =>
    intro elsewhere one armed
    obtain ⟨armed, different⟩ := armed_disarm.mp armed
    obtain ⟨other, place, owns⟩ := tracked.owned elsewhere one armed
    refine ⟨other, place, ?_⟩
    rw [← owns]
    apply AList.lookup_erase_ne
    intro same
    rw [same, found] at owns
    cases owns
    exact different rfl
  case known =>
    intro elsewhere one armed
    obtain ⟨armed, different⟩ := armed_disarm.mp armed
    exact (congrArg _ (kept one different)).trans (tracked.known elsewhere one armed)
  case once =>
    intro first second one armed again
    exact tracked.once first second one (armed_disarm.mp armed).1
      (armed_disarm.mp again).1
  case number =>
    intro one callback knows
    simp only [TrackedMemory.disarm] at knows
    split at knows
    · cases knows
    · exact tracked.number one callback knows
  case armed =>
    intro other elsewhere one owns knows
    obtain ⟨owns, different⟩ := others other elsewhere one owns
    rw [show ({ m.disarm state state with trackers := m.trackers.erase this } :
      TrackedMemory ι α).states one = m.states one from kept one different] at knows
    exact armed_disarm.mpr ⟨tracked.armed other elsewhere one owns knows, different⟩
  case counted =>
    intro other elsewhere one owns
    obtain ⟨owns, different⟩ := others other elsewhere one owns
    have counted := tracked.counted other elsewhere one owns
    rwa [← kept one different] at counted
  case below =>
    intro other elsewhere one owns
    exact tracked.below other elsewhere one (others other elsewhere one owns).1

theorem Tracked.destroy (tracked : m.Tracked) {object : TrackingMemoryContext}
    (found : m.trackers.lookup this = some object) : (m.destroy this object).Tracked := by
  obtain ⟨ctx, owned⟩ := object
  -- where the object is not the last owner of an armed state, erasing it is all there is
  have erased (spared : ∀ elsewhere state, owned = some state → m.Armed elsewhere state →
      ∃ other place, other ≠ this ∧ m.trackers.lookup other = some ⟨place, some state⟩) :
      Tracked { m with trackers := m.trackers.erase this } := by
    apply tracked.reownOne fun one different => AList.lookup_erase_ne different
    · intro place state owns
      exact absurd rfl (lookup_erase_cases owns).1
    · intro elsewhere place state armed owns
      rw [found, Option.some.injEq, TrackingMemoryContext.mk.injEq] at owns
      exact .inr (spared elsewhere state owns.2 armed)
  unfold TrackedMemory.destroy disarmLast
  cases owned with
  | none => exact erased (by simp)
  | some state =>
    cases knows : (m.states state).callback with
    | none =>
      simp only [knows]
      apply erased
      intro elsewhere other same armed
      cases same
      have known := tracked.known elsewhere state armed
      rw [knows] at known
      cases known
    | some callback =>
      have number := tracked.number state callback knows
      subst number
      by_cases last : m.useCount callback = 1
      · simp only [knows, last, if_true]
        exact tracked.disarm found knows last
      · simp only [knows, last, if_false]
        apply erased
        intro elsewhere other same _
        cases same
        have owners : m.useCount callback ≠ 0 := fun none =>
          useCount_eq_zero.mp none ⟨this, ctx, found⟩
        obtain ⟨other, place, different, owns⟩ :=
          (two_le_useCount found).mp (by omega)
        exact ⟨other, place, different, owns⟩

/-! ## Runs -/

/-- An object that is assigned to, and an owner of each of its states that is armed. -/
theorem Tracked.another (tracked : m.Tracked) {place elsewhere : Nat}
    (spared : (m.states state).callback = none ∨ 2 ≤ m.useCount state)
    (armed : m.Armed elsewhere state)
    (found : m.trackers.lookup this = some ⟨place, some state⟩) :
    ∃ other ctx, other ≠ this ∧ m.trackers.lookup other = some ⟨ctx, some state⟩ := by
  have known := tracked.known elsewhere state armed
  cases spared with
  | inl none =>
    rw [none] at known
    cases known
  | inr several =>
    obtain ⟨other, ctx, different, owns⟩ := (two_le_useCount found).mp several
    exact ⟨other, ctx, different, owns⟩

theorem tracked_step {action : TrackingAction ι} {next : TrackedMemory ι α} (tracked : m.Tracked)
    (leaves : m.LeavesOwner action) (taking : m.step action = some next) : next.Tracked := by
  cases action with
  | create parent =>
    obtain ⟨_, same⟩ := Option.ite_none_right_eq_some.mp taking
    cases same
    exact tracked.create parent
  | reset ctx =>
    obtain ⟨_, same⟩ := Option.ite_none_right_eq_some.mp taking
    cases same
    exact tracked.release false
  | delete ctx =>
    obtain ⟨_, same⟩ := Option.ite_none_right_eq_some.mp taking
    cases same
    exact tracked.release true
  | construct this ctx =>
    obtain ⟨absent, taking⟩ := Option.ite_none_left_eq_some.mp taking
    obtain ⟨isLive, same⟩ := Option.dite_none_right_eq_some.mp taking
    cases same
    exact tracked.construct absent isLive
  | copyConstruct this name =>
    obtain ⟨absent, taking⟩ := Option.ite_none_left_eq_some.mp taking
    obtain ⟨object, found, rfl⟩ := Option.map_eq_some_iff.mp taking
    apply tracked.replace found
    intro elsewhere place state _ owns
    exact absurd (mem_of_lookup owns) absent
  | moveConstruct this name =>
    obtain ⟨absent, taking⟩ := Option.ite_none_left_eq_some.mp taking
    obtain ⟨object, found, rfl⟩ := Option.map_eq_some_iff.mp taking
    have different : this ≠ name := by
      intro same
      apply absent
      rw [same]
      exact mem_of_lookup found
    apply tracked.move different found
    intro elsewhere place state _ owns
    exact absurd (mem_of_lookup owns) absent
  | copyAssign this name =>
    obtain ⟨_, taking⟩ := Option.ite_none_right_eq_some.mp taking
    obtain ⟨object, found, rfl⟩ := Option.map_eq_some_iff.mp taking
    unfold copyAssign
    split
    · rename_i different
      apply tracked.replace found
      intro elsewhere place state armed owns
      have spared := (leaves.resolve_left different) place state owns
      exact .inr (tracked.another spared armed owns)
    · exact tracked
  | moveAssign this name =>
    obtain ⟨_, taking⟩ := Option.ite_none_right_eq_some.mp taking
    obtain ⟨object, found, rfl⟩ := Option.map_eq_some_iff.mp taking
    unfold moveAssign
    split
    · rename_i different
      apply tracked.move different found
      intro elsewhere place state armed owns
      have spared := (leaves.resolve_left different) place state owns
      exact .inr (tracked.another spared armed owns)
    · exact tracked
  | destroy this =>
    obtain ⟨object, found, rfl⟩ := Option.map_eq_some_iff.mp taking
    exact tracked.destroy found

/-- An assignment after which no callback dangles: its target was not the last owner of an
armed state. -/
theorem Tracked.leavesOwner (tracked : m.Tracked) {name : ι} {next : TrackedMemory ι α}
    (none : next.NoneDangling) (memory : next.memory = m.memory) (different : this ≠ name)
    (others : ∀ other, other ≠ this → ∀ ctx state,
      next.trackers.lookup other = some ⟨ctx, some state⟩ →
        m.trackers.lookup other = some ⟨ctx, some state⟩)
    (assigned : next.trackers.lookup this = m.trackers.lookup name) (elsewhere : Nat)
    (found : m.trackers.lookup this = some ⟨elsewhere, some state⟩) :
    (m.states state).callback = Option.none ∨ 2 ≤ m.useCount state := by
  cases knows : (m.states state).callback with
  | none => exact .inl rfl
  | some callback =>
    right
    have number := tracked.number state callback knows
    subst number
    have armed := tracked.armed this elsewhere callback found knows
    unfold Armed at armed
    rw [← memory] at armed
    obtain ⟨state, same, other, place, owns⟩ := none.owned _ _ armed rfl
    simp only [Option.some.injEq] at same
    subst same
    apply (two_le_useCount found).mpr
    by_cases atThis : other = this
    · rw [atThis, assigned] at owns
      exact ⟨name, place, different.symm, owns⟩
    · exact ⟨other, place, atThis, others other atThis place callback owns⟩

theorem leavesOwner_of_step {action : TrackingAction ι} {next : TrackedMemory ι α}
    (tracked : m.Tracked) (taking : m.step action = some next) (none : next.NoneDangling) :
    m.LeavesOwner action := by
  cases action with
  | copyAssign this name =>
    obtain ⟨_, taking⟩ := Option.ite_none_right_eq_some.mp taking
    obtain ⟨object, found, rfl⟩ := Option.map_eq_some_iff.mp taking
    by_cases same : this = name
    · exact .inl same
    · simp only [copyAssign, ne_eq, same, not_false_eq_true, if_true] at none
      refine .inr fun elsewhere state owns =>
        tracked.leavesOwner none rfl same ?_ ?_ elsewhere owns
      · intro other different ctx state found
        rwa [AList.lookup_insert_ne different] at found
      · rw [AList.lookup_insert, found]
  | moveAssign this name =>
    obtain ⟨_, taking⟩ := Option.ite_none_right_eq_some.mp taking
    obtain ⟨object, found, rfl⟩ := Option.map_eq_some_iff.mp taking
    by_cases same : this = name
    · exact .inl same
    · simp only [moveAssign, ne_eq, same, not_false_eq_true, if_true] at none
      refine .inr fun elsewhere state owns =>
        tracked.leavesOwner none rfl same ?_ ?_ elsewhere owns
      · intro other different ctx state found
        rw [AList.lookup_insert_ne different] at found
        cases lookup_insert_cases found with
        | inl gone => cases gone.2
        | inr old => exact old.2
      · rw [AList.lookup_insert, found]
  | _ => trivial

/-- In a sequence of operations no armed callback ever outlives its state just when every
assignment to another object leaves an owner to the state of its target. -/
theorem none_dangling_iff (actions : List (TrackingAction ι)) :
    Always step NoneDangling (start : TrackedMemory ι α) actions ↔
      Meets step LeavesOwner (start : TrackedMemory ι α) actions :=
  always_iff_meets (fun _ tracked => tracked.noneDangling)
    (fun _ _ _ tracked leaves taking => tracked_step tracked leaves taking)
    (fun _ _ _ tracked taking none => leavesOwner_of_step tracked taking none) start_tracked

/-- Two objects on two contexts, the one assigned to the other, and then a reset. -/
def assignedTracker : List (TrackingAction Bool) :=
  [.create none, .create none, .construct false 0, .construct true 1, .copyAssign false true,
    .reset 0]

/-- The reset writes to the state that the assignment destroyed. -/
theorem assignedTracker_dangles :
    ¬ Always step NoneDangling (start : TrackedMemory Bool Unit) assignedTracker := by
  intro always
  have undefined : (run step (start : TrackedMemory Bool Unit) assignedTracker).map
      TrackedMemory.undefined = some true := by decide +kernel
  obtain ⟨last, reached, undefined⟩ := Option.map_eq_some_iff.mp undefined
  have defined := (always_iff.mp always assignedTracker last List.prefix_rfl reached).defined
  rw [undefined] at defined
  cases defined

end TrackedMemory
end Cppgres
