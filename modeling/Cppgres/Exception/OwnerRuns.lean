import Cppgres.Exception.Owners

/-!
# Programs with owning objects

What a program owns is released exactly once if and only if, of the objects that share what they
own, the right ones end by their destructors.
-/
namespace Cppgres
open Labelled NonLocal Shared

variable {ω : Type}

theorem Elog.freshContext_eq (elog : Elog)
    (pending : ∀ context ∈ elog.resetCallbacks, context < elog.nextContext) :
    elog.freshContext = elog.nextContext := by
  unfold freshContext
  generalize elog.resetCallbacks = callbacks at pending
  induction callbacks with
  | nil => rfl
  | cons context rest ih =>
    rw [List.foldr_cons, ih fun other listed => pending other (List.mem_cons_of_mem _ listed)]
    exact Nat.max_eq_right (pending context List.mem_cons_self)

namespace Owners

/-- What was acquired is settled so far, and a record is there if its context was not deleted. -/
structure Sound (m : Owners ω) : Prop where
  behind : ∀ object, .left (some object) ∈ m.caught → object.errorCxt < m.elog.nextContext
  contexts : m.contexts.Settled
  pins : m.pins.Settled
  contextsBounded : m.contexts.Bounded
  pinsBounded : m.pins.Bounded
  pending : ∀ context ∈ m.elog.resetCallbacks, context < m.elog.nextContext
  records : ∀ context, context < m.elog.nextContext →
    ((m.elog.records context).isSome = true ↔ m.deletions context = 0)

variable {m next : Owners ω} {this other : ω} {object : PgException} {cache : Syscache}
  {action : OwnerAction ω} {outcome : OwnerOutcome} {edata : ErrorData} {gone : List ω}

theorem Sound.below (sound : m.Sound) (found : m.exceptions this = some object) :
    object.errorCxt < m.elog.nextContext :=
  sound.contextsBounded.below this object.errorCxt (by simp [Owners.contexts, found])

theorem resource_eq (found : m.exceptions this = some object) :
    m.contexts.resource this = some object.errorCxt := by
  simp [Owners.contexts, found]

theorem pin_eq (found : m.caches this = some cache) :
    m.pins.resource this = some cache.lookup := by
  simp [Owners.pins, found]

/-- An action that leaves all objects as they are, and their records. -/
theorem Sound.raised (sound : m.Sound) {elog : Elog} (records : elog.records = m.elog.records)
    (callbacks : elog.resetCallbacks = m.elog.resetCallbacks)
    (fresh : elog.nextContext = m.elog.nextContext) : ({ m with elog } : Owners ω).Sound := by
  have same : ({ m with elog } : Owners ω).contexts = m.contexts := by
    simp only [Owners.contexts, callbacks, fresh]
  refine ⟨?_, same ▸ sound.contexts, sound.pins, same ▸ sound.contextsBounded, sound.pinsBounded,
    ?_, ?_⟩
  · simpa only [fresh] using sound.behind
  · simpa only [callbacks, fresh] using sound.pending
  · simpa only [records, fresh] using sound.records

/-! ## Contexts that a reset deletes -/

theorem contexts_flush : m.flush.contexts = m.contexts := by
  simp [flush, Owners.contexts, Elog.flushErrorState]

theorem Sound.flush (sound : m.Sound) : m.flush.Sound where
  behind := sound.behind
  contexts := contexts_flush ▸ sound.contexts
  pins := sound.pins
  contextsBounded := contexts_flush ▸ sound.contextsBounded
  pinsBounded := sound.pinsBounded
  pending := by simp [Owners.flush, Elog.flushErrorState]
  records context below := by
    have before := sound.records context below
    by_cases listed : context ∈ m.elog.resetCallbacks
    · have counted := List.count_pos_iff.mpr listed
      simp only [Owners.flush, Elog.flushErrorState, listed, if_true, Option.isSome_none,
        Bool.false_eq_true, false_iff]
      omega
    · simpa [Owners.flush, Elog.flushErrorState, listed, List.count_eq_zero_of_not_mem] using before

/-- A context is to be deleted when `ErrorContext` is reset. -/
def registered (m : Owners ω) (context : MemoryContext) (edata : ErrorData) : Owners ω :=
  { m with
    elog := { m.elog with resetCallbacks := context :: m.elog.resetCallbacks }.reThrowError edata }

theorem contexts_registered {context : MemoryContext} :
    (m.registered context edata).contexts = m.contexts.spend context := by
  unfold Owners.contexts Handles.spend registered
  congr 1
  funext other
  by_cases same : other = context
  · subst same
    simp [Elog.reThrowError, Nat.add_assoc]
  · simp [Elog.reThrowError, same, List.count_cons_of_ne (Ne.symm same)]

theorem start_sound : (start : Owners ω).Sound where
  behind := nofun
  contexts := ⟨fun _ => Nat.zero_le _, fun _ below => absurd below (Nat.not_lt_zero _)⟩
  pins := ⟨fun _ => Nat.zero_le _, fun _ below => absurd below (Nat.not_lt_zero _)⟩
  contextsBounded := ⟨nofun, fun _ _ => rfl⟩
  pinsBounded := ⟨nofun, fun _ _ => rfl⟩
  pending := nofun
  records := fun _ below => absurd below (Nat.not_lt_zero _)

section Operations
variable [DecidableEq ω]

/-! ## When an action is right -/

/-- An action that is not a destructor, and reads nothing that was freed. -/
theorem Sound.right_iff_contexts (sound : m.Sound) (pins : next.pins = m.pins)
    (kept : next.contexts.Settled → next.Sound) (agree : next.contexts.Settled ↔ m.Allowed action)
    (quiet : m.destroys action = none) (read : outcome ≠ .freed) :
    (m.Allowed action → next.Sound) ∧ (m.Right next outcome action ↔ m.Allowed action) := by
  refine ⟨fun allowed => kept (agree.mpr allowed), fun right => agree.mp right.contexts,
    fun allowed => ⟨agree.mpr allowed, pins ▸ sound.pins, ?_, read⟩⟩
  intro context destroyed
  cases quiet.symm.trans destroyed

/-- An action on the caches. -/
theorem Sound.right_iff_pins (sound : m.Sound) (contexts : next.contexts = m.contexts)
    (kept : next.pins.Settled → next.Sound) (agree : next.pins.Settled ↔ m.Allowed action)
    (quiet : m.destroys action = none) (read : outcome ≠ .freed) :
    (m.Allowed action → next.Sound) ∧ (m.Right next outcome action ↔ m.Allowed action) := by
  refine ⟨fun allowed => kept (agree.mpr allowed), fun right => agree.mp right.pins,
    fun allowed => ⟨contexts ▸ sound.contexts, agree.mpr allowed, ?_, read⟩⟩
  intro context destroyed
  cases quiet.symm.trans destroyed

/-- A record is read where it was freed. -/
theorem right_iff_of_freed (denied : ¬ m.Allowed action) :
    (m.Allowed action → next.Sound) ∧ (m.Right next .freed action ↔ m.Allowed action) :=
  ⟨fun allowed => absurd allowed denied, fun right => absurd rfl right.read,
    fun allowed => absurd allowed denied⟩

omit [DecidableEq ω] in
theorem Sound.freed_iff (sound : m.Sound) (found : m.exceptions this = some object) :
    m.elog.records object.errorCxt = none ↔ m.deletions object.errorCxt ≠ 0 := by
  rw [← not_iff_not, not_not, ← sound.records object.errorCxt (sound.below found),
    Option.isSome_iff_ne_none]

omit [DecidableEq ω] in
theorem Sound.reading (sound : m.Sound)
    {use : PgException → ErrorData → OwnerOutcome × Owners ω}
    (taking : m.reading this use = some (outcome, next)) :
    ∃ object, m.exceptions this = some object ∧
      (m.deletions object.errorCxt ≠ 0 ∧ outcome = .freed ∧ next = m ∨
        ∃ edata, m.elog.records object.errorCxt = some edata ∧ m.deletions object.errorCxt = 0 ∧
          use object edata = (outcome, next)) := by
  obtain ⟨object, found, taking⟩ := Option.bind_eq_some_iff.mp taking
  refine ⟨object, found, ?_⟩
  cases held : m.elog.records object.errorCxt with
  | none =>
    rw [held] at taking
    cases taking
    exact .inl ⟨(sound.freed_iff found).mp held, rfl, rfl⟩
  | some edata =>
    rw [held] at taking
    refine .inr ⟨edata, rfl, ?_, Option.some.inj taking⟩
    by_contra deleted
    rw [(sound.freed_iff found).mpr deleted] at held
    cases held

/-- `message()` and `error_data()`. -/
theorem Sound.read_right_iff (sound : m.Sound) {told : ErrorData → OwnerOutcome}
    (tells : ∀ edata, told edata ≠ .freed) (quiet : m.destroys action = none)
    (allowed : m.Allowed action ↔
      ∀ context, m.contexts.resource this = some context → m.deletions context = 0)
    (taking : m.reading this (fun _ edata => (told edata, m)) = some (outcome, next)) :
    (m.Allowed action → next.Sound) ∧ (m.Right next outcome action ↔ m.Allowed action) := by
  obtain ⟨object, found, ⟨deleted, rfl, rfl⟩ | ⟨edata, _, undeleted, same⟩⟩ := sound.reading taking
  · exact right_iff_of_freed fun may =>
      deleted (allowed.mp may object.errorCxt (resource_eq found))
  · cases same
    refine sound.right_iff_contexts rfl (fun _ => sound) ?_ quiet (tells edata)
    refine iff_of_true sound.contexts (allowed.mpr fun context held => ?_)
    rw [resource_eq found, Option.some.injEq] at held
    exact held ▸ undeleted

/-! ## Exceptions -/

theorem contexts_bind : (m.bind this object).contexts = m.contexts.share this object.errorCxt := by
  unfold Owners.contexts Handles.share Owners.bind
  congr 1
  funext one
  by_cases same : one = this
  · simp [same]
  · simp [same]

theorem contexts_leave : (m.leave gone).contexts = m.contexts.leave gone := by
  unfold Owners.contexts Handles.leave Owners.leave
  congr 1
  funext one
  by_cases listed : one ∈ gone
  · simp [listed]
  · simp [listed]

/-- The new context belongs to the new object. -/
theorem Sound.contexts_capture (sound : m.Sound) {mcxt : MemoryContext}
    (taking : m.capture this mcxt = some next) :
    next.contexts = m.contexts.acquire this ∧ next.pins = m.pins := by
  unfold capture at taking
  split at taking
  · cases taking
  · rename_i edata older top
    obtain rfl := Option.some.inj taking
    have fresh := m.elog.freshContext_eq sound.pending
    refine ⟨?_, rfl⟩
    rw [contexts_flush, contexts_bind]
    simp [Owners.contexts, Handles.share, Handles.acquire, Elog.storeRecord, fresh]

theorem Sound.captured (sound : m.Sound) (absent : m.exceptions this = none) {mcxt : MemoryContext}
    (taking : m.capture this mcxt = some next) : next.Sound := by
  have acquired := (sound.contexts_capture taking).1
  have settled : (m.contexts.acquire this).Settled :=
    sound.contexts.acquire (by simp [Owners.contexts, absent])
  unfold capture at taking
  split at taking
  · cases taking
  · rename_i edata older top
    obtain rfl := Option.some.inj taking
    rw [contexts_flush] at acquired
    have fresh := m.elog.freshContext_eq sound.pending
    apply Sound.flush
    refine ⟨?_, acquired ▸ settled, sound.pins, acquired ▸ sound.contextsBounded.acquire,
      sound.pinsBounded, ?_, ?_⟩
    · intro object listed
      simp only [Owners.bind, Elog.storeRecord, fresh]
      exact Nat.lt_succ_of_lt (sound.behind object listed)
    · intro context listed
      simp only [Owners.bind, Elog.storeRecord, fresh]
      exact Nat.lt_succ_of_lt (sound.pending context listed)
    · intro context below
      simp only [Owners.bind, Elog.storeRecord, fresh] at below ⊢
      by_cases same : context = m.elog.nextContext
      · have unspent := sound.contextsBounded.unspent context (Nat.le_of_eq same.symm)
        have undeleted : m.deletions context = 0 := (Nat.add_eq_zero_iff.mp unspent).1
        simpa only [same, if_true, Option.isSome_some, true_iff] using undeleted
      · have before := Nat.lt_of_le_of_ne (Nat.le_of_lt_succ below) same
        simpa only [if_neg same] using sound.records context before

/-- An object is made or overwritten. -/
theorem Sound.bound (sound : m.Sound) (below : object.errorCxt < m.elog.nextContext)
    (settled : (m.bind this object).contexts.Settled) : (m.bind this object).Sound := by
  refine ⟨sound.behind, settled, sound.pins, ?_, sound.pinsBounded, sound.pending, sound.records⟩
  rw [contexts_bind]
  exact sound.contextsBounded.share below

theorem Sound.given (sound : m.Sound) (settled : (m.leave gone).contexts.Settled) :
    (m.leave gone).Sound := by
  refine ⟨sound.behind, settled, sound.pins, ?_, sound.pinsBounded, sound.pending, sound.records⟩
  rw [contexts_leave]
  exact sound.contextsBounded.leave

/-! ## Handlers -/

omit [DecidableEq ω] in
/-- What an abandoned handler leaves behind was an object of its own. -/
theorem abandon_left {handlers : Nat} {stack : List (Caught ω)}
    (listed : .left (some object) ∈ m.abandon handlers stack) :
    .left (some object) ∈ stack ∨ ∃ this, m.exceptions this = some object := by
  induction stack generalizing handlers with
  | nil => cases handlers <;> cases listed
  | cons entry older ih =>
    cases handlers with
    | zero => exact .inl listed
    | succ handlers =>
      cases entry with
      | handled exception =>
        rcases List.mem_cons.mp listed with same | listed
        · obtain ⟨this, _, found⟩ := Option.bind_eq_some_iff.mp (Caught.left.inj same).symm
          exact .inr ⟨this, found⟩
        · exact (ih listed).imp_left (List.mem_cons_of_mem _)
      | left exception =>
        rcases List.mem_cons.mp listed with same | listed
        · exact .inl (same ▸ List.mem_cons_self)
        · exact (ih listed).imp_left (List.mem_cons_of_mem _)

theorem contexts_jump {skipped : List ω} {handlers : Nat} :
    (m.jump skipped handlers).contexts = m.contexts.leave (m.lost skipped handlers) :=
  contexts_leave

theorem Sound.jumped (sound : m.Sound) {skipped : List ω} {handlers : Nat}
    (settled : (m.jump skipped handlers).contexts.Settled) : (m.jump skipped handlers).Sound := by
  have given : (m.leave (m.lost skipped handlers)).Sound := sound.given settled
  refine ⟨fun object listed => ?_, settled, given.pins, given.contextsBounded, given.pinsBounded,
    given.pending, given.records⟩
  rcases abandon_left listed with before | ⟨this, found⟩
  · exact sound.behind object before
  · exact sound.below found

omit [DecidableEq ω] in
/-- An exception is taken off the stack. -/
theorem Sound.popped (sound : m.Sound) {entry : Caught ω} {older : List (Caught ω)}
    (top : m.caught = entry :: older) : ({ m with caught := older } : Owners ω).Sound where
  behind object listed := sound.behind object (top ▸ List.mem_cons_of_mem _ listed)
  contexts := sound.contexts
  pins := sound.pins
  contextsBounded := sound.contextsBounded
  pinsBounded := sound.pinsBounded
  pending := sound.pending
  records := sound.records

/-- A Postgres error that leaves handlers and the frames of copies. -/
theorem Sound.jump_right_iff (sound : m.Sound) {skipped : List ω} {handlers : Nat}
    (agree : m.Allowed action ↔ m.contexts.Spared (m.lost skipped handlers))
    (quiet : m.destroys action = none) (read : outcome ≠ .freed) :
    (m.Allowed action → (m.jump skipped handlers).Sound) ∧
      (m.Right (m.jump skipped handlers) outcome action ↔ m.Allowed action) := by
  refine sound.right_iff_contexts rfl sound.jumped ?_ quiet read
  rw [contexts_jump, agree]
  exact sound.contexts.leave_iff sound.contextsBounded

/-! ## Destructors -/

omit [DecidableEq ω] in
theorem contexts_delete {context : MemoryContext} :
    (m.delete context).contexts = m.contexts.spend context := by
  unfold Owners.contexts Handles.spend delete
  congr 1
  funext other
  by_cases deleted : other = context
  · subst deleted
    simp [Elog.deleteRecord, Nat.add_right_comm]
  · simp [Elog.deleteRecord, deleted]

omit [DecidableEq ω] in
theorem Sound.deleted (sound : m.Sound) {context : MemoryContext}
    (below : context < m.elog.nextContext) (unspent : m.contexts.spent context = 0) :
    (m.delete context).Sound := by
  have spent : (m.delete context).contexts = _ := contexts_delete
  refine ⟨sound.behind, spent ▸ sound.contexts.spend_iff.mpr unspent, sound.pins,
    spent ▸ sound.contextsBounded.spend below, sound.pinsBounded, sound.pending,
    fun other beyond => ?_⟩
  by_cases deleted : other = context
  · simp [delete, Elog.deleteRecord, deleted]
  · simpa [delete, Elog.deleteRecord, deleted] using sound.records other beyond

/-- A destructor deletes a context, and these objects are nobody's any more. -/
theorem Sound.deleting_right_iff (sound : m.Sound) {context : MemoryContext}
    (below : context < m.elog.nextContext) (destroys : m.destroys action = some context)
    (contexts : next.contexts = (m.contexts.spend context).leave gone) (pins : next.pins = m.pins)
    (kept : m.contexts.spent context = 0 → next.contexts.Settled → next.Sound)
    (agree : m.Allowed action ↔
      m.Sole context gone ∧ (m.contexts.spend context).Spared gone) :
    (m.Allowed action → next.Sound) ∧ (m.Right next .done action ↔ m.Allowed action) := by
  have settled : next.contexts.Settled ↔
      m.contexts.spent context = 0 ∧ (m.contexts.spend context).Spared gone := by
    rw [contexts]
    exact sound.contexts.spend_leave_iff sound.contextsBounded below
  have last : (∀ other, next.contexts.resource other ≠ some context) ↔
      ∀ other, other ∉ gone → m.contexts.resource other ≠ some context := by
    rw [contexts]
    refine forall_congr' fun other => ?_
    by_cases listed : other ∈ gone
    · simp [Handles.leave, listed]
    · simp [Handles.leave, Handles.spend, listed]
  rw [agree]
  constructor
  · rintro ⟨sole, spared⟩
    exact kept sole.1 (settled.mpr ⟨sole.1, spared⟩)
  constructor
  · intro right
    obtain ⟨unspent, spared⟩ := settled.mp right.contexts
    exact ⟨⟨unspent, last.mp (right.last context destroys)⟩, spared⟩
  · rintro ⟨sole, spared⟩
    refine ⟨settled.mpr ⟨sole.1, spared⟩, pins ▸ sound.pins, ?_, by simp⟩
    intro other same
    cases destroys.symm.trans same
    exact last.mpr sole.2

theorem destroy_eq (found : m.exceptions this = some object)
    (taking : m.destroy this = some next) : next = (m.delete object.errorCxt).leave [this] := by
  unfold destroy at taking
  rw [found] at taking
  exact (Option.some.inj taking).symm

/-- A destructor is called, for an object of a frame or for the exception of a handler, which is
taken off the stack. -/
theorem Sound.destroy_right_iff (sound : m.Sound) {stack : List (Caught ω)}
    (rest : ({ m with caught := stack } : Owners ω).Sound)
    (taking : ({ m with caught := stack } : Owners ω).destroy this = some next)
    (destroys : m.destroys action = m.contexts.resource this)
    (agree : m.Allowed action ↔
      ∀ context, m.contexts.resource this = some context → m.Sole context [this]) :
    (m.Allowed action → next.Sound) ∧ (m.Right next .done action ↔ m.Allowed action) := by
  obtain ⟨object, found, -⟩ := Option.bind_eq_some_iff.mp taking
  obtain rfl := destroy_eq found taking
  have held : m.contexts.resource this = some object.errorCxt := resource_eq found
  have below : object.errorCxt < m.elog.nextContext := rest.below found
  refine sound.deleting_right_iff below (destroys.trans held)
    (contexts_leave.trans (congrArg (·.leave [this]) contexts_delete)) rfl ?_ ?_
  · exact fun unspent settled => (rest.deleted below unspent).given settled
  · rw [agree, and_iff_left (Handles.spared_spend held)]
    refine ⟨fun sole => sole _ held, fun sole context has => ?_⟩
    cases held.symm.trans has
    exact sole

/-- The handler ends whose exception is on top, or another one ends in its place. -/
theorem Sound.endCatch_right_iff (sound : m.Sound) (taking : m.endCatch = some next) :
    (m.Allowed .endCatch → next.Sound) ∧
      (m.Right next .done .endCatch ↔ m.Allowed .endCatch) := by
  have agree : m.Allowed .endCatch ↔ m.MayEnd m.caught := Iff.rfl
  have destroys : m.destroys .endCatch = m.top m.caught := rfl
  unfold endCatch at taking
  cases top : m.caught with
  | nil =>
    rw [top] at taking
    cases taking
  | cons entry older =>
    have popped := sound.popped top
    rw [top] at taking agree destroys
    cases entry with
    | handled exception =>
      cases exception with
      | none =>
        cases taking
        exact sound.right_iff_contexts rfl (fun _ => popped)
          (iff_of_true sound.contexts (agree.mpr trivial)) destroys nofun
      | some this => exact sound.destroy_right_iff popped taking destroys agree
    | left exception =>
      cases exception with
      | none =>
        obtain ⟨_, same⟩ := Option.ite_none_right_eq_some.mp taking
        cases same
        refine sound.right_iff_contexts rfl popped.jumped ?_ destroys nofun
        rw [contexts_jump, agree]
        exact sound.contexts.leave_iff sound.contextsBounded
      | some object =>
        obtain ⟨_, same⟩ := Option.ite_none_right_eq_some.mp taking
        cases same
        have below := sound.behind object (top ▸ List.mem_cons_self)
        have contexts : (({ m with caught := older }.delete object.errorCxt).jump [] 1).contexts =
            (m.contexts.spend object.errorCxt).leave (innermost 1 older) := by
          rw [contexts_jump, contexts_delete]
          rfl
        refine sound.deleting_right_iff below destroys contexts rfl ?_ agree
        exact fun unspent settled => (popped.deleted below unspent).jumped settled

theorem Sound.throwAgain_right_iff (sound : m.Sound) (taking : m.throwAgain this = some next) :
    (m.Allowed (.throwAgain this) → next.Sound) ∧
      (m.Right next .done (.throwAgain this) ↔ m.Allowed (.throwAgain this)) := by
  have agree : m.Allowed (.throwAgain this) ↔ m.MayThrowAgain this m.caught := Iff.rfl
  unfold throwAgain at taking
  cases top : m.caught with
  | nil =>
    rw [top] at taking
    cases taking
  | cons entry older =>
    have popped := sound.popped top
    rw [top] at taking agree
    cases entry with
    | handled exception =>
      cases taking
      exact sound.right_iff_contexts rfl (fun _ => popped)
        (iff_of_true sound.contexts (agree.mpr trivial)) rfl nofun
    | left exception =>
      cases exception with
      | none =>
        obtain ⟨_, same⟩ := Option.ite_none_right_eq_some.mp taking
        cases same
        refine sound.right_iff_contexts rfl popped.jumped ?_ rfl nofun
        rw [contexts_jump, agree]
        exact sound.contexts.leave_iff sound.contextsBounded
      | some object =>
        obtain ⟨free, same⟩ := Option.ite_none_right_eq_some.mp taking
        cases same
        have absent : m.exceptions this = none :=
          Option.isNone_iff_eq_none.mp (Bool.and_eq_true_iff.mp free).2
        have below := sound.behind object (top ▸ List.mem_cons_self)
        have shared : (m.contexts.share this object.errorCxt).Settled :=
          sound.contexts.share sound.contextsBounded (by simp [Owners.contexts, absent])
        have bound : (({ m with caught := older } : Owners ω).bind this object).Sound :=
          popped.bound below (by rw [contexts_bind]; exact shared)
        refine sound.right_iff_contexts rfl bound.jumped ?_ rfl nofun
        rw [contexts_jump, contexts_bind, agree]
        exact shared.leave_iff (sound.contextsBounded.share below)

theorem contexts_registered_jump (m : Owners ω) (context : MemoryContext) (edata : ErrorData)
    (skipped : List ω) (handlers : Nat) :
    ((m.registered context edata).jump skipped handlers).contexts =
      (m.contexts.spend context).leave (m.lost skipped handlers) := by
  rw [contexts_jump, contexts_registered]
  rfl

theorem Sound.rethrow_right_iff (sound : m.Sound) {skipped : List ω} {handlers : Nat}
    (taking : m.rethrow this skipped handlers = some (outcome, next)) :
    (m.Allowed (.rethrow this skipped handlers) → next.Sound) ∧
      (m.Right next outcome (.rethrow this skipped handlers) ↔
        m.Allowed (.rethrow this skipped handlers)) := by
  obtain ⟨object, found, ⟨deleted, rfl, rfl⟩ | ⟨edata, _, undeleted, same⟩⟩ := sound.reading taking
  · refine right_iff_of_freed fun allowed => deleted ?_
    exact (Nat.add_eq_zero_iff.mp (allowed object.errorCxt (resource_eq found)).1).1
  · obtain ⟨rfl, rfl⟩ := Prod.mk.inj same
    have below := sound.below found
    have contexts := contexts_registered_jump m object.errorCxt edata skipped handlers
    have settled : ((m.registered object.errorCxt edata).jump skipped handlers).contexts.Settled ↔
        m.contexts.spent object.errorCxt = 0 ∧
          (m.contexts.spend object.errorCxt).Spared (m.lost skipped handlers) := by
      rw [contexts]
      exact sound.contexts.spend_leave_iff sound.contextsBounded below
    refine sound.right_iff_contexts rfl (fun after => ?_) ?_ rfl nofun
    · have registered : (m.registered object.errorCxt edata).Sound := by
        refine ⟨sound.behind, ?_, sound.pins, ?_, sound.pinsBounded, ?_, sound.records⟩
        · exact contexts_registered ▸ sound.contexts.spend_iff.mpr (settled.mp after).1
        · exact contexts_registered ▸ sound.contextsBounded.spend below
        · intro context listed
          rcases List.mem_cons.mp listed with rfl | listed
          · exact below
          · exact sound.pending context listed
      exact registered.jumped after
    · refine settled.trans ⟨fun both context held => ?_, fun allowed => ?_⟩
      · cases (resource_eq found).symm.trans held
        exact both
      · exact allowed object.errorCxt (resource_eq found)

theorem Sound.error_right_iff (sound : m.Sound) {skipped : List ω} {handlers : Nat}
    (taking : m.error this skipped handlers = some (outcome, next)) :
    (m.Allowed (.error this skipped handlers) → next.Sound) ∧
      (m.Right next outcome (.error this skipped handlers) ↔
        m.Allowed (.error this skipped handlers)) := by
  obtain ⟨object, found, ⟨deleted, rfl, rfl⟩ | ⟨edata, _, undeleted, same⟩⟩ := sound.reading taking
  · exact right_iff_of_freed fun allowed =>
      deleted (allowed.1 object.errorCxt (resource_eq found))
  · obtain ⟨rfl, rfl⟩ := Prod.mk.inj same
    have raised : ({ m with
        elog := m.elog.errfinish (elogData "error.hpp" 26 "error" edata.message) } :
          Owners ω).Sound :=
      sound.raised rfl rfl rfl
    refine sound.right_iff_contexts rfl raised.jumped ?_ rfl nofun
    rw [contexts_jump, raised.contexts.leave_iff raised.contextsBounded]
    refine ⟨fun spared => ⟨fun context held => ?_, spared⟩, fun allowed => allowed.2⟩
    cases (resource_eq found).symm.trans held
    exact undeleted

theorem Sound.copy_right_iff (sound : m.Sound) (found : m.exceptions other = some object)
    (absent : m.exceptions this = none) :
    (m.Allowed (.copy this other) → (m.bind this object).Sound) ∧
      (m.Right (m.bind this object) .done (.copy this other) ↔ m.Allowed (.copy this other)) := by
  refine sound.right_iff_contexts rfl (sound.bound (sound.below found)) (iff_of_true ?_ trivial)
    rfl nofun
  rw [contexts_bind]
  exact sound.contexts.share sound.contextsBounded (by simp [Owners.contexts, absent])

theorem Sound.assign_right_iff (sound : m.Sound) (found : m.exceptions other = some object) :
    (m.Allowed (.assign this other) → (m.bind this object).Sound) ∧
      (m.Right (m.bind this object) .done (.assign this other) ↔
        m.Allowed (.assign this other)) := by
  refine sound.right_iff_contexts rfl (sound.bound (sound.below found)) ?_ rfl nofun
  rw [contexts_bind, sound.contexts.share_iff sound.contextsBounded, ← resource_eq found]
  rfl

/-! ## Caches -/

theorem pins_bindCache : (m.bindCache this cache).pins = m.pins.share this cache.lookup := by
  unfold Owners.pins Handles.share Owners.bindCache
  congr 1
  funext one
  by_cases same : one = this
  · simp [same]
  · simp [same]

/-- A cache is made or overwritten. -/
theorem Sound.boundCache (sound : m.Sound) (found : m.caches other = some cache)
    (settled : (m.bindCache this cache).pins.Settled) : (m.bindCache this cache).Sound := by
  refine ⟨sound.behind, sound.contexts, settled, sound.contextsBounded, ?_, sound.pending,
    sound.records⟩
  rw [pins_bindCache]
  exact sound.pinsBounded.share (sound.pinsBounded.below other _ (pin_eq found))

theorem Sound.copyCache_right_iff (sound : m.Sound) (found : m.caches other = some cache)
    (absent : m.caches this = none) :
    (m.Allowed (.copyCache this other) → (m.bindCache this cache).Sound) ∧
      (m.Right (m.bindCache this cache) .done (.copyCache this other) ↔
        m.Allowed (.copyCache this other)) := by
  refine sound.right_iff_pins rfl (sound.boundCache found) (iff_of_true ?_ trivial) rfl nofun
  rw [pins_bindCache]
  exact sound.pins.share sound.pinsBounded (by simp [Owners.pins, absent])

theorem Sound.assignCache_right_iff (sound : m.Sound) (found : m.caches other = some cache) :
    (m.Allowed (.assignCache this other) → (m.bindCache this cache).Sound) ∧
      (m.Right (m.bindCache this cache) .done (.assignCache this other) ↔
        m.Allowed (.assignCache this other)) := by
  refine sound.right_iff_pins rfl (sound.boundCache found) ?_ rfl nofun
  rw [pins_bindCache, sound.pins.share_iff sound.pinsBounded, ← pin_eq found]
  rfl

variable (m this) in
theorem pins_lookup (cacheId : Int) (tuple : Nat) :
    (m.lookup this cacheId (some tuple)).2.pins = m.pins.acquire this := by
  have shared : (m.bindCache this ⟨cacheId, tuple, m.lookups⟩).pins =
      m.pins.share this m.lookups := pins_bindCache
  have resource := congrArg Handles.resource shared
  unfold Owners.pins at resource ⊢
  simp only [Handles.acquire]
  congr 1

theorem Sound.lookup_right_iff (sound : m.Sound) {cacheId : Int} {tuple : Option Nat}
    (absent : m.caches this = none) (taking : m.lookup this cacheId tuple = (outcome, next)) :
    (m.Allowed (.lookup this cacheId tuple) → next.Sound) ∧
      (m.Right next outcome (.lookup this cacheId tuple) ↔
        m.Allowed (.lookup this cacheId tuple)) := by
  cases tuple with
  | none =>
    cases taking
    exact sound.right_iff_pins rfl (fun _ => sound) (iff_of_true sound.pins trivial) rfl nofun
  | some tuple =>
    obtain ⟨rfl, rfl⟩ := Prod.mk.inj taking
    have pins := m.pins_lookup this cacheId tuple
    have settled : (m.pins.acquire this).Settled :=
      sound.pins.acquire (by simp [Owners.pins, absent])
    refine sound.right_iff_pins rfl (fun after => ?_) (iff_of_true (pins ▸ settled) trivial) rfl
      nofun
    exact ⟨sound.behind, sound.contexts, after, sound.contextsBounded, pins ▸ sound.pinsBounded.acquire,
      sound.pending, sound.records⟩

theorem pins_destroyCache (found : m.caches this = some cache)
    (taking : m.destroyCache this = some next) :
    next.pins = (m.pins.spend cache.lookup).leave [this] ∧ next.contexts = m.contexts := by
  unfold destroyCache at taking
  rw [found] at taking
  obtain rfl := Option.some.inj taking
  refine ⟨?_, rfl⟩
  unfold Owners.pins Handles.leave Handles.spend
  congr 1
  funext one
  by_cases named : one = this
  · simp [named]
  · simp [named]

theorem Sound.destroyCache_right_iff (sound : m.Sound) (taking : m.destroyCache this = some next) :
    (m.Allowed (.destroyCache this) → next.Sound) ∧
      (m.Right next .done (.destroyCache this) ↔ m.Allowed (.destroyCache this)) := by
  obtain ⟨cache, found, same⟩ := Option.bind_eq_some_iff.mp taking
  have held := pin_eq found
  have below : cache.lookup < m.lookups := sound.pinsBounded.below this cache.lookup held
  obtain ⟨pins, contexts⟩ := pins_destroyCache found taking
  have settled : next.pins.Settled ↔ m.pins.spent cache.lookup = 0 := by
    rw [pins, sound.pins.spend_leave_iff sound.pinsBounded below]
    exact and_iff_left (Handles.spared_spend held)
  refine sound.right_iff_pins contexts (fun after => ?_) ?_ rfl nofun
  · have bounded : next.pins.Bounded := by
      rw [pins]
      exact (sound.pinsBounded.spend below).leave
    obtain rfl := Option.some.inj same
    exact ⟨sound.behind, sound.contexts, after, sound.contextsBounded, bounded, sound.pending, sound.records⟩
  · rw [settled]
    constructor
    · intro unspent pin has
      cases held.symm.trans has
      exact unspent
    · exact fun allowed => allowed cache.lookup held

/-! ## Each action, and runs -/

theorem exec_beginCatch {exception : Option ω}
    (taking : m.exec (.beginCatch exception) = some (outcome, next)) :
    next = { m with caught := .handled exception :: m.caught } ∧ outcome = .done := by
  cases exception with
  | none =>
    cases taking
    exact ⟨rfl, rfl⟩
  | some this =>
    obtain ⟨_, taken⟩ := Option.ite_none_left_eq_some.mp taking
    cases taken
    exact ⟨rfl, rfl⟩

/-- What is allowed keeps what is sound, and each action is right if and only if it is allowed. -/
theorem Sound.right_iff (sound : m.Sound) (taking : m.exec action = some (outcome, next)) :
    (m.Allowed action → next.Sound) ∧ (m.Right next outcome action ↔ m.Allowed action) := by
  cases action with
  | raise edata skipped handlers =>
    obtain ⟨_, taken⟩ := Option.ite_none_left_eq_some.mp taking
    cases taken
    have raised : ({ m with elog := m.elog.errfinish edata } : Owners ω).Sound :=
      sound.raised rfl rfl rfl
    refine sound.right_iff_contexts rfl raised.jumped ?_ rfl nofun
    rw [contexts_jump, raised.contexts.leave_iff raised.contextsBounded]
    exact Iff.rfl
  | beginCatch exception =>
    obtain ⟨rfl, rfl⟩ := exec_beginCatch taking
    have kept : ({ m with caught := .handled exception :: m.caught } : Owners ω).Sound := by
      refine ⟨fun object listed => ?_, sound.contexts, sound.pins, sound.contextsBounded,
        sound.pinsBounded, sound.pending, sound.records⟩
      rcases List.mem_cons.mp listed with same | listed
      · cases same
      · exact sound.behind object listed
    exact sound.right_iff_contexts rfl (fun _ => kept) (iff_of_true sound.contexts trivial) rfl nofun
  | endCatch =>
    obtain ⟨_, ended, same⟩ := Option.map_eq_some_iff.mp taking
    cases same
    exact sound.endCatch_right_iff ended
  | throwAgain this =>
    obtain ⟨_, thrown, same⟩ := Option.map_eq_some_iff.mp taking
    cases same
    exact sound.throwAgain_right_iff thrown
  | flush =>
    obtain ⟨rfl, rfl⟩ := Prod.mk.inj (Option.some.inj taking)
    exact sound.right_iff_contexts rfl (fun _ => sound.flush)
      (iff_of_true sound.flush.contexts trivial) rfl nofun
  | capture this mcxt =>
    obtain ⟨absent, taken⟩ := Option.ite_none_left_eq_some.mp taking
    obtain ⟨_, captured, same⟩ := Option.map_eq_some_iff.mp taken
    cases same
    have kept := sound.captured (Option.not_isSome_iff_eq_none.mp absent) captured
    exact sound.right_iff_contexts (sound.contexts_capture captured).2 (fun _ => kept)
      (iff_of_true kept.contexts trivial) rfl nofun
  | copy this other =>
    obtain ⟨object, found, taken⟩ := Option.bind_eq_some_iff.mp taking
    obtain ⟨absent, same⟩ := Option.ite_none_left_eq_some.mp taken
    cases same
    exact sound.copy_right_iff found (Option.not_isSome_iff_eq_none.mp absent)
  | assign this other =>
    obtain ⟨object, found, taken⟩ := Option.bind_eq_some_iff.mp taking
    obtain ⟨target, _, same⟩ := Option.bind_eq_some_iff.mp taken
    cases same
    exact sound.assign_right_iff found
  | destroy this =>
    obtain ⟨_, taken⟩ := Option.ite_none_left_eq_some.mp taking
    obtain ⟨_, destroyed, same⟩ := Option.map_eq_some_iff.mp taken
    cases same
    exact @Sound.destroy_right_iff ω _ _ _ _ _ sound m.caught sound destroyed rfl Iff.rfl
  | rethrow this skipped handlers =>
    exact sound.rethrow_right_iff (Option.ite_none_left_eq_some.mp taking).2
  | error this skipped handlers =>
    exact sound.error_right_iff (Option.ite_none_left_eq_some.mp taking).2
  | message this => exact sound.read_right_iff (by simp) rfl Iff.rfl taking
  | errorData this => exact sound.read_right_iff (by simp) rfl Iff.rfl taking
  | lookup this cacheId tuple =>
    obtain ⟨absent, taken⟩ := Option.ite_none_left_eq_some.mp taking
    exact sound.lookup_right_iff (Option.not_isSome_iff_eq_none.mp absent) (Option.some.inj taken)
  | copyCache this other =>
    obtain ⟨cache, found, taken⟩ := Option.bind_eq_some_iff.mp taking
    obtain ⟨absent, same⟩ := Option.ite_none_left_eq_some.mp taken
    cases same
    exact sound.copyCache_right_iff found (Option.not_isSome_iff_eq_none.mp absent)
  | assignCache this other =>
    obtain ⟨cache, found, taken⟩ := Option.bind_eq_some_iff.mp taking
    obtain ⟨target, _, same⟩ := Option.bind_eq_some_iff.mp taken
    cases same
    exact sound.assignCache_right_iff found
  | destroyCache this =>
    obtain ⟨_, destroyed, same⟩ := Option.map_eq_some_iff.mp taking
    cases same
    exact sound.destroyCache_right_iff destroyed

/-- The actions of a run are right if and only if each of them is allowed. -/
theorem owners_right_iff (actions : List (OwnerAction ω)) :
    Meets step DoneRight start actions ↔ Meets step Allowed start actions :=
  meets_done_iff (fun _ _ _ _ sound executed => Sound.right_iff sound executed) start_sound

/-! ## The exceptions of the guards

The constructor, the destructor and `rethrow` do here what they do to one exception in the code of
the guards. -/

section Guards
variable {s : Machine Backend} {skipped : List ω} {handlers : Nat}

theorem capture_simulates {mcxt : MemoryContext} (agrees : s.store.elog = m.elog)
    (taking : m.capture this mcxt = some next) :
    ∃ object, next.exceptions this = some object ∧
      (pgException mcxt s).1 = .returned (.pg object.mcxt object.errorCxt) ∧
      (pgException mcxt s).2.store.elog = next.elog := by
  unfold capture at taking
  unfold pgException
  rw [Code.get_bind, agrees]
  split at taking
  · cases taking
  · rename_i edata older top
    obtain rfl := Option.some.inj taking
    rw [top]
    refine ⟨⟨mcxt, m.elog.freshContext⟩, Function.update_self _ _ _, rfl, ?_⟩
    rw [← agrees]
    rfl

theorem destroy_simulates (agrees : s.store.elog = m.elog) (found : m.exceptions this = some object)
    (taking : m.destroy this = some next) :
    (dropException (.pg object.mcxt object.errorCxt) s).2.store.elog = next.elog := by
  unfold destroy at taking
  rw [found] at taking
  obtain rfl := Option.some.inj taking
  exact congrArg (·.deleteRecord object.errorCxt) agrees

theorem rethrow_simulates (agrees : s.store.elog = m.elog) (found : m.exceptions this = some object)
    (taking : m.rethrow this skipped handlers = some (.raised, next)) :
    (Cppgres.rethrow object.errorCxt s : Exit CppException SigjmpBuf Unit × Machine Backend) =
      (s.store.elog.landing, { s with store := { s.store with elog := next.elog } }) := by
  unfold Owners.rethrow Owners.reading at taking
  rw [found, Option.bind_eq_bind, Option.bind_some] at taking
  cases held : m.elog.records object.errorCxt with
  | none =>
    rw [held] at taking
    cases taking
  | some edata =>
    rw [held] at taking
    cases taking
    rw [rethrow_apply (agrees ▸ held), agrees]
    rfl

end Guards

/-! ## Programs without copies -/

/-- No copy is made, a jump leaves no handler but that of the exception that it rethrows, and a
handler that ends finds its own exception on top of the stack. -/
def Uncopied (m : Owners ω) : OwnerAction ω → Prop
  | .copy _ _ | .assign _ _ | .error _ _ _ | .copyCache _ _ | .assignCache _ _ => False
  | .raise _ skipped handlers => m.lost skipped handlers = []
  | .rethrow this skipped handlers => m.lost skipped handlers = [this]
  | .endCatch | .throwAgain _ => ∀ exception older, m.caught ≠ .left exception :: older
  | _ => True

/-- Each object has what it owns to itself. -/
structure Unshared (m : Owners ω) : Prop extends Sound m where
  exclusive : m.contexts.Exclusive
  exclusivePins : m.pins.Exclusive

theorem Unshared.allowed (unshared : m.Unshared) (uncopied : m.Uncopied action) :
    m.Allowed action := by
  have undeleted : ∀ this context, m.contexts.resource this = some context →
      m.deletions context = 0 := fun this context held =>
    (Nat.add_eq_zero_iff.mp (unshared.exclusive this context held).1).1
  have sole : ∀ this context, m.contexts.resource this = some context →
      m.Sole context [this] := by
    intro this context held
    obtain ⟨unspent, alone⟩ := unshared.exclusive this context held
    exact ⟨unspent, fun other different also =>
      different (List.mem_singleton.mpr (alone other also))⟩
  cases action with
  | destroy this => exact sole this
  | raise edata skipped handlers =>
    have none : m.lost skipped handlers = [] := uncopied
    change m.contexts.Spared (m.lost skipped handlers)
    rw [none]
    exact nofun
  | endCatch =>
    change m.MayEnd m.caught
    cases top : m.caught with
    | nil => trivial
    | cons entry older =>
      cases entry with
      | left exception => exact absurd top (uncopied exception older)
      | handled exception =>
        cases exception with
        | none => trivial
        | some this => exact sole this
  | throwAgain this =>
    change m.MayThrowAgain this m.caught
    cases top : m.caught with
    | nil => trivial
    | cons entry older =>
      cases entry with
      | left exception => exact absurd top (uncopied exception older)
      | handled exception => trivial
  | rethrow this skipped handlers =>
    intro context held
    have alone : m.lost skipped handlers = [this] := uncopied
    rw [alone]
    exact ⟨(unshared.exclusive this context held).1, Handles.spared_spend held⟩
  | message this => exact undeleted this
  | errorData this => exact undeleted this
  | destroyCache this => exact fun pin held => (unshared.exclusivePins this pin held).1
  | copy => exact uncopied.elim
  | assign => exact uncopied.elim
  | error => exact uncopied.elim
  | copyCache => exact uncopied.elim
  | assignCache => exact uncopied.elim
  | flush => trivial
  | capture => trivial
  | beginCatch => trivial
  | lookup => trivial

theorem Unshared.exclusive_destroy (unshared : m.Unshared) {stack : List (Caught ω)}
    (destroyed : ({ m with caught := stack } : Owners ω).destroy this = some next) :
    next.contexts.Exclusive ∧ next.pins.Exclusive := by
  obtain ⟨object, found, -⟩ := Option.bind_eq_some_iff.mp destroyed
  obtain rfl := destroy_eq found destroyed
  have held : m.contexts.resource this = some object.errorCxt := resource_eq found
  have contexts : (({ m with caught := stack } : Owners ω).delete object.errorCxt).contexts = _ :=
    contexts_delete
  rw [contexts_leave, contexts]
  exact ⟨unshared.exclusive.spend_leave held, unshared.exclusivePins⟩

theorem Unshared.exclusive_exec (unshared : m.Unshared) (uncopied : m.Uncopied action)
    (taking : m.exec action = some (outcome, next)) :
    next.contexts.Exclusive ∧ next.pins.Exclusive := by
  have unchanged := And.intro unshared.exclusive unshared.exclusivePins
  cases action with
  | raise edata skipped handlers =>
    obtain ⟨_, taken⟩ := Option.ite_none_left_eq_some.mp taking
    cases taken
    have none : m.lost skipped handlers = [] := uncopied
    refine ⟨?_, unchanged.2⟩
    rw [contexts_jump]
    change (m.contexts.leave (m.lost skipped handlers)).Exclusive
    rw [none]
    exact unchanged.1
  | flush =>
    obtain ⟨rfl, rfl⟩ := Prod.mk.inj (Option.some.inj taking)
    exact ⟨contexts_flush ▸ unchanged.1, unchanged.2⟩
  | capture this mcxt =>
    obtain ⟨-, taken⟩ := Option.ite_none_left_eq_some.mp taking
    obtain ⟨_, captured, same⟩ := Option.map_eq_some_iff.mp taken
    cases same
    obtain ⟨contexts, pins⟩ := unshared.contexts_capture captured
    exact ⟨contexts ▸ unchanged.1.acquire unshared.contextsBounded, pins ▸ unchanged.2⟩
  | beginCatch exception =>
    obtain ⟨rfl, rfl⟩ := exec_beginCatch taking
    exact unchanged
  | endCatch =>
    obtain ⟨_, ended, same⟩ := Option.map_eq_some_iff.mp taking
    cases same
    unfold endCatch at ended
    split at ended
    case h_1 => cases ended
    case h_2 =>
      cases ended
      exact unchanged
    case h_3 => exact unshared.exclusive_destroy ended
    case h_4 older top => exact absurd top (uncopied _ _)
    case h_5 object older top => exact absurd top (uncopied _ _)
  | throwAgain this =>
    obtain ⟨_, thrown, same⟩ := Option.map_eq_some_iff.mp taking
    cases same
    unfold throwAgain at thrown
    split at thrown
    case h_1 => cases thrown
    case h_2 =>
      cases thrown
      exact unchanged
    case h_3 older top => exact absurd top (uncopied _ _)
    case h_4 object older top => exact absurd top (uncopied _ _)
  | destroy this =>
    obtain ⟨-, taken⟩ := Option.ite_none_left_eq_some.mp taking
    obtain ⟨_, destroyed, same⟩ := Option.map_eq_some_iff.mp taken
    cases same
    exact @Unshared.exclusive_destroy ω _ _ _ _ unshared m.caught destroyed
  | rethrow this skipped handlers =>
    have alone : m.lost skipped handlers = [this] := uncopied
    have taken := (Option.ite_none_left_eq_some.mp taking).2
    obtain ⟨object, found, ⟨-, -, rfl⟩ | ⟨edata, -, -, same⟩⟩ := unshared.reading taken
    · exact unchanged
    · obtain ⟨rfl, rfl⟩ := Prod.mk.inj same
      have contexts := contexts_registered_jump m object.errorCxt edata skipped handlers
      rw [alone] at contexts
      exact ⟨contexts ▸ unchanged.1.spend_leave (resource_eq found), unchanged.2⟩
  | message this | errorData this =>
    obtain ⟨object, found, ⟨-, -, rfl⟩ | ⟨edata, -, -, same⟩⟩ := unshared.reading taking
    · exact unchanged
    · obtain ⟨rfl, rfl⟩ := Prod.mk.inj same
      exact unchanged
  | lookup this cacheId tuple =>
    obtain ⟨-, taken⟩ := Option.ite_none_left_eq_some.mp taking
    cases tuple with
    | none =>
      cases taken
      exact unchanged
    | some tuple =>
      obtain rfl := congrArg Prod.snd (Option.some.inj taken)
      exact ⟨unchanged.1,
        m.pins_lookup this cacheId tuple ▸ unchanged.2.acquire unshared.pinsBounded⟩
  | destroyCache this =>
    obtain ⟨_, destroyed, same⟩ := Option.map_eq_some_iff.mp taking
    cases same
    obtain ⟨cache, found, -⟩ := Option.bind_eq_some_iff.mp destroyed
    obtain ⟨pins, contexts⟩ := pins_destroyCache found destroyed
    exact ⟨contexts ▸ unchanged.1, pins ▸ unchanged.2.spend_leave (pin_eq found)⟩
  | copy => exact uncopied.elim
  | assign => exact uncopied.elim
  | error => exact uncopied.elim
  | copyCache => exact uncopied.elim
  | assignCache => exact uncopied.elim

/-- A program that makes no copies, and whose handlers end what they caught, is right in each of
its actions. -/
theorem uncopied_right {actions : List (OwnerAction ω)}
    (uncopied : Meets step Uncopied (start : Owners ω) actions) :
    Meets step DoneRight start actions := by
  refine uncopied.of_inv (fun s action t unshared may taking => ?_) (fun s action unshared may => ?_)
    (⟨start_sound, nofun, nofun⟩ : (start : Owners ω).Unshared)
  · obtain ⟨_, executed, rfl⟩ := Option.map_eq_some_iff.mp taking
    obtain ⟨exclusive, exclusivePins⟩ := Unshared.exclusive_exec unshared may executed
    exact ⟨(unshared.right_iff executed).1 (unshared.allowed may), exclusive, exclusivePins⟩
  · intro outcome next executed
    exact (unshared.right_iff executed).2.mpr (unshared.allowed may)

/-- An error, for the examples. -/
def anError : ErrorData := reportData "error"

/-- An error of Postgres that is caught by a handler. -/
def caughtAs (this : ω) : List (OwnerAction ω) :=
  [.raise anError [] 0, .capture this 0, .beginCatch (some this)]

/-- `catch (pg_exception e)`: at the end of the handler the copy is destroyed, then the exception. -/
def caughtByValue : List (OwnerAction (Fin 3)) := caughtAs 0 ++ [.copy 1 0, .destroy 1]

/-- `error(e)` in a handler of `pg_exception &e`: the jump leaves the handler. -/
def givenToError : List (OwnerAction (Fin 3)) := caughtAs 0 ++ [.error 0 [] 1]

/-- In a handler, an exception of a guarded callback is thrown again across the callback's guard,
and what the handler catches then is ended. -/
def rethrownInside : List (OwnerAction (Fin 3)) :=
  caughtAs 0 ++ [.raise anError [] 0, .capture 1 0, .beginCatch (some 1), .rethrow 1 [] 1] ++
    [.capture 2 0, .beginCatch (some 2), .endCatch]

def copiedCache : List (OwnerAction (Fin 3)) :=
  [.lookup 0 0 (some 0), .copyCache 1 0, .destroyCache 1]

/-- A context is deleted twice, and read after the first time; another is never deleted; with no copy
at all, a context is deleted twice and the one of the handler never; and a tuple is released twice. -/
theorem caughtByValue_deletesTwice :
    (run step start (caughtByValue ++ [.endCatch])).map (·.deletions 0) = some 2 ∧
    ((run step start caughtByValue).bind (·.exec (.message 0))).map Prod.fst = some .freed ∧
    ((run step start givenToError).map fun m =>
      (m.exceptions 0, m.elog.resetCallbacks, m.deletions 0)) = some (none, [], 0) ∧
    ((run step start (rethrownInside ++ [.endCatch])).map fun m =>
      (m.exceptions 0, m.deletions 0, m.deletions 1)) = some (none, 0, 2) ∧
    (run step start (copiedCache ++ [.destroyCache 0])).map (·.releases 0) = some 2 ∧
    ¬ Meets step DoneRight start (caughtByValue ++ [.endCatch]) ∧
    ¬ Meets step DoneRight start givenToError ∧
    ¬ Meets step DoneRight start (rethrownInside ++ [.endCatch]) ∧
    ¬ Meets step DoneRight start (copiedCache ++ [.destroyCache 0]) := by
  refine ⟨rfl, rfl, rfl, rfl, rfl, fun meets => ?_, fun meets => ?_, fun meets => ?_,
    fun meets => ?_⟩
  · have right := meets.last rfl rfl _ _ rfl
    exact absurd (right.contexts.once 0) (by decide)
  · have meets : Meets step DoneRight (start : Owners (Fin 3))
        (caughtAs 0 ++ [.error 0 [] 1]) := meets
    have right := meets.last rfl rfl _ _ rfl
    exact absurd (right.contexts.ended 0 (by decide) (by decide)) (by decide)
  · have right := meets.last rfl rfl _ _ rfl
    exact absurd (right.contexts.once 1) (by decide)
  · have right := meets.last rfl rfl _ _ rfl
    exact absurd (right.pins.once 0) (by decide)

end Operations

end Owners
end Cppgres
