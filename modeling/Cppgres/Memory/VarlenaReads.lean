import Cppgres.Memory.Varlena

/-!
# Reads of variable-length values

An object that was not moved from reads its bytes while the memory it hands out is there,
and throws afterwards, as long as no move assignment takes the last owner from the state of
a context that was not reset.
-/
namespace Cppgres
open Regions Labelled TrackedMemory

variable {ω : Type} [DecidableEq ω]

namespace VarlenaMemory

/-- The memory that a conversion hands out is not freed: the detoasted copy if there is one,
or the source. -/
def available (m : VarlenaMemory ω) (object : VarlenaValue) : Bool :=
  (m.tracked.memory.chunks (object.detoasted.getD object.valueDatum)).isSome

/-- Whatever object, if it was not moved from, were to be read now. -/
structure ReadsRight (m : VarlenaMemory ω) : Prop where
  defined : m.tracked.undefined = false
  right : ∀ this object currentMemoryContext, m.objects.lookup this = some object →
    object.moved = false → m.tracked.memory.live currentMemoryContext →
    ∃ next, m.read this currentMemoryContext =
      some (if m.available object then .bytes object.value else .pointerGone, next)

/-- A move assignment leaves an owner to each state that it overwrites, if that still has
its callback. -/
def LeavesOwner (m : VarlenaMemory ω) : VarlenaAction ω → Prop
  | .moveAssign this other =>
    m.tracked.LeaveOwners (m.assignMembers this other)
  | _ => True

instance (m : VarlenaMemory ω) : ∀ action, Decidable (m.LeavesOwner action)
  | .moveAssign this other =>
    inferInstanceAs (Decidable (m.tracked.LeaveOwners (m.assignMembers this other)))
  | .create _ | .reset _ | .delete _ | .alloc _ _ | .construct _ _ | .copyConstruct _ _
  | .moveConstruct _ _ | .destroy _ | .read _ _ => .isTrue trivial

/-- The members of an object that was not moved from tell of its source and its copy. -/
structure Followed (tracked : TrackedMemory (ω × VarlenaMember) Varlena) (this : ω)
    (object : VarlenaValue) : Prop where
  source : object.moved = false →
    tracked.Follows (this, .ctx) object.valueDatum fun varlena => varlena.bytes = object.value
  copy : object.moved = false → ∀ pointer, object.detoasted = some pointer →
    tracked.Follows (this, .detoastedCtx) pointer fun varlena => varlena.bytes = object.value
  base : (this, .ctx) ∈ tracked.trackers
  engaged : (this, .detoastedCtx) ∈ tracked.trackers ↔ object.detoasted.isSome

structure Sound (m : VarlenaMemory ω) : Prop where
  tracked : m.tracked.Tracked
  followed : ∀ this object, m.objects.lookup this = some object → Followed m.tracked this object
  members : ∀ name, name ∈ m.tracked.trackers → name.1 ∈ m.objects

variable {m next : VarlenaMemory ω} {this other : ω} {object : VarlenaValue}
  {tracked : TrackedMemory (ω × VarlenaMember) Varlena}
  {actions : List (TrackingAction (ω × VarlenaMember))}

theorem Sound.engaged_eq (sound : m.Sound) (found : m.objects.lookup this = some object) :
    m.engaged this = object.detoasted.isSome := by
  unfold engaged
  rw [Bool.eq_iff_iff, decide_eq_true_iff]
  exact (sound.followed this object found).engaged

theorem Sound.lookup_ctx (sound : m.Sound) (found : m.objects.lookup this = some object) :
    ∃ ctx, m.tracked.trackers.lookup (this, .ctx) = some ctx :=
  Option.isSome_iff_exists.mp
    (AList.lookup_isSome.mpr (sound.followed this object found).base)

/-! ## Reads -/

omit [DecidableEq ω] in
theorem view_of_available {pointer : Nat} {owner : Nat} {varlena : Varlena}
    (held : m.tracked.memory.chunks pointer = some (owner, varlena)) :
    m.view pointer = .bytes varlena.bytes := by
  simp [view, held]

theorem Sound.readsRight (sound : m.Sound) : m.ReadsRight where
  defined := sound.tracked.defined
  right this object currentMemoryContext found unmoved isLive := by
    have followed := sound.followed this object found
    unfold read
    simp only [found, Option.bind_eq_bind, Option.bind_some]
    cases pointers : object.detoasted with
    | some pointer =>
      refine ⟨m, ?_⟩
      have there : (this, .detoastedCtx) ∈ m.tracked.trackers := by
        rw [followed.engaged, pointers]
        rfl
      obtain ⟨detoastedCtx, member⟩ := Option.isSome_iff_exists.mp (AList.lookup_isSome.mpr there)
      have told := (followed.copy unmoved pointer pointers).resets sound.tracked member
      simp only [cached, member, available, pointers, Option.getD_some, Option.some.injEq,
        Prod.mk.injEq, and_true]
      cases told with
      | inl gone => simp [gone.1, gone.2]
      | inr held =>
        obtain ⟨unreset, owner, varlena, held, right⟩ := held
        simp [unreset, held, view_of_available held, right]
    | none =>
      obtain ⟨ctx, member⟩ := sound.lookup_ctx found
      have told := (followed.source unmoved).resets sound.tracked member
      simp only [member, Option.bind_some, available, pointers, Option.getD_none]
      cases told with
      | inl gone =>
        refine ⟨m, ?_⟩
        simp [gone.1, gone.2]
      | inr held =>
        obtain ⟨unreset, owner, varlena, held, right⟩ := held
        have disengaged : m.engaged this = false := by
          rw [sound.engaged_eq found, pointers]
          rfl
        have absent : (this, .detoastedCtx) ∉ m.tracked.trackers := by
          rw [followed.engaged, pointers]
          simp
        simp only [unreset, held, Nat.lt_irrefl, if_false, Option.isSome_some, if_true]
        split
        · simp only [isLive, dite_true, trackCopy, disengaged, perform, List.nil_append,
            Bool.false_eq_true, if_false, run, TrackedMemory.step, absent, if_false,
            Store.live_alloc]
          simp [right]
        · simp only [trackSource, disengaged, perform, Bool.false_eq_true, if_false, run,
            TrackedMemory.step, absent, member]
          simp [right]

/-! ## The operations -/

theorem perform_eq_some {objects : AList fun _ : ω => VarlenaValue} :
    m.perform actions objects = some next ↔
      ∃ tracked, run TrackedMemory.step m.tracked actions = some tracked ∧
        next = ⟨tracked, objects⟩ := by
  simp [perform, eq_comm]

/-- The members of an object that no operation writes to. -/
theorem Followed.untouched (followed : Followed m.tracked this object)
    (before : m.tracked.Tracked) (leaves : m.tracked.LeaveOwners actions)
    (untouched : ∀ action ∈ actions, ∀ member, ¬ Writes action (this, member))
    (reached : run TrackedMemory.step m.tracked actions = some tracked) : Followed tracked this object where
  source unmoved := follows_run before leaves (followed.source unmoved)
    (fun action listed => untouched action listed .ctx) reached
  copy unmoved pointer pointers := follows_run before leaves
    (followed.copy unmoved pointer pointers)
    (fun action listed => untouched action listed .detoastedCtx) reached
  base := by
    refine (mem_run ?_ reached).mpr followed.base
    exact fun action listed _ => present_of_untouched (untouched action listed .ctx)
  engaged := by
    refine (mem_run ?_ reached).trans followed.engaged
    exact fun action listed _ => present_of_untouched (untouched action listed .detoastedCtx)

/-- Operations on the members of some objects leave all as it should be if they do so for
those objects. -/
theorem Sound.perform (sound : m.Sound) {objects : AList fun _ : ω => VarlenaValue}
    (leaves : m.tracked.LeaveOwners actions) (touched : ω → Prop)
    (writes : ∀ action ∈ actions, ∀ name, Writes action name → touched name.1)
    (others : ∀ one, ¬ touched one → objects.lookup one = m.objects.lookup one)
    (reached : run TrackedMemory.step m.tracked actions = some tracked)
    (followed : ∀ one object, touched one → objects.lookup one = some object →
      Followed tracked one object)
    (members : ∀ one member, touched one → (one, member) ∈ tracked.trackers → one ∈ objects) :
    Sound ⟨tracked, objects⟩ where
  tracked := tracked_run sound.tracked leaves reached
  followed one object found := by
    by_cases among : touched one
    · exact followed one object among found
    · rw [others one among] at found
      apply (sound.followed one object found).untouched sound.tracked leaves ?_ reached
      intro action listed member wrote
      exact among (writes action listed (one, member) wrote)
  members name there := by
    obtain ⟨one, member⟩ := name
    by_cases among : touched one
    · exact members one member among there
    · have old : (one, member) ∈ m.tracked.trackers := by
        refine (mem_run ?_ reached).mp there
        intro action listed _
        apply present_of_untouched
        intro wrote
        exact among (writes action listed (one, member) wrote)
      have known := sound.members (one, member) old
      exact AList.lookup_isSome.mp (by
        rw [others one among]
        exact AList.lookup_isSome.mpr known)

theorem Sound.onContexts (sound : m.Sound) (action : TrackingAction (ω × VarlenaMember))
    (leaves : ∀ tracked : TrackedMemory (ω × VarlenaMember) Varlena, tracked.LeavesOwner action)
    (untouched : ∀ name, ¬ Writes action name) (taking : m.onContexts action = some next) :
    next.Sound := by
  obtain ⟨tracked, reached, rfl⟩ := perform_eq_some.mp taking
  apply sound.perform (meets_of_forall (by simpa using leaves)) (fun _ => False)
    (by simpa using untouched) (fun _ _ => rfl) reached
  · exact fun _ _ none => none.elim
  · exact fun _ _ none => none.elim

theorem Sound.alloc (sound : m.Sound) {ctx : Nat} {varlena : Varlena}
    (isLive : m.tracked.memory.live ctx) :
    Sound { m with tracked :=
      { m.tracked with memory := m.tracked.memory.alloc ctx varlena isLive } } where
  tracked := { sound.tracked with }
  followed this object found := by
    have followed := sound.followed this object found
    exact ⟨fun unmoved => (followed.source unmoved).alloc isLive,
      fun unmoved pointer pointers => (followed.copy unmoved pointer pointers).alloc isLive,
      followed.base, followed.engaged⟩
  members := sound.members

/-- An object without the member of its base is not there. -/
theorem Sound.unknown (sound : m.Sound) (absent : (this, .ctx) ∉ m.tracked.trackers) :
    this ∉ m.objects := by
  intro known
  obtain ⟨object, found⟩ := Option.isSome_iff_exists.mp (AList.lookup_isSome.mpr known)
  exact absent (sound.followed this object found).base

/-- A new object has no copy after an operation that is on the member of its base. -/
theorem Sound.disengaged (sound : m.Sound) (absent : (this, .ctx) ∉ m.tracked.trackers)
    {first : TrackingAction (ω × VarlenaMember)} (taking : m.tracked.step first = some tracked)
    (spares : ∀ there : ω × VarlenaMember → Prop,
      Present there first (this, .detoastedCtx) → there (this, .detoastedCtx)) :
    (this, .detoastedCtx) ∉ tracked.trackers := by
  intro there
  have old := spares _ ((mem_step taking).mp there)
  exact sound.unknown absent (sound.members _ old)

/-- A new object over memory, which it follows where it is given the context of that memory. -/
theorem Sound.constructOver (sound : m.Sound) {source owner ctx : Nat} {varlena : Varlena}
    {moved : Bool} (held : m.tracked.memory.chunks source = some (owner, varlena))
    (given : moved = false → ctx = owner)
    (taking : m.perform [.construct (this, .ctx) ctx]
      (m.objects.insert this ⟨source, none, varlena.bytes, moved⟩) = some next) : next.Sound := by
  obtain ⟨tracked, reached, rfl⟩ := perform_eq_some.mp taking
  have leaves : m.tracked.LeaveOwners
      [.construct (this, .ctx) ctx] := meets_of_forall (by simp [TrackedMemory.LeavesOwner])
  have taken := run_singleton.mp reached
  have present := fun name => @mem_step _ _ _ _ _ name _ taken
  obtain ⟨absent, isLive, made⟩ : (this, .ctx) ∉ m.tracked.trackers ∧
      ∃ isLive : m.tracked.memory.live ctx,
        m.tracked.construct (this, .ctx) ctx isLive = tracked := by
    obtain ⟨absent, taken⟩ := Option.ite_none_left_eq_some.mp taken
    obtain ⟨isLive, same⟩ := Option.dite_none_right_eq_some.mp taken
    exact ⟨absent, isLive, Option.some.inj same⟩
  apply sound.perform leaves (fun one => one = this) (by simp [Writes]) ?_ reached
  · intro one object same found
    subst same
    rw [AList.lookup_insert, Option.some.injEq] at found
    subst found
    refine ⟨fun unmoved => ?_, by simp, (present _).mpr (.inl rfl), ?_⟩
    · rw [← made]
      exact follows_construct isLive (given unmoved ▸ held) rfl
    · simp only [Option.isSome_none, Bool.false_eq_true, iff_false]
      exact sound.disengaged absent taken (by simp [Present])
  · intro one member same _
    rw [same]
    exact (AList.mem_insert _).mpr (.inl rfl)
  · intro one different
    exact AList.lookup_insert_ne different

/-- An object that is made to be as another one, member by member. -/
theorem Sound.copied (sound : m.Sound) (found : m.objects.lookup other = some object)
    {first : TrackingAction (ω × VarlenaMember)}
    (leaves : m.tracked.LeaveOwners (first :: actions))
    (reached : run TrackedMemory.step m.tracked (first :: actions) = some tracked)
    (base : Copies (this, .ctx) (other, .ctx) first)
    (apart : ¬ Writes first (other, .detoastedCtx))
    (rest : ∀ action ∈ actions, ¬ Writes action (this, .ctx))
    (copies : m.engaged other = true →
      ∃ second, actions = [second] ∧ Copies (this, .detoastedCtx) (other, .detoastedCtx) second)
    (drops : m.engaged other = false → (this, .detoastedCtx) ∉ tracked.trackers) :
    Followed tracked this object := by
  have followed := sound.followed other object found
  obtain ⟨t, taking, later⟩ := run_cons.mp reached
  obtain ⟨leave, left⟩ := leaves t taking
  have between := tracked_step sound.tracked leave taking
  have engaged := sound.engaged_eq found
  refine ⟨?_, ?_, ?_, ?_⟩
  · intro unmoved
    exact follows_run between left (follows_copied (followed.source unmoved) base taking) rest later
  · intro unmoved pointer pointers
    obtain ⟨second, same, copied⟩ := copies (by rw [engaged, pointers]; rfl)
    subst same
    have kept := follows_step sound.tracked (followed.copy unmoved pointer pointers) apart taking
    exact follows_copied kept copied (run_singleton.mp later)
  · refine (mem_run ?_ later).mpr (mem_copied base taking)
    exact fun action listed _ => present_of_untouched (rest action listed)
  · rw [← engaged]
    cases present : m.engaged other with
    | true =>
      obtain ⟨second, same, copied⟩ := copies present
      subst same
      simpa using mem_copied copied (run_singleton.mp later)
    | false => simpa using drops present

theorem Sound.copyConstruct (sound : m.Sound) (found : m.objects.lookup other = some object)
    (taking : m.perform (m.copyMembers this other) (m.objects.insert this object) = some next) :
    next.Sound := by
  obtain ⟨tracked, reached, rfl⟩ := perform_eq_some.mp taking
  have leaves : m.tracked.LeaveOwners (m.copyMembers this other) := by
    apply meets_of_forall
    unfold copyMembers
    split <;> simp [TrackedMemory.LeavesOwner]
  unfold copyMembers at reached leaves
  obtain ⟨t, first, _⟩ := run_cons.mp reached
  have absent := (Option.ite_none_left_eq_some.mp first).1
  have writes : ∀ action ∈ m.copyMembers this other, ∀ name, Writes action name → name.1 = this := by
    unfold copyMembers
    split <;> simp [Writes]
  apply sound.perform leaves (fun one => one = this) writes ?_ reached
  · intro one copied same known
    subst same
    rw [AList.lookup_insert, Option.some.injEq] at known
    subst known
    apply sound.copied found leaves reached (.inl rfl)
    · simp [Writes]
    · split <;> simp [Writes]
    · intro engaged
      exact ⟨_, by rw [if_pos engaged], .inl rfl⟩
    · intro disengaged
      rw [disengaged] at reached
      exact sound.disengaged absent (run_singleton.mp reached) (by simp [Present])
  · intro one member same _
    rw [same]
    exact (AList.mem_insert _).mpr (.inl rfl)
  · intro one different
    exact AList.lookup_insert_ne different

/-- What is left of an object that is moved from: its members, which tell nothing. -/
theorem Followed.moved (followed : Followed m.tracked this object)
    (kept : ∀ action ∈ actions, ∀ there member,
      Present there action (this, member) ↔ there (this, member))
    (reached : run TrackedMemory.step m.tracked actions = some tracked) :
    Followed tracked this { object with moved := true } where
  source unmoved := by cases unmoved
  copy unmoved := by cases unmoved
  base := (mem_run (fun action listed there => kept action listed there .ctx) reached).mpr
    followed.base
  engaged := (mem_run (fun action listed there => kept action listed there .detoastedCtx)
    reached).trans followed.engaged

/-- The objects after a move to `this`. -/
theorem Sound.moved (sound : m.Sound) (found : m.objects.lookup other = some object)
    (different : this ≠ other) (leaves : m.tracked.LeaveOwners actions)
    (writes : ∀ action ∈ actions, ∀ name, Writes action name → name.1 = this ∨ name.1 = other)
    (kept : ∀ action ∈ actions, ∀ there member,
      Present there action (other, member) ↔ there (other, member))
    (reached : run TrackedMemory.step m.tracked actions = some tracked)
    (received : Followed tracked this object) :
    Sound ⟨tracked,
      (m.objects.insert other { object with moved := true }).insert this object⟩ := by
  apply sound.perform leaves (fun one => one = this ∨ one = other) writes ?_ reached
  · intro one copied among known
    by_cases same : one = this
    · subst same
      rw [AList.lookup_insert, Option.some.injEq] at known
      subst known
      exact received
    · have same := among.resolve_left same
      subst same
      rw [AList.lookup_insert_ne different.symm, AList.lookup_insert, Option.some.injEq] at known
      subst known
      exact (sound.followed one object found).moved kept reached
  · intro one member among _
    rw [AList.mem_insert, AList.mem_insert]
    cases among with
    | inl same => exact .inl same
    | inr same => exact .inr (.inl same)
  · intro one apart
    rw [AList.lookup_insert_ne fun same => apart (.inl same),
      AList.lookup_insert_ne fun same => apart (.inr same)]

theorem Sound.moveConstruct (sound : m.Sound) (found : m.objects.lookup other = some object)
    (taking : m.perform (m.moveMembers this other)
      ((m.objects.insert other { object with moved := true }).insert this object) = some next) :
    next.Sound := by
  obtain ⟨tracked, reached, rfl⟩ := perform_eq_some.mp taking
  have leaves : m.tracked.LeaveOwners (m.moveMembers this other) := by
    apply meets_of_forall
    unfold moveMembers
    split <;> simp [TrackedMemory.LeavesOwner]
  have writes : ∀ action ∈ m.moveMembers this other, ∀ name, Writes action name →
      name.1 = this ∨ name.1 = other := by
    unfold moveMembers
    split <;> simp +contextual [Writes, or_imp]
  unfold moveMembers at reached leaves
  obtain ⟨t, first, _⟩ := run_cons.mp reached
  have absent := (Option.ite_none_left_eq_some.mp first).1
  have different : this ≠ other := by
    intro same
    apply sound.unknown absent
    rw [same]
    exact mem_of_lookup found
  apply sound.moved found different leaves writes ?_ reached
  · apply sound.copied found leaves reached (.inr (.inr (.inl rfl)))
    · simp [Writes]
    · split <;> simp [Writes]
    · intro engaged
      exact ⟨_, by rw [if_pos engaged], .inr (.inr (.inl rfl))⟩
    · intro disengaged
      rw [disengaged] at reached
      exact sound.disengaged absent (run_singleton.mp reached) (by simp [Present])
  · split <;> simp [Present, different.symm]

theorem Sound.moveAssign (sound : m.Sound) (found : m.objects.lookup other = some object)
    (different : this ≠ other)
    (leaves : m.tracked.LeaveOwners (m.assignMembers this other))
    (taking : m.perform (m.assignMembers this other)
      ((m.objects.insert other { object with moved := true }).insert this object) = some next) :
    next.Sound := by
  obtain ⟨tracked, reached, rfl⟩ := perform_eq_some.mp taking
  have writes : ∀ action ∈ m.assignMembers this other, ∀ name, Writes action name →
      name.1 = this ∨ name.1 = other := by
    unfold assignMembers
    split <;> simp +contextual [Writes, or_imp]
  have kept : ∀ action ∈ m.assignMembers this other, ∀ there member,
      Present there action (other, member) ↔ there (other, member) := by
    unfold assignMembers
    split <;> simp [Present, different.symm]
  apply sound.moved found different leaves writes kept reached
  unfold assignMembers at reached leaves
  apply sound.copied found leaves reached (.inr (.inr (.inr rfl)))
  · simp [Writes, different.symm]
  · split <;> simp [Writes]
  · intro engaged
    rw [engaged]
    cases m.engaged this with
    | true => exact ⟨_, rfl, .inr (.inr (.inr rfl))⟩
    | false => exact ⟨_, rfl, .inr (.inr (.inl rfl))⟩
  · intro disengaged there
    rw [disengaged] at reached
    obtain ⟨t, first, later⟩ := run_cons.mp reached
    cases present : m.engaged this with
    | true =>
      rw [present] at later
      have later := run_singleton.mp later
      exact ((mem_step later).mp there).1 rfl
    | false =>
      rw [present] at later
      cases later
      have old := (mem_step first).mp there
      unfold engaged at present
      exact (of_decide_eq_false present) old

/-- Moving an object to itself changes nothing. -/
theorem Sound.selfAssign (sound : m.Sound) (same : this = other)
    (taking : m.perform (m.assignMembers this other) m.objects = some next) : next.Sound := by
  subst same
  have unchanged : ∀ member t, m.tracked.step (.moveAssign (this, member) (this, member)) = some t →
      t = m.tracked := by
    intro member t taken
    obtain ⟨_, taken⟩ := Option.ite_none_right_eq_some.mp taken
    obtain ⟨object, _, rfl⟩ := Option.map_eq_some_iff.mp taken
    simp [TrackedMemory.moveAssign]
  obtain ⟨tracked, reached, rfl⟩ := perform_eq_some.mp taking
  obtain ⟨t, first, later⟩ := run_cons.mp reached
  have first := unchanged .ctx t first
  subst first
  cases engaged : m.engaged this with
  | true =>
    rw [engaged] at later
    rw [unchanged .detoastedCtx tracked (run_singleton.mp later)]
    exact sound
  | false =>
    rw [engaged] at later
    cases later
    exact sound

theorem Sound.destroy (sound : m.Sound)
    (taking : m.perform (m.destroyMembers this) (m.objects.erase this) = some next) :
    next.Sound := by
  obtain ⟨tracked, reached, rfl⟩ := perform_eq_some.mp taking
  have leaves : m.tracked.LeaveOwners (m.destroyMembers this) := by
    apply meets_of_forall
    unfold destroyMembers
    split <;> simp [TrackedMemory.LeavesOwner]
  have writes : ∀ action ∈ m.destroyMembers this, ∀ name, Writes action name → name.1 = this := by
    unfold destroyMembers
    split <;> simp [Writes]
  apply sound.perform leaves (fun one => one = this) writes ?_ reached
  · intro one object same known
    rw [same, AList.lookup_erase] at known
    cases known
  · intro one member same there
    subst same
    unfold destroyMembers at reached
    rw [run_append] at reached
    obtain ⟨t, first, later⟩ := Option.bind_eq_some_iff.mp reached
    have present := (mem_step (run_singleton.mp later)).mp there
    cases member with
    | ctx => exact absurd rfl present.1
    | detoastedCtx =>
      cases engaged : m.engaged one with
      | true =>
        rw [engaged] at first
        exact absurd rfl ((mem_step (run_singleton.mp first)).mp present.2).1
      | false =>
        rw [engaged] at first
        cases first
        unfold VarlenaMemory.engaged at engaged
        exact absurd present.2 (of_decide_eq_false engaged)
  · intro one apart
    exact AList.lookup_erase_ne apart

/-- All that a read can do: nothing, or caching a copy that it makes, or caching the
source. -/
theorem read_cases {currentMemoryContext : Nat} {reading : Reading}
    (taking : m.read this currentMemoryContext = some (reading, next)) :
    next = m ∨ ∃ object owner varlena, m.objects.lookup this = some object ∧
      object.detoasted = none ∧
      m.tracked.memory.chunks object.valueDatum = some (owner, varlena) ∧
      ((∃ isLive : m.tracked.memory.live currentMemoryContext,
        perform ⟨{ m.tracked with memory :=
            m.tracked.memory.alloc currentMemoryContext ⟨false, varlena.bytes⟩ isLive }, m.objects⟩
          (m.trackCopy this currentMemoryContext)
          (m.objects.insert this { object with detoasted := some m.tracked.memory.fresh }) =
            some next) ∨
        m.perform (m.trackSource this)
          (m.objects.insert this { object with detoasted := some object.valueDatum }) =
            some next) := by
  unfold read at taking
  simp only [Option.bind_eq_bind, Option.bind_eq_some_iff] at taking
  obtain ⟨object, found, taking⟩ := taking
  cases pointers : object.detoasted with
  | some pointer =>
    simp only [pointers, Option.some.injEq, Prod.mk.injEq] at taking
    exact .inl taking.2.symm
  | none =>
    simp only [pointers, Option.bind_eq_some_iff] at taking
    obtain ⟨ctx, _, taking⟩ := taking
    split at taking
    · simp only [Option.some.injEq, Prod.mk.injEq] at taking
      exact .inl taking.2.symm
    · cases held : m.tracked.memory.chunks object.valueDatum with
      | none =>
        simp only [held, Option.some.injEq, Prod.mk.injEq] at taking
        exact .inl taking.2.symm
      | some chunk =>
        obtain ⟨owner, varlena⟩ := chunk
        simp only [held] at taking
        refine .inr ⟨object, owner, varlena, found, pointers, held, ?_⟩
        split at taking
        · obtain ⟨isLive, taking⟩ := Option.dite_none_right_eq_some.mp taking
          obtain ⟨_, performed, same⟩ := Option.bind_eq_some_iff.mp taking
          cases same
          exact .inl ⟨isLive, performed⟩
        · obtain ⟨_, performed, same⟩ := Option.bind_eq_some_iff.mp taking
          cases same
          exact .inr performed

/-- An object that caches what it reads for the first time. -/
theorem Sound.cache (sound : m.Sound) (found : m.objects.lookup this = some object)
    {action : TrackingAction (ω × VarlenaMember)} {pointer : Nat}
    (leaves : m.tracked.LeaveOwners [action])
    (writes : ∀ name, Writes action name ↔ name = (this, .detoastedCtx))
    (made : (this, .detoastedCtx) ∈ tracked.trackers)
    (tells : object.moved = false →
      tracked.Follows (this, .detoastedCtx) pointer fun varlena => varlena.bytes = object.value)
    (reached : run TrackedMemory.step m.tracked [action] = some tracked) :
    Sound ⟨tracked, m.objects.insert this { object with detoasted := some pointer }⟩ := by
  have followed := sound.followed this object found
  apply sound.perform leaves (fun one => one = this) ?_ ?_ reached
  · intro one cached same known
    subst same
    rw [AList.lookup_insert, Option.some.injEq] at known
    subst known
    have apart : ¬ Writes action (one, .ctx) := by simp [writes]
    refine ⟨fun unmoved => ?_, ?_, ?_, ?_⟩
    · exact follows_run sound.tracked leaves (followed.source unmoved) (by simpa using apart) reached
    · intro unmoved other same
      cases same
      exact tells unmoved
    · refine (mem_run ?_ reached).mpr followed.base
      simpa using fun there => present_of_untouched apart
    · simpa using made
  · intro one member same _
    rw [same]
    exact (AList.mem_insert _).mpr (.inl rfl)
  · intro listed member name wrote
    rw [List.mem_singleton.mp member, writes] at wrote
    rw [wrote]
  · intro one different
    exact AList.lookup_insert_ne different

theorem Sound.read (sound : m.Sound) {currentMemoryContext : Nat} {reading : Reading}
    (taking : m.read this currentMemoryContext = some (reading, next)) : next.Sound := by
  cases read_cases taking with
  | inl same =>
    rw [same]
    exact sound
  | inr caching =>
    obtain ⟨object, owner, varlena, found, pointers, held, caching⟩ := caching
    have disengaged : m.engaged this = false := by
      rw [sound.engaged_eq found, pointers]
      rfl
    cases caching with
    | inl copying =>
      obtain ⟨isLive, performed⟩ := copying
      obtain ⟨tracked, reached, rfl⟩ := perform_eq_some.mp performed
      simp only [trackCopy, disengaged, Bool.false_eq_true, if_false, List.nil_append] at reached
      have allocated := @Sound.alloc _ _ _ sound currentMemoryContext ⟨false, varlena.bytes⟩ isLive
      have taken := run_singleton.mp reached
      apply allocated.cache found (meets_of_forall (by simp [TrackedMemory.LeavesOwner]))
        (by simp [Writes]) ((mem_step taken).mpr (.inl rfl)) ?_ reached
      intro unmoved
      obtain ⟨_, taken⟩ := Option.ite_none_left_eq_some.mp taken
      obtain ⟨stillLive, same⟩ := Option.dite_none_right_eq_some.mp taken
      cases same
      apply @follows_construct _ _ _ _ _ _ _ _ ⟨false, varlena.bytes⟩ stillLive
      · simp [Store.alloc]
      · obtain ⟨_, _, _, _, told⟩ := (sound.followed this object found).source unmoved
        rw [held] at told
        cases told with
        | inl gone => cases gone.2
        | inr there =>
          obtain ⟨_, contents, same, right⟩ := there
          cases same
          exact right
    | inr performed =>
      obtain ⟨tracked, reached, rfl⟩ := perform_eq_some.mp performed
      simp only [trackSource, disengaged, Bool.false_eq_true, if_false] at reached
      have taken := run_singleton.mp reached
      apply sound.cache found (meets_of_forall (by simp [TrackedMemory.LeavesOwner]))
        (by simp [Writes]) ((mem_step taken).mpr (.inl rfl)) ?_ reached
      intro unmoved
      exact follows_copied ((sound.followed this object found).source unmoved) (.inl rfl) taken

/-! ## Runs -/

theorem start_sound : (start : VarlenaMemory ω).Sound where
  tracked := start_tracked
  followed this object found := by simp [start] at found
  members name there := by simp [start, TrackedMemory.start] at there

theorem sound_step {action : VarlenaAction ω} (sound : m.Sound) (leaves : m.LeavesOwner action)
    (taking : m.step action = some next) : next.Sound := by
  cases action with
  | create parent => exact sound.onContexts (.create parent) (fun _ => trivial) (fun _ => id) taking
  | reset ctx => exact sound.onContexts (.reset ctx) (fun _ => trivial) (fun _ => id) taking
  | delete ctx => exact sound.onContexts (.delete ctx) (fun _ => trivial) (fun _ => id) taking
  | alloc ctx varlena =>
    obtain ⟨isLive, same⟩ := Option.dite_none_right_eq_some.mp taking
    cases same
    exact sound.alloc isLive
  | construct this source =>
    obtain ⟨⟨owner, varlena⟩, held, taking⟩ := Option.bind_eq_some_iff.mp taking
    exact sound.constructOver held (fun _ => rfl) taking
  | copyConstruct this other =>
    obtain ⟨object, found, taking⟩ := Option.bind_eq_some_iff.mp taking
    exact sound.copyConstruct found taking
  | moveConstruct this other =>
    obtain ⟨object, found, taking⟩ := Option.bind_eq_some_iff.mp taking
    exact sound.moveConstruct found taking
  | moveAssign this other =>
    obtain ⟨object, found, taking⟩ := Option.bind_eq_some_iff.mp taking
    obtain ⟨_, taking⟩ := Option.ite_none_right_eq_some.mp taking
    by_cases same : this = other
    · rw [if_pos same] at taking
      exact sound.selfAssign same taking
    · rw [if_neg same] at taking
      exact sound.moveAssign found same leaves taking
  | destroy this =>
    obtain ⟨object, found, taking⟩ := Option.bind_eq_some_iff.mp taking
    exact sound.destroy taking
  | read this currentMemoryContext =>
    obtain ⟨⟨reading, _⟩, taking, same⟩ := Option.bind_eq_some_iff.mp taking
    obtain ⟨_, same⟩ := Option.ite_none_left_eq_some.mp same
    cases same
    exact sound.read taking

/-- In every history whose move assignments leave an owner to what they overwrite, reads
are right all along. -/
theorem reads_right (actions : List (VarlenaAction ω))
    (leaves : Meets step LeavesOwner (start : VarlenaMemory ω) actions) :
    Always step ReadsRight (start : VarlenaMemory ω) actions :=
  always_of_meets (fun _ sound => sound.readsRight)
    (fun _ _ _ sound leaves taking => sound_step sound leaves taking) start_sound leaves

/-- Two values, in a context each. -/
def twoTexts : List (VarlenaAction Bool) :=
  [.create none, .create none, .alloc 0 ⟨false, [97]⟩, .alloc 1 ⟨true, [98]⟩,
    .construct false 2, .construct true 3]

/-- Assigning to the one whose context is reset. -/
theorem reads_right_after_reset :
    Always step ReadsRight (start : VarlenaMemory Bool)
      (twoTexts ++ [.reset 0, .moveAssign false true, .read false 0]) :=
  reads_right _ (by decide +kernel)

/-- Assigning to one whose context is not: its reset writes to the state that the assignment
destroyed. -/
theorem reads_wrong_after_move :
    ¬ Always step ReadsRight (start : VarlenaMemory Bool)
      (twoTexts ++ [.moveAssign false true, .reset 0]) := by
  intro always
  have undefined : (run step (start : VarlenaMemory Bool)
      (twoTexts ++ [.moveAssign false true, .reset 0])).map
        (fun m => m.tracked.undefined) = some true := by decide +kernel
  obtain ⟨last, reached, undefined⟩ := Option.map_eq_some_iff.mp undefined
  have defined := (always_iff.mp always _ last List.prefix_rfl reached).defined
  rw [undefined] at defined
  cases defined

end VarlenaMemory
end Cppgres
