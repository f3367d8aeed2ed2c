import Cppgres.Memory.Scopes

/-!
# The current memory context outlives every program

Each scope takes the session from its entry to an opened session that its declaration and
the entry determine. While no executor is alive the current memory context is that of the
session opened last, so it is the same at the end of a program as at its start and the same
at a handler as at its try-block.
-/
namespace Cppgres
open NonLocal

namespace Session

/-- From one session to another: the same connections, and above the subtransactions that
were open only newer ones. -/
structure Since (before after : Session) : Prop where
  spi : after.spi = before.spi
  subtransactions : ∃ newer, after.subtransactions = newer ++ before.subtransactions ∧
    ∀ id ∈ newer, before.nextSubTransaction ≤ id ∧ id < after.nextSubTransaction
  nextSubTransaction : before.nextSubTransaction ≤ after.nextSubTransaction

/-- The identifiers in use were handed out: those of the open subtransactions, and those of
the subtransactions in which the connections were made. -/
structure Numbered (s : Session) : Prop where
  subtransactions : ∀ id ∈ s.subtransactions, id < s.nextSubTransaction
  spi : ∀ connection ∈ s.spi, ∀ id ∈ connection.connectSubid, id < s.nextSubTransaction

section Since
variable {s t u : Session} {id : SubTransactionId}

theorem Since.of_steady (steady : s.Steady t) : s.Since t where
  spi := steady.spi
  subtransactions := ⟨[], steady.subtransactions, by simp⟩
  nextSubTransaction := steady.nextSubTransaction

theorem Since.trans (one : s.Since t) (two : t.Since u) : s.Since u where
  spi := two.spi.trans one.spi
  subtransactions := by
    obtain ⟨newer, stack, fresh⟩ := one.subtransactions
    obtain ⟨newer', stack', fresh'⟩ := two.subtransactions
    refine ⟨newer' ++ newer, by rw [stack', stack, List.append_assoc], ?_⟩
    intro id member
    have later := two.nextSubTransaction
    have earlier := one.nextSubTransaction
    rcases List.mem_append.mp member with new | old
    · have bounds := fresh' id new
      grind
    · have bounds := fresh id old
      grind
  nextSubTransaction := Nat.le_trans one.nextSubTransaction two.nextSubTransaction

theorem Since.switched (since : s.Since t) (ctx : MemoryContext) :
    s.Since { t with currentMemoryContext := ctx } :=
  ⟨since.spi, since.subtransactions, since.nextSubTransaction⟩

theorem Numbered.since (numbered : s.Numbered) (since : s.Since t) : t.Numbered where
  subtransactions := by
    obtain ⟨newer, stack, fresh⟩ := since.subtransactions
    intro id member
    rw [stack] at member
    rcases List.mem_append.mp member with new | old
    · exact (fresh id new).2
    · exact Nat.lt_of_lt_of_le (numbered.subtransactions id old) since.nextSubTransaction
  spi := by
    rw [since.spi]
    intro connection member id made
    exact Nat.lt_of_lt_of_le (numbered.spi connection member id made) since.nextSubTransaction

/-- A connection made now belongs to a subtransaction that is open now. -/
theorem Numbered.connection (numbered : s.Numbered) (nonatomic : Bool) :
    ∀ id ∈ (s.connection nonatomic).connectSubid, id < s.nextSubTransaction :=
  fun id made => numbered.subtransactions id (List.mem_of_mem_head? made)

/-- No connection is lost with a subtransaction that was begun after all of them. -/
theorem Numbered.dropWhile_spi (numbered : s.Numbered) (since : s.nextSubTransaction ≤ id) :
    s.spi.dropWhile (fun connection => connection.connectSubid = some id) = s.spi := by
  cases spi : s.spi with
  | nil => rfl
  | cons connection outer =>
    apply List.dropWhile_cons_of_neg
    intro made
    have below := numbered.spi connection (by simp [spi]) id (by simpa using made)
    grind

end Since

/-! ## One level -/

/-- The session with a subtransaction begun. -/
def level (s : Session) : Session :=
  { s with
    subtransactions := s.nextSubTransaction :: s.subtransactions
    nextSubTransaction := s.nextSubTransaction + 1 }

section Level
variable {s t : Session} {id : SubTransactionId} {outer : List SubTransactionId}

theorem Numbered.level (numbered : s.Numbered) : s.level.Numbered where
  subtransactions := by
    intro id member
    rcases List.mem_cons.mp member with same | old
    · subst same
      exact Nat.lt_succ_self _
    · exact Nat.lt_succ_of_lt (numbered.subtransactions id old)
  spi connection member id made := Nat.lt_succ_of_lt (numbered.spi connection member id made)

/-- Whatever the innermost subtransaction is by now, it is not an older one. -/
theorem Since.level_head (since : s.level.Since t) (top : t.subtransactions = id :: outer) :
    s.nextSubTransaction ≤ id ∧ ∃ newer, outer = newer ++ s.subtransactions ∧
      ∀ other ∈ newer, s.nextSubTransaction ≤ other ∧ other < t.nextSubTransaction := by
  obtain ⟨newer, stack, fresh⟩ := since.subtransactions
  have below : s.nextSubTransaction + 1 ≤ t.nextSubTransaction := since.nextSubTransaction
  have new (other : SubTransactionId) (member : other ∈ newer) :
      s.nextSubTransaction + 1 ≤ other ∧ other < t.nextSubTransaction := fresh other member
  rw [top] at stack
  cases newer with
  | nil =>
    injection stack with head tail
    refine ⟨Nat.le_of_eq head.symm, [], tail, ?_⟩
    simp
  | cons first rest =>
    injection stack with head tail
    have here := new first List.mem_cons_self
    refine ⟨by grind, rest ++ [s.nextSubTransaction], ?_, ?_⟩
    · rw [tail, List.append_assoc]
      rfl
    · intro other member
      rcases List.mem_append.mp member with later | same
      · have there := new other (List.mem_cons_of_mem _ later)
        grind
      · rw [List.mem_singleton.mp same]
        grind

theorem Since.level_settle (numbered : s.Numbered) (since : s.level.Since t)
    (top : t.subtransactions = id :: outer) (fate : Fate) : s.Since (t.settle fate id outer) := by
  have ⟨new, above⟩ := since.level_head top
  have kept : (t.settle fate id outer).spi = s.spi := by
    have same : t.spi = s.spi := since.spi
    have spi : (t.settle fate id outer).spi =
        t.spi.dropWhile fun connection => connection.connectSubid = some id := by
      cases fate <;> rfl
    rw [spi, same]
    exact numbered.dropWhile_spi new
  refine ⟨kept, ?_, ?_⟩
  · rw [settle_subtransactions, settle_nextSubTransaction]
    exact above
  · rw [settle_nextSubTransaction]
    exact Nat.le_trans (Nat.le_succ _) since.nextSubTransaction

/-- The level itself, as long as it is open. -/
theorem Since.level_open (since : s.level.Since t) : s.Since t where
  spi := since.spi
  subtransactions := by
    obtain ⟨newer, stack, fresh⟩ := since.subtransactions
    have below : s.nextSubTransaction + 1 ≤ t.nextSubTransaction := since.nextSubTransaction
    refine ⟨newer ++ [s.nextSubTransaction], by rw [stack, List.append_assoc]; rfl, ?_⟩
    intro id member
    rcases List.mem_append.mp member with new | same
    · have bounds : s.nextSubTransaction + 1 ≤ id ∧ id < t.nextSubTransaction := fresh id new
      grind
    · rw [List.mem_singleton.mp same]
      grind
  nextSubTransaction := Nat.le_trans (Nat.le_succ _) since.nextSubTransaction

/-- The end of a level, whether it succeeds or fails. -/
theorem Since.level_ended (numbered : s.Numbered) (since : s.level.Since t) (fate : Fate) :
    s.Since (InternalSubtransaction.impendingCall fate t).2 := by
  cases fate with
  | released =>
    change s.Since t.releaseCurrentSubTransaction.2
    cases failure : t.releaseFailure with
    | some edata =>
      rw [releaseCurrentSubTransaction_error failure]
      exact since.level_open.trans (.of_steady ⟨rfl, rfl, Nat.le_refl _⟩)
    | none =>
      cases top : t.subtransactions with
      | nil =>
        unfold releaseFailure at failure
        rw [top] at failure
        cases failure
      | cons id outer =>
        rw [releaseCurrentSubTransaction_ok top failure]
        exact since.level_settle numbered top .released
  | rolledBack =>
    change s.Since t.rollbackAndReleaseCurrentSubTransaction.2
    cases top : t.subtransactions with
    | nil =>
      unfold rollbackAndReleaseCurrentSubTransaction
      rw [top]
      exact since.level_open
    | cons id outer =>
      rw [rollbackAndReleaseCurrentSubTransaction_ok top]
      exact since.level_settle numbered top .rolledBack

end Level

end Session

/-! ## What each scope does to the session -/

section Scopes
variable {α : Type} {s : Machine Backend} {entry : Session}

/-- The constructor's argument to SPI. -/
def ExecutorDecl.nonatomicOpt : ExecutorDecl → Bool
  | .plain nonatomicOpt => nonatomicOpt
  | .nonatomic => true

/-- The session that the body of a scope starts in, up to what no scope restores. -/
def Session.opened (entry : Session) : ContextDecl → Session
  | .scope ctx => { entry with currentMemoryContext := ctx }
  | .execution ctx => { entry with currentMemoryContext := ctx }
  | .subtransaction _ => entry.level
  | .executor decl => { entry with spi := entry.connection decl.nonatomicOpt :: entry.spi }

/-- The object that a constructor makes of its declaration, as far as its destructor needs it. -/
inductive Made (entry : Session) : ContextDecl → ContextObj → Prop where
  | scope (ctx : MemoryContext) :
    Made entry (.scope ctx) (.scope ⟨entry.currentMemoryContext, ctx⟩)
  | execution (ctx : MemoryContext) :
    Made entry (.execution ctx) (.execution ⟨entry.currentMemoryContext⟩)
  | subtransaction (decl : SubtransactionDecl) (guard : InternalSubtransaction)
    (ctx : guard.ctx = entry.currentMemoryContext) (unfinished : guard.finished = false) :
    Made entry (.subtransaction decl) (.subtransaction guard)
  | executor (decl : ExecutorDecl) (this : SpiExecutor) :
    Made entry (.executor decl) (.executor this)

theorem Made.executor?_eq_none {decl : ContextDecl} {obj : ContextObj}
    (made : Made entry decl obj) :
    obj.executor? = none ↔ ∀ executor, decl ≠ .executor executor := by
  cases made <;> simp [ContextObj.executor?]

/-- What a scope leaves of its entry: the session it is to leave, with the current memory
context of the entry. -/
def Session.Left (entry after : Session) : Prop :=
  entry.Since after ∧ after.currentMemoryContext = entry.currentMemoryContext

/-- What a constructor that returns makes of the entry. -/
def Session.Entered (entry : Session) (decl : ContextDecl) (after : Session) : Prop :=
  (entry.opened decl).Since after ∧
    after.currentMemoryContext = match decl with
      | .scope ctx => ctx
      | .execution ctx => ctx
      | .subtransaction _ => entry.currentMemoryContext
      | .executor _ => entry.currentMemoryContext

theorem Session.Numbered.opened (numbered : entry.Numbered) (decl : ContextDecl) :
    (entry.opened decl).Numbered := by
  cases decl with
  | scope ctx => exact ⟨numbered.subtransactions, numbered.spi⟩
  | execution ctx => exact ⟨numbered.subtransactions, numbered.spi⟩
  | subtransaction decl => exact numbered.level
  | executor decl =>
    refine ⟨numbered.subtransactions, ?_⟩
    intro connection member
    rcases List.mem_cons.mp member with same | old
    · rw [same]
      exact numbered.connection _
    · exact numbered.spi connection old

/-! ### Constructors -/

theorem InternalSubtransaction.construct_entered (decl : SubtransactionDecl) :
    (construct decl).Ends s
      (fun guard b => Made s.store.session (.subtransaction decl) (.subtransaction guard) ∧
        s.store.session.Entered (.subtransaction decl) b.session)
      fun _ b => s.store.session.Left b.session := by
  obtain ⟨t, run, count, session⟩ := construct_apply decl s
  refine .of_returned run count ⟨.subtransaction decl _ rfl rfl, ?_⟩
  rw [session]
  exact ⟨.of_steady ⟨rfl, rfl, Nat.le_refl _⟩, rfl⟩

theorem SpiExecutor.connect_entered (nonatomicOpt : Bool) :
    (connect nonatomicOpt).Ends s
      (fun _ b => s.store.session.Entered (.executor (.plain nonatomicOpt)) b.session)
      fun _ b => s.store.session.Left b.session := by
  refine .get_bind (.after (Code.modify_apply _ _) rfl ?_)
  have called : (ffiGuard (postgres (·.spiConnectExt nonatomicOpt))).Ends
      { s with store := { s.store with nextAddress := s.store.nextAddress + 1 } }
      (fun _ b => b.session = s.store.session.connected nonatomicOpt)
      fun _ b => s.store.session.Left b.session := by
    apply ends_ffiGuard_postgres
    · intro rc session elog run
      obtain ⟨_, rfl⟩ | ⟨_, failed, _⟩ := Session.spiConnectExt_cases run
      · rfl
      · cases failed
    · intro edata session exception elog run
      obtain ⟨connected, _⟩ | ⟨_, _, rfl⟩ := Session.spiConnectExt_cases run
      · cases connected
      · exact ⟨.of_steady ⟨rfl, rfl, Nat.le_refl _⟩, rfl⟩
  refine .bind called ?_ fun _ _ left => left
  intro _ t _ connected
  have since : (s.store.session.opened (.executor (.plain nonatomicOpt))).Since t.store.session := by
    rw [connected]
    exact .of_steady ⟨rfl, rfl, Nat.le_refl _⟩
  refine .get_bind (.after (modifySession_apply _ _) rfl (.after (Code.modify_apply _ _) rfl ?_))
  exact .pure ⟨since.switched _, rfl⟩

/-- `SPI_finish` goes back to what the connection saved. -/
theorem SpiExecutor.destroy_left (this : SpiExecutor) {decl : ExecutorDecl}
    (since : (entry.opened (.executor decl)).Since s.store.session) :
    this.destroy.Ends s (fun _ b => entry.Left b.session) fun _ _ => False := by
  have connected : s.store.session.spi = entry.connection decl.nonatomicOpt :: entry.spi := since.spi
  have run : s.store.session.spiFinish = (.ok spiOkFinish, { s.store.session with
      spi := entry.spi
      currentMemoryContext := entry.currentMemoryContext }) := by
    unfold Session.spiFinish
    rw [connected]
    rfl
  refine .after (ffiGuard_postgres_ok run) rfl (.of_returned (Code.modify_apply _ _) rfl ?_)
  exact ⟨⟨rfl, since.subtransactions, since.nextSubTransaction⟩, rfl⟩

theorem SpiExecutor.construct_entered (decl : ExecutorDecl) :
    (construct decl).Ends s
      (fun _ b => s.store.session.Entered (.executor decl) b.session)
      fun _ b => s.store.session.Left b.session := by
  cases decl with
  | plain nonatomicOpt => exact connect_entered nonatomicOpt
  | nonatomic =>
    refine .bind (connect_entered true) ?_ fun _ _ left => left
    intro this t _ entered
    have checked : (Code.leaving checkContext fun unwinding =>
        if unwinding then this.destroy else pure ()).Ends t
        (fun _ b => s.store.session.Entered (.executor .nonatomic) b.session)
        fun _ b => s.store.session.Left b.session := by
      refine .leaving ends_checkContext ?_ ?_
      · intro _ u _ same
        exact .pure (same ▸ entered)
      · intro _ u _ same
        have since : (s.store.session.opened (.executor .nonatomic)).Since u.store.session :=
          same ▸ entered.1
        exact (destroy_left this since).mono (fun _ _ left => left) fun _ _ never => never.elim
    exact .bind checked (fun _ u _ entered => .pure entered) fun _ _ left => left

/-- Every constructor. One that throws leaves the session as a whole scope does. -/
theorem ContextObj.construct_entered (decl : ContextDecl) :
    (construct decl).Ends s
      (fun obj b => Made s.store.session decl obj ∧ s.store.session.Entered decl b.session)
      fun _ b => s.store.session.Left b.session := by
  cases decl with
  | scope ctx =>
    exact .of_returned rfl rfl ⟨.scope ctx, .of_steady ⟨rfl, rfl, Nat.le_refl _⟩, rfl⟩
  | execution ctx =>
    exact .of_returned rfl rfl ⟨.execution ctx, .of_steady ⟨rfl, rfl, Nat.le_refl _⟩, rfl⟩
  | subtransaction decl =>
    exact .bind (InternalSubtransaction.construct_entered decl) (fun _ _ _ post => .pure post)
      fun _ _ left => left
  | executor decl =>
    exact .bind (SpiExecutor.construct_entered decl)
      (fun this _ _ entered => .pure ⟨.executor decl this, entered⟩) fun _ _ left => left

/-! ### Destructors -/

/-- The destructor of an unfinished guard, whatever its release or rollback comes to. -/
theorem InternalSubtransaction.destroy_left {this : InternalSubtransaction}
    (numbered : entry.Numbered) (since : entry.level.Since s.store.session)
    (ctx : this.ctx = entry.currentMemoryContext) (unfinished : this.finished = false) :
    this.destroy.Ends s (fun _ b => entry.Left b.session) fun _ _ => False := by
  have called : (ffiGuard this.finish).Ends s (fun _ b => entry.Since b.session)
      fun _ b => entry.Since b.session :=
    .congr (ffiGuard_congr finish_entry)
      ((ends_ffiGuard_session (fun _ ctx since => since.switched ctx)
        (since.level_ended numbered (this.impending s))).mono
        (fun _ _ post => post.1) fun _ _ post => post.1)
  have warned : (ffiGuardNoexcept this.finish
      "cppgres: finishing internal subtransaction failed").Ends s
      (fun _ b => entry.Since b.session) fun _ _ => False := by
    refine .catching called (fun _ _ since => since) ?_
    intro exception t _ since
    refine .after (modifyElog_apply _ t) rfl ?_
    cases exception <;> exact .of_returned rfl rfl since
  unfold destroy
  rw [if_neg (by simp [unfinished])]
  refine .bind warned ?_ fun _ _ never => never
  intro _ t _ since
  exact .of_returned (modifySession_apply _ t) rfl
    ⟨⟨since.spi, since.subtransactions, since.nextSubTransaction⟩, ctx⟩

/-- Every destructor, at the end of every body. -/
theorem ContextObj.destroy_left {decl : ContextDecl} {obj : ContextObj} (numbered : entry.Numbered)
    (made : Made entry decl obj) (since : (entry.opened decl).Since s.store.session) :
    obj.destroy.Ends s (fun _ b => entry.Left b.session) fun _ _ => False := by
  cases made with
  | scope ctx =>
    exact .of_returned rfl rfl
      ⟨⟨since.spi, since.subtransactions, since.nextSubTransaction⟩, rfl⟩
  | execution ctx =>
    exact .of_returned rfl rfl
      ⟨⟨since.spi, since.subtransactions, since.nextSubTransaction⟩, rfl⟩
  | subtransaction decl guard ctx unfinished =>
    exact InternalSubtransaction.destroy_left numbered since ctx unfinished
  | executor decl this => exact this.destroy_left since

end Scopes

/-! ## Runs -/

section Runs
variable {V : Type} {pgMajorversionNum : Nat} {catalog : Catalog} {outside now : Session}
  {live rest : List (Live (contextScopes V pgMajorversionNum catalog))}
  {object : Live (contextScopes V pgMajorversionNum catalog)}
  {s : Machine (Stage (contextScopes V pgMajorversionNum catalog))}

/-- The executors of a program that are alive, innermost first. -/
def liveExecutors (live : List (Live (contextScopes V pgMajorversionNum catalog))) :
    List SpiExecutor :=
  live.filterMap fun object => object.obj.executor?

/-- The session opened last: by the innermost scope, or before the program. -/
def ground (outside : Session) :
    List (Live (contextScopes V pgMajorversionNum catalog)) → Session
  | [] => outside
  | object :: _ => object.entry.store.session.opened object.decl

/-- What holds of the session while these objects are alive. -/
structure Holds (outside : Session)
    (live : List (Live (contextScopes V pgMajorversionNum catalog))) (now : Session) : Prop where
  numbered : now.Numbered
  since : (ground outside live).Since now
  context : liveExecutors live = [] →
    now.currentMemoryContext = (ground outside live).currentMemoryContext

/-- Each object was made in a session of the objects around it. -/
def Nesting (outside : Session) :
    List (Live (contextScopes V pgMajorversionNum catalog)) → Prop
  | [] => True
  | object :: rest =>
    Made object.entry.store.session object.decl object.obj ∧
      Holds outside rest object.entry.store.session ∧ Nesting outside rest

/-- The invariant, as a property of the world and its objects. -/
def ContextKept (outside : Session) (b : Backend)
    (live : List (Live (contextScopes V pgMajorversionNum catalog))) : Prop :=
  Holds outside live b.session ∧ Nesting outside live

theorem Holds.later {after : Session} (holds : Holds outside live now) (since : now.Since after)
    (context : liveExecutors live = [] →
      after.currentMemoryContext = now.currentMemoryContext) : Holds outside live after where
  numbered := holds.numbered.since since
  since := holds.since.trans since
  context none := (context none).trans (holds.context none)

/-- The end of a scope is a step of the code around it. -/
theorem Holds.left {after : Session} (holds : Holds outside live now) (left : now.Left after) :
    Holds outside live after :=
  holds.later left.1 fun _ => left.2

theorem Holds.entered {after : Session} {decl : ContextDecl} {obj : ContextObj} {entry : Machine Backend}
    {enclosing : List ContextObj} (holds : Holds outside live entry.store.session)
    (made : Made entry.store.session decl obj) (entered : entry.store.session.Entered decl after) :
    Holds outside (⟨obj, decl, entry, enclosing⟩ :: live) after where
  numbered := (holds.numbered.opened decl).since entered.1
  since := entered.1
  context none := by
    cases made with
    | scope ctx => exact entered.2
    | execution ctx => exact entered.2
    | subtransaction decl guard ctx unfinished => exact entered.2
    | executor decl this => cases none

/-! ### Each action keeps the invariant -/

theorem contexts_act (call : GuardedCall) (has : Stage.Has (ContextKept outside) s) :
    Keeps (Stage.Has (ContextKept outside)) s.uncaught
      ((contextScopes V pgMajorversionNum catalog).acting call s) := by
  apply Action.keeps
  have called := ends_ffiGuard_session (s := Stage.machine s) (f := call.call)
    (P := s.store.world.session.Steady) (fun _ ctx steady => steady.switched ctx) (call.steady _)
  apply called.mono
  · rintro value b ⟨steady, run⟩
    refine ⟨has.1.later (.of_steady steady) fun _ => ?_, has.2⟩
    have kept := call.context _ (congrArg Prod.fst run)
    rwa [run] at kept
  · rintro exception b ⟨steady, kept⟩
    exact ⟨has.1.later (.of_steady steady) fun _ => kept, has.2⟩

theorem contexts_drop (exception : CppException) (has : Stage.Has (ContextKept outside) s) :
    Keeps (Stage.Has (ContextKept outside)) s.uncaught
      ((contextScopes V pgMajorversionNum catalog).dropping exception s) := by
  apply Action.keeps
  cases exception <;> exact .of_returned rfl rfl has

/-- Nothing is asked of the current memory context while an executor is alive. -/
theorem ContextKept.steady {b c : Backend} {this : SpiExecutor} (kept : ContextKept outside b live)
    (alive : this ∈ liveExecutors live) (steady : b.session.Steady c.session) :
    ContextKept outside c live :=
  ⟨kept.1.later (.of_steady steady) fun none => (List.ne_nil_of_mem alive none).elim, kept.2⟩

theorem contexts_call {index : Nat} {op : SpiOp V}
    (has : Stage.Has (ContextKept outside) s) (found : s.store.live[index]? = some object) :
    Keeps (Stage.Has (ContextKept outside)) s.uncaught
      ((contextScopes V pgMajorversionNum catalog).calling index op object s) := by
  apply GuardClass.calling_keeps
  obtain ⟨obj, decl, entry, enclosing⟩ := object
  -- no operation changes its object
  have same : s.store.live.set index ⟨obj, decl, entry, enclosing⟩ = s.store.live := by
    obtain ⟨bound, here⟩ := List.getElem?_eq_some_iff.mp found
    rw [← here, List.set_getElem_self]
  have unchanged : (pure obj : Cpp ContextObj).Ends (Stage.machine s)
      (fun obj b => ContextKept outside b (s.store.live.set index ⟨obj, decl, entry, enclosing⟩))
      fun _ b => ContextKept outside b s.store.live := by
    apply Code.Ends.pure
    rw [same]
    exact has
  cases obj with
  | executor this =>
    have alive : this ∈ liveExecutors s.store.live :=
      List.mem_filterMap.mpr ⟨_, List.mem_of_getElem? found, rfl⟩
    have operated {m : Cpp Unit} (steady : EndsSteady m (Stage.machine s)) :
        (do m; pure (ContextObj.executor this) : Cpp ContextObj).Ends (Stage.machine s)
          (fun obj b => ContextKept outside b
            (s.store.live.set index ⟨obj, decl, entry, enclosing⟩))
          fun _ b => ContextKept outside b s.store.live := by
      refine .bind steady ?_ fun _ _ later => has.steady alive later
      intro _ t _ later
      apply Code.Ends.pure
      rw [same]
      exact has.steady alive later
    cases op with
    | operate op => exact operated (op.steady_run)
    | other call => exact operated (.guarded (call.steady _))
  | scope this => cases op <;> exact unchanged
  | execution this => cases op <;> exact unchanged
  | subtransaction guard => cases op <;> exact unchanged

theorem contexts_open (decl : ContextDecl) (has : Stage.Has (ContextKept outside) s) :
    Keeps (Stage.Has (ContextKept outside)) s.uncaught
      ((contextScopes V pgMajorversionNum catalog).opening decl s) := by
  apply GuardClass.opening_keeps
  refine (ContextObj.construct_entered decl).mono ?_ ?_
  · intro obj b ⟨made, entered⟩
    exact ⟨has.1.entered made entered, made, has.1, has.2⟩
  · intro exception b left
    exact ⟨has.1.left left, has.2⟩

theorem contexts_close {unwinding : Bool} (has : Stage.Has (ContextKept outside) s)
    (live : s.store.live = object :: rest) :
    Keeps (Stage.Has (ContextKept outside)) s.uncaught
      ((contextScopes V pgMajorversionNum catalog).closing unwinding s) := by
  apply GuardClass.closing_keeps live
  unfold Stage.Has ContextKept at has
  rw [live] at has
  obtain ⟨holds, made, around, nesting⟩ := has
  have since : (object.entry.store.session.opened object.decl).Since
      (Stage.machine s).store.session := holds.since
  refine (ContextObj.destroy_left around.numbered made since).mono ?_ fun _ _ never => never.elim
  intro _ b left
  exact ⟨around.left left, nesting⟩

theorem contexts_rules (outside : Session) :
    Unconditional (contextScopes V pgMajorversionNum catalog) (Stage.Has (ContextKept outside)) where
  act call _ has _ := ⟨trivial, contexts_act call has⟩
  call _ _ _ _ has found _ := ⟨trivial, contexts_call has found⟩
  open_ decl _ has _ := ⟨trivial, contexts_open decl has⟩
  close _ _ _ _ _ has live _ _ _ := ⟨trivial, contexts_close has live⟩
  drop exception _ has _ := ⟨trivial, contexts_drop exception has⟩
  uncaught _ _ has := has

/-- The session opened last depends on how the objects came to be, not on what they are. -/
theorem ground_congr {live' : List (Live (contextScopes V pgMajorversionNum catalog))}
    (same : live'.map Live.origin = live.map Live.origin) :
    ground outside live' = ground outside live := by
  cases live with
  | nil =>
    rw [List.map_eq_nil_iff.mp same]
  | cons object rest =>
    obtain ⟨object', rest', rfl, origin, _⟩ := List.map_eq_cons_iff.mp same
    have decl : object'.decl = object.decl := congrArg (·.1) origin
    have entry : object'.entry = object.entry := congrArg (·.2.1) origin
    simp only [ground, decl, entry]

/-- An object stays of the class that its declaration says. -/
theorem Nesting.liveExecutors_eq_nil (nesting : Nesting outside live) :
    liveExecutors live = [] ↔
      ∀ origin ∈ live.map Live.origin, ∀ decl, origin.1 ≠ ContextDecl.executor decl := by
  unfold liveExecutors
  rw [List.filterMap_eq_nil_iff]
  induction live with
  | nil => simp
  | cons object rest ih =>
    obtain ⟨made, _, below⟩ := nesting
    have here : object.obj.executor? = none ↔
        ∀ decl, object.origin.1 ≠ ContextDecl.executor decl := made.executor?_eq_none
    rw [List.map_cons, List.forall_mem_cons, List.forall_mem_cons, ih below, here]

end Runs

/-- `CurrentMemoryContext` outlives every program, however the program is left, and wherever
no executor of the program is alive it outlives every try-block that an exception ends. -/
theorem currentMemoryContext_preserved {V : Type} {pgMajorversionNum : Nat} {catalog : Catalog}
    (p : Prog (contextScopes V pgMajorversionNum catalog)) (s : Machine Backend)
    (numbered : s.store.session.Numbered) :
    Keeps (fun t => t.store.world.session.currentMemoryContext =
        s.store.session.currentMemoryContext) s.uncaught (p.run (Prog.start s)) ∧
    ∀ c ∈ p.catches (Prog.start s), liveExecutors c.landed.store.live = [] →
      c.landed.store.world.session.currentMemoryContext =
        c.entry.store.world.session.currentMemoryContext := by
  have rules : Unconditional (contextScopes V pgMajorversionNum catalog)
      (Stage.Has (ContextKept s.store.session)) := contexts_rules _
  have start : Stage.Has (ContextKept s.store.session)
      (Prog.start s : Machine (Stage (contextScopes V pgMajorversionNum catalog))) :=
    ⟨⟨numbered, .of_steady (.refl _), fun _ => rfl⟩, trivial⟩
  constructor
  · refine (rules.run p start).mono ?_
    intro t ⟨⟨holds, _⟩, origins⟩
    have none : t.store.live = [] := List.map_eq_nil_iff.mp origins
    rw [none] at holds
    exact holds.context rfl
  · intro c caught none
    obtain ⟨⟨entry, nesting⟩, ⟨landed, nesting'⟩, origins⟩ := p.catches_keep rules start c caught
    have none' : liveExecutors c.entry.store.live = [] := by
      unfold Stage.origins at origins
      rw [nesting.liveExecutors_eq_nil, ← origins]
      exact nesting'.liveExecutors_eq_nil.mp none
    rw [landed.context none, entry.context none', ground_congr origins]

theorem idle_numbered : idle.store.session.Numbered where
  subtransactions _ member := nomatch member
  spi _ member := nomatch member

/-- An exception that leaves an executor, a subtransaction and a scope, and its handler. -/
def interrupted : Prog (contextScopes Nat 17 ⟨fun _ => none, fun _ => ""⟩) :=
  .attempt (fun _ => true)
    (.scope (.scope 7) (.scope (.subtransaction ⟨none, true⟩) (.scope (.executor (.plain false))
      (.seq (.call 0 (.operate (.execute "select 1" ⟨false, 0⟩ []))) (.throw .other)))))
    .skip false

theorem interrupted_preserved :
    (interrupted.catches (Prog.start idle)).length = 1 ∧
    Keeps (fun t => t.store.world.session.currentMemoryContext = 0) 0
      (interrupted.run (Prog.start idle)) ∧
    ∀ c ∈ interrupted.catches (Prog.start idle), liveExecutors c.landed.store.live = [] →
      c.landed.store.world.session.currentMemoryContext =
        c.entry.store.world.session.currentMemoryContext :=
  ⟨by decide +kernel, currentMemoryContext_preserved interrupted idle idle_numbered⟩

end Cppgres
