import Cppgres.Xact.InternalSubtransaction

/-!
# Programs of subtransaction guards

What holds over every run of a program whose explicit `commit()` and `rollback()` go to
the innermost unfinished guard. `GuardInv` ties the stack of open subtransactions to the
guards that are alive; one lemma for each action keeps it, and `guardRules` puts them
together for the induction over programs.
-/
namespace Cppgres
open NonLocal

abbrev SubtransactionGuard := Live subtransactionGuards
abbrev GuardStage := Machine (Stage subtransactionGuards)

/-- The subtransaction a guard began. -/
def began (guard : SubtransactionGuard) : SubTransactionId :=
  guard.entry.store.session.nextSubTransaction

/-- The subtransactions of the unfinished guards. -/
def openIds (live : List SubtransactionGuard) : List SubTransactionId :=
  (live.filter fun guard => !guard.obj.finished).map began

/-- The same, from the identifiers and the objects a guard found at its construction. -/
def openAt (ids : List SubTransactionId) (objects : List InternalSubtransaction) :
    List SubTransactionId :=
  ((ids.zip objects).filter fun pair => !pair.2.finished).map Prod.fst

theorem openAt_self (live : List SubtransactionGuard) :
    openAt (live.map began) (live.map Live.obj) = openIds live := by
  induction live with
  | nil => rfl
  | cons guard rest ih =>
    unfold openAt openIds at ih ⊢
    simp only [List.map_cons, List.zip_cons_cons, List.filter_cons]
    split
    · simp only [List.map_cons, ih]
    · exact ih

/-- The guard's members are what its constructor was called with and what it observed. -/
structure Built (guard : SubtransactionGuard) : Prop where
  ctx : guard.obj.ctx = guard.entry.store.session.currentMemoryContext
  owner : guard.obj.owner = guard.entry.store.session.currentResourceOwner
  shouldCommit : guard.obj.shouldCommit = guard.decl.commit
  uncaught : guard.obj.uncaught = guard.entry.uncaught

/-- A guard as its constructor left it: below it the stack was that of the guards around
it, and while it is unfinished that part of the stack is the same. -/
structure Placed (outside : List SubTransactionId) (guard : SubtransactionGuard)
    (rest : List SubtransactionGuard) : Prop where
  built : Built guard
  observed : guard.entry.store.session.subtransactions =
    openAt (rest.map began) guard.enclosing ++ outside
  below : guard.obj.finished = false →
    guard.entry.store.session.subtransactions = openIds rest ++ outside

def Scopes (outside : List SubTransactionId) : List SubtransactionGuard → Prop
  | [] => True
  | guard :: rest => Placed outside guard rest ∧ Scopes outside rest

theorem openIds_unfinished {guard : SubtransactionGuard} (unfinished : guard.obj.finished = false)
    (rest : List SubtransactionGuard) : openIds (guard :: rest) = began guard :: openIds rest := by
  unfold openIds
  rw [List.filter_cons_of_pos (by rw [unfinished]; rfl), List.map_cons]

theorem openIds_finished {guard : SubtransactionGuard} (finished : guard.obj.finished = true)
    (rest : List SubtransactionGuard) : openIds (guard :: rest) = openIds rest := by
  unfold openIds
  rw [List.filter_cons_of_neg (by rw [finished]; simp)]

theorem openIds_append {inner : List SubtransactionGuard}
    (finished : ∀ guard ∈ inner, guard.obj.finished = true) (rest : List SubtransactionGuard) :
    openIds (inner ++ rest) = openIds rest := by
  induction inner with
  | nil => rfl
  | cons guard inner ih =>
    rw [List.cons_append, openIds_finished (finished guard List.mem_cons_self)]
    exact ih fun other member => finished other (List.mem_cons_of_mem _ member)

theorem Scopes.placed {outside : List SubTransactionId} {inner outer : List SubtransactionGuard}
    {guard : SubtransactionGuard} (scopes : Scopes outside (inner ++ guard :: outer)) :
    Placed outside guard outer := by
  induction inner with
  | nil => exact scopes.1
  | cons other inner ih => exact ih scopes.2

/-- The guard with its subtransaction finished. -/
def SubtransactionGuard.done (guard : SubtransactionGuard) : SubtransactionGuard :=
  { guard with obj := { guard.obj with finished := true } }

/-- Finishing the innermost unfinished guard. -/
theorem Scopes.finish {outside : List SubTransactionId} {inner outer : List SubtransactionGuard}
    {guard : SubtransactionGuard} (scopes : Scopes outside (inner ++ guard :: outer))
    (finished : ∀ guard ∈ inner, guard.obj.finished = true) :
    Scopes outside (inner ++ guard.done :: outer) := by
  induction inner with
  | nil =>
    obtain ⟨⟨built, observed, _⟩, rest⟩ := scopes
    exact ⟨⟨⟨built.ctx, built.owner, built.shouldCommit, built.uncaught⟩, observed, nofun⟩, rest⟩
  | cons other inner ih =>
    obtain ⟨⟨built, observed, _⟩, rest⟩ := scopes
    have same : (inner ++ guard.done :: outer).map began =
        (inner ++ guard :: outer).map began := by
      rw [List.map_append, List.map_append]
      rfl
    refine ⟨⟨built, ?_, ?_⟩, ih rest fun other member => finished other (List.mem_cons_of_mem _ member)⟩
    · exact observed.trans (congrArg (openAt · other.enclosing ++ outside) same.symm)
    · intro unfinished
      rw [finished other List.mem_cons_self] at unfinished
      cases unfinished

/-! ## Conditions and properties of events -/

/-- Explicit finishes go to the innermost unfinished guard. -/
def Disciplined (e : Event subtransactionGuards) : Prop :=
  match e.action with
  | .called index _ guard =>
    guard.obj.finished = false ∧ ∀ inner ∈ e.live.take index, inner.obj.finished = true
  | _ => True

instance : DecidablePred Disciplined
  | ⟨.called _ _ guard, live, _, _, _⟩ =>
    inferInstanceAs (Decidable (guard.obj.finished = false ∧
      ∀ inner ∈ live.take _, inner.obj.finished = true))
  | ⟨.acted _, _, _, _, _⟩ => isTrue trivial
  | ⟨.opened _, _, _, _, _⟩ => isTrue trivial
  | ⟨.closed _ _, _, _, _, _⟩ => isTrue trivial
  | ⟨.dropped _, _, _, _, _⟩ => isTrue trivial

/-- No release that a destructor asks for fails. -/
def Unhindered (e : Event subtransactionGuards) : Prop :=
  match e.action with
  | .closed guard unwinding =>
    guard.obj.finished = false → guard.obj.endFate unwinding = .released →
      e.before.store.session.releaseFailure = none
  | _ => True

instance : DecidablePred Unhindered
  | ⟨.closed guard unwinding, _, before, _, _⟩ =>
    inferInstanceAs (Decidable (guard.obj.finished = false →
      guard.obj.endFate unwinding = .released → before.store.session.releaseFailure = none))
  | ⟨.acted _, _, _, _, _⟩ => isTrue trivial
  | ⟨.opened _, _, _, _, _⟩ => isTrue trivial
  | ⟨.called _ _ _, _, _, _, _⟩ => isTrue trivial
  | ⟨.dropped _, _, _, _, _⟩ => isTrue trivial

/-- From `before` to `after` the subtransaction of `guard` meets its fate, no other does,
and the session is back at the level of the guard's construction. -/
structure Finishes (guard : SubtransactionGuard) (fate : Fate) (before after : Machine Backend) :
    Prop where
  fate : after.store.session.fates = (began guard, fate) :: before.store.session.fates
  stack : after.store.session.subtransactions = guard.entry.store.session.subtransactions
  ctx : after.store.session.currentMemoryContext = guard.entry.store.session.currentMemoryContext
  owner :
    after.store.session.currentResourceOwner = guard.entry.store.session.currentResourceOwner

def NoFinish (before after : Machine Backend) : Prop :=
  after.store.session.fates = before.store.session.fates

/-- What an implicit finish does, by the flag of the guard and the way its scope is left. -/
def implicitFate (guard : SubtransactionGuard) (unwinding : Bool) : Fate :=
  if unwinding = true ∨ guard.decl.commit = false then .rolledBack else .released

/-- Each action finishes the subtransaction it is to finish, and no other. -/
def Settles (outside : Session) (e : Event subtransactionGuards) : Prop :=
  match e.action with
  | .called _ op guard =>
    (e.ending = .returned ∧ Finishes guard op.fate e.before e.after) ∨
      (e.ending = .thrown ∧ op = .commit ∧ ¬ outside.releasesSucceed ∧ NoFinish e.before e.after)
  | .closed guard unwinding =>
    e.ending = .returned ∧
    (guard.obj.finished = true → e.after = e.before) ∧
    (guard.obj.finished = false →
      Finishes guard (implicitFate guard unwinding) e.before e.after) ∧
    e.after.store.session.timesFinished (began guard) = 1 ∧
    (guard.enclosing = e.live.map Live.obj →
      e.after.store.session.subtransactions = guard.entry.store.session.subtransactions)
  | _ => NoFinish e.before e.after

/-! ## The invariant -/

/-- The journal entry of an event of work: it is kept where it was put. -/
def Journaled (outside : List SubTransactionId) (session : Session)
    (e : Event subtransactionGuards) : Prop :=
  e.action = .acted .work →
    (∀ id ∈ openIds e.live,
      id ∉ outside ∧ id ∈ session.fates.map Prod.fst ++ session.subtransactions) ∧
    ∃ work, session.work[e.before.store.session.work.length]? = some work ∧
      work.within = openIds e.live ++ outside

structure GuardInv (outside : Session) (s : GuardStage) : Prop where
  healthy : s.store.world.session.Healthy
  stack : s.store.world.session.subtransactions =
    openIds s.store.live ++ outside.subtransactions
  scopes : Scopes outside.subtransactions s.store.live
  finished : ∀ guard ∈ s.store.live, guard.obj.finished = true →
    began guard ∈ s.store.world.session.fates.map Prod.fst
  journal : ∀ e ∈ s.store.log, Journaled outside.subtransactions s.store.world.session e
  smooth : outside.releasesSucceed → s.store.world.session.releasesSucceed

theorem Journaled.later {outside : List SubTransactionId} {before after : Session}
    {e : Event subtransactionGuards} (journaled : Journaled outside before e)
    (continues : before.Continues after) : Journaled outside after e := by
  intro work
  obtain ⟨known, entry, found, within⟩ := journaled work
  obtain ⟨later, found', within'⟩ := continues.work _ entry found
  refine ⟨fun id member => ?_, later, found', within'.trans within⟩
  exact (known id member).imp_right (continues.begun id)

theorem GuardInv.journal_cons {outside : Session} {s : GuardStage} (inv : GuardInv outside s)
    {session : Session} (continues : s.store.world.session.Continues session)
    {e : Event subtransactionGuards} (new : Journaled outside.subtransactions session e) :
    ∀ e' ∈ e :: s.store.log, Journaled outside.subtransactions session e' :=
  List.forall_mem_cons.mpr ⟨new, fun e' old => (inv.journal e' old).later continues⟩

/-- A step that opens and finishes nothing. -/
theorem GuardInv.quiet {outside : Session} {s t : GuardStage} (inv : GuardInv outside s)
    {e : Event subtransactionGuards} (log : t.store.log = e :: s.store.log)
    (live : t.store.live = s.store.live)
    (fates : t.store.world.session.fates = s.store.world.session.fates)
    (stack : t.store.world.session.subtransactions = s.store.world.session.subtransactions)
    (healthy : t.store.world.session.Healthy)
    (continues : s.store.world.session.Continues t.store.world.session)
    (new : Journaled outside.subtransactions t.store.world.session e)
    (smooth : s.store.world.session.releasesSucceed → t.store.world.session.releasesSucceed) :
    GuardInv outside t where
  healthy := healthy
  stack := by rw [stack, live]; exact inv.stack
  scopes := by rw [live]; exact inv.scopes
  finished := by rw [live, fates]; exact inv.finished
  journal := by rw [log]; exact inv.journal_cons continues new
  smooth succeed := smooth (inv.smooth succeed)

/-! ## Each action keeps it -/

section Actions
variable {outside : Session} {s : GuardStage}

theorem guards_act (act : SessionAct) (inv : GuardInv outside s) :
    Settles outside ((Action.acted act).event (subtransactionGuards.act act) s) ∧
      Keeps (GuardInv outside) s.uncaught (subtransactionGuards.acting act s) := by
  have run : subtransactionGuards.act act (Stage.machine s) =
    (.returned (), (act.session s.store.world.session).into (Stage.machine s)) := rfl
  rw [Action.event_apply _ run, GuardClass.acting_apply run]
  cases act with
  | work =>
    refine ⟨rfl, rfl, inv.quiet rfl rfl rfl rfl inv.healthy.doWork .doWork ?_ id⟩
    intro _
    refine ⟨?_, ?_⟩
    · have stack := (List.nodup_append.mp inv.healthy.once).2.1
      rw [inv.stack] at stack
      intro id open_
      refine ⟨fun member => (List.nodup_append.mp stack).2.2 id open_ id member rfl, ?_⟩
      refine List.mem_append_right _ ?_
      change id ∈ s.store.world.session.subtransactions
      rw [inv.stack]
      exact List.mem_append_left _ open_
    · refine ⟨_, List.getElem?_concat_length, ?_⟩
      exact inv.stack
  | switchTo context =>
    exact ⟨rfl, rfl, inv.quiet rfl rfl rfl rfl (inv.healthy.congr rfl rfl rfl rfl)
      (.congr rfl rfl rfl) nofun id⟩
  | setOwner owner =>
    exact ⟨rfl, rfl, inv.quiet rfl rfl rfl rfl (inv.healthy.congr rfl rfl rfl rfl)
      (.congr rfl rfl rfl) nofun id⟩

theorem guards_drop (exception : CppException) (inv : GuardInv outside s) :
    Settles outside ((Action.dropped exception).event (subtransactionGuards.drop exception) s) ∧
      Keeps (GuardInv outside) s.uncaught (subtransactionGuards.dropping exception s) := by
  obtain ⟨t, run, uncaught, session⟩ : ∃ t,
      subtransactionGuards.drop exception (Stage.machine s) = (.returned (), t) ∧
        t.uncaught = s.uncaught ∧ t.store.session = s.store.world.session := by
    cases exception <;> exact ⟨_, rfl, rfl, rfl⟩
  rw [Action.event_apply _ run, GuardClass.dropping_apply run]
  refine ⟨congrArg Session.fates session, uncaught, inv.quiet rfl rfl ?_ ?_ ?_ ?_ nofun ?_⟩
  all_goals simp only [Action.stage, session]
  · exact inv.healthy
  · exact .congr rfl rfl rfl
  · exact id

theorem guards_open (decl : SubtransactionDecl) (inv : GuardInv outside s) :
    Settles outside ((Action.opened decl).event (subtransactionGuards.construct decl) s) ∧
      Keeps (GuardInv outside) s.uncaught (subtransactionGuards.opening decl s) := by
  obtain ⟨t, run, uncaught, session⟩ :=
    InternalSubtransaction.construct_apply decl (Stage.machine s)
  have run : subtransactionGuards.construct decl (Stage.machine s) = _ := run
  rw [Action.event_apply _ run, GuardClass.opening_returned run]
  have fates : t.store.session.fates = s.store.world.session.fates := by rw [session]; rfl
  refine ⟨fates, uncaught, ?_⟩
  have continues : s.store.world.session.Continues t.store.session := by
    rw [session]
    exact (Session.Continues.begin_ decl.name).trans (.congr rfl rfl rfl)
  constructor
  all_goals simp only [Action.stage]
  · rw [session]
    exact (inv.healthy.begin_ decl.name).congr rfl rfl rfl rfl
  · rw [session]
    exact congrArg (_ :: ·) inv.stack
  · refine ⟨⟨⟨rfl, rfl, rfl, rfl⟩, ?_, fun _ => inv.stack⟩, inv.scopes⟩
    rw [openAt_self]
    exact inv.stack
  · intro guard alive finished
    rw [session]
    rcases List.mem_cons.mp alive with rfl | older
    · cases finished
    · exact inv.finished guard older finished
  · exact inv.journal_cons continues nofun
  · intro succeed
    rw [session]
    exact inv.smooth succeed

/-- The innermost unfinished guard sees its own subtransaction on top, and below it what was
there at its construction. -/
theorem GuardInv.top {inner outer : List SubtransactionGuard} {guard : SubtransactionGuard}
    (inv : GuardInv outside s) (live : s.store.live = inner ++ guard :: outer)
    (finished : ∀ guard ∈ inner, guard.obj.finished = true)
    (unfinished : guard.obj.finished = false) :
    s.store.world.session.subtransactions =
      began guard :: guard.entry.store.session.subtransactions := by
  have scopes := inv.scopes
  rw [live] at scopes
  rw [inv.stack, live, openIds_append finished, openIds_unfinished unfinished,
    scopes.placed.below unfinished, List.cons_append]

theorem finishes_settle {guard : SubtransactionGuard} {fate : Fate} {t : Machine Backend}
    (built : Built guard)
    (session : t.store.session = guard.obj.restored (s.store.world.session.settle fate (began guard)
      guard.entry.store.session.subtransactions)) :
    Finishes guard fate (Stage.machine s) t := by
  constructor
  all_goals rw [session]
  · exact Session.settle_fates _ _
  · exact Session.settle_subtransactions _ _
  · exact built.ctx
  · exact built.owner

/-- The session after the innermost unfinished guard has finished its subtransaction. -/
theorem GuardInv.settle {inner outer : List SubtransactionGuard} {guard : SubtransactionGuard}
    {fate : Fate} {t : GuardStage} {e : Event subtransactionGuards}
    (inv : GuardInv outside s) (live : s.store.live = inner ++ guard :: outer)
    (finished : ∀ guard ∈ inner, guard.obj.finished = true)
    (unfinished : guard.obj.finished = false)
    (session : t.store.world.session = guard.obj.restored (s.store.world.session.settle fate
      (began guard) guard.entry.store.session.subtransactions))
    (log : t.store.log = e :: s.store.log) (idle : e.action ≠ .acted .work)
    (left : Scopes outside.subtransactions t.store.live)
    (open_ : openIds t.store.live = openIds outer)
    (among : ∀ g ∈ t.store.live, g.obj.finished = true → began g = began guard ∨
      (g ∈ s.store.live ∧ g.obj.finished = true)) :
    GuardInv outside t := by
  have top := inv.top live finished unfinished
  have scopes := inv.scopes
  rw [live] at scopes
  have continues : s.store.world.session.Continues t.store.world.session := by
    rw [session]
    exact (Session.Continues.settle top fate).trans (.congr rfl rfl rfl)
  have fates : t.store.world.session.fates =
      (began guard, fate) :: s.store.world.session.fates := by
    rw [session]
    exact Session.settle_fates _ _
  refine ⟨?_, ?_, left, ?_, ?_, ?_⟩
  · rw [session]
    exact (inv.healthy.settle top fate).congr rfl rfl rfl rfl
  · rw [session, open_, ← scopes.placed.below unfinished]
    exact Session.settle_subtransactions _ _
  · intro g alive done
    rw [fates, List.map_cons, List.mem_cons]
    exact (among g alive done).imp id fun ⟨older, done⟩ => inv.finished g older done
  · rw [log]
    exact inv.journal_cons continues fun work => absurd work idle
  · intro succeed
    rw [session]
    exact Session.releasesSucceed_settle (inv.smooth succeed) fate

theorem Built.endFate {guard : SubtransactionGuard} (built : Built guard) (unwinding : Bool) :
    guard.obj.endFate unwinding = implicitFate guard unwinding := by
  unfold InternalSubtransaction.endFate implicitFate
  rw [built.shouldCommit]
  simp

/-- A guard found at an index, with the guards on both sides of it. -/
theorem live_split {live : List SubtransactionGuard} {index : Nat} {guard : SubtransactionGuard}
    (found : live[index]? = some guard) :
    live = live.take index ++ guard :: live.drop (index + 1) ∧
      ∀ g, live.set index g = live.take index ++ g :: live.drop (index + 1) := by
  obtain ⟨bound, here⟩ := List.getElem?_eq_some_iff.mp found
  refine ⟨?_, fun g => ?_⟩
  · rw [← here, List.getElem_cons_drop, List.take_append_drop]
  · rw [List.set_eq_take_append_cons_drop, if_pos bound]

theorem guards_call (index : Nat) (op : SubtransactionOp) (guard : SubtransactionGuard)
    (inv : GuardInv outside s) (found : s.store.live[index]? = some guard)
    (disciplined : guard.obj.finished = false ∧
      ∀ inner ∈ s.store.live.take index, inner.obj.finished = true) :
    Settles outside ((Action.called index op guard).event (subtransactionGuards.method op guard.obj) s) ∧
      Keeps (GuardInv outside) s.uncaught (subtransactionGuards.calling index op guard s) := by
  obtain ⟨unfinished, finished⟩ := disciplined
  obtain ⟨live, set⟩ := live_split found
  have top := inv.top live finished unfinished
  have scopes := inv.scopes
  rw [live] at scopes
  by_cases fails : op = .commit ∧ s.store.world.session.releaseFailure ≠ none
  · obtain ⟨rfl, fails⟩ := fails
    obtain ⟨edata, failure⟩ := Option.ne_none_iff_exists'.mp fails
    obtain ⟨exception, t, run, uncaught, session⟩ :=
      @InternalSubtransaction.commit_throws guard.obj (Stage.machine s) _ failure
    have run : subtransactionGuards.method .commit guard.obj (Stage.machine s) = _ := run
    rw [Action.event_apply _ run, GuardClass.calling_thrown run]
    have fates : t.store.session.fates = s.store.world.session.fates := by rw [session]; rfl
    have stack : t.store.session.subtransactions = s.store.world.session.subtransactions := by
      rw [session]
      rfl
    have rough : ¬ s.store.world.session.releasesSucceed := by
      intro succeed
      rw [Session.releaseFailure_of_releasesSucceed succeed top] at failure
      cases failure
    refine ⟨.inr ⟨rfl, rfl, fun succeed => rough (inv.smooth succeed), fates⟩, uncaught,
      inv.quiet rfl rfl fates stack ?_ ?_ nofun fun succeed => absurd succeed rough⟩
    all_goals simp only [Action.stage, session]
    · exact inv.healthy.congr rfl rfl rfl rfl
    · exact .congr rfl rfl rfl
  · obtain ⟨t, run, uncaught, session⟩ :=
      @InternalSubtransaction.method_apply guard.obj (Stage.machine s) _ _ op top
        fun commit => Classical.not_not.mp fun failure => fails ⟨commit, failure⟩
    have run : subtransactionGuards.method op guard.obj (Stage.machine s) = _ := run
    rw [Action.event_apply _ run, GuardClass.calling_returned run, set]
    refine ⟨.inl ⟨rfl, finishes_settle scopes.placed.built session⟩, uncaught, ?_⟩
    refine inv.settle live finished unfinished session rfl nofun (scopes.finish finished) ?_ ?_
    · refine (openIds_append finished _).trans (openIds_finished rfl _)
    · intro g alive done
      rcases List.mem_append.mp alive with inner | here
      · exact .inr ⟨List.mem_of_mem_take inner, done⟩
      · rcases List.mem_cons.mp here with rfl | outer
        · exact .inl rfl
        · exact .inr ⟨List.mem_of_mem_drop outer, done⟩

theorem guards_close {guard : SubtransactionGuard} {rest : List SubtransactionGuard}
    {unwinding : Bool} {t : GuardStage} (inv : GuardInv outside s)
    (live : s.store.live = guard :: rest)
    (count : s.uncaught = guard.entry.uncaught + unwinding.toNat)
    (popped : t = { s with store := { s.store with live := rest } })
    (unhindered : guard.obj.finished = false → guard.obj.endFate unwinding = .released →
      s.store.world.session.releaseFailure = none) :
    Settles outside ((Action.closed guard unwinding).event (subtransactionGuards.destroy guard.obj) t) ∧
      Keeps (GuardInv outside) s.uncaught (subtransactionGuards.closing unwinding s) := by
  have scopes := inv.scopes
  rw [live] at scopes
  obtain ⟨placed, scopes⟩ := scopes
  subst popped
  cases done : guard.obj.finished with
  | true =>
    have run : subtransactionGuards.destroy guard.obj (Stage.machine s) = _ :=
      InternalSubtransaction.destroy_finished done (Stage.machine s)
    have known := inv.finished guard (by rw [live]; exact List.mem_cons_self) done
    have stack : s.store.world.session.subtransactions =
        openIds rest ++ outside.subtransactions := by
      rw [inv.stack, live, openIds_finished done]
    have called := Action.event_apply (s := { s with store := { s.store with live := rest } })
      (Action.closed guard unwinding) run
    rw [called, GuardClass.closing_apply live run]
    refine ⟨⟨rfl, fun _ => rfl, ?_, inv.healthy.timesFinished known, ?_⟩, rfl, ?_⟩
    · intro unfinished
      rw [done] at unfinished
      cases unfinished
    · intro undisturbed
      rw [placed.observed, undisturbed]
      exact stack.trans (congrArg (· ++ _) (openAt_self rest).symm)
    · refine ⟨inv.healthy, stack, scopes, ?_, ?_, inv.smooth⟩
      · intro g alive
        exact inv.finished g (by rw [live]; exact List.mem_cons_of_mem _ alive)
      · exact inv.journal_cons (.congr rfl rfl rfl) nofun
  | false =>
    have nothing : ∀ g ∈ ([] : List SubtransactionGuard), g.obj.finished = true :=
      fun _ member => absurd member List.not_mem_nil
    have top := inv.top live nothing done
    obtain ⟨u, run, uncaught, session⟩ :=
      InternalSubtransaction.destroy_apply (s := Stage.machine s) done
        (placed.built.uncaught ▸ count) top (unhindered done)
    have run : subtransactionGuards.destroy guard.obj (Stage.machine s) = _ := run
    have called := Action.event_apply (s := { s with store := { s.store with live := rest } })
      (Action.closed guard unwinding) run
    have finishes := finishes_settle placed.built session
    have fate := placed.built.endFate unwinding
    rw [called, GuardClass.closing_apply live run]
    have inv' : GuardInv outside ((Action.closed guard unwinding).stage
        (subtransactionGuards.destroy guard.obj) { s with store := { s.store with live := rest } }
        u rest) := by
      refine inv.settle live nothing done session rfl nofun scopes rfl ?_
      intro g alive done
      exact .inr ⟨by rw [live]; exact List.mem_cons_of_mem _ alive, done⟩
    refine ⟨⟨rfl, ?_, fun _ => fate ▸ finishes, ?_, fun _ => finishes.stack⟩, uncaught, inv'⟩
    · intro finished
      rw [done] at finished
      cases finished
    · refine inv'.healthy.timesFinished ?_
      change began guard ∈ u.store.session.fates.map Prod.fst
      rw [finishes.fate]
      exact List.mem_cons_self

/-- The rules of programs of guards. -/
theorem guardRules (outside : Session) :
    Rules subtransactionGuards (GuardInv outside) (fun e => Disciplined e ∧ Unhindered e)
      (Settles outside) where
  act act s inv _ := guards_act act inv
  call index op guard s inv found cond := guards_call index op guard inv found cond.1
  open_ decl s inv _ := guards_open decl inv
  close guard rest unwinding s t inv live count popped cond :=
    guards_close inv live count popped (by subst popped; exact cond.2)
  drop exception s inv _ := guards_drop exception inv
  uncaught s count inv := ⟨inv.healthy, inv.stack, inv.scopes, inv.finished, inv.journal, inv.smooth⟩

end Actions

theorem guardInv_start {s : Machine Backend} (healthy : s.store.session.Healthy) :
    GuardInv s.store.session (Prog.start s) where
  healthy := healthy
  stack := rfl
  scopes := trivial
  finished _ member := nomatch member
  journal _ member := nomatch member
  smooth := id

/-- Where every release succeeds, no destructor's release fails. -/
theorem smoothRules {outside : Session} (succeed : outside.releasesSucceed) :
    Rules subtransactionGuards (GuardInv outside) Disciplined (Settles outside) := by
  have rules := guardRules outside
  refine { rules with
    act := fun act s inv _ => guards_act act inv
    call := fun index op guard s inv found cond => guards_call index op guard inv found cond
    open_ := fun decl s inv _ => guards_open decl inv
    drop := fun exception s inv _ => guards_drop exception inv
    close := ?_ }
  intro guard rest unwinding s t inv live count popped _
  refine guards_close inv live count popped fun unfinished _ => ?_
  have top := inv.top live (fun _ member => absurd member List.not_mem_nil) unfinished
  exact Session.releaseFailure_of_releasesSucceed (inv.smooth succeed) top

/-- Work survives just when the guards unfinished around it are all released. -/
theorem GuardInv.survives {outside : Session} {s : GuardStage} {e : Event subtransactionGuards}
    (inv : GuardInv outside s) (none_live : s.store.live = []) (member : e ∈ s.store.log)
    (work : e.action = .acted .work) :
    ∃ entry, s.store.world.session.work[e.before.store.session.work.length]? = some entry ∧
      (entry.discarded = false ↔ ∀ guard ∈ e.live, guard.obj.finished = false →
        (began guard, Fate.released) ∈ s.store.world.session.fates) := by
  obtain ⟨known, entry, found, within⟩ := inv.journal e member work
  refine ⟨entry, found, ?_⟩
  have stack : s.store.world.session.subtransactions = outside.subtransactions := by
    rw [inv.stack, none_live]
    rfl
  have fair := inv.healthy.fair entry (List.mem_of_getElem? found)
  rw [within] at fair
  constructor
  · intro kept guard alive unfinished
    have open_ : began guard ∈ openIds e.live :=
      List.mem_map_of_mem (List.mem_filter.mpr ⟨alive, by rw [unfinished]; rfl⟩)
    obtain ⟨inside, begun⟩ := known _ open_
    rcases List.mem_append.mp begun with done | still
    · obtain ⟨⟨id, fate⟩, met, same⟩ := List.mem_map.mp done
      have same : id = began guard := same
      subst same
      cases fate with
      | released => exact met
      | rolledBack =>
        rw [fair.mpr ⟨_, List.mem_append_left _ open_, met⟩] at kept
        cases kept
    · rw [stack] at still
      exact absurd still inside
  · intro released
    rw [← Bool.not_eq_true, fair]
    rintro ⟨id, inside, rolledBack⟩
    rcases List.mem_append.mp inside with open_ | below
    · obtain ⟨guard, alive, rfl⟩ := List.mem_map.mp open_
      obtain ⟨alive, unfinished⟩ := List.mem_filter.mp alive
      cases inv.healthy.one_fate rolledBack (released guard alive (by simpa using unfinished))
    · rw [← stack] at below
      exact inv.healthy.open_not_finished below (List.mem_map_of_mem rolledBack)

end Cppgres
