import Cppgres.Xact.SubtransactionGuards

/-!
# What becomes of a subtransaction

The two results about programs of guards: where releases succeed, each guard finishes its
own subtransaction in the way its scope is left, and work survives with the guards that
were unfinished around it; where releases may fail and finishes may be repeated, each
guard finishes its own subtransaction once, if the explicit finishes are.
-/
namespace Cppgres
open NonLocal

/-! ## Where releases succeed -/

/-- Every guard is finished by its first explicit call, or else by its destructor, which
rolls back if an exception leaves the scope or the flag says so. At that moment the
session is back at the level of the guard's construction. Work survives the program just
when the guards that were unfinished around it are released. -/
theorem subtransactionGuards_outcome (p : Prog subtransactionGuards) (s : Machine Backend)
    (healthy : s.store.session.Healthy) (succeed : s.store.session.releasesSucceed)
    (disciplined : ∀ e ∈ (p.run (Prog.start s)).2.store.log, Disciplined e) :
    let run := p.run (Prog.start s)
    (∀ e ∈ run.2.store.log, ∀ index op guard, e.action = .called index op guard →
      e.ending = .returned ∧ Finishes guard op.fate e.before e.after) ∧
    (∀ e ∈ run.2.store.log, ∀ guard unwinding, e.action = .closed guard unwinding →
      e.ending = .returned ∧
      (guard.obj.finished = false →
        Finishes guard (implicitFate guard unwinding) e.before e.after) ∧
      (guard.obj.finished = true → e.after = e.before) ∧
      (guard.enclosing = e.live.map Live.obj →
        e.after.store.session.subtransactions = guard.entry.store.session.subtransactions)) ∧
    (run.1 ≠ .aborted →
      run.2.store.world.session.subtransactions = s.store.session.subtransactions ∧
      ∀ e ∈ run.2.store.log, e.action = .acted .work →
        ∃ work,
          run.2.store.world.session.work[e.before.store.session.work.length]? = some work ∧
          (work.discarded = false ↔ ∀ guard ∈ e.live, guard.obj.finished = false →
            (began guard, Fate.released) ∈ run.2.store.world.session.fates)) := by
  intro run
  have ⟨good, keeps⟩ :=
    p.run_keeps (smoothRules succeed) s (guardInv_start healthy) disciplined
  refine ⟨?_, ?_, ?_⟩
  · intro e member index op guard called
    have settles := good e member
    unfold Settles at settles
    rw [called] at settles
    rcases settles with finishes | ⟨_, _, rough, _⟩
    · exact finishes
    · exact absurd succeed rough
  · intro e member guard unwinding closed
    have settles := good e member
    unfold Settles at settles
    rw [closed] at settles
    obtain ⟨returned, idle, finishes, _, level⟩ := settles
    exact ⟨returned, finishes, idle, level⟩
  · intro finished
    obtain ⟨inv, none_live⟩ := keeps.reached finished
    refine ⟨?_, fun e member work => inv.survives none_live member work⟩
    rw [inv.stack, none_live]
    rfl

/-- Two nested guards, left by an exception after work in each. -/
def thrownThrough : Prog subtransactionGuards :=
  .attempt (fun _ => true)
    (.scope ⟨none, true⟩
      (.seq (.act .work)
        (.scope ⟨some "inner", true⟩ (.seq (.act .work) (.throw .other)))))
    .skip false

theorem thrownThrough_outcome :
    (thrownThrough.run (Prog.start idle)).2.store.world.session.subtransactions = [] :=
  ((subtransactionGuards_outcome thrownThrough idle idle_healthy idle_releasesSucceed
    (by decide +kernel)).2.2 (by decide +kernel)).1

/-- A guard that is rolled back early, with work and a change of context after that. -/
def lateWork : Prog subtransactionGuards :=
  .scope ⟨none, true⟩ (.seq (.call 0 .rollback) (.seq (.act .work) (.act (.switchTo 7))))

/-- A guard inside whose scope, once it is finished, the guard around it is finished too. -/
def outerFirst : Prog subtransactionGuards :=
  .scope ⟨none, true⟩ (.scope ⟨none, true⟩ (.seq (.call 0 .commit) (.call 1 .commit)))

/-- For each destroyed guard: the stack before its construction and after its destruction. -/
def stacksAround (log : List (Event subtransactionGuards)) :
    List (List SubTransactionId × List SubTransactionId) :=
  log.filterMap fun e =>
    match e.action with
    | .closed guard _ =>
      some (guard.entry.store.session.subtransactions, e.after.store.session.subtransactions)
    | _ => none

/-- Work that follows the rollback of the guard around it survives, a context switched to
after it stays, and a guard does not bring back a level that was finished in its scope. -/
theorem lateWork_survives :
    ((∀ e ∈ (lateWork.run (Prog.start idle)).2.store.log, Disciplined e) ∧
      (lateWork.run (Prog.start idle)).2.store.world.session.fates = [(0, .rolledBack)] ∧
      (lateWork.run (Prog.start idle)).2.store.world.session.work = [⟨[], false⟩] ∧
      idle.store.session.currentMemoryContext = 0 ∧
      (lateWork.run (Prog.start idle)).2.store.world.session.currentMemoryContext = 7) ∧
    (∀ e ∈ (outerFirst.run (Prog.start idle)).2.store.log, Disciplined e) ∧
    stacksAround (outerFirst.run (Prog.start idle)).2.store.log = [([], []), ([0], [])] := by
  decide +kernel

/-! ## Where releases may fail -/

/-- Explicit finishes go to a guard that is not finished, and not from inside the scope of
a guard declared after it. -/
def Careful (e : Event subtransactionGuards) : Prop :=
  match e.action with
  | .called index _ guard => index = 0 ∧ guard.obj.finished = false
  | _ => True

instance : DecidablePred Careful
  | ⟨.called index _ guard, _, _, _, _⟩ =>
    inferInstanceAs (Decidable (index = 0 ∧ guard.obj.finished = false))
  | ⟨.acted _, _, _, _, _⟩ => isTrue trivial
  | ⟨.opened _, _, _, _, _⟩ => isTrue trivial
  | ⟨.closed _ _, _, _, _, _⟩ => isTrue trivial
  | ⟨.dropped _, _, _, _, _⟩ => isTrue trivial

/-- A step of the life of `guard` finishes its subtransaction or none. -/
def FinishesOwn (guard : SubtransactionGuard) (before after : Machine Backend) : Prop :=
  NoFinish before after ∨
    ∃ fate, after.store.session.fates = (began guard, fate) :: before.store.session.fates

theorem carefulRules (outside : Session) :
    Rules subtransactionGuards (fun s => GuardInv outside s ∧ Nested s.store.live)
      (fun e => Careful e ∧ Unhindered e) (fun e => Settles outside e ∧ e.Undisturbed) := by
  apply (guardRules outside).direct.restrict
  rintro s ⟨action, live, before, after, ending⟩ _ _ ⟨careful, unhindered⟩
  cases action with
  | called index op guard =>
    obtain ⟨rfl, unfinished⟩ := careful
    exact ⟨⟨⟨unfinished, fun _ member => nomatch member⟩, unhindered⟩, rfl⟩
  | acted act => exact ⟨⟨trivial, unhindered⟩, trivial⟩
  | opened decl => exact ⟨⟨trivial, unhindered⟩, trivial⟩
  | closed guard unwinding => exact ⟨⟨trivial, unhindered⟩, trivial⟩
  | dropped exception => exact ⟨⟨trivial, unhindered⟩, trivial⟩

/-- What a settled action finishes is its own guard's subtransaction, or none. -/
theorem Settles.finishesOwn {outside : Session} {e : Event subtransactionGuards}
    (settles : Settles outside e) :
    match e.action with
    | .called _ _ guard => FinishesOwn guard e.before e.after
    | .closed guard _ => FinishesOwn guard e.before e.after
    | _ => NoFinish e.before e.after := by
  unfold Settles at settles
  cases action : e.action with
  | called index op guard =>
    rw [action] at settles
    rcases settles with ⟨_, finishes⟩ | ⟨_, _, _, quiet⟩
    · exact .inr ⟨_, finishes.fate⟩
    · exact .inl quiet
  | closed guard unwinding =>
    rw [action] at settles
    obtain ⟨_, idle, finishes, _⟩ := settles
    cases done : guard.obj.finished with
    | true =>
      have same : e.after = e.before := idle done
      exact .inl (by rw [same]; rfl)
    | false => exact .inr ⟨_, (finishes done).fate⟩
  | acted act =>
    rw [action] at settles
    exact settles
  | opened decl =>
    rw [action] at settles
    exact settles
  | dropped exception =>
    rw [action] at settles
    exact settles

/-- Whatever releases fail: if no destructor's does, and explicit finishes are careful, each
guard has finished its own subtransaction exactly once when it is destroyed and left the
stack as it was; no action finishes another guard's. -/
theorem subtransactionGuards_finish_once (p : Prog subtransactionGuards) (s : Machine Backend)
    (healthy : s.store.session.Healthy)
    (careful : ∀ e ∈ (p.run (Prog.start s)).2.store.log, Careful e ∧ Unhindered e) :
    let run := p.run (Prog.start s)
    (∀ e ∈ run.2.store.log, ∀ guard unwinding, e.action = .closed guard unwinding →
      e.ending = .returned ∧
      e.after.store.session.timesFinished (began guard) = 1 ∧
      e.after.store.session.subtransactions = guard.entry.store.session.subtransactions) ∧
    (∀ e ∈ run.2.store.log,
      match e.action with
      | .called _ _ guard => FinishesOwn guard e.before e.after
      | .closed guard _ => FinishesOwn guard e.before e.after
      | _ => NoFinish e.before e.after) := by
  intro run
  have ⟨good, _⟩ :=
    p.run_keeps (carefulRules s.store.session) s ⟨guardInv_start healthy, trivial⟩ careful
  constructor
  · intro e member guard unwinding closed
    have ⟨settles, undisturbed⟩ := good e member
    unfold Settles at settles
    unfold Event.Undisturbed at undisturbed
    rw [closed] at settles undisturbed
    obtain ⟨returned, _, _, once, level⟩ := settles
    exact ⟨returned, once, level undisturbed⟩
  · intro e member
    have ⟨settles, _⟩ := good e member
    exact settles.finishesOwn

/-- A release that fails, the rollback that follows, and an inner guard on its own. -/
def failedCommit : Prog subtransactionGuards :=
  .scope ⟨none, true⟩
    (.seq (.scope ⟨none, false⟩ .skip)
      (.seq (.attempt (fun _ => true) (.call 0 .commit) .skip false) (.call 0 .rollback)))

/-- A backend in which the next release fails. -/
def stubborn : Machine Backend :=
  { idle with store := { idle.store with session := { idle.store.session with
    releaseFailures := [some (elogData "xact.c" 0 "CommitSubTransaction" "out of memory")] } } }

theorem failedCommit_finish_once :
    (failedCommit.run (Prog.start stubborn)).2.store.log ≠ [] ∧
    ∀ e ∈ (failedCommit.run (Prog.start stubborn)).2.store.log,
      ∀ guard unwinding, e.action = .closed guard unwinding →
        e.after.store.session.timesFinished (began guard) = 1 :=
  ⟨by decide +kernel, fun e member guard unwinding closed =>
    ((subtransactionGuards_finish_once failedCommit stubborn
      (idle_healthy.congr rfl rfl rfl rfl)
      (by decide +kernel)).1 e member guard unwinding closed).2.1⟩

/-- `commit()` twice on the inner one of two guards. -/
def doubleCommit : Prog subtransactionGuards :=
  .scope ⟨none, true⟩ (.scope ⟨none, true⟩ (.seq (.call 0 .commit) (.call 0 .commit)))

/-- The second `commit()` releases the outer subtransaction, and a release that fails in a
destructor leaves its subtransaction open. -/
theorem doubleCommit_finishes_outer :
    ((doubleCommit.run (Prog.start idle)).2.store.world.session.fates =
        [(0, .released), (1, .released)] ∧
      stacksAround (doubleCommit.run (Prog.start idle)).2.store.log = [([], []), ([0], [])] ∧
      (doubleCommit.run (Prog.start idle)).2.store.world.elog.warnings =
        ["cppgres: finishing internal subtransaction failed"]) ∧
    ((Prog.scope ⟨none, true⟩ .skip : Prog subtransactionGuards).run
        (Prog.start stubborn)).2.store.world.session.fates = [] ∧
    stacksAround ((Prog.scope ⟨none, true⟩ .skip : Prog subtransactionGuards).run
        (Prog.start stubborn)).2.store.log = [([], [0])] := by
  decide +kernel

end Cppgres
