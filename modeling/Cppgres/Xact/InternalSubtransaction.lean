import Cppgres.Guard
import Cppgres.NonLocal.Scoped
import Cppgres.Postgres.Xact

/-!
# Internal subtransaction guards

`internal_subtransaction` of `xact.hpp`: the constructor, `commit()`, `rollback()` and
the destructor, each with what it does to the session, and the class of guards that
programs are made of.
-/
namespace Cppgres
open NonLocal

/-- The fields of an `internal_subtransaction`. -/
structure InternalSubtransaction where
  ctx : MemoryContext
  owner : ResourceOwner
  shouldCommit : Bool
  uncaught : Nat
  finished : Bool
  name : Option String
  deriving DecidableEq, Repr

/-- The arguments of the two constructors: the first one has no name. -/
structure SubtransactionDecl where
  name : Option String
  commit : Bool
  deriving DecidableEq, Repr

namespace InternalSubtransaction

/-- `internal_subtransaction(std::string_view name, bool commit = true)`. -/
def construct (decl : SubtransactionDecl) : Cpp InternalSubtransaction := do
  let b ← Code.get
  let uncaught ← Code.uncaughtExceptions
  let this : InternalSubtransaction :=
    { ctx := b.session.currentMemoryContext
      owner := b.session.currentResourceOwner
      shouldCommit := decl.commit
      uncaught := uncaught
      finished := false
      name := decl.name }
  ffiGuard (postgres (·.beginInternalSubTransaction this.name))
  modifySession fun s => { s with currentMemoryContext := this.ctx }
  pure this

def restore (this : InternalSubtransaction) : Cpp Unit :=
  modifySession fun s =>
    { s with currentMemoryContext := this.ctx, currentResourceOwner := this.owner }

def commit (this : InternalSubtransaction) : Cpp InternalSubtransaction := do
  ffiGuard (postgres (·.releaseCurrentSubTransaction))
  this.restore
  pure { this with finished := true }

def rollback (this : InternalSubtransaction) : Cpp InternalSubtransaction := do
  ffiGuard (postgres (·.rollbackAndReleaseCurrentSubTransaction))
  this.restore
  pure { this with finished := true }

/-- The lambda of the destructor. -/
def finish (this : InternalSubtransaction) : Cpp Unit := do
  let uncaught ← Code.uncaughtExceptions
  if uncaught > this.uncaught || !this.shouldCommit then
    postgres (·.rollbackAndReleaseCurrentSubTransaction)
  else
    postgres (·.releaseCurrentSubTransaction)

/-- `~internal_subtransaction()`. -/
def destroy (this : InternalSubtransaction) : Cpp Unit := do
  if this.finished then pure ()
  else do
    ffiGuardNoexcept this.finish "cppgres: finishing internal subtransaction failed"
    this.restore

end InternalSubtransaction

inductive SubtransactionOp where
  | commit
  | rollback
  deriving DecidableEq, Repr

def SubtransactionOp.fate : SubtransactionOp → Fate
  | .commit => .released
  | .rollback => .rolledBack

def SubtransactionOp.run : SubtransactionOp → InternalSubtransaction → Cpp InternalSubtransaction
  | .commit => InternalSubtransaction.commit
  | .rollback => InternalSubtransaction.rollback

/-- What the code in the scope of a guard does besides: work that a rollback discards, and
changes of the two globals a guard restores. -/
inductive SessionAct where
  | work
  | switchTo (context : MemoryContext)
  | setOwner (owner : ResourceOwner)
  deriving DecidableEq, Repr

def SessionAct.session : SessionAct → Session → Session
  | .work => Session.doWork
  | .switchTo context => fun s => { s with currentMemoryContext := context }
  | .setOwner owner => fun s => { s with currentResourceOwner := owner }

abbrev subtransactionGuards : GuardClass CppException SigjmpBuf Backend where
  Decl := SubtransactionDecl
  Obj := InternalSubtransaction
  Op := SubtransactionOp
  Act := SessionAct
  construct := InternalSubtransaction.construct
  destroy := InternalSubtransaction.destroy
  method := SubtransactionOp.run
  act does := modifySession does.session
  drop := dropException

/-! ## What each member function does to the session -/

namespace InternalSubtransaction
variable {this : InternalSubtransaction} {s : Machine Backend} {id : SubTransactionId}
  {outer : List SubTransactionId}

/-- The guard a constructor makes in `s`. -/
def observed (decl : SubtransactionDecl) (s : Machine Backend) : InternalSubtransaction where
  ctx := s.store.session.currentMemoryContext
  owner := s.store.session.currentResourceOwner
  shouldCommit := decl.commit
  uncaught := s.uncaught
  finished := false
  name := decl.name

/-- The session with the two globals as the guard observed them. -/
def restored (this : InternalSubtransaction) (session : Session) : Session :=
  { session with currentMemoryContext := this.ctx, currentResourceOwner := this.owner }

theorem construct_apply (decl : SubtransactionDecl) (s : Machine Backend) :
    ∃ t, construct decl s = (.returned (observed decl s), t) ∧ t.uncaught = s.uncaught ∧
      t.store.session = { (s.store.session.beginInternalSubTransaction decl.name).2 with
        currentMemoryContext := s.store.session.currentMemoryContext } := by
  have begun : ffiGuard (postgres (·.beginInternalSubTransaction decl.name)) s = _ :=
    ffiGuard_postgres_ok rfl
  unfold construct
  rw [Code.get_bind, Code.bind_returned (Code.uncaughtExceptions_apply s),
    Code.bind_returned begun, Code.bind_returned (modifySession_apply _ _)]
  exact ⟨_, rfl, rfl, rfl⟩

theorem commit_apply (top : s.store.session.subtransactions = id :: outer)
    (succeeds : s.store.session.releaseFailure = none) :
    ∃ t, commit this s = (.returned { this with finished := true }, t) ∧
      t.uncaught = s.uncaught ∧
      t.store.session = this.restored (s.store.session.settle .released id outer) := by
  have done : ffiGuard (postgres (·.releaseCurrentSubTransaction)) s = _ :=
    ffiGuard_postgres_ok (Session.releaseCurrentSubTransaction_ok top succeeds)
  unfold commit
  rw [Code.bind_returned done]
  exact ⟨_, rfl, rfl, rfl⟩

theorem rollback_apply (top : s.store.session.subtransactions = id :: outer) :
    ∃ t, rollback this s = (.returned { this with finished := true }, t) ∧
      t.uncaught = s.uncaught ∧
      t.store.session = this.restored (s.store.session.settle .rolledBack id outer) := by
  have done : ffiGuard (postgres (·.rollbackAndReleaseCurrentSubTransaction)) s = _ :=
    ffiGuard_postgres_ok (Session.rollbackAndReleaseCurrentSubTransaction_ok top)
  unfold rollback
  rw [Code.bind_returned done]
  exact ⟨_, rfl, rfl, rfl⟩

theorem method_apply {op : SubtransactionOp} (top : s.store.session.subtransactions = id :: outer)
    (succeeds : op = .commit → s.store.session.releaseFailure = none) :
    ∃ t, op.run this s = (.returned { this with finished := true }, t) ∧
      t.uncaught = s.uncaught ∧
      t.store.session = this.restored (s.store.session.settle op.fate id outer) := by
  cases op with
  | commit => exact commit_apply top (succeeds rfl)
  | rollback => exact rollback_apply top

/-- A `commit()` whose release fails throws and leaves the subtransaction open. -/
theorem commit_throws {edata : ErrorData}
    (fails : s.store.session.releaseFailure = some edata) :
    ∃ exception t, commit this s = (.thrown exception, t) ∧ t.uncaught = s.uncaught + 1 ∧
      t.store.session = { s.store.session with
        releaseFailures := s.store.session.releaseFailures.tail
        failed := s.store.session.subtransactions.take 1 ++ s.store.session.failed } := by
  obtain ⟨errorCxt, elog, run⟩ := ffiGuard_postgres_error (s := s)
    (Session.releaseCurrentSubTransaction_error fails)
  have run : ffiGuard (postgres (·.releaseCurrentSubTransaction)) s = _ := run
  unfold commit
  rw [Code.bind_thrown run]
  exact ⟨_, _, rfl, rfl, rfl⟩

/-- What the destructor of a guard decides on. -/
def endFate (this : InternalSubtransaction) (unwinding : Bool) : Fate :=
  if unwinding || !this.shouldCommit then .rolledBack else .released

theorem destroy_finished (finished : this.finished = true) (s : Machine Backend) :
    this.destroy s = (.returned (), s) := by
  unfold destroy
  rw [if_pos finished]
  rfl

/-- More exceptions are in flight than at construction just when one leaves the scope. -/
theorem finish_apply {unwinding : Bool} (count : s.uncaught = this.uncaught + unwinding.toNat)
    (top : s.store.session.subtransactions = id :: outer)
    (succeeds : this.endFate unwinding = .released → s.store.session.releaseFailure = none) :
    this.finish s = (.returned (),
      (s.store.session.settle (this.endFate unwinding) id outer).into s) := by
  have decided : decide (s.uncaught > this.uncaught) = unwinding := by
    rw [count]
    cases unwinding <;> simp
  unfold endFate at succeeds ⊢
  unfold finish
  rw [Code.bind_returned (Code.uncaughtExceptions_apply s), decided]
  by_cases back : (unwinding || !this.shouldCommit) = true
  · simp only [if_pos back]
    exact postgres_ok (Session.rollbackAndReleaseCurrentSubTransaction_ok top)
  · simp only [if_neg back] at succeeds ⊢
    exact postgres_ok (Session.releaseCurrentSubTransaction_ok top (succeeds trivial))

theorem destroy_apply {unwinding : Bool} (unfinished : this.finished = false)
    (count : s.uncaught = this.uncaught + unwinding.toNat)
    (top : s.store.session.subtransactions = id :: outer)
    (succeeds : this.endFate unwinding = .released → s.store.session.releaseFailure = none) :
    ∃ t, this.destroy s = (.returned (), t) ∧ t.uncaught = s.uncaught ∧
      t.store.session =
        this.restored (s.store.session.settle (this.endFate unwinding) id outer) := by
  have run : this.finish (ffiGuardEntry s) = _ := finish_apply count top succeeds
  unfold destroy
  rw [if_neg (by rw [unfinished]; simp),
    Code.bind_returned (ffiGuardNoexcept_returned (ffiGuard_returned run))]
  exact ⟨_, rfl, rfl, rfl⟩

end InternalSubtransaction

end Cppgres
