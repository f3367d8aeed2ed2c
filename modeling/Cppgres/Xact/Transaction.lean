import Cppgres.Xact.InternalSubtransaction

/-!
# Transaction guards

`transaction` of `xact.hpp`. Its constructor starts a transaction and pushes a snapshot
only if none is running; its destructor, `commit()` and `rollback()` end a transaction and
pop a snapshot in any case. The guards of a program are balanced if each of them finds no
transaction running and is finished explicitly at most once.
-/
namespace Cppgres
open NonLocal

/-- The fields of a `transaction`. -/
structure Transaction where
  shouldCommit : Bool
  released : Bool
  deriving DecidableEq, Repr

namespace Transaction

/-- `transaction(bool commit = true)`. -/
def construct (commit : Bool) : Cpp Transaction := do
  ffiGuard do
    let b ← Code.get
    if !b.session.isTransactionState then do
      postgres (·.startTransactionCommand)
      postgres (·.pushActiveSnapshot)
    else pure ()
  pure { shouldCommit := commit, released := false }

/-- `~transaction()`. It does not ask whether an exception is in flight. -/
def destroy (this : Transaction) : Cpp Unit := do
  if this.released then pure ()
  else
    ffiGuard do
      postgres (·.popActiveSnapshot)
      if this.shouldCommit then postgres (·.commitTransactionCommand)
      else postgres (·.abortCurrentTransaction)

def commit (this : Transaction) : Cpp Transaction := do
  ffiGuard do
    postgres (·.popActiveSnapshot)
    postgres (·.commitTransactionCommand)
  pure { this with released := true }

def rollback (this : Transaction) : Cpp Transaction := do
  ffiGuard do
    postgres (·.popActiveSnapshot)
    postgres (·.abortCurrentTransaction)
  pure { this with released := true }

end Transaction

inductive TransactionOp where
  | commit
  | rollback
  deriving DecidableEq, Repr

def TransactionOp.fate : TransactionOp → Fate
  | .commit => .released
  | .rollback => .rolledBack

def TransactionOp.run : TransactionOp → Transaction → Cpp Transaction
  | .commit => Transaction.commit
  | .rollback => Transaction.rollback

abbrev transactionGuards : GuardClass CppException SigjmpBuf Backend where
  Decl := Bool
  Obj := Transaction
  Op := TransactionOp
  Act := SessionAct
  construct := Transaction.construct
  destroy := Transaction.destroy
  method := TransactionOp.run
  act does := modifySession does.session
  drop := dropException

/-! ## What each member function does to the session -/

namespace Transaction
variable {this : Transaction} {s : Machine Backend}

/-- The session in which the running transaction `id` ended and the top snapshot is gone. -/
def ending (fate : Fate) (id : Nat) (older : List Nat) (session : Session) : Session :=
  { session with snapshots := older, transaction := none, ended := (id, fate) :: session.ended }

theorem construct_apply (commit : Bool) (stopped : s.store.session.transaction = none) :
    ∃ t, construct commit s = (.returned ⟨commit, false⟩, t) ∧ t.uncaught = s.uncaught ∧
      t.store.session = { s.store.session with
        transaction := some s.store.session.nextTransaction
        nextTransaction := s.store.session.nextTransaction + 1
        snapshots := s.store.session.nextSnapshot :: s.store.session.snapshots
        nextSnapshot := s.store.session.nextSnapshot + 1 } := by
  let started : Session := { s.store.session with
    transaction := some s.store.session.nextTransaction
    nextTransaction := s.store.session.nextTransaction + 1 }
  have start : postgres (·.startTransactionCommand) (ffiGuardEntry s) =
      (.returned (), started.into (ffiGuardEntry s)) := by
    apply postgres_ok
    change s.store.session.startTransactionCommand = _
    unfold Session.startTransactionCommand
    rw [stopped]
  have idle : (!(ffiGuardEntry s).store.session.isTransactionState) = true := by
    change (!s.store.session.transaction.isSome) = true
    rw [stopped]
    rfl
  have body : (do
      let b ← Code.get
      if !b.session.isTransactionState then do
        postgres (·.startTransactionCommand)
        postgres (·.pushActiveSnapshot)
      else pure () : Cpp Unit) (ffiGuardEntry s) =
      postgres (·.pushActiveSnapshot) (started.into (ffiGuardEntry s)) := by
    rw [Code.get_bind, if_pos idle, Code.bind_returned start]
  unfold construct
  rw [Code.bind_returned (ffiGuard_returned (body.trans (postgres_ok rfl)))]
  exact ⟨_, rfl, rfl, rfl⟩

/-- The body of the destructor and of both finishers. -/
theorem finish_apply {id snapshot : Nat} {older : List Nat} (fate : Fate)
    (running : s.store.session.transaction = some id)
    (active : s.store.session.snapshots = snapshot :: older) :
    ∃ t, ffiGuard (do
        postgres (·.popActiveSnapshot)
        postgres (·.endTransaction fate)) s = (.returned (), t) ∧ t.uncaught = s.uncaught ∧
      t.store.session = ending fate id older s.store.session := by
  let unpushed : Session := { s.store.session with snapshots := older }
  have pop : postgres (·.popActiveSnapshot) (ffiGuardEntry s) =
      (.returned (), unpushed.into (ffiGuardEntry s)) := by
    apply postgres_ok
    change s.store.session.popActiveSnapshot = _
    unfold Session.popActiveSnapshot
    rw [active]
  have finish : postgres (·.endTransaction fate) (unpushed.into (ffiGuardEntry s)) = _ :=
    postgres_ok (Session.endTransaction_apply (s := unpushed) running fate)
  have body : (do
      postgres (·.popActiveSnapshot)
      postgres (·.endTransaction fate) : Cpp Unit) (ffiGuardEntry s) = _ :=
    (Code.bind_returned pop).trans finish
  exact ⟨_, ffiGuard_returned body, rfl, rfl⟩

theorem method_apply {op : TransactionOp} {id snapshot : Nat} {older : List Nat}
    (running : s.store.session.transaction = some id)
    (active : s.store.session.snapshots = snapshot :: older) :
    ∃ t, op.run this s = (.returned { this with released := true }, t) ∧
      t.uncaught = s.uncaught ∧ t.store.session = ending op.fate id older s.store.session := by
  obtain ⟨t, run, uncaught, session⟩ := finish_apply op.fate running active
  cases op with
  | commit =>
    refine ⟨t, ?_, uncaught, session⟩
    change commit this s = _
    unfold commit
    exact Code.bind_returned run
  | rollback =>
    refine ⟨t, ?_, uncaught, session⟩
    change rollback this s = _
    unfold rollback
    exact Code.bind_returned run

theorem destroy_released (released : this.released = true) (s : Machine Backend) :
    this.destroy s = (.returned (), s) := by
  unfold destroy
  rw [if_pos released]
  rfl

/-- What the destructor decides on. -/
def endFate (this : Transaction) : Fate := if this.shouldCommit then .released else .rolledBack

theorem destroy_apply {id snapshot : Nat} {older : List Nat} (unreleased : this.released = false)
    (running : s.store.session.transaction = some id)
    (active : s.store.session.snapshots = snapshot :: older) :
    ∃ t, this.destroy s = (.returned (), t) ∧ t.uncaught = s.uncaught ∧
      t.store.session = ending this.endFate id older s.store.session := by
  obtain ⟨t, run, uncaught, session⟩ := finish_apply this.endFate running active
  refine ⟨t, ?_, uncaught, session⟩
  unfold destroy
  rw [if_neg (by rw [unreleased]; simp)]
  unfold endFate at run
  cases flag : this.shouldCommit <;> rw [flag] at run <;> exact run

end Transaction

/-! ## Programs of transaction guards -/

abbrev TransactionGuard := Live transactionGuards

/-- The transaction a guard starts and the snapshot it pushes, if it does. -/
def started (guard : TransactionGuard) : Nat := guard.entry.store.session.nextTransaction

def pushedSnapshot (guard : TransactionGuard) : Nat := guard.entry.store.session.nextSnapshot

/-- A guard is constructed while no transaction is running and finished at most once. -/
def Separate (e : Event transactionGuards) : Prop :=
  match e.action with
  | .opened _ => e.before.store.session.transaction = none
  | .called _ _ guard => guard.obj.released = false
  | _ => True

instance : DecidablePred Separate
  | ⟨.opened _, _, before, _, _⟩ =>
    inferInstanceAs (Decidable (before.store.session.transaction = none))
  | ⟨.called _ _ guard, _, _, _, _⟩ => inferInstanceAs (Decidable (guard.obj.released = false))
  | ⟨.acted _, _, _, _, _⟩ => isTrue trivial
  | ⟨.closed _ _, _, _, _, _⟩ => isTrue trivial
  | ⟨.dropped _, _, _, _, _⟩ => isTrue trivial

/-- From `before` to `after` the guard ends its own transaction and pops its own snapshot. -/
structure Ended (guard : TransactionGuard) (fate : Fate) (before after : Machine Backend) :
    Prop where
  own : before.store.session.transaction = some (started guard)
  ended : after.store.session.ended = (started guard, fate) :: before.store.session.ended
  top : before.store.session.snapshots = pushedSnapshot guard :: after.store.session.snapshots

/-- The transaction and the snapshots are those of before the guard. -/
def SameBlock (before after : Machine Backend) : Prop :=
  after.store.session.transaction = before.store.session.transaction ∧
    after.store.session.snapshots = before.store.session.snapshots

def Balanced (e : Event transactionGuards) : Prop :=
  e.ending = .returned ∧
  match e.action with
  | .called _ op guard => Ended guard op.fate e.before e.after ∧ SameBlock guard.entry e.after
  | .closed guard _ =>
    (guard.obj.released = true → e.after = e.before) ∧
    (guard.obj.released = false →
      Ended guard (if guard.decl then .released else .rolledBack) e.before e.after) ∧
    SameBlock guard.entry e.after
  | .opened _ =>
    e.after.store.session.ended = e.before.store.session.ended ∧
    e.after.store.session.transaction = some e.before.store.session.nextTransaction ∧
    e.after.store.session.snapshots =
      e.before.store.session.nextSnapshot :: e.before.store.session.snapshots
  | _ => e.after.store.session.ended = e.before.store.session.ended ∧ SameBlock e.before e.after

/-- The transaction and the snapshots that the guards account for: only the innermost one
can have its transaction running. -/
def transactionOf (outside : Session) : List TransactionGuard → Option Nat
  | [] => outside.transaction
  | guard :: _ => if guard.obj.released then outside.transaction else some (started guard)

def snapshotsOf (outside : Session) : List TransactionGuard → List Nat
  | [] => outside.snapshots
  | guard :: _ =>
    if guard.obj.released then outside.snapshots else pushedSnapshot guard :: outside.snapshots

theorem transactionOf_cons (outside : Session) (guard : TransactionGuard)
    (rest : List TransactionGuard) : transactionOf outside (guard :: rest) =
      if guard.obj.released then outside.transaction else some (started guard) := rfl

theorem snapshotsOf_cons (outside : Session) (guard : TransactionGuard)
    (rest : List TransactionGuard) : snapshotsOf outside (guard :: rest) =
      if guard.obj.released then outside.snapshots
      else pushedSnapshot guard :: outside.snapshots := rfl

/-- A guard found no transaction running and the snapshots of the outside. -/
structure FoundIdle (outside : Session) (guard : TransactionGuard) : Prop where
  shouldCommit : guard.obj.shouldCommit = guard.decl
  idle : outside.transaction = none
  transaction : guard.entry.store.session.transaction = none
  snapshots : guard.entry.store.session.snapshots = outside.snapshots

structure BlockInv (outside : Session) (s : Machine (Stage transactionGuards)) : Prop where
  found : ∀ guard ∈ s.store.live, FoundIdle outside guard
  older : ∀ guard ∈ s.store.live.tail, guard.obj.released = true
  transaction : s.store.world.session.transaction = transactionOf outside s.store.live
  snapshots : s.store.world.session.snapshots = snapshotsOf outside s.store.live

section Actions
variable {outside : Session} {s : Machine (Stage transactionGuards)}

/-- A step that leaves guards, transaction and snapshots alone. -/
theorem BlockInv.quiet {t : Machine (Stage transactionGuards)} (inv : BlockInv outside s)
    (live : t.store.live = s.store.live)
    (same : SameBlock (Stage.machine s) (Stage.machine t)) : BlockInv outside t where
  found := by rw [live]; exact inv.found
  older := by rw [live]; exact inv.older
  transaction := by rw [live]; exact same.1.trans inv.transaction
  snapshots := by rw [live]; exact same.2.trans inv.snapshots

theorem transactions_act (act : SessionAct) (inv : BlockInv outside s) :
    Balanced ((Action.acted act).event (transactionGuards.act act) s) ∧
      Keeps (BlockInv outside) s.uncaught (transactionGuards.acting act s) := by
  have run : transactionGuards.act act (Stage.machine s) =
    (.returned (), (act.session s.store.world.session).into (Stage.machine s)) := rfl
  rw [Action.event_apply _ run, GuardClass.acting_apply run]
  have same : SameBlock (Stage.machine s)
      ((act.session s.store.world.session).into (Stage.machine s)) := by
    cases act <;> exact ⟨rfl, rfl⟩
  have ended : (act.session s.store.world.session).ended = s.store.world.session.ended := by
    cases act <;> rfl
  exact ⟨⟨rfl, ended, same⟩, rfl, inv.quiet rfl same⟩

theorem transactions_drop (exception : CppException) (inv : BlockInv outside s) :
    Balanced ((Action.dropped exception).event (transactionGuards.drop exception) s) ∧
      Keeps (BlockInv outside) s.uncaught (transactionGuards.dropping exception s) := by
  obtain ⟨t, run, uncaught, session⟩ : ∃ t,
      transactionGuards.drop exception (Stage.machine s) = (.returned (), t) ∧
        t.uncaught = s.uncaught ∧ t.store.session = s.store.world.session := by
    cases exception <;> exact ⟨_, rfl, rfl, rfl⟩
  rw [Action.event_apply _ run, GuardClass.dropping_apply run]
  have same : SameBlock (Stage.machine s) t :=
    ⟨congrArg Session.transaction session, congrArg Session.snapshots session⟩
  exact ⟨⟨rfl, congrArg Session.ended session, same⟩, uncaught, inv.quiet rfl same⟩

/-- A new guard starts a transaction: so all guards around it have ended theirs. -/
theorem transactions_open (decl : Bool) (inv : BlockInv outside s)
    (stopped : s.store.world.session.transaction = none) :
    Balanced ((Action.opened decl).event (transactionGuards.construct decl) s) ∧
      Keeps (BlockInv outside) s.uncaught (transactionGuards.opening decl s) := by
  obtain ⟨t, run, uncaught, session⟩ :=
    Transaction.construct_apply (s := Stage.machine s) decl stopped
  have run : transactionGuards.construct decl (Stage.machine s) = _ := run
  rw [Action.event_apply _ run, GuardClass.opening_returned run]
  have around : (∀ guard ∈ s.store.live, guard.obj.released = true) ∧
      outside.transaction = none ∧ s.store.world.session.snapshots = outside.snapshots := by
    have transaction := inv.transaction
    have snapshots := inv.snapshots
    rw [stopped] at transaction
    have older := inv.older
    cases live : s.store.live with
    | nil =>
      rw [live] at transaction snapshots
      exact ⟨(fun _ member => nomatch member), transaction.symm, snapshots⟩
    | cons guard rest =>
      rw [live] at transaction snapshots older
      rw [transactionOf_cons] at transaction
      rw [snapshotsOf_cons] at snapshots
      cases released : guard.obj.released with
      | false =>
        rw [released] at transaction
        cases transaction
      | true =>
        rw [released] at transaction snapshots
        exact ⟨List.forall_mem_cons.mpr ⟨released, older⟩, transaction.symm, snapshots⟩
  obtain ⟨older, idle, snapshots⟩ := around
  refine ⟨⟨rfl, ?_⟩, uncaught, ?_, older, ?_, ?_⟩
  · change t.store.session.ended = _ ∧ t.store.session.transaction = _ ∧
      t.store.session.snapshots = _
    rw [session]
    exact ⟨rfl, rfl, rfl⟩
  · exact List.forall_mem_cons.mpr ⟨⟨rfl, idle, stopped, snapshots⟩, inv.found⟩
  · change t.store.session.transaction = _
    rw [session]
    rfl
  · change t.store.session.snapshots = _
    rw [session]
    exact congrArg (_ :: ·) snapshots

/-- The guard whose transaction is running. -/
theorem BlockInv.running {guard : TransactionGuard} {rest : List TransactionGuard}
    (inv : BlockInv outside s) (live : s.store.live = guard :: rest)
    (unreleased : guard.obj.released = false) :
    s.store.world.session.transaction = some (started guard) ∧
      s.store.world.session.snapshots = pushedSnapshot guard :: outside.snapshots := by
  have transaction := inv.transaction
  have snapshots := inv.snapshots
  rw [live, transactionOf_cons, unreleased] at transaction
  rw [live, snapshotsOf_cons, unreleased] at snapshots
  exact ⟨transaction, snapshots⟩

/-- The guard's transaction ended, and its snapshot went with it. -/
theorem ended_over {guard : TransactionGuard} {fate : Fate} {t : Machine Backend}
    (found : FoundIdle outside guard)
    (running : s.store.world.session.transaction = some (started guard))
    (active : s.store.world.session.snapshots = pushedSnapshot guard :: outside.snapshots)
    (session : t.store.session =
      Transaction.ending fate (started guard) outside.snapshots s.store.world.session) :
    Ended guard fate (Stage.machine s) t ∧ SameBlock guard.entry t := by
  unfold SameBlock
  rw [found.transaction, found.snapshots, session]
  refine ⟨⟨running, ?_, ?_⟩, rfl, rfl⟩
  · rw [session]
    rfl
  · rw [session]
    exact active

/-- Guards that have all ended their transactions, in a session whose block is the one around
`guard`. -/
theorem BlockInv.ended {guard : TransactionGuard} {t : Machine (Stage transactionGuards)}
    (around : FoundIdle outside guard) (same : SameBlock guard.entry (Stage.machine t))
    (found : ∀ g ∈ t.store.live, FoundIdle outside g)
    (released : ∀ g ∈ t.store.live, g.obj.released = true) : BlockInv outside t := by
  have transaction : t.store.world.session.transaction = outside.transaction :=
    same.1.trans (around.transaction.trans around.idle.symm)
  have snapshots : t.store.world.session.snapshots = outside.snapshots :=
    same.2.trans around.snapshots
  refine ⟨found, fun g member => released g (List.mem_of_mem_tail member), ?_, ?_⟩
  · rw [transaction]
    cases live : t.store.live with
    | nil => rfl
    | cons g rest =>
      rw [transactionOf_cons, released g (live ▸ List.mem_cons_self)]
      rfl
  · rw [snapshots]
    cases live : t.store.live with
    | nil => rfl
    | cons g rest =>
      rw [snapshotsOf_cons, released g (live ▸ List.mem_cons_self)]
      rfl

theorem transactions_call (index : Nat) (op : TransactionOp) (guard : TransactionGuard)
    (inv : BlockInv outside s) (here : s.store.live[index]? = some guard)
    (unreleased : guard.obj.released = false) :
    Balanced ((Action.called index op guard).event (transactionGuards.method op guard.obj) s) ∧
      Keeps (BlockInv outside) s.uncaught (transactionGuards.calling index op guard s) := by
  obtain ⟨rfl, rest, live⟩ : index = 0 ∧ ∃ rest, s.store.live = guard :: rest := by
    have older := inv.older
    cases live : s.store.live with
    | nil => rw [live] at here; cases here
    | cons head rest =>
      rw [live] at here older
      cases index with
      | zero => cases here; exact ⟨rfl, rest, rfl⟩
      | succ index =>
        rw [older guard (List.mem_of_getElem? here)] at unreleased
        cases unreleased
  obtain ⟨running, active⟩ := inv.running live unreleased
  have found := inv.found guard (by rw [live]; exact List.mem_cons_self)
  obtain ⟨t, run, uncaught, session⟩ :=
    @Transaction.method_apply guard.obj (Stage.machine s) op _ _ _ running active
  have run : transactionGuards.method op guard.obj (Stage.machine s) = _ := run
  rw [Action.event_apply _ run, GuardClass.calling_returned run, live]
  have older := inv.older
  have others := inv.found
  rw [live] at older others
  obtain ⟨ended, same⟩ := ended_over found running active session
  refine ⟨⟨rfl, ended, same⟩, uncaught, .ended found same ?_ ?_⟩
  · exact List.forall_mem_cons.mpr
      ⟨⟨found.shouldCommit, found.idle, found.transaction, found.snapshots⟩,
        fun g member => others g (List.mem_cons_of_mem _ member)⟩
  · exact List.forall_mem_cons.mpr ⟨rfl, older⟩

theorem transactions_close {guard : TransactionGuard} {rest : List TransactionGuard}
    {unwinding : Bool} {t : Machine (Stage transactionGuards)} (inv : BlockInv outside s)
    (live : s.store.live = guard :: rest)
    (popped : t = { s with store := { s.store with live := rest } }) :
    Balanced ((Action.closed guard unwinding).event (transactionGuards.destroy guard.obj) t) ∧
      Keeps (BlockInv outside) s.uncaught (transactionGuards.closing unwinding s) := by
  subst popped
  have older := inv.older
  have others := inv.found
  rw [live] at older others
  obtain ⟨found, others⟩ := List.forall_mem_cons.mp others
  cases released : guard.obj.released with
  | true =>
    have run : transactionGuards.destroy guard.obj (Stage.machine s) = _ :=
      Transaction.destroy_released released (Stage.machine s)
    have called := Action.event_apply (s := { s with store := { s.store with live := rest } })
      (Action.closed guard unwinding) run
    have same : SameBlock guard.entry (Stage.machine s) := by
      have transaction := inv.transaction
      have snapshots := inv.snapshots
      rw [live, transactionOf_cons, released] at transaction
      rw [live, snapshotsOf_cons, released] at snapshots
      unfold SameBlock
      rw [found.transaction, ← found.idle, found.snapshots]
      exact ⟨transaction, snapshots⟩
    rw [called, GuardClass.closing_apply live run]
    refine ⟨⟨rfl, fun _ => rfl, ?_, same⟩, rfl, .ended found same others older⟩
    intro unreleased
    rw [released] at unreleased
    cases unreleased
  | false =>
    obtain ⟨running, active⟩ := inv.running live released
    obtain ⟨t, run, uncaught, session⟩ :=
      Transaction.destroy_apply (s := Stage.machine s) released running active
    have run : transactionGuards.destroy guard.obj (Stage.machine s) = _ := run
    have called := Action.event_apply (s := { s with store := { s.store with live := rest } })
      (Action.closed guard unwinding) run
    obtain ⟨ended, same⟩ := ended_over found running active session
    rw [called, GuardClass.closing_apply live run]
    refine ⟨⟨rfl, ?_, fun _ => ?_, same⟩, uncaught, .ended found same others older⟩
    · intro done
      rw [released] at done
      cases done
    · unfold Transaction.endFate at ended
      rw [found.shouldCommit] at ended
      exact ended

end Actions

/-- The rules of programs of transaction guards. -/
theorem transactionRules (outside : Session) :
    Rules transactionGuards (BlockInv outside) Separate Balanced where
  act act _ inv _ := transactions_act act inv
  call index op guard _ inv here unreleased := transactions_call index op guard inv here unreleased
  open_ decl _ inv stopped := transactions_open decl inv stopped
  close _ _ _ _ _ inv live _ popped _ := transactions_close inv live popped
  drop exception _ inv _ := transactions_drop exception inv
  uncaught _ _ inv := ⟨inv.found, inv.older, inv.transaction, inv.snapshots⟩

/-- If every guard finds no transaction running and is finished explicitly at most once, each
of them ends the one transaction it started and pops the one snapshot it pushed, and the
session's block and snapshots are as before when it is destroyed. -/
theorem transactionGuards_balanced (p : Prog transactionGuards) (s : Machine Backend)
    (separate : ∀ e ∈ (p.run (Prog.start s)).2.store.log, Separate e) :
    let run := p.run (Prog.start s)
    (∀ e ∈ run.2.store.log, Balanced e) ∧
    (run.1 ≠ .aborted →
      run.2.store.world.session.transaction = s.store.session.transaction ∧
      run.2.store.world.session.snapshots = s.store.session.snapshots) := by
  intro run
  have start : BlockInv s.store.session (Prog.start s) :=
    ⟨(fun _ member => nomatch member), (fun _ member => nomatch member), rfl, rfl⟩
  have ⟨good, keeps⟩ := p.run_keeps (transactionRules s.store.session) s start separate
  refine ⟨good, fun finished => ?_⟩
  obtain ⟨inv, none_live⟩ := keeps.reached finished
  have transaction := inv.transaction
  have snapshots := inv.snapshots
  rw [none_live] at transaction snapshots
  exact ⟨transaction, snapshots⟩

/-- A backend between transactions, with one active snapshot. -/
def betweenTransactions : Machine Backend :=
  { idle with store := { idle.store with session := { idle.store.session with
    transaction := none, snapshots := [7], nextSnapshot := 8 } } }

/-- Two guards in a row, the first one rolled back early, the second left by an exception. -/
def twoTransactions : Prog transactionGuards :=
  .seq (.scope true (.call 0 .rollback))
    (.attempt (fun _ => true) (.scope true (.throw .other)) .skip false)

theorem twoTransactions_balanced :
    (twoTransactions.run (Prog.start betweenTransactions)).2.store.world.session.snapshots = [7] :=
  ((transactionGuards_balanced twoTransactions betweenTransactions (by decide +kernel)).2
    (by decide +kernel)).2

/-- A backend inside a transaction, with one active snapshot. -/
def insideTransaction : Machine Backend :=
  { idle with store := { idle.store with session := { idle.store.session with
    transaction := some 0, snapshots := [7], nextSnapshot := 8 } } }

/-- A guard constructed there starts nothing, and ends the transaction around it. -/
theorem insideTransaction_ended :
    ((Prog.scope true .skip : Prog transactionGuards).run
        (Prog.start insideTransaction)).1 = .returned () ∧
    ((Prog.scope true .skip : Prog transactionGuards).run
        (Prog.start insideTransaction)).2.store.world.session.transaction = none ∧
    ((Prog.scope true .skip : Prog transactionGuards).run
        (Prog.start insideTransaction)).2.store.world.session.snapshots = [] ∧
    ((Prog.scope true .skip : Prog transactionGuards).run
        (Prog.start insideTransaction)).2.store.world.session.ended = [(0, .released)] := by
  decide +kernel

end Cppgres
