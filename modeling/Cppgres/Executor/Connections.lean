import Cppgres.Executor.ConnectionSpecs

/-!
# Programs of executors and subtransaction guards

`executors` and the connections of SPI are two stacks that only constructors and
destructors keep in step, while the end of a subtransaction changes one of them.
`Cppgres.executors_own_connections` is about every run that ends no subtransaction with an
open connection made in it.
-/
namespace Cppgres
open NonLocal

inductive ConnectionDecl where
  | subtransaction (decl : SubtransactionDecl)
  | executor (decl : ExecutorDecl)
  deriving DecidableEq, Repr

inductive ConnectionObj where
  | subtransaction (guard : InternalSubtransaction)
  | executor (this : SpiExecutor)
  deriving DecidableEq, Repr

inductive ConnectionOp (V : Type) where
  | finish (op : SubtransactionOp)
  | operate (op : ExecutorOp V)

namespace ConnectionObj
variable {V : Type}

def executor? : ConnectionObj → Option SpiExecutor
  | .subtransaction _ => none
  | .executor this => some this

def construct : ConnectionDecl → Cpp ConnectionObj
  | .subtransaction decl => do
    let guard ← InternalSubtransaction.construct decl
    pure (.subtransaction guard)
  | .executor decl => do
    let this ← SpiExecutor.construct decl
    pure (.executor this)

def destroy : ConnectionObj → Cpp Unit
  | .subtransaction guard => guard.destroy
  | .executor this => this.destroy

/-- An operation of the other class is no program: such a call does nothing. -/
def method (pgMajorversionNum : Nat) (catalog : Catalog) :
    ConnectionOp V → ConnectionObj → Cpp ConnectionObj
  | .finish op, .subtransaction guard => do
    let guard ← op.run guard
    pure (.subtransaction guard)
  | .operate op, .executor this => do
    op.run pgMajorversionNum catalog this
    pure (.executor this)
  | .finish _, .executor this => pure (.executor this)
  | .operate _, .subtransaction guard => pure (.subtransaction guard)

end ConnectionObj

abbrev connectionScopes (V : Type) (pgMajorversionNum : Nat) (catalog : Catalog) :
    GuardClass CppException SigjmpBuf Backend where
  Decl := ConnectionDecl
  Obj := ConnectionObj
  Op := ConnectionOp V
  Act := SessionAct
  construct := ConnectionObj.construct
  destroy := ConnectionObj.destroy
  method := ConnectionObj.method pgMajorversionNum catalog
  act does := modifySession does.session
  drop := dropException

section Connections
variable {V : Type} {pgMajorversionNum : Nat} {catalog : Catalog}

/-- The executors that are alive, innermost first. -/
def executorsIn (live : List (Live (connectionScopes V pgMajorversionNum catalog))) :
    List SpiExecutor :=
  live.filterMap fun object => object.obj.executor?

/-- The stack `executors` is that of `alive` above what was there `outside`, and so are the
connections, each the one that its executor made. A newer executor has a newer address and
a newer connection, so no two share either. -/
structure Corresponds (outside : Backend) (alive : List SpiExecutor) (b : Backend) : Prop where
  executors : b.executors = alive ++ outside.executors
  spi : ∃ connections, b.session.spi = connections ++ outside.session.spi ∧
    connections.map (·.procCxt) = alive.map (·.spi)
  newer : alive.Pairwise fun new old => old.address < new.address ∧ old.spi < new.spi
  known : ∀ this ∈ alive, this.address < b.nextAddress ∧ this.spi < b.session.nextProcCxt

namespace Corresponds
variable {outside b c : Backend} {alive : List SpiExecutor} {this : SpiExecutor}

theorem start (b : Backend) : Corresponds b [] b where
  executors := rfl
  spi := ⟨[], rfl, rfl⟩
  newer := .nil
  known _ member := nomatch member

theorem works {calls : List MemoryContext} (corresponds : Corresponds outside alive b)
    (works : b.Works calls c) : Corresponds outside alive c where
  executors := works.executors.trans corresponds.executors
  spi := by rw [works.session.spi]; exact corresponds.spi
  newer := corresponds.newer
  known other member :=
    have ⟨address, context⟩ := corresponds.known other member
    ⟨Nat.lt_of_lt_of_le address works.nextAddress,
      Nat.lt_of_lt_of_le context works.session.nextProcCxt⟩

theorem opened (corresponds : Corresponds outside alive b) (opened : Backend.Opened this b c) :
    Corresponds outside (this :: alive) c where
  executors := by rw [opened.executors, corresponds.executors, List.cons_append]
  spi := by
    obtain ⟨connections, spi, contexts⟩ := corresponds.spi
    obtain ⟨connection, top, context⟩ := opened.spi
    refine ⟨connection :: connections, ?_, ?_⟩
    · rw [top, spi, List.cons_append]
    · rw [List.map_cons, List.map_cons, context, contexts]
  newer := by
    refine List.pairwise_cons.mpr ⟨fun old member => ?_, corresponds.newer⟩
    obtain ⟨address, context⟩ := corresponds.known old member
    exact ⟨Nat.lt_of_lt_of_le address opened.address.1, Nat.lt_of_lt_of_le context opened.context.1⟩
  known := by
    refine List.forall_mem_cons.mpr ⟨⟨opened.address.2, opened.context.2⟩, fun old member => ?_⟩
    obtain ⟨address, context⟩ := corresponds.known old member
    exact ⟨Nat.lt_trans (Nat.lt_of_lt_of_le address opened.address.1) opened.address.2,
      Nat.lt_trans (Nat.lt_of_lt_of_le context opened.context.1) opened.context.2⟩

theorem closed (corresponds : Corresponds outside (this :: alive) b) (closed : b.Closed c) :
    Corresponds outside alive c where
  executors := by rw [closed.executors, corresponds.executors, List.cons_append, List.tail_cons]
  spi := by
    obtain ⟨connections, spi, contexts⟩ := corresponds.spi
    obtain ⟨connection, rest, rfl, _, contexts⟩ := List.map_eq_cons_iff.mp contexts
    exact ⟨rest, by rw [closed.spi, spi, List.cons_append, List.tail_cons], contexts⟩
  newer := (List.pairwise_cons.mp corresponds.newer).2
  known other member :=
    have ⟨address, context⟩ := corresponds.known other (List.mem_cons_of_mem _ member)
    ⟨Nat.lt_of_lt_of_le address closed.nextAddress, Nat.lt_of_lt_of_le context closed.nextProcCxt⟩

theorem length (corresponds : Corresponds outside alive b) :
    b.session.spi.length = alive.length + outside.session.spi.length := by
  obtain ⟨connections, spi, contexts⟩ := corresponds.spi
  have length := congrArg List.length contexts
  rw [List.length_map, List.length_map] at length
  rw [spi, List.length_append, length]

/-- The innermost executor is on top of one stack, its connection on top of the other. -/
theorem innermost (corresponds : Corresponds outside (this :: alive) b) :
    (∃ below, b.executors = this :: below) ∧
    ∃ connection outer, b.session.spi = connection :: outer ∧ connection.procCxt = this.spi := by
  obtain ⟨connections, spi, contexts⟩ := corresponds.spi
  obtain ⟨connection, rest, rfl, context, _⟩ := List.map_eq_cons_iff.mp contexts
  exact ⟨⟨_, corresponds.executors⟩, ⟨connection, _, spi, context⟩⟩

/-- Any other executor that is alive is not. -/
theorem others (corresponds : Corresponds outside alive b) (member : this ∈ alive)
    (other : alive.head? ≠ some this) :
    ∃ top below, b.executors = top :: below ∧ top.address ≠ this.address := by
  cases alive with
  | nil => cases member
  | cons top rest =>
    refine ⟨top, _, corresponds.executors, ?_⟩
    rcases List.mem_cons.mp member with rfl | older
    · exact absurd rfl other
    · have newer := (List.pairwise_cons.mp corresponds.newer).1 this older
      omega

end Corresponds

/-! ## Conditions and properties of events -/

/-- The end of a subtransaction, explicit or by a destructor, discards no connection. -/
def Spares (e : Event (connectionScopes V pgMajorversionNum catalog)) : Prop :=
  match e.action with
  | .called _ (.finish op) object =>
    match object.obj with
    | .subtransaction _ => e.before.store.session.discards op.fate = false
    | .executor _ => True
  | .closed object _ =>
    match object.obj with
    | .subtransaction guard => guard.finished = true ∨
        e.before.store.session.discards (guard.impending e.before) = false
    | .executor _ => True
  | .called _ (.operate _) _ => True
  | .acted _ => True
  | .opened _ => True
  | .dropped _ => True

instance : DecidablePred (@Spares V pgMajorversionNum catalog)
  | ⟨.called _ (.finish op) ⟨.subtransaction _, _, _, _⟩, _, before, _, _⟩ =>
    inferInstanceAs (Decidable (before.store.session.discards op.fate = false))
  | ⟨.closed ⟨.subtransaction guard, _, _, _⟩ _, _, before, _, _⟩ =>
    inferInstanceAs (Decidable (guard.finished = true ∨
      before.store.session.discards (guard.impending before) = false))
  | ⟨.called _ (.finish _) ⟨.executor _, _, _, _⟩, _, _, _, _⟩ => isTrue trivial
  | ⟨.closed ⟨.executor _, _, _, _⟩ _, _, _, _, _⟩ => isTrue trivial
  | ⟨.called _ (.operate _) _, _, _, _, _⟩ => isTrue trivial
  | ⟨.acted _, _, _, _, _⟩ => isTrue trivial
  | ⟨.opened _, _, _, _, _⟩ => isTrue trivial
  | ⟨.dropped _, _, _, _, _⟩ => isTrue trivial

/-- The objects that are alive before an event. -/
def around (e : Event (connectionScopes V pgMajorversionNum catalog)) :
    List (Live (connectionScopes V pgMajorversionNum catalog)) :=
  match e.action with
  | .closed object _ => object :: e.live
  | .called _ _ _ => e.live
  | .acted _ => e.live
  | .opened _ => e.live
  | .dropped _ => e.live

/-- An operation on the innermost executor works on the connection of that executor, unless
it is refused or the process ends in it; on any other it throws and does nothing. -/
def OwnConnection (e : Event (connectionScopes V pgMajorversionNum catalog)) : Prop :=
  ∀ index op object this, e.action = .called index (.operate op) object →
    object.obj = .executor this →
    ((executorsIn e.live).head? = some this → e.ending = .aborted ∨
      ((op.refused = true → e.ending = .thrown) ∧ e.after.store.session.spiCalls =
        op.calls this.spi ++ e.before.store.session.spiCalls)) ∧
    ((executorsIn e.live).head? ≠ some this →
      e.ending = .thrown ∧ e.after.store = e.before.store)

/-- Of other actions nothing is asked. -/
theorem OwnConnection.of_other {e : Event (connectionScopes V pgMajorversionNum catalog)}
    {action : Action (connectionScopes V pgMajorversionNum catalog)} (same : e.action = action)
    (other : ∀ index op object, action ≠ .called index (.operate op) object) : OwnConnection e :=
  fun index op object _ called _ => absurd (same.symm.trans called) (other index op object)

/-! ## Each action keeps the correspondence -/

section Actions
variable {outside : Backend} {s : Machine (Stage (connectionScopes V pgMajorversionNum catalog))}

/-- The correspondence, as a property of the world and its objects. -/
def Corresponding (outside : Backend) (b : Backend)
    (live : List (Live (connectionScopes V pgMajorversionNum catalog))) : Prop :=
  Corresponds outside (executorsIn live) b

/-- A property of each event: the stacks correspond before it, and operations work where
they are to work. -/
def InStep (outside : Backend) (e : Event (connectionScopes V pgMajorversionNum catalog)) : Prop :=
  Corresponds outside (executorsIn (around e)) e.before.store ∧ OwnConnection e

theorem ends_works {α : Type} {m : Cpp α} {calls : List MemoryContext}
    {live : List (Live (connectionScopes V pgMajorversionNum catalog))} {t : Machine Backend}
    {throws : CppException → Backend → Prop} (corresponds : Corresponding outside t.store live)
    (ends : m.Ends t (fun _ b => t.store.Works calls b) throws)
    (thrown : ∀ exception b, throws exception b → t.store.Works calls b) :
    m.Ends t (fun _ b => Corresponding outside b live) fun _ b => Corresponding outside b live :=
  ends.mono (fun _ _ works => corresponds.works works)
    fun _ _ post => corresponds.works (thrown _ _ post)

theorem connections_act (act : SessionAct) (has : Stage.Has (Corresponding outside) s) :
    Keeps (Stage.Has (Corresponding outside)) s.uncaught
      ((connectionScopes V pgMajorversionNum catalog).acting act s) := by
  apply Action.keeps
  refine ends_works has (@ends_modifySession _ [] _ ?_) fun _ _ never => never.elim
  cases act <;> exact ⟨rfl, Nat.le_refl _, rfl⟩

theorem connections_drop (exception : CppException)
    (has : Stage.Has (Corresponding outside) s) :
    Keeps (Stage.Has (Corresponding outside)) s.uncaught
      ((connectionScopes V pgMajorversionNum catalog).dropping exception s) :=
  Action.keeps (ends_works has (ends_dropException exception) fun _ _ never => never.elim)

theorem connections_open (decl : ConnectionDecl) (has : Stage.Has (Corresponding outside) s) :
    Keeps (Stage.Has (Corresponding outside)) s.uncaught
      ((connectionScopes V pgMajorversionNum catalog).opening decl s) := by
  apply GuardClass.opening_keeps
  cases decl with
  | subtransaction decl =>
    refine .bind (InternalSubtransaction.ends_construct decl) ?_
      fun _ _ works => Corresponds.works has works
    intro guard t _ works
    exact .pure (Corresponds.works has works)
  | executor decl =>
    refine .bind (SpiExecutor.ends_construct decl) ?_
      fun _ _ works => Corresponds.works has works
    intro this t _ opened
    exact .pure (Corresponds.opened has opened)

theorem connections_close {object : Live (connectionScopes V pgMajorversionNum catalog)}
    {rest : List (Live (connectionScopes V pgMajorversionNum catalog))} {unwinding : Bool}
    (has : Stage.Has (Corresponding outside) s) (live : s.store.live = object :: rest)
    (spares : ∀ guard, object.obj = .subtransaction guard → guard.finished = true ∨
      s.store.world.session.discards (guard.impending (Stage.machine s)) = false) :
    Keeps (Stage.Has (Corresponding outside)) s.uncaught
      ((connectionScopes V pgMajorversionNum catalog).closing unwinding s) := by
  refine GuardClass.closing_keeps live ?_
  unfold Stage.Has Corresponding at has
  rw [live] at has
  obtain ⟨obj, decl, entry, enclosing⟩ := object
  cases obj with
  | subtransaction guard =>
    exact ends_works has (InternalSubtransaction.ends_destroy (spares guard rfl))
      fun _ _ never => never.elim
  | executor this =>
    exact (SpiExecutor.ends_destroy this).mono (fun _ _ closed => Corresponds.closed has closed)
      fun _ _ never => never.elim

/-- A method leaves every executor where it is. -/
theorem executorsIn_set {live : List (Live (connectionScopes V pgMajorversionNum catalog))}
    {index : Nat} {object : Live (connectionScopes V pgMajorversionNum catalog)}
    {obj : ConnectionObj} (found : live[index]? = some object)
    (same : obj.executor? = object.obj.executor?) :
    executorsIn (live.set index { object with obj }) = executorsIn live := by
  induction live generalizing index with
  | nil => rfl
  | cons head rest ih =>
    unfold executorsIn at ih ⊢
    cases index with
    | zero =>
      cases found
      rw [List.set_cons_zero, List.filterMap_cons, List.filterMap_cons, same]
    | succ index =>
      rw [List.set_cons_succ, List.filterMap_cons, List.filterMap_cons, ih found]

theorem connections_finish {index : Nat} {op : SubtransactionOp}
    {object : Live (connectionScopes V pgMajorversionNum catalog)}
    (has : Stage.Has (Corresponding outside) s) (found : s.store.live[index]? = some object)
    (spares : ∀ guard, object.obj = .subtransaction guard →
      s.store.world.session.discards op.fate = false) :
    Keeps (Stage.Has (Corresponding outside)) s.uncaught
      ((connectionScopes V pgMajorversionNum catalog).calling index (.finish op) object s) := by
  apply GuardClass.calling_keeps
  have still (obj : ConnectionObj) (same : obj.executor? = object.obj.executor?) (b : Backend)
      (works : s.store.world.Works [] b) :
      Corresponding outside b (s.store.live.set index { object with obj }) := by
    unfold Corresponding
    rw [executorsIn_set found same]
    exact Corresponds.works has works
  obtain ⟨obj, decl, entry, enclosing⟩ := object
  cases obj with
  | executor this => exact .pure (still _ rfl _ (.refl _))
  | subtransaction guard =>
    refine .bind (InternalSubtransaction.ends_finish (spares guard rfl)) ?_
      fun _ _ works => Corresponds.works has works
    intro guard' t _ works
    exact .pure (still (.subtransaction guard') rfl _ works)

/-- An operation on the innermost executor works on the connection of that executor. -/
theorem ends_operate {op : ExecutorOp V} {this : SpiExecutor} {older : List SpiExecutor}
    (top : Corresponds outside (this :: older) s.store.world) :
    ((connectionScopes V pgMajorversionNum catalog).method (.operate op) (.executor this)).Ends
      (Stage.machine s)
      (fun obj b => obj = .executor this ∧ op.refused = false ∧
        s.store.world.Works (op.calls this.spi) b)
      fun _ b => s.store.world.Works (op.calls this.spi) b := by
  obtain ⟨⟨below, stack⟩, connection, outer, spi, context⟩ := top.innermost
  rw [← context]
  refine .bind (@ExecutorOp.ends_run _ _ _ op this this below connection outer
    (Stage.machine s) stack rfl spi) ?_ fun _ _ works => works
  intro _ t _ post
  exact .pure ⟨rfl, post⟩

/-- An operation: what it does, and that the stacks still correspond. -/
theorem connections_operate {index : Nat} {op : ExecutorOp V}
    {object : Live (connectionScopes V pgMajorversionNum catalog)}
    (has : Stage.Has (Corresponding outside) s) (found : s.store.live[index]? = some object) :
    OwnConnection ((Action.called index (ConnectionOp.operate op) object).event
      ((connectionScopes V pgMajorversionNum catalog).method (.operate op) object.obj) s) ∧
    Keeps (Stage.Has (Corresponding outside)) s.uncaught
      ((connectionScopes V pgMajorversionNum catalog).calling index (.operate op) object s) := by
  have still {calls : List MemoryContext} (b : Backend)
      (works : s.store.world.Works calls b) :
      Corresponding outside b (s.store.live.set index { object with obj := object.obj }) := by
    unfold Corresponding
    rw [executorsIn_set found rfl]
    exact Corresponds.works has works
  obtain ⟨obj, decl, entry, enclosing⟩ := object
  cases obj with
  | subtransaction guard =>
    constructor
    · intro index' op' object' this called executor
      cases called
      cases executor
    · exact GuardClass.calling_keeps (.pure (still _ (.refl _)))
  | executor this =>
    have member : this ∈ executorsIn s.store.live :=
      List.mem_filterMap.mpr ⟨_, List.mem_of_getElem? found, rfl⟩
    by_cases innermost : (executorsIn s.store.live).head? = some this
    · obtain ⟨older, alive⟩ := List.head?_eq_some_iff.mp innermost
      have top : Corresponds outside (this :: older) s.store.world := alive ▸ has
      have ends := @ends_operate V pgMajorversionNum catalog outside s op this older top
      constructor
      · intro index' op' object' this' called executor
        cases called
        cases executor
        refine ⟨fun _ => ?_, fun other => absurd innermost other⟩
        rcases Action.event_ends ends with
          ⟨_, _, _, accepted, works⟩ | ⟨ending, _, works⟩ | ending
        · refine .inr ⟨fun refused => ?_, works.session.spiCalls⟩
          rw [accepted] at refused
          cases refused
        · exact .inr ⟨fun _ => ending, works.session.spiCalls⟩
        · exact .inl ending
      · apply GuardClass.calling_keeps
        refine ends.mono ?_ fun _ _ works => Corresponds.works has works
        rintro _ b ⟨rfl, _, works⟩
        exact still b works
    · obtain ⟨top, below, stack, other⟩ := has.others member innermost
      have run : (connectionScopes V pgMajorversionNum catalog).method (.operate op)
          (.executor this) (Stage.machine s) = _ :=
        Code.bind_thrown (@ExecutorOp.run_other _ _ _ op this top below (Stage.machine s) stack other)
      constructor
      · intro index' op' object' this' called executor
        cases called
        cases executor
        refine ⟨fun first => absurd first innermost, fun _ => ?_⟩
        rw [Action.event_apply _ run]
        exact ⟨rfl, rfl⟩
      · rw [GuardClass.calling_thrown run]
        exact ⟨rfl, has⟩

/-- The rules of programs that discard no open connection. -/
theorem connectionRules (outside : Backend) :
    Rules (connectionScopes V pgMajorversionNum catalog) (Stage.Has (Corresponding outside))
      Spares (InStep outside) where
  act act s has _ := ⟨⟨has, .of_other rfl fun _ _ _ => nofun⟩, connections_act act has⟩
  drop exception s has _ :=
    ⟨⟨has, .of_other rfl fun _ _ _ => nofun⟩, connections_drop exception has⟩
  open_ decl s has _ := ⟨⟨has, .of_other rfl fun _ _ _ => nofun⟩, connections_open decl has⟩
  uncaught s count has := has
  call index op object s has found spares := by
    cases op with
    | finish op =>
      refine ⟨⟨has, .of_other rfl fun _ _ _ => nofun⟩,
        connections_finish has found fun guard same => ?_⟩
      unfold Spares Action.event at spares
      dsimp only at spares
      rw [same] at spares
      exact spares
    | operate op =>
      obtain ⟨own, keeps⟩ := @connections_operate V pgMajorversionNum catalog outside s index op
        object has found
      exact ⟨⟨has, own⟩, keeps⟩
  close object rest unwinding s t has live count popped spares := by
    subst popped
    refine ⟨⟨?_, .of_other rfl fun _ _ _ => nofun⟩,
      connections_close has live fun guard same => ?_⟩
    · unfold Stage.Has Corresponding at has
      rw [live] at has
      exact has
    · unfold Spares Action.event at spares
      dsimp only at spares
      rw [same] at spares
      exact spares

end Actions

/-- Every executor works on its own connection, at every point of every run that ends no
subtransaction with an open connection made in it, and such a run leaves both stacks as
they were. -/
theorem executors_own_connections (p : Prog (connectionScopes V pgMajorversionNum catalog))
    (s : Machine Backend)
    (spares : ∀ e ∈ (p.run (Prog.start s)).2.store.log, Spares e) :
    (∀ e ∈ (p.run (Prog.start s)).2.store.log, InStep s.store e) ∧
    Keeps (fun t => t.store.world.executors = s.store.executors ∧
        t.store.world.session.spi = s.store.session.spi) s.uncaught
      (p.run (Prog.start s)) := by
  have ⟨good, keeps⟩ := p.run_keeps (connectionRules s.store) s (.start s.store) spares
  refine ⟨good, keeps.mono fun t ⟨has, none_live⟩ => ?_⟩
  unfold Stage.Has Corresponding at has
  rw [none_live] at has
  obtain ⟨connections, spi, contexts⟩ := has.spi
  cases List.map_eq_nil_iff.mp contexts
  exact ⟨has.executors, spi⟩

end Connections

def noCatalog : Catalog := ⟨fun _ => none, fun _ => ""⟩

def dml (sql : String) : ConnectionOp Nat := .operate (.execute sql ⟨false, 0⟩ [])

/-- Executors around and in a subtransaction that is left by an exception, and an operation
on the outer one while the inner one lives. -/
def nestedExecutors : Prog (connectionScopes Nat 17 noCatalog) :=
  .scope (.executor .nonatomic)
    (.seq (.attempt (fun _ => true)
        (.scope (.subtransaction ⟨none, true⟩)
          (.scope (.executor (.plain false))
            (.seq (.call 0 (dml "DELETE FROM t"))
              (.call 2 (dml "DELETE FROM t")))))
        .skip false)
      (.call 0 (.operate (.commit false))))

theorem nestedExecutors_correspond :
    (nestedExecutors.run (Prog.start idle)).2.store.world.session.spiCalls = [1, 2] ∧
    ∀ e ∈ (nestedExecutors.run (Prog.start idle)).2.store.log, InStep idle.store e :=
  ⟨by decide +kernel, (executors_own_connections nestedExecutors idle (by decide +kernel)).1⟩

/-- A backend with a connection that some other code made. -/
def connectedOutside : Machine Backend :=
  { idle with store := { idle.store with session := { idle.store.session with
    spi := [⟨0, 0, none, true⟩] } } }

/-- `commit()` of a subtransaction under an executor that was made in it. -/
def strayedExecutor : Prog (connectionScopes Nat 17 noCatalog) :=
  .scope (.subtransaction ⟨none, true⟩)
    (.scope (.executor (.plain false))
      (.seq (.call 1 (.finish .commit)) (.call 0 (dml "DELETE FROM t"))))

/-- The statement of the executor (whose connection was 1) is run on the connection of that
other code, which the destructor then finishes. -/
theorem strayedExecutor_diverges :
    let run := strayedExecutor.run (Prog.start connectedOutside)
    run.1 = .returned () ∧ run.2.store.world.session.spiCalls = [0] ∧
      run.2.store.world.session.spi = [] ∧
      ¬ ∀ e ∈ run.2.store.log, InStep connectedOutside.store e := by
  refine ⟨by decide +kernel, by decide +kernel, by decide +kernel, fun inStep => ?_⟩
  have lengths : ∀ e ∈ (strayedExecutor.run (Prog.start connectedOutside)).2.store.log,
      e.before.store.session.spi.length = (executorsIn (around e)).length + 1 :=
    fun e member => (inStep e member).1.length
  exact absurd lengths (by decide +kernel)

end Cppgres
