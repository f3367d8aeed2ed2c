import Cppgres.NonLocal.Code

/-!
# Programs of scope-bound objects

A `GuardClass` is a class whose objects live in scopes: what its constructor, its
destructor and its methods do to a world. A `Prog` declares such objects in nested
scopes, calls their methods, works on the world, throws and catches, and runs programs
inside destructors, during unwinding too.

Every action on the world is an event of a log. A property of all runs is proved from
`Rules`: one rule for each kind of action, about a single action from a state that meets
the invariant. `Prog.run_keeps` is the induction over programs, done once.
-/
namespace NonLocal

/-- `drop` is the end of a caught exception object. -/
structure GuardClass (ε β σ : Type) where
  Decl : Type
  Obj : Type
  Op : Type
  Act : Type
  construct : Decl → Code ε β σ Obj
  destroy : Obj → Code ε β σ Unit
  method : Op → Obj → Code ε β σ Obj
  act : Act → Code ε β σ Unit
  drop : ε → Code ε β σ Unit

/-- Actions besides those of the objects are `act`. `call i op` is a method call on the
`i`-th live object, innermost first. `attempt` is a try-block for the exceptions that
`accepts` picks; `again` says whether the handler ends with `throw;`. `cleanup` is a scope
whose object has a whole program for a destructor. -/
inductive Prog {ε β σ : Type} (G : GuardClass ε β σ) where
  | skip
  | act (work : G.Act)
  | call (index : Nat) (op : G.Op)
  | seq (first second : Prog G)
  | throw (exception : ε)
  | attempt (accepts : ε → Bool) (body handler : Prog G) (again : Bool)
  | scope (decl : G.Decl) (body : Prog G)
  | cleanup (destructor body : Prog G)

variable {ε β σ α γ : Type}

/-- A live object, and how, where and among which objects it was constructed. -/
structure Live (G : GuardClass ε β σ) where
  obj : G.Obj
  decl : G.Decl
  entry : Machine σ
  enclosing : List G.Obj

/-- What does not change in the life of an object. -/
def Live.origin {G : GuardClass ε β σ} (object : Live G) : G.Decl × Machine σ × List G.Obj :=
  (object.decl, object.entry, object.enclosing)

inductive Action (G : GuardClass ε β σ) where
  | acted (work : G.Act)
  | called (index : Nat) (op : G.Op) (object : Live G)
  | opened (decl : G.Decl)
  | closed (object : Live G) (unwinding : Bool)
  | dropped (exception : ε)

inductive Ending where
  | returned
  | thrown
  | jumped
  | aborted
  deriving DecidableEq, Repr

def Exit.ending : Exit ε β α → Ending
  | .returned _ => .returned
  | .thrown _ => .thrown
  | .jumped _ => .jumped
  | .aborted => .aborted

/-- An action, the live objects around it, and the world on both sides of it. -/
structure Event (G : GuardClass ε β σ) where
  action : Action G
  live : List (Live G)
  before : Machine σ
  after : Machine σ
  ending : Ending

/-- The world with the objects of a program, innermost first, and the log, latest first. -/
structure Stage (G : GuardClass ε β σ) where
  world : σ
  live : List (Live G)
  log : List (Event G)

variable {G : GuardClass ε β σ}

/-- The world as the code of a class sees it. -/
def Stage.machine (s : Machine (Stage G)) : Machine σ := ⟨s.uncaught, s.store.world⟩

def Stage.origins (s : Machine (Stage G)) : List (G.Decl × Machine σ × List G.Obj) :=
  s.store.live.map Live.origin

/-- The event that an action is. -/
def Action.event (action : Action G) (m : Code ε β σ α) (s : Machine (Stage G)) : Event G where
  action := action
  live := s.store.live
  before := Stage.machine s
  after := (m (Stage.machine s)).2
  ending := (m (Stage.machine s)).1.ending

/-- Run code on the world and log it. -/
def Action.perform (action : Action G) (m : Code ε β σ α) : Code ε β (Stage G) α := fun s =>
  ((m (Stage.machine s)).1,
    { uncaught := (m (Stage.machine s)).2.uncaught
      store := { s.store with
        world := (m (Stage.machine s)).2.store
        log := action.event m s :: s.store.log } })

def withLive (f : List (Live G) → List (Live G)) : Code ε β (Stage G) Unit :=
  Code.modify fun stage => { stage with live := f stage.live }

/-! ## The actions of a program -/

namespace GuardClass

def acting (G : GuardClass ε β σ) (work : G.Act) : Code ε β (Stage G) Unit :=
  (Action.acted work).perform (G.act work)

/-- A method call writes the object only when it returns. -/
def calling (G : GuardClass ε β σ) (index : Nat) (op : G.Op) (object : Live G) :
    Code ε β (Stage G) Unit := do
  let obj ← (Action.called index op object).perform (G.method op object.obj)
  withLive (·.set index { object with obj })

def opening (G : GuardClass ε β σ) (decl : G.Decl) : Code ε β (Stage G) Unit := fun s =>
  (do
    let obj ← (Action.opened decl).perform (G.construct decl)
    withLive ({ obj, decl, entry := Stage.machine s, enclosing := s.store.live.map Live.obj } :: ·)
    ) s

def closing (G : GuardClass ε β σ) (unwinding : Bool) : Code ε β (Stage G) Unit := fun s =>
  match s.store.live with
  | [] => (.returned (), s)
  | object :: _ =>
    (do
      withLive List.tail
      (Action.closed object unwinding).perform (G.destroy object.obj)) s

def dropping (G : GuardClass ε β σ) (exception : ε) : Code ε β (Stage G) Unit :=
  (Action.dropped exception).perform (G.drop exception)

end GuardClass

/-! Each action on a computed run of the class's code. -/

section Runs
variable {s : Machine (Stage G)} {t : Machine σ}

theorem Action.event_apply (action : Action G) {m : Code ε β σ α} {exit : Exit ε β α}
    (run : m (Stage.machine s) = (exit, t)) :
    action.event m s = ⟨action, s.store.live, Stage.machine s, t, exit.ending⟩ := by
  unfold Action.event
  rw [run]

/-- The stage after code of the world ran and was logged as `action`. -/
def Action.stage (action : Action G) (m : Code ε β σ α) (s : Machine (Stage G)) (t : Machine σ)
    (live : List (Live G)) : Machine (Stage G) where
  uncaught := t.uncaught
  store := { world := t.store, live, log := action.event m s :: s.store.log }

theorem Action.perform_apply (action : Action G) {m : Code ε β σ α} {exit : Exit ε β α}
    (run : m (Stage.machine s) = (exit, t)) :
    action.perform m s = (exit, action.stage m s t s.store.live) := by
  unfold Action.perform Action.stage
  rw [run]

theorem GuardClass.acting_apply {work : G.Act} {exit : Exit ε β Unit}
    (run : G.act work (Stage.machine s) = (exit, t)) :
    G.acting work s = (exit, (Action.acted work).stage (G.act work) s t s.store.live) :=
  Action.perform_apply _ run

theorem GuardClass.dropping_apply {exception : ε} {exit : Exit ε β Unit}
    (run : G.drop exception (Stage.machine s) = (exit, t)) :
    G.dropping exception s =
      (exit, (Action.dropped exception).stage (G.drop exception) s t s.store.live) :=
  Action.perform_apply _ run

theorem GuardClass.calling_returned {index : Nat} {op : G.Op} {object : Live G} {obj : G.Obj}
    (run : G.method op object.obj (Stage.machine s) = (.returned obj, t)) :
    G.calling index op object s =
      (.returned (), (Action.called index op object).stage (G.method op object.obj) s t
        (s.store.live.set index { object with obj })) := by
  unfold GuardClass.calling
  rw [Code.bind_returned (Action.perform_apply _ run)]
  rfl

theorem GuardClass.calling_thrown {index : Nat} {op : G.Op} {object : Live G} {exception : ε}
    (run : G.method op object.obj (Stage.machine s) = (.thrown exception, t)) :
    G.calling index op object s =
      (.thrown exception,
        (Action.called index op object).stage (G.method op object.obj) s t s.store.live) := by
  unfold GuardClass.calling
  rw [Code.bind_thrown (Action.perform_apply _ run)]

theorem GuardClass.opening_returned {decl : G.Decl} {obj : G.Obj}
    (run : G.construct decl (Stage.machine s) = (.returned obj, t)) :
    G.opening decl s =
      (.returned (), (Action.opened decl).stage (G.construct decl) s t
        ({ obj, decl, entry := Stage.machine s, enclosing := s.store.live.map Live.obj } ::
          s.store.live)) := by
  unfold GuardClass.opening
  rw [Code.bind_returned (Action.perform_apply _ run)]
  rfl

theorem GuardClass.opening_thrown {decl : G.Decl} {exception : ε}
    (run : G.construct decl (Stage.machine s) = (.thrown exception, t)) :
    G.opening decl s =
      (.thrown exception,
        (Action.opened decl).stage (G.construct decl) s t s.store.live) := by
  unfold GuardClass.opening
  rw [Code.bind_thrown (Action.perform_apply _ run)]

theorem GuardClass.closing_apply {object : Live G} {rest : List (Live G)} {unwinding : Bool}
    {exit : Exit ε β Unit} (live : s.store.live = object :: rest)
    (run : G.destroy object.obj (Stage.machine s) = (exit, t)) :
    G.closing unwinding s =
      (exit, (Action.closed object unwinding).stage (G.destroy object.obj)
        { s with store := { s.store with live := rest } } t rest) := by
  obtain ⟨uncaught, world, _, log⟩ := s
  cases live
  exact Action.perform_apply _ run

end Runs

/-- A name that is not in scope is no program: such a call does nothing. -/
def Prog.run : Prog G → Code ε β (Stage G) Unit
  | .skip => pure ()
  | .act work => G.acting work
  | .call index op => do
    let stage ← Code.get
    match stage.live[index]? with
    | none => pure ()
    | some object => G.calling index op object
  | .seq first second => do
    first.run
    second.run
  | .throw exception => Code.throwing exception
  | .attempt accepts body handler again =>
    Code.catching body.run fun exception =>
      if accepts exception then do
        Code.catching handler.run fun replacement => do
          G.dropping exception
          Code.throwing replacement
        if again then Code.throwing exception else G.dropping exception
      else Code.throwing exception
  | .scope decl body => do
    G.opening decl
    Code.leaving body.run G.closing
  | .cleanup destructor body => Code.raii body.run destructor.run

/-- A program from a world of its own. -/
def Prog.start (world : Machine σ) : Machine (Stage G) := ⟨world.uncaught, ⟨world.store, [], []⟩⟩

/-! ## The log only grows -/

def Grows (m : Code ε β (Stage G) α) : Prop := ∀ s, s.store.log <:+ (m s).2.store.log

theorem Grows.pure (value : α) : Grows (Pure.pure value : Code ε β (Stage G) α) :=
  fun _ => List.suffix_refl _

theorem Grows.throwing (exception : ε) :
    Grows (Code.throwing exception : Code ε β (Stage G) α) :=
  fun _ => List.suffix_refl _

theorem Grows.perform (action : Action G) (m : Code ε β σ α) : Grows (action.perform m) :=
  fun _ => List.suffix_cons _ _

theorem Grows.withLive (f : List (Live G) → List (Live G)) : Grows (NonLocal.withLive f) :=
  fun _ => List.suffix_refl _

theorem Grows.bind {m : Code ε β (Stage G) α} {f : α → Code ε β (Stage G) γ} (first : Grows m)
    (second : ∀ value, Grows (f value)) : Grows (m >>= f) := by
  intro s
  have one := first s
  rw [Code.bind_apply]
  generalize m s = run at one ⊢
  obtain ⟨exit, t⟩ := run
  cases exit with
  | returned value => exact one.trans (second value t)
  | thrown exception => exact one
  | jumped buffer => exact one
  | aborted => exact one

theorem Grows.catching {body : Code ε β (Stage G) α} {handler : ε → Code ε β (Stage G) α}
    (first : Grows body) (second : ∀ exception, Grows (handler exception)) :
    Grows (Code.catching body handler) := by
  intro s
  have one := first s
  unfold Code.catching
  generalize body s = run at one ⊢
  obtain ⟨exit, t⟩ := run
  cases exit with
  | thrown exception => exact one.trans (second exception { t with uncaught := t.uncaught - 1 })
  | returned value => exact one
  | jumped buffer => exact one
  | aborted => exact one

theorem Grows.leaving {body : Code ε β (Stage G) α} {destructor : Bool → Code ε β (Stage G) Unit}
    (first : Grows body) (second : ∀ unwinding, Grows (destructor unwinding)) :
    Grows (Code.leaving body destructor) := by
  intro s
  have one := first s
  unfold Code.leaving
  generalize body s = run at one ⊢
  obtain ⟨exit, t⟩ := run
  cases exit with
  | returned value =>
    dsimp only
    rw [Code.unwound_snd]
    exact one.trans (second false t)
  | thrown exception =>
    dsimp only
    rw [Code.unwound_snd]
    exact one.trans (second true t)
  | jumped buffer => exact one
  | aborted => exact one

theorem Grows.calling (index : Nat) (op : G.Op) (object : Live G) :
    Grows (G.calling index op object) :=
  .bind (.perform _ _) fun _ => .withLive _

theorem Grows.opening (decl : G.Decl) : Grows (G.opening decl) :=
  fun s => Grows.bind (.perform _ _) (fun _ => .withLive _) s

theorem Grows.closing (unwinding : Bool) : Grows (G.closing unwinding) := by
  intro s
  unfold GuardClass.closing
  split
  · exact List.suffix_refl _
  · exact Grows.bind (.withLive _) (fun _ => .perform _ _) s

theorem Prog.run_call (index : Nat) (op : G.Op) (s : Machine (Stage G)) :
    (Prog.call index op).run s =
      match s.store.live[index]? with
      | none => (.returned (), s)
      | some object => G.calling index op object s := by
  change (match s.store.live[index]? with
    | none => (pure () : Code ε β (Stage G) Unit)
    | some object => G.calling index op object) s = _
  cases s.store.live[index]? <;> rfl

theorem Prog.run_grows (p : Prog G) : Grows p.run := by
  induction p with
  | skip => exact .pure _
  | act work => exact .perform _ _
  | call index op =>
    intro s
    rw [run_call]
    split
    · exact List.suffix_refl _
    · exact Grows.calling _ _ _ s
  | seq first second one two => exact .bind one fun _ => two
  | throw exception => exact .throwing _
  | attempt accepts body handler again one two =>
    apply Grows.catching one
    intro exception
    split
    · apply Grows.bind
      · exact .catching two fun replacement => .bind (.perform _ _) fun _ => .throwing _
      · intro _
        split
        · exact .throwing _
        · exact .perform _ _
    · exact .throwing _
  | scope decl body ih => exact .bind (.opening _) fun _ => .leaving ih .closing
  | cleanup destructor body one two => exact .leaving two fun _ => one

/-! ## The rules and the induction over programs -/

/-- The run ended by a return or an exception, counted as such, and in a state with `P`; or
the process ended. -/
def Keeps (P : Machine (Stage G) → Prop) (uncaught : Nat) :
    Exit ε β α × Machine (Stage G) → Prop
  | (.returned _, t) => t.uncaught = uncaught ∧ P t
  | (.thrown _, t) => t.uncaught = uncaught + 1 ∧ P t
  | (.jumped _, _) => False
  | (.aborted, _) => True

/-- One rule for each kind of action. `Cond` is what the program keeps to, `Good` what is
then true of each event. -/
structure Rules (G : GuardClass ε β σ) (Inv : Machine (Stage G) → Prop)
    (Cond Good : Event G → Prop) : Prop where
  act : ∀ work s, Inv s → Cond ((Action.acted work).event (G.act work) s) →
    Good ((Action.acted work).event (G.act work) s) ∧ Keeps Inv s.uncaught (G.acting work s)
  call : ∀ index op object s, Inv s → s.store.live[index]? = some object →
    Cond ((Action.called index op object).event (G.method op object.obj) s) →
    Good ((Action.called index op object).event (G.method op object.obj) s) ∧
      Keeps Inv s.uncaught (G.calling index op object s)
  open_ : ∀ decl s, Inv s → Cond ((Action.opened decl).event (G.construct decl) s) →
    Good ((Action.opened decl).event (G.construct decl) s) ∧
      Keeps Inv s.uncaught (G.opening decl s)
  close : ∀ object rest unwinding s t, Inv s → s.store.live = object :: rest →
    s.uncaught = object.entry.uncaught + unwinding.toNat →
    t = { s with store := { s.store with live := rest } } →
    Cond ((Action.closed object unwinding).event (G.destroy object.obj) t) →
    Good ((Action.closed object unwinding).event (G.destroy object.obj) t) ∧
      Keeps Inv s.uncaught (G.closing unwinding s)
  drop : ∀ exception s, Inv s → Cond ((Action.dropped exception).event (G.drop exception) s) →
    Good ((Action.dropped exception).event (G.drop exception) s) ∧
      Keeps Inv s.uncaught (G.dropping exception s)
  /-- The count of exceptions in flight is the runtime's business. -/
  uncaught : ∀ s count, Inv s → Inv { s with uncaught := count }

section Rules
variable {Inv : Machine (Stage G) → Prop} {Cond Good : Event G → Prop}

/-- From a state with `P`, code that meets `Cond` throughout does only good and ends in `Q`. -/
def Obeys (Cond Good : Event G → Prop) (P : Machine (Stage G) → Prop)
    (Q : Machine (Stage G) → Machine (Stage G) → Prop) (m : Code ε β (Stage G) α) : Prop :=
  ∀ s, P s → (∀ e ∈ (m s).2.store.log, Cond e) → (∀ e ∈ s.store.log, Good e) →
    (∀ e ∈ (m s).2.store.log, Good e) ∧ Keeps (Q s) s.uncaught (m s)

/-- The invariant again, with the same objects alive. -/
def Again (Inv : Machine (Stage G) → Prop) (s t : Machine (Stage G)) : Prop :=
  Inv t ∧ Stage.origins t = Stage.origins s

theorem Keeps.mono {P Q : Machine (Stage G) → Prop} {uncaught : Nat}
    {run : Exit ε β α × Machine (Stage G)} (keeps : Keeps P uncaught run)
    (more : ∀ t, P t → Q t) : Keeps Q uncaught run := by
  rcases run with ⟨exit, t⟩
  cases exit with
  | returned value => exact ⟨keeps.1, more t keeps.2⟩
  | thrown exception => exact ⟨keeps.1, more t keeps.2⟩
  | jumped buffer => exact keeps
  | aborted => trivial

/-- What a run that did not end the process leaves. -/
theorem Keeps.reached {P : Machine (Stage G) → Prop} {uncaught : Nat}
    {run : Exit ε β α × Machine (Stage G)} (keeps : Keeps P uncaught run)
    (finished : run.1 ≠ .aborted) : P run.2 := by
  rcases run with ⟨exit, t⟩
  cases exit with
  | returned value => exact keeps.2
  | thrown exception => exact keeps.2
  | jumped buffer => exact keeps.elim
  | aborted => exact absurd rfl finished

theorem Obeys.pure (value : α) :
    Obeys Cond Good Inv (Again Inv) (Pure.pure value : Code ε β (Stage G) α) :=
  fun _ inv _ past => ⟨past, rfl, inv, rfl⟩

theorem Obeys.throwing (rules : Rules G Inv Cond Good) (exception : ε) :
    Obeys Cond Good Inv (Again Inv) (Code.throwing exception : Code ε β (Stage G) α) :=
  fun s inv _ past => ⟨past, rfl, rules.uncaught s _ inv, rfl⟩

theorem Obeys.bind {m : Code ε β (Stage G) α} {f : α → Code ε β (Stage G) γ}
    (grows : ∀ value, Grows (f value)) (first : Obeys Cond Good Inv (Again Inv) m)
    (second : ∀ value, Obeys Cond Good Inv (Again Inv) (f value)) :
    Obeys Cond Good Inv (Again Inv) (m >>= f) := by
  intro s inv allowed past
  have one := first s inv
  rw [Code.bind_apply] at allowed ⊢
  generalize m s = run at one allowed ⊢
  obtain ⟨exit, t⟩ := run
  cases exit with
  | returned value =>
    have ⟨good, uncaught, again, same⟩ := one
      (fun e member => allowed e ((grows value t).subset member)) past
    have ⟨good', keeps⟩ := second value t again allowed good
    rw [uncaught] at keeps
    exact ⟨good', keeps.mono fun u two => ⟨two.1, two.2.trans same⟩⟩
  | thrown exception => exact one allowed past
  | jumped buffer => exact one allowed past
  | aborted => exact one allowed past

theorem Obeys.catching (rules : Rules G Inv Cond Good) {body : Code ε β (Stage G) α}
    {handler : ε → Code ε β (Stage G) α} (grows : ∀ exception, Grows (handler exception))
    (first : Obeys Cond Good Inv (Again Inv) body)
    (second : ∀ exception, Obeys Cond Good Inv (Again Inv) (handler exception)) :
    Obeys Cond Good Inv (Again Inv) (Code.catching body handler) := by
  intro s inv allowed past
  have one := first s inv
  unfold Code.catching at allowed ⊢
  generalize body s = run at one allowed ⊢
  obtain ⟨exit, t⟩ := run
  cases exit with
  | thrown exception =>
    have ⟨good, uncaught, again, same⟩ := one
      (fun e member => allowed e ((grows exception _).subset member)) past
    have ⟨good', keeps⟩ := second exception _ (rules.uncaught t (t.uncaught - 1) again) allowed good
    have count : t.uncaught - 1 = s.uncaught := by rw [uncaught]; rfl
    have keeps : Keeps (Again Inv t) s.uncaught
        (handler exception { t with uncaught := t.uncaught - 1 }) := count ▸ keeps
    exact ⟨good', keeps.mono fun u two => ⟨two.1, two.2.trans same⟩⟩
  | returned value => exact one allowed past
  | jumped buffer => exact one allowed past
  | aborted => exact one allowed past

/-- The destructor returned or ended the process: it had no exception to let out. -/
theorem Keeps.unwound_returned {P : Machine (Stage G) → Prop} {uncaught : Nat} {value : α}
    {run : Exit ε β Unit × Machine (Stage G)} (keeps : Keeps P uncaught run) :
    Keeps P uncaught (Code.unwound (.returned value) run) := by
  rcases run with ⟨done, t⟩
  cases done with
  | returned done => exact keeps
  | thrown exception => trivial
  | jumped buffer => exact keeps
  | aborted => trivial

theorem Keeps.unwound_thrown {P : Machine (Stage G) → Prop} {uncaught : Nat} {exception : ε}
    {run : Exit ε β Unit × Machine (Stage G)} (keeps : Keeps P (uncaught + 1) run) :
    Keeps P uncaught (Code.unwound (.thrown exception : Exit ε β α) run) := by
  rcases run with ⟨done, t⟩
  cases done with
  | returned done => exact keeps
  | thrown replaced => trivial
  | jumped buffer => exact keeps
  | aborted => trivial

/-- A scope, from what its body and its destructor do. -/
theorem Obeys.leaving {body : Code ε β (Stage G) α}
    {destructor : Bool → Code ε β (Stage G) Unit} {P : Machine (Stage G) → Prop}
    {Q R : Machine (Stage G) → Machine (Stage G) → Prop}
    (grows : ∀ unwinding, Grows (destructor unwinding)) (first : Obeys Cond Good P Q body)
    (second : ∀ (unwinding : Bool) s, P s → Obeys Cond Good
      (fun t => Q s t ∧ t.uncaught = s.uncaught + unwinding.toNat) (fun _ => R s)
      (destructor unwinding)) :
    Obeys Cond Good P R (Code.leaving body destructor) := by
  intro s start allowed past
  have one := first s start
  unfold Code.leaving at allowed ⊢
  generalize body s = run at one allowed ⊢
  obtain ⟨exit, t⟩ := run
  cases exit with
  | jumped buffer => exact ⟨(one allowed past).1, (one allowed past).2⟩
  | aborted => exact ⟨(one allowed past).1, trivial⟩
  | returned value =>
    dsimp only at allowed ⊢
    rw [Code.unwound_snd] at allowed ⊢
    have ⟨good, count, reached⟩ :=
      one (fun e member => allowed e ((grows false t).subset member)) past
    have ⟨good', keeps⟩ := second false s start t ⟨reached, count⟩ allowed good
    rw [count] at keeps
    exact ⟨good', keeps.unwound_returned⟩
  | thrown exception =>
    dsimp only at allowed ⊢
    rw [Code.unwound_snd] at allowed ⊢
    have ⟨good, count, reached⟩ :=
      one (fun e member => allowed e ((grows true t).subset member)) past
    have ⟨good', keeps⟩ := second true s start t ⟨reached, count⟩ allowed good
    rw [count] at keeps
    exact ⟨good', keeps.unwound_thrown⟩

/-- A scope with a destructor that runs a program of its own. -/
theorem Obeys.raii {body : Code ε β (Stage G) α} {destructor : Code ε β (Stage G) Unit}
    (grows : Grows destructor) (first : Obeys Cond Good Inv (Again Inv) body)
    (second : Obeys Cond Good Inv (Again Inv) destructor) :
    Obeys Cond Good Inv (Again Inv) (Code.raii body destructor) := by
  refine .leaving (fun _ => grows) first fun unwinding s _ t ⟨⟨inv, same⟩, _⟩ allowed past => ?_
  have ⟨good, keeps⟩ := second t inv allowed past
  exact ⟨good, keeps.mono fun u ⟨inv', same'⟩ => ⟨inv', same'.trans same⟩⟩

/-! ## Each action obeys -/

theorem calling_log (index : Nat) (op : G.Op) (object : Live G) (s : Machine (Stage G)) :
    (G.calling index op object s).2.store.log =
      (Action.called index op object).event (G.method op object.obj) s :: s.store.log := by
  unfold GuardClass.calling
  rw [Code.bind_apply]
  rcases run : (Action.called index op object).perform (G.method op object.obj) s with ⟨exit, t⟩
  have logged : t.store.log =
      (Action.called index op object).event (G.method op object.obj) s :: s.store.log := by
    rw [← congrArg (fun run => run.2.store.log) run]
    rfl
  cases exit <;> exact logged

theorem opening_log (decl : G.Decl) (s : Machine (Stage G)) :
    (G.opening decl s).2.store.log =
      (Action.opened decl).event (G.construct decl) s :: s.store.log := by
  unfold GuardClass.opening
  rw [Code.bind_apply]
  rcases run : (Action.opened decl).perform (G.construct decl) s with ⟨exit, t⟩
  have logged : t.store.log = (Action.opened decl).event (G.construct decl) s :: s.store.log := by
    rw [← congrArg (fun run => run.2.store.log) run]
    rfl
  cases exit <;> exact logged

theorem closing_log {object : Live G} {rest : List (Live G)} (unwinding : Bool)
    {s : Machine (Stage G)} (live : s.store.live = object :: rest) :
    (G.closing unwinding s).2.store.log =
      (Action.closed object unwinding).event (G.destroy object.obj)
        { s with store := { s.store with live := rest } } :: s.store.log := by
  obtain ⟨uncaught, world, _, log⟩ := s
  cases live
  rfl

/-- A method call leaves every object where it is and what it was constructed as. -/
theorem calling_origins {index : Nat} {op : G.Op} {object : Live G} {s : Machine (Stage G)}
    (found : s.store.live[index]? = some object) :
    Stage.origins (G.calling index op object s).2 = Stage.origins s := by
  unfold GuardClass.calling
  rw [Code.bind_apply]
  rcases run : (Action.called index op object).perform (G.method op object.obj) s with ⟨exit, t⟩
  have live : t.store.live = s.store.live := by
    rw [← congrArg (fun run => run.2.store.live) run]
    rfl
  cases exit with
  | returned obj =>
    change (t.store.live.set index { object with obj }).map Live.origin = s.store.live.map Live.origin
    obtain ⟨bound, here⟩ := List.getElem?_eq_some_iff.mp found
    have bound : index < (s.store.live.map Live.origin).length := by simpa using bound
    have same : Live.origin { object with obj } = (s.store.live.map Live.origin)[index] := by
      rw [List.getElem_map, here]
      rfl
    rw [live, List.map_set, same, List.set_getElem_self]
  | thrown exception => exact congrArg (List.map Live.origin) live
  | jumped buffer => exact congrArg (List.map Live.origin) live
  | aborted => exact congrArg (List.map Live.origin) live

theorem Keeps.again {P : Machine (Stage G) → Prop} {Q : Machine (Stage G) → Prop} {uncaught : Nat}
    {run : Exit ε β α × Machine (Stage G)} (keeps : Keeps P uncaught run) (also_ : Q run.2) :
    Keeps (fun t => P t ∧ Q t) uncaught run := by
  rcases run with ⟨exit, t⟩
  cases exit with
  | returned value => exact ⟨keeps.1, keeps.2, also_⟩
  | thrown exception => exact ⟨keeps.1, keeps.2, also_⟩
  | jumped buffer => exact keeps
  | aborted => trivial

/-- An action that leaves the objects alone obeys as its rule says. -/
theorem Obeys.action {m : Code ε β (Stage G) α} {event : Machine (Stage G) → Event G}
    {P : Machine (Stage G) → Prop} {Q : Machine (Stage G) → Machine (Stage G) → Prop}
    (log : ∀ s, P s → (m s).2.store.log = event s :: s.store.log)
    (rule : ∀ s, P s → Cond (event s) → Good (event s) ∧ Keeps (Q s) s.uncaught (m s)) :
    Obeys Cond Good P Q m := by
  intro s inv allowed past
  rw [log s inv] at allowed ⊢
  have ⟨good, keeps⟩ := rule s inv (allowed _ List.mem_cons_self)
  exact ⟨List.forall_mem_cons.mpr ⟨good, past⟩, keeps⟩

theorem Obeys.acting (rules : Rules G Inv Cond Good) (work : G.Act) :
    Obeys Cond Good Inv (Again Inv) (G.acting work) :=
  .action (fun _ _ => rfl) fun s inv cond =>
    have ⟨good, keeps⟩ := rules.act work s inv cond
    ⟨good, keeps.again rfl⟩

theorem Obeys.dropping (rules : Rules G Inv Cond Good) (exception : ε) :
    Obeys Cond Good Inv (Again Inv) (G.dropping exception) :=
  .action (fun _ _ => rfl) fun s inv cond =>
    have ⟨good, keeps⟩ := rules.drop exception s inv cond
    ⟨good, keeps.again rfl⟩

theorem Obeys.call (rules : Rules G Inv Cond Good) (index : Nat) (op : G.Op) :
    Obeys Cond Good Inv (Again Inv) (Prog.call index op).run := by
  intro s inv
  rw [Prog.run_call]
  cases found : s.store.live[index]? with
  | none => exact fun _ past => ⟨past, rfl, inv, rfl⟩
  | some object =>
    intro allowed past
    dsimp only at allowed ⊢
    rw [calling_log] at allowed ⊢
    have ⟨good, keeps⟩ := rules.call index op object s inv found (allowed _ List.mem_cons_self)
    exact ⟨List.forall_mem_cons.mpr ⟨good, past⟩, keeps.again (calling_origins found)⟩

/-- The new object joins the others when the constructor returns. -/
theorem opening_live (decl : G.Decl) (s : Machine (Stage G)) :
    (∃ obj, (G.opening decl s).1 = .returned () ∧
      (G.opening decl s).2.store.live =
        { obj, decl, entry := Stage.machine s, enclosing := s.store.live.map Live.obj } ::
          s.store.live) ∨
    ((G.opening decl s).1 ≠ .returned () ∧ (G.opening decl s).2.store.live = s.store.live) := by
  unfold GuardClass.opening
  rw [Code.bind_apply]
  rcases run : (Action.opened decl).perform (G.construct decl) s with ⟨exit, t⟩
  have live : t.store.live = s.store.live := by
    rw [← congrArg (fun run => run.2.store.live) run]
    rfl
  cases exit with
  | returned obj => exact .inl ⟨obj, rfl, congrArg (_ :: ·) live⟩
  | thrown exception => exact .inr ⟨nofun, live⟩
  | jumped buffer => exact .inr ⟨nofun, live⟩
  | aborted => exact .inr ⟨nofun, live⟩

theorem opening_origins (decl : G.Decl) (s : Machine (Stage G)) :
    Stage.origins (G.opening decl s).2 =
      match (G.opening decl s).1 with
      | .returned _ =>
        (decl, Stage.machine s, s.store.live.map Live.obj) :: Stage.origins s
      | _ => Stage.origins s := by
  rcases opening_live decl s with ⟨obj, returned, live⟩ | ⟨other, live⟩
  · rw [returned]
    exact congrArg (List.map Live.origin) live
  · have origins := congrArg (List.map Live.origin) live
    cases exit : (G.opening decl s).1 with
    | returned done => exact absurd exit other
    | thrown exception => exact origins
    | jumped buffer => exact origins
    | aborted => exact origins

/-- The end of a scope, with the object it belongs to. -/
theorem Obeys.closing (rules : Rules G Inv Cond Good) {s : Machine (Stage G)} {decl : G.Decl}
    {entry : Machine σ} {enclosing : List G.Obj} (unwinding : Bool) :
    Obeys Cond Good
      (fun u => (Inv u ∧ Stage.origins u = (decl, entry, enclosing) :: Stage.origins s) ∧
        u.uncaught = entry.uncaught + unwinding.toNat)
      (fun _ => Again Inv s) (G.closing unwinding) := by
  rintro u ⟨⟨inv, origins⟩, count⟩ allowed past
  obtain ⟨object, rest, live, origin, below⟩ := List.map_eq_cons_iff.mp origins
  have entered : object.entry = entry := congrArg (·.2.1) origin
  have left : Stage.origins (G.closing unwinding u).2 = Stage.origins s := by
    rw [← below]
    obtain ⟨_, world, _, log⟩ := u
    cases live
    rfl
  rw [closing_log unwinding live] at allowed ⊢
  have ⟨good, keeps⟩ := rules.close object rest unwinding u _ inv live (entered ▸ count) rfl
    (allowed _ List.mem_cons_self)
  exact ⟨List.forall_mem_cons.mpr ⟨good, past⟩, keeps.again left⟩

/-- A scope: the object is constructed, the body runs with it, its destructor runs. -/
theorem Obeys.scope (rules : Rules G Inv Cond Good) {decl : G.Decl}
    {body : Code ε β (Stage G) Unit} (grows : Grows body)
    (ih : Obeys Cond Good Inv (Again Inv) body) :
    Obeys Cond Good Inv (Again Inv) (do G.opening decl; Code.leaving body G.closing) := by
  intro s inv allowed past
  have rule := rules.open_ decl s inv
  have logged := opening_log decl s
  have origins := opening_origins decl s
  rw [Code.bind_apply] at allowed ⊢
  generalize G.opening decl s = opened at rule logged origins allowed ⊢
  obtain ⟨exit, t⟩ := opened
  have opened (late : ∀ e ∈ t.store.log, Cond e) :
      (∀ e ∈ t.store.log, Good e) ∧ Keeps Inv s.uncaught (exit, t) := by
    rw [logged] at late ⊢
    have ⟨good, keeps⟩ := rule (late _ List.mem_cons_self)
    exact ⟨List.forall_mem_cons.mpr ⟨good, past⟩, keeps⟩
  cases exit with
  | thrown exception =>
    have ⟨good, keeps⟩ := opened allowed
    exact ⟨good, keeps.1, keeps.2, origins⟩
  | jumped buffer => exact ⟨(opened allowed).1, (opened allowed).2⟩
  | aborted => exact ⟨(opened allowed).1, trivial⟩
  | returned done =>
    have whole : Grows (Code.leaving body G.closing) := .leaving grows .closing
    have ⟨good, count, inner⟩ := opened fun e member => allowed e ((whole t).subset member)
    -- the body starts with the object alive and is left with it alive
    have run : Obeys Cond Good (fun u => Inv u ∧ u = t)
        (fun _ u => Inv u ∧ Stage.origins u =
          (decl, Stage.machine s, s.store.live.map Live.obj) :: Stage.origins s) body := by
      rintro u ⟨here, rfl⟩ allowed past
      have ⟨good, keeps⟩ := ih u here allowed past
      exact ⟨good, keeps.mono fun v ⟨again, same⟩ => ⟨again, same.trans origins⟩⟩
    have left := Obeys.leaving (R := fun _ => Again Inv s) .closing run
      (fun unwinding u ⟨_, here⟩ v ⟨reached, counted⟩ =>
        Obeys.closing rules unwinding v ⟨reached, by rw [counted, here, count]; rfl⟩)
      t ⟨inner, rfl⟩ allowed good
    rwa [count] at left

/-- In every program whose events meet `Cond` all events are good, the invariant holds at
its end, and the objects around the program are still there. -/
theorem Prog.run_obeys (rules : Rules G Inv Cond Good) (p : Prog G) :
    Obeys Cond Good Inv (Again Inv) p.run := by
  induction p with
  | skip => exact .pure _
  | act work => exact .acting rules work
  | call index op => exact .call rules index op
  | seq first second one two => exact .bind (fun _ => second.run_grows) one fun _ => two
  | throw exception => exact .throwing rules _
  | attempt accepts body handler again one two =>
    have replaced : ∀ exception : ε, ∀ replacement : ε, Grows (do
        G.dropping exception
        Code.throwing replacement : Code ε β (Stage G) Unit) :=
      fun exception replacement => .bind (.perform _ _) fun _ => .throwing _
    have ended : ∀ exception : ε, Grows
        (if again then Code.throwing exception else G.dropping exception) := by
      intro exception
      split
      · exact .throwing _
      · exact .perform _ _
    apply Obeys.catching rules _ one
    · intro exception
      split
      · apply Obeys.bind (fun _ => ended exception)
        · apply Obeys.catching rules (replaced exception) two
          intro replacement
          exact .bind (fun _ => .throwing _) (.dropping rules _) fun _ => .throwing rules _
        · intro _
          split
          · exact .throwing rules _
          · exact .dropping rules _
      · exact .throwing rules _
    · intro exception
      split
      · exact .bind (.catching handler.run_grows (replaced exception)) fun _ => ended exception
      · exact .throwing _
  | scope decl body ih => exact .scope rules body.run_grows ih
  | cleanup destructor body one two => exact .raii destructor.run_grows two one

/-- A whole program: nothing is alive at its end. -/
theorem Prog.run_keeps (rules : Rules G Inv Cond Good) (p : Prog G) (world : Machine σ)
    (inv : Inv (Prog.start world))
    (allowed : ∀ e ∈ (p.run (Prog.start world)).2.store.log, Cond e) :
    (∀ e ∈ (p.run (Prog.start world)).2.store.log, Good e) ∧
      Keeps (fun t => Inv t ∧ t.store.live = []) world.uncaught (p.run (Prog.start world)) := by
  have ⟨good, keeps⟩ := p.run_obeys rules (Prog.start world) inv allowed (fun _ member => nomatch member)
  exact ⟨good, keeps.mono fun t ⟨again, same⟩ => ⟨again, List.map_eq_nil_iff.mp same⟩⟩

/-- A condition may be replaced by one that implies it in the states of the invariant. -/
theorem Rules.restrict {Cond' : Event G → Prop} (rules : Rules G Inv Cond Good)
    (implies : ∀ s e, Inv s → e.before = Stage.machine s → Cond' e → Cond e) :
    Rules G Inv Cond' Good where
  act work s inv cond := rules.act work s inv (implies s _ inv rfl cond)
  call index op object s inv found cond :=
    rules.call index op object s inv found (implies s _ inv rfl cond)
  open_ decl s inv cond := rules.open_ decl s inv (implies s _ inv rfl cond)
  close object rest unwinding s t inv live count same cond :=
    rules.close object rest unwinding s t inv live count same
      (implies s _ inv (by rw [same]; rfl) cond)
  drop exception s inv cond := rules.drop exception s inv (implies s _ inv rfl cond)
  uncaught := rules.uncaught

end Rules

/-! ## Programs that only call the innermost object -/

/-- Every object lives among the same objects it was constructed among. -/
def Nested : List (Live G) → Prop
  | [] => True
  | object :: rest => object.enclosing = rest.map Live.obj ∧ Nested rest

def Event.Direct (e : Event G) : Prop :=
  match e.action with
  | .called index _ _ => index = 0
  | _ => True

def Event.Undisturbed (e : Event G) : Prop :=
  match e.action with
  | .closed object _ => object.enclosing = e.live.map Live.obj
  | _ => True

theorem calling_live (index : Nat) (op : G.Op) (object : Live G) (s : Machine (Stage G)) :
    (∃ obj, (G.calling index op object s).2.store.live =
      s.store.live.set index { object with obj }) ∨
    (G.calling index op object s).2.store.live = s.store.live := by
  unfold GuardClass.calling
  rw [Code.bind_apply]
  rcases run : (Action.called index op object).perform (G.method op object.obj) s with ⟨exit, t⟩
  have live : t.store.live = s.store.live := by
    rw [← congrArg (fun run => run.2.store.live) run]
    rfl
  cases exit with
  | returned obj => exact .inl ⟨obj, congrArg (·.set index { object with obj }) live⟩
  | thrown exception => exact .inr live
  | jumped buffer => exact .inr live
  | aborted => exact .inr live

/-- Then no object changes while one that was constructed after it lives. -/
theorem Rules.direct {Inv : Machine (Stage G) → Prop} {Cond Good : Event G → Prop}
    (rules : Rules G Inv Cond Good) :
    Rules G (fun s => Inv s ∧ Nested s.store.live) (fun e => Cond e ∧ e.Direct)
      (fun e => Good e ∧ e.Undisturbed) where
  act work s inv cond :=
    have ⟨good, keeps⟩ := rules.act work s inv.1 cond.1
    ⟨⟨good, trivial⟩, keeps.again inv.2⟩
  drop exception s inv cond :=
    have ⟨good, keeps⟩ := rules.drop exception s inv.1 cond.1
    ⟨⟨good, trivial⟩, keeps.again inv.2⟩
  uncaught s count inv := ⟨rules.uncaught s count inv.1, inv.2⟩
  call index op object s inv found cond := by
    have ⟨good, keeps⟩ := rules.call index op object s inv.1 found cond.1
    refine ⟨⟨good, trivial⟩, keeps.again ?_⟩
    have first : index = 0 := cond.2
    subst first
    rcases calling_live 0 op object s with ⟨obj, live⟩ | live
    · obtain ⟨rest, live'⟩ : ∃ rest, s.store.live = object :: rest := by
        cases here : s.store.live with
        | nil => rw [here] at found; cases found
        | cons head rest =>
          rw [here] at found
          cases found
          exact ⟨rest, rfl⟩
      have nested := inv.2
      rw [live'] at nested live
      rw [live]
      exact nested
    · rw [live]
      exact inv.2
  open_ decl s inv cond := by
    have ⟨good, keeps⟩ := rules.open_ decl s inv.1 cond.1
    refine ⟨⟨good, trivial⟩, keeps.again ?_⟩
    rcases opening_live decl s with ⟨obj, _, live⟩ | ⟨_, live⟩
    · rw [live]
      exact ⟨rfl, inv.2⟩
    · rw [live]
      exact inv.2
  close object rest unwinding s t inv live count same cond := by
    have ⟨good, keeps⟩ := rules.close object rest unwinding s t inv.1 live count same cond.1
    have nested := inv.2
    rw [live] at nested
    refine ⟨⟨good, ?_⟩, keeps.again ?_⟩
    · subst same
      exact nested.1
    · obtain ⟨_, world, _, log⟩ := s
      cases live
      exact nested.2

end NonLocal
