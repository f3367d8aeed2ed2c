import Cppgres.NonLocal.Scoped

/-!
# Pre- and postconditions of code

`m.Ends s returns throws`: from `s` the code returns a value and a store as `returns` has
them, or throws as `throws` has it, each counted as such; it may also end the process, but
no jump leaves it. There is one rule for each construct, and one for each kind of action of
a scoped program.
-/
namespace NonLocal

variable {ε β σ α γ : Type}

namespace Code

def Ends (m : Code ε β σ α) (s : Machine σ) (returns : α → σ → Prop) (throws : ε → σ → Prop) :
    Prop :=
  match m s with
  | (.returned value, t) => t.uncaught = s.uncaught ∧ returns value t.store
  | (.thrown exception, t) => t.uncaught = s.uncaught + 1 ∧ throws exception t.store
  | (.jumped _, _) => False
  | (.aborted, _) => True

section Rules
variable {m : Code ε β σ α} {f : α → Code ε β σ γ} {s t : Machine σ}
  {returns : α → σ → Prop} {throws : ε → σ → Prop}
  {returns' : γ → σ → Prop} {throws' : ε → σ → Prop}

theorem Ends.of_returned {value : α} (run : m s = (.returned value, t))
    (count : t.uncaught = s.uncaught) (post : returns value t.store) : m.Ends s returns throws := by
  unfold Ends
  rw [run]
  exact ⟨count, post⟩

theorem Ends.of_thrown {exception : ε} (run : m s = (.thrown exception, t))
    (count : t.uncaught = s.uncaught + 1) (post : throws exception t.store) :
    m.Ends s returns throws := by
  unfold Ends
  rw [run]
  exact ⟨count, post⟩

theorem Ends.of_aborted (run : m s = (.aborted, t)) : m.Ends s returns throws := by
  unfold Ends
  rw [run]
  trivial

theorem Ends.mono {returns' : α → σ → Prop} (ends : m.Ends s returns throws)
    (value : ∀ value b, returns value b → returns' value b)
    (exception : ∀ exception b, throws exception b → throws' exception b) :
    m.Ends s returns' throws' := by
  unfold Ends at ends ⊢
  generalize m s = run at ends ⊢
  obtain ⟨exit, t⟩ := run
  cases exit with
  | returned result => exact ⟨ends.1, value _ _ ends.2⟩
  | thrown failure => exact ⟨ends.1, exception _ _ ends.2⟩
  | jumped buffer => exact ends
  | aborted => trivial

/-- Two things that are known of one run. -/
theorem Ends.both {returns' : α → σ → Prop} (one : m.Ends s returns throws)
    (two : m.Ends s returns' throws') :
    m.Ends s (fun value b => returns value b ∧ returns' value b)
      fun exception b => throws exception b ∧ throws' exception b := by
  unfold Ends at one two ⊢
  generalize m s = run at one two ⊢
  obtain ⟨exit, t⟩ := run
  cases exit with
  | returned value => exact ⟨one.1, one.2, two.2⟩
  | thrown exception => exact ⟨one.1, one.2, two.2⟩
  | jumped buffer => exact one
  | aborted => trivial

theorem Ends.pure {value : α} (post : returns value s.store) :
    (Pure.pure value : Code ε β σ α).Ends s returns throws := ⟨rfl, post⟩

theorem Ends.throwing {exception : ε} (post : throws exception s.store) :
    (throwing exception : Code ε β σ α).Ends s returns throws := ⟨rfl, post⟩

theorem Ends.abort : (abort : Code ε β σ α).Ends s returns throws := trivial

theorem Ends.get_bind {g : σ → Code ε β σ γ} (ends : (g s.store).Ends s returns' throws') :
    (get >>= g).Ends s returns' throws' := ends

theorem Ends.bind (first : m.Ends s returns throws)
    (second : ∀ value t, t.uncaught = s.uncaught → returns value t.store →
      (f value).Ends t returns' throws')
    (exception : ∀ exception b, throws exception b → throws' exception b) :
    (m >>= f).Ends s returns' throws' := by
  unfold Ends at first ⊢
  rw [bind_apply]
  generalize m s = run at first ⊢
  obtain ⟨exit, t⟩ := run
  cases exit with
  | returned value =>
    have second := second value t first.1 first.2
    unfold Ends at second
    rw [first.1] at second
    exact second
  | thrown failure => exact ⟨first.1, exception _ _ first.2⟩
  | jumped buffer => exact first
  | aborted => trivial

/-- The same, on a computed first run. -/
theorem Ends.after {value : α} (run : m s = (.returned value, t)) (count : t.uncaught = s.uncaught)
    (ends : (f value).Ends t returns' throws') : (m >>= f).Ends s returns' throws' := by
  unfold Ends at ends ⊢
  rw [bind_returned run]
  rwa [count] at ends

theorem Ends.congr {other : Code ε β σ α} (same : m s = other s)
    (ends : other.Ends s returns throws) : m.Ends s returns throws := by
  unfold Ends at ends ⊢
  rwa [same]

/-- Code of which only the effect is wanted. -/
theorem Ends.ignore {post : σ → Prop} (ends : m.Ends s (fun _ b => post b) throws) :
    (m >>= fun _ => Pure.pure ()).Ends s (fun _ b => post b) throws :=
  .bind ends (fun _ _ _ here => .pure here) fun _ _ here => here

/-- The handler runs with the exception no longer in flight. -/
theorem Ends.catching {handler : ε → Code ε β σ α} {returns' : α → σ → Prop}
    (body : m.Ends s returns throws)
    (returned : ∀ value b, returns value b → returns' value b)
    (caught : ∀ exception t, t.uncaught = s.uncaught → throws exception t.store →
      (handler exception).Ends t returns' throws') :
    (catching m handler).Ends s returns' throws' := by
  unfold Ends at body ⊢
  unfold Code.catching
  generalize m s = run at body ⊢
  obtain ⟨exit, t⟩ := run
  cases exit with
  | returned value => exact ⟨body.1, returned _ _ body.2⟩
  | thrown exception =>
    have count : t.uncaught - 1 = s.uncaught := by rw [body.1]; rfl
    have handled := caught exception { t with uncaught := t.uncaught - 1 } count body.2
    unfold Ends at handled
    rw [← count]
    exact handled
  | jumped buffer => exact body
  | aborted => trivial

/-- A destructor that throws ends the process. -/
theorem Ends.leaving {destructor : Bool → Code ε β σ Unit} {returns' : α → σ → Prop}
    (body : m.Ends s returns throws)
    (returned : ∀ value t, t.uncaught = s.uncaught → returns value t.store →
      (destructor false).Ends t (fun _ b => returns' value b) fun _ _ => True)
    (thrown : ∀ exception t, t.uncaught = s.uncaught + 1 → throws exception t.store →
      (destructor true).Ends t (fun _ b => throws' exception b) fun _ _ => True) :
    (leaving m destructor).Ends s returns' throws' := by
  unfold Ends at body ⊢
  unfold Code.leaving
  generalize m s = run at body ⊢
  obtain ⟨exit, t⟩ := run
  cases exit with
  | returned value =>
    have closed := returned value t body.1 body.2
    unfold Ends at closed
    dsimp only
    generalize destructor false t = run at closed ⊢
    obtain ⟨done, u⟩ := run
    cases done with
    | returned _ => exact ⟨closed.1.trans body.1, closed.2⟩
    | thrown _ => trivial
    | jumped _ => exact closed
    | aborted => trivial
  | thrown exception =>
    have closed := thrown exception t body.1 body.2
    unfold Ends at closed
    dsimp only
    generalize destructor true t = run at closed ⊢
    obtain ⟨done, u⟩ := run
    cases done with
    | returned _ => exact ⟨closed.1.trans body.1, closed.2⟩
    | thrown _ => trivial
    | jumped _ => exact closed
    | aborted => trivial
  | jumped buffer => exact body
  | aborted => trivial

end Rules

end Code

/-! ## Actions of a scoped program -/

section Actions
variable {G : GuardClass ε β σ} {I : σ → List (Live G) → Prop} {s : Machine (Stage G)}

/-- A property of the world and of the objects alive in it. -/
def Stage.Has (I : σ → List (Live G) → Prop) (s : Machine (Stage G)) : Prop :=
  I s.store.world s.store.live

/-- What the event of an action says of the code that ran. -/
theorem Action.event_ends {action : Action G} {m : Code ε β σ α} {returns : α → σ → Prop}
    {throws : ε → σ → Prop} (ends : m.Ends (Stage.machine s) returns throws) :
    ((action.event m s).ending = .returned ∧
      ∃ value, returns value (action.event m s).after.store) ∨
    ((action.event m s).ending = .thrown ∧
      ∃ exception, throws exception (action.event m s).after.store) ∨
    (action.event m s).ending = .aborted := by
  unfold Action.event
  unfold Code.Ends at ends
  generalize m (Stage.machine s) = run at ends ⊢
  obtain ⟨exit, t⟩ := run
  cases exit with
  | returned value => exact .inl ⟨rfl, value, ends.2⟩
  | thrown exception => exact .inr (.inl ⟨rfl, exception, ends.2⟩)
  | jumped buffer => exact ends.elim
  | aborted => exact .inr (.inr rfl)

/-- An action that leaves the objects alone. -/
theorem Action.keeps {action : Action G} {m : Code ε β σ α}
    (ends : m.Ends (Stage.machine s) (fun _ b => I b s.store.live) fun _ b => I b s.store.live) :
    Keeps (Stage.Has I) s.uncaught (action.perform m s) := by
  unfold Action.perform
  unfold Code.Ends at ends
  generalize m (Stage.machine s) = run at ends ⊢
  obtain ⟨exit, t⟩ := run
  cases exit <;> exact ends

theorem GuardClass.calling_keeps {index : Nat} {op : G.Op} {object : Live G}
    (ends : (G.method op object.obj).Ends (Stage.machine s)
      (fun obj b => I b (s.store.live.set index { object with obj }))
      fun _ b => I b s.store.live) :
    Keeps (Stage.Has I) s.uncaught (G.calling index op object s) := by
  unfold Code.Ends at ends
  rcases run : G.method op object.obj (Stage.machine s) with ⟨exit, t⟩
  rw [run] at ends
  cases exit with
  | returned obj =>
    rw [GuardClass.calling_returned run]
    exact ends
  | thrown exception =>
    rw [GuardClass.calling_thrown run]
    exact ends
  | jumped buffer => exact ends.elim
  | aborted =>
    unfold GuardClass.calling
    rw [Code.bind_aborted (Action.perform_apply _ run)]
    trivial

theorem GuardClass.opening_keeps {decl : G.Decl}
    (ends : (G.construct decl).Ends (Stage.machine s)
      (fun obj b => I b
        ({ obj, decl, entry := Stage.machine s, enclosing := s.store.live.map Live.obj } ::
          s.store.live))
      fun _ b => I b s.store.live) :
    Keeps (Stage.Has I) s.uncaught (G.opening decl s) := by
  unfold Code.Ends at ends
  rcases run : G.construct decl (Stage.machine s) with ⟨exit, t⟩
  rw [run] at ends
  cases exit with
  | returned obj =>
    rw [GuardClass.opening_returned run]
    exact ends
  | thrown exception =>
    rw [GuardClass.opening_thrown run]
    exact ends
  | jumped buffer => exact ends.elim
  | aborted =>
    unfold GuardClass.opening
    rw [Code.bind_aborted (Action.perform_apply _ run)]
    trivial

theorem GuardClass.closing_keeps {object : Live G} {rest : List (Live G)} {unwinding : Bool}
    (live : s.store.live = object :: rest)
    (ends : (G.destroy object.obj).Ends (Stage.machine s) (fun _ b => I b rest)
      fun _ b => I b rest) :
    Keeps (Stage.Has I) s.uncaught (G.closing unwinding s) := by
  unfold Code.Ends at ends
  rcases run : G.destroy object.obj (Stage.machine s) with ⟨exit, t⟩
  rw [run] at ends
  rw [GuardClass.closing_apply live run]
  cases exit <;> exact ends

end Actions

end NonLocal
