import Cppgres.Guard

/-!
# The stack of running functions

`current_postgres_function` and the frame that `postgres_function::operator()` puts
around a user function. The stack is popped by the destructor of a handle only.
-/
namespace Cppgres
open NonLocal

/-- `current_postgres_function::call_info()`. -/
def callInfo : Cpp (Option FunctionCallInfo) := do
  let b ← Code.get
  pure b.calls.head?

/-- `current_postgres_function::atomic()`. -/
def atomic : Cpp (Option Bool) := do
  let b ← Code.get
  match b.calls with
  | [] => pure none
  | fc :: _ =>
    match fc.context with
    | some (.callContext atomic) => pure (some atomic)
    | some (.aggState _) => pure none
    | some .other => pure none
    | none => pure none

/-- What `call_info()` and `atomic()` are to say while `running` is the innermost call. -/
def describe (running : Option FunctionCallInfo) : Option FunctionCallInfo × Option Bool :=
  (running, running.bind fun fc => fc.context.bind FmgrNode.atomic)

/-- Both questions in a row, with the answers put on record. -/
def inquire : Cpp Unit := do
  let info ← callInfo
  let isAtomic ← atomic
  Code.modify fun b => { b with answers := (info, isAtomic) :: b.answers }

/-- `auto call_handle = current_postgres_function::push(fc);` and the rest of its scope. -/
def withCallHandle {α : Type} (fc : FunctionCallInfo) (body : Cpp α) : Cpp α := do
  Code.modify fun b => { b with calls := fc :: b.calls }
  Code.raii body (Code.modify fun b => { b with calls := b.calls.tail })

/-- The frame of `postgres_function::operator()`: `checks` is what it does before it
pushes the call (type and arity checks, conversion of the arguments), `func` is the
rest, the user function included. -/
def postgresFunction {τ α : Type} (fc : FunctionCallInfo) (checks : Cpp τ) (func : τ → Cpp α) :
    Cpp α :=
  exceptionGuard do
    let arguments ← checks
    withCallHandle fc (func arguments)

/-- The machine the body of a call runs in. -/
def pushed (fc : FunctionCallInfo) (s : Machine Backend) : Machine Backend :=
  { s with store := { s.store with calls := fc :: s.store.calls } }

@[simp] theorem pushed_elog (fc : FunctionCallInfo) (s : Machine Backend) :
    (pushed fc s).store.elog = s.store.elog := rfl

/-- What the handle's destructor leaves. -/
def popped (t : Machine Backend) : Machine Backend :=
  { t with store := { t.store with calls := t.store.calls.tail } }

theorem withCallHandle_apply {α : Type} (fc : FunctionCallInfo) (body : Cpp α)
    (s : Machine Backend) :
    withCallHandle fc body s =
      match body (pushed fc s) with
      | (.returned value, t) => (.returned value, popped t)
      | (.thrown exception, t) => (.thrown exception, popped t)
      | (.jumped buffer, t) => (.jumped buffer, t)
      | (.aborted, t) => (.aborted, t) := by
  unfold withCallHandle
  rw [Code.modify_bind]
  change Code.raii body _ (pushed fc s) = _
  unfold Code.raii Code.leaving
  rcases body (pushed fc s) with ⟨exit, t⟩
  cases exit <;> rfl

@[simp] theorem returns_postgresFunction {τ α : Type} {fc : FunctionCallInfo} {checks : Cpp τ}
    {func : τ → Cpp α} {s : Machine Backend} {post : α → Machine Backend → Prop} :
    (postgresFunction fc checks func).Returns s post ↔
      checks.Returns s fun arguments t =>
        (func arguments).Returns (pushed fc t) fun value u => post value (popped u) := by
  unfold postgresFunction withCallHandle
  simp only [returns_exceptionGuard, Code.returns_bind, Code.returns_modify, Code.returns_raii]
  exact Iff.rfl

/-- The two functions describe the top of the stack. -/
theorem inquire_apply (s : Machine Backend) :
    inquire s = (.returned (),
      { s with store := { s.store with
        answers := describe s.store.calls.head? :: s.store.answers } }) := by
  obtain ⟨uncaught, elog, session, calls, rest⟩ := s
  rcases calls with _ | ⟨⟨address, _ | node⟩, calls⟩
  · rfl
  · rfl
  · cases node <;> rfl

end Cppgres
