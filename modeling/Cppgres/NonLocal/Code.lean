import Mathlib.Logic.Basic
import Mathlib.Tactic.Common

/-!
# Code with three ways out

A piece of code that runs on a C++ runtime over `setjmp`/`longjmp` gives control
back in one of three ways: it returns, an exception leaves it, or a jump passes
over it to the buffer of an older frame. The process can also end inside it.
The two non-local ways differ in what they run on the way: an exception runs the
destructors of the frames it leaves, a jump runs none.

`Code` is the state monad with these exits, and `raii`, `catching`, `sigsetjmp`
are the three constructs that treat them differently. The runtime's count of
exceptions in flight is part of the state, because code can read it.
-/
namespace NonLocal

/-- How a piece of code gives control back. `aborted` is the end of the process. -/
inductive Exit (ε β α : Type) where
  | returned (value : α)
  | thrown (exception : ε)
  | jumped (buffer : β)
  | aborted
  deriving DecidableEq, Repr

/-- The program's own store beside the runtime's count of exceptions in flight. -/
structure Machine (σ : Type) where
  uncaught : Nat
  store : σ
  deriving DecidableEq, Repr

def Code (ε β σ α : Type) : Type := Machine σ → Exit ε β α × Machine σ

variable {ε β σ α γ : Type}

namespace Code

protected def pure (value : α) : Code ε β σ α := fun s => (.returned value, s)

protected def bind (m : Code ε β σ α) (f : α → Code ε β σ γ) : Code ε β σ γ := fun s =>
  match m s with
  | (.returned value, t) => f value t
  | (.thrown exception, t) => (.thrown exception, t)
  | (.jumped buffer, t) => (.jumped buffer, t)
  | (.aborted, t) => (.aborted, t)

instance : Monad (Code ε β σ) where
  pure := Code.pure
  bind := Code.bind

theorem bind_apply (m : Code ε β σ α) (f : α → Code ε β σ γ) (s : Machine σ) :
    (m >>= f) s = match m s with
      | (.returned value, t) => f value t
      | (.thrown exception, t) => (.thrown exception, t)
      | (.jumped buffer, t) => (.jumped buffer, t)
      | (.aborted, t) => (.aborted, t) := rfl

/-- Read the store. -/
def get : Code ε β σ σ := fun s => (.returned s.store, s)

/-- Write the store. -/
def modify (f : σ → σ) : Code ε β σ Unit := fun s => (.returned (), { s with store := f s.store })

/-- `std::uncaught_exceptions()`. -/
def uncaughtExceptions : Code ε β σ Nat := fun s => (.returned s.uncaught, s)

/-- A throw-expression: one more exception is in flight. -/
def throwing (exception : ε) : Code ε β σ α := fun s =>
  (.thrown exception, { s with uncaught := s.uncaught + 1 })

/-- `siglongjmp` to a buffer. -/
def siglongjmp (buffer : β) : Code ε β σ α := fun s => (.jumped buffer, s)

def abort : Code ε β σ α := fun s => (.aborted, s)

/-- The handler of a try-block. Entering it, the exception is no longer in flight.
A jump passes over the try-block. -/
def catching (body : Code ε β σ α) (handler : ε → Code ε β σ α) : Code ε β σ α := fun s =>
  match body s with
  | (.thrown exception, t) => handler exception { t with uncaught := t.uncaught - 1 }
  | exit => exit

/-- The exit of a scope after its destructor ran. An exception that leaves the destructor
ends the process (destructors are `noexcept`). -/
def unwound (exit : Exit ε β α) : Exit ε β Unit × Machine σ → Exit ε β α × Machine σ
  | (.returned (), t) => (exit, t)
  | (.thrown _, t) => (.aborted, t)
  | (.jumped buffer, t) => (.jumped buffer, t)
  | (.aborted, t) => (.aborted, t)

/-- A scope that holds one object. Its destructor runs when the scope returns or an
exception leaves it, never when a jump does. The flag says whether an exception left the
scope: the code of a destructor has no such thing to look at, only what is written down
about it does. -/
def leaving (body : Code ε β σ α) (destructor : Bool → Code ε β σ Unit) : Code ε β σ α := fun s =>
  match body s with
  | (.returned value, t) => unwound (.returned value) (destructor false t)
  | (.thrown exception, t) => unwound (.thrown exception) (destructor true t)
  | (.jumped buffer, t) => (.jumped buffer, t)
  | (.aborted, t) => (.aborted, t)

def raii (body : Code ε β σ α) (destructor : Code ε β σ Unit) : Code ε β σ α :=
  leaving body fun _ => destructor

/-- `sigsetjmp`: the frame of `buffer` receives the jumps to it and no others. -/
def sigsetjmp [DecidableEq β] (buffer : β) (body landed : Code ε β σ α) : Code ε β σ α := fun s =>
  match body s with
  | (.jumped target, t) => if target = buffer then landed t else (.jumped target, t)
  | exit => exit

@[simp] theorem modify_apply (f : σ → σ) (s : Machine σ) :
    (modify f : Code ε β σ Unit) s = (.returned (), { s with store := f s.store }) := rfl

@[simp] theorem uncaughtExceptions_apply (s : Machine σ) :
    (uncaughtExceptions : Code ε β σ Nat) s = (.returned s.uncaught, s) := rfl

@[simp] theorem unwound_snd (exit : Exit ε β α) (run : Exit ε β Unit × Machine σ) :
    (unwound exit run).2 = run.2 := by
  rcases run with ⟨done, t⟩
  cases done <;> rfl

/-! ## Sequencing on a computed first run, one equation for each exit -/

section Runs
variable {m : Code ε β σ α} {f : α → Code ε β σ γ} {s t : Machine σ}

theorem bind_returned {value : α} (run : m s = (.returned value, t)) :
    (m >>= f) s = f value t := by
  rw [bind_apply, run]

theorem bind_thrown {exception : ε} (run : m s = (.thrown exception, t)) :
    (m >>= f) s = (.thrown exception, t) := by
  rw [bind_apply, run]

theorem bind_jumped {buffer : β} (run : m s = (.jumped buffer, t)) :
    (m >>= f) s = (.jumped buffer, t) := by
  rw [bind_apply, run]

theorem bind_aborted (run : m s = (.aborted, t)) : (m >>= f) s = (.aborted, t) := by
  rw [bind_apply, run]

end Runs

/-- The state part of a store update commutes with sequencing. -/
@[simp] theorem modify_bind (g : σ → σ) (f : Unit → Code ε β σ γ) (s : Machine σ) :
    (modify g >>= f) s = f () { s with store := g s.store } := rfl

@[simp] theorem get_bind (f : σ → Code ε β σ γ) (s : Machine σ) :
    (get >>= f) s = f s.store s := rfl

instance : LawfulMonad (Code ε β σ) :=
  LawfulMonad.mk' _
    (fun m => by
      funext s
      change (m >>= fun value => pure value) s = m s
      rw [bind_apply]
      rcases m s with ⟨exit, t⟩
      cases exit <;> rfl)
    (fun _ _ => rfl)
    (fun m f g => by
      funext s
      rw [bind_apply, bind_apply, bind_apply]
      rcases m s with ⟨exit, t⟩
      cases exit <;> rfl)

end Code

end NonLocal
