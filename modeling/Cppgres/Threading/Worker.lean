import Cppgres.Labelled.Runs

/-!
# The worker

`worker` of `threading.hpp`: a queue that any thread posts tasks to, and a loop on the main
thread that executes them. A step is a section under `mutex`, or a part of `run()` outside of
it; which step comes next is up to the scheduler. A notification changes no member, and the
predicate of the wait is tested again with every wake-up.
-/
namespace Cppgres

/-- How a task ends. The `packaged_task` keeps either for the future. -/
inductive TaskOutcome where
  | value
  | exception
  deriving DecidableEq, Repr

/-- A callable with its `packaged_task`: `number` tells two of one callable apart. -/
structure Task (F : Type) where
  number : Nat
  f : F
  deriving DecidableEq, Repr

/-- Where the call of `run()` is: in the wait, in a task, past the final check, or over. -/
inductive RunLoop (F : Type) where
  | uncalled
  | waiting
  | running (task : Task F)
  | leaving
  | returned
  | threw
  deriving DecidableEq, Repr

structure Worker (F : Type) where
  done : Bool
  terminated : Bool
  /-- the front of the queue first -/
  tasks : List (Task F)
  loop : RunLoop F
  nextTask : Nat
  /-- The futures that are ready, latest first. -/
  ready : List (Nat × TaskOutcome)
  /-- The tasks that the loop executed, in order. Nothing reads it. -/
  executed : List (Task F)
  deriving DecidableEq, Repr

/-- Code in a task runs on the thread of the loop, other code on any other thread. -/
inductive Caller where
  | thread (id : Nat)
  | task
  deriving DecidableEq, Repr

inductive WorkerAction (F : Type) where
  | post (caller : Caller) (f : F)
  | terminate (caller : Caller)
  | run (isMainThread : Bool)
  | take
  | finish (outcome : TaskOutcome)
  | return_
  deriving DecidableEq, Repr

namespace Worker
variable {F : Type}

/-- `worker()`. -/
def construct : Worker F where
  done := false
  terminated := false
  tasks := []
  loop := .uncalled
  nextTask := 0
  ready := []
  executed := []

/-- `terminate()`. -/
def terminate (w : Worker F) : Worker F :=
  if w.terminated then w else { w with done := true }

/-- `post(f)`: what the caller is given, which is the future of a new task, or what is thrown. -/
def post (f : F) (w : Worker F) : Except String Nat × Worker F :=
  (.ok w.nextTask, { w with
    tasks := w.tasks ++ [{ number := w.nextTask, f }]
    nextTask := w.nextTask + 1 })

/-- The entry of `run()`. On any other thread it throws and that is all. -/
def run (isMainThread : Bool) (w : Worker F) : Option (Worker F) :=
  match w.loop with
  | .uncalled => if isMainThread then some { w with loop := .waiting } else some w
  | _ => none

/-- The section of the loop, when its wait is over. -/
def take (w : Worker F) : Option (Worker F) :=
  match w.loop with
  | .waiting =>
    if w.done || !w.tasks.isEmpty then
      if w.done && w.tasks.isEmpty then some { w with loop := .leaving }
      else
        match w.tasks with
        | [] => none
        | task :: tasks => some { w with tasks := tasks, loop := .running task }
    else none
  | _ => none

/-- The end of `task()`. A `packaged_task` that is called again throws `std::future_error`,
and nothing in `run()` catches that. -/
def finish (outcome : TaskOutcome) (w : Worker F) : Option (Worker F) :=
  match w.loop with
  | .running task =>
    if task.number ∈ w.ready.map Prod.fst then some { w with loop := .threw }
    else some { w with
      ready := (task.number, outcome) :: w.ready
      executed := w.executed ++ [task]
      loop := .waiting }
  | _ => none

/-- The end of `run()`. -/
def return_ (w : Worker F) : Option (Worker F) :=
  match w.loop with
  | .leaving => some { w with terminated := true, loop := .returned }
  | _ => none

/-- The caller is there to call: a task only while the loop executes one. -/
def Present (caller : Caller) (w : Worker F) : Bool :=
  match caller, w.loop with
  | .thread _, _ => true
  | .task, .running _ => true
  | .task, _ => false

def step (w : Worker F) : WorkerAction F → Option (Worker F)
  | .post caller f => if w.Present caller then some (w.post f).2 else none
  | .terminate caller => if w.Present caller then some w.terminate else none
  | .run isMainThread => w.run isMainThread
  | .take => w.take
  | .finish outcome => w.finish outcome
  | .return_ => w.return_

/-! ## What each step can do -/

variable {w u : Worker F}

theorem step_post {caller : Caller} {f : F} (taken : step w (.post caller f) = some u) :
    u = { w with tasks := w.tasks ++ [⟨w.nextTask, f⟩], nextTask := w.nextTask + 1 } := by
  simp only [step, Option.ite_none_right_eq_some, Option.some.injEq] at taken
  exact taken.2.symm

theorem step_terminate {caller : Caller} (taken : step w (.terminate caller) = some u) :
    u = w ∨ u = { w with done := true } := by
  simp only [step, Option.ite_none_right_eq_some, Option.some.injEq] at taken
  rw [← taken.2]
  unfold terminate
  split
  · exact .inl rfl
  · exact .inr rfl

theorem step_run {isMainThread : Bool} (taken : step w (.run isMainThread) = some u) :
    w.loop = .uncalled ∧ (u = w ∨ u = { w with loop := .waiting }) := by
  cases loop : w.loop <;> simp only [step, run, loop] at taken <;> try contradiction
  cases isMainThread <;> simp at taken <;> simp [taken]

/-- The loop leaves when it finds the queue empty and is to be done, else it takes the front. -/
theorem step_take (taken : step w .take = some u) :
    w.loop = .waiting ∧
      ((w.done = true ∧ w.tasks = [] ∧ u = { w with loop := .leaving }) ∨
        ∃ task tasks, w.tasks = task :: tasks ∧
          u = { w with tasks := tasks, loop := .running task }) := by
  obtain ⟨done, terminated, tasks, loop, nextTask, ready, executed⟩ := w
  cases loop with
  | waiting =>
    refine ⟨rfl, ?_⟩
    cases tasks with
    | nil =>
      cases done with
      | false => cases taken
      | true => exact .inl ⟨rfl, rfl, (Option.some.inj taken).symm⟩
    | cons task rest =>
      simp only [step, take, List.isEmpty_cons, Bool.not_false, Bool.or_true, Bool.and_false,
        Bool.false_eq_true, if_true, if_false, Option.some.injEq] at taken
      exact .inr ⟨task, rest, rfl, taken.symm⟩
  | _ => cases taken

theorem step_finish {outcome : TaskOutcome} (taken : step w (.finish outcome) = some u) :
    ∃ task, w.loop = .running task ∧
      ((task.number ∈ w.ready.map Prod.fst ∧ u = { w with loop := .threw }) ∨
        (task.number ∉ w.ready.map Prod.fst ∧ u = { w with
          ready := (task.number, outcome) :: w.ready
          executed := w.executed ++ [task]
          loop := .waiting })) := by
  cases loop : w.loop <;> simp only [step, finish, loop] at taken <;> try contradiction
  rename_i task
  refine ⟨task, rfl, ?_⟩
  by_cases again : task.number ∈ w.ready.map Prod.fst
  · rw [if_pos again] at taken
    exact .inl ⟨again, (Option.some.inj taken).symm⟩
  · rw [if_neg again] at taken
    exact .inr ⟨again, (Option.some.inj taken).symm⟩

theorem step_return (taken : step w .return_ = some u) :
    w.loop = .leaving ∧ u = { w with terminated := true, loop := .returned } := by
  cases loop : w.loop <;> simp only [step, return_, loop] at taken <;> try contradiction
  exact ⟨rfl, (Option.some.inj taken).symm⟩

end Worker

end Cppgres
