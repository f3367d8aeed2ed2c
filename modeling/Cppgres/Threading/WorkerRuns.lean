import Cppgres.Threading.Worker
import Mathlib.Data.List.Nodup

/-!
# What the worker does with its tasks

Over every interleaving: the tasks that were executed, the one in progress and those that
wait are the posted ones in their order. `Cppgres.Worker.first_in_first_out` says what that
means for the end of `run()`, and `Cppgres.Worker.none_stranded_iff` what it does not mean: a
task that is posted after the final check is accepted and never executed.
-/
namespace Cppgres

variable {F : Type}

namespace RunLoop

def inProgress : RunLoop F → List (Task F)
  | .running task => [task]
  | _ => []

/-- The final check is over. -/
def left : RunLoop F → Bool
  | .leaving => true
  | .returned => true
  | _ => false

end RunLoop

def WorkerAction.callable? : WorkerAction F → Option F
  | .post _ f => some f
  | _ => none

namespace Worker
variable {w s t u : Worker F} {action : WorkerAction F} {actions : List (WorkerAction F)}

/-- Every task that was not lost: executed, in progress, in the queue. -/
def order (w : Worker F) : List (Task F) := w.executed ++ w.loop.inProgress ++ w.tasks

/-- The tasks that are posted, in the order of their sections. The first has the number `n`. -/
def posted (n : Nat) : List (WorkerAction F) → List (Task F)
  | [] => []
  | action :: later =>
    match action.callable? with
    | some f => ⟨n, f⟩ :: posted (n + 1) later
    | none => posted n later

/-- The invariant: every number occurs once, only what was executed is ready, no task was
called again, and only a worker that is to be done leaves. -/
structure Sound (w : Worker F) : Prop where
  numbered : w.order.map Task.number = List.range w.nextTask
  ready : ∀ number, number ∈ w.ready.map Prod.fst ↔ number ∈ w.executed.map Task.number
  notThrew : w.loop ≠ .threw
  done : w.loop.left = true → w.done = true

theorem construct_sound : (construct : Worker F).Sound where
  numbered := rfl
  ready := by simp [construct]
  notThrew := by simp [construct]
  done := by simp [construct, RunLoop.left]

theorem Sound.nodup (sound : w.Sound) : w.order.Nodup := by
  apply List.Nodup.of_map Task.number
  rw [sound.numbered]
  exact List.nodup_range

/-- The task in progress was not executed before. -/
theorem Sound.running_fresh (sound : w.Sound) {task : Task F} (loop : w.loop = .running task) :
    task.number ∉ w.ready.map Prod.fst := by
  have once : (w.order.map Task.number).Nodup := by
    rw [sound.numbered]
    exact List.nodup_range
  have fresh : task.number ∉ w.executed.map Task.number := by
    simp only [order, loop, RunLoop.inProgress, List.map_append, List.map_cons, List.map_nil] at once
    intro before
    exact (List.nodup_append.mp (List.nodup_append.mp once).1).2.2 _ before _ (by simp) rfl
  rwa [sound.ready]

/-- Whatever the task in progress ends with, the loop goes on. -/
theorem Sound.finish (sound : w.Sound) {task : Task F} (loop : w.loop = .running task)
    (outcome : TaskOutcome) :
    step w (.finish outcome) = some { w with
      ready := (task.number, outcome) :: w.ready
      executed := w.executed ++ [task]
      loop := .waiting } := by
  simp only [step, Worker.finish, loop]
  rw [if_neg (sound.running_fresh loop)]

/-! ## One step -/

theorem order_step (sound : s.Sound) (taken : step s action = some t) :
    t.order = s.order ++ posted s.nextTask [action] ∧
      t.nextTask = s.nextTask + (posted s.nextTask [action]).length := by
  cases action with
  | post caller f =>
    rw [step_post taken]
    simp [order, posted, WorkerAction.callable?]
  | terminate caller =>
    rcases step_terminate taken with same | done
    · simp [same, posted, WorkerAction.callable?]
    · simp [done, order, posted, WorkerAction.callable?]
  | run isMainThread =>
    obtain ⟨loop, same | called⟩ := step_run taken
    · simp [same, posted, WorkerAction.callable?]
    · simp [called, order, loop, RunLoop.inProgress, posted, WorkerAction.callable?]
  | take =>
    obtain ⟨loop, ⟨_, _, left⟩ | ⟨task, tasks, front, took⟩⟩ := step_take taken
    · simp [left, order, loop, RunLoop.inProgress, posted, WorkerAction.callable?]
    · simp [took, order, loop, front, RunLoop.inProgress, posted, WorkerAction.callable?]
  | finish outcome =>
    obtain ⟨task, loop, ⟨again, _⟩ | ⟨_, finished⟩⟩ := step_finish taken
    · exact absurd again (sound.running_fresh loop)
    · simp [finished, order, loop, RunLoop.inProgress, posted, WorkerAction.callable?]
  | return_ =>
    obtain ⟨loop, returned⟩ := step_return taken
    simp [returned, order, loop, RunLoop.inProgress, posted, WorkerAction.callable?]

theorem numbered_step (sound : s.Sound) (taken : step s action = some t) :
    t.order.map Task.number = List.range t.nextTask := by
  obtain ⟨order, next⟩ := order_step sound taken
  rw [order, next, List.map_append, sound.numbered]
  unfold posted
  cases action.callable? <;> simp [posted, List.range_succ]

theorem sound_step (sound : s.Sound) (taken : step s action = some t) : t.Sound := by
  have numbered := numbered_step sound taken
  have ready := sound.ready
  have notThrew := sound.notThrew
  have done := sound.done
  cases action with
  | post caller f =>
    rw [step_post taken] at numbered ⊢
    exact ⟨numbered, ready, notThrew, done⟩
  | terminate caller =>
    rcases step_terminate taken with same | done'
    · rw [same]
      exact sound
    · rw [done'] at numbered ⊢
      exact ⟨numbered, ready, notThrew, fun _ => rfl⟩
  | run isMainThread =>
    obtain ⟨loop, same | called⟩ := step_run taken
    · rw [same]
      exact sound
    · rw [called] at numbered ⊢
      exact ⟨numbered, ready, by simp, by simp [RunLoop.left]⟩
  | take =>
    obtain ⟨loop, ⟨toBeDone, _, left⟩ | ⟨task, tasks, front, took⟩⟩ := step_take taken
    · rw [left] at numbered ⊢
      exact ⟨numbered, ready, by simp, fun _ => toBeDone⟩
    · rw [took] at numbered ⊢
      exact ⟨numbered, ready, by simp, by simp [RunLoop.left]⟩
  | finish outcome =>
    obtain ⟨task, loop, ⟨again, _⟩ | ⟨_, finished⟩⟩ := step_finish taken
    · exact absurd again (sound.running_fresh loop)
    · rw [finished] at numbered ⊢
      refine ⟨numbered, ?_, by simp, by simp [RunLoop.left]⟩
      intro number
      simp only [List.map_cons, List.mem_cons, ready, List.map_append, List.mem_append,
        List.map_nil, List.not_mem_nil, or_false]
      exact or_comm
  | return_ =>
    obtain ⟨loop, returned⟩ := step_return taken
    rw [returned] at numbered ⊢
    exact ⟨numbered, ready, by simp, fun _ => done (by simp [loop, RunLoop.left])⟩

/-! ## Runs -/

theorem posted_cons (n : Nat) (action : WorkerAction F) (later : List (WorkerAction F)) :
    posted n (action :: later) =
      posted n [action] ++ posted (n + (posted n [action]).length) later := by
  cases callable : action.callable? <;> simp [posted, callable]

theorem run_order (sound : s.Sound) (reached : Labelled.run step s actions = some t) :
    t.Sound ∧ t.order = s.order ++ posted s.nextTask actions := by
  induction actions generalizing s with
  | nil =>
    cases reached
    simp [posted, sound]
  | cons action later ih =>
    obtain ⟨u, taken, reached⟩ := Labelled.run_cons.mp reached
    obtain ⟨order, next⟩ := order_step sound taken
    obtain ⟨sound', order'⟩ := ih (sound_step sound taken) reached
    refine ⟨sound', ?_⟩
    rw [order', order, next, posted_cons s.nextTask action later, List.append_assoc]

theorem done_step (taken : step s action = some t) (done : t.done = true) :
    s.done = true ∨ ∃ caller, action = .terminate caller := by
  cases action with
  | terminate caller => exact .inr ⟨caller, rfl⟩
  | post caller f => simp_all [step_post taken]
  | run isMainThread =>
    obtain ⟨_, same | called⟩ := step_run taken <;> simp_all
  | take =>
    obtain ⟨_, ⟨_, _, left⟩ | ⟨_, _, _, took⟩⟩ := step_take taken <;> simp_all
  | finish outcome =>
    obtain ⟨_, _, ⟨_, again⟩ | ⟨_, finished⟩⟩ := step_finish taken <;> simp_all
  | return_ =>
    obtain ⟨_, returned⟩ := step_return taken
    simp_all

/-- Only `terminate()` tells the loop to be done. -/
theorem run_done (reached : Labelled.run step s actions = some t) (done : t.done = true) :
    s.done = true ∨ ∃ caller, .terminate caller ∈ actions := by
  induction actions generalizing s with
  | nil =>
    cases reached
    exact .inl done
  | cons action later ih =>
    obtain ⟨u, taken, reached⟩ := Labelled.run_cons.mp reached
    rcases ih reached with before | ⟨caller, listed⟩
    · rcases done_step taken before with earlier | ⟨caller, same⟩
      · exact .inl earlier
      · exact .inr ⟨caller, by simp [same]⟩
    · exact .inr ⟨caller, List.mem_cons_of_mem _ listed⟩

/-- Past the final check nothing is executed and nothing is taken from the queue. -/
theorem left_step (left : s.loop.left = true) (taken : step s action = some t) :
    t.loop.left = true ∧ t.executed = s.executed ∧ t.tasks = s.tasks ++ posted s.nextTask [action] := by
  cases action with
  | post caller f =>
    rw [step_post taken]
    simp [left, posted, WorkerAction.callable?]
  | terminate caller =>
    rcases step_terminate taken with same | done <;>
      simp [*, posted, WorkerAction.callable?]
  | run isMainThread =>
    obtain ⟨loop, _⟩ := step_run taken
    simp [loop, RunLoop.left] at left
  | take =>
    obtain ⟨loop, _⟩ := step_take taken
    simp [loop, RunLoop.left] at left
  | finish outcome =>
    obtain ⟨task, loop, _⟩ := step_finish taken
    simp [loop, RunLoop.left] at left
  | return_ =>
    obtain ⟨_, returned⟩ := step_return taken
    simp [returned, RunLoop.left, posted, WorkerAction.callable?]

theorem left_run (left : s.loop.left = true) (reached : Labelled.run step s actions = some t) :
    t.loop.left = true ∧ t.executed = s.executed ∧ s.tasks <+: t.tasks := by
  induction actions generalizing s with
  | nil =>
    cases reached
    exact ⟨left, rfl, List.prefix_rfl⟩
  | cons action later ih =>
    obtain ⟨u, taken, reached⟩ := Labelled.run_cons.mp reached
    obtain ⟨left', executed, tasks⟩ := left_step left taken
    obtain ⟨left'', executed', kept⟩ := ih left' reached
    exact ⟨left'', executed'.trans executed, (tasks ▸ List.prefix_append _ _).trans kept⟩

/-- The loop leaves in the section that finds the queue empty and `done` set. -/
theorem leaving_step (taken : step s action = some t) (stays : s.loop.left = false)
    (left : t.loop.left = true) :
    action = .take ∧ s.loop = .waiting ∧ s.done = true ∧ s.tasks = [] ∧
      t = { s with loop := .leaving } := by
  cases action with
  | post caller f => simp_all [step_post taken]
  | terminate caller =>
    rcases step_terminate taken with same | done <;> simp_all
  | run isMainThread =>
    obtain ⟨_, same | called⟩ := step_run taken <;> simp_all [RunLoop.left]
  | take =>
    obtain ⟨loop, ⟨done, empty, leaving⟩ | ⟨_, _, _, took⟩⟩ := step_take taken
    · exact ⟨rfl, loop, done, empty, leaving⟩
    · simp [took, RunLoop.left] at left
  | finish outcome =>
    obtain ⟨_, _, ⟨_, again⟩ | ⟨_, finished⟩⟩ := step_finish taken <;> simp_all [RunLoop.left]
  | return_ =>
    obtain ⟨loop, _⟩ := step_return taken
    simp [loop, RunLoop.left] at stays

theorem final_check (reached : Labelled.run step s actions = some t)
    (stays : s.loop.left = false) (left : t.loop.left = true) :
    ∃ before after u v, actions = before ++ .take :: after ∧
      Labelled.run step s before = some u ∧ u.loop = .waiting ∧ u.done = true ∧ u.tasks = [] ∧
      v = { u with loop := .leaving } ∧ Labelled.run step v after = some t := by
  induction actions generalizing s with
  | nil =>
    cases reached
    simp [stays] at left
  | cons action later ih =>
    obtain ⟨u, taken, rest⟩ := Labelled.run_cons.mp reached
    cases stays' : u.loop.left with
    | false =>
      obtain ⟨before, after, v, v', split, ran, last⟩ := ih rest stays'
      refine ⟨action :: before, after, v, v', by rw [split]; rfl, ?_, last⟩
      exact Labelled.run_cons.mpr ⟨u, taken, ran⟩
    | true =>
      obtain ⟨same, loop, done, empty, leaving⟩ := leaving_step taken stays stays'
      subst same
      exact ⟨[], later, s, u, rfl, rfl, loop, done, empty, leaving, rest⟩

/-- First in, first out, each exactly once, and nothing dropped before the final check. -/
theorem first_in_first_out (reached : Labelled.run step construct actions = some t) :
    t.executed ++ t.loop.inProgress ++ t.tasks = posted 0 actions ∧
    (posted 0 actions).Nodup ∧
    t.loop ≠ .threw ∧
    (∀ task outcome, t.loop = .running task → ∃ u, step t (.finish outcome) = some u ∧
      u.loop = .waiting ∧ u.executed = t.executed ++ [task]) ∧
    (t.loop = .returned → ∃ before after u, actions = before ++ .take :: after ∧
      Labelled.run step construct before = some u ∧
      step u .take = some { u with loop := .leaving } ∧
      (∃ caller, .terminate caller ∈ before) ∧ t.executed = posted 0 before) := by
  obtain ⟨sound, run⟩ := run_order construct_sound reached
  have order : t.order = posted 0 actions := run
  refine ⟨order, order ▸ sound.nodup, sound.notThrew, ?_, ?_⟩
  · intro task outcome loop
    exact ⟨_, sound.finish loop outcome, rfl, rfl⟩
  · intro returned
    obtain ⟨before, after, u, v, split, ran, loop, done, empty, leaving, rest⟩ :=
      final_check reached rfl (by simp [returned, RunLoop.left])
    have terminated : ∃ caller, .terminate caller ∈ before :=
      (run_done ran done).resolve_left (by simp [construct])
    have executed : t.executed = u.executed := by
      rw [(left_run (by simp [leaving, RunLoop.left]) rest).2.1, leaving]
    have everything : u.executed = posted 0 before := by
      simpa [Worker.order, loop, RunLoop.inProgress, empty, construct] using
        (run_order construct_sound ran).2
    refine ⟨before, after, u, split, ran, ?_, terminated, executed.trans everything⟩
    simp [step, take, loop, done, empty]

/-- A run in which a task posts another one and terminates the worker, and throws. -/
def shutdown : List (WorkerAction Nat) :=
  [.run true, .post (.thread 1) 10, .take, .post (.thread 2) 20, .terminate .task, .post .task 30,
    .finish .exception, .take, .terminate (.thread 1), .finish .value, .take, .finish .value,
    .take, .return_]

theorem shutdown_first_in_first_out :
    ∃ t : Worker Nat, Labelled.run step construct shutdown = some t ∧ t.loop = .returned ∧
      t.executed = [⟨0, 10⟩, ⟨1, 20⟩, ⟨2, 30⟩] ∧
      t.executed ++ t.loop.inProgress ++ t.tasks = posted 0 shutdown :=
  ⟨_, rfl, rfl, rfl, (first_in_first_out rfl).1⟩

/-! ## Tasks that are posted too late -/

/-- A post that takes effect after the final check. -/
def LatePost (w : Worker F) (action : WorkerAction F) : Prop :=
  action.callable?.isSome = true ∧ w.loop.left = true

instance (w : Worker F) (action : WorkerAction F) : Decidable (w.LatePost action) :=
  inferInstanceAs (Decidable (_ ∧ _))

/-- The caller is given an error and no future. -/
def Refuses (w : Worker F) (action : WorkerAction F) : Prop :=
  ∀ f, action.callable? = some f → ∃ what, (w.post f).1 = .error what

/-- In every state of the run in which `run()` has returned the queue is empty, and each post
that takes effect after the final check is refused. -/
def NoneStranded (actions : List (WorkerAction F)) : Prop :=
  Labelled.Always step (fun w => w.loop = .returned → w.tasks = []) construct actions ∧
    Labelled.Meets step (fun w action => w.LatePost action → w.Refuses action) construct actions

/-- No post is refused. -/
theorem not_refuses (late : w.LatePost action) : ¬ w.Refuses action := by
  intro refuses
  obtain ⟨f, callable⟩ := Option.isSome_iff_exists.mp late.1
  obtain ⟨what, refused⟩ := refuses f callable
  cases refused

/-- The queue is empty at the final check, and stays so without late posts. -/
theorem empty_step (empty : s.loop.left = true → s.tasks = []) (inTime : ¬ s.LatePost action)
    (taken : step s action = some t) : t.loop.left = true → t.tasks = [] := by
  intro left
  by_cases before : s.loop.left = true
  · obtain ⟨_, _, tasks⟩ := left_step before taken
    have notPost : action.callable? = none := by
      cases callable : action.callable? with
      | none => rfl
      | some f => exact absurd ⟨by simp [callable], before⟩ inTime
    simp [tasks, empty before, posted, notPost]
  · obtain ⟨_, _, _, empty, leaving⟩ := leaving_step taken (by simpa using before) left
    simp [leaving, empty]

/-- Tasks are stranded exactly in the runs with a post after the final check. -/
theorem none_stranded_iff (actions : List (WorkerAction F)) :
    NoneStranded actions ↔
      Labelled.Meets step (fun w action => ¬ w.LatePost action) construct actions := by
  constructor
  · intro none
    apply none.2.mono
    intro w action refused late
    exact not_refuses late (refused late)
  · intro inTime
    constructor
    · apply @Labelled.always_of_meets _ _ step (fun w => w.loop.left = true → w.tasks = []) _ _ _ _ _ _
        _ inTime
      · intro w empty returned
        exact empty (by simp [returned, RunLoop.left])
      · intro w action u empty inTime taken
        exact empty_step empty inTime taken
      · simp [construct]
    · apply inTime.mono
      intro w action notLate late
      exact absurd late notLate

/-- A worker that is told to be done, and a post between its final check and its return. -/
def latePost : List (WorkerAction Nat) :=
  [.run true, .terminate (.thread 1), .take, .post (.thread 2) 10, .return_]

/-- The caller of the post has the future of a task that stays in the queue. -/
theorem latePost_stranded : ¬ NoneStranded latePost := by
  intro none
  have empty := Labelled.always_iff.mp none.1 latePost _ List.prefix_rfl rfl rfl
  cases empty

end Worker

end Cppgres
