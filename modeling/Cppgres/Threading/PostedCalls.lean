import Cppgres.Threading.WorkerRuns
import Mathlib.Logic.Function.Basic

/-!
# The calls that are posted

`worker::post` takes its arguments by forwarding references and captures them with `std::move`, whether
they are lvalues or not; of an array it captures a pointer. A future resolves to the call of what was
captured. Captures are made in the order of the arguments, and touch only objects that no other thread
may use meanwhile, so that a post is one step here.
-/
namespace Cppgres
open Labelled

variable {X V ε ρ : Type}

/-- An argument of `post`: an object of the caller, one that is const, an array, const or not, or a
temporary. -/
inductive PostArgument (X V : Type) where
  | lvalue (x : X)
  | constLvalue (x : X)
  | array (x : X)
  | rvalue (value : V)
  deriving DecidableEq, Repr

/-- What is captured for an argument: a value, or a pointer into an array of the caller. Nothing reads
`was`, which is what the array held at the time. -/
inductive Capture (X V : Type) where
  | value (value : V)
  | pointer (x : X) (was : V)
  deriving DecidableEq, Repr

namespace Capture

/-- What a call gets for it. -/
def read (objects : X → V) : Capture X V → V
  | .value v => v
  | .pointer x _ => objects x

def was : Capture X V → V
  | .value v => v
  | .pointer _ was => was

end Capture

/-- A callable and its arguments. -/
structure PostedCall (V : Type) where
  f : V
  args : List V
  deriving DecidableEq, Repr

def PostedCall.map {V W : Type} (g : V → W) (call : PostedCall V) : PostedCall W :=
  ⟨g call.f, call.args.map g⟩

/-- A future that is ready: `call` is what was evaluated. -/
structure PostedFuture (V ε ρ : Type) where
  number : Nat
  call : PostedCall V
  result : Except ε ρ

section Arguments
variable [DecidableEq X]

namespace PostArgument

def value (objects : X → V) : PostArgument X V → V
  | .lvalue x => objects x
  | .constLvalue x => objects x
  | .array x => objects x
  | .rvalue value => value

/-- `[arg = std::move(arg)]`, which copies what is const and makes a pointer of an array. `residual` is
what moving a value leaves. -/
def capture (residual : V → V) (objects : X → V) : PostArgument X V → Capture X V × (X → V)
  | .lvalue x => (.value (objects x), Function.update objects x (residual (objects x)))
  | .constLvalue x => (.value (objects x), objects)
  | .array x => (.pointer x (objects x), objects)
  | .rvalue value => (.value value, objects)

def captureAll (residual : V → V) (objects : X → V) :
    List (PostArgument X V) → List (Capture X V) × (X → V)
  | [] => ([], objects)
  | arg :: args =>
    let (captured, objects) := arg.capture residual objects
    let (rest, objects) := captureAll residual objects args
    (captured :: rest, objects)

/-- The argument is no object that moving changes. -/
def KeepsValue (residual : V → V) (objects : X → V) : PostArgument X V → Prop
  | .lvalue x => residual (objects x) = objects x
  | _ => True

/-- The object that an argument names. -/
def object? : PostArgument X V → Option X
  | .lvalue x => some x
  | .constLvalue x => some x
  | .array x => some x
  | .rvalue _ => none

end PostArgument

end Arguments

/-- A worker with the objects of its callers. `promised` are the calls that were asked for, with the
values at the time of each post; nothing reads it. -/
structure PostingWorker (X V ε ρ : Type) where
  objects : X → V
  worker : Worker (PostedCall (Capture X V))
  futures : List (PostedFuture V ε ρ)
  promised : List (Task (PostedCall V))

/-- What the callers do to their objects, which includes the end of an object, is an assignment. -/
inductive PostingAction (X V : Type) where
  | assign (x : X) (value : V)
  | post (caller : Caller) (f : PostArgument X V) (args : List (PostArgument X V))
  | terminate (caller : Caller)
  | run (isMainThread : Bool)
  | take
  | finish
  | return_
  deriving DecidableEq, Repr

namespace PostingWorker

def construct (objects : X → V) : PostingWorker X V ε ρ := ⟨objects, .construct, [], []⟩

section Operations
variable [DecidableEq X] (residual : V → V) (apply : PostedCall V → Except ε ρ)
  (w : PostingWorker X V ε ρ)

/-- The call that is asked for. -/
def asked (f : PostArgument X V) (args : List (PostArgument X V)) : PostedCall V :=
  ⟨f.value w.objects, args.map (·.value w.objects)⟩

/-- What the closure captures, and the objects after it. -/
def captured (f : PostArgument X V) (args : List (PostArgument X V)) :
    PostedCall (Capture X V) × (X → V) :=
  let (f, objects) := f.capture residual w.objects
  let (args, objects) := PostArgument.captureAll residual objects args
  (⟨f, args⟩, objects)

def post (caller : Caller) (f : PostArgument X V) (args : List (PostArgument X V)) :
    Option (PostingWorker X V ε ρ) :=
  let (closure, objects) := w.captured residual f args
  (w.worker.step (.post caller closure)).map fun worker =>
    { w with
      objects := objects
      worker := worker
      promised := w.promised ++ [⟨w.worker.nextTask, w.asked f args⟩] }

/-- The outcome that the `packaged_task` keeps. -/
def outcomeOf : Except ε ρ → TaskOutcome
  | .ok _ => .value
  | .error _ => .exception

/-- `task()`: the future resolves to `f(args...)`. A `packaged_task` that is called again throws. -/
def finish : Option (PostingWorker X V ε ρ) :=
  match w.worker.loop with
  | .running task =>
    let call := task.f.map (·.read w.objects)
    (w.worker.step (.finish (outcomeOf (apply call)))).map fun worker =>
      { w with
        worker := worker
        futures :=
          if task.number ∈ w.worker.ready.map Prod.fst then w.futures
          else ⟨task.number, call, apply call⟩ :: w.futures }
  | _ => none

def other (action : WorkerAction (PostedCall (Capture X V))) : Option (PostingWorker X V ε ρ) :=
  (w.worker.step action).map fun worker => { w with worker := worker }

def step : PostingAction X V → Option (PostingWorker X V ε ρ)
  | .assign x value => some { w with objects := Function.update w.objects x value }
  | .post caller f args => w.post residual caller f args
  | .terminate caller => w.other (.terminate caller)
  | .run isMainThread => w.other (.run isMainThread)
  | .take => w.other .take
  | .finish => w.finish apply
  | .return_ => w.other .return_

end Operations

end PostingWorker

/-- A step leaves the objects that it is given as they were, and posts a closure that would make the
call that was asked for; the end of a task makes its future ready; and the futures that are ready
resolved to the calls that were asked for, with the values of their posts. -/
structure PostedRight (apply : PostedCall V → Except ε ρ) (before : PostingWorker X V ε ρ)
    (action : PostingAction X V) (after : PostingWorker X V ε ρ) : Prop where
  unchanged : ∀ caller f args, action = .post caller f args → ∀ arg ∈ f :: args, ∀ x,
    arg.object? = some x → after.objects x = before.objects x
  posted : ∀ caller f args, action = .post caller f args → ∃ closure,
    after.worker.tasks = before.worker.tasks ++ [⟨before.worker.nextTask, closure⟩] ∧
      closure.map (·.read before.objects) = before.asked f args
  ready : ∀ task, action = .finish → before.worker.loop = .running task → ∃ call,
    after.futures = ⟨task.number, call, apply call⟩ :: before.futures
  resolved : ∀ future ∈ after.futures,
    ⟨future.number, future.call⟩ ∈ after.promised ∧ future.result = apply future.call

/-- What is posted by lvalues are objects that a move leaves as they are, and an array that was posted
has the value of its post when the call is made. -/
def PostsKeepValues (residual : V → V) (w : PostingWorker X V ε ρ) : PostingAction X V → Prop
  | .post _ f args => ∀ arg ∈ f :: args, arg.KeepsValue residual w.objects
  | .finish => ∀ task, w.worker.loop = .running task → ∀ x was,
    .pointer x was ∈ task.f.f :: task.f.args → w.objects x = was
  | _ => True

/-! ## Captures -/

/-- A call is made with the values of its post if and only if the arrays still have theirs. -/
theorem PostedCall.read_eq_was_iff (objects : X → V) (call : PostedCall (Capture X V)) :
    call.map (·.read objects) = call.map (·.was) ↔
      ∀ x was, .pointer x was ∈ call.f :: call.args → objects x = was := by
  have one (captured : Capture X V) : captured.read objects = captured.was ↔
      ∀ x was, .pointer x was = captured → objects x = was := by
    cases captured with
    | value value => exact iff_of_true rfl nofun
    | pointer x was =>
      constructor
      · rintro same _ _ ⟨⟩
        exact same
      · exact fun kept => kept x was rfl
  have whole : call.map (·.read objects) = call.map (·.was) ↔
      (call.f :: call.args).map (·.read objects) = (call.f :: call.args).map (·.was) := by
    unfold PostedCall.map
    rw [PostedCall.mk.injEq, List.map_cons, List.map_cons, List.cons.injEq]
  rw [whole, List.map_inj_left]
  constructor
  · exact fun same x was listed => (one _).mp (same _ listed) x was rfl
  · exact fun kept captured listed => (one captured).mpr fun x was equal =>
      kept x was (equal ▸ listed)

section Captures
variable [DecidableEq X]

namespace PostArgument
variable {residual : V → V} {objects current : X → V} {arg : PostArgument X V}
  {args : List (PostArgument X V)} {x : X}

theorem capture_read (residual : V → V) :
    (arg.capture residual objects).1.read objects = arg.value objects := by
  cases arg <;> rfl

theorem capture_was (residual : V → V) :
    (arg.capture residual objects).1.was = arg.value objects := by
  cases arg <;> rfl

/-- What keeps its value is captured as if it were copied. -/
theorem capture_snd (keeps : arg.KeepsValue residual objects) :
    (arg.capture residual objects).2 = objects := by
  cases arg with
  | lvalue x =>
    have same : residual (objects x) = objects x := keeps
    unfold capture
    dsimp only
    rw [same, Function.update_eq_self]
  | constLvalue x => rfl
  | array x => rfl
  | rvalue value => rfl

theorem captureAll_cons (arg : PostArgument X V) (args : List (PostArgument X V)) :
    captureAll residual objects (arg :: args) =
      ((arg.capture residual objects).1 ::
          (captureAll residual (arg.capture residual objects).2 args).1,
        (captureAll residual (arg.capture residual objects).2 args).2) := rfl

theorem captureAll_keep (keep : ∀ arg ∈ args, arg.KeepsValue residual objects) :
    (captureAll residual objects args).2 = objects ∧
      (captureAll residual objects args).1.map (·.read objects) = args.map (·.value objects) ∧
      (captureAll residual objects args).1.map (·.was) = args.map (·.value objects) := by
  induction args with
  | nil => exact ⟨rfl, rfl, rfl⟩
  | cons arg args ih =>
    obtain ⟨left, read, was⟩ := ih fun other member => keep other (List.mem_cons_of_mem _ member)
    rw [captureAll_cons, capture_snd (keep arg List.mem_cons_self)]
    simp [left, read, was, capture_read, capture_was]

theorem capture_other (different : arg ≠ .lvalue x) :
    (arg.capture residual objects).2 x = objects x := by
  cases arg with
  | lvalue y =>
    have apart : x ≠ y := fun same => different (by rw [same])
    exact Function.update_of_ne apart _ _
  | constLvalue y => rfl
  | array y => rfl
  | rvalue value => rfl

theorem captureAll_other (absent : .lvalue x ∉ args) :
    (captureAll residual objects args).2 x = objects x := by
  induction args generalizing objects with
  | nil => rfl
  | cons arg args ih =>
    have different : arg ≠ .lvalue x := fun same => absent (same ▸ List.mem_cons_self)
    rw [captureAll_cons]
    dsimp only
    rw [ih fun member => absent (List.mem_cons_of_mem _ member), capture_other different]

/-- An object has the value that is captured first from it. -/
theorem first_captured
    (matches_ : (captureAll residual current args).1.map (·.read objects) =
      args.map (·.value objects))
    (member : .lvalue x ∈ args) : current x = objects x := by
  induction args generalizing current with
  | nil => cases member
  | cons arg args ih =>
    rw [captureAll_cons, List.map_cons, List.map_cons] at matches_
    obtain ⟨here, later⟩ := List.cons.inj matches_
    by_cases same : arg = .lvalue x
    · rw [same] at here
      exact here
    · have rest : .lvalue x ∈ args := (List.mem_cons.mp member).resolve_left (Ne.symm same)
      rw [← ih later rest, capture_other same]

/-- Where each argument is captured with its value, and each lvalue has its value after that, moving
left each of them as it was. -/
theorem keepsValue_of_captured
    (matches_ : (captureAll residual current args).1.map (·.read objects) =
      args.map (·.value objects))
    (unchanged : ∀ x, .lvalue x ∈ args → (captureAll residual current args).2 x = objects x) :
    ∀ arg ∈ args, arg.KeepsValue residual objects := by
  induction args generalizing current with
  | nil => exact fun _ member => nomatch member
  | cons arg args ih =>
    rw [captureAll_cons, List.map_cons, List.map_cons] at matches_
    obtain ⟨here, later⟩ := List.cons.inj matches_
    rw [captureAll_cons] at unchanged
    have rest := ih later fun x member => unchanged x (List.mem_cons_of_mem _ member)
    intro other member
    cases List.mem_cons.mp member with
    | inr old => exact rest other old
    | inl same =>
      subst same
      cases other with
      | constLvalue x => trivial
      | array x => trivial
      | rvalue value => trivial
      | lvalue x =>
        have left : ((lvalue x : PostArgument X V).capture residual current).2 x =
            residual (objects x) := by
          have first : current x = objects x := here
          rw [← first]
          exact Function.update_self x _ current
        change residual (objects x) = objects x
        rw [← left]
        -- it is captured again, or nothing changes it any more
        by_cases again : .lvalue x ∈ args
        · exact first_captured later again
        · have final := unchanged x List.mem_cons_self
          dsimp only at final
          rw [captureAll_other again] at final
          exact final

end PostArgument

/-! ## Runs -/

namespace PostingWorker
variable {residual : V → V} {apply : PostedCall V → Except ε ρ} {w t : PostingWorker X V ε ρ}
  {action : PostingAction X V} {f : PostArgument X V} {args : List (PostArgument X V)}

/-- A task as it was asked for. -/
def askedTask (task : Task (PostedCall (Capture X V))) : Task (PostedCall V) :=
  ⟨task.number, task.f.map (·.was)⟩

/-- What waits, is in progress or was executed is what was asked for, and so are the results. -/
structure PostingInv (apply : PostedCall V → Except ε ρ) (w : PostingWorker X V ε ρ) : Prop where
  sound : w.worker.Sound
  order : w.worker.order.map askedTask = w.promised
  resolved : ∀ future ∈ w.futures,
    ⟨future.number, future.call⟩ ∈ w.promised ∧ future.result = apply future.call

omit [DecidableEq X] in
theorem PostingInv.construct (objects : X → V) :
    PostingInv apply (PostingWorker.construct objects) where
  sound := Worker.construct_sound
  order := rfl
  resolved _ member := nomatch member

omit [DecidableEq X] in
/-- The call that was asked for of a task. -/
theorem PostingInv.promised_iff (inv : PostingInv apply w)
    {task : Task (PostedCall (Capture X V))} (member : task ∈ w.worker.order) (call : PostedCall V) :
    ⟨task.number, call⟩ ∈ w.promised ↔ call = task.f.map (·.was) := by
  rw [← inv.order, List.mem_map]
  constructor
  · rintro ⟨other, listed, same⟩
    have number : other.number = task.number := by
      simpa [askedTask] using congrArg Task.number same
    have once : (w.worker.order.map Task.number).Nodup := by
      rw [inv.sound.numbered]
      exact List.nodup_range
    have equal := List.inj_on_of_nodup_map once listed member number
    rw [← equal]
    exact (congrArg Task.f same).symm
  · rintro rfl
    exact ⟨task, member, rfl⟩

/-- The callable is captured as the first of the arguments. -/
theorem captureAll_captured (residual : V → V) (w : PostingWorker X V ε ρ) (f : PostArgument X V)
    (args : List (PostArgument X V)) :
    PostArgument.captureAll residual w.objects (f :: args) =
      ((w.captured residual f args).1.f :: (w.captured residual f args).1.args,
        (w.captured residual f args).2) := rfl

theorem captured_of_keep (keep : ∀ arg ∈ f :: args, arg.KeepsValue residual w.objects) :
    (w.captured residual f args).2 = w.objects ∧
      (w.captured residual f args).1.map (·.read w.objects) = w.asked f args ∧
      (w.captured residual f args).1.map (·.was) = w.asked f args := by
  obtain ⟨left, read, was⟩ := PostArgument.captureAll_keep keep
  rw [captureAll_captured residual w f args] at left read was
  obtain ⟨readFirst, readRest⟩ := List.cons.inj read
  obtain ⟨first, rest⟩ := List.cons.inj was
  refine ⟨left, ?_, ?_⟩
  · unfold PostedCall.map asked
    rw [readFirst, readRest]
  · unfold PostedCall.map asked
    rw [first, rest]

theorem keep_of_captured
    (right : (w.captured residual f args).1.map (·.read w.objects) = w.asked f args)
    (unchanged : ∀ x, .lvalue x ∈ f :: args → (w.captured residual f args).2 x = w.objects x) :
    ∀ arg ∈ f :: args, arg.KeepsValue residual w.objects := by
  have all := captureAll_captured residual w f args
  obtain ⟨first, rest⟩ := PostedCall.mk.inj right
  dsimp only at first
  apply @PostArgument.keepsValue_of_captured X V _ residual w.objects w.objects
  · rw [all, List.map_cons, List.map_cons, first, rest]
  · rw [all]
    exact unchanged

/-- What a post does. -/
theorem step_post {caller : Caller} (taken : w.step residual apply (.post caller f args) = some t) :
    ∃ worker, w.worker.step (.post caller (w.captured residual f args).1) = some worker ∧
      t = { w with
        objects := (w.captured residual f args).2
        worker := worker
        promised := w.promised ++ [⟨w.worker.nextTask, w.asked f args⟩] } := by
  obtain ⟨worker, posted, made⟩ := Option.map_eq_some_iff.mp taken
  exact ⟨worker, posted, made.symm⟩

omit [DecidableEq X] in
/-- What the end of a task does. -/
theorem PostingInv.step_finish (inv : PostingInv apply w) (taken : w.finish apply = some t) :
    ∃ task worker, w.worker.loop = .running task ∧
      w.worker.step (.finish (outcomeOf (apply (task.f.map (·.read w.objects))))) = some worker ∧
      t = { w with
        worker := worker
        futures := ⟨task.number, task.f.map (·.read w.objects),
          apply (task.f.map (·.read w.objects))⟩ :: w.futures } := by
  unfold PostingWorker.finish at taken
  split at taken
  · rename_i task loop
    obtain ⟨worker, stepped, rfl⟩ := Option.map_eq_some_iff.mp taken
    refine ⟨task, worker, loop, stepped, ?_⟩
    rw [if_neg (inv.sound.running_fresh loop)]
  · cases taken

omit [DecidableEq X] in
/-- A step of the worker that posts nothing and finishes nothing. -/
theorem PostingInv.other (inv : PostingInv apply w)
    {action : WorkerAction (PostedCall (Capture X V))} (posts : action.callable? = none)
    (taken : w.other action = some t) : PostingInv apply t := by
  obtain ⟨worker, stepped, rfl⟩ := Option.map_eq_some_iff.mp taken
  have order := (Worker.order_step inv.sound stepped).1
  simp only [Worker.posted, posts, List.append_nil] at order
  exact ⟨Worker.sound_step inv.sound stepped, (congrArg _ order).trans inv.order, inv.resolved⟩

omit [DecidableEq X] in
theorem running_mem_order {task : Task (PostedCall (Capture X V))}
    (loop : w.worker.loop = .running task) : task ∈ w.worker.order := by
  unfold Worker.order
  rw [loop]
  simp [RunLoop.inProgress]

omit [DecidableEq X] in
theorem PostingInv.finish (inv : PostingInv apply w) (keep : PostsKeepValues residual w .finish)
    (taken : w.finish apply = some t) : PostingInv apply t := by
  obtain ⟨task, worker, loop, stepped, rfl⟩ := inv.step_finish taken
  have order := (Worker.order_step inv.sound stepped).1
  simp only [Worker.posted, WorkerAction.callable?, List.append_nil] at order
  refine ⟨Worker.sound_step inv.sound stepped, (congrArg _ order).trans inv.order, ?_⟩
  intro future member
  cases List.mem_cons.mp member with
  | inl same =>
    subst same
    refine ⟨(inv.promised_iff (running_mem_order loop) _).mpr ?_, rfl⟩
    exact (task.f.read_eq_was_iff w.objects).mpr (keep task loop)
  | inr old => exact inv.resolved future old

theorem PostingInv.post (inv : PostingInv apply w) {caller : Caller}
    (keep : ∀ arg ∈ f :: args, arg.KeepsValue residual w.objects)
    (taken : w.step residual apply (.post caller f args) = some t) : PostingInv apply t := by
  obtain ⟨worker, stepped, rfl⟩ := step_post taken
  obtain ⟨-, -, was⟩ := captured_of_keep keep
  have order := (Worker.order_step inv.sound stepped).1
  refine ⟨Worker.sound_step inv.sound stepped, ?_, ?_⟩
  · rw [order, List.map_append, inv.order]
    refine congrArg (w.promised ++ ·) ?_
    simp [Worker.posted, WorkerAction.callable?, askedTask, was]
  · intro future member
    obtain ⟨promised, same⟩ := inv.resolved future member
    exact ⟨List.mem_append_left _ promised, same⟩

theorem PostingInv.step (inv : PostingInv apply w) (keep : PostsKeepValues residual w action)
    (taken : w.step residual apply action = some t) : PostingInv apply t := by
  cases action with
  | assign x value =>
    cases taken
    exact ⟨inv.sound, inv.order, inv.resolved⟩
  | post caller f args => exact inv.post keep taken
  | terminate caller => exact inv.other rfl taken
  | run isMainThread => exact inv.other rfl taken
  | take => exact inv.other rfl taken
  | finish => exact inv.finish keep taken
  | return_ => exact inv.other rfl taken

/-- A post is right if and only if moving leaves all its lvalues as they are, and the end of a task if
and only if its arrays have the values of the post. -/
theorem PostingInv.right_iff (inv : PostingInv apply w)
    (taken : w.step residual apply action = some t) :
    PostedRight apply w action t ↔ PostsKeepValues residual w action := by
  constructor
  · intro right
    cases action with
    | post caller f args =>
      obtain ⟨worker, stepped, same⟩ := step_post taken
      obtain ⟨closure, tasks, read⟩ := right.posted caller f args rfl
      rw [same, Worker.step_post stepped] at tasks
      have captured : (w.captured residual f args).1 = closure := by
        simpa using List.append_cancel_left tasks
      rw [← captured] at read
      apply keep_of_captured read
      intro x member
      have unchanged := right.unchanged caller f args rfl _ member x rfl
      rw [same] at unchanged
      exact unchanged
    | finish =>
      intro task loop
      obtain ⟨running, worker, loop', _, rfl⟩ := inv.step_finish taken
      cases loop.symm.trans loop'
      have promised := (right.resolved _ List.mem_cons_self).1
      have call := (inv.promised_iff (running_mem_order loop) _).mp promised
      exact (task.f.read_eq_was_iff w.objects).mp call
    | assign x value => trivial
    | terminate caller => trivial
    | run isMainThread => trivial
    | take => trivial
    | return_ => trivial
  · intro keep
    refine ⟨?_, ?_, ?_, (inv.step keep taken).resolved⟩
    · intro caller f args same arg _ x _
      subst same
      obtain ⟨worker, stepped, rfl⟩ := step_post taken
      exact congrFun (captured_of_keep keep).1 x
    · intro caller f args same
      subst same
      obtain ⟨worker, stepped, rfl⟩ := step_post taken
      exact ⟨_, congrArg Worker.tasks (Worker.step_post stepped), (captured_of_keep keep).2.1⟩
    · intro task same loop
      subst same
      obtain ⟨running, worker, loop', _, rfl⟩ := inv.step_finish taken
      cases loop.symm.trans loop'
      exact ⟨_, rfl⟩

/-- Over every interleaving of posts, the loop and the callers' own code: the posts leave the objects
they are given as they were, each task that ends makes its future ready, and all futures resolve to the
calls that were asked for, if and only if moving leaves every object as it is that a post is given as an
lvalue, and every array that is posted has its value when the call is made. -/
theorem posts_right_iff (residual : V → V) (apply : PostedCall V → Except ε ρ) (objects : X → V)
    (actions : List (PostingAction X V)) :
    Meets (step residual apply)
        (fun w action => ∀ t, w.step residual apply action = some t → PostedRight apply w action t)
        (construct objects) actions ↔
      Meets (step residual apply) (PostsKeepValues residual)
        (construct objects : PostingWorker X V ε ρ) actions := by
  refine meets_iff_meets (fun w action t inv keep taken => inv.step keep taken) ?_
    (PostingInv.construct objects)
  intro w action t inv taken
  rw [← inv.right_iff taken]
  constructor
  · exact fun right => right t taken
  · intro right u also
    cases taken.symm.trans also
    exact right

end PostingWorker

end Captures

namespace PostingWorker

/-! ## A string that is posted twice -/

/-- Strings: a moved one is empty. -/
def emptied (_ : String) : String := ""

/-- The callable returns its arguments. -/
def echo (call : PostedCall String) : Except Unit (List String) := .ok call.args

/-- `post(f, s); post(f, s);`, and the loop executes both. -/
def twice : List (PostingAction Nat String) :=
  [.post (.thread 1) (.rvalue "f") [.lvalue 0], .post (.thread 1) (.rvalue "f") [.lvalue 0],
    .run true, .take, .finish, .take, .finish]

/-- An array is posted, and written to before the loop executes the call. -/
def overwritten : List (PostingAction Nat String) :=
  [.post (.thread 1) (.rvalue "f") [.array 0], .assign 0 "later", .run true, .take, .finish]

/-- The string is empty after the first post, and the second future resolves to the empty string; and
of the array the call gets what was written later. -/
theorem twice_consumed :
    (Labelled.run (step emptied echo) (construct fun _ => "hello") twice).map
        (fun w => (w.objects 0, w.futures.map (·.result))) =
      some ("", [.ok [""], .ok ["hello"]]) ∧
    ¬ Meets (step emptied echo)
        (fun w action => ∀ t, w.step emptied echo action = some t → PostedRight echo w action t)
        (construct fun _ => "hello") twice ∧
    (Labelled.run (step emptied echo) (construct fun _ => "hello") overwritten).map
        (fun w => w.futures.map (·.result)) = some [.ok ["later"]] := by
  refine ⟨rfl, ?_, rfl⟩
  intro meets
  have unchanged := ((meets _ rfl).1 _ rfl).unchanged _ _ _ rfl (.lvalue 0) (by decide) 0 rfl
  exact absurd unchanged (by decide)

end PostingWorker

end Cppgres
