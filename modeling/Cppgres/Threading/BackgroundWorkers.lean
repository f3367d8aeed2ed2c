import Mathlib.Logic.Function.Basic
import Cppgres.Labelled.Runs

/-!
# Handles of background workers

`background_worker::start` and the operations of `background_worker::handle`. A worker that was
registered is started, stops, or loses the postmaster at any time. The Postgres functions write a pid
or a handle through a pointer in some cases only; in the others the variable that it points to, which
is not initialised, holds what happens to be there.
-/
namespace Cppgres
open Labelled

/-- `BgwHandleStatus`, with the pid that is written with it. -/
inductive BgwHandleStatus where
  | started (pid : Int)
  | notYetStarted
  | stopped
  | postmasterDied
  deriving DecidableEq, Repr

inductive BgwException where
  | workerStopped
  | workerNotYetStarted
  | postmasterDied
  | logicError (what : String)
  | runtimeError (what : String)
  | pgException
  deriving DecidableEq, Repr

inductive BgwCall where
  | registerBackgroundWorker
  | registerDynamicBackgroundWorker
  | waitForBackgroundWorkerStartup (handle : Nat)
  | waitForBackgroundWorkerShutdown (handle : Nat)
  | terminateBackgroundWorker (handle : Nat)
  | getBackgroundWorkerPid (handle : Nat)
  | getBackgroundWorkerTypeByPid (pid : Int)
  deriving DecidableEq, Repr

namespace BgwHandleStatus

/-- What `*pidp` is after a function reported the status. -/
def writes (uninitialized : Int) : BgwHandleStatus → Int
  | .started pid => pid
  | _ => uninitialized

/-- The exception for a status. -/
def exception : BgwHandleStatus → Option BgwException
  | .started _ => none
  | .notYetStarted => some .workerNotYetStarted
  | .stopped => some .workerStopped
  | .postmasterDied => some .postmasterDied

end BgwHandleStatus

/-- `background_worker::handle` -/
structure BgwHandle where
  handle_ : Option Nat
  deriving DecidableEq, Repr

namespace BgwHandle

def hasValue (this : BgwHandle) : Bool := this.handle_.isSome

variable (reports : Option BgwHandleStatus) (uninitialized : Int) (this : BgwHandle)

/-! Each operation gives the Postgres calls that it made, latest first, and what it returned or threw.
`reports` is the status that Postgres reports, none where it raises an error. -/

def waitForStartup : List BgwCall × Except BgwException Int :=
  match this.handle_ with
  | some value =>
    ([.waitForBackgroundWorkerStartup value],
      match reports with
      | some status => .ok (status.writes uninitialized)
      | none => .error .pgException)
  | none =>
    ([], .error (.logicError "Attempting to wait for a background worker with no handle"))

def waitForShutdown (fails : Bool) : List BgwCall × Except BgwException Unit :=
  match this.handle_ with
  | some value =>
    ([.waitForBackgroundWorkerShutdown value], if fails then .error .pgException else .ok ())
  | none =>
    ([], .error (.logicError "Attempting to wait for a background worker with no handle"))

def terminate (fails : Bool) : List BgwCall × Except BgwException Unit :=
  match this.handle_ with
  | some value =>
    ([.terminateBackgroundWorker value], if fails then .error .pgException else .ok ())
  | none =>
    ([], .error (.logicError "Attempting to terminate a background worker with no handle"))

def getPid : List BgwCall × Except BgwException Int :=
  match this.handle_ with
  | some value =>
    ([.getBackgroundWorkerPid value],
      match reports with
      | some status =>
        let pid := status.writes uninitialized
        match status with
        | .started _ => .ok pid
        | .stopped => .error .workerStopped
        | .notYetStarted => .error .workerNotYetStarted
        | .postmasterDied => .error .postmasterDied
      | none => .error .pgException)
  | none =>
    ([], .error (.logicError "Attempting to get a PID of a background worker with no handle"))

/-- `worker_type`, which is null where Postgres knows no worker with the pid. -/
def workerType (type : Option String) : List BgwCall × Except BgwException (Option String) :=
  match getPid reports uninitialized this with
  | (calls, .ok pid) => (.getBackgroundWorkerTypeByPid pid :: calls, .ok type)
  | (calls, .error exception) => (calls, .error exception)

variable {reports uninitialized this}

/-- A pid is that of a worker reported to be started. -/
theorem getPid_pid {pid : Int}
    (returned : (this.getPid reports uninitialized).2 = .ok pid) :
    reports = some (.started pid) := by
  obtain ⟨pointer⟩ := this
  cases pointer with
  | none => cases returned
  | some worker =>
    rcases reports with _ | status
    · cases returned
    · cases status <;> cases returned
      rfl

/-- Another status is thrown. -/
theorem getPid_exception {status : BgwHandleStatus} {exception : BgwException}
    (holds : this.hasValue = true) (reported : reports = some status)
    (thrown : status.exception = some exception) :
    (this.getPid reports uninitialized).2 = .error exception := by
  obtain ⟨pointer⟩ := this
  obtain ⟨worker, rfl⟩ := Option.isSome_iff_exists.mp holds
  subst reported
  cases status <;> cases thrown <;> rfl

theorem workerType_exception {type : Option String} {exception : BgwException}
    (thrown : (this.getPid reports uninitialized).2 = .error exception) :
    (this.workerType reports uninitialized type).2 = .error exception := by
  rcases operation : this.getPid reports uninitialized with ⟨calls, result⟩
  rw [operation] at thrown
  rw [BgwHandle.workerType, operation]
  cases thrown
  rfl

end BgwHandle

/-- What comes of a registration. -/
inductive Registration where
  | accepted
  | refused
  | raised
  deriving DecidableEq, Repr

/-- `IsUnderPostmaster` and `IsPostmasterEnvironment` -/
structure PostmasterState where
  isUnderPostmaster : Bool
  isPostmasterEnvironment : Bool
  deriving DecidableEq, Repr

/-- `background_worker::start`: where a registration is accepted, the handle is at `address`. -/
def startWorker (process : PostmasterState) (address : Nat) (dynamic : Bool)
    (registration : Registration) (uninitialized : Option Nat) :
    List BgwCall × Except BgwException BgwHandle :=
  if !dynamic then
    if process.isUnderPostmaster || !process.isPostmasterEnvironment then
      ([], .error
        (.runtimeError "static background worker can only be start in the postmaster process"))
    else
      ([.registerBackgroundWorker],
        if registration = .raised then .error .pgException else .ok ⟨none⟩)
  else
    ([.registerDynamicBackgroundWorker],
      match registration with
      | .accepted => .ok ⟨some address⟩
      | .refused => .ok ⟨uninitialized⟩
      | .raised => .error .pgException)

/-- `change` is a change in the history of a worker. What uninitialised variables hold, and which
calls raise an error, comes with the actions. -/
inductive BgwAction (ω : Type) where
  | construct (this : ω)
  | copy (this other : ω)
  | start (this : ω) (dynamic : Bool) (registration : Registration) (uninitialized : Option Nat)
  | change (worker : Nat) (status : BgwHandleStatus)
  | waitForStartup (this : ω) (uninitialized : Int) (fails : Bool)
  | waitForShutdown (this : ω) (fails : Bool)
  | terminate (this : ω) (fails : Bool)
  | getPid (this : ω) (uninitialized : Int) (fails : Bool)
  | workerType (this : ω) (uninitialized : Int) (fails : Bool) (type : Option String)
  deriving DecidableEq, Repr

inductive BgwOutcome where
  | done
  | pid (pid : Int)
  | type (type : Option String)
  | thrown (exception : BgwException)
  | undefined
  deriving DecidableEq, Repr

/-- The handles that are there, the workers by the addresses of their handles with what Postgres
would report of them, and the Postgres calls so far, latest first. -/
structure BgwRun (ω : Type) where
  handles : ω → Option BgwHandle
  workers : Nat → Option BgwHandleStatus
  calls : List BgwCall
  fresh : Nat

/-- What an operation returned, as the outcome of an action. -/
def BgwOutcome.of {α : Type} (value : α → BgwOutcome) : Except BgwException α → BgwOutcome
  | .ok result => value result
  | .error exception => .thrown exception

namespace BgwRun
variable {ω : Type}

def start : BgwRun ω := ⟨fun _ => none, fun _ => none, [], 0⟩

section Operations
variable [DecidableEq ω] (process : PostmasterState) (m : BgwRun ω)

def set (this : ω) (handle : BgwHandle) : BgwRun ω :=
  { m with handles := Function.update m.handles this (some handle) }

/-- What Postgres reports of the worker of a handle. -/
def report (handle : BgwHandle) : Option BgwHandleStatus := handle.handle_.bind m.workers

/-- An operation on a handle. One that points to no worker is not to be used. -/
def operate {α : Type} (handle : BgwHandle) (value : α → BgwOutcome)
    (operation : List BgwCall × Except BgwException α) : BgwOutcome × BgwRun ω :=
  if handle.hasValue && (m.report handle).isNone then (.undefined, m)
  else (.of value operation.2, { m with calls := operation.1 ++ m.calls })

/-- None where there is no such object or worker, or while Postgres waits for the worker. -/
def exec : BgwAction ω → Option (BgwOutcome × BgwRun ω)
  | .construct this => some (.done, m.set this ⟨none⟩)
  | .copy this other => (m.handles other).map fun handle => (.done, m.set this handle)
  | .start this dynamic registration uninitialized =>
    let (calls, result) := startWorker process m.fresh dynamic registration uninitialized
    let m := { m with calls := calls ++ m.calls }
    match result with
    | .error exception => some (.thrown exception, m)
    | .ok handle =>
      some (.done, { m.set this handle with
        workers := if dynamic && decide (registration = .accepted)
          then Function.update m.workers m.fresh (some .notYetStarted) else m.workers
        fresh := m.fresh + 1 })
  | .change worker status =>
    if (m.workers worker).isSome then
      some (.done, { m with workers := Function.update m.workers worker (some status) })
    else none
  | .waitForStartup this uninitialized fails => (m.handles this).bind fun handle =>
    let reports := m.report handle
    if !fails && decide (reports = some .notYetStarted) then none
    else
      some (m.operate handle .pid
        (handle.waitForStartup (if fails then none else reports) uninitialized))
  | .waitForShutdown this fails => (m.handles this).bind fun handle =>
    let waits := (m.report handle).any fun status =>
      decide (status ≠ .stopped ∧ status ≠ .postmasterDied)
    if !fails && waits then none
    else some (m.operate handle (fun _ => .done) (handle.waitForShutdown fails))
  | .terminate this fails => (m.handles this).map fun handle =>
    m.operate handle (fun _ => .done) (handle.terminate fails)
  | .getPid this uninitialized fails => (m.handles this).map fun handle =>
    let reports := m.report handle
    m.operate handle .pid (handle.getPid (if fails then none else reports) uninitialized)
  | .workerType this uninitialized fails type => (m.handles this).map fun handle =>
    let reports := m.report handle
    m.operate handle .type
      (handle.workerType (if fails then none else reports) uninitialized type)

def step (action : BgwAction ω) : Option (BgwRun ω) := (m.exec process action).map Prod.snd

/-! ## What is asked of a run -/

/-- The object that an operation is on. -/
def operand : BgwAction ω → Option ω
  | .waitForStartup this _ _ => some this
  | .waitForShutdown this _ => some this
  | .terminate this _ => some this
  | .getPid this _ _ => some this
  | .workerType this _ _ _ => some this
  | _ => none

/-- The status that Postgres reports to an operation that asks for the pid. -/
def reported : BgwAction ω → Option BgwHandleStatus
  | .waitForStartup this _ fails => if fails then none else (m.handles this).bind m.report
  | .getPid this _ fails => if fails then none else (m.handles this).bind m.report
  | .workerType this _ fails _ => if fails then none else (m.handles this).bind m.report
  | _ => none

/-- A dynamic worker's handle has a value if and only if the worker was registered, an operation on a
handle without value throws and calls nothing, and a pid is one that Postgres reported; any other
status that it reports is thrown. -/
structure Right (next : BgwRun ω) (action : BgwAction ω) (outcome : BgwOutcome) : Prop where
  starts : ∀ this registration uninitialized,
    action = .start this true registration uninitialized → outcome = .done →
      ∃ handle, next.handles this = some handle ∧
        (handle.hasValue = true ↔ registration = .accepted)
  empty : ∀ this handle, operand action = some this → m.handles this = some handle →
    handle.hasValue = false →
      (∃ what, outcome = .thrown (.logicError what)) ∧ next.calls = m.calls
  pid : ∀ pid, outcome = .pid pid → m.reported action = some (.started pid)
  status : ∀ status exception, m.reported action = some status →
    status.exception = some exception → outcome = .thrown exception

/-- An action of a run, in the state that it is taken in. -/
def DoneRight (action : BgwAction ω) : Prop :=
  ∀ outcome next, m.exec process action = some (outcome, next) → m.Right next action outcome

/-- A dynamic registration is not refused, or the pointer happens to be null; and a worker whose
startup is waited for is started. -/
def Starts : BgwAction ω → Prop
  | .start _ dynamic registration uninitialized =>
    dynamic = true → registration = .refused → uninitialized = none
  | .waitForStartup this uninitialized fails =>
    ∀ status, m.reported (.waitForStartup this uninitialized fails) = some status →
      status.exception = none
  | _ => True

end Operations

/-! ## What an action does -/

/-- The handles that have a value are those of workers. -/
def Known (m : BgwRun ω) : Prop :=
  ∀ this handle, m.handles this = some handle → handle.hasValue = true →
    ∃ status, m.report handle = some status

section Actions
variable {m next : BgwRun ω} {action : BgwAction ω} {outcome : BgwOutcome} {this : ω}
  {handle : BgwHandle}

theorem start_known : (start : BgwRun ω).Known := by
  intro this handle here
  cases here

/-- Changes that concern neither the handles nor the workers. -/
theorem Known.of_same (known : m.Known) (handles : next.handles = m.handles)
    (workers : next.workers = m.workers) : next.Known := by
  intro this handle here value
  rw [handles] at here
  obtain ⟨status, found⟩ := known this handle here value
  refine ⟨status, ?_⟩
  unfold report
  rw [workers]
  exact found

theorem Known.of_calls (known : m.Known) (calls : List BgwCall) (fresh : Nat) :
    ({ m with calls, fresh } : BgwRun ω).Known :=
  known.of_same rfl rfl

/-- Changes of the workers after which all of them are still there. -/
theorem Known.of_workers (known : m.Known) (handles : next.handles = m.handles)
    (there : ∀ worker status, m.workers worker = some status →
      ∃ later, next.workers worker = some later) : next.Known := by
  intro this handle here value
  rw [handles] at here
  obtain ⟨status, found⟩ := known this handle here value
  obtain ⟨worker, points, found⟩ := Option.bind_eq_some_iff.mp found
  obtain ⟨later, found⟩ := there worker status found
  exact ⟨later, Option.bind_eq_some_iff.mpr ⟨worker, points, found⟩⟩

theorem update_workers_there {worker : Nat} {status : BgwHandleStatus} (other : Nat)
    (before : BgwHandleStatus) (found : m.workers other = some before) :
    ∃ later, Function.update m.workers worker (some status) other = some later := by
  by_cases same : other = worker
  · exact ⟨status, by simp [same]⟩
  · exact ⟨before, by simpa [same] using found⟩

theorem known_operate {α : Type} {value : α → BgwOutcome}
    {operation : List BgwCall × Except BgwException α} (known : m.Known)
    (same : m.operate handle value operation = (outcome, next)) : next.Known := by
  unfold operate at same
  split at same
  · cases same
    exact known
  · cases same
    exact known.of_same rfl rfl

/-- An operation on the handle of a worker. -/
theorem operate_reported {α : Type} {value : α → BgwOutcome}
    {operation : List BgwCall × Except BgwException α} {status : BgwHandleStatus}
    (found : m.report handle = some status) :
    m.operate handle value operation =
      (.of value operation.2, { m with calls := operation.1 ++ m.calls }) := by
  simp [operate, found]

/-- An action that is no start. -/
theorem right_of_operand {handle : BgwHandle} (operand : operand action = some this)
    (here : m.handles this = some handle)
    (empty : handle.hasValue = false →
      (∃ what, outcome = .thrown (.logicError what)) ∧ next.calls = m.calls)
    (pid : ∀ pid, outcome = .pid pid → m.reported action = some (.started pid))
    (status : ∀ status exception, m.reported action = some status →
      status.exception = some exception → outcome = .thrown exception) :
    m.Right next action outcome where
  starts other registration uninitialized same := by
    rw [same] at operand
    cases operand
  empty other found also there value := by
    obtain rfl : this = other := Option.some.inj (operand.symm.trans also)
    obtain rfl : handle = found := Option.some.inj (here.symm.trans there)
    exact empty value
  pid := pid
  status := status

/-- What is registered is not reported to an operation. -/
theorem right_of_start {dynamic : Bool} {registration : Registration} {uninitialized : Option Nat}
    (pid : ∀ pid, outcome ≠ .pid pid)
    (starts : dynamic = true → outcome = .done → ∃ handle, next.handles this = some handle ∧
      (handle.hasValue = true ↔ registration = .accepted)) :
    m.Right next (.start this dynamic registration uninitialized) outcome where
  starts other also value same done := by
    cases same
    exact starts rfl done
  empty other handle operand := by cases operand
  pid one same := absurd same (pid one)
  status one exception reported := by cases reported

/-- An action on no handle. -/
theorem right_of_silent (operand : operand action = none) (reported : m.reported action = none)
    (starts : ∀ this dynamic registration uninitialized,
      action ≠ .start this dynamic registration uninitialized)
    (done : outcome = .done) : m.Right next action outcome where
  starts this registration uninitialized same := absurd same (starts _ _ _ _)
  empty this handle also := by
    rw [operand] at also
    cases also
  pid pid returned := by
    rw [done] at returned
    cases returned
  status status exception also := by
    rw [reported] at also
    cases also

theorem bind_report (here : m.handles this = some handle) :
    (m.handles this).bind m.report = m.report handle := by
  rw [here]
  rfl

theorem eq_of_empty (empty : handle.hasValue = false) : handle = ⟨none⟩ := by
  obtain ⟨pointer⟩ := handle
  cases pointer with
  | none => rfl
  | some worker => cases empty

theorem report_empty (fails : Bool) :
    (if fails then none else m.report (⟨none⟩ : BgwHandle)) = none := by
  cases fails <;> rfl

theorem of_pid {result : Except BgwException Int} {pid : Int}
    (returned : BgwOutcome.of .pid result = .pid pid) : result = .ok pid := by
  cases result <;> cases returned
  rfl

theorem of_ne_pid {α : Type} {value : α → BgwOutcome} {result : Except BgwException α} {pid : Int}
    (other : ∀ given, value given ≠ .pid pid) : BgwOutcome.of value result ≠ .pid pid := by
  cases result with
  | error exception => exact BgwOutcome.noConfusion
  | ok given => exact other given

/-- An operation on a handle. Nothing is called for one without value, of which nothing is reported;
the others are those of workers. -/
theorem operate_right {α : Type} {value : α → BgwOutcome}
    {operation : List BgwCall × Except BgwException α} (known : m.Known)
    (operand : operand action = some this) (here : m.handles this = some handle)
    (same : m.operate handle value operation = (outcome, next))
    (empty : handle.hasValue = false →
      (∃ what, operation = ([], .error (.logicError what))) ∧ m.reported action = none)
    (pid : handle.hasValue = true → ∀ status, m.report handle = some status →
      ∀ pid, BgwOutcome.of value operation.2 = .pid pid →
        m.reported action = some (.started pid))
    (status : handle.hasValue = true → ∀ status exception, m.reported action = some status →
      status.exception = some exception →
        BgwOutcome.of value operation.2 = .thrown exception) :
    next.Known ∧ m.Right next action outcome := by
  refine ⟨known_operate known same, ?_⟩
  cases holds : handle.hasValue with
  | false =>
    obtain ⟨⟨what, nothing⟩, silent⟩ := empty holds
    simp only [operate, holds, nothing] at same
    cases same
    apply right_of_operand operand here
    · exact fun _ => ⟨⟨what, rfl⟩, rfl⟩
    · intro pid returned
      cases returned
    · intro status exception reported
      rw [silent] at reported
      cases reported
  | true =>
    obtain ⟨found, reports⟩ := known this handle here holds
    rw [operate_reported reports] at same
    cases same
    apply right_of_operand operand here
    · intro none
      rw [holds] at none
      cases none
    · exact pid holds found reports
    · exact status holds

variable [DecidableEq ω]

theorem Known.set (known : m.Known) (this : ω) (handle : BgwHandle)
    (points : handle.hasValue = true → ∃ status, m.report handle = some status) :
    (m.set this handle).Known := by
  intro other found here value
  by_cases same : other = this
  · simp only [BgwRun.set, same, Function.update_self, Option.some.injEq] at here
    subst here
    exact points value
  · simp only [BgwRun.set, Function.update_of_ne same] at here
    exact known other found here value

theorem getPid_right (process : PostmasterState) {uninitialized : Int} {fails : Bool}
    (known : m.Known)
    (executed : m.exec process (.getPid this uninitialized fails) = some (outcome, next)) :
    next.Known ∧ m.Right next (.getPid this uninitialized fails) outcome := by
  obtain ⟨handle, here, same⟩ := Option.map_eq_some_iff.mp executed
  have reports : m.reported (.getPid this uninitialized fails) =
      if fails then none else m.report handle := by
    rw [reported, bind_report here]
  refine operate_right known rfl here same ?_ ?_ ?_
  · intro empty
    obtain rfl := eq_of_empty empty
    exact ⟨⟨_, rfl⟩, reports.trans (report_empty fails)⟩
  · intro _ _ _ pid returned
    rw [reports]
    exact BgwHandle.getPid_pid (of_pid returned)
  · intro holds status exception reported thrown
    rw [reports] at reported
    rw [BgwHandle.getPid_exception holds reported thrown]
    rfl

theorem workerType_right (process : PostmasterState) {uninitialized : Int} {fails : Bool}
    {type : Option String} (known : m.Known)
    (executed : m.exec process (.workerType this uninitialized fails type) = some (outcome, next)) :
    next.Known ∧ m.Right next (.workerType this uninitialized fails type) outcome := by
  obtain ⟨handle, here, same⟩ := Option.map_eq_some_iff.mp executed
  have reports : m.reported (.workerType this uninitialized fails type) =
      if fails then none else m.report handle := by
    rw [reported, bind_report here]
  refine operate_right known rfl here same ?_ ?_ ?_
  · intro empty
    obtain rfl := eq_of_empty empty
    exact ⟨⟨_, rfl⟩, reports.trans (report_empty fails)⟩
  · intro _ _ _ pid returned
    exact absurd returned (of_ne_pid (by simp))
  · intro holds status exception reported thrown
    rw [reports] at reported
    rw [BgwHandle.workerType_exception (BgwHandle.getPid_exception holds reported thrown)]
    rfl

theorem terminate_right (process : PostmasterState) {fails : Bool} (known : m.Known)
    (executed : m.exec process (.terminate this fails) = some (outcome, next)) :
    next.Known ∧ m.Right next (.terminate this fails) outcome := by
  obtain ⟨handle, here, same⟩ := Option.map_eq_some_iff.mp executed
  refine operate_right known rfl here same ?_ ?_ ?_
  · intro empty
    obtain rfl := eq_of_empty empty
    exact ⟨⟨_, rfl⟩, rfl⟩
  · intro _ _ _ pid returned
    exact absurd returned (of_ne_pid (by simp))
  · intro holds status exception reported
    cases reported

theorem waitForShutdown_right (process : PostmasterState) {fails : Bool} (known : m.Known)
    (executed : m.exec process (.waitForShutdown this fails) = some (outcome, next)) :
    next.Known ∧ m.Right next (.waitForShutdown this fails) outcome := by
  obtain ⟨handle, here, executed⟩ := Option.bind_eq_some_iff.mp executed
  dsimp only at executed
  split at executed
  case isTrue => cases executed
  case isFalse =>
    refine operate_right known rfl here (Option.some.inj executed) ?_ ?_ ?_
    · intro empty
      obtain rfl := eq_of_empty empty
      exact ⟨⟨_, rfl⟩, rfl⟩
    · intro _ _ _ pid returned
      exact absurd returned (of_ne_pid (by simp))
    · intro holds status exception reported
      cases reported

/-- A worker that did not start has no pid, but one is returned. -/
theorem waitForStartup_right_iff (process : PostmasterState) {uninitialized : Int} {fails : Bool}
    (known : m.Known)
    (executed : m.exec process (.waitForStartup this uninitialized fails) = some (outcome, next)) :
    next.Known ∧ (m.Right next (.waitForStartup this uninitialized fails) outcome ↔
      m.Starts (.waitForStartup this uninitialized fails)) := by
  obtain ⟨handle, here, executed⟩ := Option.bind_eq_some_iff.mp executed
  dsimp only at executed
  split at executed
  case isTrue => cases executed
  case isFalse =>
    have same := Option.some.inj executed
    have reports : m.reported (.waitForStartup this uninitialized fails) =
        if fails then none else m.report handle := by
      rw [reported, bind_report here]
    refine ⟨known_operate known same, ?_, ?_⟩
    · -- a status is reported only for a worker, and then some pid is returned
      intro right status reported
      rw [reports] at reported
      cases fails with
      | true => cases reported
      | false =>
        obtain ⟨worker, points, found⟩ := Option.bind_eq_some_iff.mp reported
        obtain ⟨pointer⟩ := handle
        subst points
        have found : m.report ⟨some worker⟩ = some status := reported
        rw [operate_reported found, found] at same
        cases same
        have started := right.pid _ rfl
        rw [reports] at started
        rw [Option.some.inj (reported.symm.trans started)]
        rfl
    · intro starts
      refine (operate_right known rfl here same ?_ ?_ ?_).2
      · intro empty
        obtain rfl := eq_of_empty empty
        exact ⟨⟨_, rfl⟩, reports.trans (report_empty fails)⟩
      · intro holds status found pid returned
        obtain ⟨pointer⟩ := handle
        obtain ⟨worker, rfl⟩ := Option.isSome_iff_exists.mp holds
        cases fails with
        | true => cases returned
        | false =>
          rw [reports, if_neg Bool.false_ne_true, found]
          have started : status.exception = none := starts status (reports.trans found)
          rw [found] at returned
          cases status <;> cases started
          cases returned
          rfl
      · intro holds status exception reported thrown
        rw [starts status reported] at thrown
        cases thrown

/-- A start at the start of the postmaster leaves a handle without value, or throws. -/
theorem startStatic_right (process : PostmasterState) {registration : Registration}
    {uninitialized : Option Nat} (known : m.Known)
    (executed : m.exec process (.start this false registration uninitialized) =
      some (outcome, next)) :
    next.Known ∧ m.Right next (.start this false registration uninitialized) outcome := by
  have right : ∀ outcome next, (∀ pid, outcome ≠ .pid pid) →
      m.Right next (.start this false registration uninitialized) outcome :=
    fun outcome next pid => right_of_start pid Bool.noConfusion
  cases elsewhere : process.isUnderPostmaster || !process.isPostmasterEnvironment with
  | true =>
    simp only [exec, startWorker, Bool.not_false, if_true, elsewhere] at executed
    cases executed
    exact ⟨known.of_calls _ _, right _ _ (by simp)⟩
  | false =>
    simp only [exec, startWorker, Bool.not_false, if_true, elsewhere, Bool.false_eq_true,
      if_false] at executed
    cases registration with
    | raised =>
      cases executed
      exact ⟨known.of_calls _ _, right _ _ (by simp)⟩
    | accepted =>
      cases executed
      exact ⟨(known.of_calls _ _).set this _ Bool.noConfusion, right _ _ (by simp)⟩
    | refused =>
      cases executed
      exact ⟨(known.of_calls _ _).set this _ Bool.noConfusion, right _ _ (by simp)⟩

/-- A worker that is registered is there. -/
theorem startAccepted_right (process : PostmasterState) {uninitialized : Option Nat}
    (known : m.Known)
    (executed : m.exec process (.start this true .accepted uninitialized) = some (outcome, next)) :
    next.Known ∧ m.Right next (.start this true .accepted uninitialized) outcome := by
  have there : ({ m with
      calls := .registerDynamicBackgroundWorker :: m.calls
      workers := Function.update m.workers m.fresh (some .notYetStarted)
      fresh := m.fresh + 1 } : BgwRun ω).Known :=
    known.of_workers rfl fun worker status found => update_workers_there worker status found
  have after := there.set this ⟨some m.fresh⟩ fun _ => ⟨.notYetStarted, by simp [report]⟩
  cases executed
  refine ⟨after, right_of_start (by simp) ?_⟩
  intro _ _
  exact ⟨⟨some m.fresh⟩, by simp [set], by simp [BgwHandle.hasValue]⟩

/-- A handle to no worker has a value where the registration is refused. -/
theorem startRefused_right_iff (process : PostmasterState) {uninitialized : Option Nat}
    (known : m.Known)
    (executed : m.exec process (.start this true .refused uninitialized) = some (outcome, next)) :
    (uninitialized = none → next.Known) ∧
      (m.Right next (.start this true .refused uninitialized) outcome ↔ uninitialized = none) := by
  cases executed
  constructor
  · rintro rfl
    exact (known.of_calls _ _).set this _ Bool.noConfusion
  · constructor
    · intro right
      obtain ⟨handle, here, value⟩ := right.starts this .refused uninitialized rfl rfl
      have same : (⟨uninitialized⟩ : BgwHandle) = handle := by simpa [set] using here
      subst same
      simpa [BgwHandle.hasValue] using value
    · rintro rfl
      apply right_of_start (by simp)
      intro _ _
      exact ⟨⟨none⟩, by simp [set], by simp [BgwHandle.hasValue]⟩

theorem start_right_iff (process : PostmasterState) {dynamic : Bool} {registration : Registration}
    {uninitialized : Option Nat} (known : m.Known)
    (executed : m.exec process (.start this dynamic registration uninitialized) =
      some (outcome, next)) :
    (m.Starts (.start this dynamic registration uninitialized) → next.Known) ∧
      (m.Right next (.start this dynamic registration uninitialized) outcome ↔
        m.Starts (.start this dynamic registration uninitialized)) := by
  cases dynamic with
  | false =>
    obtain ⟨after, right⟩ := startStatic_right process known executed
    exact ⟨fun _ => after, iff_of_true right Bool.noConfusion⟩
  | true =>
    cases registration with
    | raised =>
      cases executed
      refine ⟨fun _ => known.of_calls _ _, iff_of_true ?_ fun _ => Registration.noConfusion⟩
      exact right_of_start (by simp) (by simp)
    | accepted =>
      obtain ⟨after, right⟩ := startAccepted_right process known executed
      exact ⟨fun _ => after, iff_of_true right fun _ => Registration.noConfusion⟩
    | refused =>
      obtain ⟨after, right⟩ := startRefused_right_iff process known executed
      have starts : m.Starts (.start this true .refused uninitialized) ↔ uninitialized = none :=
        ⟨fun starts => starts rfl rfl, fun none _ _ => none⟩
      rw [starts]
      exact ⟨after, right⟩

theorem right_iff (process : PostmasterState) (known : m.Known)
    (executed : m.exec process action = some (outcome, next)) :
    (m.Starts action → next.Known) ∧ (m.Right next action outcome ↔ m.Starts action) := by
  cases action with
  | construct this =>
    cases executed
    refine ⟨fun _ => known.set this _ Bool.noConfusion, iff_of_true ?_ trivial⟩
    exact right_of_silent rfl rfl (by simp) rfl
  | copy this other =>
    obtain ⟨handle, here, same⟩ := Option.map_eq_some_iff.mp executed
    cases same
    refine ⟨fun _ => known.set this handle fun value => known other handle here value, iff_of_true ?_ trivial⟩
    exact right_of_silent rfl rfl (by simp) rfl
  | start this dynamic registration uninitialized => exact start_right_iff process known executed
  | change worker status =>
    simp only [exec] at executed
    split at executed
    case isFalse => cases executed
    case isTrue =>
      cases executed
      refine ⟨fun _ => known.of_workers rfl fun other before found =>
        update_workers_there other before found, iff_of_true ?_ trivial⟩
      exact right_of_silent rfl rfl (by simp) rfl
  | waitForStartup this uninitialized fails =>
    obtain ⟨after, right⟩ := waitForStartup_right_iff process known executed
    exact ⟨fun _ => after, right⟩
  | waitForShutdown this fails =>
    obtain ⟨after, right⟩ := waitForShutdown_right process known executed
    exact ⟨fun _ => after, iff_of_true right trivial⟩
  | terminate this fails =>
    obtain ⟨after, right⟩ := terminate_right process known executed
    exact ⟨fun _ => after, iff_of_true right trivial⟩
  | getPid this uninitialized fails =>
    obtain ⟨after, right⟩ := getPid_right process known executed
    exact ⟨fun _ => after, iff_of_true right trivial⟩
  | workerType this uninitialized fails type =>
    obtain ⟨after, right⟩ := workerType_right process known executed
    exact ⟨fun _ => after, iff_of_true right trivial⟩

end Actions

/-- In a run of starts, changes of the workers and operations on handles, handles report real processes
if and only if no dynamic registration is refused, unless the uninitialised pointer is null, and each
worker whose startup was waited for was started. -/
theorem real_processes_iff [DecidableEq ω] (process : PostmasterState)
    (actions : List (BgwAction ω)) :
    Meets (step process) (DoneRight process) start actions ↔
      Meets (step process) Starts start actions :=
  meets_done_iff (fun _ _ _ _ known executed => right_iff process known executed) start_known

/-- A refused registration leaves a handle that has a value. -/
theorem refused_has_value :
    ¬ Meets (step ⟨true, true⟩) (DoneRight ⟨true, true⟩) (start : BgwRun Nat)
      [.start 0 true .refused (some 24)] := by
  intro meets
  obtain ⟨done, _⟩ := meets _ rfl
  have right := done _ _ rfl
  obtain ⟨handle, here, value⟩ := right.starts 0 .refused (some 24) rfl rfl
  obtain rfl : (⟨some 24⟩ : BgwHandle) = handle := Option.some.inj here
  have accepted : Registration.refused = .accepted := value.mp rfl
  cases accepted

end BgwRun
end Cppgres
