import Mathlib.Order.Basic
import Mathlib.Order.Lattice
import Mathlib.Algebra.Order.Ring.Int
import Cppgres.Postgres.Backend

/-!
# Messages of every level

`errstart`, `errmsg` and `errfinish` of `elog.c`, as far as `ereport` and the calls in
`error.hpp` use them. `Elog` in `Backend` knows errors only; here an entry of the error
stack has its level and its destinations, and messages that no one asked for are declined.
The stack is as deep as it has to be, and no interrupt is pending when `errfinish` looks.
-/
namespace Cppgres
open NonLocal

namespace Elevel

def log : Int := 15
/-- `LOG_SERVER_ONLY`, also known as `COMMERROR`. -/
def logServerOnly : Int := 16
def info : Int := 17
def notice : Int := 18
def warning : Int := 19
def warningClientOnly : Int := 20
def error : Int := 21
def fatal : Int := 22

end Elevel

/-- An entry of `errordata[]`: its level, where it is to go, and the record. -/
structure ErrorEntry where
  elevel : Int
  outputToServer : Bool
  outputToClient : Bool
  data : ErrorData
  deriving DecidableEq, Repr

/-- `log_min_messages`, `client_min_messages`, and what is known about the client. -/
structure MessageSettings where
  logMinMessages : Int
  clientMinMessages : Int
  /-- `whereToSendOutput` is `DestRemote` -/
  remote : Bool
  clientAuthInProgress : Bool
  deriving DecidableEq, Repr

/-- The globals of `elog.c` that a message meets. `emitted` has the newest message first. -/
structure ErrorState where
  settings : MessageSettings
  exceptionStack : Option SigjmpBuf
  errorContextStack : List ErrorContextCallback
  errordata : List ErrorEntry
  emitted : List ErrorEntry
  deriving DecidableEq, Repr

abbrev Reporting (α : Type) := Code CppException SigjmpBuf ErrorState α

/-- `is_log_level_output` -/
def isLogLevelOutput (elevel logMinLevel : Int) : Bool :=
  if elevel = Elevel.log ∨ elevel = Elevel.logServerOnly then
    logMinLevel = Elevel.log ∨ logMinLevel ≤ Elevel.error
  else if elevel = Elevel.warningClientOnly then false
  else if logMinLevel = Elevel.log then Elevel.fatal ≤ elevel
  else logMinLevel ≤ elevel

namespace MessageSettings

def shouldOutputToServer (settings : MessageSettings) (elevel : Int) : Bool :=
  isLogLevelOutput elevel settings.logMinMessages

def shouldOutputToClient (settings : MessageSettings) (elevel : Int) : Bool :=
  if settings.remote ∧ elevel ≠ Elevel.logServerOnly then
    if settings.clientAuthInProgress then Elevel.error ≤ elevel
    else settings.clientMinMessages ≤ elevel ∨ elevel = Elevel.info
  else false

/-- The message goes somewhere. -/
def outputs (settings : MessageSettings) (elevel : Int) : Bool :=
  settings.shouldOutputToServer elevel || settings.shouldOutputToClient elevel

end MessageSettings

def errcodeWarning : Nat := 64

/-- What `errstart` fills in as the SQLSTATE. -/
def defaultSqlerrcode (elevel : Int) : Nat :=
  if Elevel.error ≤ elevel then errcodeInternalError
  else if Elevel.warning ≤ elevel then errcodeWarning
  else 0

namespace ErrorState

/-- The level an error gets: one that no handler takes ends the process, and so does one that
is raised over an entry of a higher level. -/
def promoted (state : ErrorState) (elevel : Int) : Int :=
  if elevel < Elevel.error then elevel
  else
    let level := if elevel = Elevel.error ∧ state.exceptionStack = none then Elevel.fatal else elevel
    state.errordata.foldl (fun highest entry => max highest entry.elevel) level

/-- The entry `errstart` pushes. -/
def started (state : ErrorState) (elevel : Int) : ErrorEntry where
  elevel := elevel
  outputToServer := state.settings.shouldOutputToServer elevel
  outputToClient := state.settings.shouldOutputToClient elevel
  data := { elogData "" 0 "" "" with sqlerrcode := defaultSqlerrcode elevel }

end ErrorState

/-- Where a message was reported, and what the callbacks add. -/
def ErrorEntry.located (entry : ErrorEntry) (filename : String) (lineno : Nat) (funcname : String)
    (callbacks : List ErrorContextCallback) : ErrorEntry :=
  { entry with data := { entry.data with
      filename := filename
      lineno := lineno
      funcname := funcname
      context := entry.data.context ++ callbacks } }

def ErrorEntry.withMessage (entry : ErrorEntry) (message : String) : ErrorEntry :=
  { entry with data := { entry.data with message := message } }

/-- `errstart`. A message below ERROR that goes nowhere is declined, and nothing is pushed. -/
def errstart (elevel : Int) : Reporting Bool := do
  let state ← Code.get
  let elevel := state.promoted elevel
  if elevel < Elevel.error ∧ state.settings.outputs elevel = false then
    pure false
  else
    Code.modify fun state => { state with errordata := state.started elevel :: state.errordata }
    pure true

/-- `PG_RE_THROW` -/
def ErrorState.reThrow : Reporting Unit := do
  let state ← Code.get
  match state.exceptionStack with
  | some buffer => Code.siglongjmp buffer
  | none => Code.abort

/-- The end of `errfinish`, with `entry` on top of `older`. An error is left on the stack for
the handler. All else is emitted and popped, and what is above ERROR ends the process. -/
def finishEntry (entry : ErrorEntry) (older : List ErrorEntry) : Reporting Unit := do
  if entry.elevel = Elevel.error then
    Code.modify fun state => { state with errordata := entry :: older }
    ErrorState.reThrow
  else
    Code.modify fun state => { state with errordata := older, emitted := entry :: state.emitted }
    if Elevel.error < entry.elevel then Code.abort else pure ()

/-- `CHECK_STACK_DEPTH` on an empty stack: `ereport(ERROR, "errstart was not called")`. The line
and the function of the check are left out. -/
def errstartNotCalled : Reporting Unit := do
  let state ← Code.get
  let entry := (state.started (state.promoted Elevel.error)).withMessage "errstart was not called"
  finishEntry (entry.located "elog.c" 0 "" state.errorContextStack) state.errordata

/-- `errmsg`, with its format applied: the message of the top entry is set. -/
def errmsg (message : String) : Reporting Unit := do
  let state ← Code.get
  match state.errordata with
  | [] => errstartNotCalled
  | top :: older =>
    Code.modify fun state => { state with errordata := top.withMessage message :: older }

/-- `errfinish`: the callbacks add their lines to the top entry, and it goes where it belongs. -/
def errfinish (filename : String) (lineno : Nat) (funcname : String) : Reporting Unit := do
  let state ← Code.get
  match state.errordata with
  | [] => errstartNotCalled
  | top :: older =>
    finishEntry (top.located filename lineno funcname state.errorContextStack) older

section
variable {state : ErrorState} {elevel : Int} {s : Machine ErrorState}

theorem ErrorState.promoted_of_lt (below : elevel < Elevel.error) :
    state.promoted elevel = elevel := by
  unfold ErrorState.promoted
  rw [if_pos below]

theorem le_foldl_max (entries : List ErrorEntry) (level : Int) :
    level ≤ entries.foldl (fun highest entry => max highest entry.elevel) level := by
  induction entries generalizing level with
  | nil => exact le_refl level
  | cons entry rest ih => exact le_trans (le_max_left _ _) (ih _)

/-- An error does not become a lesser message. -/
theorem ErrorState.le_promoted (error : Elevel.error ≤ elevel) :
    Elevel.error ≤ state.promoted elevel := by
  unfold ErrorState.promoted
  rw [if_neg (not_lt.mpr error)]
  refine le_trans ?_ (le_foldl_max _ _)
  split
  · decide
  · exact error

/-- What is still an ERROR when it is promoted has a handler to go to. -/
theorem ErrorState.handler_of_promoted (error : Elevel.error ≤ elevel)
    (promoted : state.promoted elevel = Elevel.error) :
    ∃ buffer, state.exceptionStack = some buffer := by
  unfold ErrorState.promoted at promoted
  rw [if_neg (not_lt.mpr error)] at promoted
  have level := promoted ▸ le_foldl_max state.errordata
    (if elevel = Elevel.error ∧ state.exceptionStack = none then Elevel.fatal else elevel)
  cases handler : state.exceptionStack with
  | some buffer => exact ⟨buffer, rfl⟩
  | none =>
    have exact_ : elevel = Elevel.error := by
      by_contra other
      rw [if_neg fun both => other both.1] at level
      exact other (le_antisymm level error)
    rw [if_pos ⟨exact_, handler⟩] at level
    exact absurd level (by decide)

end

/-! ## How a message ends -/

section
variable {entry : ErrorEntry} {older : List ErrorEntry} {s : Machine ErrorState}

/-- The machine with another error stack. -/
def withErrordata (s : Machine ErrorState) (errordata : List ErrorEntry) : Machine ErrorState :=
  { s with store := { s.store with errordata := errordata } }

/-- Where an error goes. -/
def ErrorState.landing (state : ErrorState) : Exit CppException SigjmpBuf Unit :=
  match state.exceptionStack with
  | some buffer => .jumped buffer
  | none => .aborted

theorem reThrow_apply : ErrorState.reThrow s = (s.store.landing, s) := by
  unfold ErrorState.reThrow ErrorState.landing
  rw [Code.get_bind]
  cases s.store.exceptionStack <;> rfl

theorem finishEntry_below (below : entry.elevel < Elevel.error) :
    finishEntry entry older s =
      (.returned (), { s with store := { s.store with
        errordata := older, emitted := entry :: s.store.emitted } }) := by
  unfold finishEntry
  rw [if_neg below.ne, Code.modify_bind, if_neg below.asymm]
  rfl

theorem finishEntry_error (error : entry.elevel = Elevel.error) :
    finishEntry entry older s = (s.store.landing, withErrordata s (entry :: older)) := by
  unfold finishEntry
  rw [if_pos error, Code.modify_bind, reThrow_apply]
  rfl

theorem finishEntry_above (above : Elevel.error < entry.elevel) :
    finishEntry entry older s =
      (.aborted, { s with store := { s.store with
        errordata := older, emitted := entry :: s.store.emitted } }) := by
  unfold finishEntry
  rw [if_neg above.ne', Code.modify_bind, if_pos above]
  rfl

theorem finishEntry_leaves (error : Elevel.error ≤ entry.elevel) :
    (finishEntry entry older s).1 ≠ .returned () := by
  rcases eq_or_lt_of_le error with level | above
  · rw [finishEntry_error level.symm]
    unfold ErrorState.landing
    cases s.store.exceptionStack <;> nofun
  · rw [finishEntry_above above]
    nofun

end
end Cppgres
