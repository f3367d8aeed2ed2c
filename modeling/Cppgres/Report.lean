import Cppgres.Guard
import Cppgres.Postgres.ErrorStack

/-!
# Messages that C++ code reports

`report` and `error` of `error.hpp` call `errstart`, `errmsg` and `errfinish` one after the
other, whatever `errstart` answers. What `errmsg` makes of a format and its arguments is
Postgres's own matter, here `formatted`.
-/
namespace Cppgres
open NonLocal

/-- What `error_formattable` admits. -/
inductive ErrorFormattable where
  | integral (value : Int)
  | chars (text : String)
  | pointer (address : Nat)
  deriving DecidableEq, Repr

namespace Reporting

section
variable (formatted : String → List ErrorFormattable → String)

/-- `report`. `__builtin_unreachable()` stands as the end of the process. -/
def report (elevel : Int) (fmt : String) (args : List ErrorFormattable) : Reporting Unit := do
  let _ ← errstart elevel
  errmsg (formatted fmt args)
  errfinish "error.hpp" 48 "report"
  if Elevel.error ≤ elevel then Code.abort else pure ()

/-- `error(pg_exception)`, with `e.message()`. -/
def error (message : String) : Reporting Unit := do
  let _ ← errstart Elevel.error
  errmsg (formatted "%s" [.chars message])
  errfinish "error.hpp" 26 "error"
  Code.abort

end

/-- How a run ends, and in what state. -/
abbrev Run := Exit CppException SigjmpBuf Unit × Machine ErrorState

section
variable (elevel : Int) (message : String) (s : Machine ErrorState) (run : Run)

/-- Control is back, the error stack is as it was, and at most the one message was emitted. -/
structure Noted : Prop where
  returned : run.1 = .returned ()
  errordata : run.2.store.errordata = s.store.errordata
  emitted : run.2.store.emitted = s.store.emitted ∨
    ∃ entry, entry.elevel = elevel ∧ entry.data.message = message ∧
      run.2.store.emitted = entry :: s.store.emitted

/-- `entry` is the one new entry and the innermost handler is about to receive it. -/
structure Handled (entry : ErrorEntry) : Prop where
  handler : ∃ buffer, s.store.exceptionStack = some buffer ∧ run.1 = .jumped buffer
  errordata : run.2.store.errordata = entry :: s.store.errordata
  emitted : run.2.store.emitted = s.store.emitted

/-- `entry` is emitted as the last message of the process. -/
structure Ended (entry : ErrorEntry) : Prop where
  aborted : run.1 = .aborted
  errordata : run.2.store.errordata = s.store.errordata
  emitted : run.2.store.emitted = entry :: s.store.emitted

/-- One new error with the message. An ERROR is for the innermost handler. Postgres gives what is
above that level to no handler: it ends the process. -/
def Raised : Prop :=
  ∃ entry : ErrorEntry, entry.elevel = s.store.promoted elevel ∧ entry.data.message = message ∧
    (entry.elevel = Elevel.error → Handled s run entry) ∧
    (entry.elevel ≠ Elevel.error → Ended s run entry)

/-- What a report is to do: below ERROR it is noted, otherwise it is raised. -/
structure Kept : Prop where
  below : elevel < Elevel.error → Noted elevel message s run
  above : Elevel.error ≤ elevel → Raised elevel message s run

end

/-! ## The three calls -/

section
variable {formatted : String → List ErrorFormattable → String} {elevel : Int} {fmt : String}
  {args : List ErrorFormattable} {s : Machine ErrorState} {filename funcname message : String}
  {lineno : Nat}

/-- `errmsg` and `errfinish`, as they stand in `report` and in `error`. -/
def filled (message filename : String) (lineno : Nat) (funcname : String) : Reporting Unit := do
  errmsg message
  errfinish filename lineno funcname

/-- Over an entry, the two calls fill in that entry and finish it. -/
theorem filled_cons {top : ErrorEntry} {older : List ErrorEntry}
    (stack : s.store.errordata = top :: older) :
    filled message filename lineno funcname s =
      finishEntry
        ((top.withMessage message).located filename lineno funcname s.store.errorContextStack) older
        (withErrordata s (top.withMessage message :: older)) := by
  unfold filled
  have messaged : errmsg message s =
      (.returned (), withErrordata s (top.withMessage message :: older)) := by
    unfold errmsg
    rw [Code.get_bind, stack]
    rfl
  rw [Code.bind_returned messaged]
  rfl

theorem report_eq :
    report formatted elevel fmt args = (do
      let _ ← errstart elevel
      filled (formatted fmt args) "error.hpp" 48 "report"
      if Elevel.error ≤ elevel then Code.abort else pure ()) := by
  unfold report filled
  simp only [bind_assoc]

/-- A message that is not declined is the new top of the stack. -/
theorem errstart_pushed
    (wanted : elevel < Elevel.error → s.store.settings.outputs elevel = true) :
    ∃ told, errstart elevel s =
      (.returned told, withErrordata s
        (s.store.started (s.store.promoted elevel) :: s.store.errordata)) := by
  unfold errstart
  rw [Code.get_bind, if_neg]
  · exact ⟨true, rfl⟩
  · rintro ⟨below, declined⟩
    rcases lt_or_ge elevel Elevel.error with lesser | error
    · rw [ErrorState.promoted_of_lt lesser, wanted lesser] at declined
      cases declined
    · exact absurd below (not_lt.mpr (ErrorState.le_promoted error))

theorem errstart_declined (below : elevel < Elevel.error)
    (unwanted : s.store.settings.outputs elevel = false) :
    errstart elevel s = (.returned false, s) := by
  unfold errstart
  rw [Code.get_bind, if_pos]
  · rfl
  · rw [ErrorState.promoted_of_lt below]
    exact ⟨below, unwanted⟩

/-- The entry that a report is about. -/
def entryOf (elevel : Int) (message filename : String) (lineno : Nat) (funcname : String)
    (state : ErrorState) : ErrorEntry :=
  ((state.started (state.promoted elevel)).withMessage message).located filename lineno funcname
    state.errorContextStack

/-- The two calls after an `errstart` that pushed an entry. -/
theorem filled_pushed :
    filled message filename lineno funcname (withErrordata s
        (s.store.started (s.store.promoted elevel) :: s.store.errordata)) =
      finishEntry (entryOf elevel message filename lineno funcname s.store) s.store.errordata
        (withErrordata s ((s.store.started (s.store.promoted elevel)).withMessage message ::
          s.store.errordata)) :=
  filled_cons rfl

/-- Nothing follows a raised error. -/
theorem raised_bind {m : Reporting Unit} {next : Unit → Reporting Unit} {t : Machine ErrorState}
    (raised : Raised elevel message s (m t)) : (m >>= next) t = m t := by
  obtain ⟨entry, -, -, handled, ended⟩ := raised
  rcases run : m t with ⟨exit, u⟩
  rw [run] at handled ended
  by_cases error : entry.elevel = Elevel.error
  · obtain ⟨buffer, -, jumped⟩ := (handled error).handler
    cases jumped
    exact Code.bind_jumped run
  · have aborted := (ended error).aborted
    cases aborted
    exact Code.bind_aborted run

theorem raised_filled (error : Elevel.error ≤ elevel) :
    Raised elevel message s (filled message filename lineno funcname (withErrordata s
      (s.store.started (s.store.promoted elevel) :: s.store.errordata))) := by
  rw [filled_pushed]
  refine ⟨entryOf elevel message filename lineno funcname s.store, rfl, rfl, ?_, ?_⟩
  · intro level
    rw [finishEntry_error level]
    have promoted : s.store.promoted elevel = Elevel.error := level
    obtain ⟨buffer, handler⟩ := ErrorState.handler_of_promoted error promoted
    exact ⟨⟨buffer, handler, by simp only [ErrorState.landing, withErrordata, handler]⟩, rfl, rfl⟩
  · intro level
    have above : Elevel.error < s.store.promoted elevel :=
      lt_of_le_of_ne (ErrorState.le_promoted error) (Ne.symm level)
    rw [finishEntry_above above]
    exact ⟨rfl, rfl, rfl⟩

theorem report_eq_filled (error : Elevel.error ≤ elevel) :
    report formatted elevel fmt args s =
      filled (formatted fmt args) "error.hpp" 48 "report" (withErrordata s
        (s.store.started (s.store.promoted elevel) :: s.store.errordata)) := by
  obtain ⟨told, pushed⟩ := errstart_pushed (s := s) fun below => absurd below (not_lt.mpr error)
  rw [report_eq, Code.bind_returned pushed]
  exact raised_bind (raised_filled error)

/-- An error is raised, whatever is on the stack. -/
theorem report_raised (error : Elevel.error ≤ elevel) :
    Raised elevel (formatted fmt args) s (report formatted elevel fmt args s) := by
  rw [report_eq_filled error]
  exact raised_filled error

theorem error_raised :
    Raised Elevel.error (formatted "%s" [.chars message]) s (Reporting.error formatted message s) := by
  have filledEq : Reporting.error formatted message = (do
      let _ ← errstart Elevel.error
      filled (formatted "%s" [.chars message]) "error.hpp" 26 "error"
      Code.abort) := by
    unfold Reporting.error filled
    simp only [bind_assoc]
  obtain ⟨told, pushed⟩ := errstart_pushed (s := s) fun below => absurd below (lt_irrefl Elevel.error)
  rw [filledEq, Code.bind_returned pushed, raised_bind (raised_filled le_rfl)]
  exact raised_filled le_rfl

/-- A message that goes somewhere is emitted once. -/
theorem report_noted (below : elevel < Elevel.error)
    (wanted : s.store.settings.outputs elevel = true) :
    Noted elevel (formatted fmt args) s (report formatted elevel fmt args s) := by
  have level : (entryOf elevel (formatted fmt args) "error.hpp" 48 "report" s.store).elevel =
      elevel := ErrorState.promoted_of_lt below
  have emitted := @finishEntry_below _ s.store.errordata
    (withErrordata s ((s.store.started (s.store.promoted elevel)).withMessage
      (formatted fmt args) :: s.store.errordata)) (level.symm ▸ below)
  rw [← filled_pushed] at emitted
  obtain ⟨told, pushed⟩ := errstart_pushed (s := s) fun _ => wanted
  rw [report_eq, Code.bind_returned pushed, Code.bind_returned emitted, if_neg (not_le.mpr below)]
  exact ⟨rfl, rfl, .inr ⟨_, level, rfl, rfl⟩⟩

/-- A declined message is written over the entry on top of the stack, and that entry is
finished in its place. Over no entry, an error says so. -/
theorem report_declined (below : elevel < Elevel.error)
    (unwanted : s.store.settings.outputs elevel = false) :
    report formatted elevel fmt args s =
      filled (formatted fmt args) "error.hpp" 48 "report" s := by
  rw [report_eq, Code.bind_returned (errstart_declined below unwanted), if_neg (not_le.mpr below)]
  exact congrFun (bind_pure _) s

theorem filled_nil_leaves (stack : s.store.errordata = []) :
    (filled message filename lineno funcname s).1 ≠ .returned () := by
  have leaves : (errmsg message s).1 ≠ .returned () := by
    unfold errmsg
    rw [Code.get_bind, stack]
    exact finishEntry_leaves (ErrorState.le_promoted le_rfl)
  unfold filled
  rw [Code.bind_apply]
  rcases run : errmsg message s with ⟨_ | _ | _ | _, t⟩
  · exact absurd (congrArg Prod.fst run) leaves
  all_goals nofun

theorem not_noted_declined (below : elevel < Elevel.error)
    (unwanted : s.store.settings.outputs elevel = false) :
    ¬ Noted elevel (formatted fmt args) s (report formatted elevel fmt args s) := by
  rw [report_declined below unwanted]
  intro noted
  cases stack : s.store.errordata with
  | nil => exact filled_nil_leaves stack noted.returned
  | cons top older =>
    have returned := noted.returned
    have kept := noted.errordata
    rw [filled_cons stack] at returned kept
    generalize (top.withMessage (formatted fmt args)).located _ _ _ _ = entry at returned kept
    by_cases lesser : entry.elevel < Elevel.error
    · rw [finishEntry_below lesser, stack] at kept
      exact List.cons_ne_self _ _ kept.symm
    · exact finishEntry_leaves (not_lt.mp lesser) returned

/-- A report does what it is to do, unless it is a message that goes nowhere. -/
theorem report_kept_iff (formatted : String → List ErrorFormattable → String) (elevel : Int)
    (fmt : String) (args : List ErrorFormattable) (s : Machine ErrorState) :
    Kept elevel (formatted fmt args) s (report formatted elevel fmt args s) ↔
      (elevel < Elevel.error → s.store.settings.outputs elevel = true) := by
  constructor
  · intro kept below
    by_contra unwanted
    exact not_noted_declined below (Bool.eq_false_of_not_eq_true unwanted) (kept.below below)
  · intro wanted
    exact ⟨fun below => report_noted below (wanted below), report_raised⟩

/-! ## The errors that guards know -/

/-- The two models of the error stack agree. -/
structure Agrees (state : ErrorState) (elog : Elog) : Prop where
  exceptionStack : state.exceptionStack = elog.exceptionStack
  errorContextStack : state.errorContextStack = elog.errorContextStack
  errordata : state.errordata.map ErrorEntry.data = elog.errordata

/-- Where no entry is above ERROR and a handler is there, `report(ERROR, ...)` is the `report` that
`exception_guard` calls. -/
theorem report_error_simulates {s : Machine ErrorState} {b : Machine Backend}
    (agrees : Agrees s.store b.store.elog)
    (level : s.store.promoted Elevel.error = Elevel.error) :
    (report formatted Elevel.error fmt args s).1 = (Cppgres.report (formatted fmt args) b).1 ∧
      Agrees (report formatted Elevel.error fmt args s).2.store
        (Cppgres.report (α := Unit) (formatted fmt args) b).2.store.elog := by
  rw [report_eq_filled le_rfl, filled_pushed, finishEntry_error level, Cppgres.report, ereport_apply]
  refine ⟨?_, agrees.exceptionStack, agrees.errorContextStack, ?_⟩
  · cases landing : b.store.elog.exceptionStack <;>
      simp [ErrorState.landing, Elog.landing, withErrordata, agrees.exceptionStack, landing]
  · simp only [withErrordata, List.map_cons, Elog.errfinish, agrees.errordata]
    congr 1
    simp only [entryOf, ErrorEntry.located, ErrorEntry.withMessage, ErrorState.started, level,
      agrees.errorContextStack]
    rfl

/-! ## A debug message under the default settings -/

/-- `log_min_messages` is WARNING, `client_min_messages` is NOTICE. -/
def defaultSettings : MessageSettings := ⟨Elevel.warning, Elevel.notice, true, false⟩

def quiet (errordata : List ErrorEntry) : Machine ErrorState :=
  ⟨0, ⟨defaultSettings, some 0, [], errordata, []⟩⟩

def divisionByZero : ErrorEntry :=
  ⟨Elevel.error, true, true, elogData "int.c" 0 "int4div" "division by zero"⟩

/-- `report(DEBUG1, "probe")` raises an error over an empty stack, and raises the error that is
being handled once more, with another message. -/
theorem debug_report_raises :
    (report (fun fmt _ => fmt) 14 "probe" [] (quiet [])).1 = .jumped 0 ∧
      (report (fun fmt _ => fmt) 14 "probe" [] (quiet [])).2.store.errordata.map
        (·.data.message) = ["errstart was not called"] ∧
      (report (fun fmt _ => fmt) 14 "probe" [] (quiet [divisionByZero])).1 = .jumped 0 ∧
      (report (fun fmt _ => fmt) 14 "probe" [] (quiet [divisionByZero])).2.store.errordata.map
        (·.data.message) = ["probe"] ∧
      ∀ errordata ∈ [[], [divisionByZero]],
        ¬ Kept 14 "probe" (quiet errordata) (report (fun fmt _ => fmt) 14 "probe" []
          (quiet errordata)) := by
  refine ⟨by decide, by decide, by decide, by decide, ?_⟩
  intro errordata given kept
  have returned := (kept.below (by decide)).returned
  simp only [List.mem_cons, List.not_mem_nil, or_false] at given
  rcases given with rfl | rfl
  · exact absurd returned (by decide)
  · exact absurd returned (by decide)

end

end Reporting
end Cppgres
