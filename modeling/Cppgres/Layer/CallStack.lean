import Cppgres.Layer.Transport

/-!
# The stack of running functions over a tree of calls

`current_postgres_function::calls` is popped by the destructor of a call's handle. A
Postgres error that is raised in the C++ body of a call, and not under an `ffi_guard`,
jumps over that destructor: the call is overtaken, and its entry stays. Which handlers are
entered, and how they end, is taken from what does come of a layer.
-/
namespace Cppgres
open NonLocal

/-- The destructors of the frames around do not run. -/
def Outcome.overtakes : Outcome → Bool
  | .error _ => true
  | .undefined => true
  | _ => false

/-- The try-block's handler is entered. -/
def Handler.enters (handler : Handler) : Outcome → Bool
  | .exception raised => handler.clause.takes raised
  | _ => false

/-- The calls, latest first, whose own body is left by a Postgres error: raised there by
`report(ERROR, ...)`, `CHECK_FOR_INTERRUPTS` or a Postgres function outside any `ffi_guard`; or
whose body ends where a record is touched after it was gone. -/
def Layer.overtaken (callbacks : List ErrorContextCallback) : Layer → List FunctionCallInfo
  | .seq first second =>
    (if (first.ending callbacks).outcome.isFinished then second.overtaken callbacks else []) ++
      first.overtaken callbacks
  | .attempt body handler statements =>
    (if handler.enters (body.ending callbacks).outcome then statements.overtaken callbacks else []) ++
      body.overtaken callbacks
  | .guarded own body => body.overtaken (own ++ callbacks)
  | .callback body => body.overtaken callbacks
  | .call fc checks body =>
    (if (checks.ending callbacks).outcome.isFinished then
      (if (body.ending callbacks).outcome.overtakes then [fc] else []) ++ body.overtaken callbacks
    else []) ++ checks.overtaken callbacks
  | .done => []
  | .inquire => []
  | .switchTo _ => []
  | .ereport _ => []
  | .throwStd _ => []
  | .throwOther => []

/-- What `call_info()` and `atomic()` have to answer, latest answer first: `running` is the innermost call
around the layer. -/
def Layer.answers (callbacks : List ErrorContextCallback) (running : Option FunctionCallInfo) :
    Layer → List (Option FunctionCallInfo × Option Bool)
  | .inquire => [describe running]
  | .seq first second =>
    (if (first.ending callbacks).outcome.isFinished then second.answers callbacks running else []) ++
      first.answers callbacks running
  | .attempt body handler statements =>
    (if handler.enters (body.ending callbacks).outcome then statements.answers callbacks running
      else []) ++ body.answers callbacks running
  | .guarded own body => body.answers (own ++ callbacks) running
  | .callback body => body.answers callbacks running
  | .call fc checks body =>
    (if (checks.ending callbacks).outcome.isFinished then body.answers callbacks (some fc) else []) ++
      checks.answers callbacks running
  | .done => []
  | .switchTo _ => []
  | .ereport _ => []
  | .throwStd _ => []
  | .throwOther => []

/-- The part of the store that calls and questions about calls work on. -/
def history (s : Machine Backend) : List FunctionCallInfo × List (Option FunctionCallInfo × Option Bool) :=
  (s.store.calls, s.store.answers)

/-! ## The guards leave the history alone -/

theorem rethrow_history (errorCxt : MemoryContext) (s : Machine Backend) :
    history ((rethrow errorCxt : Cpp Unit) s).2 = history s := by
  unfold rethrow
  simp only [Code.get_bind]
  cases s.store.elog.records errorCxt with
  | none => rfl
  | some edata =>
    simp only
    rw [Code.bind_returned (modifyElog_apply _ _), Code.bind_returned (modifyElog_apply _ _),
      pgReThrow_apply]
    rfl

theorem report_history (message : String) (s : Machine Backend) :
    history ((report message : Cpp Unit) s).2 = history s := by
  unfold report
  rw [ereport_apply]
  rfl

theorem exceptionGuard_history (func : Cpp Unit) (s : Machine Backend) :
    history (exceptionGuard func s).2 = history (func s).2 := by
  rcases run : func s with ⟨exit, t⟩
  cases exit with
  | returned value => rw [exceptionGuard, catching_returned run]
  | aborted => rw [exceptionGuard, catching_aborted run]
  | jumped buffer =>
    unfold exceptionGuard Code.catching
    rw [run]
  | thrown exception =>
    rw [exceptionGuard_thrown run]
    cases exception with
    | pg mcxt errorCxt => exact rethrow_history errorCxt _
    | std what => exact report_history _ _
    | other => exact report_history _ _

theorem guarded_history (own : List ErrorContextCallback) {body : Cpp Unit} {s : Machine Backend}
    {ending : LayerEnding}
    (agrees : Agrees (guardedEntry own s) ending (body (guardedEntry own s))) :
    history (ffiGuard (withErrorContext own body) s).2 = history (body (guardedEntry own s)).2 := by
  have unfolded : withErrorContext own body (ffiGuardEntry s) =
      (do body; modifyElog fun e => { e with
        errorContextStack := s.store.elog.errorContextStack }) (guardedEntry own s) := rfl
  generalize run : body (guardedEntry own s) = ended at agrees ⊢
  cases agrees with
  | finished resumes =>
    rw [Code.bind_returned run] at unfolded
    rw [ffiGuard_returned unfolded]
    rfl
  | error jumps =>
    rw [bind_landing run] at unfolded
    obtain ⟨older, raised⟩ := jumps.raised
    rw [ffiGuard_jumped unfolded raised]
    rfl
  | exception throws =>
    rw [Code.bind_thrown run] at unfolded
    rw [ffiGuard_thrown unfolded]
    rfl
  | undefined =>
    rw [Code.bind_aborted run] at unfolded
    rw [ffiGuard_aborted unfolded]

theorem isFinished_iff {outcome : Outcome} : outcome.isFinished = true ↔ outcome = .finished := by
  cases outcome <;> simp [Outcome.isFinished]

theorem seq_history {first second : Cpp Unit} {s : Machine Backend} {ending : LayerEnding}
    (one : Agrees s ending (first s)) :
    history ((do first; second) s).2 =
      if ending.outcome.isFinished then history (second (first s).2).2
      else history (first s).2 := by
  by_cases finished : ending.outcome = .finished
  · rw [if_pos (isFinished_iff.mpr finished)]
    generalize run : first s = ended at one
    cases one with
    | finished resumes => rw [Code.bind_returned run]
    | error jumps => cases finished
    | exception throws => cases finished
    | undefined => cases finished
  · rw [if_neg (isFinished_iff.not.mpr finished), bind_stopped one finished]

/-- A continuation that leaves the history alone can be ignored. -/
theorem bind_history {α : Type} {first : Cpp α} {next : α → Cpp Unit}
    (quiet : ∀ value u, history (next value u).2 = history u) (t : Machine Backend) :
    history ((first >>= next) t).2 = history (first t).2 := by
  rcases run : first t with ⟨exit, u⟩
  cases exit with
  | returned value =>
    rw [Code.bind_returned run]
    exact quiet value u
  | thrown exception => rw [Code.bind_thrown run]
  | jumped buffer => rw [Code.bind_jumped run]
  | aborted => rw [Code.bind_aborted run]

theorem takeCaught_history (s : Machine Backend) : history (takeCaught s).2 = history s := by
  unfold takeCaught
  rw [Code.get_bind]
  cases s.store.caughtExceptions <;> rfl

theorem endCatch_history (s : Machine Backend) : history (endCatch s).2 = history s := by
  refine (bind_history (fun exception u => ?_) s).trans (takeCaught_history s)
  rw [Code.get_bind]
  split
  · rfl
  · rw [dropException_apply]
    rfl

theorem throwAgain_history (s : Machine Backend) :
    history ((throwAgain : Cpp Unit) s).2 = history s :=
  (bind_history (fun _ _ => rfl) s).trans (takeCaught_history s)

theorem handlerBlock_history (statements : Cpp Unit) (t : Machine Backend) :
    history (handlerBlock statements t).2 = history (statements t).2 := by
  unfold handlerBlock Code.catching
  rcases statements t with ⟨exit, u⟩
  cases exit with
  | returned value => rfl
  | jumped buffer => rfl
  | aborted => rfl
  | thrown replacement =>
    dsimp only
    rw [bind_history fun _ _ => rfl]
    exact endCatch_history _

/-- The machine the handler of a layer runs in that ended with an exception. -/
def caught (run : Run) : Machine Backend :=
  match run with
  | (.thrown exception, t) => handlerEntry exception t
  | (_, t) => t

theorem tryCatch_history {body statements : Cpp Unit} {s : Machine Backend} {ending : LayerEnding}
    (handler : Handler) (one : Agrees s ending (body s)) :
    history (tryCatch body handler statements s).2 =
      if handler.enters ending.outcome then history (statements (caught (body s))).2
      else history (body s).2 := by
  unfold tryCatch
  generalize run : body s = ended at one
  cases one with
  | finished resumes =>
    rw [catching_returned run]
    rfl
  | error jumps =>
    rw [catching_landing run]
    rfl
  | undefined =>
    rw [catching_aborted run]
    rfl
  | @exception t raised exception left objects throws =>
    rw [catching_thrown run, throws.accepts handler.clause]
    by_cases taken : handler.clause.takes raised = true
    · have entered : handler.enters (.exception raised) = true := taken
      have begun : beginCatch exception { t with uncaught := t.uncaught - 1 } =
          (.returned (), handlerEntry exception t) := rfl
      rw [if_pos taken, if_pos entered, Code.bind_returned begun, bind_history]
      · exact handlerBlock_history statements _
      · intro _ u
        cases handler with
        | swallow clause => exact endCatch_history u
        | resume clause => exact throwAgain_history u
        | toPostgres =>
          cases exception with
          | pg mcxt errorCxt => exact rethrow_history errorCxt u
          | std what => exact throwAgain_history u
          | other => exact throwAgain_history u
    · have left : ¬ handler.enters (.exception raised) = true := taken
      rw [if_neg taken, if_neg left]
      rfl

/-! ## A tree of calls -/

/-- From `s` to `t` the stack grew by `overtaken` entries, and if by none, it is what it was
and the questions in between were answered by `answers`. -/
structure Tracks (answers : List (Option FunctionCallInfo × Option Bool)) (overtaken : List FunctionCallInfo)
    (s t : Machine Backend) : Prop where
  grows : t.store.calls.length = s.store.calls.length + overtaken.length
  exact_ : overtaken = [] →
    t.store.calls = s.store.calls ∧ t.store.answers = answers ++ s.store.answers

theorem Tracks.refl {s t : Machine Backend} (same : history t = history s) : Tracks [] [] s t := by
  simp only [history, Prod.mk.injEq] at same
  exact ⟨by simp [same.1], fun _ => ⟨same.1, by simp [same.2]⟩⟩

theorem Tracks.congr {answers : List (Option FunctionCallInfo × Option Bool)}
    {overtaken : List FunctionCallInfo} {s s' t t' : Machine Backend}
    (tracks : Tracks answers overtaken s t) (start : history s' = history s)
    (finish : history t' = history t) : Tracks answers overtaken s' t' := by
  simp only [history, Prod.mk.injEq] at start finish
  refine ⟨?_, fun none => ?_⟩
  · rw [start.1, finish.1]
    exact tracks.grows
  · rw [start.1, start.2, finish.1, finish.2]
    exact tracks.exact_ none

/-- The second part asks on the stack the first part left. -/
theorem Tracks.trans {one : List (Option FunctionCallInfo × Option Bool)}
    {two : Option FunctionCallInfo → List (Option FunctionCallInfo × Option Bool)}
    {lost lost' : List FunctionCallInfo} {s t u : Machine Backend} (first : Tracks one lost s t)
    (second : Tracks (two t.store.calls.head?) lost' t u) :
    Tracks (two s.store.calls.head? ++ one) (lost' ++ lost) s u := by
  refine ⟨?_, fun none => ?_⟩
  · rw [second.grows, first.grows, List.length_append]
    omega
  · obtain ⟨none', none⟩ := List.append_eq_nil_iff.mp none
    obtain ⟨calls, asked⟩ := first.exact_ none
    obtain ⟨calls', asked'⟩ := second.exact_ none'
    refine ⟨calls'.trans calls, ?_⟩
    rw [asked', asked, calls, List.append_assoc]

/-- The destructor of a handle takes one entry off, whichever it is. -/
theorem popped_tracks {fc : FunctionCallInfo} {s t : Machine Backend}
    {answers : List (Option FunctionCallInfo × Option Bool)} {overtaken : List FunctionCallInfo}
    (tracks : Tracks answers overtaken (pushed fc s) t) : Tracks answers overtaken s (popped t) := by
  refine ⟨?_, fun none => ?_⟩
  · have grows := tracks.grows
    change t.store.calls.tail.length = _
    simp only [pushed, List.length_cons] at grows
    rw [List.length_tail]
    omega
  · obtain ⟨calls, asked⟩ := tracks.exact_ none
    refine ⟨?_, asked⟩
    change t.store.calls.tail = _
    rw [calls]
    rfl

/-- The handle of a call that is overtaken is not popped. -/
theorem overtaken_tracks {fc : FunctionCallInfo} {s t : Machine Backend}
    {answers : List (Option FunctionCallInfo × Option Bool)} {overtaken : List FunctionCallInfo}
    (tracks : Tracks answers overtaken (pushed fc s) t) :
    Tracks answers ([fc] ++ overtaken) s t := by
  refine ⟨?_, fun none => by simp at none⟩
  have grows := tracks.grows
  simp only [pushed, List.length_cons] at grows
  simp only [List.length_append, List.length_singleton]
  omega

/-- A call is balanced unless an error jumps over its handle. -/
theorem withCallHandle_tracks {fc : FunctionCallInfo} {body : Cpp Unit} {s : Machine Backend}
    {ending : LayerEnding} {answers : List (Option FunctionCallInfo × Option Bool)}
    {overtaken : List FunctionCallInfo} (agrees : Agrees (pushed fc s) ending (body (pushed fc s)))
    (tracks : Tracks answers overtaken (pushed fc s) (body (pushed fc s)).2) :
    Tracks answers ((if ending.outcome.overtakes then [fc] else []) ++ overtaken) s
      (withCallHandle fc body s).2 := by
  rw [withCallHandle_apply]
  generalize body (pushed fc s) = run at agrees tracks
  cases agrees with
  | finished resumes => exact popped_tracks tracks
  | exception throws => exact popped_tracks tracks
  | undefined => exact overtaken_tracks tracks
  | error jumps =>
    have stays := overtaken_tracks tracks
    unfold Elog.landing
    cases (pushed fc s).store.elog.exceptionStack <;> exact stays

/-- Two parts in a row, the second of which may not be reached. -/
theorem Tracks.andThen {one : List (Option FunctionCallInfo × Option Bool)}
    (two : Option FunctionCallInfo → List (Option FunctionCallInfo × Option Bool))
    {lost lost' : List FunctionCallInfo} {s t u v : Machine Backend} {reached : Bool}
    (first : Tracks one lost s t)
    (second : reached = true → Tracks (two t.store.calls.head?) lost' t u)
    (whole : history v = if reached then history u else history t) :
    Tracks ((if reached then two s.store.calls.head? else []) ++ one)
      ((if reached then lost' else []) ++ lost) s v := by
  cases reached with
  | false => exact first.congr rfl whole
  | true => exact (first.trans (second rfl)).congr rfl whole

/-- Every tree of layers answers as it should and leaves exactly the overtaken calls behind. -/
theorem Layer.run_tracks (layer : Layer) (s : Machine Backend) :
    Tracks (layer.answers s.store.elog.errorContextStack s.store.calls.head?)
      (layer.overtaken s.store.elog.errorContextStack) s (layer.run s).2 := by
  induction layer generalizing s with
  | done => exact .refl rfl
  | inquire =>
    change Tracks _ _ s (Cppgres.inquire s).2
    rw [inquire_apply]
    exact ⟨rfl, fun _ => ⟨rfl, rfl⟩⟩
  | switchTo context => exact .refl rfl
  | ereport edata =>
    apply Tracks.refl
    change history (Cppgres.ereport edata s).2 = _
    rw [ereport_apply]
    rfl
  | throwStd what => exact .refl rfl
  | throwOther => exact .refl rfl
  | seq first second one two =>
    have agrees := first.run_agrees s
    refine (one s).andThen (fun running => second.answers _ running) ?_
      (seq_history agrees)
    intro reached
    obtain ⟨t, left, objects, run, resumes⟩ := Layer.run_finished (isFinished_iff.mp reached)
    have again := two t
    rw [run]
    rwa [resumes.callbacks] at again
  | attempt body handler statements one two =>
    have agrees := body.run_agrees s
    refine (one s).andThen (fun running => statements.answers _ running) ?_
      (tryCatch_history handler agrees)
    intro entered
    have again := two (caught (body.run s))
    generalize body.run s = run at agrees again ⊢
    generalize body.ending s.store.elog.errorContextStack = ending at agrees entered
    cases agrees with
    | finished resumes => cases entered
    | error jumps => cases entered
    | undefined => cases entered
    | exception throws =>
      have below : (handlerEntry _ _).store.elog.errorContextStack = _ := throws.entered.callbacks
      change Tracks (statements.answers (handlerEntry _ _).store.elog.errorContextStack _)
        (statements.overtaken (handlerEntry _ _).store.elog.errorContextStack) _ _ at again
      rw [below] at again
      exact again.congr rfl rfl
  | guarded own body ih =>
    exact (ih (guardedEntry own s)).congr rfl
      (guarded_history own (body.run_agrees (guardedEntry own s)))
  | callback body ih => exact (ih s).congr rfl (exceptionGuard_history _ _)
  | call fc checks body one two =>
    have agrees := checks.run_agrees s
    refine (one s).andThen (fun _ => body.answers _ (some fc)) ?_
      ((exceptionGuard_history _ _).trans (seq_history agrees))
    intro reached
    obtain ⟨t, left, objects, run, resumes⟩ := Layer.run_finished (isFinished_iff.mp reached)
    have again := two (pushed fc t)
    have inner := body.run_agrees (pushed fc t)
    rw [pushed_elog, resumes.callbacks] at again inner
    rw [run]
    exact withCallHandle_tracks inner again

/-- The stack is back as it was, and every question was answered with the innermost call
running, exactly for the trees in which no error overtakes the handle of a call. -/
theorem callStack_balanced_iff (layer : Layer) (s : Machine Backend) :
    ((layer.run s).2.store.calls = s.store.calls ∧
      (layer.run s).2.store.answers =
        layer.answers s.store.elog.errorContextStack s.store.calls.head? ++ s.store.answers) ↔
    layer.overtaken s.store.elog.errorContextStack = [] := by
  have tracks := layer.run_tracks s
  constructor
  · intro ⟨balanced, _⟩
    have grows := tracks.grows
    rw [balanced] at grows
    exact List.eq_nil_of_length_eq_zero (by omega)
  · exact tracks.exact_

/-- A call whose handler throws again. The exception of the callback below is on top of the
runtime's stack then, so the `std::exception` clause takes it, and the error is raised. -/
example :
    (Layer.call ⟨1, none⟩ .done
      (.attempt
        (.attempt .throwOther (.resume .all)
          (.attempt (.guarded [] (.callback (.throwStd "cleanup"))) (.swallow .all) .done))
        (.swallow .stdException) (.ereport (reportData "reported")))).overtaken [] =
      [⟨1, none⟩] := by
  decide

/-- An outer call catches the error of an inner one and asks what is running. -/
def overtakenCall : Layer :=
  .call ⟨1, some (.callContext true)⟩ .done
    (.seq
      (.attempt
        (.guarded [] (.call ⟨2, none⟩ .done (.ereport (reportData "not now"))))
        (.swallow .pgException) .done)
      .inquire)

/-- The inner call is still on the stack then: it is taken for the running one, and when
all is over the outer call is left behind. -/
theorem overtakenCall_stays :
    (overtakenCall.run idle).1 = .returned () ∧
    (overtakenCall.run idle).2.store.answers = [(some ⟨2, none⟩, none)] ∧
    (overtakenCall.run idle).2.store.calls = [⟨1, some (.callContext true)⟩] ∧
    ¬ ((overtakenCall.run idle).2.store.calls = idle.store.calls ∧
      (overtakenCall.run idle).2.store.answers =
        overtakenCall.answers idle.store.elog.errorContextStack idle.store.calls.head? ++
          idle.store.answers) := by
  decide

end Cppgres
