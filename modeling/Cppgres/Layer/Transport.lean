import Cppgres.Layer.Held

/-!
# What a tree of layers does

`Layer.run` refines `Layer.ending`: whatever a tree of layers does, it ends the way its
ending says, with the handler stack of its entry in place, with the record of an exception
in flight held by a context that nobody else deletes, and with exactly the exceptions above
those caught before that the ending lists. The induction is on the tree; `Agrees` is what
every layer promises to the layer around it.
-/
namespace Cppgres
open NonLocal

abbrev Run := Exit CppException SigjmpBuf Unit × Machine Backend

/-- `t` is as good a place to go on from as `s`; what was caught since and has not ended are
`objects`, which carry `left`. -/
structure Resumes (s t : Machine Backend) (left : List Raised) (objects : List CppException) :
    Prop where
  frame : Frame s.store.elog t.store.elog
  callbacks : t.store.elog.errorContextStack = s.store.elog.errorContextStack
  uncaught : t.uncaught = s.uncaught
  settled : Settled t.store.elog s.store.elog.nextContext t.store.elog.nextContext
  caught : t.store.caughtExceptions = objects ++ s.store.caughtExceptions
  stacked : Stacked t.store.elog s.store.elog.nextContext t.store.elog.nextContext left objects

/-- An exception that carries `raised` passes `t`. -/
structure Throws (s t : Machine Backend) (raised : Raised) (exception : CppException)
    (left : List Raised) (objects : List CppException) : Prop where
  frame : Frame s.store.elog t.store.elog
  callbacks : t.store.elog.errorContextStack = s.store.elog.errorContextStack
  uncaught : t.uncaught = s.uncaught + 1
  settled : Settled t.store.elog s.store.elog.nextContext t.store.elog.nextContext
  caught : t.store.caughtExceptions = objects ++ s.store.caughtExceptions
  stacked : Stacked t.store.elog s.store.elog.nextContext t.store.elog.nextContext
    (raised :: left) (exception :: objects)

/-- A Postgres error with the record `edata` passes `t`. -/
structure Jumps (s t : Machine Backend) (edata : ErrorData) (left : List Raised)
    (objects : List CppException) : Prop where
  frame : Frame s.store.elog t.store.elog
  callbacks : t.store.elog.errorContextStack = s.store.elog.errorContextStack
  uncaught : t.uncaught = s.uncaught
  raised : ∃ older, t.store.elog.errordata = edata :: older
  caught : t.store.caughtExceptions = objects ++ s.store.caughtExceptions
  stacked : Stacked t.store.elog s.store.elog.nextContext t.store.elog.nextContext left objects

/-- A run from `s` ended in the way `ending` says. -/
inductive Agrees (s : Machine Backend) : LayerEnding → Run → Prop where
  | finished {t : Machine Backend} {left : List Raised} {objects : List CppException} :
      Resumes s t left objects → Agrees s ⟨.finished, left⟩ (.returned (), t)
  | error {t : Machine Backend} {edata : ErrorData} {left : List Raised}
      {objects : List CppException} :
      Jumps s t edata left objects → Agrees s ⟨.error edata, left⟩ (s.store.elog.landing, t)
  | exception {t : Machine Backend} {raised : Raised} {exception : CppException}
      {left : List Raised} {objects : List CppException} :
      Throws s t raised exception left objects →
      Agrees s ⟨.exception raised, left⟩ (.thrown exception, t)
  | undefined {t : Machine Backend} {left : List Raised} : Agrees s ⟨.undefined, left⟩ (.aborted, t)

/-! ## Going on from another machine -/

section After
variable {s t u : Machine Backend} {older newer : List Raised} {below above : List CppException}

theorem Resumes.refl (s : Machine Backend) : Resumes s s [] [] where
  frame := .refl _
  callbacks := rfl
  uncaught := rfl
  settled := fun _ above below => absurd below (Nat.not_lt.mpr above)
  caught := rfl
  stacked := .nil (Nat.le_refl _)

/-- What one part left is still there after the next. -/
theorem Resumes.kept (one : Resumes s t older below) (frame : Frame t.store.elog u.store.elog) :
    Stacked u.store.elog s.store.elog.nextContext t.store.elog.nextContext older below :=
  one.stacked.frame frame one.settled (Nat.le_refl _)

theorem Resumes.trans (one : Resumes s t older below) (two : Resumes t u newer above) :
    Resumes s u (newer ++ older) (above ++ below) where
  frame := one.frame.trans two.frame
  callbacks := two.callbacks.trans one.callbacks
  uncaught := two.uncaught.trans one.uncaught
  settled := one.settled.trans two.frame two.settled
  caught := by rw [two.caught, one.caught, List.append_assoc]
  stacked := two.stacked.append (one.kept two.frame)

theorem Resumes.throws (one : Resumes s t older below) {raised : Raised}
    {exception : CppException} (two : Throws t u raised exception newer above) :
    Throws s u raised exception (newer ++ older) (above ++ below) where
  frame := one.frame.trans two.frame
  callbacks := two.callbacks.trans one.callbacks
  uncaught := two.uncaught.trans (congrArg (· + 1) one.uncaught)
  settled := one.settled.trans two.frame two.settled
  caught := by rw [two.caught, one.caught, List.append_assoc]
  stacked := two.stacked.append (one.kept two.frame)

theorem Resumes.jumps (one : Resumes s t older below) {edata : ErrorData}
    (two : Jumps t u edata newer above) : Jumps s u edata (newer ++ older) (above ++ below) where
  frame := one.frame.trans two.frame
  callbacks := two.callbacks.trans one.callbacks
  uncaught := two.uncaught.trans one.uncaught
  raised := two.raised
  caught := by rw [two.caught, one.caught, List.append_assoc]
  stacked := two.stacked.append (one.kept two.frame)

/-- The ending of a later part is the ending of the whole, above what the earlier part left. -/
theorem Agrees.after {outcome : Outcome} {run : Run} (agrees : Agrees t ⟨outcome, newer⟩ run)
    (one : Resumes s t older below) : Agrees s ⟨outcome, newer ++ older⟩ run := by
  cases agrees with
  | finished resumes => exact .finished (one.trans resumes)
  | error jumps =>
    rw [one.frame.landing]
    exact .error (one.jumps jumps)
  | exception throws => exact .exception (one.throws throws)
  | undefined => exact .undefined

/-- A step that leaves the error machinery alone. -/
theorem Agrees.step (same : t.store.elog = s.store.elog) (uncaught : t.uncaught = s.uncaught)
    (caught : t.store.caughtExceptions = s.store.caughtExceptions) :
    Agrees s ⟨.finished, []⟩ (.returned (), t) := by
  have resumes : Resumes s t [] [] := by
    refine ⟨?_, congrArg Elog.errorContextStack same, uncaught, ?_, caught, ?_⟩
    · rw [same]
      exact .refl _
    · rw [same]
      exact (Resumes.refl s).settled
    · rw [same]
      exact .nil (Nat.le_refl _)
  exact .finished resumes

theorem ereport_agrees (edata : ErrorData) (s : Machine Backend) :
    Agrees s ⟨.error { edata with context := edata.context ++ s.store.elog.errorContextStack }, []⟩
      (ereport edata s) := by
  rw [ereport_apply]
  exact .error ⟨⟨rfl, Nat.le_refl _, fun _ _ kept => ⟨rfl, kept⟩⟩, rfl, rfl, ⟨_, rfl⟩, rfl,
    .nil (Nat.le_refl _)⟩

theorem throwing_agrees {raised : Raised} {exception : CppException} (s : Machine Backend)
    (carried : Carries s.store.elog s.store.elog.nextContext s.store.elog.nextContext raised
      exception) :
    Agrees s ⟨.exception raised, []⟩ ((Code.throwing exception : Cpp Unit) s) :=
  .exception ⟨.refl _, rfl, rfl, (Resumes.refl s).settled, rfl,
    .cons (Nat.le_refl _) carried (.nil (Nat.le_refl _))⟩

end After

theorem bind_landing {α β : Type} {first : Cpp α} {next : α → Cpp β} {s t : Machine Backend}
    {elog : Elog} (run : first s = (elog.landing, t)) : (first >>= next) s = (elog.landing, t) := by
  unfold Elog.landing at run ⊢
  split at run
  · exact Code.bind_jumped run
  · exact Code.bind_aborted run

theorem catching_landing {body : Cpp Unit} {handler : CppException → Cpp Unit}
    {s t : Machine Backend} {elog : Elog} (run : body s = (elog.landing, t)) :
    Code.catching body handler s = (elog.landing, t) := by
  unfold Elog.landing at run ⊢
  unfold Code.catching
  rw [run]
  cases elog.exceptionStack <;> rfl

theorem catching_returned {body : Cpp Unit} {handler : CppException → Cpp Unit}
    {s t : Machine Backend} (run : body s = (.returned (), t)) :
    Code.catching body handler s = (.returned (), t) := by
  unfold Code.catching
  rw [run]

theorem catching_aborted {body : Cpp Unit} {handler : CppException → Cpp Unit}
    {s t : Machine Backend} (run : body s = (.aborted, t)) :
    Code.catching body handler s = (.aborted, t) := by
  unfold Code.catching
  rw [run]

theorem catching_thrown {body : Cpp Unit} {handler : CppException → Cpp Unit}
    {s t : Machine Backend} {exception : CppException} (run : body s = (.thrown exception, t)) :
    Code.catching body handler s = handler exception { t with uncaught := t.uncaught - 1 } := by
  unfold Code.catching
  rw [run]

/-- Sequencing stops at anything but a normal return. -/
theorem bind_stopped {first : Cpp Unit} {next : Unit → Cpp Unit} {s t : Machine Backend}
    {ending : LayerEnding} (agrees : Agrees s ending (first t))
    (stopped : ending.outcome ≠ .finished) :
    (first >>= next) t = first t := by
  generalize run : first t = ended at agrees
  cases agrees with
  | finished => exact absurd rfl stopped
  | error => exact bind_landing run
  | exception => exact Code.bind_thrown run
  | undefined => exact Code.bind_aborted run

theorem seq_agrees {first second : Cpp Unit} {s : Machine Backend} {one two : LayerEnding}
    (agrees : Agrees s one (first s))
    (next : ∀ t, t.store.elog.errorContextStack = s.store.elog.errorContextStack →
      Agrees t two (second t)) :
    Agrees s (one.andThen two) ((do first; second) s) := by
  generalize run : first s = ended at agrees
  cases agrees with
  | @finished t left objects resumes =>
    rw [Code.bind_returned run]
    exact (next t resumes.callbacks).after resumes
  | error jumps =>
    rw [bind_landing run]
    exact .error jumps
  | exception throws =>
    rw [Code.bind_thrown run]
    exact .exception throws
  | undefined =>
    rw [Code.bind_aborted run]
    exact .undefined

/-! ## ffi_guard -/

/-- Where a guarded Postgres function with callbacks of its own runs its body. -/
def guardedEntry (own : List ErrorContextCallback) (s : Machine Backend) : Machine Backend :=
  { ffiGuardEntry s with
    store := { (ffiGuardEntry s).store with
      elog := { (ffiGuardEntry s).store.elog with
        errorContextStack := own ++ s.store.elog.errorContextStack } } }

/-- Every record in use below the guard is still there after an error was caught. -/
theorem ffiGuardCaught_frame {s t : Machine Backend}
    (frame : Frame (ffiGuardEntry s).store.elog t.store.elog) (edata : ErrorData) :
    Frame s.store.elog (ffiGuardCaught s t edata).store.elog where
  handlers := rfl
  later := Nat.le_trans frame.later
    (Nat.le_trans t.store.elog.nextContext_le_fresh (Nat.le_succ _))
  records := by
    intro context old kept
    have ⟨same, still⟩ := frame.records context old kept
    have notFresh : context ≠ t.store.elog.freshContext :=
      Nat.ne_of_lt (Nat.lt_of_lt_of_le old
        (Nat.le_trans frame.later t.store.elog.nextContext_le_fresh))
    constructor
    · change (if context ∈ t.store.elog.resetCallbacks then none
        else if context = t.store.elog.freshContext then some edata
        else t.store.elog.records context) = s.store.elog.records context
      rw [if_neg still, if_neg notFresh]
      exact same
    · exact List.not_mem_nil

theorem ffiGuardCaught_record (s t : Machine Backend) (edata : ErrorData) :
    (ffiGuardCaught s t edata).store.elog.records t.store.elog.freshContext = some edata := by
  change (if t.store.elog.freshContext ∈ t.store.elog.resetCallbacks then none
    else if t.store.elog.freshContext = t.store.elog.freshContext then some edata
    else t.store.elog.records t.store.elog.freshContext) = some edata
  rw [if_neg t.store.elog.fresh_not_pending, if_pos rfl]

/-- The flush deletes what became an error again; the other records stay. -/
theorem ffiGuardCaught_stacked {s t : Machine Backend} {low high : MemoryContext}
    {values : List Raised} {objects : List CppException} (edata : ErrorData)
    (stacked : Stacked t.store.elog low high values objects) (old : high ≤ t.store.elog.nextContext) :
    Stacked (ffiGuardCaught s t edata).store.elog low high values objects := by
  have record : ∀ context, context < high →
      (ffiGuardCaught s t edata).store.elog.records context =
        if context ∈ t.store.elog.resetCallbacks then none else t.store.elog.records context := by
    intro context below
    change (if context ∈ t.store.elog.resetCallbacks then none
      else if context = t.store.elog.freshContext then some edata
      else t.store.elog.records context) = _
    rw [if_neg (Nat.ne_of_lt (Nat.lt_of_lt_of_le below
      (Nat.le_trans old t.store.elog.nextContext_le_fresh)))]
  induction stacked with
  | nil le => exact .nil le
  | @cons between high raised exception values objects le carried rest ih =>
    refine .cons le ?_ (ih (Nat.le_trans le old) fun context below =>
      record context (Nat.lt_of_lt_of_le below le))
    cases raised <;> cases exception <;> try exact carried
    case pg.pg edata' mcxt errorCxt =>
      obtain ⟨held, above, below, kept⟩ := carried
      refine ⟨?_, above, below, List.not_mem_nil⟩
      rw [record errorCxt below, if_neg kept]
      exact held
    case gone.pg mcxt errorCxt =>
      obtain ⟨deleted, above, below⟩ := carried
      refine ⟨.inl ?_, above, below⟩
      rw [record errorCxt below]
      split
      · rfl
      · exact deleted.resolve_right ‹_›

/-- A Postgres error that reaches a guard becomes an exception with its record. -/
theorem Jumps.caught_throws {own : List ErrorContextCallback} {s t : Machine Backend}
    {edata : ErrorData} {left : List Raised} {objects : List CppException}
    (jumps : Jumps (guardedEntry own s) t edata left objects) :
    Throws s (ffiGuardCaught s t edata) (.pg edata)
      (.pg s.store.session.currentMemoryContext t.store.elog.freshContext) left objects where
  frame := ffiGuardCaught_frame ⟨jumps.frame.handlers, jumps.frame.later, jumps.frame.records⟩ edata
  callbacks := rfl
  uncaught := congrArg (· + 1) jumps.uncaught
  settled := fun _ _ _ => List.not_mem_nil
  caught := jumps.caught
  stacked := .cons (Nat.le_trans t.store.elog.nextContext_le_fresh (Nat.le_succ _))
    ⟨ffiGuardCaught_record s t edata, t.store.elog.nextContext_le_fresh, Nat.lt_succ_self _,
      List.not_mem_nil⟩
    (ffiGuardCaught_stacked edata jumps.stacked (Nat.le_refl _))

/-- Whatever happens below, a guarded Postgres function is left by a return or an exception,
with both stacks as they were. -/
theorem guarded_agrees (own : List ErrorContextCallback) {body : Cpp Unit} {s : Machine Backend}
    {ending : LayerEnding}
    (agrees : Agrees (guardedEntry own s) ending (body (guardedEntry own s))) :
    Agrees s ending.asException (ffiGuard (withErrorContext own body) s) := by
  have unfolded : withErrorContext own body (ffiGuardEntry s) =
      (do body; modifyElog fun e => { e with
        errorContextStack := s.store.elog.errorContextStack }) (guardedEntry own s) := rfl
  generalize run : body (guardedEntry own s) = ended at agrees
  cases agrees with
  | @finished t left objects resumes =>
    rw [Code.bind_returned run] at unfolded
    rw [ffiGuard_returned unfolded]
    exact .finished ⟨⟨rfl, resumes.frame.later, resumes.frame.records⟩, rfl, resumes.uncaught,
      resumes.settled, resumes.caught,
      resumes.stacked.same ⟨fun _ _ _ => rfl, fun _ _ _ => Iff.rfl⟩⟩
  | @error t edata left objects jumps =>
    rw [bind_landing run] at unfolded
    obtain ⟨older, raised⟩ := jumps.raised
    rw [ffiGuard_jumped unfolded raised]
    exact .exception jumps.caught_throws
  | @exception t raised exception left objects throws =>
    rw [Code.bind_thrown run] at unfolded
    rw [ffiGuard_thrown unfolded]
    exact .exception ⟨⟨rfl, throws.frame.later, throws.frame.records⟩, rfl, throws.uncaught,
      throws.settled, throws.caught,
      throws.stacked.same ⟨fun _ _ _ => rfl, fun _ _ _ => Iff.rfl⟩⟩
  | @undefined t left =>
    rw [Code.bind_aborted run] at unfolded
    rw [ffiGuard_aborted unfolded]
    exact .undefined

/-! ## Handlers -/

/-- What the end of the latest handler leaves. -/
def handled (exception : CppException) (older : List CppException) (t : Machine Backend) :
    Machine Backend :=
  { t with store := { t.store with
      elog := exception.destroyed t.store.elog
      caughtExceptions := older } }

section LayerEnding
variable {s t : Machine Backend} {raised : Raised} {exception : CppException}
  {older : List Raised} {below : List CppException}

theorem endCatch_handled {objects : List CppException}
    (top : t.store.caughtExceptions = exception :: objects)
    (live : exception.deleted t.store.elog = false) :
    endCatch t = (.returned (), handled exception objects t) := by
  rw [endCatch_apply top, live, if_neg (by simp), dropException_apply]
  rfl

theorem Resumes.handled (resumes : Resumes s t (raised :: older) (exception :: below)) :
    Resumes s (handled exception (below ++ s.store.caughtExceptions) t) older below := by
  obtain ⟨frame, callbacks, uncaught, settled, caught, stacked⟩ := resumes
  cases stacked with
  | @cons between _ _ _ _ _ le carried rest =>
    refine ⟨frame.destroyed carried rest.le, ?_, uncaught, ?_, rfl, ?_⟩
    · exact (destroyed_errorContextStack _ _).trans callbacks
    · intro context above under
      have kept := settled context above (by simpa [Cppgres.handled] using under)
      simpa [Cppgres.handled] using kept
    · have rest' := rest.same (carried.destroyed (.inl (Nat.le_refl _)))
      exact rest'.widen (Nat.le_trans le (Nat.le_of_eq (destroyed_nextContext _ _).symm))

/-- The exception in flight is a later one than those on the stack. -/
theorem Throws.handled {replacement : Raised} {thrown : CppException}
    (throws : Throws s t replacement thrown (raised :: older) (exception :: below)) :
    Throws s (handled exception (below ++ s.store.caughtExceptions) t) replacement thrown older
      below := by
  obtain ⟨frame, callbacks, uncaught, settled, caught, stacked⟩ := throws
  cases stacked with
  | @cons between _ _ _ _ _ le carried rest =>
    cases rest with
    | @cons between' _ _ _ _ _ le' carried' rest' =>
      refine ⟨frame.destroyed carried' rest'.le, ?_, uncaught, ?_, rfl, ?_⟩
      · exact (destroyed_errorContextStack _ _).trans callbacks
      · intro context above under
        have kept := settled context above (by simpa [Cppgres.handled] using under)
        simpa [Cppgres.handled] using kept
      · have same : t.store.elog.nextContext = (exception.destroyed t.store.elog).nextContext :=
          (destroyed_nextContext _ _).symm
        have still := carried.same (carried'.destroyed (.inr (Nat.le_refl _)))
        exact .cons (Nat.le_trans le (Nat.le_of_eq same)) (still.widen (Nat.le_of_eq same))
          ((rest'.same (carried'.destroyed (.inl (Nat.le_refl _)))).widen le')

/-- The top of a settled stack is destroyed, or it has no record any more. -/
theorem Stacked.top {now : Elog} {low high : MemoryContext} {values : List Raised}
    {objects : List CppException}
    (stacked : Stacked now low high (raised :: values) (exception :: objects))
    (settled : Settled now low high) : exception.deleted now = decide (raised = .gone) := by
  cases stacked with
  | cons le carried rest =>
    exact carried.deleted fun context above => settled context (Nat.le_trans rest.le above)

theorem Outcome.endingCatch_cons (outcome : Outcome) (live : raised ≠ .gone) :
    outcome.endingCatch (raised :: older) = ⟨outcome, older⟩ := by
  cases raised <;> first | rfl | exact absurd rfl live

theorem Outcome.endingCatch_stops {outcome : Outcome} (stopped : outcome ≠ .finished)
    (stack : List Raised) : (outcome.endingCatch stack).outcome ≠ .finished := by
  cases stack with
  | nil => simp [Outcome.endingCatch]
  | cons raised older => cases raised <;> first | exact stopped | simp [Outcome.endingCatch]

theorem endCatch_gone {objects : List CppException}
    (top : t.store.caughtExceptions = exception :: objects)
    (deleted : exception.deleted t.store.elog = true) :
    endCatch t = (.aborted, withCaught objects t) := by
  rw [endCatch_apply top, if_pos deleted]

theorem endCatch_agrees {stack : List Raised} {objects : List CppException}
    (resumes : Resumes s t stack objects) (entered : stack ≠ []) :
    Agrees s (Outcome.finished.endingCatch stack) (endCatch t) := by
  cases stack with
  | nil => exact absurd rfl entered
  | cons raised older =>
    cases objects with
    | nil => cases resumes.stacked
    | cons exception below =>
      have deleted := resumes.stacked.top resumes.settled
      by_cases lost : raised = .gone
      · subst lost
        rw [endCatch_gone resumes.caught deleted]
        exact .undefined
      · rw [Outcome.endingCatch_cons _ lost,
          endCatch_handled resumes.caught (deleted.trans (decide_eq_false lost))]
        exact .finished resumes.handled

/-- A handler that an exception leaves ends before the exception goes on. -/
theorem replaced_agrees {stack : List Raised} {objects : List CppException} {replacement : Raised}
    {thrown : CppException} (throws : Throws s t replacement thrown stack objects)
    (entered : stack ≠ []) :
    Agrees s ((Outcome.exception replacement).endingCatch stack)
      ((do endCatch; Code.throwing thrown : Cpp Unit) { t with uncaught := t.uncaught - 1 }) := by
  cases stack with
  | nil => exact absurd rfl entered
  | cons raised older =>
    obtain ⟨_, _, uncaught, settled, caught, stacked⟩ := id throws
    cases stacked with
    | cons le carried rest =>
      cases rest with
      | @cons _ _ _ exception _ below le' carried' rest' =>
        have deleted := carried'.deleted fun context above under =>
          settled context (Nat.le_trans rest'.le above) (Nat.lt_of_lt_of_le under le)
        by_cases lost : raised = .gone
        · subst lost
          rw [Code.bind_aborted (endCatch_gone (t := { t with uncaught := t.uncaught - 1 })
            caught deleted)]
          exact .undefined
        · rw [Outcome.endingCatch_cons _ lost,
            Code.bind_returned (endCatch_handled (t := { t with uncaught := t.uncaught - 1 })
              caught (deleted.trans (decide_eq_false lost)))]
          have onward := throws.handled
          exact .exception ⟨onward.frame, onward.callbacks, by simp [Cppgres.handled, uncaught],
            onward.settled, onward.caught, onward.stacked⟩

theorem throwAgain_agrees {stack : List Raised} {objects : List CppException}
    (resumes : Resumes s t stack objects) (entered : stack ≠ []) :
    Agrees s (throwingAgain stack) ((throwAgain : Cpp Unit) t) := by
  cases stack with
  | nil => exact absurd rfl entered
  | cons raised older =>
    cases objects with
    | nil => cases resumes.stacked
    | cons exception below =>
      rw [throwAgain_apply resumes.caught]
      exact .exception ⟨resumes.frame, resumes.callbacks, congrArg (· + 1) resumes.uncaught,
        resumes.settled, rfl, resumes.stacked⟩

/-- A handler is entered: what it caught is on top of the stack. -/
theorem Throws.entered {objects : List CppException}
    (throws : Throws s t raised exception older objects) :
    Resumes s (handlerEntry exception t) (raised :: older) (exception :: objects) where
  frame := throws.frame
  callbacks := throws.callbacks
  uncaught := by simp [handlerEntry, throws.uncaught]
  settled := throws.settled
  caught := congrArg (exception :: ·) throws.caught
  stacked := throws.stacked

end LayerEnding

/-- `e.rethrow()` at the end of a handler's statements: the record goes on as an error, and the
object stays behind without it. -/
theorem rethrow_agrees {s t u : Machine Backend} {edata : ErrorData} {mcxt : MemoryContext}
    {errorCxt : MemoryContext} {older newer : List Raised} {below above : List CppException}
    (throws : Throws s t (.pg edata) (.pg mcxt errorCxt) older below)
    (resumes : Resumes (handlerEntry (.pg mcxt errorCxt) t) u newer above) :
    Agrees s ⟨.error edata, newer ++ .gone :: older⟩ ((rethrow errorCxt : Cpp Unit) u) := by
  have onward := throws.entered.trans resumes
  have later : t.store.elog.nextContext ≤ u.store.elog.nextContext := resumes.frame.later
  have settled := throws.settled
  have entered := throws.stacked
  cases entered with
  | @cons between _ _ _ _ _ le carried rest =>
    have sinceThen : Settled t.store.elog between t.store.elog.nextContext :=
      fun context above => settled context (Nat.le_trans rest.le above)
    have before : Settled t.store.elog s.store.elog.nextContext between :=
      fun context above under => settled context above (Nat.lt_of_lt_of_le under le)
    obtain ⟨held, above', under, kept⟩ := carried.frame resumes.frame sinceThen (Nat.le_refl _)
    rw [rethrow_apply held, onward.frame.landing]
    have apart : ∀ low high : MemoryContext, errorCxt < low ∨ high ≤ errorCxt →
        u.store.elog.SameFrom { u.store.elog with
          resetCallbacks := errorCxt :: u.store.elog.resetCallbacks
          errordata := edata :: u.store.elog.errordata } low high := by
      intro low high out
      refine ⟨fun _ _ _ => rfl, fun context from_ until_ => ?_⟩
      have other : context ≠ errorCxt := by
        rintro rfl
        exact out.elim (Nat.not_lt.mpr from_) (Nat.not_le.mpr until_)
      simp [other]
    refine .error ⟨⟨onward.frame.handlers, onward.frame.later, ?_⟩, onward.callbacks,
      onward.uncaught, ⟨_, rfl⟩, onward.caught, ?_⟩
    · intro context old pending
      have ⟨same, still⟩ := onward.frame.records context old pending
      refine ⟨same, ?_⟩
      simp only [List.mem_cons, not_or]
      exact ⟨Nat.ne_of_lt (Nat.lt_of_lt_of_le old (Nat.le_trans rest.le above')), still⟩
    · refine (resumes.stacked.same (apart _ _ (.inl under))).append ?_
      refine .cons le ⟨.inr (List.mem_cons_self ..), above', under⟩ ?_
      exact (rest.frame resumes.frame before le).same (apart _ _ (.inr above'))

/-- The record of an exception is gone: nothing can be said of `e.rethrow()`. -/
theorem rethrow_gone {s t u : Machine Backend} {mcxt errorCxt : MemoryContext}
    {older newer : List Raised} {below above : List CppException}
    (throws : Throws s t .gone (.pg mcxt errorCxt) older below)
    (resumes : Resumes (handlerEntry (.pg mcxt errorCxt) t) u newer above) :
    (rethrow errorCxt : Cpp Unit) u = (.aborted, u) := by
  have settled := throws.settled
  have entered := throws.stacked
  cases entered with
  | cons le carried rest =>
    have sinceThen := fun context above => settled context (Nat.le_trans rest.le above)
    obtain ⟨deleted, from_, until_⟩ := carried.frame resumes.frame sinceThen (Nat.le_refl _)
    have still : errorCxt ∉ u.store.elog.resetCallbacks :=
      (resumes.frame.records errorCxt until_ (settled _ (Nat.le_trans rest.le from_) until_)).2
    have none := deleted.resolve_right still
    unfold rethrow
    simp only [Code.get_bind, none]
    rfl

theorem report_agrees {s : Machine Backend} (message : String) :
    Agrees s ⟨.error { reportData message with context := s.store.elog.errorContextStack }, []⟩
      (report message s) :=
  ereport_agrees (reportData message) s

/-- An `exception_guard` is left by a return or a Postgres error. What its handler caught stays
on the runtime's stack. -/
theorem exceptionGuard_agrees {func : Cpp Unit} {s : Machine Backend} {ending : LayerEnding}
    (agrees : Agrees s ending (func s)) :
    Agrees s (ending.asError s.store.elog.errorContextStack) (exceptionGuard func s) := by
  generalize run : func s = ended at agrees
  cases agrees with
  | finished resumes =>
    unfold exceptionGuard
    rw [catching_returned run]
    exact .finished resumes
  | error jumps =>
    unfold exceptionGuard
    rw [catching_landing run]
    exact .error jumps
  | undefined =>
    unfold exceptionGuard
    rw [catching_aborted run]
    exact .undefined
  | @exception t raised exception left objects throws =>
    rw [exceptionGuard_thrown run]
    have reported : ∀ message, Agrees s
        ⟨.error { reportData message with context := s.store.elog.errorContextStack }, raised :: left⟩
        (report message (handlerEntry exception t)) := by
      intro message
      have agrees := (report_agrees (s := handlerEntry exception t) message).after throws.entered
      rwa [throws.entered.callbacks] at agrees
    have carried := throws.stacked
    cases carried with
    | cons _ carried _ =>
      cases raised <;> cases exception <;> try exact carried.elim
      case pg.pg edata mcxt errorCxt => exact rethrow_agrees throws (.refl _)
      case gone.pg mcxt errorCxt =>
        have lost := rethrow_gone throws (.refl _)
        change Agrees s _ ((rethrow errorCxt : Cpp Unit) _)
        rw [lost]
        exact .undefined
      case std.std what got =>
        have same : got = what := carried
        subst same
        exact reported _
      case other.other => exact reported _

/-- A handler that was entered, from its statements on. -/
theorem handler_agrees {statements : Cpp Unit} {s t : Machine Backend} {raised : Raised}
    {exception : CppException} {older : List Raised} {below : List CppException} {two : LayerEnding}
    (handler : Handler) (throws : Throws s t raised exception older below)
    (agrees : Agrees (handlerEntry exception t) two (statements (handlerEntry exception t))) :
    Agrees s (handler.close raised two older)
      ((do
        beginCatch exception
        handlerBlock statements
        match handler, exception with
        | .swallow _, _ => endCatch
        | .resume _, _ => throwAgain
        | .toPostgres, .pg _ errorCxt => rethrow errorCxt
        | .toPostgres, _ => throwAgain : Cpp Unit) { t with uncaught := t.uncaught - 1 }) := by
  have begun : beginCatch exception { t with uncaught := t.uncaught - 1 } =
      (.returned (), handlerEntry exception t) := rfl
  rw [Code.bind_returned begun]
  generalize run : statements (handlerEntry exception t) = ended at agrees
  have onStack : ∀ newer : List Raised, newer ++ raised :: older ≠ [] := by simp
  cases agrees with
  | @error u edata newer above jumps =>
    have ended : handlerBlock statements (handlerEntry exception t) = _ := catching_landing run
    rw [bind_landing ended]
    have passed := throws.entered.jumps jumps
    rw [throws.entered.frame.landing]
    exact .error passed
  | @undefined u newer =>
    have ended : handlerBlock statements (handlerEntry exception t) = _ := catching_aborted run
    rw [Code.bind_aborted ended]
    exact .undefined
  | @exception u replacement thrown newer above throws' =>
    have replaced := replaced_agrees (throws.entered.throws throws') (onStack newer)
    have ended : handlerBlock statements (handlerEntry exception t) = _ := catching_thrown run
    rw [← ended] at replaced
    rw [bind_stopped replaced (Outcome.endingCatch_stops (by simp) _)]
    exact replaced
  | @finished u newer above resumes =>
    have ended : handlerBlock statements (handlerEntry exception t) = _ := catching_returned run
    rw [Code.bind_returned ended]
    have onward := throws.entered.trans resumes
    cases handler with
    | swallow clause => exact endCatch_agrees onward (onStack newer)
    | resume clause => exact throwAgain_agrees onward (onStack newer)
    | toPostgres =>
      have carried := throws.stacked
      cases carried with
      | cons _ carried _ =>
        cases raised <;> cases exception <;> try exact carried.elim
        case pg.pg edata mcxt errorCxt => exact rethrow_agrees throws resumes
        case gone.pg mcxt errorCxt =>
          dsimp only
          rw [rethrow_gone throws resumes]
          exact .undefined
        case std.std => exact throwAgain_agrees onward (onStack newer)
        case other.other => exact throwAgain_agrees onward (onStack newer)

/-- A try-block. Its handler's statements run where the exception was caught. -/
theorem tryCatch_agrees {body statements : Cpp Unit} {s : Machine Backend} {one two : LayerEnding}
    (handler : Handler) (agrees : Agrees s one (body s))
    (next : ∀ t, t.store.elog.errorContextStack = s.store.elog.errorContextStack →
      Agrees t two (statements t)) :
    Agrees s (handler.attempting one two) (tryCatch body handler statements s) := by
  unfold tryCatch
  generalize run : body s = ended at agrees
  cases agrees with
  | finished resumes =>
    rw [catching_returned run]
    exact .finished resumes
  | error jumps =>
    rw [catching_landing run]
    exact .error jumps
  | undefined =>
    rw [catching_aborted run]
    exact .undefined
  | @exception t raised exception left objects throws =>
    rw [catching_thrown run]
    have carried := throws.stacked
    cases carried with
    | cons le carried rest =>
      rw [carried.accepts handler.clause]
      unfold Handler.attempting
      dsimp only
      by_cases taken : handler.clause.takes raised = true
      · rw [if_pos taken, if_pos taken]
        exact handler_agrees handler throws (next _ throws.entered.callbacks)
      · rw [if_neg taken, if_neg taken]
        have uncaught : t.uncaught - 1 + 1 = t.uncaught := by
          rw [throws.uncaught]
          rfl
        exact .exception ⟨throws.frame, throws.callbacks, uncaught.trans throws.uncaught,
          throws.settled, throws.caught, throws.stacked⟩

/-- The handle of a call is out of the way of errors: it only works on `calls`. -/
theorem withCallHandle_agrees {fc : FunctionCallInfo} {body : Cpp Unit} {s : Machine Backend}
    {ending : LayerEnding} (agrees : Agrees (pushed fc s) ending (body (pushed fc s))) :
    Agrees s ending (withCallHandle fc body s) := by
  rw [withCallHandle_apply]
  generalize body (pushed fc s) = run at agrees
  cases agrees with
  | finished resumes =>
    exact .finished ⟨resumes.frame, resumes.callbacks, resumes.uncaught, resumes.settled,
      resumes.caught, resumes.stacked⟩
  | exception throws =>
    exact .exception ⟨throws.frame, throws.callbacks, throws.uncaught, throws.settled,
      throws.caught, throws.stacked⟩
  | undefined => exact .undefined
  | @error t edata left objects jumps =>
    have passed : Agrees s ⟨.error edata, left⟩ (s.store.elog.landing, t) :=
      .error ⟨jumps.frame, jumps.callbacks, jumps.uncaught, jumps.raised, jumps.caught, jumps.stacked⟩
    have same : (pushed fc s).store.elog = s.store.elog := rfl
    rw [same]
    unfold Elog.landing at passed ⊢
    generalize s.store.elog.exceptionStack = stack at passed ⊢
    cases stack <;> exact passed

/-- Every tree of layers ends the way its ending says, from every machine. -/
theorem Layer.run_agrees (layer : Layer) (s : Machine Backend) :
    Agrees s (layer.ending s.store.elog.errorContextStack) (layer.run s) := by
  induction layer generalizing s with
  | done => exact .step rfl rfl rfl
  | inquire =>
    change Agrees s _ (Cppgres.inquire s)
    rw [inquire_apply]
    exact .step rfl rfl rfl
  | switchTo context => exact .step rfl rfl rfl
  | ereport edata => exact ereport_agrees edata s
  | throwStd what => exact throwing_agrees s (show Carries _ _ _ (.std what) _ from rfl)
  | throwOther => exact throwing_agrees s (show Carries _ _ _ .other _ from trivial)
  | seq first second one two =>
    apply seq_agrees (one s)
    intro t below
    have agrees := two t
    rwa [below] at agrees
  | attempt body handler statements one two =>
    apply tryCatch_agrees handler (one s)
    intro t below
    have agrees := two t
    rwa [below] at agrees
  | guarded own body ih => exact guarded_agrees own (ih (guardedEntry own s))
  | callback body ih => exact exceptionGuard_agrees (ih s)
  | call fc checks body one two =>
    apply exceptionGuard_agrees
    apply seq_agrees (one s)
    intro t below
    have agrees := withCallHandle_agrees (two (pushed fc t))
    have below' : (pushed fc t).store.elog.errorContextStack =
      s.store.elog.errorContextStack := below
    rwa [below'] at agrees

/-! ## From the exit of a run to its ending and back -/

theorem Throws.accepts {s t : Machine Backend} {raised : Raised} {exception : CppException}
    {left : List Raised} {objects : List CppException}
    (throws : Throws s t raised exception left objects) (clause : CatchClause) :
    clause.accepts exception = clause.takes raised := by
  have stacked := throws.stacked
  cases stacked with
  | cons _ carried _ => exact carried.accepts clause

theorem Layer.returned {layer : Layer} {s t : Machine Backend}
    (run : layer.run s = (.returned (), t)) :
    ∃ left objects, layer.ending s.store.elog.errorContextStack = ⟨.finished, left⟩ ∧
      Resumes s t left objects := by
  have agrees := layer.run_agrees s
  rw [run] at agrees
  generalize ended : (Exit.returned (), t) = run at agrees
  generalize layer.ending s.store.elog.errorContextStack = ending at agrees
  cases agrees with
  | finished resumes =>
    cases ended
    exact ⟨_, _, rfl, resumes⟩
  | error jumps => exact absurd (congrArg Prod.fst ended).symm s.store.elog.landing_not_returned
  | exception throws => cases ended
  | undefined => cases ended

theorem Layer.thrown {layer : Layer} {s t : Machine Backend} {exception : CppException}
    (run : layer.run s = (.thrown exception, t)) :
    ∃ raised left objects,
      layer.ending s.store.elog.errorContextStack = ⟨.exception raised, left⟩ ∧
        Throws s t raised exception left objects := by
  have agrees := layer.run_agrees s
  rw [run] at agrees
  generalize ended : (Exit.thrown exception, t) = run at agrees
  generalize layer.ending s.store.elog.errorContextStack = ending at agrees
  cases agrees with
  | finished resumes => cases ended
  | error jumps => exact absurd (congrArg Prod.fst ended).symm s.store.elog.landing_not_thrown
  | exception throws =>
    cases ended
    exact ⟨_, _, _, rfl, throws⟩
  | undefined => cases ended

theorem Layer.run_finished {layer : Layer} {s : Machine Backend}
    (ended : (layer.ending s.store.elog.errorContextStack).outcome = .finished) :
    ∃ t left objects, layer.run s = (.returned (), t) ∧ Resumes s t left objects := by
  have agrees := layer.run_agrees s
  generalize layer.run s = run at agrees
  generalize layer.ending s.store.elog.errorContextStack = ending at agrees ended
  cases agrees with
  | finished resumes => exact ⟨_, _, _, rfl, resumes⟩
  | error jumps => cases ended
  | exception throws => cases ended
  | undefined => cases ended

theorem Layer.run_exception {layer : Layer} {s : Machine Backend} {raised : Raised}
    (ended : (layer.ending s.store.elog.errorContextStack).outcome = .exception raised) :
    ∃ t exception left objects, layer.run s = (.thrown exception, t) ∧
      Throws s t raised exception left objects := by
  have agrees := layer.run_agrees s
  generalize layer.run s = run at agrees
  generalize layer.ending s.store.elog.errorContextStack = ending at agrees ended
  cases agrees with
  | finished resumes => cases ended
  | error jumps => cases ended
  | exception throws =>
    cases ended
    exact ⟨_, _, _, _, rfl, throws⟩
  | undefined => cases ended

end Cppgres
