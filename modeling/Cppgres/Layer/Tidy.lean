import Cppgres.Layer.Transport

/-!
# When handlers end what they caught

`Layer.ending` differs from `Layer.outcome` where a handler ends, or throws again, an
exception that its own statements left on the runtime's stack. `Layer.tidy` excludes
exactly these handlers: a tree is tidy if and only if each layer that its run comes to
ends in the way that was raised in it.
-/
namespace Cppgres
open NonLocal

/-- The end of a handler, from the ending of its statements. What they left on top of the stack
is destroyed or thrown again in place of the caught exception: the one does no harm while the
record is there, the other while it is the same exception. -/
def Handler.harmless (handler : Handler) (raised : Raised) (statements : LayerEnding) : Bool :=
  match statements.left, statements.outcome, handler with
  | [], _, _ => true
  | top :: _, .finished, .swallow _ => top ≠ .gone
  | top :: _, .finished, .resume _ => top = raised
  | top :: _, .exception _, _ => top ≠ .gone
  | _ :: _, _, _ => true

/-- Every handler that is entered ends harmlessly. -/
def Layer.tidy : List ErrorContextCallback → Layer → Bool
  | callbacks, .seq first second =>
    first.tidy callbacks &&
      if (first.ending callbacks).outcome.isFinished then second.tidy callbacks else true
  | callbacks, .attempt body handler statements =>
    body.tidy callbacks &&
      match (body.ending callbacks).outcome with
      | .exception raised =>
        if handler.clause.takes raised then
          statements.tidy callbacks && handler.harmless raised (statements.ending callbacks)
        else true
      | _ => true
  | callbacks, .guarded own body => body.tidy (own ++ callbacks)
  | callbacks, .callback body => body.tidy callbacks
  | callbacks, .call _ checks body =>
    checks.tidy callbacks &&
      if (checks.ending callbacks).outcome.isFinished then body.tidy callbacks else true
  | _, .done => true
  | _, .inquire => true
  | _, .switchTo _ => true
  | _, .ereport _ => true
  | _, .throwStd _ => true
  | _, .throwOther => true

/-- No record was touched after it was gone. -/
def Outcome.sound : Outcome → Bool
  | .undefined => false
  | .exception .gone => false
  | _ => true

section Around
variable {handler : Handler} {raised : Raised}

theorem Handler.around_taken (taken : handler.clause.takes raised = true) (statements : Outcome) :
    handler.around (.exception raised) statements =
      match statements with
      | .finished => handler.conclude raised
      | replaced => replaced := if_pos taken

theorem Handler.around_passed (passed : ¬ handler.clause.takes raised = true)
    (statements : Outcome) : handler.around (.exception raised) statements = .exception raised :=
  if_neg passed

end Around

section Sound
variable {outcome second : Outcome}

theorem Outcome.sound_andThen (one : outcome.sound) (two : outcome = .finished → second.sound) :
    (outcome.andThen second).sound := by
  cases outcome with
  | finished => exact two rfl
  | error edata => rfl
  | exception raised => exact one
  | undefined => exact one

theorem Outcome.sound_asException (sound : outcome.sound) : outcome.asException.sound := by
  cases outcome <;> first | rfl | exact sound

theorem Outcome.sound_asError (sound : outcome.sound) (callbacks : List ErrorContextCallback) :
    (outcome.asError callbacks).sound := by
  cases outcome with
  | exception raised => cases raised <;> first | rfl | exact sound
  | finished => rfl
  | error edata => rfl
  | undefined => exact sound

theorem Handler.sound_around {handler : Handler} (one : outcome.sound) (two : second.sound) :
    (handler.around outcome second).sound := by
  cases outcome with
  | exception raised =>
    by_cases taken : handler.clause.takes raised = true
    · rw [Handler.around_taken taken]
      cases second with
      | finished => cases handler <;> cases raised <;> first | rfl | exact one
      | error edata => rfl
      | exception replacement => exact two
      | undefined => exact two
    · rw [Handler.around_passed taken]
      exact one
  | finished => rfl
  | error edata => rfl
  | undefined => exact one

end Sound

/-- Nothing that is raised has lost its record. -/
theorem Layer.outcome_sound (layer : Layer) (callbacks : List ErrorContextCallback) :
    (layer.outcome callbacks).sound := by
  induction layer generalizing callbacks with
  | done => rfl
  | inquire => rfl
  | switchTo context => rfl
  | ereport edata => rfl
  | throwStd what => rfl
  | throwOther => rfl
  | seq first second one two => exact Outcome.sound_andThen (one callbacks) fun _ => two callbacks
  | attempt body handler statements one two =>
    exact Handler.sound_around (one callbacks) (two callbacks)
  | guarded own body ih => exact Outcome.sound_asException (ih _)
  | callback body ih => exact Outcome.sound_asError (ih callbacks) callbacks
  | call fc checks body one two =>
    exact Outcome.sound_asError
      (Outcome.sound_andThen (one callbacks) fun _ => two callbacks) callbacks

/-! ## What a handler should make of an exception, and what it makes of it -/

theorem LayerEnding.outcome_asError (ending : LayerEnding) (callbacks : List ErrorContextCallback) :
    (ending.asError callbacks).outcome = ending.outcome.asError callbacks := by
  obtain ⟨outcome, left⟩ := ending
  cases outcome <;> rfl

theorem LayerEnding.outcome_andThen {first second : LayerEnding} {one two : Outcome}
    (same : first.outcome = one)
    (same' : first.outcome = .finished → second.outcome = two) :
    (first.andThen second).outcome = one.andThen two := by
  subst same
  change first.outcome.andThen second.outcome = _
  cases ended : first.outcome with
  | finished => exact same' ended
  | error edata => rfl
  | exception raised => rfl
  | undefined => rfl

/-- The end of a handler is what it should be just when it is harmless. -/
theorem Handler.close_outcome_iff {handler : Handler} {raised : Raised} {statements : LayerEnding}
    (taken : handler.clause.takes raised = true) (live : raised ≠ .gone) (older : List Raised) :
    (handler.close raised statements older).outcome =
        handler.around (.exception raised) statements.outcome ↔
      handler.harmless raised statements = true := by
  obtain ⟨outcome, left⟩ := statements
  rw [Handler.around_taken taken]
  unfold Handler.harmless Handler.close
  cases outcome with
  | error edata => cases left <;> simp
  | undefined => cases left <;> simp
  | exception replacement =>
    cases left with
    | nil => cases raised <;> simp_all [Outcome.endingCatch]
    | cons top rest => cases top <;> simp [Outcome.endingCatch]
  | finished =>
    cases left with
    | nil =>
      cases handler <;> cases raised <;>
        simp_all [Outcome.endingCatch, throwingAgain, Handler.conclude, CatchClause.takes,
          Handler.clause]
    | cons top rest =>
      cases handler with
      | swallow clause =>
        cases top <;> cases raised <;> simp_all [Outcome.endingCatch, Handler.conclude]
      | resume clause => simp [throwingAgain, Handler.conclude]
      | toPostgres =>
        cases raised <;> simp_all [Handler.conclude, CatchClause.takes, Handler.clause]

/-- In a tidy tree everything ends in the way that was raised in it. -/
theorem Layer.ending_of_tidy {layer : Layer} {callbacks : List ErrorContextCallback}
    (tidy : layer.tidy callbacks = true) :
    (layer.ending callbacks).outcome = layer.outcome callbacks := by
  induction layer generalizing callbacks with
  | done => rfl
  | inquire => rfl
  | switchTo context => rfl
  | ereport edata => rfl
  | throwStd what => rfl
  | throwOther => rfl
  | guarded own body ih => exact congrArg Outcome.asException (ih tidy)
  | callback body ih =>
    exact (LayerEnding.outcome_asError _ _).trans (congrArg (Outcome.asError callbacks) (ih tidy))
  | seq first second one two =>
    have ⟨tidy₁, tidy₂⟩ := Bool.and_eq_true_iff.mp tidy
    exact LayerEnding.outcome_andThen (one tidy₁) fun finished => two (by rwa [finished] at tidy₂)
  | call fc checks body one two =>
    have ⟨tidy₁, tidy₂⟩ := Bool.and_eq_true_iff.mp tidy
    refine (LayerEnding.outcome_asError _ _).trans (congrArg (Outcome.asError callbacks) ?_)
    exact LayerEnding.outcome_andThen (one tidy₁) fun finished => two (by rwa [finished] at tidy₂)
  | attempt body handler statements one two =>
    unfold Layer.tidy at tidy
    have ⟨tidy₁, tidy₂⟩ := Bool.and_eq_true_iff.mp tidy
    have same := one tidy₁
    change (handler.attempting (body.ending callbacks) (statements.ending callbacks)).outcome =
      handler.around (body.outcome callbacks) (statements.outcome callbacks)
    have sound := body.outcome_sound callbacks
    unfold Handler.attempting
    rw [same] at tidy₂ ⊢
    cases ended : body.outcome callbacks with
    | finished => rw [ended] at same; exact same
    | error edata => rw [ended] at same; exact same
    | undefined => rw [ended] at same; exact same
    | exception raised =>
      rw [ended] at tidy₂ sound same
      dsimp only at tidy₂ ⊢
      by_cases taken : handler.clause.takes raised = true
      · rw [if_pos taken] at tidy₂ ⊢
        have ⟨tidy₃, harmless⟩ := Bool.and_eq_true_iff.mp tidy₂
        have live : raised ≠ .gone := by
          rintro rfl
          cases sound
        rw [← two tidy₃]
        exact (Handler.close_outcome_iff taken live _).mpr harmless
      · rw [if_neg taken, Handler.around_passed taken]
        exact same

/-! ## The layers that a run comes to -/

/-- `layer.Comes s part t`: the run of `layer` from `s` comes to `part`, in the machine `t`. -/
inductive Layer.Comes : Layer → Machine Backend → Layer → Machine Backend → Prop where
  | here {layer : Layer} {s : Machine Backend} : Layer.Comes layer s layer s
  | first {one two part : Layer} {s t : Machine Backend} :
      Layer.Comes one s part t → Layer.Comes (.seq one two) s part t
  | second {one two part : Layer} {s t u : Machine Backend} :
      one.run s = (.returned (), u) → Layer.Comes two u part t →
      Layer.Comes (.seq one two) s part t
  | body {body statements part : Layer} {handler : Handler} {s t : Machine Backend} :
      Layer.Comes body s part t → Layer.Comes (.attempt body handler statements) s part t
  | statements {body statements part : Layer} {handler : Handler} {exception : CppException}
      {s t u : Machine Backend} :
      body.run s = (.thrown exception, u) → handler.clause.accepts exception = true →
      Layer.Comes statements (handlerEntry exception u) part t →
      Layer.Comes (.attempt body handler statements) s part t
  | guarded {own : List ErrorContextCallback} {body part : Layer} {s t : Machine Backend} :
      Layer.Comes body (guardedEntry own s) part t → Layer.Comes (.guarded own body) s part t
  | callback {body part : Layer} {s t : Machine Backend} :
      Layer.Comes body s part t → Layer.Comes (.callback body) s part t
  | checks {fc : FunctionCallInfo} {checks body part : Layer} {s t : Machine Backend} :
      Layer.Comes checks s part t → Layer.Comes (.call fc checks body) s part t
  | call {fc : FunctionCallInfo} {checks body part : Layer} {s t u : Machine Backend} :
      checks.run s = (.returned (), u) → Layer.Comes body (pushed fc u) part t →
      Layer.Comes (.call fc checks body) s part t

/-- What can be seen of an exception: its type, and its message or record. -/
def Shows (now : Elog) : Raised → CppException → Prop
  | .pg edata, .pg _ errorCxt => now.records errorCxt = some edata
  | .gone, .pg _ errorCxt => now.records errorCxt = none
  | .std what, .std got => got = what
  | .other, .other => True
  | _, _ => False

/-- A run from `s` ended with what was raised: an error is on its way to the innermost buffer
with its record on top of the error stack, an exception shows what it should. -/
def EndsWith (s : Machine Backend) : Outcome → Run → Prop
  | .finished, run => run.1 = .returned ()
  | .error edata, run =>
    run.1 = s.store.elog.landing ∧ ∃ older, run.2.store.elog.errordata = edata :: older
  | .exception raised, run =>
    ∃ exception, run.1 = .thrown exception ∧ Shows run.2.store.elog raised exception
  | .undefined, run => run.1 = .aborted

theorem Throws.shows {s t : Machine Backend} {raised : Raised} {exception : CppException}
    {left : List Raised} {objects : List CppException}
    (throws : Throws s t raised exception left objects) :
    Shows t.store.elog raised exception := by
  have settled := throws.settled
  have stacked := throws.stacked
  cases stacked with
  | cons le carried rest =>
    cases raised <;> cases exception <;> try exact carried
    case pg.pg => exact carried.1
    case gone.pg mcxt errorCxt =>
      have kept := settled _ (Nat.le_trans rest.le carried.2.1) carried.2.2
      exact carried.1.resolve_right kept

theorem Agrees.endsWith {s : Machine Backend} {ending : LayerEnding} {run : Run}
    (agrees : Agrees s ending run) : EndsWith s ending.outcome run := by
  cases agrees with
  | finished resumes => exact rfl
  | error jumps => exact ⟨rfl, jumps.raised⟩
  | exception throws => exact ⟨_, rfl, throws.shows⟩
  | undefined => exact rfl

theorem Shows.unique {now : Elog} {one two : Raised} {exception : CppException}
    (first : Shows now one exception) (second : Shows now two exception) : one = two := by
  cases exception <;> cases one <;> cases two <;> simp_all [Shows]

/-- With a handler in place, a run ends in one way only. -/
theorem EndsWith.unique {s : Machine Backend} {one two : Outcome} {run : Run}
    (handler : s.store.elog.exceptionStack.isSome) (first : EndsWith s one run)
    (second : EndsWith s two run) : one = two := by
  obtain ⟨exit, t⟩ := run
  obtain ⟨buffer, stack⟩ := Option.isSome_iff_exists.mp handler
  have landing : (s.store.elog.landing : Exit CppException SigjmpBuf Unit) = .jumped buffer := by
    unfold Elog.landing
    rw [stack]
  cases exit with
  | returned value => cases one <;> cases two <;> simp_all [EndsWith]
  | aborted => cases one <;> cases two <;> simp_all [EndsWith]
  | thrown exception =>
    cases one <;> cases two <;> simp only [EndsWith, landing, reduceCtorEq, false_and] at first second
    obtain ⟨_, same, shown⟩ := first
    obtain ⟨_, same', shown'⟩ := second
    cases same
    cases same'
    rw [shown.unique shown']
  | jumped target =>
    cases one <;> cases two <;>
      simp only [EndsWith, landing, reduceCtorEq, false_and, exists_false] at first second
    obtain ⟨_, older, top⟩ := first
    obtain ⟨_, older', top'⟩ := second
    rw [top] at top'
    cases top'
    rfl

/-- The handler of the guard around it is in place wherever a run comes to. -/
theorem Layer.Comes.handler {layer part : Layer} {s t : Machine Backend}
    (comes : layer.Comes s part t) (handler : s.store.elog.exceptionStack.isSome) :
    t.store.elog.exceptionStack.isSome := by
  induction comes with
  | here => exact handler
  | first _ ih => exact ih handler
  | second run _ ih =>
    obtain ⟨_, _, _, resumes⟩ := Layer.returned run
    exact ih (by rwa [resumes.frame.handlers])
  | body _ ih => exact ih handler
  | statements run _ _ ih =>
    obtain ⟨_, _, _, _, throws⟩ := Layer.thrown run
    exact ih (by rwa [throws.entered.frame.handlers])
  | guarded _ ih => exact ih rfl
  | callback _ ih => exact ih handler
  | checks _ ih => exact ih handler
  | call run _ ih =>
    obtain ⟨_, _, _, resumes⟩ := Layer.returned run
    exact ih (by rwa [pushed_elog, resumes.frame.handlers])

/-- The run of the layer ends with what was raised, and so does that of every layer it comes to. -/
def Layer.Transports (layer : Layer) (s : Machine Backend) : Prop :=
  ∀ part t, layer.Comes s part t →
    EndsWith t (part.outcome t.store.elog.errorContextStack) (part.run t)

theorem Layer.comes_tidy {layer part : Layer} {s t : Machine Backend}
    (comes : layer.Comes s part t) (tidy : layer.tidy s.store.elog.errorContextStack = true) :
    part.tidy t.store.elog.errorContextStack = true := by
  induction comes with
  | here => exact tidy
  | first _ ih => exact ih (Bool.and_eq_true_iff.mp tidy).1
  | second run _ ih =>
    obtain ⟨_, _, ended, resumes⟩ := Layer.returned run
    have after := (Bool.and_eq_true_iff.mp tidy).2
    rw [ended] at after
    exact ih (by rwa [resumes.callbacks])
  | body _ ih => exact ih (Bool.and_eq_true_iff.mp tidy).1
  | statements run taken _ ih =>
    obtain ⟨raised, _, _, ended, throws⟩ := Layer.thrown run
    have after := (Bool.and_eq_true_iff.mp tidy).2
    rw [throws.accepts] at taken
    rw [ended] at after
    dsimp only at after
    rw [if_pos taken] at after
    exact ih (by
      rw [throws.entered.callbacks]
      exact (Bool.and_eq_true_iff.mp after).1)
  | guarded _ ih => exact ih tidy
  | callback _ ih => exact ih tidy
  | checks _ ih => exact ih (Bool.and_eq_true_iff.mp tidy).1
  | call run _ ih =>
    obtain ⟨_, _, ended, resumes⟩ := Layer.returned run
    have after := (Bool.and_eq_true_iff.mp tidy).2
    rw [ended] at after
    exact ih (by rwa [pushed_elog, resumes.callbacks])

theorem Layer.tidy_transports {layer : Layer} {s : Machine Backend}
    (tidy : layer.tidy s.store.elog.errorContextStack = true) : layer.Transports s := by
  intro part t comes
  rw [← Layer.ending_of_tidy (Layer.comes_tidy comes tidy)]
  exact (part.run_agrees t).endsWith

namespace Layer.Transports

/-- A layer that transports has the outcome it should. -/
theorem outcome {layer : Layer} {s : Machine Backend} (transports : layer.Transports s)
    (handler : s.store.elog.exceptionStack.isSome) :
    (layer.ending s.store.elog.errorContextStack).outcome =
      layer.outcome s.store.elog.errorContextStack :=
  EndsWith.unique handler (layer.run_agrees s).endsWith (transports layer s .here)

theorem andThen {one two : Layer} {s : Machine Backend}
    (tidy₁ : one.tidy s.store.elog.errorContextStack = true)
    (tidy₂ : ∀ t left objects, one.run s = (.returned (), t) → Resumes s t left objects →
      two.tidy s.store.elog.errorContextStack = true) :
    (one.tidy s.store.elog.errorContextStack &&
      if (one.ending s.store.elog.errorContextStack).outcome.isFinished then
        two.tidy s.store.elog.errorContextStack
      else true) = true := by
  rw [tidy₁, Bool.true_and]
  split
  next finished =>
    have ended : (one.ending s.store.elog.errorContextStack).outcome = .finished := by
      revert finished
      cases (one.ending s.store.elog.errorContextStack).outcome <;> simp [Outcome.isFinished]
    obtain ⟨t, left, objects, run, resumes⟩ := Layer.run_finished ended
    exact tidy₂ t left objects run resumes
  next => rfl

theorem tidy {layer : Layer} {s : Machine Backend} (transports : layer.Transports s)
    (handler : s.store.elog.exceptionStack.isSome) :
    layer.tidy s.store.elog.errorContextStack = true := by
  induction layer generalizing s with
  | done => rfl
  | inquire => rfl
  | switchTo context => rfl
  | ereport edata => rfl
  | throwStd what => rfl
  | throwOther => rfl
  | callback body ih => exact ih (fun part t comes => transports part t (.callback comes)) handler
  | guarded own body ih =>
    exact ih (s := guardedEntry own s) (fun part t comes => transports part t (.guarded comes)) rfl
  | seq first second one two =>
    apply andThen (one (fun part t comes => transports part t (.first comes)) handler)
    intro u left objects run resumes
    have after := two (s := u) (fun part t comes => transports part t (.second run comes))
      (by rwa [resumes.frame.handlers])
    rwa [resumes.callbacks] at after
  | call fc checks body one two =>
    apply andThen (one (fun part t comes => transports part t (.checks comes)) handler)
    intro u left objects run resumes
    have after := two (s := pushed fc u) (fun part t comes => transports part t (.call run comes))
      (by rwa [pushed_elog, resumes.frame.handlers])
    rwa [pushed_elog, resumes.callbacks] at after
  | attempt body handler' statements one two =>
    have tidy₁ := one (fun part t comes => transports part t (.body comes)) handler
    unfold Layer.tidy
    rw [tidy₁, Bool.true_and]
    have same := transports.outcome handler
    have sound := body.outcome_sound s.store.elog.errorContextStack
    rw [← Layer.ending_of_tidy tidy₁] at sound
    cases ended : (body.ending s.store.elog.errorContextStack).outcome with
    | finished => rfl
    | error edata => rfl
    | undefined => rfl
    | exception raised =>
      rw [ended] at sound
      dsimp only
      split
      next taken =>
        obtain ⟨u, exception, left, objects, run, throws⟩ := Layer.run_exception ended
        have after := two (s := handlerEntry exception u)
          (fun part t comes => transports part t
            (.statements run ((throws.accepts _).trans taken) comes))
          (by rwa [throws.entered.frame.handlers])
        rw [throws.entered.callbacks] at after
        rw [after, Bool.true_and]
        have live : raised ≠ .gone := by
          rintro rfl
          cases sound
        refine (Handler.close_outcome_iff taken live
          (body.ending s.store.elog.errorContextStack).left).mp ?_
        rw [Layer.ending_of_tidy after, ← ended, Layer.ending_of_tidy tidy₁]
        refine Eq.trans ?_ same
        change _ = (handler'.attempting _ _).outcome
        unfold Handler.attempting
        rw [ended]
        dsimp only
        rw [if_pos taken]
      next => rfl

end Layer.Transports

/-- A tree of layers under a guard is tidy if and only if everything in it ends in the way that
was raised. -/
theorem Layer.transports_iff_tidy {layer : Layer} {s : Machine Backend}
    (handler : s.store.elog.exceptionStack.isSome) :
    layer.Transports s ↔ layer.tidy s.store.elog.errorContextStack = true :=
  ⟨fun transports => transports.tidy handler, Layer.tidy_transports⟩

end Cppgres
