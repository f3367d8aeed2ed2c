import Cppgres.Layer.Tidy

/-!
# Error transport across any depth

What the refinement says about every guard of a tidy tree: it restores both stacks, turns a
Postgres error below it into one `pg_exception`, and sees the record that was raised,
however many `exception_guard`s and rethrows lie in between. In a tree that is not tidy
some handler throws again what another one caught.
-/
namespace Cppgres
open NonLocal

/-- An outcome that brings the record `edata`, as an error or inside a `pg_exception`. -/
def Outcome.Brings (edata : ErrorData) (outcome : Outcome) : Prop :=
  outcome = .error edata ∨ outcome = .exception (.pg edata)

/-- `Surrounds origin low callbacks layer`: the layer contains `origin` at a place that is
reached, below the callbacks `low`, and nothing around `origin` keeps or replaces an error
of it. Everything else about the layers in between is arbitrary. -/
inductive Surrounds (origin : Layer) (low : List ErrorContextCallback) :
    List ErrorContextCallback → Layer → Prop where
  | here : Surrounds origin low low origin
  | first {callbacks : List ErrorContextCallback} {layer rest : Layer} :
      Surrounds origin low callbacks layer → Surrounds origin low callbacks (.seq layer rest)
  | second {callbacks : List ErrorContextCallback} {before layer : Layer} :
      before.outcome callbacks = .finished → Surrounds origin low callbacks layer →
      Surrounds origin low callbacks (.seq before layer)
  | attempt {callbacks : List ErrorContextCallback} {layer statements : Layer} {handler : Handler} :
      statements.outcome callbacks = .finished →
      handler.around (layer.outcome callbacks) .finished ≠ .finished →
      Surrounds origin low callbacks layer →
      Surrounds origin low callbacks (.attempt layer handler statements)
  | guarded {callbacks own : List ErrorContextCallback} {layer : Layer} :
      Surrounds origin low (own ++ callbacks) layer →
      Surrounds origin low callbacks (.guarded own layer)
  | callback {callbacks : List ErrorContextCallback} {layer : Layer} :
      Surrounds origin low callbacks layer → Surrounds origin low callbacks (.callback layer)
  | checks {callbacks : List ErrorContextCallback} {fc : FunctionCallInfo} {layer body : Layer} :
      Surrounds origin low callbacks layer → Surrounds origin low callbacks (.call fc layer body)
  | call {callbacks : List ErrorContextCallback} {fc : FunctionCallInfo} {checks layer : Layer} :
      checks.outcome callbacks = .finished → Surrounds origin low callbacks layer →
      Surrounds origin low callbacks (.call fc checks layer)

namespace Outcome.Brings
variable {edata : ErrorData} {outcome : Outcome}

theorem andThen (brings : outcome.Brings edata) (second : Outcome) :
    (outcome.andThen second).Brings edata := by
  rcases brings with rfl | rfl
  · exact .inl rfl
  · exact .inr rfl

theorem asException (brings : outcome.Brings edata) :
    outcome.asException = .exception (.pg edata) := by
  rcases brings with rfl | rfl <;> rfl

theorem asError (brings : outcome.Brings edata) (callbacks : List ErrorContextCallback) :
    outcome.asError callbacks = .error edata := by
  rcases brings with rfl | rfl <;> rfl

theorem around (brings : outcome.Brings edata) {handler : Handler}
    (kept : handler.around outcome .finished ≠ .finished) :
    (handler.around outcome .finished).Brings edata := by
  rcases brings with rfl | rfl
  · exact .inl rfl
  · unfold Handler.around at kept ⊢
    by_cases taken : handler.clause.takes (.pg edata) = true
    · simp only [if_pos taken] at kept ⊢
      cases handler with
      | swallow clause => exact absurd rfl kept
      | resume clause => exact .inr rfl
      | toPostgres => exact .inl rfl
    · simp only [if_neg taken] at kept ⊢
      exact .inr rfl

end Outcome.Brings

/-- The record of an error is the same after any number of layers. -/
theorem Surrounds.brings {origin layer : Layer} {low callbacks : List ErrorContextCallback}
    {edata : ErrorData} (surrounds : Surrounds origin low callbacks layer)
    (brings : (origin.outcome low).Brings edata) : (layer.outcome callbacks).Brings edata := by
  induction surrounds with
  | here => exact brings
  | first _ ih => exact ih.andThen _
  | second finished _ ih =>
    unfold Layer.outcome
    rw [finished]
    exact ih
  | attempt finished kept _ ih =>
    unfold Layer.outcome
    rw [finished]
    exact ih.around kept
  | guarded _ ih => exact .inr ih.asException
  | callback _ ih => exact .inl (ih.asError _)
  | checks _ ih => exact .inl ((ih.andThen _).asError _)
  | call finished _ ih =>
    unfold Layer.outcome
    rw [finished]
    exact .inl (ih.asError _)

/-- What becomes of a `std::exception`: itself, or an error that names it once. -/
def Outcome.Names (what : String) (outcome : Outcome) : Prop :=
  outcome = .exception (.std what) ∨
    ∃ edata, outcome.Brings edata ∧ edata.message = "exception: " ++ what

namespace Outcome.Names
variable {what : String} {outcome : Outcome}

theorem andThen (names : outcome.Names what) (second : Outcome) :
    (outcome.andThen second).Names what := by
  rcases names with rfl | ⟨edata, brings, message⟩
  · exact .inl rfl
  · exact .inr ⟨edata, brings.andThen second, message⟩

theorem asException (names : outcome.Names what) : outcome.asException.Names what := by
  rcases names with rfl | ⟨edata, brings, message⟩
  · exact .inl rfl
  · exact .inr ⟨edata, .inr brings.asException, message⟩

/-- The prefix is added where the exception becomes an error, and only there. -/
theorem asError (names : outcome.Names what) (callbacks : List ErrorContextCallback) :
    (outcome.asError callbacks).Names what := by
  rcases names with rfl | ⟨edata, brings, message⟩
  · exact .inr ⟨_, .inl rfl, rfl⟩
  · exact .inr ⟨edata, .inl (brings.asError callbacks), message⟩

theorem around (names : outcome.Names what) {handler : Handler}
    (kept : handler.around outcome .finished ≠ .finished) :
    (handler.around outcome .finished).Names what := by
  rcases names with rfl | ⟨edata, brings, message⟩
  · left
    unfold Handler.around at kept ⊢
    by_cases taken : handler.clause.takes (.std what) = true
    · simp only [if_pos taken] at kept ⊢
      cases handler with
      | swallow clause => exact absurd rfl kept
      | resume clause => rfl
      | toPostgres => rfl
    · simp only [if_neg taken] at kept ⊢
  · exact .inr ⟨edata, brings.around kept, message⟩

end Outcome.Names

theorem Surrounds.names {origin layer : Layer} {low callbacks : List ErrorContextCallback}
    {what : String} (surrounds : Surrounds origin low callbacks layer)
    (names : (origin.outcome low).Names what) : (layer.outcome callbacks).Names what := by
  induction surrounds with
  | here => exact names
  | first _ ih => exact ih.andThen _
  | second finished _ ih =>
    unfold Layer.outcome
    rw [finished]
    exact ih
  | attempt finished kept _ ih =>
    unfold Layer.outcome
    rw [finished]
    exact ih.around kept
  | guarded _ ih => exact ih.asException
  | callback _ ih => exact ih.asError _
  | checks _ ih => exact (ih.andThen _).asError _
  | call finished _ ih =>
    unfold Layer.outcome
    rw [finished]
    exact ih.asError _

/-- The three laws of error transport, at a guard around `layer` that is entered in `s`. -/
structure GuardLaws (own : List ErrorContextCallback) (layer : Layer) (s : Machine Backend) :
    Prop where
  /-- (1) whatever happened below, both stacks are those of the entry -/
  restored : ((Layer.guarded own layer).run s).2.store.elog.exceptionStack =
        s.store.elog.exceptionStack ∧
      ((Layer.guarded own layer).run s).2.store.elog.errorContextStack =
        s.store.elog.errorContextStack
  /-- (2) a Postgres error does not pass, it becomes one `pg_exception` -/
  surfaces : (∀ buffer, ((Layer.guarded own layer).run s).1 ≠ .jumped buffer) ∧
    ∀ edata, layer.outcome (own ++ s.store.elog.errorContextStack) = .error edata →
      ∃ errorCxt t, (Layer.guarded own layer).run s =
          (.thrown (.pg s.store.session.currentMemoryContext errorCxt), t) ∧
        t.store.elog.records errorCxt = some edata ∧
        t.store.session.currentMemoryContext = s.store.session.currentMemoryContext ∧
        t.uncaught = s.uncaught + 1
  /-- (3) the record is the one that was raised -/
  unchanged : ∀ origin low edata, Surrounds origin low (own ++ s.store.elog.errorContextStack) layer →
    (origin.outcome low).Brings edata →
      ∃ mcxt errorCxt t, (Layer.guarded own layer).run s = (.thrown (.pg mcxt errorCxt), t) ∧
        t.store.elog.records errorCxt = some edata
  /-- (3) a `std::exception` arrives as itself or as an error that names it once -/
  named : ∀ origin low what, Surrounds origin low (own ++ s.store.elog.errorContextStack) layer →
    origin.outcome low = .exception (.std what) →
      ((Layer.guarded own layer).run s).1 = .thrown (.std what) ∨
      ∃ mcxt errorCxt edata t, (Layer.guarded own layer).run s = (.thrown (.pg mcxt errorCxt), t) ∧
        t.store.elog.records errorCxt = some edata ∧ edata.message = "exception: " ++ what

/-- A Postgres error that reaches a guard, with the machine the guard's frame leaves. -/
theorem guarded_caught {own : List ErrorContextCallback} {layer : Layer} {s : Machine Backend}
    {edata : ErrorData}
    (error : (layer.ending (own ++ s.store.elog.errorContextStack)).outcome = .error edata) :
    ∃ t left objects, Jumps (guardedEntry own s) t edata left objects ∧
      (Layer.guarded own layer).run s =
        (.thrown (.pg s.store.session.currentMemoryContext t.store.elog.freshContext),
          ffiGuardCaught s t edata) := by
  have agrees := layer.run_agrees (guardedEntry own s)
  generalize run : layer.run (guardedEntry own s) = ended at agrees
  generalize entry : layer.ending (guardedEntry own s).store.elog.errorContextStack = ending
    at agrees
  have same : ending.outcome = .error edata := entry ▸ error
  cases agrees with
  | finished resumes => cases same
  | exception throws => cases same
  | undefined => cases same
  | @error t _ left objects jumps =>
    cases same
    obtain ⟨older, raised⟩ := jumps.raised
    have passed : withErrorContext own layer.run (ffiGuardEntry s) =
        (.jumped s.store.elog.nextBuffer, t) := by
      have unfolded : withErrorContext own layer.run (ffiGuardEntry s) =
        (do layer.run; modifyElog fun e => { e with
          errorContextStack := s.store.elog.errorContextStack }) (guardedEntry own s) := rfl
      rw [unfolded, bind_landing run]
      rfl
    exact ⟨t, left, objects, jumps, ffiGuard_jumped passed raised⟩

section Guard
variable {own : List ErrorContextCallback} {layer : Layer} {s : Machine Backend}

/-- A guard is left by a return or an exception, with both stacks restored, unless what happened
below is undefined. -/
theorem guarded_left {outcome : Outcome} (sound : outcome.sound)
    (ended : (layer.ending (own ++ s.store.elog.errorContextStack)).outcome = outcome) :
    Frame s.store.elog ((Layer.guarded own layer).run s).2.store.elog ∧
      ((Layer.guarded own layer).run s).2.store.elog.errorContextStack =
        s.store.elog.errorContextStack ∧
      ∀ buffer, ((Layer.guarded own layer).run s).1 ≠ .jumped buffer := by
  have agrees : Agrees s (layer.ending (own ++ s.store.elog.errorContextStack)).asException
    ((Layer.guarded own layer).run s) := (Layer.guarded own layer).run_agrees s
  generalize (Layer.guarded own layer).run s = run at agrees ⊢
  generalize layer.ending (own ++ s.store.elog.errorContextStack) = ending at agrees ended
  obtain ⟨outcome', left⟩ := ending
  have ended : outcome' = outcome := ended
  subst ended
  cases outcome' with
  | undefined => cases sound
  | finished =>
    cases agrees with
    | finished resumes => exact ⟨resumes.frame, resumes.callbacks, fun _ => by simp⟩
  | error edata =>
    cases agrees with
    | exception throws => exact ⟨throws.frame, throws.callbacks, fun _ => by simp⟩
  | exception raised =>
    cases agrees with
    | exception throws => exact ⟨throws.frame, throws.callbacks, fun _ => by simp⟩

theorem guarded_endsWith
    (same : (layer.ending (own ++ s.store.elog.errorContextStack)).outcome =
      layer.outcome (own ++ s.store.elog.errorContextStack)) :
    EndsWith s (layer.outcome (own ++ s.store.elog.errorContextStack)).asException
      ((Layer.guarded own layer).run s) := by
  rw [← same]
  exact ((Layer.guarded own layer).run_agrees s).endsWith

/-- An outcome that brings an error leaves the guard as a `pg_exception` with that error. -/
theorem EndsWith.thrown_pg {outcome : Outcome} {run : Run} {edata : ErrorData}
    (ends : EndsWith s outcome.asException run) (brings : outcome.Brings edata) :
    ∃ mcxt errorCxt t, run = (.thrown (.pg mcxt errorCxt), t) ∧
      t.store.elog.records errorCxt = some edata := by
  rw [brings.asException] at ends
  obtain ⟨exit, t⟩ := run
  obtain ⟨exception, thrown, shown⟩ := ends
  cases thrown
  cases exception with
  | pg mcxt errorCxt => exact ⟨mcxt, errorCxt, t, rfl, shown⟩
  | std what => exact shown.elim
  | other => exact shown.elim

/-- A `std::exception` passes it unchanged. -/
theorem EndsWith.thrown_std {run : Run} {what : String}
    (ends : EndsWith s (Outcome.exception (.std what)).asException run) :
    run.1 = .thrown (.std what) := by
  obtain ⟨exception, thrown, shown⟩ := ends
  cases exception with
  | pg mcxt errorCxt => exact shown.elim
  | std got =>
    have same : got = what := shown
    rw [thrown, same]
  | other => exact shown.elim

/-- Below a guard that ends with what was raised the three laws hold. -/
theorem guarded_laws
    (same : (layer.ending (own ++ s.store.elog.errorContextStack)).outcome =
      layer.outcome (own ++ s.store.elog.errorContextStack)) : GuardLaws own layer s := by
  have ⟨frame, callbacks, passed⟩ := guarded_left (layer.outcome_sound _) same
  have ends := guarded_endsWith same
  refine ⟨⟨frame.handlers, callbacks⟩, ⟨passed, ?_⟩, ?_, ?_⟩
  · intro edata error
    obtain ⟨t, left, objects, jumps, run⟩ := guarded_caught (same.trans error)
    exact ⟨_, _, run, ffiGuardCaught_record s t edata, rfl, congrArg (· + 1) jumps.uncaught⟩
  · intro origin low edata surrounds brings
    exact ends.thrown_pg (surrounds.brings brings)
  · intro origin low what surrounds raised
    rcases surrounds.names (.inl raised) with std | ⟨edata, brings, message⟩
    · rw [std] at ends
      exact .inl ends.thrown_std
    · obtain ⟨mcxt, errorCxt, t, run, record⟩ := ends.thrown_pg brings
      exact .inr ⟨mcxt, errorCxt, edata, t, run, record, message⟩

end Guard

/-- For every tree of layers under a guard: everything in it ends in the way that was raised, and
every guard of it that is entered obeys the three laws, if and only if every handler ends
harmlessly. -/
theorem error_transport_iff (own : List ErrorContextCallback) (layer : Layer)
    (s : Machine Backend) :
    ((Layer.guarded own layer).Transports s ∧
      ∀ callbacks body t, (Layer.guarded own layer).Comes s (.guarded callbacks body) t →
        GuardLaws callbacks body t) ↔
    (Layer.guarded own layer).tidy s.store.elog.errorContextStack = true := by
  constructor
  · intro ⟨transports, _⟩
    have below : layer.Transports (guardedEntry own s) :=
      fun part t comes => transports part t (.guarded comes)
    exact below.tidy rfl
  · intro tidy
    refine ⟨Layer.tidy_transports tidy, fun callbacks body t comes => ?_⟩
    exact guarded_laws (Layer.ending_of_tidy (Layer.comes_tidy comes tidy))

/-- An error raised below two guards, with a callback between them that catches it, cleans up and
hands it on. -/
def carriedError : Layer :=
  .callback
    (.attempt (.guarded ["inner"] (.ereport (reportData "first"))) .toPostgres
      (.attempt (.guarded [] (.callback (.throwStd "cleanup"))) (.swallow .all) .done))

theorem carriedError_arrives :
    ∃ mcxt errorCxt t, (Layer.guarded ["outer"] carriedError).run idle =
        (.thrown (.pg mcxt errorCxt), t) ∧
      t.store.elog.records errorCxt =
        some { reportData "first" with context := ["inner", "outer"] } := by
  have laws := ((error_transport_iff ["outer"] carriedError idle).mpr (by decide)).2 _ _ _ .here
  have origin : Surrounds (.ereport (reportData "first")) ["inner", "outer"] ["outer"]
      carriedError :=
    .callback (.attempt rfl (by decide) (.guarded .here))
  exact laws.unchanged _ _ _ origin (.inl rfl)

/-- Code catches an error, calls a callback that fails in its turn, swallows that failure and
throws the first error again. -/
def lostError : Layer :=
  .attempt (.guarded [] (.ereport (reportData "first"))) (.resume .all)
    (.attempt (.guarded [] (.callback (.throwStd "second"))) (.swallow .all) .done)

/-- The first error is gone: what is thrown again is the exception of the callback. -/
theorem lostError_replaced :
    ((Layer.guarded [] lostError).run idle).1 = .thrown (.std "second") ∧
      Surrounds (.ereport (reportData "first")) [] [] lostError ∧
      ¬ GuardLaws [] lostError idle := by
  have ended : ((Layer.guarded [] lostError).ending []).outcome = .exception (.std "second") := by
    decide
  have run : ((Layer.guarded [] lostError).run idle).1 = .thrown (.std "second") := by
    have ends := ((Layer.guarded [] lostError).run_agrees idle).endsWith
    have below : idle.store.elog.errorContextStack = [] := rfl
    rw [below, ended] at ends
    exact ends.thrown_std
  have origin : Surrounds (.ereport (reportData "first")) [] [] lostError :=
    .attempt rfl (by decide) (.guarded .here)
  refine ⟨run, origin, fun laws => ?_⟩
  obtain ⟨mcxt, errorCxt, t, thrown, _⟩ := laws.unchanged _ _ _ origin (.inl rfl)
  rw [thrown] at run
  cases run

end Cppgres
