import Mathlib.Data.List.Basic
import Mathlib.Data.Option.Basic

/-!
# Traces of scope guards

A scope guard runs a cleanup when its scope is left, always or only if an exception leaves it. The
trace of a program tells when guards are constructed, how their scopes are left, when their cleanups
start and how the scopes ended thereafter. A trace is orderly if each guard has its life and no guard
is at work while a later one is there.
-/
namespace NonLocal

inductive Trigger where
  | exit
  | fail
  deriving DecidableEq, Repr

/-- `none` where a scope returns. -/
inductive ScopeEvent (ε : Type) where
  | constructed (id : Nat) (trigger : Trigger)
  | left (id : Nat) (exception : Option ε)
  | ran (id : Nat)
  | ended (id : Nat) (exception : Option ε)
  deriving DecidableEq, Repr

variable {ε : Type}

def ScopeEvent.id : ScopeEvent ε → Nat
  | .constructed id _ => id
  | .left id _ => id
  | .ran id => id
  | .ended id _ => id

@[simp] theorem id_constructed (id : Nat) (trigger : Trigger) :
    (ScopeEvent.constructed id trigger : ScopeEvent ε).id = id := rfl

@[simp] theorem id_left (id : Nat) (exception : Option ε) :
    (ScopeEvent.left id exception).id = id := rfl

@[simp] theorem id_ran (id : Nat) : (ScopeEvent.ran id : ScopeEvent ε).id = id := rfl

@[simp] theorem id_ended (id : Nat) (exception : Option ε) :
    (ScopeEvent.ended id exception).id = id := rfl

/-- Whether the cleanup is to run where a scope is left like this. -/
def Trigger.runs : Trigger → Option ε → Bool
  | .exit, _ => true
  | .fail, exception => exception.isSome

/-- All events of one guard: its cleanup runs once or not at all, as its trigger has it, and the scope
ends by the exception that left it. The flag tells that it has ended. -/
inductive Life (id : Nat) : List (ScopeEvent ε) → Bool → Prop where
  | inside (trigger : Trigger) : Life id [.constructed id trigger] false
  | running (trigger : Trigger) (exception : Option ε) (runs : trigger.runs exception = true) :
    Life id [.constructed id trigger, .left id exception, .ran id] false
  | cleaned (trigger : Trigger) (exception : Option ε) (runs : trigger.runs exception = true) :
    Life id [.constructed id trigger, .left id exception, .ran id, .ended id exception] true
  | spared (trigger : Trigger) (exception : Option ε) (runs : trigger.runs exception = false) :
    Life id [.constructed id trigger, .left id exception, .ended id exception] true

/-- The guards that are there, the one constructed last first. Only that one may be at work: none
where another one is. -/
def replay : List (ScopeEvent ε) → List Nat → Option (List Nat)
  | [], guards => some guards
  | .constructed id _ :: events, guards => replay events (id :: guards)
  | .left id _ :: events, guards => if guards.head? = some id then replay events guards else none
  | .ran id :: events, guards => if guards.head? = some id then replay events guards else none
  | .ended id _ :: events, guards =>
    if guards.head? = some id then replay events guards.tail else none

/-- Each guard has its life, and they are at work in the reverse order of their construction. Where
the program ended, and not only the process, all guards have ended. -/
structure Orderly (events : List (ScopeEvent ε)) (finished : Bool) : Prop where
  lives : ∀ event ∈ events, ∃ ended, Life event.id (events.filter (·.id == event.id)) ended ∧
    (finished = true → ended = true)
  reverse : ∃ guards, replay events [] = some guards ∧ (finished = true → guards = [])

/-- A part of a trace, with the numbers that it gives to guards. -/
structure Segment (first next : Nat) (events : List (ScopeEvent ε)) (finished : Bool) : Prop where
  grows : first ≤ next
  ids : ∀ event ∈ events, first ≤ event.id ∧ event.id < next
  lives : ∀ event ∈ events, ∃ ended, Life event.id (events.filter (·.id == event.id)) ended ∧
    (finished = true → ended = true)
  reverse : ∀ guards, ∃ more, replay events guards = some (more ++ guards) ∧
    (finished = true → more = [])

variable {first middle next id : Nat} {events more body cleanup : List (ScopeEvent ε)}
  {finished : Bool} {trigger : Trigger} {exception : Option ε}

theorem Segment.orderly (segment : Segment first next events finished) :
    Orderly events finished where
  lives := segment.lives
  reverse := by
    obtain ⟨guards, replayed, all⟩ := segment.reverse []
    rw [List.append_nil] at replayed
    exact ⟨guards, replayed, all⟩

theorem replay_append (guards : List Nat) :
    replay (events ++ more) guards = (replay events guards).bind (replay more) := by
  induction events generalizing guards with
  | nil => rfl
  | cons event events ih =>
    cases event with
    | constructed id trigger => exact ih _
    | left id exception =>
      simp only [List.cons_append, replay]
      split
      · exact ih _
      · rfl
    | ran id =>
      simp only [List.cons_append, replay]
      split
      · exact ih _
      · rfl
    | ended id exception =>
      simp only [List.cons_append, replay]
      split
      · exact ih _
      · rfl

theorem Segment.nil {finished : Bool} : Segment first first ([] : List (ScopeEvent ε)) finished where
  grows := Nat.le_refl _
  ids := by simp
  lives := by simp
  reverse guards := ⟨[], rfl, fun _ => rfl⟩

/-- The process may end after any part of a program. -/
theorem Segment.unfinished (segment : Segment first next events finished) :
    Segment first next events false where
  grows := segment.grows
  ids := segment.ids
  lives event listed := by
    obtain ⟨ended, life, _⟩ := segment.lives event listed
    exact ⟨ended, life, Bool.noConfusion⟩
  reverse guards := by
    obtain ⟨more, replayed, _⟩ := segment.reverse guards
    exact ⟨more, replayed, Bool.noConfusion⟩

/-- No guard of a segment has a number outside of its range. -/
theorem Segment.filter_eq_nil (segment : Segment first next events finished)
    (outside : id < first ∨ next ≤ id) : events.filter (·.id == id) = [] := by
  apply List.filter_eq_nil_iff.mpr
  intro event listed
  obtain ⟨above, below⟩ := segment.ids event listed
  rw [beq_iff_eq]
  omega

theorem Segment.append (one : Segment first middle events true)
    (two : Segment middle next more finished) : Segment first next (events ++ more) finished := by
  constructor
  case grows => exact Nat.le_trans one.grows two.grows
  case ids =>
    intro event listed
    rcases List.mem_append.mp listed with listed | listed
    · have range := one.ids event listed
      exact ⟨range.1, Nat.lt_of_lt_of_le range.2 two.grows⟩
    · have range := two.ids event listed
      exact ⟨Nat.le_trans one.grows range.1, range.2⟩
  case lives =>
    intro event listed
    rw [List.filter_append]
    rcases List.mem_append.mp listed with listed | listed
    · rw [two.filter_eq_nil (.inl (one.ids event listed).2), List.append_nil]
      obtain ⟨ended, life, all⟩ := one.lives event listed
      exact ⟨ended, life, fun _ => all rfl⟩
    · rw [one.filter_eq_nil (.inr (two.ids event listed).1), List.nil_append]
      exact two.lives event listed
  case reverse =>
    intro guards
    obtain ⟨none, replayed, all⟩ := one.reverse guards
    obtain ⟨left, rest, ended⟩ := two.reverse guards
    rw [all rfl, List.nil_append] at replayed
    refine ⟨left, ?_, ended⟩
    rw [replay_append, replayed]
    exact rest

/-- Events of one guard around those of later ones. -/
theorem Segment.around {whole own : List (ScopeEvent ε)} {ended : Bool}
    (inner : Segment (id + 1) next events finished)
    (others : ∀ other ≠ id, whole.filter (·.id == other) = events.filter (·.id == other))
    (owns : whole.filter (·.id == id) = own) (life : Life id own ended)
    (all : finished = true → ended = true)
    (reverse : ∀ guards, ∃ more, replay whole guards = some (more ++ guards) ∧
      (finished = true → more = [])) : Segment id next whole finished := by
  have listed : ∀ event ∈ whole, event.id ≠ id → event ∈ events := by
    intro event listed other
    have mem : event ∈ whole.filter (·.id == event.id) := List.mem_filter.mpr ⟨listed, by simp⟩
    rw [others event.id other] at mem
    exact (List.mem_filter.mp mem).1
  constructor
  case grows => exact Nat.le_of_succ_le inner.grows
  case ids =>
    intro event mem
    by_cases same : event.id = id
    · rw [same]
      exact ⟨Nat.le_refl _, inner.grows⟩
    · have range := inner.ids event (listed event mem same)
      omega
  case lives =>
    intro event mem
    by_cases same : event.id = id
    · rw [same, owns]
      exact ⟨ended, life, all⟩
    · rw [others event.id same]
      exact inner.lives event (listed event mem same)
  case reverse => exact reverse

/-- A scope that the process ends in. -/
theorem Segment.inside (trigger : Trigger) (inner : Segment (id + 1) next body false) :
    Segment id next (.constructed id trigger :: body) false := by
  have own : body.filter (·.id == id) = [] := inner.filter_eq_nil (.inl (Nat.lt_succ_self id))
  refine inner.around (fun other different => ?_) ?_ (.inside trigger) Bool.noConfusion
    fun guards => ?_
  · simp [different.symm]
  · simpa using own
  · obtain ⟨more, replayed, _⟩ := inner.reverse (id :: guards)
    refine ⟨more ++ [id], ?_, Bool.noConfusion⟩
    rw [replay, replayed, List.append_assoc]
    rfl

/-- A scope whose guard has nothing to do. -/
theorem Segment.spared (runs : trigger.runs exception = false)
    (inner : Segment (id + 1) next body true) :
    Segment id next (.constructed id trigger :: body ++ [.left id exception, .ended id exception])
      true := by
  have own : body.filter (·.id == id) = [] := inner.filter_eq_nil (.inl (Nat.lt_succ_self id))
  refine inner.around (fun other different => ?_) ?_ (.spared trigger exception runs) (fun _ => rfl)
    fun guards => ?_
  · simp [different.symm]
  · simp [own]
  · obtain ⟨more, replayed, all⟩ := inner.reverse (id :: guards)
    rw [all rfl, List.nil_append] at replayed
    refine ⟨[], ?_, fun _ => rfl⟩
    rw [List.cons_append, replay, replay_append, replayed]
    simp [replay]

/-- A scope whose cleanup runs, with the guards of the cleanup, which may end the process. -/
theorem Segment.cleaned (runs : trigger.runs exception = true)
    (inner : Segment (id + 1) middle body true) (clean : Segment middle next cleanup finished) :
    Segment id next
      (.constructed id trigger :: body ++ .left id exception :: .ran id :: cleanup ++
        if finished then [.ended id exception] else []) finished := by
  have both : Segment (id + 1) next (body ++ cleanup) finished := inner.append clean
  have own : body.filter (·.id == id) = [] := inner.filter_eq_nil (.inl (Nat.lt_succ_self id))
  have ownToo : cleanup.filter (·.id == id) = [] := clean.filter_eq_nil (.inl inner.grows)
  have start : ∀ guards, ∃ more, replay
      (.constructed id trigger :: body ++ .left id exception :: .ran id :: cleanup) guards =
        some (more ++ id :: guards) ∧ (finished = true → more = []) := by
    intro guards
    obtain ⟨none, replayed, all⟩ := inner.reverse (id :: guards)
    obtain ⟨more, rest, ended⟩ := clean.reverse (id :: guards)
    rw [all rfl, List.nil_append] at replayed
    refine ⟨more, ?_, ended⟩
    rw [List.cons_append, replay, replay_append, replayed]
    simpa [replay] using rest
  cases finished with
  | false =>
    refine both.around (fun other different => ?_) ?_ (.running trigger exception runs)
      Bool.noConfusion fun guards => ?_
    · simp [different.symm]
    · simp [own, ownToo]
    · obtain ⟨more, replayed, _⟩ := start guards
      refine ⟨more ++ [id], ?_, Bool.noConfusion⟩
      simpa using replayed
  | true =>
    refine both.around (fun other different => ?_) ?_ (.cleaned trigger exception runs)
      (fun _ => rfl) fun guards => ?_
    · simp [different.symm]
    · simp [own, ownToo]
    · obtain ⟨more, replayed, all⟩ := start guards
      rw [all rfl, List.nil_append] at replayed
      refine ⟨[], ?_, fun _ => rfl⟩
      rw [replay_append, replayed]
      simp [replay]

end NonLocal
