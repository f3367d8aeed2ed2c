/-!
# Coroutines that yield

A body is a state and what it does from there: it goes on, yields a value, ends, throws, or yields the
elements of another body and goes on thereafter, or with what that one threw. `Gives`
says what a body yields where it is read as if the others were written in its place.
-/
namespace Coroutines

variable {V E σ : Type}

inductive Step (V E σ : Type) where
  | goes (next : σ)
  | finish
  | throw (exception : E)
  | yield (value : V) (next : σ)
  | elements (nested next : σ) (caught : E → σ)

/-- How far a body is read: up to some point, or until it ends. -/
inductive Ending (E : Type) where
  | suspended
  | finished
  | thrown (exception : E)

inductive Gives (code : σ → Step V E σ) : σ → List V → Ending E → Prop
  | nothing (s : σ) : Gives code s [] .suspended
  | goes {s next vs o} (does : code s = .goes next) (rest : Gives code next vs o) :
    Gives code s vs o
  | finish {s} (does : code s = .finish) : Gives code s [] .finished
  | throw {s e} (does : code s = .throw e) : Gives code s [] (.thrown e)
  | yield {s v next vs o} (does : code s = .yield v next) (rest : Gives code next vs o) :
    Gives code s (v :: vs) o
  | inside {s nested next caught vs} (does : code s = .elements nested next caught)
    (inner : Gives code nested vs .suspended) : Gives code s vs .suspended
  | through {s nested next caught vs later o} (does : code s = .elements nested next caught)
    (inner : Gives code nested vs .finished) (rest : Gives code next later o) :
    Gives code s (vs ++ later) o
  | handled {s nested next caught e vs later o} (does : code s = .elements nested next caught)
    (inner : Gives code nested vs (.thrown e)) (rest : Gives code (caught e) later o) :
    Gives code s (vs ++ later) o

/-! ## Bodies that are read to their end -/

section Ends
variable {code : σ → Step V E σ} {s next : σ} {v : V} {vs : List V} {o : Ending E}

theorem gives_goes_iff (does : code s = .goes next) :
    Gives code s vs .finished ↔ Gives code next vs .finished := by
  refine ⟨fun given => ?_, .goes does⟩
  cases given with
  | goes other rest =>
    cases does.symm.trans other
    exact rest
  | finish other => cases does.symm.trans other
  | yield other => cases does.symm.trans other
  | through other => cases does.symm.trans other
  | handled other => cases does.symm.trans other

theorem gives_yield_iff (does : code s = .yield v next) :
    Gives code s vs .finished ↔ ∃ rest, vs = v :: rest ∧ Gives code next rest .finished := by
  refine ⟨fun given => ?_, fun ⟨rest, same, given⟩ => same ▸ .yield does given⟩
  cases given with
  | goes other => cases does.symm.trans other
  | finish other => cases does.symm.trans other
  | yield other rest =>
    cases does.symm.trans other
    exact ⟨_, rfl, rest⟩
  | through other => cases does.symm.trans other
  | handled other => cases does.symm.trans other

theorem gives_finish_iff (does : code s = .finish) :
    Gives code s vs .finished ↔ vs = [] := by
  refine ⟨fun given => ?_, fun same => same ▸ .finish does⟩
  cases given with
  | goes other => cases does.symm.trans other
  | finish => rfl
  | yield other => cases does.symm.trans other
  | through other => cases does.symm.trans other
  | handled other => cases does.symm.trans other

end Ends

/-! ## A stack of bodies -/

/-- A body that waits for another. -/
structure Waiting (E σ : Type) where
  next : σ
  caught : E → σ

inductive Turn (V E σ : Type) where
  | goes (s : σ) (stack : List (Waiting E σ))
  | yields (value : V) (s : σ) (stack : List (Waiting E σ))
  | ends (ending : Ending E)

variable (code : σ → Step V E σ)

/-- One body runs, and the others wait. -/
def turn (s : σ) (stack : List (Waiting E σ)) : Turn V E σ :=
  match code s with
  | .goes next => .goes next stack
  | .yield v next => .yields v next stack
  | .elements nested next caught => .goes nested (⟨next, caught⟩ :: stack)
  | .finish =>
    match stack with
    | [] => .ends .finished
    | waiting :: stack => .goes waiting.next stack
  | .throw e =>
    match stack with
    | [] => .ends (.thrown e)
    | waiting :: stack => .goes (waiting.caught e) stack

inductive Resumed (V E σ : Type) where
  | yielded (value : V) (s : σ) (stack : List (Waiting E σ))
  | ended (ending : Ending E)

/-- Turns are taken until a value is yielded, if it takes no more than these. -/
def resume : (turns : Nat) → σ → List (Waiting E σ) → Option (Resumed V E σ)
  | 0, _, _ => none
  | turns + 1, s, stack =>
    match turn code s stack with
    | .goes s stack => resume turns s stack
    | .yields v s stack => some (.yielded v s stack)
    | .ends ending => some (.ended ending)

/-- No more than `limit` values are read, and it is looked whether there is another. -/
def collect (turns : Nat) : (limit : Nat) → σ → List (Waiting E σ) → Option (List V × Ending E)
  | limit, s, stack =>
    match resume code turns s stack with
    | none => none
    | some (.ended ending) => some ([], ending)
    | some (.yielded v s stack) =>
      match limit with
      | 0 => some ([], .suspended)
      | limit + 1 => (collect turns limit s stack).map fun (vs, ending) => (v :: vs, ending)

/-! ## From stacks to bodies -/

variable {code}

/-- What all bodies of a stack give, one after the other. -/
def GivesAll (code : σ → Step V E σ) : σ → List (Waiting E σ) → List V → Ending E → Prop
  | s, [], vs, o => Gives code s vs o
  | s, waiting :: stack, vs, o =>
    (Gives code s vs .suspended ∧ o = .suspended) ∨
      (∃ inner rest, vs = inner ++ rest ∧ Gives code s inner .finished ∧
        GivesAll code waiting.next stack rest o) ∨
      ∃ e inner rest, vs = inner ++ rest ∧ Gives code s inner (.thrown e) ∧
        GivesAll code (waiting.caught e) stack rest o

theorem Gives.all {s : σ} {stack : List (Waiting E σ)} {vs : List V}
    (given : Gives code s vs .suspended) : GivesAll code s stack vs .suspended := by
  cases stack with
  | nil => exact given
  | cons waiting stack => exact .inl ⟨given, rfl⟩

/-- What comes before a body comes before all that its stack gives. -/
theorem GivesAll.after {s next : σ} {before : List V} {stack : List (Waiting E σ)} {vs : List V}
    {o : Ending E} (all : GivesAll code next stack vs o)
    (carries : ∀ vs o, Gives code next vs o → Gives code s (before ++ vs) o) :
    GivesAll code s stack (before ++ vs) o := by
  cases stack with
  | nil => exact carries vs o all
  | cons waiting stack =>
    obtain ⟨given, rfl⟩ | ⟨inner, rest, rfl, given, later⟩ | ⟨e, inner, rest, rfl, given, later⟩ :=
      all
    · exact .inl ⟨carries vs _ given, rfl⟩
    · exact .inr (.inl ⟨before ++ inner, rest, (List.append_assoc ..).symm, carries _ _ given, later⟩)
    · exact .inr (.inr
        ⟨e, before ++ inner, rest, (List.append_assoc ..).symm, carries _ _ given, later⟩)

section Turns
variable {s t : σ} {stack later : List (Waiting E σ)} {v : V} {vs : List V} {o ending : Ending E}

theorem givesAll_of_goes (taken : turn code s stack = .goes t later)
    (all : GivesAll code t later vs o) : GivesAll code s stack vs o := by
  unfold turn at taken
  cases does : code s with
  | goes next =>
    rw [does] at taken
    cases taken
    change GivesAll code s stack ([] ++ vs) o
    exact all.after fun _ _ => Gives.goes does
  | yield value next =>
    rw [does] at taken
    cases taken
  | elements nested next caught =>
    rw [does] at taken
    cases taken
    obtain ⟨given, rfl⟩ | ⟨inner, rest, rfl, given, after⟩ | ⟨e, inner, rest, rfl, given, after⟩ :=
      all
    · exact (Gives.inside does given).all
    · exact after.after fun _ _ => Gives.through does given
    · exact after.after fun _ _ => Gives.handled does given
  | finish =>
    rw [does] at taken
    cases stack with
    | nil => cases taken
    | cons waiting stack =>
      cases taken
      exact .inr (.inl ⟨[], vs, rfl, .finish does, all⟩)
  | throw e =>
    rw [does] at taken
    cases stack with
    | nil => cases taken
    | cons waiting stack =>
      cases taken
      exact .inr (.inr ⟨e, [], vs, rfl, .throw does, all⟩)

theorem givesAll_of_yields (taken : turn code s stack = .yields v t later)
    (all : GivesAll code t later vs o) : GivesAll code s stack (v :: vs) o := by
  unfold turn at taken
  cases does : code s with
  | goes next =>
    rw [does] at taken
    cases taken
  | yield value next =>
    rw [does] at taken
    cases taken
    change GivesAll code s stack ([v] ++ vs) o
    exact all.after fun _ _ => Gives.yield does
  | elements nested next caught =>
    rw [does] at taken
    cases taken
  | finish =>
    rw [does] at taken
    cases stack <;> cases taken
  | throw e =>
    rw [does] at taken
    cases stack <;> cases taken

theorem givesAll_of_ends (taken : turn code s stack = .ends ending) :
    GivesAll code s stack [] ending := by
  unfold turn at taken
  cases does : code s with
  | goes next =>
    rw [does] at taken
    cases taken
  | yield value next =>
    rw [does] at taken
    cases taken
  | elements nested next caught =>
    rw [does] at taken
    cases taken
  | finish =>
    rw [does] at taken
    cases stack <;> cases taken
    exact .finish does
  | throw e =>
    rw [does] at taken
    cases stack <;> cases taken
    exact .throw does

end Turns

theorem givesAll_of_resume {turns : Nat} {s : σ} {stack : List (Waiting E σ)}
    {resumed : Resumed V E σ} (run : resume code turns s stack = some resumed) :
    match resumed with
    | .ended ending => GivesAll code s stack [] ending
    | .yielded v t later => ∀ vs o, GivesAll code t later vs o → GivesAll code s stack (v :: vs) o := by
  induction turns generalizing s stack with
  | zero => cases run
  | succ turns ih =>
    unfold resume at run
    cases taken : turn code s stack with
    | goes t later =>
      rw [taken] at run
      have rest := ih run
      cases resumed with
      | ended ending => exact givesAll_of_goes taken rest
      | yielded v u last => exact fun vs o all => givesAll_of_goes taken (rest vs o all)
    | yields v t later =>
      rw [taken] at run
      cases run
      exact fun vs o all => givesAll_of_yields taken all
    | ends ending =>
      rw [taken] at run
      cases run
      exact givesAll_of_ends taken

theorem resume_ended_ne {turns : Nat} {s : σ} {stack : List (Waiting E σ)} {o : Ending E}
    (run : resume code turns s stack = some (.ended o)) : o ≠ .suspended := by
  induction turns generalizing s stack with
  | zero => cases run
  | succ turns ih =>
    unfold resume at run
    cases taken : turn code s stack with
    | goes t later =>
      rw [taken] at run
      exact ih run
    | yields v t later =>
      rw [taken] at run
      cases run
    | ends ending =>
      rw [taken] at run
      cases run
      rintro rfl
      unfold turn at taken
      cases does : code s <;> rw [does] at taken <;> cases stack <;> cases taken

/-- What `collect` reads, as the bodies give it. -/
def Reads (code : σ → Step V E σ) (limit : Nat) (s : σ) (stack : List (Waiting E σ)) (vs : List V)
    (o : Ending E) : Prop :=
  (o = .suspended ∧ vs.length = limit ∧ ∃ v, GivesAll code s stack (vs ++ [v]) .suspended) ∨
    (o ≠ .suspended ∧ vs.length ≤ limit ∧ GivesAll code s stack vs o)

theorem reads_of_collect {turns limit : Nat} {s : σ} {stack : List (Waiting E σ)} {vs : List V}
    {o : Ending E} (run : collect code turns limit s stack = some (vs, o)) :
    Reads code limit s stack vs o := by
  induction limit generalizing s stack vs with
  | zero =>
    unfold collect at run
    cases resumed : resume code turns s stack with
    | none =>
      rw [resumed] at run
      cases run
    | some last =>
      have given := givesAll_of_resume resumed
      rw [resumed] at run
      cases last with
      | ended ending =>
        cases run
        exact .inr ⟨resume_ended_ne resumed, Nat.le_refl _, given⟩
      | yielded v t later =>
        cases run
        exact .inl ⟨rfl, rfl, v, given [] _ (Gives.nothing t).all⟩
  | succ limit ih =>
    unfold collect at run
    cases resumed : resume code turns s stack with
    | none =>
      rw [resumed] at run
      cases run
    | some last =>
      have given := givesAll_of_resume resumed
      rw [resumed] at run
      cases last with
      | ended ending =>
        cases run
        exact .inr ⟨resume_ended_ne resumed, Nat.zero_le _, given⟩
      | yielded v t later =>
        obtain ⟨⟨rest, ending⟩, read, same⟩ := Option.map_eq_some_iff.mp run
        cases same
        obtain ⟨rfl, length, w, all⟩ | ⟨ended, length, all⟩ := ih read
        · exact .inl ⟨rfl, congrArg (· + 1) length, w, given _ _ all⟩
        · exact .inr ⟨ended, Nat.succ_le_succ length, given _ _ all⟩

/-! ## From bodies to stacks -/

/-- What is yielded on the way to another stack. -/
inductive Emits (code : σ → Step V E σ) :
    σ → List (Waiting E σ) → List V → σ → List (Waiting E σ) → Prop
  | here (s stack) : Emits code s stack [] s stack
  | goes {s stack t later vs u last} (taken : turn code s stack = .goes t later)
    (rest : Emits code t later vs u last) : Emits code s stack vs u last
  | yields {s stack v t later vs u last} (taken : turn code s stack = .yields v t later)
    (rest : Emits code t later vs u last) : Emits code s stack (v :: vs) u last

theorem Emits.trans {s t u : σ} {stack later last : List (Waiting E σ)} {vs ws : List V}
    (first : Emits code s stack vs t later) (second : Emits code t later ws u last) :
    Emits code s stack (vs ++ ws) u last := by
  induction first with
  | here s stack => exact second
  | goes taken rest ih => exact .goes taken (ih second)
  | yields taken rest ih => exact .yields taken (ih second)

/-- A body that ended has nothing on the stack of what was there before. -/
def Arrives (code : σ → Step V E σ) (stack : List (Waiting E σ)) (t : σ)
    (later : List (Waiting E σ)) : Ending E → Prop
  | .suspended => True
  | .finished => code t = .finish ∧ later = stack
  | .thrown e => code t = .throw e ∧ later = stack

theorem Gives.emits {s : σ} {vs : List V} {o : Ending E} (given : Gives code s vs o)
    (stack : List (Waiting E σ)) :
    ∃ t later, Emits code s stack vs t later ∧ Arrives code stack t later o := by
  induction given generalizing stack with
  | nothing s => exact ⟨s, stack, .here s stack, trivial⟩
  | finish does => exact ⟨_, stack, .here _ stack, does, rfl⟩
  | throw does => exact ⟨_, stack, .here _ stack, does, rfl⟩
  | @goes s next vs o does rest ih =>
    obtain ⟨t, later, emits, arrives⟩ := ih stack
    have taken : turn code s stack = .goes next stack := by
      unfold turn
      rw [does]
    exact ⟨t, later, .goes taken emits, arrives⟩
  | @yield s v next vs o does rest ih =>
    obtain ⟨t, later, emits, arrives⟩ := ih stack
    have taken : turn code s stack = .yields v next stack := by
      unfold turn
      rw [does]
    exact ⟨t, later, .yields taken emits, arrives⟩
  | @inside s nested next caught vs does inner ih =>
    obtain ⟨t, later, emits, -⟩ := ih (⟨next, caught⟩ :: stack)
    have taken : turn code s stack = .goes nested (⟨next, caught⟩ :: stack) := by
      unfold turn
      rw [does]
    exact ⟨t, later, .goes taken emits, trivial⟩
  | @through s nested next caught vs others o does inner rest ihInner ihRest =>
    obtain ⟨t, later, emits, ends, rfl⟩ := ihInner (⟨next, caught⟩ :: stack)
    obtain ⟨u, last, after, arrives⟩ := ihRest stack
    have taken : turn code s stack = .goes nested (⟨next, caught⟩ :: stack) := by
      unfold turn
      rw [does]
    have returned : turn code t (⟨next, caught⟩ :: stack) = .goes next stack := by
      unfold turn
      rw [ends]
    exact ⟨u, last, (Emits.goes taken emits).trans (.goes returned after), arrives⟩
  | @handled s nested next caught e vs others o does inner rest ihInner ihRest =>
    obtain ⟨t, later, emits, throws, rfl⟩ := ihInner (⟨next, caught⟩ :: stack)
    obtain ⟨u, last, after, arrives⟩ := ihRest stack
    have taken : turn code s stack = .goes nested (⟨next, caught⟩ :: stack) := by
      unfold turn
      rw [does]
    have rethrown : turn code t (⟨next, caught⟩ :: stack) = .goes (caught e) stack := by
      unfold turn
      rw [throws]
    exact ⟨u, last, (Emits.goes taken emits).trans (.goes rethrown after), arrives⟩

theorem resume_mono {turns more : Nat} {s : σ} {stack : List (Waiting E σ)}
    {resumed : Resumed V E σ} (within : turns ≤ more)
    (run : resume code turns s stack = some resumed) : resume code more s stack = some resumed := by
  induction turns generalizing more s stack with
  | zero => cases run
  | succ turns ih =>
    obtain ⟨more, rfl⟩ := Nat.exists_eq_add_one_of_ne_zero (show more ≠ 0 by omega)
    unfold resume at run ⊢
    cases taken : turn code s stack with
    | goes t later =>
      rw [taken] at run
      exact ih (by omega) run
    | yields v t later =>
      rw [taken] at run
      exact run
    | ends ending =>
      rw [taken] at run
      exact run

theorem collect_mono {turns more limit : Nat} {s : σ} {stack : List (Waiting E σ)}
    {read : List V × Ending E} (within : turns ≤ more)
    (run : collect code turns limit s stack = some read) :
    collect code more limit s stack = some read := by
  induction limit generalizing s stack read with
  | zero =>
    unfold collect at run ⊢
    cases resumed : resume code turns s stack with
    | none =>
      rw [resumed] at run
      cases run
    | some last =>
      rw [resumed] at run
      rw [resume_mono within resumed]
      cases last <;> exact run
  | succ limit ih =>
    unfold collect at run ⊢
    cases resumed : resume code turns s stack with
    | none =>
      rw [resumed] at run
      cases run
    | some last =>
      rw [resumed] at run
      rw [resume_mono within resumed]
      cases last with
      | ended ending => exact run
      | yielded v t later =>
        obtain ⟨rest, rests, rfl⟩ := Option.map_eq_some_iff.mp run
        dsimp only
        rw [ih rests]
        rfl

theorem Emits.resume_yielded {s u : σ} {stack last : List (Waiting E σ)} {v : V} {vs : List V}
    (emits : Emits code s stack (v :: vs) u last) :
    ∃ turns t later, resume code turns s stack = some (.yielded v t later) ∧
      Emits code t later vs u last := by
  generalize all : v :: vs = values at emits
  induction emits with
  | here s stack => cases all
  | goes taken rest ih =>
    obtain ⟨turns, t, later, run, after⟩ := ih all
    refine ⟨turns + 1, t, later, ?_, after⟩
    unfold resume
    rw [taken]
    exact run
  | yields taken rest =>
    cases all
    refine ⟨1, _, _, ?_, rest⟩
    unfold resume
    rw [taken]

theorem Emits.resume_ended {s u : σ} {stack last : List (Waiting E σ)} {o : Ending E}
    (emits : Emits code s stack [] u last) (ends : turn code u last = .ends o) :
    ∃ turns, resume code turns s stack = some (.ended o) := by
  generalize none_ : ([] : List V) = values at emits
  induction emits with
  | here s stack =>
    refine ⟨1, ?_⟩
    unfold resume
    rw [ends]
  | goes taken rest ih =>
    obtain ⟨turns, run⟩ := ih ends none_
    refine ⟨turns + 1, ?_⟩
    unfold resume
    rw [taken]
    exact run
  | yields taken rest => cases none_

theorem collect_of_resume {turns limit : Nat} {s t : σ} {stack later : List (Waiting E σ)} {v : V}
    {vs : List V} {o : Ending E} (run : resume code turns s stack = some (.yielded v t later))
    (rest : ∃ turns, collect code turns limit t later = some (vs, o)) :
    ∃ turns, collect code turns (limit + 1) s stack = some (v :: vs, o) := by
  obtain ⟨more, read⟩ := rest
  refine ⟨max turns more, ?_⟩
  unfold collect
  rw [resume_mono (Nat.le_max_left turns more) run]
  change (collect code _ limit t later).map _ = _
  rw [collect_mono (Nat.le_max_right turns more) read]
  rfl

theorem Emits.collect_suspended {s u : σ} {stack last : List (Waiting E σ)} {v : V} {vs : List V}
    (emits : Emits code s stack (vs ++ [v]) u last) :
    ∃ turns, collect code turns vs.length s stack = some (vs, .suspended) := by
  induction vs generalizing s stack with
  | nil =>
    obtain ⟨turns, t, later, run, -⟩ := emits.resume_yielded
    refine ⟨turns, ?_⟩
    unfold collect
    rw [List.length_nil, run]
  | cons first vs ih =>
    obtain ⟨turns, t, later, run, rest⟩ := emits.resume_yielded
    exact collect_of_resume run (ih rest)

theorem Emits.collect_ended {s u : σ} {stack last : List (Waiting E σ)} {vs : List V} {o : Ending E}
    {limit : Nat} (emits : Emits code s stack vs u last) (ends : turn code u last = .ends o)
    (within : vs.length ≤ limit) : ∃ turns, collect code turns limit s stack = some (vs, o) := by
  induction vs generalizing s stack limit with
  | nil =>
    obtain ⟨turns, run⟩ := emits.resume_ended ends
    refine ⟨turns, ?_⟩
    unfold collect
    rw [run]
  | cons first vs ih =>
    obtain ⟨turns, t, later, run, rest⟩ := emits.resume_yielded
    obtain ⟨limit, rfl⟩ : ∃ n, limit = n + 1 :=
      Nat.exists_eq_add_one_of_ne_zero (Nat.ne_of_gt (Nat.lt_of_lt_of_le (Nat.succ_pos _) within))
    exact collect_of_resume run (ih rest (Nat.le_of_succ_le_succ within))

/-- A stack reads of a body what that gives. -/
theorem collect_iff {limit : Nat} {s : σ} {vs : List V} {o : Ending E} :
    (∃ turns, collect code turns limit s [] = some (vs, o)) ↔
      (o = .suspended ∧ vs.length = limit ∧ ∃ v, Gives code s (vs ++ [v]) .suspended) ∨
        (o ≠ .suspended ∧ vs.length ≤ limit ∧ Gives code s vs o) := by
  constructor
  · exact fun ⟨turns, run⟩ => reads_of_collect run
  · rintro (⟨rfl, rfl, v, given⟩ | ⟨ended, within, given⟩)
    · obtain ⟨t, later, emits, -⟩ := given.emits []
      exact emits.collect_suspended
    · obtain ⟨t, later, emits, arrives⟩ := given.emits []
      refine emits.collect_ended ?_ within
      unfold turn
      cases o with
      | suspended => exact absurd rfl ended
      | finished =>
        obtain ⟨does, rfl⟩ := arrives
        rw [does]
      | thrown e =>
        obtain ⟨does, rfl⟩ := arrives
        rw [does]

end Coroutines
