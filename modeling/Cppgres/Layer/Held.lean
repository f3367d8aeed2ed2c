import Cppgres.Layer.Syntax

/-!
# The exceptions a layer holds

Exception objects and the values they carry. The contexts of `pg_exception`s are handed out
in order, so the range a context lies in tells which layer it belongs to: a layer changes
the records of its own range only.
-/
namespace Cppgres
open NonLocal

/-- What no layer changes for the layers around it. -/
structure Frame (before now : Elog) : Prop where
  handlers : now.exceptionStack = before.exceptionStack
  later : before.nextContext ≤ now.nextContext
  records : ∀ context, context < before.nextContext → context ∉ before.resetCallbacks →
    now.records context = before.records context ∧ context ∉ now.resetCallbacks

/-- No context from `low` on and before `high` is waiting to be deleted. -/
def Settled (now : Elog) (low high : MemoryContext) : Prop :=
  ∀ context, low ≤ context → context < high → context ∉ now.resetCallbacks

/-- The exception object `exception` carries `raised`. The context of a `pg_exception` was
handed out from `low` on and before `high`. -/
def Carries (now : Elog) (low high : MemoryContext) : Raised → CppException → Prop
  | .pg edata, .pg _ errorCxt =>
    now.records errorCxt = some edata ∧ low ≤ errorCxt ∧ errorCxt < high ∧
      errorCxt ∉ now.resetCallbacks
  | .gone, .pg _ errorCxt =>
    (now.records errorCxt = none ∨ errorCxt ∈ now.resetCallbacks) ∧ low ≤ errorCxt ∧
      errorCxt < high
  | .std what, .std got => got = what
  | .other, .other => True
  | _, _ => False

/-- The objects carry the values, latest first, with later contexts in later objects. -/
inductive Stacked (now : Elog) (low : MemoryContext) :
    MemoryContext → List Raised → List CppException → Prop where
  | nil {high : MemoryContext} : low ≤ high → Stacked now low high [] []
  | cons {between high : MemoryContext} {raised : Raised} {exception : CppException}
      {values : List Raised} {objects : List CppException} :
      between ≤ high → Carries now between high raised exception →
      Stacked now low between values objects →
      Stacked now low high (raised :: values) (exception :: objects)

theorem Frame.refl (elog : Elog) : Frame elog elog :=
  ⟨rfl, Nat.le_refl _, fun _ _ kept => ⟨rfl, kept⟩⟩

theorem Frame.trans {first second third : Elog} (one : Frame first second)
    (two : Frame second third) : Frame first third where
  handlers := two.handlers.trans one.handlers
  later := Nat.le_trans one.later two.later
  records := by
    intro context old kept
    have ⟨same, still⟩ := one.records context old kept
    have ⟨same', still'⟩ := two.records context (Nat.lt_of_lt_of_le old one.later) still
    exact ⟨same'.trans same, still'⟩

theorem Frame.landing {before now : Elog} (frame : Frame before now) {α : Type} :
    (now.landing : Exit CppException SigjmpBuf α) = before.landing := by
  unfold Elog.landing
  rw [frame.handlers]

theorem Elog.landing_not_thrown (elog : Elog) {α : Type} {exception : CppException} :
    (elog.landing : Exit CppException SigjmpBuf α) ≠ .thrown exception := by
  unfold Elog.landing
  split <;> simp

theorem Elog.landing_not_returned (elog : Elog) {α : Type} {value : α} :
    (elog.landing : Exit CppException SigjmpBuf α) ≠ .returned value := by
  unfold Elog.landing
  split <;> simp

/-- What was settled stays so, and what comes later is settled too. -/
theorem Settled.trans {first second : Elog} {low : MemoryContext} (frame : Frame first second)
    (one : Settled first low first.nextContext)
    (two : Settled second first.nextContext second.nextContext) :
    Settled second low second.nextContext := by
  intro context above below
  rcases Nat.lt_or_ge context first.nextContext with old | new
  · exact (frame.records context old (one context above old)).2
  · exact two context new below

/-! ## The exceptions a layer holds -/

theorem Carries.widen {now : Elog} {low between high : MemoryContext} {raised : Raised}
    {exception : CppException} (carried : Carries now low between raised exception)
    (le : between ≤ high) : Carries now low high raised exception := by
  cases raised <;> cases exception <;> try exact carried
  case pg.pg => exact ⟨carried.1, carried.2.1, Nat.lt_of_lt_of_le carried.2.2.1 le, carried.2.2.2⟩
  case gone.pg => exact ⟨carried.1, carried.2.1, Nat.lt_of_lt_of_le carried.2.2 le⟩

/-- An exception keeps its record while other layers run. -/
theorem Carries.frame {first second : Elog} {low high : MemoryContext} {raised : Raised}
    {exception : CppException} (carried : Carries first low high raised exception)
    (frame : Frame first second) (settled : Settled first low high) (old : high ≤ first.nextContext) :
    Carries second low high raised exception := by
  cases raised <;> cases exception <;> try exact carried
  case pg.pg edata mcxt errorCxt =>
    obtain ⟨held, above, below, kept⟩ := carried
    have ⟨same, still⟩ := frame.records _ (Nat.lt_of_lt_of_le below old) kept
    exact ⟨same.trans held, above, below, still⟩
  case gone.pg mcxt errorCxt =>
    obtain ⟨deleted, above, below⟩ := carried
    have kept := settled _ above below
    have ⟨same, _⟩ := frame.records _ (Nat.lt_of_lt_of_le below old) kept
    exact ⟨.inl (same.trans (deleted.resolve_right kept)), above, below⟩

theorem Carries.accepts {now : Elog} {low high : MemoryContext} {raised : Raised}
    {exception : CppException} (carried : Carries now low high raised exception)
    (clause : CatchClause) : clause.accepts exception = clause.takes raised := by
  cases raised <;> cases exception <;> first | exact carried.elim | (cases clause <;> rfl)

/-- The value says whether the exception still has its record. -/
theorem Carries.deleted {now : Elog} {low high : MemoryContext} {raised : Raised}
    {exception : CppException} (carried : Carries now low high raised exception)
    (settled : Settled now low high) : exception.deleted now = decide (raised = .gone) := by
  cases raised <;> cases exception <;> try exact carried.elim
  case pg.pg edata mcxt errorCxt =>
    change (now.records errorCxt).isNone = _
    rw [carried.1]
    rfl
  case gone.pg mcxt errorCxt =>
    have none := carried.1.resolve_right (settled _ carried.2.1 carried.2.2)
    change (now.records errorCxt).isNone = _
    rw [none]
    rfl
  case std.std => rfl
  case other.other => rfl

theorem Stacked.le {now : Elog} {low high : MemoryContext} {values : List Raised}
    {objects : List CppException} (stacked : Stacked now low high values objects) : low ≤ high := by
  induction stacked with
  | nil le => exact le
  | cons le _ _ ih => exact Nat.le_trans ih le

theorem Stacked.widen {now : Elog} {low between high : MemoryContext} {values : List Raised}
    {objects : List CppException} (stacked : Stacked now low between values objects)
    (le : between ≤ high) : Stacked now low high values objects := by
  cases stacked with
  | nil le' => exact .nil (Nat.le_trans le' le)
  | cons le' carried rest => exact .cons (Nat.le_trans le' le) (carried.widen le) rest

theorem Stacked.append {now : Elog} {low between high : MemoryContext} {newer older : List Raised}
    {above below : List CppException} (one : Stacked now between high newer above)
    (two : Stacked now low between older below) :
    Stacked now low high (newer ++ older) (above ++ below) := by
  induction one with
  | nil le => exact two.widen le
  | cons le carried _ ih => exact .cons le carried ih

theorem Stacked.frame {first second : Elog} {low high : MemoryContext} {values : List Raised}
    {objects : List CppException} (stacked : Stacked first low high values objects)
    (frame : Frame first second) (settled : Settled first low high)
    (old : high ≤ first.nextContext) : Stacked second low high values objects := by
  induction stacked with
  | nil le => exact .nil le
  | cons le carried rest ih =>
    refine .cons le (carried.frame frame ?_ old) (ih ?_ (Nat.le_trans le old))
    · exact fun context above => settled context (Nat.le_trans rest.le above)
    · exact fun context above below => settled context above (Nat.lt_of_lt_of_le below le)

/-- A change of the records that leaves those from `low` on and before `high` alone. -/
structure Elog.SameFrom (first second : Elog) (low high : MemoryContext) : Prop where
  records : ∀ context, low ≤ context → context < high →
    second.records context = first.records context
  pending : ∀ context, low ≤ context → context < high →
    (context ∈ second.resetCallbacks ↔ context ∈ first.resetCallbacks)

theorem Elog.SameFrom.narrow {first second : Elog} {low high low' high' : MemoryContext}
    (same : first.SameFrom second low high) (above : low ≤ low') (below : high' ≤ high) :
    first.SameFrom second low' high' where
  records := fun context le lt =>
    same.records context (Nat.le_trans above le) (Nat.lt_of_lt_of_le lt below)
  pending := fun context le lt =>
    same.pending context (Nat.le_trans above le) (Nat.lt_of_lt_of_le lt below)

theorem Carries.same {first second : Elog} {low high : MemoryContext} {raised : Raised}
    {exception : CppException} (carried : Carries first low high raised exception)
    (same : first.SameFrom second low high) : Carries second low high raised exception := by
  cases raised <;> cases exception <;> try exact carried
  case pg.pg edata mcxt errorCxt =>
    obtain ⟨held, above, below, kept⟩ := carried
    exact ⟨(same.records _ above below).trans held, above, below,
      fun pending => kept ((same.pending _ above below).mp pending)⟩
  case gone.pg mcxt errorCxt =>
    obtain ⟨deleted, above, below⟩ := carried
    rw [← same.records _ above below, ← same.pending _ above below] at deleted
    exact ⟨deleted, above, below⟩

theorem Stacked.same {first second : Elog} {low high : MemoryContext} {values : List Raised}
    {objects : List CppException} (stacked : Stacked first low high values objects)
    (same : first.SameFrom second low high) : Stacked second low high values objects := by
  induction stacked with
  | nil le => exact .nil le
  | cons le carried rest ih =>
    exact .cons le (carried.same (same.narrow rest.le (Nat.le_refl _)))
      (ih (same.narrow (Nat.le_refl _) le))

/-! ## The end of an exception object -/

/-- The error machinery after an exception object ended. -/
def CppException.destroyed (elog : Elog) : CppException → Elog
  | .pg _ errorCxt => elog.deleteRecord errorCxt
  | .std _ => elog
  | .other => elog

theorem dropException_apply (exception : CppException) (s : Machine Backend) :
    dropException exception s =
      (.returned (), { s with
        store := { s.store with elog := exception.destroyed s.store.elog } }) := by
  cases exception <;> rfl

/-- The end of a caught exception frees its own context only. -/
theorem Carries.destroyed {now : Elog} {low high low' high' : MemoryContext} {raised : Raised}
    {exception : CppException} (carried : Carries now low high raised exception)
    (apart : high' ≤ low ∨ high ≤ low') :
    now.SameFrom (exception.destroyed now) low' high' := by
  cases exception with
  | std what => exact ⟨fun _ _ _ => rfl, fun _ _ _ => Iff.rfl⟩
  | other => exact ⟨fun _ _ _ => rfl, fun _ _ _ => Iff.rfl⟩
  | pg mcxt errorCxt =>
    have inside : low ≤ errorCxt ∧ errorCxt < high := by
      cases raised <;> first | exact carried.elim | skip
      · exact ⟨carried.2.1, carried.2.2.1⟩
      · exact carried.2
    refine ⟨fun context above below => ?_, fun _ _ _ => Iff.rfl⟩
    change (if context = errorCxt then none else now.records context) = _
    refine if_neg ?_
    rintro rfl
    rcases apart with before | after
    · exact absurd (Nat.lt_of_lt_of_le below before) (Nat.not_lt.mpr inside.1)
    · exact absurd (Nat.lt_of_lt_of_le inside.2 after) (Nat.not_lt.mpr above)

section Destroyed
variable (now : Elog) (exception : CppException)

@[simp] theorem destroyed_exceptionStack :
    (exception.destroyed now).exceptionStack = now.exceptionStack := by cases exception <;> rfl

@[simp] theorem destroyed_errorContextStack :
    (exception.destroyed now).errorContextStack = now.errorContextStack := by
  cases exception <;> rfl

@[simp] theorem destroyed_nextContext :
    (exception.destroyed now).nextContext = now.nextContext := by cases exception <;> rfl

@[simp] theorem destroyed_resetCallbacks :
    (exception.destroyed now).resetCallbacks = now.resetCallbacks := by cases exception <;> rfl

end Destroyed

/-- An exception caught since `before` ends: nothing older is touched. -/
theorem Frame.destroyed {before now : Elog} {low high : MemoryContext} {raised : Raised}
    {exception : CppException} (frame : Frame before now)
    (carried : Carries now low high raised exception) (new : before.nextContext ≤ low) :
    Frame before (exception.destroyed now) where
  handlers := by rw [destroyed_exceptionStack, frame.handlers]
  later := by rw [destroyed_nextContext]; exact frame.later
  records := by
    intro context old kept
    have ⟨same, still⟩ := frame.records context old kept
    rw [destroyed_resetCallbacks]
    refine ⟨?_, still⟩
    rw [(carried.destroyed (.inl new)).records context (Nat.zero_le _) old, same]

end Cppgres
