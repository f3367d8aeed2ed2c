/-!
# Runs of a machine with labelled steps

A machine answers an action with its next state, or with none where the action cannot be
taken. What holds along a run is proved from what one step preserves.
-/
namespace Labelled

variable {σ ι : Type} (step : σ → ι → Option σ)

/-- The state after these actions, in order. -/
def run : σ → List ι → Option σ
  | s, [] => some s
  | s, action :: actions => (step s action).bind fun t => run t actions

/-- Each action of the run meets the condition in the state that it is taken in. -/
def Meets (Cond : σ → ι → Prop) : σ → List ι → Prop
  | _, [] => True
  | s, action :: actions => ∀ t, step s action = some t → Cond s action ∧ Meets Cond t actions

/-- Every state on the way, the first and the last included. -/
def Always (Good : σ → Prop) : σ → List ι → Prop
  | s, [] => Good s
  | s, action :: actions => Good s ∧ ∀ t, step s action = some t → Always Good t actions

instance Meets.decidable {Cond : σ → ι → Prop} [∀ s action, Decidable (Cond s action)] :
    ∀ s actions, Decidable (Meets step Cond s actions)
  | _, [] => .isTrue trivial
  | s, action :: actions =>
    match taking : step s action with
    | none => .isTrue fun t same => by simp [taking] at same
    | some t =>
      have : Decidable (Meets step Cond t actions) := Meets.decidable t actions
      decidable_of_iff (Cond s action ∧ Meets step Cond t actions) (by simp [Meets, taking])

variable {step}

theorem run_append (s : σ) (first second : List ι) :
    run step s (first ++ second) = (run step s first).bind fun t => run step t second := by
  induction first generalizing s with
  | nil => rfl
  | cons action actions ih =>
    simp only [List.cons_append, run]
    cases step s action with
    | none => rfl
    | some t => simpa using ih t

theorem run_cons {s t : σ} {action : ι} {actions : List ι} :
    run step s (action :: actions) = some t ↔
      ∃ u, step s action = some u ∧ run step u actions = some t := by
  simp [run, Option.bind_eq_some_iff]

theorem run_singleton {s t : σ} {action : ι} :
    run step s [action] = some t ↔ step s action = some t := by
  simp [run]

theorem Always.head {Good : σ → Prop} {s : σ} {actions : List ι}
    (always : Always step Good s actions) : Good s := by
  cases actions with
  | nil => exact always
  | cons action actions => exact always.1

/-- The states on the way are those that the beginnings of the run reach. -/
theorem always_iff {Good : σ → Prop} {s : σ} {actions : List ι} :
    Always step Good s actions ↔
      ∀ taken t, taken <+: actions → run step s taken = some t → Good t := by
  induction actions generalizing s with
  | nil =>
    constructor
    · intro good taken t isPrefix reached
      rw [List.prefix_nil.mp isPrefix, run, Option.some.injEq] at reached
      rwa [← reached]
    · intro good
      exact good [] s List.prefix_rfl rfl
  | cons action actions ih =>
    constructor
    · intro always taken t isPrefix reached
      cases taken with
      | nil =>
        rw [run, Option.some.injEq] at reached
        rw [← reached]
        exact always.1
      | cons first taken =>
        obtain ⟨same, rest⟩ := List.cons_prefix_cons.mp isPrefix
        subst same
        obtain ⟨u, taking, reached⟩ := Option.bind_eq_some_iff.mp reached
        exact ih.mp (always.2 u taking) taken t rest reached
    · intro good
      refine ⟨good [] s List.nil_prefix rfl, fun u taking => ih.mpr ?_⟩
      intro taken t isPrefix reached
      apply good (action :: taken) t (List.cons_prefix_cons.mpr ⟨rfl, isPrefix⟩)
      simpa [run, taking] using reached

/-- Where the invariant makes a state good, and each step that meets the condition
preserves it, a run whose steps meet the condition is good all along. -/
theorem always_of_meets {Inv Good : σ → Prop} {Cond : σ → ι → Prop}
    (good : ∀ s, Inv s → Good s)
    (kept : ∀ s action t, Inv s → Cond s action → step s action = some t → Inv t)
    {s : σ} {actions : List ι} (first : Inv s) (meets : Meets step Cond s actions) :
    Always step Good s actions := by
  induction actions generalizing s with
  | nil => exact good s first
  | cons action actions ih =>
    refine ⟨good s first, fun t taking => ?_⟩
    obtain ⟨cond, rest⟩ := meets t taking
    exact ih (kept s action t first cond taking) rest

/-- Where a run whose steps meet the condition ends, what each such step preserves holds. -/
theorem inv_of_meets {Inv : σ → Prop} {Cond : σ → ι → Prop}
    (kept : ∀ s action t, Inv s → Cond s action → step s action = some t → Inv t)
    {s t : σ} {actions : List ι} (first : Inv s) (meets : Meets step Cond s actions)
    (reached : run step s actions = some t) : Inv t :=
  always_iff.mp (always_of_meets (fun _ inv => inv) kept first meets) actions t List.prefix_rfl
    reached

theorem meets_of_forall {Cond : σ → ι → Prop} {s : σ} {actions : List ι}
    (cond : ∀ action ∈ actions, ∀ t, Cond t action) : Meets step Cond s actions := by
  induction actions generalizing s with
  | nil => trivial
  | cons action actions ih =>
    intro t _
    exact ⟨cond action List.mem_cons_self s,
      ih fun later listed => cond later (List.mem_cons_of_mem _ listed)⟩

theorem Meets.mono {Cond Weaker : σ → ι → Prop}
    (implies : ∀ s action, Cond s action → Weaker s action) {s : σ} {actions : List ι}
    (meets : Meets step Cond s actions) : Meets step Weaker s actions := by
  induction actions generalizing s with
  | nil => trivial
  | cons action actions ih =>
    intro t taking
    obtain ⟨first, rest⟩ := meets t taking
    exact ⟨implies s action first, ih rest⟩

/-- A condition that implies another in the states of an invariant that it keeps. -/
theorem Meets.of_inv {Inv : σ → Prop} {Cond Other : σ → ι → Prop}
    (kept : ∀ s action t, Inv s → Cond s action → step s action = some t → Inv t)
    (implies : ∀ s action, Inv s → Cond s action → Other s action)
    {s : σ} {actions : List ι} (first : Inv s) (meets : Meets step Cond s actions) :
    Meets step Other s actions := by
  induction actions generalizing s with
  | nil => trivial
  | cons action actions ih =>
    intro t taking
    obtain ⟨cond, rest⟩ := meets t taking
    exact ⟨implies s action first cond, ih (kept s action t first cond taking) rest⟩

theorem meets_and {Cond Also : σ → ι → Prop} {s : σ} {actions : List ι}
    (one : Meets step Cond s actions) (two : Meets step Also s actions) :
    Meets step (fun t action => Cond t action ∧ Also t action) s actions := by
  induction actions generalizing s with
  | nil => trivial
  | cons action actions ih =>
    intro t taking
    obtain ⟨first, rest⟩ := one t taking
    obtain ⟨also, others⟩ := two t taking
    exact ⟨⟨first, also⟩, ih rest others⟩

/-- Where, moreover, a step from a state of the invariant leads to a good state only by
meeting the condition, no other run is good all along. -/
theorem always_iff_meets {Inv Good : σ → Prop} {Cond : σ → ι → Prop}
    (good : ∀ s, Inv s → Good s)
    (kept : ∀ s action t, Inv s → Cond s action → step s action = some t → Inv t)
    (needed : ∀ s action t, Inv s → step s action = some t → Good t → Cond s action)
    {s : σ} {actions : List ι} (first : Inv s) :
    Always step Good s actions ↔ Meets step Cond s actions := by
  refine ⟨fun always => ?_, always_of_meets good kept first⟩
  induction actions generalizing s with
  | nil => trivial
  | cons action actions ih =>
    intro t taking
    have rest := always.2 t taking
    have cond := needed s action t first taking rest.head
    exact ⟨cond, ih (kept s action t first cond taking) rest⟩

/-- Two conditions that agree in the states of an invariant, which steps that meet them keep, are
met by the same runs. -/
theorem meets_iff_meets {Inv : σ → Prop} {Cond Other : σ → ι → Prop}
    (kept : ∀ s action t, Inv s → Cond s action → step s action = some t → Inv t)
    (agree : ∀ s action t, Inv s → step s action = some t → (Other s action ↔ Cond s action))
    {s : σ} {actions : List ι} (first : Inv s) :
    Meets step Other s actions ↔ Meets step Cond s actions := by
  induction actions generalizing s with
  | nil => rfl
  | cons action actions ih =>
    refine forall_congr' fun t => forall_congr' fun taking => ?_
    rw [agree s action t first taking]
    exact and_congr_right fun cond => ih (kept s action t first cond taking)

/-- Where actions have outcomes, and each is right in a state of the invariant if and only if it
meets the condition, all actions of a run are right if and only if all meet the condition. -/
theorem meets_done_iff {ο : Type} {exec : σ → ι → Option (ο × σ)} {Inv : σ → Prop}
    {Right : σ → ι → ο → σ → Prop} {Cond : σ → ι → Prop}
    (right_iff : ∀ s action outcome t, Inv s → exec s action = some (outcome, t) →
      (Cond s action → Inv t) ∧ (Right s action outcome t ↔ Cond s action))
    {s : σ} {actions : List ι} (first : Inv s) :
    Meets (fun s action => (exec s action).map Prod.snd)
        (fun s action => ∀ outcome t, exec s action = some (outcome, t) → Right s action outcome t)
        s actions ↔
      Meets (fun s action => (exec s action).map Prod.snd) Cond s actions := by
  refine meets_iff_meets (fun s action t inv cond taking => ?_) (fun s action t inv taking => ?_) first
  · obtain ⟨⟨outcome, _⟩, executed, rfl⟩ := Option.map_eq_some_iff.mp taking
    exact (right_iff s action outcome _ inv executed).1 cond
  · obtain ⟨⟨outcome, _⟩, executed, rfl⟩ := Option.map_eq_some_iff.mp taking
    rw [← (right_iff s action outcome _ inv executed).2]
    constructor
    · exact fun done => done outcome _ executed
    · intro right other next also
      cases executed.symm.trans also
      exact right

/-- What the last action of a run meets. -/
theorem Meets.last {Cond : σ → ι → Prop} {s t u : σ} {taken : List ι} {action : ι}
    (meets : Meets step Cond s (taken ++ [action])) (reached : run step s taken = some t)
    (taking : step t action = some u) : Cond t action := by
  induction taken generalizing s with
  | nil =>
    cases reached
    exact (meets u taking).1
  | cons first taken ih =>
    obtain ⟨v, stepped, reached⟩ := run_cons.mp reached
    exact ih (meets v stepped).2 reached

end Labelled
