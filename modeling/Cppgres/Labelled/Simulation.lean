import Cppgres.Labelled.Runs

/-!
# One machine in terms of another

Where each action of a machine has the outcome that it has in another one, in the state that an
abstraction makes of the first, so do all actions of a run.
-/
namespace Labelled

variable {σ τ ι ο : Type}

/-- The outcomes of these actions, in order, and the state after them. -/
def outcomes (exec : σ → ι → Option (ο × σ)) : σ → List ι → Option (List ο × σ)
  | s, [] => some ([], s)
  | s, action :: actions => (exec s action).bind fun (outcome, t) =>
    (outcomes exec t actions).map fun (later, u) => (outcome :: later, u)

/-- The first machine's actions are those of the second, seen through the abstraction. -/
def Simulates (exec : σ → ι → Option (ο × σ)) (exec' : τ → ι → Option (ο × τ)) (abstract : σ → τ) :
    Prop :=
  ∀ s action, (exec s action).map (Prod.map id abstract) = exec' (abstract s) action

variable {exec : σ → ι → Option (ο × σ)} {exec' : τ → ι → Option (ο × τ)} {abstract : σ → τ}

/-- Where the actions are those of the second machine in the states of an invariant that they keep,
so are all actions of a run. -/
theorem outcomes_of_inv {Inv : σ → Prop}
    (kept : ∀ s action outcome t, Inv s → exec s action = some (outcome, t) → Inv t)
    (square : ∀ s action, Inv s →
      (exec s action).map (Prod.map id abstract) = exec' (abstract s) action)
    {s : σ} (first : Inv s) (actions : List ι) :
    (outcomes exec s actions).map (Prod.map id abstract) =
      outcomes exec' (abstract s) actions := by
  induction actions generalizing s with
  | nil => rfl
  | cons action actions ih =>
    unfold outcomes
    rw [← square s action first]
    cases done : exec s action with
    | none => rfl
    | some found =>
      obtain ⟨outcome, t⟩ := found
      have later := ih (kept s action outcome t first done)
      dsimp only [Option.map_some, Option.bind_some, Prod.map_apply, id]
      rw [← later]
      cases outcomes exec t actions <;> rfl

theorem Simulates.outcomes (simulates : Simulates exec exec' abstract) (s : σ) (actions : List ι) :
    (outcomes exec s actions).map (Prod.map id abstract) =
      Labelled.outcomes exec' (abstract s) actions :=
  @outcomes_of_inv σ τ ι ο exec exec' abstract (fun _ => True) (fun _ _ _ _ _ _ => trivial)
    (fun s action _ => simulates s action) s trivial actions

/-- A machine that answers each of these actions in the states of an invariant, and keeps that, has a
state after them. -/
theorem exists_outcomes {Inv : σ → Prop} {actions : List ι}
    (answers : ∀ s, ∀ action ∈ actions, Inv s →
      ∃ outcome t, exec s action = some (outcome, t) ∧ Inv t) {s : σ} (first : Inv s) :
    ∃ results t, Labelled.outcomes exec s actions = some (results, t) ∧ Inv t := by
  induction actions generalizing s with
  | nil => exact ⟨[], s, rfl, first⟩
  | cons action actions ih =>
    obtain ⟨outcome, u, ran, kept⟩ := answers s action List.mem_cons_self first
    obtain ⟨results, t, rest, last⟩ :=
      ih (fun s other member => answers s other (List.mem_cons_of_mem _ member)) kept
    unfold Labelled.outcomes
    rw [ran, Option.bind_some]
    dsimp only
    rw [rest]
    exact ⟨_, _, rfl, last⟩

end Labelled
