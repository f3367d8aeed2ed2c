import Cppgres.NonLocal.Ends

/-!
# The handlers that a run enters

`p.catches s` lists the try-blocks of a run of `p` from `s` whose handler is entered: the
stage at the entry of the block beside the stage at the entry of its handler. Between the
two the invariant of a set of rules holds again, and the objects around the block are the
same.
-/
namespace NonLocal

variable {ε β σ α : Type} {G : GuardClass ε β σ}

/-- A try-block whose handler was entered. -/
structure Caught (G : GuardClass ε β σ) where
  entry : Machine (Stage G)
  landed : Machine (Stage G)

/-- The same blocks as in `Prog.run`; the end of an object's scope runs no program. -/
def Prog.catches : Prog G → Machine (Stage G) → List (Caught G)
  | .skip, _ => []
  | .act _, _ => []
  | .call _ _, _ => []
  | .throw _, _ => []
  | .seq first second, s =>
    first.catches s ++
      match first.run s with
      | (.returned _, t) => second.catches t
      | _ => []
  | .attempt accepts body handler _, s =>
    body.catches s ++
      match body.run s with
      | (.thrown exception, t) =>
        let landed := { t with uncaught := t.uncaught - 1 }
        if accepts exception then ⟨s, landed⟩ :: handler.catches landed else []
      | _ => []
  | .scope decl body, s =>
    match G.opening decl s with
    | (.returned _, t) => body.catches t
    | _ => []
  | .cleanup destructor body, s =>
    body.catches s ++
      match body.run s with
      | (.returned _, t) => destructor.catches t
      | (.thrown _, t) => destructor.catches t
      | _ => []

section Catches
variable {Inv : Machine (Stage G) → Prop}

/-- Rules that ask nothing of a program. -/
abbrev Unconditional (G : GuardClass ε β σ) (Inv : Machine (Stage G) → Prop) : Prop :=
  Rules G Inv (fun _ => True) fun _ => True

theorem Unconditional.run (rules : Unconditional G Inv) (p : Prog G) {s : Machine (Stage G)} (inv : Inv s) :
    Keeps (Again Inv s) s.uncaught (p.run s) :=
  (p.run_obeys rules s inv (fun _ _ => trivial) fun _ _ => trivial).2

/-- A program starts its scope in a stage with the invariant, if it starts it at all. -/
theorem Unconditional.opened (rules : Unconditional G Inv) {decl : G.Decl} {s t : Machine (Stage G)}
    {value : Unit} (inv : Inv s) (run : G.opening decl s = (.returned value, t)) : Inv t := by
  have keeps := (rules.open_ decl s inv trivial).2
  rw [run] at keeps
  exact keeps.2

/-- The invariant holds at the entry of the block and at the entry of its handler, with the
same objects alive. -/
def Caught.Keeps (Inv : Machine (Stage G) → Prop) (c : Caught G) : Prop :=
  Inv c.entry ∧ Again Inv c.entry c.landed

theorem Prog.catches_keep (rules : Unconditional G Inv) (p : Prog G) {s : Machine (Stage G)}
    (inv : Inv s) : ∀ c ∈ p.catches s, c.Keeps Inv := by
  induction p generalizing s with
  | skip => simp [catches]
  | act work => simp [catches]
  | call index op => simp [catches]
  | throw exception => simp [catches]
  | seq first second one two =>
    intro c member
    have keeps := rules.run first inv
    unfold catches at member
    rcases List.mem_append.mp member with here | later
    · exact one inv c here
    · generalize first.run s = run at keeps later
      obtain ⟨exit, t⟩ := run
      cases exit with
      | returned value => exact two keeps.2.1 c later
      | thrown exception => cases later
      | jumped buffer => cases later
      | aborted => cases later
  | attempt accepts body handler again one two =>
    intro c member
    have keeps := rules.run body inv
    unfold catches at member
    rcases List.mem_append.mp member with here | later
    · exact one inv c here
    · generalize body.run s = run at keeps later
      obtain ⟨exit, t⟩ := run
      cases exit with
      | returned value => cases later
      | thrown exception =>
        dsimp only at later
        have landed : Inv { t with uncaught := t.uncaught - 1 } :=
          rules.uncaught t (t.uncaught - 1) keeps.2.1
        split at later
        · rcases List.mem_cons.mp later with same | inside
          · subst same
            exact ⟨inv, landed, keeps.2.2⟩
          · exact two landed c inside
        · cases later
      | jumped buffer => cases later
      | aborted => cases later
  | scope decl body ih =>
    intro c member
    unfold catches at member
    rcases run : G.opening decl s with ⟨exit, t⟩
    rw [run] at member
    cases exit with
    | returned value => exact ih (rules.opened inv run) c member
    | thrown exception => cases member
    | jumped buffer => cases member
    | aborted => cases member
  | cleanup destructor body one two =>
    intro c member
    have keeps := rules.run body inv
    unfold catches at member
    rcases List.mem_append.mp member with here | later
    · exact two inv c here
    · generalize body.run s = run at keeps later
      obtain ⟨exit, t⟩ := run
      cases exit with
      | returned value => exact one keeps.2.1 c later
      | thrown exception => exact one keeps.2.1 c later
      | jumped buffer => cases later
      | aborted => cases later

end Catches

end NonLocal
