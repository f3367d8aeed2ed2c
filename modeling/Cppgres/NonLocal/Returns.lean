import Cppgres.NonLocal.Code

/-!
# When code returns

`m.Returns s post`: from `s` the code returns, and `post` holds of its value and of the
machine it leaves. There is one equivalence for each construct, so that a program can be
computed from its end to its beginning.
-/
namespace NonLocal.Code

variable {ε β σ α γ : Type}

def Returns (m : Code ε β σ α) (s : Machine σ) (post : α → Machine σ → Prop) : Prop :=
  match m s with
  | (.returned value, t) => post value t
  | (.thrown _, _) => False
  | (.jumped _, _) => False
  | (.aborted, _) => False

section
variable {m : Code ε β σ α} {s : Machine σ} {post post' : α → Machine σ → Prop}

theorem returns_iff : m.Returns s post ↔ ∃ value t, m s = (.returned value, t) ∧ post value t := by
  unfold Returns
  rcases m s with ⟨exit, t⟩
  cases exit with
  | returned value =>
    constructor
    · exact fun holds => ⟨value, t, rfl, holds⟩
    · rintro ⟨_, _, same, holds⟩
      cases same
      exact holds
  | thrown exception => exact ⟨False.elim, fun ⟨_, _, same, _⟩ => nomatch same⟩
  | jumped buffer => exact ⟨False.elim, fun ⟨_, _, same, _⟩ => nomatch same⟩
  | aborted => exact ⟨False.elim, fun ⟨_, _, same, _⟩ => nomatch same⟩

theorem Returns.congr {other : Code ε β σ α} {t : Machine σ} (same : m s = other t) :
    m.Returns s post ↔ other.Returns t post := by
  unfold Returns
  rw [same]

theorem Returns.mono (returns : m.Returns s post) (more : ∀ value t, post value t → post' value t) :
    m.Returns s post' := by
  obtain ⟨value, t, run, holds⟩ := returns_iff.mp returns
  exact returns_iff.mpr ⟨value, t, run, more value t holds⟩

end

section Constructs
variable {m : Code ε β σ α} {f : α → Code ε β σ γ} {s : Machine σ}

@[simp] theorem returns_pure {value : α} {post : α → Machine σ → Prop} :
    (pure value : Code ε β σ α).Returns s post ↔ post value s := Iff.rfl

@[simp] theorem returns_throwing {exception : ε} {post : α → Machine σ → Prop} :
    (throwing exception : Code ε β σ α).Returns s post ↔ False := Iff.rfl

@[simp] theorem returns_get {post : σ → Machine σ → Prop} :
    (get : Code ε β σ σ).Returns s post ↔ post s.store s := Iff.rfl

@[simp] theorem returns_modify {g : σ → σ} {post : Unit → Machine σ → Prop} :
    (modify g : Code ε β σ Unit).Returns s post ↔ post () { s with store := g s.store } := Iff.rfl

@[simp] theorem returns_bind {post : γ → Machine σ → Prop} :
    (m >>= f).Returns s post ↔ m.Returns s fun value t => (f value).Returns t post := by
  unfold Returns
  rw [bind_apply]
  rcases m s with ⟨exit, t⟩
  cases exit <;> exact Iff.rfl

theorem Returns.bind {middle : α → Machine σ → Prop} {post : γ → Machine σ → Prop}
    (first : m.Returns s middle)
    (second : ∀ value t, middle value t → (f value).Returns t post) : (m >>= f).Returns s post :=
  returns_bind.mpr (first.mono second)

@[simp] theorem returns_raii {destructor : Code ε β σ Unit} {post : α → Machine σ → Prop} :
    (raii m destructor).Returns s post ↔
      m.Returns s fun value t => destructor.Returns t fun _ u => post value u := by
  unfold Returns raii leaving
  rcases m s with ⟨exit, t⟩
  cases exit with
  | returned value =>
    dsimp only
    rcases destructor t with ⟨done, u⟩
    cases done <;> exact Iff.rfl
  | thrown exception =>
    dsimp only
    rcases destructor t with ⟨done, u⟩
    cases done <;> exact Iff.rfl
  | jumped buffer => exact Iff.rfl
  | aborted => exact Iff.rfl

/-- A handler that never returns is no way to return. -/
theorem returns_catching {handler : ε → Code ε β σ α} {post : α → Machine σ → Prop}
    (never : ∀ exception t, ¬ (handler exception).Returns t post) :
    (catching m handler).Returns s post ↔ m.Returns s post := by
  unfold Returns catching
  generalize m s = run
  obtain ⟨exit, t⟩ := run
  cases exit with
  | returned value => exact Iff.rfl
  | thrown exception => exact ⟨never exception { t with uncaught := t.uncaught - 1 }, False.elim⟩
  | jumped buffer => exact Iff.rfl
  | aborted => exact Iff.rfl

/-- Neither is a landing that never returns. -/
theorem returns_sigsetjmp [DecidableEq β] {buffer : β} {landed : Code ε β σ α}
    {post : α → Machine σ → Prop} (never : ∀ t, ¬ landed.Returns t post) :
    (sigsetjmp buffer m landed).Returns s post ↔ m.Returns s post := by
  unfold Returns sigsetjmp
  generalize m s = run
  obtain ⟨exit, t⟩ := run
  cases exit with
  | returned value => exact Iff.rfl
  | thrown exception => exact Iff.rfl
  | aborted => exact Iff.rfl
  | jumped target =>
    dsimp only
    by_cases own : target = buffer
    · rw [if_pos own]
      exact ⟨never t, False.elim⟩
    · rw [if_neg own]

end Constructs

end NonLocal.Code
