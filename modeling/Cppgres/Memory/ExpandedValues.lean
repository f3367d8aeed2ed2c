import Cppgres.Memory.Expanded

/-!
# The values of expanded values

Each action on expanded values does what it is to do if and only if it is one that the class
takes: an access while the expanded object is there, a datum of an object that was expanded.
-/
namespace Cppgres
open Regions Labelled TrackedMemory

variable {ω T : Type} [DecidableEq ω]

namespace ExpandedMemory

/-- Memory and objects are added, and what was there before stays as it is. -/
structure Grows (m next : ExpandedMemory ω T) : Prop where
  chunks : ∀ address, address < m.base.tracked.memory.fresh →
    next.base.tracked.memory.chunks address = m.base.tracked.memory.chunks address
  inners : ∀ address, address < m.base.tracked.memory.fresh → next.inners address = m.inners address
  fresh : m.base.tracked.memory.fresh ≤ next.base.tracked.memory.fresh

/-- The base is sound, and expanded objects are where memory was made. -/
structure Based (m : ExpandedMemory ω T) : Prop where
  base : m.base.Sound
  below : ∀ address, (m.inners address).isSome → address < m.base.tracked.memory.fresh

/-- What an object keeps is an expanded object; before it keeps one it has not detoasted
anything. -/
structure Sound (m : ExpandedMemory ω T) : Prop extends Based m where
  kept : ∀ this expanded, m.detoastedValue.lookup this = some expanded →
    this ∈ m.base.objects ∧ (m.inners expanded).isSome
  undetoasted : ∀ this object, m.base.objects.lookup this = some object →
    m.detoastedValue.lookup this = none → object.detoasted = none
  known : ∀ this object, m.base.objects.lookup this = some object →
    object.valueDatum < m.base.tracked.memory.fresh

variable {flattenable : Flattenable T} {m next : ExpandedMemory ω T} {this other : ω}
  {object : VarlenaValue} {address pointer expanded currentMemoryContext ctx : Nat} {inner : T}

omit [DecidableEq ω] in
theorem Grows.trans {last : ExpandedMemory ω T} (one : m.Grows next) (two : next.Grows last) :
    m.Grows last where
  chunks address below := (two.chunks address (Nat.lt_of_lt_of_le below one.fresh)).trans
    (one.chunks address below)
  inners address below := (two.inners address (Nat.lt_of_lt_of_le below one.fresh)).trans
    (one.inners address below)
  fresh := Nat.le_trans one.fresh two.fresh

omit [DecidableEq ω] in
theorem Grows.denotes (grows : m.Grows next) (below : pointer < m.base.tracked.memory.fresh) :
    next.denotes flattenable pointer = m.denotes flattenable pointer := by
  unfold ExpandedMemory.denotes
  rw [grows.chunks pointer below, grows.inners pointer below]

omit [DecidableEq ω] in
/-- The value of an expanded object that is there. -/
theorem denotes_of_inners (there : m.there pointer = true) (holds : m.inners pointer = some inner) :
    m.denotes flattenable pointer = some inner := by
  unfold ExpandedMemory.denotes
  obtain ⟨chunk, held⟩ := Option.isSome_iff_exists.mp there
  rw [held, holds]
  rfl

theorem Sound.place_lt (sound : m.Sound) (found : m.place this = some address) :
    address < m.base.tracked.memory.fresh := by
  unfold place at found
  obtain ⟨object, known, same⟩ := Option.map_eq_some_iff.mp found
  cases cached : m.detoastedValue.lookup this with
  | none =>
    rw [cached] at same
    exact same ▸ sound.known this object known
  | some expanded =>
    rw [cached] at same
    exact same ▸ sound.below expanded (sound.kept this expanded cached).2

/-- An object whose value is kept where it was has the value that it had. -/
theorem Grows.current (grows : m.Grows next) (sound : m.Sound)
    (same : next.place this = m.place this) :
    next.current flattenable this = m.current flattenable this := by
  unfold ExpandedMemory.current
  rw [same]
  cases found : m.place this with
  | none => rfl
  | some address => exact grows.denotes (sound.place_lt found)

theorem place_congr (objects : next.base.objects.lookup this = m.base.objects.lookup this)
    (values : next.detoastedValue.lookup this = m.detoastedValue.lookup this) :
    next.place this = m.place this := by
  unfold place
  rw [objects, values]

/-! ## Operations of the base class -/

theorem onBase_eq_some {action : VarlenaAction ω} :
    m.onBase action = some next ↔ ∃ base, m.base.step action = some base ∧ next = { m with base } := by
  unfold onBase
  simp [eq_comm]

/-- Operations on the members of objects only add to memory. -/
theorem grows_perform {base : VarlenaMemory ω}
    {actions : List (TrackingAction (ω × VarlenaMember))} {objects : AList fun _ : ω => VarlenaValue}
    (keeps : ∀ action ∈ actions, ¬ Frees action)
    (performed : m.base.perform actions objects = some base) :
    m.Grows { m with base } ∧ base.objects = objects := by
  obtain ⟨tracked, reached, rfl⟩ := VarlenaMemory.perform_eq_some.mp performed
  obtain ⟨chunks, fresh⟩ := chunks_run keeps reached
  exact ⟨⟨fun _ _ => by rw [chunks], fun _ _ => rfl, fresh⟩, rfl⟩

/-- What a new context or new memory leaves. -/
structure Extends (m next : ExpandedMemory ω T) : Prop extends Grows m next, Based next where
  objects : next.base.objects = m.base.objects
  values : next.detoastedValue = m.detoastedValue

theorem Extends.trans {last : ExpandedMemory ω T} (one : m.Extends next) (two : next.Extends last) :
    m.Extends last where
  toGrows := one.toGrows.trans two.toGrows
  toBased := two.toBased
  objects := two.objects.trans one.objects
  values := two.values.trans one.values

theorem Extends.sound (extended : m.Extends next) (sound : m.Sound) : next.Sound where
  toBased := extended.toBased
  kept this expanded found := by
    rw [extended.values] at found
    obtain ⟨known, there⟩ := sound.kept this expanded found
    refine ⟨extended.objects ▸ known, ?_⟩
    rw [extended.inners expanded (sound.below expanded there)]
    exact there
  undetoasted this object found none := by
    rw [extended.objects] at found
    rw [extended.values] at none
    exact sound.undetoasted this object found none
  known this object found := by
    rw [extended.objects] at found
    exact Nat.lt_of_lt_of_le (sound.known this object found) extended.fresh

theorem Extends.current (extended : m.Extends next) (sound : m.Sound) :
    next.current flattenable this = m.current flattenable this :=
  extended.toGrows.current sound (place_congr (by rw [extended.objects]) (by rw [extended.values]))

/-- A new context. -/
theorem Based.create (based : m.Based) {parent : Option Nat}
    (taking : m.onBase (.create parent) = some next) : m.Extends next := by
  obtain ⟨base, taken, rfl⟩ := onBase_eq_some.mp taking
  obtain ⟨grows, objects⟩ := grows_perform (by simp [Frees]) taken
  exact ⟨grows, ⟨based.base.onContexts (.create parent) (fun _ => trivial) (fun _ => id) taken,
    fun address there => Nat.lt_of_lt_of_le (based.below address there) grows.fresh⟩, objects, rfl⟩

/-- New memory. -/
theorem Based.alloc (based : m.Based) {varlena : Varlena}
    (taking : m.onBase (.alloc ctx varlena) = some next) :
    m.Extends next ∧ next.base.tracked.memory.chunks m.base.tracked.memory.fresh =
      some (ctx, varlena) ∧ next.base.tracked.memory.fresh = m.base.tracked.memory.fresh + 1 ∧
      next.inners = m.inners := by
  obtain ⟨base, taken, rfl⟩ := onBase_eq_some.mp taking
  obtain ⟨isLive, same⟩ := Option.dite_none_right_eq_some.mp taken
  cases same
  refine ⟨⟨⟨?_, fun _ _ => rfl, Nat.le_succ _⟩, ⟨based.base.alloc isLive, ?_⟩, rfl, rfl⟩,
    by simp [Store.alloc], rfl, rfl⟩
  · intro address below
    simp only [Store.alloc]
    rw [if_neg (by omega)]
  · intro address there
    exact Nat.lt_succ_of_lt (based.below address there)

/-- A new expanded object. -/
theorem Based.makeExpanded (based : m.Based)
    (taking : m.makeExpanded inner currentMemoryContext = some (expanded, next)) :
    m.Extends next ∧ m.base.tracked.memory.fresh ≤ expanded ∧
      expanded < next.base.tracked.memory.fresh ∧ next.inners expanded = some inner ∧
      next.there expanded = true := by
  unfold ExpandedMemory.makeExpanded at taking
  obtain ⟨created, taken, taking⟩ := Option.bind_eq_some_iff.mp taking
  obtain ⟨allocated, took, same⟩ := Option.bind_eq_some_iff.mp taking
  cases same
  have first := based.create taken
  obtain ⟨second, held, more, inners⟩ := first.toBased.alloc took
  have both := first.trans second
  refine ⟨⟨⟨both.chunks, ?_, both.fresh⟩, ⟨both.base, ?_⟩, both.objects, both.values⟩, first.fresh,
    by simp only [more]; omega, by simp, by simp [there, held]⟩
  · intro address below
    have old : address ≠ created.base.tracked.memory.fresh := by
      have := first.fresh
      omega
    simp only [if_neg old]
  · intro address there
    simp only at there
    split at there
    · rename_i same
      simp only [more]
      omega
    · simp only [more]
      exact Nat.lt_of_lt_of_le (based.below address there)
        (Nat.le_trans first.fresh (Nat.le_succ _))

/-! ## Objects -/

/-- One object is new, or keeps an expanded object that it did not keep before. -/
structure Sets (m next : ExpandedMemory ω T) (this : ω) (object : VarlenaValue)
    (value : Option Nat) : Prop extends Grows m next, Based next where
  objects : ∀ one, next.base.objects.lookup one =
    if one = this then some object else m.base.objects.lookup one
  values : ∀ one, next.detoastedValue.lookup one =
    if one = this then value else m.detoastedValue.lookup one
  known : object.valueDatum < next.base.tracked.memory.fresh
  kept : ∀ expanded, value = some expanded → (next.inners expanded).isSome
  undetoasted : value = none → object.detoasted = none

variable {value : Option Nat}

theorem Sets.sound (sets : m.Sets next this object value) (sound : m.Sound) : next.Sound where
  toBased := sets.toBased
  kept one expanded found := by
    rw [sets.values] at found
    rw [← AList.lookup_isSome, sets.objects]
    split at found
    · rename_i same
      rw [if_pos same]
      exact ⟨rfl, sets.kept expanded found⟩
    · rename_i other
      obtain ⟨known, there⟩ := sound.kept one expanded found
      rw [if_neg other, AList.lookup_isSome, sets.inners expanded (sound.below expanded there)]
      exact ⟨known, there⟩
  undetoasted one found known none := by
    rw [sets.objects] at known
    rw [sets.values] at none
    split at known
    · rename_i same
      rw [if_pos same] at none
      cases known
      exact sets.undetoasted none
    · rename_i other
      rw [if_neg other] at none
      exact sound.undetoasted one found known none
  known one found known := by
    rw [sets.objects] at known
    split at known
    · cases known
      exact sets.known
    · exact Nat.lt_of_lt_of_le (sound.known one found known) sets.fresh

theorem Sets.place (sets : m.Sets next this object value) :
    next.place this = some (value.getD object.valueDatum) := by
  unfold ExpandedMemory.place
  rw [sets.objects, sets.values, if_pos rfl, if_pos rfl]
  rfl

theorem Sets.current_other (sets : m.Sets next this object value) (sound : m.Sound)
    (different : other ≠ this) :
    next.current flattenable other = m.current flattenable other :=
  sets.toGrows.current sound (place_congr (by rw [sets.objects, if_neg different])
    (by rw [sets.values, if_neg different]))

/-- The value of the object is that at the address where it is kept. -/
theorem Sets.current (sets : m.Sets next this object value) :
    next.current flattenable this = next.denotes flattenable (value.getD object.valueDatum) := by
  unfold ExpandedMemory.current
  rw [sets.place, Option.bind_some]

/-- An object that is not there keeps nothing. -/
theorem Sound.lookup_absent (sound : m.Sound) (absent : this ∉ m.base.objects) (one : ω) :
    m.detoastedValue.lookup one = if one = this then none else m.detoastedValue.lookup one := by
  split
  · rename_i same
    cases found : m.detoastedValue.lookup one with
    | none => rfl
    | some expanded => exact absurd (same ▸ (sound.kept one expanded found).1) absent
  · rfl

theorem Sound.absent_of_construct (sound : m.Sound) {objects : AList fun _ : ω => VarlenaValue}
    {base : VarlenaMemory ω}
    (performed : m.base.perform [.construct (this, .ctx) ctx] objects = some base) :
    this ∉ m.base.objects := by
  obtain ⟨tracked, reached, -⟩ := VarlenaMemory.perform_eq_some.mp performed
  have taken := run_singleton.mp reached
  exact sound.base.unknown (Option.ite_none_left_eq_some.mp taken).1

theorem Sound.fromDatum (sound : m.Sound) {source : Nat}
    (taking : m.fromDatum this source ctx = some next) :
    ∃ object, m.Sets next this object none ∧ object.valueDatum = source ∧
      source < m.base.tracked.memory.fresh ∧ this ∉ m.base.objects := by
  unfold ExpandedMemory.fromDatum at taking
  obtain ⟨⟨owner, varlena⟩, held, taking⟩ := Option.bind_eq_some_iff.mp taking
  obtain ⟨base, performed, same⟩ := Option.bind_eq_some_iff.mp taking
  cases same
  have absent := sound.absent_of_construct performed
  obtain ⟨grows, objects⟩ := grows_perform (by simp [Frees]) performed
  have below : source < m.base.tracked.memory.fresh := by
    by_contra above
    rw [m.base.tracked.memory.chunks_fresh source (not_lt.mp above)] at held
    cases held
  refine ⟨⟨source, none, varlena.bytes, decide (ctx ≠ owner)⟩, ⟨grows, ⟨?_, ?_⟩, ?_,
    sound.lookup_absent absent, Nat.lt_of_lt_of_le below grows.fresh, nofun, fun _ => rfl⟩, rfl,
    below, absent⟩
  · exact sound.base.constructOver held (by simp) performed
  · exact fun address there => Nat.lt_of_lt_of_le (sound.below address there) grows.fresh
  · intro one
    rw [objects]
    exact lookup_insert_eq one

theorem Sound.copy (sound : m.Sound) (taking : m.copy this other = some next) :
    ∃ object, m.base.objects.lookup other = some object ∧
      m.Sets next this object (m.detoastedValue.lookup other) ∧ this ∉ m.base.objects := by
  unfold ExpandedMemory.copy at taking
  obtain ⟨copied, taken, same⟩ := Option.bind_eq_some_iff.mp taking
  cases same
  obtain ⟨base, stepped, rfl⟩ := onBase_eq_some.mp taken
  obtain ⟨object, found, performed⟩ := Option.bind_eq_some_iff.mp stepped
  have absent : this ∉ m.base.objects := by
    obtain ⟨tracked, reached, -⟩ := VarlenaMemory.perform_eq_some.mp performed
    obtain ⟨t, first, -⟩ := run_cons.mp reached
    exact sound.base.unknown (Option.ite_none_left_eq_some.mp first).1
  have keeps : ∀ action ∈ m.base.copyMembers this other, ¬ Frees action := by
    unfold VarlenaMemory.copyMembers
    split <;> simp [Frees]
  obtain ⟨grows, objects⟩ := grows_perform keeps performed
  refine ⟨object, found, ⟨⟨grows.chunks, grows.inners, grows.fresh⟩,
    ⟨sound.base.copyConstruct found performed, ?_⟩, ?_, ?_,
    Nat.lt_of_lt_of_le (sound.known other object found) grows.fresh, ?_, ?_⟩, absent⟩
  · exact fun address there => Nat.lt_of_lt_of_le (sound.below address there) grows.fresh
  · intro one
    simp only [objects]
    exact lookup_insert_eq one
  · intro one
    cases kept : m.detoastedValue.lookup other with
    | none => exact sound.lookup_absent absent one
    | some expanded => exact lookup_insert_eq one
  · intro expanded kept
    exact (sound.kept other expanded kept).2
  · exact sound.undetoasted other object found

theorem Sound.construct (sound : m.Sound)
    (taking : m.construct this inner currentMemoryContext = some next) :
    ∃ expanded object, m.Sets next this object (some expanded) ∧
      next.denotes flattenable expanded = some inner ∧ this ∉ m.base.objects := by
  unfold ExpandedMemory.construct at taking
  obtain ⟨⟨expanded, made⟩, making, taking⟩ := Option.bind_eq_some_iff.mp taking
  obtain ⟨constructed, taken, same⟩ := Option.bind_eq_some_iff.mp taking
  cases same
  obtain ⟨extended, -, below, kept, there⟩ := sound.toBased.makeExpanded making
  obtain ⟨base, stepped, rfl⟩ := onBase_eq_some.mp taken
  obtain ⟨⟨owner, varlena⟩, held, performed⟩ := Option.bind_eq_some_iff.mp stepped
  have absent := (extended.sound sound).absent_of_construct performed
  obtain ⟨grows, objects⟩ := grows_perform (by simp [Frees]) performed
  have both := extended.toGrows.trans grows
  refine ⟨expanded, ⟨expanded, none, varlena.bytes, false⟩,
    ⟨⟨both.chunks, both.inners, both.fresh⟩,
      ⟨extended.base.constructOver held (fun _ => rfl) performed, ?_⟩, ?_, ?_,
      Nat.lt_of_lt_of_le below grows.fresh, ?_, nofun⟩, ?_, extended.objects ▸ absent⟩
  · exact fun address there => Nat.lt_of_lt_of_le (extended.below address there) grows.fresh
  · intro one
    simp only [objects, ← extended.objects]
    exact lookup_insert_eq one
  · exact fun one => lookup_insert_eq one
  · rintro _ ⟨⟩
    simp only [kept, Option.isSome_some]
  · refine (grows.denotes below).trans ?_
    exact denotes_of_inners there kept

/-! ## Accesses -/

/-- The first read of a varlena whose memory is there. -/
theorem read_there {base : VarlenaMemory ω} {reading : Reading}
    {tracker : TrackingMemoryContext} {owner : Nat} {varlena : Varlena}
    (found : m.base.objects.lookup this = some object) (undetoasted : object.detoasted = none)
    (member : m.base.tracked.trackers.lookup (this, .ctx) = some tracker)
    (unreset : ¬ 0 < m.base.tracked.resets tracker)
    (held : m.base.tracked.memory.chunks object.valueDatum = some (owner, varlena))
    (taking : m.base.read this currentMemoryContext = some (reading, base)) :
    reading = .bytes varlena.bytes ∧ m.Grows { m with base } ∧
      ∃ pointer, base.objects =
        m.base.objects.insert this { object with detoasted := some pointer } := by
  unfold VarlenaMemory.read at taking
  simp only [Option.bind_eq_bind, found, Option.bind_some, undetoasted, member, unreset, if_false,
    held] at taking
  split at taking
  · split at taking
    · rename_i isLive
      obtain ⟨_, performed, same⟩ := Option.bind_eq_some_iff.mp taking
      cases same
      have keeps : ∀ action ∈ m.base.trackCopy this currentMemoryContext, ¬ Frees action := by
        unfold VarlenaMemory.trackCopy
        split <;> simp [Frees]
      obtain ⟨tracked, reached, rfl⟩ := VarlenaMemory.perform_eq_some.mp performed
      obtain ⟨chunks, fresh⟩ := chunks_run keeps reached
      refine ⟨rfl, ⟨?_, fun _ _ => rfl, Nat.le_trans (Nat.le_succ _) fresh⟩, _, rfl⟩
      intro address below
      simp only [chunks, Store.alloc]
      rw [if_neg (by omega)]
    · cases taking
  · obtain ⟨_, performed, same⟩ := Option.bind_eq_some_iff.mp taking
    cases same
    have keeps : ∀ action ∈ m.base.trackSource this, ¬ Frees action := by
      unfold VarlenaMemory.trackSource
      split <;> simp [Frees]
    obtain ⟨grows, objects⟩ := grows_perform keeps performed
    exact ⟨rfl, grows, _, objects⟩

/-- What an access does that hands out a value. -/
structure Accessed (flattenable : Flattenable T) (m next : ExpandedMemory ω T) (this : ω)
    (inner : T) : Prop where
  sound : next.Sound
  before : m.current flattenable this = some inner
  others : ∀ other, next.current flattenable other = m.current flattenable other
  kept : ∃ expanded, next.detoastedValue.lookup this = some expanded ∧ next.place this = some expanded

theorem Sound.accessed_cached (sound : m.Sound) (found : m.base.objects.lookup this = some object)
    (cached : m.detoastedValue.lookup this = some expanded) (there : m.there expanded = true)
    (holds : m.inners expanded = some inner) : Accessed flattenable m m this inner := by
  have place : m.place this = some expanded := by
    unfold ExpandedMemory.place
    rw [found, cached]
    rfl
  refine ⟨sound, ?_, fun _ => rfl, expanded, cached, place⟩
  unfold ExpandedMemory.current
  rw [place, Option.bind_some]
  exact denotes_of_inners there holds

/-- An object without an expanded object has its value at its datum. -/
theorem place_unkept (found : m.base.objects.lookup this = some object)
    (unkept : m.detoastedValue.lookup this = none) : m.place this = some object.valueDatum := by
  unfold ExpandedMemory.place
  rw [found, unkept]
  rfl

/-- An object that keeps an expanded object with the value that it had. -/
theorem Sets.accessed (sets : m.Sets next this object (some expanded)) (sound : m.Sound)
    (before : m.current flattenable this = some inner)
    (after : next.denotes flattenable expanded = some inner) :
    Accessed flattenable m next this inner where
  sound := sets.sound sound
  before := before
  others other := by
    by_cases same : other = this
    · rw [same, sets.current, before]
      exact after
    · exact sets.current_other sound same
  kept := ⟨expanded, by rw [sets.values, if_pos rfl], sets.place⟩

/-- The datum was one of an expanded object. -/
theorem Sound.accessed_external (sound : m.Sound) (found : m.base.objects.lookup this = some object)
    (unkept : m.detoastedValue.lookup this = none) (there : m.there object.valueDatum = true)
    (holds : m.inners object.valueDatum = some inner) :
    Accessed flattenable m (m.cache this object.valueDatum) this inner := by
  have value : m.denotes flattenable object.valueDatum = some inner := denotes_of_inners there holds
  have sets : m.Sets (m.cache this object.valueDatum) this object (some object.valueDatum) := by
    refine ⟨⟨fun _ _ => rfl, fun _ _ => rfl, Nat.le_refl _⟩, ⟨sound.base, sound.below⟩, ?_,
      fun one => lookup_insert_eq one, sound.known this object found, ?_, nofun⟩
    · intro one
      split
      · rename_i same
        rw [same]
        exact found
      · rfl
    · rintro _ ⟨⟩
      simp only [cache, holds, Option.isSome_some]
  refine sets.accessed sound ?_ value
  unfold ExpandedMemory.current
  rw [place_unkept found unkept, Option.bind_some, value]

/-- The datum was flat. -/
theorem Sound.accessed_flat (sound : m.Sound) {outcome : ExpandedOutcome T}
    {tracker : TrackingMemoryContext} (found : m.base.objects.lookup this = some object)
    (unkept : m.detoastedValue.lookup this = none)
    (member : m.base.tracked.trackers.lookup (this, .ctx) = some tracker)
    (unreset : ¬ 0 < m.base.tracked.resets tracker) (there : m.there object.valueDatum = true)
    (flat : m.inners object.valueDatum = none)
    (taking : m.expand flattenable this currentMemoryContext = some (outcome, next)) :
    ∃ inner, outcome = .value inner ∧ Accessed flattenable m next this inner := by
  obtain ⟨⟨owner, varlena⟩, held⟩ := Option.isSome_iff_exists.mp there
  unfold ExpandedMemory.expand at taking
  obtain ⟨⟨reading, base⟩, read, taking⟩ := Option.bind_eq_some_iff.mp taking
  obtain ⟨same, grows, pointer, objects⟩ :=
    read_there found (sound.undetoasted this object found unkept) member unreset held read
  subst same
  obtain ⟨⟨expanded, made⟩, making, same⟩ := Option.bind_eq_some_iff.mp taking
  cases same
  have based : Based { m with base } := ⟨sound.base.read read,
    fun address there => Nat.lt_of_lt_of_le (sound.below address there) grows.fresh⟩
  obtain ⟨extended, -, below, kept, there⟩ := based.makeExpanded making
  have both := grows.trans extended.toGrows
  have sets : m.Sets (made.cache this expanded) this { object with detoasted := some pointer }
      (some expanded) := by
    refine ⟨⟨both.chunks, both.inners, both.fresh⟩, ⟨extended.base, extended.below⟩, ?_, ?_,
      Nat.lt_of_lt_of_le (sound.known this object found) both.fresh, ?_, nofun⟩
    · intro one
      simp only [cache, extended.objects, objects]
      exact lookup_insert_eq one
    · intro one
      simp only [cache, extended.values]
      exact lookup_insert_eq one
    · rintro _ ⟨⟩
      simp only [cache, kept, Option.isSome_some]
  refine ⟨_, rfl, sets.accessed sound ?_ (denotes_of_inners there kept)⟩
  unfold ExpandedMemory.current ExpandedMemory.denotes
  rw [place_unkept found unkept, Option.bind_some, held, flat]
  rfl

theorem current_eq_none (place : m.place this = some address) (gone : m.there address = false) :
    m.current flattenable this = none := by
  have freed : m.base.tracked.memory.chunks address = none := by
    simpa [ExpandedMemory.there] using gone
  unfold ExpandedMemory.current ExpandedMemory.denotes
  rw [place, Option.bind_some, freed]
  rfl

/-- All that an access can do: hand out the value, or leave everything as it is. -/
theorem Sound.access (sound : m.Sound) {outcome : ExpandedOutcome T}
    (taking : m.access flattenable this currentMemoryContext = some (outcome, next)) :
    ∃ object tracker, m.base.objects.lookup this = some object ∧
      m.base.tracked.trackers.lookup (this, .ctx) = some tracker ∧
      ((∃ inner, outcome = .value inner ∧ m.Accessible this object tracker ∧
          Accessed flattenable m next this inner) ∨
        (outcome = .pointerGone ∧ next = m ∧
          (m.Accessible this object tracker ↔ m.current flattenable this = none)) ∨
        (outcome = .freed ∧ next = m ∧ ¬ m.Accessible this object tracker)) := by
  unfold ExpandedMemory.access at taking
  obtain ⟨object, found, taking⟩ := Option.bind_eq_some_iff.mp taking
  obtain ⟨tracker, member⟩ := sound.base.lookup_ctx found
  refine ⟨object, tracker, found, member, ?_⟩
  unfold Accessible
  cases cached : m.detoastedValue.lookup this with
  | some expanded =>
    rw [cached] at taking
    dsimp only at taking ⊢
    split at taking
    · rename_i there
      obtain ⟨inner, holds, same⟩ := Option.bind_eq_some_iff.mp taking
      cases same
      exact .inl ⟨inner, rfl, there, sound.accessed_cached found cached there holds⟩
    · rename_i gone
      cases taking
      exact .inr (.inr ⟨rfl, rfl, gone⟩)
  | none =>
    rw [cached] at taking
    dsimp only at taking ⊢
    rw [member] at taking
    simp only [Option.bind_eq_bind, Option.bind_some] at taking
    split at taking
    · rename_i reset
      cases taking
      refine .inr (.inl ⟨rfl, rfl, ?_⟩)
      have place := place_unkept found cached
      cases there : m.there object.valueDatum with
      | false => simp [reset, current_eq_none place there]
      | true =>
        obtain ⟨chunk, held⟩ := Option.isSome_iff_exists.mp there
        simp [reset, ExpandedMemory.current, ExpandedMemory.denotes, place, held]
    · rename_i unreset
      split at taking
      · rename_i gone
        cases taking
        exact .inr (.inr ⟨rfl, rfl, fun told => unreset (told.mp gone)⟩)
      · rename_i there
        have there : m.there object.valueDatum = true := by simpa using there
        have told : m.there object.valueDatum = false ↔ 0 < m.base.tracked.resets tracker := by
          simp [there, Nat.eq_zero_of_not_pos unreset]
        cases holds : m.inners object.valueDatum with
        | some inner =>
          rw [holds] at taking
          cases taking
          exact .inl ⟨inner, rfl, told, sound.accessed_external found cached there holds⟩
        | none =>
          rw [holds] at taking
          obtain ⟨inner, same, accessed⟩ :=
            sound.accessed_flat found cached member unreset there holds taking
          exact .inl ⟨inner, same, told, accessed⟩

/-! ## Resets -/

/-- What a reset or a deletion leaves. -/
structure Releases (m next : ExpandedMemory ω T) (ctx : Nat) : Prop where
  sound : next.Sound
  chunks : ∀ address, next.base.tracked.memory.chunks address =
    (m.base.tracked.memory.chunks address).filter fun chunk =>
      !m.base.tracked.memory.covers ctx chunk.1
  inners : next.inners = m.inners
  place : ∀ other, next.place other = m.place other

theorem Sound.release (sound : m.Sound) {base : VarlenaMemory ω}
    {action : TrackingAction (ω × VarlenaMember)} {delete : Bool}
    (kept : base.Sound) (reached : m.base.onContexts action = some base)
    (steps : ∀ tracked : TrackedMemory (ω × VarlenaMember) Varlena,
      m.base.tracked.step action = some tracked → tracked = m.base.tracked.release ctx delete) :
    m.Releases { m with base } ctx := by
  obtain ⟨tracked, taken, rfl⟩ := VarlenaMemory.perform_eq_some.mp reached
  have same := steps tracked (run_singleton.mp taken)
  subst same
  exact ⟨⟨⟨kept, sound.below⟩, sound.kept, sound.undetoasted, sound.known⟩, fun _ => rfl, rfl,
    fun _ => rfl⟩

theorem Releases.current (releases : m.Releases next ctx) :
    next.current flattenable other =
      if m.spared ctx other then m.current flattenable other else none := by
  unfold ExpandedMemory.current spared ExpandedMemory.denotes
  rw [releases.place, releases.inners]
  cases m.place other with
  | none => rfl
  | some address =>
    simp only [Option.bind_some, releases.chunks]
    cases m.base.tracked.memory.chunks address with
    | none => rfl
    | some chunk =>
      cases covered : m.base.tracked.memory.covers ctx chunk.1 <;> simp [Option.filter, covered]

theorem Sound.reset (sound : m.Sound) (taking : m.onBase (.reset ctx) = some next) :
    m.Releases next ctx := by
  obtain ⟨base, taken, rfl⟩ := onBase_eq_some.mp taking
  have kept : base.Sound :=
    sound.base.onContexts (.reset ctx) (fun _ => trivial) (fun _ => id) taken
  refine @Sound.release _ _ _ _ ctx sound _ _ false kept taken ?_
  intro tracked stepped
  obtain ⟨_, same⟩ := Option.ite_none_right_eq_some.mp stepped
  exact (Option.some.inj same).symm

theorem Sound.delete (sound : m.Sound) (taking : m.onBase (.delete ctx) = some next) :
    m.Releases next ctx := by
  obtain ⟨base, taken, rfl⟩ := onBase_eq_some.mp taking
  have kept : base.Sound :=
    sound.base.onContexts (.delete ctx) (fun _ => trivial) (fun _ => id) taken
  refine @Sound.release _ _ _ _ ctx sound _ _ true kept taken ?_
  intro tracked stepped
  obtain ⟨_, same⟩ := Option.ite_none_right_eq_some.mp stepped
  exact (Option.some.inj same).symm

/-! ## Updates and flat copies -/

/-- A value that is written where an object has its expanded object. -/
theorem Accessed.written {old : T} (accessed : Accessed flattenable m next this old)
    (kept : next.detoastedValue.lookup this = some expanded) (new : T) :
    Sound { next with
      inners := fun address => if address = expanded then some new else next.inners address } ∧
    ∀ other, current flattenable { next with
        inners := fun address => if address = expanded then some new else next.inners address } other =
      if next.place other = next.place this then some new else m.current flattenable other := by
  have sound := accessed.sound
  obtain ⟨_, also, place⟩ := accessed.kept
  cases kept.symm.trans also
  have holds := (sound.kept this expanded kept).2
  constructor
  · refine ⟨⟨sound.base, ?_⟩, ?_, sound.undetoasted, sound.known⟩
    · intro address there
      simp only at there
      split at there
      · rename_i same
        exact same ▸ sound.below expanded holds
      · exact sound.below address there
    · intro one address found
      refine ⟨(sound.kept one address found).1, ?_⟩
      simp only
      split
      · rfl
      · exact (sound.kept one address found).2
  · intro other
    rw [place, ← accessed.others other]
    have value : next.current flattenable this = some old :=
      (accessed.others this).trans accessed.before
    unfold ExpandedMemory.current at value ⊢
    rw [place, Option.bind_some] at value
    unfold ExpandedMemory.denotes at value ⊢
    obtain ⟨chunk, held, _⟩ := Option.map_eq_some_iff.mp value
    have places : ExpandedMemory.place { next with
        inners := fun address => if address = expanded then some new else next.inners address } other =
      next.place other := rfl
    rw [places]
    cases next.place other with
    | none => simp
    | some address =>
      simp only [Option.bind_some, Option.some.injEq]
      by_cases same : address = expanded
      · rw [if_pos same, same, held, if_pos rfl]
        rfl
      · rw [if_neg same, if_neg same]

end ExpandedMemory

/-- The buffer that `flatten_into` is given has `flat_size()` bytes. -/
theorem Flattenable.flatten_eq (flattenable : Flattenable T) (inner : T) :
    flattenable.flatten inner = ⟨false, flattenable.flattenInto inner (flattenable.flatSize inner)⟩ := by
  unfold flatten flattenIntoResult getFlatSize
  rw [Nat.add_sub_cancel]

namespace ExpandedMemory
variable {flattenable : Flattenable T} {m next : ExpandedMemory ω T} {this other : ω}
  {expanded ctx : Nat}

theorem Sound.flatten (sound : m.Sound) {outcome : ExpandedOutcome T}
    (taking : m.flatten flattenable expanded ctx = some (outcome, next)) :
    m.Extends next ∧ m.Does flattenable next outcome (.flatten expanded ctx) := by
  unfold ExpandedMemory.flatten at taking
  obtain ⟨there, taking⟩ := Option.ite_none_right_eq_some.mp taking
  obtain ⟨inner, holds, taking⟩ := Option.bind_eq_some_iff.mp taking
  obtain ⟨allocated, taken, same⟩ := Option.bind_eq_some_iff.mp taking
  cases same
  obtain ⟨extended, held, more, inners⟩ := sound.toBased.alloc taken
  rw [Flattenable.flatten_eq] at held
  refine ⟨extended, _, inner, rfl, denotes_of_inners there holds, held, ?_⟩
  have unused : m.inners m.base.tracked.memory.fresh = none := by
    by_contra used
    exact absurd (sound.below _ (Option.isSome_iff_ne_none.mpr used)) (Nat.lt_irrefl _)
  unfold ExpandedMemory.denotes
  rw [held, inners, unused, Option.map_some, Option.getD_none, flattenable.restoreFrom_flattenInto]

/-! ## Each action, and runs -/

variable {outcome : ExpandedOutcome T} {action : ExpandedAction ω T}

theorem Sound.accessible_iff {object : VarlenaValue} {tracker : TrackingMemoryContext}
    {currentMemoryContext : Nat} (found : m.base.objects.lookup this = some object)
    (member : m.base.tracked.trackers.lookup (this, .ctx) = some tracker) :
    m.Allowed (.access this currentMemoryContext) ↔ m.Accessible this object tracker := by
  constructor
  · exact fun allowed => allowed object tracker found member
  · intro accessible one two known also
    cases found.symm.trans known
    cases member.symm.trans also
    exact accessible

/-- New objects leave the others what they have. -/
theorem Sets.leaves {object : VarlenaValue} {value : Option Nat}
    (sets : m.Sets next this object value) (sound : m.Sound) (absent : this ∉ m.base.objects)
    (known : other ∈ m.base.objects) :
    next.current flattenable other = m.current flattenable other :=
  sets.current_other sound fun same => absent (same ▸ known)

/-- The outcome of an access is right where the object is accessible, and only there. -/
theorem Sound.access_right_iff (sound : m.Sound) {currentMemoryContext : Nat}
    (taking : m.access flattenable this currentMemoryContext = some (outcome, next)) :
    outcome = (m.current flattenable this).elim .pointerGone .value ↔
      m.Allowed (.access this currentMemoryContext) := by
  obtain ⟨object, tracker, found, member, done⟩ := sound.access taking
  rw [Sound.accessible_iff found member]
  rcases done with ⟨inner, rfl, accessible, accessed⟩ | ⟨rfl, -, iff⟩ | ⟨rfl, -, inaccessible⟩
  · rw [accessed.before]
    simp [accessible]
  · rw [iff]
    cases m.current flattenable this <;> simp
  · cases m.current flattenable this <;> simp [inaccessible]

theorem Sound.update_right_iff (sound : m.Sound) {new : T} {currentMemoryContext : Nat}
    (taking : m.update flattenable this new currentMemoryContext = some (outcome, next)) :
    next.Sound ∧
      (∀ other, next.current flattenable other =
        m.expected flattenable next outcome other (.update this new currentMemoryContext)) ∧
      (outcome = (m.current flattenable this).elim .pointerGone .value ↔
        m.Allowed (.access this currentMemoryContext)) := by
  unfold ExpandedMemory.update at taking
  obtain ⟨⟨told, reached⟩, accessing, taken⟩ := Option.bind_eq_some_iff.mp taking
  have right := sound.access_right_iff accessing
  obtain ⟨object, tracker, found, member, done⟩ := sound.access accessing
  rcases done with ⟨inner, rfl, accessible, accessed⟩ | ⟨rfl, rfl, -⟩ | ⟨rfl, rfl, -⟩
  · obtain ⟨expanded, kept, same⟩ := Option.bind_eq_some_iff.mp taken
    cases same
    obtain ⟨written, values⟩ := accessed.written kept new
    exact ⟨written, values, right⟩
  · cases taken
    exact ⟨sound, fun _ => rfl, right⟩
  · cases taken
    exact ⟨sound, fun _ => rfl, right⟩

theorem intoDatum_right_iff (taking : m.intoDatum this = some outcome) :
    m.Does flattenable m outcome (.intoDatum this) ↔ m.Allowed (.intoDatum this) := by
  unfold ExpandedMemory.intoDatum at taking
  obtain ⟨object, found, told⟩ := Option.bind_eq_some_iff.mp taking
  unfold Does Allowed
  dsimp only
  cases kept : m.detoastedValue.lookup this with
  | some expanded =>
    rw [kept] at told
    cases told
    have place : m.place this = some expanded := by
      unfold ExpandedMemory.place
      rw [found, kept]
      rfl
    refine iff_of_true (fun inner value => ⟨expanded, rfl, ?_⟩) fun _ => nofun
    unfold ExpandedMemory.current at value
    rwa [place, Option.bind_some] at value
  | none =>
    rw [kept] at told
    cases told
    unfold ExpandedMemory.current ExpandedMemory.denotes ExpandedMemory.there
    rw [place_unkept found kept]
    cases held : m.base.tracked.memory.chunks object.valueDatum <;> simp [held]

/-- Every action keeps what is sound, and is right if and only if it is allowed. -/
theorem Sound.right_iff (sound : m.Sound)
    (taking : m.exec flattenable action = some (outcome, next)) :
    next.Sound ∧ (m.Right flattenable next outcome action ↔ m.Allowed action) := by
  cases action with
  | create parent =>
    obtain ⟨_, taken, same⟩ := Option.map_eq_some_iff.mp taking
    cases same
    have extended := sound.toBased.create taken
    exact ⟨extended.sound sound, iff_of_true ⟨trivial, fun _ _ => extended.current sound⟩ trivial⟩
  | reset ctx =>
    obtain ⟨_, taken, same⟩ := Option.map_eq_some_iff.mp taking
    cases same
    have releases := sound.reset taken
    exact ⟨releases.sound, iff_of_true ⟨trivial, fun _ _ => releases.current⟩ trivial⟩
  | delete ctx =>
    obtain ⟨_, taken, same⟩ := Option.map_eq_some_iff.mp taking
    cases same
    have releases := sound.delete taken
    exact ⟨releases.sound, iff_of_true ⟨trivial, fun _ _ => releases.current⟩ trivial⟩
  | alloc ctx varlena =>
    obtain ⟨_, taken, same⟩ := Option.map_eq_some_iff.mp taking
    cases same
    obtain ⟨extended, -⟩ := sound.toBased.alloc taken
    exact ⟨extended.sound sound, iff_of_true ⟨trivial, fun _ _ => extended.current sound⟩ trivial⟩
  | construct this inner currentMemoryContext =>
    obtain ⟨_, taken, same⟩ := Option.map_eq_some_iff.mp taking
    cases same
    obtain ⟨expanded, object, sets, value, absent⟩ := @Sound.construct _ _ _ flattenable _ _ _ _ _ sound taken
    exact ⟨sets.sound sound, iff_of_true
      ⟨sets.current.trans value, fun _ known => sets.leaves sound absent known⟩ trivial⟩
  | fromDatum this source ctx =>
    obtain ⟨_, taken, same⟩ := Option.map_eq_some_iff.mp taking
    cases same
    obtain ⟨object, sets, rfl, below, absent⟩ := sound.fromDatum taken
    exact ⟨sets.sound sound, iff_of_true
      ⟨sets.current.trans (sets.denotes below), fun _ known => sets.leaves sound absent known⟩ trivial⟩
  | copy this other =>
    obtain ⟨_, taken, same⟩ := Option.map_eq_some_iff.mp taking
    cases same
    obtain ⟨object, found, sets, absent⟩ := sound.copy taken
    have place : m.place other = some ((m.detoastedValue.lookup other).getD object.valueDatum) := by
      unfold ExpandedMemory.place
      rw [found]
      rfl
    have copied : next.current flattenable this = m.current flattenable other := by
      rw [sets.current, sets.denotes (sound.place_lt place)]
      unfold ExpandedMemory.current
      rw [place, Option.bind_some]
    exact ⟨sets.sound sound, iff_of_true
      ⟨copied, fun _ known => sets.leaves sound absent known⟩ trivial⟩
  | access this currentMemoryContext =>
    have right := sound.access_right_iff taking
    obtain ⟨object, tracker, found, member, done⟩ := sound.access taking
    rcases done with ⟨inner, rfl, -, accessed⟩ | ⟨-, rfl, -⟩ | ⟨-, rfl, -⟩
    · exact ⟨accessed.sound, fun both => right.mp both.does,
        fun allowed => ⟨right.mpr allowed, fun other _ => accessed.others other⟩⟩
    · exact ⟨sound, fun both => right.mp both.does,
        fun allowed => ⟨right.mpr allowed, fun _ _ => rfl⟩⟩
    · exact ⟨sound, fun both => right.mp both.does,
        fun allowed => ⟨right.mpr allowed, fun _ _ => rfl⟩⟩
  | update this inner currentMemoryContext =>
    obtain ⟨kept, values, right⟩ := sound.update_right_iff taking
    exact ⟨kept, fun both => right.mp both.does,
      fun allowed => ⟨right.mpr allowed, fun other _ => values other⟩⟩
  | intoDatum this =>
    obtain ⟨_, taken, same⟩ := Option.map_eq_some_iff.mp taking
    cases same
    have right := @intoDatum_right_iff _ _ _ flattenable _ _ _ taken
    exact ⟨sound, fun both => right.mp both.does,
      fun allowed => ⟨right.mpr allowed, fun _ _ => rfl⟩⟩
  | flatten expanded ctx =>
    obtain ⟨extended, does⟩ := sound.flatten taking
    exact ⟨extended.sound sound,
      iff_of_true ⟨does, fun _ _ => extended.current sound⟩ trivial⟩

/-- An object that was given the context of its memory, and keeps no expanded object yet, is
accessible. -/
theorem Sound.accessible_given (sound : m.Sound) {object : VarlenaValue}
    {tracker : TrackingMemoryContext} (found : m.base.objects.lookup this = some object)
    (member : m.base.tracked.trackers.lookup (this, .ctx) = some tracker)
    (unkept : m.detoastedValue.lookup this = none) (given : object.moved = false) :
    m.Accessible this object tracker := by
  unfold Accessible ExpandedMemory.there
  rw [unkept]
  have follows := (sound.base.followed this object found).source given
  rcases follows.resets sound.base.tracked member with ⟨reset, freed⟩ | ⟨unreset, owner, varlena, held, -⟩
  · simp [reset, freed]
  · simp [unreset, held]

theorem start_sound : (start : ExpandedMemory ω T).Sound where
  base := VarlenaMemory.start_sound
  below address there := by simp [start] at there
  kept this expanded found := by simp [start] at found
  undetoasted this object found := by simp [start, VarlenaMemory.start] at found
  known this object found := by simp [start, VarlenaMemory.start] at found

/-- An action of a run, in the state that it is taken in. -/
def DoneRight (flattenable : Flattenable T) (m : ExpandedMemory ω T) (action : ExpandedAction ω T) :
    Prop :=
  ∀ outcome next, m.exec flattenable action = some (outcome, next) →
    m.Right flattenable next outcome action

/-- The actions of a run are right if and only if each of them is allowed. -/
theorem done_right_iff (flattenable : Flattenable T) (actions : List (ExpandedAction ω T)) :
    Meets (step flattenable) (DoneRight flattenable) start actions ↔
      Meets (step flattenable) Allowed start actions :=
  meets_done_iff (fun _ _ _ _ sound executed =>
    (Sound.right_iff sound executed).imp (fun kept _ => kept) id) start_sound

/-- A byte as a flattenable type. -/
def byteValue : Flattenable (BitVec 8) where
  flatSize _ := 1
  flattenInto x _ := [x]
  restoreFrom bytes := bytes.headD 0
  length_flattenInto _ := rfl
  restoreFrom_flattenInto _ := rfl

/-- A value from a flat datum, and one that was constructed and whose context is gone. -/
def unaccessed : List (ExpandedAction Bool (BitVec 8)) :=
  [.create none, .alloc 0 ⟨false, [7]⟩, .fromDatum false 1 0]

def constructedAndReset : List (ExpandedAction Bool (BitVec 8)) :=
  [.create none, .construct false 7 0, .reset 0]

theorem reached_outcome {taken : List (ExpandedAction ω T)} {value : Option T}
    (told : ((run (step flattenable) start taken).bind fun m => (m.exec flattenable action).map
      fun done => (done.1, m.current flattenable this)) = some (outcome, value)) :
    ∃ m next, run (step flattenable) start taken = some m ∧
      m.exec flattenable action = some (outcome, next) ∧ m.current flattenable this = value := by
  obtain ⟨m, reached, told⟩ := Option.bind_eq_some_iff.mp told
  obtain ⟨⟨_, next⟩, executed, same⟩ := Option.map_eq_some_iff.mp told
  cases same
  exact ⟨m, next, reached, executed, rfl⟩

/-- The first is refused as a datum, and the second hands out freed memory. -/
theorem unaccessed_refused :
    (∃ m next, run (step byteValue) start unaccessed = some m ∧
      m.exec byteValue (.intoDatum false) = some (.notExpanded, next) ∧
      m.current byteValue false = some 7) ∧
    (∃ m next, run (step byteValue) start constructedAndReset = some m ∧
      m.exec byteValue (.access false 0) = some (.freed, next) ∧
      m.current byteValue false = none) ∧
    ¬ Meets (step byteValue) (DoneRight byteValue) start (unaccessed ++ [.intoDatum false]) ∧
    ¬ Meets (step byteValue) (DoneRight byteValue) start
      (constructedAndReset ++ [.access false 0]) := by
  have refused := @reached_outcome _ _ _ byteValue false .notExpanded (.intoDatum false) unaccessed
    (some 7) (by decide +kernel)
  have freed := @reached_outcome _ _ _ byteValue false .freed (.access false 0) constructedAndReset
    none (by decide +kernel)
  refine ⟨refused, freed, ?_, ?_⟩
  · obtain ⟨m, next, reached, executed, value⟩ := refused
    intro meets
    have done := meets.last reached (Option.map_eq_some_iff.mpr ⟨_, executed, rfl⟩)
    obtain ⟨pointer, same, -⟩ := (done _ _ executed).does 7 value
    cases same
  · obtain ⟨m, next, reached, executed, value⟩ := freed
    intro meets
    have done := meets.last reached (Option.map_eq_some_iff.mpr ⟨_, executed, rfl⟩)
    have same : ExpandedOutcome.freed = (m.current byteValue false).elim .pointerGone .value :=
      (done _ _ executed).does
    rw [value] at same
    cases same

end ExpandedMemory
end Cppgres
