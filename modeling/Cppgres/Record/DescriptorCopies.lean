import Cppgres.Record.Descriptors

/-!
# Copies of tuple descriptors

A program of descriptors keeps copies apart and blessed descriptors frozen if and only if it
copies from sources that are not const, and does not go around the flag of an object.
-/
namespace Cppgres
open Labelled

variable {ω : Type}

namespace Descriptors

/-- Each object has the storage that it is to have, and is called blessed where it may be. What
Postgres did not hand out is a record type. -/
structure Sound (m : Descriptors ω) : Prop where
  held : ∀ this object, m.objects this = some object → object.tupdesc < m.descs.length
  lines : ∀ this object, m.objects this = some object → object.line = object.tupdesc
  genuine : ∀ this object, m.objects this = some object → object.blessed = true →
    (m.descs[object.tupdesc]?).any (·.genuine) = true
  records : ∀ (tupdesc : Nat) desc, m.descs[tupdesc]? = some desc →
    desc.fromPostgres = true ∨ desc.tdtypeid = recordOid

variable {types : RowTypes} {m next : Descriptors ω} {this other : ω}
  {object : TupleDescriptorObject} {desc : TupleDescData} {tupdesc : Nat}
  {blessed owned : Bool} {action : DescriptorAction ω} {outcome : DescriptorOutcome} {n : BitVec 32}
  {change : FormPgAttribute → FormPgAttribute}

theorem Sound.separate (sound : m.Sound) :
    ∀ one two object object', m.objects one = some object → m.objects two = some object' →
      object.tupdesc = object'.tupdesc → object.line = object'.line := by
  intro one two object object' found also same
  rw [sound.lines one object found, sound.lines two object' also, same]

/-- An action that leaves the attributes of all descriptors alone, and sets none. -/
theorem Sound.right (sound : next.Sound)
    (frozen : ∀ tupdesc, tupdesc < m.descs.length → next.attrs tupdesc = m.attrs tupdesc)
    (copied : ∀ this other, (action = .copy this other ∨ action = .copyConst this other ∨
      action = .copyAssign this other) → next.reports this = m.reports other)
    (quiet : (∀ this n type, action ≠ .setType this n type) ∧
      ∀ this n name, action ≠ .setName this n name) : m.Right next action where
  separate := sound.separate
  copied := copied
  genuine := sound.genuine
  frozen tupdesc _ below := frozen tupdesc below
  leaves this other object object' sets _ _ _ := by
    rcases sets with ⟨n, type, same⟩ | ⟨n, name, same⟩
    · exact absurd same (quiet.1 this n type)
    · exact absurd same (quiet.2 this n name)

/-! ## New descriptors -/

/-- A descriptor more. -/
def made (m : Descriptors ω) (desc : TupleDescData) : Descriptors ω :=
  { m with descs := m.descs ++ [desc] }

theorem getElem?_made (below : tupdesc < m.descs.length) :
    (m.made desc).descs[tupdesc]? = m.descs[tupdesc]? :=
  List.getElem?_append_left below

theorem attrs_made (below : tupdesc < m.descs.length) :
    (m.made desc).attrs tupdesc = m.attrs tupdesc := by
  unfold attrs
  rw [getElem?_made below]

theorem getElem?_made_length : (m.made desc).descs[m.descs.length]? = some desc := by
  simp [made]

theorem length_made : (m.made desc).descs.length = m.descs.length + 1 := by
  simp [made]

theorem Sound.made (sound : m.Sound)
    (record : desc.fromPostgres = true ∨ desc.tdtypeid = recordOid) : (m.made desc).Sound where
  held this object found := by
    rw [length_made]
    exact Nat.lt_succ_of_lt (sound.held this object found)
  lines := sound.lines
  genuine this object found blessed := by
    rw [getElem?_made (sound.held this object found)]
    exact sound.genuine this object found blessed
  records tupdesc other found := by
    rcases Nat.lt_or_ge tupdesc m.descs.length with below | beyond
    · rw [getElem?_made below] at found
      exact sound.records tupdesc other found
    · have below := (List.getElem?_eq_some_iff.mp found).1
      rw [length_made] at below
      have last : tupdesc = m.descs.length := Nat.le_antisymm (Nat.le_of_lt_succ below) beyond
      rw [last, getElem?_made_length] at found
      cases found
      exact record

theorem reports_eq (found : m.objects other = some object)
    (there : m.descs[object.tupdesc]? = some desc) : m.reports other = some desc.attrs := by
  unfold reports attrs
  rw [found, Option.bind_some, there, Option.map_some]

/-! ## What is written to a descriptor -/

/-- Another descriptor at an address. -/
def replaced (m : Descriptors ω) (tupdesc : Nat) (desc : TupleDescData) (typmods : Nat) :
    Descriptors ω :=
  { m with descs := m.descs.set tupdesc desc, typmods }

/-- An attribute of the descriptor is changed. -/
def changed (desc : TupleDescData) (n : BitVec 32)
    (change : FormPgAttribute → FormPgAttribute) : TupleDescData :=
  { desc with attrs := desc.attrs.modify n.toNat change }

variable {new : TupleDescData} {typmods address : Nat}

theorem getElem?_replaced (there : m.descs[tupdesc]? = some desc) :
    (m.replaced tupdesc new typmods).descs[tupdesc]? = some new :=
  List.getElem?_set_self (List.getElem?_eq_some_iff.mp there).1

theorem getElem?_replaced_of_ne (different : tupdesc ≠ address) :
    (m.replaced tupdesc new typmods).descs[address]? = m.descs[address]? :=
  List.getElem?_set_ne different

/-- What replaces a descriptor may be called blessed where the descriptor may. -/
theorem Sound.replaced (sound : m.Sound) (there : m.descs[tupdesc]? = some desc)
    (genuine : desc.genuine = true → new.genuine = true)
    (record : new.fromPostgres = true ∨ new.tdtypeid = recordOid) :
    (m.replaced tupdesc new typmods).Sound where
  held this object found := by
    rw [Descriptors.replaced, List.length_set]
    exact sound.held this object found
  lines := sound.lines
  genuine this object found blessed := by
    have may := sound.genuine this object found blessed
    by_cases same : tupdesc = object.tupdesc
    · subst same
      rw [there, Option.any_some] at may
      rw [getElem?_replaced there]
      exact genuine may
    · rwa [getElem?_replaced_of_ne same]
  records address other found := by
    by_cases same : tupdesc = address
    · subst same
      rw [getElem?_replaced there] at found
      cases found
      exact record
    · rw [getElem?_replaced_of_ne same] at found
      exact sound.records address other found

theorem attrs_eq (there : m.descs[tupdesc]? = some desc) : m.attrs tupdesc = some desc.attrs := by
  rw [attrs, there, Option.map_some]

theorem attrs_replaced_of_ne (different : tupdesc ≠ address) :
    (m.replaced tupdesc new typmods).attrs address = m.attrs address := by
  unfold attrs
  rw [getElem?_replaced_of_ne different]

/-- `BlessTupleDesc` leaves the attributes alone, and the descriptor may be called blessed. -/
theorem Sound.blessTupleDesc (sound : m.Sound) (taking : m.blessTupleDesc tupdesc = some next) :
    next.Sound ∧ next.objects = m.objects ∧ next.descs.length = m.descs.length ∧
      (∀ address, next.attrs address = m.attrs address) ∧
      (next.descs[tupdesc]?).any (·.genuine) = true := by
  unfold Descriptors.blessTupleDesc at taking
  obtain ⟨desc, there, taking⟩ := Option.bind_eq_some_iff.mp taking
  by_cases unnumbered : desc.tdtypeid = recordOid ∧ desc.tdtypmod < 0
  · rw [if_pos unnumbered] at taking
    obtain rfl : m.replaced tupdesc { desc with tdtypmod := m.typmods } (m.typmods + 1) = next :=
      Option.some.inj taking
    refine ⟨sound.replaced there ?_ (.inr unnumbered.1), rfl, List.length_set, fun address => ?_, ?_⟩
    · intro _
      simp [TupleDescData.genuine, TupleDescData.registered]
    · by_cases same : tupdesc = address
      · subst same
        rw [attrs_eq (getElem?_replaced there), attrs_eq there]
      · exact attrs_replaced_of_ne same
    · rw [getElem?_replaced there]
      simp [TupleDescData.genuine, TupleDescData.registered]
  · rw [if_neg unnumbered] at taking
    cases taking
    refine ⟨sound, rfl, rfl, fun _ => rfl, ?_⟩
    rw [there, Option.any_some]
    unfold TupleDescData.genuine TupleDescData.registered
    rcases sound.records tupdesc desc there with handed | record
    · simp [handed]
    · have numbered : 0 ≤ desc.tdtypmod := Int.not_lt.mp fun below => unnumbered ⟨record, below⟩
      simp [numbered]

/-- What `writeAttribute` does: it refuses, or it writes to the attribute at the index. -/
theorem writeAttribute_cases (taking : m.writeAttribute object n change = some (outcome, next)) :
    ∃ desc, m.descs[object.tupdesc]? = some desc ∧
      ((∃ what, checkBounds "the tuple descriptor" desc.attrs n = .error what) ∧ next = m ∨
        ∃ att, checkBounds "the tuple descriptor" desc.attrs n = .ok (some att) ∧
          desc.attrs[n.toNat]? = some att ∧
          next = m.replaced object.tupdesc (changed desc n change) m.typmods) := by
  unfold writeAttribute at taking
  obtain ⟨desc, there, taking⟩ := Option.bind_eq_some_iff.mp taking
  refine ⟨desc, there, ?_⟩
  cases check : checkBounds "the tuple descriptor" desc.attrs n with
  | error what =>
    rw [check] at taking
    cases taking
    exact .inl ⟨⟨what, rfl⟩, rfl⟩
  | ok entry =>
    cases entry with
    | none =>
      rw [check] at taking
      cases taking
    | some att =>
      rw [check] at taking
      cases taking
      exact .inr ⟨att, rfl, getElem?_of_checkBounds check, rfl⟩

/-- Writing what is there already. -/
theorem modify_eq_self {atts : List FormPgAttribute} {i : Nat} {att : FormPgAttribute}
    (there : atts[i]? = some att) : atts.modify i change = atts ↔ change att = att := by
  constructor
  · intro same
    have written : (atts.modify i change)[i]? = some (change att) := by
      rw [List.getElem?_modify_eq, there]
      rfl
    rw [same, there, Option.some.injEq] at written
    exact written.symm
  · intro same
    apply List.ext_getElem?
    intro j
    by_cases index : i = j
    · subst index
      rw [List.getElem?_modify_eq, there]
      exact congrArg some same
    · rw [List.getElem?_modify_ne change atts index]

/-- A setter that leaves blessed descriptors and the storage of other objects alone. -/
theorem Sound.right_set (sound : next.Sound)
    (sets : (∃ n type, action = .setType this n type) ∨ ∃ n name, action = .setName this n name)
    (frozen : ∀ address, m.Blessed address → next.attrs address = m.attrs address)
    (leaves : ∀ other object object', m.objects this = some object →
      m.objects other = some object' → object.line ≠ object'.line →
      next.reports other = m.reports other) : m.Right next action where
  separate := sound.separate
  genuine := sound.genuine
  frozen address blessed _ := frozen address blessed
  copied one two copies := by
    rcases sets with ⟨n, type, rfl⟩ | ⟨n, name, rfl⟩ <;> simp at copies
  leaves one other object object' also found known apart := by
    have same : one = this := by
      rcases sets with ⟨n, type, rfl⟩ | ⟨n, name, rfl⟩
      · rcases also with ⟨n', type', same⟩ | ⟨n', name', same⟩
        · cases same
          rfl
        · cases same
      · rcases also with ⟨n', type', same⟩ | ⟨n', name', same⟩
        · cases same
        · cases same
          rfl
    subst same
    exact leaves other object object' found known apart

/-- Where the flag of its object is unset, a setter is right if and only if it is harmless. -/
theorem Sound.write_right_iff (sound : m.Sound) (found : m.objects this = some object)
    (unset : object.blessed = false)
    (sets : (∃ n type, action = .setType this n type) ∨ ∃ n name, action = .setName this n name)
    (taking : m.writeAttribute object n change = some (outcome, next)) :
    next.Sound ∧ (m.Right next action ↔ m.Harmless this n change) := by
  obtain ⟨desc, there, ⟨⟨what, outside⟩, rfl⟩ | ⟨att, inside, known, rfl⟩⟩ :=
    writeAttribute_cases taking
  · refine ⟨sound, iff_of_true (sound.right_set sets (fun _ _ => rfl) fun _ _ _ _ _ _ => rfl) ?_⟩
    intro one desc' att' also _ _ there' inside
    cases found.symm.trans also
    cases there.symm.trans there'
    cases outside.symm.trans inside
  · have written : (m.replaced object.tupdesc (changed desc n change) m.typmods).attrs
        object.tupdesc = some (desc.attrs.modify n.toNat change) :=
      attrs_eq (getElem?_replaced there)
    have before := attrs_eq there
    have kept : (m.replaced object.tupdesc (changed desc n change) m.typmods).Sound :=
      sound.replaced there id (sound.records object.tupdesc desc there)
    refine ⟨kept, fun right => ?_, fun harmless => ?_⟩
    · intro one desc' att' also _ blessed there' inside'
      cases found.symm.trans also
      cases there.symm.trans there'
      cases inside.symm.trans inside'
      have frozen := right.frozen object.tupdesc blessed (sound.held this object found)
      rw [written, before, Option.some.injEq] at frozen
      exact (modify_eq_self known).mp frozen
    · refine kept.right_set sets (fun address blessed => ?_) fun other one two one' two' apart => ?_
      · by_cases same : object.tupdesc = address
        · subst same
          rw [written, before, (modify_eq_self known).mpr
            (harmless object desc att found unset blessed there inside)]
        · exact attrs_replaced_of_ne same
      · cases found.symm.trans one'
        rw [sound.lines this object found, sound.lines other two two'] at apart
        unfold reports
        rw [two', show (m.replaced _ _ _).objects other = some two from two', Option.bind_some,
          Option.bind_some, attrs_replaced_of_ne apart]

/-! ## Setters -/

/-- A setter whose object says that it is blessed. -/
theorem harmless_of_blessed (found : m.objects this = some object) (set : object.blessed = true) :
    m.Harmless this n change := by
  intro one desc att also unset
  cases found.symm.trans also
  rw [set] at unset
  cases unset

/-- A setter, up to what it looks up: it refuses an object that says that it is blessed. -/
theorem Sound.set_right_iff (sound : m.Sound) (found : m.objects this = some object)
    (sets : (∃ n type, action = .setType this n type) ∨ ∃ n name, action = .setName this n name)
    (taking : (if object.blessed then some (alreadyBlessed, m) else
      m.writeAttribute object n change) = some (outcome, next)) :
    next.Sound ∧ (m.Right next action ↔ m.Harmless this n change) := by
  cases flag : object.blessed with
  | true =>
    rw [flag, if_pos rfl] at taking
    cases taking
    exact ⟨sound, iff_of_true (sound.right_set sets (fun _ _ => rfl) fun _ _ _ _ _ _ => rfl)
      (harmless_of_blessed found flag)⟩
  | false =>
    rw [flag, if_neg Bool.false_ne_true] at taking
    exact sound.write_right_iff found flag sets taking

theorem Sound.setType_right_iff (sound : m.Sound) {type : Oid}
    (taking : m.setType types this n type = some (outcome, next)) :
    next.Sound ∧ (m.Right next (.setType this n type) ↔
      ∀ typ, types.pgType type = some typ → m.Harmless this n (typed typ)) := by
  unfold setType at taking
  obtain ⟨object, found, taking⟩ := Option.bind_eq_some_iff.mp taking
  cases known : types.pgType type with
  | some typ =>
    rw [known] at taking
    obtain ⟨kept, right⟩ := sound.set_right_iff found (.inl ⟨n, type, rfl⟩) taking
    refine ⟨kept, right.trans ⟨?_, fun harmless => harmless typ rfl⟩⟩
    rintro harmless _ ⟨⟩
    exact harmless
  | none =>
    rw [known] at taking
    have same : next = m := by
      dsimp only at taking
      split at taking <;> cases taking <;> rfl
    subst same
    exact ⟨sound, iff_of_true
      (sound.right_set (.inl ⟨n, type, rfl⟩) (fun _ _ => rfl) fun _ _ _ _ _ _ => rfl) nofun⟩

theorem Sound.setName_right_iff (sound : m.Sound) {name : String}
    (taking : m.setName this n name = some (outcome, next)) :
    next.Sound ∧ (m.Right next (.setName this n name) ↔ m.Harmless this n (named name)) := by
  unfold setName at taking
  obtain ⟨object, found, taking⟩ := Option.bind_eq_some_iff.mp taking
  exact sound.set_right_iff found (.inr ⟨n, name, rfl⟩) taking

theorem start_sound : (start : Descriptors ω).Sound where
  held this object found := by cases found
  lines this object found := by cases found
  genuine this object found := by cases found
  records tupdesc desc there := by cases there

/-- An action that neither copies nor sets. -/
def Plain : DescriptorAction ω → Prop
  | .copy _ _ | .copyConst _ _ | .copyAssign _ _ | .setType _ _ _ | .setName _ _ _ => False
  | _ => True

/-- An action that makes no copy, sets nothing and leaves the attributes of all descriptors alone. -/
theorem Sound.right_plain (kept : next.Sound) (plain : Plain action)
    (frozen : ∀ tupdesc, tupdesc < m.descs.length → next.attrs tupdesc = m.attrs tupdesc) :
    m.Right next action := by
  refine kept.right frozen (fun this other copies => ?_) ⟨?_, ?_⟩
  · rcases copies with rfl | rfl | rfl <;> exact plain.elim
  · rintro this n type rfl
    exact plain
  · rintro this n name rfl
    exact plain

theorem Sound.plain_allowed (kept : next.Sound) (plain : Plain action)
    (frozen : ∀ tupdesc, tupdesc < m.descs.length → next.attrs tupdesc = m.attrs tupdesc)
    (allowed : m.Allowed types action) :
    (m.Allowed types action → next.Sound) ∧ (m.Right next action ↔ m.Allowed types action) :=
  ⟨fun _ => kept, iff_of_true (kept.right_plain plain frozen) allowed⟩

/-! ## Objects -/

variable [DecidableEq ω]

theorem objects_bind : (m.bind this object).objects this = some object := by
  simp [bind]

theorem objects_bind_of_ne (different : other ≠ this) :
    (m.bind this object).objects other = m.objects other := by
  simp [bind, different]

theorem Sound.bind (sound : m.Sound) (held : object.tupdesc < m.descs.length)
    (line : object.line = object.tupdesc)
    (genuine : object.blessed = true → (m.descs[object.tupdesc]?).any (·.genuine) = true) :
    (m.bind this object).Sound := by
  have each : ∀ other found, (m.bind this object).objects other = some found →
      found = object ∨ m.objects other = some found := by
    intro other found known
    by_cases same : other = this
    · rw [same, objects_bind, Option.some.injEq] at known
      exact .inl known.symm
    · rw [objects_bind_of_ne same] at known
      exact .inr known
  refine ⟨?_, ?_, ?_, sound.records⟩
  · intro other found known
    rcases each other found known with rfl | known
    · exact held
    · exact sound.held other found known
  · intro other found known
    rcases each other found known with rfl | known
    · exact line
    · exact sound.lines other found known
  · intro other found known blessed
    rcases each other found known with rfl | known
    · exact genuine blessed
    · exact sound.genuine other found known blessed

theorem Sound.construct (sound : m.Sound)
    (record : desc.fromPostgres = true ∨ desc.tdtypeid = recordOid)
    (genuine : blessed = true → desc.genuine = true) : (m.construct this desc blessed owned).Sound := by
  have held : m.descs.length < (m.made desc).descs.length := by
    rw [length_made]
    exact Nat.lt_succ_self _
  refine Sound.bind (m := m.made desc) (sound.made record) held rfl fun set => ?_
  rw [getElem?_made_length]
  exact genuine set

theorem reports_bind : (m.bind this object).reports this = m.attrs object.tupdesc := by
  unfold reports
  rw [objects_bind]
  rfl

theorem reports_construct : (m.construct this desc blessed owned).reports this = some desc.attrs := by
  have bound : (m.construct this desc blessed owned).reports this = (m.made desc).attrs m.descs.length :=
    reports_bind (m := m.made desc)
  rw [bound, attrs, getElem?_made_length, Option.map_some]

/-- A copy from a source that is const has the storage of the source. -/
theorem Sound.copyConst_wrong (sound : m.Sound) (found : m.objects other = some object)
    (absent : m.objects this = none) :
    ¬ m.Right (m.bind this ⟨object.tupdesc, true, false, m.descs.length⟩) (.copyConst this other) := by
  intro right
  have different : other ≠ this := by
    rintro rfl
    rw [found] at absent
    cases absent
  have kept : (m.bind this ⟨object.tupdesc, true, false, m.descs.length⟩).objects other =
      some object := (objects_bind_of_ne different).trans found
  have line := right.separate other this object _ kept objects_bind rfl
  rw [sound.lines other object found] at line
  exact absurd (sound.held other object found) (line ▸ Nat.lt_irrefl _)

theorem Sound.toTupleDesc (sound : m.Sound) (taking : m.toTupleDesc this = some (outcome, next)) :
    next.Sound ∧ ∀ address, next.attrs address = m.attrs address := by
  unfold Descriptors.toTupleDesc at taking
  obtain ⟨object, found, taking⟩ := Option.bind_eq_some_iff.mp taking
  cases flag : object.blessed with
  | true =>
    rw [flag, if_pos rfl] at taking
    cases taking
    exact ⟨sound, fun _ => rfl⟩
  | false =>
    rw [flag, if_neg Bool.false_ne_true] at taking
    obtain ⟨blessed, blessing, same⟩ := Option.bind_eq_some_iff.mp taking
    cases same
    obtain ⟨kept, -, length, same, genuine⟩ := sound.blessTupleDesc blessing
    refine ⟨kept.bind ?_ (sound.lines this object found) fun _ => genuine, same⟩
    rw [length]
    exact sound.held this object found

theorem Sound.moved (sound : m.Sound) (found : m.objects other = some object) :
    (m.bind this object).Sound :=
  sound.bind (sound.held other object found) (sound.lines other object found)
    (sound.genuine other object found)

/-- A copy with storage of its own, of a source that says truly whether it is blessed. -/
theorem Sound.copied (sound : m.Sound) (found : m.objects other = some object)
    (there : m.descs[object.tupdesc]? = some desc) :
    (m.construct this desc object.blessed owned).Sound ∧
      (m.construct this desc object.blessed owned).reports this = m.reports other := by
  refine ⟨sound.construct (sound.records object.tupdesc desc there) fun set => ?_, ?_⟩
  · have may := sound.genuine other object found set
    rwa [there, Option.any_some] at may
  · rw [reports_construct, reports_eq found there]

/-- A copy from a source that is not const, or an assignment. -/
theorem Sound.copied_allowed (sound : m.Sound) (found : m.objects other = some object)
    (there : m.descs[object.tupdesc]? = some desc)
    (copies : action = .copy this other ∨ action = .copyAssign this other) :
    (m.Allowed types action → (m.construct this desc object.blessed owned).Sound) ∧
      (m.Right (m.construct this desc object.blessed owned) action ↔ m.Allowed types action) := by
  obtain ⟨kept, reported⟩ : (m.construct this desc object.blessed owned).Sound ∧
      (m.construct this desc object.blessed owned).reports this = m.reports other :=
    sound.copied found there
  have frozen : ∀ tupdesc, tupdesc < m.descs.length →
      (m.construct this desc object.blessed owned).attrs tupdesc = m.attrs tupdesc :=
    fun _ below => attrs_made below
  rcases copies with rfl | rfl
  · refine ⟨fun _ => kept, iff_of_true (kept.right frozen (fun one two copies => ?_) (by simp)) trivial⟩
    obtain ⟨rfl, rfl⟩ : this = one ∧ other = two := by simpa using copies
    exact reported
  · refine ⟨fun _ => kept, iff_of_true (kept.right frozen (fun one two copies => ?_) (by simp)) trivial⟩
    obtain ⟨rfl, rfl⟩ : this = one ∧ other = two := by simpa using copies
    exact reported

/-- The object of a composite type has a descriptor that Postgres made. -/
theorem Sound.ofType (sound : m.Sound) {t : Oid} (taking : m.ofType types this t = (outcome, next)) :
    next.Sound ∧ ∀ tupdesc, tupdesc < m.descs.length → next.attrs tupdesc = m.attrs tupdesc := by
  unfold Descriptors.ofType at taking
  cases known : types.pgType t with
  | none =>
    rw [known] at taking
    cases taking
    exact ⟨sound, fun _ _ => rfl⟩
  | some form =>
    rw [known] at taking
    dsimp only at taking
    by_cases composite : form.typtype ≠ 'c'
    · rw [if_pos composite] at taking
      cases taking
      exact ⟨sound, fun _ _ => rfl⟩
    · rw [if_neg composite] at taking
      cases taking
      have kept : (m.construct this { types.rowtype t form.typtypmod with fromPostgres := true }
          true false).Sound :=
        sound.construct (.inl rfl) fun _ => by simp [TupleDescData.genuine]
      exact ⟨kept, fun _ below => attrs_made below⟩

/-- A `TupleDesc` may be wrapped as blessed if it may be called that. -/
theorem Sound.ofTupleDesc_right_iff (sound : m.Sound) (held : tupdesc < m.descs.length) :
    (m.Allowed types (.ofTupleDesc this tupdesc blessed) →
        (m.bind this ⟨tupdesc, blessed, false, tupdesc⟩).Sound) ∧
      (m.Right (m.bind this ⟨tupdesc, blessed, false, tupdesc⟩) (.ofTupleDesc this tupdesc blessed) ↔
        m.Allowed types (.ofTupleDesc this tupdesc blessed)) := by
  have kept : m.Allowed types (.ofTupleDesc this tupdesc blessed) →
      (m.bind this ⟨tupdesc, blessed, false, tupdesc⟩).Sound :=
    fun genuine => sound.bind held rfl genuine
  refine ⟨kept, fun right => ?_, fun genuine => (kept genuine).right_plain trivial fun _ _ => rfl⟩
  exact right.genuine this _ objects_bind

/-! ## Each action, and runs -/

/-- What is allowed keeps what is sound, and each action is right if and only if it is allowed. -/
theorem Sound.right_iff (sound : m.Sound) (taking : m.exec types action = some (outcome, next)) :
    (m.Allowed types action → next.Sound) ∧ (m.Right next action ↔ m.Allowed types action) := by
  cases action with
  | postgres desc =>
    cases taking
    have kept : (m.made { desc with fromPostgres := true }).Sound := sound.made (.inl rfl)
    exact kept.plain_allowed trivial (fun _ below => attrs_made below) trivial
  | ofSize this nattrs =>
    obtain ⟨-, same⟩ := Option.ite_none_left_eq_some.mp taking
    cases same
    have kept : (m.construct this (template nattrs) false true).Sound := sound.construct (.inr rfl) nofun
    exact kept.plain_allowed trivial (fun _ below => attrs_made below) trivial
  | ofTupleDesc this tupdesc blessed =>
    obtain ⟨allowed, same⟩ := Option.ite_none_left_eq_some.mp taking
    cases same
    refine sound.ofTupleDesc_right_iff ?_
    by_contra beyond
    exact allowed (.inr (Nat.not_lt.mp beyond))
  | ofType this t =>
    obtain ⟨-, same⟩ := Option.ite_none_left_eq_some.mp taking
    obtain ⟨kept, frozen⟩ := sound.ofType (Option.some.inj same)
    exact kept.plain_allowed trivial frozen trivial
  | copy this other =>
    obtain ⟨object, found, taken⟩ := Option.bind_eq_some_iff.mp taking
    obtain ⟨desc, there, taken⟩ := Option.bind_eq_some_iff.mp taken
    obtain ⟨-, same⟩ := Option.ite_none_left_eq_some.mp taken
    cases same
    exact sound.copied_allowed found there (.inl rfl)
  | copyConst this other =>
    obtain ⟨object, found, taken⟩ := Option.bind_eq_some_iff.mp taking
    obtain ⟨absent, same⟩ := Option.ite_none_left_eq_some.mp taken
    cases same
    exact ⟨False.elim, iff_of_false
      (sound.copyConst_wrong found (Option.not_isSome_iff_eq_none.mp absent)) id⟩
  | move this other =>
    obtain ⟨object, found, taken⟩ := Option.bind_eq_some_iff.mp taking
    obtain ⟨-, same⟩ := Option.ite_none_left_eq_some.mp taken
    cases same
    exact (sound.moved found).plain_allowed trivial (fun _ _ => rfl) trivial
  | copyAssign this other =>
    obtain ⟨object, found, taken⟩ := Option.bind_eq_some_iff.mp taking
    obtain ⟨desc, there, taken⟩ := Option.bind_eq_some_iff.mp taken
    obtain ⟨target, -, same⟩ := Option.bind_eq_some_iff.mp taken
    cases same
    exact sound.copied_allowed found there (.inr rfl)
  | moveAssign this other =>
    obtain ⟨object, found, taken⟩ := Option.bind_eq_some_iff.mp taking
    obtain ⟨target, -, same⟩ := Option.bind_eq_some_iff.mp taken
    cases same
    by_cases self : this = other
    · rw [if_pos self]
      exact sound.plain_allowed trivial (fun _ _ => rfl) trivial
    · rw [if_neg self]
      exact (sound.moved found).plain_allowed trivial (fun _ _ => rfl) trivial
  | setType this n type =>
    obtain ⟨kept, right⟩ := sound.setType_right_iff taking
    exact ⟨fun _ => kept, right⟩
  | setName this n name =>
    obtain ⟨kept, right⟩ := sound.setName_right_iff taking
    exact ⟨fun _ => kept, right⟩
  | toTupleDesc this =>
    obtain ⟨kept, same⟩ := sound.toTupleDesc taking
    exact kept.plain_allowed trivial (fun address _ => same address) trivial
  | toTupleDescConst this =>
    obtain ⟨object, found, same⟩ := Option.bind_eq_some_iff.mp taking
    cases same
    exact sound.plain_allowed trivial (fun _ _ => rfl) trivial

/-- The actions of a run are right if and only if each of them is allowed. -/
theorem descriptors_right_iff (types : RowTypes) (actions : List (DescriptorAction ω)) :
    Meets (step types) (DoneRight types) start actions ↔
      Meets (step types) (Allowed types) start actions :=
  meets_done_iff (fun _ _ _ _ sound executed => Sound.right_iff sound executed) start_sound

/-- No types. -/
def noTypes : RowTypes := ⟨fun _ => none, fun _ _ => template 0⟩

/-- A descriptor of one attribute and what `get_tuple_descriptor` returns, and a descriptor that is
moved and then converted. -/
def constCopy : List (DescriptorAction Bool) := [.ofSize false 1, getTupleDescriptor true false]

def movedAndBlessed : List (DescriptorAction Bool) :=
  [.ofSize false 1, .move true false, .toTupleDesc true]

/-- The copy says that it is blessed, and a setter on its source changes what it reports; an object
that was moved from writes to a blessed descriptor. -/
theorem constCopy_shares :
    ((run (step noTypes) start constCopy).map fun m =>
      ((m.objects true).map (·.blessed), m.descs.any (·.genuine))) = some (some true, false) ∧
    ((run (step noTypes) start constCopy).bind (·.reports true)) ≠
      ((run (step noTypes) start (constCopy ++ [.setName false 0 "name"])).bind (·.reports true)) ∧
    ((run (step noTypes) start movedAndBlessed).map fun m =>
      ((m.objects true).map (·.blessed), m.descs.all (·.registered))) = some (some true, true) ∧
    ((run (step noTypes) start movedAndBlessed).bind (·.attrs 0)) ≠
      ((run (step noTypes) start (movedAndBlessed ++ [.setName false 0 "name"])).bind
        (·.attrs 0)) ∧
    ¬ Meets (step noTypes) (DoneRight noTypes) start constCopy ∧
    ¬ Meets (step noTypes) (DoneRight noTypes) start
      (movedAndBlessed ++ [.setName false 0 "name"]) := by
  refine ⟨rfl, by decide +kernel, rfl, by decide +kernel, fun meets => ?_, fun meets => ?_⟩
  · have meets : Meets (step noTypes) (DoneRight noTypes) start
        ([.ofSize false 1] ++ [getTupleDescriptor true false]) := meets
    have done := meets.last rfl rfl
    have right := done _ _ rfl
    have genuine := right.genuine true _ rfl rfl
    cases genuine
  · have done := meets.last rfl rfl
    have right := done _ _ rfl
    have frozen := right.frozen 0 (.inl rfl) (by decide)
    revert frozen
    decide +kernel

end Descriptors
end Cppgres
