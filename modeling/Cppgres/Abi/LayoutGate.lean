import Cppgres.Abi.LayoutBlocks
import Cppgres.Memory.Tracking

/-!
# The comparison of two dumps

What the parse of a dump keeps of its structs, what the comparison then sees of them, and when two
dumps that it finds no difference in have the same layouts.
-/
namespace Cppgres.Abi
open Text

/-! ## What the parse keeps -/

namespace RecordBlock

/-- The last of a record and those behind it that leave it the current struct: its size is the one
that is read last. -/
def sized (b : RecordBlock) : List RecordBlock → RecordBlock
  | [] => b
  | next :: dump => if next.closes then b else next.sized dump

end RecordBlock

/-- A struct that has an entry at the end, with the record that the entry has the size of: it is the
last of its name, and an unnamed one is the current struct to the end. -/
inductive Kept : List RecordBlock → RecordBlock → RecordBlock → Prop
  | here {b : RecordBlock} {dump : List RecordBlock} (kind : b.kind = .structRecord)
    (last : ∀ later ∈ dump, later.kind = .structRecord → later.name ≠ b.name)
    (current : LayoutParser.isUnnamed b.name = true → ∀ later ∈ dump, later.closes = false) :
    Kept (b :: dump) b (b.sized dump)
  | later {b first sized : RecordBlock} {dump : List RecordBlock} (kept : Kept dump b sized) :
    Kept (first :: dump) b sized

/-- A layout with the size of the records that leave its struct the current one. -/
def StructLayout.sized (layout : StructLayout) : List RecordBlock → StructLayout
  | [] => layout
  | next :: dump =>
    if next.closes then layout
    else StructLayout.sized { layout with size := some next.size, align := some next.align } dump

theorem StructLayout.sized_eq (b : RecordBlock) (fields : List LayoutField) (dump : List RecordBlock) :
    StructLayout.sized ⟨fields, some b.size, some b.align⟩ dump =
      ⟨fields, some (b.sized dump).size, some (b.sized dump).align⟩ := by
  induction dump generalizing b with
  | nil => rfl
  | cons next dump ih =>
    unfold StructLayout.sized RecordBlock.sized
    split
    · rfl
    · exact ih next

namespace LayoutParser
variable {s : LayoutParser} {name : List Char} {layout : StructLayout} {dump : List RecordBlock}

/-- An entry that is there already, at the end. -/
def Remains (s : LayoutParser) (dump : List RecordBlock) (name : List Char) (layout : StructLayout) :
    Prop :=
  if s.currentStruct = some name then
    (isUnnamed name = true → ∀ later ∈ dump, later.closes = false) ∧
      ∃ old, s.structs.lookup name = some old ∧ old.sized dump = layout
  else s.structs.lookup name = some layout

theorem lookup_cleanup : s.cleanup.lookup name =
    if s.currentStruct = some name ∧ isUnnamed name = true then none else s.structs.lookup name := by
  unfold cleanup
  cases current : s.currentStruct with
  | none => simp
  | some other =>
    by_cases same : name = other
    · subst same
      cases unnamed : isUnnamed name <;> simp [unnamed]
    · cases unnamed : isUnnamed other <;>
        simp [unnamed, Ne.symm same, AList.lookup_erase_ne same]

theorem currentStruct_setCurrentSize {size align : Nat} :
    (s.setCurrentSize size align).currentStruct = s.currentStruct := by
  unfold setCurrentSize setSize change
  split
  · split <;> simp_all
  · rfl

theorem lookup_setCurrentSize {size align : Nat} :
    (s.setCurrentSize size align).structs.lookup name =
      if s.currentStruct = some name then (s.structs.lookup name).map fun layout =>
        { layout with size := some size, align := some align }
      else s.structs.lookup name := by
  unfold setCurrentSize setSize change
  cases current : s.currentStruct with
  | none => simp
  | some other =>
    by_cases same : name = other
    · subst same
      cases found : s.structs.lookup name <;> simp [found]
    · cases found : s.structs.lookup other <;>
        simp [found, Ne.symm same, AList.lookup_insert_ne same]

/-- An entry, at a record that ends its being the current one. -/
theorem remains_of_closes {t : LayoutParser} {first : RecordBlock} (closes : first.closes = true)
    (structs : t.structs.lookup name = s.cleanup.lookup name) (current : t.currentStruct ≠ some name) :
    t.Remains dump name layout ↔ s.Remains (first :: dump) name layout := by
  unfold Remains
  rw [if_neg current, structs, lookup_cleanup]
  by_cases before : s.currentStruct = some name
  · cases unnamed : isUnnamed name <;>
      simp [before, closes, StructLayout.sized]
  · simp [before]

/-- An entry, at a class record that does not end it. -/
theorem remains_of_class {first : RecordBlock} (closes : first.closes = false) {marker : Bool} :
    (({ s with previousLineWasMarker := marker } : LayoutParser).setCurrentSize first.size
        first.align).Remains dump name layout ↔
      s.Remains (first :: dump) name layout := by
  unfold Remains
  rw [currentStruct_setCurrentSize, lookup_setCurrentSize]
  by_cases before : s.currentStruct = some name
  · simp [before, closes, StructLayout.sized]
  · simp [before]

theorem kept_cons {first b sized : RecordBlock} : Kept (first :: dump) b sized ↔
    (b = first ∧ sized = first.sized dump ∧ first.kind = .structRecord ∧
      (∀ later ∈ dump, later.kind = .structRecord → later.name ≠ first.name) ∧
      (isUnnamed first.name = true → ∀ later ∈ dump, later.closes = false)) ∨ Kept dump b sized := by
  constructor
  · intro kept
    cases kept with
    | here kind last current => exact .inl ⟨rfl, rfl, kind, last, current⟩
    | later kept => exact .inr kept
  · intro either
    cases either with
    | inl here =>
      obtain ⟨rfl, rfl, kind, last, current⟩ := here
      exact .here kind last current
    | inr kept => exact .later kept

theorem readBlock_struct {first : RecordBlock} (kind : first.kind = .structRecord) :
    s.readBlock first = ⟨s.cleanup.insert first.name
      ⟨first.fields, some first.size, some first.align⟩, some first.name, false⟩ := by
  unfold readBlock
  rw [kind]

/-- Another record ends that there is a current struct, or gives it its size. -/
theorem readBlock_other {first : RecordBlock} (kind : first.kind ≠ .structRecord) :
    s.readBlock first = if first.closes then ⟨s.cleanup, none, true⟩
      else ({ s with previousLineWasMarker := true } : LayoutParser).setCurrentSize first.size
        first.align := by
  unfold readBlock RecordBlock.closes
  cases other : first.kind with
  | structRecord => exact absurd other kind
  | unionRecord => simp
  | classRecord => simp

/-- The entry that a struct record makes. -/
theorem remains_own {first : RecordBlock} (kind : first.kind = .structRecord) :
    (s.readBlock first).Remains dump first.name layout ↔
      (isUnnamed first.name = true → ∀ later ∈ dump, later.closes = false) ∧
        layout = ⟨first.fields, some (first.sized dump).size, some (first.sized dump).align⟩ := by
  rw [readBlock_struct kind]
  simp [Remains, AList.lookup_insert, StructLayout.sized_eq, eq_comm (a := layout)]

/-- The entries that a record does not make. -/
theorem remains_other {first : RecordBlock}
    (other : first.kind = .structRecord → first.name ≠ name) :
    (s.readBlock first).Remains dump name layout ↔ s.Remains (first :: dump) name layout := by
  by_cases kind : first.kind = .structRecord
  · have closes : first.closes = true := by simp [RecordBlock.closes, kind]
    rw [readBlock_struct kind]
    apply remains_of_closes closes
    · exact AList.lookup_insert_ne (other kind).symm
    · simp [other kind]
  · rw [readBlock_other kind]
    cases closes : first.closes with
    | true => exact remains_of_closes closes rfl (by simp)
    | false => exact remains_of_class closes

theorem kept_other {first b sized : RecordBlock}
    (other : first.kind = .structRecord → first.name ≠ b.name) :
    Kept (first :: dump) b sized ↔ Kept dump b sized := by
  rw [kept_cons]
  constructor
  · intro either
    cases either with
    | inl here =>
      obtain ⟨rfl, _, kind, _⟩ := here
      exact absurd rfl (other kind)
    | inr kept => exact kept
  · exact .inr

/-- The entries at the end. -/
theorem lookup_foldl_readBlock :
    (dump.foldl readBlock s).structs.lookup name = some layout ↔
      (∃ b sized, Kept dump b sized ∧ b.name = name ∧
        layout = ⟨b.fields, some sized.size, some sized.align⟩) ∨
      (∀ b ∈ dump, b.kind = .structRecord → b.name ≠ name) ∧ s.Remains dump name layout := by
  induction dump generalizing s with
  | nil =>
    have none : ∀ {b sized}, ¬ Kept [] b sized := fun kept => nomatch kept
    by_cases current : s.currentStruct = some name <;>
      simp [none, Remains, current, StructLayout.sized]
  | cons first dump ih =>
    rw [List.foldl_cons, ih]
    by_cases own : first.kind = .structRecord ∧ first.name = name
    · obtain ⟨kind, rfl⟩ := own
      rw [remains_own kind]
      constructor
      · intro either
        left
        cases either with
        | inl kept =>
          obtain ⟨b, sized, kept, described⟩ := kept
          exact ⟨b, sized, .later kept, described⟩
        | inr here => exact ⟨first, _, .here kind here.1 here.2.1, rfl, here.2.2⟩
      · intro either
        cases either with
        | inl kept =>
          obtain ⟨b, sized, kept, named, described⟩ := kept
          cases kept with
          | here kind last current => exact .inr ⟨last, current, described⟩
          | later kept => exact .inl ⟨b, sized, kept, named, described⟩
        | inr absent => exact absurd rfl (absent.1 first List.mem_cons_self kind)
    · have other (kind : first.kind = .structRecord) : first.name ≠ name :=
        fun same => own ⟨kind, same⟩
      rw [remains_other other]
      refine or_congr (exists_congr fun b => exists_congr fun sized => ?_) ?_
      · rw [and_congr_left_iff]
        intro described
        exact (kept_other fun kind => described.1.symm ▸ other kind).symm
      · rw [List.forall_mem_cons]
        exact and_congr_left' (and_iff_right other).symm

end LayoutParser

/-- The entries that the parse of a dump gives. -/
theorem lookup_parseClangLayout {dump : List RecordBlock} {name : List Char} {layout : StructLayout}
    (separate : Separate false dump) :
    (parseClangLayout (dumpLines dump)).lookup name = some layout ↔
      ∃ b sized, Kept dump b sized ∧ b.name = name ∧
        layout = ⟨b.fields, some sized.size, some sized.align⟩ := by
  rw [parseClangLayout_eq separate, LayoutParser.lookup_foldl_readBlock]
  simp [LayoutParser.Remains, LayoutParser.start]

/-! ## What the comparison sees -/

theorem lookup_fieldOffsets (fields : List LayoutField) (name : List Char) :
    (fieldOffsets fields).lookup name =
      (fields.reverse.find? fun field => field.type = name).map LayoutField.offset := by
  induction fields using List.reverseRecOn with
  | nil => rfl
  | append_singleton fields field ih =>
    unfold fieldOffsets at ih ⊢
    rw [List.foldl_append, List.foldl_cons, List.foldl_nil, List.reverse_append]
    by_cases same : name = field.type
    · subst same
      simp [AList.lookup_insert]
    · simp [AList.lookup_insert_ne same, ih, Ne.symm same]

theorem compareStruct_eq_nil {name : List Char} {old new : StructLayout} :
    compareStruct name old new = [] ↔ old.size = new.size ∧
      ∀ field offset, (fieldOffsets old.fields).lookup field = some offset →
        (fieldOffsets new.fields).lookup field = some offset := by
  unfold compareStruct
  rw [List.append_eq_nil_iff, List.flatMap_eq_nil_iff]
  refine and_congr (by simp) ?_
  constructor
  · intro none field offset found
    have compared := none ⟨field, offset⟩ (AList.mem_lookup_iff.mp found)
    cases other : (fieldOffsets new.fields).lookup field with
    | none => simp [other] at compared
    | some place => simpa [other] using compared
  · intro same field listed
    rw [same field.1 field.2 (AList.mem_lookup_iff.mpr listed)]
    simp

theorem compareStructLayouts_eq_nil {old new : AList fun _ : List Char => StructLayout} :
    compareStructLayouts old new = [] ↔ ∀ name layout, old.lookup name = some layout →
      isIgnored name = false → ∃ other, new.lookup name = some other ∧
        compareStruct name layout other = [] := by
  unfold compareStructLayouts
  rw [List.flatMap_eq_nil_iff]
  constructor
  · intro none name layout found compared
    have errors := none ⟨name, layout⟩ (AList.mem_lookup_iff.mp found)
    cases there : new.lookup name with
    | none => simp [compared, there] at errors
    | some other => exact ⟨other, rfl, by simpa [compared, there] using errors⟩
  · intro same struct listed
    cases compared : isIgnored struct.1 with
    | true => rfl
    | false =>
      obtain ⟨other, found, none⟩ :=
        same struct.1 struct.2 (AList.mem_lookup_iff.mpr listed) compared
      simp [found, none]

/-- The offset of the last field of a name, which is the one that is compared. -/
def RecordBlock.lastOffset (b : RecordBlock) (name : List Char) : Option Nat :=
  (b.fields.reverse.find? fun field => field.type = name).map LayoutField.offset

/-- The comparison finds no difference: each struct that has an entry for the C headers has one for the
C++ headers, of the same size as it was read, and with the same offset for each name. -/
def Compared (c cxx : List RecordBlock) : Prop :=
  ∀ b sized, Kept c b sized → isIgnored b.name = false →
    ∃ other otherSized, Kept cxx other otherSized ∧ other.name = b.name ∧
      sized.size = otherSized.size ∧
      ∀ name offset, b.lastOffset name = some offset → other.lastOffset name = some offset

theorem compareStructLayouts_iff {c cxx : List RecordBlock} (separate : Separate false c)
    (separateCxx : Separate false cxx) :
    compareStructLayouts (parseClangLayout (dumpLines c)) (parseClangLayout (dumpLines cxx)) = [] ↔
      Compared c cxx := by
  rw [compareStructLayouts_eq_nil]
  simp only [lookup_parseClangLayout separate, lookup_parseClangLayout separateCxx,
    compareStruct_eq_nil]
  constructor
  · intro same b sized kept compared
    obtain ⟨_, ⟨other, otherSized, found, named, rfl⟩, size, offsets⟩ :=
      same b.name _ ⟨b, sized, kept, rfl, rfl⟩ compared
    refine ⟨other, otherSized, found, named, Option.some.inj size, fun name offset last => ?_⟩
    have there := offsets name offset (by rw [lookup_fieldOffsets]; exact last)
    rwa [lookup_fieldOffsets] at there
  · intro same name layout found compared
    obtain ⟨b, sized, kept, rfl, rfl⟩ := found
    obtain ⟨other, otherSized, found, named, size, offsets⟩ := same b sized kept compared
    refine ⟨_, ⟨other, otherSized, found, named, rfl⟩, congrArg some size, fun name offset last => ?_⟩
    rw [lookup_fieldOffsets] at last ⊢
    exact offsets name offset last

/-! ## What the gate is for -/

/-- The same size, the same alignment, and each member where it is. -/
structure RecordBlock.SameLayout (b other : RecordBlock) : Prop where
  name : other.name = b.name
  size : other.size = b.size
  align : other.align = b.align
  members : ∀ m ∈ b.members, m.level = 1 → ∃ n ∈ other.members, n.level = 1 ∧ n.name = m.name ∧
    n.offset = m.offset ∧ n.bits = m.bits

/-- Every struct of the C headers that is not ignored is in the C++ headers as it is. -/
def SameLayouts (c cxx : List RecordBlock) : Prop :=
  ∀ b ∈ c, b.kind = .structRecord → isIgnored b.name = false →
    ∃ other ∈ cxx, other.kind = .structRecord ∧ b.SameLayout other

/-- Both dumps are parsed as they are to be, and no error means the same layouts. -/
structure GateRight (c cxx : List RecordBlock) : Prop where
  attributed : Attributed c
  attributedCxx : Attributed cxx
  sound : compareStructLayouts (parseClangLayout (dumpLines c))
    (parseClangLayout (dumpLines cxx)) = [] → SameLayouts c cxx

/-! ## What is not compared -/

/-- The struct has an entry, and the size in it is its own. -/
def OwnSize (dump : List RecordBlock) (b : RecordBlock) : Prop :=
  ∃ sized, Kept dump b sized ∧ sized.size = b.size

/-- The struct has an entry. -/
def HasEntry (dump : List RecordBlock) (b : RecordBlock) : Prop := ∃ sized, Kept dump b sized

/-- The same alignment, which is never compared; the same size, if one of the two is not in an entry;
and each member where it is, if one of the two has no entry, or another of its name is behind it. -/
structure RecordBlock.SameUncompared (c cxx : List RecordBlock) (b other : RecordBlock) : Prop where
  name : other.name = b.name
  align : other.align = b.align
  size : ¬ (OwnSize c b ∧ OwnSize cxx other) → other.size = b.size
  members : ∀ m ∈ b.members, m.level = 1 →
    ¬ (HasEntry c b ∧ HasEntry cxx other ∧ b.lastOffset m.name = some m.offset) →
      ∃ n ∈ other.members, n.level = 1 ∧ n.name = m.name ∧ n.offset = m.offset ∧ n.bits = m.bits

/-- Every struct that is not ignored is in the C++ headers, and as it is in what is not compared. -/
def UncomparedAgree (c cxx : List RecordBlock) : Prop :=
  ∀ b ∈ c, b.kind = .structRecord → isIgnored b.name = false →
    ∃ other ∈ cxx, other.kind = .structRecord ∧ b.SameUncompared c cxx other

theorem Kept.mem {dump : List RecordBlock} {b sized : RecordBlock} (kept : Kept dump b sized) :
    b ∈ dump ∧ b.kind = .structRecord := by
  induction kept with
  | here kind _ _ => exact ⟨List.mem_cons_self, kind⟩
  | later _ ih => exact ⟨List.mem_cons_of_mem _ ih.1, ih.2⟩

/-- A name has one entry. -/
theorem Kept.unique {dump : List RecordBlock} {b other sized otherSized : RecordBlock}
    (kept : Kept dump b sized) (also : Kept dump other otherSized) (named : other.name = b.name) :
    other = b ∧ otherSized = sized := by
  induction kept with
  | here kind last current =>
    cases also with
    | here _ _ _ => exact ⟨rfl, rfl⟩
    | later also =>
      obtain ⟨there, otherKind⟩ := also.mem
      exact absurd named (last other there otherKind)
  | later kept ih =>
    cases also with
    | here _ last _ =>
      obtain ⟨there, kind⟩ := kept.mem
      exact absurd named.symm (last _ there kind)
    | later also => exact ih also named

/-- Structs have no bit-fields of their own where all lines are used as they are to be. -/
theorem separate_struct {current : Bool} {dump : List RecordBlock} (separate : Separate current dump)
    {b : RecordBlock} (listed : b ∈ dump) (kind : b.kind = .structRecord) :
    ∀ m ∈ b.members, m.level = 1 → m.bits = none := by
  induction dump generalizing current with
  | nil => cases listed
  | cons first dump ih =>
    cases List.mem_cons.mp listed with
    | inl same =>
      have clean := separate.1
      unfold RecordBlock.Clean at clean
      rw [← same, kind] at clean
      exact clean
    | inr listed => exact ih separate.2 listed

theorem mem_fields {b : RecordBlock} {field : LayoutField} :
    field ∈ b.fields ↔ ∃ m ∈ b.members, (m.level = 1 ∧ m.bits = none) ∧ m.field = field := by
  simp [RecordBlock.fields, MemberLine.isField, and_assoc]

/-- The last field of a name is a member. -/
theorem exists_member_of_lastOffset {b : RecordBlock} {name : List Char} {offset : Nat}
    (last : b.lastOffset name = some offset) :
    ∃ n ∈ b.members, n.level = 1 ∧ n.name = name ∧ n.offset = offset ∧ n.bits = none := by
  obtain ⟨field, found, rfl⟩ := Option.map_eq_some_iff.mp last
  have there : field ∈ b.fields := List.mem_reverse.mp (List.mem_of_find?_eq_some found)
  have named : field.type = name := by simpa using List.find?_some found
  obtain ⟨n, listed, ⟨level, bits⟩, rfl⟩ := mem_fields.mp there
  exact ⟨n, listed, level, named, rfl, bits⟩

/-- Where no difference is found, the layouts are the same if they are in what is not compared. -/
theorem sameLayouts_iff_uncompared {c cxx : List RecordBlock} (separate : Separate false c)
    (compared : Compared c cxx) : SameLayouts c cxx ↔ UncomparedAgree c cxx := by
  refine forall₄_congr fun b listed kind seen => exists_congr fun other => and_congr_right fun also =>
    and_congr_right fun otherKind => ?_
  constructor
  · intro same
    exact ⟨same.name, same.align, fun _ => same.size, fun m member direct _ =>
      same.members m member direct⟩
  · intro same
    have entry {sized otherSized : RecordBlock} (kept : Kept c b sized)
        (otherKept : Kept cxx other otherSized) : sized.size = otherSized.size ∧
          ∀ name offset, b.lastOffset name = some offset → other.lastOffset name = some offset := by
      obtain ⟨found, foundSized, foundKept, named, size, offsets⟩ := compared b sized kept seen
      obtain ⟨rfl, rfl⟩ := otherKept.unique foundKept (named.trans same.name.symm)
      exact ⟨size, offsets⟩
    refine ⟨same.name, ?_, same.align, fun m member direct => ?_⟩
    · by_cases both : OwnSize c b ∧ OwnSize cxx other
      · obtain ⟨⟨sized, kept, own⟩, otherSized, otherKept, otherOwn⟩ := both
        rw [← own, ← otherOwn]
        exact (entry kept otherKept).1.symm
      · exact same.size both
    · by_cases both : HasEntry c b ∧ HasEntry cxx other ∧ b.lastOffset m.name = some m.offset
      · obtain ⟨⟨sized, kept⟩, ⟨otherSized, otherKept⟩, last⟩ := both
        rw [separate_struct separate listed kind m member direct]
        exact exists_member_of_lastOffset ((entry kept otherKept).2 m.name m.offset last)
      · exact same.members m member direct both

/-- The gate is right if and only if the records of both dumps are separate, and the dumps do not agree
in all that is compared while they differ in something else. -/
theorem gate_right_iff (c cxx : List RecordBlock) :
    GateRight c cxx ↔
      Separate false c ∧ Separate false cxx ∧ (Compared c cxx → UncomparedAgree c cxx) := by
  constructor
  · intro right
    have separate := (attributed_iff_separate c).mp right.attributed
    have separateCxx := (attributed_iff_separate cxx).mp right.attributedCxx
    refine ⟨separate, separateCxx, fun compared => ?_⟩
    refine (sameLayouts_iff_uncompared separate compared).mp (right.sound ?_)
    exact (compareStructLayouts_iff separate separateCxx).mpr compared
  · intro condition
    obtain ⟨separate, separateCxx, seen⟩ := condition
    refine ⟨(attributed_iff_separate c).mpr separate, (attributed_iff_separate cxx).mpr separateCxx,
      fun none => ?_⟩
    have compared := (compareStructLayouts_iff separate separateCxx).mp none
    exact (sameLayouts_iff_uncompared separate compared).mpr (seen compared)

/-! ## Dumps in which nothing is hidden by something else -/

/-- Structs have names, each its own, and so have the fields of each; there are no class records. -/
structure Plain (dump : List RecordBlock) : Prop where
  noClass : ∀ b ∈ dump, b.kind ≠ .classRecord
  named : ∀ b ∈ dump, LayoutParser.isUnnamed b.name = false
  names : dump.Pairwise fun b later => later.kind = .structRecord → later.name ≠ b.name
  fields : ∀ b ∈ dump, (b.fields.map LayoutField.type).Nodup

theorem Plain.tail {first : RecordBlock} {dump : List RecordBlock} (plain : Plain (first :: dump)) :
    Plain dump where
  noClass b listed := plain.noClass b (List.mem_cons_of_mem _ listed)
  named b listed := plain.named b (List.mem_cons_of_mem _ listed)
  names := (List.pairwise_cons.mp plain.names).2
  fields b listed := plain.fields b (List.mem_cons_of_mem _ listed)

theorem Plain.kept_iff {dump : List RecordBlock} (plain : Plain dump) {b sized : RecordBlock} :
    Kept dump b sized ↔ b ∈ dump ∧ b.kind = .structRecord ∧ sized = b := by
  induction dump with
  | nil => simp [show ¬ Kept [] b sized from fun kept => nomatch kept]
  | cons first dump ih =>
    have alone : first.sized dump = first := by
      cases dump with
      | nil => rfl
      | cons next dump =>
        have closes : next.closes = true := by
          simp [RecordBlock.closes, plain.noClass next (by simp)]
        simp [RecordBlock.sized, closes]
    have named := plain.named first List.mem_cons_self
    have last := (List.pairwise_cons.mp plain.names).1
    rw [LayoutParser.kept_cons, ih plain.tail, alone]
    simp only [named, Bool.false_eq_true, false_implies, and_true, List.mem_cons]
    constructor
    · intro either
      obtain ⟨rfl, rfl, kind, _⟩ | ⟨listed, kind, rfl⟩ := either
      · exact ⟨.inl rfl, kind, rfl⟩
      · exact ⟨.inr listed, kind, rfl⟩
    · intro there
      obtain ⟨rfl | listed, kind, rfl⟩ := there
      · exact .inl ⟨rfl, rfl, kind, last⟩
      · exact .inr ⟨listed, kind, rfl⟩

/-- A struct of a name is the only one. -/
theorem Plain.eq_of_name {dump : List RecordBlock} (plain : Plain dump) {b other : RecordBlock}
    (listed : b ∈ dump) (also : other ∈ dump) (kind : b.kind = .structRecord)
    (otherKind : other.kind = .structRecord) (named : other.name = b.name) : other = b := by
  induction dump with
  | nil => cases listed
  | cons first dump ih =>
    have last := (List.pairwise_cons.mp plain.names).1
    cases List.mem_cons.mp listed with
    | inl same =>
      cases List.mem_cons.mp also with
      | inl alsoSame => rw [same, alsoSame]
      | inr also =>
        rw [same] at named
        exact absurd named (last other also otherKind)
    | inr listed =>
      cases List.mem_cons.mp also with
      | inl same =>
        rw [same] at named
        exact absurd named.symm (last b listed kind)
      | inr also => exact ih plain.tail listed also

/-- With names of their own, the last field of a name is the only one. -/
theorem lastOffset_eq_some {b : RecordBlock} (distinct : (b.fields.map LayoutField.type).Nodup)
    {name : List Char} {offset : Nat} :
    b.lastOffset name = some offset ↔ ⟨offset, name⟩ ∈ b.fields := by
  unfold RecordBlock.lastOffset
  rw [← List.nodup_reverse, ← List.map_reverse] at distinct
  rw [← List.mem_reverse]
  generalize b.fields.reverse = fields at distinct ⊢
  induction fields with
  | nil => simp
  | cons field fields ih =>
    obtain ⟨place, type⟩ := field
    obtain ⟨absent, distinct⟩ := List.nodup_cons.mp distinct
    by_cases same : type = name
    · subst same
      have elsewhere : (⟨offset, type⟩ : LayoutField) ∉ fields :=
        fun listed => absent (List.mem_map.mpr ⟨_, listed, rfl⟩)
      simp [elsewhere, eq_comm]
    · simpa [same, Ne.symm same] using ih distinct

/-- What is not compared of such dumps is the alignment of structs. -/
theorem sameLayouts_iff_aligned {c cxx : List RecordBlock} (plain : Plain c) (plainCxx : Plain cxx)
    (separate : Separate false c) (compared : Compared c cxx) :
    SameLayouts c cxx ↔ ∀ b ∈ c, b.kind = .structRecord → isIgnored b.name = false →
      ∀ other ∈ cxx, other.kind = .structRecord → other.name = b.name → other.align = b.align := by
  constructor
  · intro same b listed kind seen other also otherKind named
    obtain ⟨found, there, foundKind, layout⟩ := same b listed kind seen
    rw [plainCxx.eq_of_name there also foundKind otherKind (named.trans layout.name.symm)]
    exact layout.align
  · intro aligned b listed kind seen
    obtain ⟨other, otherSized, kept, named, size, offsets⟩ :=
      compared b b (plain.kept_iff.mpr ⟨listed, kind, rfl⟩) seen
    obtain ⟨also, otherKind, own⟩ := plainCxx.kept_iff.mp kept
    rw [own] at size
    refine ⟨other, also, otherKind, named, size.symm,
      aligned b listed kind seen other also otherKind named, fun m member direct => ?_⟩
    have bits := separate_struct separate listed kind m member direct
    have here : m.field ∈ b.fields := mem_fields.mpr ⟨m, member, ⟨direct, bits⟩, rfl⟩
    rw [bits]
    apply exists_member_of_lastOffset
    exact offsets m.name m.offset ((lastOffset_eq_some (plain.fields b listed)).mpr here)

/-- A struct of one member, with an alignment. -/
def oneMember (align : Nat) : RecordBlock where
  kind := .structRecord
  name := "S".toList
  members := [⟨0, none, 1, "int".toList, "a".toList, by decide, by decide, by decide, by decide⟩]
  size := 8
  align := align
  cxx := none
  name_solid := by decide

/-- An alignment that differs is not seen. -/
theorem alignment_unseen : ¬ GateRight [oneMember 4] [oneMember 8] := by
  intro right
  have none : compareStructLayouts (parseClangLayout (dumpLines [oneMember 4]))
      (parseClangLayout (dumpLines [oneMember 8])) = [] := by decide +kernel
  obtain ⟨other, listed, _, same⟩ :=
    right.sound none (oneMember 4) List.mem_cons_self rfl (by decide)
  rw [List.mem_singleton.mp listed] at same
  exact absurd same.align (by decide)

end Cppgres.Abi
