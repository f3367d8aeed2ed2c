import Cppgres.Record.Descriptors

/-!
# Records from values

The two constructors of `record` that take values: each fills an array of datums and an array of
null flags as long as the list of values is, and `heap_form_tuple` reads as many entries as the
descriptor has attributes. `Cppgres.RecordSource.formed_right_iff` says when that comes to a record
of these values.
-/
namespace Cppgres

variable {ω D : Type}

/-- Postgres, as far as it is asked here. `zero` is `Datum(0)`, `kept` what a value that is stored in
an attribute is fetched as. The rest are the errors that the calls raise, if they do. -/
structure RecordServer (D : Type) where
  zero : D
  kept : FormPgAttribute → D → D
  copyFails : Option String
  blessFails : Option String
  formFails : Option String

def maxTupleAttributeNumber : Nat := 1664

/-- A descriptor of the caller, `other`, and the name of the member that copies it, `this`. -/
structure RecordSource (ω : Type) where
  m : Descriptors ω
  this : ω
  other : ω
  object : TupleDescriptorObject
  desc : TupleDescData
  found : m.objects other = some object
  there : m.descs[object.tupdesc]? = some desc
  absent : m.objects this = none

/-- A record: its descriptor, and the attributes of its tuple. -/
structure FormedRecord (D : Type) where
  tupdesc : TupleDescData
  tuple : List (Option D)
  deriving DecidableEq, Repr

/-- What constructing a record comes to. `overread` is a read of the two arrays at an index
past their end. -/
inductive Formed (D : Type) where
  | record (r : FormedRecord D)
  | thrown (what : String)
  | overread (index : Nat)
  deriving DecidableEq, Repr

def Formed.tuple? : Formed D → Option (List (Option D))
  | .record r => some r.tuple
  | .thrown _ => none
  | .overread _ => none

/-! ## The arrays -/

/-- The loop of the constructor from a range: two vectors that grow. -/
def gather (zero : D) (values : List D) (nullFlags : List Bool) :
    List (Except String (Option D)) → Except String (List D × List Bool)
  | [] => .ok (values, nullFlags)
  | item :: items => do
    let nd ← item
    gather zero (values ++ [nd.getD zero]) (nullFlags ++ [nd.isNone]) items

/-- The arrays of the constructor from a pack: all arguments are converted first. -/
def unpack (zero : D) (args : List (Except String (Option D))) :
    Except String (List D × List Bool) := do
  let datums ← args.mapM id
  .ok (datums.map (·.getD zero), datums.map (·.isNone))

/-- Entry by entry, what `heap_form_tuple` reads, and what of it is fetched later. -/
def readArrays (server : RecordServer D) (values : List D) (nulls : List Bool) :
    Nat → List FormPgAttribute → Except Nat (List (Option D))
  | _, [] => .ok []
  | index, att :: attrs =>
    match nulls[index]?, values[index]? with
    | some isnull, some value => do
      let rest ← readArrays server values nulls (index + 1) attrs
      .ok ((if isnull then none else some (server.kept att value)) :: rest)
    | _, _ => .error index

/-- `heap_form_tuple` -/
def heapFormTupleFromArrays (server : RecordServer D) (tupdesc : TupleDescData) (values : List D)
    (nulls : List Bool) : Formed D :=
  if maxTupleAttributeNumber < tupdesc.attrs.length then
    .thrown ("number of columns (" ++ toString tupdesc.attrs.length ++ ") exceeds limit (" ++
      toString maxTupleAttributeNumber ++ ")")
  else
    match readArrays server values nulls 0 tupdesc.attrs with
    | .error index => .overread index
    | .ok tuple =>
      match server.formFails with
      | some what => .thrown what
      | none => .record ⟨tupdesc, tuple⟩

/-! ## The constructors -/

namespace RecordSource
variable [DecidableEq ω] (server : RecordServer D) (source : RecordSource ω)

/-- After the member was copied from the descriptor of the caller. -/
def copied : Descriptors ω :=
  source.m.construct source.this source.desc source.object.blessed source.object.owned

/-- The end of the member: the object is gone, what it points to is not freed. -/
def abandon (source : RecordSource ω) (m : Descriptors ω) : Descriptors ω :=
  { m with objects := Function.update m.objects source.this none }

/-- `this->tupdesc.operator TupleDesc()`, which may have to bless the copy. -/
def toTupleDesc : Except String (TupleDescData × Descriptors ω) :=
  if source.object.blessed then .ok (source.desc, source.copied)
  else
    match server.blessFails, source.copied.toTupleDesc source.this with
    | none, some (.pointer address, blessed) =>
      .ok ((blessed.descs[address]?).getD source.desc, blessed)
    | some what, _ => .error what
    | none, _ => .error "no descriptor"

/-- What the constructors share: the member, the arrays, and `heap_form_tuple`. -/
def form (arrays : Except String (List D × List Bool)) : Formed D × Descriptors ω :=
  match server.copyFails with
  | some what => (.thrown what, source.m)
  | none =>
    match arrays with
    | .error what => (.thrown what, source.abandon source.copied)
    | .ok (values, nulls) =>
      match source.toTupleDesc server with
      | .error what => (.thrown what, source.abandon source.copied)
      | .ok (tupdesc, m) =>
        match heapFormTupleFromArrays server tupdesc values nulls with
        | .thrown what => (.thrown what, source.abandon m)
        | formed => (formed, m)

/-- `record(tuple_descriptor &tupdesc, Iter begin, Iter end)`, with what `into_nullable_datum`
comes to on each item. -/
def ofRange (items : List (Except String (Option D))) : Formed D × Descriptors ω :=
  source.form server (gather server.zero [] [] items)

/-- `record(tuple_descriptor &tupdesc, D &&...args)`, with what `into_nullable_datum` comes to on
each argument. -/
def ofPack (args : List (Except String (Option D))) : Formed D × Descriptors ω :=
  source.form server (unpack server.zero args)

end RecordSource

/-- `record::get_attribute`. `heap_getattr` counts from one, and has no attribute for the number that
comes after the largest. -/
def FormedRecord.getAttribute (r : FormedRecord D) (n : BitVec 32) : Except String (Option D) :=
  match checkBounds "record" r.tupdesc.attrs n with
  | .error what => .error what
  | .ok none => .error ("invalid attnum: " ++ toString (n + 1).toInt)
  | .ok (some _) => .ok ((r.tuple[n.toNat]?).join)

/-! ## What is asked of a construction -/

namespace RecordSource
variable (server : RecordServer D) (source : RecordSource ω)
  (items : List (Except String (Option D)))

/-- The descriptor of the caller is what it was. -/
def Keeps (m : Descriptors ω) : Prop :=
  m.objects source.other = some source.object ∧ m.descs[source.object.tupdesc]? = some source.desc

/-- It throws and leaves the descriptor of the caller alone, or there is one value for each
attribute and the record has these values. Nothing past the arrays is read. -/
def Right (result : Formed D × Descriptors ω) : Prop :=
  match result.1 with
  | .thrown _ => source.Keeps result.2
  | .overread _ => False
  | .record r => ∃ values : List (Option D), items = values.map .ok ∧
      values.length = source.desc.attrs.length ∧ ∀ (i : Nat) value, values[i]? = some value →
        r.getAttribute (BitVec.ofNat 32 i) = .ok value

/-- What throws before the arrays are read: a failure of a call or of a conversion, and more
attributes than Postgres allows. -/
def Refused : Prop :=
  server.copyFails.isSome ∨ (∃ what, .error what ∈ items) ∨
    (source.object.blessed = false ∧ server.blessFails.isSome) ∨
    maxTupleAttributeNumber < source.desc.attrs.length

/-- Each value that is not null is one that its attribute can hold. -/
def Fits (values : List (Option D)) : Prop :=
  ∀ (i : Nat) att value, source.desc.attrs[i]? = some att → values[i]? = some (some value) →
    server.kept att value = value

/-- The construction is refused early, or there are enough values and it is refused late, or there
is one value for each attribute, of a kind that it can hold. -/
def Suits : Prop :=
  source.Refused server items ∨ ∃ values : List (Option D), items = values.map .ok ∧
    ((server.formFails.isSome ∧ source.desc.attrs.length ≤ values.length) ∨
      (values.length = source.desc.attrs.length ∧ source.Fits server values))

end RecordSource

/-! ## What the arrays hold -/

section Arrays
variable {server : RecordServer D}

/-- The two arrays of a list of values. -/
def arraysOf (zero : D) (values : List (Option D)) : List D × List Bool :=
  (values.map (·.getD zero), values.map (·.isNone))

theorem converted_or_failed (items : List (Except String (Option D))) :
    (∃ values : List (Option D), items = values.map .ok) ∨ ∃ what, .error what ∈ items := by
  induction items with
  | nil => exact .inl ⟨[], rfl⟩
  | cons item items ih =>
    cases item with
    | error what => exact .inr ⟨what, List.mem_cons_self⟩
    | ok nd =>
      rcases ih with ⟨values, rfl⟩ | ⟨what, failed⟩
      · exact .inl ⟨nd :: values, rfl⟩
      · exact .inr ⟨what, List.mem_cons_of_mem _ failed⟩

theorem gather_ok (zero : D) (values : List (Option D)) (before : List D) (flags : List Bool) :
    gather zero before flags (values.map .ok) =
      .ok (before ++ (arraysOf zero values).1, flags ++ (arraysOf zero values).2) := by
  induction values generalizing before flags with
  | nil => simp [gather, arraysOf]
  | cons nd values ih =>
    simp only [List.map_cons, gather, bind, Except.bind, ih]
    simp [arraysOf]

theorem gather_error (zero : D) {items : List (Except String (Option D))}
    (failed : ∃ what, .error what ∈ items) (before : List D) (flags : List Bool) :
    ∃ what, gather zero before flags items = .error what := by
  induction items generalizing before flags with
  | nil => simp at failed
  | cons item items ih =>
    cases item with
    | error what => exact ⟨what, rfl⟩
    | ok nd =>
      have later : ∃ what, .error what ∈ items := by simpa using failed
      exact ih later (before ++ [nd.getD zero]) (flags ++ [nd.isNone])

theorem mapM_converted (values : List (Option D)) :
    (values.map (.ok : _ → Except String _)).mapM id = .ok values := by
  induction values with
  | nil => rfl
  | cons nd values ih => simp [List.mapM_cons, ih, bind, Except.bind, pure, Except.pure]

theorem mapM_failed {items : List (Except String (Option D))}
    (failed : ∃ what, .error what ∈ items) : ∃ what, items.mapM id = .error what := by
  induction items with
  | nil => simp at failed
  | cons item items ih =>
    cases item with
    | error what => exact ⟨what, rfl⟩
    | ok nd =>
      obtain ⟨what, stopped⟩ := ih (by simpa using failed)
      exact ⟨what, by simp [List.mapM_cons, stopped, bind, Except.bind]⟩

theorem unpack_ok (zero : D) (values : List (Option D)) :
    unpack zero (values.map .ok) = .ok (arraysOf zero values) := by
  unfold unpack
  rw [mapM_converted]
  rfl

theorem unpack_error (zero : D) {items : List (Except String (Option D))}
    (failed : ∃ what, .error what ∈ items) : ∃ what, unpack zero items = .error what := by
  obtain ⟨what, stopped⟩ := mapM_failed failed
  unfold unpack
  rw [stopped]
  exact ⟨what, rfl⟩

/-- What is fetched of values that are as many as the attributes, or more. -/
def fetched (server : RecordServer D) (attrs : List FormPgAttribute) (values : List (Option D)) :
    List (Option D) :=
  List.zipWith (fun att nd => nd.map (server.kept att)) attrs values

/-- Enough values are read, and the others left alone. -/
theorem readArrays_ok {values : List (Option D)} {attrs : List FormPgAttribute} (index : Nat)
    (enough : index + attrs.length ≤ values.length) :
    readArrays server (arraysOf server.zero values).1 (arraysOf server.zero values).2 index attrs =
      .ok (fetched server attrs (values.drop index)) := by
  induction attrs generalizing index with
  | nil => simp [readArrays, fetched]
  | cons att attrs ih =>
    have below : index < values.length := by
      rw [List.length_cons] at enough
      omega
    have rest := ih (index + 1) (by rw [List.length_cons] at enough; omega)
    rw [List.drop_eq_getElem_cons below]
    have nd := List.getElem?_eq_getElem below
    cases given : values[index] with
    | none =>
      rw [given] at nd
      simp only [readArrays, rest]
      simp [arraysOf, nd, fetched, bind, Except.bind]
    | some value =>
      rw [given] at nd
      simp only [readArrays, rest]
      simp [arraysOf, nd, fetched, bind, Except.bind]

/-- Where there are too few, the entry past the last one is read. -/
theorem readArrays_overread {values : List (Option D)} {attrs : List FormPgAttribute} (index : Nat)
    (within : index ≤ values.length) (few : values.length < index + attrs.length) :
    readArrays server (arraysOf server.zero values).1 (arraysOf server.zero values).2 index attrs =
      .error values.length := by
  induction attrs generalizing index with
  | nil =>
    rw [List.length_nil] at few
    omega
  | cons att attrs ih =>
    by_cases last : index = values.length
    · subst last
      simp [readArrays, arraysOf]
    · have below : index < values.length := by omega
      have rest := ih (index + 1) (by omega) (by rw [List.length_cons] at few; omega)
      have nd := List.getElem?_eq_getElem below
      simp only [readArrays, rest]
      simp [arraysOf, nd, bind, Except.bind]

end Arrays

/-! ## What the record gives back -/

namespace RecordSource
variable {server : RecordServer D} {source : RecordSource ω} {m : Descriptors ω}

/-- The attributes of a record that is formed of one value for each. -/
theorem getAttribute_fetched {tupdesc : TupleDescData} {values : List (Option D)} {i : Nat}
    {att : FormPgAttribute} {nd : Option D}
    (allowed : tupdesc.attrs.length ≤ maxTupleAttributeNumber)
    (hasAtt : tupdesc.attrs[i]? = some att) (given : values[i]? = some nd) :
    FormedRecord.getAttribute ⟨tupdesc, fetched server tupdesc.attrs values⟩ (BitVec.ofNat 32 i) =
      .ok (nd.map (server.kept att)) := by
  have below := (List.getElem?_eq_some_iff.mp hasAtt).1
  have few : tupdesc.attrs.length < 0x80000000 := Nat.lt_of_le_of_lt allowed (by decide)
  have index : (BitVec.ofNat 32 i).toNat = i := by
    rw [BitVec.toNat_ofNat]
    omega
  unfold FormedRecord.getAttribute
  rw [checkBounds_ofNat few hasAtt, index]
  simp [fetched, List.getElem?_zipWith, hasAtt, given]

/-- It has the values that were given if and only if each attribute can hold its own. -/
theorem holds_iff_fits {tupdesc : TupleDescData} {values : List (Option D)}
    (attrs : tupdesc.attrs = source.desc.attrs)
    (allowed : source.desc.attrs.length ≤ maxTupleAttributeNumber)
    (length : values.length = source.desc.attrs.length) :
    (∀ (i : Nat) value, values[i]? = some value →
        FormedRecord.getAttribute ⟨tupdesc, fetched server tupdesc.attrs values⟩
          (BitVec.ofNat 32 i) = .ok value) ↔
      source.Fits server values := by
  rw [← attrs] at allowed
  constructor
  · intro holds i att value hasAtt given
    rw [← attrs] at hasAtt
    have got := holds i (some value) given
    rw [getAttribute_fetched allowed hasAtt given] at got
    simpa using got
  · intro fits i nd given
    obtain ⟨below, _⟩ := List.getElem?_eq_some_iff.mp given
    rw [length] at below
    obtain ⟨att, own⟩ : ∃ att, source.desc.attrs[i]? = some att := ⟨_, List.getElem?_eq_getElem below⟩
    have hasAtt : tupdesc.attrs[i]? = some att := by rw [attrs, own]
    rw [getAttribute_fetched allowed hasAtt given]
    cases nd with
    | none => rfl
    | some value => rw [Option.map_some, fits i att value own given]

theorem map_ok_inj {values values' : List (Option D)}
    (same : values.map (.ok : _ → Except String _) = values'.map .ok) : values = values' :=
  (List.map_inj_right fun _ _ equal => Except.ok.inj equal).mp same

/-! ## What becomes of the descriptor of the caller -/

/-- What throws leaves the caller's descriptor alone, so that refusals are right. -/
theorem right_of_thrown {items : List (Except String (Option D))} {what : String}
    (keeps : source.Keeps m) : source.Right items (.thrown what, m) := keeps

theorem this_ne_other : source.other ≠ source.this := by
  intro same
  have found := source.found
  rw [same, source.absent] at found
  cases found

theorem held : source.object.tupdesc < source.m.descs.length :=
  (List.getElem?_eq_some_iff.mp source.there).1

/-- `BlessTupleDesc` writes to one descriptor only, and leaves its attributes alone. -/
theorem blessTupleDesc_frame {tupdesc : Nat} {desc : TupleDescData}
    (there : m.descs[tupdesc]? = some desc) :
    ∃ blessed desc', m.blessTupleDesc tupdesc = some blessed ∧ blessed.objects = m.objects ∧
      blessed.descs[tupdesc]? = some desc' ∧ desc'.attrs = desc.attrs ∧
      ∀ address, tupdesc ≠ address → blessed.descs[address]? = m.descs[address]? := by
  have below := (List.getElem?_eq_some_iff.mp there).1
  unfold Descriptors.blessTupleDesc
  rw [there, Option.bind_eq_bind, Option.bind_some]
  by_cases anonymous : desc.tdtypeid = recordOid ∧ desc.tdtypmod < 0
  · rw [if_pos anonymous]
    refine ⟨_, _, rfl, rfl, List.getElem?_set_self below, rfl, ?_⟩
    intro address apart
    exact List.getElem?_set_ne apart
  · rw [if_neg anonymous]
    exact ⟨m, desc, rfl, rfl, there, rfl, fun _ _ => rfl⟩

variable [DecidableEq ω]

theorem keeps_copied (source : RecordSource ω) : source.Keeps source.copied := by
  constructor
  · simp [copied, Descriptors.construct, this_ne_other, source.found]
  · simp [copied, Descriptors.construct, List.getElem?_append_left held, source.there]

theorem keeps_abandon (keeps : source.Keeps m) : source.Keeps (source.abandon m) := by
  constructor
  · simp [abandon, this_ne_other, keeps.1]
  · exact keeps.2

/-- Blessing the copy leaves the descriptor of the caller alone. -/
theorem blessed_copy (unset : source.object.blessed = false) :
    ∃ blessed desc, source.copied.toTupleDesc source.this =
        some (.pointer source.m.descs.length, blessed) ∧ source.Keeps blessed ∧
      blessed.descs[source.m.descs.length]? = some desc ∧ desc.attrs = source.desc.attrs := by
  have own : source.copied.objects source.this =
      some ⟨source.m.descs.length, false, source.object.owned, source.m.descs.length⟩ := by
    simp [copied, Descriptors.construct, unset]
  have there : source.copied.descs[source.m.descs.length]? = some source.desc := by
    simp [copied, Descriptors.construct]
  obtain ⟨caller, callerDesc⟩ := source.keeps_copied
  have apart : source.m.descs.length ≠ source.object.tupdesc := Nat.ne_of_gt held
  obtain ⟨blessed, desc, blesses, objects, wrote, attrs, frame⟩ := blessTupleDesc_frame there
  refine ⟨blessed.bind source.this
    ⟨source.m.descs.length, true, source.object.owned, source.m.descs.length⟩, desc, ?_, ⟨?_, ?_⟩,
    wrote, attrs⟩
  · simp [Descriptors.toTupleDesc, own, blesses]
  · simp [Descriptors.bind, this_ne_other, objects, caller]
  · simp [Descriptors.bind, frame _ apart, callerDesc]

theorem toTupleDesc_cases (server : RecordServer D) (source : RecordSource ω) :
    ((source.object.blessed = false ∧ server.blessFails.isSome) ∧
        ∃ what, source.toTupleDesc server = .error what) ∨
      (¬ (source.object.blessed = false ∧ server.blessFails.isSome) ∧
        ∃ tupdesc m, source.toTupleDesc server = .ok (tupdesc, m) ∧
          tupdesc.attrs = source.desc.attrs ∧ source.Keeps m) := by
  unfold toTupleDesc
  cases flag : source.object.blessed with
  | true => exact .inr ⟨by simp, source.desc, source.copied, rfl, rfl, source.keeps_copied⟩
  | false =>
    obtain ⟨blessed, desc, converts, keeps, there, attrs⟩ := blessed_copy flag
    rw [converts]
    cases fails : server.blessFails with
    | some what => exact .inl ⟨⟨rfl, rfl⟩, what, rfl⟩
    | none =>
      refine .inr ⟨by simp, desc, blessed, ?_, attrs, keeps⟩
      simp [there]

/-! ## The constructors -/

/-- From the conversion of the copy on. -/
theorem form_converted {values : List (Option D)} {tupdesc : TupleDescData}
    (copies : server.copyFails = none) (converts : source.toTupleDesc server = .ok (tupdesc, m)) :
    source.form server (.ok (arraysOf server.zero values)) =
      match heapFormTupleFromArrays server tupdesc (arraysOf server.zero values).1
          (arraysOf server.zero values).2 with
      | .thrown what => (.thrown what, source.abandon m)
      | formed => (formed, m) := by
  simp only [form, copies, converts]

/-- Where nothing is refused early. -/
theorem form_converted_right_iff {values : List (Option D)} {tupdesc : TupleDescData}
    (copies : server.copyFails = none) (converts : source.toTupleDesc server = .ok (tupdesc, m))
    (attrs : tupdesc.attrs = source.desc.attrs) (keeps : source.Keeps m)
    (allowed : source.desc.attrs.length ≤ maxTupleAttributeNumber) :
    source.Right (values.map .ok) (source.form server (.ok (arraysOf server.zero values))) ↔
      (server.formFails.isSome ∧ source.desc.attrs.length ≤ values.length) ∨
        (values.length = source.desc.attrs.length ∧ source.Fits server values) := by
  have within : ¬ maxTupleAttributeNumber < tupdesc.attrs.length := by
    rw [attrs]
    exact Nat.not_lt.mpr allowed
  rw [form_converted copies converts]
  unfold heapFormTupleFromArrays
  rw [if_neg within]
  rcases Nat.lt_or_ge values.length tupdesc.attrs.length with few | enough
  · have overread : readArrays server (arraysOf server.zero values).1 (arraysOf server.zero values).2 0
        tupdesc.attrs = .error values.length :=
      readArrays_overread 0 (Nat.zero_le _) (by omega)
    rw [overread]
    rw [attrs] at few
    constructor
    · exact False.elim
    · rintro (⟨_, enough⟩ | ⟨same, _⟩) <;> omega
  · have reads : readArrays server (arraysOf server.zero values).1 (arraysOf server.zero values).2 0
        tupdesc.attrs = .ok (fetched server tupdesc.attrs values) := by
      have all : readArrays server (arraysOf server.zero values).1 (arraysOf server.zero values).2 0
          tupdesc.attrs = _ := readArrays_ok 0 (by omega)
      rwa [List.drop_zero] at all
    rw [reads]
    cases fails : server.formFails with
    | some what =>
      apply iff_of_true
      · exact right_of_thrown (keeps_abandon keeps)
      · rw [attrs] at enough
        exact .inl ⟨rfl, enough⟩
    | none =>
      constructor
      · rintro ⟨values', same, length, holds⟩
        cases map_ok_inj same
        exact .inr ⟨length, (holds_iff_fits attrs allowed length).mp holds⟩
      · rintro (⟨fails, _⟩ | ⟨length, fits⟩)
        · cases fails
        · exact ⟨values, rfl, length, (holds_iff_fits attrs allowed length).mpr fits⟩

theorem form_right_iff {items : List (Except String (Option D))}
    {arrays : Except String (List D × List Bool)}
    (converted : ∀ values, items = values.map .ok → arrays = .ok (arraysOf server.zero values))
    (failed : (∃ what, .error what ∈ items) → ∃ what, arrays = .error what) :
    source.Right items (source.form server arrays) ↔ source.Suits server items := by
  cases copies : server.copyFails with
  | some what =>
    apply iff_of_true
    · simp only [form, copies]
      exact right_of_thrown ⟨source.found, source.there⟩
    · exact .inl (.inl (by rw [copies]; rfl))
  | none =>
    rcases converted_or_failed items with ⟨values, rfl⟩ | fails
    · rw [converted values rfl]
      rcases toTupleDesc_cases server source with
        ⟨unblessed, what, stops⟩ | ⟨blesses, tupdesc, m, converts, attrs, keeps⟩
      · apply iff_of_true
        · simp only [form, copies, stops]
          exact right_of_thrown (keeps_abandon source.keeps_copied)
        · exact .inl (.inr (.inr (.inl unblessed)))
      · by_cases many : maxTupleAttributeNumber < source.desc.attrs.length
        · apply iff_of_true
          · rw [form_converted copies converts]
            unfold heapFormTupleFromArrays
            rw [attrs, if_pos many]
            exact right_of_thrown (keeps_abandon keeps)
          · exact .inl (.inr (.inr (.inr many)))
        · rw [form_converted_right_iff copies converts attrs keeps (Nat.not_lt.mp many)]
          constructor
          · intro suits
            exact .inr ⟨values, rfl, suits⟩
          · rintro (refused | ⟨values', same, suits⟩)
            · rcases refused with fails | ⟨what, member⟩ | unblessed | many'
              · rw [copies] at fails
                cases fails
              · simp at member
              · exact absurd unblessed blesses
              · exact absurd many' many
            · cases map_ok_inj same
              exact suits
    · apply iff_of_true
      · obtain ⟨what, stops⟩ := failed fails
        simp only [form, copies, stops]
        exact right_of_thrown (keeps_abandon source.keeps_copied)
      · exact .inl (.inr (.inl fails))

end RecordSource

/-- Each of the two constructors comes to what it is to come to if and only if it is refused, or is
given one value for each attribute, of a kind that the attribute can hold. -/
theorem RecordSource.formed_right_iff [DecidableEq ω] (server : RecordServer D)
    (source : RecordSource ω) (items : List (Except String (Option D))) :
    (source.Right items (source.ofRange server items) ↔ source.Suits server items) ∧
      (source.Right items (source.ofPack server items) ↔ source.Suits server items) := by
  constructor
  · apply form_right_iff
    · rintro values rfl
      simp [gather_ok]
    · intro failed
      exact gather_error server.zero failed [] []
  · apply form_right_iff
    · rintro values rfl
      exact unpack_ok server.zero values
    · exact unpack_error server.zero

/-- Values of eight bytes, and a descriptor of two such attributes. -/
def wordServer : RecordServer Nat where
  zero := 0
  kept _ value := value
  copyFails := none
  blessFails := none
  formFails := none

def twoWords : TupleDescData where
  tdtypeid := recordOid
  tdtypmod := -1
  attrs := List.replicate 2 ⟨"", int8Oid, 0, 8, 'p', 'd', -1, true, false, -1⟩
  fromPostgres := false

def twoWordsSource : RecordSource Bool where
  m := ⟨[twoWords], fun this => if this then none else some ⟨0, false, true, 0⟩, 0⟩
  this := true
  other := false
  object := ⟨0, false, true, 0⟩
  desc := twoWords
  found := rfl
  there := rfl
  absent := rfl

/-- With one value the entry past it is read, and a third value is dropped. -/
theorem twoWords_miscounted :
    (twoWordsSource.ofRange wordServer [.ok (some 1)]).1 = .overread 1 ∧
      ((twoWordsSource.ofPack wordServer [.ok (some 1), .ok none, .ok (some 3)]).1.tuple?).map
        List.length = some 2 ∧
      ¬ twoWordsSource.Right [.ok (some 1)]
        (twoWordsSource.ofRange wordServer [.ok (some 1)]) ∧
      ¬ twoWordsSource.Right [.ok (some 1), .ok none, .ok (some 3)]
        (twoWordsSource.ofPack wordServer [.ok (some 1), .ok none, .ok (some 3)]) := by
  refine ⟨by decide +kernel, by decide +kernel, id, ?_⟩
  rintro ⟨values, same, length, -⟩
  have counted := congrArg List.length same
  rw [List.length_map, length] at counted
  revert counted
  decide +kernel

end Cppgres
