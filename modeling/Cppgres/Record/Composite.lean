import Cppgres.Record.Fields

/-!
# Composite structs

`datum_conversion<T>` of `record.hpp` for a struct with `composite_type()`. The struct has its
fields from the compiler and the row type its attributes from the catalog; nothing compares
them. `CompositeType.exactOrRefused_iff` says for which shapes that is harmless.
-/
namespace Cppgres

/-- The values of the fields of a struct, in order. -/
def Values : List FieldType → Type
  | [] => Unit
  | F :: fields => F.field.Carrier × Values fields

namespace Values

def sample : (fields : List FieldType) → Values fields
  | [] => ()
  | F :: fields => (F.field.sample, sample fields)

/-- `into_nullable_datum(std::move(args))...`. -/
def intoNullableDatums : (fields : List FieldType) → Values fields →
    Except RecordFailure (List (Option TypedDatum))
  | [], _ => .ok []
  | F :: fields, (v, values) => do
    let d ← F.field.intoNullableDatum v
    let ds ← intoNullableDatums fields values
    .ok (d :: ds)

/-- `from_nullable_datum<tuple_element_t<Is, T>>(rec.get_attribute(Is),
rec.attribute_type(Is).oid, mctx)...`. -/
def ofRecord (r : Record) : (fields : List FieldType) → Nat → Except RecordFailure (Values fields)
  | [], _ => .ok ()
  | F :: fields, index => do
    let d ← r.getAttribute index
    let oid ← r.attributeType index
    let v ← F.field.fromNullableDatum d oid
    let values ← ofRecord r fields (index + 1)
    .ok (v, values)

/-- The types that `ofRecord` reads an attribute as, with the type of the attribute, until one
throws. -/
def reads (r : Record) : List FieldType → Nat → List (FieldType × Oid)
  | [], _ => []
  | F :: fields, index =>
    match r.getAttribute index, r.attributeType index with
    | .ok d, .ok oid =>
      (F, oid) :: match F.field.fromNullableDatum d oid with
        | .ok _ => reads r fields (index + 1)
        | .error _ => []
    | _, _ => []

end Values

/-- `type::name`. -/
def Server.typeName (server : Server) (oid : Oid) : Except RecordFailure String :=
  if oid = 0 then .error (.thrown "invalid type") else .ok (server.formatType oid)

/-- A struct, and the row type that `composite_type()` names. -/
structure CompositeType (server : Server) where
  own : Oid
  attrs : List Attribute
  named : server.composites own = some attrs
  fields : List FieldType

namespace CompositeType
variable {server : Server}

/-- `type_traits<T>::is`. -/
def is (T : CompositeType server) (oid : Oid) : Bool :=
  oid = T.own || (server.composites oid).isSome

/-- `into_datum`. -/
def intoDatum (T : CompositeType server) (values : Values T.fields) :
    Except RecordFailure TypedDatum := do
  let td ← TupleDescriptor.ofType server T.own
  let args ← values.intoNullableDatums
  let (record, _) ← Record.ofArgs server td args
  .ok (heapCopyTupleAsDatum record.tuple record.tupdesc.tupdesc)

/-- `from_datum`. -/
def fromDatum (T : CompositeType server) (pgMajorversionNum : Nat) (d : TypedDatum) (oid : Oid) :
    Except RecordFailure (Values T.fields) :=
  if oid ≠ T.own then do
    let expected ← server.typeName T.own
    let got ← server.typeName oid
    .error (.thrown ("invalid type: expected composite type " ++ expected ++ " got " ++ got))
  else do
    let header ← detoast d
    let record ← Record.ofHeader server pgMajorversionNum header
    Values.ofRecord record T.fields 0

/-! ## What is asked of the conversions -/

/-- There are as many fields as attributes, and each `type_traits` takes the type of its
attribute. -/
def Accepted (T : CompositeType server) : Prop :=
  List.Forall₂ (fun F att => F.field.is att.atttypid = true) T.fields T.attrs

/-- What `heap_form_tuple` writes: each attribute, with the field whose value it is given. -/
def writes (T : CompositeType server) (values : Values T.fields) :
    List (Option FieldType × Attribute) :=
  match values.intoNullableDatums with
  | .error _ => []
  | .ok _ => T.attrs.zipIdx.map fun att => (T.fields[att.2]?, att.1)

/-- What is read of a row. -/
def reads (T : CompositeType server) (pgMajorversionNum : Nat) (header : HeapTupleHeader TypedDatum) :
    List (FieldType × Oid) :=
  match Record.ofHeader server pgMajorversionNum header with
  | .error _ => []
  | .ok record => Values.reads record T.fields 0

/-- Where the struct fits the row type, its values come back. Where it does not, both
directions throw. No attribute is read or written with a type that does not take its own, and
no value is read beyond those of the fields. -/
structure ExactOrRefused (T : CompositeType server) (pgMajorversionNum : Nat) : Prop where
  exactly : T.Accepted → ∀ values, ∃ d, T.intoDatum values = .ok d ∧
    T.fromDatum pgMajorversionNum d T.own = .ok values
  intoRefused : ¬ T.Accepted → ∀ values, ∃ what, T.intoDatum values = .error (.thrown what)
  fromRefused : ¬ T.Accepted → ∀ header : HeapTupleHeader TypedDatum, header.typeId = T.own →
    ∃ what, T.fromDatum pgMajorversionNum (.row header) T.own = .error (.thrown what)
  written : ∀ values, ∀ write ∈ T.writes values,
    ∃ F, write.1 = some F ∧ F.field.is write.2.atttypid = true
  read : ∀ header : HeapTupleHeader TypedDatum, header.typeId = T.own →
    ∀ read ∈ T.reads pgMajorversionNum header, read.1.field.is read.2 = true

end CompositeType

/-! ## Fields one by one -/

namespace Values
variable {server : Server} {F : FieldType} {fields : List FieldType} {attrs : List Attribute}

variable (fields) in
theorem sample_not_thrown (what : String) :
    (sample fields).intoNullableDatums ≠ .error (.thrown what) := by
  induction fields with
  | nil => simp [intoNullableDatums]
  | cons F fields ih =>
    have head := F.field.converts what
    cases first : F.field.intoNullableDatum F.field.sample with
    | error failure => simpa [sample, intoNullableDatums, first, bind, Except.bind] using head
    | ok d =>
      cases rest : (sample fields).intoNullableDatums with
      | error failure =>
        rw [rest] at ih
        simpa [sample, intoNullableDatums, first, rest, bind, Except.bind] using ih
      | ok ds => simp [sample, intoNullableDatums, first, rest, bind, Except.bind]

theorem intoNullableDatums_cons {v : F.field.Carrier} {values : Values fields}
    {args : List (Option TypedDatum)} :
    intoNullableDatums (F :: fields) (v, values) = .ok args ↔
      ∃ d ds, F.field.intoNullableDatum v = .ok d ∧ values.intoNullableDatums = .ok ds ∧
        args = d :: ds := by
  cases first : F.field.intoNullableDatum v with
  | error failure => simp [intoNullableDatums, first, bind, Except.bind]
  | ok d =>
    cases rest : values.intoNullableDatums with
    | error failure => simp [intoNullableDatums, first, rest, bind, Except.bind]
    | ok ds => simp [intoNullableDatums, first, rest, bind, Except.bind, eq_comm]

theorem drop_succ {α : Type} {items rest : List α} {item : α} {index : Nat}
    (here : items.drop index = item :: rest) : items.drop (index + 1) = rest := by
  rw [← List.drop_drop, here, List.drop_one, List.tail_cons]

theorem getElem?_of_drop {α : Type} {items rest : List α} {item : α} {index : Nat}
    (here : items.drop index = item :: rest) : items[index]? = some item := by
  have first : (items.drop index)[0]? = some item := by rw [here, List.getElem?_cons_zero]
  rwa [List.getElem?_drop, Nat.add_zero] at first

section Reading
variable {r : Record} {index : Nat} {att : Attribute} {d : Option TypedDatum}
  {kept : List (Option TypedDatum)}

theorem tupleDescAttr_of_drop (atts : r.tupdesc.tupdesc.attrs.drop index = att :: attrs) :
    r.tupleDescAttr index = .ok att := by
  simp [Record.tupleDescAttr, getElem?_of_drop atts]

theorem attributeType_of_drop (atts : r.tupdesc.tupdesc.attrs.drop index = att :: attrs) :
    r.attributeType index = .ok att.atttypid := by
  simp [Record.attributeType, tupleDescAttr_of_drop atts, bind, Except.bind]

theorem getAttribute_of_drop (atts : r.tupdesc.tupdesc.attrs.drop index = att :: attrs) :
    r.getAttribute index = .ok r.tuple.data.values[index]?.join := by
  simp [Record.getAttribute, tupleDescAttr_of_drop atts, heapGetattr, bind, Except.bind]

/-- One field is read, then those that follow. -/
theorem ofRecord_cons (atts : r.tupdesc.tupdesc.attrs.drop index = att :: attrs)
    (values : r.tuple.data.values.drop index = d :: kept) :
    ofRecord r (F :: fields) index = (do
      let v ← F.field.fromNullableDatum d att.atttypid
      let values ← ofRecord r fields (index + 1)
      .ok (v, values)) := by
  have here := getElem?_of_drop values
  simp [ofRecord, attributeType_of_drop atts, getAttribute_of_drop atts, here, bind, Except.bind]

variable (F fields) in
/-- An attribute that there is not. -/
theorem ofRecord_beyond (atts : r.tupdesc.tupdesc.attrs.drop index = []) :
    ∃ what, ofRecord r (F :: fields) index = .error (.thrown what) := by
  have beyond : r.tupdesc.tupdesc.attrs[index]? = none := by
    rw [List.getElem?_eq_none_iff]
    exact List.drop_eq_nil_iff.mp atts
  simp [ofRecord, Record.getAttribute, Record.tupleDescAttr, beyond, bind, Except.bind]

end Reading

/-- If each field keeps its values, so do all together. -/
theorem comes_back (keeps : List.Forall₂ (fun F att => F.field.Keeps server att) fields attrs)
    (values : Values fields) :
    ∃ args kept, values.intoNullableDatums = .ok args ∧ server.formValues attrs args = .ok kept ∧
      ∀ (r : Record) index, r.tupdesc.tupdesc.attrs.drop index = attrs →
        r.tuple.data.values.drop index = kept → ofRecord r fields index = .ok values := by
  induction keeps with
  | nil => exact ⟨[], [], rfl, rfl, fun _ _ _ _ => rfl⟩
  | @cons F att fields attrs head tail ih =>
    obtain ⟨v, values⟩ := values
    obtain ⟨d, d', into, stays, back⟩ := head v
    obtain ⟨args, kept, intoRest, formed, backRest⟩ := ih values
    have made : server.formValues (att :: attrs) (d :: args) = .ok (d' :: kept) :=
      formValues_cons.mpr ⟨d', kept, stays, formed, rfl⟩
    refine ⟨d :: args, d' :: kept, intoNullableDatums_cons.mpr ⟨d, args, into, intoRest, rfl⟩,
      made, ?_⟩
    intro r index atts stored
    have rest := backRest r (index + 1) (drop_succ atts) (drop_succ stored)
    simp [ofRecord_cons atts stored, back, rest, bind, Except.bind]

/-- If all together come back, each field keeps its values, and there are as many fields as
attributes. -/
theorem keeps_of_comes_back (back : ∀ values : Values fields, ∃ args kept,
      values.intoNullableDatums = .ok args ∧ server.formValues attrs args = .ok kept ∧
        ∃ (r : Record) (index : Nat), r.tupdesc.tupdesc.attrs.drop index = attrs ∧
          r.tuple.data.values.drop index = kept ∧ ofRecord r fields index = .ok values) :
    List.Forall₂ (fun F att => F.field.Keeps server att) fields attrs := by
  induction fields generalizing attrs with
  | nil =>
    cases attrs with
    | nil => exact .nil
    | cons att attrs =>
      obtain ⟨args, kept, into, formed, _⟩ := back ()
      cases into
      cases formed
  | cons F fields ih =>
    cases attrs with
    | nil =>
      obtain ⟨args, kept, _, _, r, index, atts, _, read⟩ := back (sample (F :: fields))
      obtain ⟨what, thrown⟩ := ofRecord_beyond F fields atts
      rw [thrown] at read
      cases read
    | cons att attrs =>
      -- what comes of one value and the values after it
      have both (v : F.field.Carrier) (values : Values fields) : ∃ d d' args kept,
          F.field.intoNullableDatum v = .ok d ∧
          (server.formOf att.atttypid).keepNullable d = some d' ∧
          F.field.fromNullableDatum d' att.atttypid = .ok v ∧
          values.intoNullableDatums = .ok args ∧ server.formValues attrs args = .ok kept ∧
          ∃ (r : Record) (index : Nat), r.tupdesc.tupdesc.attrs.drop index = attrs ∧
            r.tuple.data.values.drop index = kept ∧ ofRecord r fields index = .ok values := by
        obtain ⟨args, kept, into, formed, r, index, atts, stored, read⟩ := back (v, values)
        obtain ⟨d, ds, intoFirst, intoRest, same⟩ := intoNullableDatums_cons.mp into
        subst same
        obtain ⟨d', rest, stays, formedRest, same⟩ := formValues_cons.mp formed
        subst same
        rw [ofRecord_cons atts stored] at read
        cases first : F.field.fromNullableDatum d' att.atttypid with
        | error failure => simp [first, bind, Except.bind] at read
        | ok v' =>
          cases later : ofRecord r fields (index + 1) with
          | error failure => simp [first, later, bind, Except.bind] at read
          | ok values' =>
            simp only [first, later, bind, Except.bind] at read
            cases read
            exact ⟨d, d', ds, rest, intoFirst, stays, first, intoRest, formedRest, r, index + 1,
              drop_succ atts, drop_succ stored, later⟩
      apply List.Forall₂.cons
      · intro v
        obtain ⟨d, d', _, _, into, stays, read, _⟩ := both v (sample fields)
        exact ⟨d, d', into, stays, read⟩
      · apply ih
        intro values
        obtain ⟨_, _, args, kept, _, _, _, rest⟩ := both F.field.sample values
        exact ⟨args, kept, rest⟩

/-- What is read is read as a type that takes it, if all are taken. -/
theorem reads_taken {r : Record} {index : Nat}
    (taken : List.Forall₂ (fun F att => F.field.is att.atttypid = true) fields
      (r.tupdesc.tupdesc.attrs.drop index)) :
    ∀ read ∈ reads r fields index, read.1.field.is read.2 = true := by
  induction fields generalizing index with
  | nil => simp [reads]
  | cons F fields ih =>
    cases atts : r.tupdesc.tupdesc.attrs.drop index with
    | nil =>
      rw [atts] at taken
      cases taken
    | cons att attrs =>
      rw [atts, List.forall₂_cons] at taken
      have later := ih (by rw [drop_succ atts]; exact taken.2)
      simp only [reads, attributeType_of_drop atts, getAttribute_of_drop atts, List.mem_cons]
      rintro read (same | member)
      · rw [same]
        exact taken.1
      · split at member
        · exact later read member
        · cases member

end Values

namespace CompositeType
variable {server : Server} (T : CompositeType server) (pgMajorversionNum : Nat)

theorem own_ne_record : T.own ≠ recordOid := by
  intro same
  have named := T.named
  rw [same, server.recordUnnamed] at named
  cases named

theorem lookup_own (typMod : Int) :
    server.lookupRowtypeTupdescCopy T.own typMod = .ok ⟨T.own, -1, T.attrs⟩ := by
  simp [Server.lookupRowtypeTupdescCopy, T.own_ne_record, T.named]

/-- The datum that is made of a tuple with these values. -/
def rowOf (kept : List (Option TypedDatum)) : TypedDatum :=
  .row ⟨T.own, -1, server.formSize kept, server.formSize kept, kept⟩

theorem intoDatum_eq (values : Values T.fields) :
    T.intoDatum values = (do
      let args ← values.intoNullableDatums
      let kept ← server.formValues T.attrs args
      .ok (T.rowOf kept)) := by
  have descriptor : TupleDescriptor.ofType server T.own = .ok (.ofTupleDesc ⟨T.own, -1, T.attrs⟩) := by
    simp [TupleDescriptor.ofType, T.named, T.lookup_own, bind, Except.bind]
  cases args : values.intoNullableDatums with
  | error failure => simp [intoDatum, descriptor, args, bind, Except.bind]
  | ok args' =>
    cases formed : server.formValues T.attrs args' with
    | error failure =>
      simp [intoDatum, descriptor, args, Record.ofArgs, Record.form, TupleDescriptor.toTupleDesc,
        TupleDescriptor.ofTupleDesc, Server.heapFormTuple, formed, bind, Except.bind]
    | ok kept =>
      simp [intoDatum, descriptor, args, Record.ofArgs, Record.form, TupleDescriptor.toTupleDesc,
        TupleDescriptor.ofTupleDesc, Server.heapFormTuple, heapCopyTupleAsDatum, rowOf, formed, bind,
        Except.bind]

theorem intoDatum_ok {values : Values T.fields} {d : TypedDatum} :
    T.intoDatum values = .ok d ↔ ∃ args kept, values.intoNullableDatums = .ok args ∧
      server.formValues T.attrs args = .ok kept ∧ d = T.rowOf kept := by
  rw [intoDatum_eq]
  cases values.intoNullableDatums with
  | error failure => simp [bind, Except.bind]
  | ok args =>
    cases formed : server.formValues T.attrs args with
    | error failure => simp [formed, bind, Except.bind]
    | ok kept => simp [formed, bind, Except.bind, eq_comm]

/-- Some values are converted without an exception, whatever the attributes are. -/
theorem sample_not_thrown (what : String) :
    T.intoDatum (Values.sample T.fields) ≠ .error (.thrown what) := by
  rw [intoDatum_eq]
  cases args : (Values.sample T.fields).intoNullableDatums with
  | error failure =>
    have other := Values.sample_not_thrown T.fields what
    rw [args] at other
    simpa [bind, Except.bind] using other
  | ok args' =>
    have other := formValues_not_thrown server T.attrs args' what
    cases formed : server.formValues T.attrs args' with
    | error failure =>
      rw [formed] at other
      simpa [formed, bind, Except.bind] using other
    | ok kept => simp [formed, bind, Except.bind]

/-- The record that is made of a row of the type. -/
def recordOf (header : HeapTupleHeader TypedDatum) : Record where
  tupdesc := .ofTupleDesc ⟨T.own, -1, T.attrs⟩
  tuple := {
    len := if pgMajorversionNum < 18 then T.attrs.length / 4 else header.datumLength
    data := header }

theorem ofHeader_own {header : HeapTupleHeader TypedDatum} (type : header.typeId = T.own) :
    Record.ofHeader server pgMajorversionNum header = .ok (T.recordOf pgMajorversionNum header) := by
  simp [Record.ofHeader, type, T.lookup_own, recordOf, bind, Except.bind]

theorem fromDatum_own {header : HeapTupleHeader TypedDatum} (type : header.typeId = T.own) :
    T.fromDatum pgMajorversionNum (.row header) T.own =
      Values.ofRecord (T.recordOf pgMajorversionNum header) T.fields 0 := by
  simp [fromDatum, detoast, T.ofHeader_own pgMajorversionNum type, bind, Except.bind]

/-- All values come back exactly if each field keeps its values in its attribute. -/
theorem comes_back_iff :
    (∀ values, ∃ d, T.intoDatum values = .ok d ∧
      T.fromDatum pgMajorversionNum d T.own = .ok values) ↔
    List.Forall₂ (fun F att => F.field.Keeps server att) T.fields T.attrs := by
  constructor
  · intro back
    apply Values.keeps_of_comes_back
    intro values
    obtain ⟨d, into, read⟩ := back values
    obtain ⟨args, kept, converted, formed, same⟩ := T.intoDatum_ok.mp into
    subst same
    have read := (T.fromDatum_own pgMajorversionNum rfl).symm.trans read
    exact ⟨args, kept, converted, formed, _, 0, rfl, rfl, read⟩
  · intro keeps values
    obtain ⟨args, kept, converted, formed, back⟩ := Values.comes_back keeps values
    refine ⟨_, T.intoDatum_ok.mpr ⟨args, kept, converted, formed, rfl⟩, ?_⟩
    exact (T.fromDatum_own pgMajorversionNum rfl).trans (back _ 0 rfl rfl)

/-- What is written is written from a type that takes it, if all are taken. -/
theorem writes_taken (taken : T.Accepted) (values : Values T.fields) :
    ∀ write ∈ T.writes values, ∃ F, write.1 = some F ∧ F.field.is write.2.atttypid = true := by
  intro write member
  unfold writes at member
  split at member
  · cases member
  · obtain ⟨⟨att, index⟩, here, same⟩ := List.mem_map.mp member
    subst same
    have inside := List.mem_zipIdx_iff_getElem?.mp here
    obtain ⟨bound, at_⟩ := List.getElem?_eq_some_iff.mp inside
    have fieldBound : index < T.fields.length := by
      rw [taken.length_eq]
      exact bound
    have accepts := taken.get fieldBound bound
    refine ⟨T.fields[index], List.getElem?_eq_getElem fieldBound, ?_⟩
    rw [← at_]
    exact accepts

theorem forall₂_fits : List.Forall₂ (FieldType.Fits server) T.fields T.attrs ↔
    T.Accepted ∧ List.Forall₂ (fun F att => F.field.Keeps server att) T.fields T.attrs := by
  constructor
  · intro fits
    exact ⟨fits.imp fun _ _ fit => (FieldType.fits_iff.mp fit).1,
      fits.imp fun _ _ fit => (FieldType.fits_iff.mp fit).2⟩
  · rintro ⟨taken, keeps⟩
    exact List.Forall₂.mp (fun _ _ takes keeps => FieldType.fits_iff.mpr ⟨takes, keeps⟩) taken keeps

/-- The conversions of a struct are exact or refused if and only if there are as many fields
as attributes and each of them fits. -/
theorem exactOrRefused_iff :
    T.ExactOrRefused pgMajorversionNum ↔ List.Forall₂ (FieldType.Fits server) T.fields T.attrs := by
  rw [forall₂_fits]
  constructor
  · intro meets
    have taken : T.Accepted := by
      by_contra refused
      obtain ⟨what, thrown⟩ := meets.intoRefused refused (Values.sample T.fields)
      exact T.sample_not_thrown what thrown
    exact ⟨taken, (T.comes_back_iff pgMajorversionNum).mp (meets.exactly taken)⟩
  · rintro ⟨taken, keeps⟩
    constructor
    · exact fun _ => (T.comes_back_iff pgMajorversionNum).mpr keeps
    · exact fun refused => absurd taken refused
    · exact fun refused => absurd taken refused
    · exact T.writes_taken taken
    · intro header type
      unfold reads
      rw [T.ofHeader_own pgMajorversionNum type]
      exact Values.reads_taken taken

/-- A server with one composite type. -/
def oneTypeServer (attrs : List Attribute) : Server where
  formOf := bareServer.formOf
  composites oid := if oid = 16384 then some attrs else none
  records := []
  formSize := bareServer.formSize
  formatType := bareServer.formatType
  recordUnnamed := rfl
  builtins := bareServer.builtins
  rows oid composite := by
    by_cases same : oid = 16384
    · rw [same]
      rfl
    · rw [if_neg same] at composite
      exact absurd rfl composite

/-- A struct for the type `(i int4, j int4)`. -/
def pairs (fields : List FieldType) :
    CompositeType (oneTypeServer [⟨int4Oid, "i"⟩, ⟨int4Oid, "j"⟩]) where
  own := 16384
  attrs := [⟨int4Oid, "i"⟩, ⟨int4Oid, "j"⟩]
  named := rfl
  fields := fields

/-- An attribute was added to the type: the array of values is read past its end. With a field
too many, its value is left out; with a field of `int64_t`, half of it is. -/
theorem pairs_not_exactOrRefused :
    ¬ (pairs [.builtin .int4]).ExactOrRefused 17 ∧
    (pairs [.builtin .int4]).intoDatum ((1 : BitVec 32), ()) = .error .undefined ∧
    (pairs [.builtin .int4, .builtin .int4, .builtin .int4]).intoDatum
        ((1 : BitVec 32), (2 : BitVec 32), (3 : BitVec 32), ()) =
      .ok (.row ⟨16384, -1, 40, 40, [some (.word 1), some (.word 2)]⟩) ∧
    ((pairs [.builtin .int4, .builtin .int8]).intoDatum
        ((1 : BitVec 32), (0x100000002 : BitVec 64), ())).bind (fun d =>
          (pairs [.builtin .int4, .builtin .int8]).fromDatum 17 d 16384) =
      .ok ((1 : BitVec 32), (2 : BitVec 64), ()) := by
  refine ⟨?_, rfl, rfl, ?_⟩
  · intro meets
    have refused : ¬ (pairs [.builtin .int4]).Accepted := by
      intro taken
      cases taken with
      | cons _ rest => cases rest
    obtain ⟨what, thrown⟩ := meets.intoRefused refused ((1 : BitVec 32), ())
    cases thrown
  · rfl

/-! ## Structs within structs -/

/-- The struct as the type of a field. -/
def conversion : Conversion where
  typeName := "composite"
  Carrier := Values T.fields
  is := T.is
  intoDatum := T.intoDatum
  fromDatum := T.fromDatum pgMajorversionNum
  sample := Values.sample T.fields
  converts := T.sample_not_thrown

/-- Any row type is taken, but a struct is read from its own one only. -/
theorem keeps_conversion {att : Attribute} :
    (T.conversion pgMajorversionNum).field.Keeps server att ↔
      att.atttypid = T.own ∧
        List.Forall₂ (fun F att => F.field.Keeps server att) T.fields T.attrs := by
  have row : server.formOf T.own = .varlena :=
    server.rows T.own (by rw [T.named]; exact Option.some_ne_none _)
  rw [Conversion.keeps_field, ← T.comes_back_iff pgMajorversionNum]
  constructor
  · intro keeps
    have own : att.atttypid = T.own := by
      by_contra other
      obtain ⟨_, kept, _, _, back⟩ := keeps (Values.sample T.fields)
      have refused : ∃ failure, T.fromDatum pgMajorversionNum kept att.atttypid = .error failure := by
        unfold fromDatum
        rw [if_pos other]
        cases expected : server.typeName T.own <;> cases got : server.typeName att.atttypid <;>
          simp [bind, Except.bind]
      obtain ⟨failure, refused⟩ := refused
      have back : T.fromDatum pgMajorversionNum kept att.atttypid = .ok _ := back
      rw [refused] at back
      cases back
    refine ⟨own, fun values => ?_⟩
    obtain ⟨d, kept, into, stays, back⟩ := keeps values
    obtain ⟨_, made, _, _, same⟩ := T.intoDatum_ok.mp into
    subst same
    rw [own, row] at stays
    rw [own] at back
    cases stays
    exact ⟨_, into, back⟩
  · rintro ⟨own, back⟩ values
    obtain ⟨d, into, read⟩ := back values
    obtain ⟨_, made, _, _, same⟩ := T.intoDatum_ok.mp into
    subst same
    have stays : (server.formOf att.atttypid).keep (T.rowOf made) = some (T.rowOf made) := by
      rw [own, row]
      rfl
    have read : T.fromDatum pgMajorversionNum (T.rowOf made) att.atttypid = .ok values := by
      rwa [own]
    exact ⟨_, _, into, stays, read⟩

end CompositeType

end Cppgres
