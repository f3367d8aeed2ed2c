import Cppgres.Postgres.Backend

/-!
# Tuples of Postgres

What `heaptuple.c` and `typcache.c` do for cppgres: rows that are formed, copied as a datum
and read, and the row types that a row is read with.
-/
namespace Cppgres

def boolOid : Oid := 16
def byteaOid : Oid := 17
def int8Oid : Oid := 20
def int2Oid : Oid := 21
def int4Oid : Oid := 23
def textOid : Oid := 25
def oidOid : Oid := 26
def float4Oid : Oid := 700
def float8Oid : Oid := 701
def recordOid : Oid := 2249

/-- `HeapTupleHeaderData` of a composite datum. `size` is the number of bytes that it and its
values take, `datumLength` the one that it says. -/
structure HeapTupleHeader (D : Type) where
  typeId : Oid
  typMod : Int
  datumLength : Nat
  size : Nat
  values : List (Option D)

/-- `HeapTupleData`: it refers to a header and is none. -/
structure HeapTuple (D : Type) where
  len : Nat
  data : HeapTupleHeader D

/-- A datum: a word, or a pointer with what it points to. `toasted` is a composite value in a
form that `pg_detoast_datum` resolves. -/
inductive TypedDatum where
  | word (bits : BitVec 64)
  | varlena (bytes : List UInt8)
  | row (header : HeapTupleHeader TypedDatum)
  | toasted (header : HeapTupleHeader TypedDatum)
  | heapTuple (tuple : HeapTuple TypedDatum)

/-- `attbyval` and `attlen` of a type. -/
inductive AttForm where
  | byval (bytes : Nat)
  | varlena
  deriving DecidableEq, Repr

/-- The built-in types that C++ types stand for. -/
inductive Builtin where
  | bool
  | bytea
  | int8
  | int2
  | int4
  | text
  | oid
  | float4
  | float8
  deriving DecidableEq, Repr

def Builtin.own : Builtin → Oid
  | .bool => boolOid
  | .bytea => byteaOid
  | .int8 => int8Oid
  | .int2 => int2Oid
  | .int4 => int4Oid
  | .text => textOid
  | .oid => oidOid
  | .float4 => float4Oid
  | .float8 => float8Oid

/-- `typbyval` and `typlen` in `pg_type.dat`. -/
def Builtin.form : Builtin → AttForm
  | .bool => .byval 1
  | .bytea => .varlena
  | .int8 => .byval 8
  | .int2 => .byval 2
  | .int4 => .byval 4
  | .text => .varlena
  | .oid => .byval 4
  | .float4 => .byval 4
  | .float8 => .byval 8

structure Attribute where
  atttypid : Oid
  attname : String
  deriving DecidableEq, Repr

structure TupleDesc where
  tdtypeid : Oid
  tdtypmod : Int
  attrs : List Attribute
  deriving DecidableEq, Repr

/-- What a piece of code comes to that gives no value: an exception, or behaviour that is
not defined, such as a read past an array or of something that is not what it is read as. -/
inductive RecordFailure where
  | thrown (what : String)
  | undefined
  deriving DecidableEq, Repr

/-- The catalog and the type cache. `composites` gives the attributes of the named composite
types, `records` those of the record types that were blessed, by their typmod. -/
structure Server where
  formOf : Oid → AttForm
  composites : Oid → Option (List Attribute)
  records : List (List Attribute)
  formSize : List (Option TypedDatum) → Nat
  formatType : Oid → String
  /-- `record` is no named type. -/
  recordUnnamed : composites recordOid = none
  builtins : ∀ builtin : Builtin, formOf builtin.own = builtin.form
  rows : ∀ oid, composites oid ≠ none → formOf oid = .varlena

/-- A server without composite types. -/
def bareServer : Server where
  formOf oid :=
    if oid = boolOid then .byval 1
    else if oid = int2Oid then .byval 2
    else if oid = int4Oid ∨ oid = oidOid ∨ oid = float4Oid then .byval 4
    else if oid = int8Oid ∨ oid = float8Oid then .byval 8
    else .varlena
  composites _ := none
  records := []
  formSize values := 24 + 8 * values.length
  formatType oid := "type " ++ toString oid
  recordUnnamed := rfl
  builtins builtin := by cases builtin <;> rfl
  rows _ composite := absurd rfl composite

namespace Server

/-- `lookup_rowtype_tupdesc_copy`. -/
def lookupRowtypeTupdescCopy (server : Server) (typeId : Oid) (typMod : Int) :
    Except RecordFailure TupleDesc :=
  if typeId = recordOid then
    if typMod < 0 then .error (.thrown "record type has not been registered")
    else
      match server.records[typMod.toNat]? with
      | none => .error (.thrown "record type has not been registered")
      | some attrs => .ok ⟨recordOid, typMod, attrs⟩
  else
    match server.composites typeId with
    | none => .error (.thrown "type is not composite")
    | some attrs => .ok ⟨typeId, -1, attrs⟩

/-- `BlessTupleDesc`: an anonymous row type is given the typmod of its equals. -/
def blessTupleDesc (server : Server) (tupdesc : TupleDesc) : TupleDesc × Server :=
  if tupdesc.tdtypeid = recordOid ∧ tupdesc.tdtypmod < 0 then
    match server.records.findIdx? (· = tupdesc.attrs) with
    | some typMod => ({ tupdesc with tdtypmod := typMod }, server)
    | none => ({ tupdesc with tdtypmod := server.records.length },
        { server with records := server.records ++ [tupdesc.attrs] })
  else (tupdesc, server)

end Server

/-- What a value becomes in a tuple and is fetched as. A by-value type keeps as many bytes as
it has, with the sign. Any other pairing follows a word as if it were a pointer, or keeps a
part of a pointer. -/
def AttForm.keep : AttForm → TypedDatum → Option TypedDatum
  | .byval bytes, .word bits => some (.word ((bits.setWidth (8 * bytes)).signExtend 64))
  | .varlena, .varlena bytes => some (.varlena bytes)
  | .varlena, .row header => some (.row header)
  | .varlena, .toasted header => some (.toasted header)
  | _, _ => none

def AttForm.keepNullable (form : AttForm) : Option TypedDatum → Option (Option TypedDatum)
  | none => some none
  | some value => (form.keep value).map some

/-- The values of a tuple. `heap_form_tuple` reads as many as there are attributes. -/
def Server.formValues (server : Server) : List Attribute → List (Option TypedDatum) →
    Except RecordFailure (List (Option TypedDatum))
  | [], _ => .ok []
  | _ :: _, [] => .error .undefined
  | att :: attrs, value :: values =>
    match (server.formOf att.atttypid).keepNullable value with
    | none => .error .undefined
    | some kept => do
      let rest ← server.formValues attrs values
      .ok (kept :: rest)

/-- `heap_form_tuple`. -/
def Server.heapFormTuple (server : Server) (tupdesc : TupleDesc)
    (values : List (Option TypedDatum)) : Except RecordFailure (HeapTuple TypedDatum) := do
  let kept ← server.formValues tupdesc.attrs values
  let size := server.formSize kept
  .ok { len := size, data := ⟨tupdesc.tdtypeid, tupdesc.tdtypmod, size, size, kept⟩ }

/-- `heap_copy_tuple_as_datum`: as many bytes as the tuple says, with the row type. -/
def heapCopyTupleAsDatum (tuple : HeapTuple TypedDatum) (tupdesc : TupleDesc) : TypedDatum :=
  .row { tuple.data with
    typeId := tupdesc.tdtypeid
    typMod := tupdesc.tdtypmod
    datumLength := tuple.len
    size := tuple.len }

/-- `heap_getattr`, with attributes counted from 1. One that the tuple does not have is null. -/
def heapGetattr (tuple : HeapTuple TypedDatum) (attnum : Nat) : Option TypedDatum :=
  match attnum with
  | 0 => none
  | index + 1 => tuple.data.values[index]?.join

/-- `pg_detoast_datum`, on a datum that is taken for a row. -/
def detoast : TypedDatum → Except RecordFailure (HeapTupleHeader TypedDatum)
  | .row header => .ok header
  | .toasted header => .ok header
  | _ => .error .undefined

/-! ## What can be read of what was formed -/

section Forming
variable {server : Server} {attrs : List Attribute} {values kept : List (Option TypedDatum)}

theorem formValues_cons {att : Attribute} {value : Option TypedDatum} :
    server.formValues (att :: attrs) (value :: values) = .ok kept ↔
      ∃ first rest, (server.formOf att.atttypid).keepNullable value = some first ∧
        server.formValues attrs values = .ok rest ∧ kept = first :: rest := by
  cases stored : (server.formOf att.atttypid).keepNullable value with
  | none => simp [Server.formValues, stored]
  | some first =>
    cases later : server.formValues attrs values with
    | error failure => simp [Server.formValues, stored, later, bind, Except.bind]
    | ok rest => simp [Server.formValues, stored, later, bind, Except.bind, eq_comm]

variable (server attrs values) in
/-- `heap_form_tuple` checks nothing. -/
theorem formValues_not_thrown (what : String) :
    server.formValues attrs values ≠ .error (.thrown what) := by
  induction attrs generalizing values with
  | nil => simp [Server.formValues]
  | cons att attrs ih =>
    cases values with
    | nil => simp [Server.formValues]
    | cons value values =>
      cases stored : (server.formOf att.atttypid).keepNullable value with
      | none => simp [Server.formValues, stored]
      | some first =>
        cases later : server.formValues attrs values with
        | error failure =>
          have other : failure ≠ .thrown what := by
            intro same
            exact ih values (later.trans (by rw [same]))
          simpa [Server.formValues, stored, later, bind, Except.bind] using other
        | ok rest => simp [Server.formValues, stored, later, bind, Except.bind]

/-- A row type that was blessed is found again. -/
theorem lookup_bless (server : Server) {tupdesc : TupleDesc} (anonymous : tupdesc.tdtypeid = recordOid)
    (fresh : tupdesc.tdtypmod < 0) :
    (server.blessTupleDesc tupdesc).2.lookupRowtypeTupdescCopy recordOid
        (server.blessTupleDesc tupdesc).1.tdtypmod =
      .ok ⟨recordOid, (server.blessTupleDesc tupdesc).1.tdtypmod, tupdesc.attrs⟩ := by
  unfold Server.blessTupleDesc
  rw [if_pos ⟨anonymous, fresh⟩]
  cases found : server.records.findIdx? (· = tupdesc.attrs) with
  | none =>
    simp [Server.lookupRowtypeTupdescCopy]
  | some typMod =>
    obtain ⟨bound, equal, _⟩ := List.findIdx?_eq_some_iff_getElem.mp found
    have same : server.records[typMod] = tupdesc.attrs := by simpa using equal
    have here : server.records[typMod]? = some tupdesc.attrs := by
      rw [List.getElem?_eq_getElem bound, same]
    simp [Server.lookupRowtypeTupdescCopy, here]

end Forming

end Cppgres
