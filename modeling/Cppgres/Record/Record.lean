import Cppgres.Record.Tuples

/-!
# Records

`tuple_descriptor` and `record` of `record.hpp`, and `datum_conversion<record>`. A composite
datum is a pointer to a header, a `HeapTuple` a pointer to a struct that refers to one:
`Cppgres.Record.intoDatum_never_roundTrips` is about the difference.
-/
namespace Cppgres

structure TupleDescriptor where
  tupdesc : TupleDesc
  blessed : Bool
  deriving DecidableEq, Repr

namespace TupleDescriptor

/-- `tuple_descriptor(int nattrs)`, with the types and names that were set afterwards. -/
def ofAttributes (attrs : List Attribute) : TupleDescriptor where
  tupdesc := ⟨recordOid, -1, attrs⟩
  blessed := false

/-- `tuple_descriptor(TupleDesc tupdesc, bool blessed = true)`. -/
def ofTupleDesc (tupdesc : TupleDesc) : TupleDescriptor := ⟨tupdesc, true⟩

/-- `tuple_descriptor(type t)`. -/
def ofType (server : Server) (oid : Oid) : Except RecordFailure TupleDescriptor :=
  match server.composites oid with
  | none => .error (.thrown "not a composite type")
  | some _ => do
    let tupdesc ← server.lookupRowtypeTupdescCopy oid (-1)
    .ok (ofTupleDesc tupdesc)

/-- `operator TupleDesc()`. -/
def toTupleDesc (server : Server) (this : TupleDescriptor) : TupleDescriptor × Server :=
  if this.blessed then (this, server)
  else
    let (tupdesc, server) := server.blessTupleDesc this.tupdesc
    ({ tupdesc, blessed := true }, server)

section Usable
variable {server : Server}

/-- A descriptor that `record` may be made with: a registered row type, or an anonymous one
that is yet to be blessed. -/
def Usable (server : Server) (this : TupleDescriptor) : Prop :=
  if this.blessed then
    server.lookupRowtypeTupdescCopy this.tupdesc.tdtypeid this.tupdesc.tdtypmod = .ok this.tupdesc
  else this.tupdesc.tdtypeid = recordOid ∧ this.tupdesc.tdtypmod < 0

theorem usable_ofAttributes (attrs : List Attribute) :
    (TupleDescriptor.ofAttributes attrs).Usable server := by
  simp [Usable, ofAttributes]

theorem usable_ofType {oid : Oid} {tupdesc : TupleDescriptor}
    (made : TupleDescriptor.ofType server oid = .ok tupdesc) : tupdesc.Usable server := by
  unfold ofType at made
  cases named : server.composites oid with
  | none =>
    rw [named] at made
    cases made
  | some attrs =>
    have other : oid ≠ recordOid := by
      intro same
      rw [same, server.recordUnnamed] at named
      cases named
    have found (typMod : Int) :
        server.lookupRowtypeTupdescCopy oid typMod = .ok ⟨oid, -1, attrs⟩ := by
      simp [Server.lookupRowtypeTupdescCopy, other, named]
    have same : TupleDescriptor.ofTupleDesc ⟨oid, -1, attrs⟩ = tupdesc := by
      simpa [named, found, bind, Except.bind] using made
    simp [← same, Usable, ofTupleDesc, found]

theorem lookup_toTupleDesc {this : TupleDescriptor} (usable : this.Usable server) :
    (this.toTupleDesc server).2.lookupRowtypeTupdescCopy
        (this.toTupleDesc server).1.tupdesc.tdtypeid (this.toTupleDesc server).1.tupdesc.tdtypmod =
      .ok (this.toTupleDesc server).1.tupdesc := by
  obtain ⟨tupdesc, blessed⟩ := this
  cases blessed with
  | true => simpa [Usable, toTupleDesc] using usable
  | false =>
    have ⟨anonymous, fresh⟩ : tupdesc.tdtypeid = recordOid ∧ tupdesc.tdtypmod < 0 := by
      simpa [Usable] using usable
    have found := lookup_bless server anonymous fresh
    have typeId : (server.blessTupleDesc tupdesc).1.tdtypeid = recordOid := by
      unfold Server.blessTupleDesc
      rw [if_pos ⟨anonymous, fresh⟩]
      split <;> exact anonymous
    have attrs : (server.blessTupleDesc tupdesc).1.attrs = tupdesc.attrs := by
      unfold Server.blessTupleDesc
      rw [if_pos ⟨anonymous, fresh⟩]
      split <;> rfl
    simp only [toTupleDesc, Bool.false_eq_true, if_false]
    rw [typeId, found, ← attrs, ← typeId]

end Usable

end TupleDescriptor

structure Record where
  tupdesc : TupleDescriptor
  tuple : HeapTuple TypedDatum

namespace Record

/-- `record(HeapTupleHeader heap_tuple, abstract_memory_context &ctx)`. Before Postgres 18
the length is read from the descriptor, whose first word is the number of attributes. -/
def ofHeader (server : Server) (pgMajorversionNum : Nat) (header : HeapTupleHeader TypedDatum) :
    Except RecordFailure Record := do
  let tupdesc ← server.lookupRowtypeTupdescCopy header.typeId header.typMod
  .ok {
    tupdesc := .ofTupleDesc tupdesc
    tuple := {
      len := if pgMajorversionNum < 18 then tupdesc.attrs.length / 4 else header.datumLength
      data := header } }

/-- What the two constructors from values share: the copy of the descriptor is blessed when
it is converted for `heap_form_tuple`. -/
def form (server : Server) (tupdesc : TupleDescriptor) (values : List (Option TypedDatum)) :
    Except RecordFailure (Record × Server) := do
  let (tupdesc, server) := tupdesc.toTupleDesc server
  let tuple ← server.heapFormTuple tupdesc.tupdesc values
  .ok ({ tupdesc, tuple }, server)

/-- `record(tuple_descriptor &tupdesc, Iter begin, Iter end)`, with what
`into_nullable_datum` makes of each item. -/
def ofRange (server : Server) (tupdesc : TupleDescriptor) (items : List (Option TypedDatum)) :
    Except RecordFailure (Record × Server) := form server tupdesc items

/-- `record(tuple_descriptor &tupdesc, D &&...args)`, with what `into_nullable_datum` makes
of each argument. -/
def ofArgs (server : Server) (tupdesc : TupleDescriptor) (args : List (Option TypedDatum)) :
    Except RecordFailure (Record × Server) := form server tupdesc args

def attributes (this : Record) : Nat := this.tupdesc.tupdesc.attrs.length

/-- `check_bounds(n)`, and `TupleDescAttr`. -/
def tupleDescAttr (this : Record) (n : Nat) : Except RecordFailure Attribute :=
  match this.tupdesc.tupdesc.attrs[n]? with
  | none => .error (.thrown ("attribute index " ++ toString n ++
      " is out of bounds for record with the size of " ++ toString this.attributes))
  | some att => .ok att

def attributeType (this : Record) (n : Nat) : Except RecordFailure Oid := do
  let att ← this.tupleDescAttr n
  .ok att.atttypid

def attributeName (this : Record) (n : Nat) : Except RecordFailure String := do
  let att ← this.tupleDescAttr n
  .ok att.attname

def getAttribute (this : Record) (n : Nat) : Except RecordFailure (Option TypedDatum) := do
  let _att ← this.tupleDescAttr n
  .ok (heapGetattr this.tuple (n + 1))

/-- `datum_conversion<record>::from_datum`. -/
def fromDatum (server : Server) (pgMajorversionNum : Nat) (d : TypedDatum) :
    Except RecordFailure Record := do
  let header ← detoast d
  ofHeader server pgMajorversionNum header

/-- `datum_conversion<record>::into_datum`: the pointer to the `HeapTupleData`. -/
def intoDatum (this : Record) : TypedDatum := .heapTuple this.tuple

/-! ## What is asked of a conversion -/

/-- A pointer to a header that carries the row type of the record and its own length. -/
def WellFormed (this : Record) (d : TypedDatum) : Prop :=
  ∃ header, d = .row header ∧ header.typeId = this.tupdesc.tupdesc.tdtypeid ∧
    header.typMod = this.tupdesc.tupdesc.tdtypmod ∧ header.datumLength = header.size

/-- The same attributes, and the same values in them. -/
structure Same (one two : Record) : Prop where
  attributes : two.attributes = one.attributes
  types : ∀ n, two.attributeType n = one.attributeType n
  names : ∀ n, two.attributeName n = one.attributeName n
  values : ∀ n, two.getAttribute n = one.getAttribute n

/-- What `d` is to be for the record `this`. -/
structure RoundTrips (server : Server) (pgMajorversionNum : Nat) (this : Record)
    (d : TypedDatum) : Prop where
  wellFormed : this.WellFormed d
  back : ∃ r, fromDatum server pgMajorversionNum d = .ok r ∧ this.Same r

/-- No record is converted into a composite datum, however it was made. -/
theorem intoDatum_never_roundTrips (server : Server) (pgMajorversionNum : Nat) (r : Record) :
    ¬ RoundTrips server pgMajorversionNum r r.intoDatum := by
  intro trips
  obtain ⟨header, same, _⟩ := trips.wellFormed
  cases same

/-- A record with one attribute, as `record rec(td, 1)` makes it. -/
theorem intoDatum_of_int8 :
    ∃ r server, ofArgs bareServer (.ofAttributes [⟨int8Oid, "n"⟩]) [some (.word 1)] =
        .ok (r, server) ∧ r.getAttribute 0 = .ok (some (.word 1)) ∧
      fromDatum server 17 r.intoDatum = .error .undefined ∧
      ¬ RoundTrips server 17 r r.intoDatum := by
  refine ⟨_, _, rfl, rfl, rfl, fun trips => ?_⟩
  obtain ⟨header, same, _⟩ := trips.wellFormed
  cases same

/-! ## The datum that it could have been -/

section Header
variable {server server' : Server} {pgMajorversionNum : Nat} {r : Record}

/-- The row type of the record can be looked up, and its header carries it. -/
structure Registered (this : Record) (server : Server) : Prop where
  lookup : server.lookupRowtypeTupdescCopy this.tupdesc.tupdesc.tdtypeid
    this.tupdesc.tupdesc.tdtypmod = .ok this.tupdesc.tupdesc
  typeId : this.tuple.data.typeId = this.tupdesc.tupdesc.tdtypeid
  typMod : this.tuple.data.typMod = this.tupdesc.tupdesc.tdtypmod
  length : this.tuple.data.datumLength = this.tuple.data.size

/-- A record made from values. -/
theorem registered_form {tupdesc : TupleDescriptor} {values : List (Option TypedDatum)}
    (usable : tupdesc.Usable server) (made : form server tupdesc values = .ok (r, server')) :
    r.Registered server' := by
  have found := TupleDescriptor.lookup_toTupleDesc usable
  unfold form at made
  generalize tupdesc.toTupleDesc server = blessed at found made
  obtain ⟨tupdesc, server''⟩ := blessed
  cases kept : server''.formValues tupdesc.tupdesc.attrs values with
  | error failure => simp [Server.heapFormTuple, kept, bind, Except.bind] at made
  | ok kept =>
    simp only [Server.heapFormTuple, kept, bind, Except.bind, Except.ok.injEq,
      Prod.mk.injEq] at made
    obtain ⟨record, same⟩ := made
    subst record
    subst same
    exact ⟨found, rfl, rfl, rfl⟩

/-- A record obtained from a composite datum. -/
theorem registered_ofHeader {header : HeapTupleHeader TypedDatum} {tupdesc : TupleDesc}
    (found : server.lookupRowtypeTupdescCopy header.typeId header.typMod = .ok tupdesc)
    (typeId : header.typeId = tupdesc.tdtypeid) (typMod : header.typMod = tupdesc.tdtypmod)
    (length : header.datumLength = header.size)
    (made : ofHeader server pgMajorversionNum header = .ok r) : r.Registered server := by
  have same : r = ⟨.ofTupleDesc tupdesc,
      ⟨if pgMajorversionNum < 18 then tupdesc.attrs.length / 4 else header.datumLength, header⟩⟩ := by
    simpa [ofHeader, found, bind, Except.bind, eq_comm] using made
  subst same
  exact ⟨by rwa [typeId, typMod] at found, typeId, typMod, length⟩

/-- The header that the tuple refers to is a composite datum, and the record comes back from
it. -/
theorem header_roundTrips (registered : r.Registered server) :
    RoundTrips server pgMajorversionNum r (.row r.tuple.data) := by
  constructor
  · exact ⟨r.tuple.data, rfl, registered.typeId, registered.typMod, registered.length⟩
  · have found := registered.lookup
    rw [← registered.typeId, ← registered.typMod] at found
    let len := if pgMajorversionNum < 18 then r.tupdesc.tupdesc.attrs.length / 4
      else r.tuple.data.datumLength
    have again : fromDatum server pgMajorversionNum (.row r.tuple.data) =
        .ok ⟨.ofTupleDesc r.tupdesc.tupdesc, ⟨len, r.tuple.data⟩⟩ := by
      simp only [fromDatum, detoast, ofHeader, found, bind, Except.bind, len]
    exact ⟨_, again, rfl, fun _ => rfl, fun _ => rfl, fun _ => rfl⟩

/-- So it would be for each record made of values. -/
theorem ofRange_header_roundTrips {tupdesc : TupleDescriptor} {items : List (Option TypedDatum)}
    (usable : tupdesc.Usable server) (made : ofRange server tupdesc items = .ok (r, server')) :
    RoundTrips server' pgMajorversionNum r (.row r.tuple.data) :=
  header_roundTrips (registered_form usable made)

/-- And for each one made of a composite datum that carries its row type and length. -/
theorem fromDatum_header_roundTrips {header : HeapTupleHeader TypedDatum} {tupdesc : TupleDesc}
    (found : server.lookupRowtypeTupdescCopy header.typeId header.typMod = .ok tupdesc)
    (typeId : header.typeId = tupdesc.tdtypeid) (typMod : header.typMod = tupdesc.tdtypmod)
    (length : header.datumLength = header.size)
    (made : fromDatum server pgMajorversionNum (.row header) = .ok r) :
    RoundTrips server pgMajorversionNum r (.row r.tuple.data) :=
  header_roundTrips (registered_ofHeader found typeId typMod length made)

end Header

end Record

end Cppgres
