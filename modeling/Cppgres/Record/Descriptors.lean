import Cppgres.Labelled.Runs
import Cppgres.Record.Bounds
import Cppgres.Record.Tuples
import Mathlib.Logic.Function.Basic

/-!
# Tuple descriptors

`tuple_descriptor` of `record.hpp`: objects that point to a `TupleDesc` of Postgres, with a
flag of their own that tells whether it is blessed. Which constructor a copy is made by depends
on its source: the copy constructor takes one that is not const, and a const one is converted
to `TupleDesc` and wrapped. The memory of descriptors is not freed here.
-/
namespace Cppgres
open Labelled

variable {ω : Type} [DecidableEq ω]

/-- `FormData_pg_attribute` -/
structure FormPgAttribute where
  attname : String
  atttypid : Oid
  attcollation : Oid
  attlen : Int
  attstorage : Char
  attalign : Char
  atttypmod : Int
  attbyval : Bool
  attisdropped : Bool
  attcacheoff : Int
  deriving DecidableEq, Repr

/-- `FormData_pg_type` -/
structure FormPgType where
  oid : Oid
  typcollation : Oid
  typlen : Int
  typstorage : Char
  typalign : Char
  typtypmod : Int
  typbyval : Bool
  typtype : Char
  deriving DecidableEq, Repr

/-- `TupleDescData`. `fromPostgres` is not of the source: this is a descriptor that Postgres
made, other than a template, or a copy of one. -/
structure TupleDescData where
  tdtypeid : Oid
  tdtypmod : Int
  attrs : List FormPgAttribute
  fromPostgres : Bool
  deriving DecidableEq, Repr

/-- `BlessTupleDesc` gave the row type a number. A copy of the descriptor has the same number, by
which the row type is found. -/
def TupleDescData.registered (desc : TupleDescData) : Bool := decide (0 ≤ desc.tdtypmod)

/-- What may be called blessed. -/
def TupleDescData.genuine (desc : TupleDescData) : Bool := desc.registered || desc.fromPostgres

/-- The catalog: `pg_type` and the row types of composite types. -/
structure RowTypes where
  pgType : Oid → Option FormPgType
  rowtype : Oid → Int → TupleDescData

/-- `tuple_descriptor`, an object that points to a descriptor. `line` is not of the source: copies are
each to have storage of their own, and `line` is the address of the storage that the object is to
have. -/
structure TupleDescriptorObject where
  tupdesc : Nat
  blessed : Bool
  owned : Bool
  line : Nat
  deriving DecidableEq, Repr

/-- The descriptors that were made, by their addresses, and the objects. -/
structure Descriptors (ω : Type) where
  descs : List TupleDescData
  objects : ω → Option TupleDescriptorObject
  typmods : Nat

inductive DescriptorAction (ω : Type) where
  | postgres (desc : TupleDescData)
  | ofSize (this : ω) (nattrs : Nat)
  | ofTupleDesc (this : ω) (tupdesc : Nat) (blessed : Bool)
  | ofType (this : ω) (t : Oid)
  | copy (this other : ω)
  | copyConst (this other : ω)
  | move (this other : ω)
  | copyAssign (this other : ω)
  | moveAssign (this other : ω)
  | setType (this : ω) (n : BitVec 32) (type : Oid)
  | setName (this : ω) (n : BitVec 32) (name : String)
  | toTupleDesc (this : ω)
  | toTupleDescConst (this : ω)
  deriving DecidableEq, Repr

/-- What `record(const record &)` does to the descriptor. -/
def recordCopy (this other : ω) : DescriptorAction ω := .copyConst this other

/-- `record::get_tuple_descriptor() const`, for the object that it returns. -/
def getTupleDescriptor (this other : ω) : DescriptorAction ω := .copyConst this other

inductive DescriptorOutcome where
  | done
  | pointer (tupdesc : Nat)
  | thrown (what : String)
  deriving DecidableEq, Repr

namespace Descriptors

def start : Descriptors ω := ⟨[], fun _ => none, 0⟩

section Operations
variable (types : RowTypes) (m : Descriptors ω)

/-- A new descriptor, and an object over it. -/
def construct (this : ω) (desc : TupleDescData) (blessed owned : Bool) : Descriptors ω :=
  { m with
    descs := m.descs ++ [desc]
    objects := Function.update m.objects this (some ⟨m.descs.length, blessed, owned, m.descs.length⟩) }

def bind (this : ω) (object : TupleDescriptorObject) : Descriptors ω :=
  { m with objects := Function.update m.objects this (some object) }

/-- `CreateTemplateTupleDesc`, and what the constructor writes there. -/
def template (nattrs : Nat) : TupleDescData where
  tdtypeid := recordOid
  tdtypmod := -1
  attrs := List.replicate nattrs ⟨"", 0, 0, 0, '\x00', '\x00', 0, false, false, -1⟩
  fromPostgres := false

/-- `tuple_descriptor(type t)` -/
def ofType (this : ω) (t : Oid) : DescriptorOutcome × Descriptors ω :=
  match types.pgType t with
  | none => (.thrown "invalid tuple", m)
  | some form =>
    if form.typtype ≠ 'c' then (.thrown "not a composite type", m)
    else (.done, m.construct this { types.rowtype t form.typtypmod with fromPostgres := true } true false)

/-- The attribute that a reference is to, if the index is right, and what is written there. A write past
the array of attributes has no meaning. -/
def writeAttribute (object : TupleDescriptorObject) (n : BitVec 32)
    (change : FormPgAttribute → FormPgAttribute) : Option (DescriptorOutcome × Descriptors ω) := do
  let desc ← m.descs[object.tupdesc]?
  match checkBounds "the tuple descriptor" desc.attrs n with
  | .error what => some (.thrown what, m)
  | .ok none => none
  | .ok (some _) =>
    some (.done, { m with
      descs := m.descs.set object.tupdesc { desc with attrs := desc.attrs.modify n.toNat change } })

/-- What `set_type` writes. -/
def typed (typ : FormPgType) (att : FormPgAttribute) : FormPgAttribute :=
  { att with
    atttypid := typ.oid
    attcollation := typ.typcollation
    attlen := typ.typlen
    attstorage := typ.typstorage
    attalign := typ.typalign
    atttypmod := typ.typtypmod
    attbyval := typ.typbyval }

/-- What `set_name` writes. -/
def named (name : String) (att : FormPgAttribute) : FormPgAttribute := { att with attname := name }

def alreadyBlessed : DescriptorOutcome := .thrown "tuple_descriptor already blessed"

def setType (this : ω) (n : BitVec 32) (type : Oid) : Option (DescriptorOutcome × Descriptors ω) := do
  let object ← m.objects this
  if object.blessed then some (alreadyBlessed, m)
  else
    match types.pgType type with
    | none => some (.thrown "invalid tuple", m)
    | some typ => m.writeAttribute object n (typed typ)

def setName (this : ω) (n : BitVec 32) (name : String) :
    Option (DescriptorOutcome × Descriptors ω) := do
  let object ← m.objects this
  if object.blessed then some (alreadyBlessed, m) else m.writeAttribute object n (named name)

/-- `BlessTupleDesc`. It has a number for record types only. -/
def blessTupleDesc (tupdesc : Nat) : Option (Descriptors ω) := do
  let desc ← m.descs[tupdesc]?
  if desc.tdtypeid = recordOid ∧ desc.tdtypmod < 0 then
    some { m with
      descs := m.descs.set tupdesc { desc with tdtypmod := m.typmods }
      typmods := m.typmods + 1 }
  else some m

/-- `operator TupleDesc()` of an object that is not const. -/
def toTupleDesc (this : ω) : Option (DescriptorOutcome × Descriptors ω) := do
  let object ← m.objects this
  if object.blessed then some (.pointer object.tupdesc, m)
  else
    let blessed ← m.blessTupleDesc object.tupdesc
    some (.pointer object.tupdesc, blessed.bind this { object with blessed := true })

/-- None where there is no such object or descriptor, where the object exists already, or where a write
has no meaning. -/
def exec : DescriptorAction ω → Option (DescriptorOutcome × Descriptors ω)
  | .postgres desc => some (.pointer m.descs.length,
    { m with descs := m.descs ++ [{ desc with fromPostgres := true }] })
  | .ofSize this nattrs =>
    if (m.objects this).isSome then none else some (.done, m.construct this (template nattrs) false true)
  | .ofTupleDesc this tupdesc blessed =>
    if (m.objects this).isSome ∨ m.descs.length ≤ tupdesc then none
    else some (.done, m.bind this ⟨tupdesc, blessed, false, tupdesc⟩)
  | .ofType this t => if (m.objects this).isSome then none else some (m.ofType types this t)
  | .copy this other => do
    let object ← m.objects other
    let desc ← m.descs[object.tupdesc]?
    if (m.objects this).isSome then none
    else some (.done, m.construct this desc object.blessed object.owned)
  | .copyConst this other => do
    -- `operator TupleDesc() const`, then `tuple_descriptor(TupleDesc, bool blessed = true)`
    let object ← m.objects other
    if (m.objects this).isSome then none
    else some (.done, m.bind this ⟨object.tupdesc, true, false, m.descs.length⟩)
  | .move this other => do
    let object ← m.objects other
    if (m.objects this).isSome then none else some (.done, m.bind this object)
  | .copyAssign this other => do
    let object ← m.objects other
    let desc ← m.descs[object.tupdesc]?
    let target ← m.objects this
    some (.done, m.construct this desc object.blessed target.owned)
  | .moveAssign this other => do
    let object ← m.objects other
    let _target ← m.objects this
    some (.done, if this = other then m else m.bind this object)
  | .setType this n type => m.setType types this n type
  | .setName this n name => m.setName this n name
  | .toTupleDesc this => m.toTupleDesc this
  | .toTupleDescConst this => do
    let object ← m.objects this
    some (.pointer object.tupdesc, m)

def step (action : DescriptorAction ω) : Option (Descriptors ω) := (m.exec types action).map Prod.snd

end Operations

/-! ## What copies and blessed descriptors promise -/

section Promise
variable (types : RowTypes) (m next : Descriptors ω)

/-- The attributes at an address. -/
def attrs (tupdesc : Nat) : Option (List FormPgAttribute) := (m.descs[tupdesc]?).map (·.attrs)

/-- What an object says of its attributes. -/
def reports (this : ω) : Option (List FormPgAttribute) :=
  (m.objects this).bind fun object => m.attrs object.tupdesc

/-- The descriptor was registered, or an object says that it is blessed. -/
def Blessed (tupdesc : Nat) : Prop :=
  (m.descs[tupdesc]?).any (·.registered) = true ∨
    ∃ this object, m.objects this = some object ∧ object.tupdesc = tupdesc ∧ object.blessed = true

/-- An action does what it is to do. Copies have storage of their own; what is said to be blessed
is; blessed descriptors are frozen; and a setter leaves what copies report. -/
structure Right (action : DescriptorAction ω) : Prop where
  separate : ∀ one two object object', next.objects one = some object →
    next.objects two = some object' → object.tupdesc = object'.tupdesc → object.line = object'.line
  copied : ∀ this other, (action = .copy this other ∨ action = .copyConst this other ∨
    action = .copyAssign this other) → next.reports this = m.reports other
  genuine : ∀ this object, next.objects this = some object → object.blessed = true →
    (next.descs[object.tupdesc]?).any (·.genuine) = true
  frozen : ∀ tupdesc, m.Blessed tupdesc → tupdesc < m.descs.length →
    next.attrs tupdesc = m.attrs tupdesc
  leaves : ∀ this other object object',
    ((∃ n type, action = .setType this n type) ∨ ∃ n name, action = .setName this n name) →
    m.objects this = some object → m.objects other = some object' → object.line ≠ object'.line →
    next.reports other = m.reports other

/-- If the object's flag is unset and its descriptor blessed, the attribute that is written has what
is written already. -/
def Harmless (this : ω) (n : BitVec 32) (change : FormPgAttribute → FormPgAttribute) : Prop :=
  ∀ object desc att, m.objects this = some object → object.blessed = false →
    m.Blessed object.tupdesc → m.descs[object.tupdesc]? = some desc →
    checkBounds "the tuple descriptor" desc.attrs n = .ok (some att) → change att = att

/-- Copies are of sources that are not const; a `TupleDesc` that is wrapped as blessed is; and an
object whose flag is unset writes nothing new to a blessed descriptor. -/
def Allowed : DescriptorAction ω → Prop
  | .copyConst _ _ => False
  | .ofTupleDesc _ tupdesc blessed =>
    blessed = true → (m.descs[tupdesc]?).any (·.genuine) = true
  | .setType this n type => ∀ typ, types.pgType type = some typ → m.Harmless this n (typed typ)
  | .setName this n name => m.Harmless this n (named name)
  | _ => True

/-- An action of a run, in the state that it is taken in. -/
def DoneRight (action : DescriptorAction ω) : Prop :=
  ∀ outcome next, m.exec types action = some (outcome, next) → m.Right next action

end Promise

end Descriptors
end Cppgres
