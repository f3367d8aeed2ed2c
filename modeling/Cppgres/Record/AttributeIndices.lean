import Cppgres.Record.FormedRecords

/-!
# Attribute indices

The accessors of `tuple_descriptor` and of `record` that take an `int`. Both classes have a
`check_bounds`, whose arithmetic is that of `int`, and go to the array of attributes behind it.
`Cppgres.IndexedObjects.bounded_iff` says for which indices the checks hold.
-/
namespace Cppgres

variable {D α β : Type}

/-- What an accessor throws. -/
inductive AttributeException where
  | outOfRange (what : String)
  | runtimeError (what : String)
  | pgException (message : String)
  deriving DecidableEq, Repr

/-- What an accessor comes to. What is past the array of attributes has no meaning. -/
inductive AttributeResult (α : Type) where
  | returned (value : α)
  | thrown (exception : AttributeException)
  | undefined
  deriving DecidableEq, Repr

def AttributeResult.map (f : α → β) : AttributeResult α → AttributeResult β
  | .returned value => .returned (f value)
  | .thrown exception => .thrown exception
  | .undefined => .undefined

/-- `reached` is where an accessor goes to in the array of attributes, if it does. -/
structure AttributeAccess (α : Type) where
  reached : Option (BitVec 32)
  result : AttributeResult α
  deriving DecidableEq, Repr

namespace AttributeAccess

def throwing (exception : AttributeException) : AttributeAccess α := ⟨none, .thrown exception⟩

def map (f : α → β) (access : AttributeAccess α) : AttributeAccess β :=
  ⟨access.reached, access.result.map f⟩

theorem map_thrown {f : α → β} {access : AttributeAccess α} {exception : AttributeException} :
    (access.map f).result = .thrown exception ↔ access.result = .thrown exception := by
  unfold map
  cases access.result <;> simp [AttributeResult.map]

end AttributeAccess

/-! ## `tuple_descriptor` -/

/-- `natts` is an `int`. -/
structure IndexedDescriptor where
  tupdesc : TupleDescData
  blessed : Bool
  few : tupdesc.attrs.length < 0x80000000

namespace IndexedDescriptor
variable (this : IndexedDescriptor) (n : BitVec 32)

def natts : BitVec 32 := BitVec.ofNat 32 this.tupdesc.attrs.length

/-- `*TupleDescAttr(tupdesc, n)` -/
def tupleDescAttr : AttributeAccess FormPgAttribute where
  reached := some n
  result :=
    match this.tupdesc.attrs[n.toNat]? with
    | some att => .returned att
    | none => .undefined

def checkBounds : Option AttributeException :=
  if indexOutOfBounds n this.natts then
    some (.outOfRange (outOfBoundsText "the tuple descriptor" n this.natts))
  else none

def checkNotBlessed : Option AttributeException :=
  if this.blessed then some (.runtimeError "tuple_descriptor already blessed") else none

/-- `operator[]` -/
def subscript : AttributeAccess FormPgAttribute :=
  match this.checkBounds n with
  | some exception => .throwing exception
  | none => this.tupleDescAttr n

def getType : AttributeAccess Oid := (this.subscript n).map (·.atttypid)

/-- The descriptor with an attribute that was written. -/
def write (att : FormPgAttribute) : TupleDescData :=
  { this.tupdesc with attrs := this.tupdesc.attrs.set n.toNat att }

def setType (types : RowTypes) (type : Oid) : AttributeAccess TupleDescData :=
  match this.checkNotBlessed with
  | some exception => .throwing exception
  | none =>
    match types.pgType type with
    | none => .throwing (.runtimeError "invalid tuple")
    | some typ => (this.subscript n).map fun att => this.write n (Descriptors.typed typ att)

def getName : AttributeAccess String := (this.subscript n).map (·.attname)

def setName (name : String) : AttributeAccess TupleDescData :=
  match this.checkNotBlessed with
  | some exception => .throwing exception
  | none => (this.subscript n).map fun att => this.write n (Descriptors.named name att)

end IndexedDescriptor

/-! ## `record` -/

/-- `blessFails` is the error that blessing the descriptor raises, if it does. -/
structure IndexedRecord (D : Type) where
  tupdesc : IndexedDescriptor
  tuple : List (Option D)
  blessFails : Option String

namespace IndexedRecord
variable (this : IndexedRecord D) (n : BitVec 32)

def attributes : BitVec 32 := this.tupdesc.natts

def checkBounds : Option AttributeException :=
  if indexOutOfBounds n this.attributes then
    some (.outOfRange (outOfBoundsText "record" n this.attributes))
  else none

def attributeType : AttributeAccess Oid :=
  match this.checkBounds n with
  | some exception => .throwing exception
  | none => (this.tupdesc.tupleDescAttr n).map (·.atttypid)

def attributeName : AttributeAccess String :=
  match this.checkBounds n with
  | some exception => .throwing exception
  | none => (this.tupdesc.tupleDescAttr n).map (·.attname)

/-- `heap_getattr`, which counts from one. The numbers of system attributes, from -1 to -6, do not
get here. -/
def heapGetattr (attnum : BitVec 32) : AttributeAccess (Option D) :=
  if (0 : BitVec 32).slt attnum then
    (this.tupdesc.tupleDescAttr (attnum - 1)).map fun _ => (this.tuple[(attnum - 1).toNat]?).join
  else .throwing (.pgException ("invalid attnum: " ++ toString attnum.toInt))

/-- The conversion of the descriptor blesses it. -/
def getAttribute : AttributeAccess (Option D) :=
  match this.checkBounds n with
  | some exception => .throwing exception
  | none =>
    match this.tupdesc.blessed, this.blessFails with
    | false, some message => .throwing (.pgException message)
    | _, _ => this.heapGetattr (n + 1)

/-- `operator[](int n)` -/
def index : AttributeAccess (Option D) := this.getAttribute n

end IndexedRecord

/-! ## All accessors -/

inductive IndexedCall where
  | subscript
  | getType
  | setType (type : Oid)
  | getName
  | setName (name : String)
  | attributeType
  | attributeName
  | getAttribute
  | index
  deriving DecidableEq, Repr

/-- A descriptor, a record and the catalog. -/
structure IndexedObjects (D : Type) where
  tupdesc : IndexedDescriptor
  record : IndexedRecord D
  types : RowTypes

namespace IndexedObjects
variable (objects : IndexedObjects D) (n : BitVec 32)

/-- A call, without the value that it returns. -/
def call : IndexedCall → AttributeAccess Unit
  | .subscript => (objects.tupdesc.subscript n).map fun _ => ()
  | .getType => (objects.tupdesc.getType n).map fun _ => ()
  | .setType type => (objects.tupdesc.setType n objects.types type).map fun _ => ()
  | .getName => (objects.tupdesc.getName n).map fun _ => ()
  | .setName name => (objects.tupdesc.setName n name).map fun _ => ()
  | .attributeType => (objects.record.attributeType n).map fun _ => ()
  | .attributeName => (objects.record.attributeName n).map fun _ => ()
  | .getAttribute => (objects.record.getAttribute n).map fun _ => ()
  | .index => (objects.record.index n).map fun _ => ()

/-- The number of attributes of the object that is called. -/
def size : IndexedCall → Nat
  | .subscript | .getType | .setType _ | .getName | .setName _ =>
    objects.tupdesc.tupdesc.attrs.length
  | .attributeType | .attributeName | .getAttribute | .index =>
    objects.record.tupdesc.tupdesc.attrs.length

/-- A setter throws before it comes to the index: the descriptor is blessed, or there is no such
type. -/
def RefusedBefore : IndexedCall → Prop
  | .setType type => objects.tupdesc.blessed = true ∨ objects.types.pgType type = none
  | .setName _ => objects.tupdesc.blessed = true
  | _ => False

end IndexedObjects

/-- The array of attributes is reached in its bounds only, and an index out of them is answered with
`std::out_of_range`. -/
structure Bounded (size : Nat) (n : BitVec 32) (access : AttributeAccess α) : Prop where
  inside : ∀ index, access.reached = some index → index = n ∧ InBounds size n
  outside : ¬ InBounds size n → ∃ what, access.result = .thrown (.outOfRange what)

/-! ## The check -/

section Check
variable {size : Nat} {n : BitVec 32}

variable {access : AttributeAccess α} {f : α → β}

theorem bounded_map_iff : Bounded size n (access.map f) ↔ Bounded size n access := by
  constructor
  · intro bounded
    refine ⟨bounded.inside, fun out => ?_⟩
    obtain ⟨what, thrown⟩ := bounded.outside out
    exact ⟨what, AttributeAccess.map_thrown.mp thrown⟩
  · intro bounded
    refine ⟨bounded.inside, fun out => ?_⟩
    obtain ⟨what, thrown⟩ := bounded.outside out
    exact ⟨what, AttributeAccess.map_thrown.mpr thrown⟩

/-- An access behind the check. It is wrong for the one index that should not have passed. -/
theorem bounded_checked_iff (few : size < 0x80000000)
    (refused : indexOutOfBounds n (BitVec.ofNat 32 size) = true →
      ∃ what, access = .throwing (.outOfRange what))
    (passed : indexOutOfBounds n (BitVec.ofNat 32 size) = false →
      (∀ index, access.reached = some index → index = n) ∧
        ∀ what, access.result ≠ .thrown (.outOfRange what)) :
    Bounded size n access ↔ InBounds size n ∨ n ≠ intMax := by
  have passes := indexOutOfBounds_eq_false_iff (n := n) few
  cases check : indexOutOfBounds n (BitVec.ofNat 32 size) with
  | true =>
    obtain ⟨what, rfl⟩ := refused check
    rw [check] at passes
    have neither : ¬ (n = intMax ∨ InBounds size n) := by
      intro either
      cases passes.mpr either
    apply iff_of_true
    · refine ⟨?_, fun _ => ⟨what, rfl⟩⟩
      intro index reached
      cases reached
    · exact .inr fun largest => neither (.inl largest)
  | false =>
    obtain ⟨same, other⟩ := passed check
    constructor
    · intro bounded
      left
      by_contra out
      obtain ⟨what, thrown⟩ := bounded.outside out
      exact other what thrown
    · intro either
      have inside : InBounds size n := by
        cases passes.mp check with
        | inl largest => exact either.resolve_right fun different => different largest
        | inr inside => exact inside
      refine ⟨fun index reached => ⟨same index reached, inside⟩, fun out => absurd inside out⟩

/-- An access that something else refuses, before the check. -/
theorem bounded_refused_iff {exception : AttributeException}
    (other : ∀ what, exception ≠ .outOfRange what) :
    Bounded size n (.throwing exception : AttributeAccess α) ↔ InBounds size n := by
  constructor
  · intro bounded
    by_contra out
    obtain ⟨what, thrown⟩ := bounded.outside out
    exact other what (AttributeResult.thrown.inj thrown)
  · intro inside
    refine ⟨?_, fun out => absurd inside out⟩
    intro index reached
    cases reached

end Check

/-! ## The accessors -/

section Accessors
variable {n : BitVec 32}

namespace IndexedDescriptor
variable {this : IndexedDescriptor}

/-- `operator[]` is the check of the array of attributes. -/
theorem subscript_result : (this.subscript n).result =
    match Cppgres.checkBounds "the tuple descriptor" this.tupdesc.attrs n with
    | .error what => .thrown (.outOfRange what)
    | .ok (some att) => .returned att
    | .ok none => .undefined := by
  unfold subscript checkBounds Cppgres.checkBounds natts
  cases indexOutOfBounds n (BitVec.ofNat 32 this.tupdesc.attrs.length) with
  | true => rfl
  | false =>
    unfold tupleDescAttr
    cases this.tupdesc.attrs[n.toNat]? <;> rfl

theorem tupleDescAttr_ne (what : String) :
    (this.tupleDescAttr n).result ≠ .thrown (.outOfRange what) := by
  unfold tupleDescAttr
  dsimp only
  split
  · intro thrown
    cases thrown
  · intro thrown
    cases thrown

theorem bounded_subscript_iff :
    Bounded this.tupdesc.attrs.length n (this.subscript n) ↔
      InBounds this.tupdesc.attrs.length n ∨ n ≠ intMax := by
  apply bounded_checked_iff this.few
  · intro check
    unfold subscript checkBounds natts
    rw [if_pos check]
    exact ⟨_, rfl⟩
  · intro check
    have goes : this.subscript n = this.tupleDescAttr n := by
      unfold subscript checkBounds natts
      rw [check, if_neg Bool.false_ne_true]
    rw [goes]
    exact ⟨fun index reached => (Option.some.inj reached).symm, tupleDescAttr_ne⟩

theorem bounded_setType_iff {types : RowTypes} {type : Oid} :
    Bounded this.tupdesc.attrs.length n (this.setType n types type) ↔
      InBounds this.tupdesc.attrs.length n ∨
        n ≠ intMax ∧ ¬ (this.blessed = true ∨ types.pgType type = none) := by
  unfold setType checkNotBlessed
  cases this.blessed with
  | true =>
    rw [if_pos rfl]
    refine (bounded_refused_iff fun _ => AttributeException.noConfusion).trans ?_
    simp
  | false =>
    rw [if_neg Bool.false_ne_true]
    cases types.pgType type with
    | none =>
      refine (bounded_refused_iff fun _ => AttributeException.noConfusion).trans ?_
      simp
    | some typ =>
      refine bounded_map_iff.trans (bounded_subscript_iff.trans ?_)
      simp

theorem bounded_setName_iff {name : String} :
    Bounded this.tupdesc.attrs.length n (this.setName n name) ↔
      InBounds this.tupdesc.attrs.length n ∨ n ≠ intMax ∧ ¬ this.blessed = true := by
  unfold setName checkNotBlessed
  cases this.blessed with
  | true =>
    rw [if_pos rfl]
    refine (bounded_refused_iff fun _ => AttributeException.noConfusion).trans ?_
    simp
  | false =>
    rw [if_neg Bool.false_ne_true]
    refine bounded_map_iff.trans (bounded_subscript_iff.trans ?_)
    simp

end IndexedDescriptor

namespace IndexedRecord
variable {this : IndexedRecord D}

/-- What is behind the check of a record goes to the attribute with the index, if it does not fail
otherwise. -/
theorem bounded_iff_of_checked {access inner : AttributeAccess α}
    (checks : access = match this.checkBounds n with
      | some exception => .throwing exception
      | none => inner)
    (same : ∀ index, inner.reached = some index → index = n)
    (other : ∀ what, inner.result ≠ .thrown (.outOfRange what)) :
    Bounded this.tupdesc.tupdesc.attrs.length n access ↔
      InBounds this.tupdesc.tupdesc.attrs.length n ∨ n ≠ intMax := by
  apply bounded_checked_iff this.tupdesc.few
  · intro check
    rw [checks]
    unfold checkBounds attributes IndexedDescriptor.natts
    rw [if_pos check]
    exact ⟨_, rfl⟩
  · intro check
    have goes : access = inner := by
      rw [checks]
      unfold checkBounds attributes IndexedDescriptor.natts
      rw [check, if_neg Bool.false_ne_true]
    rw [goes]
    exact ⟨same, other⟩

theorem bounded_attributeType_iff :
    Bounded this.tupdesc.tupdesc.attrs.length n (this.attributeType n) ↔
      InBounds this.tupdesc.tupdesc.attrs.length n ∨ n ≠ intMax := by
  apply bounded_iff_of_checked rfl
  · exact fun index reached => (Option.some.inj reached).symm
  · exact fun what thrown =>
      IndexedDescriptor.tupleDescAttr_ne what (AttributeAccess.map_thrown.mp thrown)

theorem bounded_attributeName_iff :
    Bounded this.tupdesc.tupdesc.attrs.length n (this.attributeName n) ↔
      InBounds this.tupdesc.tupdesc.attrs.length n ∨ n ≠ intMax := by
  apply bounded_iff_of_checked rfl
  · exact fun index reached => (Option.some.inj reached).symm
  · exact fun what thrown =>
      IndexedDescriptor.tupleDescAttr_ne what (AttributeAccess.map_thrown.mp thrown)

theorem heapGetattr_succ :
    (∀ index, (this.heapGetattr (n + 1)).reached = some index → index = n) ∧
      ∀ what, (this.heapGetattr (n + 1)).result ≠ .thrown (.outOfRange what) := by
  unfold heapGetattr
  split
  · have back : n + 1 - 1 = n := BitVec.add_sub_cancel n 1
    rw [back]
    refine ⟨fun index reached => (Option.some.inj reached).symm, fun what thrown => ?_⟩
    exact IndexedDescriptor.tupleDescAttr_ne what (AttributeAccess.map_thrown.mp thrown)
  · constructor
    · intro index reached
      cases reached
    · intro what thrown
      cases thrown

theorem bounded_getAttribute_iff :
    Bounded this.tupdesc.tupdesc.attrs.length n (this.getAttribute n) ↔
      InBounds this.tupdesc.tupdesc.attrs.length n ∨ n ≠ intMax := by
  apply bounded_iff_of_checked rfl
  · intro index reached
    split at reached
    · cases reached
    · exact heapGetattr_succ.1 index reached
  · intro what thrown
    split at thrown
    · cases thrown
    · exact heapGetattr_succ.2 what thrown

end IndexedRecord

end Accessors

namespace IndexedObjects

/-- An accessor is right for an index if and only if that is in bounds, or it is not the largest `int`
and no setter throws before it comes to the index. -/
theorem bounded_iff (objects : IndexedObjects D) (n : BitVec 32) (call : IndexedCall) :
    Bounded (objects.size call) n (objects.call n call) ↔
      InBounds (objects.size call) n ∨ n ≠ intMax ∧ ¬ objects.RefusedBefore call := by
  cases call with
  | subscript =>
    refine bounded_map_iff.trans (IndexedDescriptor.bounded_subscript_iff.trans ?_)
    simp [RefusedBefore, size]
  | getType =>
    refine bounded_map_iff.trans (bounded_map_iff.trans ?_)
    refine IndexedDescriptor.bounded_subscript_iff.trans ?_
    simp [RefusedBefore, size]
  | setType type => exact bounded_map_iff.trans IndexedDescriptor.bounded_setType_iff
  | getName =>
    refine bounded_map_iff.trans (bounded_map_iff.trans ?_)
    refine IndexedDescriptor.bounded_subscript_iff.trans ?_
    simp [RefusedBefore, size]
  | setName name => exact bounded_map_iff.trans IndexedDescriptor.bounded_setName_iff
  | attributeType =>
    refine bounded_map_iff.trans (IndexedRecord.bounded_attributeType_iff.trans ?_)
    simp [RefusedBefore, size]
  | attributeName =>
    refine bounded_map_iff.trans (IndexedRecord.bounded_attributeName_iff.trans ?_)
    simp [RefusedBefore, size]
  | getAttribute =>
    refine bounded_map_iff.trans (IndexedRecord.bounded_getAttribute_iff.trans ?_)
    simp [RefusedBefore, size]
  | index =>
    refine bounded_map_iff.trans (IndexedRecord.bounded_getAttribute_iff.trans ?_)
    simp [RefusedBefore, size]

/-- A descriptor and a record without attributes. -/
def noAttributes : IndexedObjects Nat where
  tupdesc := ⟨⟨0, 0, [], true⟩, true, by decide⟩
  record := ⟨⟨⟨0, 0, [], true⟩, true, by decide⟩, [], none⟩
  types := ⟨fun _ => none, fun _ _ => ⟨0, 0, [], true⟩⟩

/-- The attribute with the largest index is looked for past the end of the array, and Postgres is asked
for the attribute with the smallest number. -/
theorem largest_index_passes :
    noAttributes.call intMax .subscript = ⟨some intMax, .undefined⟩ ∧
      noAttributes.call intMax .attributeType = ⟨some intMax, .undefined⟩ ∧
      noAttributes.call intMax .getAttribute =
        .throwing (.pgException "invalid attnum: -2147483648") ∧
      ¬ Bounded (noAttributes.size .subscript) intMax (noAttributes.call intMax .subscript) := by
  refine ⟨rfl, rfl, rfl, ?_⟩
  intro bounded
  have inside := (bounded.inside intMax rfl).2
  exact absurd inside (not_inBounds_intMax noAttributes.tupdesc.few)

end IndexedObjects
end Cppgres
