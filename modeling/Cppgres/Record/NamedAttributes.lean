import Cppgres.Bytes.CStrings
import Cppgres.Labelled.Simulation
import Cppgres.Record.Descriptors

/-!
# Attributes by name

`set_name` puts a name into the `NameData` of an attribute, an array of `NAMEDATALEN` characters;
`operator[]` of a record looks for the first attribute whose name is the one that is asked for.
-/
namespace Cppgres
open Bytes Labelled

/-- `NAMEDATALEN` -/
def nameDataLen : Nat := 64

/-- A C string. -/
structure CName where
  bytes : List Byte
  nulFree : 0 ∉ bytes

/-- `name(const char *name)`: `strncpy` into an array of zeros. -/
def nameData (name : CName) : CharArray nameDataLen where
  bytes := name.bytes.take (nameDataLen - 1) ++
    List.replicate (nameDataLen - min (nameDataLen - 1) name.bytes.length) 0
  length := by
    have less : min (nameDataLen - 1) name.bytes.length ≤ nameDataLen - 1 := Nat.min_le_left _ _
    have some_ : 0 < nameDataLen := by decide
    rw [List.length_append, List.length_take, List.length_replicate]
    omega
  terminated := by
    have less : min (nameDataLen - 1) name.bytes.length ≤ nameDataLen - 1 := Nat.min_le_left _ _
    have some_ : 0 < nameDataLen := by decide
    exact List.mem_append_right _ (List.mem_replicate.mpr ⟨by omega, rfl⟩)

/-- How attributes keep their names, and what `NameStr` then is. -/
structure NameValues (N : Type) where
  empty : N
  ofName : CName → N
  nameStr : N → List Byte

/-- In arrays of the template descriptor, which is zero-filled. -/
def nameDatas : NameValues (CharArray nameDataLen) where
  empty := .zeroed (by decide)
  ofName := nameData
  nameStr array := array.text.bytes

/-- As they were given, to be cut when they are asked for. -/
def givenNames : NameValues CName where
  empty := ⟨[], List.not_mem_nil⟩
  ofName name := name
  nameStr name := name.bytes.take (nameDataLen - 1)

structure NamedAttribute (N : Type) where
  attname : N
  atttypid : Oid
  deriving DecidableEq

/-- `tuple_descriptor` -/
structure NamedDescriptor (N : Type) where
  attrs : List (NamedAttribute N)
  blessed : Bool
  deriving DecidableEq

/-- `bless` is the conversion to `TupleDesc`. -/
inductive NamedAction where
  | setName (n : BitVec 32) (name : CName)
  | setType (n : BitVec 32) (type : Oid)
  | getName (n : BitVec 32)
  | getType (n : BitVec 32)
  | bless

def NamedAction.index? : NamedAction → Option (BitVec 32)
  | .setName n _ => some n
  | .setType n _ => some n
  | .getName n => some n
  | .getType n => some n
  | .bless => none

inductive NamedOutcome where
  | done
  | name (str : List Byte)
  | type (oid : Oid)
  | thrown (what : String)
  deriving DecidableEq

namespace NamedDescriptor

section Operations
variable {N : Type} (values : NameValues N) (types : RowTypes) (this : NamedDescriptor N)

/-- `tuple_descriptor(int nattrs)` -/
def template (nattrs : Nat) : NamedDescriptor N :=
  ⟨List.replicate nattrs ⟨values.empty, 0⟩, false⟩

/-- `operator[](int n)` -/
def subscript (n : BitVec 32) : Except String (Option (NamedAttribute N)) :=
  checkBounds "the tuple descriptor" this.attrs n

/-- A write through the reference that `operator[]` gives. -/
def write (n : BitVec 32) (change : NamedAttribute N → NamedAttribute N) :
    Option (NamedOutcome × NamedDescriptor N) :=
  match this.subscript n with
  | .error what => some (.thrown what, this)
  | .ok entry => entry.map fun att =>
    (.done, { this with attrs := this.attrs.set n.toNat (change att) })

def read (n : BitVec 32) (outcome : NamedAttribute N → NamedOutcome) :
    Option (NamedOutcome × NamedDescriptor N) :=
  match this.subscript n with
  | .error what => some (.thrown what, this)
  | .ok entry => entry.map fun att => (outcome att, this)

/-- None where what is done to an attribute past the array has no meaning. -/
def exec : NamedAction → Option (NamedOutcome × NamedDescriptor N)
  | .setName n name =>
    if this.blessed then some (.thrown "tuple_descriptor already blessed", this)
    else this.write n fun att => { att with attname := values.ofName name }
  | .setType n type =>
    if this.blessed then some (.thrown "tuple_descriptor already blessed", this)
    else
      match types.pgType type with
      | none => some (.thrown "invalid tuple", this)
      | some typ => this.write n fun att => { att with atttypid := typ.oid }
  | .getName n => this.read n fun att => .name (values.nameStr att.attname)
  | .getType n => this.read n fun att => .type att.atttypid
  | .bless => some (.done, { this with blessed := true })

end Operations

/-! ## Names in terms of what was given -/

/-- The same attributes, with the names put into arrays. -/
def stored (given : NamedDescriptor CName) : NamedDescriptor (CharArray nameDataLen) where
  attrs := given.attrs.map fun att => ⟨nameData att.attname, att.atttypid⟩
  blessed := given.blessed

section Stored
variable {types : RowTypes} {given : NamedDescriptor CName}

/-- The string in an array is the beginning of what was copied there. -/
theorem nameStr_nameData (name : CName) :
    nameDatas.nameStr (nameData name) = givenNames.nameStr name := by
  have nulFree : 0 ∉ name.bytes.take (nameDataLen - 1) :=
    fun member => name.nulFree (List.mem_of_mem_take member)
  have padded : List.replicate (nameDataLen - min (nameDataLen - 1) name.bytes.length) (0 : Byte) =
      0 :: List.replicate (nameDataLen - min (nameDataLen - 1) name.bytes.length - 1) 0 := by
    rw [← List.replicate_succ]
    have less : min (nameDataLen - 1) name.bytes.length ≤ nameDataLen - 1 := Nat.min_le_left _ _
    have some_ : 0 < nameDataLen := by decide
    congr 1
    omega
  have bytes : (nameData name).bytes = name.bytes.take (nameDataLen - 1) ++ 0 ::
      List.replicate (nameDataLen - min (nameDataLen - 1) name.bytes.length - 1) 0 :=
    congrArg (name.bytes.take (nameDataLen - 1) ++ ·) padded
  calc
    cstring (nameData name).bytes = cstring (name.bytes.take (nameDataLen - 1)) := by
      rw [bytes, cstring_append_nul]
    _ = name.bytes.take (nameDataLen - 1) := cstring_of_nulFree nulFree

theorem stored_template (nattrs : Nat) :
    (template givenNames nattrs).stored = template nameDatas nattrs := by
  unfold stored template
  rw [List.map_replicate]
  rfl

theorem subscript_stored (n : BitVec 32) : given.stored.subscript n =
    (given.subscript n).map (Option.map fun att => ⟨nameData att.attname, att.atttypid⟩) :=
  checkBounds_map "the tuple descriptor" _ given.attrs n

theorem write_stored {n : BitVec 32} {change : NamedAttribute CName → NamedAttribute CName}
    {change' : NamedAttribute (CharArray nameDataLen) → NamedAttribute (CharArray nameDataLen)}
    (same : ∀ att : NamedAttribute CName, change' ⟨nameData att.attname, att.atttypid⟩ =
      ⟨nameData (change att).attname, (change att).atttypid⟩) :
    given.stored.write n change' = (given.write n change).map (Prod.map id stored) := by
  unfold write
  rw [subscript_stored]
  cases given.subscript n with
  | error what => rfl
  | ok entry =>
    cases entry with
    | none => rfl
    | some att =>
      change some (NamedOutcome.done, _) = some (NamedOutcome.done, _)
      rw [same]
      unfold stored
      rw [List.map_set]

theorem read_stored {n : BitVec 32} {outcome : NamedAttribute CName → NamedOutcome}
    {outcome' : NamedAttribute (CharArray nameDataLen) → NamedOutcome}
    (same : ∀ att : NamedAttribute CName,
      outcome' ⟨nameData att.attname, att.atttypid⟩ = outcome att) :
    given.stored.read n outcome' = (given.read n outcome).map (Prod.map id stored) := by
  unfold read
  rw [subscript_stored]
  cases given.subscript n with
  | error what => rfl
  | ok entry =>
    cases entry with
    | none => rfl
    | some att => exact congrArg (fun outcome => some (outcome, given.stored)) (same att)

/-- Each action on the arrays is the one on the names that were given. -/
theorem exec_stored : Simulates (exec givenNames types) (exec nameDatas types) stored := by
  intro given action
  symm
  cases action with
  | setName n name =>
    change (if given.blessed then _ else _) =
      Option.map (Prod.map id stored) (if given.blessed then _ else _)
    split
    · rfl
    · exact write_stored fun att => rfl
  | setType n type =>
    change (if given.blessed then _ else _) =
      Option.map (Prod.map id stored) (if given.blessed then _ else _)
    split
    · rfl
    · cases types.pgType type with
      | none => rfl
      | some typ => exact write_stored fun att => rfl
  | getName n =>
    exact read_stored fun att => congrArg NamedOutcome.name (nameStr_nameData att.attname)
  | getType n => exact read_stored fun att => rfl
  | bless => rfl

section Meaning
variable {N : Type} {values : NameValues N} {this : NamedDescriptor N} {n : BitVec 32}

/-- What an index that is not the largest `int` comes to. -/
theorem subscript_cases (few : this.attrs.length < 0x80000000) (other : n ≠ intMax) :
    (∃ what, this.subscript n = .error what) ∨ ∃ att, this.subscript n = .ok (some att) := by
  cases reached : this.subscript n with
  | error what => exact .inl ⟨what, rfl⟩
  | ok entry =>
    cases entry with
    | none => exact absurd ((checkBounds_eq_none_iff few).mp reached) other
    | some att => exact .inr ⟨att, rfl⟩

theorem exists_write (few : this.attrs.length < 0x80000000) (other : n ≠ intMax)
    (change : NamedAttribute N → NamedAttribute N) :
    ∃ outcome next, this.write n change = some (outcome, next) ∧
      next.attrs.length = this.attrs.length := by
  unfold write
  rcases subscript_cases few other with ⟨what, refused⟩ | ⟨att, reached⟩
  · rw [refused]
    exact ⟨_, _, rfl, rfl⟩
  · rw [reached]
    exact ⟨_, _, rfl, List.length_set⟩

theorem exists_read (few : this.attrs.length < 0x80000000) (other : n ≠ intMax)
    (outcome : NamedAttribute N → NamedOutcome) :
    ∃ found next, this.read n outcome = some (found, next) ∧
      next.attrs.length = this.attrs.length := by
  unfold read
  rcases subscript_cases few other with ⟨what, refused⟩ | ⟨att, reached⟩
  · rw [refused]
    exact ⟨_, _, rfl, rfl⟩
  · rw [reached]
    exact ⟨_, _, rfl, rfl⟩

/-- An action has a meaning, unless it is for the largest `int`, and no attribute is more or less
after it. -/
theorem exists_exec (few : this.attrs.length < 0x80000000) {action : NamedAction}
    (other : action.index? ≠ some intMax) :
    ∃ outcome next, this.exec values types action = some (outcome, next) ∧
      next.attrs.length = this.attrs.length := by
  cases action with
  | setName n name =>
    change ∃ outcome next, (if this.blessed then _ else _) = some (outcome, next) ∧ _
    split
    · exact ⟨_, _, rfl, rfl⟩
    · exact exists_write few (fun same => other (congrArg some same)) _
  | setType n type =>
    change ∃ outcome next, (if this.blessed then _ else _) = some (outcome, next) ∧ _
    split
    · exact ⟨_, _, rfl, rfl⟩
    · cases types.pgType type with
      | none => exact ⟨_, _, rfl, rfl⟩
      | some typ => exact exists_write few (fun same => other (congrArg some same)) _
  | getName n => exact exists_read few (fun same => other (congrArg some same)) _
  | getType n => exact exists_read few (fun same => other (congrArg some same)) _
  | bless => exact ⟨_, _, rfl, rfl⟩

end Meaning

end Stored

end NamedDescriptor

/-! ## Records -/

inductive RecordLookupError where
  | outOfBounds (what : String)
  /-- `no attribute by the name of {}` -/
  | noAttribute (name : List Byte)
  /-- There is no attribute past the array. -/
  | past
  deriving DecidableEq

/-- `record`, with what `heap_getattr` finds in its tuple. -/
structure NamedRecord (D : Type) where
  tupdesc : NamedDescriptor (CharArray nameDataLen)
  tuple : List (Option D)
  few : tupdesc.attrs.length < 0x80000000

namespace NamedRecord
variable {D : Type} (this : NamedRecord D)

/-- `check_bounds(int n)`, and the attribute behind it. -/
def checked (n : BitVec 32) : Except RecordLookupError (NamedAttribute (CharArray nameDataLen)) :=
  match checkBounds "record" this.tupdesc.attrs n with
  | .error what => .error (.outOfBounds what)
  | .ok none => .error .past
  | .ok (some att) => .ok att

def attributeName (n : BitVec 32) : Except RecordLookupError (List Byte) := do
  let att ← this.checked n
  pure (nameDatas.nameStr att.attname)

def getAttribute (n : BitVec 32) : Except RecordLookupError (Option D) := do
  let _att ← this.checked n
  pure (this.tuple[n.toNat]?).join

/-- The loop of `operator[](std::string_view name)` from attribute `i` on. -/
def search (name : List Byte) : (left i : Nat) → Except RecordLookupError (Option D)
  | 0, _ => .error (.noAttribute name)
  | left + 1, i => do
    let stored ← this.attributeName (BitVec.ofNat 32 i)
    if stored = name then this.getAttribute (BitVec.ofNat 32 i) else search name left (i + 1)

/-- `operator[](std::string_view name)` -/
def index (name : List Byte) : Except RecordLookupError (Option D) :=
  this.search name this.tupdesc.attrs.length 0

/-- The first attribute that has this name. -/
def locate (name : List Byte) : Option Nat :=
  this.tupdesc.attrs.findIdx? fun att => nameDatas.nameStr att.attname = name

variable {this}

/-- The rest of the loop, by the attributes that are left. -/
theorem search_eq {name : List Byte} {left i : Nat}
    (rest : i + left = this.tupdesc.attrs.length) :
    this.search name left i =
      match (this.tupdesc.attrs.drop i).findIdx?
        fun att => nameDatas.nameStr att.attname = name with
      | some offset => this.getAttribute (BitVec.ofNat 32 (i + offset))
      | none => .error (.noAttribute name) := by
  induction left generalizing i with
  | zero =>
    rw [List.drop_eq_nil_of_le (by omega)]
    rfl
  | succ left ih =>
    have below : i < this.tupdesc.attrs.length := by omega
    have named : this.attributeName (BitVec.ofNat 32 i) =
        .ok (nameDatas.nameStr this.tupdesc.attrs[i].attname) := by
      unfold attributeName checked
      rw [checkBounds_ofNat this.few (List.getElem?_eq_getElem below)]
      rfl
    unfold search
    rw [named, List.drop_eq_getElem_cons below, List.findIdx?_cons]
    change (if nameDatas.nameStr this.tupdesc.attrs[i].attname = name then _ else _) = _
    by_cases same : nameDatas.nameStr this.tupdesc.attrs[i].attname = name
    · rw [if_pos same, if_pos (decide_eq_true same)]
      rfl
    · rw [if_neg same, if_neg (by rw [decide_eq_true_eq]; exact same), ih (by omega)]
      cases (this.tupdesc.attrs.drop (i + 1)).findIdx? fun att =>
        nameDatas.nameStr att.attname = name with
      | none => rfl
      | some offset =>
        change this.getAttribute (BitVec.ofNat 32 (i + 1 + offset)) =
          this.getAttribute (BitVec.ofNat 32 (i + (offset + 1)))
        congr 2
        omega

/-- `operator[]` has the value of the first attribute of that name. -/
theorem index_eq (name : List Byte) : this.index name =
    match this.locate name with
    | some i => this.getAttribute (BitVec.ofNat 32 i)
    | none => .error (.noAttribute name) := by
  unfold index locate
  rw [search_eq (Nat.zero_add _), List.drop_zero]
  simp only [Nat.zero_add]

end NamedRecord

/-! ## Names that were given -/

/-- The descriptor after a program, and the outcomes. -/
def afterProgram {N : Type} (values : NameValues N) (types : RowTypes) (nattrs : Nat)
    (actions : List NamedAction) : Option (List NamedOutcome × NamedDescriptor N) :=
  outcomes (NamedDescriptor.exec values types) (.template values nattrs) actions

/-- After any program over a descriptor, what was asked of it, and what a record finds by a name,
is what the names that were given say, cut to what has a place. So an attribute is found by its name
if and only if that has a place, and none before is stored under the same. No action is to be for the
largest `int`, which passes `check_bounds`. -/
theorem named_lookup_iff {D : Type} (types : RowTypes) (nattrs : Nat) (few : nattrs < 0x80000000)
    (actions : List NamedAction) (meant : ∀ action ∈ actions, action.index? ≠ some intMax) :
    ∃ results given described, afterProgram givenNames types nattrs actions = some (results, given) ∧
      afterProgram nameDatas types nattrs actions = some (results, described) ∧
      ∀ record : NamedRecord D, record.tupdesc = described →
        (∀ name, record.index name =
          match given.attrs.findIdx? fun att => att.attname.bytes.take 63 = name with
          | some i => record.getAttribute (BitVec.ofNat 32 i)
          | none => .error (.noAttribute name)) ∧
        ∀ (i : Nat) att, given.attrs[i]? = some att →
          (record.locate att.attname.bytes = some i ↔ att.attname.bytes.length < 64 ∧
            ∀ (j : Nat) other, j < i → given.attrs[j]? = some other →
              other.attname.bytes.take 63 ≠ att.attname.bytes) := by
  have answers : ∀ (given : NamedDescriptor CName), ∀ action ∈ actions,
      given.attrs.length = nattrs → ∃ outcome next,
        given.exec givenNames types action = some (outcome, next) ∧ next.attrs.length = nattrs := by
    rintro given action member rfl
    exact NamedDescriptor.exists_exec few (meant action member)
  obtain ⟨results, given, run, -⟩ :=
    exists_outcomes answers (s := .template givenNames nattrs) List.length_replicate
  have simulates : Simulates (NamedDescriptor.exec givenNames types)
      (NamedDescriptor.exec nameDatas types) NamedDescriptor.stored := NamedDescriptor.exec_stored
  have simulated := simulates.outcomes (.template givenNames nattrs) actions
  rw [run, NamedDescriptor.stored_template] at simulated
  refine ⟨results, given, given.stored, run, simulated.symm, ?_⟩
  rintro record described
  have located (name : List Byte) : record.locate name =
      given.attrs.findIdx? fun att => att.attname.bytes.take 63 = name := by
    unfold NamedRecord.locate
    rw [described, NamedDescriptor.stored, List.findIdx?_map]
    congr 1
    funext att
    exact congrArg (fun str => decide (str = name))
      (NamedDescriptor.nameStr_nameData att.attname)
  refine ⟨fun name => ?_, fun i att found => ?_⟩
  · rw [NamedRecord.index_eq, located]
  · obtain ⟨below, here⟩ := List.getElem?_eq_some_iff.mp found
    rw [located, List.findIdx?_eq_some_iff_getElem]
    simp only [decide_eq_true_eq]
    constructor
    · rintro ⟨_, same, before⟩
      rw [here] at same
      have cut := congrArg List.length same
      rw [List.length_take] at cut
      refine ⟨by omega, fun j other earlier there => ?_⟩
      obtain ⟨_, there⟩ := List.getElem?_eq_some_iff.mp there
      rw [← there]
      exact before j earlier
    · rintro ⟨short, before⟩
      refine ⟨below, ?_, fun j earlier => ?_⟩
      · rw [here]
        exact List.take_of_length_le (by omega)
      · exact before j _ earlier (List.getElem?_eq_getElem (by omega))

/-- One character more than has a place. -/
def longName : CName := ⟨List.replicate 64 120, by simp⟩

/-- The names `id` and that one. -/
def idAndLongName : List NamedAction :=
  [.setName 0 ⟨[105, 100], by decide⟩, .setName 1 longName]

theorem longName_not_located :
    ∃ described, afterProgram nameDatas ⟨fun _ => none, fun _ _ => ⟨0, -1, [], true⟩⟩ 2
        idAndLongName = some ([.done, .done], described) ∧
      ∀ record : NamedRecord Nat, record.tupdesc = described →
        record.locate [105, 100] = some 0 ∧ record.locate longName.bytes ≠ some 1 := by
  obtain ⟨results, given, described, run, stored, lookup⟩ :=
    named_lookup_iff ⟨fun _ => none, fun _ _ => ⟨0, -1, [], true⟩⟩ 2 (by decide) idAndLongName
      (by decide)
  cases run
  refine ⟨described, stored, fun record same => ?_⟩
  obtain ⟨-, located⟩ := lookup record same
  have first := located 0 ⟨⟨[105, 100], by decide⟩, 0⟩ rfl
  have second := located 1 ⟨longName, 0⟩ rfl
  refine ⟨first.mpr ⟨by decide, fun j _ before => absurd before (Nat.not_lt_zero j)⟩, ?_⟩
  exact fun found => absurd (second.mp found).1 (by decide)

end Cppgres
