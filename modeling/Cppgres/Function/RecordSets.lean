import Cppgres.NonLocal.Returns
import Cppgres.Record.Descriptors

/-!
# Functions that return a set of records

The branch of `postgres_function::operator()` for a range of `record`s. A record brings a row
type of its own, and is put into the tuplestore as it is. `Cppgres.RecordSet.checked_iff` says
when all that is put there has the row type that the call expects.
-/
namespace Cppgres
open NonLocal

variable {D : Type}

/-! ## `tuple_descriptor::equal_types` -/

/-- What is compared of two attributes. -/
def FormPgAttribute.sameType (att1 att2 : FormPgAttribute) : Bool :=
  !(att1.atttypid != att2.atttypid || att1.atttypmod != att2.atttypmod ||
    att1.attcollation != att2.attcollation || att1.attisdropped != att2.attisdropped ||
    att1.attlen != att2.attlen || att1.attalign != att2.attalign)

/-- `equal_types` -/
def TupleDescData.equalTypes (this other : TupleDescData) : Bool :=
  if this.attrs.length ≠ other.attrs.length then false
  else if this.tdtypeid ≠ other.tdtypeid then false
  else (this.attrs.zip other.attrs).all fun (att1, att2) => att1.sameType att2

/-- A `record`: a descriptor, and a tuple that nothing here looks into. -/
structure SetRecord (D : Type) where
  tupdesc : TupleDescData
  tuple : D
  deriving DecidableEq, Repr

def SetRecord.attributes (r : SetRecord D) : Nat := r.tupdesc.attrs.length

/-- One step of the range: an exception, or a record with what `tuplestore_puttuple` comes to
when it is given that record. -/
inductive Yielded (D : Type) where
  | thrown (what : String)
  | record (r : SetRecord D) (put : Except String Unit)
  deriving DecidableEq

/-- What the branch writes to: `rsinfo`, `fc->isnull` and `CurrentMemoryContext`. -/
structure RecordSet (D : Type) where
  currentMemoryContext : MemoryContext
  materialize : Bool
  setResult : Option (List (SetRecord D))
  isnull : Bool

/-- Code of the branch. Each Postgres function is called under an `ffi_guard`, so that its errors
are exceptions. -/
abbrev RecordCode (D : Type) (α : Type) := Code String Empty (RecordSet D) α

/-- What the branch is given: `rsinfo`, the current memory context, what `tuplestore_begin_heap`
comes to, and the function with the range that it returns. -/
structure RecordCall (D : Type) where
  expectedDesc : Option TupleDescData
  perQueryMemory : MemoryContext
  currentMemoryContext : MemoryContext
  beginHeap : Except String Unit
  func : Except String (List (Yielded D))

namespace RecordSet

def guarded {α : Type} : Except String α → RecordCode D α
  | .ok value => pure value
  | .error what => Code.throwing what

/-- `tuplestore_begin_heap`, with the result put where it belongs. -/
def tuplestoreBeginHeap (begins : Except String Unit) : RecordCode D Unit := do
  guarded begins
  Code.modify fun b => { b with setResult := some [] }

/-- `tuplestore_puttuple` -/
def tuplestorePuttuple (r : SetRecord D) (put : Except String Unit) : RecordCode D Unit := do
  guarded put
  Code.modify fun b => { b with setResult := b.setResult.map (· ++ [r]) }

/-- The two checks of a record. -/
def check (expectedDesc : Option TupleDescData) (natts : Int) (r : SetRecord D) :
    RecordCode D Unit :=
  let nargs := r.attributes
  match expectedDesc with
  | none => pure ()
  | some expected =>
    if (nargs : Int) ≠ natts then
      Code.throwing ("expected record with " ++ toString nargs ++ " value" ++
        (if nargs = 1 then "" else "s") ++ ", got " ++ toString natts ++ " instead")
    else if !r.tupdesc.equalTypes expected then
      Code.throwing "expected and returned records do not match"
    else pure ()

/-- The loop over the range. -/
def putRecords (expectedDesc : Option TupleDescData) (natts : Int) (checked : Bool) :
    List (Yielded D) → RecordCode D Unit
  | [] => pure ()
  | .thrown what :: _ => Code.throwing what
  | .record r put :: rest => do
    if !checked then
      check expectedDesc natts r
    tuplestorePuttuple r put
    putRecords expectedDesc natts true rest

/-- The part of the branch that is in the scope of the per-query memory context. -/
def fill (call : RecordCall D) (natts : Int) : RecordCode D Unit := do
  tuplestoreBeginHeap call.beginHeap
  let res ← guarded call.func
  putRecords call.expectedDesc natts false res
  Code.modify fun b => { b with isnull := true }

/-- `natts`, with no descriptor a number that is none. -/
def expectedNatts : Option TupleDescData → Int
  | none => -1
  | some expected => expected.attrs.length

/-- The branch for ranges of records. -/
def recordReturning (call : RecordCall D) : RecordCode D Unit := do
  let natts := expectedNatts call.expectedDesc
  Code.modify fun b => { b with materialize := true }
  let b ← Code.get
  let previous := b.currentMemoryContext
  Code.modify fun b => { b with currentMemoryContext := call.perQueryMemory }
  Code.raii (fill call natts)
    (Code.modify fun b => { b with currentMemoryContext := previous })

/-! ## What is asked of it -/

/-- The machine that a call starts in, while `uncaught` exceptions are in flight. -/
def entry (call : RecordCall D) (uncaught : Nat) : Machine (RecordSet D) where
  uncaught := uncaught
  store := {
    currentMemoryContext := call.currentMemoryContext
    materialize := false
    setResult := none
    isnull := false }

/-- The records in the tuplestore when the call is over, however it ends. -/
def stored (call : RecordCall D) (uncaught : Nat) : List (SetRecord D) :=
  ((recordReturning call (entry call uncaught)).2.store.setResult).getD []

/-- The record has as many attributes as are expected, of equal types. -/
def Matches (expectedDesc : Option TupleDescData) (r : SetRecord D) : Prop :=
  ∀ expected, expectedDesc = some expected →
    r.attributes = expected.attrs.length ∧ r.tupdesc.equalTypes expected = true

def yieldedRecord : Yielded D → Option (SetRecord D)
  | .thrown _ => none
  | .record r _ => some r

/-- No record that does not match is stored, and a call whose range has one raises an error. -/
structure Checked (call : RecordCall D) (uncaught : Nat) : Prop where
  stored : ∀ r ∈ stored call uncaught, Matches call.expectedDesc r
  raised : ∀ items r, call.func = .ok items → r ∈ items.filterMap yieldedRecord →
    ¬ Matches call.expectedDesc r →
    ∃ what, (recordReturning call (entry call uncaught)).1 = .thrown what

/-- The records before the first failure of the range or of the tuplestore. -/
def reached : List (Yielded D) → List (SetRecord D)
  | .record r (.ok ()) :: rest => r :: reached rest
  | _ => []

def RecordCall.reached (call : RecordCall D) : List (SetRecord D) :=
  match call.beginHeap, call.func with
  | .ok (), .ok items => RecordSet.reached items
  | _, _ => []

/-- If the first record matches, the others do. -/
def Uniform (call : RecordCall D) : Prop :=
  ∀ first rest, RecordCall.reached call = first :: rest → Matches call.expectedDesc first →
    ∀ r ∈ rest, Matches call.expectedDesc r

/-! ## The loop -/

section Loop
variable {expectedDesc : Option TupleDescData} {natts : Int} {s : Machine (RecordSet D)}
  {rows : List (SetRecord D)}

/-- The machine after another record was put into the tuplestore. -/
def putInto (r : SetRecord D) (s : Machine (RecordSet D)) : Machine (RecordSet D) :=
  { s with store := { s.store with setResult := s.store.setResult.map (· ++ [r]) } }

/-- Once `checked` is set, whatever the range yields is stored, up to the first failure. A loop
that returns has met none. -/
theorem putRecords_checked (expectedDesc : Option TupleDescData) (natts : Int)
    (items : List (Yielded D)) (begun : s.store.setResult = some rows) :
    (putRecords expectedDesc natts true items s).2.store.setResult = some (rows ++ reached items) ∧
      ((∃ what, (putRecords expectedDesc natts true items s).1 = .thrown what) ∨
        (putRecords expectedDesc natts true items s).1 = .returned () ∧
          items.filterMap yieldedRecord = reached items) := by
  induction items generalizing s rows with
  | nil => simp [putRecords, reached, begun, pure, Code.pure]
  | cons item items ih =>
    cases item with
    | thrown what => simp [putRecords, reached, begun, Code.throwing]
    | record r put =>
      cases put with
      | error what =>
        have stopped : putRecords expectedDesc natts true (.record r (.error what) :: items) s =
            (.thrown what, { s with uncaught := s.uncaught + 1 }) := rfl
        simp [stopped, reached, begun]
      | ok _ =>
        have goes : putRecords expectedDesc natts true (.record r (.ok ()) :: items) s =
            putRecords expectedDesc natts true items (putInto r s) := rfl
        have put : (putInto r s).store.setResult = some (rows ++ [r]) := by
          simp [putInto, begun]
        obtain ⟨storing, ends⟩ := ih put
        rw [goes, storing]
        constructor
        · simp [reached]
        · simpa [reached, yieldedRecord] using ends

/-- The two checks let a record pass if and only if it matches. -/
theorem check_apply (expectedDesc : Option TupleDescData) (s : Machine (RecordSet D))
    (r : SetRecord D) :
    (Matches expectedDesc r ∧ check expectedDesc (expectedNatts expectedDesc) r s = (.returned (), s)) ∨
      (¬ Matches expectedDesc r ∧ ∃ what, check expectedDesc (expectedNatts expectedDesc) r s =
        (.thrown what, { s with uncaught := s.uncaught + 1 })) := by
  cases expectedDesc with
  | none => exact .inl ⟨nofun, rfl⟩
  | some expected =>
    unfold check expectedNatts
    by_cases count : r.attributes = expected.attrs.length
    · cases types : r.tupdesc.equalTypes expected with
      | true =>
        left
        constructor
        · rintro _ ⟨⟩
          exact ⟨count, types⟩
        · simp [count, types, pure, Code.pure]
      | false =>
        right
        constructor
        · intro isMatch
          have equal := (isMatch expected rfl).2
          rw [types] at equal
          cases equal
        · simp [count, types, Code.throwing]
    · right
      constructor
      · intro isMatch
        exact count (isMatch expected rfl).1
      · have different : (r.attributes : Int) ≠ expected.attrs.length := by omega
        dsimp only
        rw [if_pos different]
        exact ⟨_, rfl⟩

/-- Before `checked` is set, a first record that does not match ends the loop. Otherwise the flag
makes no difference. -/
theorem putRecords_first (expectedDesc : Option TupleDescData) (s : Machine (RecordSet D))
    (items : List (Yielded D)) :
    (∃ r put rest what, items = .record r put :: rest ∧ ¬ Matches expectedDesc r ∧
      putRecords expectedDesc (expectedNatts expectedDesc) false items s =
        (.thrown what, { s with uncaught := s.uncaught + 1 })) ∨
    ((∀ r put rest, items = .record r put :: rest → Matches expectedDesc r) ∧
      putRecords expectedDesc (expectedNatts expectedDesc) false items s =
        putRecords expectedDesc (expectedNatts expectedDesc) true items s) := by
  cases items with
  | nil => exact .inr ⟨nofun, rfl⟩
  | cons item rest =>
    cases item with
    | thrown what => exact .inr ⟨nofun, rfl⟩
    | record r put =>
      have unchecked : putRecords expectedDesc (expectedNatts expectedDesc) false
          (.record r put :: rest) = (check expectedDesc (expectedNatts expectedDesc) r >>= fun _ =>
            tuplestorePuttuple r put >>= fun _ =>
              putRecords expectedDesc (expectedNatts expectedDesc) true rest) := rfl
      rcases check_apply expectedDesc s r with
        ⟨matching, passes⟩ | ⟨other, what, refused⟩
      · right
        constructor
        · rintro _ _ _ ⟨⟩
          exact matching
        · rw [unchecked, Code.bind_returned passes]
          rfl
      · left
        refine ⟨r, put, rest, what, rfl, other, ?_⟩
        rw [unchecked, Code.bind_thrown refused]

end Loop

/-! ## The call -/

section Call
variable {call : RecordCall D} {uncaught : Nat}

/-- The end of the scope of the memory context changes neither the exit nor the tuplestore. -/
theorem raii_previous (m : RecordCode D Unit) (previous : MemoryContext) (s : Machine (RecordSet D)) :
    (Code.raii m (Code.modify fun b => { b with currentMemoryContext := previous }) s).1 = (m s).1 ∧
    (Code.raii m (Code.modify fun b => { b with currentMemoryContext := previous }) s
      ).2.store.setResult = (m s).2.store.setResult := by
  unfold Code.raii Code.leaving
  generalize m s = run
  obtain ⟨exit, t⟩ := run
  cases exit <;> exact ⟨rfl, rfl⟩

/-- The machine in which the scope of the memory context is entered. -/
def entered (call : RecordCall D) (uncaught : Nat) : Machine (RecordSet D) where
  uncaught := uncaught
  store := {
    currentMemoryContext := call.perQueryMemory
    materialize := true
    setResult := none
    isnull := false }

theorem recordReturning_apply (call : RecordCall D) (uncaught : Nat) :
    (recordReturning call (entry call uncaught)).1 =
        (fill call (expectedNatts call.expectedDesc) (entered call uncaught)).1 ∧
      stored call uncaught = ((fill call (expectedNatts call.expectedDesc)
        (entered call uncaught)).2.store.setResult).getD [] := by
  have scope := raii_previous (fill call (expectedNatts call.expectedDesc))
    call.currentMemoryContext (entered call uncaught)
  exact ⟨scope.1, congrArg (Option.getD · []) scope.2⟩

/-- The machine with an empty tuplestore. -/
def begun (call : RecordCall D) (uncaught : Nat) : Machine (RecordSet D) :=
  { entered call uncaught with store := { (entered call uncaught).store with setResult := some [] } }

theorem fill_begun (uncaught : Nat) {items : List (Yielded D)} (begins : call.beginHeap = .ok ())
    (returns : call.func = .ok items) :
    (fill call (expectedNatts call.expectedDesc) (entered call uncaught)).1 =
        (putRecords call.expectedDesc (expectedNatts call.expectedDesc) false items
          (begun call uncaught)).1 ∧
      (fill call (expectedNatts call.expectedDesc) (entered call uncaught)).2.store.setResult =
        (putRecords call.expectedDesc (expectedNatts call.expectedDesc) false items
          (begun call uncaught)).2.store.setResult := by
  have begin_ : tuplestoreBeginHeap call.beginHeap (entered call uncaught) =
      (.returned (), begun call uncaught) := by
    rw [begins]
    rfl
  have range : (guarded call.func : RecordCode D _) (begun call uncaught) =
      (.returned items, begun call uncaught) := by
    rw [returns]
    rfl
  unfold fill
  rw [Code.bind_returned begin_, Code.bind_returned range, Code.bind_apply]
  generalize putRecords call.expectedDesc (expectedNatts call.expectedDesc) false items
    (begun call uncaught) = run
  obtain ⟨exit, t⟩ := run
  cases exit <;> exact ⟨rfl, rfl⟩

/-- A call ends before its loop, with an empty tuplestore or none. -/
theorem fill_refused (uncaught : Nat)
    (refused : ¬ ∃ items, call.beginHeap = .ok () ∧ call.func = .ok items) :
    (∃ what, (fill call (expectedNatts call.expectedDesc) (entered call uncaught)).1 =
        .thrown what) ∧
      ((fill call (expectedNatts call.expectedDesc)
        (entered call uncaught)).2.store.setResult).getD [] = [] ∧ RecordCall.reached call = [] := by
  cases begins : call.beginHeap with
  | error what =>
    simp [fill, tuplestoreBeginHeap, begins, guarded, Code.bind_apply, Code.throwing, entered,
      RecordCall.reached]
  | ok _ =>
    cases returns : call.func with
    | error what =>
      simp [fill, tuplestoreBeginHeap, begins, returns, guarded, Code.bind_apply, Code.throwing,
        entered, RecordCall.reached, pure, Code.pure]
    | ok items => exact absurd ⟨items, begins, returns⟩ refused

/-- A call raises an error before it stores anything, or its first record matches and all
that it comes to is stored. -/
theorem recordReturning_cases (call : RecordCall D) (uncaught : Nat) :
    ((∃ what, (recordReturning call (entry call uncaught)).1 = .thrown what) ∧
        stored call uncaught = [] ∧
        ∀ first rest, RecordCall.reached call = first :: rest → ¬ Matches call.expectedDesc first) ∨
      stored call uncaught = RecordCall.reached call ∧
        (∀ first rest, RecordCall.reached call = first :: rest → Matches call.expectedDesc first) ∧
        ((∃ what, (recordReturning call (entry call uncaught)).1 = .thrown what) ∨
          ∃ items, call.func = .ok items ∧
            items.filterMap yieldedRecord = RecordCall.reached call) := by
  obtain ⟨exit, storing⟩ := recordReturning_apply call uncaught
  rw [exit, storing]
  by_cases begins : ∃ items, call.beginHeap = .ok () ∧ call.func = .ok items
  · obtain ⟨items, begins, returns⟩ := begins
    have come : RecordCall.reached call = RecordSet.reached items := by
      simp [RecordCall.reached, begins, returns]
    obtain ⟨exit, storing⟩ := fill_begun uncaught begins returns
    rw [exit, storing, come]
    rcases putRecords_first call.expectedDesc (begun call uncaught) items with
      ⟨r, put, rest, what, rfl, other, stopped⟩ | ⟨matching, goes⟩
    · left
      rw [stopped]
      refine ⟨⟨what, rfl⟩, rfl, fun first rest same => ?_⟩
      cases put with
      | error what => cases same
      | ok _ =>
        cases same
        exact other
    · right
      have begun : (begun call uncaught).store.setResult = some [] := rfl
      obtain ⟨storing, ends⟩ := putRecords_checked call.expectedDesc
        (expectedNatts call.expectedDesc) items begun
      rw [goes, storing]
      refine ⟨by simp, fun first rest same => ?_, ?_⟩
      · match items with
        | .record r (.ok ()) :: items =>
          cases same
          exact matching first (.ok ()) items rfl
      · rcases ends with thrown | ⟨_, all⟩
        · exact .inl thrown
        · exact .inr ⟨items, returns, all⟩
  · obtain ⟨thrown, empty, none⟩ := fill_refused uncaught begins
    left
    refine ⟨thrown, empty, fun first rest same => ?_⟩
    rw [none] at same
    cases same

end Call

/-- What a call stores matches if and only if, where the first record that it comes to matches,
all the others do. Nothing but the first is compared with what is expected. -/
theorem checked_iff (call : RecordCall D) (uncaught : Nat) :
    Checked call uncaught ↔ Uniform call := by
  rcases recordReturning_cases call uncaught with
    ⟨thrown, empty, other⟩ | ⟨storing, matching, ends⟩
  · apply iff_of_true
    · constructor
      · intro r member
        rw [empty] at member
        cases member
      · intro _ _ _ _ _
        exact thrown
    · intro first rest come isMatch
      exact absurd isMatch (other first rest come)
  · constructor
    · intro checked first rest come _ r member
      apply checked.stored
      rw [storing, come]
      exact List.mem_cons_of_mem first member
    · intro uniform
      have all : ∀ r ∈ RecordCall.reached call, Matches call.expectedDesc r := by
        intro r member
        cases come : RecordCall.reached call with
        | nil =>
          rw [come] at member
          cases member
        | cons first rest =>
          rw [come] at member
          have first_ := matching first rest come
          rcases List.mem_cons.mp member with rfl | later
          · exact first_
          · exact uniform first rest come first_ r later
      constructor
      · rw [storing]
        exact all
      · intro items r returns member other
        rcases ends with thrown | ⟨items', returns', same⟩
        · exact thrown
        · cases returns.symm.trans returns'
          rw [same] at member
          exact absurd (all r member) other

/-- A descriptor of one attribute of a type of eight bytes. -/
def oneOf (type : Oid) : TupleDescData where
  tdtypeid := recordOid
  tdtypmod := -1
  attrs := [⟨"", type, 0, 8, 'p', 'd', -1, true, false, -1⟩]
  fromPostgres := false

/-- One column of `int8` is expected, and a record with a `float8` comes second. -/
def mixedCall : RecordCall Nat where
  expectedDesc := some (oneOf int8Oid)
  perQueryMemory := 1
  currentMemoryContext := 0
  beginHeap := .ok ()
  func := .ok [.record ⟨oneOf int8Oid, 1⟩ (.ok ()), .record ⟨oneOf float8Oid, 2⟩ (.ok ())]

theorem mixedCall_unchecked :
    stored mixedCall 0 = [⟨oneOf int8Oid, 1⟩, ⟨oneOf float8Oid, 2⟩] ∧
      (recordReturning mixedCall (entry mixedCall 0)).1 = .returned () ∧
      ¬ Checked mixedCall 0 := by
  have storing : stored mixedCall 0 = [⟨oneOf int8Oid, 1⟩, ⟨oneOf float8Oid, 2⟩] := by
    decide +kernel
  refine ⟨storing, by decide +kernel, fun checked => ?_⟩
  have isMatch := checked.stored ⟨oneOf float8Oid, 2⟩ (by rw [storing]; simp) (oneOf int8Oid) rfl
  revert isMatch
  decide +kernel

end RecordSet
end Cppgres
