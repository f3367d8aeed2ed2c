import Cppgres.Bytes.CStrings
import Cppgres.Labelled.Simulation
import Mathlib.Logic.Function.Basic

/-!
# Specifications of background workers

`background_worker` reads and writes the structure that describes a worker, one of its own or one
that is somewhere else. Through all objects and in the process of the worker, what is read is what
a record of texts and numbers would hold: `Cppgres.Specifications.specifications_refine`.
-/
namespace Cppgres
open Bytes Labelled

/-- The arrays of characters of `BackgroundWorker`. -/
inductive WorkerText where
  | bgwName
  | bgwType
  | bgwLibraryName
  | bgwFunctionName
  | bgwExtra
  deriving DecidableEq, Repr

/-- Its other fields. -/
inductive WorkerNumber where
  | bgwStartTime
  | bgwRestartTime
  | bgwFlags
  | bgwMainArg
  | bgwNotifyPid
  deriving DecidableEq, Repr

/-- The sizes that Postgres's headers give the arrays. A type has place for what is a name. -/
structure WorkerLayout where
  size : WorkerText → Nat
  positive : ∀ text, 0 < size text
  typeHoldsName : size .bgwName ≤ size .bgwType

variable {layout : WorkerLayout}

/-- `BackgroundWorker`. Code that fills in an array ends it with a NUL. -/
structure BackgroundWorker (layout : WorkerLayout) where
  chars : (text : WorkerText) → CharArray (layout.size text)
  numbers : WorkerNumber → Int

namespace BackgroundWorker

def zeroed (layout : WorkerLayout) : BackgroundWorker layout where
  chars text := .zeroed (layout.positive text)
  numbers _ := 0

/-- A setter of a text. -/
def setText (text : WorkerText) (name : List Byte) (worker : BackgroundWorker layout) :
    BackgroundWorker layout :=
  { worker with chars := Function.update worker.chars text ((worker.chars text).copyIn name) }

/-- A getter of a text, which makes a `std::string_view` of a pointer. -/
def text (text : WorkerText) (worker : BackgroundWorker layout) : List Byte :=
  cstring (worker.chars text).bytes

def setNumber (field : WorkerNumber) (number : Int) (worker : BackgroundWorker layout) :
    BackgroundWorker layout :=
  { worker with numbers := Function.update worker.numbers field number }

def number (field : WorkerNumber) (worker : BackgroundWorker layout) : Int := worker.numbers field

def name : List Byte → BackgroundWorker layout → BackgroundWorker layout := setText .bgwName
def type : List Byte → BackgroundWorker layout → BackgroundWorker layout := setText .bgwType
def libraryName : List Byte → BackgroundWorker layout → BackgroundWorker layout :=
  setText .bgwLibraryName
def functionName : List Byte → BackgroundWorker layout → BackgroundWorker layout :=
  setText .bgwFunctionName
def extra : List Byte → BackgroundWorker layout → BackgroundWorker layout := setText .bgwExtra
def startTime : Int → BackgroundWorker layout → BackgroundWorker layout := setNumber .bgwStartTime
def restartTime : Int → BackgroundWorker layout → BackgroundWorker layout :=
  setNumber .bgwRestartTime
def flags : Int → BackgroundWorker layout → BackgroundWorker layout := setNumber .bgwFlags
def mainArg : Int → BackgroundWorker layout → BackgroundWorker layout := setNumber .bgwMainArg
def notifyPid : Int → BackgroundWorker layout → BackgroundWorker layout := setNumber .bgwNotifyPid

end BackgroundWorker

/-- What a specification says. -/
structure WorkerRecord (layout : WorkerLayout) where
  texts : (text : WorkerText) → CText (layout.size text)
  numbers : WorkerNumber → Int

/-- What can be done with the values of a type that describe workers. -/
structure WorkerValues (W : Type) where
  zeroed : W
  setText : WorkerText → List Byte → W → W
  text : WorkerText → W → List Byte
  setNumber : WorkerNumber → Int → W → W
  number : WorkerNumber → W → Int

/-- `SanityCheckBackgroundWorker`, where it finds nothing: an empty type becomes the name. -/
def WorkerValues.checked {W : Type} (values : WorkerValues W) (worker : W) : W :=
  if values.text .bgwType worker = [] then
    values.setText .bgwType (values.text .bgwName worker) worker
  else worker

/-- The structures of C. -/
def workerStructures (layout : WorkerLayout) : WorkerValues (BackgroundWorker layout) where
  zeroed := .zeroed layout
  setText := BackgroundWorker.setText
  text := BackgroundWorker.text
  setNumber := BackgroundWorker.setNumber
  number := BackgroundWorker.number

/-- The records: a text that is set is cut to what has a place, and then it is the text. -/
def workerRecords (layout : WorkerLayout) : WorkerValues (WorkerRecord layout) where
  zeroed := ⟨fun text => .cut (layout.positive text) [], fun _ => 0⟩
  setText text name worker :=
    { worker with texts := Function.update worker.texts text (.cut (layout.positive text) name) }
  text text worker := (worker.texts text).bytes
  setNumber field number worker :=
    { worker with numbers := Function.update worker.numbers field number }
  number field worker := worker.numbers field

/-- `utils::maybe_ref<BackgroundWorker>`: a structure of its own, or a reference to one. -/
inductive MaybeRef where
  | value (address : Nat)
  | reference (address : Nat)
  deriving DecidableEq, Repr

/-- `operator T &()`. -/
def MaybeRef.address : MaybeRef → Nat
  | .value address => address
  | .reference address => address

/-- What comes of a registration: Postgres refuses it before its check of the structure or in that,
it goes no further than the check, as where there is no place for the worker, or it takes it. -/
inductive Admission where
  | refused
  | checked
  | taken
  deriving DecidableEq, Repr

/-- `refer` is `background_worker(BackgroundWorker &)`, as in `current_background_worker`. Where a
worker is `launched`, its process has a copy of what was registered. -/
inductive SpecificationAction where
  | construct (this : Nat)
  | refer (this address : Nat)
  | copy (this other : Nat)
  | assign (this other : Nat)
  | destroy (this : Nat)
  | address (this : Nat)
  | setText (this : Nat) (text : WorkerText) (name : List Byte)
  | text (this : Nat) (text : WorkerText)
  | setNumber (this : Nat) (field : WorkerNumber) (number : Int)
  | number (this : Nat) (field : WorkerNumber)
  | start (this : Nat) (admission : Admission)
  | launch (index : Nat)
  deriving DecidableEq, Repr

inductive SpecificationOutcome where
  | done
  | text (text : List Byte)
  | number (number : Int)
  | address (address : Nat)
  | undefined
  deriving DecidableEq, Repr

/-- The structures by their addresses, the objects, and what the postmaster has of the workers that
were registered. Addresses from `fresh` on were not used. -/
structure Specifications (W : Type) where
  structures : Nat → Option W
  fresh : Nat
  objects : Nat → Option MaybeRef
  registered : List W

namespace Specifications
variable {W : Type}

def none_ : Specifications W := ⟨fun _ => none, 0, fun _ => none, []⟩

section Operations
variable (values : WorkerValues W) (myProcPid : Int) (s : Specifications W)

def setObject (this : Nat) (worker : Option MaybeRef) : Specifications W :=
  { s with objects := Function.update s.objects this worker }

def setStructure (address : Nat) (worker : Option W) : Specifications W :=
  { s with structures := Function.update s.structures address worker }

/-- A structure at a new address. -/
def add (worker : W) : Specifications W :=
  { s.setStructure s.fresh (some worker) with fresh := s.fresh + 1 }

/-- An object of that name, with a structure of its own. -/
def own (this : Nat) (worker : W) : Specifications W :=
  (s.add worker).setObject this (some (.value s.fresh))

/-- A new object has a new name. -/
def new (this : Nat) (made : SpecificationOutcome × Specifications W) :
    Option (SpecificationOutcome × Specifications W) :=
  if (s.objects this).isSome then none else some made

/-- What is done with the structure that an object reads and writes. -/
def onStructure (this : Nat) (f : Nat → W → SpecificationOutcome × Specifications W) :
    Option (SpecificationOutcome × Specifications W) :=
  (s.objects this).map fun worker =>
    match s.structures worker.address with
    | none => (.undefined, s)
    | some described => f worker.address described

/-- The assignment of `std::variant`: between two values it is that of the structures, and where
the other one is of the other kind, the object becomes what that one is. -/
def assign (this : Nat) : MaybeRef → MaybeRef → SpecificationOutcome × Specifications W
  | .value address, .value other => (.done, s.setStructure address (s.structures other))
  | .value address, .reference other =>
    (.done, (s.setStructure address none).setObject this (some (.reference other)))
  | .reference _, .value other =>
    match s.structures other with
    | none => (.undefined, s)
    | some described => (.done, s.own this described)
  | .reference _, .reference other => (.done, s.setObject this (some (.reference other)))

/-- The copy constructor. -/
def copy (this : Nat) : MaybeRef → Option (SpecificationOutcome × Specifications W)
  | .value other => (s.structures other).bind fun described =>
    s.new this (.done, s.own this described)
  | .reference other => s.new this (.done, s.setObject this (some (.reference other)))

/-- The destructor. -/
def destroy (this : Nat) : MaybeRef → Specifications W
  | .value address => (s.setStructure address none).setObject this none
  | .reference _ => s.setObject this none

/-- `RegisterBackgroundWorker` and `RegisterDynamicBackgroundWorker` with the structure at an address:
what was checked is written there, and it is copied from there. -/
def register (address : Nat) (worker : W) : Admission → Specifications W
  | .refused => s
  | .checked => s.setStructure address (some (values.checked worker))
  | .taken => { s.setStructure address (some (values.checked worker)) with
      registered := values.checked worker :: s.registered }

/-- None where there is no such object or structure, or there is one already. -/
def exec : SpecificationAction → Option (SpecificationOutcome × Specifications W)
  | .construct this =>
    s.new this (.done, s.own this (values.setNumber .bgwNotifyPid myProcPid values.zeroed))
  | .refer this address => (s.structures address).bind fun _ =>
    s.new this (.done, s.setObject this (some (.reference address)))
  | .copy this other => (s.objects other).bind (s.copy this)
  | .assign this other => (s.objects this).bind fun worker =>
    (s.objects other).map (s.assign this worker)
  | .destroy this => (s.objects this).map fun worker => (.done, s.destroy this worker)
  | .address this => (s.objects this).map fun worker => (.address worker.address, s)
  | .setText this text name => s.onStructure this fun address worker =>
    (.done, s.setStructure address (some (values.setText text name worker)))
  | .text this text => s.onStructure this fun _ worker => (.text (values.text text worker), s)
  | .setNumber this field number => s.onStructure this fun address worker =>
    (.done, s.setStructure address (some (values.setNumber field number worker)))
  | .number this field => s.onStructure this fun _ worker =>
    (.number (values.number field worker), s)
  | .start this admission => s.onStructure this fun address worker =>
    (.done, s.register values address worker admission)
  | .launch index => (s.registered[index]?).map fun worker =>
    (.address s.fresh, s.add worker)

end Operations

/-! ## Structures in terms of what they say -/

variable {W' : Type}

/-- The same objects, with other values for the structures. -/
def map (g : W → W') (s : Specifications W) : Specifications W' where
  structures address := (s.structures address).map g
  fresh := s.fresh
  objects := s.objects
  registered := s.registered.map g

end Specifications

/-- What is done with the values of one type is what is done with what they stand for. -/
structure WorkerValues.Abstracts {W W' : Type} (values : WorkerValues W) (values' : WorkerValues W')
    (g : W → W') : Prop where
  zeroed : g values.zeroed = values'.zeroed
  setText : ∀ text name worker,
    g (values.setText text name worker) = values'.setText text name (g worker)
  text : ∀ text worker, values.text text worker = values'.text text (g worker)
  setNumber : ∀ field number worker,
    g (values.setNumber field number worker) = values'.setNumber field number (g worker)
  number : ∀ field worker, values.number field worker = values'.number field (g worker)

theorem WorkerValues.Abstracts.checked {W W' : Type} {values : WorkerValues W}
    {values' : WorkerValues W'} {g : W → W'} (abstracts : values.Abstracts values' g) (worker : W) :
    g (values.checked worker) = values'.checked (g worker) := by
  unfold WorkerValues.checked
  rw [← abstracts.text]
  split
  · rw [abstracts.setText, ← abstracts.text]
  · rfl

namespace Specifications

section Map
variable {W W' : Type} {g : W → W'} {s : Specifications W} {this address : Nat}

end Map

/-! ## The structure of an object's own -/

section Own
variable {W : Type} {values : WorkerValues W} {myProcPid : Int} {s t : Specifications W}
  {this address : Nat} {action : SpecificationAction} {outcome : SpecificationOutcome}

/-- One action, with its outcome left out. -/
def step (values : WorkerValues W) (myProcPid : Int) (s : Specifications W)
    (action : SpecificationAction) : Option (Specifications W) :=
  (s.exec values myProcPid action).map Prod.snd

/-- No object has another's structure, all of them have theirs, and new addresses are new. -/
structure Owned (s : Specifications W) : Prop where
  there : ∀ this address, s.objects this = some (.value address) →
    (s.structures address).isSome = true
  alone : ∀ this other address, s.objects this = some (.value address) →
    s.objects other = some (.value address) → this = other
  fresh : ∀ address, s.fresh ≤ address → s.structures address = none

/-- The structure of an object has an empty type. -/
def untyped (values : WorkerValues W) (s : Specifications W) (this : Nat) : Bool :=
  ((s.objects this).bind fun worker => s.structures worker.address).any
    fun described => values.text .bgwType described = []

/-- The object through which an action writes, or Postgres does. -/
def written (values : WorkerValues W) (s : Specifications W) : SpecificationAction → Option Nat
  | .setText this _ _ => some this
  | .setNumber this _ _ => some this
  | .start _ .refused => none
  | .start this _ => if s.untyped values this then some this else none
  | _ => none

/-- The object that an action assigns to or destroys. -/
def replaced : SpecificationAction → Option Nat
  | .assign this _ => some this
  | .destroy this => some this
  | _ => none

/-- The action leaves alone the object and the structure at the address. -/
structure Spares (values : WorkerValues W) (this address : Nat) (s : Specifications W)
    (action : SpecificationAction) : Prop where
  written : ∀ target worker, s.written values action = some target →
    s.objects target = some worker → worker.address ≠ address
  replaced : replaced action ≠ some this

instance {this address : Nat} {s : Specifications W} {action : SpecificationAction} :
    Decidable (Spares values this address s action) :=
  decidable_of_iff
    ((((s.written values action).bind s.objects).all fun worker =>
      decide (worker.address ≠ address)) = true ∧ Specifications.replaced action ≠ some this) <| by
    rw [Option.all_eq_true]
    constructor
    · rintro ⟨apart, other⟩
      refine ⟨fun target worker writes there => ?_, other⟩
      exact of_decide_eq_true (apart worker (Option.bind_eq_some_iff.mpr ⟨target, writes, there⟩))
    · rintro ⟨apart, other⟩
      refine ⟨fun worker found => ?_, other⟩
      obtain ⟨target, writes, there⟩ := Option.bind_eq_some_iff.mp found
      exact decide_eq_true (apart target worker writes there)

/-- There is no structure of its own. -/
def Borrows (worker : Option MaybeRef) : Prop := ∀ address, worker ≠ some (.value address)

/-- What an action can do. -/
inductive Changes (values : WorkerValues W) (s : Specifications W) (action : SpecificationAction) :
    Specifications W → Prop where
  | nothing (registered : List W) : Changes values s action { s with registered }
  | wrote {target : Nat} {worker : MaybeRef} (writes : s.written values action = some target)
      (there : s.objects target = some worker) (found : (s.structures worker.address).isSome = true)
      (described : W) (registered : List W) :
      Changes values s action
        { s.setStructure worker.address (some described) with registered }
  | assigned {target address : Nat} (replaces : replaced action = some target)
      (there : s.objects target = some (.value address)) (described : W) :
      Changes values s action (s.setStructure address (some described))
  | owned {target : Nat} (borrowed : Borrows (s.objects target)) (described : W) :
      Changes values s action (s.own target described)
  | rebound {target : Nat} {worker : Option MaybeRef} (borrowed : Borrows (s.objects target))
      (borrows : Borrows worker) : Changes values s action (s.setObject target worker)
  | dropped {target address : Nat} {worker : Option MaybeRef}
      (replaces : replaced action = some target) (there : s.objects target = some (.value address))
      (borrows : Borrows worker) :
      Changes values s action ((s.setStructure address none).setObject target worker)
  | launched (described : W) : Changes values s action (s.add described)

theorem Owned.below (owned : s.Owned) (own : s.objects this = some (.value address)) :
    address < s.fresh := by
  by_contra beyond
  have missing := owned.fresh address (by omega)
  have there := owned.there this address own
  rw [missing] at there
  cases there

theorem Owned.none_ : (none_ : Specifications W).Owned where
  there _ _ own := nomatch own
  alone _ _ _ own := nomatch own
  fresh _ _ := rfl

theorem borrows_none : Borrows none := nofun

theorem borrows_reference : Borrows (some (.reference address)) := nofun

theorem changes_new {made : Specifications W}
    (ran : s.new this (.done, made) = some (outcome, t))
    (changes : Borrows (s.objects this) → Changes values s action made) : Changes values s action t := by
  unfold new at ran
  cases free : s.objects this with
  | some worker =>
    rw [free] at ran
    cases ran
  | none =>
    rw [free] at ran
    cases ran
    exact changes (free ▸ borrows_none)

theorem changes_onStructure {f : Nat → W → SpecificationOutcome × Specifications W}
    (ran : s.onStructure this f = some (outcome, t))
    (changes : ∀ worker described, s.objects this = some worker →
      s.structures worker.address = some described →
      Changes values s action (f worker.address described).2) : Changes values s action t := by
  unfold onStructure at ran
  obtain ⟨worker, there, ran⟩ := Option.map_eq_some_iff.mp ran
  cases found : s.structures worker.address with
  | none =>
    rw [found] at ran
    cases ran
    exact .nothing s.registered
  | some described =>
    rw [found] at ran
    have same : (f worker.address described).2 = t := congrArg Prod.snd ran
    rw [← same]
    exact changes worker described there found

theorem changes_assign (owned : s.Owned) {other : Nat} {worker given : MaybeRef}
    (there : s.objects this = some worker) (there' : s.objects other = some given) :
    Changes values s (.assign this other) (s.assign this worker given).2 := by
  cases worker with
  | value address =>
    cases given with
    | value address' =>
      obtain ⟨described, found⟩ := Option.isSome_iff_exists.mp (owned.there other address' there')
      unfold assign
      dsimp only
      rw [found]
      exact .assigned rfl there described
    | reference address' => exact .dropped rfl there borrows_reference
  | reference address =>
    have borrowed : Borrows (s.objects this) := there ▸ borrows_reference
    cases given with
    | value address' =>
      obtain ⟨described, found⟩ := Option.isSome_iff_exists.mp (owned.there other address' there')
      unfold assign
      dsimp only
      rw [found]
      exact .owned borrowed described
    | reference address' => exact .rebound borrowed borrows_reference

/-- A start writes where the type is empty; otherwise Postgres writes nothing. -/
theorem changes_register {worker : MaybeRef} {described : W} (there : s.objects this = some worker)
    (found : s.structures worker.address = some described) (admission : Admission) :
    Changes values s (.start this admission)
      (s.register values worker.address described admission) := by
  have structure_ : (s.objects this).bind (fun worker => s.structures worker.address) =
      some described := by
    rw [there]
    exact found
  by_cases empty : values.text .bgwType described = []
  · have untyped : s.untyped values this = true := by
      unfold untyped
      rw [structure_]
      exact decide_eq_true empty
    have isThere : (s.structures worker.address).isSome = true := by
      rw [found]
      rfl
    cases admission with
    | refused => exact .nothing s.registered
    | checked =>
      have writes : s.written values (.start this .checked) = some this := if_pos untyped
      exact .wrote writes there isThere (values.checked described) s.registered
    | taken =>
      have writes : s.written values (.start this .taken) = some this := if_pos untyped
      exact .wrote writes there isThere (values.checked described) _
  · have same : s.setStructure worker.address (some (values.checked described)) = s := by
      have kept : values.checked described = described := if_neg empty
      unfold setStructure
      rw [kept, ← found, Function.update_eq_self]
    unfold register
    rw [same]
    cases admission with
    | refused => exact .nothing s.registered
    | checked => exact .nothing s.registered
    | taken => exact .nothing (values.checked described :: s.registered)

/-- The one inversion of an action. -/
theorem changes_of_exec (owned : s.Owned) (ran : s.exec values myProcPid action = some (outcome, t)) :
    Changes values s action t := by
  cases action with
  | construct this => exact changes_new ran fun borrowed => .owned borrowed _
  | refer this address =>
    obtain ⟨_, _, ran⟩ := Option.bind_eq_some_iff.mp ran
    exact changes_new ran fun borrowed => .rebound borrowed borrows_reference
  | copy this other =>
    obtain ⟨worker, _, ran⟩ := Option.bind_eq_some_iff.mp ran
    cases worker with
    | reference from_ => exact changes_new ran fun borrowed => .rebound borrowed borrows_reference
    | value from_ =>
      obtain ⟨described, _, ran⟩ := Option.bind_eq_some_iff.mp ran
      exact changes_new ran fun borrowed => .owned borrowed described
  | assign this other =>
    obtain ⟨worker, there, ran⟩ := Option.bind_eq_some_iff.mp ran
    obtain ⟨given, there', ran⟩ := Option.map_eq_some_iff.mp ran
    have same : (s.assign this worker given).2 = t := congrArg Prod.snd ran
    rw [← same]
    exact changes_assign owned there there'
  | destroy this =>
    obtain ⟨worker, there, ran⟩ := Option.map_eq_some_iff.mp ran
    cases ran
    cases worker with
    | value address => exact .dropped rfl there borrows_none
    | reference address => exact .rebound (there ▸ borrows_reference) borrows_none
  | address this =>
    obtain ⟨_, _, ran⟩ := Option.map_eq_some_iff.mp ran
    cases ran
    exact .nothing s.registered
  | setText this text name =>
    unfold exec at ran
    exact changes_onStructure ran fun _ _ there found =>
      .wrote rfl there (by rw [found]; rfl) _ s.registered
  | text this text =>
    unfold exec at ran
    exact changes_onStructure ran fun _ _ _ _ => .nothing s.registered
  | setNumber this field number =>
    unfold exec at ran
    exact changes_onStructure ran fun _ _ there found =>
      .wrote rfl there (by rw [found]; rfl) _ s.registered
  | number this field =>
    unfold exec at ran
    exact changes_onStructure ran fun _ _ _ _ => .nothing s.registered
  | start this admission =>
    unfold exec at ran
    exact changes_onStructure ran fun worker described there found =>
      changes_register there found admission
  | launch index =>
    obtain ⟨described, _, ran⟩ := Option.map_eq_some_iff.mp ran
    cases ran
    exact .launched described

section Updates
variable {other : Nat} {worker : Option MaybeRef}

/-- Who has a structure of its own after a change of one object. -/
theorem value_setObject (own : (s.setObject other worker).objects this = some (.value address)) :
    this = other ∧ worker = some (.value address) ∨
      this ≠ other ∧ s.objects this = some (.value address) := by
  unfold setObject at own
  dsimp only at own
  by_cases same : this = other
  · subst same
    rw [Function.update_self] at own
    exact .inl ⟨rfl, own⟩
  · rw [Function.update_of_ne same] at own
    exact .inr ⟨same, own⟩

theorem Owned.setObject (owned : s.Owned) (borrows : Borrows worker) :
    (s.setObject other worker).Owned where
  there this address own := by
    rcases value_setObject own with ⟨_, value⟩ | ⟨_, own⟩
    · exact absurd value (borrows address)
    · exact owned.there this address own
  alone one two address own own' := by
    rcases value_setObject own with ⟨_, value⟩ | ⟨_, own⟩
    · exact absurd value (borrows address)
    · rcases value_setObject own' with ⟨_, value⟩ | ⟨_, own'⟩
      · exact absurd value (borrows address)
      · exact owned.alone one two address own own'
  fresh := owned.fresh

theorem Owned.setStructure (owned : s.Owned) (below : address < s.fresh) (described : W) :
    (s.setStructure address (some described)).Owned where
  there this other own := by
    change (Function.update s.structures address (some described) other).isSome = true
    by_cases same : other = address
    · rw [same, Function.update_self]
      rfl
    · rw [Function.update_of_ne same]
      exact owned.there this other own
  alone := owned.alone
  fresh other beyond := by
    have beyond : s.fresh ≤ other := beyond
    change Function.update s.structures address (some described) other = none
    rw [Function.update_of_ne (by omega)]
    exact owned.fresh other beyond

theorem Owned.add (owned : s.Owned) (described : W) : (s.add described).Owned where
  there this other own := by
    have below : other < s.fresh := owned.below own
    change (Function.update s.structures s.fresh (some described) other).isSome = true
    rw [Function.update_of_ne (by omega)]
    exact owned.there this other own
  alone := owned.alone
  fresh other beyond := by
    have beyond : s.fresh + 1 ≤ other := beyond
    change Function.update s.structures s.fresh (some described) other = none
    rw [Function.update_of_ne (by omega)]
    exact owned.fresh other (by omega)

theorem Owned.own (owned : s.Owned) (described : W) : (s.own other described).Owned where
  there this address own := by
    rcases value_setObject own with ⟨_, value⟩ | ⟨_, own⟩
    · cases value
      change (Function.update s.structures s.fresh (some described) s.fresh).isSome = true
      rw [Function.update_self]
      rfl
    · exact (owned.add described).there this address own
  alone one two address own own' := by
    rcases value_setObject own with ⟨same, value⟩ | ⟨_, own⟩
    · rcases value_setObject own' with ⟨same', _⟩ | ⟨_, own'⟩
      · rw [same, same']
      · cases value
        exact absurd (owned.below own') (Nat.lt_irrefl _)
    · rcases value_setObject own' with ⟨_, value⟩ | ⟨_, own'⟩
      · cases value
        exact absurd (owned.below own) (Nat.lt_irrefl _)
      · exact owned.alone one two address own own'
  fresh := (owned.add described).fresh

/-- The structure goes with the object that it was the own one of. -/
theorem Owned.drop (owned : s.Owned) (there : s.objects other = some (.value address))
    (borrows : Borrows worker) : ((s.setStructure address none).setObject other worker).Owned where
  there this address' own := by
    rcases value_setObject own with ⟨_, value⟩ | ⟨different, own⟩
    · exact absurd value (borrows address')
    · have apart : address' ≠ address := by
        rintro rfl
        exact different (owned.alone this other address' own there)
      change (Function.update s.structures address none address').isSome = true
      rw [Function.update_of_ne apart]
      exact owned.there this address' own
  alone one two address' own own' := by
    rcases value_setObject own with ⟨_, value⟩ | ⟨_, own⟩
    · exact absurd value (borrows address')
    · rcases value_setObject own' with ⟨_, value⟩ | ⟨_, own'⟩
      · exact absurd value (borrows address')
      · exact owned.alone one two address' own own'
  fresh address' beyond := by
    change Function.update s.structures address none address' = none
    by_cases same : address' = address
    · rw [same, Function.update_self]
    · rw [Function.update_of_ne same]
      exact owned.fresh address' beyond

end Updates

theorem Changes.owned_ (changes : Changes values s action t) (owned : s.Owned) : t.Owned := by
  cases changes with
  | nothing registered => exact ⟨owned.there, owned.alone, owned.fresh⟩
  | @wrote target worker writes there found described registered =>
    have below : worker.address < s.fresh := by
      by_contra beyond
      rw [owned.fresh _ (by omega)] at found
      cases found
    have kept := owned.setStructure below described
    exact ⟨kept.there, kept.alone, kept.fresh⟩
  | assigned replaces there described => exact owned.setStructure (owned.below there) described
  | owned borrowed described => exact owned.own described
  | rebound borrowed borrows => exact owned.setObject borrows
  | dropped replaces there borrows => exact owned.drop there borrows
  | launched described => exact owned.add described

/-- An action that spares an object's own structure leaves it as it is. -/
theorem Changes.kept (changes : Changes values s action t) (owned : s.Owned)
    (own : s.objects this = some (.value address)) (spares : Spares values this address s action) :
    t.objects this = some (.value address) ∧ t.structures address = s.structures address := by
  have below := owned.below own
  cases changes with
  | nothing registered => exact ⟨own, rfl⟩
  | wrote writes there found described registered =>
    exact ⟨own, Function.update_of_ne (spares.written _ _ writes there).symm _ _⟩
  | @assigned target other replaces there described =>
    have apart : address ≠ other := by
      rintro rfl
      exact spares.replaced (replaces.trans (congrArg some (owned.alone _ _ _ there own)))
    exact ⟨own, Function.update_of_ne apart _ _⟩
  | @owned target borrowed described =>
    have different : this ≠ target := by
      rintro rfl
      exact borrowed address own
    exact ⟨(Function.update_of_ne different _ _).trans own,
      Function.update_of_ne (Nat.ne_of_lt below) _ _⟩
  | @rebound target worker borrowed borrows =>
    have different : this ≠ target := by
      rintro rfl
      exact borrowed address own
    exact ⟨(Function.update_of_ne different _ _).trans own, rfl⟩
  | @dropped target other worker replaces there borrows =>
    have different : this ≠ target := by
      rintro rfl
      exact spares.replaced replaces
    have apart : address ≠ other := by
      rintro rfl
      exact different (owned.alone _ _ _ own there)
    exact ⟨(Function.update_of_ne different _ _).trans own, Function.update_of_ne apart _ _⟩
  | launched described => exact ⟨own, Function.update_of_ne (Nat.ne_of_lt below) _ _⟩

theorem owned_of_run {taken : List SpecificationAction}
    (reached : run (step values myProcPid) none_ taken = some s) : s.Owned := by
  have kept (t : Specifications W) (action : SpecificationAction) (u : Specifications W)
      (owned : t.Owned) (_ : True) (taking : step values myProcPid t action = some u) :
      u.Owned := by
    obtain ⟨⟨outcome, _⟩, ran, rfl⟩ := Option.map_eq_some_iff.mp taking
    exact (changes_of_exec owned ran).owned_ owned
  exact inv_of_meets kept .none_ (meets_of_forall fun _ _ _ => trivial) reached

theorem kept_of_run {actions : List SpecificationAction} (owned : s.Owned)
    (own : s.objects this = some (.value address))
    (spares : Meets (step values myProcPid) (Spares values this address) s actions)
    (later : run (step values myProcPid) s actions = some t) :
    t.objects this = some (.value address) ∧ t.structures address = s.structures address := by
  let Inv (u : Specifications W) : Prop := u.Owned ∧ u.objects this = some (.value address) ∧
    u.structures address = s.structures address
  have kept (u : Specifications W) (action : SpecificationAction) (v : Specifications W)
      (inv : Inv u) (spared : Spares values this address u action)
      (taking : step values myProcPid u action = some v) : Inv v := by
    obtain ⟨owned, own, same⟩ := inv
    obtain ⟨⟨outcome, _⟩, ran, rfl⟩ := Option.map_eq_some_iff.mp taking
    have changes := changes_of_exec owned ran
    obtain ⟨own, still⟩ := changes.kept owned own spared
    exact ⟨changes.owned_ owned, own, still.trans same⟩
  have first : Inv s := ⟨owned, own, rfl⟩
  have last : Inv t := inv_of_meets kept first spares later
  exact last.2

variable (values myProcPid) in
/-- What is read through an object of a structure. -/
theorem exec_read {worker : MaybeRef} {described : W} (there : s.objects this = some worker)
    (found : s.structures worker.address = some described) :
    (∀ text, s.exec values myProcPid (.text this text) =
        some (.text (values.text text described), s)) ∧
      ∀ field, s.exec values myProcPid (.number this field) =
        some (.number (values.number field described), s) := by
  constructor <;> intro field <;> simp [exec, onStructure, there, found]

end Own

end Specifications

/-! ## What the functions of background_worker do -/

/-- What a structure says. -/
def BackgroundWorker.record (worker : BackgroundWorker layout) : WorkerRecord layout where
  texts text := (worker.chars text).text
  numbers := worker.numbers

/-- The type of a worker that Postgres has checked: a name is never cut for it. -/
theorem type_checked (worker : WorkerRecord layout) :
    (((workerRecords layout).checked worker).texts .bgwType).bytes =
      if (worker.texts .bgwType).bytes = [] then (worker.texts .bgwName).bytes
      else (worker.texts .bgwType).bytes := by
  unfold WorkerValues.checked
  change (WorkerRecord.texts (if (worker.texts .bgwType).bytes = [] then _ else _) .bgwType).bytes = _
  split
  · change (Function.update worker.texts .bgwType _ .bgwType).bytes = _
    rw [Function.update_self]
    exact CText.cut_bytes (layout.positive .bgwType) (worker.texts .bgwName) layout.typeHoldsName
  · rfl

namespace Specifications

/-- What two states answer to the getters of an object. -/
def SameReads (layout : WorkerLayout) (myProcPid : Int) (this : Nat)
    (s t : Specifications (BackgroundWorker layout)) : Prop :=
  (∀ text, ∃ bytes,
    s.exec (workerStructures layout) myProcPid (.text this text) = some (.text bytes, s) ∧
      t.exec (workerStructures layout) myProcPid (.text this text) = some (.text bytes, t)) ∧
  ∀ field, ∃ number,
    s.exec (workerStructures layout) myProcPid (.number this field) = some (.number number, s) ∧
      t.exec (workerStructures layout) myProcPid (.number this field) = some (.number number, t)

/-- An object with a structure of its own says what it said, whatever is done to its copies, to
references and to the workers that were started with it. -/
theorem ownSpecification_kept (layout : WorkerLayout) (myProcPid : Int)
    {taken actions : List SpecificationAction} {s t : Specifications (BackgroundWorker layout)}
    {this address : Nat}
    (reached : run (step (workerStructures layout) myProcPid) none_ taken = some s)
    (own : s.objects this = some (.value address))
    (spares : Meets (step (workerStructures layout) myProcPid)
      (Spares (workerStructures layout) this address) s actions)
    (later : run (step (workerStructures layout) myProcPid) s actions = some t) :
    SameReads layout myProcPid this s t := by
  have owned := owned_of_run reached
  obtain ⟨described, found⟩ := Option.isSome_iff_exists.mp (owned.there this address own)
  obtain ⟨own', same⟩ := kept_of_run owned own spares later
  have before := exec_read (workerStructures layout) myProcPid own found
  have after := exec_read (workerStructures layout) myProcPid own' (same.trans found)
  exact ⟨fun text => ⟨_, before.1 text, after.1 text⟩,
    fun field => ⟨_, before.2 field, after.2 field⟩⟩

/-- Arrays as Postgres has them. -/
def bgwLayout : WorkerLayout where
  size
    | .bgwLibraryName => 1024
    | .bgwExtra => 128
    | _ => 96
  positive text := by cases text <;> decide
  typeHoldsName := by decide

def namedWorker : List SpecificationAction := [.construct 0, .setText 0 .bgwName [0x61]]

/-- A copy of that worker is named `b` and started. -/
def renamedCopy : List SpecificationAction :=
  [.copy 1 0, .setText 1 .bgwName [0x62], .start 1 .taken, .launch 0, .address 1, .refer 2 1,
    .setNumber 2 .bgwFlags 3, .destroy 1]

/-- The worker itself is still named `a`. -/
theorem namedWorker_kept :
    ∃ s t, run (step (workerStructures bgwLayout) 7) none_ namedWorker = some s ∧
      run (step (workerStructures bgwLayout) 7) s renamedCopy = some t ∧
      s.exec (workerStructures bgwLayout) 7 (.text 0 .bgwName) = some (.text [0x61], s) ∧
      SameReads bgwLayout 7 0 s t := by
  refine ⟨_, _, rfl, rfl, rfl, ?_⟩
  exact @ownSpecification_kept bgwLayout 7 namedWorker renamedCopy _ _ 0 0 rfl rfl
    (by decide +kernel) rfl

end Specifications

end Cppgres
