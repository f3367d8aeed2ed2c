import Cppgres.Postgres.VarlenaHeader
import Cppgres.Record.Descriptors

/-!
# The length of a tuple

`record(HeapTupleHeader, abstract_memory_context &)` makes a `HeapTuple` of a composite datum. Reading
an attribute does not ask for the length of the tuple, copying the tuple does. Here a datum is its
bytes, and `Cppgres.CompositeDatum.whole_iff` says when copies have all of them.
-/
namespace Cppgres
open Bytes

/-! ## Attributes of a tuple, from its bytes -/

/-- Bytes of the image, if it has them. -/
def slice (image : List Byte) (offset length : Nat) : Option (List Byte) :=
  if offset + length ≤ image.length then some ((image.drop offset).take length) else none

/-- A number in the image. -/
def numberAt (image : List Byte) (offset length : Nat) : Option Nat :=
  (slice image offset length).map combine

/-- The alignment that `attalign` stands for. -/
def alignmentOf (attalign : Char) : Nat :=
  if attalign = 'c' then 1 else if attalign = 's' then 2 else if attalign = 'i' then 4 else 8

/-- `TYPEALIGN` -/
def typealign (alignment offset : Nat) : Nat := (offset + alignment - 1) / alignment * alignment

/-- `att_align_pointer`. A value with a short header, which is no padding byte, is not aligned. -/
def attAlignPointer (image : List Byte) (att : FormPgAttribute) (offset : Nat) : Option Nat := do
  let aligned := typealign (alignmentOf att.attalign) offset
  if att.attlen = -1 then
    let header ← numberAt image offset 1
    some (if header = 0 then aligned else offset)
  else some aligned

/-- The length of the value at an offset, as `att_addlength_pointer` adds it. -/
def attLength (image : List Byte) (att : FormPgAttribute) (offset : Nat) : Option Nat :=
  if 0 < att.attlen then some att.attlen.toNat
  else if att.attlen = -1 then varsizeAny (image.drop offset)
  else
    -- `strlen`, and the byte that ends it
    let bytes := image.drop offset
    (bytes.findIdx? (· = 0)).map (· + 1)

/-- `att_isnull`, on the bitmap of a tuple that has one. -/
def attIsnull (image : List Byte) (hasnull : Bool) (index : Nat) : Option Bool :=
  if hasnull then (numberAt image (23 + index / 8) 1).map fun bits => !(bits.testBit (index % 8))
  else some false

/-- The values from an attribute on, in a tuple that has `natts` of them. One that it does not have
is null. -/
def readAttributes (image : List Byte) (natts : Nat) (hasnull : Bool) :
    List FormPgAttribute → Nat → Nat → Option (List (Option (List Byte)))
  | [], _, _ => some []
  | att :: attrs, index, offset =>
    if natts ≤ index then do
      let rest ← readAttributes image natts hasnull attrs (index + 1) offset
      some (none :: rest)
    else do
      let isnull ← attIsnull image hasnull index
      if isnull then
        let rest ← readAttributes image natts hasnull attrs (index + 1) offset
        some (none :: rest)
      else
        let start ← attAlignPointer image att offset
        let length ← attLength image att start
        let value ← slice image start length
        let rest ← readAttributes image natts hasnull attrs (index + 1) (start + length)
        some (some value :: rest)

/-- All attributes, as `heap_getattr` finds them: `t_infomask2`, `t_infomask` and `t_hoff` of the
header tell how many there are, whether there is a bitmap, and where the values begin. -/
def attributesOf (image : List Byte) (attrs : List FormPgAttribute) :
    Option (List (Option (List Byte))) := do
  let infomask2 ← numberAt image 18 2
  let infomask ← numberAt image 20 2
  let hoff ← numberAt image 22 1
  readAttributes image (infomask2 % 0x0800) (decide (infomask % 2 = 1)) attrs 0 hoff

/-! ## The record -/

/-- `HeapTupleHeaderGetDatumLength` as a macro, whatever the pointer is to. -/
def datumLengthAt (image : List Byte) : Nat := (varsize4b image).getD 0

/-- The bytes of a composite datum. Its header counts them, and the values are behind the header. -/
structure CompositeDatum where
  bytes : List Byte
  counted : varsize4b bytes = some bytes.length
  hoff : Nat
  behind : numberAt bytes 22 1 = some hoff
  header : 23 ≤ hoff

namespace CompositeDatum

/-- `HeapTupleHeaderGetTypeId` and `HeapTupleHeaderGetTypMod` -/
def typeId (datum : CompositeDatum) : Nat := (numberAt datum.bytes 8 4).getD 0
def typMod (datum : CompositeDatum) : Nat := (numberAt datum.bytes 4 4).getD 0

/-- `HeapTupleData`. What `t_data` points to is a composite datum. -/
structure Tuple where
  tLen : Nat
  tData : CompositeDatum

/-- The type cache, and the other failures of the constructor. The number of attributes is an
`int`. -/
structure Lookups where
  lookupRowtypeTupdescCopy : Nat → Nat → Except String TupleDescData
  allocFails : Option String
  natts : ∀ typeId typMod desc, lookupRowtypeTupdescCopy typeId typMod = .ok desc →
    desc.attrs.length < 0x80000000

/-- The first word of a `TupleDesc`: `natts`. -/
def tupleDescImage (desc : TupleDescData) : List Byte := split 4 desc.attrs.length

/-- `record(HeapTupleHeader heap_tuple, abstract_memory_context &ctx)` -/
def record (lookups : Lookups) (pgMajorversionNum : Nat) (heapTuple : CompositeDatum) :
    Except String (TupleDescData × Tuple) := do
  let tupdesc ← lookups.lookupRowtypeTupdescCopy heapTuple.typeId heapTuple.typMod
  match lookups.allocFails with
  | some what => .error what
  | none =>
    let tLen :=
      if pgMajorversionNum < 18 then datumLengthAt (tupleDescImage tupdesc)
      else datumLengthAt heapTuple.bytes
    .ok (tupdesc, { tLen, tData := heapTuple })

/-! ## Consumers -/

/-- `heap_copy_tuple_as_datum`: `t_len` bytes, in which the length, the typmod and the type are then
set. -/
def heapCopyTupleAsDatum (tuple : Tuple) (typMod typeId : Nat) : Option (List Byte) := do
  let copy ← slice tuple.tData.bytes 0 tuple.tLen
  some (split 4 (setVarsizeWord tuple.tLen) ++ split 4 typMod ++ split 4 typeId ++ copy.drop 12)

/-- `MINIMAL_TUPLE_OFFSET` -/
def minimalTupleOffset : Nat := 8

/-- `tuplestore_puttuple` keeps a minimal tuple: the bytes from an offset on, of which the first four
become its length. It is read again as a tuple that begins at the offset before it, where there may
be anything. A length up to the offset comes to a size that is no size. -/
def tuplestorePuttuple (tuple : Tuple) (before : List Byte) : Option (List Byte) :=
  if tuple.tLen ≤ minimalTupleOffset then none
  else do
    let length := tuple.tLen - minimalTupleOffset
    let copy ← slice tuple.tData.bytes minimalTupleOffset length
    some (before ++ split 4 length ++ copy.drop 4)

/-! ## What is asked of the record -/

/-- Copies of the tuple have the attributes that the datum has. -/
structure Reproduces (tuple : Tuple) : Prop where
  datum : ∀ typMod typeId, ∃ copy, heapCopyTupleAsDatum tuple typMod typeId = some copy ∧
    ∀ attrs, attributesOf copy attrs = attributesOf tuple.tData.bytes attrs
  minimal : ∀ before, before.length = minimalTupleOffset →
    ∃ copy, tuplestorePuttuple tuple before = some copy ∧
      ∀ attrs, attributesOf copy attrs = attributesOf tuple.tData.bytes attrs

/-- The tuple is of the datum, as long as the datum says, and copies of it have all attributes. -/
structure Whole (datum : CompositeDatum) (tuple : Tuple) : Prop where
  tData : tuple.tData = datum
  tLen : tuple.tLen = datumLengthAt datum.bytes
  reproduces : Reproduces tuple

/-- What a record of the datum is to be, if there is one. -/
def Described (lookups : Lookups) (pgMajorversionNum : Nat) (datum : CompositeDatum) : Prop :=
  ∀ tupdesc tuple, record lookups pgMajorversionNum datum = .ok (tupdesc, tuple) →
    datum.Whole tuple

end CompositeDatum

/-! ## Reading depends on the bytes behind the header only -/

section Agree
variable {one two : List Byte} {offset length : Nat} {att : FormPgAttribute}

/-- Two images of one length that are the same from `t_infomask2` on. -/
structure Agree (one two : List Byte) : Prop where
  length : one.length = two.length
  behind : one.drop 18 = two.drop 18

theorem Agree.drop (agree : Agree one two) (behind : 18 ≤ offset) :
    one.drop offset = two.drop offset := by
  have split : offset = 18 + (offset - 18) := by omega
  rw [split, ← List.drop_drop, ← List.drop_drop, agree.behind]

theorem Agree.slice (agree : Agree one two) (behind : 18 ≤ offset) :
    slice one offset length = slice two offset length := by
  unfold Cppgres.slice
  rw [agree.length, agree.drop behind]

theorem Agree.numberAt (agree : Agree one two) (behind : 18 ≤ offset) :
    numberAt one offset length = numberAt two offset length := by
  unfold Cppgres.numberAt
  rw [agree.slice behind]

theorem le_typealign (attalign : Char) (offset : Nat) :
    offset ≤ typealign (alignmentOf attalign) offset := by
  unfold typealign alignmentOf
  split
  · omega
  · split
    · omega
    · split <;> omega

theorem Agree.attAlignPointer (agree : Agree one two) (behind : 18 ≤ offset) :
    attAlignPointer one att offset = attAlignPointer two att offset := by
  unfold Cppgres.attAlignPointer
  rw [agree.numberAt behind]

theorem le_attAlignPointer {start : Nat} (found : attAlignPointer one att offset = some start) :
    offset ≤ start := by
  unfold Cppgres.attAlignPointer at found
  by_cases varlena : att.attlen = -1
  · rw [if_pos varlena] at found
    obtain ⟨header, _, same⟩ := Option.bind_eq_some_iff.mp found
    cases same
    split
    · exact le_typealign att.attalign offset
    · exact Nat.le_refl offset
  · rw [if_neg varlena] at found
    cases found
    exact le_typealign att.attalign offset

theorem Agree.attLength (agree : Agree one two) (behind : 18 ≤ offset) :
    attLength one att offset = attLength two att offset := by
  unfold Cppgres.attLength
  rw [agree.drop behind]

theorem Agree.attIsnull (agree : Agree one two) (hasnull : Bool) (index : Nat) :
    attIsnull one hasnull index = attIsnull two hasnull index := by
  unfold Cppgres.attIsnull
  rw [agree.numberAt (by omega)]

/-- Attribute by attribute, the values are at the same places and the same. -/
theorem Agree.readAttributes (agree : Agree one two) {natts : Nat} {hasnull : Bool}
    (attrs : List FormPgAttribute) (index : Nat) (behind : 18 ≤ offset) :
    readAttributes one natts hasnull attrs index offset =
      readAttributes two natts hasnull attrs index offset := by
  induction attrs generalizing index offset with
  | nil => rfl
  | cons att attrs ih =>
    unfold Cppgres.readAttributes
    by_cases beyond : natts ≤ index
    · rw [if_pos beyond, if_pos beyond, ih (index + 1) behind]
    · rw [if_neg beyond, if_neg beyond, agree.attIsnull]
      cases null : Cppgres.attIsnull two hasnull index with
      | none => rfl
      | some isnull =>
        cases isnull with
        | true => simp [ih (index + 1) behind]
        | false =>
          simp only [Option.bind_eq_bind, Option.bind_some, Bool.false_eq_true, if_false]
          rw [agree.attAlignPointer behind]
          cases found : Cppgres.attAlignPointer two att offset with
          | none => rfl
          | some start =>
            have later : 18 ≤ start := Nat.le_trans behind (le_attAlignPointer found)
            simp only [Option.bind_some]
            rw [agree.attLength later]
            cases Cppgres.attLength two att start with
            | none => rfl
            | some length =>
              have behindToo : 18 ≤ start + length := by omega
              have rest := ih (index + 1) behindToo
              simp only [Option.bind_some, agree.slice later, rest]

theorem Agree.attributesOf (agree : Agree one two) {hoff : Nat}
    (found : Cppgres.numberAt two 22 1 = some hoff) (header : 23 ≤ hoff)
    (attrs : List FormPgAttribute) : attributesOf one attrs = attributesOf two attrs := by
  have begin_ : 18 ≤ hoff := by omega
  unfold Cppgres.attributesOf
  rw [agree.numberAt (by omega), agree.numberAt (by omega), agree.numberAt (by omega), found]
  simp only [Option.bind_eq_bind, Option.bind_some, agree.readAttributes attrs 0 begin_]

end Agree

namespace CompositeDatum
variable {datum : CompositeDatum} {lookups : Lookups} {pgMajorversionNum : Nat}

theorem header_length : 23 ≤ datum.bytes.length := by
  have behind := datum.behind
  unfold numberAt slice at behind
  by_contra short
  rw [if_neg (by omega)] at behind
  cases behind

theorem datumLengthAt_bytes : datumLengthAt datum.bytes = datum.bytes.length := by
  rw [datumLengthAt, datum.counted, Option.getD_some]

/-- Copies of as many bytes as the datum has. -/
theorem reproduces_of_length {tuple : Tuple} (length : tuple.tLen = tuple.tData.bytes.length) :
    Reproduces tuple := by
  have header := tuple.tData.header_length
  constructor
  · intro typMod typeId
    have copied : slice tuple.tData.bytes 0 tuple.tLen = some tuple.tData.bytes := by
      simp [slice, length]
    refine ⟨_, by simp only [heapCopyTupleAsDatum, copied]; rfl, fun attrs => ?_⟩
    apply Agree.attributesOf _ tuple.tData.behind tuple.tData.header
    constructor
    · simp
      omega
    · simp [List.drop_append, drop_split]
  · intro before placed
    have past : ¬ tuple.tLen ≤ minimalTupleOffset := by
      unfold minimalTupleOffset
      omega
    have copied : slice tuple.tData.bytes minimalTupleOffset (tuple.tLen - minimalTupleOffset) =
        some (tuple.tData.bytes.drop minimalTupleOffset) := by
      unfold slice minimalTupleOffset
      rw [if_pos (by omega), length, List.take_of_length_le (by simp)]
    refine ⟨_, by simp only [tuplestorePuttuple, if_neg past, copied]; rfl, fun attrs => ?_⟩
    apply Agree.attributesOf _ tuple.tData.behind tuple.tData.header
    unfold minimalTupleOffset at placed ⊢
    constructor
    · simp [placed]
      omega
    · have nothing : before.drop 18 = [] := List.drop_eq_nil_of_le (by omega)
      simp [List.drop_append, placed, drop_split, nothing]

/-- A tuple of the datum is whole if and only if it is as long as the datum. -/
theorem whole_iff_length {tuple : Tuple} (same : tuple.tData = datum) :
    datum.Whole tuple ↔ tuple.tLen = datum.bytes.length := by
  constructor
  · intro whole
    rw [whole.tLen, datumLengthAt_bytes]
  · intro length
    refine ⟨same, ?_, ?_⟩
    · rw [length, datumLengthAt_bytes]
    · apply reproduces_of_length
      rw [length, same]

/-- Read as a length, the number of attributes is divided by four. -/
theorem datumLengthAt_tupleDesc {desc : TupleDescData} (int : desc.attrs.length < 0x80000000) :
    datumLengthAt (tupleDescImage desc) = desc.attrs.length / 4 := by
  have word : word32 (tupleDescImage desc) = some (desc.attrs.length % 0x100000000) := by
    have read := word32_split desc.attrs.length []
    rwa [List.append_nil] at read
  rw [datumLengthAt, varsize4b, word, Option.map_some, Option.getD_some]
  omega

/-- A record describes the whole tuple if and only if the server is of version 18 or later, or a
fourth of the number of attributes happens to be the length of the datum, or there is no record. -/
theorem whole_iff (lookups : Lookups) (pgMajorversionNum : Nat) (datum : CompositeDatum) :
    Described lookups pgMajorversionNum datum ↔
      (18 ≤ pgMajorversionNum ∨ lookups.allocFails.isSome ∨
        ∀ desc, lookups.lookupRowtypeTupdescCopy datum.typeId datum.typMod = .ok desc →
          desc.attrs.length / 4 = datum.bytes.length) := by
  unfold Described record
  cases found : lookups.lookupRowtypeTupdescCopy datum.typeId datum.typMod with
  | error what => simp [bind, Except.bind]
  | ok desc =>
    have int := lookups.natts _ _ desc found
    cases fails : lookups.allocFails with
    | some what => simp [bind, Except.bind]
    | none =>
      by_cases new : pgMajorversionNum < 18
      · have old : ¬ 18 ≤ pgMajorversionNum := Nat.not_le.mpr new
        simp [bind, Except.bind, new, old, whole_iff_length, datumLengthAt_tupleDesc int]
      · have recent : 18 ≤ pgMajorversionNum := Nat.not_lt.mp new
        simp [bind, Except.bind, new, recent, whole_iff_length, datumLengthAt_bytes]

/-- One attribute of eight bytes, with the value 7. -/
def word : FormPgAttribute := ⟨"", int8Oid, 0, 8, 'p', 'd', -1, true, false, -1⟩

def wordDatum : CompositeDatum where
  bytes := split 4 (setVarsizeWord 32) ++ split 4 0xffffffff ++ split 4 recordOid ++ split 6 0 ++
    split 2 1 ++ split 2 0 ++ split 1 24 ++ split 1 0 ++ split 8 7
  counted := by decide +kernel
  hoff := 24
  behind := by decide +kernel
  header := by decide

def wordLookups : Lookups where
  lookupRowtypeTupdescCopy _ _ := .ok ⟨recordOid, 0, [word], true⟩
  allocFails := none
  natts typeId typMod desc found := by
    cases found
    decide

/-- Before version 18 its record has a length of 0, and a copy of no bytes has no attribute. -/
theorem wordDatum_lost :
    (record wordLookups 17 wordDatum).map (·.2.tLen) = .ok 0 ∧
      attributesOf wordDatum.bytes [word] = some [some (split 8 7)] ∧
      (heapCopyTupleAsDatum ⟨0, wordDatum⟩ 0 recordOid).bind (attributesOf · [word]) = none ∧
      ¬ Described wordLookups 17 wordDatum := by
  refine ⟨by decide +kernel, by decide +kernel, by decide +kernel, fun described => ?_⟩
  have whole := described ⟨recordOid, 0, [word], true⟩ ⟨0, wordDatum⟩ rfl
  have length := whole.tLen
  revert length
  decide +kernel

end CompositeDatum
end Cppgres
