import Cppgres.Datum.VarlenaImages
import Cppgres.Lldb.VarlenaPrinter
import Mathlib.Data.List.TakeDrop

/-!
# What the printer says of a value

The formats of Postgres on a little-endian machine as values of a type, their bytes, and what a report
of one of them is to say. The printer takes the fourth byte of memory for the first one, so that its
report is right for some values only.
-/
namespace Cppgres
open Bytes

/-- `varatt_external` -/
structure VarattExternal where
  vaRawsize : BitVec 32
  vaExtinfo : BitVec 32
  vaValueid : BitVec 32
  vaToastrelid : BitVec 32
  deriving DecidableEq, Repr

inductive ToastPointer where
  | indirect (pointer : BitVec 64)
  | expanded (readOnly : Bool) (eohptr : BitVec 64)
  | ondisk (external : VarattExternal)
  deriving DecidableEq, Repr

namespace ToastPointer

def tag : ToastPointer → Nat
  | .indirect _ => vartagIndirect
  | .expanded readOnly _ => if readOnly then vartagExpandedRo else vartagExpandedRw
  | .ondisk _ => vartagOndisk

def data : ToastPointer → List Byte
  | .indirect pointer => split 8 pointer.toNat
  | .expanded _ eohptr => split 8 eohptr.toNat
  | .ondisk external =>
    split 4 external.vaRawsize.toNat ++ (split 4 external.vaExtinfo.toNat ++
      (split 4 external.vaValueid.toNat ++ split 4 external.vaToastrelid.toNat))

end ToastPointer

/-- A value in one of the formats. Each length fits into its header. -/
inductive EncodedVarlena where
  | plain (payload : List Byte) (fits : varhdrsz + payload.length < 0x40000000)
  | compressed (tcinfo : BitVec 32) (payload : List Byte) (fits : 8 + payload.length < 0x40000000)
  | short (payload : List Byte) (fits : 1 + payload.length < 0x80)
  | external (pointer : ToastPointer)

namespace EncodedVarlena

def kind : EncodedVarlena → VarlenaKind
  | .plain .. => .normal
  | .compressed .. => .compressed
  | .short .. => .short
  | .external pointer => .external pointer.tag

/-- The bytes in memory. -/
def image : EncodedVarlena → List Byte
  | .plain payload _ => split 4 (setVarsizeWord (varhdrsz + payload.length)) ++ payload
  | .compressed tcinfo payload _ =>
    split 4 (4 * (8 + payload.length) + 2) ++ (split 4 tcinfo.toNat ++ payload)
  | .short payload _ => split 1 (2 * (1 + payload.length) + 1) ++ payload
  | .external pointer => 1 :: BitVec.ofNat 8 pointer.tag :: pointer.data

end EncodedVarlena

/-- The bytes are in memory from an address on. -/
def Stored (process : DebuggedMemory) (addr : Nat) (bytes : List Byte) : Prop :=
  ∀ i byte, bytes[i]? = some byte → process (addr + i) = some byte

/-- A value in the memory of a process, with anything behind it. -/
structure StoredVarlena where
  process : DebuggedMemory
  addr : Nat
  value : EncodedVarlena
  stored : Stored process addr value.image

/-! ## Reports -/

def VarlenaLine.kind? : VarlenaLine → Option VarlenaKind
  | .type kind => some kind
  | _ => none

def VarlenaLine.length? : VarlenaLine → Option Nat
  | .totalLength length => some length
  | _ => none

def VarlenaLine.shown : VarlenaLine → List Byte
  | .print line => line.shown
  | _ => []

def kindsOf (lines : List VarlenaLine) : List VarlenaKind := lines.filterMap VarlenaLine.kind?
def lengthsOf (lines : List VarlenaLine) : List Nat := lines.filterMap VarlenaLine.length?
def shownOf (lines : List VarlenaLine) : List Byte := lines.flatMap VarlenaLine.shown

/-- What a pointer to a value elsewhere holds. Its own length is that of its tag. -/
def ToastPointer.Reported : ToastPointer → List VarlenaLine → Prop
  | .indirect pointer, lines => .pointsToVarlenaAt pointer.toNat ∈ lines
  | .expanded readOnly eohptr, lines =>
    .expandedObject readOnly ∈ lines ∧ .expandedObjectHeaderAt eohptr.toNat ∈ lines
  | .ondisk external, lines =>
    .rawSize external.vaRawsize.toNat ∈ lines ∧
      .externalSize (extsize external.vaExtinfo.toNat) ∈ lines ∧
      .valueId external.vaValueid.toNat ∈ lines ∧
      .toastRelationOid external.vaToastrelid.toNat ∈ lines ∧
      (extsize external.vaExtinfo.toNat + 4 < external.vaRawsize.toNat →
        .compressionMethod (compressMethod external.vaExtinfo.toNat) ∈ lines)

/-- The total length and the bytes behind the header. -/
def EncodedVarlena.Reported : EncodedVarlena → List VarlenaLine → Prop
  | .plain payload _, lines => lengthsOf lines = [varhdrsz + payload.length] ∧ shownOf lines = payload
  | .compressed _ payload _, lines => lengthsOf lines = [8 + payload.length] ∧ shownOf lines = payload
  | .short payload _, lines => lengthsOf lines = [1 + payload.length] ∧ shownOf lines = payload
  | .external pointer, lines => pointer.Reported lines

/-- The printer says of which kind the value is, how long it is and what is in it. -/
structure EncodedVarlena.Decoded (value : EncodedVarlena) (printed : PrintedVarlena) : Prop where
  noError : printed.raised = none
  kind : kindsOf printed.lines = [value.kind]
  reported : value.Reported printed.lines

/-- The byte that is taken for the header says what the first one does, the data is not longer than what
is printed of it, and no pointer is followed. -/
def StoredVarlena.Legible (printable : Char → Bool) (v : StoredVarlena) : Prop :=
  match v.value with
  | .plain payload _ =>
    (∃ header, headerByte v.process v.addr = some header ∧ header % 2 = 0) ∧
      payload.length ≤ 1024 ∧ ¬ CutShort printable payload
  | .compressed _ payload _ =>
    (∃ header, headerByte v.process v.addr = some header ∧ header % 2 = 0) ∧ payload.length ≤ 64
  | .short payload _ =>
    (∃ header, headerByte v.process v.addr = some header ∧ header % 2 = 1 ∧ header ≠ 1) ∧
      ¬ CutShort printable payload
  | .external (.indirect _) => False
  | .external _ => headerByte v.process v.addr = some 1

/-! ## Reads -/

section Reads
variable {process : DebuggedMemory} {addr : Nat} {bytes : List Byte}

theorem Stored.tail {byte : Byte} (stored : Stored process addr (byte :: bytes)) :
    Stored process (addr + 1) bytes := by
  intro i other found
  have there := stored (i + 1) other (by rwa [List.getElem?_cons_succ])
  rwa [Nat.add_right_comm]

theorem Stored.drop (stored : Stored process addr bytes) (past : Nat) :
    Stored process (addr + past) (bytes.drop past) := by
  intro i byte found
  rw [List.getElem?_drop] at found
  rw [Nat.add_assoc]
  exact stored (past + i) byte found

theorem Stored.read (stored : Stored process addr bytes) {length : Nat} (within : length ≤ bytes.length) :
    readMemory process addr length = some (bytes.take length) := by
  induction length generalizing addr bytes with
  | zero => rfl
  | succ length ih =>
    cases bytes with
    | nil => cases within
    | cons byte bytes =>
      have first : process addr = some byte := stored 0 byte rfl
      unfold readMemory
      rw [first, ih stored.tail (Nat.le_of_succ_le_succ within)]
      rfl

/-- A read behind a header. -/
theorem Stored.read_behind {header rest : List Byte} (stored : Stored process addr (header ++ rest))
    {past length : Nat} (placed : header.length = past) (within : length ≤ rest.length) :
    readMemory process (addr + past) length = some (rest.take length) := by
  have behind := stored.drop past
  rw [List.drop_left' placed] at behind
  exact behind.read within

/-- A read of what is behind a header, up to a limit. -/
theorem Stored.read_beginning {header rest : List Byte}
    (stored : Stored process addr (header ++ rest)) {past : Nat} (placed : header.length = past)
    (limit : Nat) :
    readMemory process (addr + past) (min rest.length limit) = some (rest.take limit) := by
  rw [stored.read_behind placed (Nat.min_le_left _ _), Nat.min_comm, ← List.take_take,
    List.take_length]

theorem Stored.read_header {header rest : List Byte} (stored : Stored process addr (header ++ rest))
    {length : Nat} (placed : header.length = length) :
    readMemory process addr length = some header := by
  have within : length ≤ (header ++ rest).length := by
    rw [List.length_append]
    omega
  have all := stored.read within
  rwa [List.take_left' placed] at all

end Reads

/-! ## Which decoder runs -/

section Classes
variable {printable : Char → Bool} {process : DebuggedMemory} {addr header : Nat}
  {kind : VarlenaKind} {lines : List DataLine}

@[simp] theorem kindsOf_print : kindsOf (lines.map .print) = [] := by
  simp [kindsOf, List.filterMap_map, Function.comp_def, VarlenaLine.kind?]

@[simp] theorem lengthsOf_print : lengthsOf (lines.map .print) = [] := by
  simp [lengthsOf, List.filterMap_map, Function.comp_def, VarlenaLine.length?]

@[simp] theorem shownOf_print : shownOf (lines.map .print) = lines.flatMap DataLine.shown := by
  simp [shownOf, List.flatMap_map, VarlenaLine.shown]

theorem mem_kindsOf {lines : List VarlenaLine} : kind ∈ kindsOf lines ↔ .type kind ∈ lines := by
  unfold kindsOf
  rw [List.mem_filterMap]
  constructor
  · rintro ⟨line, there, found⟩
    cases line with
    | type other =>
      cases found
      exact there
    | _ => cases found
  · exact fun there => ⟨_, there, rfl⟩

theorem kind_decode4byte (member : .type kind ∈ (decode4byteVarlena printable process addr).lines) :
    kind = .normal ∨ kind = .compressed := by
  unfold decode4byteVarlena Printed.after Printed.done Printed.map at member
  grind

theorem kind_decode1byte (member : .type kind ∈ (decode1byteVarlena printable process addr).lines) :
    kind = .short := by
  unfold decode1byteVarlena Printed.after Printed.done Printed.map at member
  grind

theorem kind_decodeExternal (member : .type kind ∈ (decodeExternalVarlena process addr).lines) :
    ∃ tag, kind = .external tag := by
  unfold decodeExternalVarlena decodeOndiskToast decodeIndirectToast decodeExpandedToast
    Printed.after Printed.done at member
  grind

/-- The header that is needed for a report of a kind. -/
def VarlenaKind.HeaderOf : VarlenaKind → Nat → Prop
  | .normal, header => header % 2 = 0
  | .compressed, header => header % 2 = 0
  | .short, header => header % 2 = 1 ∧ header ≠ 1
  | .external _, header => header = 1

/-- A report of a kind is made by the decoder that the header byte selects. -/
theorem header_of_kind
    (reported : kindsOf (decodeVarlenaAtAddress printable process addr).lines = [kind]) :
    ∃ header, headerByte process addr = some header ∧ kind.HeaderOf header := by
  have member : .type kind ∈ (decodeVarlenaAtAddress printable process addr).lines := by
    apply mem_kindsOf.mp
    rw [reported]
    exact List.mem_singleton_self _
  unfold decodeVarlenaAtAddress at member
  cases found : headerByte process addr with
  | none =>
    rw [found] at member
    simp [Printed.done] at member
  | some header =>
    refine ⟨header, rfl, ?_⟩
    rw [found] at member
    simp only [Printed.after, List.mem_append, List.mem_singleton, reduceCtorEq,
      false_or] at member
    split at member
    · rename_i even
      cases kind_decode4byte member with
      | inl same =>
        rw [same]
        exact even
      | inr same =>
        rw [same]
        exact even
    · split at member
      · rename_i one
        obtain ⟨tag, same⟩ := kind_decodeExternal member
        rw [same]
        exact one
      · split at member
        · rename_i other odd
          rw [kind_decode1byte member]
          exact ⟨odd, other⟩
        · simp [Printed.done] at member

/-! The reports, by the header byte. -/

theorem decode_even (found : headerByte process addr = some header) (even : header % 2 = 0) :
    decodeVarlenaAtAddress printable process addr =
      .after [.varlenaAt addr] (decode4byteVarlena printable process addr) := by
  unfold decodeVarlenaAtAddress
  rw [found]
  dsimp only
  rw [if_pos even]

theorem decode_odd (found : headerByte process addr = some header) (odd : header % 2 = 1)
    (other : header ≠ 1) :
    decodeVarlenaAtAddress printable process addr =
      .after [.varlenaAt addr] (decode1byteVarlena printable process addr) := by
  unfold decodeVarlenaAtAddress
  rw [found]
  dsimp only
  rw [if_neg (by omega), if_neg other, if_pos odd]

theorem decode_one (found : headerByte process addr = some 1) :
    decodeVarlenaAtAddress printable process addr =
      .after [.varlenaAt addr] (decodeExternalVarlena process addr) := by
  unfold decodeVarlenaAtAddress
  rw [found]
  rfl

end Classes

/-! ## The decoders on the formats -/

section Formats
variable {printable : Char → Bool} {process : DebuggedMemory} {addr : Nat} {payload : List Byte}

/-- Data that is there is printed up to a limit. -/
def printedData (printable : Char → Bool) (payload : List Byte) : List VarlenaLine :=
  if 0 < payload.length then
    .data payload.length ::
      (printVarlenaData printable (payload.take 1024) payload.length).lines.map .print
  else []

/-- No error ends it. -/
theorem print_payload (printable : Char → Bool) (payload : List Byte) :
    (if 0 < payload.length then
      .after [.data payload.length]
        ((printVarlenaData printable (payload.take 1024) payload.length).map .print)
    else .done [] : PrintedVarlena) = .done (printedData printable payload) := by
  have finished : (printVarlenaData printable (payload.take 1024) payload.length).raised = none := by
    by_contra raised
    exact not_tooFew_take payload ((raised_printVarlenaData_iff payload.length).mp raised)
  unfold printedData Printed.after Printed.map
  rw [finished]
  split <;> rfl

theorem decode4byte_plain (fits : varhdrsz + payload.length < 0x40000000)
    (stored : Stored process addr (EncodedVarlena.plain payload fits).image) :
    decode4byteVarlena printable process addr =
      .done (.type .normal :: .totalLength (varhdrsz + payload.length) ::
        printedData printable payload) := by
  have header : readMemory process addr 4 = some (split 4 (setVarsizeWord (varhdrsz + payload.length))) :=
    stored.read_header (length_split 4 _)
  have word : combine (split 4 (setVarsizeWord (varhdrsz + payload.length))) =
      4 * (varhdrsz + payload.length) := by
    rw [setVarsizeWord_eq fits]
    exact combine_split_of_lt (by omega)
  have data : readMemory process (addr + 4) (min payload.length 1024) =
      some (payload.take 1024) := stored.read_beginning (length_split 4 _) 1024
  unfold decode4byteVarlena
  rw [header]
  dsimp only
  rw [word, if_neg (by omega)]
  have length : 4 * (varhdrsz + payload.length) / 4 % 0x40000000 = varhdrsz + payload.length := by omega
  have rest : varhdrsz + payload.length - 4 = payload.length := Nat.add_sub_cancel_left _ _
  have some_ : 4 < varhdrsz + payload.length ↔ 0 < payload.length := by unfold varhdrsz; omega
  rw [length, rest, data]
  simp only [some_, print_payload]
  rfl

theorem decode4byte_compressed {tcinfo : BitVec 32} (fits : 8 + payload.length < 0x40000000)
    (stored : Stored process addr (EncodedVarlena.compressed tcinfo payload fits).image) :
    decode4byteVarlena printable process addr =
      .done (.type .compressed :: .totalLength (8 + payload.length) ::
        .originalSize (extsize tcinfo.toNat) :: .compressionMethod (compressMethod tcinfo.toNat) ::
        if 0 < payload.length then
          .compressedData payload.length :: (printHexDump (payload.take 64)).map .print
        else []) := by
  have info_bound := tcinfo.isLt
  have header : readMemory process addr 4 = some (split 4 (4 * (8 + payload.length) + 2)) :=
    stored.read_header (length_split 4 _)
  have word : combine (split 4 (4 * (8 + payload.length) + 2)) = 4 * (8 + payload.length) + 2 :=
    combine_split_of_lt (by omega)
  have behind : Stored process (addr + 4) (split 4 tcinfo.toNat ++ payload) := by
    have dropped := stored.drop 4
    rwa [EncodedVarlena.image, List.drop_left' (length_split 4 _)] at dropped
  have info : readMemory process (addr + 4) 4 = some (split 4 tcinfo.toNat) :=
    behind.read_header (length_split 4 _)
  have info_word : combine (split 4 tcinfo.toNat) = tcinfo.toNat :=
    combine_split_of_lt (by omega)
  have data : readMemory process (addr + 8) (min payload.length 64) = some (payload.take 64) :=
    behind.read_beginning (length_split 4 _) 64
  unfold decode4byteVarlena
  rw [header]
  dsimp only
  rw [word, if_pos (by omega), info]
  dsimp only
  have length : (4 * (8 + payload.length) + 2) / 4 % 0x40000000 = 8 + payload.length := by omega
  have rest : 8 + payload.length - 8 = payload.length := Nat.add_sub_cancel_left _ _
  rw [length, rest, data, info_word]
  by_cases empty : 0 < payload.length
  · rw [if_pos (by omega), if_pos empty]
  · rw [if_neg (by omega), if_neg empty]

theorem decode1byte_short (fits : 1 + payload.length < 0x80)
    (stored : Stored process addr (EncodedVarlena.short payload fits).image) :
    decode1byteVarlena printable process addr =
      .done (.type .short :: .totalLength (1 + payload.length) ::
        printedData printable payload) := by
  have header : readMemory process addr 1 = some (split 1 (2 * (1 + payload.length) + 1)) :=
    stored.read_header (length_split 1 _)
  have word : combine (split 1 (2 * (1 + payload.length) + 1)) = 2 * (1 + payload.length) + 1 :=
    combine_split_of_lt (by omega)
  have data : readMemory process (addr + 1) payload.length = some payload := by
    have read := stored.read_behind (length_split 1 _) (Nat.le_refl payload.length)
    rwa [List.take_length] at read
  have all : payload.take 1024 = payload := List.take_of_length_le (by omega)
  have printed := print_payload printable payload
  rw [all] at printed
  unfold decode1byteVarlena
  rw [header]
  dsimp only
  have length : (2 * (1 + payload.length) + 1) / 2 % 0x80 = 1 + payload.length := by omega
  have rest : 1 + payload.length - 1 = payload.length := Nat.add_sub_cancel_left _ _
  have some_ : 1 < 1 + payload.length ↔ 0 < payload.length := by omega
  rw [word, length, rest, data]
  simp only [some_, printed]
  rfl

@[simp] theorem kindsOf_printedData : kindsOf (printedData printable payload) = [] := by
  unfold printedData
  split
  · exact kindsOf_print
  · rfl

@[simp] theorem lengthsOf_printedData : lengthsOf (printedData printable payload) = [] := by
  unfold printedData
  split
  · exact lengthsOf_print
  · rfl

/-- The whole payload is seen if it is neither too long nor cut short. -/
theorem shownOf_printedData_iff :
    shownOf (printedData printable payload) = payload ↔
      payload.length ≤ 1024 ∧ ¬ CutShort printable payload := by
  unfold printedData
  by_cases empty : 0 < payload.length
  · rw [if_pos empty]
    have seen : shownOf (.data payload.length ::
        (printVarlenaData printable (payload.take 1024) payload.length).lines.map .print) =
        (printVarlenaData printable (payload.take 1024) payload.length).lines.flatMap DataLine.shown :=
      shownOf_print
    rw [seen]
    by_cases whole : payload.length ≤ 1024
    · have enough : ¬ TooFew printable (payload.take 1024) payload.length :=
        not_tooFew_take payload
      rw [List.take_of_length_le whole] at enough ⊢
      rw [shown_printVarlenaData_iff]
      simp [whole, enough]
    · refine iff_of_false ?_ fun both => whole both.1
      intro same
      have beginning : (printVarlenaData printable (payload.take 1024) payload.length).lines.flatMap
          DataLine.shown <+: payload.take 1024 := shown_prefix payload.length
      have lengths := beginning.length_le
      rw [same, List.length_take] at lengths
      omega
  · rw [if_neg empty]
    have none : payload = [] := List.eq_nil_of_length_eq_zero (by omega)
    subst none
    exact iff_of_true rfl ⟨by decide, not_cutShort_nil⟩

end Formats

/-! ## Values elsewhere -/

section External
variable {process : DebuggedMemory} {addr : Nat} {pointer : ToastPointer}

theorem read_tag (stored : Stored process addr (EncodedVarlena.external pointer).image) :
    ∃ tagData, readMemory process (addr + 1) 1 = some tagData ∧ combine tagData = pointer.tag := by
  refine ⟨[BitVec.ofNat 8 pointer.tag], stored.tail.read_header rfl, ?_⟩
  cases pointer with
  | indirect pointer => rfl
  | expanded readOnly eohptr => cases readOnly <;> rfl
  | ondisk external => rfl

theorem read_data (stored : Stored process addr (EncodedVarlena.external pointer).image) {length : Nat}
    (exactly : pointer.data.length = length) :
    readMemory process (addr + 2) length = some pointer.data := by
  have read := stored.tail.tail.read (Nat.le_of_eq exactly.symm)
  rwa [← exactly, List.take_length, exactly] at read

/-- Which decoder runs goes by the tag. -/
theorem decodeExternal_eq (stored : Stored process addr (EncodedVarlena.external pointer).image) :
    decodeExternalVarlena process addr = .after [.type (.external pointer.tag)]
      (match pointer with
      | .indirect _ => decodeIndirectToast process addr
      | .expanded _ _ => .done (decodeExpandedToast process addr pointer.tag)
      | .ondisk _ => .done (decodeOndiskToast process addr)) := by
  obtain ⟨tagData, tag_read, tag⟩ := read_tag stored
  unfold decodeExternalVarlena
  rw [tag_read]
  dsimp only
  rw [tag]
  cases pointer with
  | indirect pointer => rfl
  | expanded readOnly eohptr => cases readOnly <;> rfl
  | ondisk external => rfl

theorem decodeExternal_expanded {readOnly : Bool} {eohptr : BitVec 64}
    (stored : Stored process addr (EncodedVarlena.external (.expanded readOnly eohptr)).image) :
    decodeExternalVarlena process addr =
      .done [.type (.external (ToastPointer.expanded readOnly eohptr).tag), .expandedObject readOnly,
        .expandedObjectHeaderAt eohptr.toNat] := by
  have bound := eohptr.isLt
  have read : readMemory process (addr + 2) 8 = some (split 8 eohptr.toNat) :=
    read_data stored (length_split 8 _)
  have word : combine (split 8 eohptr.toNat) = eohptr.toNat := combine_split_of_lt (by omega)
  rw [decodeExternal_eq stored]
  dsimp only
  unfold decodeExpandedToast
  rw [read]
  dsimp only
  rw [word]
  cases readOnly <;> rfl

theorem decodeExternal_ondisk {external : VarattExternal}
    (stored : Stored process addr (EncodedVarlena.external (.ondisk external)).image) :
    decodeExternalVarlena process addr =
      .done (.type (.external vartagOndisk) :: ([.rawSize external.vaRawsize.toNat,
        .externalSize (extsize external.vaExtinfo.toNat),
        .compressed (decide (extsize external.vaExtinfo.toNat + 4 < external.vaRawsize.toNat))] ++
      (if decide (extsize external.vaExtinfo.toNat + 4 < external.vaRawsize.toNat) then
        [.compressionMethod (compressMethod external.vaExtinfo.toNat)] else []) ++
      [.valueId external.vaValueid.toNat, .toastRelationOid external.vaToastrelid.toNat])) := by
  have raw_bound := external.vaRawsize.isLt
  have info_bound := external.vaExtinfo.isLt
  have value_bound := external.vaValueid.isLt
  have relation_bound := external.vaToastrelid.isLt
  have read : readMemory process (addr + 2) 16 = some (ToastPointer.ondisk external).data :=
    read_data stored (by simp [ToastPointer.data])
  have word {n : Nat} (within : n < 2 ^ 32) : combine (split 4 n) = n :=
    combine_split_of_lt (by omega)
  -- the four fields, one behind the other
  have raw : (ToastPointer.ondisk external).data.take 4 = split 4 external.vaRawsize.toNat :=
    List.take_left' (length_split 4 _)
  have behind_raw : (ToastPointer.ondisk external).data.drop 4 =
      split 4 external.vaExtinfo.toNat ++
        (split 4 external.vaValueid.toNat ++ split 4 external.vaToastrelid.toNat) :=
    List.drop_left' (length_split 4 _)
  have behind_info : (ToastPointer.ondisk external).data.drop 8 =
      split 4 external.vaValueid.toNat ++ split 4 external.vaToastrelid.toNat := by
    have further : (ToastPointer.ondisk external).data.drop 8 =
        ((ToastPointer.ondisk external).data.drop 4).drop 4 := by rw [List.drop_drop]
    rw [further, behind_raw, List.drop_left' (length_split 4 _)]
  have behind_value : (ToastPointer.ondisk external).data.drop 12 =
      split 4 external.vaToastrelid.toNat := by
    have further : (ToastPointer.ondisk external).data.drop 12 =
        ((ToastPointer.ondisk external).data.drop 8).drop 4 := by rw [List.drop_drop]
    rw [further, behind_info, List.drop_left' (length_split 4 _)]
  have relation : (split 4 external.vaToastrelid.toNat).take 4 = split 4 external.vaToastrelid.toNat :=
    List.take_of_length_le (Nat.le_of_eq (length_split 4 _))
  rw [decodeExternal_eq stored]
  dsimp only
  unfold decodeOndiskToast
  rw [read]
  dsimp only
  rw [raw, behind_raw, behind_info, behind_value, List.take_left' (length_split 4 _),
    List.take_left' (length_split 4 _), relation, word raw_bound, word info_bound, word value_bound,
    word relation_bound]
  rfl

/-- A pointer that points to a value is followed, with an argument too many. -/
theorem decodeExternal_indirect {target : BitVec 64}
    (stored : Stored process addr (EncodedVarlena.external (.indirect target)).image)
    (nonnull : target ≠ 0) :
    (decodeExternalVarlena process addr).raised ≠ none := by
  have bound := target.isLt
  have read : readMemory process (addr + 2) 8 = some (split 8 target.toNat) :=
    read_data stored (length_split 8 _)
  have word : combine (split 8 target.toNat) = target.toNat := combine_split_of_lt (by omega)
  have follows : target.toNat ≠ 0 := by
    intro zero
    exact nonnull (BitVec.eq_of_toNat_eq zero)
  rw [decodeExternal_eq stored]
  dsimp only
  unfold decodeIndirectToast
  rw [read]
  dsimp only
  rw [word, if_pos follows]
  exact Option.some_ne_none _

end External

/-! ## The report of each format -/

section Reports
variable {printable : Char → Bool} {process : DebuggedMemory} {addr : Nat} {payload : List Byte}

/-- Where the decoder for the kind of a value reports that kind, the header byte that selects it and
what else is reported are all that there is to ask. -/
theorem decoded_iff_of_report {value : EncodedVarlena} {lines : List VarlenaLine}
    (report : ∀ header, headerByte process addr = some header → value.kind.HeaderOf header →
      decodeVarlenaAtAddress printable process addr = .done lines)
    (kind : kindsOf lines = [value.kind]) :
    value.Decoded (decodeVarlenaAtAddress printable process addr) ↔
      (∃ header, headerByte process addr = some header ∧ value.kind.HeaderOf header) ∧
        value.Reported lines := by
  constructor
  · intro decoded
    obtain ⟨header, found, selects⟩ := header_of_kind decoded.kind
    have reported := decoded.reported
    rw [report header found selects] at reported
    exact ⟨⟨header, found, selects⟩, reported⟩
  · intro ⟨⟨header, found, selects⟩, reported⟩
    rw [report header found selects]
    exact ⟨rfl, kind, reported⟩

theorem plain_decoded_iff (fits : varhdrsz + payload.length < 0x40000000)
    (stored : Stored process addr (EncodedVarlena.plain payload fits).image) :
    (EncodedVarlena.plain payload fits).Decoded (decodeVarlenaAtAddress printable process addr) ↔
      (∃ header, headerByte process addr = some header ∧ header % 2 = 0) ∧
        payload.length ≤ 1024 ∧ ¬ CutShort printable payload := by
  have report (header : Nat) (found : headerByte process addr = some header) (even : header % 2 = 0) :
      decodeVarlenaAtAddress printable process addr =
        .done (.varlenaAt addr :: .type .normal :: .totalLength (varhdrsz + payload.length) ::
          printedData printable payload) := by
    rw [decode_even found even, decode4byte_plain fits stored]
    rfl
  have lengths : lengthsOf (.varlenaAt addr :: .type .normal ::
      .totalLength (varhdrsz + payload.length) :: printedData printable payload) =
      [varhdrsz + payload.length] :=
    congrArg ((varhdrsz + payload.length) :: ·) lengthsOf_printedData
  refine (decoded_iff_of_report report ?_).trans (and_congr_right' ?_)
  · exact congrArg (VarlenaKind.normal :: ·) kindsOf_printedData
  · exact (and_iff_right lengths).trans shownOf_printedData_iff

theorem compressed_decoded_iff {tcinfo : BitVec 32} (fits : 8 + payload.length < 0x40000000)
    (stored : Stored process addr (EncodedVarlena.compressed tcinfo payload fits).image) :
    (EncodedVarlena.compressed tcinfo payload fits).Decoded (decodeVarlenaAtAddress printable process addr) ↔
      (∃ header, headerByte process addr = some header ∧ header % 2 = 0) ∧ payload.length ≤ 64 := by
  let dumped : List VarlenaLine :=
    if 0 < payload.length then
      .compressedData payload.length :: (printHexDump (payload.take 64)).map .print
    else []
  have report (header : Nat) (found : headerByte process addr = some header) (even : header % 2 = 0) :
      decodeVarlenaAtAddress printable process addr =
        .done (.varlenaAt addr :: .type .compressed :: .totalLength (8 + payload.length) ::
          .originalSize (extsize tcinfo.toNat) :: .compressionMethod (compressMethod tcinfo.toNat) ::
          dumped) := by
    rw [decode_even found even, decode4byte_compressed fits stored]
    rfl
  have kinds : kindsOf dumped = [] := by
    unfold dumped
    split
    · exact kindsOf_print
    · rfl
  have lengths : lengthsOf dumped = [] := by
    unfold dumped
    split
    · exact lengthsOf_print
    · rfl
  have seen : shownOf dumped = payload.take 64 := by
    unfold dumped
    split
    · exact shownOf_print.trans (shown_printHexDump _)
    · rename_i empty
      rw [List.eq_nil_of_length_eq_zero (by omega : payload.length = 0)]
      rfl
  have whole : shownOf dumped = payload ↔ payload.length ≤ 64 := by
    rw [seen, List.take_eq_self_iff]
  refine (decoded_iff_of_report report ?_).trans (and_congr_right' ?_)
  · exact congrArg (VarlenaKind.compressed :: ·) kinds
  · exact (and_iff_right (congrArg ((8 + payload.length) :: ·) lengths)).trans whole

theorem short_decoded_iff (fits : 1 + payload.length < 0x80)
    (stored : Stored process addr (EncodedVarlena.short payload fits).image) :
    (EncodedVarlena.short payload fits).Decoded (decodeVarlenaAtAddress printable process addr) ↔
      (∃ header, headerByte process addr = some header ∧ header % 2 = 1 ∧ header ≠ 1) ∧
        ¬ CutShort printable payload := by
  have report (header : Nat) (found : headerByte process addr = some header)
      (odd : header % 2 = 1 ∧ header ≠ 1) :
      decodeVarlenaAtAddress printable process addr =
        .done (.varlenaAt addr :: .type .short :: .totalLength (1 + payload.length) ::
          printedData printable payload) := by
    rw [decode_odd found odd.1 odd.2, decode1byte_short fits stored]
    rfl
  have lengths : lengthsOf (.varlenaAt addr :: .type .short :: .totalLength (1 + payload.length) ::
      printedData printable payload) = [1 + payload.length] :=
    congrArg ((1 + payload.length) :: ·) lengthsOf_printedData
  refine (decoded_iff_of_report report ?_).trans (and_congr_right' ?_)
  · exact congrArg (VarlenaKind.short :: ·) kindsOf_printedData
  · have within : payload.length ≤ 1024 := by omega
    exact ((and_iff_right lengths).trans shownOf_printedData_iff).trans (and_iff_right within)

/-- The header that stands for a value elsewhere is one. -/
theorem external_decoded_iff {pointer : ToastPointer} {lines : List VarlenaLine}
    (report : decodeExternalVarlena process addr = .done lines)
    (kind : kindsOf lines = [.external pointer.tag])
    (reported : pointer.Reported (.varlenaAt addr :: lines)) :
    (EncodedVarlena.external pointer).Decoded (decodeVarlenaAtAddress printable process addr) ↔
      headerByte process addr = some 1 := by
  have all (header : Nat) (found : headerByte process addr = some header) (one : header = 1) :
      decodeVarlenaAtAddress printable process addr = .done (.varlenaAt addr :: lines) := by
    rw [decode_one (one ▸ found), report]
    rfl
  refine (decoded_iff_of_report all kind).trans ⟨?_, fun found => ⟨⟨1, found, rfl⟩, reported⟩⟩
  intro ⟨⟨header, found, one⟩, _⟩
  rw [found, one]

theorem expanded_decoded_iff {readOnly : Bool} {eohptr : BitVec 64}
    (stored : Stored process addr (EncodedVarlena.external (.expanded readOnly eohptr)).image) :
    (EncodedVarlena.external (.expanded readOnly eohptr)).Decoded
        (decodeVarlenaAtAddress printable process addr) ↔ headerByte process addr = some 1 := by
  refine external_decoded_iff (decodeExternal_expanded stored) rfl ?_
  constructor <;> simp

theorem ondisk_decoded_iff {external : VarattExternal}
    (stored : Stored process addr (EncodedVarlena.external (.ondisk external)).image) :
    (EncodedVarlena.external (.ondisk external)).Decoded
        (decodeVarlenaAtAddress printable process addr) ↔ headerByte process addr = some 1 := by
  refine external_decoded_iff (decodeExternal_ondisk stored) ?_ ?_
  · split <;> rfl
  · simp [ToastPointer.Reported]

/-- The fourth byte is the second one of the pointer: if it is taken for the header of a value that is
elsewhere, then the pointer is not null and is followed. -/
theorem indirect_not_decoded {target : BitVec 64}
    (stored : Stored process addr (EncodedVarlena.external (.indirect target)).image) :
    ¬ (EncodedVarlena.external (.indirect target)).Decoded
        (decodeVarlenaAtAddress printable process addr) := by
  intro decoded
  obtain ⟨header, found, one⟩ := header_of_kind decoded.kind
  have one : header = 1 := one
  subst one
  have nonnull : target ≠ 0 := by
    intro null
    subst null
    have zero : headerByte process addr = some 0 := by
      have four : readMemory process addr 4 = some [1, 1, 0, 0] := stored.read (by decide)
      unfold headerByte
      rw [four]
      rfl
    rw [zero] at found
    cases found
  have raised := decodeExternal_indirect stored nonnull
  have none := decoded.noError
  rw [decode_one found] at none
  exact raised none

end Reports

/-- The report of a value is right if and only if it is legible: for every value in every format and
whatever is behind it in memory. -/
theorem StoredVarlena.decoded_iff (printable : Char → Bool) (v : StoredVarlena) :
    v.value.Decoded (decodeVarlenaAtAddress printable v.process v.addr) ↔ v.Legible printable := by
  obtain ⟨process, addr, value, stored⟩ := v
  cases value with
  | plain payload fits => exact plain_decoded_iff fits stored
  | compressed tcinfo payload fits => exact compressed_decoded_iff fits stored
  | short payload fits => exact short_decoded_iff fits stored
  | external pointer =>
    cases pointer with
    | indirect target => exact iff_of_false (indirect_not_decoded stored) id
    | expanded readOnly eohptr => exact expanded_decoded_iff stored
    | ondisk external => exact ondisk_decoded_iff stored

/-- What a string is encoded as is a plain value. -/
theorem stringViewIntoDatum_image {server : VarlenaServer} {m : Memory} (s : ByteString)
    (within : varhdrsz + s.size ≤ maxAllocSize) :
    ∃ fits, stringViewIntoDatum server s m =
      .ok (m.last 0) (m.with (EncodedVarlena.plain s.bytes fits).image) := by
  have fits : varhdrsz + s.bytes.length < 0x40000000 := Nat.lt_succ_of_le within
  exact ⟨fits, stringViewIntoDatum_ok s within⟩

/-- Memory in which these bytes can be read, and no others. -/
def memoryOf (bytes : List Byte) : DebuggedMemory := fun addr => bytes[addr]?

theorem stored_memoryOf (bytes : List Byte) : Stored (memoryOf bytes) 0 bytes := by
  intro i byte found
  rw [Nat.zero_add]
  exact found

/-- The string "abd" with a short header, whose last letter is even. -/
def shortAbd : StoredVarlena :=
  ⟨memoryOf [9, 97, 98, 100], 0, .short [97, 98, 100] (by decide), stored_memoryOf _⟩

/-- A pointer to a value at another address. -/
def indirectPointer : StoredVarlena :=
  ⟨memoryOf [1, 1, 0x10, 1, 0, 0, 0, 0, 0, 0], 0, .external (.indirect 0x110), stored_memoryOf _⟩

/-- The short value is printed as a long one, and the pointer raises an error. -/
theorem misread :
    (decodeVarlenaAtAddress (fun _ => true) shortAbd.process shortAbd.addr).lines =
        [.varlenaAt 0, .type .normal, .totalLength 421042242] ∧
      ¬ shortAbd.value.Decoded
        (decodeVarlenaAtAddress (fun _ => true) shortAbd.process shortAbd.addr) ∧
      (decodeVarlenaAtAddress (fun _ => true) indirectPointer.process indirectPointer.addr).raised =
        some (.typeError
          "decode_varlena_at_address() got an unexpected keyword argument 'indent'") := by
  refine ⟨by decide +kernel, ?_, by decide +kernel⟩
  intro decoded
  have kind := decoded.kind
  revert kind
  decide +kernel

end Cppgres
