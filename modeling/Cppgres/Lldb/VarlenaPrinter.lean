import Cppgres.Bytes.LittleEndian
import Mathlib.Data.List.Basic

/-!
# The debugger's varlena printer

The command `varlena` of `lldb.py`, on the memory of the process that is debugged. It prints lines; an
error of Python ends it. A read of memory fails if a byte of it cannot be read.
-/
namespace Cppgres
open Bytes

abbrev DebuggedMemory := Nat → Option Byte

/-- `process.ReadMemory(addr, length, error)` -/
def readMemory (process : DebuggedMemory) (addr : Nat) : Nat → Option (List Byte)
  | 0 => some []
  | length + 1 => do
    let byte ← process addr
    let bytes ← readMemory process (addr + 1) length
    pure (byte :: bytes)

/-! ## Python -/

inductive PythonError where
  | typeError (what : String)
  | structError (what : String)
  deriving DecidableEq, Repr

/-- The lines that were printed, and the error that ended it. -/
structure Printed (L : Type) where
  lines : List L
  raised : Option PythonError
  deriving DecidableEq, Repr

namespace Printed
variable {L M : Type}

def done (lines : List L) : Printed L := ⟨lines, none⟩

def after (lines : List L) (printed : Printed L) : Printed L :=
  ⟨lines ++ printed.lines, printed.raised⟩

def map (f : L → M) (printed : Printed L) : Printed M := ⟨printed.lines.map f, printed.raised⟩

end Printed

/-- `struct.unpack` of one number, which takes exactly so many bytes. -/
def structUnpack (size : Nat) (bytes : List Byte) : Except PythonError Nat :=
  if bytes.length = size then .ok (combine bytes)
  else .error (.structError s!"unpack requires a buffer of {size} bytes")

def utf8Bytes (text : String) : List Byte := text.toByteArray.data.toList.map UInt8.toBitVec

/-- `data_bytes.decode('utf-8')` -/
def decodeUtf8 (bytes : List Byte) : Option String :=
  String.fromUTF8? ⟨(bytes.map UInt8.ofBitVec).toArray⟩

/-! ## `print_varlena_data` -/

inductive DataLine where
  | text (text : String)
  | textFirst100Chars (text : String)
  | cString (text : String)
  | remainingBytesAfterNull (count : Nat)
  | possibleInt32 (val : Nat)
  | possibleInt64 (val : Nat)
  | possibleDouble (bits : Nat)
  | binaryData (length : Nat)
  | hexDump (offset : Nat) (bytes : List Byte)
  deriving DecidableEq, Repr

/-- `print_hex_dump` -/
def printHexDump (data : List Byte) : List DataLine :=
  (List.range ((data.length + 15) / 16)).map fun i =>
    .hexDump (16 * i) ((data.drop (16 * i)).take 16)

section Data
variable (printable : Char → Bool)

/-- `data_bytes` as text. `printable` is `c.isprintable() or c.isspace()`. -/
def asText (bytes : List Byte) : Option String :=
  (decodeUtf8 bytes).filter fun text => text.toList.all printable

/-- The bytes before a null, and where that is. -/
def asCString (bytes : List Byte) : Option (String × Nat) :=
  match bytes.findIdx? (· == 0) with
  | none => none
  | some nullPos =>
    if 0 < nullPos then (asText printable (bytes.take nullPos)).map fun text => (text, nullPos)
    else none

/-- The lines about a number of this length, if it is the length of one. -/
def printNumbers (bytes : List Byte) (length : Nat) : Except PythonError (List DataLine) :=
  if length = 4 then (structUnpack 4 (bytes.take 4)).map fun val => [.possibleInt32 val]
  else if length = 8 then
    (structUnpack 8 (bytes.take 8)).map fun val => [.possibleInt64 val, .possibleDouble val]
  else .ok []

def printVarlenaData (bytes : List Byte) (length : Nat) : Printed DataLine :=
  match asText printable bytes with
  | some text =>
    .done
      (if text.length ≤ 100 then [.text text]
      else [.textFirst100Chars (String.ofList (text.toList.take 100))])
  | none =>
    match asCString printable bytes with
    | some (text, nullPos) =>
      .done
        (.cString text ::
          if nullPos + 1 < bytes.length then
            .remainingBytesAfterNull (bytes.length - nullPos - 1) ::
              printHexDump (bytes.drop (nullPos + 1))
          else [])
    | none =>
      match printNumbers bytes length with
      | .error error => ⟨[], some error⟩
      | .ok numbers => .done (numbers ++ .binaryData length :: printHexDump bytes)

end Data

/-! ## The kinds of values -/

/-- `VARTAG_INDIRECT`, `VARTAG_EXPANDED_RO`, `VARTAG_EXPANDED_RW`, `VARTAG_ONDISK` -/
def vartagIndirect : Nat := 1
def vartagExpandedRo : Nat := 2
def vartagExpandedRw : Nat := 3
def vartagOndisk : Nat := 18

inductive VarlenaKind where
  | normal
  | compressed
  | short
  | external (tag : Nat)
  deriving DecidableEq, Repr

inductive VarlenaLine where
  | failedToRead (what : String)
  | varlenaAt (addr : Nat)
  | unknownVarlenaFormat (header : Nat)
  | type (kind : VarlenaKind)
  | totalLength (length : Nat)
  | originalSize (size : Nat)
  | compressionMethod (method : Nat)
  | compressedData (length : Nat)
  | data (length : Nat)
  | print (line : DataLine)
  | unknownToastTag (tag : Nat)
  | rawSize (size : Nat)
  | externalSize (size : Nat)
  | compressed (isCompressed : Bool)
  | valueId (oid : Nat)
  | toastRelationOid (oid : Nat)
  | pointsToVarlenaAt (addr : Nat)
  | pointedToVarlena
  | expandedObject (readOnly : Bool)
  | expandedObjectHeaderAt (addr : Nat)
  deriving DecidableEq, Repr

abbrev PrintedVarlena := Printed VarlenaLine

/-- `VARLENA_EXTSIZE_MASK` is `2 ^ 30 - 1`. -/
def extsize (info : Nat) : Nat := info % 0x40000000
def compressMethod (info : Nat) : Nat := info / 0x40000000

section Decoders
variable (printable : Char → Bool) (process : DebuggedMemory) (addr : Nat)

def decode4byteVarlena : PrintedVarlena :=
  match readMemory process addr 4 with
  | none => .done [.failedToRead "4-byte header"]
  | some headerData =>
    let header := combine headerData
    let length := header / 4 % 0x40000000
    if header / 2 % 2 ≠ 0 then
      .done
        (.type .compressed :: .totalLength length ::
          match readMemory process (addr + 4) 4 with
          | none => []
          | some tcinfoData =>
            .originalSize (extsize (combine tcinfoData)) ::
              .compressionMethod (compressMethod (combine tcinfoData)) ::
              if 8 < length then
                match readMemory process (addr + 8) (min (length - 8) 64) with
                | none => []
                | some data => .compressedData (length - 8) :: (printHexDump data).map .print
              else [])
    else
      .after [.type .normal, .totalLength length]
        (if 4 < length then
          match readMemory process (addr + 4) (min (length - 4) 1024) with
          | none => .done []
          | some data =>
            .after [.data (length - 4)]
              ((printVarlenaData printable data (length - 4)).map .print)
        else .done [])

def decode1byteVarlena : PrintedVarlena :=
  match readMemory process addr 1 with
  | none => .done [.failedToRead "1-byte header"]
  | some headerData =>
    let length := combine headerData / 2 % 0x80
    .after [.type .short, .totalLength length]
      (if 1 < length then
        match readMemory process (addr + 1) (length - 1) with
        | none => .done []
        | some data =>
          .after [.data (length - 1)]
            ((printVarlenaData printable data (length - 1)).map .print)
      else .done [])

def decodeOndiskToast : List VarlenaLine :=
  match readMemory process (addr + 2) 16 with
  | none => [.failedToRead "TOAST external data"]
  | some toastData =>
    let vaRawsize := combine (toastData.take 4)
    let vaExtinfo := combine ((toastData.drop 4).take 4)
    let vaValueid := combine ((toastData.drop 8).take 4)
    let vaToastrelid := combine ((toastData.drop 12).take 4)
    let isCompressed := decide (extsize vaExtinfo + 4 < vaRawsize)
    [.rawSize vaRawsize, .externalSize (extsize vaExtinfo), .compressed isCompressed] ++
      (if isCompressed then [.compressionMethod (compressMethod vaExtinfo)] else []) ++
      [.valueId vaValueid, .toastRelationOid vaToastrelid]

/-- `decode_varlena_at_address` is called with an argument that it does not take. -/
def decodeIndirectToast : PrintedVarlena :=
  match readMemory process (addr + 2) 8 with
  | none => .done [.failedToRead "indirect pointer"]
  | some ptrData =>
    let ptrAddr := combine ptrData
    if ptrAddr ≠ 0 then
      ⟨[.pointsToVarlenaAt ptrAddr, .pointedToVarlena],
        some (.typeError
          "decode_varlena_at_address() got an unexpected keyword argument 'indent'")⟩
    else .done [.pointsToVarlenaAt ptrAddr]

def decodeExpandedToast (tag : Nat) : List VarlenaLine :=
  match readMemory process (addr + 2) 8 with
  | none => [.failedToRead "expanded object header pointer"]
  | some ptrData => [.expandedObject (tag = 2), .expandedObjectHeaderAt (combine ptrData)]

def decodeExternalVarlena : PrintedVarlena :=
  match readMemory process (addr + 1) 1 with
  | none => .done [.failedToRead "tag byte"]
  | some tagData =>
    let tag := combine tagData
    .after [.type (.external tag)]
      (if tag = vartagOndisk then .done (decodeOndiskToast process addr)
      else if tag = vartagIndirect then decodeIndirectToast process addr
      else if tag = vartagExpandedRo ∨ tag = vartagExpandedRw then
        .done (decodeExpandedToast process addr tag)
      else .done [.unknownToastTag tag])

/-- The byte that the printer takes for the first one. -/
def headerByte : Option Nat := (readMemory process addr 4).map fun bytes => (bytes.getD 3 0).toNat

def decodeVarlenaAtAddress : PrintedVarlena :=
  match headerByte process addr with
  | none => .done [.failedToRead "varlena"]
  | some headerByte =>
    .after [.varlenaAt addr]
      (if headerByte % 2 = 0 then decode4byteVarlena printable process addr
      else if headerByte = 1 then decodeExternalVarlena process addr
      else if headerByte % 2 = 1 then decode1byteVarlena printable process addr
      else .done [.unknownVarlenaFormat headerByte])

end Decoders

/-! ## What is shown of the data -/

/-- The bytes that are seen in a line. -/
def DataLine.shown : DataLine → List Byte
  | .text all => utf8Bytes all
  | .textFirst100Chars beginning => utf8Bytes beginning
  | .cString before => utf8Bytes before ++ [0]
  | .hexDump _ bytes => bytes
  | _ => []

/-- Printable text of more than 100 characters. -/
def CutShort (printable : Char → Bool) (bytes : List Byte) : Prop :=
  ∃ text, asText printable bytes = some text ∧ 100 < text.length

/-- Neither a text nor a string, and with fewer bytes than the number has that it is taken for. -/
structure TooFew (printable : Char → Bool) (bytes : List Byte) (length : Nat) : Prop where
  noText : asText printable bytes = none
  noString : asCString printable bytes = none
  number : length = 4 ∨ length = 8
  fewer : bytes.length < length

section Shown
variable {printable : Char → Bool} {bytes : List Byte}

theorem utf8Bytes_inj {one two : String} : utf8Bytes one = utf8Bytes two ↔ one = two := by
  constructor
  · intro same
    have arrays := List.map_injective_iff.mpr (fun _ _ => UInt8.toBitVec_inj.mp) same
    apply String.toByteArray_inj.mp
    exact ByteArray.ext (Array.toList_inj.mp arrays)
  · intro same
    rw [same]

/-- What is decoded is the encoding of the text. -/
theorem utf8Bytes_of_decodeUtf8 {text : String} (decoded : decodeUtf8 bytes = some text) :
    utf8Bytes text = bytes := by
  unfold decodeUtf8 String.fromUTF8? at decoded
  split at decoded
  · cases decoded
    simp [utf8Bytes, String.fromUTF8, Function.comp_def]
  · cases decoded

theorem utf8Bytes_of_asText {text : String} (decoded : asText printable bytes = some text) :
    utf8Bytes text = bytes :=
  utf8Bytes_of_decodeUtf8 (Option.filter_eq_some_iff.mp decoded).1

theorem flatMap_chunks (count : Nat) :
    (List.range count).flatMap (fun i => (bytes.drop (16 * i)).take 16) = bytes.take (16 * count) := by
  induction count with
  | zero => simp
  | succ count ih =>
    rw [List.range_succ, List.flatMap_append, ih, Nat.mul_succ, List.take_add]
    simp

theorem shown_printHexDump (bytes : List Byte) :
    (printHexDump bytes).flatMap DataLine.shown = bytes := by
  have enough : bytes.length ≤ 16 * ((bytes.length + 15) / 16) := by omega
  unfold printHexDump
  rw [List.flatMap_map]
  dsimp only [DataLine.shown]
  rw [flatMap_chunks, List.take_of_length_le enough]

theorem shown_asCString {text : String} {nullPos : Nat}
    (found : asCString printable bytes = some (text, nullPos)) :
    utf8Bytes text ++ [0] ++ bytes.drop (nullPos + 1) = bytes := by
  unfold asCString at found
  split at found
  · cases found
  · rename_i position null
    split at found
    · obtain ⟨_, decoded, same⟩ := Option.map_eq_some_iff.mp found
      cases same
      obtain ⟨bound, zero, _⟩ := List.findIdx?_eq_some_iff_getElem.mp null
      have zero : bytes[nullPos] = 0 := by simpa using zero
      rw [utf8Bytes_of_asText decoded, List.append_assoc, List.singleton_append, ← zero,
        List.getElem_cons_drop, List.take_append_drop]
    · cases found

/-- The beginning is taken for a number, unless there is too little of it. -/
theorem structUnpack_take (size : Nat) (bytes : List Byte) :
    size ≤ bytes.length ∧ structUnpack size (bytes.take size) = .ok (combine (bytes.take size)) ∨
      bytes.length < size ∧ ∃ error, structUnpack size (bytes.take size) = .error error := by
  unfold structUnpack
  by_cases enough : size ≤ bytes.length
  · exact .inl ⟨enough, if_pos (List.length_take_of_le enough)⟩
  · refine .inr ⟨by omega, _, if_neg ?_⟩
    rw [List.length_take]
    omega

/-- The lines about a number show nothing; they are missing where there are too few bytes for it. -/
theorem printNumbers_cases (bytes : List Byte) (length : Nat) :
    (∃ numbers, printNumbers bytes length = .ok numbers ∧ numbers.flatMap DataLine.shown = [] ∧
        ((length = 4 ∨ length = 8) → length ≤ bytes.length)) ∨
      (∃ error, printNumbers bytes length = .error error ∧ (length = 4 ∨ length = 8) ∧
        bytes.length < length) := by
  unfold printNumbers
  by_cases four : length = 4
  · subst four
    rcases structUnpack_take 4 bytes with ⟨enough, read⟩ | ⟨few, error, failed⟩
    · exact .inl ⟨_, congrArg (Except.map _) read, rfl, fun _ => enough⟩
    · exact .inr ⟨error, congrArg (Except.map _) failed, .inl rfl, few⟩
  · by_cases eight : length = 8
    · subst eight
      rcases structUnpack_take 8 bytes with ⟨enough, read⟩ | ⟨few, error, failed⟩
      · exact .inl ⟨_, congrArg (Except.map _) read, rfl, fun _ => enough⟩
      · exact .inr ⟨error, congrArg (Except.map _) failed, .inr rfl, few⟩
    · refine .inl ⟨[], ?_, rfl, fun number => absurd number (by omega)⟩
      rw [if_neg four, if_neg eight]

/-- No bytes are a text. -/
theorem asText_nil : asText printable [] = some "" := by
  have decoded : decodeUtf8 [] = some "" := by
    rfl
  unfold asText
  rw [decoded]
  rfl

/-- What is printed of a value's data is enough for a number. -/
theorem not_tooFew_take (payload : List Byte) :
    ¬ TooFew printable (payload.take 1024) payload.length := by
  intro few
  have number := few.number
  have fewer := few.fewer
  rw [List.length_take] at fewer
  omega

/-- An error ends it where there are too few bytes for a number. -/
theorem raised_printVarlenaData_iff (length : Nat) :
    (printVarlenaData printable bytes length).raised ≠ none ↔ TooFew printable bytes length := by
  unfold printVarlenaData
  cases noText : asText printable bytes with
  | some text => exact iff_of_false (fun raised => raised rfl) fun few => by simp [few.noText] at noText
  | none =>
    cases noString : asCString printable bytes with
    | some pair =>
      exact iff_of_false (fun raised => raised rfl) fun few => by simp [few.noString] at noString
    | none =>
      dsimp only
      rcases printNumbers_cases bytes length with ⟨numbers, read, _, enough⟩ | ⟨error, failed, few⟩
      · rw [read]
        refine iff_of_false (fun raised => raised rfl) fun tooFew => ?_
        exact absurd (enough tooFew.number) (Nat.not_le_of_lt tooFew.fewer)
      · rw [failed]
        exact iff_of_true (Option.some_ne_none _) ⟨noText, noString, few.1, few.2⟩

/-- All of the data is seen, unless it is text that is cut short, or too few bytes for a number. -/
theorem shown_printVarlenaData_iff (length : Nat) :
    (printVarlenaData printable bytes length).lines.flatMap DataLine.shown = bytes ↔
      ¬ CutShort printable bytes ∧ ¬ TooFew printable bytes length := by
  rw [← raised_printVarlenaData_iff, not_not]
  unfold printVarlenaData CutShort
  cases decoded : asText printable bytes with
  | some text =>
    have whole := utf8Bytes_of_asText decoded
    by_cases short : text.length ≤ 100
    · simp [short, DataLine.shown, whole, Printed.done]
    · have cut : utf8Bytes (String.ofList (text.toList.take 100)) ≠ bytes := by
        intro same
        rw [← whole, utf8Bytes_inj] at same
        have lengths := congrArg String.length same
        simp at lengths
        omega
      simp [short, DataLine.shown, cut, Printed.done]
  | none =>
    have notCut : ¬ ∃ text, (none : Option String) = some text ∧ 100 < text.length := nofun
    rw [and_iff_right notCut]
    dsimp only
    cases found : asCString printable bytes with
    | some pair =>
      obtain ⟨text, nullPos⟩ := pair
      have whole := shown_asCString found
      refine iff_of_true ?_ rfl
      dsimp only [Printed.done]
      split
      · simpa [DataLine.shown, shown_printHexDump] using whole
      · rename_i last
        rw [List.drop_eq_nil_of_le (by omega), List.append_nil] at whole
        simpa [DataLine.shown] using whole
    | none =>
      dsimp only
      rcases printNumbers_cases bytes length with ⟨numbers, read, unseen, _⟩ | ⟨error, failed, few⟩
      · rw [read]
        refine iff_of_true ?_ rfl
        simp [Printed.done, unseen, DataLine.shown, shown_printHexDump]
      · rw [failed]
        refine iff_of_false (fun seen => ?_) (Option.some_ne_none _)
        have none : bytes = [] := seen.symm
        rw [none, asText_nil] at decoded
        cases decoded

theorem utf8Bytes_append (one two : String) :
    utf8Bytes (one ++ two) = utf8Bytes one ++ utf8Bytes two := by
  simp [utf8Bytes]

/-- What is seen is the beginning of the data. -/
theorem shown_prefix (length : Nat) :
    (printVarlenaData printable bytes length).lines.flatMap DataLine.shown <+: bytes := by
  by_cases cut : CutShort printable bytes
  · obtain ⟨text, decoded, long⟩ := cut
    have whole := utf8Bytes_of_asText decoded
    have parts : text = String.ofList (text.toList.take 100) ++ String.ofList (text.toList.drop 100) := by
      rw [← String.ofList_append, List.take_append_drop, String.ofList_toList]
    have seen : (printVarlenaData printable bytes length).lines.flatMap DataLine.shown =
        utf8Bytes (String.ofList (text.toList.take 100)) := by
      unfold printVarlenaData
      rw [decoded]
      dsimp only [Printed.done]
      rw [if_neg (by omega)]
      simp [DataLine.shown]
    rw [seen, ← whole]
    conv => rhs; rw [parts, utf8Bytes_append]
    exact List.prefix_append _ _
  · by_cases few : TooFew printable bytes length
    · have none : (printVarlenaData printable bytes length).lines = [] := by
        unfold printVarlenaData
        rw [few.noText, few.noString]
        dsimp only
        rcases printNumbers_cases bytes length with ⟨_, _, _, enough⟩ | ⟨error, failed, _⟩
        · exact absurd (enough few.number) (Nat.not_le_of_lt few.fewer)
        · rw [failed]
      rw [none]
      exact List.nil_prefix
    · have same := (shown_printVarlenaData_iff length).mpr ⟨cut, few⟩
      exact ⟨[], by rw [List.append_nil, same]⟩

theorem not_cutShort_nil : ¬ CutShort printable [] := by
  intro ⟨text, decoded, long⟩
  have whole := utf8Bytes_of_asText decoded
  have empty : text = "" := by
    apply utf8Bytes_inj.mp
    rw [whole]
    rfl
  rw [empty] at long
  exact absurd long (by decide)

end Shown
end Cppgres
