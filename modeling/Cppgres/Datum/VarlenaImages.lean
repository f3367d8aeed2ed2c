import Cppgres.Bytes.Chunks
import Cppgres.Postgres.VarlenaHeader

/-!
# Strings and byte arrays as datums

`datum_conversion` of `std::string_view`, `std::string` and `byte_array`: the first two take memory
from `palloc`, the last one from a memory context, and all are read back through `text` or `bytea`.
The pointers are followed right away here, before any context is reset.
`Cppgres.VarlenaEncoder.roundTrips` is about all of them.
-/
namespace Cppgres
open Bytes

/-- `MaxAllocSize` -/
def maxAllocSize : Nat := 0x3fffffff

/-- What Postgres leaves in new memory, and what it makes of a value that is not plain. -/
structure VarlenaServer where
  fresh : Nat → Nat → Byte
  detoastAttr : Pointer → MemoryCode Pointer

/-- The bytes of a string or an array. No object is larger than `PTRDIFF_MAX`. -/
structure ByteString where
  bytes : List Byte
  fits : bytes.length ≤ 0x7fffffffffffffff

def ByteString.size (s : ByteString) : Nat := s.bytes.length

/-- Arithmetic of `size_t` -/
def sizeAdd (one two : Nat) : Nat := (one + two) % 0x10000000000000000
def sizeMul (one two : Nat) : Nat := one * two % 0x10000000000000000

section Postgres
variable (server : VarlenaServer)

/-- What `palloc` and `MemoryContextAlloc` do with a size. -/
def allocateSize (size : Nat) : MemoryCode Pointer := fun m =>
  if maxAllocSize < size then raise ("invalid memory alloc request size " ++ toString size) m
  else allocate ((List.range size).map (server.fresh m.chunks.length)) m

def palloc (size : Nat) : MemoryCode Pointer := allocateSize server size

def memoryContextAlloc (size : Nat) : MemoryCode Pointer := allocateSize server size

/-- `abstract_memory_context::alloc<T>(n)`, for a `T` that is not over-aligned. -/
def memoryContextAllocOf (sizeof n : Nat) : MemoryCode Pointer :=
  memoryContextAlloc server (sizeMul sizeof n)

/-- `SET_VARSIZE` -/
def setVarsize (p : Pointer) (len : Nat) : MemoryCode Unit := p.store (split 4 (setVarsizeWord len))

/-- `VARDATA` -/
def vardata (p : Pointer) : Pointer := p.add varhdrsz

/-- `VARDATA_ANY` -/
def vardataAnyOf (p : Pointer) : MemoryCode Pointer := do
  let image ← p.image
  pure (p.add (vardataAny image))

/-- `VARSIZE_ANY_EXHDR` -/
def varsizeAnyExhdrOf (p : Pointer) : MemoryCode Nat := do
  let image ← p.image
  match varsizeAnyExhdr image with
  | some size => pure size
  | none => undefinedBehaviour

/-- `pg_detoast_datum` -/
def pgDetoastDatum (p : Pointer) : MemoryCode Pointer := do
  let image ← p.image
  if varattIs4bU image then pure p else server.detoastAttr p

end Postgres

/-! ## Encoders -/

section Encoders
variable (server : VarlenaServer)

/-- `datum_conversion<std::string_view>::into_datum` -/
def stringViewIntoDatum (t : ByteString) : MemoryCode Pointer := do
  let sz := t.size
  let result ← palloc server (sizeAdd sz varhdrsz)
  setVarsize result (sizeAdd t.size varhdrsz)
  (vardata result).store t.bytes
  pure result

/-- `datum_conversion<std::string>::into_datum` -/
def stringIntoDatum (t : ByteString) : MemoryCode Pointer := stringViewIntoDatum server t

/-- `bytea(const byte_array &ba, memory_context ctx)` -/
def byteaOfByteArray (ba : ByteString) : MemoryCode Pointer := do
  let alloc ← memoryContextAllocOf server 1 (sizeAdd varhdrsz ba.size)
  setVarsize alloc (sizeAdd varhdrsz ba.size)
  let ptr ← vardataAnyOf alloc
  ptr.store ba.bytes
  pure alloc

/-- `datum_conversion<byte_array>::into_datum` -/
def byteArrayIntoDatum (t : ByteString) : MemoryCode Pointer := byteaOfByteArray server t

end Encoders

inductive VarlenaEncoder where
  | stringView
  | string
  | byteArray
  deriving DecidableEq, Repr

def VarlenaEncoder.intoDatum (server : VarlenaServer) :
    VarlenaEncoder → ByteString → MemoryCode Pointer
  | .stringView => stringViewIntoDatum server
  | .string => stringIntoDatum server
  | .byteArray => byteArrayIntoDatum server

/-! ## Decoders -/

/-- A `std::string_view` or a `byte_array`: a pointer and a size. -/
structure View where
  data : Pointer
  size : Nat
  deriving DecidableEq, Repr

/-- The bytes that are seen through it. -/
def View.bytes (view : View) : MemoryCode (List Byte) := view.data.load view.size

section Decoders
variable (server : VarlenaServer)

/-- The conversions of `text` and `bytea`: the data and the size of the detoasted value. -/
def varlenaView (d : Pointer) : MemoryCode View := do
  let detoasted ← pgDetoastDatum server d
  let data ← vardataAnyOf detoasted
  let size ← varsizeAnyExhdrOf detoasted
  pure ⟨data, size⟩

/-- `text::operator std::string_view()` -/
def textToStringView (d : Pointer) : MemoryCode View := varlenaView server d

/-- `bytea::operator byte_array()` -/
def byteaToByteArray (d : Pointer) : MemoryCode View := varlenaView server d

/-- `datum_conversion<std::string_view>::from_datum` -/
def stringViewFromDatum (d : Pointer) : MemoryCode View := textToStringView server d

/-- `datum_conversion<std::string>::from_datum`, which copies the bytes. -/
def stringFromDatum (d : Pointer) : MemoryCode (List Byte) := do
  let view ← textToStringView server d
  view.bytes

/-- `datum_conversion<byte_array>::from_datum` -/
def byteArrayFromDatum (d : Pointer) : MemoryCode View := byteaToByteArray server d

end Decoders

/-- `text` and `bytea` are what their conversions give. -/
inductive VarlenaDecoder where
  | text
  | bytea
  | stringView
  | string
  | byteArray
  deriving DecidableEq, Repr

/-- The bytes that are read. -/
def VarlenaDecoder.fromDatum (server : VarlenaServer) :
    VarlenaDecoder → Pointer → MemoryCode (List Byte)
  | .text, d => do (← textToStringView server d).bytes
  | .bytea, d => do (← byteaToByteArray server d).bytes
  | .stringView, d => do (← stringViewFromDatum server d).bytes
  | .string, d => stringFromDatum server d
  | .byteArray, d => do (← byteArrayFromDatum server d).bytes

/-! ## What an encoder writes -/

section Written
variable {server : VarlenaServer} {m : Memory} (s : ByteString)

/-- A plain header, and the bytes. -/
def plainImage : List Byte := split 4 (setVarsizeWord (varhdrsz + s.size)) ++ s.bytes

theorem length_plainImage : (plainImage s).length = varhdrsz + s.size := by
  simp [plainImage, varhdrsz, ByteString.size]

/-- The size does not wrap around. -/
theorem size_exact : sizeAdd varhdrsz s.size = varhdrsz + s.size := by
  have fits := s.fits
  unfold sizeAdd varhdrsz ByteString.size
  omega

theorem size_exact' : sizeAdd s.size varhdrsz = varhdrsz + s.size := by
  have fits := s.fits
  unfold sizeAdd varhdrsz ByteString.size
  omega

theorem size_once : sizeMul 1 (varhdrsz + s.size) = varhdrsz + s.size := by
  have fits := s.fits
  unfold sizeMul varhdrsz ByteString.size
  omega

/-- New memory of a size that is allowed. -/
def freshChunk (server : VarlenaServer) (m : Memory) (size : Nat) : List Byte :=
  (List.range size).map (server.fresh m.chunks.length)

theorem length_freshChunk (size : Nat) : (freshChunk server m size).length = size := by
  simp [freshChunk]

theorem allocateSize_ok {size : Nat} (within : size ≤ maxAllocSize) :
    allocateSize server size m = .ok (m.last 0) (m.with (freshChunk server m size)) := by
  unfold allocateSize
  rw [if_neg (Nat.not_lt.mpr within)]
  rfl

theorem allocateSize_refused (server : VarlenaServer) (m : Memory) {size : Nat} (beyond : maxAllocSize < size) :
    allocateSize server size m =
      .error (.raised ("invalid memory alloc request size " ++ toString size)) m := by
  unfold allocateSize
  rw [if_pos beyond]
  rfl

/-- The header is stored over what the memory held, and the bytes behind it. -/
theorem setVarsize_last (server : VarlenaServer) (m : Memory) (size : Nat) (enough : varhdrsz ≤ size) (len : Nat) :
    setVarsize (m.last 0) len (m.with (freshChunk server m size)) =
      .ok () (m.with (Pointer.overwrite (freshChunk server m size) 0 (split 4 (setVarsizeWord len)))) := by
  apply store_last
  rw [length_split, length_freshChunk]
  unfold varhdrsz at enough
  omega

theorem store_behind :
    (m.last varhdrsz).store s.bytes (m.with (Pointer.overwrite
        (freshChunk server m (varhdrsz + s.size)) 0
        (split 4 (setVarsizeWord (varhdrsz + s.size))))) =
      .ok () (m.with (plainImage s)) := by
  have header : 0 + (split 4 (setVarsizeWord (varhdrsz + s.size))).length ≤
      (freshChunk server m (varhdrsz + s.size)).length := by
    rw [length_split, length_freshChunk]
    unfold varhdrsz
    omega
  have inside : varhdrsz + s.bytes.length ≤ (Pointer.overwrite
      (freshChunk server m (varhdrsz + s.size)) 0
      (split 4 (setVarsizeWord (varhdrsz + s.size)))).length := by
    rw [length_overwrite header, length_freshChunk]
    exact Nat.le_refl _
  have whole : (split 4 (setVarsizeWord (varhdrsz + s.size))).length + s.bytes.length =
      (freshChunk server m (varhdrsz + s.size)).length := by
    rw [length_split, length_freshChunk]
    rfl
  have both := overwrite_both whole
  rw [length_split] at both
  rw [store_last inside]
  exact congrArg (fun chunk => EStateM.Result.ok () (m.with chunk)) both

theorem stringViewIntoDatum_ok (within : varhdrsz + s.size ≤ maxAllocSize) :
    stringViewIntoDatum server s m = .ok (m.last 0) (m.with (plainImage s)) := by
  have allocates : palloc server (sizeAdd s.size varhdrsz) m =
      .ok (m.last 0) (m.with (freshChunk server m (varhdrsz + s.size))) := by
    rw [size_exact']
    exact allocateSize_ok within
  have sets := setVarsize_last server m (varhdrsz + s.size) (by omega)
    (varhdrsz + s.size)
  have behind : vardata (m.last 0) = m.last varhdrsz := rfl
  unfold stringViewIntoDatum
  rw [bind_ok allocates, size_exact', bind_ok sets, behind, bind_ok (store_behind s)]
  rfl

/-- The header that was just written is read to find the place of the bytes. -/
theorem vardataAnyOf_header (server : VarlenaServer) (m : Memory) (size len : Nat)
    (enough : varhdrsz ≤ size) :
    vardataAnyOf (m.last 0) (m.with (Pointer.overwrite (freshChunk server m size) 0
        (split 4 (setVarsizeWord len)))) =
      .ok (m.last varhdrsz) (m.with (Pointer.overwrite (freshChunk server m size) 0
        (split 4 (setVarsizeWord len)))) := by
  have header : 0 + (split 4 (setVarsizeWord len)).length ≤ (freshChunk server m size).length := by
    rw [length_split, length_freshChunk]
    unfold varhdrsz at enough
    omega
  have inside : 0 < (Pointer.overwrite (freshChunk server m size) 0
      (split 4 (setVarsizeWord len))).length := by
    rw [length_overwrite header, length_freshChunk]
    exact Nat.lt_of_lt_of_le (by decide) enough
  have data : vardataAny ((Pointer.overwrite (freshChunk server m size) 0
      (split 4 (setVarsizeWord len))).drop 0) = varhdrsz := by
    rw [List.drop_zero, Pointer.overwrite, List.take_zero, List.nil_append, vardataAny,
      varattIs1b_setVarsize]
    rfl
  unfold vardataAnyOf
  rw [bind_ok (image_last inside), data]
  rfl

theorem byteaOfByteArray_ok (within : varhdrsz + s.size ≤ maxAllocSize) :
    byteaOfByteArray server s m = .ok (m.last 0) (m.with (plainImage s)) := by
  have allocates : memoryContextAllocOf server 1 (sizeAdd varhdrsz s.size) m =
      .ok (m.last 0) (m.with (freshChunk server m (varhdrsz + s.size))) := by
    rw [memoryContextAllocOf, size_exact, size_once]
    exact allocateSize_ok within
  have sets := setVarsize_last server m (varhdrsz + s.size) (by omega)
    (varhdrsz + s.size)
  have places : vardataAnyOf (m.last 0) _ = _ :=
    vardataAnyOf_header server m (varhdrsz + s.size) (varhdrsz + s.size) (by omega)
  unfold byteaOfByteArray
  rw [bind_ok allocates, size_exact, bind_ok sets, bind_ok places, bind_ok (store_behind s)]
  rfl

/-- Each of the encoders writes a plain image into a chunk of its own, if the size is allowed. -/
theorem VarlenaEncoder.intoDatum_ok (encoder : VarlenaEncoder)
    (within : varhdrsz + s.size ≤ maxAllocSize) :
    encoder.intoDatum server s m = .ok (m.last 0) (m.with (plainImage s)) := by
  cases encoder with
  | stringView => exact stringViewIntoDatum_ok s within
  | string => exact stringViewIntoDatum_ok s within
  | byteArray => exact byteaOfByteArray_ok s within

/-- Otherwise it raises an error, and the memory is as it was. -/
theorem VarlenaEncoder.intoDatum_refused (encoder : VarlenaEncoder)
    (beyond : maxAllocSize < varhdrsz + s.size) :
    ∃ what, encoder.intoDatum server s m = .error (.raised what) m := by
  have string : ∃ what, stringViewIntoDatum server s m = .error (.raised what) m := by
    have refuses := allocateSize_refused server m beyond
    rw [← size_exact'] at refuses
    exact ⟨_, bind_error refuses⟩
  cases encoder with
  | stringView => exact string
  | string => exact string
  | byteArray =>
    have refuses := allocateSize_refused server m beyond
    rw [← size_once, ← size_exact] at refuses
    exact ⟨_, bind_error refuses⟩

end Written

/-! ## What a decoder reads -/

section Read
variable {server : VarlenaServer} {m : Memory} (s : ByteString)

theorem image_plain :
    (m.last 0).image (m.with (plainImage s)) = .ok (plainImage s) (m.with (plainImage s)) := by
  have inside : 0 < (plainImage s).length := by
    rw [length_plainImage]
    exact Nat.lt_of_lt_of_le (by decide) (Nat.le_add_right _ _)
  exact image_last inside

/-- The conversions of `text` and `bytea`, on a plain image. -/
theorem varlenaView_plain (server : VarlenaServer) (m : Memory)
    (within : varhdrsz + s.size ≤ maxAllocSize) :
    varlenaView server (m.last 0) (m.with (plainImage s)) =
      .ok ⟨m.last varhdrsz, s.size⟩ (m.with (plainImage s)) := by
  have length : varhdrsz + s.size < 0x40000000 := by
    unfold maxAllocSize at within
    omega
  have detoasts : pgDetoastDatum server (m.last 0) (m.with (plainImage s)) =
      .ok (m.last 0) (m.with (plainImage s)) := by
    unfold pgDetoastDatum
    rw [bind_ok (image_plain s), plainImage, varattIs4bU_setVarsize]
    rfl
  have data : vardataAnyOf (m.last 0) (m.with (plainImage s)) =
      .ok (m.last varhdrsz) (m.with (plainImage s)) := by
    have place : vardataAny (plainImage s) = varhdrsz := by
      rw [plainImage, vardataAny, varattIs1b_setVarsize]
      rfl
    unfold vardataAnyOf
    rw [bind_ok (image_plain s), place]
    rfl
  have size : varsizeAnyExhdrOf (m.last 0) (m.with (plainImage s)) =
      .ok s.size (m.with (plainImage s)) := by
    have counted : varsizeAnyExhdr (plainImage s) = some s.size := by
      rw [plainImage, varsizeAnyExhdr, varattIs1bE_setVarsize, varattIs1b_setVarsize,
        varsize4b_setVarsize length]
      simp
    unfold varsizeAnyExhdrOf
    rw [bind_ok (image_plain s), counted]
    rfl
  unfold varlenaView
  rw [bind_ok detoasts, bind_ok data, bind_ok size]
  rfl

theorem bytes_plain :
    View.bytes ⟨m.last varhdrsz, s.size⟩ (m.with (plainImage s)) =
      .ok s.bytes (m.with (plainImage s)) := by
  have inside : varhdrsz + s.size ≤ (plainImage s).length := by rw [length_plainImage]
  have behind : ((plainImage s).drop varhdrsz).take s.size = s.bytes := by
    have header : (plainImage s).drop varhdrsz = s.bytes := List.drop_left' (length_split 4 _)
    rw [header]
    exact List.take_length
  unfold View.bytes
  rw [load_last inside, behind]

/-- Each of the decoders gives the bytes back. -/
theorem VarlenaDecoder.fromDatum_plain (decoder : VarlenaDecoder)
    (within : varhdrsz + s.size ≤ maxAllocSize) :
    decoder.fromDatum server (m.last 0) (m.with (plainImage s)) =
      .ok s.bytes (m.with (plainImage s)) := by
  have view := varlenaView_plain s server m within
  have reads : (varlenaView server (m.last 0) >>= fun view => view.bytes) (m.with (plainImage s)) =
      .ok s.bytes (m.with (plainImage s)) := by
    rw [bind_ok view]
    exact bytes_plain s
  cases decoder <;> exact reads

end Read

/-- What an encoder comes to on a string: it wrote a plain value whose length word is the whole
length, which each decoder reads as the string; or it raised an error and wrote nothing. -/
structure VarlenaEncoder.RoundTrips (encoder : VarlenaEncoder) (server : VarlenaServer)
    (s : ByteString) (m : Memory) : Prop where
  within : varhdrsz + s.size ≤ maxAllocSize → ∃ d after image,
    encoder.intoDatum server s m = .ok d after ∧
    after.chunks = m.chunks ++ [image] ∧ d = ⟨m.chunks.length, 0⟩ ∧
    word32 image = some (4 * (varhdrsz + s.size)) ∧
    varattIs4bU image = true ∧ varattIs4bC image = false ∧ varattIs1b image = false ∧
    varattIs1bE image = false ∧ varsizeAny image = some (varhdrsz + s.size) ∧
    ∀ decoder : VarlenaDecoder, decoder.fromDatum server d after = .ok s.bytes after
  beyond : maxAllocSize < varhdrsz + s.size →
    ∃ what, encoder.intoDatum server s m = .error (.raised what) m

/-- For every string, encoder and memory. -/
theorem VarlenaEncoder.roundTrips (encoder : VarlenaEncoder) (server : VarlenaServer)
    (s : ByteString) (m : Memory) : encoder.RoundTrips server s m := by
  constructor
  · intro within
    have length : varhdrsz + s.size < 0x40000000 := by
      unfold maxAllocSize at within
      omega
    refine ⟨m.last 0, m.with (plainImage s), plainImage s, encoder.intoDatum_ok s within, rfl, rfl,
      ?_, varattIs4bU_setVarsize, varattIs4bC_setVarsize, varattIs1b_setVarsize,
      varattIs1bE_setVarsize, ?_, fun decoder => decoder.fromDatum_plain s within⟩
    · rw [plainImage, word32_split, setVarsizeWord_eq length]
      congr 1
      omega
    · rw [plainImage, varsizeAny, varattIs1bE_setVarsize, varattIs1b_setVarsize]
      exact varsize4b_setVarsize length
  · exact encoder.intoDatum_refused s

end Cppgres
