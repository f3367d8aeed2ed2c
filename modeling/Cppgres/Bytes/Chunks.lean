import Cppgres.Bytes.LittleEndian

/-!
# Memory in chunks

Memory is a list of chunks of bytes, a pointer is a place in one of them. Code that goes outside of
its chunk has no meaning.
-/
namespace Bytes

structure Memory where
  chunks : List (List Byte)
  deriving DecidableEq, Repr

structure Pointer where
  chunk : Nat
  offset : Nat
  deriving DecidableEq, Repr

/-- An error that is raised, or behaviour that is not defined. -/
inductive MemoryFailure where
  | raised (what : String)
  | undefined
  deriving DecidableEq, Repr

abbrev MemoryCode (α : Type) := EStateM MemoryFailure Memory α

namespace Pointer

def add (p : Pointer) (bytes : Nat) : Pointer := { p with offset := p.offset + bytes }

/-- The bytes from a pointer on, of which there is one at least. -/
def image (p : Pointer) : MemoryCode (List Byte) := fun m =>
  match m.chunks[p.chunk]? with
  | some chunk => if p.offset < chunk.length then .ok (chunk.drop p.offset) m else .error .undefined m
  | none => .error .undefined m

def load (p : Pointer) (length : Nat) : MemoryCode (List Byte) := fun m =>
  match m.chunks[p.chunk]? with
  | some chunk =>
    if p.offset + length ≤ chunk.length then .ok ((chunk.drop p.offset).take length) m
    else .error .undefined m
  | none => .error .undefined m

/-- A chunk with other bytes at an offset. -/
def overwrite (chunk : List Byte) (offset : Nat) (bytes : List Byte) : List Byte :=
  chunk.take offset ++ bytes ++ chunk.drop (offset + bytes.length)

def store (p : Pointer) (bytes : List Byte) : MemoryCode Unit := fun m =>
  match m.chunks[p.chunk]? with
  | some chunk =>
    if p.offset + bytes.length ≤ chunk.length then
      .ok () { m with chunks := m.chunks.set p.chunk (overwrite chunk p.offset bytes) }
    else .error .undefined m
  | none => .error .undefined m

end Pointer

/-- A chunk more, and a pointer to it. -/
def allocate (chunk : List Byte) : MemoryCode Pointer := fun m =>
  .ok ⟨m.chunks.length, 0⟩ { m with chunks := m.chunks ++ [chunk] }

def raise {α : Type} (what : String) : MemoryCode α := fun m => .error (.raised what) m

def undefinedBehaviour {α : Type} : MemoryCode α := fun m => .error .undefined m

section Sequence
variable {α γ : Type} {code : MemoryCode α} {next : α → MemoryCode γ} {m after : Memory}

theorem bind_ok {value : α} (run : code m = .ok value after) :
    (code >>= next) m = next value after := by
  change EStateM.bind code next m = _
  unfold EStateM.bind
  rw [run]

theorem bind_error {failure : MemoryFailure} (run : code m = .error failure after) :
    (code >>= next) m = .error failure after := by
  change EStateM.bind code next m = _
  unfold EStateM.bind
  rw [run]

end Sequence

/-! ## The chunk that was allocated last -/

section Last
variable {m : Memory} {chunk bytes : List Byte} {offset length : Nat}

/-- The memory with a chunk more. -/
def Memory.with (m : Memory) (chunk : List Byte) : Memory := { m with chunks := m.chunks ++ [chunk] }

def Memory.last (m : Memory) (offset : Nat) : Pointer := ⟨m.chunks.length, offset⟩

theorem chunk_last : (m.with chunk).chunks[(m.last offset).chunk]? = some chunk := by
  simp [Memory.with, Memory.last]

theorem image_last (inside : offset < chunk.length) :
    (m.last offset).image (m.with chunk) = .ok (chunk.drop offset) (m.with chunk) := by
  have placed : (m.last offset).offset < chunk.length := inside
  simp only [Pointer.image, chunk_last]
  rw [if_pos placed]
  rfl

theorem load_last (inside : offset + length ≤ chunk.length) :
    (m.last offset).load length (m.with chunk) =
      .ok ((chunk.drop offset).take length) (m.with chunk) := by
  have placed : (m.last offset).offset + length ≤ chunk.length := inside
  simp only [Pointer.load, chunk_last]
  rw [if_pos placed]
  rfl

theorem store_last (inside : offset + bytes.length ≤ chunk.length) :
    (m.last offset).store bytes (m.with chunk) =
      .ok () (m.with (Pointer.overwrite chunk offset bytes)) := by
  have placed : (m.last offset).offset + bytes.length ≤ chunk.length := inside
  simp only [Pointer.store, chunk_last]
  rw [if_pos placed]
  simp [Memory.with, Memory.last]

@[simp] theorem length_overwrite (inside : offset + bytes.length ≤ chunk.length) :
    (Pointer.overwrite chunk offset bytes).length = chunk.length := by
  simp [Pointer.overwrite]
  omega

/-- A header, and then all that is behind it. -/
theorem overwrite_both {header : List Byte} (whole : header.length + bytes.length = chunk.length) :
    Pointer.overwrite (Pointer.overwrite chunk 0 header) header.length bytes = header ++ bytes := by
  have behind : chunk.drop (header.length + bytes.length) = [] :=
    List.drop_eq_nil_of_le (by omega)
  simp [Pointer.overwrite, List.drop_append, behind]

end Last

end Bytes
