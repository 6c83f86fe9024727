import Mathlib.Data.List.Basic

/-!
# A store of files

Files with contents, and handles with a position in a file. Writing replaces what
lies at the position and keeps the rest, so a file that exists is not shortened
when it is opened to be written. Names are of any type with decidable equality.
-/

namespace D2xCios.Lib

universe u

/-- The files, `none` for one that does not exist, and the open handles. -/
structure FileStore (ν : Type u) where
  file : ν → Option (List UInt8)
  handle : Int → Option (ν × Nat)

/-- Contents once `bytes` has been written at `pos`. -/
def patch (old : List UInt8) (pos : Nat) (bytes : List UInt8) : List UInt8 :=
  old.take pos ++ bytes ++ old.drop (pos + bytes.length)

/-- Bytes that are put at the start. -/
theorem patch_start (old bytes : List UInt8) :
    patch old 0 bytes = bytes ++ old.drop bytes.length := by
  simp [patch]

/-- Writing at the end of what has been written. -/
theorem patch_next (first rest bytes : List UInt8) :
    patch (first ++ rest) first.length bytes = first ++ (bytes ++ rest.drop bytes.length) := by
  have tail : (first ++ rest).drop (first.length + bytes.length) = rest.drop bytes.length := by
    rw [← List.drop_drop, List.drop_left]
  simp [patch, tail]

namespace FileStore

variable {ν : Type u} [DecidableEq ν]

/-! ## Operations -/

/-- An empty file comes into being, unless the name is taken. -/
def create (name : ν) (store : FileStore ν) : FileStore ν :=
  { store with
    file := fun other => if other = name then some ((store.file name).getD []) else store.file
      other }

def delete (name : ν) (store : FileStore ν) : FileStore ν :=
  { store with file := fun other => if other = name then none else store.file other }

/-- Move the handle `fd`. -/
def seat (fd : Int) (place : Option (ν × Nat)) (store : FileStore ν) : FileStore ν :=
  { store with handle := fun other => if other = fd then place else store.handle other }

/-- The bytes that a read through `fd` yields. -/
def readAt (fd : Int) (len : Nat) (store : FileStore ν) : List UInt8 :=
  match store.handle fd with
  | none => []
  | some (name, pos) => (((store.file name).getD []).drop pos).take len

/-- The store after that read. -/
def read (fd : Int) (len : Nat) (store : FileStore ν) : FileStore ν :=
  match store.handle fd with
  | none => store
  | some (name, pos) => store.seat fd (some (name, pos + (store.readAt fd len).length))

/-- The store after a write through `fd`. -/
def write (fd : Int) (bytes : List UInt8) (store : FileStore ν) : FileStore ν :=
  match store.handle fd with
  | none => store
  | some (name, pos) =>
    { store with
      file := fun other =>
        if other = name then some (patch ((store.file name).getD []) pos bytes)
        else store.file other
      handle := fun other =>
        if other = fd then some (name, pos + bytes.length) else store.handle other }

/-! ## What the operations do -/

variable (store : FileStore ν) {name other : ν} {fd : Int} {pos : Nat}

section Handles

omit [DecidableEq ν]

@[simp] theorem seat_file (place : Option (ν × Nat)) : (store.seat fd place).file = store.file :=
  rfl

@[simp] theorem seat_handle (place : Option (ν × Nat)) :
    (store.seat fd place).handle fd = place := by
  simp [seat]

@[simp] theorem read_file (len : Nat) : (store.read fd len).file = store.file := by
  unfold read
  split <;> rfl

/-- A read at a handle is taken from its file. -/
theorem readAt_of (seated : store.handle fd = some (name, pos)) (len : Nat) :
    store.readAt fd len = (((store.file name).getD []).drop pos).take len := by
  simp [readAt, seated]

/-- A read takes its handle behind what was read. -/
theorem read_handle (seated : store.handle fd = some (name, pos)) (len : Nat) :
    (store.read fd len).handle fd = some (name, pos + (store.readAt fd len).length) := by
  simp [read, seated]

end Handles

section Files

@[simp] theorem create_self : (store.create name).file name = some ((store.file name).getD []) := by
  simp [create]

/-- Creating a file leaves the others. -/
theorem create_other (distinct : other ≠ name) :
    (store.create name).file other = store.file other := by
  simp [create, distinct]

@[simp] theorem delete_self : (store.delete name).file name = none := by simp [delete]

/-- Deleting a file leaves the others. -/
theorem delete_other (distinct : other ≠ name) :
    (store.delete name).file other = store.file other := by
  simp [delete, distinct]

/-- A write patches the file of its handle. -/
theorem write_self (seated : store.handle fd = some (name, pos)) (bytes : List UInt8) :
    (store.write fd bytes).file name = some (patch ((store.file name).getD []) pos bytes) := by
  simp [write, seated]

/-- A write leaves the other files. -/
theorem write_other (seated : store.handle fd = some (name, pos)) (bytes : List UInt8)
    (distinct : other ≠ name) : (store.write fd bytes).file other = store.file other := by
  simp [write, seated, distinct]

/-- A write takes its handle behind what was written. -/
theorem write_handle (seated : store.handle fd = some (name, pos)) (bytes : List UInt8) :
    (store.write fd bytes).handle fd = some (name, pos + bytes.length) := by
  simp [write, seated]

end Files

end FileStore

end D2xCios.Lib
