import D2xCios.Lib.Cells
import D2xCios.Lib.FileStore
import Mathlib.Data.List.GetD
import Mathlib.Logic.Function.Basic

/-!
# Files in blocks

Files of bytes, each open at a position, that lie in blocks of one size. A write replaces what is at
the position, and the file gets another block whenever there are bytes for it, as long as there are
blocks that are free. No file grows to `limit`.
-/

namespace D2xCios.Lib

universe u

/-- The bytes of a file, the position at which it is open, and how many blocks it has. -/
structure BlockFile where
  bytes : List UInt8
  pos : Nat
  blocks : Nat

/-- The files, and how many blocks are free. -/
structure BlockStore (ι : Type u) where
  file : ι → BlockFile
  free : Nat

/-- What can be done with the files. -/
inductive FileOp (ι : Type u) where
  | read (i : ι) (len : Nat)
  | write (i : ι) (data : List UInt8)
  | seek (i : ι) (ofs : Nat)
  | sync (i : ι)

/-! ## One file -/

namespace BlockFile

variable (size limit free : Nat) (file : BlockFile)

/-- The bytes that a read yields. -/
def ahead (len : Nat) : List UInt8 := (file.bytes.drop file.pos).take len

/-- The file behind that read. -/
def read (len : Nat) : BlockFile := { file with pos := min (file.pos + len) file.bytes.length }

def seek (ofs : Nat) : BlockFile := { file with pos := min ofs file.bytes.length }

/-- The bytes that a write puts in the file. -/
def accepted (data : List UInt8) : List UInt8 :=
  if limit ≤ file.bytes.length + data.length then []
  else data.take ((file.blocks + free) * size - file.pos)

/-- The file once some bytes have been put in it. -/
def write (data : List UInt8) : BlockFile where
  bytes := patch file.bytes file.pos data
  pos := file.pos + data.length
  blocks := max file.blocks ((file.pos + data.length + size - 1) / size)

end BlockFile

/-! ## All files -/

namespace BlockStore

variable {ι : Type u} [DecidableEq ι] (size limit : Nat) (store : BlockStore ι)

/-- Another file in place of one. -/
def put (i : ι) (file : BlockFile) : BlockStore ι where
  file := Function.update store.file i file
  free := store.free + (store.file i).blocks - file.blocks

/-- The bytes that are moved, and the store behind the operation. -/
def step : FileOp ι → List UInt8 × BlockStore ι
  | .read i len => ((store.file i).ahead len, store.put i ((store.file i).read len))
  | .write i data =>
    let bytes := (store.file i).accepted size limit store.free data
    (bytes, store.put i ((store.file i).write size bytes))
  | .seek i ofs => ([], store.put i ((store.file i).seek ofs))
  | .sync _ => ([], store)

/-- The bytes that are moved by one operation after the other. -/
def run (store : BlockStore ι) : List (FileOp ι) → List (List UInt8) × BlockStore ι
  | [] => ([], store)
  | op :: ops =>
    let rest := run (store.step size limit op).2 ops
    ((store.step size limit op).1 :: rest.1, rest.2)

end BlockStore

/-! ## Bytes in memory -/

/-- Memory in which some bytes have been stored is the patched file. -/
theorem window_patch (old new : Cells UInt8) {pos len : Nat} (data : List UInt8)
    (pos_le : pos ≤ len)
    (stored : ∀ k, k < max len (pos + data.length) →
      new k = if pos ≤ k ∧ k < pos + data.length then data.getD (k - pos) 0 else old k) :
    Cells.window new 0 (max len (pos + data.length)) = patch (Cells.window old 0 len) pos data := by
  have first : (Cells.window old 0 len).take pos = Cells.window old 0 pos := by
    rw [← List.drop_zero (l := (Cells.window old 0 len)), Cells.window_part]
    congr 1
    omega
  have last : (Cells.window old 0 len).drop (pos + data.length) =
      Cells.window old (pos + data.length) (len - (pos + data.length)) := by
    have part := Cells.window_part old 0 len (pos + data.length) len
    rw [List.take_of_length_le (by rw [List.length_drop, Cells.window_length]; omega)] at part
    rw [part, Nat.zero_add]
    congr 1
    omega
  have split : max len (pos + data.length) =
      pos + (data.length + (len - (pos + data.length))) := by omega
  rw [patch, first, last, split, ← Cells.window_append, ← Cells.window_append, Nat.zero_add,
    List.append_assoc]
  congr 1
  · refine Cells.window_congr fun i i_lt => ?_
    rw [stored _ (by omega), if_neg (by omega)]
  · congr 1
    · refine Cells.window_eq_of_getElem fun i i_lt => ?_
      rw [stored _ (by omega), if_pos (by omega), Nat.add_sub_cancel_left,
        List.getD_eq_getElem _ _ i_lt]
    · refine Cells.window_congr fun i i_lt => ?_
      rw [stored _ (by omega), if_neg (by omega)]

/-- A file that has taken blocks one at a time has as many as its bytes need. -/
theorem blocks_eq {size : Nat} (n old new : Nat) (size_pos : 0 < size) (fits : n ≤ new * size)
    (le : old ≤ new) (tight : new = old ∨ new * size < n + size) :
    new = max old ((n + size - 1) / size) := by
  rcases tight with rfl | tight
  · have enough : (n + size - 1) / size ≤ new := by
      refine Nat.lt_succ_iff.1 ((Nat.div_lt_iff_lt_mul size_pos).2 ?_)
      rw [Nat.succ_mul]
      omega
    omega
  · have exactly : (n + size - 1) / size = new := by
      refine Nat.div_eq_of_lt_le (by omega) ?_
      rw [Nat.succ_mul]
      omega
    omega

end D2xCios.Lib
