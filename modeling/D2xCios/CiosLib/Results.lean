import Mathlib.Data.Int.Notation

/-!
# Results

What the headers of the modules share: numbers of the type `u32` of `types.h`, and the results of
`ipc.h`, `fs.h` and `errno.h`.
-/

namespace D2xCios

/-- Reduction to a `u32`. -/
def u32 (n : Nat) : Nat := n % 4294967296

theorem u32_of_lt {n : Nat} (lt : n < 4294967296) : u32 n = n := Nat.mod_eq_of_lt lt

/-- The results of `ipc.h`. -/
def ipcEnoent : Int := -6
def ipcEnomem : Int := -22
def ipcEinval : Int := -101

/-- The results of `fs.h`. -/
def fsSuccess : Int := 0
def fsEfatal : Int := -101
def fsEaccess : Int := -102
def fsEexist : Int := -105
def fsEnoent : Int := -106

/-- `DIP_EIO` -/
def dipEio : Int := 0xA000

end D2xCios
