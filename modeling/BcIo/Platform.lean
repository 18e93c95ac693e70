import BcIo.Foundation.MachineWord

/-!
# What the library takes from the platform

Bytes, errno values and the arithmetic of `size_t`, with the numeric values of
Linux on x86-64.
-/

namespace BcIo

open BcIo.Foundation.MachineWord

abbrev Byte := UInt8

/-- A value of `errno`. -/
abbrev Errno := Int

namespace Errno

def eperm : Errno := 1
def enoent : Errno := 2
def eintr : Errno := 4
def eio : Errno := 5
def eagain : Errno := 11
def enomem : Errno := 12
def eacces : Errno := 13
def enotdir : Errno := 20
def einval : Errno := 22
def erange : Errno := 34
def enametoolong : Errno := 36
def eloop : Errno := 40

end Errno

/-- The number of values of `size_t`. -/
abbrev sizeLimit : Nat := wordLimit

/-- `+` on `size_t`. -/
abbrev sizeAdd : Nat → Nat → Nat := wordAdd

/-- `-` on `size_t`. -/
abbrev sizeSub : Nat → Nat → Nat := wordSub

/-- `*` on `size_t`. -/
abbrev sizeMul : Nat → Nat → Nat := wordMul

end BcIo
