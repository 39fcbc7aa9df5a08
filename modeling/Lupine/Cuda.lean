import Mathlib.Algebra.Group.Nat.Even

/-!
# The CUDA driver, as far as the server looks at it

Result codes are compared and passed on, never computed with; handles are opaque words of which
zero is the null handle.
-/

namespace Lupine

/-- `CUresult`: the codes this program names, and any other failure by its number. -/
inductive CUresult where
  | success
  | errorInvalidValue
  | errorOutOfMemory
  | errorInvalidContext
  | errorNotReady
  | errorDeviceUnavailable
  | error (code : Nat)
  deriving DecidableEq, Repr

/-- `CUcontext`; zero is `nullptr`. -/
abbrev CUcontext := Nat

/-- `CUdeviceptr`. -/
abbrev CUdeviceptr := Nat

/-- Device pointer arithmetic, which is that of a 64-bit word. -/
def devAdd (destination : CUdeviceptr) (offset : Nat) : CUdeviceptr :=
  (destination + offset) % 2 ^ 64

/-- A host address; zero is `nullptr`. -/
abbrev HostPtr := Nat

/-- `CUstream`; zero is the NULL stream. -/
abbrev CUstream := Nat

/-- `CUevent`. -/
abbrev CUevent := Nat

/-- `CUgraph`. -/
abbrev CUgraph := Nat

/-- `CUgraphExec`. -/
abbrev CUgraphExec := Nat

end Lupine
