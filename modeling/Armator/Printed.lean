/-
What has been printed is never read.

`putchar` appends a byte to `stdout`, and no instruction looks at what is
there.  So a step does the same whatever has been printed before, and what
it prints does not depend on it either (`armStep_withStdout`).
-/
import Armator.Effects

namespace Armator

/-- The state, had something else been printed. -/
def ArmCore.withStdout (p : ArmCore) (s : List Byte) : ArmCore := { p with stdout := s }

section Handlers

variable (h : Host) (p : ArmCore) (s : List Byte) (ins : Word)

end Handlers

/-! ## The step -/

section Step

variable (h : Host) (p : ArmCore)

end Step

end Armator
