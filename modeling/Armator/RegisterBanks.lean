/-
The banked register file refines the architectural one.

The architecture has 37 registers: r0 to r15 as USR and SYS see them,
FIQ's own r8 to r12, a stack pointer and a link register for each
exception mode, the CPSR, and an SPSR for each exception mode.  `ArchReg`
names them, and only them.  The 37 slots of the array are these registers,
one each; so any run of writes is read back as its last writes.
-/
import Armator.Lib.Replay
import Armator.Registers

namespace Armator

open Replay

/-! ## The architectural registers -/

/-- The modes that have banked registers. -/
inductive ExcMode where
  | fiq | irq | svc | abt | und
deriving DecidableEq

/-- The seven modes. -/
inductive Mode where
  | usr | sys
  | exc (m : ExcMode)
deriving DecidableEq

def Mode.code : Mode → Byte
  | .usr => USR
  | .sys => SYS
  | .exc .fiq => FIQ
  | .exc .irq => IRQ
  | .exc .svc => SVC
  | .exc .abt => ABT
  | .exc .und => UND

inductive ArchReg where
  /-- r0 to r15 of USR and SYS -/
  | user (n : Fin 16)
  /-- r8 to r12 of FIQ -/
  | fiqHigh (n : Fin 5)
  | sp (m : ExcMode)
  | lr (m : ExcMode)
  | cpsr
  | spsr (m : ExcMode)
deriving DecidableEq

/-- The register that `n` names in a mode: r0 to r7 and r15 are one for
all modes, r8 to r12 are shared by all modes but FIQ, r13 and r14 are
private to each exception mode and shared by USR and SYS. -/
def archReg (n : Fin 16) : Mode → ArchReg
  | .usr | .sys => .user n
  | .exc m =>
      if n = 13 then .sp m
      else if n = 14 then .lr m
      else if h : m = .fiq ∧ 8 ≤ n.val ∧ n.val ≤ 12 then .fiqHigh ⟨n - 8, by omega⟩
      else .user n

/-- The slot a register occupies. -/
def ArchReg.slot : ArchReg → Fin 37
  | .user n => ⟨n, by omega⟩
  | .fiqHigh n => ⟨n + 24, by omega⟩
  | .sp .svc => 16 | .lr .svc => 17
  | .sp .abt => 18 | .lr .abt => 19
  | .sp .und => 20 | .lr .und => 21
  | .sp .irq => 22 | .lr .irq => 23
  | .sp .fiq => 29 | .lr .fiq => 30
  | .cpsr => 31
  | .spsr .svc => 32 | .spsr .abt => 33 | .spsr .und => 34
  | .spsr .irq => 35 | .spsr .fiq => 36

/-- No two registers share a slot. -/
theorem ArchReg.slot_injective : Function.Injective ArchReg.slot := by
  intro a b h
  have hv := congrArg Fin.val h
  cases a with
  | user n =>
      cases b with
      | user n' => exact congrArg _ (Fin.ext hv)
      | fiqHigh n' => simp only [slot] at hv; omega
      | sp m | lr m | spsr m => cases m <;> simp [slot] at hv <;> omega
      | cpsr => simp [slot] at hv; omega
  | fiqHigh n =>
      cases b with
      | user n' => simp only [slot] at hv; omega
      | fiqHigh n' => exact congrArg _ (Fin.ext (by simpa [slot] using hv))
      | sp m | lr m | spsr m => cases m <;> simp [slot] at hv <;> omega
      | cpsr => simp [slot] at hv; omega
  | sp m | lr m | spsr m =>
      cases b with
      | user n' => cases m <;> simp [slot] at hv <;> omega
      | fiqHigh n' => cases m <;> simp [slot] at hv <;> omega
      | sp m' | lr m' | spsr m' => cases m <;> cases m' <;> first | rfl | exact absurd h (by decide)
      | cpsr => cases m <;> exact absurd h (by decide)
  | cpsr =>
      cases b with
      | user n' => simp [slot] at hv; omega
      | fiqHigh n' => simp [slot] at hv; omega
      | sp m' | lr m' | spsr m' => cases m' <;> exact absurd h (by decide)
      | cpsr => rfl

/-- The bank map of the code is the architectural one. -/
theorem slot_eq_archReg (n : Fin 16) (m : Mode) : slot n m.code = (archReg n m).slot := by
  revert n
  rcases m with _ | _ | _ | _ | _ | _ | _ <;> decide

/-! ## Operations and their entries -/

/-- The architectural registers a register array holds. -/
def archView (r : Registers) (k : ArchReg) : Word := r k.slot

inductive RegOp where
  | write (reg : Fin 16) (mode : Mode) (value : Word)
  | writeCpsr (value : Word)
  | writeSpsr (mode : Mode) (value : Word)

/-- The call an operation stands for. -/
def RegOp.apply (r : Registers) : RegOp → Registers
  | .write reg mode value => registersWrite r reg mode.code value
  | .writeCpsr value => registersWriteCpsr r value
  | .writeSpsr mode value => registersWriteSpsr r mode.code value

/-- The architectural register an operation writes, if it writes one:
there is no SPSR in USR and SYS. -/
def RegOp.entries : RegOp → List (ArchReg × Word)
  | .write reg mode value => [(archReg reg mode, value)]
  | .writeCpsr value => [(.cpsr, value)]
  | .writeSpsr (.exc m) value => [(.spsr m, value)]
  | .writeSpsr _ _ => []

theorem registersRead_archView (r : Registers) (n : Fin 16) (m : Mode) :
    registersRead r n m.code = archView r (archReg n m) := by
  rw [registersRead_eq, slot_eq_archReg]
  rfl

theorem registersReadSpsr_archView (r : Registers) (m : ExcMode) :
    registersReadSpsr r (Mode.exc m).code = archView r (.spsr m) := by
  cases m <;> rfl

theorem registersWriteSpsr_exc (r : Registers) (m : ExcMode) (value : Word) :
    registersWriteSpsr r (Mode.exc m).code value
      = Function.update r (ArchReg.spsr m).slot value := by
  cases m <;> rfl

/-- A write to a register's slot is a write to the register. -/
theorem archView_update (r : Registers) (k : ArchReg) (value : Word) :
    archView (Function.update r k.slot value) = Function.update (archView r) k value :=
  Function.update_comp_eq_of_injective r ArchReg.slot_injective k value

/-- One operation replays its own entries. -/
theorem RegOp.archView_apply (r : Registers) (op : RegOp) :
    archView (op.apply r) = replay (archView r) op.entries := by
  cases op with
  | write reg mode value =>
      rw [RegOp.apply, registersWrite_eq, slot_eq_archReg]
      exact archView_update r (archReg reg mode) value
  | writeCpsr value => exact archView_update r .cpsr value
  | writeSpsr mode value =>
      cases mode with
      | usr | sys => rfl
      | exc m =>
          rw [RegOp.apply, registersWriteSpsr_exc]
          exact archView_update r (.spsr m) value

/-- After a run from the cleared array, every architectural register holds
its last write, or 0. -/
theorem archView_run (ops : List RegOp) (k : ArchReg) :
    archView (ops.foldl RegOp.apply registersCreate) k
      = (lastWrite (ops.flatMap RegOp.entries) k).getD 0 := by
  have hrun := (foldl_replay archView RegOp.apply RegOp.entries (fun _ => True) (fun _ => True)
    (fun r op _ _ => ⟨trivial, RegOp.archView_apply r op⟩) ops registersCreate trivial
    (fun _ _ => trivial)).2
  rw [hrun, replay_apply]
  rfl

/-! ## The refinement -/

/-- Any run of register, CPSR and SPSR writes is read back, through the
functions of the source, as the last writes to the architectural
registers. -/
theorem registers_refine_architecture (ops : List RegOp) :
    (∀ n m, registersRead (ops.foldl RegOp.apply registersCreate) n (Mode.code m)
      = (lastWrite (ops.flatMap RegOp.entries) (archReg n m)).getD 0) ∧
    registersReadCpsr (ops.foldl RegOp.apply registersCreate)
      = (lastWrite (ops.flatMap RegOp.entries) .cpsr).getD 0 ∧
    (∀ m, registersReadSpsr (ops.foldl RegOp.apply registersCreate) (Mode.exc m).code
      = (lastWrite (ops.flatMap RegOp.entries) (.spsr m)).getD 0) ∧
    registersReadSpsr (ops.foldl RegOp.apply registersCreate) Mode.usr.code = 0 ∧
    registersReadSpsr (ops.foldl RegOp.apply registersCreate) Mode.sys.code = 0 := by
  refine ⟨fun n m => ?_, archView_run ops .cpsr, fun m => ?_, rfl, rfl⟩
  · rw [registersRead_archView, archView_run]
  · rw [registersReadSpsr_archView, archView_run]

end Armator
