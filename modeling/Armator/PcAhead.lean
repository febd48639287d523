/-
The program counter, as an instruction reads it.

The fetch advances r15 by 4 and a read adds 4 more, "so that instructions
read their own address + 8"; it then clears bit 1, which the fetch does
not.  An instruction at an address with bit 1 set reads 2 less, and a
software interrupt there is looked up two bytes before it.  `MOV`, `LDR`
and `LDM` put any such address into r15 (`pc_ahead_astray`); a run whose
steps go on to the next word, or leave bit 1 clear, never sees it.
-/
import Armator.ReachableModes
import Armator.SoftwareInterrupt

namespace Armator

/-- Bit 1 of an address is clear. -/
def Bit1Clear (A : Word) : Prop := A.getLsbD 1 = false

instance (A : Word) : Decidable (Bit1Clear A) := inferInstanceAs (Decidable (_ = false))

theorem bit1Clear_iff (A : Word) : Bit1Clear A ↔ A.toNat / 2 % 2 = 0 := by
  unfold Bit1Clear
  rw [← getBit_eq_zero_iff_getLsbD, getBit_eq_zero_iff, pow_one]

theorem bit1Clear_add {A : Word} {n : Nat} (hn : n % 4 = 0) :
    Bit1Clear (A + BitVec.ofNat 32 n) ↔ Bit1Clear A := by
  rw [bit1Clear_iff, bit1Clear_iff, BitVec.toNat_add, BitVec.toNat_ofNat]
  omega

/-! ## One instruction -/

/-- The word the handler of software interrupts looks up. -/
def lookedUp (h : Host) (p : ArmCore) : Word :=
  (armReadWord h p (armReadRegister p 15 - 8) (h.garbage .instruction)).2

/-- The instruction fetched in `p` reads r15 as its own address and 8, as
long as r15 is not written; if it is a software interrupt the handler looks
up the very word. -/
structure PcAhead (h : Host) (p : ArmCore) : Prop where
  reads : ∀ q : ArmCore, q.reg 15 = (fetched p).reg 15 → armReadRegister q 15 = p.reg 15 + 8
  swi : p.mem.InRange (p.reg 15) 4 → ∀ ins, fetchRead h p = (0, ins) →
    lookedUp h (armCoprocessorOthersSwi (fetched p) ins).2 = ins

theorem pcAhead_iff (h : Host) (p : ArmCore) : PcAhead h p ↔ Bit1Clear (p.reg 15) := by
  have hpc : armReadRegister (fetched p) 15 = p.reg 15 + 8 ↔ Bit1Clear (p.reg 15) := by
    rw [fetched_pc, and_eq_self_iff]
    exact bit1Clear_add (n := 8) (by decide)
  constructor
  · intro hp
    exact hpc.mp (hp.reads (fetched p) rfl)
  · intro hclear
    refine ⟨fun q hq => ?_, fun hin ins hfetch => ?_⟩
    · rw [armReadRegister_pc, hq, ← armReadRegister_pc]
      exact hpc.mpr hclear
    · have hword : p.mem.wordAt h.endianess (p.reg 15) = ins := by
        rw [fetchRead, memoryReadWord_eq _ _ _ _ hin] at hfetch
        exact congrArg Prod.snd hfetch
      have hat : armReadRegister (armCoprocessorOthersSwi (fetched p) ins).2 15 - 8
          = p.reg 15 := by
        show armReadRegister (armWriteRegister (fetched p) 14 _) 15 - 8 = _
        rw [armReadRegister_write_of_ne _ _ (by decide), hpc.mpr hclear]
        ring
      rw [lookedUp, hat, armReadWord]
      show (memoryReadWord _ _ (fetched p).mem _ _ _).2 = ins
      rw [fetched_mem, memoryReadWord_eq _ _ _ _ hin, hword]

/-! ## Runs -/

/-- A step goes on to the next word, or to an address with bit 1 clear. -/
def GoesOnOrClear (p p' : ArmCore) : Prop := p'.reg 15 = p.reg 15 + 4 ∨ Bit1Clear (p'.reg 15)

theorem armCreate_pc (h : Host) (mem : Memory) : (armCreate h registersCreate mem).reg 15 = 0 := by
  rw [armCreate, armWriteRegister_reg, Function.update_of_ne (slot_ne_pc (by decide) _).symm]
  show (armException h _ 1).2.reg 15 = 0
  rw [armException_reset_reg, Function.update_self]

theorem armException_pc (h : Host) (p : ArmCore) (number : Byte) :
    (armException h p number).2.reg 15 = p.reg 15 ∨ (armException h p number).2.reg 15 = 0 := by
  by_cases h8 : number = 8
  · subst h8
    rcases armException_swi_cases h p with he | he | he <;> rw [he] <;> exact Or.inl rfl
  · by_cases h1 : number = 1
    · subst h1
      rw [armException_reset_reg, Function.update_self]
      exact Or.inr rfl
    · rw [armException_other h p h1 h8]
      exact Or.inl rfl

section

variable {h : Host} {mem : Memory} {N : Nat} {moves : Nat → Move} {s : Nat → ArmCore}

/-- Bit 1 of r15 is clear to begin with, and no move sets it. -/
theorem RunsFromCreate.bit1Clear (hrun : RunsFromCreate h mem N moves s)
    (hsteps : ∀ n < N, moves n = .step → GoesOnOrClear (s n) (s (n + 1))) {n : Nat} (hn : n ≤ N) :
    Bit1Clear ((s n).reg 15) := by
  induction n with
  | zero =>
      rw [hrun.start, armCreate_pc]
      rfl
  | succ n ih =>
      have hp := ih (Nat.le_of_succ_le hn)
      have hnext := hrun.next n hn
      cases hm : moves n with
      | step =>
          rcases hsteps n hn hm with hgo | hclear
          · rw [hgo]
            exact (bit1Clear_add (n := 4) (by decide)).mpr hp
          · exact hclear
      | exception number =>
          rw [hm] at hnext
          rw [← show (armException h (s n) number).2 = s (n + 1) from hnext]
          rcases armException_pc h (s n) number with he | he <;> rw [he]
          · exact hp
          · rfl
      | contents bytes =>
          rw [hm] at hnext
          rw [← show { s n with mem := memoryCreate (s n).mem.size bytes } = s (n + 1) from hnext]
          exact hp

/-- In any state of a run the fetched instruction reads its own address
and 8 exactly when bit 1 of the address is clear; it always is where the
steps go on to the next word or leave bit 1 clear. -/
theorem pc_ahead_iff (hrun : RunsFromCreate h mem N moves s) :
    (∀ n ≤ N, (fetchRead h (s n)).1 = 0 → (PcAhead h (s n) ↔ Bit1Clear ((s n).reg 15))) ∧
    ((∀ n < N, moves n = .step → GoesOnOrClear (s n) (s (n + 1))) →
      ∀ n ≤ N, PcAhead h (s n)) := by
  refine ⟨fun n _ _ => pcAhead_iff h (s n), fun hsteps n hn => ?_⟩
  exact (pcAhead_iff h (s n)).mpr (hrun.bit1Clear hsteps hn)

end

/-- `B` to itself at address 0. -/
def loopingMemory : Memory := (booted 16 [0xEAFFFFFE]).mem

/-- The run of that one step. -/
def loopingRun : Nat → ArmCore
  | 0 => armCreate x86Host registersCreate loopingMemory
  | _ => (armBranch (fetched (armCreate x86Host registersCreate loopingMemory)) 0xEAFFFFFE).2

theorem loopingRun_runs : RunsFromCreate x86Host loopingMemory 1 (fun _ => .step) loopingRun := by
  refine ⟨rfl, fun n hn => ⟨0, ?_⟩⟩
  obtain rfl : n = 0 := by omega
  rfl

theorem pc_ahead_iff_looping :
    (∀ n ≤ 1, (fetchRead x86Host (loopingRun n)).1 = 0 →
      (PcAhead x86Host (loopingRun n) ↔ Bit1Clear ((loopingRun n).reg 15))) ∧
    ((∀ n < 1, (fun _ => Move.step) n = .step →
        GoesOnOrClear (loopingRun n) (loopingRun (n + 1))) →
      ∀ n ≤ 1, PcAhead x86Host (loopingRun n)) :=
  pc_ahead_iff loopingRun_runs

/-- `MOV pc, #6`, and at 6, across two words, `SWI 0x123456`. -/
def jumpingMemory : Memory := (booted 16 [0xE3A0F006, 0x34560000, 0x0000EF12]).mem

/-- The run of that one step. -/
def jumpingRun : Nat → ArmCore
  | 0 => armCreate x86Host registersCreate jumpingMemory
  | _ => armWriteRegister (fetched (armCreate x86Host registersCreate jumpingMemory)) 15 6

theorem jumpingRun_runs : RunsFromCreate x86Host jumpingMemory 1 (fun _ => .step) jumpingRun := by
  refine ⟨rfl, fun n hn => ⟨0, ?_⟩⟩
  obtain rfl : n = 0 := by omega
  rfl

/-- The instruction at 6 reads 12, and the interrupt is looked up at 4. -/
theorem pc_ahead_astray :
    RunsFromCreate x86Host jumpingMemory 1 (fun _ => .step) jumpingRun ∧
    (jumpingRun 1).reg 15 = 6 ∧ fetchRead x86Host (jumpingRun 1) = (0, 0xEF123456) ∧
    armReadRegister (fetched (jumpingRun 1)) 15 = 12 ∧
    lookedUp x86Host (armCoprocessorOthersSwi (fetched (jumpingRun 1)) 0xEF123456).2
      = 0x34560000 ∧
    ¬ PcAhead x86Host (jumpingRun 1) := by
  refine ⟨jumpingRun_runs, by decide +kernel, by decide +kernel, by decide +kernel,
    by decide +kernel, fun hp => ?_⟩
  exact absurd ((pcAhead_iff ..).mp hp) (by decide +kernel)

end Armator
