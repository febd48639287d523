/-
Branches, and where they go.

B and BL add a signed number of words to the program counter, which reads
eight bytes ahead.  `sign_extend_30` makes that number from 24 bits by
setting the bits above it when bit 23 is set, and the mask it uses reaches
one bit too low: it sets bit 22 as well.  A branch back by more than 2^22
words goes 2^24 bytes too far on, and every other branch goes where it
should (`branch_iff`).
-/
import Armator.BlockTransfer
import Armator.Lib.WordArith

namespace Armator

open WordArith

/-! ## The offset -/

/-- The number of words the 24 low bits stand for. -/
def branchOffset (ins : Word) : Int := (ins.setWidth 24).toInt

theorem signExtend30_eq (value : Word) :
    signExtend30 value = if getBit value 23 = 1 then value ||| 0xFFC00000 else value := by
  have hbit : value &&& 0x00800000 ≠ 0 ↔ getBit value 23 = 1 := by
    rw [show (0x00800000 : Word) = BitVec.twoPow 32 23 from rfl, BitVec.and_twoPow,
      getBit_eq_one_iff_getLsbD]
    cases value.getLsbD 23 <;> decide
  unfold signExtend30
  exact if_congr hbit rfl rfl

/-- The mask sets bit 22: the extension is right where that bit has the sign
already, and of numbers that are not negative. -/
theorem signExtend30_shift_eq_iff (ins : Word) :
    signExtend30 (getBits ins 23 0) <<< 2 = BitVec.ofInt 32 (4 * branchOffset ins) ↔
      getBit ins 23 = 0 ∨ getBit ins 22 = 1 := by
  have hfield : (getBits ins 23 0).toNat = ins.toNat % 2 ^ 24 := by
    rw [toNat_getBits, Nat.pow_zero, Nat.div_one]
  have hmask : (getBits ins 23 0 ||| 0xFFC00000).toNat
      = (2 ^ 10 - 1) * 2 ^ 22 + ins.toNat % 2 ^ 24 % 2 ^ 22 := by
    rw [← hfield]
    exact toNat_or_high (m := 10) (n := 22) _ (by decide)
  have h23 : getBit (getBits ins 23 0) 23 = getBit ins 23 := by
    have hcopy : getBits ins 23 0 = getBits ins 23 0 := rfl
    exact (getBit_of_field hcopy).symm
  rw [signExtend30_eq, h23, branchOffset, BitVec.toInt_eq_toNat_cond, BitVec.toNat_setWidth,
    ← BitVec.toNat_inj, BitVec.toNat_shiftLeft, Nat.shiftLeft_eq, BitVec.toNat_ofInt]
  by_cases hneg : getBit ins 23 = 1
  · rw [if_pos hneg, hmask, getBit_eq_zero_iff, getBit_eq_one_iff]
    rw [getBit_eq_one_iff] at hneg
    rw [if_neg (by omega)]
    omega
  · rw [if_neg hneg, hfield, getBit_eq_zero_iff, getBit_eq_one_iff]
    rw [getBit_eq_one_iff] at hneg
    rw [if_pos (by omega)]
    omega

/-! ## The instruction -/

/-- Between `p` and `p'` the word at `A` has branched: r15 is at the target,
BL has left the address of the next word in r14, and nothing else of the
registers and the memory has changed. -/
structure Branches (ins A : Word) (p p' : ArmCore) : Prop where
  pc : p'.reg 15 = A + 8 + BitVec.ofInt 32 (4 * branchOffset ins)
  link : getBit ins 24 = 1 → armReadRegister p' 14 = A + 4
  registers : ∀ k : Fin 37, k ≠ 15 →
    (getBit ins 24 = 1 → k ≠ slot 14 (registersGetMode p.reg)) → p'.reg k = p.reg k
  mem : p'.mem = p.mem

/-- Where the code goes. -/
def branchTarget (A ins : Word) : Word :=
  let offset := signExtend30 (getBits ins 23 0) <<< 2
  A + 8 + offset

theorem branchTarget_eq_iff (A ins : Word) :
    branchTarget A ins = A + 8 + BitVec.ofInt 32 (4 * branchOffset ins) ↔
      getBit ins 23 = 0 ∨ getBit ins 22 = 1 := by
  rw [branchTarget, add_right_inj, signExtend30_shift_eq_iff]

/-- The state a branch at `A` leaves. -/
def branchState (p : ArmCore) (A ins : Word) : ArmCore :=
  armWriteRegister (if getBit ins 24 = 1 then armWriteRegister p 14 (A + 4) else p) 15
    (branchTarget A ins)

theorem armBranch_eq {p : ArmCore} {A : Word} (hpc : armReadRegister p 15 = A + 8) (ins : Word) :
    armBranch p ins = (0, branchState p A ins) := by
  have h4 : A + 8 - 4 = A + 4 := by ring
  unfold armBranch branchState branchTarget
  simp only [hpc, h4, getBit_ne_zero_iff]

theorem branchState_reg (p : ArmCore) (A ins : Word) :
    (branchState p A ins).reg = Function.update
      (if getBit ins 24 = 1 then
        Function.update p.reg (slot 14 (registersGetMode p.reg)) (A + 4) else p.reg)
      15 (branchTarget A ins) := by
  rw [branchState, armWriteRegister_reg, slot_pc]
  split
  · rw [armWriteRegister_reg]
  · rfl

theorem branchState_mem (p : ArmCore) (A ins : Word) : (branchState p A ins).mem = p.mem := by
  rw [branchState, armWriteRegister_mem]
  split <;> rfl

theorem branchState_link (p : ArmCore) (A : Word) {ins : Word} (h24 : getBit ins 24 = 1) :
    armReadRegister (branchState p A ins) 14 = A + 4 := by
  rw [branchState, if_pos h24, armReadRegister_write_of_ne _ _ (by decide),
    armReadRegister_write_self _ _ (by decide)]

/-- B and BL go where the 24 bits say, with the link and nothing else
changed, exactly when they do not go back by more than 2^22 words. -/
theorem branch_iff (h : Host) (p : ArmCore) {A ins : Word} (hx : Executes h p ins)
    (hA : p.reg 15 = A) (ha : A.toNat % 4 = 0) (hb : getBits ins 27 25 = 0b101) :
    ∃ p', armStep h p = .ok (0, p') ∧
      (Branches ins A p p' ↔ getBit ins 23 = 0 ∨ getBit ins 22 = 1) := by
  have hpc : armReadRegister (fetched p) 15 = A + 8 := by
    rw [fetched_pc, hA]
    exact and_of_aligned (aligned_add ha (n := 8) (by decide))
  refine ⟨branchState (fetched p) A ins, ?_, ?_⟩
  · rw [armStep_of_executes hx, dispatch_eq, insClass_branch hb, handler, armBranch_eq hpc,
      raise_zero]
  · have htarget : (branchState (fetched p) A ins).reg 15 = branchTarget A ins := by
      rw [branchState_reg, Function.update_self]
    rw [← branchTarget_eq_iff, ← htarget]
    refine ⟨Branches.pc, fun hgoes => ⟨hgoes, branchState_link _ A, ?_, branchState_mem ..⟩⟩
    intro k hk hlink
    rw [branchState_reg, Function.update_of_ne hk, fetched_mode, fetched_reg]
    split
    · rw [Function.update_of_ne (hlink ‹_›), Function.update_of_ne hk]
    · rw [Function.update_of_ne hk]

/-- `BL` four words on, at address 0. -/
def branchingOn : ArmCore := booted 64 [0xEB000002]

theorem branch_iff_branchingOn :
    ∃ p', armStep x86Host branchingOn = .ok (0, p') ∧
      (Branches 0xEB000002 0 branchingOn p' ↔
        getBit 0xEB000002 23 = 0 ∨ getBit 0xEB000002 22 = 1) :=
  branch_iff x86Host branchingOn ⟨by decide +kernel, by decide +kernel⟩ (by decide +kernel)
    (by decide) (by decide)

/-- `B` back by 2^23 words, at address 0. -/
def branchingBack : ArmCore := booted 64 [0xEA800000]

/-- It should go to 8 - 2^25, and goes to 8 - 2^24. -/
theorem branch_back_astray :
    Executes x86Host branchingBack 0xEA800000 ∧ branchingBack.reg 15 = 0 ∧
    branchOffset 0xEA800000 = -2 ^ 23 ∧
    ∃ p', armStep x86Host branchingBack = .ok (0, p') ∧ p'.reg 15 = 8 - 2 ^ 24 ∧
      ¬ Branches 0xEA800000 0 branchingBack p' := by
  refine ⟨⟨by decide +kernel, by decide +kernel⟩, by decide +kernel, by decide, _, rfl,
    by decide +kernel, ?_⟩
  intro hbranches
  exact absurd hbranches.pc (by decide +kernel)

end Armator
