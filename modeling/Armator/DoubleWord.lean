/-
Subtraction of double words.

`SUBS` of the low words and `SBC` of the high ones subtract 64-bit numbers:
the borrow of the first travels to the second in C, where a clear flag
means that something was borrowed.
-/
import Armator.Opcode
import Armator.BlockTransfer
import Armator.Lib.WordArith

namespace Armator

open WordArith

/-- `op Rd, Rn, Rm` without a shift, and its S bit. -/
structure RegisterForm (op : Opcode) (S : Word) (Rd Rn Rm : Fin 16) (ins : Word) : Prop where
  opcode : (getBits ins 24 21).toNat = op.code
  S : getBit ins 20 = S
  Rd : rdNum ins = Rd
  Rn : regNum (getBits ins 19 16) = Rn
  Rm : regNum (getBits ins 3 0) = Rm
  unshifted : getBits ins 11 4 = 0

section

variable {op : Opcode} {S : Word} {Rd Rn Rm : Fin 16} {ins : Word}

/-- The operand is the register. -/
theorem RegisterForm.shifterValues (hi : RegisterForm op S Rd Rn Rm ins) (p : ArmCore) :
    shifterValuesCalculator p ins (flagC p) = some ⟨flagC p, armReadRegister p Rm⟩ := by
  have h4 : getBit ins 4 = 0 := getBit_of_field hi.unshifted
  have h64 : getBits ins 6 4 = 0 := getBits_of_field hi.unshifted
  have h117 : getBits ins 11 7 = 0 := getBits_of_field hi.unshifted
  rw [shifterValuesCalculator, hi.Rm]
  simp only [if_pos h4, immediateShift, h64, h117]
  rfl

theorem RegisterForm.run (hi : RegisterForm op S Rd Rn Rm ins) (p : ArmCore) (hRd : Rd ≠ 15) :
    armDataProcessingShift p ins
      = .ok (0, opState op p ins ⟨flagC p, armReadRegister p Rm⟩) := by
  rw [armDataProcessingShift_eq (hi.shifterValues p),
    dataProcessing_eq p _ hi.opcode fun _ => hi.Rd ▸ hRd]

/-- The destination holds the result. -/
theorem RegisterForm.result (hi : RegisterForm op S Rd Rn Rm ins) (p : ArmCore) (hRd : Rd ≠ 15)
    (hc : op.compares = false) :
    armReadRegister (opState op p ins ⟨flagC p, armReadRegister p Rm⟩) Rd
      = op.value (armReadRegister p Rn) (armReadRegister p Rm) (carryIn p) := by
  have hres := (aluStep_opState (p := p) ⟨flagC p, armReadRegister p Rm⟩
    fun _ => hi.Rd ▸ hRd).result hc
  rwa [hi.Rd, rnValue, hi.Rn] at hres

/-- The other registers read as before. -/
theorem RegisterForm.other (hi : RegisterForm op S Rd Rn Rm ins) (p : ArmCore)
    (hc : op.compares = false) {n : Fin 16} (hn : n ≠ Rd) (sv : ShifterValues) :
    armReadRegister (opState op p ins sv) n = armReadRegister p n := by
  rw [armReadRegister_opState, opWritten, hc, if_neg Bool.false_ne_true, hi.Rd,
    armReadRegister_write_of_ne _ _ hn]

end

/-- After `SUBS` what C is short of 1 is the borrow. -/
theorem borrow_of_subs {Rd Rn Rm : Fin 16} {ins : Word} (hi : RegisterForm .sub 1 Rd Rn Rm ins)
    (p : ArmCore) (sv : ShifterValues) :
    1 - carryIn (opState .sub p ins sv) = BitVec.ofNat 32
      (if (armReadRegister p Rn).toNat < sv.shifterOperand.toNat then 1 else 0) := by
  have hc : (armReadCpsr (opState .sub p ins sv)).getLsbD 29
      = !borrowFrom (armReadRegister p Rn) sv.shifterOperand := by
    rw [armReadCpsr_opState p sv (Or.inr hi.S), opFlags, rnValue, hi.Rn]
    exact arithFlags_c ..
  unfold carryIn
  by_cases hlt : (armReadRegister p Rn).toNat < sv.shifterOperand.toNat
  · rw [borrowFrom, decide_eq_true hlt, Bool.not_true, ← getBit_eq_zero_iff_getLsbD] at hc
    rw [if_pos hlt, hc]
    rfl
  · rw [borrowFrom, decide_eq_false hlt, Bool.not_false, ← getBit_eq_one_iff_getLsbD] at hc
    rw [if_neg hlt, hc]
    rfl

/-- `SUBS dl, xl, yl` and then `SBC dh, xh, yh` leave in dh:dl the difference
of xh:xl and yh:yl, modulo 2^64, whatever the flags were. -/
theorem double_word_subtraction (p : ArmCore) {dl dh xl xh yl yh : Fin 16} {S low high : Word}
    (hlow : RegisterForm .sub 1 dl xl yl low) (hhigh : RegisterForm .sbc S dh xh yh high)
    (hdl : dl ≠ 15) (hdh : dh ≠ 15) (hd : dl ≠ dh) (hx : dl ≠ xh) (hy : dl ≠ yh) :
    ∃ p₁ p₂, armDataProcessingShift p low = .ok (0, p₁) ∧
      armDataProcessingShift p₁ high = .ok (0, p₂) ∧
      armReadRegister p₂ dh ++ armReadRegister p₂ dl
        = (armReadRegister p xh ++ armReadRegister p xl)
          - (armReadRegister p yh ++ armReadRegister p yl) := by
  refine ⟨_, _, hlow.run p hdl, hhigh.run _ hdh, ?_⟩
  rw [hhigh.result _ hdh rfl, hhigh.other _ rfl hd, hlow.result p hdl rfl,
    hlow.other p rfl (Ne.symm hx), hlow.other p rfl (Ne.symm hy),
    append_sub_append (by decide) (by decide)]
  simp only [Opcode.value, borrow_of_subs hlow]

/-- A processor with 2^32 in r1:r0 and 1 in r3:r2. -/
def givenDoubleWords : ArmCore := writeRegisters (booted 16 []) [(0, 0), (1, 1), (2, 1), (3, 0)]

/-- `SUBS r0, r0, r2` and `SBC r1, r1, r3`, where the low words borrow. -/
theorem double_word_subtraction_in_place :
    ∃ p₁ p₂, armDataProcessingShift givenDoubleWords 0xE0500002 = .ok (0, p₁) ∧
      armDataProcessingShift p₁ 0xE0C11003 = .ok (0, p₂) ∧
      armReadRegister p₂ 1 ++ armReadRegister p₂ 0
        = (armReadRegister givenDoubleWords 1 ++ armReadRegister givenDoubleWords 0)
          - (armReadRegister givenDoubleWords 3 ++ armReadRegister givenDoubleWords 2) :=
  double_word_subtraction givenDoubleWords
    ⟨by decide, by decide, by decide, by decide, by decide, by decide⟩
    ⟨by decide, rfl, by decide, by decide, by decide, by decide⟩ (by decide) (by decide)
    (by decide) (by decide) (by decide)

end Armator
