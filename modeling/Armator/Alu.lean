/-
The arithmetic of the data-processing instructions.

The two switches of `arm_data_processing.c` are one: `shiftSwitch_eq` and
`immediateSwitch_eq` both bring them to a result (`aluResult`), a flag
update (`aluFlags`), and the choice between writing `Rd` and comparing.
What is said later about the sixteen opcodes is said about these.

At the end the two functions are compared: an immediate rotated right by
`2r` and a register that holds it, rotated by the instruction, behave the
same.
-/
import Armator.Step

namespace Armator

/-! ## Flags

A flag update sets its own bits and keeps the 28 lower ones. -/

theorem getLsbD_putBit (x : Word) {i : Nat} (hi : i < 32) (j : Nat) (b : Bool) :
    (putBit x i b).getLsbD j = if j = i then b else x.getLsbD j := by
  unfold putBit
  cases b with
  | true => rw [if_pos rfl, getLsbD_setBit_ite x i j hi]
  | false => rw [if_neg Bool.false_ne_true, getLsbD_clrBit_ite x i j hi]

theorem decide_getBit (x : Word) (i : Nat) : decide (getBit x i ≠ 0) = x.getLsbD i := by
  rw [Bool.eq_iff_iff, decide_eq_true_eq, getBit_ne_zero_iff, getBit_eq_one_iff_getLsbD]

theorem getLsbD_31 (x : Word) : x.getLsbD 31 = x.msb :=
  (BitVec.msb_eq_getLsbD_last x).symm

theorem getBit_31_eq_zero_iff (x : Word) : getBit x 31 = 0 ↔ x.msb = false := by
  rw [getBit_eq_zero_iff_getLsbD, getLsbD_31]

theorem overflowFrom_eq (d a b : Word) :
    overflowFrom d a b = (a.msb == b.msb && d.msb != a.msb) := by
  have hbit : ∀ x : Word, getBit x 31 = if x.msb then 1 else 0 := by
    intro x
    cases hx : x.msb with
    | true => exact (getBit_eq_one_iff_getLsbD x 31).mpr ((getLsbD_31 x).trans hx)
    | false => exact (getBit_eq_zero_iff_getLsbD x 31).mpr ((getLsbD_31 x).trans hx)
  rw [overflowFrom, hbit d, hbit a, hbit b]
  cases d.msb <;> cases a.msb <;> cases b.msb <;> rfl

section

variable (cpsr result : Word) (c v : Bool) (carry : Byte)

theorem getLsbD_putNZ (j : Nat) :
    (putNZ cpsr result).getLsbD j
      = if j = 30 then decide (result = 0) else if j = 31 then result.msb else cpsr.getLsbD j := by
  have hn : decide (getBit result 31 = 1) = result.msb := by
    rw [← getLsbD_31, Bool.eq_iff_iff, decide_eq_true_eq, getBit_eq_one_iff_getLsbD]
  rw [putNZ, getLsbD_putBit _ (by decide), getLsbD_putBit _ (by decide), hn]

/-- Every bit of the CPSR after an arithmetic operation, and then after a
logical one. -/
theorem arithFlags_bit (j : Nat) :
    (arithFlags cpsr result c v).getLsbD j
      = if j = 28 then v else if j = 29 then c else (putNZ cpsr result).getLsbD j := by
  rw [arithFlags, getLsbD_putBit _ (by decide), getLsbD_putBit _ (by decide)]

theorem logicalFlags_bit (j : Nat) :
    (logicalFlags cpsr result carry).getLsbD j
      = if j = 29 then decide (carry ≠ 0) else (putNZ cpsr result).getLsbD j :=
  getLsbD_putBit _ (by decide) ..

theorem arithFlags_n : (arithFlags cpsr result c v).getLsbD 31 = result.msb :=
  (arithFlags_bit cpsr result c v 31).trans (getLsbD_putNZ ..)

theorem arithFlags_z : (arithFlags cpsr result c v).getLsbD 30 = decide (result = 0) :=
  (arithFlags_bit cpsr result c v 30).trans (getLsbD_putNZ ..)

theorem arithFlags_c : (arithFlags cpsr result c v).getLsbD 29 = c :=
  arithFlags_bit cpsr result c v 29

theorem arithFlags_v : (arithFlags cpsr result c v).getLsbD 28 = v :=
  arithFlags_bit cpsr result c v 28

theorem logicalFlags_n : (logicalFlags cpsr result carry).getLsbD 31 = result.msb :=
  (logicalFlags_bit cpsr result carry 31).trans (getLsbD_putNZ ..)

theorem logicalFlags_z : (logicalFlags cpsr result carry).getLsbD 30 = decide (result = 0) :=
  (logicalFlags_bit cpsr result carry 30).trans (getLsbD_putNZ ..)

theorem logicalFlags_c : (logicalFlags cpsr result carry).getLsbD 29 = decide (carry ≠ 0) :=
  logicalFlags_bit cpsr result carry 29

theorem logicalFlags_v : (logicalFlags cpsr result carry).getLsbD 28 = cpsr.getLsbD 28 :=
  (logicalFlags_bit cpsr result carry 28).trans (getLsbD_putNZ ..)

variable {j : Nat} (hj : j < 28)

include hj

theorem getLsbD_putNZ_of_lt : (putNZ cpsr result).getLsbD j = cpsr.getLsbD j := by
  rw [getLsbD_putNZ, if_neg (show j ≠ 30 by omega), if_neg (show j ≠ 31 by omega)]

theorem getLsbD_logicalFlags : (logicalFlags cpsr result carry).getLsbD j = cpsr.getLsbD j := by
  rw [logicalFlags_bit, if_neg (show j ≠ 29 by omega), getLsbD_putNZ_of_lt _ _ hj]

theorem getLsbD_arithFlags : (arithFlags cpsr result c v).getLsbD j = cpsr.getLsbD j := by
  rw [arithFlags_bit, if_neg (show j ≠ 28 by omega), if_neg (show j ≠ 29 by omega),
    getLsbD_putNZ_of_lt _ _ hj]

end

/-! ## One switch -/

/-- The result of an opcode: what is written to `Rd`, or only compared. -/
def aluResult (opcode : Nat) (Rn operand c : Word) : Word :=
  match opcode with
  | 0b0000 | 0b1000 => Rn &&& operand
  | 0b0001 | 9 => Rn ^^^ operand
  | 0b0010 | 0b1010 => Rn - operand
  | 0b0011 => operand - Rn
  | 0b0100 | 0b1011 => Rn + operand
  | 0b0101 => Rn + operand + c
  | 0b0110 => Rn - operand - (1 - c)
  | 0b0111 => operand - Rn - (1 - c)
  | 0b1100 => Rn ||| operand
  | 0b1101 => operand
  | 0b1110 => Rn &&& ~~~operand
  | _ => ~~~operand

/-- The CPSR an opcode sets: N and Z from `result`, V with `Rd` as the
value `OverflowFrom` is given for the destination. -/
def aluFlags (opcode : Nat) (cpsr_val Rn c : Word) (sv : ShifterValues) (result Rd : Word) :
    Word :=
  match opcode with
  | 0b0010 | 0b1010 =>
      arithFlags cpsr_val result (!borrowFrom Rn sv.shifterOperand)
        (overflowFrom Rd Rn sv.shifterOperand)
  | 0b0011 =>
      arithFlags cpsr_val result (!borrowFrom sv.shifterOperand Rn)
        (overflowFrom Rd sv.shifterOperand Rn)
  | 0b0100 | 0b0101 =>
      arithFlags cpsr_val result (carryFrom Rn sv.shifterOperand c)
        (overflowFrom Rd Rn sv.shifterOperand)
  | 0b0110 =>
      arithFlags cpsr_val result (!borrowFrom Rn (sv.shifterOperand + ~~~c))
        (overflowFrom Rd Rn (sv.shifterOperand + ~~~c))
  | 0b0111 =>
      arithFlags cpsr_val result (!borrowFrom sv.shifterOperand (Rn + ~~~c))
        (overflowFrom Rd sv.shifterOperand (Rn + ~~~c))
  | 0b1011 =>
      arithFlags cpsr_val result (carryFrom Rn sv.shifterOperand 0)
        (overflowFrom Rd Rn sv.shifterOperand)
  | _ => logicalFlags cpsr_val result sv.shifterCarryOut

theorem getLsbD_aluFlags (opcode : Nat) (x Rn c : Word) (sv : ShifterValues)
    (result Rd : Word) {i : Nat} (hi : i < 28) :
    (aluFlags opcode x Rn c sv result Rd).getLsbD i = x.getLsbD i := by
  unfold aluFlags
  split
  case h_9 => exact getLsbD_logicalFlags _ _ _ hi
  all_goals exact getLsbD_arithFlags _ _ _ _ hi

/-- TST, TEQ, CMP and CMN write no register. -/
def isComparison (opcode : Nat) : Bool := decide (8 ≤ opcode ∧ opcode < 12)

/-- What both switches compute. -/
def alu (p : ArmCore) (opcode : Nat) (S : Word) (Rd_num : Fin 16) (Rn Rd cpsr_val : Word)
    (FLAG_c : Byte) (sv : ShifterValues) : Int × ArmCore :=
  let c := FLAG_c.setWidth 32
  let result := aluResult opcode Rn sv.shifterOperand c
  if isComparison opcode then
    (0, armWriteCpsr p (aluFlags opcode cpsr_val Rn c sv result Rd))
  else
    writeRd p Rd_num S result fun Rd' => aluFlags opcode cpsr_val Rn c sv Rd' Rd'

theorem shiftSwitch_eq (p : ArmCore) {opcode : Nat} (ho : opcode < 16) (S : Word)
    (Rd_num : Fin 16) (Rn Rd cpsr_val : Word) (FLAG_c : Byte) (sv : ShifterValues) :
    shiftSwitch p opcode S Rd_num Rn Rd cpsr_val FLAG_c sv
      = alu p opcode S Rd_num Rn Rd cpsr_val FLAG_c sv := by
  interval_cases opcode <;> rfl

theorem immediateSwitch_eq (p : ArmCore) {opcode : Nat} (ho : opcode < 16) (S : Word)
    (Rd_num : Fin 16) (Rn Rd cpsr_val : Word) (FLAG_c : Byte) (operand : Word) (carry : Byte) :
    immediateSwitch p opcode S Rd_num Rn Rd cpsr_val FLAG_c operand carry
      = alu p opcode S Rd_num Rn Rd cpsr_val FLAG_c ⟨carry, operand⟩ := by
  interval_cases opcode <;> rfl

/-! ## The two functions -/

/-- The C flag, as both functions read it. -/
def flagC (p : ArmCore) : Byte := (getBit (armReadCpsr p) 29).setWidth 8

/-- What both functions do with the fields of the word and an operand. -/
def dataProcessing (p : ArmCore) (ins : Word) (sv : ShifterValues) : Int × ArmCore :=
  alu p (getBits ins 24 21).toNat (getBit ins 20) (regNum (getBits ins 15 12))
    (armReadRegister p (regNum (getBits ins 19 16)))
    (armReadRegister p (regNum (getBits ins 15 12))) (armReadCpsr p) (flagC p) sv

/-- The shifter values of the immediate form. -/
def immediateValues (h : Host) (p : ArmCore) (ins : Word) : ShifterValues :=
  ⟨immediateCarryOut h ins (flagC p), immediateOperand h ins⟩

theorem getBits_24_21_lt (ins : Word) : (getBits ins 24 21).toNat < 16 := by
  rw [toNat_getBits]
  omega

theorem armDataProcessingShift_eq {p : ArmCore} {ins : Word} {sv : ShifterValues}
    (hsv : shifterValuesCalculator p ins (flagC p) = some sv) :
    armDataProcessingShift p ins = .ok (dataProcessing p ins sv) := by
  unfold flagC at hsv
  simp only [armDataProcessingShift, hsv, shiftSwitch_eq p (getBits_24_21_lt ins)]
  rfl

theorem armDataProcessingImmediateMsr_eq (h : Host) (p : ArmCore) (ins : Word) :
    armDataProcessingImmediateMsr h p ins = dataProcessing p ins (immediateValues h p ins) := by
  simp only [armDataProcessingImmediateMsr, immediateSwitch_eq p (getBits_24_21_lt ins)]
  rfl

/-- The shifter values of either form. -/
def shifterValues (h : Host) (p : ArmCore) (ins : Word) : Option ShifterValues :=
  if insClass ins = .dpImmediate then some (immediateValues h p ins)
  else shifterValuesCalculator p ins (flagC p)

/-- A data-processing word has shifter values, and is run on them. -/
theorem dispatch_dataProcessing (h : Host) (p : ArmCore) {ins : Word}
    (hc : insClass ins = .dpShift ∨ insClass ins = .dpImmediate) :
    ∃ sv, shifterValues h p ins = some sv ∧ dispatch h p ins = .ok (dataProcessing p ins sv) := by
  rw [dispatch_eq, shifterValues]
  rcases hc with hc | hc
  · obtain ⟨sv, hsv⟩ := shifterValuesCalculator_isSome (not_bits_7_4_of_dpShift hc) p (flagC p)
    refine ⟨sv, by rw [hc, if_neg (by decide), hsv], ?_⟩
    rw [hc, handler, armDataProcessingShift_eq hsv]
  · refine ⟨_, by rw [if_pos hc], ?_⟩
    rw [hc, handler, armDataProcessingImmediateMsr_eq]

/-! ## An immediate and a register that holds it -/

/-- `imm` and `reg` are the two forms of one operation: the same opcode, S,
`Rn` and `Rd`; an immediate rotated right by `2r`, and a register other
than r15 shifted by `ROR #2r`, or not at all when `r` is 0. -/
structure RotatedPair (imm reg : Word) : Prop where
  fields : getBits imm 24 12 = getBits reg 24 12
  amount : (getBits reg 11 7).toNat = 2 * (getBits imm 11 8).toNat
  shift : (getBits reg 6 4).toNat = if (getBits imm 11 8).toNat = 0 then 0b000 else 0b110
  Rm_ne_pc : regNum (getBits reg 3 0) ≠ 15

/-- The carry of a rotation is its bit 31: the last bit moved around. -/
theorem getBit_ror (x : Word) {n : Nat} (h0 : 0 < n) (h32 : n < 32) :
    getBit ((x >>> n) ||| (x <<< (32 - n))) 31 = getBit x (n - 1) := by
  refine BitVec.eq_of_getLsbD_eq ?_
  intro j _
  rw [getLsbD_getBit, getLsbD_getBit, BitVec.getLsbD_or, BitVec.getLsbD_ushiftRight,
    BitVec.getLsbD_shiftLeft, BitVec.getLsbD_of_ge x (n + 31) (by omega), Bool.false_or,
    decide_eq_true (show 31 < 32 by decide), decide_eq_false (show ¬ 31 < 32 - n by omega),
    Bool.not_false, Bool.and_self, Bool.true_and, show 31 - (32 - n) = n - 1 by omega]

theorem dataProcessing_congr {imm reg : Word} (p : ArmCore) (sv : ShifterValues)
    (hp : RotatedPair imm reg) : dataProcessing p reg sv = dataProcessing p imm sv := by
  have hsub : ∀ h l, 12 ≤ l → l ≤ h → h ≤ 24 → getBits reg h l = getBits imm h l := by
    intro h l hl hlh hh
    rw [getBits_of_field hp.fields hl hlh hh, getBits_getBits reg hl hlh hh]
  unfold dataProcessing
  rw [getBit_eq_getBits, getBit_eq_getBits, hsub 24 21 (by decide) (by decide) (by decide),
    hsub 20 20 (by decide) (by decide) (by decide), hsub 15 12 (by decide) (by decide) (by decide),
    hsub 19 16 (by decide) (by decide) (by decide)]

theorem getBit_4_eq_zero {ins : Word} (h : (getBits ins 6 4).toNat % 2 = 0) :
    getBit ins 4 = 0 := by
  rw [toNat_getBits] at h
  rw [getBit_eq_zero_iff]
  omega

/-- Both forms compute the same operand and the same carry. -/
theorem shifterValuesCalculator_rotated {h : Host} {p : ArmCore} {imm reg : Word}
    (hp : RotatedPair imm reg)
    (hRm : armReadRegister p (regNum (getBits reg 3 0)) = getBits imm 7 0)
    (hshl : (getBits imm 11 8).toNat = 0 →
      getBits imm 7 0 ||| h.shl32 (getBits imm 7 0) = getBits imm 7 0) :
    shifterValuesCalculator p reg (flagC p) = some (immediateValues h p imm) := by
  have h4 : getBit reg 4 = 0 := by
    apply getBit_4_eq_zero
    rw [hp.shift]
    split <;> rfl
  have hlt : (getBits imm 11 8).toNat < 16 := by
    rw [toNat_getBits]
    omega
  have hs := hp.shift
  rw [shifterValuesCalculator, hRm]
  simp only [if_pos h4, immediateShift, hp.amount, immediateValues, immediateCarryOut,
    immediateOperand]
  generalize (getBits imm 11 8).toNat = r at *
  by_cases hr : r = 0
  · rw [if_pos hr] at hs
    subst hr
    simp only [hs, Nat.mul_zero, Nat.zero_mul, if_true, BitVec.ushiftRight_zero, hshl rfl]
  · rw [if_neg hr] at hs
    have h2r : 2 * r ≠ 0 := by omega
    simp only [hs, if_neg hr, if_neg h2r, Nat.mod_eq_of_lt (show 2 * r < 32 by omega),
      Nat.mul_comm r 2, getBit_ror (getBits imm 7 0) (n := 2 * r) (by omega) (by omega)]

/-- The two implementations agree on every opcode: from one state, the
shifted-register function given `ROR #2r` of a register that holds the
immediate returns what the immediate function returns, and leaves the same
state. -/
theorem shift_agrees_with_immediate (h : Host) (p : ArmCore) (imm reg : Word)
    (hp : RotatedPair imm reg)
    (hRm : armReadRegister p (regNum (getBits reg 3 0)) = getBits imm 7 0)
    (hshl : (getBits imm 11 8).toNat = 0 →
      getBits imm 7 0 ||| h.shl32 (getBits imm 7 0) = getBits imm 7 0) :
    armDataProcessingShift p reg = .ok (armDataProcessingImmediateMsr h p imm) := by
  rw [armDataProcessingShift_eq (shifterValuesCalculator_rotated hp hRm hshl),
    armDataProcessingImmediateMsr_eq, dataProcessing_congr p _ hp]

/-- A fresh processor whose r1 holds `value`. -/
def holding (value : Word) : ArmCore :=
  armWriteRegister (armCreate x86Host registersCreate (memoryCreate 16 fun _ => 0)) 1 value

/-- `ADDS r0, r2, #0xAB ROR 8` with `ADDS r0, r2, r1, ROR #8`, and
`MOVS pc, #0xAB` with `MOVS pc, r1`. -/
theorem shift_agrees_with_immediate_adds_movs :
    armDataProcessingShift (holding 0xAB) 0xE0920461
      = .ok (armDataProcessingImmediateMsr x86Host (holding 0xAB) 0xE29204AB) ∧
    armDataProcessingShift (holding 0xAB) 0xE1B0F001
      = .ok (armDataProcessingImmediateMsr x86Host (holding 0xAB) 0xE3B0F0AB) :=
  ⟨shift_agrees_with_immediate x86Host (holding 0xAB) 0xE29204AB 0xE0920461
      ⟨by decide, by decide, by decide, by decide⟩ (by decide) (by decide),
    shift_agrees_with_immediate x86Host (holding 0xAB) 0xE3B0F0AB 0xE1B0F001
      ⟨by decide, by decide, by decide, by decide⟩ (by decide) (by decide)⟩

end Armator
