/-
The shifter operand.

A data-processing word shifts its second operand by an amount it holds, or
by the low byte of a register.  `shiftValues` says what the architecture
asks for, operand and carry-out, on numbers.  What the code computes is the
same but for two slips: a right shift that should copy the sign does so
only where a register moves the word out altogether, and a left shift by
32 places leaves the word where it was.  What holds of either form, and of
the one against the other, is read off `immediateShift_eq` and
`registerShift_eq`.
-/
import Armator.ScaledIndex

namespace Armator

open BarrelShifter

/-! ## The values of the architecture -/

/-- A word shifted or rotated by `k` places. -/
def shiftedNumber (Rm : Word) (k : Nat) : Shift → Word
  | .lsl => BitVec.ofNat 32 (Rm.toNat * 2 ^ k)
  | .lsr => BitVec.ofNat 32 (Rm.toNat / 2 ^ k)
  | .asr => BitVec.ofInt 32 (Rm.toInt / 2 ^ k)
  | .ror => Rm.rotateRight (k % 32)

/-- The bit that comes out: the old C where nothing is moved. -/
def carryOut (Rm : Word) (k : Nat) (kind : Shift) (C : Bool) : Bool :=
  if k = 0 then C
  else
    match kind with
    | .lsl => if k ≤ 32 then Rm.getLsbD (32 - k) else false
    | .lsr => if k ≤ 32 then Rm.getLsbD (k - 1) else false
    | .asr => if k ≤ 32 then Rm.getLsbD (k - 1) else Rm.getLsbD 31
    | .ror => (shiftedNumber Rm k .ror).getLsbD 31

/-- The values of a shift by `k` places. -/
def shiftValues (Rm : Word) (k : Nat) (kind : Shift) (C : Bool) : ShifterValues :=
  ⟨carryByte (carryOut Rm k kind C), shiftedNumber Rm k kind⟩

/-- The values of a rotation by one place through C. -/
def rrxValues (Rm : Word) (C : Bool) : ShifterValues :=
  ⟨carryByte (Rm.getLsbD 0), BitVec.ofNat 32 (C.toNat * 2 ^ 31 + Rm.toNat / 2)⟩

section

variable (Rm : Word) (k : Nat) (kind : Shift) (C : Bool)

theorem shiftedNumber_eq : shiftedNumber Rm k kind = shifted Rm k kind := by
  cases kind with
  | lsl => exact (shiftLeft_eq_ofNat Rm k).symm
  | lsr => exact (ushiftRight_eq_ofNat Rm k).symm
  | asr => exact (sshiftRight_eq_ofInt Rm k).symm
  | ror => exact BitVec.rotateRight_mod_eq_rotateRight

/-- The bits named above are the last ones to leave. -/
theorem carryOut_eq : carryOut Rm k kind C = carryOfShift Rm k kind C := by
  unfold carryOut carryOfShift
  by_cases h0 : k = 0
  · rw [if_pos h0, if_pos h0]
  · rw [if_neg h0, if_neg h0]
    have hpos := Nat.pos_of_ne_zero h0
    cases kind with
    | lsl =>
        by_cases hk : k ≤ 32
        · rw [lastOut_lsl Rm hpos hk]
          exact if_pos hk
        · rw [lastOut_lsl_of_lt Rm (Nat.lt_of_not_le hk)]
          exact if_neg hk
    | lsr =>
        rw [lastOut_lsr]
        by_cases hk : k ≤ 32
        · exact if_pos hk
        · rw [BitVec.getLsbD_of_ge Rm (k - 1) (by omega)]
          exact if_neg hk
    | asr =>
        rw [lastOut_asr Rm (by decide), ← getLsbD_31]
    | ror =>
        rw [shiftedNumber_eq]
        exact getLsbD_top_rotateRight Rm (by decide) hpos

end

/-! ## The values of the code -/

/-- The operand the code computes for an immediate amount. -/
def immediateOperandOf (Rm : Word) (shift_imm : Nat) (kind : Shift) (C : Bool) : Word :=
  match kind with
  | .lsl => Rm <<< shift_imm
  | .lsr => Rm >>> rightAmount shift_imm
  | .asr => if shift_imm = 0 then (if Rm.msb then 0xFF else 0) else Rm >>> shift_imm
  | .ror => if shift_imm = 0 then (rrxValues Rm C).shifterOperand else Rm.rotateRight shift_imm

/-- The operand the code computes for an amount in a register. -/
def registerOperandOf (Rm : Word) (k : Nat) (kind : Shift) : Word :=
  match kind with
  | .lsl => if k = 32 then Rm else Rm <<< k
  | .lsr => Rm >>> k
  | .asr => if k < 32 then Rm >>> k else Rm.sshiftRight k
  | .ror => Rm.rotateRight k

/-- A bit, kept in a byte. -/
theorem byte_getBit (x : Word) (i : Nat) :
    ((getBit x i).setWidth 8 : Byte) = carryByte (x.getLsbD i) := by
  cases hx : x.getLsbD i with
  | false => rw [(getBit_eq_zero_iff_getLsbD x i).mpr hx]; rfl
  | true => rw [(getBit_eq_one_iff_getLsbD x i).mpr hx]; rfl

theorem decide_carryByte (C : Bool) : decide (carryByte C ≠ 0) = C := by
  cases C <;> rfl

/-- C shifted in from the left, as the code writes it. -/
theorem rrx_operand (Rm : Word) (C : Bool) :
    ((carryByte C).setWidth 32 <<< 31) ||| (Rm >>> 1) = (rrxValues Rm C).shifterOperand := by
  have hlt := Rm.isLt
  have hbelow : (Rm >>> 1).toNat < 2 ^ 31 := by
    rw [BitVec.toNat_ushiftRight, Nat.shiftRight_eq_div_pow]
    omega
  have hC : ((carryByte C).setWidth 32 <<< 31 : Word).toNat = 2 ^ 31 * C.toNat := by
    cases C <;> decide
  refine BitVec.eq_of_toNat_eq ?_
  rw [BitVec.toNat_or, hC, ← Nat.two_pow_add_eq_or_of_lt hbelow, BitVec.toNat_ushiftRight,
    Nat.shiftRight_eq_div_pow]
  rw [rrxValues, BitVec.toNat_ofNat]
  have hC1 := Bool.toNat_le C
  omega

section

variable {Rm Rs : Word} {C : Bool} {ins : Word}

theorem immediateShift_operand (h4 : getBit ins 4 = 0) :
    ∃ c, immediateShift Rm (carryByte C) ins = some ⟨carryByte c,
      immediateOperandOf Rm (getBits ins 11 7).toNat (shiftKind ins) C⟩ := by
  have hlt : (getBits ins 11 7).toNat < 32 := by
    rw [toNat_getBits]
    omega
  have hb := toNat_getBits_6_4 h4
  unfold immediateOperandOf
  rcases shiftKind_cases ins with ⟨ht, hk⟩ | ⟨ht, hk⟩ | ⟨ht, hk⟩ | ⟨ht, hk⟩ <;>
    rw [hk] <;> rw [ht] at hb
  · simp only [immediateShift, hb, byte_getBit]
    split_ifs with h0
    · rw [h0, BitVec.shiftLeft_zero]
      exact ⟨_, rfl⟩
    · exact ⟨_, rfl⟩
  · simp only [immediateShift, hb, byte_getBit, rightAmount]
    split_ifs with h0
    · rw [BitVec.ushiftRight_eq_zero (le_refl 32)]
      exact ⟨_, rfl⟩
    · exact ⟨_, rfl⟩
  · simp only [immediateShift, hb, byte_getBit, getBit_31_eq_zero_iff]
    by_cases h0 : (getBits ins 11 7).toNat = 0
    · cases Rm.msb with
      | false => rw [if_pos h0, if_pos h0, if_pos rfl, if_neg Bool.false_ne_true]; exact ⟨_, rfl⟩
      | true => rw [if_pos h0, if_pos h0, if_neg (by decide), if_pos rfl]; exact ⟨_, rfl⟩
    · rw [if_neg h0, if_neg h0]
      exact ⟨_, rfl⟩
  · simp only [immediateShift, hb, byte_getBit]
    split_ifs with h0
    · rw [rrx_operand]
      exact ⟨_, rfl⟩
    · rw [BitVec.rotateRight_def]
      exact ⟨_, rfl⟩

theorem registerShift_operand (h4 : getBit ins 4 ≠ 0) (h7 : getBit ins 7 ≠ 1) :
    ∃ c, registerShift Rm Rs (carryByte C) ins = some ⟨carryByte c,
      registerOperandOf Rm (getBits Rs 7 0).toNat (shiftKind ins)⟩ := by
  have hrot : (getBits Rs 4 0).toNat = (getBits Rs 7 0).toNat % 32 := by
    rw [toNat_getBits, toNat_getBits]
    omega
  have hb := toNat_getBits_7_4 h4 h7
  unfold registerOperandOf
  rcases shiftKind_cases ins with ⟨ht, hk⟩ | ⟨ht, hk⟩ | ⟨ht, hk⟩ | ⟨ht, hk⟩ <;>
    rw [hk] <;> rw [ht] at hb
  · simp only [registerShift, hb, byte_getBit]
    split_ifs with h0 h32 hlt h32
    · exact absurd (h0.symm.trans h32) (by decide)
    · rw [h0, BitVec.shiftLeft_zero]
      exact ⟨_, rfl⟩
    · exact absurd h32 (Nat.ne_of_lt hlt)
    · exact ⟨_, rfl⟩
    · exact ⟨_, rfl⟩
    · rw [BitVec.shiftLeft_eq_zero (by omega)]
      exact ⟨false, rfl⟩
  · simp only [registerShift, hb, byte_getBit]
    split_ifs with h0 hlt h32
    · rw [h0, BitVec.ushiftRight_zero]
      exact ⟨_, rfl⟩
    · exact ⟨_, rfl⟩
    · rw [BitVec.ushiftRight_eq_zero (by omega)]
      exact ⟨_, rfl⟩
    · rw [BitVec.ushiftRight_eq_zero (by omega)]
      exact ⟨false, rfl⟩
  · simp only [registerShift, hb, byte_getBit, getBit_31_eq_zero_iff]
    by_cases hlt : (getBits Rs 7 0).toNat < 32
    · simp only [if_pos hlt]
      split_ifs with h0
      · rw [h0, BitVec.ushiftRight_zero]
        exact ⟨_, rfl⟩
      · exact ⟨_, rfl⟩
    · rw [if_neg (show ¬ (getBits Rs 7 0).toNat = 0 by omega), if_neg hlt, if_neg hlt,
        sshiftRight_of_le Rm (Nat.le_of_not_lt hlt)]
      cases Rm.msb <;> exact ⟨_, rfl⟩
  · simp only [registerShift, hb, hrot, byte_getBit]
    rw [← BitVec.rotateRight_mod_eq_rotateRight]
    split_ifs with h0 hr
    · rw [h0, rotateRight_zero]
      exact ⟨_, rfl⟩
    · rw [hr, rotateRight_zero]
      exact ⟨_, rfl⟩
    · rw [BitVec.rotateRight_def]
      exact ⟨_, rfl⟩

/-- An immediate amount: the carry of the architecture, and this operand. -/
theorem immediateShift_eq (h4 : getBit ins 4 = 0) :
    immediateShift Rm (carryByte C) ins = some
      ⟨carryByte (carryOfImmediateShift Rm (getBits ins 11 7).toNat (shiftKind ins) C),
        immediateOperandOf Rm (getBits ins 11 7).toNat (shiftKind ins) C⟩ := by
  obtain ⟨c, hc⟩ := @immediateShift_operand Rm C ins h4
  have hcarry := immediateShift_carry h4 hc
  rw [decide_carryByte, decide_carryByte] at hcarry
  rw [hc, hcarry]

/-- An amount in a register. -/
theorem registerShift_eq (h4 : getBit ins 4 ≠ 0) (h7 : getBit ins 7 ≠ 1) :
    registerShift Rm Rs (carryByte C) ins = some
      ⟨carryByte (carryOut Rm (getBits Rs 7 0).toNat (shiftKind ins) C),
        registerOperandOf Rm (getBits Rs 7 0).toNat (shiftKind ins)⟩ := by
  obtain ⟨c, hc⟩ := @registerShift_operand Rm Rs C ins h4 h7
  have hcarry := registerShift_carry h4 h7 hc
  rw [decide_carryByte, decide_carryByte] at hcarry
  rw [hc, hcarry, carryOut_eq]

end

/-! ## Words -/

/-- `Rm, TYPE #shift_imm` -/
structure IsImmediateShift (kind : Shift) (ins : Word) : Prop where
  bit_4 : getBit ins 4 = 0
  kind : shiftKind ins = kind

/-- `Rm, TYPE Rs` -/
structure IsRegisterShift (kind : Shift) (ins : Word) : Prop where
  bit_4 : getBit ins 4 = 1
  bit_7 : getBit ins 7 = 0
  kind : shiftKind ins = kind

def rmValue (p : ArmCore) (ins : Word) : Word := armReadRegister p (regNum (getBits ins 3 0))

/-- `Rs[7:0]` -/
def rs7_0 (p : ArmCore) (ins : Word) : Nat :=
  (getBits (armReadRegister p (regNum (getBits ins 11 8))) 7 0).toNat

def shiftImm (ins : Word) : Nat := (getBits ins 11 7).toNat

section

variable {kind : Shift} {ins : Word} (p : ArmCore) (C : Bool)

theorem IsImmediateShift.values (hi : IsImmediateShift kind ins) :
    shifterValuesCalculator p ins (carryByte C) = some
      ⟨carryByte (carryOfImmediateShift (rmValue p ins) (shiftImm ins) kind C),
        immediateOperandOf (rmValue p ins) (shiftImm ins) kind C⟩ := by
  unfold shifterValuesCalculator
  rw [if_pos hi.bit_4, immediateShift_eq hi.bit_4, hi.kind]
  rfl

theorem IsRegisterShift.values (hi : IsRegisterShift kind ins) :
    shifterValuesCalculator p ins (carryByte C) = some
      ⟨carryByte (carryOut (rmValue p ins) (rs7_0 p ins) kind C),
        registerOperandOf (rmValue p ins) (rs7_0 p ins) kind⟩ := by
  have h4 : getBit ins 4 ≠ 0 := (getBit_ne_zero_iff ins 4).mpr hi.bit_4
  have h7 : getBit ins 7 ≠ 1 := (getBit_ne_one_iff ins 7).mpr hi.bit_7
  unfold shifterValuesCalculator
  rw [if_neg h4, registerShift_eq h4 h7, hi.kind]
  rfl

/-- The amount an immediate stands for, where it is not RRX. -/
def amountOf (shift_imm : Nat) (kind : Shift) : Nat :=
  match kind with
  | .lsl | .ror => shift_imm
  | .lsr | .asr => rightAmount shift_imm

theorem carryOfImmediateShift_eq (Rm : Word) (k : Nat) (hrrx : ¬ (kind = .ror ∧ k = 0)) :
    carryOfImmediateShift Rm k kind C = carryOut Rm (amountOf k kind) kind C := by
  rw [carryOut_eq]
  unfold carryOfImmediateShift carryOfShift
  by_cases h0 : k = 0
  · rw [if_pos h0]
    cases kind with
    | lsl => exact (if_pos h0).symm
    | lsr | asr =>
        have hamount : rightAmount k = 32 := if_pos h0
        show lastOut Rm 32 _ = if rightAmount k = 0 then C else lastOut Rm (rightAmount k) _
        rw [hamount, if_neg (by decide)]
    | ror => exact absurd ⟨rfl, h0⟩ hrrx
  · have hamount : amountOf k kind = k := by
      cases kind with
      | lsl | ror => rfl
      | lsr | asr => exact if_neg h0
    rw [if_neg h0, hamount, if_neg h0]

/-- The values of an immediate shift are right where its operand is. -/
theorem IsImmediateShift.values_iff (hi : IsImmediateShift kind ins)
    (hrrx : ¬ (kind = .ror ∧ shiftImm ins = 0)) :
    shifterValuesCalculator p ins (carryByte C)
        = some (shiftValues (rmValue p ins) (amountOf (shiftImm ins) kind) kind C) ↔
      immediateOperandOf (rmValue p ins) (shiftImm ins) kind C
        = shifted (rmValue p ins) (amountOf (shiftImm ins) kind) kind := by
  rw [hi.values, carryOfImmediateShift_eq C _ _ hrrx, shiftValues, shiftedNumber_eq,
    Option.some_inj, ShifterValues.mk.injEq]
  exact and_iff_right rfl

/-- And those of a shift by register. -/
theorem IsRegisterShift.values_iff (hi : IsRegisterShift kind ins) :
    shifterValuesCalculator p ins (carryByte C)
        = some (shiftValues (rmValue p ins) (rs7_0 p ins) kind C) ↔
      registerOperandOf (rmValue p ins) (rs7_0 p ins) kind
        = shifted (rmValue p ins) (rs7_0 p ins) kind := by
  rw [hi.values, shiftValues, shiftedNumber_eq, Option.some_inj, ShifterValues.mk.injEq]
  exact and_iff_right rfl

end

/-! ## The four types -/

theorem immediateOperandOf_asr_iff (Rm : Word) (k : Nat) (C : Bool) :
    immediateOperandOf Rm k .asr C = shifted Rm (rightAmount k) .asr ↔ Rm.msb = false := by
  show (if k = 0 then (if Rm.msb then 0xFF else 0) else Rm >>> k)
    = Rm.sshiftRight (rightAmount k) ↔ _
  unfold rightAmount
  by_cases h0 : k = 0
  · rw [if_pos h0, if_pos h0, sshiftRight_self]
    cases Rm.msb <;> decide
  · rw [if_neg h0, if_neg h0, ushiftRight_eq_sshiftRight_iff]
    exact or_iff_right h0

theorem registerOperandOf_asr_iff (Rm : Word) (k : Nat) :
    registerOperandOf Rm k .asr = shifted Rm k .asr ↔ k = 0 ∨ 32 ≤ k ∨ Rm.msb = false := by
  show (if k < 32 then Rm >>> k else Rm.sshiftRight k) = Rm.sshiftRight k ↔ _
  by_cases hk : k < 32
  · rw [if_pos hk, ushiftRight_eq_sshiftRight_iff, or_iff_right (Nat.not_le.mpr hk)]
  · rw [if_neg hk]
    exact iff_of_true rfl (Or.inr (Or.inl (Nat.le_of_not_lt hk)))

/-- ASR gives what the architecture asks for exactly when no sign is to
come in, or a register asks for none of the amounts that bring one in. -/
theorem asr_values_iff (p : ArmCore) (ins : Word) (C : Bool) :
    (IsImmediateShift .asr ins →
      (shifterValuesCalculator p ins (carryByte C)
          = some (shiftValues (rmValue p ins) (rightAmount (shiftImm ins)) .asr C) ↔
        (rmValue p ins).getLsbD 31 = false)) ∧
    (IsRegisterShift .asr ins →
      (shifterValuesCalculator p ins (carryByte C)
          = some (shiftValues (rmValue p ins) (rs7_0 p ins) .asr C) ↔
        rs7_0 p ins = 0 ∨ 32 ≤ rs7_0 p ins ∨ (rmValue p ins).getLsbD 31 = false)) := by
  rw [getLsbD_31]
  refine ⟨fun hi => ?_, fun hi => ?_⟩
  · exact (hi.values_iff p C (fun hr => nomatch hr.1)).trans (immediateOperandOf_asr_iff ..)
  · exact (hi.values_iff p C).trans (registerOperandOf_asr_iff ..)

/-- `MOV r0, r1, ASR #1` and `MOV r0, r1, ASR sp`. -/
theorem asr_values_iff_mov :
    (shifterValuesCalculator (holding 5) 0xE1A000C1 (carryByte true)
        = some (shiftValues (rmValue (holding 5) 0xE1A000C1) (rightAmount (shiftImm 0xE1A000C1))
            .asr true) ↔
      (rmValue (holding 5) 0xE1A000C1).getLsbD 31 = false) ∧
    (shifterValuesCalculator (holding 5) 0xE1A00D51 (carryByte true)
        = some (shiftValues (rmValue (holding 5) 0xE1A00D51) (rs7_0 (holding 5) 0xE1A00D51)
            .asr true) ↔
      rs7_0 (holding 5) 0xE1A00D51 = 0 ∨ 32 ≤ rs7_0 (holding 5) 0xE1A00D51 ∨
        (rmValue (holding 5) 0xE1A00D51).getLsbD 31 = false) :=
  ⟨(asr_values_iff (holding 5) 0xE1A000C1 true).1 ⟨by decide, by decide⟩,
    (asr_values_iff (holding 5) 0xE1A00D51 true).2 ⟨by decide, by decide, by decide⟩⟩

/-- `MOV r0, r1, ASR #1` of -2 should be -1. -/
theorem asr_values_astray :
    IsImmediateShift .asr 0xE1A000C1 ∧ rmValue (holding (-2)) 0xE1A000C1 = -2 ∧
    rightAmount (shiftImm 0xE1A000C1) = 1 ∧ (shiftValues (-2) 1 .asr false).shifterOperand = -1 ∧
    (shifterValuesCalculator (holding (-2)) 0xE1A000C1 (carryByte false)).map
        ShifterValues.shifterOperand = some 0x7FFFFFFF ∧
    shifterValuesCalculator (holding (-2)) 0xE1A000C1 (carryByte false)
      ≠ some (shiftValues (-2) 1 .asr false) := by
  have hcode : (shifterValuesCalculator (holding (-2)) 0xE1A000C1 (carryByte false)).map
      ShifterValues.shifterOperand = some 0x7FFFFFFF := by
    decide +kernel
  refine ⟨⟨by decide, by decide⟩, by decide +kernel, by decide, by decide, hcode, fun heq => ?_⟩
  rw [heq] at hcode
  exact absurd hcode (by decide)

theorem registerOperandOf_lsl_iff (Rm : Word) (k : Nat) :
    registerOperandOf Rm k .lsl = shifted Rm k .lsl ↔ (k = 32 → Rm = 0) := by
  show (if k = 32 then Rm else Rm <<< k) = Rm <<< k ↔ _
  by_cases hk : k = 32
  · rw [if_pos hk, BitVec.shiftLeft_eq_zero (Nat.le_of_eq hk.symm)]
    exact ⟨fun hz _ => hz, fun hz => hz hk⟩
  · rw [if_neg hk]
    exact iff_of_true rfl fun h32 => absurd h32 hk

/-- LSL by an immediate gives what the architecture asks for, and by a
register exactly when the amount is not 32 or there is nothing to lose. -/
theorem lsl_values_iff (p : ArmCore) (ins : Word) (C : Bool) :
    (IsImmediateShift .lsl ins →
      shifterValuesCalculator p ins (carryByte C)
        = some (shiftValues (rmValue p ins) (shiftImm ins) .lsl C)) ∧
    (IsRegisterShift .lsl ins →
      (shifterValuesCalculator p ins (carryByte C)
          = some (shiftValues (rmValue p ins) (rs7_0 p ins) .lsl C) ↔
        (rs7_0 p ins = 32 → rmValue p ins = 0))) := by
  refine ⟨fun hi => ?_, fun hi => ?_⟩
  · exact (hi.values_iff p C (fun hr => nomatch hr.1)).mpr rfl
  · exact (hi.values_iff p C).trans (registerOperandOf_lsl_iff ..)

/-- `MOV r0, r1, LSL #1` and `MOV r0, r1, LSL sp`. -/
theorem lsl_values_iff_mov :
    shifterValuesCalculator (holding 5) 0xE1A00081 (carryByte true)
      = some (shiftValues (rmValue (holding 5) 0xE1A00081) (shiftImm 0xE1A00081) .lsl true) ∧
    (shifterValuesCalculator (holding 5) 0xE1A00D11 (carryByte true)
        = some (shiftValues (rmValue (holding 5) 0xE1A00D11) (rs7_0 (holding 5) 0xE1A00D11)
            .lsl true) ↔
      (rs7_0 (holding 5) 0xE1A00D11 = 32 → rmValue (holding 5) 0xE1A00D11 = 0)) :=
  ⟨(lsl_values_iff (holding 5) 0xE1A00081 true).1 ⟨by decide, by decide⟩,
    (lsl_values_iff (holding 5) 0xE1A00D11 true).2 ⟨by decide, by decide, by decide⟩⟩

/-- `MOV r0, r1, LSL r1`, with 32 in r1, should be 0. -/
theorem lsl_values_astray :
    IsRegisterShift .lsl 0xE1A00111 ∧ rmValue (holding 32) 0xE1A00111 = 32 ∧
    rs7_0 (holding 32) 0xE1A00111 = 32 ∧ (shiftValues 32 32 .lsl false).shifterOperand = 0 ∧
    (shifterValuesCalculator (holding 32) 0xE1A00111 (carryByte false)).map
        ShifterValues.shifterOperand = some 32 ∧
    shifterValuesCalculator (holding 32) 0xE1A00111 (carryByte false)
      ≠ some (shiftValues 32 32 .lsl false) := by
  have hcode : (shifterValuesCalculator (holding 32) 0xE1A00111 (carryByte false)).map
      ShifterValues.shifterOperand = some 32 := by
    decide +kernel
  refine ⟨⟨by decide, by decide, by decide⟩, by decide +kernel, by decide +kernel, by decide, hcode,
    fun heq => ?_⟩
  rw [heq] at hcode
  exact absurd hcode (by decide)

/-- LSR and ROR give what the architecture asks for, in either form. -/
theorem lsr_ror_values (p : ArmCore) (ins : Word) (C : Bool) :
    (IsImmediateShift .lsr ins →
      shifterValuesCalculator p ins (carryByte C)
        = some (shiftValues (rmValue p ins) (rightAmount (shiftImm ins)) .lsr C)) ∧
    (IsRegisterShift .lsr ins →
      shifterValuesCalculator p ins (carryByte C)
        = some (shiftValues (rmValue p ins) (rs7_0 p ins) .lsr C)) ∧
    (IsImmediateShift .ror ins →
      shifterValuesCalculator p ins (carryByte C)
        = some (if shiftImm ins = 0 then rrxValues (rmValue p ins) C
            else shiftValues (rmValue p ins) (shiftImm ins) .ror C)) ∧
    (IsRegisterShift .ror ins →
      shifterValuesCalculator p ins (carryByte C)
        = some (shiftValues (rmValue p ins) (rs7_0 p ins) .ror C)) := by
  refine ⟨fun hi => ?_, fun hi => ?_, fun hi => ?_, fun hi => ?_⟩
  · exact (hi.values_iff p C (fun hr => nomatch hr.1)).mpr rfl
  · exact (hi.values_iff p C).mpr rfl
  · by_cases h0 : shiftImm ins = 0
    · rw [hi.values, if_pos h0, immediateOperandOf, carryOfImmediateShift, if_pos h0, if_pos h0]
      rfl
    · rw [if_neg h0]
      exact (hi.values_iff p C (fun hr => h0 hr.2)).mpr (if_neg h0)
  · exact (hi.values_iff p C).mpr rfl

/-- `MOV r0, r1` with `LSR #1`, `LSR sp`, `RRX` and `ROR sp`. -/
theorem lsr_ror_values_mov :
    shifterValuesCalculator (holding 5) 0xE1A000A1 (carryByte true)
      = some (shiftValues (rmValue (holding 5) 0xE1A000A1) (rightAmount (shiftImm 0xE1A000A1))
          .lsr true) ∧
    shifterValuesCalculator (holding 5) 0xE1A00D31 (carryByte true)
      = some (shiftValues (rmValue (holding 5) 0xE1A00D31) (rs7_0 (holding 5) 0xE1A00D31)
          .lsr true) ∧
    shifterValuesCalculator (holding 5) 0xE1A00061 (carryByte true)
      = some (if shiftImm 0xE1A00061 = 0 then rrxValues (rmValue (holding 5) 0xE1A00061) true
          else shiftValues (rmValue (holding 5) 0xE1A00061) (shiftImm 0xE1A00061) .ror true) ∧
    shifterValuesCalculator (holding 5) 0xE1A00D71 (carryByte true)
      = some (shiftValues (rmValue (holding 5) 0xE1A00D71) (rs7_0 (holding 5) 0xE1A00D71)
          .ror true) :=
  ⟨(lsr_ror_values (holding 5) 0xE1A000A1 true).1 ⟨by decide, by decide⟩,
    (lsr_ror_values (holding 5) 0xE1A00D31 true).2.1 ⟨by decide, by decide, by decide⟩,
    (lsr_ror_values (holding 5) 0xE1A00061 true).2.2.1 ⟨by decide, by decide⟩,
    (lsr_ror_values (holding 5) 0xE1A00D71 true).2.2.2 ⟨by decide, by decide, by decide⟩⟩

/-! ## One form and the other -/

/-- The amounts both forms can express. -/
def BothForms (k : Nat) : Shift → Prop
  | .lsl => k < 32
  | .lsr | .asr => 1 ≤ k ∧ k ≤ 32
  | .ror => 1 ≤ k ∧ k < 32

/-- `imm` and `reg` shift the same value by the same amount, `k`. -/
structure SameShift (p : ArmCore) (kind : Shift) (k : Nat) (imm reg : Word) : Prop where
  both : BothForms k kind
  immediate : IsImmediateShift kind imm
  shift_imm : shiftImm imm = if k = 32 then 0 else k
  register : IsRegisterShift kind reg
  amount : rs7_0 p reg = k
  value : rmValue p reg = rmValue p imm

section

variable {p : ArmCore} {kind : Shift} {k : Nat} {imm reg : Word}

/-- The immediate of such a pair stands for `k`, and is not RRX. -/
theorem SameShift.amountOf_eq (hs : SameShift p kind k imm reg) :
    amountOf (shiftImm imm) kind = k ∧ ¬ (kind = .ror ∧ shiftImm imm = 0) := by
  have hboth := hs.both
  rw [hs.shift_imm]
  cases kind with
  | lsl => exact ⟨if_neg (Nat.ne_of_lt hboth), fun hr => nomatch hr.1⟩
  | lsr | asr =>
      refine ⟨?_, fun hr => nomatch hr.1⟩
      show rightAmount (if k = 32 then 0 else k) = k
      by_cases hk : k = 32
      · rw [if_pos hk, hk]
        rfl
      · rw [if_neg hk]
        exact if_neg (Nat.ne_of_gt hboth.1)
  | ror =>
      rw [if_neg (Nat.ne_of_lt hboth.2)]
      exact ⟨rfl, fun hr => Nat.ne_of_gt hboth.1 hr.2⟩

/-- The two forms carry out the same. -/
theorem SameShift.agree_iff (hs : SameShift p kind k imm reg) (C : Bool) :
    shifterValuesCalculator p imm (carryByte C) = shifterValuesCalculator p reg (carryByte C) ↔
      immediateOperandOf (rmValue p imm) (shiftImm imm) kind C
        = registerOperandOf (rmValue p imm) k kind := by
  obtain ⟨hamount, hrrx⟩ := hs.amountOf_eq
  rw [hs.immediate.values, hs.register.values, carryOfImmediateShift_eq C _ _ hrrx, hamount,
    hs.amount, hs.value, Option.some_inj, ShifterValues.mk.injEq]
  exact and_iff_right rfl

end

theorem asr_forms_agree_iff (Rm : Word) {k : Nat} (C : Bool) (hk : BothForms k .asr) :
    immediateOperandOf Rm (if k = 32 then 0 else k) .asr C = registerOperandOf Rm k .asr ↔
      ¬ (k = 32 ∧ Rm.msb = true) := by
  by_cases h32 : k = 32
  · subst h32
    show (if Rm.msb then 0xFF else 0) = Rm.sshiftRight 32 ↔ _
    rw [sshiftRight_self]
    cases Rm.msb <;> decide
  · rw [if_neg h32]
    refine iff_of_true ?_ fun hc => h32 hc.1
    show (if k = 0 then (if Rm.msb then 0xFF else 0) else Rm >>> k)
      = if k < 32 then Rm >>> k else Rm.sshiftRight k
    rw [if_neg (Nat.ne_of_gt hk.1), if_pos (Nat.lt_of_le_of_ne hk.2 h32)]

/-- An amount that both forms can express gives the same values in both,
exactly when it is not ASR by 32 of a negative value. -/
theorem shift_forms_agree_iff (p : ArmCore) {kind : Shift} {k : Nat} {imm reg : Word} (C : Bool)
    (hs : SameShift p kind k imm reg) :
    shifterValuesCalculator p imm (carryByte C) = shifterValuesCalculator p reg (carryByte C) ↔
      ¬ (kind = .asr ∧ k = 32 ∧ (rmValue p imm).getLsbD 31 = true) := by
  have hboth := hs.both
  rw [hs.agree_iff C, hs.shift_imm, getLsbD_31]
  cases kind with
  | lsl =>
      refine iff_of_true ?_ fun hc => nomatch hc.1
      show (rmValue p imm) <<< (if k = 32 then 0 else k) = if k = 32 then rmValue p imm
        else (rmValue p imm) <<< k
      rw [if_neg (Nat.ne_of_lt hboth), if_neg (Nat.ne_of_lt hboth)]
  | lsr =>
      refine iff_of_true ?_ fun hc => nomatch hc.1
      rw [← hs.shift_imm]
      exact congrArg (rmValue p imm >>> ·) hs.amountOf_eq.1
  | asr =>
      rw [asr_forms_agree_iff _ C hboth]
      exact not_congr ⟨fun hc => ⟨rfl, hc⟩, fun hc => hc.2⟩
  | ror =>
      refine iff_of_true ?_ fun hc => nomatch hc.1
      rw [if_neg (Nat.ne_of_lt hboth.2)]
      exact if_neg (Nat.ne_of_gt hboth.1)

/-- `MOV r0, r1, ASR #32` and `MOV r0, r1, ASR r1`, with 32 in r1. -/
theorem shift_forms_agree_iff_32 :
    shifterValuesCalculator (holding 32) 0xE1A00041 (carryByte true)
        = shifterValuesCalculator (holding 32) 0xE1A00151 (carryByte true) ↔
      ¬ (Shift.asr = .asr ∧ 32 = 32 ∧ (rmValue (holding 32) 0xE1A00041).getLsbD 31 = true) :=
  shift_forms_agree_iff (holding 32) true
    ⟨⟨by decide, by decide⟩, ⟨by decide, by decide⟩, by decide, ⟨by decide, by decide, by decide⟩,
      by decide +kernel, by decide⟩

/-- The same two words, with 2^31 + 32 in r1. -/
theorem shift_forms_astray :
    SameShift (holding 0x80000020) .asr 32 0xE1A00041 0xE1A00151 ∧
    (shifterValuesCalculator (holding 0x80000020) 0xE1A00041 (carryByte true)).map
      ShifterValues.shifterOperand = some 0xFF ∧
    (shifterValuesCalculator (holding 0x80000020) 0xE1A00151 (carryByte true)).map
      ShifterValues.shifterOperand = some 0xFFFFFFFF ∧
    shifterValuesCalculator (holding 0x80000020) 0xE1A00041 (carryByte true)
      ≠ shifterValuesCalculator (holding 0x80000020) 0xE1A00151 (carryByte true) := by
  have himm : (shifterValuesCalculator (holding 0x80000020) 0xE1A00041 (carryByte true)).map
      ShifterValues.shifterOperand = some 0xFF := by
    decide +kernel
  have hreg : (shifterValuesCalculator (holding 0x80000020) 0xE1A00151 (carryByte true)).map
      ShifterValues.shifterOperand = some 0xFFFFFFFF := by
    decide +kernel
  refine ⟨⟨⟨by decide, by decide⟩, ⟨by decide, by decide⟩, by decide,
    ⟨by decide, by decide, by decide⟩, by decide +kernel, by decide⟩, himm, hreg, fun heq => ?_⟩
  rw [heq, hreg] at himm
  exact absurd himm (by decide)

end Armator
