/-
The flags of the logical operations.

They set N and Z from the result, take C from the shifter, and leave V.
What the shifter carries out is said in the architecture's terms: the last
bit a shift or rotation has moved out, the old C where nothing is moved,
bit 31 of a rotated immediate.  The shifter of the code, whose cases are
written out for each form of the operand, carries out the same
(`shifterCarryOut_eq`), also where the operand itself comes out wrong.
-/
import Armator.Opcode
import Armator.Lib.BarrelShifter

namespace Armator

open BarrelShifter

/-! ## The carry of the architecture -/

/-- The C flag. -/
def flagSet (p : ArmCore) : Bool := (armReadCpsr p).getLsbD 29

/-- The kind of shift, from bits 6 and 5. -/
def shiftKind (ins : Word) : Shift :=
  match (getBits ins 6 5).toNat with
  | 0 => .lsl
  | 1 => .lsr
  | 2 => .asr
  | _ => .ror

/-- The carry of a shift by `n` places, which is the old C for none. -/
def carryOfShift (Rm : Word) (n : Nat) (kind : Shift) (C : Bool) : Bool :=
  if n = 0 then C else lastOut Rm n kind

/-- The carry of an immediate amount: 0 stands for 32 in right shifts, and
for a rotation through C, by one place, in rotations. -/
def carryOfImmediateShift (Rm : Word) (n : Nat) (kind : Shift) (C : Bool) : Bool :=
  if n = 0 then
    match kind with
    | .lsl => C
    | .lsr | .asr => lastOut Rm 32 kind
    | .ror => Rm.getLsbD 0
  else lastOut Rm n kind

/-- The shifter carry-out of a word. -/
def shifterCarry (h : Host) (p : ArmCore) (ins : Word) : Bool :=
  if insClass ins = .dpImmediate then
    if (getBits ins 11 8).toNat = 0 then flagSet p else (immediateOperand h ins).getLsbD 31
  else
    let Rm := armReadRegister p (regNum (getBits ins 3 0))
    if getBit ins 4 = 0 then
      carryOfImmediateShift Rm (getBits ins 11 7).toNat (shiftKind ins) (flagSet p)
    else
      let Rs := armReadRegister p (regNum (getBits ins 11 8))
      carryOfShift Rm (getBits Rs 7 0).toNat (shiftKind ins) (flagSet p)

/-! ## The carry of the code -/

/-- A bit kept in a byte. -/
theorem decide_byte_getBit (x : Word) (i : Nat) :
    decide ((getBit x i).setWidth 8 ≠ (0 : Byte)) = x.getLsbD i := by
  rw [Bool.eq_iff_iff, decide_eq_true_eq, ← getBit_eq_one_iff_getLsbD]
  have h01 : getBit x i = 0 ∨ getBit x i = 1 := by
    by_cases h : getBit x i = 0
    · exact Or.inl h
    · exact Or.inr ((getBit_ne_zero_iff x i).mp h)
  rcases h01 with h | h <;> rw [h] <;> decide

theorem decide_flagC (p : ArmCore) : decide (flagC p ≠ 0) = flagSet p :=
  decide_byte_getBit ..

section

variable {Rm : Word} {FLAG_c : Byte} {ins : Word} {sv : ShifterValues}

/-- With bit 4 clear, bits 6 to 4 are twice the kind of the shift. -/
theorem toNat_getBits_6_4 (h4 : getBit ins 4 = 0) :
    (getBits ins 6 4).toNat = 2 * (getBits ins 6 5).toNat := by
  rw [getBit_eq_zero_iff] at h4
  rw [toNat_getBits, toNat_getBits]
  omega

/-- With bit 4 set and bit 7 clear, bits 7 to 4 are that and one more. -/
theorem toNat_getBits_7_4 (h4 : getBit ins 4 ≠ 0) (h7 : getBit ins 7 ≠ 1) :
    (getBits ins 7 4).toNat = 2 * (getBits ins 6 5).toNat + 1 := by
  rw [getBit_ne_zero_iff, getBit_eq_one_iff] at h4
  rw [Ne, getBit_eq_one_iff] at h7
  rw [toNat_getBits, toNat_getBits]
  omega

/-- The four kinds, with the number bits 6 and 5 hold for each. -/
theorem shiftKind_cases (ins : Word) :
    (getBits ins 6 5).toNat = 0 ∧ shiftKind ins = .lsl ∨
      (getBits ins 6 5).toNat = 1 ∧ shiftKind ins = .lsr ∨
      (getBits ins 6 5).toNat = 2 ∧ shiftKind ins = .asr ∨
      (getBits ins 6 5).toNat = 3 ∧ shiftKind ins = .ror := by
  have hlt : (getBits ins 6 5).toNat < 4 := by
    rw [toNat_getBits]
    omega
  unfold shiftKind
  generalize (getBits ins 6 5).toNat = t at hlt ⊢
  interval_cases t <;> decide

theorem immediateShift_carry (h4 : getBit ins 4 = 0)
    (hsv : immediateShift Rm FLAG_c ins = some sv) :
    decide (sv.shifterCarryOut ≠ 0)
      = carryOfImmediateShift Rm (getBits ins 11 7).toNat (shiftKind ins)
          (decide (FLAG_c ≠ 0)) := by
  have hlt : (getBits ins 11 7).toNat < 32 := by
    rw [toNat_getBits]
    omega
  have hb := toNat_getBits_6_4 h4
  unfold carryOfImmediateShift
  rcases shiftKind_cases ins with ⟨ht, hk⟩ | ⟨ht, hk⟩ | ⟨ht, hk⟩ | ⟨ht, hk⟩ <;>
    rw [hk] <;> rw [ht] at hb
  · simp only [immediateShift, hb] at hsv
    split_ifs at hsv with h0 <;> cases hsv
    · rw [if_pos h0]
    · rw [if_neg h0, lastOut_lsl Rm (by omega) (by omega), decide_byte_getBit]
  · simp only [immediateShift, hb] at hsv
    split_ifs at hsv with h0 <;> cases hsv
    · rw [if_pos h0, lastOut_lsr, decide_byte_getBit]
    · rw [if_neg h0, lastOut_lsr, decide_byte_getBit]
  · simp only [immediateShift, hb] at hsv
    split_ifs at hsv with h0 h31 <;> cases hsv
    · rw [if_pos h0, lastOut_asr Rm (by decide), if_pos (le_refl 32), decide_byte_getBit]
    · rw [if_pos h0, lastOut_asr Rm (by decide), if_pos (le_refl 32), decide_byte_getBit]
    · rw [if_neg h0, lastOut_asr Rm (by decide), if_pos (by omega), decide_byte_getBit]
  · simp only [immediateShift, hb] at hsv
    split_ifs at hsv with h0 <;> cases hsv
    · rw [if_pos h0, decide_byte_getBit]
    · rw [if_neg h0, lastOut_ror Rm _ (by decide), decide_byte_getBit,
        show (getBits ins 11 7).toNat % 32 - 1 = ((getBits ins 11 7).toNat - 1) % 32 by omega]

theorem registerShift_carry {Rs : Word} (h4 : getBit ins 4 ≠ 0) (h7 : getBit ins 7 ≠ 1)
    (hsv : registerShift Rm Rs FLAG_c ins = some sv) :
    decide (sv.shifterCarryOut ≠ 0)
      = carryOfShift Rm (getBits Rs 7 0).toNat (shiftKind ins) (decide (FLAG_c ≠ 0)) := by
  have hrot : (getBits Rs 4 0).toNat = (getBits Rs 7 0).toNat % 32 := by
    rw [toNat_getBits, toNat_getBits]
    omega
  have hb := toNat_getBits_7_4 h4 h7
  unfold carryOfShift
  rcases shiftKind_cases ins with ⟨ht, hk⟩ | ⟨ht, hk⟩ | ⟨ht, hk⟩ | ⟨ht, hk⟩ <;>
    rw [hk] <;> rw [ht] at hb
  · simp only [registerShift, hb] at hsv
    split_ifs at hsv with h0 hlt h32 <;> cases hsv
    · rw [if_pos h0]
    · rw [if_neg h0, lastOut_lsl Rm (by omega) (by omega), decide_byte_getBit]
    · rw [if_neg h0, lastOut_lsl Rm (by omega) (by omega), decide_byte_getBit, h32]
    · rw [if_neg h0, lastOut_lsl_of_lt Rm (by omega)]
      decide
  · simp only [registerShift, hb] at hsv
    split_ifs at hsv with h0 hlt h32 <;> cases hsv
    · rw [if_pos h0]
    · rw [if_neg h0, lastOut_lsr, decide_byte_getBit]
    · rw [if_neg h0, lastOut_lsr, decide_byte_getBit, h32]
    · rw [if_neg h0, lastOut_lsr, BitVec.getLsbD_of_ge Rm _ (by omega)]
      decide
  · simp only [registerShift, hb] at hsv
    have hbeyond : ¬ (getBits Rs 7 0).toNat < 32 →
        Rm.getLsbD 31 = if (getBits Rs 7 0).toNat ≤ 32 then Rm.getLsbD ((getBits Rs 7 0).toNat - 1)
          else Rm.msb := by
      intro hge
      split
      · rw [show (getBits Rs 7 0).toNat - 1 = 31 by omega]
      · exact getLsbD_31 Rm
    split_ifs at hsv with h0 hlt h31 <;> cases hsv
    · rw [if_pos h0]
    · rw [if_neg h0, lastOut_asr Rm (by decide), if_pos (by omega), decide_byte_getBit]
    · rw [if_neg h0, lastOut_asr Rm (by decide), ← hbeyond hlt, decide_byte_getBit]
    · rw [if_neg h0, lastOut_asr Rm (by decide), ← hbeyond hlt, decide_byte_getBit]
  · simp only [registerShift, hb, hrot] at hsv
    split_ifs at hsv with h0 hr <;> cases hsv
    · rw [if_pos h0]
    · rw [if_neg h0, lastOut_ror Rm _ (by decide), decide_byte_getBit,
        show ((getBits Rs 7 0).toNat - 1) % 32 = 31 by omega]
    · rw [if_neg h0, lastOut_ror Rm _ (by decide), decide_byte_getBit,
        show ((getBits Rs 7 0).toNat - 1) % 32 = (getBits Rs 7 0).toNat % 32 % 32 - 1 by omega]

end

/-- What the shifter of the code carries out is what the architecture says. -/
theorem shifterCarryOut_eq {h : Host} {p : ArmCore} {ins : Word} {sv : ShifterValues}
    (hc : insClass ins = .dpShift ∨ insClass ins = .dpImmediate)
    (hsv : shifterValues h p ins = some sv) :
    decide (sv.shifterCarryOut ≠ 0) = shifterCarry h p ins := by
  unfold shifterValues at hsv
  unfold shifterCarry
  by_cases himm : insClass ins = .dpImmediate
  · rw [if_pos himm] at hsv ⊢
    cases hsv
    unfold immediateValues immediateCarryOut
    split
    · exact decide_flagC p
    · exact decide_byte_getBit ..
  · rw [if_neg himm] at hsv ⊢
    have h74 := not_bits_7_4_of_dpShift (hc.resolve_right himm)
    unfold shifterValuesCalculator at hsv
    simp only at hsv ⊢
    by_cases h4 : getBit ins 4 = 0
    · rw [if_pos h4] at hsv ⊢
      rw [immediateShift_carry h4 hsv, decide_flagC]
    · rw [if_neg h4] at hsv ⊢
      have h7 : getBit ins 7 ≠ 1 := fun h7 => h74 ⟨h7, (getBit_ne_zero_iff ins 4).mp h4⟩
      rw [registerShift_carry h4 h7 hsv, decide_flagC]

/-! ## The flags -/

/-- `cpsr'` has N and Z of `result` and `carry` in C; V and the bits below
the flags are those of `cpsr`. -/
structure LogicalFlags (cpsr cpsr' result : Word) (carry : Bool) : Prop where
  n : cpsr'.getLsbD 31 = result.getLsbD 31
  z : cpsr'.getLsbD 30 = true ↔ result = 0
  c : cpsr'.getLsbD 29 = carry
  v : cpsr'.getLsbD 28 = cpsr.getLsbD 28
  control : ∀ i < 28, cpsr'.getLsbD i = cpsr.getLsbD i

theorem logicalFlags_spec (cpsr result : Word) (carry : Byte) :
    LogicalFlags cpsr (logicalFlags cpsr result carry) result (decide (carry ≠ 0)) := by
  constructor
  · rw [logicalFlags_n, getLsbD_31]
  · rw [logicalFlags_z, decide_eq_true_eq]
  · exact logicalFlags_c ..
  · exact logicalFlags_v ..
  · exact fun i hi => getLsbD_logicalFlags _ _ _ hi

theorem opFlags_logical {op : Opcode} (hop : op.logical = true) (p : ArmCore) (ins : Word)
    (sv : ShifterValues) :
    opFlags op p ins sv = logicalFlags (armReadCpsr p) (opValue op p ins sv) sv.shifterCarryOut :=
  aluFlags_logical hop ..

/-- The logical operations set N and Z from their result and C from the
shifter, and leave V and the rest of the CPSR. -/
theorem logical_flags (h : Host) (p : ArmCore) {op : Opcode} {ins : Word}
    (hop : op.logical = true) (hi : SetsFlags op ins) (hRd : op.compares = false → rdNum ins ≠ 15) :
    ∃ sv p', shifterValues h p ins = some sv ∧ dispatch h p ins = .ok (0, p') ∧
      decide (sv.shifterCarryOut ≠ 0) = shifterCarry h p ins ∧
      LogicalFlags (armReadCpsr p) (armReadCpsr p')
        (op.value (rnValue p ins) sv.shifterOperand (carryIn p)) (shifterCarry h p ins) := by
  obtain ⟨sv, hsv, hd⟩ := hi.isDataProcessing.dispatch p h hRd
  have hcarry := shifterCarryOut_eq hi.isDataProcessing.insClass hsv
  refine ⟨sv, _, hsv, hd, hcarry, ?_⟩
  rw [armReadCpsr_opState p sv (Or.inr hi.S), opFlags_logical hop, ← hcarry]
  exact logicalFlags_spec ..

/-- `MOVS r0, r1, LSR #1` and `TST r1, #0x80000000`. -/
theorem logical_flags_movs_tst :
    (∃ sv p', shifterValues x86Host (holding 5) 0xE1B000A1 = some sv ∧
      dispatch x86Host (holding 5) 0xE1B000A1 = .ok (0, p') ∧
      decide (sv.shifterCarryOut ≠ 0) = shifterCarry x86Host (holding 5) 0xE1B000A1 ∧
      LogicalFlags (armReadCpsr (holding 5)) (armReadCpsr p')
        (Opcode.value (rnValue (holding 5) 0xE1B000A1) sv.shifterOperand (carryIn (holding 5))
          .mov) (shifterCarry x86Host (holding 5) 0xE1B000A1)) ∧
    (∃ sv p', shifterValues x86Host (holding 5) 0xE3110102 = some sv ∧
      dispatch x86Host (holding 5) 0xE3110102 = .ok (0, p') ∧
      decide (sv.shifterCarryOut ≠ 0) = shifterCarry x86Host (holding 5) 0xE3110102 ∧
      LogicalFlags (armReadCpsr (holding 5)) (armReadCpsr p')
        (Opcode.value (rnValue (holding 5) 0xE3110102) sv.shifterOperand (carryIn (holding 5))
          .tst) (shifterCarry x86Host (holding 5) 0xE3110102)) :=
  ⟨logical_flags x86Host (holding 5) rfl ⟨by decide, by decide, by decide⟩ fun _ => by decide,
    logical_flags x86Host (holding 5) rfl ⟨by decide, by decide, by decide⟩ fun _ => by decide⟩

end Armator
