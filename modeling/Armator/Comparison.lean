/-
Comparisons.

The signed conditions GE, LT, GT and LE read N, Z and V, and are right
after a comparison when V says whether the subtraction overflowed.  `CMP`
does not ask that: it computes V with `OverflowFrom`, a formula for
additions, and gives it the old value of the register in the `Rd` field as
the result.  `cmp_signed_conditions_iff` says for which values the
conditions come out right all the same.

The unsigned conditions read C and Z alone, and are right after every
`CMP` (`cmp_unsigned_conditions`).
-/
import Armator.Effects

namespace Armator

/-! ## The conditions -/

section

variable (p : ArmCore) {w : Word}

theorem armCondition_ge (hw : getBits w 31 28 = 0b1010) :
    armCondition p w = ((armReadCpsr p).getLsbD 31 == (armReadCpsr p).getLsbD 28) := by
  simp only [armCondition, hw, decide_getBit]
  rfl

theorem armCondition_lt (hw : getBits w 31 28 = 0b1011) :
    armCondition p w = ((armReadCpsr p).getLsbD 31 != (armReadCpsr p).getLsbD 28) := by
  simp only [armCondition, hw, decide_getBit]
  rfl

theorem armCondition_gt (hw : getBits w 31 28 = 0b1100) :
    armCondition p w = (!(armReadCpsr p).getLsbD 30 &&
      ((armReadCpsr p).getLsbD 31 == (armReadCpsr p).getLsbD 28)) := by
  simp only [armCondition, hw, decide_getBit]
  rfl

theorem armCondition_le (hw : getBits w 31 28 = 0b1101) :
    armCondition p w = ((armReadCpsr p).getLsbD 30 ||
      ((armReadCpsr p).getLsbD 31 != (armReadCpsr p).getLsbD 28)) := by
  simp only [armCondition, hw, decide_getBit]
  rfl

end

/-- In `p` the four signed conditions, in any word that carries them,
compare `a` with `b`. -/
structure SignedConditions (p : ArmCore) (a b : Word) : Prop where
  ge : ∀ w, getBits w 31 28 = 0b1010 → (armCondition p w = true ↔ a.toInt ≥ b.toInt)
  lt : ∀ w, getBits w 31 28 = 0b1011 → (armCondition p w = true ↔ a.toInt < b.toInt)
  gt : ∀ w, getBits w 31 28 = 0b1100 → (armCondition p w = true ↔ a.toInt > b.toInt)
  le : ∀ w, getBits w 31 28 = 0b1101 → (armCondition p w = true ↔ a.toInt ≤ b.toInt)

/-- The sign of a wrapped difference: the order of the operands, or its
opposite when the subtraction overflows. -/
theorem msb_sub (a b : Word) : (a - b).msb = (a.slt b ^^ a.ssubOverflow b) := by
  have ha := @BitVec.toInt_lt 32 a
  have ha' := @BitVec.le_toInt 32 a
  have hb := @BitVec.toInt_lt 32 b
  have hb' := @BitVec.le_toInt 32 b
  have hs : (a - b).toInt = (a.toInt - b.toInt).bmod (2 ^ 32) := BitVec.toInt_sub
  rw [Int.bmod_def] at hs
  rw [BitVec.msb_eq_toInt, BitVec.slt_eq_decide, BitVec.ssubOverflow]
  grind

theorem sub_eq_zero_iff (a b : Word) : a - b = 0 ↔ a.toInt = b.toInt := by
  rw [BitVec.toInt_inj]
  exact sub_eq_zero

/-- With N and Z of the difference, the conditions compare the operands
exactly when V is the overflow of the subtraction. -/
theorem signedConditions_iff {p : ArmCore} {a b : Word}
    (hn : (armReadCpsr p).getLsbD 31 = (a - b).msb)
    (hz : (armReadCpsr p).getLsbD 30 = decide (a - b = 0)) :
    SignedConditions p a b ↔ (armReadCpsr p).getLsbD 28 = a.ssubOverflow b := by
  have hlt : ((armReadCpsr p).getLsbD 31 != (armReadCpsr p).getLsbD 28) = a.slt b ↔
      (armReadCpsr p).getLsbD 28 = a.ssubOverflow b := by
    rw [hn, msb_sub]
    cases (armReadCpsr p).getLsbD 28 <;> cases a.slt b <;> cases a.ssubOverflow b <;> decide
  have hslt : a.slt b = true ↔ a.toInt < b.toInt := by
    rw [BitVec.slt_eq_decide, decide_eq_true_eq]
  constructor
  · intro hs
    have hw := hs.lt 0xB0000000 (by decide)
    rw [armCondition_lt p (by decide), ← hslt, ← Bool.eq_iff_iff] at hw
    exact hlt.mp hw
  · intro hv
    have hne := hlt.mpr hv
    have heq : ((armReadCpsr p).getLsbD 31 == (armReadCpsr p).getLsbD 28) = !a.slt b := by
      rw [← hne]
      cases (armReadCpsr p).getLsbD 31 <;> cases (armReadCpsr p).getLsbD 28 <;> rfl
    have hzi : decide (a - b = 0) = true ↔ a.toInt = b.toInt := by
      rw [decide_eq_true_eq, sub_eq_zero_iff]
    constructor
    · intro w hw
      rw [armCondition_ge p hw, heq, Bool.not_eq_true', ← Bool.not_eq_true, hslt]
      omega
    · intro w hw
      rw [armCondition_lt p hw, hne, hslt]
    · intro w hw
      rw [armCondition_gt p hw, heq, hz, Bool.and_eq_true, Bool.not_eq_true', Bool.not_eq_true',
        ← Bool.not_eq_true, ← Bool.not_eq_true, hslt, hzi]
      omega
    · intro w hw
      rw [armCondition_le p hw, hne, hz, Bool.or_eq_true, hslt, hzi]
      omega

/-! ## CMP -/

/-- A `CMP`: a shifted register or an immediate, opcode 1010 and S. -/
structure IsCmp (ins : Word) : Prop where
  form : getBits ins 27 25 = 0b000 ∧ ¬ (getBit ins 7 = 1 ∧ getBit ins 4 = 1) ∨
    getBits ins 27 25 = 0b001
  opcode : getBits ins 24 21 = 0b1010
  S : getBit ins 20 = 1

/-- For which values the V flag of `CMP` is the overflow of `a - b`, when
`d` is what the register in the `Rd` field holds: operands of one sign
need the same sign in `d`, operands of two signs must not overflow. -/
def CmpOverflowRight (d a b : Word) : Prop :=
  if a.msb = b.msb then d.msb = a.msb else a.ssubOverflow b = false

theorem overflowFrom_eq_iff (d a b : Word) :
    overflowFrom d a b = a.ssubOverflow b ↔ CmpOverflowRight d a b := by
  rw [overflowFrom_eq, BitVec.ssubOverflow_eq, CmpOverflowRight, BitVec.ssubOverflow_eq]
  cases d.msb <;> cases a.msb <;> cases b.msb <;> cases (a - b).msb <;> decide

theorem IsCmp.insClass {ins : Word} (hi : IsCmp ins) :
    insClass ins = .dpShift ∨ insClass ins = .dpImmediate :=
  insClass_of_form hi.form hi.S

/-- What a `CMP` does: it sets the flags of `a - b`, V aside. -/
theorem dataProcessing_cmp {p : ArmCore} {ins : Word} (sv : ShifterValues) (hi : IsCmp ins) :
    dataProcessing p ins sv = (0, armWriteCpsr p
      (arithFlags (armReadCpsr p)
        (armReadRegister p (regNum (getBits ins 19 16)) - sv.shifterOperand)
        (!borrowFrom (armReadRegister p (regNum (getBits ins 19 16))) sv.shifterOperand)
        (overflowFrom (armReadRegister p (regNum (getBits ins 15 12)))
          (armReadRegister p (regNum (getBits ins 19 16))) sv.shifterOperand))) := by
  unfold dataProcessing
  rw [hi.opcode]
  rfl

/-- The step of a `CMP` writes the CPSR alone. -/
theorem armStep_cmp {h : Host} {p : ArmCore} {A ins : Word} (hf : FetchedAt h p A ins)
    (hc : armCondition (fetched p) ins = true) (hi : IsCmp ins) :
    ∃ sv p', shifterValues h (fetched p) ins = some sv ∧ armStep h p = .ok (0, p') ∧
      p' = armWriteCpsr (fetched p) (arithFlags (armReadCpsr (fetched p))
        (armReadRegister (fetched p) (regNum (getBits ins 19 16)) - sv.shifterOperand)
        (!borrowFrom (armReadRegister (fetched p) (regNum (getBits ins 19 16)))
          sv.shifterOperand)
        (overflowFrom (armReadRegister (fetched p) (regNum (getBits ins 15 12)))
          (armReadRegister (fetched p) (regNum (getBits ins 19 16))) sv.shifterOperand)) := by
  obtain ⟨sv, hsv, hd⟩ := dispatch_dataProcessing h (fetched p) hi.insClass
  have hstep := armStep_of_fetchedAt hf hc
  rw [hd, dataProcessing_cmp sv hi, raise_zero] at hstep
  exact ⟨sv, _, hsv, hstep, rfl⟩

/-- After a `CMP` the signed conditions compare `Rn` with the shifter
operand exactly when the values are such that V comes out right. -/
theorem cmp_signed_conditions_iff (h : Host) (p : ArmCore) (A ins : Word)
    (hf : FetchedAt h p A ins) (hc : armCondition (fetched p) ins = true) (hi : IsCmp ins) :
    ∃ sv p', shifterValues h (fetched p) ins = some sv ∧ armStep h p = .ok (0, p') ∧
      (SignedConditions p' (armReadRegister (fetched p) (regNum (getBits ins 19 16)))
          sv.shifterOperand ↔
        CmpOverflowRight (armReadRegister (fetched p) (regNum (getBits ins 15 12)))
          (armReadRegister (fetched p) (regNum (getBits ins 19 16))) sv.shifterOperand) := by
  obtain ⟨sv, p', hsv, hstep, hp'⟩ := armStep_cmp hf hc hi
  refine ⟨sv, p', hsv, hstep, ?_⟩
  rw [signedConditions_iff (by rw [hp', armReadCpsr_writeCpsr, arithFlags_n])
    (by rw [hp', armReadCpsr_writeCpsr, arithFlags_z]), hp', armReadCpsr_writeCpsr, arithFlags_v,
    overflowFrom_eq_iff]

/-- `CMP r1, r2` with the least integer in r1 and 1 in r2. -/
def comparing : ArmCore := writeRegisters (booted 16 [0xE1510002]) [(1, 0x80000000), (2, 1)]

theorem cmp_signed_conditions_iff_comparing :
    ∃ sv p', shifterValues x86Host (fetched comparing) 0xE1510002 = some sv ∧
      armStep x86Host comparing = .ok (0, p') ∧
      (SignedConditions p' (armReadRegister (fetched comparing) 1) sv.shifterOperand ↔
        CmpOverflowRight (armReadRegister (fetched comparing) 0)
          (armReadRegister (fetched comparing) 1) sv.shifterOperand) :=
  cmp_signed_conditions_iff x86Host comparing 0 0xE1510002
    ⟨by decide, by decide, by decide, by decide +kernel⟩ (by decide)
    ⟨by decide, by decide, by decide⟩

/-- There GE holds afterwards, though -2147483648 is less than 1. -/
theorem cmp_least_integer_ge_one :
    FetchedAt x86Host comparing 0 0xE1510002 ∧ IsCmp 0xE1510002 ∧
    armCondition (fetched comparing) 0xE1510002 = true ∧
    (armReadRegister (fetched comparing) 1).toInt < (1 : Word).toInt ∧
    shifterValues x86Host (fetched comparing) 0xE1510002 = some ⟨0, 1⟩ ∧
    ∃ p', armStep x86Host comparing = .ok (0, p') ∧
      armCondition p' 0xA0000000 = true ∧
      ¬ SignedConditions p' (armReadRegister (fetched comparing) 1) 1 := by
  refine ⟨⟨by decide, by decide, by decide, by decide +kernel⟩,
    ⟨by decide, by decide, by decide⟩, by decide, by decide +kernel, by rfl, _, rfl,
    by decide +kernel, ?_⟩
  intro hs
  have hge := (hs.ge 0xA0000000 (by decide)).mp (by decide +kernel)
  exact absurd hge (by decide +kernel)

/-! ## Unsigned conditions -/

section

variable (p : ArmCore) {w : Word}

theorem armCondition_eq (hw : getBits w 31 28 = 0b0000) :
    armCondition p w = (armReadCpsr p).getLsbD 30 := by
  simp only [armCondition, hw, decide_getBit]
  rfl

theorem armCondition_ne (hw : getBits w 31 28 = 0b0001) :
    armCondition p w = !(armReadCpsr p).getLsbD 30 := by
  simp only [armCondition, hw, decide_getBit]
  rfl

theorem armCondition_cs (hw : getBits w 31 28 = 0b0010) :
    armCondition p w = (armReadCpsr p).getLsbD 29 := by
  simp only [armCondition, hw, decide_getBit]
  rfl

theorem armCondition_cc (hw : getBits w 31 28 = 0b0011) :
    armCondition p w = !(armReadCpsr p).getLsbD 29 := by
  simp only [armCondition, hw, decide_getBit]
  rfl

theorem armCondition_hi (hw : getBits w 31 28 = 0b1000) :
    armCondition p w = ((armReadCpsr p).getLsbD 29 && !(armReadCpsr p).getLsbD 30) := by
  simp only [armCondition, hw, decide_getBit]
  rfl

theorem armCondition_ls (hw : getBits w 31 28 = 0b1001) :
    armCondition p w = (!(armReadCpsr p).getLsbD 29 || (armReadCpsr p).getLsbD 30) := by
  simp only [armCondition, hw, decide_getBit]
  rfl

end

/-- In `p` the six unsigned conditions, in any word that carries them,
compare `a` with `b`. -/
structure UnsignedConditions (p : ArmCore) (a b : Word) : Prop where
  eq : ∀ w, getBits w 31 28 = 0b0000 → (armCondition p w = true ↔ a.toNat = b.toNat)
  ne : ∀ w, getBits w 31 28 = 0b0001 → (armCondition p w = true ↔ a.toNat ≠ b.toNat)
  cs : ∀ w, getBits w 31 28 = 0b0010 → (armCondition p w = true ↔ a.toNat ≥ b.toNat)
  cc : ∀ w, getBits w 31 28 = 0b0011 → (armCondition p w = true ↔ a.toNat < b.toNat)
  hi : ∀ w, getBits w 31 28 = 0b1000 → (armCondition p w = true ↔ a.toNat > b.toNat)
  ls : ∀ w, getBits w 31 28 = 0b1001 → (armCondition p w = true ↔ a.toNat ≤ b.toNat)

/-- With Z of the difference, and C where nothing is borrowed, the
conditions compare the operands. -/
theorem unsignedConditions_of {p : ArmCore} {a b : Word}
    (hz : (armReadCpsr p).getLsbD 30 = decide (a - b = 0))
    (hc : (armReadCpsr p).getLsbD 29 = !borrowFrom a b) : UnsignedConditions p a b := by
  have hzi : (armReadCpsr p).getLsbD 30 = true ↔ a.toNat = b.toNat := by
    rw [hz, decide_eq_true_eq, BitVec.toNat_inj]
    exact sub_eq_zero
  have hci : (armReadCpsr p).getLsbD 29 = true ↔ b.toNat ≤ a.toNat := by
    rw [hc, Bool.not_eq_true', borrowFrom, decide_eq_false_iff_not, Nat.not_lt]
  constructor
  · intro w hw
    rw [armCondition_eq p hw, hzi]
  · intro w hw
    rw [armCondition_ne p hw, Bool.not_eq_true', ← Bool.not_eq_true, hzi]
  · intro w hw
    rw [armCondition_cs p hw, hci]
  · intro w hw
    rw [armCondition_cc p hw, Bool.not_eq_true', ← Bool.not_eq_true, hci, Nat.not_le]
  · intro w hw
    rw [armCondition_hi p hw, Bool.and_eq_true, Bool.not_eq_true', ← Bool.not_eq_true, hci, hzi]
    omega
  · intro w hw
    rw [armCondition_ls p hw, Bool.or_eq_true, Bool.not_eq_true', ← Bool.not_eq_true, hci, hzi]
    omega

/-- After every `CMP` the unsigned conditions compare `Rn` with the shifter
operand. -/
theorem cmp_unsigned_conditions (h : Host) (p : ArmCore) (A ins : Word)
    (hf : FetchedAt h p A ins) (hc : armCondition (fetched p) ins = true) (hi : IsCmp ins) :
    ∃ sv p', shifterValues h (fetched p) ins = some sv ∧ armStep h p = .ok (0, p') ∧
      UnsignedConditions p' (armReadRegister (fetched p) (regNum (getBits ins 19 16)))
        sv.shifterOperand := by
  obtain ⟨sv, p', hsv, hstep, hp'⟩ := armStep_cmp hf hc hi
  refine ⟨sv, p', hsv, hstep, unsignedConditions_of ?_ ?_⟩
  · rw [hp', armReadCpsr_writeCpsr, arithFlags_z]
  · rw [hp', armReadCpsr_writeCpsr, arithFlags_c]

/-- `CMP r1, r2` with the least signed integer in r1 and 1 in r2: as an
unsigned number r1 is the greater. -/
theorem cmp_unsigned_conditions_comparing :
    ∃ sv p', shifterValues x86Host (fetched comparing) 0xE1510002 = some sv ∧
      armStep x86Host comparing = .ok (0, p') ∧
      UnsignedConditions p' (armReadRegister (fetched comparing) 1) sv.shifterOperand :=
  cmp_unsigned_conditions x86Host comparing 0 0xE1510002
    ⟨by decide, by decide, by decide, by decide +kernel⟩ (by decide)
    ⟨by decide, by decide, by decide⟩

end Armator
