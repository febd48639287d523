/-
The flags of additions and subtractions.

What the architecture asks of the flags is said once, in exact integers:
C is the carry (for a subtraction, that nothing is borrowed), V says that
the signed result does not fit in 32 bits, N and Z are those of the word
that is left, and the other bits of the CPSR stay (`FlagsOf`).

The code computes them with three helpers, and each has its fault.

  * `carryFrom` adds in 32 bits before it compares, so it never finds a
    carry.
  * `OverflowFrom` is the rule for additions, and the subtractions use it
    too.  The comparisons give it what `Rd` happened to hold.
  * SBC and RSC subtract `~C`, which is -1 - C, where the rule asks for
    1 - C.

For which operands the flags come out right all the same is in
`addition_flags_iff`, `subtraction_flags_iff` and
`subtraction_with_carry_flags_iff`.
-/
import Armator.Opcode
import Armator.BlockTransfer
import Armator.Lib.WordArith

namespace Armator

open WordArith

/-! ## Exact flags -/

/-- `cpsr'` has the flags of `result`: `carry` is the carry, and `exact` the
signed value that the result stands for. -/
structure FlagsOf (cpsr cpsr' result : Word) (carry : Prop) (exact : Int) : Prop where
  n : cpsr'.getLsbD 31 = result.getLsbD 31
  z : cpsr'.getLsbD 30 = true ↔ result = 0
  c : cpsr'.getLsbD 29 = true ↔ carry
  v : cpsr'.getLsbD 28 = true ↔ ¬ (-2 ^ 31 ≤ exact ∧ exact < 2 ^ 31)
  control : ∀ i < 28, cpsr'.getLsbD i = cpsr.getLsbD i

/-- The flags of `a + b + c`. -/
def AdditionFlags (cpsr cpsr' a b : Word) (c : Nat) : Prop :=
  FlagsOf cpsr cpsr' (a + b + BitVec.ofNat 32 c) (2 ^ 32 ≤ a.toNat + b.toNat + c)
    (a.toInt + b.toInt + c)

/-- The flags of `a - b - w`, where `w` is borrowed already. -/
def SubtractionFlags (cpsr cpsr' a b : Word) (w : Nat) : Prop :=
  FlagsOf cpsr cpsr' (a - b - BitVec.ofNat 32 w) (b.toNat + w ≤ a.toNat)
    (a.toInt - b.toInt - w)

/-- An arithmetic flag update is right when its C and V are. -/
theorem flagsOf_arithFlags (cpsr result : Word) (c v : Bool) (carry : Prop) (exact : Int) :
    FlagsOf cpsr (arithFlags cpsr result c v) result carry exact ↔
      (c = true ↔ carry) ∧ (v = true ↔ SignedOverflow 32 exact) := by
  constructor
  · intro hf
    have hc := hf.c
    have hv := hf.v
    rw [arithFlags_c] at hc
    rw [arithFlags_v] at hv
    exact ⟨hc, hv⟩
  · rintro ⟨hc, hv⟩
    constructor
    · rw [arithFlags_n, getLsbD_31]
    · rw [arithFlags_z, decide_eq_true_eq]
    · rw [arithFlags_c, hc]
    · rw [arithFlags_v, hv]
      rfl
    · exact fun i hi => getLsbD_arithFlags _ _ _ _ hi

/-- The wrapped sum is never above the largest word. -/
theorem carryFrom_eq_false (a b c : Word) : carryFrom a b c = false := by
  have hlt := (a + b + c).isLt
  rw [carryFrom, decide_eq_false_iff_not]
  omega

/-! ## ADD, ADC and CMN -/

/-- What comes in beside the operands: C for ADC, and nothing for the others. -/
def additionCarryIn (op : Opcode) (p : ArmCore) : Nat :=
  if op = .adc then (carryIn p).toNat else 0

theorem additionCarryIn_le_one (op : Opcode) (p : ArmCore) : additionCarryIn op p ≤ 1 := by
  unfold additionCarryIn
  split
  · exact carryIn_le_one p
  · exact Nat.zero_le 1

/-- For which operands an addition sets the flags it should: nothing may be
carried out, and what `Rd` holds must look like the sum where a CMN of two
positive operands takes it for the sum. -/
def AdditionRight (op : Opcode) (d a b : Word) (c : Nat) : Prop :=
  a.toNat + b.toNat + c < 2 ^ 32 ∧
    (op = .cmn → a.toNat < 2 ^ 31 → b.toNat < 2 ^ 31 →
      (2 ^ 31 ≤ d.toNat ↔ 2 ^ 31 ≤ a.toNat + b.toNat))

theorem opValue_addition {op : Opcode} (hop : op = .add ∨ op = .adc ∨ op = .cmn) (p : ArmCore)
    (ins : Word) (sv : ShifterValues) :
    opValue op p ins sv
      = rnValue p ins + sv.shifterOperand + BitVec.ofNat 32 (additionCarryIn op p) := by
  rcases hop with rfl | rfl | rfl
  · exact (add_zero _).symm
  · rw [additionCarryIn, if_pos rfl, BitVec.ofNat_toNat, BitVec.setWidth_eq]
    rfl
  · exact (add_zero _).symm

theorem opFlags_addition {op : Opcode} (hop : op = .add ∨ op = .adc ∨ op = .cmn) (p : ArmCore)
    (ins : Word) (sv : ShifterValues) :
    opFlags op p ins sv
      = arithFlags (armReadCpsr p) (opValue op p ins sv) false
          (overflowFrom (if op.compares then rdValue p ins else opValue op p ins sv)
            (rnValue p ins) sv.shifterOperand) := by
  rcases hop with rfl | rfl | rfl <;> rw [opFlags, ← carryFrom_eq_false] <;> rfl

/-- With the sum in hand `OverflowFrom` is right. -/
theorem overflowFrom_sum (a b : Word) {c : Nat} (hc : c ≤ 1) :
    overflowFrom (a + b + BitVec.ofNat 32 c) a b = true ↔
      SignedOverflow 32 (a.toInt + b.toInt + c) := by
  rw [overflowFrom_eq, sum_overflow_iff (by decide) a b hc, Bool.and_eq_true, beq_iff_eq,
    bne_iff_ne]

/-- With anything else it is right when that has the sign of the sum. -/
theorem overflowFrom_other (d a b : Word) (hlt : a.toNat + b.toNat < 2 ^ 32) :
    (overflowFrom d a b = true ↔ SignedOverflow 32 (a.toInt + b.toInt + (0 : Nat))) ↔
      (a.toNat < 2 ^ 31 → b.toNat < 2 ^ 31 →
        (2 ^ 31 ≤ d.toNat ↔ 2 ^ 31 ≤ a.toNat + b.toNat)) := by
  have hsum : (a + b + BitVec.ofNat 32 0).toNat = a.toNat + b.toNat := by
    rcases toNat_sum (by decide) a b (c := 0) (by decide) with ⟨h, -⟩ | h <;> omega
  rw [overflowFrom_eq, sum_overflow_iff (by decide) a b (by decide), Bool.and_eq_true, beq_iff_eq,
    bne_iff_ne]
  simp only [BitVec.msb_eq_decide, hsum, ne_eq, decide_eq_decide]
  omega

/-- An addition sets C, V, N and Z as the exact sum asks, and keeps the rest
of the CPSR, exactly for the operands `AdditionRight` describes. -/
theorem addition_flags_iff (h : Host) (p : ArmCore) {op : Opcode} {ins : Word}
    (hop : op = .add ∨ op = .adc ∨ op = .cmn) (hi : SetsFlags op ins)
    (hRd : op.compares = false → rdNum ins ≠ 15) :
    ∃ sv p', shifterValues h p ins = some sv ∧ dispatch h p ins = .ok (0, p') ∧
      (AdditionFlags (armReadCpsr p) (armReadCpsr p') (rnValue p ins) sv.shifterOperand
          (additionCarryIn op p) ↔
        AdditionRight op (rdValue p ins) (rnValue p ins) sv.shifterOperand
          (additionCarryIn op p)) := by
  obtain ⟨sv, hsv, hd⟩ := hi.isDataProcessing.dispatch p h hRd
  refine ⟨sv, _, hsv, hd, ?_⟩
  rw [armReadCpsr_opState p sv (Or.inr hi.S), opFlags_addition hop, AdditionFlags,
    opValue_addition hop, flagsOf_arithFlags, AdditionRight]
  have hcarry : (false = true ↔ 2 ^ 32 ≤ (rnValue p ins).toNat + sv.shifterOperand.toNat
      + additionCarryIn op p) ↔ (rnValue p ins).toNat + sv.shifterOperand.toNat
      + additionCarryIn op p < 2 ^ 32 := by
    simp only [Bool.false_eq_true, false_iff, Nat.not_le]
  rw [hcarry]
  refine and_congr_right fun hlt => ?_
  by_cases hcmn : op = .cmn
  · subst hcmn
    exact (overflowFrom_other _ _ _ hlt).trans ⟨fun hs _ => hs, fun hs => hs rfl⟩
  · have hw : op.compares = false := by
      rcases hop with rfl | rfl | rfl
      · rfl
      · rfl
      · exact absurd rfl hcmn
    rw [hw, if_neg Bool.false_ne_true, overflowFrom_sum _ _ (additionCarryIn_le_one op p)]
    exact iff_of_true Iff.rfl fun hh => absurd hh hcmn

/-- A processor with two operands in r1 and r2. -/
def givenOperands (a b : Word) : ArmCore := writeRegisters (booted 16 []) [(1, a), (2, b)]

/-- `ADDS r0, r1, r2`, of 3 and 4. -/
theorem addition_flags_iff_adds :
    ∃ sv p', shifterValues x86Host (givenOperands 3 4) 0xE0910002 = some sv ∧
      dispatch x86Host (givenOperands 3 4) 0xE0910002 = .ok (0, p') ∧
      (AdditionFlags (armReadCpsr (givenOperands 3 4)) (armReadCpsr p')
          (rnValue (givenOperands 3 4) 0xE0910002) sv.shifterOperand
          (additionCarryIn .add (givenOperands 3 4)) ↔
        AdditionRight .add (rdValue (givenOperands 3 4) 0xE0910002)
          (rnValue (givenOperands 3 4) 0xE0910002) sv.shifterOperand
          (additionCarryIn .add (givenOperands 3 4))) :=
  addition_flags_iff x86Host (givenOperands 3 4) (Or.inl rfl)
    ⟨by decide, by decide, by decide⟩ fun _ => by decide

/-- The same instruction of 4294967295 and 1 carries, and C is clear. -/
theorem adds_loses_carry :
    SetsFlags .add 0xE0910002 ∧ rdNum 0xE0910002 ≠ 15 ∧
    rnValue (givenOperands 0xFFFFFFFF 1) 0xE0910002 = 0xFFFFFFFF ∧
    shifterValues x86Host (givenOperands 0xFFFFFFFF 1) 0xE0910002 = some ⟨0, 1⟩ ∧
    ∃ p', dispatch x86Host (givenOperands 0xFFFFFFFF 1) 0xE0910002 = .ok (0, p') ∧
      ¬ AdditionFlags (armReadCpsr (givenOperands 0xFFFFFFFF 1)) (armReadCpsr p')
        0xFFFFFFFF 1 0 := by
  refine ⟨⟨by decide, by decide, by decide⟩, by decide, by decide, by rfl, _, rfl, ?_⟩
  intro hf
  have hc := hf.c.mpr (by decide)
  exact absurd hc (by decide)

/-! ## SUB, RSB, SBC and RSC -/

/-- The operations that subtract `Rn` from the shifter operand. -/
def Opcode.reversed : Opcode → Bool
  | rsb | rsc => true
  | _ => false

def minuend (op : Opcode) (Rn operand : Word) : Word := if op.reversed then operand else Rn

def subtrahend (op : Opcode) (Rn operand : Word) : Word := if op.reversed then Rn else operand

/-- The exact value of `a - b - w` lies in the half of the signed range
that `a` is in. -/
def DifferenceKeepsSign (a b : Word) (w : Nat) : Prop :=
  (0 ≤ a.toInt → 0 ≤ a.toInt - b.toInt - w ∧ a.toInt - b.toInt - w < 2 ^ 31) ∧
    (a.toInt < 0 → -2 ^ 31 ≤ a.toInt - b.toInt - w ∧ a.toInt - b.toInt - w < 0)

theorem opValue_subtraction {op : Opcode} (hop : op = .sub ∨ op = .rsb) (p : ArmCore)
    (ins : Word) (sv : ShifterValues) :
    opValue op p ins sv = minuend op (rnValue p ins) sv.shifterOperand
      - subtrahend op (rnValue p ins) sv.shifterOperand - BitVec.ofNat 32 0 := by
  rcases hop with rfl | rfl
  · exact (sub_zero _).symm
  · exact (sub_zero _).symm

theorem opFlags_subtraction {op : Opcode} (hop : op = .sub ∨ op = .rsb) (p : ArmCore)
    (ins : Word) (sv : ShifterValues) :
    opFlags op p ins sv
      = arithFlags (armReadCpsr p) (opValue op p ins sv)
          (!borrowFrom (minuend op (rnValue p ins) sv.shifterOperand)
            (subtrahend op (rnValue p ins) sv.shifterOperand))
          (overflowFrom (opValue op p ins sv) (minuend op (rnValue p ins) sv.shifterOperand)
            (subtrahend op (rnValue p ins) sv.shifterOperand)) := by
  rcases hop with rfl | rfl <;> rfl

theorem not_borrowFrom_iff (a b : Word) : (!borrowFrom a b) = true ↔ b.toNat ≤ a.toNat := by
  rw [Bool.not_eq_true', borrowFrom, decide_eq_false_iff_not, Nat.not_lt]

theorem msb_difference_iff (a b : Word) {w : Nat} (hw : w ≤ 1) :
    (a - b - BitVec.ofNat 32 w).msb = a.msb ↔ DifferenceKeepsSign a b w :=
  msb_difference_eq_iff (by decide) a b hw

/-- The rule for additions is right for a subtraction that keeps the sign
of the minuend: then neither rule finds an overflow. -/
theorem overflowFrom_difference (a b : Word) :
    (overflowFrom (a - b - BitVec.ofNat 32 0) a b = true ↔
        SignedOverflow 32 (a.toInt - b.toInt - (0 : Nat))) ↔ DifferenceKeepsSign a b 0 := by
  rw [← msb_difference_iff a b (by decide), difference_overflow_iff (by decide) a b (by decide),
    overflowFrom_eq, Bool.and_eq_true, beq_iff_eq, bne_iff_ne]
  tauto

/-- SUBS and RSBS set C, V, N and Z as the exact difference asks, and keep
the rest of the CPSR, exactly when the difference keeps the sign of the
minuend. -/
theorem subtraction_flags_iff (h : Host) (p : ArmCore) {op : Opcode} {ins : Word}
    (hop : op = .sub ∨ op = .rsb) (hi : SetsFlags op ins) (hRd : rdNum ins ≠ 15) :
    ∃ sv p', shifterValues h p ins = some sv ∧ dispatch h p ins = .ok (0, p') ∧
      (SubtractionFlags (armReadCpsr p) (armReadCpsr p')
          (minuend op (rnValue p ins) sv.shifterOperand)
          (subtrahend op (rnValue p ins) sv.shifterOperand) 0 ↔
        DifferenceKeepsSign (minuend op (rnValue p ins) sv.shifterOperand)
          (subtrahend op (rnValue p ins) sv.shifterOperand) 0) := by
  obtain ⟨sv, hsv, hd⟩ := hi.isDataProcessing.dispatch p h fun _ => hRd
  refine ⟨sv, _, hsv, hd, ?_⟩
  rw [armReadCpsr_opState p sv (Or.inr hi.S), opFlags_subtraction hop, SubtractionFlags,
    opValue_subtraction hop, flagsOf_arithFlags, overflowFrom_difference, not_borrowFrom_iff]
  exact and_iff_right Iff.rfl

/-- `SUBS r0, r1, r2`, of 3 and 4. -/
theorem subtraction_flags_iff_subs :
    ∃ sv p', shifterValues x86Host (givenOperands 3 4) 0xE0510002 = some sv ∧
      dispatch x86Host (givenOperands 3 4) 0xE0510002 = .ok (0, p') ∧
      (SubtractionFlags (armReadCpsr (givenOperands 3 4)) (armReadCpsr p')
          (minuend .sub (rnValue (givenOperands 3 4) 0xE0510002) sv.shifterOperand)
          (subtrahend .sub (rnValue (givenOperands 3 4) 0xE0510002) sv.shifterOperand) 0 ↔
        DifferenceKeepsSign
          (minuend .sub (rnValue (givenOperands 3 4) 0xE0510002) sv.shifterOperand)
          (subtrahend .sub (rnValue (givenOperands 3 4) 0xE0510002) sv.shifterOperand) 0) :=
  subtraction_flags_iff x86Host (givenOperands 3 4) (Or.inl rfl)
    ⟨by decide, by decide, by decide⟩ (by decide)

/-- The same instruction takes 1 from the least integer, and V is clear. -/
theorem subs_misses_overflow :
    SetsFlags .sub 0xE0510002 ∧ rdNum 0xE0510002 ≠ 15 ∧
    rnValue (givenOperands 0x80000000 1) 0xE0510002 = 0x80000000 ∧
    shifterValues x86Host (givenOperands 0x80000000 1) 0xE0510002 = some ⟨0, 1⟩ ∧
    ∃ p', dispatch x86Host (givenOperands 0x80000000 1) 0xE0510002 = .ok (0, p') ∧
      ¬ SubtractionFlags (armReadCpsr (givenOperands 0x80000000 1)) (armReadCpsr p')
        0x80000000 1 0 := by
  refine ⟨⟨by decide, by decide, by decide⟩, by decide, by decide, by rfl, _, rfl, ?_⟩
  intro hf
  have hv := hf.v.mpr (by decide)
  exact absurd hv (by decide)

/-! ### With a borrow

SBC and RSC compare the minuend with `b - 1 - C`, which wraps for the
smallest `b`, instead of `b + 1 - C`. -/

/-- The borrow that comes in. -/
def borrowIn (p : ArmCore) : Nat := 1 - (carryIn p).toNat

/-- `a` is on the same side of both limits. -/
def BorrowRight (a b c : Nat) : Prop :=
  if b ≤ c then a + c < b + 1 ∨ 2 ^ 32 + b ≤ a + 1 + c else a + 1 + c < b ∨ b < a + c

/-- For which operands SBC and RSC set the flags they should: the borrow
must come out right, and the difference keep the sign of the minuend,
unless `b` and `b - 1 - C` have two signs. -/
def SubtractionWithCarryRight (a b : Word) (c : Nat) : Prop :=
  BorrowRight a.toNat b.toNat c ∧
    (DifferenceKeepsSign a b (1 - c) ∨ b.toNat ≤ c ∨ 2 ^ 31 ≤ b.toNat ∧ b.toNat ≤ 2 ^ 31 + c)

theorem opValue_subtractionWithCarry {op : Opcode} (hop : op = .sbc ∨ op = .rsc) (p : ArmCore)
    (ins : Word) (sv : ShifterValues) :
    opValue op p ins sv = minuend op (rnValue p ins) sv.shifterOperand
      - subtrahend op (rnValue p ins) sv.shifterOperand - BitVec.ofNat 32 (borrowIn p) := by
  have hborrow : 1 - carryIn p = BitVec.ofNat 32 (borrowIn p) := by
    have hle := carryIn_le_one p
    unfold borrowIn
    refine BitVec.eq_of_toNat_eq ?_
    rw [BitVec.toNat_sub, BitVec.toNat_ofNat]
    show (2 ^ 32 - (carryIn p).toNat + 1) % 2 ^ 32 = _
    omega
  rcases hop with rfl | rfl
  · rw [← hborrow]
    rfl
  · rw [← hborrow]
    rfl

theorem opFlags_subtractionWithCarry {op : Opcode} (hop : op = .sbc ∨ op = .rsc) (p : ArmCore)
    (ins : Word) (sv : ShifterValues) :
    opFlags op p ins sv
      = arithFlags (armReadCpsr p) (opValue op p ins sv)
          (!borrowFrom (minuend op (rnValue p ins) sv.shifterOperand)
            (subtrahend op (rnValue p ins) sv.shifterOperand + ~~~carryIn p))
          (overflowFrom (opValue op p ins sv) (minuend op (rnValue p ins) sv.shifterOperand)
            (subtrahend op (rnValue p ins) sv.shifterOperand + ~~~carryIn p)) := by
  rcases hop with rfl | rfl <;> rfl

/-- The limit of the code. -/
theorem toNat_add_not (b c : Word) (hc : c.toNat ≤ 1) :
    ((b + ~~~c).toNat + 1 + c.toNat = b.toNat ∧ c.toNat < b.toNat) ∨
      ((b + ~~~c).toNat + 1 + c.toNat = b.toNat + 2 ^ 32 ∧ b.toNat ≤ c.toNat) := by
  have hlt := b.isLt
  rw [BitVec.toNat_add, BitVec.toNat_not]
  omega

theorem borrow_iff (a b c : Word) (hc : c.toNat ≤ 1) :
    ((!borrowFrom a (b + ~~~c)) = true ↔ b.toNat + (1 - c.toNat) ≤ a.toNat) ↔
      BorrowRight a.toNat b.toNat c.toNat := by
  have hlimit := toNat_add_not b c hc
  have ha := a.isLt
  rw [not_borrowFrom_iff, BorrowRight]
  split <;> omega

/-- A wrong overflow has a difference of the other sign, and a limit that
has not crossed to it. -/
theorem overflowFrom_differenceWithCarry (a b c : Word) (hc : c.toNat ≤ 1) :
    (overflowFrom (a - b - BitVec.ofNat 32 (1 - c.toNat)) a (b + ~~~c) = true ↔
        SignedOverflow 32 (a.toInt - b.toInt - (1 - c.toNat : Nat))) ↔
      (DifferenceKeepsSign a b (1 - c.toNat) ∨ b.toNat ≤ c.toNat ∨
        2 ^ 31 ≤ b.toNat ∧ b.toNat ≤ 2 ^ 31 + c.toNat) := by
  have hcross : (b + ~~~c).msb ≠ b.msb ↔
      b.toNat ≤ c.toNat ∨ 2 ^ 31 ≤ b.toNat ∧ b.toNat ≤ 2 ^ 31 + c.toNat := by
    have hlimit := toNat_add_not b c hc
    have hb := b.isLt
    rw [BitVec.msb_eq_decide, BitVec.msb_eq_decide, ne_eq, decide_eq_decide]
    omega
  rw [← hcross, ← msb_difference_iff a b (by omega),
    difference_overflow_iff (by decide) a b (by omega), overflowFrom_eq, Bool.and_eq_true,
    beq_iff_eq, bne_iff_ne]
  generalize (a - b - BitVec.ofNat 32 (1 - c.toNat)).msb = r
  generalize (b + ~~~c).msb = limit
  cases r <;> cases limit <;> cases a.msb <;> cases b.msb <;> decide

/-- SBCS and RSCS set C, V, N and Z as the exact difference asks exactly for
the operands `SubtractionWithCarryRight` describes. -/
theorem subtraction_with_carry_flags_iff (h : Host) (p : ArmCore) {op : Opcode} {ins : Word}
    (hop : op = .sbc ∨ op = .rsc) (hi : SetsFlags op ins) (hRd : rdNum ins ≠ 15) :
    ∃ sv p', shifterValues h p ins = some sv ∧ dispatch h p ins = .ok (0, p') ∧
      (SubtractionFlags (armReadCpsr p) (armReadCpsr p')
          (minuend op (rnValue p ins) sv.shifterOperand)
          (subtrahend op (rnValue p ins) sv.shifterOperand) (borrowIn p) ↔
        SubtractionWithCarryRight (minuend op (rnValue p ins) sv.shifterOperand)
          (subtrahend op (rnValue p ins) sv.shifterOperand) (carryIn p).toNat) := by
  obtain ⟨sv, hsv, hd⟩ := hi.isDataProcessing.dispatch p h fun _ => hRd
  refine ⟨sv, _, hsv, hd, ?_⟩
  have hle := carryIn_le_one p
  rw [armReadCpsr_opState p sv (Or.inr hi.S), opFlags_subtractionWithCarry hop, SubtractionFlags,
    opValue_subtractionWithCarry hop, flagsOf_arithFlags, borrowIn, borrow_iff _ _ _ hle,
    overflowFrom_differenceWithCarry _ _ _ hle, SubtractionWithCarryRight]

/-- `SBCS r0, r1, r2`, of 9 and 4 with C clear. -/
theorem subtraction_with_carry_flags_iff_sbcs :
    ∃ sv p', shifterValues x86Host (givenOperands 9 4) 0xE0D10002 = some sv ∧
      dispatch x86Host (givenOperands 9 4) 0xE0D10002 = .ok (0, p') ∧
      (SubtractionFlags (armReadCpsr (givenOperands 9 4)) (armReadCpsr p')
          (minuend .sbc (rnValue (givenOperands 9 4) 0xE0D10002) sv.shifterOperand)
          (subtrahend .sbc (rnValue (givenOperands 9 4) 0xE0D10002) sv.shifterOperand)
          (borrowIn (givenOperands 9 4)) ↔
        SubtractionWithCarryRight
          (minuend .sbc (rnValue (givenOperands 9 4) 0xE0D10002) sv.shifterOperand)
          (subtrahend .sbc (rnValue (givenOperands 9 4) 0xE0D10002) sv.shifterOperand)
          (carryIn (givenOperands 9 4)).toNat) :=
  subtraction_with_carry_flags_iff x86Host (givenOperands 9 4) (Or.inl rfl)
    ⟨by decide, by decide, by decide⟩ (by decide)

/-- The same instruction takes 5 and a borrow from 5, and C says that
nothing was borrowed. -/
theorem sbcs_loses_borrow :
    SetsFlags .sbc 0xE0D10002 ∧ rdNum 0xE0D10002 ≠ 15 ∧
    rnValue (givenOperands 5 5) 0xE0D10002 = 5 ∧ borrowIn (givenOperands 5 5) = 1 ∧
    shifterValues x86Host (givenOperands 5 5) 0xE0D10002 = some ⟨0, 5⟩ ∧
    ∃ p', dispatch x86Host (givenOperands 5 5) 0xE0D10002 = .ok (0, p') ∧
      ¬ SubtractionFlags (armReadCpsr (givenOperands 5 5)) (armReadCpsr p') 5 5 1 := by
  refine ⟨⟨by decide, by decide, by decide⟩, by decide, by decide, by decide, by rfl, _, rfl, ?_⟩
  intro hf
  have hc := hf.c.mp (by decide)
  exact absurd hc (by decide)

end Armator
