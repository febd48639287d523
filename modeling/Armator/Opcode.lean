/-
The data-processing instructions as the architecture names them.

`Opcode` lists the sixteen operations and `Opcode.value` says what each
computes.  `dataProcessing_eq` brings what both functions of
`arm_data_processing.c` do to these terms: the value is written to `Rd`
unless the opcode compares, and flags are set when it compares or S says
so.  Everything about one opcode's flags is then about numbers.

`alu_results_and_frame` puts the results together with what stays as it was.
Words that write r15 are left out here: with S set they copy the SPSR.
-/
import Armator.Alu

namespace Armator

/-! ## The sixteen operations -/

inductive Opcode where
  | and | eor | sub | rsb | add | adc | sbc | rsc
  | tst | teq | cmp | cmn
  | orr | mov | bic | mvn
deriving DecidableEq, Repr

namespace Opcode

/-- Bits 24 to 21 of the word. -/
def code : Opcode → Nat
  | and => 0b0000
  | eor => 0b0001
  | sub => 0b0010
  | rsb => 0b0011
  | add => 0b0100
  | adc => 0b0101
  | sbc => 0b0110
  | rsc => 0b0111
  | tst => 0b1000
  | teq => 0b1001
  | cmp => 0b1010
  | cmn => 0b1011
  | orr => 0b1100
  | mov => 0b1101
  | bic => 0b1110
  | mvn => 0b1111

/-- What the operation computes from `Rn`, the shifter operand and C. -/
def value (a b c : Word) : Opcode → Word
  | and | tst => a &&& b
  | eor | teq => a ^^^ b
  | sub | cmp => a - b
  | rsb => b - a
  | add | cmn => a + b
  | adc => a + b + c
  | sbc => a - b - (1 - c)
  | rsc => b - a - (1 - c)
  | orr => a ||| b
  | mov => b
  | bic => a &&& ~~~b
  | mvn => ~~~b

/-- The operations that set flags and write no register. -/
def compares : Opcode → Bool
  | tst | teq | cmp | cmn => true
  | _ => false

/-- The operations that take C from the shifter. -/
def logical : Opcode → Bool
  | and | eor | tst | teq | orr | mov | bic | mvn => true
  | _ => false

theorem aluResult_code (op : Opcode) (a b c : Word) : aluResult op.code a b c = op.value a b c := by
  cases op <;> rfl

theorem isComparison_code (op : Opcode) : isComparison op.code = op.compares := by
  cases op <;> rfl

theorem exists_code {n : Nat} (hn : n < 16) : ∃ op : Opcode, n = op.code := by
  have hall : ∀ n < 16, ∃ op ∈ [and, eor, sub, rsb, add, adc, sbc, rsc, tst, teq, cmp, cmn,
      orr, mov, bic, mvn], n = op.code := by decide
  obtain ⟨op, -, h⟩ := hall n hn
  exact ⟨op, h⟩

end Opcode

/-- The flags of a logical operation: its operands show in the result and
the carry alone. -/
theorem aluFlags_logical {op : Opcode} (hop : op.logical = true) (cpsr a c : Word)
    (sv : ShifterValues) (result d : Word) :
    aluFlags op.code cpsr a c sv result d = logicalFlags cpsr result sv.shifterCarryOut := by
  cases op with
  | and | eor | tst | teq | orr | mov | bic | mvn => rfl
  | _ => cases hop

/-! ## The operands of a word -/

/-- `Rn_value` -/
abbrev rnValue (p : ArmCore) (ins : Word) : Word := armReadRegister p (regNum (getBits ins 19 16))

/-- `Rd_num` -/
abbrev rdNum (ins : Word) : Fin 16 := regNum (getBits ins 15 12)

/-- `Rd_value`, before the instruction -/
abbrev rdValue (p : ArmCore) (ins : Word) : Word := armReadRegister p (rdNum ins)

/-- The C flag as a number. -/
def carryIn (p : ArmCore) : Word := getBit (armReadCpsr p) 29

theorem flagC_setWidth (p : ArmCore) : (flagC p).setWidth 32 = carryIn p := by
  have hlt : (getBit (armReadCpsr p) 29).toNat < 2 ^ 8 := by
    rw [toNat_getBit]
    omega
  refine BitVec.eq_of_toNat_eq ?_
  rw [flagC, carryIn, BitVec.toNat_setWidth, BitVec.toNat_setWidth, Nat.mod_eq_of_lt hlt,
    Nat.mod_eq_of_lt (BitVec.isLt _)]

theorem carryIn_le_one (p : ArmCore) : (carryIn p).toNat ≤ 1 := by
  rw [carryIn, toNat_getBit]
  omega

/-- A word that is run as the data-processing operation `op`. -/
structure IsDataProcessing (op : Opcode) (ins : Word) : Prop where
  insClass : insClass ins = .dpShift ∨ insClass ins = .dpImmediate
  opcode : (getBits ins 24 21).toNat = op.code

/-- The operation `op` on a shifted register or an immediate, with S. -/
structure SetsFlags (op : Opcode) (ins : Word) : Prop where
  form : getBits ins 27 25 = 0b000 ∧ ¬ (getBit ins 7 = 1 ∧ getBit ins 4 = 1) ∨
    getBits ins 27 25 = 0b001
  opcode : (getBits ins 24 21).toNat = op.code
  S : getBit ins 20 = 1

theorem SetsFlags.isDataProcessing {op : Opcode} {ins : Word} (hi : SetsFlags op ins) :
    IsDataProcessing op ins :=
  ⟨insClass_of_form hi.form hi.S, hi.opcode⟩

theorem exists_isDataProcessing {ins : Word}
    (hc : insClass ins = .dpShift ∨ insClass ins = .dpImmediate) :
    ∃ op, IsDataProcessing op ins := by
  obtain ⟨op, hop⟩ := Opcode.exists_code (getBits_24_21_lt ins)
  exact ⟨op, hc, hop⟩

/-! ## What a word does -/

section

variable (op : Opcode) (p : ArmCore) (ins : Word) (sv : ShifterValues)

/-- The value an operation computes in `p`. -/
def opValue : Word := op.value (rnValue p ins) sv.shifterOperand (carryIn p)

/-- The CPSR an operation sets in `p`. -/
def opFlags : Word :=
  aluFlags op.code (armReadCpsr p) (rnValue p ins) (carryIn p) sv (opValue op p ins sv)
    (if op.compares then rdValue p ins else opValue op p ins sv)

/-- The state with the result written. -/
def opWritten : ArmCore :=
  if op.compares then p else armWriteRegister p (rdNum ins) (opValue op p ins sv)

/-- The state an operation leaves. -/
def opState : ArmCore :=
  if op.compares ∨ getBit ins 20 = 1 then
    armWriteCpsr (opWritten op p ins sv) (opFlags op p ins sv)
  else opWritten op p ins sv

variable {op ins}

theorem dataProcessing_compares (hop : (getBits ins 24 21).toNat = op.code)
    (hc : op.compares = true) :
    dataProcessing p ins sv = (0, armWriteCpsr p (opFlags op p ins sv)) := by
  unfold dataProcessing alu opFlags opValue
  simp only [hop, Opcode.aluResult_code, Opcode.isComparison_code, flagC_setWidth, hc, if_true]

theorem dataProcessing_writes (hop : (getBits ins 24 21).toNat = op.code)
    (hc : op.compares = false) :
    dataProcessing p ins sv = writeRd p (rdNum ins) (getBit ins 20) (opValue op p ins sv)
      fun Rd => aluFlags op.code (armReadCpsr p) (rnValue p ins) (carryIn p) sv Rd Rd := by
  unfold dataProcessing alu opValue
  simp only [hop, Opcode.aluResult_code, Opcode.isComparison_code, flagC_setWidth, hc,
    Bool.false_eq_true, if_false]

theorem dataProcessing_eq (hop : (getBits ins 24 21).toNat = op.code)
    (hRd : op.compares = false → rdNum ins ≠ 15) :
    dataProcessing p ins sv = (0, opState op p ins sv) := by
  unfold opState opWritten
  cases hc : op.compares with
  | true =>
      rw [dataProcessing_compares p sv hop hc, if_pos (Or.inl rfl)]
      rfl
  | false =>
      have hback := armReadRegister_write_self p (opValue op p ins sv) (hRd hc)
      rw [dataProcessing_writes p sv hop hc, writeRd, opFlags, hc]
      simp only [hRd hc, and_false, hback, Bool.false_eq_true, if_false, false_or]
      split_ifs <;> rfl

/-- A data-processing word has a shifter operand, and is run on it. -/
theorem IsDataProcessing.dispatch (h : Host) (hi : IsDataProcessing op ins)
    (hRd : op.compares = false → rdNum ins ≠ 15) :
    ∃ sv, shifterValues h p ins = some sv ∧ dispatch h p ins = .ok (0, opState op p ins sv) := by
  obtain ⟨sv, hsv, hd⟩ := dispatch_dataProcessing h p hi.insClass
  exact ⟨sv, hsv, by rw [hd, dataProcessing_eq p sv hi.opcode hRd]⟩

theorem armReadCpsr_opState (hf : op.compares = true ∨ getBit ins 20 = 1) :
    armReadCpsr (opState op p ins sv) = opFlags op p ins sv := by
  unfold opState
  simp only [if_pos hf, armReadCpsr_writeCpsr]

end

/-! ## Results and frame -/

/-- `p'` is `p` after the operation `op` with the shifter operand `b`: the
result is in `Rd`, and nothing else has changed but the flags, when they
are set. -/
structure AluStep (op : Opcode) (ins b : Word) (p p' : ArmCore) : Prop where
  result : op.compares = false →
    armReadRegister p' (rdNum ins) = op.value (rnValue p ins) b (carryIn p)
  registers : ∀ k : Fin 37, k ≠ 31 →
    (op.compares = false → k ≠ slot (rdNum ins) (registersGetMode p.reg)) → p'.reg k = p.reg k
  mem : p'.mem = p.mem
  control : ∀ i < 28, (armReadCpsr p').getLsbD i = (armReadCpsr p).getLsbD i
  cpsr : op.compares = false → getBit ins 20 = 0 → armReadCpsr p' = armReadCpsr p

section

variable {op : Opcode} {p : ArmCore} {ins : Word} (sv : ShifterValues)

theorem getLsbD_opFlags {i : Nat} (hi : i < 28) :
    (opFlags op p ins sv).getLsbD i = (armReadCpsr p).getLsbD i :=
  getLsbD_aluFlags _ _ _ _ _ _ _ hi

/-- Flags leave a register as it is read. -/
theorem armReadRegister_writeCpsr {q : ArmCore} {value : Word}
    (hv : ∀ i < 28, value.getLsbD i = (armReadCpsr q).getLsbD i) (n : Fin 16) :
    armReadRegister (armWriteCpsr q value) n = armReadRegister q n := by
  have hmode : registersGetMode (armWriteCpsr q value).reg = registersGetMode q.reg := by
    refine registersGetMode_congr fun j hj => ?_
    exact (congrArg (BitVec.getLsbD · j) (armReadCpsr_writeCpsr q value)).trans (hv j (by omega))
  have hslot : registersRead (armWriteCpsr q value).reg n (registersGetMode q.reg)
      = registersRead q.reg n (registersGetMode q.reg) := by
    rw [registersRead_eq, registersRead_eq]
    exact Function.update_of_ne (slot_ne_cpsr n _) ..
  rw [armReadRegister, armReadRegister, armReadRegisterInternal, armReadRegisterInternal, hmode,
    hslot]

theorem opWritten_cpsr : armReadCpsr (opWritten op p ins sv) = armReadCpsr p := by
  unfold opWritten
  split
  · rfl
  · exact armReadCpsr_write ..

theorem opWritten_mem : (opWritten op p ins sv).mem = p.mem := by
  unfold opWritten
  split <;> rfl

theorem opWritten_reg_of_ne {k : Fin 37}
    (hk : op.compares = false → k ≠ slot (rdNum ins) (registersGetMode p.reg)) :
    (opWritten op p ins sv).reg k = p.reg k := by
  unfold opWritten
  cases hc : op.compares with
  | true => rw [if_pos rfl]
  | false =>
      rw [if_neg Bool.false_ne_true, armWriteRegister_reg, Function.update_of_ne (hk hc)]

theorem armReadRegister_opWritten (hc : op.compares = false) (hRd : rdNum ins ≠ 15) :
    armReadRegister (opWritten op p ins sv) (rdNum ins) = opValue op p ins sv := by
  rw [opWritten, hc, if_neg Bool.false_ne_true, armReadRegister_write_self p _ hRd]

theorem armReadRegister_opState (n : Fin 16) :
    armReadRegister (opState op p ins sv) n = armReadRegister (opWritten op p ins sv) n := by
  unfold opState
  split
  · refine armReadRegister_writeCpsr (fun i hi => ?_) n
    rw [getLsbD_opFlags sv hi, opWritten_cpsr]
  · rfl

theorem opState_mem : (opState op p ins sv).mem = p.mem := by
  unfold opState
  split
  · exact opWritten_mem sv
  · exact opWritten_mem sv

theorem opState_reg_of_ne {k : Fin 37} (h31 : k ≠ 31)
    (hk : op.compares = false → k ≠ slot (rdNum ins) (registersGetMode p.reg)) :
    (opState op p ins sv).reg k = p.reg k := by
  unfold opState
  split
  · exact (Function.update_of_ne h31 ..).trans (opWritten_reg_of_ne sv hk)
  · exact opWritten_reg_of_ne sv hk

theorem armReadCpsr_opState_control {i : Nat} (hi : i < 28) :
    (armReadCpsr (opState op p ins sv)).getLsbD i = (armReadCpsr p).getLsbD i := by
  unfold opState
  split
  · rw [armReadCpsr_writeCpsr, getLsbD_opFlags sv hi]
  · rw [opWritten_cpsr]

theorem armReadCpsr_opState_of_clear (hc : op.compares = false) (hS : getBit ins 20 = 0) :
    armReadCpsr (opState op p ins sv) = armReadCpsr p := by
  have hf : ¬ (op.compares = true ∨ getBit ins 20 = 1) := by
    rw [hc, hS]
    decide
  rw [opState, if_neg hf, opWritten_cpsr]

theorem aluStep_opState (hRd : op.compares = false → rdNum ins ≠ 15) :
    AluStep op ins sv.shifterOperand p (opState op p ins sv) where
  result := by
    intro hc
    rw [armReadRegister_opState, armReadRegister_opWritten sv hc (hRd hc), opValue]
  registers := fun _ h31 hk => opState_reg_of_ne sv h31 hk
  mem := opState_mem sv
  control := fun _ hi => armReadCpsr_opState_control sv hi
  cpsr := fun hc hS => armReadCpsr_opState_of_clear sv hc hS

end

/-- Every data-processing word that does not name r15 in its `Rd` field
leaves in `Rd` what its operation computes, unless it compares, and changes
nothing else but the flags. -/
theorem alu_results_and_frame (h : Host) (p : ArmCore) (ins : Word)
    (hc : insClass ins = .dpShift ∨ insClass ins = .dpImmediate) (hRd : rdNum ins ≠ 15) :
    ∃ op sv p', IsDataProcessing op ins ∧ shifterValues h p ins = some sv ∧
      dispatch h p ins = .ok (0, p') ∧ AluStep op ins sv.shifterOperand p p' := by
  obtain ⟨op, hi⟩ := exists_isDataProcessing hc
  obtain ⟨sv, hsv, hd⟩ := hi.dispatch p h fun _ => hRd
  exact ⟨op, sv, opState op p ins sv, hi, hsv, hd, aluStep_opState sv fun _ => hRd⟩

/-- `ADCS r2, r1, r1` and `TEQ r1, #1`. -/
theorem alu_results_and_frame_adc_teq :
    (∃ op sv p', IsDataProcessing op 0xE0B12001 ∧
      shifterValues x86Host (holding 5) 0xE0B12001 = some sv ∧
      dispatch x86Host (holding 5) 0xE0B12001 = .ok (0, p') ∧
      AluStep op 0xE0B12001 sv.shifterOperand (holding 5) p') ∧
    (∃ op sv p', IsDataProcessing op 0xE3310001 ∧
      shifterValues x86Host (holding 5) 0xE3310001 = some sv ∧
      dispatch x86Host (holding 5) 0xE3310001 = .ok (0, p') ∧
      AluStep op 0xE3310001 sv.shifterOperand (holding 5) p') :=
  ⟨alu_results_and_frame x86Host (holding 5) 0xE0B12001 (Or.inl (by decide)) (by decide),
    alu_results_and_frame x86Host (holding 5) 0xE3310001 (Or.inr (by decide)) (by decide)⟩

end Armator
