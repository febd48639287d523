/-
What a data-processing instruction depends on.

Two runs of one word, from states that agree on the CPSR, the SPSRs, r15
and the registers the word names as sources, leave the same CPSR and the
same value in `Rd`.  CMP and CMN break this: they compute V from what the
register in the `Rd` field holds, which a comparison does not name at all.
`data_processing_noninterference_iff` says when that shows.
-/
import Armator.Effects
import Armator.Opcode

namespace Armator

/-- The two states agree on what the word may depend on: `Rn`, unless it is
a move, and in the shifted-register form `Rm`, with `Rs` where the amount
is in a register. -/
structure SameSources (op : Opcode) (ins : Word) (p q : ArmCore) : Prop where
  cpsr : armReadCpsr q = armReadCpsr p
  spsr : ∀ k : Fin 37, 31 < k.val → q.reg k = p.reg k
  pc : q.reg 15 = p.reg 15
  Rn : op ≠ .mov → op ≠ .mvn → rnValue q ins = rnValue p ins
  Rm : insClass ins = .dpShift →
    armReadRegister q (regNum (getBits ins 3 0)) = armReadRegister p (regNum (getBits ins 3 0))
  Rs : insClass ins = .dpShift → getBit ins 4 ≠ 0 →
    armReadRegister q (regNum (getBits ins 11 8)) = armReadRegister p (regNum (getBits ins 11 8))

/-- The CPSR is the same afterwards, and so is `Rd`, if the operation
writes it. -/
def SameOutcome (op : Opcode) (ins : Word) (p' q' : ArmCore) : Prop :=
  armReadCpsr q' = armReadCpsr p' ∧
    (op.compares = false → armReadRegister q' (rdNum ins) = armReadRegister p' (rdNum ins))

/-- What the register in the `Rd` field holds does not show: the operation
is no CMP or CMN, or its operands have two signs, or both states hold a
value of one sign there. -/
def StaleRdHidden (op : Opcode) (ins : Word) (sv : ShifterValues) (p q : ArmCore) : Prop :=
  op = .cmp ∨ op = .cmn → (rnValue p ins).msb = sv.shifterOperand.msb →
    (rdValue q ins).msb = (rdValue p ins).msb

section

variable {op : Opcode} {ins : Word} {p q : ArmCore}

theorem SameSources.mode (hs : SameSources op ins p q) :
    registersGetMode q.reg = registersGetMode p.reg := by
  have h31 : q.reg 31 = p.reg 31 := hs.cpsr
  rw [registersGetMode, registersGetMode, h31]

theorem SameSources.readSpsr (hs : SameSources op ins p q) : armReadSpsr q = armReadSpsr p := by
  unfold armReadSpsr registersReadSpsr
  rw [hs.mode, hs.spsr 36 (by decide), hs.spsr 35 (by decide), hs.spsr 32 (by decide),
    hs.spsr 33 (by decide), hs.spsr 34 (by decide)]

theorem SameSources.carry (hs : SameSources op ins p q) : carryIn q = carryIn p := by
  rw [carryIn, carryIn, hs.cpsr]

theorem SameSources.flagC (hs : SameSources op ins p q) : flagC q = flagC p := by
  rw [Armator.flagC, Armator.flagC, hs.cpsr]

/-- Both runs have one shifter operand. -/
theorem SameSources.shifterValues (hs : SameSources op ins p q) (h : Host)
    (hc : insClass ins = .dpShift ∨ insClass ins = .dpImmediate) :
    shifterValues h q ins = shifterValues h p ins := by
  unfold Armator.shifterValues
  by_cases himm : insClass ins = .dpImmediate
  · rw [if_pos himm, if_pos himm, immediateValues, immediateValues, hs.flagC]
  · have hshift := hc.resolve_right himm
    rw [if_neg himm, if_neg himm, shifterValuesCalculator, shifterValuesCalculator, hs.flagC,
      hs.Rm hshift]
    by_cases h4 : getBit ins 4 = 0
    · rw [if_pos h4, if_pos h4]
    · rw [if_neg h4, if_neg h4, hs.Rs hshift h4]

/-- The moves do not look at `Rn`. -/
theorem Opcode.value_move (hop : op = .mov ∨ op = .mvn) (a a' b c : Word) :
    op.value a' b c = op.value a b c := by
  rcases hop with rfl | rfl <;> rfl

theorem SameSources.opValue (hs : SameSources op ins p q) (sv : ShifterValues) :
    opValue op q ins sv = opValue op p ins sv := by
  unfold Armator.opValue
  rw [hs.carry]
  by_cases hmove : op = .mov ∨ op = .mvn
  · exact Opcode.value_move hmove ..
  · rw [hs.Rn (fun hmov => hmove (Or.inl hmov)) (fun hmvn => hmove (Or.inr hmvn))]

theorem SameSources.aluFlags (hs : SameSources op ins p q) (sv : ShifterValues)
    (result d : Word) :
    aluFlags op.code (armReadCpsr q) (rnValue q ins) (carryIn q) sv result d
      = aluFlags op.code (armReadCpsr p) (rnValue p ins) (carryIn p) sv result d := by
  rw [hs.cpsr, hs.carry]
  by_cases hmove : op = .mov ∨ op = .mvn
  · have hlog : op.logical = true := by
      rcases hmove with rfl | rfl <;> rfl
    rw [aluFlags_logical hlog, aluFlags_logical hlog]
  · rw [hs.Rn (fun hmov => hmove (Or.inl hmov)) (fun hmvn => hmove (Or.inr hmvn))]

/-! ## r15 as the destination -/

/-- A write to r15: with S the CPSR is taken from the SPSR, if there is one. -/
theorem writeRd_pc (p : ArmCore) (S value : Word) (f : Word → Word) :
    writeRd p 15 S value f =
      if S = 1 then
        if armCurrentModeHasSpsr p = true then
          (0, armWriteCpsr (armWriteRegister p 15 value) (armReadSpsr p))
        else (UNDEFINED_INSTRUCTION, armWriteRegister p 15 value)
      else (0, armWriteRegister p 15 value) := by
  have hw := RegWrites.write p 15 value
  unfold writeRd
  simp only [and_true, hw.hasSpsr, hw.readSpsr]
  split_ifs <;> rfl

theorem armReadRegister_pc_congr {p q : ArmCore} (h : q.reg 15 = p.reg 15) :
    armReadRegister q 15 = armReadRegister p 15 := by
  rw [armReadRegister_pc, armReadRegister_pc, h]

theorem writeRd_pc_same (hs : SameSources op ins p q) (S value : Word) (f g : Word → Word) :
    (writeRd q 15 S value f).1 = (writeRd p 15 S value g).1 ∧
      armReadCpsr (writeRd q 15 S value f).2 = armReadCpsr (writeRd p 15 S value g).2 ∧
      armReadRegister (writeRd q 15 S value f).2 15
        = armReadRegister (writeRd p 15 S value g).2 15 := by
  have hpc : (armWriteRegister q 15 value).reg 15 = (armWriteRegister p 15 value).reg 15 := by
    rw [armWriteRegister_pc, armWriteRegister_pc]
  have hcpsr : armReadCpsr (armWriteRegister q 15 value)
      = armReadCpsr (armWriteRegister p 15 value) := by
    rw [armReadCpsr_write, armReadCpsr_write, hs.cpsr]
  have hspsr : armCurrentModeHasSpsr q = armCurrentModeHasSpsr p := by
    simp only [armCurrentModeHasSpsr, registersCurrentModeHasSpsr, hs.mode]
  rw [writeRd_pc, writeRd_pc, hspsr, hs.readSpsr]
  split_ifs
  · refine ⟨rfl, ?_, armReadRegister_pc_congr hpc⟩
    rw [armReadCpsr_writeCpsr, armReadCpsr_writeCpsr]
  · exact ⟨rfl, hcpsr, armReadRegister_pc_congr hpc⟩
  · exact ⟨rfl, hcpsr, armReadRegister_pc_congr hpc⟩

theorem dataProcessing_pc_same (hs : SameSources op ins p q) (sv : ShifterValues)
    (hop : (getBits ins 24 21).toNat = op.code) (hc : op.compares = false)
    (h15 : rdNum ins = 15) :
    (dataProcessing q ins sv).1 = (dataProcessing p ins sv).1 ∧
      SameOutcome op ins (dataProcessing p ins sv).2 (dataProcessing q ins sv).2 := by
  rw [SameOutcome, dataProcessing_writes p sv hop hc, dataProcessing_writes q sv hop hc, h15,
    hs.opValue]
  obtain ⟨hr, hcpsr, hpc⟩ := writeRd_pc_same hs (getBit ins 20) (Armator.opValue op p ins sv)
    (fun Rd => Armator.aluFlags op.code (armReadCpsr q) (rnValue q ins) (carryIn q) sv Rd Rd)
    (fun Rd => Armator.aluFlags op.code (armReadCpsr p) (rnValue p ins) (carryIn p) sv Rd Rd)
  exact ⟨hr, hcpsr, fun _ => hpc⟩

/-! ## The other words -/

theorem armReadCpsr_opState_congr (hs : SameSources op ins p q) (sv : ShifterValues)
    (hf : opFlags op q ins sv = opFlags op p ins sv) :
    armReadCpsr (opState op q ins sv) = armReadCpsr (opState op p ins sv) := by
  unfold opState
  split
  · rw [armReadCpsr_writeCpsr, armReadCpsr_writeCpsr, hf]
  · rw [opWritten_cpsr, opWritten_cpsr, hs.cpsr]

/-- V of a comparison of `a` and `b`, for two values in `Rd`. -/
theorem overflowFrom_eq_overflowFrom_iff (d d' a b : Word) :
    overflowFrom d' a b = overflowFrom d a b ↔ (a.msb = b.msb → d'.msb = d.msb) := by
  rw [overflowFrom_eq, overflowFrom_eq]
  cases a.msb <;> cases b.msb <;> cases d.msb <;> cases d'.msb <;> decide

/-- The flags of a comparison differ in V at most. -/
theorem aluFlags_compare_eq_iff (hop : op = .cmp ∨ op = .cmn) (cpsr a c : Word)
    (sv : ShifterValues) (result d d' : Word) :
    aluFlags op.code cpsr a c sv result d' = aluFlags op.code cpsr a c sv result d ↔
      (a.msb = sv.shifterOperand.msb → d'.msb = d.msb) := by
  have hflags : ∃ carry, ∀ x, aluFlags op.code cpsr a c sv result x
      = arithFlags cpsr result carry (overflowFrom x a sv.shifterOperand) := by
    rcases hop with rfl | rfl
    · exact ⟨_, fun _ => rfl⟩
    · exact ⟨_, fun _ => rfl⟩
  obtain ⟨carry, hflags⟩ := hflags
  rw [hflags, hflags, ← overflowFrom_eq_overflowFrom_iff]
  constructor
  · intro heq
    have hv := congrArg (BitVec.getLsbD · 28) heq
    exact (arithFlags_v ..).symm.trans (hv.trans (arithFlags_v ..))
  · intro heq
    rw [heq]

/-- The flags of the two runs differ when the old `Rd` shows. -/
theorem opFlags_eq_iff (hs : SameSources op ins p q) (sv : ShifterValues) :
    opFlags op q ins sv = opFlags op p ins sv ↔ StaleRdHidden op ins sv p q := by
  unfold opFlags StaleRdHidden
  rw [hs.opValue, hs.aluFlags]
  by_cases hop : op = .cmp ∨ op = .cmn
  · have hc : op.compares = true := by
      rcases hop with rfl | rfl <;> rfl
    rw [hc, if_pos rfl, if_pos rfl, aluFlags_compare_eq_iff hop]
    exact ⟨fun hh _ => hh, fun hh => hh hop⟩
  · refine iff_of_true ?_ fun hh => absurd hh hop
    cases hc : op.compares with
    | false => rw [if_neg Bool.false_ne_true, if_neg Bool.false_ne_true]
    | true =>
        have hlog : op.logical = true := by
          cases op with
          | tst | teq => rfl
          | cmp => exact absurd (Or.inl rfl) hop
          | cmn => exact absurd (Or.inr rfl) hop
          | _ => cases hc
        rw [aluFlags_logical hlog, aluFlags_logical hlog]

theorem sameOutcome_opState_iff (hs : SameSources op ins p q) (sv : ShifterValues)
    (hRd : op.compares = false → rdNum ins ≠ 15) :
    SameOutcome op ins (opState op p ins sv) (opState op q ins sv) ↔
      StaleRdHidden op ins sv p q := by
  rw [← opFlags_eq_iff hs sv]
  constructor
  · rintro ⟨hcpsr, -⟩
    by_cases hf : op.compares = true ∨ getBit ins 20 = 1
    · rwa [armReadCpsr_opState _ sv hf, armReadCpsr_opState _ sv hf] at hcpsr
    · -- without flags the operation is no comparison
      rw [opFlags_eq_iff hs sv]
      rintro (rfl | rfl) <;> exact absurd (Or.inl rfl) hf
  · intro hflags
    refine ⟨armReadCpsr_opState_congr hs sv hflags, fun hc => ?_⟩
    rw [armReadRegister_opState, armReadRegister_opState,
      armReadRegister_opWritten sv hc (hRd hc), armReadRegister_opWritten sv hc (hRd hc),
      hs.opValue]

end

/-- Two runs of one data-processing word, from states that agree on its
sources, return the same result; and they leave the same CPSR and the same
value in the destination exactly when the word is no comparison that shows
what the register in its `Rd` field held. -/
theorem data_processing_noninterference_iff (h : Host) (p q : ArmCore) {op : Opcode} {ins : Word}
    (hi : IsDataProcessing op ins) (hs : SameSources op ins p q) :
    ∃ sv r p' q', shifterValues h p ins = some sv ∧ dispatch h p ins = .ok (r, p') ∧
      dispatch h q ins = .ok (r, q') ∧
      (SameOutcome op ins p' q' ↔ StaleRdHidden op ins sv p q) := by
  obtain ⟨sv, hsv, hd⟩ := dispatch_dataProcessing h p hi.insClass
  obtain ⟨sv', hsv', hd'⟩ := dispatch_dataProcessing h q hi.insClass
  obtain rfl : sv' = sv :=
    Option.some.inj (hsv'.symm.trans ((hs.shifterValues h hi.insClass).trans hsv))
  by_cases hRd : op.compares = false → rdNum ins ≠ 15
  · rw [dataProcessing_eq p sv' hi.opcode hRd] at hd
    rw [dataProcessing_eq q sv' hi.opcode hRd] at hd'
    exact ⟨sv', 0, _, _, hsv, hd, hd', sameOutcome_opState_iff hs sv' hRd⟩
  · push Not at hRd
    obtain ⟨hr, hsame⟩ := dataProcessing_pc_same hs sv' hi.opcode hRd.1 hRd.2
    refine ⟨sv', (dataProcessing p ins sv').1, (dataProcessing p ins sv').2,
      (dataProcessing q ins sv').2, hsv, hd, ?_, iff_of_true hsame ?_⟩
    · rw [hd', ← hr]
    · rintro (rfl | rfl) <;> exact absurd hRd.1 (by decide)

/-- `CMP r1, r2` of 5 and 3, with 0 and with the least integer in r0. -/
def comparingBeside (r0 : Word) : ArmCore :=
  writeRegisters (booted 16 []) [(1, 5), (2, 3), (0, r0)]

theorem comparingBeside_sameSources (a b : Word) :
    SameSources .cmp 0xE1510002 (comparingBeside a) (comparingBeside b) := by
  have hkeep : ∀ n : Fin 16, n ≠ 0 →
      armReadRegister (comparingBeside b) n = armReadRegister (comparingBeside a) n := by
    intro n h0
    exact (armReadRegister_write_of_ne _ b h0).trans (armReadRegister_write_of_ne _ a h0).symm
  have hslot : ∀ k : Fin 37, k ≠ 0 → (comparingBeside b).reg k = (comparingBeside a).reg k := by
    intro k hk
    have hwrite : ∀ x, (comparingBeside x).reg k
        = (writeRegisters (booted 16 []) [(1, 5), (2, 3)]).reg k := by
      intro x
      exact (congrFun (armWriteRegister_reg _ 0 x) k).trans (Function.update_of_ne hk ..)
    exact (hwrite b).trans (hwrite a).symm
  have hRn : regNum (getBits 0xE1510002 19 16) = 1 := by decide
  have hRm : regNum (getBits 0xE1510002 3 0) = 2 := by decide
  constructor
  · exact hslot 31 (by decide)
  · intro k hk
    refine hslot k ?_
    rintro rfl
    exact absurd hk (by decide)
  · exact hslot 15 (by decide)
  · intro _ _
    rw [rnValue, rnValue, hRn]
    exact hkeep 1 (by decide)
  · intro _
    rw [hRm]
    exact hkeep 2 (by decide)
  · intro _ h4
    exact absurd (by decide) h4

theorem data_processing_noninterference_iff_cmp :
    ∃ sv r p' q', shifterValues x86Host (comparingBeside 0) 0xE1510002 = some sv ∧
      dispatch x86Host (comparingBeside 0) 0xE1510002 = .ok (r, p') ∧
      dispatch x86Host (comparingBeside 0x80000000) 0xE1510002 = .ok (r, q') ∧
      (SameOutcome .cmp 0xE1510002 p' q' ↔
        StaleRdHidden .cmp 0xE1510002 sv (comparingBeside 0) (comparingBeside 0x80000000)) :=
  data_processing_noninterference_iff x86Host (comparingBeside 0) (comparingBeside 0x80000000)
    ⟨Or.inl (by decide), by decide⟩ (comparingBeside_sameSources 0 0x80000000)

/-- The register r0, which the instruction does not name, shows in V. -/
theorem cmp_reveals_stale_register :
    IsDataProcessing .cmp 0xE1510002 ∧
    SameSources .cmp 0xE1510002 (comparingBeside 0) (comparingBeside 0x80000000) ∧
    ∃ p' q', dispatch x86Host (comparingBeside 0) 0xE1510002 = .ok (0, p') ∧
      dispatch x86Host (comparingBeside 0x80000000) 0xE1510002 = .ok (0, q') ∧
      armReadCpsr q' ≠ armReadCpsr p' :=
  ⟨⟨Or.inl (by decide), by decide⟩, comparingBeside_sameSources 0 0x80000000, _, _, rfl, rfl,
    by decide⟩

end Armator
