/-
One step, taken apart.

`armStep` fetches, tests the condition, decodes and hands a non-zero
result to `armException`.  This file gives each of these its equation, so
that what follows reasons about the instruction handlers and never
unfolds the step again:

  * `armStep_of_fetchedAt`: with a readable program counter and a
    condition that passes, the step is the handler of the fetched word;
  * `dispatch_eq`: the handler is chosen by the class of the word;
  * `armStep_cases`: the three ways any step goes.
-/
import Armator.Instruction
import Mathlib.Tactic.IntervalCases

namespace Armator

/-! ## The fetch -/

/-- The state the fetch leaves: the program counter four bytes on, one
more cycle counted. -/
def fetched (p : ArmCore) : ArmCore :=
  { armWriteRegister p 15 (p.reg 15 + 4) with cycleCount := p.cycleCount + 1 }

theorem fetched_reg (p : ArmCore) :
    (fetched p).reg = Function.update p.reg 15 (p.reg 15 + 4) := by
  show (armWriteRegister p 15 (p.reg 15 + 4)).reg = _
  rw [armWriteRegister_reg, slot_pc]

@[simp] theorem fetched_mem (p : ArmCore) : (fetched p).mem = p.mem := rfl

@[simp] theorem fetched_stdout (p : ArmCore) : (fetched p).stdout = p.stdout := rfl

@[simp] theorem fetched_cycleCount (p : ArmCore) :
    (fetched p).cycleCount = p.cycleCount + 1 := rfl

@[simp] theorem fetched_mode (p : ArmCore) :
    registersGetMode (fetched p).reg = registersGetMode p.reg :=
  armWriteRegister_mode ..

@[simp] theorem fetched_cpsr (p : ArmCore) : armReadCpsr (fetched p) = armReadCpsr p :=
  armReadCpsr_write p 15 (p.reg 15 + 4)

/-- The fetch shows in no register but r15. -/
theorem armReadRegister_fetched (p : ArmCore) {n : Fin 16} (hn : n ≠ 15) :
    armReadRegister (fetched p) n = armReadRegister p n :=
  armReadRegister_write_of_ne p (p.reg 15 + 4) hn

/-- The program counter reads as its address plus 8, bit 1 cleared. -/
theorem fetched_pc (p : ArmCore) :
    armReadRegister (fetched p) 15 = (p.reg 15 + 8) &&& 0xFFFFFFFD := by
  rw [armReadRegister_pc, fetched_reg, Function.update_self, BitVec.add_assoc]
  rfl

/-- Between `p` and `p'` the program counter has advanced by one word;
neither another register of any bank nor the memory has changed. -/
structure OnlyAdvances (p p' : ArmCore) : Prop where
  pc : p'.reg 15 = p.reg 15 + 4
  registers : ∀ k : Fin 37, k ≠ 15 → p'.reg k = p.reg k
  mem : p'.mem = p.mem

theorem onlyAdvances_iff {p p' : ArmCore} :
    OnlyAdvances p p' ↔ p'.reg = (fetched p).reg ∧ p'.mem = p.mem := by
  rw [fetched_reg]
  constructor
  · intro ho
    refine ⟨?_, ho.mem⟩
    funext k
    by_cases hk : k = 15
    · rw [hk, Function.update_self, ho.pc]
    · rw [Function.update_of_ne hk, ho.registers k hk]
  · rintro ⟨hreg, hmem⟩
    refine ⟨by rw [hreg, Function.update_self], ?_, hmem⟩
    intro k hk
    rw [hreg, Function.update_of_ne hk]

/-- Clearing bit 1 leaves the words that have it clear. -/
theorem and_eq_self_iff (x : Word) : x &&& 0xFFFFFFFD = x ↔ x.getLsbD 1 = false := by
  have hmask : ∀ j < 32, (0xFFFFFFFD#32).getLsbD j = decide (j ≠ 1) := by decide
  constructor
  · intro heq
    have h1 := congrArg (fun y : Word => y.getLsbD 1) heq
    simp only [BitVec.getLsbD_and] at h1
    rw [show (0xFFFFFFFD : Word) = 0xFFFFFFFD#32 from rfl, hmask 1 (by decide),
      decide_eq_false (not_not.mpr rfl), Bool.and_false] at h1
    exact h1.symm
  · intro hx
    refine BitVec.eq_of_getLsbD_eq ?_
    intro j hj
    rw [BitVec.getLsbD_and, show (0xFFFFFFFD : Word) = 0xFFFFFFFD#32 from rfl, hmask j hj]
    by_cases h : j = 1
    · rw [h, hx, Bool.false_and]
    · rw [decide_eq_true h, Bool.and_true]

/-- These are, for one, the addresses of words. -/
theorem and_of_aligned {x : Word} (hx : x.toNat % 4 = 0) : x &&& 0xFFFFFFFD = x := by
  rw [and_eq_self_iff, ← getBit_eq_zero_iff_getLsbD, getBit_eq_zero_iff]
  omega

theorem aligned_add {x : Word} (hx : x.toNat % 4 = 0) {n : Nat} (hn : n % 4 = 0) :
    (x + BitVec.ofNat 32 n).toNat % 4 = 0 := by
  rw [BitVec.toNat_add, BitVec.toNat_ofNat]
  omega

/-- The result and the word of the fetch. -/
def fetchRead (h : Host) (p : ArmCore) : Int × Word :=
  memoryReadWord h.isBigEndian (fun i => (h.garbage (.fetchBytes i)).setWidth 8)
    p.mem (p.reg 15) (h.garbage .ins) h.endianess

theorem armFetch_eq (h : Host) (p : ArmCore) :
    armFetch h p (h.garbage .ins) = ((fetchRead h p).1, fetched p, (fetchRead h p).2) := by
  have hpc : registersRead p.reg 15 (registersGetMode p.reg) = p.reg 15 := by
    rw [registersRead_eq, slot_pc]
  simp only [armFetch, hpc]
  rfl

/-- The word-aligned program counter `A` is readable, and `ins` is stored
there. -/
structure FetchedAt (h : Host) (p : ArmCore) (A ins : Word) : Prop where
  pc : p.reg 15 = A
  aligned : A.toNat % 4 = 0
  inRange : p.mem.InRange A 4
  word : p.mem.wordAt h.endianess A = ins

theorem FetchedAt.fetchRead {h : Host} {p : ArmCore} {A ins : Word}
    (hf : FetchedAt h p A ins) : fetchRead h p = (0, ins) := by
  rw [Armator.fetchRead, hf.pc, memoryReadWord_eq _ _ _ _ hf.inRange, hf.word]

/-- There the program counter reads as the address of the word plus 8. -/
theorem FetchedAt.readPc {h : Host} {p : ArmCore} {A ins : Word} (hf : FetchedAt h p A ins) :
    armReadRegister (fetched p) 15 = A + 8 := by
  rw [fetched_pc, hf.pc]
  exact and_of_aligned (aligned_add hf.aligned (n := 8) (by decide))

/-! ## The step after the fetch -/

/-- The second half of `armStep`: a non-zero result goes to `armException`. -/
def raise (h : Host) : Outcome → Outcome
  | .error e => .error e
  | .ok (result, p) =>
      if result ≠ 0 then .ok (armException h p (BitVec.ofInt 8 result)) else .ok (result, p)

@[simp] theorem raise_zero (h : Host) (p : ArmCore) : raise h (.ok (0, p)) = .ok (0, p) := rfl

theorem raise_undefined (h : Host) (p : ArmCore) :
    raise h (.ok (UNDEFINED_INSTRUCTION, p)) = .ok (UNDEFINED_INSTRUCTION, p) := by
  rw [raise, if_pos (by decide)]
  exact congrArg Except.ok (armException_other h p (by decide) (by decide))

theorem raise_neg_one (h : Host) (p : ArmCore) :
    raise h (.ok (-1, p)) = .ok (255, p) := by
  rw [raise, if_pos (by decide)]
  exact congrArg Except.ok (armException_other h p (by decide) (by decide))

theorem raise_swi (h : Host) (p : ArmCore) :
    raise h (.ok (SOFTWARE_INTERRUPT, p)) = .ok (armException h p 8) := rfl

theorem armStep_eq (h : Host) (p : ArmCore) :
    armStep h p = raise h
      (if (fetchRead h p).1 ≠ 0 then .ok (-1, fetched p)
       else if armCondition (fetched p) (fetchRead h p).2 then
         dispatch h (fetched p) (fetchRead h p).2
       else .ok (0, fetched p)) := by
  have hx : armExecuteInstruction h p =
      (if (fetchRead h p).1 ≠ 0 then .ok (-1, fetched p)
       else if armCondition (fetched p) (fetchRead h p).2 then
         dispatch h (fetched p) (fetchRead h p).2
       else .ok (0, fetched p)) := by
    simp only [armExecuteInstruction, armFetch_eq]
  rw [← hx]
  rfl

theorem armStep_of_fetchedAt {h : Host} {p : ArmCore} {A ins : Word}
    (hf : FetchedAt h p A ins) (hc : armCondition (fetched p) ins = true) :
    armStep h p = raise h (dispatch h (fetched p) ins) := by
  rw [armStep_eq, hf.fetchRead, if_neg (not_not.mpr rfl), if_pos hc]

/-- A word is executed: the fetch succeeds and the condition passes. -/
def Executes (h : Host) (p : ArmCore) (ins : Word) : Prop :=
  fetchRead h p = (0, ins) ∧ armCondition (fetched p) ins = true

/-- Any step fails to fetch, skips, or executes a word. -/
theorem armStep_cases (h : Host) (p : ArmCore) :
    armStep h p = .ok (255, fetched p) ∨ armStep h p = .ok (0, fetched p) ∨
      ∃ ins, Executes h p ins ∧ armStep h p = raise h (dispatch h (fetched p) ins) := by
  rw [armStep_eq]
  by_cases hr : (fetchRead h p).1 = 0
  · rw [if_neg (not_not.mpr hr)]
    by_cases hc : armCondition (fetched p) (fetchRead h p).2 = true
    · exact Or.inr (Or.inr ⟨_, ⟨Prod.ext hr rfl, hc⟩, by rw [if_pos hc]⟩)
    · rw [if_neg hc]
      exact Or.inr (Or.inl rfl)
  · rw [if_pos hr, raise_neg_one]
    exact Or.inl rfl

theorem armStep_of_executes {h : Host} {p : ArmCore} {ins : Word} (hx : Executes h p ins) :
    armStep h p = raise h (dispatch h (fetched p) ins) := by
  obtain ⟨hr, hc⟩ := hx
  rw [armStep_eq, hr, if_neg (not_not.mpr rfl), if_pos hc]

/-! ## Instruction classes -/

/-- The handlers `arm_execute_instruction` chooses between. -/
inductive InsClass where
  | miscellaneous | loadStore | dpShift | dpImmediate | loadStoreMultiple | branch
  | coprocessorLoadStore | othersSwi
deriving DecidableEq, Repr

/-- The class of a word, from bits 27 to 20, 7 and 4. -/
def insClass (ins : Word) : InsClass :=
  match (getBits ins 27 25).toNat with
  | 0 =>
      if getBit ins 24 = 1 ∧ getBit ins 23 = 0 ∧ getBit ins 20 = 0 then .miscellaneous
      else if getBit ins 7 = 1 ∧ getBit ins 4 = 1 then .loadStore
      else .dpShift
  | 1 => .dpImmediate
  | 2 | 3 => .loadStore
  | 4 => .loadStoreMultiple
  | 5 => .branch
  | 6 => .coprocessorLoadStore
  | _ => .othersSwi

/-- The handler of a class. -/
def handler (h : Host) (p : ArmCore) (ins : Word) : InsClass → Outcome
  | .miscellaneous => .ok (armMiscellaneous p ins)
  | .loadStore => .ok (armLoadStore h p ins)
  | .dpShift => armDataProcessingShift p ins
  | .dpImmediate => .ok (armDataProcessingImmediateMsr h p ins)
  | .loadStoreMultiple => armLoadStoreMultiple h p ins
  | .branch => .ok (armBranch p ins)
  | .coprocessorLoadStore => .ok (armCoprocessorLoadStore p ins)
  | .othersSwi => .ok (armCoprocessorOthersSwi p ins)

theorem getBits_27_25_lt (ins : Word) : (getBits ins 27 25).toNat < 8 := by
  rw [toNat_getBits]
  omega

/-! The class of a word, by the bits the dispatch looks at. -/

section

variable {ins : Word}

theorem insClass_of_000 (h25 : getBits ins 27 25 = 0b000) :
    insClass ins =
      if getBit ins 24 = 1 ∧ getBit ins 23 = 0 ∧ getBit ins 20 = 0 then .miscellaneous
      else if getBit ins 7 = 1 ∧ getBit ins 4 = 1 then .loadStore
      else .dpShift := by
  unfold insClass
  rw [h25]
  rfl

/-- A word of the first class with bits 7 and 4, and not in the space of
the status register moves. -/
theorem insClass_loadStore (h25 : getBits ins 27 25 = 0b000)
    (hm : ¬ (getBit ins 24 = 1 ∧ getBit ins 23 = 0 ∧ getBit ins 20 = 0))
    (h7 : getBit ins 7 = 1) (h4 : getBit ins 4 = 1) : insClass ins = .loadStore := by
  rw [insClass_of_000 h25, if_neg hm, if_pos ⟨h7, h4⟩]

theorem insClass_miscellaneous (h25 : getBits ins 27 25 = 0b000) (h24 : getBit ins 24 = 1)
    (h23 : getBit ins 23 = 0) (h20 : getBit ins 20 = 0) : insClass ins = .miscellaneous := by
  rw [insClass_of_000 h25, if_pos ⟨h24, h23, h20⟩]

theorem insClass_dpImmediate (h25 : getBits ins 27 25 = 0b001) : insClass ins = .dpImmediate := by
  unfold insClass
  rw [h25]
  rfl

theorem insClass_of_bits (hc : getBits ins 27 25 = 0b100) : insClass ins = .loadStoreMultiple := by
  unfold insClass
  rw [hc]
  rfl

theorem insClass_branch (h25 : getBits ins 27 25 = 0b101) : insClass ins = .branch := by
  unfold insClass
  rw [h25]
  rfl

theorem insClass_othersSwi (h25 : getBits ins 27 25 = 0b111) : insClass ins = .othersSwi := by
  unfold insClass
  rw [h25]
  rfl

theorem insClass_loadStore_immediate (h25 : getBits ins 27 25 = 0b010) :
    insClass ins = .loadStore := by
  unfold insClass
  rw [h25]
  rfl

theorem insClass_loadStore_register (h25 : getBits ins 27 25 = 0b011) :
    insClass ins = .loadStore := by
  unfold insClass
  rw [h25]
  rfl

/-- A data-processing word that sets flags: a shifted register without
both of bits 7 and 4, or an immediate. -/
theorem insClass_of_form
    (hform : getBits ins 27 25 = 0b000 ∧ ¬ (getBit ins 7 = 1 ∧ getBit ins 4 = 1) ∨
      getBits ins 27 25 = 0b001) (hS : getBit ins 20 = 1) :
    insClass ins = .dpShift ∨ insClass ins = .dpImmediate := by
  rcases hform with ⟨h0, h74⟩ | h1
  · left
    have h20 : ¬ (getBit ins 24 = 1 ∧ getBit ins 23 = 0 ∧ getBit ins 20 = 0) := by
      rw [hS]
      exact fun hc => absurd hc.2.2 (by decide)
    rw [insClass_of_000 h0, if_neg h20, if_neg h74]
  · exact Or.inr (insClass_dpImmediate h1)

end

theorem dispatch_eq (h : Host) (p : ArmCore) (ins : Word) :
    dispatch h p ins = handler h p ins (insClass ins) := by
  have hlt := getBits_27_25_lt ins
  unfold dispatch insClass
  generalize (getBits ins 27 25).toNat = t at hlt
  interval_cases t
  · simp only
    split_ifs <;> rfl
  all_goals rfl

/-- In the shifted-register class bit 7 or bit 4 is clear, so the shifter
operand exists. -/
theorem shifterValuesCalculator_isSome {ins : Word} (hc : ¬ (getBit ins 7 = 1 ∧ getBit ins 4 = 1))
    (p : ArmCore) (FLAG_c : Byte) :
    ∃ sv, shifterValuesCalculator p ins FLAG_c = some sv := by
  rw [getBit_eq_one_iff, getBit_eq_one_iff] at hc
  unfold shifterValuesCalculator
  by_cases h4 : getBit ins 4 = 0
  · -- bits 6 to 4 are even: all four shift types are treated
    rw [if_pos h4]
    rw [getBit_eq_zero_iff] at h4
    have hb : (getBits ins 6 4).toNat = 0b000 ∨ (getBits ins 6 4).toNat = 0b010 ∨
        (getBits ins 6 4).toNat = 0b100 ∨ (getBits ins 6 4).toNat = 0b110 := by
      rw [toNat_getBits]
      omega
    rcases hb with hb | hb | hb | hb <;> simp only [immediateShift, hb] <;> split_ifs <;>
      exact ⟨_, rfl⟩
  · rw [if_neg h4]
    rw [getBit_eq_zero_iff] at h4
    have hb : (getBits ins 7 4).toNat = 0b0001 ∨ (getBits ins 7 4).toNat = 0b0011 ∨
        (getBits ins 7 4).toNat = 0b0101 ∨ (getBits ins 7 4).toNat = 0b0111 := by
      rw [toNat_getBits]
      omega
    rcases hb with hb | hb | hb | hb <;> simp only [registerShift, hb] <;> split_ifs <;>
      exact ⟨_, rfl⟩

theorem not_bits_7_4_of_dpShift {ins : Word} (hc : insClass ins = .dpShift) :
    ¬ (getBit ins 7 = 1 ∧ getBit ins 4 = 1) := by
  have hlt := getBits_27_25_lt ins
  unfold insClass at hc
  generalize (getBits ins 27 25).toNat = t at hc hlt
  interval_cases t
  · simp only at hc
    split_ifs at hc
    assumption
  all_goals cases hc

end Armator
