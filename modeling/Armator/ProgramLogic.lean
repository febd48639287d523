/-
A logic of programs for the simulated processor.

`Goes` is the step that goes on: it has reported nothing, and the program
counter is at none of the addresses where the run is to stop.  What a run
of such steps comes to is said with `Progress.Leads`; `Ends` adds the step
that stops it.

For each kind of instruction there is one rule.  It asks that the word is
in memory at the program counter (`Loaded`), and says where the program
counter is afterwards, what the destination holds, and by `Changes` that
nothing else has changed.
-/
import Armator.Branch
import Armator.Comparison
import Armator.Mode2
import Armator.Opcode
import Armator.SoftwareInterrupt
import Armator.Lib.Progress

namespace Armator

open Progress

/-! ## Runs -/

/-- A step of `p` goes on to `p'`. -/
def Goes (h : Host) (stop : Word → Prop) (p p' : ArmCore) : Prop :=
  armStep h p = .ok (0, p') ∧ ¬ stop (p'.reg 15)

/-- A step of `p` is the last, reports `r` and leaves `p'`. -/
def Stops (h : Host) (stop : Word → Prop) (p : ArmCore) (r : Int) (p' : ArmCore) : Prop :=
  armStep h p = .ok (r, p') ∧ (r ≠ 0 ∨ stop (p'.reg 15))

/-- From every state in `P` the run stops, and where it does `Q` holds. -/
def Ends (h : Host) (stop : Word → Prop) (P : ArmCore → Prop) (Q : Int → ArmCore → Prop) : Prop :=
  Leads (Goes h stop) P fun p => ∃ r p', Stops h stop p r p' ∧ Q r p'

/-! ## Programs in memory -/

/-- The address of the word `i` of a program at `A`. -/
def wordAddress (A : Word) (i : ℕ) : Word := A + BitVec.ofNat 32 (4 * i)

/-- The words of a program are in memory from `A` on. -/
structure Loaded (h : Host) (A : Word) (words : List Word) (mem : Memory) : Prop where
  aligned : A.toNat % 4 = 0
  word : ∀ i ins, words[i]? = some ins →
    mem.InRange (wordAddress A i) 4 ∧ mem.wordAt h.endianess (wordAddress A i) = ins

theorem Loaded.of_forall {h : Host} {A : Word} {words : List Word} {mem : Memory}
    (haligned : A.toNat % 4 = 0)
    (hall : ∀ i < words.length, mem.InRange (wordAddress A i) 4 ∧
      mem.wordAt h.endianess (wordAddress A i) = words.getD i 0) : Loaded h A words mem where
  aligned := haligned
  word := by
    intro i ins hi
    obtain ⟨hrange, hword⟩ := hall i (List.getElem?_eq_some_iff.mp hi).1
    refine ⟨hrange, hword.trans ?_⟩
    rw [List.getD_eq_getElem?_getD, hi, Option.getD_some]

/-- A word is loaded as long as its bytes are there. -/
theorem Loaded.of_bytes {h : Host} {A : Word} {words : List Word} {mem mem' : Memory}
    (hl : Loaded h A words mem) (hsize : mem'.size = mem.size)
    (hbytes : ∀ i < words.length, ∀ j < 4, mem'.byteAt (wordAddress A i + BitVec.ofNat 32 j)
      = mem.byteAt (wordAddress A i + BitVec.ofNat 32 j)) :
    Loaded h A words mem' where
  aligned := hl.aligned
  word := by
    intro i ins hi
    obtain ⟨hin, hword⟩ := hl.word i ins hi
    have hlt : i < words.length := (List.getElem?_eq_some_iff.mp hi).1
    have hsame : mem'.bytesAt (wordAddress A i) 4 = mem.bytesAt (wordAddress A i) 4 := by
      funext j
      exact hbytes i hlt j j.isLt
    refine ⟨hin.of_size hsize, ?_⟩
    rw [Memory.wordAt, hsame]
    exact hword

theorem Loaded.fetchedAt {h : Host} {A : Word} {words : List Word} {p : ArmCore}
    (hl : Loaded h A words p.mem) {i : ℕ} {ins : Word} (hi : words[i]? = some ins)
    (hpc : p.reg 15 = wordAddress A i) : FetchedAt h p (wordAddress A i) ins where
  pc := hpc
  aligned := aligned_add hl.aligned (Nat.mul_mod_right 4 i)
  inRange := (hl.word i ins hi).1
  word := (hl.word i ins hi).2

theorem wordAddress_succ (A : Word) (i : ℕ) : wordAddress A (i + 1) = wordAddress A i + 4 := by
  rw [wordAddress, wordAddress, Nat.mul_succ, BitVec.ofNat_add, BitVec.add_assoc]
  rfl

/-! ## What stays -/

/-- Between `p` and `p'` only the registers in the list, the program
counter and the four flags may have changed. -/
structure Changes (ns : List (Fin 16)) (p p' : ArmCore) : Prop where
  registers : ∀ k : Fin 37, k ≠ 15 → k ≠ 31 →
    (∀ n ∈ ns, k ≠ slot n (registersGetMode p.reg)) → p'.reg k = p.reg k
  control : ∀ j < 28, (armReadCpsr p').getLsbD j = (armReadCpsr p).getLsbD j
  mem : p'.mem = p.mem
  stdout : p'.stdout = p.stdout

namespace Changes

variable {ns ns' : List (Fin 16)} {p p' p'' : ArmCore}

theorem refl (p : ArmCore) : Changes ns p p where
  registers := fun _ _ _ _ => rfl
  control := fun _ _ => rfl
  mem := rfl
  stdout := rfl

theorem mode (hc : Changes ns p p') : registersGetMode p'.reg = registersGetMode p.reg :=
  registersGetMode_congr fun j hj => hc.control j (Nat.lt_trans hj (by decide))

theorem trans (hc : Changes ns p p') (hc' : Changes ns p' p'') : Changes ns p p'' where
  registers := by
    intro k h15 h31 hk
    rw [hc'.registers k h15 h31 (by rwa [hc.mode]), hc.registers k h15 h31 hk]
  control := fun j hj => (hc'.control j hj).trans (hc.control j hj)
  mem := hc'.mem.trans hc.mem
  stdout := hc'.stdout.trans hc.stdout

theorem mono (hc : Changes ns p p') (hsub : ns ⊆ ns') : Changes ns' p p' where
  registers := fun k h15 h31 hk => hc.registers k h15 h31 fun n hn => hk n (hsub hn)
  control := hc.control
  mem := hc.mem
  stdout := hc.stdout

/-- The same with another memory. -/
theorem withMem (hc : Changes ns p p') (mem : Memory) :
    Changes ns (p.withMem mem) (p'.withMem mem) where
  registers := hc.registers
  control := hc.control
  mem := rfl
  stdout := hc.stdout

/-- A register that is not in the list reads as before. -/
theorem read (hc : Changes ns p p') {n : Fin 16} (h15 : n ≠ 15) (hn : n ∉ ns) :
    armReadRegister p' n = armReadRegister p n := by
  rw [armReadRegister_of_ne_pc h15, armReadRegister_of_ne_pc h15, hc.mode]
  refine hc.registers _ (slot_ne_pc h15 _) (slot_ne_cpsr n _) fun m hm hslot => hn ?_
  rwa [slot_inj.mp hslot]

theorem loaded {h : Host} {A : Word} {words : List Word} (hc : Changes ns p p')
    (hl : Loaded h A words p.mem) : Loaded h A words p'.mem := by
  rwa [hc.mem]

theorem fetched (p : ArmCore) : Changes ns p (fetched p) where
  registers := by
    intro k h15 _ _
    rw [fetched_reg, Function.update_of_ne h15]
  control := by
    intro j _
    rw [fetched_cpsr]
  mem := rfl
  stdout := rfl

theorem write (p : ArmCore) {n : Fin 16} (hn : n ∈ ns) (value : Word) :
    Changes ns p (armWriteRegister p n value) where
  registers := by
    intro k _ _ hk
    rw [armWriteRegister_reg, Function.update_of_ne (hk n hn)]
  control := by
    intro j _
    rw [armReadCpsr_write]
  mem := rfl
  stdout := rfl

theorem writePc (p : ArmCore) (value : Word) : Changes ns p (armWriteRegister p 15 value) where
  registers := by
    intro k h15 _ _
    rw [armWriteRegister_reg, slot_pc, Function.update_of_ne h15]
  control := by
    intro j _
    rw [armReadCpsr_write]
  mem := rfl
  stdout := rfl

end Changes

/-! ## One rule for each kind of instruction -/

section

variable {h : Host} {stop : Word → Prop} {p : ArmCore} {A ins : Word}

/-- A word whose condition fails is skipped. -/
theorem skip_rule (hf : FetchedAt h p A ins) (hc : armCondition (fetched p) ins = false)
    (hgo : ¬ stop (A + 4)) :
    ∃ p', Goes h stop p p' ∧ p'.reg 15 = A + 4 ∧ armReadCpsr p' = armReadCpsr p ∧
      (∀ n, n ≠ 15 → armReadRegister p' n = armReadRegister p n) ∧ Changes [] p p' := by
  have hpc : (fetched p).reg 15 = A + 4 := by
    rw [fetched_reg, Function.update_self, hf.pc]
  refine ⟨fetched p, ⟨?_, by rwa [hpc]⟩, hpc, fetched_cpsr p, fun n hn => ?_, .fetched p⟩
  · rw [armStep_eq, hf.fetchRead, if_neg (not_not.mpr rfl), hc, if_neg Bool.false_ne_true,
      raise_zero]
  · exact armReadRegister_fetched p hn

theorem changes_opState {op : Opcode} (sv : ShifterValues)
    (hRd : op.compares = false → rdNum ins ≠ 15) :
    Changes [rdNum ins] p (opState op p ins sv) where
  registers := by
    intro k _ h31 hk
    exact (aluStep_opState sv hRd).registers k h31 fun _ => hk _ List.mem_cons_self
  control := (aluStep_opState sv hRd).control
  mem := (aluStep_opState sv hRd).mem
  stdout := by
    unfold opState opWritten
    split_ifs <;> rfl

/-- A data-processing word that does not write the program counter leaves
its value in `Rd`, unless it compares, and the flags of its operands where
it sets them. -/
theorem dataProcessing_rule (hf : FetchedAt h p A ins)
    (hc : armCondition (fetched p) ins = true) {op : Opcode} (hop : IsDataProcessing op ins)
    (hRd : op.compares = false → rdNum ins ≠ 15) {sv : ShifterValues}
    (hsv : shifterValues h (fetched p) ins = some sv)
    (hgo : ¬ stop (A + 4)) :
    ∃ p', Goes h stop p p' ∧ p'.reg 15 = A + 4 ∧
      (op.compares = false → armReadRegister p' (rdNum ins) = opValue op (fetched p) ins sv) ∧
      (op.compares = true ∨ getBit ins 20 = 1 → armReadCpsr p' = opFlags op (fetched p) ins sv) ∧
      (op.compares = false → getBit ins 20 = 0 → armReadCpsr p' = armReadCpsr p) ∧
      Changes [rdNum ins] p p' := by
  have hpc : (opState op (fetched p) ins sv).reg 15 = A + 4 := by
    rw [opState_reg_of_ne sv (by decide) fun hw => Ne.symm (slot_ne_pc (hRd hw) _), fetched_reg,
      Function.update_self, hf.pc]
  obtain ⟨sv', hsv', hd⟩ := hop.dispatch (fetched p) h hRd
  obtain rfl := Option.some.inj (hsv.symm.trans hsv')
  refine ⟨opState op (fetched p) ins sv, ⟨?_, by rwa [hpc]⟩, hpc, fun hw => ?_, fun hs => ?_,
    fun hw hs => ?_, (Changes.fetched p).trans (changes_opState sv hRd)⟩
  · rw [armStep_of_fetchedAt hf hc, hd, raise_zero]
  · rw [armReadRegister_opState, armReadRegister_opWritten sv hw (hRd hw)]
  · exact armReadCpsr_opState _ sv hs
  · rw [armReadCpsr_opState_of_clear sv hw hs, fetched_cpsr]

/-- What is left of the step of a word of mode 2 that moves no base. -/
theorem armStep_transfer (hf : FetchedAt h p A ins) (hc : armCondition (fetched p) ins = true)
    (hi : IsMode2 ins) (hindex : bitP ins ≠ bitW ins) {address : Word}
    (haddress : indexed ins (operandAt p A (bitsRn ins)) (plainOffset p A ins) = address)
    (hin : p.mem.InRange address (mode2Width ins)) :
    armStep h p = raise h (.ok (loadStoreMode2 h (fetched p) ins address (rdNum ins))) := by
  have hwidth : 0 < mode2Width ins := by
    unfold mode2Width
    split <;> decide
  rw [armStep_of_fetchedAt hf hc, dispatch_eq, hi.insClass, handler,
    armLoadStore_eq h _ hi.indexing, mode2Address, mode2State, hi.mode2Offset_eq hf, hf.operand,
    haddress, if_neg (hin.ne_neg_one hwidth), if_pos hi.bit_26, writtenBack, if_neg hindex]

/-- A load leaves in `Rd` what is at the address. -/
theorem load_rule (hf : FetchedAt h p A ins) (hc : armCondition (fetched p) ins = true)
    (hi : IsMode2 ins) (hindex : bitP ins ≠ bitW ins) (hL : bitL ins ≠ 0) (hRd : rdNum ins ≠ 15)
    {address : Word}
    (haddress : indexed ins (operandAt p A (bitsRn ins)) (plainOffset p A ins) = address)
    (hin : p.mem.InRange address (mode2Width ins)) (hgo : ¬ stop (A + 4)) :
    ∃ p', Goes h stop p p' ∧ p'.reg 15 = A + 4 ∧
      armReadRegister p' (rdNum ins) = mode2Loaded p.mem h.endianess ins address ∧
      armReadCpsr p' = armReadCpsr p ∧ Changes [rdNum ins] p p' := by
  have hstep := armStep_transfer hf hc hi hindex haddress hin
  rw [loadStoreMode2_load (p := fetched p) hL hin, raise_zero] at hstep
  have hpc : (armWriteRegister (fetched p) (rdNum ins)
      (mode2Loaded p.mem h.endianess ins address)).reg 15 = A + 4 := by
    rw [armWriteRegister_reg, Function.update_of_ne (slot_ne_pc hRd _).symm, fetched_reg,
      Function.update_self, hf.pc]
  refine ⟨_, ⟨hstep, by rw [fetched_mem, hpc]; exact hgo⟩, by rw [fetched_mem, hpc], ?_, ?_,
    (Changes.fetched p).trans (.write _ List.mem_cons_self _)⟩
  · exact armReadRegister_write_self _ _ hRd
  · rw [armReadCpsr_write, fetched_cpsr]

/-- A store puts the value of `Rd` at the address, and leaves the registers. -/
theorem store_rule (hf : FetchedAt h p A ins) (hc : armCondition (fetched p) ins = true)
    (hi : IsMode2 ins) (hindex : bitP ins ≠ bitW ins) (hL : bitL ins = 0) (hRd : rdNum ins ≠ 15)
    {address : Word}
    (haddress : indexed ins (operandAt p A (bitsRn ins)) (plainOffset p A ins) = address)
    (hin : p.mem.InRange address (mode2Width ins)) (hgo : ¬ stop (A + 4)) :
    ∃ p' mem', Goes h stop p p' ∧ p'.reg 15 = A + 4 ∧
      Mode2Stored h.endianess ins address (armReadRegister p (rdNum ins)) p.mem mem' ∧
      armReadCpsr p' = armReadCpsr p ∧ Changes [] (p.withMem mem') p' := by
  have hstep := armStep_transfer hf hc hi hindex haddress hin
  obtain ⟨mem', hstore, hstored⟩ :=
    loadStoreMode2_store (p := fetched p) (h := h) hL hin (rdNum ins)
  rw [hstore, raise_zero] at hstep
  rw [armReadRegister_fetched p hRd] at hstored
  have hpc : ((fetched p).withMem mem').reg 15 = A + 4 := by
    show (fetched p).reg 15 = A + 4
    rw [fetched_reg, Function.update_self, hf.pc]
  exact ⟨(fetched p).withMem mem', mem', ⟨hstep, by rwa [hpc]⟩, hpc, hstored, fetched_cpsr p,
    .fetched (p.withMem mem')⟩

/-- A branch goes to its target; BL leaves the address of the next word in
r14. -/
theorem branch_rule (hf : FetchedAt h p A ins) (hc : armCondition (fetched p) ins = true)
    (hb : getBits ins 27 25 = 0b101) (hgo : ¬ stop (branchTarget A ins)) :
    ∃ p', Goes h stop p p' ∧ p'.reg 15 = branchTarget A ins ∧ armReadCpsr p' = armReadCpsr p ∧
      (getBit ins 24 = 1 → armReadRegister p' 14 = A + 4) ∧
      Changes (if getBit ins 24 = 1 then [14] else []) p p' := by
  have hpc : (branchState (fetched p) A ins).reg 15 = branchTarget A ins := by
    rw [branchState_reg, Function.update_self]
  refine ⟨branchState (fetched p) A ins, ⟨?_, by rwa [hpc]⟩, hpc, ?_,
    branchState_link (fetched p) A, ?_⟩
  · rw [armStep_of_fetchedAt hf hc, dispatch_eq, insClass_branch hb, handler,
      armBranch_eq hf.readPc, raise_zero]
  · rw [branchState, armReadCpsr_write]
    split
    · rw [armReadCpsr_write, fetched_cpsr]
    · rw [fetched_cpsr]
  · unfold branchState
    split
    · exact ((Changes.fetched p).trans (.write _ List.mem_cons_self _)).trans (.writePc _ _)
    · exact (Changes.fetched p).trans (.writePc _ _)

/-- `mov pc, lr` goes where r14 says. -/
theorem return_rule (hf : FetchedAt h p A movPcLr) (hgo : ¬ stop (armReadRegister p 14)) :
    ∃ p', Goes h stop p p' ∧ p'.reg 15 = armReadRegister p 14 ∧
      armReadCpsr p' = armReadCpsr p ∧ Changes [] p p' := by
  have hpc : (armWriteRegister (fetched p) 15 (armReadRegister p 14)).reg 15
      = armReadRegister p 14 := armWriteRegister_pc ..
  refine ⟨_, ⟨armStep_movPcLr hf, by rwa [hpc]⟩, hpc, ?_,
    (Changes.fetched p).trans (.writePc _ _)⟩
  rw [armReadCpsr_write, fetched_cpsr]

/-- `swi 0x123456` ends the run, and leaves the address of the next word in
r14. -/
theorem end_rule (hf : FetchedAt h p A ins) (hc : armCondition (fetched p) ins = true)
    (hi : IsEndSimulation ins) :
    ∃ p', Stops h stop p END_SIMULATION p' ∧ p'.reg 15 = A + 4 ∧
      armReadRegister p' 14 = A + 4 ∧ Changes [14] p p' := by
  have hclass : insClass ins = .othersSwi := (insClass_othersSwi_iff ins).mpr (.inr hi.swi)
  refine ⟨swiState p A, ⟨?_, .inl (by decide)⟩, ?_, ?_, ?_⟩
  · rw [armStep_othersSwi hf hc hclass, armException_swiState hf, hi.number, if_pos rfl]
  · rw [swiState, armWriteRegister_reg,
      Function.update_of_ne (Ne.symm (slot_ne_pc (by decide) _)), fetched_reg,
      Function.update_self, hf.pc]
  · exact armReadRegister_write_self (fetched p) (A + 4) (by decide)
  · exact (Changes.fetched p).trans (.write _ List.mem_cons_self _)

end

end Armator
