/-
Two corners of the block transfers.

A store-multiple with writeback whose lowest register is the base should
store the base as it was: the code has moved the base by then, and stores
the new one (`stm_stores_new_base`).  A load-multiple of r15 should change
the T bit alone: where it sets the bit, the code writes the SPSR over the
CPSR and sets it there (`ldm_pc_iff`).
-/
import Armator.Effects
import Armator.SingleTransfers

namespace Armator

/-! ## The base as the lowest register of a store -/

/-- A stored word is the value that was written, whatever comes after it. -/
theorem wordAt_storeWords_cons (h : Host) {mem : Memory} {a v : Word} {vs : List Word}
    (hr : mem.InRange a (4 * (v :: vs).length)) :
    (storeWords h mem a (v :: vs)).wordAt h.endianess a = v := by
  rw [List.length_cons] at hr
  obtain ⟨hhead, htail, hnext⟩ := hr.word_cons
  have hsize : (memoryWriteWord h.isBigEndian mem a v h.endianess).2.size = mem.size :=
    memoryWriteBytes_size (n := 4) ..
  rw [storeWords, Memory.wordAt_congr h.endianess (hhead.of_size hsize),
    wordAt_memoryWriteWord _ _ _ hhead]
  intro b hlo hhi
  by_cases hn : vs.length = 0
  · rw [List.eq_nil_of_length_eq_zero hn]
    rfl
  · have hlt := hnext hn
    exact storeWords_byteAt_of_outside h (htail.of_size hsize) (by omega)

/-- Between `p` and `p'` a store-multiple has stored its base as it was at
the lowest address, and moved it over the list. -/
structure StoresOldBase (h : Host) (ins : Word) (p p' : ArmCore) : Prop where
  lowest : p'.mem.wordAt h.endianess
    (blockStart ins (armReadRegister p (bitsRn ins)) (registerList ins).length)
      = armReadRegister p (bitsRn ins)
  base : armReadRegister p' (bitsRn ins) = offsetBase ins (armReadRegister p (bitsRn ins))
    (BitVec.ofNat 32 (4 * (registerList ins).length))

/-- The base ends where it should, and so does the word at the lowest
address: what is stored there is never the base as it was. -/
theorem stm_stores_new_base (h : Host) (p : ArmCore) {ins : Word} (hB : bitB ins = 0)
    (hL : bitL ins = 0) (hW : bitW ins = 1) (hRn : bitsRn ins ≠ 15)
    (hlow : (registerList ins).head? = some (bitsRn ins))
    (hin : p.mem.InRange (blockStart ins (armReadRegister p (bitsRn ins)) (registerList ins).length)
      (4 * (registerList ins).length)) :
    ∃ p', armLoadStoreMultiple h p ins = .ok (0, p') ∧
      armReadRegister p' (bitsRn ins) = offsetBase ins (armReadRegister p (bitsRn ins))
        (BitVec.ofNat 32 (4 * (registerList ins).length)) ∧
      p'.mem.wordAt h.endianess
          (blockStart ins (armReadRegister p (bitsRn ins)) (registerList ins).length)
        = armReadRegister p' (bitsRn ins) ∧
      ¬ StoresOldBase h ins p p' := by
  have hW0 : bitW ins ≠ 0 := (getBit_ne_zero_iff ..).mpr hW
  obtain ⟨l, hl⟩ := List.head?_eq_some_iff.mp hlow
  have hpos : 0 < (registerList ins).length := by
    rw [hl, List.length_cons]
    exact Nat.succ_pos _
  generalize hbase : armReadRegister p (bitsRn ins) = base at hin ⊢
  generalize hmoved : offsetBase ins base (BitVec.ofNat 32 (4 * (registerList ins).length)) = moved
  have hread : armReadRegister (armWriteRegister p (bitsRn ins) moved) (bitsRn ins) = moved :=
    armReadRegister_write_self _ _ hRn
  have hstm := armLoadStoreMultiple_store h p hL hB
  rw [addrLsMultiple_start, addrLsMultiple_base, hbase, baseMoved, if_pos hW0, hmoved] at hstm
  have hstored : (storeWords h p.mem (blockStart ins base (registerList ins).length)
      ((registerList ins).map (armReadRegister (armWriteRegister p (bitsRn ins) moved)))).wordAt
        h.endianess (blockStart ins base (registerList ins).length) = moved := by
    have hvalues : (registerList ins).map (armReadRegister (armWriteRegister p (bitsRn ins) moved))
        = moved :: l.map (armReadRegister (armWriteRegister p (bitsRn ins) moved)) := by
      rw [hl, List.map_cons, hread]
    rw [hvalues]
    refine wordAt_storeWords_cons h ?_
    rwa [← hvalues, List.length_map]
  refine ⟨_, hstm, hread, hstored.trans hread.symm, ?_⟩
  rintro ⟨hlowest, -⟩
  rw [hbase] at hlowest
  have hsame : moved = base := hstored.symm.trans hlowest
  rw [← hmoved, offsetBase_eq_self_iff, ← BitVec.toNat_inj, BitVec.toNat_ofNat] at hsame
  have hle := registerList_length_le ins
  have hzero : (0 : Word).toNat = 0 := rfl
  omega

/-- `STMIA r1!, {r1, r2}`, with 8 in r1. -/
def storingBase : ArmCore := armWriteRegister (booted 32 []) 1 8

theorem stm_stores_new_base_storingBase :
    ∃ p', armLoadStoreMultiple x86Host storingBase 0xE8A10006 = .ok (0, p') ∧
      armReadRegister p' (bitsRn 0xE8A10006) = offsetBase 0xE8A10006
        (armReadRegister storingBase (bitsRn 0xE8A10006))
        (BitVec.ofNat 32 (4 * (registerList 0xE8A10006).length)) ∧
      p'.mem.wordAt x86Host.endianess (blockStart 0xE8A10006
          (armReadRegister storingBase (bitsRn 0xE8A10006)) (registerList 0xE8A10006).length)
        = armReadRegister p' (bitsRn 0xE8A10006) ∧
      ¬ StoresOldBase x86Host 0xE8A10006 storingBase p' :=
  stm_stores_new_base x86Host storingBase (by decide) (by decide) (by decide) (by decide)
    (by decide) (by decide +kernel)

/-- It stores 16 at 8. -/
theorem stm_base_astray :
    (registerList 0xE8A10006).head? = some (bitsRn 0xE8A10006) ∧
    armReadRegister storingBase (bitsRn 0xE8A10006) = 8 ∧
    ∃ p', armLoadStoreMultiple x86Host storingBase 0xE8A10006 = .ok (0, p') ∧
      p'.mem.wordAt x86Host.endianess 8 = 16 ∧
      ¬ StoresOldBase x86Host 0xE8A10006 storingBase p' := by
  refine ⟨by decide, by decide +kernel, _, rfl, by decide +kernel, ?_⟩
  intro hstores
  exact absurd hstores.lowest (by decide +kernel)

/-! ## r15 in the list of a load -/

/-- The word r15 is loaded with: the highest. -/
def highestWord (h : Host) (p : ArmCore) (ins : Word) : Word :=
  p.mem.wordAt h.endianess
    (blockStart ins (armReadRegister p (bitsRn ins)) (registerList ins).length
      + BitVec.ofNat 32 (4 * ((registerList ins).length - 1)))

/-- Between `p` and `p'` r15 has been loaded with a word, its bit 0 cleared,
and that bit is T in the CPSR, which has changed in nothing else. -/
structure LoadsPc (word : Word) (p p' : ArmCore) : Prop where
  pc : p'.reg 15 = clrBit word 0
  cpsr : ∀ i < 32, (armReadCpsr p').getLsbD i
    = if i = 5 then word.getLsbD 0 else (armReadCpsr p).getLsbD i

/-- Inside the memory the last word is read. -/
theorem pcWord_eq (h : Host) (p : ArmCore) {ins : Word} (h15 : getBit ins 15 = 1)
    (hin : p.mem.InRange (blockStart ins (armReadRegister p (bitsRn ins)) (registerList ins).length)
      (4 * (registerList ins).length)) : pcWord h p ins = highestWord h p ins := by
  have hmem : (15 : Fin 16) ∈ registerList ins := mem_registerList.mpr h15
  obtain ⟨m, hm⟩ := Nat.exists_eq_add_one.mpr (List.length_pos_of_mem hmem)
  rw [pcWord, highestWord, addrLsMultiple_start, numberOfSetBitsIn_eq]
  rw [hm] at hin ⊢
  have hlast : p.mem.InRange (blockStart ins (armReadRegister p (bitsRn ins)) (m + 1)
      + BitVec.ofNat 32 (4 * m)) 4 := by
    have hnat := hin.toNat_add (show 4 * m < 4 * (m + 1) by omega)
    unfold Memory.InRange at hin ⊢
    omega
  rw [readThrough, armReadWord, memoryReadWord_eq _ _ _ _ hlast, Nat.add_sub_cancel]

theorem ldmState_pc (h : Host) (p : ArmCore) {ins : Word} (h15 : getBit ins 15 = 1) :
    (ldmState h p ins).reg 15 = clrBit (pcWord h p ins) 0 := by
  have hwritten : ∀ (q : ArmCore) (value cpsr : Word),
      (armWriteCpsr (armWriteRegister q 15 value) cpsr).reg 15 = value := by
    intro q value cpsr
    show Function.update (armWriteRegister q 15 value).reg 31 cpsr 15 = value
    rw [Function.update_of_ne (by decide), armWriteRegister_pc]
  unfold ldmState
  simp only [if_pos h15]
  split
  · rw [hwritten]
    rfl
  · rw [hwritten]
    rfl

theorem armReadCpsr_ldmState_even (h : Host) (p : ArmCore) {ins : Word} (h15 : getBit ins 15 = 1)
    (ht : getBit (pcWord h p ins) 0 = 0) :
    armReadCpsr (ldmState h p ins) = clrBit (armReadCpsr p) 5 := by
  have hpc := (ldmRegisters_regWrites h p ins).trans
    (.write _ 15 (pcWord h p ins &&& 0xFFFFFFFE))
  unfold ldmState
  simp only [if_pos h15, if_pos ht, armReadCpsr_writeCpsr]
  rw [hpc.readCpsr]

/-- A load-multiple of r15 loads it, with T and nothing else of the CPSR,
exactly when it clears T or the SPSR that is read in the current mode has
the other bits of the CPSR already. -/
theorem ldm_pc_iff (h : Host) (p : ArmCore) {ins : Word} (hB : bitB ins = 0) (hL : bitL ins = 1)
    (h15 : getBit ins 15 = 1)
    (hin : p.mem.InRange (blockStart ins (armReadRegister p (bitsRn ins)) (registerList ins).length)
      (4 * (registerList ins).length)) :
    ∃ p', armLoadStoreMultiple h p ins = .ok (0, p') ∧
      (LoadsPc (highestWord h p ins) p p' ↔
        getBit (highestWord h p ins) 0 = 0 ∨
          ∀ i < 32, i ≠ 5 → (armReadSpsr p).getLsbD i = (armReadCpsr p).getLsbD i) := by
  have hL0 : bitL ins ≠ 0 := (getBit_ne_zero_iff ..).mpr hL
  have hword := pcWord_eq h p h15 hin
  have hpc := ldmState_pc h p h15
  refine ⟨_, armLoadStoreMultiple_load h p hL0 hB, ?_⟩
  by_cases ht : getBit (highestWord h p ins) 0 = 0
  · have hcpsr := armReadCpsr_ldmState_even h p h15 (by rwa [hword])
    refine iff_of_true ⟨by rw [hpc, hword], ?_⟩ (Or.inl ht)
    intro i _
    rw [getBit_eq_zero_iff_getLsbD] at ht
    rw [hcpsr, getLsbD_clrBit_ite _ 5, ht]
  · have hcpsr := armReadCpsr_ldmState_odd h p ins h15 (by rwa [hword])
    rw [or_iff_right ht]
    rw [← Ne, getBit_ne_zero_iff, getBit_eq_one_iff_getLsbD] at ht
    constructor
    · intro hloads i hi h5
      have hbit := hloads.cpsr i hi
      rwa [hcpsr, getLsbD_setBit_ite _ 5, if_neg h5, if_neg h5] at hbit
    · intro hsame
      refine ⟨by rw [hpc, hword], ?_⟩
      intro i hi
      rw [hcpsr, getLsbD_setBit_ite _ 5, ht]
      split
      · rfl
      · exact hsame i hi ‹_›

/-- `LDMIA r1, {r15}`, with 8 in r1, and an odd word there. -/
def loadingPc : ArmCore := armWriteRegister (booted 16 [0, 0, 0x101]) 1 8

theorem ldm_pc_iff_loadingPc :
    ∃ p', armLoadStoreMultiple x86Host loadingPc 0xE8918000 = .ok (0, p') ∧
      (LoadsPc (highestWord x86Host loadingPc 0xE8918000) loadingPc p' ↔
        getBit (highestWord x86Host loadingPc 0xE8918000) 0 = 0 ∨
          ∀ i < 32, i ≠ 5 →
            (armReadSpsr loadingPc).getLsbD i = (armReadCpsr loadingPc).getLsbD i) :=
  ldm_pc_iff x86Host loadingPc (by decide) (by decide) (by decide) (by decide +kernel)

/-- The SPSR is 0: the processor leaves its mode, with T set. -/
theorem ldm_pc_astray :
    armReadCpsr loadingPc = 0x1d3 ∧ highestWord x86Host loadingPc 0xE8918000 = 0x101 ∧
    ∃ p', armLoadStoreMultiple x86Host loadingPc 0xE8918000 = .ok (0, p') ∧
      armReadCpsr p' = 0x20 ∧
      ¬ LoadsPc (highestWord x86Host loadingPc 0xE8918000) loadingPc p' := by
  refine ⟨by decide +kernel, by decide +kernel, _, rfl, by decide +kernel, ?_⟩
  intro hloads
  exact absurd (hloads.cpsr 0 (by decide)) (by decide +kernel)

end Armator
