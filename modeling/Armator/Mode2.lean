/-
The transfers of addressing mode 2.

LDR, STR, LDRB and STRB take their offset from twelve bits of the word or
from a register, and that register may be shifted first.  Unshifted, they
do what they should (`mode2_transfers`): the address is computed from the
operands as they were, the error value -1 is no address inside the memory,
and what the base is written back to is not what is transferred.
-/
import Armator.Mode3

namespace Armator

/-! ## The operands -/

/-- A register as an instruction at `A` reads it: r15 is eight bytes ahead. -/
def operandAt (p : ArmCore) (A : Word) (n : Fin 16) : Word :=
  if n = 15 then A + 8 else armReadRegister p n

theorem FetchedAt.operand {h : Host} {p : ArmCore} {A ins : Word} (hf : FetchedAt h p A ins)
    (n : Fin 16) : armReadRegister (fetched p) n = operandAt p A n := by
  unfold operandAt
  by_cases hn : n = 15
  · rw [if_pos hn, hn, hf.readPc]
  · rw [if_neg hn, armReadRegister_fetched p hn]

/-- The offset of a word without a shift: twelve bits, or a register. -/
def plainOffset (p : ArmCore) (A ins : Word) : Word :=
  if getBit ins 25 = 0 then getBits ins 11 0 else operandAt p A (regNum (getBits ins 3 0))

/-- A treated word of mode 2 without a shift: an offset, pre-indexed, or
post-indexed with W clear. -/
structure IsMode2 (ins : Word) : Prop where
  form : getBits ins 27 25 = 0b010 ∨ getBits ins 27 25 = 0b011 ∧ getBits ins 11 4 = 0
  indexing : ¬ Untreated ins

/-- How many bytes the word moves. -/
def mode2Width (ins : Word) : Nat := if bitB ins = 0 then 4 else 1

/-- What a load finds in the memory for `Rd`. -/
def mode2Loaded (mem : Memory) (be : Byte) (ins address : Word) : Word :=
  if bitB ins = 0 then mem.wordAt be address else (mem.byteAt address).setWidth 32

/-- `mem'` is `mem` with a word, or its low byte, stored at an address. -/
structure Mode2Stored (be : Byte) (ins address value : Word) (mem mem' : Memory) : Prop where
  size : mem'.size = mem.size
  word : bitB ins = 0 → mem'.wordAt be address = value
  byte : bitB ins ≠ 0 → mem'.byteAt address = value.setWidth 8
  bytes : ∀ b, b ∉ bytesFrom address (mode2Width ins) → mem'.byteAt b = mem.byteAt b

/-- Between `p` and `p'` the word at `A` has done its transfer at the indexed
address, has moved its base by the offset where it is indexed, and has
changed nothing else of the registers and the memory. -/
structure Mode2Transfers (h : Host) (A ins offset : Word) (p p' : ArmCore) : Prop where
  load : bitL ins ≠ 0 → p'.mem = p.mem ∧ armReadRegister p' (rdNum ins)
    = mode2Loaded p.mem h.endianess ins (indexed ins (operandAt p A (bitsRn ins)) offset)
  store : bitL ins = 0 → Mode2Stored h.endianess ins
    (indexed ins (operandAt p A (bitsRn ins)) offset) (armReadRegister p (rdNum ins)) p.mem p'.mem
  base : bitP ins = bitW ins →
    armReadRegister p' (bitsRn ins) = offsetBase ins (operandAt p A (bitsRn ins)) offset
  pc : p'.reg 15 = A + 4
  registers : ∀ k : Fin 37, k ≠ 15 →
    (bitL ins ≠ 0 → k ≠ slot (rdNum ins) (registersGetMode p.reg)) →
    (bitP ins = bitW ins → k ≠ slot (bitsRn ins) (registersGetMode p.reg)) → p'.reg k = p.reg k

/-! ## What the code computes, in these terms -/

theorem IsMode2.insClass {ins : Word} (hi : IsMode2 ins) : insClass ins = .loadStore := by
  rcases hi.form with h25 | ⟨h25, -⟩
  · exact insClass_loadStore_immediate h25
  · exact insClass_loadStore_register h25

theorem IsMode2.bit_26 {ins : Word} (hi : IsMode2 ins) : getBit ins 26 ≠ 0 := by
  have h26 : getBit ins 26 = 1 := by
    rcases hi.form with h25 | ⟨h25, -⟩
    · exact getBit_of_field h25
    · exact getBit_of_field h25
  exact (getBit_ne_zero_iff ..).mpr h26

theorem IsMode2.mode2Offset_eq {ins : Word} (hi : IsMode2 ins) {h : Host} {p : ArmCore} {A w : Word}
    (hf : FetchedAt h p A w) : mode2Offset (fetched p) ins = plainOffset p A ins := by
  unfold mode2Offset plainOffset
  rcases hi.form with h25 | ⟨h25, h11⟩
  · have h25' : getBit ins 25 = 0 := getBit_of_field h25
    rw [if_pos h25', if_pos h25']
  · have h25' : getBit ins 25 = 1 := getBit_of_field h25
    have hne : ¬ getBit ins 25 = 0 := (getBit_ne_zero_iff ..).mpr h25'
    rw [if_neg hne, if_neg hne, if_pos h11, regNum_getBits_4_0, hf.operand]

section

variable {h : Host} {p : ArmCore} {ins address : Word}

theorem loadStoreMode2_load (hL : bitL ins ≠ 0) (hin : p.mem.InRange address (mode2Width ins))
    (Rd_num : Fin 16) :
    loadStoreMode2 h p ins address Rd_num
      = (0, armWriteRegister p Rd_num (mode2Loaded p.mem h.endianess ins address)) := by
  unfold loadStoreMode2 mode2Loaded
  unfold mode2Width at hin
  by_cases hB : bitB ins = 0
  · rw [if_pos hB] at hin
    simp only [if_pos hB, if_pos hL, armReadWord, memoryReadWord_eq _ _ _ _ hin]
  · rw [if_neg hB] at hin
    simp only [if_neg hB, if_pos hL, armReadByte,
      memoryReadByte_of_lt _ (hin.lt_zero Nat.one_pos)]

theorem low_byte (x : Word) : (getBits x 7 0).setWidth 8 = x.setWidth 8 := by
  refine BitVec.eq_of_getLsbD_eq ?_
  intro j hj
  rw [BitVec.getLsbD_setWidth, BitVec.getLsbD_setWidth, getLsbD_getBits, Nat.zero_add,
    decide_eq_true (show j < 7 - 0 + 1 from hj), Bool.true_and]

/-- A store writes the memory and nothing else. -/
theorem loadStoreMode2_store (hL : bitL ins = 0) (hin : p.mem.InRange address (mode2Width ins))
    (Rd_num : Fin 16) :
    ∃ mem', loadStoreMode2 h p ins address Rd_num = (0, { p with mem := mem' }) ∧
      Mode2Stored h.endianess ins address (armReadRegister p Rd_num) p.mem mem' := by
  have hL' : ¬ bitL ins ≠ 0 := not_not.mpr hL
  have hbytes := fun b => loadStoreMode2_byteAt h p ins address Rd_num (b := b)
  unfold loadStoreMode2 at hbytes ⊢
  by_cases hB : bitB ins = 0
  · have hin' : p.mem.InRange address 4 := by
      rwa [mode2Width, if_pos hB] at hin
    simp only [if_pos hB, if_neg hL'] at hbytes ⊢
    exact ⟨(memoryWriteWord h.isBigEndian p.mem address (armReadRegister p Rd_num) h.endianess).2,
      rfl, memoryWriteBytes_size (n := 4) .., fun _ => wordAt_memoryWriteWord _ _ _ hin',
      fun hB' => absurd hB hB', fun b hb => hbytes b (by rwa [mode2Width, if_pos hB] at hb)⟩
  · have hin' : address.toNat < p.mem.size.toNat := by
      rw [mode2Width, if_neg hB] at hin
      exact hin.lt_zero Nat.one_pos
    simp only [if_neg hB, if_neg hL', low_byte] at hbytes ⊢
    refine ⟨(memoryWriteByte p.mem address ((armReadRegister p Rd_num).setWidth 8)).2, rfl,
      memoryWriteByte_size .., fun hB' => absurd hB' hB, fun _ => ?_,
      fun b hb => hbytes b (by rwa [mode2Width, if_neg hB] at hb)⟩
    rw [memoryWriteByte_byteAt _ hin', Function.update_self]

end

/-! ## The instruction -/

/-- Only the base is written back, and only where the word is indexed. -/
theorem writtenBack_reg (p : ArmCore) {ins Rn offset : Word} {k : Fin 37}
    (hk : bitP ins = bitW ins → k ≠ slot (bitsRn ins) (registersGetMode p.reg)) :
    (writtenBack p ins Rn offset).reg k = p.reg k := by
  by_cases hb : bitP ins = bitW ins
  · exact writtenBack_reg_of_ne p ins Rn offset (hk hb)
  · rw [writtenBack, if_neg hb]

/-- Between `p` and `q` the word at `A` has been fetched, and its base moved
where it is indexed. -/
structure WroteBack (A ins offset : Word) (p q : ArmCore) : Prop where
  mem : q.mem = p.mem
  mode : registersGetMode q.reg = registersGetMode p.reg
  base : bitP ins = bitW ins →
    armReadRegister q (bitsRn ins) = offsetBase ins (operandAt p A (bitsRn ins)) offset
  pc : q.reg 15 = A + 4
  registers : ∀ k : Fin 37, k ≠ 15 →
    (bitP ins = bitW ins → k ≠ slot (bitsRn ins) (registersGetMode p.reg)) → q.reg k = p.reg k

theorem FetchedAt.wroteBack {h : Host} {p : ArmCore} {A w : Word} (hf : FetchedAt h p A w)
    {ins : Word} (hRn : bitP ins = bitW ins → bitsRn ins ≠ 15) (offset : Word) :
    WroteBack A ins offset p
      (writtenBack (fetched p) ins (operandAt p A (bitsRn ins)) offset) where
  mem := by rw [writtenBack_mem, fetched_mem]
  mode := by rw [writtenBack_mode, fetched_mode]
  base := by
    intro hb
    rw [writtenBack_of_eq _ _ _ hb, armReadRegister_write_self _ _ (hRn hb)]
  pc := by
    rw [writtenBack_reg (fetched p) fun hb => (slot_ne_pc (hRn hb) _).symm, fetched_reg,
      Function.update_self, hf.pc]
  registers := by
    intro k hk hkb
    rw [writtenBack_reg (fetched p) (by rwa [fetched_mode]), fetched_reg, Function.update_of_ne hk]

section

variable {h : Host} {p q : ArmCore} {A ins offset : Word} (hq : WroteBack A ins offset p q)
  (hRd : rdNum ins ≠ 15) (hback : bitP ins = bitW ins → bitsRn ins ≠ rdNum ins)

include hq hRd hback

/-- A load writes one register more, not the base. -/
theorem WroteBack.load (hL : bitL ins ≠ 0) :
    Mode2Transfers h A ins offset p (armWriteRegister q (rdNum ins)
      (mode2Loaded p.mem h.endianess ins (indexed ins (operandAt p A (bitsRn ins)) offset))) where
  load := fun _ => ⟨hq.mem, armReadRegister_write_self _ _ hRd⟩
  store := fun hL' => absurd hL' hL
  base := by
    intro hb
    rw [armReadRegister_write_of_ne _ _ (hback hb), hq.base hb]
  pc := by
    rw [armWriteRegister_reg, Function.update_of_ne (slot_ne_pc hRd _).symm, hq.pc]
  registers := by
    intro k hk hkd hkb
    rw [armWriteRegister_reg, hq.mode, Function.update_of_ne (hkd hL), hq.registers k hk hkb]

/-- A store finds its register as it was. -/
theorem WroteBack.store (hL : bitL ins = 0) {mem' : Memory}
    (hstored : Mode2Stored h.endianess ins (indexed ins (operandAt p A (bitsRn ins)) offset)
      (armReadRegister q (rdNum ins)) q.mem mem') :
    Mode2Transfers h A ins offset p { q with mem := mem' } where
  load := fun hL' => absurd hL hL'
  store := by
    have hvalue : armReadRegister q (rdNum ins) = armReadRegister p (rdNum ins) := by
      rw [armReadRegister_of_ne_pc hRd, armReadRegister_of_ne_pc hRd, hq.mode,
        hq.registers _ (slot_ne_pc hRd _) fun hb hs => hback hb (slot_inj.mp hs).symm]
    rw [hq.mem, hvalue] at hstored
    exact fun _ => hstored
  base := hq.base
  pc := hq.pc
  registers := fun k hk _ hkb => hq.registers k hk hkb

end

/-- A treated word of mode 2 does its transfer with the offset it has. -/
theorem armStep_mode2 {h : Host} {p : ArmCore} {A ins : Word} (hf : FetchedAt h p A ins)
    (hc : armCondition (fetched p) ins = true) (hclass : insClass ins = .loadStore)
    (h26 : getBit ins 26 ≠ 0) (hu : ¬ Untreated ins) (hRd : rdNum ins ≠ 15)
    (hback : bitP ins = bitW ins → bitsRn ins ≠ 15 ∧ bitsRn ins ≠ rdNum ins) {offset : Word}
    (hoffset : mode2Offset (fetched p) ins = offset)
    (hin : p.mem.InRange (indexed ins (operandAt p A (bitsRn ins)) offset) (mode2Width ins)) :
    ∃ p', armStep h p = .ok (0, p') ∧ Mode2Transfers h A ins offset p p' := by
  have hwidth : 0 < mode2Width ins := by
    unfold mode2Width
    split <;> decide
  have hq := hf.wroteBack (fun hb => (hback hb).1) offset
  have hback' := fun hb => (hback hb).2
  have hrun : armStep h p = raise h (.ok (loadStoreMode2 h
      (writtenBack (fetched p) ins (operandAt p A (bitsRn ins)) offset) ins
      (indexed ins (operandAt p A (bitsRn ins)) offset) (rdNum ins))) := by
    rw [armStep_of_fetchedAt hf hc, dispatch_eq, hclass, handler, armLoadStore_eq h _ hu,
      mode2Address, mode2State, hoffset, hf.operand, if_neg (hin.ne_neg_one hwidth), if_pos h26]
  generalize writtenBack (fetched p) ins (operandAt p A (bitsRn ins)) offset = q at hq hrun
  have hin' := hin.of_size (congrArg Memory.size hq.mem)
  by_cases hL : bitL ins = 0
  · obtain ⟨mem', hstore, hstored⟩ := loadStoreMode2_store (h := h) hL hin' (rdNum ins)
    exact ⟨_, by rw [hrun, hstore, raise_zero], hq.store hRd hback' hL hstored⟩
  · rw [loadStoreMode2_load hL hin', hq.mem, raise_zero] at hrun
    exact ⟨_, hrun, hq.load hRd hback' hL⟩

/-- LDR, STR, LDRB and STRB without a shift, of an access inside the memory:
the step returns 0 and does the transfer, the indexing, and nothing else. -/
theorem mode2_transfers (h : Host) (p : ArmCore) {A ins : Word} (hf : FetchedAt h p A ins)
    (hc : armCondition (fetched p) ins = true) (hi : IsMode2 ins) (hRd : rdNum ins ≠ 15)
    (hback : bitP ins = bitW ins → bitsRn ins ≠ 15 ∧ bitsRn ins ≠ rdNum ins)
    (hin : p.mem.InRange (indexed ins (operandAt p A (bitsRn ins)) (plainOffset p A ins))
      (mode2Width ins)) :
    ∃ p', armStep h p = .ok (0, p') ∧ Mode2Transfers h A ins (plainOffset p A ins) p p' :=
  armStep_mode2 hf hc hi.insClass hi.bit_26 hi.indexing hRd hback (hi.mode2Offset_eq hf) hin

/-- `LDRB r0, [r1], #-4`, with 8 in r1. -/
def loadingByte : ArmCore := armWriteRegister (booted 16 [0xE4510004]) 1 8

theorem mode2_transfers_loadingByte :
    ∃ p', armStep x86Host loadingByte = .ok (0, p') ∧
      Mode2Transfers x86Host 0 0xE4510004 (plainOffset loadingByte 0 0xE4510004) loadingByte p' :=
  mode2_transfers x86Host loadingByte
    ⟨by decide +kernel, by decide, by decide +kernel, by decide +kernel⟩ (by decide +kernel)
    ⟨Or.inl (by decide), by decide⟩ (by decide) (fun _ => ⟨by decide, by decide⟩)
    (by decide +kernel)

end Armator
