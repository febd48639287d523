/-
The single transfers, stage by stage.

`arm_load_store` computes an address twice: always as for a word transfer
(addressing mode 2), and for the other widths once more (mode 3), from the
state the first computation has left.  Each computation writes the base
back when P and W are equal, and is not treated when P is clear and W set:
after both the base has moved twice (`baseTwice`).  `armLoadStore_eq` puts
the two stages together; from it follow the cases in which the instruction
is refused, and what it has written by then.
-/
import Armator.Effects

namespace Armator

/-! ## The two addressing modes -/

/-- P clear and W set: no addressing mode of the code treats it. -/
def Untreated (ins : Word) : Prop := bitP ins = 0 ∧ bitW ins ≠ 0

instance (ins : Word) : Decidable (Untreated ins) := inferInstanceAs (Decidable (_ ∧ _))

/-- The address an indexing gives. -/
def indexed (ins Rn offset : Word) : Word :=
  if bitP ins ≠ 0 then offsetBase ins Rn offset else Rn

/-- The state an indexing leaves. -/
def writtenBack (p : ArmCore) (ins Rn offset : Word) : ArmCore :=
  if bitP ins = bitW ins then armWriteRegister p (bitsRn ins) (offsetBase ins Rn offset) else p

theorem bitP_eq_bitW_iff (ins : Word) :
    bitP ins = bitW ins ↔ (bitP ins ≠ 0 ∧ bitW ins ≠ 0 ∨ bitP ins = 0 ∧ bitW ins = 0) := by
  unfold bitP bitW
  rw [← BitVec.toNat_inj, Ne, Ne, getBit_eq_zero_iff, getBit_eq_zero_iff, toNat_getBit,
    toNat_getBit]
  omega

theorem indexAddress_eq (p : ArmCore) (ins Rn offset : Word) :
    indexAddress p ins Rn offset
      = if Untreated ins then none
        else some (indexed ins Rn offset, writtenBack p ins Rn offset) := by
  unfold indexAddress indexed writtenBack Untreated
  simp only [bitP_eq_bitW_iff]
  by_cases hP : bitP ins = 0 <;> by_cases hW : bitW ins = 0 <;>
    simp only [hP, hW, ne_eq, not_true, not_false_iff, and_self, and_true, and_false, or_true,
      or_false, if_true, if_false]

theorem indexAddress_getD (p : ArmCore) {ins : Word} (hu : ¬ Untreated ins)
    (Rn offset : Word) (o : Word × ArmCore) :
    (indexAddress p ins Rn offset).getD o
      = (indexed ins Rn offset, writtenBack p ins Rn offset) := by
  rw [indexAddress_eq, if_neg hu]
  rfl

/-- The offset of `calculate_address`. -/
def mode2Offset (p : ArmCore) (ins : Word) : Word :=
  if getBit ins 25 = 0 then getBits ins 11 0
  else if getBits ins 11 4 = 0 then armReadRegister p (regNum (getBits ins 4 0))
  else shiftIndexCalculator (armReadRegister p (regNum (getBits ins 3 0)))
    (getBits ins 11 7).toNat (getBits ins 6 5).toNat (flagC p)

/-- A register number is four bits, also of a field of five. -/
theorem regNum_getBits_4_0 (ins : Word) : regNum (getBits ins 4 0) = regNum (getBits ins 3 0) := by
  refine Fin.ext (show (getBits ins 4 0).toNat % 16 = (getBits ins 3 0).toNat % 16 from ?_)
  rw [toNat_getBits, toNat_getBits]
  omega

/-- The offset of `calculate_address_mode3`. -/
def mode3Offset (p : ArmCore) (ins : Word) : Word :=
  if getBit ins 22 ≠ 0 then
    ((((getBits ins 11 8).setWidth 8 : Byte) <<< 4) ||| (getBits ins 3 0).setWidth 8).setWidth 32
  else armReadRegister p (regNum (getBits ins 3 0))

theorem calculateAddress_index (p : ArmCore) (ins : Word) :
    calculateAddress p ins
      = (indexAddress p ins (armReadRegister p (bitsRn ins)) (mode2Offset p ins)).getD (-1, p) := by
  unfold calculateAddress mode2Offset flagC
  by_cases h25 : getBit ins 25 = 0
  · simp only [if_pos h25]
  · by_cases h11 : getBits ins 11 4 = 0
    · simp only [h25, h11, ne_eq, not_false_iff, and_self, if_true, if_false]
    · simp only [h25, h11, ne_eq, not_false_iff, and_true, and_false, if_false, if_true]

/-- The address `calculate_address` returns where it treats the word. -/
def mode2Address (p : ArmCore) (ins : Word) : Word :=
  indexed ins (armReadRegister p (bitsRn ins)) (mode2Offset p ins)

/-- The state `calculate_address` leaves. -/
def mode2State (p : ArmCore) (ins : Word) : ArmCore :=
  writtenBack p ins (armReadRegister p (bitsRn ins)) (mode2Offset p ins)

/-- The state `calculate_address_mode3` leaves. -/
def mode3State (p : ArmCore) (ins : Word) : ArmCore :=
  writtenBack p ins (armReadRegister p (bitsRn ins)) (mode3Offset p ins)

def mode3Address (p : ArmCore) (ins : Word) : Word :=
  indexed ins (armReadRegister p (bitsRn ins)) (mode3Offset p ins)

theorem calculateAddress_untreated (p : ArmCore) {ins : Word} (hu : Untreated ins) :
    calculateAddress p ins = (-1, p) := by
  rw [calculateAddress_index, indexAddress_eq, if_pos hu]
  rfl

theorem calculateAddress_eq (p : ArmCore) {ins : Word} (hu : ¬ Untreated ins) :
    calculateAddress p ins = (mode2Address p ins, mode2State p ins) := by
  rw [calculateAddress_index, indexAddress_getD p hu]
  rfl

theorem calculateAddressMode3_eq (h : Host) (p : ArmCore) {ins : Word} (hu : ¬ Untreated ins) :
    calculateAddressMode3 h p ins = (mode3Address p ins, mode3State p ins) :=
  indexAddress_getD p hu _ _ _

/-! ## The base -/

/-- How a register reads after `value` was written to it. -/
def readBack (n : Fin 16) (value : Word) : Word :=
  if n = 15 then (value + 4) &&& 0xFFFFFFFD else value

theorem armReadRegister_write (p : ArmCore) (n : Fin 16) (value : Word) :
    armReadRegister (armWriteRegister p n value) n = readBack n value := by
  unfold readBack
  by_cases hn : n = 15
  · rw [hn, armReadRegister_pc, armWriteRegister_pc, if_pos rfl]
  · rw [if_neg hn, armReadRegister_write_self _ _ hn]

/-- The base after the addressing of mode 2. -/
def baseOnce (p : ArmCore) (ins : Word) : Word :=
  offsetBase ins (armReadRegister p (bitsRn ins)) (mode2Offset p ins)

/-- The offset of mode 3 after that: the index register may be the base. -/
def secondOffset (p : ArmCore) (ins : Word) : Word :=
  if getBit ins 22 = 0 ∧ regNum (getBits ins 3 0) = bitsRn ins then
    readBack (bitsRn ins) (baseOnce p ins)
  else mode3Offset p ins

/-- The base after the addressing of mode 3, on top of mode 2. -/
def baseTwice (p : ArmCore) (ins : Word) : Word :=
  offsetBase ins (readBack (bitsRn ins) (baseOnce p ins)) (secondOffset p ins)

theorem mode3Offset_write (p : ArmCore) (ins : Word) :
    mode3Offset (armWriteRegister p (bitsRn ins) (baseOnce p ins)) ins = secondOffset p ins := by
  unfold secondOffset mode3Offset
  by_cases h22 : getBit ins 22 = 0
  · rw [if_neg (not_not.mpr h22), if_neg (not_not.mpr h22)]
    by_cases hm : regNum (getBits ins 3 0) = bitsRn ins
    · rw [if_pos ⟨h22, hm⟩, hm, armReadRegister_write]
    · rw [if_neg (fun hc => hm hc.2), armReadRegister_write_of_ne _ _ hm]
  · rw [if_pos h22, if_pos h22, if_neg (fun hc => h22 hc.1)]

/-- What the addressing leaves in the base with writeback: a first address
of -1 stops it after one stage. -/
def leftInBase (p : ArmCore) (ins : Word) : Word :=
  if mode2Address p ins = -1 then baseOnce p ins else baseTwice p ins

theorem writtenBack_of_eq (p : ArmCore) {ins : Word} (Rn offset : Word)
    (hb : bitP ins = bitW ins) :
    writtenBack p ins Rn offset
      = armWriteRegister p (bitsRn ins) (offsetBase ins Rn offset) :=
  if_pos hb

theorem not_untreated_of_eq {ins : Word} (hb : bitP ins = bitW ins) : ¬ Untreated ins :=
  fun hu => hu.2 (hb.symm.trans hu.1)

/-! ## The instruction -/

/-- The transfers of mode 3 that are refused: `Rd` is r15, or a load with
bits 7 to 4 of none of the three loads. -/
def Mode3Refuses (ins : Word) : Prop :=
  regNum (getBits ins 15 12) = 15 ∨ bitL ins ≠ 0 ∧ (getBits ins 7 4).toNat ≠ 0b1011 ∧
    (getBits ins 7 4).toNat ≠ 0b1101 ∧ (getBits ins 7 4).toNat ≠ 0b1111

/-- A refused transfer of mode 3 leaves the state it was given. -/
theorem loadStoreMode3_of_refuses (h : Host) (p : ArmCore) {ins : Word} (address : Word)
    (hr : Mode3Refuses ins) :
    loadStoreMode3 h p ins address (regNum (getBits ins 15 12)) = (UNDEFINED_INSTRUCTION, p) := by
  unfold loadStoreMode3
  rcases hr with h15 | ⟨hL, hB, hD, hF⟩
  · simp only [if_pos h15]
    split_ifs
    · rfl
    · split <;> rfl
  · rw [if_neg hL]
    split
    · exact absurd ‹_› hB
    · exact absurd ‹_› hD
    · exact absurd ‹_› hF
    · rfl

theorem loadStoreMode3_of_not_refuses (h : Host) (p : ArmCore) {ins : Word} (address : Word)
    (hr : ¬ Mode3Refuses ins) :
    (loadStoreMode3 h p ins address (regNum (getBits ins 15 12))).1 = 0 := by
  unfold Mode3Refuses at hr
  push Not at hr
  obtain ⟨h15, hload⟩ := hr
  unfold loadStoreMode3
  by_cases hL : bitL ins = 0
  · rw [if_pos hL, if_neg h15]
  · rw [if_neg hL]
    split
    · rw [if_neg h15]
    · rw [if_neg h15]
    · rw [if_neg h15]
    · rename_i hB hD hF
      exact absurd (hload hL hB hD) hF

theorem loadStoreMode2_result (h : Host) (p : ArmCore) (ins address : Word) (Rd_num : Fin 16) :
    (loadStoreMode2 h p ins address Rd_num).1 = 0 := by
  unfold loadStoreMode2
  split_ifs <;> rfl

/-- A single transfer is refused: its addressing is not treated, its first
address is -1, or it is of mode 3 and refused there. -/
def LoadStoreRefuses (p : ArmCore) (ins : Word) : Prop :=
  Untreated ins ∨ mode2Address p ins = -1 ∨ getBit ins 26 = 0 ∧ Mode3Refuses ins

/-- The state a refused transfer leaves: that of the stages it has passed. -/
def refusedState (p : ArmCore) (ins : Word) : ArmCore :=
  if Untreated ins then p
  else if mode2Address p ins = -1 then mode2State p ins
  else mode3State (mode2State p ins) ins

theorem armLoadStore_eq (h : Host) (p : ArmCore) {ins : Word} (hu : ¬ Untreated ins) :
    armLoadStore h p ins =
      if mode2Address p ins = -1 then (UNDEFINED_INSTRUCTION, mode2State p ins)
      else if getBit ins 26 ≠ 0 then
        loadStoreMode2 h (mode2State p ins) ins (mode2Address p ins) (regNum (getBits ins 15 12))
      else
        loadStoreMode3 h (mode3State (mode2State p ins) ins) ins
          (mode3Address (mode2State p ins) ins) (regNum (getBits ins 15 12)) := by
  unfold armLoadStore
  simp only [calculateAddress_eq p hu, calculateAddressMode3_eq h _ hu]

theorem armLoadStore_of_refuses (h : Host) (p : ArmCore) {ins : Word}
    (hr : LoadStoreRefuses p ins) :
    armLoadStore h p ins = (UNDEFINED_INSTRUCTION, refusedState p ins) := by
  unfold refusedState
  by_cases hu : Untreated ins
  · rw [if_pos hu]
    unfold armLoadStore
    simp only [calculateAddress_untreated p hu, if_true]
  · rw [armLoadStore_eq h p hu, if_neg hu]
    by_cases ha : mode2Address p ins = -1
    · rw [if_pos ha, if_pos ha]
    · rcases hr with hr | hr | ⟨h26, hr⟩
      · exact absurd hr hu
      · exact absurd hr ha
      · rw [if_neg ha, if_neg ha, if_neg (not_not.mpr h26), loadStoreMode3_of_refuses h _ _ hr]

theorem armLoadStore_of_not_refuses (h : Host) (p : ArmCore) {ins : Word}
    (hr : ¬ LoadStoreRefuses p ins) : (armLoadStore h p ins).1 = 0 := by
  unfold LoadStoreRefuses at hr
  push Not at hr
  obtain ⟨hu, ha, h3⟩ := hr
  rw [armLoadStore_eq h p hu, if_neg ha]
  by_cases h26 : getBit ins 26 = 0
  · rw [if_neg (not_not.mpr h26)]
    exact loadStoreMode3_of_not_refuses h _ _ (h3 h26)
  · rw [if_pos h26]
    exact loadStoreMode2_result ..

theorem armLoadStore_undefined_iff (h : Host) (p : ArmCore) (ins : Word) :
    (armLoadStore h p ins).1 = UNDEFINED_INSTRUCTION ↔ LoadStoreRefuses p ins := by
  constructor
  · intro h7
    by_contra hr
    rw [armLoadStore_of_not_refuses h p hr] at h7
    exact absurd h7 (by decide)
  · intro hr
    rw [armLoadStore_of_refuses h p hr]

/-! ## What a refused transfer has written -/

theorem writtenBack_mem (p : ArmCore) (ins Rn offset : Word) :
    (writtenBack p ins Rn offset).mem = p.mem := by
  unfold writtenBack
  split <;> rfl

theorem writtenBack_stdout (p : ArmCore) (ins Rn offset : Word) :
    (writtenBack p ins Rn offset).stdout = p.stdout := by
  unfold writtenBack
  split <;> rfl

/-- Only the base is written. -/
theorem writtenBack_reg_of_ne (p : ArmCore) (ins Rn offset : Word) {k : Fin 37}
    (hk : k ≠ slot (bitsRn ins) (registersGetMode p.reg)) :
    (writtenBack p ins Rn offset).reg k = p.reg k := by
  unfold writtenBack
  split
  · rw [armWriteRegister_reg, Function.update_of_ne hk]
  · rfl

theorem writtenBack_mode (p : ArmCore) (ins Rn offset : Word) :
    registersGetMode (writtenBack p ins Rn offset).reg = registersGetMode p.reg := by
  unfold writtenBack
  split
  · exact armWriteRegister_mode ..
  · rfl

/-- A refused transfer writes at most the base. -/
theorem refusedState_frame (p : ArmCore) (ins : Word) :
    (refusedState p ins).mem = p.mem ∧ (refusedState p ins).stdout = p.stdout ∧
      ∀ k, k ≠ slot (bitsRn ins) (registersGetMode p.reg) →
        (refusedState p ins).reg k = p.reg k := by
  unfold refusedState
  split_ifs
  · exact ⟨rfl, rfl, fun _ _ => rfl⟩
  · exact ⟨writtenBack_mem .., writtenBack_stdout .., fun k hk => writtenBack_reg_of_ne _ _ _ _ hk⟩
  · refine ⟨(writtenBack_mem ..).trans (writtenBack_mem ..),
      (writtenBack_stdout ..).trans (writtenBack_stdout ..), ?_⟩
    intro k hk
    have hk' : k ≠ slot (bitsRn ins) (registersGetMode (mode2State p ins).reg) := by
      rw [mode2State, writtenBack_mode]
      exact hk
    exact (writtenBack_reg_of_ne _ _ _ _ hk').trans (writtenBack_reg_of_ne _ _ _ _ hk)

end Armator
