/-
Scaled register offsets.

A register offset can be shifted by an amount the word holds, where 0
stands for 32 in right shifts and for a rotation through C in rotations.
`scaledIndex` says what the architecture asks for, on numbers.  The code
shifts right without the sign where it should shift with it, and drops C
from the rotation: `scaled_index_iff` says when that shows, in the index
and in the address and base of the transfers that use it.
-/
import Armator.LogicalFlags
import Armator.Mode3

namespace Armator

open BarrelShifter

/-! ## The index of the architecture -/

/-- Bits 6 and 5 for each kind of shift. -/
def shiftCode : Shift → Nat
  | .lsl => 0b00
  | .lsr => 0b01
  | .asr => 0b10
  | .ror => 0b11

/-- The C flag as `shift_index_calculator` is given it. -/
def carryByte (C : Bool) : Byte := if C then 1 else 0

/-- An amount of 0 stands for 32 in right shifts. -/
def rightAmount (shift_imm : Nat) : Nat := if shift_imm = 0 then 32 else shift_imm

/-- The index of A5.2.4. -/
def scaledIndex (Rm : Word) (shift_imm : Nat) (kind : Shift) (C : Bool) : Word :=
  match kind with
  | .lsl => BitVec.ofNat 32 (Rm.toNat * 2 ^ shift_imm)
  | .lsr => BitVec.ofNat 32 (Rm.toNat / 2 ^ rightAmount shift_imm)
  | .asr => BitVec.ofInt 32 (Rm.toInt / 2 ^ rightAmount shift_imm)
  | .ror =>
      if shift_imm = 0 then BitVec.ofNat 32 (2 ^ 31 * C.toNat + Rm.toNat / 2)
      else Rm.rotateRight shift_imm

/-- Neither the sign nor C has to come in from the left. -/
def NothingComesIn (Rm : Word) (shift_imm : Nat) (kind : Shift) (C : Bool) : Prop :=
  (kind = .asr → shift_imm ≠ 0 → getBit Rm 31 = 0) ∧ (kind = .ror → shift_imm = 0 → C = false)

/-! ## The index of the code -/

section

variable (Rm : Word) {k : Nat} (C : Bool)

theorem index_lsl :
    shiftIndexCalculator Rm k (shiftCode .lsl) (carryByte C) = scaledIndex Rm k .lsl C :=
  shiftLeft_eq_ofNat Rm k

theorem index_lsr :
    shiftIndexCalculator Rm k (shiftCode .lsr) (carryByte C) = scaledIndex Rm k .lsr C := by
  show (if k = 0 then (0 : Word) else Rm >>> k) = BitVec.ofNat 32 (Rm.toNat / 2 ^ rightAmount k)
  rw [← ushiftRight_eq_ofNat, rightAmount]
  by_cases h0 : k = 0
  · rw [if_pos h0, if_pos h0]
    exact (BitVec.ushiftRight_eq_zero (Nat.le_refl 32)).symm
  · rw [if_neg h0, if_neg h0]

/-- The sign, which the shift of the code does not copy. -/
theorem index_asr_iff :
    shiftIndexCalculator Rm k (shiftCode .asr) (carryByte C) = scaledIndex Rm k .asr C ↔
      (k ≠ 0 → getBit Rm 31 = 0) := by
  show (if k = 0 then (if getBit Rm 31 = 1 then (0xFFFFFFFF : Word) else 0) else Rm >>> k)
    = BitVec.ofInt 32 (Rm.toInt / 2 ^ rightAmount k) ↔ _
  rw [← sshiftRight_eq_ofInt, rightAmount, getBit_31_eq_zero_iff]
  by_cases h0 : k = 0
  · rw [if_pos h0, if_pos h0, sshiftRight_self]
    refine iff_of_true ?_ fun hne => absurd h0 hne
    refine if_congr ?_ rfl rfl
    rw [← getBit_ne_zero_iff, Ne, getBit_31_eq_zero_iff, Bool.not_eq_false]
  · rw [if_neg h0, if_neg h0, ushiftRight_eq_sshiftRight_iff, or_iff_right h0]
    exact ⟨fun hpos _ => hpos, fun hpos => hpos h0⟩

/-- C, which is shifted out of its byte. -/
theorem index_ror_iff :
    shiftIndexCalculator Rm k (shiftCode .ror) (carryByte C) = scaledIndex Rm k .ror C ↔
      (k = 0 → C = false) := by
  have hC : (carryByte C >>> 31).setWidth 32 = (0 : Word) := by
    cases C <;> decide
  show (if k = 0 then (carryByte C >>> 31).setWidth 32 ||| (Rm >>> 1)
    else (Rm >>> (k % 32)) ||| (Rm <<< (32 - k % 32))) = _ ↔ _
  unfold scaledIndex
  by_cases h0 : k = 0
  · have hlt := Rm.isLt
    simp only [if_pos h0, hC]
    rw [show (0 : Word) ||| Rm >>> 1 = Rm >>> 1 from BitVec.zero_or, ← BitVec.toNat_inj,
      BitVec.toNat_ushiftRight, Nat.shiftRight_eq_div_pow, BitVec.toNat_ofNat]
    cases C with
    | false => exact iff_of_true (by rw [Bool.toNat_false]; omega) fun _ => rfl
    | true =>
        refine iff_of_false ?_ fun hf => absurd (hf h0) (by decide)
        rw [Bool.toNat_true]
        omega
  · simp only [if_neg h0]
    exact iff_of_true BitVec.rotateRight_def.symm fun hz => absurd hz h0

theorem shiftIndexCalculator_eq_iff (kind : Shift) :
    shiftIndexCalculator Rm k (shiftCode kind) (carryByte C) = scaledIndex Rm k kind C ↔
      NothingComesIn Rm k kind C := by
  unfold NothingComesIn
  cases kind with
  | lsl => exact iff_of_true (index_lsl Rm C) ⟨nofun, nofun⟩
  | lsr => exact iff_of_true (index_lsr Rm C) ⟨nofun, nofun⟩
  | asr =>
      rw [index_asr_iff]
      exact ⟨fun hs => ⟨fun _ => hs, nofun⟩, fun hn => hn.1 rfl⟩
  | ror =>
      rw [index_ror_iff]
      exact ⟨fun hs => ⟨nofun, fun _ => hs⟩, fun hn => hn.2 rfl⟩

end

/-! ## The transfers -/

/-- A treated word with a register offset, scaled by 0 places or more. -/
structure IsScaled (ins : Word) : Prop where
  form : getBits ins 27 25 = 0b011
  bit_4 : getBit ins 4 = 0
  indexing : ¬ Untreated ins

/-- The index of such a word. -/
def wordIndex (p : ArmCore) (ins : Word) : Word :=
  scaledIndex (armReadRegister p (regNum (getBits ins 3 0))) (getBits ins 11 7).toNat
    (shiftKind ins) (flagSet p)

theorem shiftCode_shiftKind (ins : Word) : shiftCode (shiftKind ins) = (getBits ins 6 5).toNat := by
  rcases shiftKind_cases ins with ⟨ht, hk⟩ | ⟨ht, hk⟩ | ⟨ht, hk⟩ | ⟨ht, hk⟩ <;> rw [ht, hk] <;> rfl

theorem carryByte_flagSet (p : ArmCore) : carryByte (flagSet p) = flagC p := by
  unfold carryByte flagSet flagC
  cases hC : (armReadCpsr p).getLsbD 29 with
  | false => rw [(getBit_eq_zero_iff_getLsbD _ 29).mpr hC, if_neg Bool.false_ne_true]; rfl
  | true => rw [(getBit_eq_one_iff_getLsbD _ 29).mpr hC, if_pos rfl]; rfl

/-- The offset is what `shift_index_calculator` returns, also where bits 11
to 4 are clear and it is not called. -/
theorem IsScaled.mode2Offset_eq {ins : Word} (hi : IsScaled ins) (p : ArmCore) :
    mode2Offset p ins
      = shiftIndexCalculator (armReadRegister p (regNum (getBits ins 3 0)))
          (getBits ins 11 7).toNat (shiftCode (shiftKind ins)) (carryByte (flagSet p)) := by
  have h25 : getBit ins 25 = 1 := getBit_of_field hi.form
  have hne : ¬ getBit ins 25 = 0 := (getBit_ne_zero_iff ..).mpr h25
  rw [shiftCode_shiftKind, carryByte_flagSet, mode2Offset, if_neg hne]
  split
  · rename_i h11
    have h117 : getBits ins 11 7 = 0 := getBits_of_field h11
    have h65 : getBits ins 6 5 = 0 := getBits_of_field h11
    rw [regNum_getBits_4_0, h117, h65]
    exact (BitVec.shiftLeft_zero _).symm
  · rfl

theorem offsetBase_right_inj {ins Rn a b : Word} :
    offsetBase ins Rn a = offsetBase ins Rn b ↔ a = b := by
  unfold offsetBase
  split
  · exact add_right_inj Rn
  · exact sub_right_inj

theorem armWriteRegister_inj {p : ArmCore} {n : Fin 16} {a b : Word} :
    armWriteRegister p n a = armWriteRegister p n b ↔ a = b := by
  refine ⟨fun heq => ?_, fun heq => by rw [heq]⟩
  have hreg := congrArg ArmCore.reg heq
  rw [armWriteRegister_reg, armWriteRegister_reg] at hreg
  exact Function.update_injective p.reg (slot n (registersGetMode p.reg)) hreg

/-- A treated word shows its offset in the address or in the base. -/
theorem calculateAddress_eq_iff (p : ArmCore) {ins : Word} (hu : ¬ Untreated ins) (offset : Word) :
    calculateAddress p ins = (indexed ins (armReadRegister p (bitsRn ins)) offset,
        writtenBack p ins (armReadRegister p (bitsRn ins)) offset) ↔
      mode2Offset p ins = offset := by
  rw [calculateAddress_eq p hu, mode2Address, mode2State]
  refine ⟨fun heq => ?_, fun heq => by rw [heq]⟩
  by_cases hP : bitP ins = 0
  · have hb : bitP ins = bitW ins := by
      by_contra hb
      exact hu ⟨hP, fun hW => hb (hP.trans hW.symm)⟩
    have hstate := congrArg Prod.snd heq
    simp only [writtenBack_of_eq _ _ _ hb] at hstate
    exact offsetBase_right_inj.mp (armWriteRegister_inj.mp hstate)
  · have haddress := congrArg Prod.fst heq
    simp only [indexed, if_pos hP] at haddress
    exact offsetBase_right_inj.mp haddress

/-- The index is that of the architecture, and so are the address and the
base of every transfer that uses it, exactly when nothing has to come in
from the left. -/
theorem scaled_index_iff (Rm : Word) (kind : Shift) (C : Bool) (p : ArmCore) (ins : Word) :
    (∀ shift_imm < 32,
      shiftIndexCalculator Rm shift_imm (shiftCode kind) (carryByte C)
          = scaledIndex Rm shift_imm kind C ↔ NothingComesIn Rm shift_imm kind C) ∧
    (IsScaled ins →
      (calculateAddress p ins = (indexed ins (armReadRegister p (bitsRn ins)) (wordIndex p ins),
          writtenBack p ins (armReadRegister p (bitsRn ins)) (wordIndex p ins)) ↔
        NothingComesIn (armReadRegister p (regNum (getBits ins 3 0))) (getBits ins 11 7).toNat
          (shiftKind ins) (flagSet p))) := by
  refine ⟨fun _ _ => shiftIndexCalculator_eq_iff Rm C kind, ?_⟩
  intro hi
  rw [calculateAddress_eq_iff p hi.indexing, hi.mode2Offset_eq]
  exact shiftIndexCalculator_eq_iff ..

/-- `LDR r0, [r1, r2, ASR #1]` -/
def loadingScaled : Word := 0xE79100C2

theorem scaled_index_iff_loadingScaled :
    (shiftIndexCalculator (-8) 1 (shiftCode .asr) (carryByte false)
        = scaledIndex (-8) 1 .asr false ↔ NothingComesIn (-8) 1 .asr false) ∧
    (calculateAddress (booted 16 []) loadingScaled
        = (indexed loadingScaled (armReadRegister (booted 16 []) (bitsRn loadingScaled))
            (wordIndex (booted 16 []) loadingScaled),
          writtenBack (booted 16 []) loadingScaled
            (armReadRegister (booted 16 []) (bitsRn loadingScaled))
            (wordIndex (booted 16 []) loadingScaled)) ↔
      NothingComesIn (armReadRegister (booted 16 []) (regNum (getBits loadingScaled 3 0)))
        (getBits loadingScaled 11 7).toNat (shiftKind loadingScaled) (flagSet (booted 16 []))) :=
  have hscaled := scaled_index_iff (-8) .asr false (booted 16 []) loadingScaled
  ⟨hscaled.1 1 (by decide), hscaled.2 ⟨by decide, by decide, by decide⟩⟩

/-- ASR by one place of -8 should be -4, and RRX of 0 with C set 2^31. -/
theorem scaled_index_astray :
    scaledIndex (-8) 1 .asr false = -4 ∧
    shiftIndexCalculator (-8) 1 (shiftCode .asr) (carryByte false) ≠ scaledIndex (-8) 1 .asr false ∧
    scaledIndex 0 0 .ror true = 2 ^ 31 ∧
    shiftIndexCalculator 0 0 (shiftCode .ror) (carryByte true) ≠ scaledIndex 0 0 .ror true := by
  decide

end Armator
