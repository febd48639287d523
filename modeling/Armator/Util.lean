/-
Words, and the bit macros of `util.h`.

The macros are kept as the source writes them, on 32-bit words.  Each has
two readings below: bit by bit (`getLsbD`) for the flag computations, and
as a quotient and remainder of the unsigned value for the decoder, where
fields overlap and `omega` does the rest.
-/
import Mathlib.Data.BitVec
import Mathlib.Data.Fin.Basic
import Mathlib.Tactic.Ring

namespace Armator

abbrev Byte := BitVec 8
abbrev Half := BitVec 16
abbrev Word := BitVec 32

/-! Register numbers and slots are written as numerals. -/

instance neZeroRegisters : NeZero (16 : Nat) := ⟨by decide⟩

instance neZeroSlots : NeZero (37 : Nat) := ⟨by decide⟩

/-! ## `util.h` -/

/-- `get_bit(x, i)` -/
def getBit (x : Word) (i : Nat) : Word := (x >>> i) &&& 1

/-- `set_bit(x, i)` -/
def setBit (x : Word) (i : Nat) : Word := x ||| ((1 : Word) <<< i)

/-- `clr_bit(x, i)` -/
def clrBit (x : Word) (i : Nat) : Word := x &&& ~~~((1 : Word) <<< i)

/-- `get_bits(x, h, l)` -/
def getBits (x : Word) (h l : Nat) : Word :=
  (x >>> l) &&& ~~~((BitVec.allOnes 32 >>> (h - l + 1)) <<< (h - l + 1))

/-- A four-bit field used as a register number. -/
def regNum (field : Word) : Fin 16 := Fin.ofNat 16 field.toNat

/-! ## The macros bit by bit -/

theorem getLsbD_one_word (i : Nat) : (1 : Word).getLsbD i = decide (i = 0) := by
  rw [show (1 : Word) = 1#32 from rfl, BitVec.getLsbD_one]
  simp

theorem getLsbD_one_shiftLeft (i j : Nat) (hi : i < 32) :
    ((1 : Word) <<< i).getLsbD j = decide (i = j) := by
  rw [BitVec.getLsbD_shiftLeft, getLsbD_one_word]
  by_cases h : i = j
  · subst h; simp [hi]
  · simp only [h, decide_false, Bool.and_eq_false_imp]
    intro h'
    simp only [Bool.and_eq_true, decide_eq_true_eq, Bool.not_eq_true',
      decide_eq_false_iff_not] at h'
    simp only [decide_eq_false_iff_not]
    omega

theorem getLsbD_getBit (x : Word) (i j : Nat) :
    (getBit x i).getLsbD j = (decide (j = 0) && x.getLsbD i) := by
  rw [getBit, BitVec.getLsbD_and, getLsbD_one_word, BitVec.getLsbD_ushiftRight]
  by_cases h : j = 0
  · subst h; simp
  · simp [h]

theorem getLsbD_setBit (x : Word) (i j : Nat) (hi : i < 32 := by decide) :
    (setBit x i).getLsbD j = (x.getLsbD j || decide (i = j)) := by
  rw [setBit, BitVec.getLsbD_or, getLsbD_one_shiftLeft i j hi]

theorem getLsbD_clrBit (x : Word) (i j : Nat) (hi : i < 32 := by decide) :
    (clrBit x i).getLsbD j = (x.getLsbD j && !decide (i = j)) := by
  rw [clrBit, BitVec.getLsbD_and, BitVec.getLsbD_not, getLsbD_one_shiftLeft i j hi]
  by_cases hj : j < 32
  · simp [hj]
  · simp [BitVec.getLsbD_of_ge x j (by omega)]

theorem getLsbD_setBit_ite (x : Word) (i j : Nat) (hi : i < 32 := by decide) :
    (setBit x i).getLsbD j = if j = i then true else x.getLsbD j := by
  rw [getLsbD_setBit x i j hi]
  by_cases hj : j = i
  · rw [if_pos hj, decide_eq_true hj.symm, Bool.or_true]
  · rw [if_neg hj, decide_eq_false (Ne.symm hj), Bool.or_false]

theorem getLsbD_clrBit_ite (x : Word) (i j : Nat) (hi : i < 32 := by decide) :
    (clrBit x i).getLsbD j = if j = i then false else x.getLsbD j := by
  rw [getLsbD_clrBit x i j hi]
  by_cases hj : j = i
  · rw [if_pos hj, decide_eq_true hj.symm, Bool.not_true, Bool.and_false]
  · rw [if_neg hj, decide_eq_false (Ne.symm hj), Bool.not_false, Bool.and_true]

theorem getLsbD_getBits (x : Word) (h l j : Nat) :
    (getBits x h l).getLsbD j = (decide (j < h - l + 1) && x.getLsbD (l + j)) := by
  rw [getBits, BitVec.getLsbD_and, BitVec.getLsbD_not, BitVec.getLsbD_shiftLeft,
    BitVec.getLsbD_ushiftRight, BitVec.getLsbD_ushiftRight, BitVec.getLsbD_allOnes]
  by_cases hj : j < 32
  · by_cases hn : j < h - l + 1
    · simp [hj, hn]
    · have hb : h - l + 1 + (j - (h - l + 1)) < 32 := by omega
      simp [hj, hn, hb]
  · simp [hj, BitVec.getLsbD_of_ge x (l + j) (by omega)]

/-! ## The macros as numbers -/

theorem toNat_getBit (x : Word) (i : Nat) : (getBit x i).toNat = x.toNat / 2 ^ i % 2 := by
  rw [getBit, BitVec.toNat_and, BitVec.toNat_ushiftRight, Nat.shiftRight_eq_div_pow]
  exact Nat.and_two_pow_sub_one_eq_mod _ 1

theorem toNat_getBits (x : Word) (h l : Nat) :
    (getBits x h l).toNat = x.toNat / 2 ^ l % 2 ^ (h - l + 1) := by
  apply Nat.eq_of_testBit_eq
  intro j
  rw [Nat.testBit_mod_two_pow, Nat.testBit_div_two_pow, BitVec.testBit_toNat,
    BitVec.testBit_toNat, getLsbD_getBits, Nat.add_comm j l]

theorem getBit_eq_one_iff (x : Word) (i : Nat) :
    getBit x i = 1 ↔ x.toNat / 2 ^ i % 2 = 1 := by
  rw [← BitVec.toNat_inj, toNat_getBit]
  rfl

theorem getBit_eq_zero_iff (x : Word) (i : Nat) :
    getBit x i = 0 ↔ x.toNat / 2 ^ i % 2 = 0 := by
  rw [← BitVec.toNat_inj, toNat_getBit]
  rfl

theorem getBit_ne_zero_iff (x : Word) (i : Nat) : getBit x i ≠ 0 ↔ getBit x i = 1 := by
  rw [Ne, getBit_eq_zero_iff, getBit_eq_one_iff]
  omega

theorem getBit_ne_one_iff (x : Word) (i : Nat) : getBit x i ≠ 1 ↔ getBit x i = 0 := by
  rw [Ne, getBit_eq_zero_iff, getBit_eq_one_iff]
  omega

theorem getBit_eq_one_iff_getLsbD (x : Word) (i : Nat) : getBit x i = 1 ↔ x.getLsbD i = true := by
  constructor
  · intro h
    have := getLsbD_getBit x i 0
    rw [h] at this
    simpa [getLsbD_one_word] using this.symm
  · intro h
    refine BitVec.eq_of_getLsbD_eq ?_
    intro j _
    rw [getLsbD_getBit, getLsbD_one_word, h, Bool.and_true]

theorem getBit_eq_zero_iff_getLsbD (x : Word) (i : Nat) :
    getBit x i = 0 ↔ x.getLsbD i = false := by
  rw [← not_iff_not, ← Ne, getBit_ne_zero_iff, getBit_eq_one_iff_getLsbD, Bool.not_eq_false]

theorem getBits_eq_iff (x : Word) (h l : Nat) (c : Word) :
    getBits x h l = c ↔ x.toNat / 2 ^ l % 2 ^ (h - l + 1) = c.toNat := by
  rw [← BitVec.toNat_inj, toNat_getBits]

/-- A field of a field. -/
theorem getBits_getBits (x : Word) {hi lo h l : Nat} (hl : lo ≤ l) (hlh : l ≤ h) (hh : h ≤ hi) :
    getBits (getBits x hi lo) (h - lo) (l - lo) = getBits x h l := by
  refine BitVec.eq_of_getLsbD_eq ?_
  intro j _
  rw [getLsbD_getBits, getLsbD_getBits, getLsbD_getBits,
    show h - lo - (l - lo) + 1 = h - l + 1 by omega]
  by_cases hj : j < h - l + 1
  · rw [decide_eq_true hj, Bool.true_and, Bool.true_and,
      decide_eq_true (show l - lo + j < hi - lo + 1 by omega), Bool.true_and,
      show lo + (l - lo + j) = l + j by omega]
  · rw [decide_eq_false hj, Bool.false_and, Bool.false_and]

theorem getBit_eq_getBits (x : Word) (i : Nat) : getBit x i = getBits x i i := by
  rw [← BitVec.toNat_inj, toNat_getBit, toNat_getBits, Nat.sub_self, Nat.zero_add, Nat.pow_one]

/-- A known field makes its subfields and bits known. -/
theorem getBits_of_field {x c : Word} {hi lo h l : Nat} (hc : getBits x hi lo = c)
    (hl : lo ≤ l := by decide) (hlh : l ≤ h := by decide) (hh : h ≤ hi := by decide) :
    getBits x h l = getBits c (h - lo) (l - lo) := by
  rw [← hc, getBits_getBits x hl hlh hh]

theorem getBit_of_field {x c : Word} {hi lo i : Nat} (hc : getBits x hi lo = c)
    (hl : lo ≤ i := by decide) (hh : i ≤ hi := by decide) :
    getBit x i = getBit c (i - lo) := by
  rw [getBit_eq_getBits, getBit_eq_getBits, getBits_of_field hc hl (Nat.le_refl i) hh]

end Armator
