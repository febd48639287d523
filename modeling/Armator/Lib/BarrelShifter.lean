/-
Shifts and rotations of a word, and the bit they move out.

A shift by `n` places moves the word one place `n` times, and its carry is
the bit that the last move pushes over the edge: the top bit on the way
left, the bottom bit on the way right.  `lastOut` says so, and the lemmas
name that bit in the word the shift began with, for each direction and
however far it goes.
-/
import Mathlib.Data.BitVec

namespace BarrelShifter

inductive Shift where
  /-- left -/
  | lsl
  /-- right, zeros coming in -/
  | lsr
  /-- right, copies of the sign coming in -/
  | asr
  /-- right, what leaves coming in again -/
  | ror
deriving DecidableEq, Repr

variable {w : Nat} (x : BitVec w)

/-- The word `n` places on. -/
def shifted (n : Nat) : Shift → BitVec w
  | .lsl => x <<< n
  | .lsr => x >>> n
  | .asr => x.sshiftRight n
  | .ror => x.rotateRight n

/-- To the left is times a power of two. -/
theorem shiftLeft_eq_ofNat (n : Nat) : x <<< n = BitVec.ofNat w (x.toNat * 2 ^ n) := by
  refine BitVec.eq_of_toNat_eq ?_
  rw [BitVec.toNat_shiftLeft, Nat.shiftLeft_eq, BitVec.toNat_ofNat]

/-- To the right is the quotient by one. -/
theorem ushiftRight_eq_ofNat (n : Nat) : x >>> n = BitVec.ofNat w (x.toNat / 2 ^ n) := by
  have hlt := Nat.lt_of_le_of_lt (Nat.div_le_self x.toNat (2 ^ n)) x.isLt
  refine BitVec.eq_of_toNat_eq ?_
  rw [BitVec.toNat_ushiftRight, Nat.shiftRight_eq_div_pow, BitVec.toNat_ofNat,
    Nat.mod_eq_of_lt hlt]

/-- With the sign, it is the floor of the quotient of the signed number. -/
theorem sshiftRight_eq_ofInt (n : Nat) : x.sshiftRight n = BitVec.ofInt w (x.toInt / 2 ^ n) := by
  rw [BitVec.sshiftRight_eq, Int.shiftRight_eq_div_pow]
  rfl

/-- The bit that the next place moves out. -/
def nextOut : Shift → Bool
  | .lsl => x.msb
  | .lsr | .asr | .ror => x.getLsbD 0

/-- The bit that the last of `n` places has moved out, for `n` not 0. -/
def lastOut (n : Nat) (kind : Shift) : Bool := nextOut (shifted x (n - 1) kind) kind

theorem lastOut_lsl {n : Nat} (h0 : 0 < n) (hn : n ≤ w) : lastOut x n .lsl = x.getLsbD (w - n) := by
  show (x <<< (n - 1)).msb = _
  rw [BitVec.msb_shiftLeft, BitVec.getMsbD_eq_getLsbD, decide_eq_true (show n - 1 < w by omega),
    Bool.true_and, show w - 1 - (n - 1) = w - n by omega]

theorem lastOut_lsl_of_lt {n : Nat} (hn : w < n) : lastOut x n .lsl = false := by
  show (x <<< (n - 1)).msb = _
  rw [BitVec.msb_shiftLeft, BitVec.getMsbD_eq_getLsbD, decide_eq_false (show ¬ n - 1 < w by omega),
    Bool.false_and]

theorem lastOut_lsr (n : Nat) : lastOut x n .lsr = x.getLsbD (n - 1) :=
  BitVec.getLsbD_ushiftRight ..

theorem lastOut_asr {n : Nat} (hw : 0 < w) :
    lastOut x n .asr = if n ≤ w then x.getLsbD (n - 1) else x.msb := by
  show (x.sshiftRight (n - 1)).getLsbD 0 = _
  rw [BitVec.getLsbD_sshiftRight, decide_eq_false (Nat.not_le.mpr hw), Bool.not_false,
    Bool.true_and, Nat.add_zero]
  by_cases hn : n ≤ w
  · rw [if_pos hn, if_pos (by omega)]
  · rw [if_neg hn, if_neg (by omega)]

theorem lastOut_ror (n : Nat) (hw : 0 < w) : lastOut x n .ror = x.getLsbD ((n - 1) % w) := by
  have hlt := Nat.mod_lt (n - 1) hw
  show (x.rotateRight (n - 1)).getLsbD 0 = _
  rw [BitVec.getLsbD_rotateRight, decide_eq_true (show 0 < w - (n - 1) % w by omega), cond_true,
    Nat.add_zero]

/-- Shifted all the way, only copies of the sign are left. -/
theorem sshiftRight_of_le {n : Nat} (hn : w ≤ n) :
    x.sshiftRight n = if x.msb then BitVec.allOnes w else 0#w := by
  refine BitVec.eq_of_getLsbD_eq ?_
  intro j hj
  rw [BitVec.getLsbD_sshiftRight, decide_eq_false (Nat.not_le.mpr hj), Bool.not_false,
    Bool.true_and, if_neg (Nat.not_lt.mpr (Nat.le_add_right_of_le hn))]
  cases x.msb with
  | false => rw [if_neg Bool.false_ne_true, BitVec.getLsbD_zero]
  | true => rw [if_pos rfl, BitVec.getLsbD_allOnes, decide_eq_true hj]

theorem sshiftRight_self : x.sshiftRight w = if x.msb then BitVec.allOnes w else 0#w :=
  sshiftRight_of_le x (Nat.le_refl w)

/-- A shift without the sign is one with it exactly when no sign comes in. -/
theorem ushiftRight_eq_sshiftRight_iff {n : Nat} :
    x >>> n = x.sshiftRight n ↔ n = 0 ∨ x.msb = false := by
  constructor
  · intro heq
    have hmsb := congrArg BitVec.msb heq
    rw [BitVec.msb_sshiftRight, BitVec.msb_ushiftRight] at hmsb
    by_cases hn : n = 0
    · exact Or.inl hn
    · rw [decide_eq_true (Nat.pos_of_ne_zero hn), Bool.not_true, Bool.false_and] at hmsb
      exact Or.inr hmsb.symm
  · rintro (rfl | hpos)
    · rw [BitVec.ushiftRight_zero, BitVec.sshiftRight_zero]
    · exact (BitVec.sshiftRight_eq_of_msb_false hpos).symm

theorem rotateRight_zero : x.rotateRight 0 = x := by
  refine BitVec.eq_of_getLsbD_eq ?_
  intro j hj
  rw [BitVec.getLsbD_rotateRight, Nat.zero_mod, Nat.sub_zero, decide_eq_true hj, cond_true,
    Nat.zero_add]

/-- The last place of a rotation brings its bit in at the top. -/
theorem getLsbD_top_rotateRight (hw : 0 < w) {n : Nat} (hn : 0 < n) :
    (x.rotateRight n).getLsbD (w - 1) = lastOut x n .ror := by
  have hlt := Nat.mod_lt n hw
  rw [lastOut_ror x n hw, BitVec.getLsbD_rotateRight]
  by_cases h0 : n % w = 0
  · have hlast : (n - 1) % w = w - 1 := by
      obtain ⟨m, rfl⟩ := Nat.dvd_of_mod_eq_zero h0
      obtain _ | m := m
      · exact absurd hn (by rw [Nat.mul_zero]; exact Nat.lt_irrefl 0)
      · rw [Nat.mul_succ, Nat.add_sub_assoc hw, Nat.mul_add_mod_self_left,
          Nat.mod_eq_of_lt (Nat.sub_lt hw Nat.one_pos)]
    rw [h0, Nat.sub_zero, decide_eq_true (Nat.sub_lt hw Nat.one_pos), cond_true, Nat.zero_add,
      hlast]
  · have hlast : (n - 1) % w = n % w - 1 := by
      have hdiv := Nat.div_add_mod n w
      rw [show n - 1 = w * (n / w) + (n % w - 1) by omega, Nat.mul_add_mod_self_left,
        Nat.mod_eq_of_lt (by omega)]
    rw [decide_eq_false (show ¬ w - 1 < w - n % w by omega), cond_false,
      decide_eq_true (Nat.sub_lt hw Nat.one_pos), Bool.true_and, hlast,
      show w - 1 - (w - n % w) = n % w - 1 by omega]

end BarrelShifter
