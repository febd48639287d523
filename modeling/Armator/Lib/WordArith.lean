/-
Sums and differences of words, against the exact integers.

A word of `w` bits is read as an unsigned number (`toNat`) or a signed one
(`toInt`).  A sum with a carry in, and a difference with a borrow in, wrap
at `2 ^ w`; the first two lemmas say by how much, and the signed overflow
of either is then a matter of three sign bits.  A difference of two words
in a row is the difference of the low words and, less its borrow, of the
high ones.  Last come the sign extensions that set the high bits by a mask.
-/
import Mathlib.Data.BitVec
import Mathlib.Tactic.Ring
import Mathlib.Tactic.Linarith

namespace WordArith

variable {w : Nat}

/-! ## Wrapping -/

theorem toNat_ofNat_bit (hw : 0 < w) {c : Nat} (hc : c ≤ 1) : (BitVec.ofNat w c).toNat = c := by
  have h2 : 2 ^ 1 ≤ 2 ^ w := Nat.pow_le_pow_right (by decide) hw
  rw [BitVec.toNat_ofNat, Nat.mod_eq_of_lt (by omega)]

/-- A sum with a carry in wraps at most once. -/
theorem toNat_sum (hw : 0 < w) (a b : BitVec w) {c : Nat} (hc : c ≤ 1) :
    ((a + b + BitVec.ofNat w c).toNat = a.toNat + b.toNat + c ∧ a.toNat + b.toNat + c < 2 ^ w) ∨
      (a + b + BitVec.ofNat w c).toNat + 2 ^ w = a.toNat + b.toNat + c := by
  have ha := a.isLt
  have hb := b.isLt
  rw [BitVec.toNat_add, BitVec.toNat_add, toNat_ofNat_bit hw hc, Nat.mod_add_mod]
  by_cases h : a.toNat + b.toNat + c < 2 ^ w
  · exact Or.inl ⟨Nat.mod_eq_of_lt h, h⟩
  · right
    rw [Nat.mod_eq_sub_mod (by omega), Nat.mod_eq_of_lt (by omega)]
    omega

/-- A difference with a borrow in wraps at most once. -/
theorem toNat_difference (hw : 0 < w) (a b : BitVec w) {c : Nat} (hc : c ≤ 1) :
    ((a - b - BitVec.ofNat w c).toNat + b.toNat + c = a.toNat) ∨
      ((a - b - BitVec.ofNat w c).toNat + b.toNat + c = a.toNat + 2 ^ w ∧
        a.toNat < b.toNat + c) := by
  have hsum := toNat_sum hw (a - b - BitVec.ofNat w c) b hc
  have hback : a - b - BitVec.ofNat w c + b + BitVec.ofNat w c = a := by ring
  have hlt := (a - b - BitVec.ofNat w c).isLt
  rw [hback] at hsum
  rcases hsum with ⟨h, _⟩ | h
  · exact Or.inl h.symm
  · exact Or.inr ⟨h.symm, by omega⟩

/-! ## Signed overflow -/

/-- `x` is no signed number of `w` bits. -/
def SignedOverflow (w : Nat) (x : Int) : Prop := ¬ (-2 ^ (w - 1) ≤ x ∧ x < 2 ^ (w - 1))

theorem two_pow_eq (hw : 0 < w) : 2 ^ w = 2 * 2 ^ (w - 1) := by
  rw [← Nat.pow_succ', Nat.succ_eq_add_one, Nat.sub_add_cancel hw]

/-- The two readings of a word, from its half of the range. -/
theorem toInt_of_msb (hw : 0 < w) (a : BitVec w) :
    (a.msb = false ∧ a.toNat < 2 ^ (w - 1) ∧ a.toInt = a.toNat) ∨
      (a.msb = true ∧ 2 ^ (w - 1) ≤ a.toNat ∧
        a.toInt = a.toNat - 2 * ((2 ^ (w - 1) : Nat) : Int)) := by
  have hpow := two_pow_eq hw
  rw [BitVec.msb_eq_decide, BitVec.toInt_eq_toNat_cond]
  by_cases h : 2 ^ (w - 1) ≤ a.toNat
  · refine Or.inr ⟨decide_eq_true h, h, ?_⟩
    rw [if_neg (by omega), hpow, Nat.cast_mul]
    rfl
  · exact Or.inl ⟨decide_eq_false h, by omega, if_pos (by omega)⟩

/-- A sum overflows exactly when the operands have one sign and the sum has
the other. -/
theorem sum_overflow_iff (hw : 0 < w) (a b : BitVec w) {c : Nat} (hc : c ≤ 1) :
    SignedOverflow w (a.toInt + b.toInt + c) ↔
      a.msb = b.msb ∧ (a + b + BitVec.ofNat w c).msb ≠ a.msb := by
  have hs := toNat_sum hw a b hc
  have hpow := two_pow_eq hw
  have hr := (a + b + BitVec.ofNat w c).isLt
  have hcast : ((2 ^ (w - 1) : Nat) : Int) = 2 ^ (w - 1) := Nat.cast_pow 2 (w - 1)
  unfold SignedOverflow
  rw [← hcast]
  rcases toInt_of_msb hw a with ⟨ha, ha', ha''⟩ | ⟨ha, ha', ha''⟩ <;>
    rcases toInt_of_msb hw b with ⟨hb, hb', hb''⟩ | ⟨hb, hb', hb''⟩ <;>
    rcases toInt_of_msb hw (a + b + BitVec.ofNat w c) with ⟨hm, hm', -⟩ | ⟨hm, hm', -⟩ <;>
    rw [ha, hb, hm, ha'', hb''] <;>
    generalize 2 ^ (w - 1) = half at * <;>
    simp only [ne_eq, not_true, not_false_iff, and_true, and_false, Bool.true_eq_false,
      Bool.false_eq_true, iff_true, iff_false] <;>
    omega

theorem toInt_not (hw : 0 < w) (b : BitVec w) : (~~~b).toInt = -b.toInt - 1 := by
  have hpow := two_pow_eq hw
  have hlt := b.isLt
  have hn : (~~~b).toNat = 2 ^ w - 1 - b.toNat := BitVec.toNat_not
  rcases toInt_of_msb hw b with ⟨-, hb, hb'⟩ | ⟨-, hb, hb'⟩ <;>
    rcases toInt_of_msb hw (~~~b) with ⟨-, hm, hm'⟩ | ⟨-, hm, hm'⟩ <;>
    omega

/-- A difference overflows exactly when the operands have two signs and the
difference does not have that of the minuend. -/
theorem difference_overflow_iff (hw : 0 < w) (a b : BitVec w) {c : Nat} (hc : c ≤ 1) :
    SignedOverflow w (a.toInt - b.toInt - c) ↔
      a.msb ≠ b.msb ∧ (a - b - BitVec.ofNat w c).msb ≠ a.msb := by
  -- it is the sum with the complement and the complementary carry
  have hbit : BitVec.ofNat w (1 - c) = 1 - BitVec.ofNat w c := by
    rcases Nat.le_one_iff_eq_zero_or_eq_one.mp hc with rfl | rfl
    · exact (sub_zero _).symm
    · exact (sub_self _).symm
  have hword : a + ~~~b + BitVec.ofNat w (1 - c) = a - b - BitVec.ofNat w c := by
    have hnot : ~~~b = -b - 1 := BitVec.not_eq_neg_add b
    rw [hbit, hnot]
    ring
  have hint : a.toInt + (~~~b).toInt + ((1 - c : Nat) : Int) = a.toInt - b.toInt - c := by
    rw [toInt_not hw]
    omega
  rw [← hword, ← hint, sum_overflow_iff hw a (~~~b) (by omega), BitVec.msb_not, decide_eq_true hw,
    Bool.true_and]
  cases a.msb <;> cases b.msb <;> simp

/-- A difference has the sign of the minuend exactly when the exact value
is in the minuend's half of the range. -/
theorem msb_difference_eq_iff (hw : 0 < w) (a b : BitVec w) {c : Nat} (hc : c ≤ 1) :
    (a - b - BitVec.ofNat w c).msb = a.msb ↔
      (0 ≤ a.toInt → 0 ≤ a.toInt - b.toInt - c ∧ a.toInt - b.toInt - c < 2 ^ (w - 1)) ∧
      (a.toInt < 0 → -2 ^ (w - 1) ≤ a.toInt - b.toInt - c ∧ a.toInt - b.toInt - c < 0) := by
  have hs := toNat_difference hw a b hc
  have hpow := two_pow_eq hw
  have hr := (a - b - BitVec.ofNat w c).isLt
  have hcast : ((2 ^ (w - 1) : Nat) : Int) = 2 ^ (w - 1) := Nat.cast_pow 2 (w - 1)
  rw [← hcast]
  rcases toInt_of_msb hw a with ⟨ha, ha', ha''⟩ | ⟨ha, ha', ha''⟩ <;>
    rcases toInt_of_msb hw b with ⟨-, hb', hb''⟩ | ⟨-, hb', hb''⟩ <;>
    rcases toInt_of_msb hw (a - b - BitVec.ofNat w c) with ⟨hm, hm', -⟩ | ⟨hm, hm', -⟩ <;>
    rw [ha, hm, ha'', hb''] <;>
    generalize 2 ^ (w - 1) = half at * <;>
    simp only [Bool.true_eq_false, Bool.false_eq_true, true_iff, false_iff] <;>
    omega

/-! ## Words in a row -/

theorem toNat_append {m n : Nat} (x : BitVec m) (y : BitVec n) :
    (x ++ y).toNat = x.toNat * 2 ^ n + y.toNat := by
  rw [BitVec.toNat_append, Nat.shiftLeft_eq, Nat.mul_comm, ← Nat.two_pow_add_eq_or_of_lt y.isLt]

/-- The high word of a difference pays for the borrow of the low one. -/
theorem append_sub_append {m n : Nat} (hm : 0 < m) (hn : 0 < n) (xh yh : BitVec m)
    (xl yl : BitVec n) :
    (xh ++ xl) - (yh ++ yl)
      = (xh - yh - BitVec.ofNat m (if xl.toNat < yl.toNat then 1 else 0)) ++ (xl - yl) := by
  rw [sub_eq_iff_eq_add]
  refine BitVec.eq_of_toNat_eq ?_
  have hborrow : ∃ β : Nat, (if xl.toNat < yl.toNat then 1 else 0) = β ∧ β ≤ 1 ∧
      (xl - yl).toNat + yl.toNat = xl.toNat + β * 2 ^ n := by
    have hlow := toNat_difference hn xl yl (c := 0) (by decide)
    rw [show xl - yl - BitVec.ofNat n 0 = xl - yl from sub_zero _] at hlow
    have hlt := (xl - yl).isLt
    split
    · exact ⟨1, rfl, le_refl 1, by omega⟩
    · exact ⟨0, rfl, by decide, by omega⟩
  obtain ⟨β, hβ, hβ1, hlow⟩ := hborrow
  have hhigh : ∃ k, (xh - yh - BitVec.ofNat m β).toNat + yh.toNat + β = xh.toNat + k * 2 ^ m := by
    rcases toNat_difference hm xh yh hβ1 with h | ⟨h, -⟩
    · exact ⟨0, by omega⟩
    · exact ⟨1, by omega⟩
  obtain ⟨k, hhigh⟩ := hhigh
  have hx := (xh ++ xl).isLt
  rw [hβ, BitVec.toNat_add, toNat_append, toNat_append, toNat_append]
  rw [toNat_append] at hx
  generalize (xh - yh - BitVec.ofNat m β).toNat = rh at hhigh ⊢
  generalize (xl - yl).toNat = rl at hlow ⊢
  have hsum : rh * 2 ^ n + rl + (yh.toNat * 2 ^ n + yl.toNat)
      = xh.toNat * 2 ^ n + xl.toNat + k * 2 ^ (m + n) := by
    calc rh * 2 ^ n + rl + (yh.toNat * 2 ^ n + yl.toNat)
        = (rh + yh.toNat) * 2 ^ n + (rl + yl.toNat) := by ring
      _ = (rh + yh.toNat + β) * 2 ^ n + xl.toNat := by rw [hlow]; ring
      _ = xh.toNat * 2 ^ n + xl.toNat + k * 2 ^ (m + n) := by rw [hhigh, pow_add]; ring
  rw [hsum, Nat.add_mul_mod_self_right, Nat.mod_eq_of_lt hx]

/-! ## Sign extension -/

/-- A sign bit is tested by a mask of that bit alone. -/
theorem and_twoPow_ne_zero_iff (hw : 0 < w) (x : BitVec w) :
    x &&& BitVec.twoPow w (w - 1) ≠ 0#w ↔ x.msb = true := by
  rw [BitVec.and_twoPow, ← BitVec.msb_eq_getLsbD_last]
  cases hx : x.msb with
  | false => simp only [Bool.false_eq_true, if_false, ne_eq, not_true]
  | true =>
      have hbit := BitVec.getLsbD_twoPow (w := w) (w - 1) (w - 1)
      refine iff_of_true (fun hz => ?_) rfl
      rw [if_pos rfl] at hz
      rw [hz, BitVec.getLsbD_zero, decide_eq_true (show w - 1 < w by omega), Bool.true_and,
        decide_eq_true (Eq.refl (w - 1))] at hbit
      cases hbit

/-- Extending a sign by setting the high bits. -/
theorem signExtend_eq_or {v : Nat} (x : BitVec w) {high : BitVec v}
    (hhigh : ∀ j < v, high.getLsbD j = decide (w ≤ j)) :
    (if x.msb = true then high else 0#v) ||| x.setWidth v = x.signExtend v := by
  refine BitVec.eq_of_getLsbD_eq ?_
  intro j hj
  rw [BitVec.getLsbD_or, BitVec.getLsbD_setWidth, BitVec.getLsbD_signExtend, decide_eq_true hj,
    Bool.true_and, Bool.true_and]
  by_cases hjw : j < w
  · cases x.msb with
    | false => rw [if_neg Bool.false_ne_true, BitVec.getLsbD_zero, Bool.false_or, if_pos hjw]
    | true =>
        rw [if_pos rfl, hhigh j hj, decide_eq_false (Nat.not_le.mpr hjw), Bool.false_or,
          if_pos hjw]
  · rw [BitVec.getLsbD_of_ge x j (Nat.not_lt.mp hjw), Bool.or_false, if_neg hjw]
    cases x.msb with
    | false => rw [if_neg Bool.false_ne_true, BitVec.getLsbD_zero]
    | true => rw [if_pos rfl, hhigh j hj, decide_eq_true (Nat.not_lt.mp hjw)]

/-- Setting every bit from the `n`-th on leaves the number below them. -/
theorem toNat_or_high {m n : Nat} (x : BitVec (m + n)) {high : BitVec (m + n)}
    (hhigh : ∀ j < m + n, high.getLsbD j = decide (n ≤ j)) :
    (x ||| high).toNat = (2 ^ m - 1) * 2 ^ n + x.toNat % 2 ^ n := by
  have happend : x ||| high = BitVec.allOnes m ++ x.setWidth n := by
    refine BitVec.eq_of_getLsbD_eq ?_
    intro j hj
    rw [BitVec.getLsbD_or, BitVec.getLsbD_append, hhigh j hj, BitVec.getLsbD_setWidth,
      BitVec.getLsbD_allOnes]
    by_cases hjn : j < n
    · simp only [hjn, decide_true, Nat.not_le.mpr hjn, decide_false, Bool.or_false, if_true,
        Bool.true_and]
    · simp only [hjn, Nat.not_lt.mp hjn, decide_true, Bool.or_true, if_false,
        show j - n < m by omega]
  rw [happend, toNat_append, BitVec.toNat_allOnes, BitVec.toNat_setWidth]

end WordArith
