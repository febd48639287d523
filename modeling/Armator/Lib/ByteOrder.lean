/-
Numbers as sequences of bytes, in the two byte orders.

`ofBytes b` is the `8n`-bit number whose bytes, least significant first,
are `b 0`, …, `b (n-1)`; `toBytes` takes a number apart again.  The other
byte order is the same sequence reversed: `b ∘ Fin.rev`.
-/
import Mathlib.Data.Nat.Digits.Defs
import Mathlib.Data.Nat.Digits.Lemmas
import Mathlib.Data.List.OfFn

namespace ByteOrder

/-- Byte `i` of a number, the least significant byte being byte 0. -/
def toBytes {n : Nat} (x : BitVec (8 * n)) (i : Fin n) : BitVec 8 :=
  x.extractLsb' (8 * i) 8

/-- The number whose bytes, least significant first, are `b`. -/
def ofBytes {n : Nat} (b : Fin n → BitVec 8) : BitVec (8 * n) :=
  BitVec.ofNat (8 * n) (Nat.ofDigits 256 (List.ofFn fun i => (b i).toNat))

/-! ## The digits of a number -/

/-- The `n` low base-256 digits of `x` are the digits of `x % 256 ^ n`. -/
theorem ofDigits_ofFn_div (n x : Nat) :
    Nat.ofDigits 256 (List.ofFn fun i : Fin n => x / 256 ^ (i : Nat) % 256)
      = x % 256 ^ n := by
  induction n generalizing x with
  | zero => simp [Nat.mod_one]
  | succ n ih =>
      rw [List.ofFn_succ, Nat.ofDigits_cons]
      have hshift : (fun i : Fin n => x / 256 ^ (i.succ : Nat) % 256)
          = fun i : Fin n => x / 256 / 256 ^ (i : Nat) % 256 := by
        funext i
        rw [Fin.val_succ, pow_succ', Nat.div_div_eq_div_mul]
      rw [hshift, ih (x / 256), Fin.val_zero, pow_zero, Nat.div_one, pow_succ',
        Nat.mod_mul]

theorem ofDigits_ofFn_lt {n : Nat} (b : Fin n → BitVec 8) :
    Nat.ofDigits 256 (List.ofFn fun i => (b i).toNat) < 2 ^ (8 * n) := by
  have h := Nat.ofDigits_lt_base_pow_length (b := 256)
    (l := List.ofFn fun i => (b i).toNat) (by decide) (by
      intro x hx
      obtain ⟨i, rfl⟩ := List.mem_ofFn.mp hx
      exact (b i).isLt)
  rwa [List.length_ofFn, show (256 : Nat) = 2 ^ 8 from rfl, ← pow_mul] at h

/-! ## Taking apart and putting together -/

theorem toNat_ofBytes {n : Nat} (b : Fin n → BitVec 8) :
    (ofBytes b).toNat = Nat.ofDigits 256 (List.ofFn fun i => (b i).toNat) := by
  rw [ofBytes, BitVec.toNat_ofNat, Nat.mod_eq_of_lt (ofDigits_ofFn_lt b)]

theorem toNat_toBytes {n : Nat} (x : BitVec (8 * n)) (i : Fin n) :
    (toBytes x i).toNat = x.toNat / 256 ^ (i : Nat) % 256 := by
  rw [toBytes, BitVec.extractLsb'_toNat, Nat.shiftRight_eq_div_pow, pow_mul]
  rfl

@[simp] theorem ofBytes_toBytes {n : Nat} (x : BitVec (8 * n)) :
    ofBytes (toBytes x) = x := by
  refine BitVec.eq_of_toNat_eq ?_
  have hx : x.toNat < 256 ^ n := by
    have h := x.isLt
    rwa [pow_mul] at h
  simp only [toNat_ofBytes, toNat_toBytes]
  rw [ofDigits_ofFn_div, Nat.mod_eq_of_lt hx]

/-- What is put together comes apart again. -/
theorem toBytes_ofBytes {n : Nat} (b : Fin n → BitVec 8) : toBytes (ofBytes b) = b := by
  funext i
  refine BitVec.eq_of_toNat_eq ?_
  have hdigits : ∀ d ∈ List.ofFn fun i => (b i).toNat, d < 256 := by
    intro d hd
    obtain ⟨j, rfl⟩ := List.mem_ofFn.mp hd
    exact (b j).isLt
  have hi : i.val < (List.ofFn fun i => (b i).toNat).length := by
    rw [List.length_ofFn]
    exact i.isLt
  rw [toNat_toBytes, toNat_ofBytes,
    Nat.ofDigits_div_pow_eq_ofDigits_drop i.val (by decide) _ hdigits,
    List.drop_eq_getElem_cons hi, Nat.ofDigits_cons, Nat.add_mul_mod_self_left, List.getElem_ofFn]
  exact Nat.mod_eq_of_lt (b i).isLt

/-! ## Choosing the byte order -/

/-- A sequence of bytes read forwards, or backwards when `rev` is set. -/
def orient {n : Nat} (rev : Bool) (b : Fin n → BitVec 8) : Fin n → BitVec 8 :=
  if rev then b ∘ Fin.rev else b

@[simp] theorem orient_false {n : Nat} (b : Fin n → BitVec 8) : orient false b = b := rfl

/-- Turning twice is turning when exactly one of the two turns. -/
@[simp] theorem orient_orient {n : Nat} (r r' : Bool) (b : Fin n → BitVec 8) :
    orient r (orient r' b) = orient (r ^^ r') b := by
  cases r <;> cases r' <;> funext i <;> simp [orient]

/-! ## Single bytes -/

theorem orient_one (rev : Bool) (b : Fin 1 → BitVec 8) : orient rev b = b := by
  funext i
  rw [Subsingleton.elim i 0]
  cases rev <;> rfl

theorem toBytes_one (x : BitVec 8) : toBytes (n := 1) x = fun _ => x := by
  funext i
  rw [Subsingleton.elim i 0]
  refine BitVec.eq_of_toNat_eq ?_
  rw [toNat_toBytes, Fin.val_zero, pow_zero, Nat.div_one]
  exact Nat.mod_eq_of_lt x.isLt

end ByteOrder
