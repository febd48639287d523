/-
What `printf` writes can be told apart.

`%d` and `%0kX` write different texts for different numbers, and a field
that does not contain the character behind it ends there
(`append_cons_cancel`).  So what a format has written gives its arguments
back, one after the other.
-/
import Armator.Lib.CText

namespace CText

/-! ## Decimal numbers -/

/-- `%u` -/
def decimalText (n : ℕ) : Text :=
  if n < 10 then [hexDigit n] else decimalText (n / 10) ++ [hexDigit (n % 10)]

theorem digitValue_ten_hexDigit {d : ℕ} (hd : d < 10) : digitValue 10 (hexDigit d) = some d := by
  interval_cases d <;> rfl

/-- What is written reads back. -/
theorem number_decimalText (n : ℕ) : number 10 (decimalText n) = n := by
  induction n using Nat.strong_induction_on with
  | _ n ih =>
      rw [decimalText]
      split_ifs with hn
      · rw [← List.nil_append [hexDigit n], number_append, digitValue_ten_hexDigit hn]
        show 10 * 0 + n = n
        omega
      · rw [number_append, ih (n / 10) (by omega),
          digitValue_ten_hexDigit (Nat.mod_lt n (by decide)), Option.getD_some]
        exact Nat.div_add_mod n 10

theorem decimalText_injective : Function.Injective decimalText :=
  Function.LeftInverse.injective number_decimalText

theorem isDigit_of_mem_decimalText {n : ℕ} {c : BitVec 8} (hc : c ∈ decimalText n) :
    isDigit 10 c = true := by
  induction n using Nat.strong_induction_on with
  | _ n ih =>
      have hdigit : ∀ d < 10, c ∈ [hexDigit d] → isDigit 10 c = true := by
        intro d hd hc
        rw [List.mem_singleton.mp hc, isDigit, digitValue_ten_hexDigit hd]
        rfl
      rw [decimalText] at hc
      split_ifs at hc with hn
      · exact hdigit n hn hc
      · rcases List.mem_append.mp hc with hc | hc
        · exact ih (n / 10) (by omega) hc
        · exact hdigit (n % 10) (Nat.mod_lt n (by decide)) hc

/-- `%d` of an `int`. -/
def signedText (x : BitVec 32) : Text :=
  if x.toInt < 0 then ch '-' :: decimalText x.toInt.natAbs else decimalText x.toInt.natAbs

theorem signedText_mem {x : BitVec 32} {c : BitVec 8} (hc : c ∈ signedText x) :
    c = ch '-' ∨ isDigit 10 c = true := by
  unfold signedText at hc
  split_ifs at hc
  · rcases List.mem_cons.mp hc with hc | hc
    · exact .inl hc
    · exact .inr (isDigit_of_mem_decimalText hc)
  · exact .inr (isDigit_of_mem_decimalText hc)

theorem signedText_injective : Function.Injective signedText := by
  intro x y hxy
  have hminus : ∀ n s, ch '-' :: s ≠ decimalText n := by
    intro n s hs
    have hc : ch '-' ∈ decimalText n := hs ▸ List.mem_cons_self
    exact absurd (isDigit_of_mem_decimalText hc) (by decide)
  refine BitVec.eq_of_toInt_eq ?_
  unfold signedText at hxy
  split_ifs at hxy with hx hy hy
  · have habs := decimalText_injective (List.cons.inj hxy).2
    omega
  · exact absurd hxy (hminus _ _)
  · exact absurd hxy.symm (hminus _ _)
  · have habs := decimalText_injective hxy
    omega

/-! ## Hexadecimal numbers in upper case -/

/-- `toupper` of a hexadecimal digit. -/
def upper (c : BitVec 8) : BitVec 8 := if ch 'a' ≤ c ∧ c ≤ ch 'f' then c - 0x20 else c

/-- `%0kX` of a value below `16 ^ k`. -/
def upperText (k value : ℕ) : Text := (hexText k value).map upper

@[simp] theorem length_upperText (k value : ℕ) : (upperText k value).length = k := by
  rw [upperText, List.length_map, length_hexText]

theorem digitValue_upper (c : BitVec 8) : digitValue 16 (upper c) = digitValue 16 c := by
  revert c
  decide +kernel

theorem number_upperText (k value : ℕ) : number 16 (upperText k value) = value % 16 ^ k := by
  rw [← number_hexText k value, upperText, number, List.foldl_map, number]
  simp only [digitValue_upper]

theorem upperText_inj {k v v' : ℕ} (hv : v < 16 ^ k) (hv' : v' < 16 ^ k)
    (heq : upperText k v = upperText k v') : v = v' := by
  have hnumber := congrArg (number 16) heq
  rwa [number_upperText, number_upperText, Nat.mod_eq_of_lt hv, Nat.mod_eq_of_lt hv'] at hnumber

/-! ## Fields -/

/-- A field ends where the character behind it stands first. -/
theorem append_cons_cancel {α : Type*} {sep : α} {s s' rest rest' : List α} (hs : sep ∉ s)
    (hs' : sep ∉ s') (heq : s ++ sep :: rest = s' ++ sep :: rest') : s = s' ∧ rest = rest' := by
  induction s generalizing s' with
  | nil =>
      cases s' with
      | nil => exact ⟨rfl, (List.cons.inj heq).2⟩
      | cons c s' => exact absurd ((List.cons.inj heq).1 ▸ List.mem_cons_self) hs'
  | cons c s ih =>
      cases s' with
      | nil => exact absurd ((List.cons.inj heq).1 ▸ List.mem_cons_self) hs
      | cons c' s' =>
          obtain ⟨rfl, htail⟩ := List.cons.inj heq
          obtain ⟨rfl, hrest⟩ := ih (fun hc => hs (List.mem_cons_of_mem _ hc))
            (fun hc => hs' (List.mem_cons_of_mem _ hc)) htail
          exact ⟨rfl, hrest⟩

end CText
