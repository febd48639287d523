/-
C text: the strings of a C program and the library functions on them.

A pointer into text is the list of bytes from it on; past the end of the
list it is taken to read NUL, the end of a string.  Of `sscanf` there are
the conversion `%x`, with or without a width, and literal characters; of
`snprintf` the conversion `%0kx`.

A number that `%x` reads is an `unsigned long` of 64 bits, which is then
stored in an object that may be smaller; a number that does not fit even
there is the greatest one, as for `strtoul`.
-/
import Mathlib.Data.BitVec
import Mathlib.Tactic.IntervalCases
import Mathlib.Tactic.Ring

namespace CText

/-- The bytes from a pointer on. -/
abbrev Text := List (BitVec 8)

/-- A character constant. -/
def ch (c : Char) : BitVec 8 := BitVec.ofNat 8 c.toNat

/-- The bytes of a string constant, without its NUL. -/
def bytes (s : String) : Text := s.toList.map ch

/-! ## Strings -/

/-- The string at a pointer, without its NUL. -/
def cString (s : Text) : Text := s.takeWhile fun c => decide (c ≠ 0)

theorem cString_append {s : Text} (hs : (0 : BitVec 8) ∉ s) (rest : Text) :
    cString (s ++ 0 :: rest) = s := by
  have hall : ∀ c ∈ s, decide (c ≠ 0) = true := by
    intro c hc
    exact decide_eq_true fun h0 => hs (h0 ▸ hc)
  rw [cString, List.takeWhile_append_of_pos hall]
  simp

/-- `index`: a pointer to the first `c` of a string, if it has one. -/
def index (c : BitVec 8) : Text → Option Text
  | [] => none
  | x :: s => if x = c then some (x :: s) else if x = 0 then none else index c s

theorem index_append {c : BitVec 8} {s : Text} (hc : c ∉ s) (h0 : (0 : BitVec 8) ∉ s)
    (rest : Text) : index c (s ++ c :: rest) = some (c :: rest) := by
  induction s with
  | nil => rw [List.nil_append, index, if_pos rfl]
  | cons x s ih =>
      rw [List.mem_cons, not_or] at hc h0
      rw [List.cons_append, index, if_neg (Ne.symm hc.1), if_neg (Ne.symm h0.1), ih hc.2 h0.2]

/-- What `index` finds is in the string: no NUL lies before it. -/
theorem index_eq_some {c : BitVec 8} {s found : Text} (h : index c s = some found) :
    ∃ front rest, s = front ++ found ∧ found = c :: rest ∧ (0 : BitVec 8) ∉ front := by
  induction s with
  | nil => cases h
  | cons x s ih =>
      rw [index] at h
      split_ifs at h with hx h0
      · obtain rfl := Option.some.inj h
        exact ⟨[], s, rfl, by rw [hx], List.not_mem_nil⟩
      · obtain ⟨front, rest, rfl, hfound, hfront⟩ := ih h
        refine ⟨x :: front, rest, rfl, hfound, ?_⟩
        rw [List.mem_cons, not_or]
        exact ⟨Ne.symm h0, hfront⟩

/-! ## Reading numbers -/

/-- `isspace` -/
def isSpace (c : BitVec 8) : Bool := decide (c = 0x20 ∨ 0x09 ≤ c ∧ c ≤ 0x0d)

/-- The value of a digit in a base up to 16. -/
def digitValue (base : Nat) (c : BitVec 8) : Option Nat :=
  let d :=
    if 0x30 ≤ c ∧ c ≤ 0x39 then c.toNat - 0x30
    else if 0x41 ≤ c ∧ c ≤ 0x46 then c.toNat - 0x37
    else if 0x61 ≤ c ∧ c ≤ 0x66 then c.toNat - 0x57
    else base
  if d < base then some d else none

theorem digitValue_lt {base : Nat} {c : BitVec 8} {d : Nat} (h : digitValue base c = some d) :
    d < base := by
  simp only [digitValue, Option.ite_none_right_eq_some, Option.some.injEq] at h
  obtain ⟨hlt, rfl⟩ := h
  exact hlt

def isDigit (base : Nat) (c : BitVec 8) : Bool := (digitValue base c).isSome

/-- The number that digits write, the most significant first. -/
def number (base : Nat) (digits : Text) : Nat :=
  digits.foldl (fun n c => base * n + (digitValue base c).getD 0) 0

/-- An optional sign, and the text after it. -/
def scanSign : Text → Bool × Text
  | [] => (false, [])
  | c :: s => if c = ch '-' then (true, s) else if c = ch '+' then (false, s) else (false, c :: s)

/-- The text after an optional `0x` or `0X`. -/
def skipHexPrefix : Text → Text
  | c :: x :: s => if c = ch '0' ∧ (x = ch 'x' ∨ x = ch 'X') then s else c :: x :: s
  | s => s

/-- The `unsigned long` that a sign and digits write. -/
def unsignedLong (neg : Bool) (magnitude : Nat) : BitVec 64 :=
  if magnitude < 2 ^ 64 then
    if neg then -BitVec.ofNat 64 magnitude else BitVec.ofNat 64 magnitude
  else BitVec.allOnes 64

/-- `%x` with an optional width: what it reads, and the text after it. -/
def scanHex (width : Option Nat) (s : Text) : Option (BitVec 64 × Text) :=
  let s := s.dropWhile isSpace
  let item := match width with
    | some w => s.take w
    | none => s
  let (neg, unsigned) := scanSign item
  let number₀ := skipHexPrefix unsigned
  let digits := number₀.takeWhile (isDigit 16)
  if digits = [] then none
  else some (unsignedLong neg (number 16 digits),
    s.drop (item.length - number₀.length + digits.length))

/-- The directives of a `sscanf` format. -/
inductive Directive where
  | hex (width : Option Nat)
  | literal (c : BitVec 8)

/-- `sscanf`: the numbers read, in order, up to the first directive that
does not match. -/
def sscanf : List Directive → Text → List (BitVec 64)
  | [], _ => []
  | .hex width :: format, s =>
      match scanHex width s with
      | some (value, s) => value :: sscanf format s
      | none => []
  | .literal c :: format, s =>
      match s with
      | x :: s => if x = c then sscanf format s else []
      | [] => []

/-- `atoi`: `strtol` in base 10, cut to an `int`. -/
def atoi (s : Text) : BitVec 32 :=
  let (neg, unsigned) := scanSign (s.dropWhile isSpace)
  let magnitude := number 10 (unsigned.takeWhile (isDigit 10))
  BitVec.ofInt 32
    (if neg then max (-(magnitude : Int)) (-2 ^ 63) else min (magnitude : Int) (2 ^ 63 - 1))

/-! ## Writing numbers -/

/-- A hexadecimal digit in lower case. -/
def hexDigit (d : Nat) : BitVec 8 :=
  if d < 10 then BitVec.ofNat 8 (0x30 + d) else BitVec.ofNat 8 (0x57 + d)

/-- `%0kx` of a value below `16 ^ k`. -/
def hexText : Nat → Nat → Text
  | 0, _ => []
  | k + 1, value => hexText k (value / 16) ++ [hexDigit (value % 16)]

@[simp] theorem length_hexText (k value : Nat) : (hexText k value).length = k := by
  induction k generalizing value with
  | zero => rfl
  | succ k ih => rw [hexText, List.length_append, ih, List.length_singleton]

theorem digitValue_hexDigit {d : Nat} (hd : d < 16) : digitValue 16 (hexDigit d) = some d := by
  interval_cases d <;> rfl

theorem number_append (base : Nat) (digits : Text) (c : BitVec 8) :
    number base (digits ++ [c]) = base * number base digits + (digitValue base c).getD 0 := by
  rw [number, List.foldl_append]
  rfl

theorem number_lt {base : Nat} {digits : Text} (hd : ∀ c ∈ digits, isDigit base c = true) :
    number base digits < base ^ digits.length := by
  induction digits using List.reverseRecOn with
  | nil => exact Nat.one_pos
  | append_singleton digits c ih =>
      obtain ⟨d, hc⟩ := Option.isSome_iff_exists.mp (hd c (by simp))
      have hlt := digitValue_lt hc
      have hle : number base digits + 1 ≤ base ^ digits.length :=
        ih fun c hc => hd c (List.mem_append_left _ hc)
      rw [number_append, hc, Option.getD_some, List.length_append, List.length_singleton, pow_succ]
      calc base * number base digits + d < base * number base digits + base := by omega
        _ = (number base digits + 1) * base := by ring
        _ ≤ base ^ digits.length * base := Nat.mul_le_mul_right _ hle

/-- What is written reads back. -/
theorem number_hexText (k value : Nat) : number 16 (hexText k value) = value % 16 ^ k := by
  induction k generalizing value with
  | zero => rw [pow_zero, Nat.mod_one]; rfl
  | succ k ih =>
      rw [hexText, number_append, ih, digitValue_hexDigit (Nat.mod_lt _ (by decide)),
        Option.getD_some, pow_succ', Nat.mod_mul, Nat.add_comm]

theorem isDigit_of_mem_hexText {k value : Nat} {c : BitVec 8} (hc : c ∈ hexText k value) :
    isDigit 16 c = true := by
  induction k generalizing value with
  | zero => exact absurd hc List.not_mem_nil
  | succ k ih =>
      rcases List.mem_append.mp hc with hc | hc
      · exact ih hc
      · rw [List.mem_singleton.mp hc, isDigit, digitValue_hexDigit (Nat.mod_lt _ (by decide))]
        rfl

/-- Numbers below `16 ^ k` are told apart by their text. -/
theorem hexText_inj {k v v' : Nat} (hv : v < 16 ^ k) (hv' : v' < 16 ^ k) :
    hexText k v = hexText k v' ↔ v = v' := by
  constructor
  · intro h
    have := congrArg (number 16) h
    rwa [number_hexText, number_hexText, Nat.mod_eq_of_lt hv, Nat.mod_eq_of_lt hv'] at this
  · rintro rfl
    rfl

/-! ## Fields of one width -/

theorem length_fields {k : Nat} {fields : List Text} (hk : ∀ f ∈ fields, f.length = k) :
    fields.flatten.length = k * fields.length := by
  induction fields with
  | nil => rfl
  | cons f fields ih =>
      rw [List.flatten_cons, List.length_append, hk f List.mem_cons_self,
        ih fun g hg => hk g (List.mem_cons_of_mem f hg), List.length_cons, Nat.mul_succ,
        Nat.add_comm]

/-- Field `i` is found by counting. -/
theorem drop_fields {k : Nat} {fields : List Text} (hk : ∀ f ∈ fields, f.length = k) {i : Nat}
    (hi : i < fields.length) :
    fields.flatten.drop (k * i) = fields[i] ++ (fields.drop (i + 1)).flatten := by
  induction fields generalizing i with
  | nil => exact absurd hi (Nat.not_lt_zero i)
  | cons f fields ih =>
      have hf := hk f List.mem_cons_self
      cases i with
      | zero => rfl
      | succ i =>
          have hi' : i < fields.length := Nat.lt_of_succ_lt_succ hi
          have hlen : k * (i + 1) = f.length + k * i := by rw [hf, Nat.mul_succ, Nat.add_comm]
          rw [List.flatten_cons, hlen, List.drop_append, List.drop_eq_nil_of_le (by omega),
            List.nil_append, Nat.add_sub_cancel_left,
            ih (fun g hg => hk g (List.mem_cons_of_mem f hg)) hi']
          rfl

/-! ## Reading a number of digits -/

/-- A digit is neither white space, sign, prefix letter nor separator. -/
structure PlainDigit (c : BitVec 8) : Prop where
  space : isSpace c = false
  minus : c ≠ ch '-'
  plus : c ≠ ch '+'
  x : c ≠ ch 'x'
  X : c ≠ ch 'X'
  nul : c ≠ 0

theorem plainDigit {c : BitVec 8} (hc : isDigit 16 c = true) : PlainDigit c := by
  have hall : ∀ c : BitVec 8, isDigit 16 c = true → isSpace c = false ∧ c ≠ ch '-' ∧
      c ≠ ch '+' ∧ c ≠ ch 'x' ∧ c ≠ ch 'X' ∧ c ≠ 0 := by
    decide +kernel
  obtain ⟨h1, h2, h3, h4, h5, h6⟩ := hall c hc
  exact ⟨h1, h2, h3, h4, h5, h6⟩

/-- Digits, at least one. -/
structure Digits (digits : Text) : Prop where
  ne_nil : digits ≠ []
  all : ∀ c ∈ digits, isDigit 16 c = true

theorem digits_hexText {k : Nat} (hk : k ≠ 0) (value : Nat) : Digits (hexText k value) where
  ne_nil := fun h => hk (by rw [← length_hexText k value, h, List.length_nil])
  all := fun _ hc => isDigit_of_mem_hexText hc

theorem Digits.nul_notMem {digits : Text} (hd : Digits digits) : (0 : BitVec 8) ∉ digits :=
  fun h => (plainDigit (hd.all 0 h)).nul rfl

/-- The text does not go on with the number before it. -/
def EndsNumber (rest : Text) : Prop :=
  ∀ c ∈ rest.head?, isDigit 16 c = false ∧ c ≠ ch 'x' ∧ c ≠ ch 'X'

theorem endsNumber_cons {c : BitVec 8} (rest : Text)
    (h : isDigit 16 c = false ∧ c ≠ ch 'x' ∧ c ≠ ch 'X') : EndsNumber (c :: rest) := by
  intro c' hc'
  rw [List.head?_cons, Option.mem_some_iff] at hc'
  exact hc' ▸ h

/-- No prefix is taken off a number of digits. -/
theorem skipHexPrefix_digits {digits rest : Text} (hd : Digits digits) (hr : EndsNumber rest) :
    skipHexPrefix (digits ++ rest) = digits ++ rest := by
  have hx : ∀ c x s, x ≠ ch 'x' → x ≠ ch 'X' →
      skipHexPrefix (c :: x :: s) = c :: x :: s := by
    intro c x s h1 h2
    rw [skipHexPrefix, if_neg]
    rintro ⟨-, h | h⟩
    · exact h1 h
    · exact h2 h
  cases digits with
  | nil => exact absurd rfl hd.ne_nil
  | cons c digits =>
      cases digits with
      | cons d digits =>
          have hp := plainDigit (hd.all d (by simp))
          exact hx c d (digits ++ rest) hp.x hp.X
      | nil =>
          cases rest with
          | nil => rfl
          | cons d rest =>
              obtain ⟨-, h1, h2⟩ := hr d rfl
              exact hx c d rest h1 h2

/-- No white space is skipped before digits. -/
theorem Digits.dropWhile_isSpace {digits : Text} (hd : Digits digits) (rest : Text) :
    (digits ++ rest).dropWhile isSpace = digits ++ rest := by
  obtain ⟨c, ds, rfl⟩ : ∃ c ds, digits = c :: ds := List.exists_cons_of_ne_nil hd.ne_nil
  have hc := plainDigit (hd.all c List.mem_cons_self)
  rw [List.cons_append, List.dropWhile_cons, if_neg (by rw [hc.space]; decide)]

/-- No sign is taken off digits. -/
theorem Digits.scanSign {digits : Text} (hd : Digits digits) (rest : Text) :
    CText.scanSign (digits ++ rest) = (false, digits ++ rest) := by
  obtain ⟨c, ds, rfl⟩ : ∃ c ds, digits = c :: ds := List.exists_cons_of_ne_nil hd.ne_nil
  have hc := plainDigit (hd.all c List.mem_cons_self)
  rw [List.cons_append, CText.scanSign, if_neg hc.minus, if_neg hc.plus]

theorem EndsNumber.takeWhile {rest : Text} (hr : EndsNumber rest) :
    rest.takeWhile (isDigit 16) = [] := by
  cases rest with
  | nil => rfl
  | cons d rest =>
      rw [List.takeWhile_cons, if_neg]
      rw [(hr d rfl).1]
      decide

/-- `%x` on a number of digits, given what it may look at. -/
theorem scanHex_item {digits rest : Text} (width : Option Nat) (s : Text) (hd : Digits digits)
    (hr : EndsNumber rest)
    (hitem : (match width with | some w => (digits ++ s).take w | none => digits ++ s)
      = digits ++ rest) :
    scanHex width (digits ++ s) = some (unsignedLong false (number 16 digits), s) := by
  have htake : (digits ++ rest).takeWhile (isDigit 16) = digits := by
    rw [List.takeWhile_append_of_pos hd.all, hr.takeWhile, List.append_nil]
  unfold scanHex
  rw [hd.dropWhile_isSpace]
  simp only [hitem, hd.scanSign, skipHexPrefix_digits hd hr, htake, if_neg hd.ne_nil, Nat.sub_self,
    Nat.zero_add, List.drop_left]

/-- `%x` reads a number up to where it ends. -/
theorem scanHex_digits {digits rest : Text} (hd : Digits digits) (hr : EndsNumber rest) :
    scanHex none (digits ++ rest) = some (unsignedLong false (number 16 digits), rest) :=
  scanHex_item none rest hd hr rfl

/-- `%kx` reads `k` digits, whatever follows them. -/
theorem scanHex_width {digits : Text} {w : Nat} (hd : Digits digits) (hw : digits.length = w)
    (rest : Text) :
    scanHex (some w) (digits ++ rest) = some (unsignedLong false (number 16 digits), rest) := by
  have hr : EndsNumber [] := by
    intro c hc
    cases hc
  refine scanHex_item (some w) rest hd hr ?_
  simp only [List.append_nil]
  exact List.take_left' hw

/-- A number that fits is stored as it is. -/
theorem setWidth_unsignedLong {n m : Nat} (hn : n ≤ 64) (hm : m < 2 ^ n) :
    (unsignedLong false m).setWidth n = BitVec.ofNat n m := by
  have hle : 2 ^ n ≤ 2 ^ 64 := Nat.pow_le_pow_right (by decide) hn
  refine BitVec.eq_of_toNat_eq ?_
  rw [unsignedLong, if_pos (by omega), if_neg Bool.false_ne_true, BitVec.toNat_setWidth,
    BitVec.toNat_ofNat, BitVec.toNat_ofNat, Nat.mod_eq_of_lt (show m < 2 ^ 64 by omega)]

/-! ## Base ten

`atoi` stops at the digits that only `%x` knows. -/

theorem digitValue_ten (c : BitVec 8) : digitValue 10 c = (digitValue 16 c).filter (· < 10) := by
  have hall : ∀ c : BitVec 8, digitValue 10 c = (digitValue 16 c).filter (· < 10) := by
    decide +kernel
  exact hall c

theorem eq_zero_of_digitValue {c : BitVec 8} (hc : digitValue 16 c = some 0) : c = ch '0' := by
  have hall : ∀ c : BitVec 8, digitValue 16 c = some 0 → c = ch '0' := by decide +kernel
  exact hall c hc

theorem number_zeros (base k : Nat) : number base (List.replicate k (ch '0')) = 0 := by
  have hzero : (digitValue base (ch '0')).getD 0 = 0 := by
    show (if 0 < base then some 0 else none).getD 0 = 0
    split <;> rfl
  induction k with
  | zero => rfl
  | succ k ih => rw [List.replicate_succ', number_append, ih, hzero, Nat.mul_zero]

/-- Only zeros write zero. -/
theorem eq_zeros_of_number {digits : Text} (hd : ∀ c ∈ digits, isDigit 16 c = true)
    (h0 : number 16 digits = 0) : digits = List.replicate digits.length (ch '0') := by
  induction digits using List.reverseRecOn with
  | nil => rfl
  | append_singleton digits c ih =>
      obtain ⟨d, hc⟩ := Option.isSome_iff_exists.mp (hd c (by simp))
      rw [number_append, hc, Option.getD_some] at h0
      obtain rfl : d = 0 := by omega
      have hzeros := ih (fun c hc => hd c (List.mem_append_left _ hc)) (by omega)
      rw [List.length_append, List.length_singleton, List.replicate_succ', ← hzeros,
        eq_zero_of_digitValue hc]

/-- A number below 16 is zeros and a digit. -/
theorem Digits.eq_zeros_append {digits : Text} (hd : Digits digits) (hlt : number 16 digits < 16) :
    ∃ k c, digits = List.replicate k (ch '0') ++ [c] ∧
      digitValue 16 c = some (number 16 digits) := by
  obtain ⟨front, c, rfl⟩ : ∃ front c, digits = front ++ [c] :=
    ⟨_, _, (List.dropLast_concat_getLast hd.ne_nil).symm⟩
  obtain ⟨d, hc⟩ := Option.isSome_iff_exists.mp (hd.all c (by simp))
  rw [number_append, hc, Option.getD_some] at hlt ⊢
  have h0 : number 16 front = 0 := by omega
  have hzeros := eq_zeros_of_number (fun c hc => hd.all c (List.mem_append_left _ hc)) h0
  refine ⟨front.length, c, by rw [← hzeros], ?_⟩
  rw [hc, h0, Nat.mul_zero, Nat.zero_add]

theorem EndsNumber.takeWhile_ten {rest : Text} (hr : EndsNumber rest) :
    rest.takeWhile (isDigit 10) = [] := by
  cases rest with
  | nil => rfl
  | cons d rest =>
      have hd : digitValue 16 d = none := Option.isNone_iff_eq_none.mp (by
        rw [← Option.not_isSome, ← isDigit, (hr d rfl).1]
        rfl)
      rw [List.takeWhile_cons, isDigit, digitValue_ten, hd]
      rfl

/-- The decimal digits at the start of a number below 16. -/
theorem number_takeWhile_ten {digits rest : Text} (hd : Digits digits)
    (hlt : number 16 digits < 16) (hr : EndsNumber rest) :
    number 10 ((digits ++ rest).takeWhile (isDigit 10))
      = if number 16 digits < 10 then number 16 digits else 0 := by
  obtain ⟨k, c, hdigits, hc⟩ := hd.eq_zeros_append hlt
  have hzeros : ∀ x ∈ List.replicate k (ch '0'), isDigit 10 x = true := by
    intro x hx
    rw [List.eq_of_mem_replicate hx]
    rfl
  have hsplit : digits ++ rest = List.replicate k (ch '0') ++ c :: rest := by
    rw [hdigits, List.append_assoc, List.singleton_append]
  rw [hsplit, List.takeWhile_append_of_pos hzeros, List.takeWhile_cons, isDigit, digitValue_ten, hc]
  by_cases hten : number 16 digits < 10
  · have hvalue : digitValue 10 c = some (number 16 digits) := by
      rw [digitValue_ten, hc, Option.filter_some, if_pos (decide_eq_true hten)]
    rw [Option.filter_some, if_pos (decide_eq_true hten), Option.isSome_some, if_pos rfl,
      hr.takeWhile_ten, number_append, number_zeros, hvalue, if_pos hten, Nat.mul_zero,
      Nat.zero_add, Option.getD_some]
  · rw [Option.filter_some, if_neg (mt of_decide_eq_true hten), Option.isSome_none,
      if_neg Bool.false_ne_true, List.append_nil, number_zeros, if_neg hten]

/-- What `atoi` makes of a hexadecimal number below 16. -/
theorem atoi_digits {digits rest : Text} (hd : Digits digits) (hlt : number 16 digits < 16)
    (hr : EndsNumber rest) :
    atoi (digits ++ rest)
      = BitVec.ofNat 32 (if number 16 digits < 10 then number 16 digits else 0) := by
  have hmin : ∀ n : Nat, n < 16 → min (n : Int) (2 ^ 63 - 1) = n := by
    intro n hn
    omega
  rw [atoi, hd.dropWhile_isSpace, hd.scanSign]
  simp only [number_takeWhile_ten hd hlt hr, if_neg Bool.false_ne_true]
  rw [hmin _ (by split <;> omega), BitVec.ofInt_natCast]

end CText
