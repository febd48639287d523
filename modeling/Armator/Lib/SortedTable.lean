/-
Sorted tables: the first `n` entries of an array, in increasing order.

The array is a function on indices, and the table the first `n` of them;
what lies behind is of no concern.  The table stands for the set
`f '' Iio n` of its entries.  Three things are done with it:

  * an entry is searched by halving: `Confined` says that an entry can
    only lie between two bounds, and a comparison moves one of them;
  * an entry is inserted where it belongs, the later ones moved up;
  * an entry is removed, the later ones moved down.

Both changes keep the order, and do to the set what their names say.
-/
import Mathlib.Order.Interval.Set.Basic
import Mathlib.Data.Set.Image
import Mathlib.Order.Monotone.Basic

namespace SortedTable

open Set

variable {α : Type*} {f : ℕ → α} {n : ℕ} {a : α}

/-! ## Searching -/

/-- An index that holds `a` lies between `lo` and `hi`. -/
def Confined (f : ℕ → α) (n : ℕ) (a : α) (lo hi : ℕ) : Prop :=
  ∀ i < n, f i = a → lo ≤ i ∧ i < hi

theorem confined_all (f : ℕ → α) (n : ℕ) (a : α) : Confined f n a 0 n :=
  fun i hi _ => ⟨Nat.zero_le i, hi⟩

/-- A smaller entry has the searched one above it. -/
theorem Confined.above [LinearOrder α] (hf : StrictMonoOn f (Iio n)) {lo hi m : ℕ} (hm : m < n)
    (h : f m < a) (hc : Confined f n a lo hi) : Confined f n a (m + 1) hi := by
  intro i hi' hia
  refine ⟨?_, (hc i hi' hia).2⟩
  by_contra hlt
  have hle : f i ≤ f m := hf.monotoneOn hi' hm (by omega)
  rw [hia] at hle
  exact absurd h (not_lt.mpr hle)

/-- A greater entry has the searched one below it. -/
theorem Confined.below [LinearOrder α] (hf : StrictMonoOn f (Iio n)) {lo hi m : ℕ} (hm : m < n)
    (h : a < f m) (hc : Confined f n a lo hi) : Confined f n a lo m := by
  intro i hi' hia
  refine ⟨(hc i hi' hia).1, ?_⟩
  by_contra hlt
  have hle : f m ≤ f i := hf.monotoneOn hm hi' (by omega)
  rw [hia] at hle
  exact absurd h (not_lt.mpr hle)

/-- When the bounds have met, the table does not hold the entry. -/
theorem Confined.notMem {lo hi : ℕ} (h : hi ≤ lo) (hc : Confined f n a lo hi) :
    a ∉ f '' Iio n := by
  rintro ⟨i, hi', hia⟩
  have := hc i hi' hia
  omega

/-! ## Inserting -/

/-- `a` put at index `j`, the entries from there on moved up. -/
def insertAt (f : ℕ → α) (j : ℕ) (a : α) (i : ℕ) : α :=
  if i < j then f i else if i = j then a else f (i - 1)

theorem insertAt_of_lt {i j : ℕ} (h : i < j) : insertAt f j a i = f i := if_pos h

@[simp] theorem insertAt_self (j : ℕ) : insertAt f j a j = a := by
  rw [insertAt, if_neg (lt_irrefl j), if_pos rfl]

theorem insertAt_succ {i j : ℕ} (h : j ≤ i) : insertAt f j a (i + 1) = f i := by
  rw [insertAt, if_neg (by omega), if_neg (by omega), Nat.add_sub_cancel]

/-- `j` is where `a` belongs. -/
structure Fits [LinearOrder α] (f : ℕ → α) (n j : ℕ) (a : α) : Prop where
  le : j ≤ n
  below : ∀ i < j, f i < a
  above : ∀ i, j ≤ i → i < n → a < f i

theorem strictMonoOn_insertAt [LinearOrder α] {j : ℕ} (hf : StrictMonoOn f (Iio n))
    (hj : Fits f n j a) : StrictMonoOn (insertAt f j a) (Iio (n + 1)) := by
  intro i _ k hk hik
  have hk' : k < n + 1 := hk
  have hjn := hj.le
  rcases Nat.lt_trichotomy k j with h | h | h
  · rw [insertAt_of_lt h, insertAt_of_lt (hik.trans h)]
    exact hf (show i < n by omega) (show k < n by omega) hik
  · rw [h, insertAt_self, insertAt_of_lt (h ▸ hik)]
    exact hj.below i (h ▸ hik)
  · obtain ⟨k, rfl⟩ : ∃ k', k = k' + 1 := ⟨k - 1, by omega⟩
    rw [insertAt_succ (by omega)]
    rcases Nat.lt_trichotomy i j with h' | h' | h'
    · rw [insertAt_of_lt h']
      exact hf (show i < n by omega) (show k < n by omega) (by omega)
    · rw [h', insertAt_self]
      exact hj.above k (by omega) (by omega)
    · obtain ⟨i, rfl⟩ : ∃ i', i = i' + 1 := ⟨i - 1, by omega⟩
      rw [insertAt_succ (by omega)]
      exact hf (show i < n by omega) (show k < n by omega) (by omega)

theorem image_insertAt {j : ℕ} (hj : j ≤ n) :
    insertAt f j a '' Iio (n + 1) = insert a (f '' Iio n) := by
  ext b
  constructor
  · rintro ⟨i, hi, rfl⟩
    have hi' : i < n + 1 := hi
    rcases Nat.lt_trichotomy i j with h | h | h
    · exact Or.inr ⟨i, show i < n by omega, (insertAt_of_lt h).symm⟩
    · rw [h]
      exact Or.inl (insertAt_self j)
    · refine Or.inr ⟨i - 1, show i - 1 < n by omega, ?_⟩
      rw [← insertAt_succ (f := f) (a := a) (show j ≤ i - 1 by omega),
        Nat.sub_add_cancel (by omega)]
  · rintro (rfl | ⟨i, hi, rfl⟩)
    · exact ⟨j, show j < n + 1 by omega, insertAt_self j⟩
    · have hi' : i < n := hi
      by_cases h : i < j
      · exact ⟨i, show i < n + 1 by omega, insertAt_of_lt h⟩
      · exact ⟨i + 1, show i + 1 < n + 1 by omega, insertAt_succ (by omega)⟩

/-! ## Removing -/

/-- The entry at index `j` dropped, the later ones moved down. -/
def removeAt (f : ℕ → α) (j : ℕ) (i : ℕ) : α := if i < j then f i else f (i + 1)

theorem removeAt_of_lt {i j : ℕ} (h : i < j) : removeAt f j i = f i := if_pos h

theorem removeAt_of_le {i j : ℕ} (h : j ≤ i) : removeAt f j i = f (i + 1) :=
  if_neg (not_lt.mpr h)

theorem strictMonoOn_removeAt [LinearOrder α] {j : ℕ} (hf : StrictMonoOn f (Iio (n + 1))) :
    StrictMonoOn (removeAt f j) (Iio n) := by
  intro i hi k hk hik
  have hi' : i < n := hi
  have hk' : k < n := hk
  unfold removeAt
  split_ifs
  · exact hf (show i < n + 1 by omega) (show k < n + 1 by omega) hik
  · exact hf (show i < n + 1 by omega) (show k + 1 < n + 1 by omega) (by omega)
  · omega
  · exact hf (show i + 1 < n + 1 by omega) (show k + 1 < n + 1 by omega) (by omega)

theorem image_removeAt [LinearOrder α] {j : ℕ} (hf : StrictMonoOn f (Iio (n + 1)))
    (hj : j < n + 1) : removeAt f j '' Iio n = f '' Iio (n + 1) \ {f j} := by
  ext b
  constructor
  · rintro ⟨i, hi, rfl⟩
    have hi' : i < n := hi
    by_cases h : i < j
    · rw [removeAt_of_lt h]
      exact ⟨⟨i, show i < n + 1 by omega, rfl⟩,
        (hf (show i < n + 1 by omega) hj h).ne⟩
    · rw [removeAt_of_le (by omega)]
      exact ⟨⟨i + 1, show i + 1 < n + 1 by omega, rfl⟩,
        (hf hj (show i + 1 < n + 1 by omega) (by omega)).ne'⟩
  · rintro ⟨⟨i, hi, rfl⟩, hne⟩
    have hi' : i < n + 1 := hi
    rcases Nat.lt_trichotomy i j with h | h | h
    · exact ⟨i, show i < n by omega, removeAt_of_lt h⟩
    · exact absurd (congrArg f h) hne
    · refine ⟨i - 1, show i - 1 < n by omega, ?_⟩
      rw [removeAt_of_le (by omega), Nat.sub_add_cancel (by omega)]

end SortedTable
