/-
The breakpoint table of `gdb_protocol.c`.

The table is an array of 1024 addresses of which the first
`breakpoints_number` are in use, kept in increasing order: a breakpoint is
found by halving, and set or cleared by moving what lies above it.  An
index is a number here, and using one outside the array is an outcome of
its own, so that "no index outside the array" is something to prove.
-/
import Armator.Instruction
import Armator.Lib.Replay
import Armator.Lib.SortedTable

namespace Armator

open Set SortedTable Replay

/-- Why a function of the gdb server does not return. -/
inductive NoReturn where
  /-- the simulated instruction does not -/
  | fault (f : Fault)
  /-- an `assert` of the server fails -/
  | assertion
  /-- the result of an `index` that found nothing is dereferenced -/
  | nullIndex
  /-- an array is used outside its bounds -/
  | outOfBounds
  /-- something is sent on a connection that has been shut -/
  | connectionShut
  /-- the turns given to the loop of `cont` are used up, and it goes on -/
  | running
deriving DecidableEq

/-! ## The table -/

abbrev MAX_BREAKPOINTS_NUMBER : Nat := 1024

/-- `breakpoints` and `breakpoints_number` of `struct gdb_protocol_data` -/
structure BreakpointTable where
  breakpoints : Fin MAX_BREAKPOINTS_NUMBER → Word
  breakpointsNumber : Nat

/-- `gdb->breakpoints[i]` -/
def BreakpointTable.get (t : BreakpointTable) (i : Nat) : Except NoReturn Word :=
  if h : i < MAX_BREAKPOINTS_NUMBER then .ok (t.breakpoints ⟨i, h⟩) else .error .outOfBounds

/-- `gdb->breakpoints[i] = address` -/
def BreakpointTable.set (t : BreakpointTable) (i : Nat) (address : Word) :
    Except NoReturn BreakpointTable :=
  if h : i < MAX_BREAKPOINTS_NUMBER then
    .ok { t with breakpoints := Function.update t.breakpoints ⟨i, h⟩ address }
  else .error .outOfBounds

/-- The loop of `gdb_find_breakpoint`. -/
def findLoop (t : BreakpointTable) (address : Word) (begin «end» : Nat) : Except NoReturn Int :=
  if begin < «end» then do
    let middle := (begin + «end») >>> 1
    let breakpoint ← t.get middle
    if breakpoint > address then findLoop t address begin middle
    else if breakpoint < address then findLoop t address (middle + 1) «end»
    else return middle
  else return -1
termination_by «end» - begin
decreasing_by all_goals (simp only [Nat.shiftRight_one]; omega)

/-- `gdb_find_breakpoint` -/
def gdbFindBreakpoint (t : BreakpointTable) (address : Word) : Except NoReturn Int :=
  findLoop t address 0 t.breakpointsNumber

/-- The loop of `gdb_add_breakpoint`, which moves greater addresses up: the
index it ends at, and the table. -/
def addLoop (t : BreakpointTable) (address : Word) : Nat → Except NoReturn (Nat × BreakpointTable)
  | 0 => return (0, t)
  | j + 1 => do
      let breakpoint ← t.get j
      if breakpoint > address then
        let t ← t.set (j + 1) breakpoint
        addLoop t address j
      else return (j + 1, t)

/-- `gdb_add_breakpoint` -/
def gdbAddBreakpoint (t : BreakpointTable) (address : Word) :
    Except NoReturn (Int × BreakpointTable) :=
  if t.breakpointsNumber < MAX_BREAKPOINTS_NUMBER then do
    if (← gdbFindBreakpoint t address) ≠ -1 then return (1, t)
    else
      let j := t.breakpointsNumber
      let t := { t with breakpointsNumber := t.breakpointsNumber + 1 }
      let (j, t) ← addLoop t address j
      let t ← t.set j address
      return (1, t)
  else return (0, t)

/-- The loop of `gdb_remove_breakpoint`, over `count` indices from `j` on. -/
def removeLoop (t : BreakpointTable) (j : Nat) : Nat → Except NoReturn BreakpointTable
  | 0 => return t
  | count + 1 => do
      let breakpoint ← t.get (j + 1)
      let t ← t.set j breakpoint
      removeLoop t (j + 1) count

/-- `gdb_remove_breakpoint` -/
def gdbRemoveBreakpoint (t : BreakpointTable) (address : Word) :
    Except NoReturn (Int × BreakpointTable) := do
  let position ← gdbFindBreakpoint t address
  if position = -1 then return (0, t)
  else
    let position := position.toNat
    let last := t.breakpointsNumber - 1
    let t := { t with breakpointsNumber := last }
    let t ← removeLoop t position (last - position)
    return (1, t)

@[simp] theorem ok_bind {α β : Type} (a : α) (f : α → Except NoReturn β) :
    (Except.ok a >>= f) = f a := rfl

/-! ## The table as a function on indices -/

/-- The address at an index; past the array it answers 0, which no
function of the source ever sees. -/
def BreakpointTable.entry (t : BreakpointTable) (i : Nat) : Word :=
  if h : i < MAX_BREAKPOINTS_NUMBER then t.breakpoints ⟨i, h⟩ else 0

/-- The address at an index, as the number it is compared as. -/
def BreakpointTable.key (t : BreakpointTable) (i : Nat) : Nat := (t.entry i).toNat

theorem BreakpointTable.get_eq (t : BreakpointTable) {i : Nat} (h : i < 1024) :
    t.get i = .ok (t.entry i) := by
  rw [get, entry, dif_pos h, dif_pos h]

theorem BreakpointTable.set_eq (t : BreakpointTable) {i : Nat} (h : i < 1024) (address : Word) :
    ∃ t', t.set i address = .ok t' ∧ t'.breakpointsNumber = t.breakpointsNumber ∧
      t'.entry = Function.update t.entry i address := by
  refine ⟨{ t with breakpoints := Function.update t.breakpoints ⟨i, h⟩ address },
    dif_pos h, rfl, ?_⟩
  funext k
  by_cases hk : k = i
  · subst hk
    rw [Function.update_self, entry, dif_pos h]
    exact Function.update_self ..
  · rw [Function.update_of_ne hk]
    simp only [entry]
    split_ifs
    · exact Function.update_of_ne (fun he => hk (congrArg Fin.val he)) _ _
    · rfl

/-- The address is one of those in use. -/
def BreakpointTable.Holds (t : BreakpointTable) (address : Word) : Prop :=
  ∃ i < t.breakpointsNumber, t.entry i = address

theorem BreakpointTable.holds_iff {t : BreakpointTable} {address : Word} :
    t.Holds address ↔ address.toNat ∈ t.key '' Iio t.breakpointsNumber := by
  constructor
  · rintro ⟨i, hi, rfl⟩
    exact ⟨i, hi, rfl⟩
  · rintro ⟨i, hi, hia⟩
    exact ⟨i, hi, BitVec.eq_of_toNat_eq hia⟩

/-- The invariant: at most 1024 addresses are in use, in increasing order. -/
structure BreakpointTable.Sorted (t : BreakpointTable) : Prop where
  le : t.breakpointsNumber ≤ 1024
  strictMono : StrictMonoOn t.key (Iio t.breakpointsNumber)

/-! ## Finding -/

/-- The search finds an index that holds the address, or answers -1 when
there is none. -/
def FindResult (t : BreakpointTable) (address : Word) (r : Except NoReturn Int) : Prop :=
  (∃ i : Nat, r = .ok i ∧ i < t.breakpointsNumber ∧ t.entry i = address) ∨
    (r = .ok (-1) ∧ ¬ t.Holds address)

theorem findLoop_spec {t : BreakpointTable} (ht : t.Sorted) (address : Word) {lo hi : Nat}
    (hhi : hi ≤ t.breakpointsNumber)
    (hc : Confined t.key t.breakpointsNumber address.toNat lo hi) :
    FindResult t address (findLoop t address lo hi) := by
  have hle := ht.le
  -- the interval shrinks at each turn
  induction hn : hi - lo using Nat.strong_induction_on generalizing lo hi with
  | _ n ih =>
      rw [findLoop]
      by_cases hlt : lo < hi
      · rw [if_pos hlt]
        have hm : (lo + hi) >>> 1 = (lo + hi) / 2 := Nat.shiftRight_one _
        simp only [hm, t.get_eq (show (lo + hi) / 2 < 1024 by omega)]
        show FindResult t address (if _ then _ else if _ then _ else _)
        by_cases hgt : t.entry ((lo + hi) / 2) > address
        · rw [if_pos hgt]
          exact ih _ (by omega) (by omega)
            (hc.below ht.strictMono (by omega) hgt) rfl
        · rw [if_neg hgt]
          by_cases hlt' : t.entry ((lo + hi) / 2) < address
          · rw [if_pos hlt']
            exact ih _ (by omega) hhi (hc.above ht.strictMono (by omega) hlt') rfl
          · rw [if_neg hlt']
            refine Or.inl ⟨(lo + hi) / 2, rfl, by omega, ?_⟩
            exact BitVec.eq_of_toNat_eq (Nat.le_antisymm (Nat.not_lt.mp hgt) (Nat.not_lt.mp hlt'))
      · rw [if_neg hlt]
        refine Or.inr ⟨rfl, ?_⟩
        rw [BreakpointTable.holds_iff]
        exact hc.notMem (by omega)

/-- On a sorted table `gdb_find_breakpoint` returns, and stays inside it. -/
theorem gdbFindBreakpoint_spec {t : BreakpointTable} (ht : t.Sorted) (address : Word) :
    FindResult t address (gdbFindBreakpoint t address) :=
  findLoop_spec ht address (Nat.le_refl _) (confined_all t.key _ _)

theorem gdbFindBreakpoint_of_holds {t : BreakpointTable} (ht : t.Sorted) {address : Word}
    (h : t.Holds address) : ∃ i : Nat, gdbFindBreakpoint t address = .ok i ∧
      i < t.breakpointsNumber ∧ t.entry i = address :=
  (gdbFindBreakpoint_spec ht address).resolve_right fun hn => hn.2 h

theorem gdbFindBreakpoint_of_not_holds {t : BreakpointTable} (ht : t.Sorted) {address : Word}
    (h : ¬ t.Holds address) : gdbFindBreakpoint t address = .ok (-1) := by
  rcases gdbFindBreakpoint_spec ht address with ⟨i, -, hi, hia⟩ | ⟨hr, -⟩
  · exact absurd ⟨i, hi, hia⟩ h
  · exact hr

/-! ## Adding -/

theorem addLoop_succ (t : BreakpointTable) (address : Word) {j : Nat} (hj : j < 1024) :
    addLoop t address (j + 1) =
      if t.entry j > address then t.set (j + 1) (t.entry j) >>= fun t => addLoop t address j
      else .ok (j + 1, t) := by
  rw [addLoop, t.get_eq hj]
  rfl

theorem addLoop_spec (t : BreakpointTable) (address : Word) {j : Nat} (hj : j < 1024) :
    ∃ k t', addLoop t address j = .ok (k, t') ∧ k ≤ j ∧
      t'.breakpointsNumber = t.breakpointsNumber ∧
      (∀ i, i ≠ k → t'.entry i = if i ≤ j then insertAt t.entry k address i else t.entry i) ∧
      (0 < k → t.entry (k - 1) ≤ address) ∧ (∀ i, k ≤ i → i < j → address < t.entry i) := by
  induction j generalizing t with
  | zero =>
      refine ⟨0, t, rfl, Nat.le_refl 0, rfl, ?_, fun h => absurd h (lt_irrefl 0), ?_⟩
      · intro i hi
        rw [if_neg (by omega)]
      · intro i _ hi
        omega
  | succ j ih =>
      rw [addLoop_succ t address (by omega)]
      by_cases hgt : t.entry j > address
      · obtain ⟨t₁, hset, hn₁, he₁⟩ := t.set_eq hj (t.entry j)
        have hlow : ∀ i, i ≠ j + 1 → t₁.entry i = t.entry i := by
          intro i hi
          rw [he₁, Function.update_of_ne hi]
        obtain ⟨k, t', hloop, hk, hn, hent, hlo, hhi⟩ := ih t₁ (by omega)
        rw [if_pos hgt, hset]
        refine ⟨k, t', hloop, by omega, hn.trans hn₁, ?_, ?_, ?_⟩
        · intro i hne
          rw [hent i hne]
          rcases Nat.lt_trichotomy i (j + 1) with h | h | h
          · rw [if_pos (by omega), if_pos (by omega)]
            unfold insertAt
            rw [hlow i (by omega), hlow (i - 1) (by omega)]
          · -- the entry this turn has moved
            rw [h, if_neg (by omega), if_pos (Nat.le_refl _), insertAt_succ hk, he₁,
              Function.update_self]
          · rw [if_neg (by omega), if_neg (by omega), hlow i (by omega)]
        · intro h
          rw [← hlow (k - 1) (by omega)]
          exact hlo h
        · intro i hki hi
          rcases Nat.lt_or_ge i j with h | h
          · rw [← hlow i (by omega)]
            exact hhi i hki h
          · obtain rfl : i = j := by omega
            exact hgt
      · rw [if_neg hgt]
        refine ⟨j + 1, t, rfl, Nat.le_refl _, rfl, ?_, ?_, ?_⟩
        · intro i hne
          split_ifs with h
          · rw [insertAt_of_lt (by omega)]
          · rfl
        · intro _
          exact Nat.not_lt.mp hgt
        · intro i hi hi'
          omega

/-- What a successful addition leaves. -/
structure Added (t : BreakpointTable) (address : Word) (t' : BreakpointTable) : Prop where
  sorted : t'.Sorted
  holds : ∀ b, t'.Holds b ↔ b = address ∨ t.Holds b

theorem addLoop_added {t : BreakpointTable} (ht : t.Sorted) {address : Word}
    (hlt : t.breakpointsNumber < 1024) (hnew : ¬ t.Holds address) :
    ∃ k t₁ t', addLoop { t with breakpointsNumber := t.breakpointsNumber + 1 } address
        t.breakpointsNumber = .ok (k, t₁) ∧
      t₁.set k address = .ok t' ∧ Added t address t' := by
  obtain ⟨k, t₁, hloop, hk, hn, hent, hlo, hhi⟩ :=
    addLoop_spec { t with breakpointsNumber := t.breakpointsNumber + 1 } address hlt
  obtain ⟨t', hset, hn', he'⟩ := t₁.set_eq (show k < 1024 by omega) address
  have hnumber : t'.breakpointsNumber = t.breakpointsNumber + 1 := hn'.trans hn
  have hfits : Fits t.key t.breakpointsNumber k address.toNat := by
    refine ⟨hk, ?_, hhi⟩
    intro i hi
    have hle : t.key i ≤ address.toNat :=
      (ht.strictMono.monotoneOn (show i < t.breakpointsNumber by omega)
        (show k - 1 < t.breakpointsNumber by omega) (show i ≤ k - 1 by omega)).trans
        (hlo (by omega))
    refine lt_of_le_of_ne hle fun he => hnew ⟨i, by omega, BitVec.eq_of_toNat_eq he⟩
  have hkey : EqOn t'.key (insertAt t.key k address.toNat) (Iio (t.breakpointsNumber + 1)) := by
    intro i hi
    have hi' : i < t.breakpointsNumber + 1 := hi
    unfold BreakpointTable.key
    rw [he']
    by_cases hik : i = k
    · rw [hik, Function.update_self, insertAt_self]
    · rw [Function.update_of_ne hik, hent i hik, if_pos (by omega)]
      unfold insertAt
      split_ifs <;> rfl
  refine ⟨k, t₁, t', hloop, hset, ⟨by omega, ?_⟩, ?_⟩
  · rw [hnumber]
    exact (strictMonoOn_insertAt ht.strictMono hfits).congr hkey.symm
  · intro b
    rw [BreakpointTable.holds_iff, hnumber, hkey.image_eq, image_insertAt hk, mem_insert_iff,
      BitVec.toNat_inj, BreakpointTable.holds_iff]

/-- `gdb_add_breakpoint` fails on a full table, and else makes the table
hold the address as well. -/
theorem gdbAddBreakpoint_spec {t : BreakpointTable} (ht : t.Sorted) (address : Word) :
    gdbAddBreakpoint t address = .ok (0, t) ∨
      ∃ t', gdbAddBreakpoint t address = .ok (1, t') ∧ Added t address t' := by
  unfold gdbAddBreakpoint
  by_cases hlt : t.breakpointsNumber < MAX_BREAKPOINTS_NUMBER
  · right
    rw [if_pos hlt]
    by_cases hold : t.Holds address
    · obtain ⟨i, hfind, -, -⟩ := gdbFindBreakpoint_of_holds ht hold
      refine ⟨t, ?_, ht, ?_⟩
      · have hne : (i : Int) ≠ -1 := by omega
        rw [hfind, ok_bind, if_pos hne]
        rfl
      · intro b
        constructor
        · exact Or.inr
        · rintro (rfl | hb)
          · exact hold
          · exact hb
    · obtain ⟨k, t₁, t', hloop, hset, hadd⟩ := addLoop_added ht hlt hold
      refine ⟨t', ?_, hadd⟩
      rw [gdbFindBreakpoint_of_not_holds ht hold]
      rw [ok_bind, if_neg (by decide)]
      simp only [hloop, ok_bind, hset]
      rfl
  · left
    rw [if_neg hlt]
    rfl

/-! ## Removing -/

theorem removeLoop_spec (t : BreakpointTable) {j count : Nat} (h : j + count < 1024) :
    ∃ t', removeLoop t j count = .ok t' ∧ t'.breakpointsNumber = t.breakpointsNumber ∧
      ∀ i, t'.entry i = if i < j + count then removeAt t.entry j i else t.entry i := by
  induction count generalizing t j with
  | zero =>
      refine ⟨t, rfl, rfl, ?_⟩
      intro i
      split_ifs with hi
      · rw [removeAt_of_lt (show i < j by omega)]
      · rfl
  | succ count ih =>
      obtain ⟨t₁, hset, hn₁, he₁⟩ := t.set_eq (show j < 1024 by omega) (t.entry (j + 1))
      obtain ⟨t', hloop, hn, hent⟩ := ih t₁ (j := j + 1) (by omega)
      refine ⟨t', ?_, hn.trans hn₁, ?_⟩
      · rw [removeLoop, t.get_eq (by omega)]
        show (t.set j (t.entry (j + 1)) >>= fun t => removeLoop t (j + 1) count) = _
        rw [hset]
        exact hloop
      · intro i
        rw [hent i, show j + 1 + count = j + (count + 1) by omega]
        by_cases hij : i = j
        · rw [hij, if_pos (by omega), if_pos (by omega), removeAt_of_lt (by omega),
            removeAt_of_le (Nat.le_refl j), he₁, Function.update_self]
        · -- the other entries are those of `t`, moved or not
          have hold : t₁.entry i = t.entry i := by rw [he₁, Function.update_of_ne hij]
          rw [hold]
          split_ifs
          · unfold removeAt
            rw [hold]
            split_ifs
            · rfl
            · omega
            · omega
            · rw [he₁, Function.update_of_ne (by omega)]
          · rfl

/-- What a successful removal leaves. -/
structure Removed (t : BreakpointTable) (address : Word) (t' : BreakpointTable) : Prop where
  sorted : t'.Sorted
  held : t.Holds address
  holds : ∀ b, t'.Holds b ↔ t.Holds b ∧ b ≠ address

/-- `gdb_remove_breakpoint` fails where there is no breakpoint, and else
drops it and no other. -/
theorem gdbRemoveBreakpoint_spec {t : BreakpointTable} (ht : t.Sorted) (address : Word) :
    (gdbRemoveBreakpoint t address = .ok (0, t) ∧ ¬ t.Holds address) ∨
      ∃ t', gdbRemoveBreakpoint t address = .ok (1, t') ∧ Removed t address t' := by
  unfold gdbRemoveBreakpoint
  by_cases hold : t.Holds address
  · right
    obtain ⟨position, hfind, hlt, hentry⟩ := gdbFindBreakpoint_of_holds ht hold
    have hle := ht.le
    obtain ⟨n, hn⟩ : ∃ n, t.breakpointsNumber = n + 1 := ⟨t.breakpointsNumber - 1, by omega⟩
    have hroom : position + (n - position) < 1024 := by omega
    obtain ⟨t', hloop, hn', hent⟩ := removeLoop_spec { t with breakpointsNumber := n } hroom
    have hsorted := ht.strictMono
    rw [hn] at hsorted
    have hkey : EqOn t'.key (removeAt t.key position) (Iio n) := by
      intro i hi
      have hi' : i < n := hi
      unfold BreakpointTable.key
      rw [hent i, if_pos (by omega)]
      unfold removeAt
      split_ifs <;> rfl
    have hnumber : t'.breakpointsNumber = n := hn'
    refine ⟨t', ?_, ⟨by omega, ?_⟩, hold, ?_⟩
    · have hne : ¬ (position : Int) = -1 := by omega
      rw [hfind, ok_bind, if_neg hne]
      simp only [hn, Int.toNat_natCast, Nat.add_sub_cancel, hloop]
      rfl
    · rw [hnumber]
      exact (strictMonoOn_removeAt hsorted).congr hkey.symm
    · intro b
      rw [BreakpointTable.holds_iff, hnumber, hkey.image_eq, image_removeAt hsorted (by omega),
        BreakpointTable.holds_iff, hn, mem_sdiff, mem_singleton_iff, BreakpointTable.key, hentry,
        BitVec.toNat_inj]
  · left
    rw [gdbFindBreakpoint_of_not_holds ht hold, ok_bind, if_pos rfl]
    exact ⟨rfl, hold⟩

/-! ## Runs -/

inductive BreakpointOp where
  | add (address : Word)
  | remove (address : Word)
deriving DecidableEq

/-- The call an operation stands for. -/
def BreakpointOp.apply (t : BreakpointTable) :
    BreakpointOp → Except NoReturn (Int × BreakpointTable)
  | .add address => gdbAddBreakpoint t address
  | .remove address => gdbRemoveBreakpoint t address

/-- The operations of a run and what they returned, in order. -/
abbrev BreakpointLog := List (BreakpointOp × Int)

/-- A run of operations: the table it leaves, and its log. -/
def runBreakpoints (t : BreakpointTable) :
    List BreakpointOp → Except NoReturn (BreakpointTable × BreakpointLog)
  | [] => return (t, [])
  | op :: ops => do
      let (result, t) ← op.apply t
      let (t, log) ← runBreakpoints t ops
      return (t, (op, result) :: log)

/-- What a successful operation says about its address: set, or not. -/
def breakpointEntries : BreakpointOp × Int → List (Word × Bool)
  | (.add address, result) => if result = 1 then [(address, true)] else []
  | (.remove address, result) => if result = 1 then [(address, false)] else []

/-- The address was successfully added, and not removed since. -/
def CurrentlySet (log : BreakpointLog) (address : Word) : Prop :=
  lastWrite (log.flatMap breakpointEntries) address = some true

/-- The table holds what the replay of its log says. -/
def Represents (t : BreakpointTable) (set : Word → Bool) : Prop :=
  t.Sorted ∧ ∀ b, t.Holds b ↔ set b = true

theorem BreakpointOp.apply_spec {t : BreakpointTable} {set : Word → Bool}
    (ht : Represents t set) (op : BreakpointOp) :
    ∃ result t', op.apply t = .ok (result, t') ∧
      Represents t' (replay set (breakpointEntries (op, result))) := by
  obtain ⟨hsorted, hset⟩ := ht
  cases op with
  | add address =>
      rcases gdbAddBreakpoint_spec hsorted address with h | ⟨t', h, hadd⟩
      · exact ⟨0, t, h, hsorted, hset⟩
      · refine ⟨1, t', h, hadd.sorted, ?_⟩
        intro b
        rw [hadd.holds, hset, breakpointEntries, if_pos rfl, replay_cons, replay_nil]
        by_cases hb : b = address
        · rw [hb, Function.update_self]
          exact iff_of_true (Or.inl rfl) rfl
        · rw [Function.update_of_ne hb]
          exact or_iff_right hb
  | remove address =>
      rcases gdbRemoveBreakpoint_spec hsorted address with ⟨h, -⟩ | ⟨t', h, hrem⟩
      · exact ⟨0, t, h, hsorted, hset⟩
      · refine ⟨1, t', h, hrem.sorted, ?_⟩
        intro b
        rw [hrem.holds, hset, breakpointEntries, if_pos rfl, replay_cons, replay_nil]
        by_cases hb : b = address
        · rw [hb, Function.update_self]
          exact iff_of_false (fun hh => hh.2 rfl) Bool.false_ne_true
        · rw [Function.update_of_ne hb]
          exact and_iff_left hb

theorem runBreakpoints_spec {t : BreakpointTable} {set : Word → Bool} (ht : Represents t set)
    (ops : List BreakpointOp) :
    ∃ t' log, runBreakpoints t ops = .ok (t', log) ∧
      Represents t' (replay set (log.flatMap breakpointEntries)) := by
  induction ops generalizing t set with
  | nil => exact ⟨t, [], rfl, ht⟩
  | cons op ops ih =>
      obtain ⟨result, t₁, happly, ht₁⟩ := op.apply_spec ht
      obtain ⟨t', log, hrun, ht'⟩ := ih ht₁
      refine ⟨t', (op, result) :: log, ?_, ?_⟩
      · rw [runBreakpoints, happly, ok_bind]
        simp only [hrun]
        rfl
      · rw [List.flatMap_cons, replay_append]
        exact ht'

/-- The table of `gdb_init_data`, whose array `malloc` leaves as it is. -/
def emptyTable (breakpoints : Fin MAX_BREAKPOINTS_NUMBER → Word) : BreakpointTable :=
  { breakpoints := breakpoints, breakpointsNumber := 0 }

theorem emptyTable_represents (breakpoints : Fin MAX_BREAKPOINTS_NUMBER → Word) :
    Represents (emptyTable breakpoints) fun _ => false := by
  refine ⟨⟨Nat.zero_le _, ?_⟩, ?_⟩
  · intro i hi
    exact absurd hi (Nat.not_lt_zero i)
  · intro b
    refine iff_of_false ?_ Bool.false_ne_true
    rintro ⟨i, hi, -⟩
    exact absurd hi (Nat.not_lt_zero i)

theorem currentlySet_iff (log : BreakpointLog) (address : Word) :
    CurrentlySet log address
      ↔ replay (fun _ => false) (log.flatMap breakpointEntries) address = true := by
  rw [CurrentlySet, replay_apply]
  cases lastWrite (log.flatMap breakpointEntries) address with
  | none => exact iff_of_false (fun h => Option.some_ne_none true h.symm) Bool.false_ne_true
  | some b => rw [Option.some.injEq, Option.getD_some]

/-- After any run from the empty table: no index left the array, the
addresses in use are at most 1024 and increasing, `gdb_find_breakpoint`
finds exactly those set and not cleared since, and a successful removal
removes its address only. -/
theorem breakpoints_form_a_set (breakpoints : Fin MAX_BREAKPOINTS_NUMBER → Word)
    (ops : List BreakpointOp) :
    ∃ t log, runBreakpoints (emptyTable breakpoints) ops = .ok (t, log) ∧
      t.breakpointsNumber ≤ 1024 ∧
      (∀ i j, i < j → j < t.breakpointsNumber → t.entry i < t.entry j) ∧
      (∀ a, CurrentlySet log a → ∃ i : Nat, gdbFindBreakpoint t a = .ok i ∧
        i < t.breakpointsNumber ∧ t.entry i = a) ∧
      (∀ a, ¬ CurrentlySet log a → gdbFindBreakpoint t a = .ok (-1)) ∧
      (∀ a t', gdbRemoveBreakpoint t a = .ok (1, t') →
        ∀ b, t'.Holds b ↔ t.Holds b ∧ b ≠ a) := by
  obtain ⟨t, log, hrun, hsorted, hset⟩ :=
    runBreakpoints_spec (emptyTable_represents breakpoints) ops
  have hheld : ∀ a, CurrentlySet log a ↔ t.Holds a := by
    intro a
    rw [currentlySet_iff, hset]
  refine ⟨t, log, hrun, hsorted.le, ?_, ?_, ?_, ?_⟩
  · intro i j hij hj
    exact hsorted.strictMono (show i < t.breakpointsNumber by omega) hj hij
  · intro a ha
    exact gdbFindBreakpoint_of_holds hsorted ((hheld a).mp ha)
  · intro a ha
    exact gdbFindBreakpoint_of_not_holds hsorted fun hh => ha ((hheld a).mpr hh)
  · intro a t' hrem
    rcases gdbRemoveBreakpoint_spec hsorted a with ⟨h, -⟩ | ⟨t'', h, hremoved⟩
    · rw [hrem] at h
      have h1 : (1 : Int) = 0 := congrArg Prod.fst (Except.ok.inj h)
      exact absurd h1 (by decide)
    · rw [hrem] at h
      obtain rfl := congrArg Prod.snd (Except.ok.inj h)
      exact hremoved.holds

end Armator
