/-
The breakpoint table when it is full.

`gdb_add_breakpoint` tests for room before it looks for the address.  A
breakpoint that is set stays set by setting it again, except in a table
that is full: there the second request fails, though there is nothing to
add.  `add_again_iff` says when one request makes the next one fail.
-/
import Armator.Gdb.Breakpoints

namespace Armator

section

variable {t t' : BreakpointTable} {address : Word}

theorem gdbAddBreakpoint_of_full (hfull : 1024 ≤ t.breakpointsNumber) :
    gdbAddBreakpoint t address = .ok (0, t) := by
  rw [gdbAddBreakpoint, if_neg (Nat.not_lt.mpr hfull)]
  rfl

theorem gdbAddBreakpoint_of_holds (ht : t.Sorted) (hroom : t.breakpointsNumber < 1024)
    (hold : t.Holds address) : gdbAddBreakpoint t address = .ok (1, t) := by
  obtain ⟨i, hfind, -, -⟩ := gdbFindBreakpoint_of_holds ht hold
  have hne : (i : Int) ≠ -1 := by omega
  rw [gdbAddBreakpoint, if_pos hroom, hfind, ok_bind, if_pos hne]
  rfl

theorem gdbAddBreakpoint_of_new (ht : t.Sorted) (hroom : t.breakpointsNumber < 1024)
    (hnew : ¬ t.Holds address) :
    ∃ t', gdbAddBreakpoint t address = .ok (1, t') ∧ Added t address t' ∧
      t'.breakpointsNumber = t.breakpointsNumber + 1 := by
  obtain ⟨k, t₁, t', hloop, hset, hadd⟩ := addLoop_added ht hroom hnew
  obtain ⟨k₀, t₀, hloop₀, hk, hnumber, -⟩ :=
    addLoop_spec { t with breakpointsNumber := t.breakpointsNumber + 1 } address hroom
  cases hloop.symm.trans hloop₀
  obtain ⟨t₂, hset₂, hnumber₂, -⟩ := t₁.set_eq (show k < 1024 by omega) address
  cases hset.symm.trans hset₂
  refine ⟨t', ?_, hadd, hnumber₂.trans hnumber⟩
  rw [gdbAddBreakpoint, if_pos hroom, gdbFindBreakpoint_of_not_holds ht hnew, ok_bind,
    if_neg (by decide)]
  simp only [hloop, ok_bind, hset]
  rfl

/-- After a successful addition, the same one succeeds again and changes
nothing, exactly when the first left room. -/
theorem gdbAddBreakpoint_again (ht : t.Sorted) (hadd : gdbAddBreakpoint t address = .ok (1, t')) :
    gdbAddBreakpoint t' address = .ok (1, t') ↔ t.Holds address ∨ t.breakpointsNumber < 1023 := by
  by_cases hroom : t.breakpointsNumber < 1024
  · by_cases hold : t.Holds address
    · have hsame := hadd.symm.trans (gdbAddBreakpoint_of_holds ht hroom hold)
      cases hsame
      exact iff_of_true hadd (Or.inl hold)
    · obtain ⟨t₁, hnew, hadded, hnumber⟩ := gdbAddBreakpoint_of_new ht hroom hold
      cases hadd.symm.trans hnew
      rw [or_iff_right hold]
      by_cases hlt : t.breakpointsNumber < 1023
      · refine iff_of_true ?_ hlt
        exact gdbAddBreakpoint_of_holds hadded.sorted (by omega)
          ((hadded.holds address).mpr (Or.inl rfl))
      · refine iff_of_false (fun hagain => ?_) hlt
        have hfull := hagain.symm.trans (gdbAddBreakpoint_of_full (t := t') (by omega))
        exact one_ne_zero (congrArg Prod.fst (Except.ok.inj hfull))
  · have hfull := hadd.symm.trans (gdbAddBreakpoint_of_full (Nat.le_of_not_lt hroom))
    exact absurd (congrArg Prod.fst (Except.ok.inj hfull)) one_ne_zero

end

/-- After any run from the empty table, setting a breakpoint twice is
setting it once exactly when it was set before, or two places were free. -/
theorem add_again_iff (breakpoints : Fin MAX_BREAKPOINTS_NUMBER → Word)
    (ops : List BreakpointOp) :
    ∃ t log, runBreakpoints (emptyTable breakpoints) ops = .ok (t, log) ∧
      ∀ a t', gdbAddBreakpoint t a = .ok (1, t') →
        (gdbAddBreakpoint t' a = .ok (1, t') ↔ t.Holds a ∨ t.breakpointsNumber < 1023) := by
  obtain ⟨t, log, hrun, hsorted, -⟩ :=
    runBreakpoints_spec (emptyTable_represents breakpoints) ops
  exact ⟨t, log, hrun, fun a t' => gdbAddBreakpoint_again hsorted⟩

theorem add_again_iff_first :
    ∃ t', gdbAddBreakpoint (emptyTable fun _ => 0) 8 = .ok (1, t') ∧
      (gdbAddBreakpoint t' 8 = .ok (1, t') ↔
        (emptyTable fun _ => 0).Holds 8 ∨ (emptyTable fun _ => 0).breakpointsNumber < 1023) := by
  obtain ⟨hsorted, hempty⟩ := emptyTable_represents fun _ => 0
  obtain ⟨t', hadd, -⟩ := gdbAddBreakpoint_of_new hsorted (t := emptyTable fun _ => 0) (by decide)
    fun hh => Bool.false_ne_true ((hempty 8).mp hh)
  obtain ⟨t, log, hrun, hagain⟩ := add_again_iff (fun _ => 0) []
  cases hrun
  exact ⟨t', hadd, hagain 8 t' hadd⟩

/-! ## A run that fills the table -/

theorem runBreakpoints_adds {t : BreakpointTable} (ht : t.Sorted) {l : List Word}
    (hdistinct : l.Nodup) (hnew : ∀ a ∈ l, ¬ t.Holds a)
    (hroom : t.breakpointsNumber + l.length ≤ 1024) :
    ∃ t' log, runBreakpoints t (l.map .add) = .ok (t', log) ∧ t'.Sorted ∧
      t'.breakpointsNumber = t.breakpointsNumber + l.length ∧
      ∀ b, t'.Holds b ↔ b ∈ l ∨ t.Holds b := by
  induction l generalizing t with
  | nil => exact ⟨t, [], rfl, ht, rfl, fun b => (or_iff_right List.not_mem_nil).symm⟩
  | cons a l ih =>
      rw [List.length_cons] at hroom ⊢
      obtain ⟨ha, hl⟩ := List.nodup_cons.mp hdistinct
      obtain ⟨t₁, hadd, hadded, hnumber⟩ :=
        gdbAddBreakpoint_of_new ht (by omega) (hnew a List.mem_cons_self)
      have hnew₁ : ∀ b ∈ l, ¬ t₁.Holds b := by
        intro b hb hh
        rcases (hadded.holds b).mp hh with rfl | hh
        · exact ha hb
        · exact hnew b (List.mem_cons_of_mem a hb) hh
      obtain ⟨t', log, hrun, hsorted, hnumber', hholds⟩ := ih hadded.sorted hl hnew₁ (by omega)
      refine ⟨t', (.add a, 1) :: log, ?_, hsorted, by omega, fun b => ?_⟩
      · rw [List.map_cons, runBreakpoints, BreakpointOp.apply, hadd, ok_bind]
        simp only [hrun]
        rfl
      · rw [hholds, hadded.holds, List.mem_cons, or_left_comm, or_assoc]

/-- The addresses from 0 to 1022. -/
def firstAddresses : List Word := (List.range 1023).map (BitVec.ofNat 32)

theorem mem_firstAddresses (a : Word) : a ∈ firstAddresses ↔ a.toNat < 1023 := by
  rw [firstAddresses, List.mem_map]
  constructor
  · rintro ⟨i, hi, rfl⟩
    rw [BitVec.toNat_ofNat, Nat.mod_eq_of_lt (by have := List.mem_range.mp hi; omega)]
    exact List.mem_range.mp hi
  · intro ha
    exact ⟨a.toNat, List.mem_range.mpr ha, (BitVec.ofNat_toNat 32 a).trans (BitVec.setWidth_eq a)⟩

theorem nodup_firstAddresses : firstAddresses.Nodup := by
  refine List.Nodup.map_on ?_ List.nodup_range
  intro i hi j hj heq
  have hi' := List.mem_range.mp hi
  have hj' := List.mem_range.mp hj
  have htoNat := congrArg BitVec.toNat heq
  rwa [BitVec.toNat_ofNat, BitVec.toNat_ofNat, Nat.mod_eq_of_lt (by omega),
    Nat.mod_eq_of_lt (by omega)] at htoNat

/-- A breakpoint at 1023 on top of those is set once, and not again. -/
theorem add_again_astray :
    ∃ t log t', runBreakpoints (emptyTable fun _ => 0) (firstAddresses.map .add) = .ok (t, log) ∧
      gdbAddBreakpoint t 1023 = .ok (1, t') ∧ gdbAddBreakpoint t' 1023 = .ok (0, t') := by
  obtain ⟨hsorted, hempty⟩ := emptyTable_represents fun _ => 0
  have hlength : firstAddresses.length = 1023 := by
    rw [firstAddresses, List.length_map, List.length_range]
  obtain ⟨t, log, hrun, ht, hnumber, hholds⟩ := runBreakpoints_adds hsorted nodup_firstAddresses
    (fun a _ hh => Bool.false_ne_true ((hempty a).mp hh))
    (by rw [hlength]; exact Nat.le_succ 1023)
  rw [hlength] at hnumber
  have hnumber' : t.breakpointsNumber = 1023 := hnumber
  have hnew : ¬ t.Holds 1023 := by
    rw [hholds, mem_firstAddresses]
    rintro (hlt | hh)
    · exact absurd hlt (by decide)
    · exact Bool.false_ne_true ((hempty 1023).mp hh)
  obtain ⟨t', hadd, -, hfull⟩ := gdbAddBreakpoint_of_new ht (by omega) hnew
  exact ⟨t, log, t', hrun, hadd, gdbAddBreakpoint_of_full (by omega)⟩

end Armator
