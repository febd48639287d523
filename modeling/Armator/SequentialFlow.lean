/-
Where the program counter goes.

The fetch moves r15 on by one word, and nothing moves it again unless the
word is a branch or names r15: as its base, which is written back even
when the transfer is refused in the end, or as its destination.  Every
other word is followed by the next (`sequential_flow`), whatever it
returns.  RESET, which would set r15 to 0, is no result of any handler.
-/
import Armator.SingleTransfers
import Armator.Effects

namespace Armator

/-! ## States with one program counter -/

/-- `p'` has the program counter of `p`. -/
def KeepsPc (p p' : ArmCore) : Prop := p'.reg 15 = p.reg 15

namespace KeepsPc

variable {p q p' : ArmCore}

theorem refl (p : ArmCore) : KeepsPc p p := rfl

theorem trans (h : KeepsPc p q) (h' : KeepsPc q p') : KeepsPc p p' := Eq.trans h' h

theorem write (p : ArmCore) {n : Fin 16} (hn : n ≠ 15) (value : Word) :
    KeepsPc p (armWriteRegister p n value) := by
  rw [KeepsPc, armWriteRegister_reg, Function.update_of_ne (slot_ne_pc hn _).symm]

theorem writeCpsr (p : ArmCore) (value : Word) : KeepsPc p (armWriteCpsr p value) := by
  show Function.update p.reg 31 value 15 = p.reg 15
  rw [Function.update_of_ne (by decide)]

theorem writeRegisters (p : ArmCore) {entries : List (Fin 16 × Word)}
    (he : ∀ e ∈ entries, e.1 ≠ 15) : KeepsPc p (writeRegisters p entries) := by
  induction entries generalizing p with
  | nil => exact refl p
  | cons e entries ih =>
      rw [writeRegisters_cons]
      exact (write p (he e List.mem_cons_self) e.2).trans
        (ih _ fun e' he' => he e' (List.mem_cons_of_mem e he'))

end KeepsPc

/-! ## The handlers -/

section Handlers

variable (h : Host) (p : ArmCore) {ins : Word}

theorem armMiscellaneous_keepsPc : KeepsPc p (armMiscellaneous p ins).2 := by
  unfold armMiscellaneous
  simp only
  split
  · split
    · exact .refl p
    · exact .write p ‹_› _
  · exact .refl p

theorem writeRd_keepsPc {Rd_num : Fin 16} (hRd : Rd_num ≠ 15) (S value : Word)
    (flags : Word → Word) : KeepsPc p (writeRd p Rd_num S value flags).2 := by
  have hw := KeepsPc.write p hRd value
  unfold writeRd
  simp only
  split_ifs
  · exact hw.trans (.writeCpsr ..)
  · exact hw
  · exact hw.trans (.writeCpsr ..)
  · exact hw

theorem dataProcessing_keepsPc (hRd : rdNum ins ≠ 15) (sv : ShifterValues) :
    KeepsPc p (dataProcessing p ins sv).2 := by
  unfold dataProcessing alu
  simp only
  split
  · exact .writeCpsr ..
  · exact writeRd_keepsPc p hRd ..

theorem writtenBack_keepsPc (hRn : bitsRn ins ≠ 15) (Rn offset : Word) :
    KeepsPc p (writtenBack p ins Rn offset) :=
  writtenBack_reg_of_ne p ins Rn offset (slot_ne_pc hRn _).symm

theorem loadStoreMode2_keepsPc {Rd_num : Fin 16} (hRd : Rd_num ≠ 15) (address : Word) :
    KeepsPc p (loadStoreMode2 h p ins address Rd_num).2 := by
  unfold loadStoreMode2
  split_ifs
  · exact .write p hRd _
  · exact .refl p
  · exact .write p hRd _
  · exact .refl p

theorem loadStoreMode3_keepsPc {Rd_num : Fin 16} (hRd : Rd_num ≠ 15) (address : Word) :
    KeepsPc p (loadStoreMode3 h p ins address Rd_num).2 := by
  unfold loadStoreMode3
  split_ifs
  · exact .refl p
  · split
    · exact .write p hRd _
    · exact .write p hRd _
    · exact .write p hRd _
    · exact .refl p

/-- The base is written back before a transfer is refused, and perhaps
twice: it has to be another register. -/
theorem armLoadStore_keepsPc (hRn : bitsRn ins ≠ 15) (hRd : rdNum ins ≠ 15) :
    KeepsPc p (armLoadStore h p ins).2 := by
  by_cases hr : LoadStoreRefuses p ins
  · rw [armLoadStore_of_refuses h p hr]
    exact (refusedState_frame p ins).2.2 15 (slot_ne_pc hRn _).symm
  · unfold LoadStoreRefuses at hr
    push Not at hr
    have h2 : KeepsPc p (mode2State p ins) := writtenBack_keepsPc p hRn ..
    have h3 : KeepsPc (mode2State p ins) (mode3State (mode2State p ins) ins) :=
      writtenBack_keepsPc _ hRn ..
    rw [armLoadStore_eq h p hr.1, if_neg hr.2.1]
    split
    · exact h2.trans (loadStoreMode2_keepsPc h _ hRd _)
    · exact (h2.trans h3).trans (loadStoreMode3_keepsPc h _ hRd _)

theorem ne_pc_of_mem_loadedList {i : Fin 16} (hi : i ∈ loadedList ins) : i ≠ 15 := by
  obtain ⟨j, -, rfl⟩ := List.mem_map.mp (List.mem_of_mem_filter hi)
  exact (Fin.castSucc_lt_last j).ne

theorem armLoadStoreMultiple_keepsPc (hRn : bitsRn ins ≠ 15) (h15 : getBit ins 15 = 0) :
    ∃ o, armLoadStoreMultiple h p ins = .ok o ∧ KeepsPc p o.2 := by
  have hbase : KeepsPc p (addrLsMultiple p ins).2.2 := by
    obtain ⟨value, hv⟩ := addrLsMultiple_state p ins
    rw [hv]
    split
    · exact .write p hRn _
    · exact .refl p
  by_cases hB : bitB ins = 0
  · by_cases hL : bitL ins = 0
    · exact ⟨_, armLoadStoreMultiple_store h p hL hB, hbase⟩
    · refine ⟨_, armLoadStoreMultiple_load h p hL hB, ?_⟩
      have hpc : ¬ getBit ins 15 = 1 := (getBit_ne_one_iff ..).mpr h15
      have hstate : ldmState h p ins = ldmRegisters h p ins := if_neg hpc
      rw [hstate]
      refine hbase.trans (.writeRegisters _ ?_)
      intro e he
      exact ne_pc_of_mem_loadedList (fst_mem_of_mem_loadEntries h p e he)
  · refine ⟨(UNDEFINED_INSTRUCTION, p), ?_, .refl p⟩
    rw [armLoadStoreMultiple, if_neg (fun hh => hB hh.2), if_neg (fun hh => hB hh.2)]

end Handlers

/-! ## The step -/

/-- A word that is no branch, has no r15 for a base, and does not name it as
its destination. -/
structure Sequential (ins : Word) : Prop where
  not_branch : getBits ins 27 25 ≠ 0b101
  base : bitsRn ins ≠ 15
  block : getBits ins 27 25 = 0b100 → getBit ins 15 = 0
  destination : getBits ins 27 25 ≠ 0b100 → rdNum ins ≠ 15

/-- The classes of branches and of block transfers have one value of bits 27
to 25 each. -/
theorem getBits_27_25_of_insClass (ins : Word) :
    (insClass ins = .branch → getBits ins 27 25 = 0b101) ∧
      (insClass ins = .loadStoreMultiple → getBits ins 27 25 = 0b100) := by
  have hlt := getBits_27_25_lt ins
  rw [← BitVec.toNat_inj, ← BitVec.toNat_inj]
  unfold insClass
  generalize (getBits ins 27 25).toNat = t at hlt ⊢
  interval_cases t
  · simp only
    split_ifs <;> exact ⟨nofun, nofun⟩
  all_goals exact ⟨fun hc => by cases hc <;> rfl, fun hc => by cases hc <;> rfl⟩

/-- Handlers run on such words leave r15 where the fetch has put it. -/
theorem dispatch_keepsPc (h : Host) (p : ArmCore) {ins : Word} (hs : Sequential ins) :
    ∃ o, dispatch h p ins = .ok o ∧ KeepsPc p o.2 := by
  have hRd : insClass ins ≠ .loadStoreMultiple → rdNum ins ≠ 15 := by
    intro hc
    exact hs.destination fun h100 => hc (insClass_of_bits h100)
  have hdp : insClass ins = .dpShift ∨ insClass ins = .dpImmediate →
      ∃ o, dispatch h p ins = .ok o ∧ KeepsPc p o.2 := by
    intro hc
    obtain ⟨sv, -, hd⟩ := dispatch_dataProcessing h p hc
    refine ⟨_, hd, dataProcessing_keepsPc p (hRd ?_) sv⟩
    rcases hc with hc | hc <;> rw [hc] <;> decide
  cases hc : insClass ins with
  | dpShift => exact hdp (Or.inl hc)
  | dpImmediate => exact hdp (Or.inr hc)
  | loadStore =>
      rw [dispatch_eq, hc]
      exact ⟨_, rfl, armLoadStore_keepsPc h p hs.base (hRd (by rw [hc]; decide))⟩
  | loadStoreMultiple =>
      rw [dispatch_eq, hc]
      exact armLoadStoreMultiple_keepsPc h p hs.base
        (hs.block ((getBits_27_25_of_insClass ins).2 hc))
  | miscellaneous =>
      rw [dispatch_eq, hc]
      exact ⟨_, rfl, armMiscellaneous_keepsPc p⟩
  | branch => exact absurd ((getBits_27_25_of_insClass ins).1 hc) hs.not_branch
  | coprocessorLoadStore =>
      rw [dispatch_eq, hc]
      exact ⟨_, rfl, .refl p⟩
  | othersSwi =>
      rw [dispatch_eq, hc]
      exact ⟨_, rfl, .write p (by decide) _⟩

/-- The step hands RESET to `arm_exception`. -/
def PerformsReset (h : Host) (p : ArmCore) : Prop :=
  ∃ result q, armExecuteInstruction h p = .ok (result, q) ∧ result ≠ 0 ∧
    ((BitVec.ofInt 8 result).toNat : Int) = RESET

theorem IsResult.ne_reset {result : Int} (hr : IsResult result) :
    ((BitVec.ofInt 8 result).toNat : Int) ≠ RESET := by
  rcases hr with rfl | rfl | rfl | rfl <;> decide

theorem armExecuteInstruction_eq (h : Host) (p : ArmCore) :
    armExecuteInstruction h p =
      if (fetchRead h p).1 ≠ 0 then .ok (-1, fetched p)
      else if armCondition (fetched p) (fetchRead h p).2 then
        dispatch h (fetched p) (fetchRead h p).2
      else .ok (0, fetched p) := by
  simp only [armExecuteInstruction, armFetch_eq]

/-- No step performs a reset. -/
theorem not_performsReset (h : Host) (p : ArmCore) : ¬ PerformsReset h p := by
  rintro ⟨result, q, hrun, -, hreset⟩
  have hresult : IsResult result → False := fun hr => hr.ne_reset hreset
  refine hresult ?_
  rw [armExecuteInstruction_eq] at hrun
  split_ifs at hrun with hfetch hc
  · obtain ⟨rfl, -⟩ := Prod.mk.inj (Except.ok.inj hrun)
    exact Or.inr (Or.inl rfl)
  · obtain ⟨o, ho, heff⟩ := dispatch_effective h (fetched p) (fetchRead h p).2
    obtain rfl := Except.ok.inj (hrun.symm.trans ho)
    exact heff.1
  · obtain ⟨rfl, -⟩ := Prod.mk.inj (Except.ok.inj hrun)
    exact Or.inl rfl

/-- After a fetch that succeeds, a word whose condition fails is skipped with
no other change, and one whose condition passes is followed by the next word
unless it branches or names r15; neither is a reset. -/
theorem sequential_flow (h : Host) (p : ArmCore) {A ins : Word} (hA : p.reg 15 = A)
    (hfetch : fetchRead h p = (0, ins)) :
    (armCondition (fetched p) ins = false → armStep h p = .ok (0,
      { p with reg := Function.update p.reg 15 (A + 4), cycleCount := p.cycleCount + 1 })) ∧
    (armCondition (fetched p) ins = true → Sequential ins →
      (∃ r p', armStep h p = .ok (r, p') ∧ p'.reg 15 = A + 4) ∧ ¬ PerformsReset h p) := by
  constructor
  · intro hc
    have hstate : fetched p = { p with
        reg := Function.update p.reg 15 (A + 4), cycleCount := p.cycleCount + 1 } :=
      ArmCore.ext rfl (by rw [fetched_reg, hA]) rfl rfl
    rw [armStep_eq, hfetch, if_neg (not_not.mpr rfl), hc, if_neg Bool.false_ne_true, raise_zero,
      hstate]
  · intro hc hs
    refine ⟨?_, not_performsReset h p⟩
    obtain ⟨o, ho, hkeeps⟩ := dispatch_keepsPc h (fetched p) hs
    obtain ⟨o', ho', heff⟩ := dispatch_effective h (fetched p) ins
    obtain rfl := Except.ok.inj (ho.symm.trans ho')
    obtain ⟨r, p', hraise, hreg, -⟩ := raise_keeps h heff.1
    refine ⟨r, p', by rw [armStep_of_executes ⟨hfetch, hc⟩, ho, hraise], ?_⟩
    rw [hreg, hkeeps, fetched_reg, Function.update_self, hA]

/-- A word that is refused once its base, r1, has been written back twice. -/
def refusingWord : ArmCore := booted 16 [0xE1F10092]

theorem sequential_flow_refusingWord :
    (∃ r p', armStep x86Host refusingWord = .ok (r, p') ∧ p'.reg 15 = 4) ∧
      ¬ PerformsReset x86Host refusingWord :=
  (@sequential_flow x86Host refusingWord 0 0xE1F10092 (by decide +kernel)
    (by decide +kernel)).2 (by decide +kernel)
    ⟨by decide, by decide, by decide, by decide⟩

end Armator
