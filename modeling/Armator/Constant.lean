/-
What no step changes.

A step writes registers, the CPSR and bytes of the memory.  It writes no
SPSR, and the memory keeps its size.
-/
import Armator.DataAccess

namespace Armator

section Size

variable (h : Host) (p : ArmCore) (ins : Word)

theorem loadStoreMode2_memSize (address : Word) (Rd_num : Fin 16) :
    (loadStoreMode2 h p ins address Rd_num).2.mem.size = p.mem.size := by
  unfold loadStoreMode2
  split_ifs
  · rfl
  · exact memoryWriteBytes_size (n := 4) ..
  · rfl
  · exact memoryWriteByte_size ..

theorem loadStoreMode3_memSize (address : Word) (Rd_num : Fin 16) :
    (loadStoreMode3 h p ins address Rd_num).2.mem.size = p.mem.size := by
  unfold loadStoreMode3
  split_ifs
  · rfl
  · exact memoryWriteBytes_size (n := 2) ..
  · -- the loads write no memory
    split <;> rfl
  · split <;> rfl

theorem armLoadStore_memSize : (armLoadStore h p ins).2.mem.size = p.mem.size := by
  by_cases hr : LoadStoreRefuses p ins
  · rw [armLoadStore_of_refuses h p hr, (refusedState_frame p ins).1]
  · unfold LoadStoreRefuses at hr
    push Not at hr
    rw [armLoadStore_eq h p hr.1, if_neg hr.2.1]
    split_ifs
    · rw [loadStoreMode2_memSize, mode2State_mem]
    · rw [loadStoreMode3_memSize, mode3State_mem, mode2State_mem]

theorem armLoadStoreMultiple_memSize :
    ∃ o, armLoadStoreMultiple h p ins = .ok o ∧ o.2.mem.size = p.mem.size := by
  by_cases hB : bitB ins = 0
  · by_cases hL : bitL ins = 0
    · exact ⟨_, armLoadStoreMultiple_store h p hL hB, storeWords_size ..⟩
    · refine ⟨_, armLoadStoreMultiple_load h p hL hB, ?_⟩
      have hmem : (ldmState h p ins).mem = p.mem := by
        unfold ldmState ldmRegisters
        simp only
        split_ifs <;> simp
      rw [hmem]
  · refine ⟨(UNDEFINED_INSTRUCTION, p), ?_, rfl⟩
    rw [armLoadStoreMultiple, if_neg fun hh => hB hh.2, if_neg fun hh => hB hh.2]

theorem dispatch_memSize : ∃ o, dispatch h p ins = .ok o ∧ o.2.mem.size = p.mem.size := by
  have hdp : insClass ins = .dpShift ∨ insClass ins = .dpImmediate →
      ∃ o, dispatch h p ins = .ok o ∧ o.2.mem.size = p.mem.size := by
    intro hc
    obtain ⟨sv, -, hd⟩ := dispatch_dataProcessing h p hc
    exact ⟨_, hd, by rw [dataProcessing_mem]⟩
  cases hc : insClass ins with
  | dpShift => exact hdp (Or.inl hc)
  | dpImmediate => exact hdp (Or.inr hc)
  | loadStore =>
      rw [dispatch_eq, hc]
      exact ⟨_, rfl, armLoadStore_memSize h p ins⟩
  | loadStoreMultiple =>
      rw [dispatch_eq, hc]
      exact armLoadStoreMultiple_memSize h p ins
  | miscellaneous =>
      rw [dispatch_eq, hc]
      exact ⟨_, rfl, by rw [armMiscellaneous_mem]⟩
  | branch =>
      rw [dispatch_eq, hc]
      exact ⟨_, rfl, by rw [armBranch_mem]⟩
  | coprocessorLoadStore =>
      rw [dispatch_eq, hc]
      exact ⟨_, rfl, rfl⟩
  | othersSwi =>
      rw [dispatch_eq, hc]
      exact ⟨_, rfl, rfl⟩

end Size

/-- Two states of one processor: the size of the memory and the SPSRs, which
nothing writes. -/
structure SameProcessor (p p' : ArmCore) : Prop where
  memSize : p'.mem.size = p.mem.size
  spsr : ∀ k : Fin 37, 32 ≤ k.val → p'.reg k = p.reg k

namespace SameProcessor

theorem refl (p : ArmCore) : SameProcessor p p := ⟨rfl, fun _ _ => rfl⟩

theorem trans {p q p' : ArmCore} (h : SameProcessor p q) (h' : SameProcessor q p') :
    SameProcessor p p' :=
  ⟨h'.memSize.trans h.memSize, fun k hk => (h'.spsr k hk).trans (h.spsr k hk)⟩

/-- Writing a register touches no SPSR. -/
theorem write (p : ArmCore) (reg : Fin 16) (value : Word) :
    SameProcessor p (armWriteRegister p reg value) :=
  ⟨rfl, fun _ hk => (RegWrites.write p reg value).spsr (Nat.le_of_succ_le hk)⟩

theorem writeCpsr (p : ArmCore) (value : Word) : SameProcessor p (armWriteCpsr p value) := by
  refine ⟨rfl, fun k hk => ?_⟩
  have hne : k ≠ 31 := by
    rintro rfl
    exact absurd hk (by decide)
  exact Function.update_of_ne hne ..

/-- Nor does an exception. -/
theorem exception (h : Host) (p : ArmCore) (exception : Byte) :
    SameProcessor p (armException h p exception).2 := by
  by_cases h8 : exception = 8
  · subst h8
    rcases armException_swi_cases h p with he | he | he <;> rw [he] <;>
      exact ⟨rfl, fun _ _ => rfl⟩
  · by_cases h1 : exception = 1
    · subst h1
      exact (writeCpsr p 0x1d3).trans (write _ 15 0)
    · rw [armException_other h p h1 h8]
      exact refl p

/-- A step keeps the size of the memory. -/
theorem step_memSize (h : Host) (p : ArmCore) :
    ∃ r p', armStep h p = .ok (r, p') ∧ p'.mem.size = p.mem.size := by
  rcases armStep_cases h p with hs | hs | ⟨ins, -, hs⟩
  · exact ⟨_, _, hs, rfl⟩
  · exact ⟨_, _, hs, rfl⟩
  · obtain ⟨o, ho, hr, -⟩ := dispatch_effective h (fetched p) ins
    obtain ⟨o', ho', hsize⟩ := dispatch_memSize h (fetched p) ins
    obtain rfl := Except.ok.inj (ho.symm.trans ho')
    obtain ⟨r, p', hraise, -, hmem⟩ := raise_keeps h hr
    exact ⟨r, p', by rw [hs, ho, hraise], by rw [hmem, hsize, fetched_mem]⟩

theorem step (h : Host) {p p' : ArmCore} {r : Int} (hstep : armStep h p = .ok (r, p')) :
    SameProcessor p p' := by
  obtain ⟨r₁, p₁, hs₁, hsize⟩ := step_memSize h p
  obtain ⟨r₂, p₂, hs₂, heffect⟩ := armStep_effect h p
  cases hstep.symm.trans hs₁
  cases hstep.symm.trans hs₂
  refine ⟨hsize, fun k hk => heffect.slot_of_invisible ?_ fun n hn => ?_⟩
  · rintro rfl
    exact absurd hk (by decide)
  · have := slot_val_lt n (registersGetMode p.reg)
    rw [hn] at this
    omega

end SameProcessor

end Armator
