/-
Software interrupts served by the simulator.

`swi 0x000001` is `putchar`: there is no operating system, the simulator
sends the byte and goes on.  Its handler nevertheless does what a
processor that enters an exception mode does with the return address, and
writes it to r14, but in the current mode: the caller's r14 is lost.  The
routine `my_putchar` of `my_syscalls.s`, which returns through it, returns
to itself.

`swi 0x123456` is the end of the simulation.  The decoder takes a word for
a software interrupt by its bits 27 to 25, and `arm_exception` looks at
its bits 23 to 0: nobody looks at bit 24, and a coprocessor operation can
end the simulation too (`end_simulation_iff`).
-/
import Armator.Addressing

namespace Armator

/-! ## The exception reads the instruction again -/

/-- The state `arm_coprocessor_others_swi` hands to the exception. -/
def swiState (p : ArmCore) (A : Word) : ArmCore := armWriteRegister (fetched p) 14 (A + 4)

theorem armStep_othersSwi {h : Host} {p : ArmCore} {A ins : Word} (hf : FetchedAt h p A ins)
    (hc : armCondition (fetched p) ins = true) (hi : insClass ins = .othersSwi) :
    armStep h p = .ok (armException h (swiState p A) 8) := by
  have hreturn : armReadRegister (fetched p) 15 - 4 = A + 4 := by
    rw [hf.readPc]
    ring
  rw [armStep_of_fetchedAt hf hc, dispatch_eq, hi]
  show raise h (.ok (SOFTWARE_INTERRUPT,
    armWriteRegister (fetched p) 14 (armReadRegister (fetched p) 15 - 4))) = _
  rw [hreturn, raise_swi]
  rfl

/-- What the exception finds at the address of the word is the word. -/
theorem armException_swiState {h : Host} {p : ArmCore} {A ins : Word}
    (hf : FetchedAt h p A ins) :
    armException h (swiState p A) 8
      = if ins &&& 0xFFFFFF = 0x123456 then (END_SIMULATION, swiState p A)
        else if ins &&& 0xFFFFFF = 0x000001 then
          (0, { swiState p A with stdout := p.stdout ++ [(armReadRegister p 0).setWidth 8] })
        else (SOFTWARE_INTERRUPT, swiState p A) := by
  have hpc : armReadRegister (swiState p A) 15 - 8 = A := by
    rw [swiState, armReadRegister_write_of_ne _ _ (by decide), hf.readPc]
    ring
  have hword : (armReadWord h (swiState p A) A (h.garbage .instruction)).2 = ins := by
    rw [armReadWord, swiState, armWriteRegister_mem, fetched_mem,
      memoryReadWord_eq _ _ _ _ hf.inRange, hf.word]
  have hr0 : armReadRegister (swiState p A) 0 = armReadRegister p 0 := by
    rw [swiState, armReadRegister_write_of_ne _ _ (by decide),
      armReadRegister_fetched p (by decide)]
  have h8 : (((8 : Byte).toNat : Nat) : Int) = SOFTWARE_INTERRUPT := rfl
  have h1 : ¬ (((8 : Byte).toNat : Nat) : Int) = RESET := by decide
  simp only [armException, hpc, hword, hr0, if_neg h1]
  rw [if_pos h8]
  rfl

/-! ## `putchar` -/

/-- The word is `swi 0x000001`, under any condition. -/
structure IsPutchar (ins : Word) : Prop where
  swi : getBits ins 27 24 = 0b1111
  number : ins &&& 0xFFFFFF = 0x000001

/-- `mov pc, lr` -/
def movPcLr : Word := 0xE1A0F00E

/-- Where `mov pc, lr` comes next, it goes to the address r14 holds in `p`. -/
def LeafReturns (h : Host) (A : Word) (p p' : ArmCore) : Prop :=
  p.mem.InRange (A + 4) 4 → p.mem.wordAt h.endianess (A + 4) = movPcLr →
    ∃ p'', armStep h p' = .ok (0, p'') ∧ p''.reg 15 = armReadRegister p 14

theorem IsPutchar.insClass {ins : Word} (hi : IsPutchar ins) : insClass ins = .othersSwi := by
  unfold Armator.insClass
  rw [getBits_of_field (l := 25) hi.swi]
  rfl

/-- The state `swi 0x000001` leaves. -/
def putcharState (p : ArmCore) (A : Word) : ArmCore :=
  { armWriteRegister (fetched p) 14 (A + 4) with
    stdout := p.stdout ++ [(armReadRegister p 0).setWidth 8] }

theorem armStep_putchar {h : Host} {p : ArmCore} {A ins : Word} (hf : FetchedAt h p A ins)
    (hc : armCondition (fetched p) ins = true) (hi : IsPutchar ins) :
    armStep h p = .ok (0, putcharState p A) := by
  rw [armStep_othersSwi hf hc hi.insClass, armException_swiState hf, hi.number,
    if_neg (by decide), if_pos rfl]
  rfl

/-- Under any state `mov pc, lr` jumps to what r14 holds. -/
theorem armStep_movPcLr {h : Host} {p : ArmCore} {A : Word} (hf : FetchedAt h p A movPcLr) :
    armStep h p = .ok (0, armWriteRegister (fetched p) 15 (armReadRegister p 14)) := by
  have hr14 := armReadRegister_fetched p (n := 14) (by decide)
  have hsv : shifterValuesCalculator (fetched p) movPcLr (flagC (fetched p))
      = some ⟨flagC (fetched p), armReadRegister p 14⟩ := by
    rw [← hr14]
    rfl
  rw [armStep_of_fetchedAt hf rfl, dispatch_eq]
  show raise h (armDataProcessingShift (fetched p) movPcLr) = _
  rw [armDataProcessingShift_eq hsv]
  rfl

theorem putcharState_reg (p : ArmCore) (A : Word) :
    (putcharState p A).reg = Function.update (Function.update p.reg 15 (p.reg 15 + 4))
      (slot 14 (registersGetMode p.reg)) (A + 4) := by
  show (armWriteRegister (fetched p) 14 (A + 4)).reg = _
  rw [armWriteRegister_reg, fetched_mode, fetched_reg]

/-- `swi 0x000001` is transparent exactly when r14 happens to hold the
address of the next instruction, the value the handler puts there. -/
theorem putchar_transparent_iff (h : Host) (p : ArmCore) (A ins : Word)
    (hf : FetchedAt h p A ins) (hc : armCondition (fetched p) ins = true)
    (hi : IsPutchar ins) :
    ∃ p', armStep h p = .ok (0, p') ∧
      (OnlyAdvances p p' ∧ LeafReturns h A p p' ↔ armReadRegister p 14 = A + 4) := by
  have hr14 : armReadRegister p 14 = p.reg (slot 14 (registersGetMode p.reg)) :=
    armReadRegister_of_ne_pc (by decide)
  have hpc : (putcharState p A).reg 15 = A + 4 := by
    rw [putcharState_reg, Function.update_of_ne (Ne.symm (slot_ne_pc (by decide) _)),
      Function.update_self, hf.pc]
  refine ⟨putcharState p A, armStep_putchar hf hc hi, ?_, ?_⟩
  · rintro ⟨ht, -⟩
    rw [hr14, ← ht.registers _ (slot_ne_pc (by decide) _), putcharState_reg, Function.update_self]
  · intro h14
    refine ⟨⟨by rw [hpc, hf.pc], ?_, rfl⟩, ?_⟩
    · intro k hk
      rw [putcharState_reg, ← h14, hr14]
      by_cases hs : k = slot 14 (registersGetMode p.reg)
      · rw [hs, Function.update_self]
      · rw [Function.update_of_ne hs, Function.update_of_ne hk]
    · intro hr hw
      have hf' : FetchedAt h (putcharState p A) (A + 4) movPcLr :=
        ⟨hpc, aligned_add hf.aligned (n := 4) (by decide), hr, hw⟩
      refine ⟨_, armStep_movPcLr hf', ?_⟩
      have hlr : armReadRegister (putcharState p A) 14 = A + 4 :=
        armReadRegister_write_self (fetched p) (A + 4) (by decide)
      rw [armWriteRegister_pc, hlr, h14]

/-- `my_putchar`, called from 0xFC. -/
def calledPutchar : ArmCore := armWriteRegister (booted 16 [0xEF000001, movPcLr]) 14 0x100

theorem putchar_transparent_iff_calledPutchar :
    ∃ p', armStep x86Host calledPutchar = .ok (0, p') ∧
      (OnlyAdvances calledPutchar p' ∧ LeafReturns x86Host 0 calledPutchar p' ↔
        armReadRegister calledPutchar 14 = 0 + 4) :=
  putchar_transparent_iff x86Host calledPutchar 0 0xEF000001
    ⟨by decide, by decide, by decide, by decide +kernel⟩ (by decide) ⟨by decide, by decide⟩

/-- There r14 changes, and the routine returns to its own second
instruction. -/
theorem putchar_loses_lr :
    FetchedAt x86Host calledPutchar 0 0xEF000001 ∧ IsPutchar 0xEF000001 ∧
    armCondition (fetched calledPutchar) 0xEF000001 = true ∧
    ∃ p' p'', armStep x86Host calledPutchar = .ok (0, p') ∧ ¬ OnlyAdvances calledPutchar p' ∧
      armStep x86Host p' = .ok (0, p'') ∧
      armReadRegister calledPutchar 14 = 0x100 ∧ p''.reg 15 = 4 := by
  have hf : FetchedAt x86Host calledPutchar 0 0xEF000001 :=
    ⟨by decide, by decide, by decide, by decide +kernel⟩
  have hi : IsPutchar 0xEF000001 := ⟨by decide, by decide⟩
  have hf' : FetchedAt x86Host (putcharState calledPutchar 0) 4 movPcLr :=
    ⟨by decide +kernel, by decide, by decide, by decide +kernel⟩
  refine ⟨hf, hi, by decide, _, _, armStep_putchar hf (by decide) hi, ?_, armStep_movPcLr hf',
    by decide +kernel, by decide +kernel⟩
  intro ht
  have h14 := ht.registers 17 (by decide)
  exact absurd h14 (by decide +kernel)

/-! ## The end of the simulation -/

/-- The word is `swi 0x123456`, under any condition. -/
structure IsEndSimulation (ins : Word) : Prop where
  swi : getBits ins 27 24 = 0b1111
  number : ins &&& 0xFFFFFF = 0x123456

/-- The word is a coprocessor operation whose low 24 bits are 0x123456. -/
structure IsCoprocessorEnd (ins : Word) : Prop where
  coprocessor : getBits ins 27 24 = 0b1110
  number : ins &&& 0xFFFFFF = 0x123456

theorem insClass_othersSwi_iff (ins : Word) :
    insClass ins = .othersSwi ↔ getBits ins 27 24 = 0b1110 ∨ getBits ins 27 24 = 0b1111 := by
  have hlt := getBits_27_25_lt ins
  have hsub : (getBits ins 27 25).toNat = (getBits ins 27 24).toNat / 2 := by
    rw [toNat_getBits, toNat_getBits]
    omega
  have hiff : getBits ins 27 24 = 0b1110 ∨ getBits ins 27 24 = 0b1111 ↔
      (getBits ins 27 25).toNat = 7 := by
    rw [← BitVec.toNat_inj, ← BitVec.toNat_inj, show (0b1110 : Word).toNat = 14 from rfl,
      show (0b1111 : Word).toNat = 15 from rfl]
    omega
  rw [hiff]
  unfold insClass
  generalize (getBits ins 27 25).toNat = t at hlt
  interval_cases t
  · simp only
    split_ifs <;> simp
  all_goals simp

theorem zero_ne_swi : (0 : Int) ≠ SOFTWARE_INTERRUPT := by decide

theorem undefined_ne_swi : UNDEFINED_INSTRUCTION ≠ SOFTWARE_INTERRUPT := by decide

section Results

variable (h : Host) (p : ArmCore) (ins : Word)

theorem dataProcessing_ne_swi (sv : ShifterValues) :
    (dataProcessing p ins sv).1 ≠ SOFTWARE_INTERRUPT := by
  unfold dataProcessing alu writeRd
  simp only
  split_ifs
  · exact zero_ne_swi
  · exact zero_ne_swi
  · exact undefined_ne_swi
  · exact zero_ne_swi
  · exact zero_ne_swi

theorem armMiscellaneous_ne_swi : (armMiscellaneous p ins).1 ≠ SOFTWARE_INTERRUPT := by
  unfold armMiscellaneous
  simp only
  split_ifs
  · exact (by decide : (-1 : Int) ≠ SOFTWARE_INTERRUPT)
  · exact zero_ne_swi
  · exact zero_ne_swi
  · exact undefined_ne_swi

theorem armLoadStore_ne_swi : (armLoadStore h p ins).1 ≠ SOFTWARE_INTERRUPT := by
  by_cases hr : LoadStoreRefuses p ins
  · rw [armLoadStore_of_refuses h p hr]
    exact undefined_ne_swi
  · rw [armLoadStore_of_not_refuses h p hr]
    exact zero_ne_swi

theorem armLoadStoreMultiple_ne_swi {o : Int × ArmCore}
    (ho : armLoadStoreMultiple h p ins = .ok o) : o.1 ≠ SOFTWARE_INTERRUPT := by
  by_cases hB : bitB ins = 0
  · by_cases hL : bitL ins = 0
    · rw [armLoadStoreMultiple_store h p hL hB] at ho
      obtain rfl := Except.ok.inj ho
      exact zero_ne_swi
    · rw [armLoadStoreMultiple_load h p hL hB] at ho
      obtain rfl := Except.ok.inj ho
      exact zero_ne_swi
  · rw [armLoadStoreMultiple, if_neg (fun hc => hB hc.2), if_neg (fun hc => hB hc.2)] at ho
    obtain rfl := Except.ok.inj ho
    exact undefined_ne_swi

end Results

/-- Only a word of the last class raises a software interrupt. -/
theorem dispatch_ne_swi {h : Host} {p : ArmCore} {ins : Word} {o : Int × ArmCore}
    (hc : insClass ins ≠ .othersSwi) (ho : dispatch h p ins = .ok o) :
    o.1 ≠ SOFTWARE_INTERRUPT := by
  by_cases hdp : insClass ins = .dpShift ∨ insClass ins = .dpImmediate
  · obtain ⟨sv, -, hd⟩ := dispatch_dataProcessing h p hdp
    obtain rfl := Except.ok.inj (hd.symm.trans ho)
    exact dataProcessing_ne_swi p ins sv
  rw [dispatch_eq] at ho
  cases hcl : insClass ins with
  | miscellaneous =>
      rw [hcl] at ho
      obtain rfl := Except.ok.inj ho
      exact armMiscellaneous_ne_swi p ins
  | loadStore =>
      rw [hcl] at ho
      obtain rfl := Except.ok.inj ho
      exact armLoadStore_ne_swi h p ins
  | dpShift => exact absurd (Or.inl hcl) hdp
  | dpImmediate => exact absurd (Or.inr hcl) hdp
  | loadStoreMultiple =>
      rw [hcl] at ho
      exact armLoadStoreMultiple_ne_swi h p ins ho
  | branch =>
      rw [hcl] at ho
      obtain rfl := Except.ok.inj ho
      exact zero_ne_swi
  | coprocessorLoadStore =>
      rw [hcl] at ho
      obtain rfl := Except.ok.inj ho
      exact undefined_ne_swi
  | othersSwi => exact absurd hcl hc

theorem IsResult.ne_end {result : Int} (hr : IsResult result) : result ≠ END_SIMULATION := by
  rcases hr with rfl | rfl | rfl | rfl <;> decide

/-- Only a software interrupt ends the simulation. -/
theorem raise_ne_end {h : Host} {o : Int × ArmCore} (hr : IsResult o.1)
    (hs : o.1 ≠ SOFTWARE_INTERRUPT) :
    ∃ r p', raise h (.ok o) = .ok (r, p') ∧ r ≠ END_SIMULATION := by
  rcases raise_result h hr with ⟨-, r, hraise, hres⟩ | ⟨hswi, -⟩
  · refine ⟨r, o.2, hraise, ?_⟩
    rcases hres with hres | ⟨-, hres⟩
    · rw [hres]
      exact hr.ne_end
    · rw [hres]
      exact (by decide : (255 : Int) ≠ END_SIMULATION)
  · exact absurd hswi hs

/-- What ends the simulation: a word that passes, is of the last class and
has the number in its low 24 bits, whatever its bit 24. -/
theorem armStep_end_iff {h : Host} {p : ArmCore} {A ins : Word} (hf : FetchedAt h p A ins) :
    ∃ r p', armStep h p = .ok (r, p') ∧
      (r = END_SIMULATION ↔ armCondition (fetched p) ins = true ∧
        (IsEndSimulation ins ∨ IsCoprocessorEnd ins)) := by
  have hends : IsEndSimulation ins ∨ IsCoprocessorEnd ins ↔
      insClass ins = .othersSwi ∧ ins &&& 0xFFFFFF = 0x123456 := by
    rw [insClass_othersSwi_iff]
    constructor
    · rintro (⟨h1, h2⟩ | ⟨h1, h2⟩)
      · exact ⟨Or.inr h1, h2⟩
      · exact ⟨Or.inl h1, h2⟩
    · rintro ⟨h1 | h1, h2⟩
      · exact Or.inr ⟨h1, h2⟩
      · exact Or.inl ⟨h1, h2⟩
  rw [hends]
  by_cases hc : armCondition (fetched p) ins = true
  · by_cases hcl : insClass ins = .othersSwi
    · refine ⟨(armException h (swiState p A) 8).1, (armException h (swiState p A) 8).2,
        armStep_othersSwi hf hc hcl, ?_⟩
      rw [armException_swiState hf]
      by_cases hn : ins &&& 0xFFFFFF = 0x123456
      · rw [if_pos hn]
        exact iff_of_true rfl ⟨hc, hcl, hn⟩
      · rw [if_neg hn]
        refine iff_of_false ?_ fun hh => hn hh.2.2
        split_ifs
        · exact (by decide : (0 : Int) ≠ END_SIMULATION)
        · exact (by decide : SOFTWARE_INTERRUPT ≠ END_SIMULATION)
    · obtain ⟨o, ho, hr, -⟩ := dispatch_effective h (fetched p) ins
      obtain ⟨r, p', hraise, hne⟩ := raise_ne_end (h := h) hr (dispatch_ne_swi hcl ho)
      refine ⟨r, p', by rw [armStep_of_fetchedAt hf hc, ho, hraise], ?_⟩
      exact iff_of_false hne fun hh => hcl hh.2.1
  · refine ⟨0, fetched p, ?_, iff_of_false (by decide) fun hh => hc hh.1⟩
    rw [armStep_eq, hf.fetchRead, if_neg (not_not.mpr rfl), if_neg hc, raise_zero]

/-- The end of the simulation is reported exactly for `swi 0x123456`,
unless a coprocessor operation with that number is executed. -/
theorem end_simulation_iff (h : Host) (p : ArmCore) (A ins : Word) (hf : FetchedAt h p A ins) :
    ∃ r p', armStep h p = .ok (r, p') ∧
      ((r = END_SIMULATION ↔ armCondition (fetched p) ins = true ∧ IsEndSimulation ins) ↔
        ¬ (armCondition (fetched p) ins = true ∧ IsCoprocessorEnd ins)) := by
  obtain ⟨r, p', hs, hiff⟩ := armStep_end_iff hf
  refine ⟨r, p', hs, ?_⟩
  have hdisjoint : ¬ (IsEndSimulation ins ∧ IsCoprocessorEnd ins) := by
    rintro ⟨h1, h2⟩
    exact absurd (h1.swi.symm.trans h2.coprocessor) (by decide)
  rw [hiff]
  tauto

/-- `swi 0x123456` in SVC mode. -/
def endingSimulation : ArmCore := booted 16 [0xEF123456]

theorem end_simulation_iff_endingSimulation :
    ∃ r p', armStep x86Host endingSimulation = .ok (r, p') ∧
      ((r = END_SIMULATION ↔
          armCondition (fetched endingSimulation) 0xEF123456 = true ∧
            IsEndSimulation 0xEF123456) ↔
        ¬ (armCondition (fetched endingSimulation) 0xEF123456 = true ∧
          IsCoprocessorEnd 0xEF123456)) :=
  end_simulation_iff x86Host endingSimulation 0 0xEF123456
    ⟨by decide, by decide, by decide, by decide +kernel⟩

/-- `MRC p4, 0, r3, c2, c6, 2`, a coprocessor register transfer. -/
def transferring : ArmCore := booted 16 [0xEE123456]

theorem coprocessor_ends_simulation :
    FetchedAt x86Host transferring 0 0xEE123456 ∧ ¬ IsEndSimulation 0xEE123456 ∧
    ∃ p', armStep x86Host transferring = .ok (END_SIMULATION, p') := by
  refine ⟨⟨by decide, by decide, by decide, by decide +kernel⟩, ?_, _, rfl⟩
  intro hi
  exact absurd hi.swi (by decide)

end Armator
