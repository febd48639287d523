/-
What one step can write.

A handler writes registers of the current mode, and after that perhaps
the CPSR; it writes nothing else of the register file.  `RegWrites` and
`Effect` say so, each handler is shown to have such an effect, and so is
the step.  The CPSR values a step can leave are few, and `CpsrWrite` lists
them.  One of them, taken by a load-multiple that loads an odd r15, is
kept apart: its proposition `thumb` is a parameter.

The lemmas are in the order of the handlers.  None of them says what the
values written are; where that matters the handlers have equations.
-/
import Armator.Alu
import Armator.BlockTransfer

namespace Armator

open Replay

/-! ## Register writes -/

/-- The slots a list of register writes goes to. -/
def bankEntries (mode : Byte) (entries : List (Fin 16 × Word)) : List (Fin 37 × Word) :=
  entries.map fun e => (slot e.1 mode, e.2)

/-- `p'` has the registers of `p` after writes in the mode of `p`. -/
def RegWrites (p p' : ArmCore) : Prop :=
  ∃ entries, p'.reg = replay p.reg (bankEntries (registersGetMode p.reg) entries)

namespace RegWrites

theorem of_reg_eq {p p' : ArmCore} (h : p'.reg = p.reg) : RegWrites p p' :=
  ⟨[], h⟩

theorem refl (p : ArmCore) : RegWrites p p := of_reg_eq rfl

theorem write (p : ArmCore) (reg : Fin 16) (value : Word) :
    RegWrites p (armWriteRegister p reg value) :=
  ⟨[(reg, value)], armWriteRegister_reg ..⟩

theorem writeByte (p : ArmCore) (address : Word) (value : Byte) :
    RegWrites p (armWriteByte p address value).2 := of_reg_eq rfl

theorem writeHalf (h : Host) (p : ArmCore) (address : Word) (value : Half) :
    RegWrites p (armWriteHalf h p address value).2 := of_reg_eq rfl

theorem writeWord (h : Host) (p : ArmCore) (address value : Word) :
    RegWrites p (armWriteWord h p address value).2 := of_reg_eq rfl

theorem ne_cpsr {mode : Byte} {entries : List (Fin 16 × Word)} :
    ∀ e ∈ bankEntries mode entries, e.1 ≠ 31 := by
  intro e he
  obtain ⟨e', _, rfl⟩ := List.mem_map.mp he
  exact slot_ne_cpsr e'.1 mode

/-- Register writes never touch the CPSR. -/
theorem cpsr {p p' : ArmCore} (h : RegWrites p p') : p'.reg 31 = p.reg 31 := by
  obtain ⟨entries, he⟩ := h
  rw [he, replay_of_forall_ne _ ne_cpsr]

theorem mode {p p' : ArmCore} (h : RegWrites p p') :
    registersGetMode p'.reg = registersGetMode p.reg := by
  rw [registersGetMode, registersGetMode, h.cpsr]

theorem readCpsr {p p' : ArmCore} (h : RegWrites p p') : armReadCpsr p' = armReadCpsr p :=
  h.cpsr

theorem hasSpsr {p p' : ArmCore} (h : RegWrites p p') :
    armCurrentModeHasSpsr p' = armCurrentModeHasSpsr p := by
  simp only [armCurrentModeHasSpsr, registersCurrentModeHasSpsr, h.mode]

theorem trans {p q p' : ArmCore} (h : RegWrites p q) (h' : RegWrites q p') :
    RegWrites p p' := by
  have hm := h.mode
  obtain ⟨entries, he⟩ := h
  obtain ⟨entries', he'⟩ := h'
  refine ⟨entries ++ entries', ?_⟩
  rw [he', hm, he, ← replay_append, bankEntries, bankEntries, bankEntries, List.map_append]

/-- A slot that is no register of the current mode keeps its value. -/
theorem slot_of_invisible {p p' : ArmCore} (h : RegWrites p p') {k : Fin 37}
    (hk : ∀ n, slot n (registersGetMode p.reg) ≠ k) : p'.reg k = p.reg k := by
  obtain ⟨entries, he⟩ := h
  rw [he]
  refine replay_of_forall_ne _ ?_
  intro e hmem
  obtain ⟨e', _, rfl⟩ := List.mem_map.mp hmem
  exact hk e'.1

/-- The SPSRs are no register of any mode. -/
theorem spsr {p p' : ArmCore} (h : RegWrites p p') {k : Fin 37} (hk : 31 ≤ k.val) :
    p'.reg k = p.reg k := by
  apply h.slot_of_invisible
  intro n hn
  have := slot_val_lt n (registersGetMode p.reg)
  rw [hn] at this
  omega

theorem readSpsr {p p' : ArmCore} (h : RegWrites p p') : armReadSpsr p' = armReadSpsr p := by
  unfold armReadSpsr registersReadSpsr
  rw [h.mode, h.spsr (k := 36) (by decide), h.spsr (k := 35) (by decide),
    h.spsr (k := 32) (by decide), h.spsr (k := 33) (by decide), h.spsr (k := 34) (by decide)]

theorem writeRegisters (p : ArmCore) (entries : List (Fin 16 × Word)) :
    RegWrites p (writeRegisters p entries) := by
  induction entries generalizing p with
  | nil => exact refl p
  | cons e entries ih =>
      rw [writeRegisters_cons]
      exact (write p e.1 e.2).trans (ih _)

end RegWrites

/-! ## Effects -/

/-- The CPSR values a handler run in `p` can leave. -/
inductive CpsrWrite (thumb : Prop) (p : ArmCore) : Word → Prop where
  /-- the CPSR is not written -/
  | keep : CpsrWrite thumb p (armReadCpsr p)
  /-- flags are set -/
  | flags {value : Word} : (∀ i < 28, value.getLsbD i = (armReadCpsr p).getLsbD i) →
      CpsrWrite thumb p value
  /-- the SPSR is copied, where there is one -/
  | restore : armCurrentModeHasSpsr p = true → CpsrWrite thumb p (armReadSpsr p)
  /-- an even r15 is loaded -/
  | clearT : CpsrWrite thumb p (clrBit (armReadCpsr p) 5)
  /-- an odd r15 is loaded -/
  | setT : thumb → CpsrWrite thumb p (setBit (armReadSpsr p) 5)

/-- Register writes in the mode of `p`, then a CPSR value. -/
def Effect (thumb : Prop) (p p' : ArmCore) : Prop :=
  ∃ q value, RegWrites p q ∧ CpsrWrite thumb p value ∧
    p'.reg = Function.update q.reg 31 value

/-- The results handlers return. -/
def IsResult (result : Int) : Prop :=
  result = 0 ∨ result = -1 ∨ result = UNDEFINED_INSTRUCTION ∨ result = SOFTWARE_INTERRUPT

/-- A handler's result and the effect it had. -/
def Effective (thumb : Prop) (p : ArmCore) (o : Int × ArmCore) : Prop :=
  IsResult o.1 ∧ Effect thumb p o.2

/-- A handler's result, where the CPSR is not written. -/
def Plain (p : ArmCore) (o : Int × ArmCore) : Prop :=
  IsResult o.1 ∧ RegWrites p o.2

section

variable {thumb : Prop} {p q p' : ArmCore}

theorem RegWrites.effect (h : RegWrites p p') : Effect thumb p p' := by
  refine ⟨p', armReadCpsr p, h, .keep, ?_⟩
  rw [← h.readCpsr]
  exact (Function.update_eq_self ..).symm

theorem RegWrites.writeCpsr (h : RegWrites p q) {value : Word} (hv : CpsrWrite thumb p value) :
    Effect thumb p (armWriteCpsr q value) :=
  ⟨q, value, h, hv, rfl⟩

/-- A CPSR value possible after register writes was possible before. -/
theorem CpsrWrite.of_regWrites (h : RegWrites p q) {value : Word} :
    CpsrWrite thumb q value → CpsrWrite thumb p value := by
  intro hv
  cases hv with
  | keep => rw [h.readCpsr]; exact .keep
  | flags hf => rw [h.readCpsr] at hf; exact .flags hf
  | restore hs => rw [h.readSpsr]; exact .restore (h.hasSpsr.symm.trans hs)
  | clearT => rw [h.readCpsr]; exact .clearT
  | setT ht => rw [h.readSpsr]; exact .setT ht

theorem Effect.of_regWrites (h : RegWrites p q) (h' : Effect thumb q p') :
    Effect thumb p p' := by
  obtain ⟨r, value, hr, hv, hp⟩ := h'
  exact ⟨r, value, h.trans hr, hv.of_regWrites h, hp⟩

/-- The CPSR an effect leaves. -/
theorem Effect.cpsrWrite (h : Effect thumb p p') : CpsrWrite thumb p (armReadCpsr p') := by
  obtain ⟨q, value, _, hv, hp⟩ := h
  have : armReadCpsr p' = value := by
    show p'.reg 31 = value
    rw [hp, Function.update_self]
  rw [this]
  exact hv

theorem Effect.slot_of_invisible (h : Effect thumb p p') {k : Fin 37} (hc : k ≠ 31)
    (hk : ∀ n, slot n (registersGetMode p.reg) ≠ k) : p'.reg k = p.reg k := by
  obtain ⟨q, value, hr, _, hp⟩ := h
  rw [hp, Function.update_of_ne hc, hr.slot_of_invisible hk]

theorem Plain.effective {o : Int × ArmCore} (h : Plain p o) : Effective thumb p o :=
  ⟨h.1, h.2.effect⟩

theorem RegWrites.ok (h : RegWrites p p') : Plain p (0, p') :=
  ⟨Or.inl rfl, h⟩

theorem RegWrites.undefined (h : RegWrites p p') : Plain p (UNDEFINED_INSTRUCTION, p') :=
  ⟨Or.inr (Or.inr (Or.inl rfl)), h⟩

theorem Plain.of_regWrites (h : RegWrites p q) {o : Int × ArmCore} (h' : Plain q o) :
    Plain p o :=
  ⟨h'.1, h.trans h'.2⟩

end

/-! ## Data processing -/

section DataProcessing

variable (thumb : Prop) (p : ArmCore)

theorem writeRd_effective (Rd_num : Fin 16) (S value : Word) {flags : Word → Word}
    (hf : ∀ Rd, ∀ i < 28, (flags Rd).getLsbD i = (armReadCpsr p).getLsbD i) :
    Effective thumb p (writeRd p Rd_num S value flags) := by
  have hw := RegWrites.write p Rd_num value
  unfold writeRd
  simp only
  split_ifs with hS hs hS'
  · refine ⟨Or.inl rfl, hw.writeCpsr ?_⟩
    rw [hw.readSpsr]
    exact .restore (hw.hasSpsr.symm.trans hs)
  · exact hw.undefined.effective
  · exact ⟨Or.inl rfl, hw.writeCpsr (.flags (hf _))⟩
  · exact hw.ok.effective

theorem dataProcessing_effective (ins : Word) (sv : ShifterValues) :
    Effective thumb p (dataProcessing p ins sv) := by
  unfold dataProcessing alu
  simp only
  split
  · exact ⟨Or.inl rfl,
      (RegWrites.refl p).writeCpsr (.flags fun _ hi => getLsbD_aluFlags _ _ _ _ _ _ _ hi)⟩
  · exact writeRd_effective thumb p _ _ _ fun _ _ hi => getLsbD_aluFlags _ _ _ _ _ _ _ hi

end DataProcessing

/-! ## Loads and stores -/

section LoadStore

variable (h : Host) (p : ArmCore) (ins : Word)

theorem indexAddress_regWrites {Rn offset address : Word} {p' : ArmCore}
    (hi : indexAddress p ins Rn offset = some (address, p')) : RegWrites p p' := by
  unfold indexAddress at hi
  simp only at hi
  split_ifs at hi with hP hW hW
  · cases hi
    exact .write ..
  · cases hi
    exact .refl p
  · cases hi
    exact .write ..

theorem indexAddress_getD_regWrites (Rn offset address : Word) :
    RegWrites p ((indexAddress p ins Rn offset).getD (address, p)).2 := by
  cases hi : indexAddress p ins Rn offset with
  | none => exact .refl p
  | some o => exact indexAddress_regWrites p ins hi

theorem calculateAddress_regWrites : RegWrites p (calculateAddress p ins).2 := by
  unfold calculateAddress
  simp only
  split_ifs
  · exact indexAddress_getD_regWrites ..
  · exact indexAddress_getD_regWrites ..
  · exact indexAddress_getD_regWrites ..
  · exact .refl p

theorem calculateAddressMode3_regWrites : RegWrites p (calculateAddressMode3 h p ins).2 :=
  indexAddress_getD_regWrites ..

theorem loadStoreMode2_plain (address : Word) (Rd_num : Fin 16) :
    Plain p (loadStoreMode2 h p ins address Rd_num) := by
  unfold loadStoreMode2
  simp only
  split_ifs
  · exact (RegWrites.write ..).ok
  · exact (RegWrites.writeWord ..).ok
  · exact (RegWrites.write ..).ok
  · exact (RegWrites.writeByte ..).ok

theorem loadStoreMode3_plain (address : Word) (Rd_num : Fin 16) :
    Plain p (loadStoreMode3 h p ins address Rd_num) := by
  have hu : Plain p (UNDEFINED_INSTRUCTION, p) := (RegWrites.refl p).undefined
  unfold loadStoreMode3
  split
  · split
    · exact hu
    · exact (RegWrites.writeHalf ..).ok
  · split
    · split
      · exact hu
      · exact (RegWrites.write ..).ok
    · split
      · exact hu
      · exact (RegWrites.write ..).ok
    · split
      · exact hu
      · exact (RegWrites.write ..).ok
    · exact hu

theorem armLoadStore_plain : Plain p (armLoadStore h p ins) := by
  have h2 := calculateAddress_regWrites p ins
  unfold armLoadStore
  generalize calculateAddress p ins = o at h2
  simp only
  split
  · exact h2.undefined
  · split
    · exact (loadStoreMode2_plain h o.2 ins _ _).of_regWrites h2
    · have h3 := h2.trans (calculateAddressMode3_regWrites h o.2 ins)
      exact (loadStoreMode3_plain h _ ins _ _).of_regWrites h3

theorem addrLsMultiple_regWrites : RegWrites p (addrLsMultiple p ins).2.2 := by
  obtain ⟨value, hv⟩ := addrLsMultiple_state p ins
  rw [hv]
  split
  · exact .write ..
  · exact .refl p

/-- The word is a load-multiple of r15, and bit 0 of what it loads is set. -/
def LoadsThumbPc : Prop :=
  insClass ins = .loadStoreMultiple ∧ bitL ins ≠ 0 ∧ bitB ins = 0 ∧ getBit ins 15 = 1 ∧
    getBit (pcWord h p ins) 0 ≠ 0

theorem ldmRegisters_regWrites : RegWrites p (ldmRegisters h p ins) :=
  (addrLsMultiple_regWrites p ins).trans (.writeRegisters ..)

/-- A load-multiple of an odd r15 leaves the SPSR in the CPSR, its T bit set. -/
theorem armReadCpsr_ldmState_odd (h15 : getBit ins 15 = 1) (ht : getBit (pcWord h p ins) 0 ≠ 0) :
    armReadCpsr (ldmState h p ins) = setBit (armReadSpsr p) 5 := by
  have hpc := (ldmRegisters_regWrites h p ins).trans
    (.write _ 15 (pcWord h p ins &&& 0xFFFFFFFE))
  unfold ldmState
  simp only [if_pos h15, if_neg ht, armReadCpsr_writeCpsr]
  rw [hpc.readSpsr]

/-- What stores, or is not recognised, leaves the CPSR alone. -/
theorem armLoadStoreMultiple_plain (hn : ¬ (bitL ins ≠ 0 ∧ bitB ins = 0)) :
    ∃ o, armLoadStoreMultiple h p ins = .ok o ∧ Plain p o := by
  by_cases hB : bitB ins = 0
  · have hL : bitL ins = 0 := not_not.mp fun hL => hn ⟨hL, hB⟩
    exact ⟨_, armLoadStoreMultiple_store h p hL hB,
      ((addrLsMultiple_regWrites p ins).trans (.of_reg_eq rfl)).ok⟩
  · refine ⟨_, ?_, (RegWrites.refl p).undefined⟩
    rw [armLoadStoreMultiple, if_neg hn, if_neg (fun hh => hB hh.2)]

theorem armLoadStoreMultiple_effective (hc : insClass ins = .loadStoreMultiple) :
    ∃ o, armLoadStoreMultiple h p ins = .ok o ∧ Effective (LoadsThumbPc h p ins) p o := by
  by_cases hLB : bitL ins ≠ 0 ∧ bitB ins = 0
  · refine ⟨_, armLoadStoreMultiple_load h p hLB.1 hLB.2, Or.inl rfl, ?_⟩
    have hr := ldmRegisters_regWrites h p ins
    have hpc := hr.trans (.write _ 15 (pcWord h p ins &&& 0xFFFFFFFE))
    show Effect _ p (ldmState h p ins)
    unfold ldmState
    simp only
    split_ifs with h15 ht
    · refine hpc.writeCpsr ?_
      rw [hpc.readCpsr]
      exact .clearT
    · refine hpc.writeCpsr ?_
      rw [hpc.readSpsr]
      exact .setT ⟨hc, hLB.1, hLB.2, h15, ht⟩
    · exact hr.effect
  · obtain ⟨o, ho, hplain⟩ := armLoadStoreMultiple_plain h p ins hLB
    exact ⟨o, ho, hplain.effective⟩

end LoadStore

/-! ## The other handlers -/

section Others

variable (p : ArmCore) (ins : Word)

theorem armBranch_plain : Plain p (armBranch p ins) := by
  unfold armBranch
  simp only
  split
  · exact ((RegWrites.write p 14 _).trans (.write _ 15 _)).ok
  · exact (RegWrites.write p 15 _).ok

theorem armCoprocessorOthersSwi_plain : Plain p (armCoprocessorOthersSwi p ins) :=
  ⟨Or.inr (Or.inr (Or.inr rfl)), .write ..⟩

theorem armMiscellaneous_plain : Plain p (armMiscellaneous p ins) := by
  unfold armMiscellaneous
  simp only
  split
  · split
    · exact ⟨Or.inr (Or.inl rfl), .refl p⟩
    · exact (RegWrites.write ..).ok
  · exact (RegWrites.refl p).undefined

end Others

/-! ## The step -/

/-- Only data processing and load-multiples can write the CPSR. -/
theorem dispatch_plain (h : Host) (p : ArmCore) {ins : Word}
    (hdp : ¬ (insClass ins = .dpShift ∨ insClass ins = .dpImmediate))
    (hldm : ¬ (insClass ins = .loadStoreMultiple ∧ bitL ins ≠ 0 ∧ bitB ins = 0)) :
    ∃ o, dispatch h p ins = .ok o ∧ Plain p o := by
  rw [dispatch_eq]
  cases hc : insClass ins with
  | miscellaneous => exact ⟨_, rfl, armMiscellaneous_plain ..⟩
  | loadStore => exact ⟨_, rfl, armLoadStore_plain ..⟩
  | dpShift => exact absurd (Or.inl hc) hdp
  | dpImmediate => exact absurd (Or.inr hc) hdp
  | loadStoreMultiple => exact armLoadStoreMultiple_plain h p ins fun hLB => hldm ⟨hc, hLB⟩
  | branch => exact ⟨_, rfl, armBranch_plain ..⟩
  | coprocessorLoadStore => exact ⟨_, rfl, (RegWrites.refl p).undefined⟩
  | othersSwi => exact ⟨_, rfl, armCoprocessorOthersSwi_plain ..⟩

/-- Whatever the word, its handler returns, with an effect. -/
theorem dispatch_effective (h : Host) (p : ArmCore) (ins : Word) :
    ∃ o, dispatch h p ins = .ok o ∧ Effective (LoadsThumbPc h p ins) p o := by
  by_cases hdp : insClass ins = .dpShift ∨ insClass ins = .dpImmediate
  · obtain ⟨sv, -, ho⟩ := dispatch_dataProcessing h p hdp
    exact ⟨_, ho, dataProcessing_effective _ p ins sv⟩
  · by_cases hldm : insClass ins = .loadStoreMultiple
    · obtain ⟨o, ho, heff⟩ := armLoadStoreMultiple_effective h p ins hldm
      exact ⟨o, by rw [dispatch_eq, hldm, handler, ho], heff⟩
    · obtain ⟨o, ho, hplain⟩ := dispatch_plain h p hdp fun hc => hldm hc.1
      exact ⟨o, ho, hplain.effective⟩

/-- What becomes of a handler's result.  A software interrupt is served; any
other result comes out with the state it came with, -1 as 255. -/
theorem raise_result (h : Host) {o : Int × ArmCore} (hr : IsResult o.1) :
    (o.1 ≠ SOFTWARE_INTERRUPT ∧
        ∃ r, raise h (.ok o) = .ok (r, o.2) ∧ (r = o.1 ∨ o.1 = -1 ∧ r = 255)) ∨
      (o.1 = SOFTWARE_INTERRUPT ∧ raise h (.ok o) = .ok (armException h o.2 8)) := by
  obtain ⟨result, p⟩ := o
  rcases hr with hr | hr | hr | hr
  · subst hr
    exact Or.inl ⟨(by decide : (0 : Int) ≠ SOFTWARE_INTERRUPT), 0, rfl, Or.inl rfl⟩
  · subst hr
    exact Or.inl ⟨(by decide : (-1 : Int) ≠ SOFTWARE_INTERRUPT), 255, raise_neg_one h p,
      Or.inr ⟨rfl, rfl⟩⟩
  · subst hr
    exact Or.inl ⟨(by decide : UNDEFINED_INSTRUCTION ≠ SOFTWARE_INTERRUPT),
      UNDEFINED_INSTRUCTION, raise_undefined h p, Or.inl rfl⟩
  · subst hr
    exact Or.inr ⟨rfl, raise_swi h p⟩

/-- Raising a handler's result writes neither a register nor the memory:
RESET is not among the results. -/
theorem raise_keeps (h : Host) {o : Int × ArmCore} (hr : IsResult o.1) :
    ∃ r p', raise h (.ok o) = .ok (r, p') ∧ p'.reg = o.2.reg ∧ p'.mem = o.2.mem := by
  rcases raise_result h hr with ⟨-, r, hraise, -⟩ | ⟨-, hraise⟩
  · exact ⟨r, o.2, hraise, rfl, rfl⟩
  · refine ⟨(armException h o.2 8).1, (armException h o.2 8).2, hraise, ?_⟩
    rcases armException_swi_cases h o.2 with he | he | he <;> rw [he] <;> exact ⟨rfl, rfl⟩

theorem fetched_regWrites (p : ArmCore) : RegWrites p (fetched p) :=
  (RegWrites.write p 15 (p.reg 15 + 4)).trans (.of_reg_eq rfl)

/-- The step has loaded an odd r15 with a load-multiple. -/
def StepLoadsThumbPc (h : Host) (p : ArmCore) : Prop :=
  ∃ ins, Executes h p ins ∧ LoadsThumbPc h (fetched p) ins

theorem CpsrWrite.mono {thumb thumb' : Prop} (ht : thumb → thumb') {p : ArmCore} {value : Word} :
    CpsrWrite thumb p value → CpsrWrite thumb' p value := by
  intro hv
  cases hv with
  | keep => exact .keep
  | flags hf => exact .flags hf
  | restore hs => exact .restore hs
  | clearT => exact .clearT
  | setT h => exact .setT (ht h)

/-- Every step returns, and what it did to the register file is an effect. -/
theorem armStep_effect (h : Host) (p : ArmCore) :
    ∃ r p', armStep h p = .ok (r, p') ∧ Effect (StepLoadsThumbPc h p) p p' := by
  have hf := fetched_regWrites p
  rcases armStep_cases h p with hs | hs | ⟨ins, hx, hs⟩
  · exact ⟨_, _, hs, hf.effect⟩
  · exact ⟨_, _, hs, hf.effect⟩
  · obtain ⟨o, ho, hr, q, value, hq, hv, hp⟩ := dispatch_effective h (fetched p) ins
    obtain ⟨r, p', hraise, hreg, -⟩ := raise_keeps h hr
    rw [hs, ho]
    refine ⟨r, p', hraise, ?_⟩
    refine Effect.of_regWrites hf ⟨q, value, hq, hv.mono fun ht => ⟨ins, hx, ht⟩, ?_⟩
    rw [hreg, hp]

/-- A step never changes a general register that the mode it began in does
not see, nor any SPSR, even when it rewrites the CPSR. -/
theorem step_keeps_invisible_registers (h : Host) (p : ArmCore) :
    ∃ r p', armStep h p = .ok (r, p') ∧
      (∀ k : Fin 37, k.val < 31 → (∀ n, slot n (registersGetMode p.reg) ≠ k) →
        p'.reg k = p.reg k) ∧
      (∀ k : Fin 37, 31 < k.val → p'.reg k = p.reg k) := by
  obtain ⟨r, p', hs, he⟩ := armStep_effect h p
  refine ⟨r, p', hs, ?_, ?_⟩
  · intro k hk hvis
    refine he.slot_of_invisible ?_ hvis
    intro h31
    rw [h31] at hk
    exact absurd hk (by decide)
  · intro k hk
    refine he.slot_of_invisible ?_ ?_
    · intro h31
      rw [h31] at hk
      exact absurd hk (by decide)
    · intro n hn
      have := slot_val_lt n (registersGetMode p.reg)
      rw [hn] at this
      omega

end Armator
