/-
The modes a processor can be in.

No instruction writes an SPSR: MSR is not there, `arm_exception` saves
nothing, and no one calls `arm_write_spsr`.  So the SPSRs hold what `calloc`
left in them, and a copy of one into the CPSR sets the mode field to 0, which
is no mode.  Two kinds of words make such a copy: data processing with
S set and r15 written, and load-multiples that load an odd r15.

All other words keep the mode, and RESET sets SVC.  A run from `arm_create`
is therefore in SVC until it executes a word of the two kinds, and in no
mode right after.
-/
import Armator.Effects

namespace Armator

/-- The modes of `arm_constants.h`. -/
def ValidMode (mode : Byte) : Prop :=
  mode = USR ∨ mode = FIQ ∨ mode = IRQ ∨ mode = SVC ∨ mode = ABT ∨ mode = UND ∨ mode = SYS

instance (mode : Byte) : Decidable (ValidMode mode) :=
  inferInstanceAs (Decidable (_ ∨ _))

/-! ## Words that restore the CPSR -/

/-- The word is data processing that copies the SPSR: S set, r15 written, and
an SPSR to copy. -/
def CopiesSpsr (p : ArmCore) (ins : Word) : Prop :=
  (insClass ins = .dpShift ∨ insClass ins = .dpImmediate) ∧
    isComparison (getBits ins 24 21).toNat = false ∧ getBit ins 20 = 1 ∧
    regNum (getBits ins 15 12) = 15 ∧ armCurrentModeHasSpsr p = true

/-- The step executes a word that takes the CPSR from the SPSR. -/
def StepRestoresCpsr (h : Host) (p : ArmCore) : Prop :=
  ∃ ins, Executes h p ins ∧ (CopiesSpsr (fetched p) ins ∨ LoadsThumbPc h (fetched p) ins)

section Words

variable (h : Host) (p : ArmCore) {ins : Word}

theorem writeRd_mode {Rd_num : Fin 16} {S value : Word} {flags : Word → Word}
    (hf : ∀ Rd, ∀ i < 28, (flags Rd).getLsbD i = (armReadCpsr p).getLsbD i)
    (hn : ¬ (S = 1 ∧ Rd_num = 15 ∧ armCurrentModeHasSpsr p = true)) :
    registersGetMode (writeRd p Rd_num S value flags).2.reg = registersGetMode p.reg := by
  have hw := RegWrites.write p Rd_num value
  unfold writeRd
  simp only
  split_ifs with hS hs hS'
  · exact absurd ⟨hS.1, hS.2, hw.hasSpsr.symm.trans hs⟩ hn
  · exact hw.mode
  · exact registersGetMode_congr fun j hj => hf _ j (by omega)
  · exact hw.mode

theorem writeRd_restores {S value : Word} {flags : Word → Word} (hS : S = 1)
    (hs : armCurrentModeHasSpsr p = true) :
    (writeRd p 15 S value flags).1 = 0 ∧
      armReadCpsr (writeRd p 15 S value flags).2 = armReadSpsr p := by
  have hw := RegWrites.write p 15 value
  have hs' : armCurrentModeHasSpsr (armWriteRegister p 15 value) = true := hw.hasSpsr.trans hs
  have hw15 : writeRd p 15 S value flags
      = (0, armWriteCpsr (armWriteRegister p 15 value) (armReadSpsr p)) := by
    rw [← hw.readSpsr, writeRd, if_pos ⟨hS, rfl⟩, if_pos hs']
  rw [hw15]
  exact ⟨rfl, armReadCpsr_writeCpsr ..⟩

/-- Data processing keeps the mode, unless it copies the SPSR. -/
theorem dataProcessing_mode (sv : ShifterValues)
    (hc : insClass ins = .dpShift ∨ insClass ins = .dpImmediate) (hn : ¬ CopiesSpsr p ins) :
    registersGetMode (dataProcessing p ins sv).2.reg = registersGetMode p.reg := by
  unfold dataProcessing alu
  simp only
  split
  · exact registersGetMode_congr fun j hj => getLsbD_aluFlags _ _ _ _ _ _ _ (by omega)
  · next hcmp =>
      refine writeRd_mode p (fun _ _ hi => getLsbD_aluFlags _ _ _ _ _ _ _ hi) ?_
      rintro ⟨hS, hRd, hs⟩
      exact hn ⟨hc, Bool.eq_false_of_not_eq_true hcmp, hS, hRd, hs⟩

theorem dataProcessing_restores (sv : ShifterValues) (hr : CopiesSpsr p ins) :
    (dataProcessing p ins sv).1 = 0 ∧
      armReadCpsr (dataProcessing p ins sv).2 = armReadSpsr p := by
  obtain ⟨-, hcmp, hS, hRd, hs⟩ := hr
  unfold dataProcessing alu
  simp only [hcmp, hRd, Bool.false_eq_true, if_false]
  exact writeRd_restores p hS hs

/-- A load-multiple keeps the mode, unless it loads an odd r15. -/
theorem ldmState_mode (hn : getBit ins 15 = 1 → getBit (pcWord h p ins) 0 = 0) :
    registersGetMode (ldmState h p ins).reg = registersGetMode p.reg := by
  have hr := ldmRegisters_regWrites h p ins
  have hpc := hr.trans (.write _ 15 (pcWord h p ins &&& 0xFFFFFFFE))
  unfold ldmState
  simp only
  split_ifs with h15 ht
  · refine registersGetMode_congr fun j hj => ?_
    show (clrBit (armReadCpsr _) 5).getLsbD j = (armReadCpsr p).getLsbD j
    rw [hpc.readCpsr, getLsbD_clrBit_ite _ 5, if_neg (by omega)]
  · exact absurd (hn h15) ht
  · exact hr.mode

theorem dispatch_mode (hn : ¬ (CopiesSpsr p ins ∨ LoadsThumbPc h p ins)) :
    ∃ o, dispatch h p ins = .ok o ∧ IsResult o.1 ∧
      registersGetMode o.2.reg = registersGetMode p.reg := by
  rw [not_or] at hn
  by_cases hdp : insClass ins = .dpShift ∨ insClass ins = .dpImmediate
  · obtain ⟨sv, -, ho⟩ := dispatch_dataProcessing h p hdp
    exact ⟨_, ho, (dataProcessing_effective True p ins sv).1, dataProcessing_mode p sv hdp hn.1⟩
  · by_cases hldm : insClass ins = .loadStoreMultiple ∧ bitL ins ≠ 0 ∧ bitB ins = 0
    · obtain ⟨hc, hL, hB⟩ := hldm
      have ho : dispatch h p ins = .ok (0, ldmState h p ins) := by
        rw [dispatch_eq, hc, handler, armLoadStoreMultiple_load h p hL hB]
      refine ⟨_, ho, Or.inl rfl, ldmState_mode h p fun h15 => ?_⟩
      exact not_not.mp fun ht => hn.2 ⟨hc, hL, hB, h15, ht⟩
    · obtain ⟨o, ho, hplain⟩ := dispatch_plain h p hdp hldm
      exact ⟨o, ho, hplain.1, hplain.2.mode⟩

theorem dispatch_restores (hr : CopiesSpsr p ins ∨ LoadsThumbPc h p ins) :
    ∃ p', dispatch h p ins = .ok (0, p') ∧
      (armReadCpsr p' = armReadSpsr p ∨ armReadCpsr p' = setBit (armReadSpsr p) 5) := by
  rcases hr with hr | ⟨hc, hL, hB, h15, ht⟩
  · obtain ⟨sv, -, ho⟩ := dispatch_dataProcessing h p hr.1
    obtain ⟨h0, hcpsr⟩ := dataProcessing_restores p sv hr
    exact ⟨(dataProcessing p ins sv).2, by rw [ho, ← h0], Or.inl hcpsr⟩
  · refine ⟨ldmState h p ins, ?_, Or.inr (armReadCpsr_ldmState_odd h p ins h15 ht)⟩
    rw [dispatch_eq, hc, handler, armLoadStoreMultiple_load h p hL hB]

end Words

/-! ## The step -/

section Step

variable (h : Host) (p : ArmCore)

theorem armStep_mode (hn : ¬ StepRestoresCpsr h p) :
    ∃ r p', armStep h p = .ok (r, p') ∧ registersGetMode p'.reg = registersGetMode p.reg := by
  rcases armStep_cases h p with hs | hs | ⟨ins, hx, hs⟩
  · exact ⟨_, _, hs, fetched_mode p⟩
  · exact ⟨_, _, hs, fetched_mode p⟩
  · have hno : ¬ (CopiesSpsr (fetched p) ins ∨ LoadsThumbPc h (fetched p) ins) :=
      fun hres => hn ⟨ins, hx, hres⟩
    obtain ⟨o, ho, hr, hmode⟩ := dispatch_mode h (fetched p) hno
    obtain ⟨r, p', hraise, hreg, -⟩ := raise_keeps h hr
    refine ⟨r, p', by rw [hs, ho, hraise], ?_⟩
    rw [hreg, hmode, fetched_mode]

theorem armStep_restores (hr : StepRestoresCpsr h p) :
    ∃ p', armStep h p = .ok (0, p') ∧
      (armReadCpsr p' = armReadSpsr p ∨ armReadCpsr p' = setBit (armReadSpsr p) 5) := by
  obtain ⟨ins, hx, hres⟩ := hr
  obtain ⟨p', ho, hcpsr⟩ := dispatch_restores h (fetched p) hres
  rw [(fetched_regWrites p).readSpsr] at hcpsr
  exact ⟨p', by rw [armStep_of_executes hx, ho, raise_zero], hcpsr⟩

end Step

/-! ## Runs -/

/-- What can happen to a processor: a step, an exception from outside, new
contents of the memory. -/
inductive Move where
  | step
  | exception (number : Byte)
  | contents (bytes : Nat → Byte)

/-- A move takes `p` to `p'`. -/
def Takes (h : Host) (p p' : ArmCore) : Move → Prop
  | .step => ∃ r, armStep h p = .ok (r, p')
  | .exception number => (armException h p number).2 = p'
  | .contents bytes => { p with mem := memoryCreate p.mem.size bytes } = p'

/-- `N` moves, from the state `arm_create` leaves. -/
structure RunsFromCreate (h : Host) (mem : Memory) (N : Nat) (moves : Nat → Move)
    (s : Nat → ArmCore) : Prop where
  start : s 0 = armCreate h registersCreate mem
  next : ∀ n < N, Takes h (s n) (s (n + 1)) (moves n)

/-- SVC mode, and nothing in its SPSR: the states of a run in which no CPSR
was restored. -/
structure Supervised (p : ArmCore) : Prop where
  mode : registersGetMode p.reg = SVC
  spsr : p.reg 32 = 0

theorem Supervised.validMode {p : ArmCore} (hp : Supervised p) :
    ValidMode (registersGetMode p.reg) := by
  rw [hp.mode]
  decide

theorem Supervised.readSpsr {p : ArmCore} (hp : Supervised p) : armReadSpsr p = 0 := by
  rw [armReadSpsr, hp.mode]
  exact hp.spsr

theorem supervised_reset (h : Host) {p : ArmCore} (hs : p.reg 32 = 0) :
    Supervised (armException h p 1).2 := by
  refine ⟨?_, ?_⟩
  · rw [registersGetMode, armException_reset_reg, Function.update_of_ne (by decide),
      Function.update_self]
    rfl
  · rw [armException_reset_reg, Function.update_of_ne (by decide),
      Function.update_of_ne (by decide), hs]

theorem Supervised.of_regWrites {p p' : ArmCore} (hp : Supervised p) (hr : RegWrites p p') :
    Supervised p' :=
  ⟨hr.mode.trans hp.mode, (hr.spsr (by decide)).trans hp.spsr⟩

theorem supervised_armCreate (h : Host) (mem : Memory) :
    Supervised (armCreate h registersCreate mem) :=
  (supervised_reset h rfl).of_regWrites (.write _ 13 mem.size)

theorem Supervised.exception {p : ArmCore} (hp : Supervised p) (h : Host) (number : Byte) :
    Supervised (armException h p number).2 := by
  by_cases h8 : number = 8
  · subst h8
    rcases armException_swi_cases h p with he | he | he <;> rw [he]
    · exact hp
    · exact hp.of_regWrites (.of_reg_eq rfl)
    · exact hp
  · by_cases h1 : number = 1
    · subst h1
      exact supervised_reset h hp.spsr
    · rw [armException_other h p h1 h8]
      exact hp

/-- A step that restores no CPSR leaves the SPSR empty, too. -/
theorem Supervised.step {p : ArmCore} (hp : Supervised p) {h : Host}
    (hn : ¬ StepRestoresCpsr h p) {r : Int} {p' : ArmCore} (hs : armStep h p = .ok (r, p')) :
    Supervised p' := by
  obtain ⟨r₁, p₁, hs₁, hmode⟩ := armStep_mode h p hn
  obtain ⟨r₂, p₂, hs₂, he⟩ := armStep_effect h p
  cases hs.symm.trans hs₁
  cases hs.symm.trans hs₂
  refine ⟨hmode.trans hp.mode, ?_⟩
  rw [he.slot_of_invisible (by decide), hp.spsr]
  intro n hn'
  have := slot_val_lt n (registersGetMode p.reg)
  rw [hn'] at this
  exact absurd this (by decide)

/-- What is restored is 0, or only the T bit. -/
theorem Supervised.not_validMode {p : ArmCore} (hp : Supervised p) {h : Host}
    (hr : StepRestoresCpsr h p) {r : Int} {p' : ArmCore} (hs : armStep h p = .ok (r, p')) :
    ¬ ValidMode (registersGetMode p'.reg) := by
  obtain ⟨p₁, hs₁, hcpsr⟩ := armStep_restores h p hr
  cases hs.symm.trans hs₁
  rw [hp.readSpsr] at hcpsr
  have hmode : registersGetMode p'.reg = 0 := by
    rw [registersGetMode, show p'.reg 31 = armReadCpsr p' from rfl]
    rcases hcpsr with hc | hc <;> rw [hc] <;> rfl
  rw [hmode]
  decide

section Runs

variable {h : Host} {mem : Memory} {N : Nat} {moves : Nat → Move} {s : Nat → ArmCore}

/-- A run stays supervised as long as it restores no CPSR. -/
theorem RunsFromCreate.supervised (hrun : RunsFromCreate h mem N moves s) {n : Nat} (hn : n ≤ N)
    (hno : ∀ k < n, moves k = .step → ¬ StepRestoresCpsr h (s k)) : Supervised (s n) := by
  induction n with
  | zero =>
      rw [hrun.start]
      exact supervised_armCreate h mem
  | succ n ih =>
      have hp := ih (Nat.le_of_succ_le hn) fun k hk => hno k (Nat.lt_succ_of_lt hk)
      have hnext := hrun.next n hn
      cases hm : moves n with
      | step =>
          rw [hm] at hnext
          obtain ⟨r, hs⟩ := hnext
          exact hp.step (hno n (Nat.lt_succ_self n) hm) hs
      | exception number =>
          rw [hm] at hnext
          rw [← show (armException h (s n) number).2 = s (n + 1) from hnext]
          exact hp.exception h number
      | contents bytes =>
          rw [hm] at hnext
          rw [← show { s n with mem := memoryCreate (s n).mem.size bytes } = s (n + 1) from hnext]
          exact hp.of_regWrites (.of_reg_eq rfl)

/-- Every state of a run is in a mode of the architecture exactly when no
step of it takes the CPSR from an SPSR. -/
theorem reachable_modes_valid_iff (hrun : RunsFromCreate h mem N moves s) :
    (∀ n ≤ N, ValidMode (registersGetMode (s n).reg)) ↔
      ∀ n < N, moves n = .step → ¬ StepRestoresCpsr h (s n) := by
  constructor
  · intro hvalid n
    -- up to the first restoring step the run is supervised
    induction n using Nat.strong_induction_on with
    | _ n ih =>
        intro hn hm hr
        have hp := hrun.supervised hn.le fun k hk hmk => ih k hk (hk.trans hn) hmk
        have hnext := hrun.next n hn
        rw [hm] at hnext
        obtain ⟨r, hs⟩ := hnext
        exact hp.not_validMode hr hs (hvalid (n + 1) hn)
  · intro hno n hn
    exact (hrun.supervised hn fun k hk => hno k (Nat.lt_of_lt_of_le hk hn)).validMode

end Runs

/-- `MOVS pc, lr` at address 0: the return from an exception. -/
def returningMemory : Memory := (booted 16 [0xE1B0F00E]).mem

/-- The run of that one step. -/
def returningRun : Nat → ArmCore
  | 0 => armCreate x86Host registersCreate returningMemory
  | _ =>
      let p := fetched (armCreate x86Host registersCreate returningMemory)
      (dataProcessing p 0xE1B0F00E ⟨0, armReadRegister p 14⟩).2

theorem returningRun_runs :
    RunsFromCreate x86Host returningMemory 1 (fun _ => .step) returningRun := by
  refine ⟨rfl, fun n hn => ⟨0, ?_⟩⟩
  obtain rfl : n = 0 := by omega
  rfl

theorem reachable_modes_valid_iff_returning :
    (∀ n ≤ 1, ValidMode (registersGetMode (returningRun n).reg)) ↔
      ∀ n < 1, (fun _ => Move.step) n = .step → ¬ StepRestoresCpsr x86Host (returningRun n) :=
  reachable_modes_valid_iff returningRun_runs

/-- The step leaves the CPSR 0. -/
theorem returning_reaches_no_mode :
    RunsFromCreate x86Host returningMemory 1 (fun _ => .step) returningRun ∧
      armReadCpsr (returningRun 1) = 0 ∧ ¬ ValidMode (registersGetMode (returningRun 1).reg) :=
  ⟨returningRun_runs, by decide, by decide⟩

end Armator
