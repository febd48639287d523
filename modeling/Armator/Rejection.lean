/-
Undefined instructions.

Two questions about `UNDEFINED_INSTRUCTION`.  When a step returns it, is
the state otherwise as it was?  It is, unless the addressing of a transfer
has written its base back before the refusal, or a data-processing
instruction has written r15 before it misses its SPSR
(`undefined_step_clean_iff`).  And is it returned for the encodings the
simulator does not implement?  Each class of them is sent to the handler
of another instruction, which refuses some of its words, not always
cleanly, and executes the rest (`unimplemented_rejected_iff`).
-/
import Armator.Addressing

namespace Armator

/-! ## Where the result comes from -/

theorem zero_ne_undefined : (0 : Int) ≠ UNDEFINED_INSTRUCTION := by decide

theorem swi_ne_undefined : SOFTWARE_INTERRUPT ≠ UNDEFINED_INSTRUCTION := by decide

theorem neg_one_ne_undefined : (-1 : Int) ≠ UNDEFINED_INSTRUCTION := by decide

/-- `armException` never makes up an `UNDEFINED_INSTRUCTION` for a software
interrupt. -/
theorem armException_swi_ne_undefined (h : Host) (p : ArmCore) :
    (armException h p 8).1 ≠ UNDEFINED_INSTRUCTION := by
  rcases armException_swi_cases h p with he | he | he <;> rw [he]
  · exact (by decide : END_SIMULATION ≠ UNDEFINED_INSTRUCTION)
  · exact zero_ne_undefined
  · exact swi_ne_undefined

/-- Only a handler's own `UNDEFINED_INSTRUCTION` comes out of a step. -/
theorem raise_eq_undefined_iff (h : Host) {o : Int × ArmCore} (hr : IsResult o.1) :
    ∃ r p', raise h (.ok o) = .ok (r, p') ∧
      (r = UNDEFINED_INSTRUCTION ↔ o.1 = UNDEFINED_INSTRUCTION) ∧
      (o.1 = UNDEFINED_INSTRUCTION → p' = o.2) := by
  rcases raise_result h hr with ⟨-, r, hraise, hres⟩ | ⟨hs, hraise⟩
  · refine ⟨r, o.2, hraise, ?_, fun _ => rfl⟩
    rcases hres with hres | ⟨hneg, hres⟩
    · rw [hres]
    · rw [hres, hneg]
      exact iff_of_false (by decide : (255 : Int) ≠ UNDEFINED_INSTRUCTION) neg_one_ne_undefined
  · rw [hs]
    exact ⟨(armException h o.2 8).1, (armException h o.2 8).2, hraise,
      iff_of_false (armException_swi_ne_undefined h o.2) swi_ne_undefined,
      fun hc => absurd hc swi_ne_undefined⟩

/-- A step that executes a word returns `UNDEFINED_INSTRUCTION` exactly
when its handler does, and then in the handler's state. -/
theorem armStep_undefined_iff {h : Host} {p : ArmCore} {ins : Word} (hx : Executes h p ins) :
    ∃ o r p', dispatch h (fetched p) ins = .ok o ∧ armStep h p = .ok (r, p') ∧
      (r = UNDEFINED_INSTRUCTION ↔ o.1 = UNDEFINED_INSTRUCTION) ∧
      (o.1 = UNDEFINED_INSTRUCTION → p' = o.2) := by
  obtain ⟨o, ho, hr, -⟩ := dispatch_effective h (fetched p) ins
  obtain ⟨r, p', hraise, hiff, hstate⟩ := raise_eq_undefined_iff h hr
  exact ⟨o, r, p', ho, by rw [armStep_of_executes hx, ho, hraise], hiff, hstate⟩

/-- A step that returns `UNDEFINED_INSTRUCTION` has executed a word. -/
theorem executes_of_undefined {h : Host} {p p' : ArmCore}
    (hs : armStep h p = .ok (UNDEFINED_INSTRUCTION, p')) :
    ∃ ins, Executes h p ins ∧ dispatch h (fetched p) ins = .ok (UNDEFINED_INSTRUCTION, p') := by
  rcases armStep_cases h p with hc | hc | ⟨ins, hx, -⟩
  · rw [hc] at hs
    exact absurd (congrArg Prod.fst (Except.ok.inj hs))
      (by decide : (255 : Int) ≠ UNDEFINED_INSTRUCTION)
  · rw [hc] at hs
    exact absurd (congrArg Prod.fst (Except.ok.inj hs)) zero_ne_undefined
  · obtain ⟨o, r, p'', ho, hs', hiff, hstate⟩ := armStep_undefined_iff hx
    obtain ⟨rfl, rfl⟩ := Prod.mk.inj (Except.ok.inj (hs'.symm.trans hs))
    have h7 := hiff.mp rfl
    refine ⟨ins, hx, ?_⟩
    rw [ho, hstate h7, ← h7]

/-! ## What each handler leaves when it refuses -/

/-- The ALU result of a data-processing word. -/
def resultOf (p : ArmCore) (ins : Word) (sv : ShifterValues) : Word :=
  aluResult (getBits ins 24 21).toNat (armReadRegister p (regNum (getBits ins 19 16)))
    sv.shifterOperand ((flagC p).setWidth 32)

/-- A refused data-processing word has written its result to r15. -/
theorem dataProcessing_undefined {p p' : ArmCore} {ins : Word} {sv : ShifterValues}
    (hd : dataProcessing p ins sv = (UNDEFINED_INSTRUCTION, p')) :
    p' = armWriteRegister p 15 (resultOf p ins sv) := by
  unfold dataProcessing alu writeRd at hd
  simp only at hd
  split_ifs at hd with h1 h2 h3
  · cases hd
  · cases hd
  · have he := (Prod.mk.inj hd).2
    rw [h2.2] at he
    exact he.symm
  · cases hd
  · cases hd

theorem refusedState_reg_of_eq (p : ArmCore) {ins : Word} (hb : bitP ins = bitW ins) :
    (refusedState p ins).reg
      = Function.update p.reg (slot (bitsRn ins) (registersGetMode p.reg)) (leftInBase p ins) := by
  have h2 : mode2State p ins = armWriteRegister p (bitsRn ins) (baseOnce p ins) :=
    writtenBack_of_eq p _ _ hb
  unfold refusedState leftInBase
  rw [if_neg (not_untreated_of_eq hb)]
  by_cases ha : mode2Address p ins = -1
  · rw [if_pos ha, if_pos ha, h2, armWriteRegister_reg]
  · rw [if_neg ha, if_neg ha, h2, mode3State, writtenBack_of_eq _ _ _ hb, mode3Offset_write,
      armReadRegister_write, armWriteRegister_reg, armWriteRegister_mode, armWriteRegister_reg,
      Function.update_idem]
    rfl

theorem refusedState_of_ne (p : ArmCore) {ins : Word} (hb : bitP ins ≠ bitW ins) :
    refusedState p ins = p := by
  unfold refusedState mode3State mode2State writtenBack
  simp only [if_neg hb, ite_self]

theorem armMiscellaneous_undefined {p p' : ArmCore} {ins : Word}
    (hm : armMiscellaneous p ins = (UNDEFINED_INSTRUCTION, p')) : p' = p := by
  unfold armMiscellaneous at hm
  simp only at hm
  split_ifs at hm
  · cases hm
  · cases hm
  · cases hm
  · exact (Prod.mk.inj hm).2.symm

theorem armLoadStoreMultiple_undefined {h : Host} {p p' : ArmCore} {ins : Word}
    (hm : armLoadStoreMultiple h p ins = .ok (UNDEFINED_INSTRUCTION, p')) : p' = p := by
  by_cases hB : bitB ins = 0
  · by_cases hL : bitL ins = 0
    · rw [armLoadStoreMultiple_store h p hL hB] at hm
      cases hm
    · rw [armLoadStoreMultiple_load h p hL hB] at hm
      cases hm
  · rw [armLoadStoreMultiple, if_neg (fun hc => hB hc.2), if_neg (fun hc => hB hc.2)] at hm
    cases hm
    rfl

/-- The states handlers refuse a word in: the state they were given, that
of a transfer's addressing, or that of a result written to r15. -/
inductive Refusal (h : Host) (p : ArmCore) (ins : Word) : ArmCore → Prop where
  | unchanged : insClass ins ≠ .loadStore → insClass ins ≠ .dpShift →
      insClass ins ≠ .dpImmediate → Refusal h p ins p
  | transfer : insClass ins = .loadStore → Refusal h p ins (refusedState p ins)
  | result {sv : ShifterValues} : insClass ins = .dpShift ∨ insClass ins = .dpImmediate →
      shifterValues h p ins = some sv →
      Refusal h p ins (armWriteRegister p 15 (resultOf p ins sv))

theorem refusal_of_dispatch {h : Host} {p p' : ArmCore} {ins : Word}
    (hd : dispatch h p ins = .ok (UNDEFINED_INSTRUCTION, p')) : Refusal h p ins p' := by
  have hdp : insClass ins = .dpShift ∨ insClass ins = .dpImmediate → Refusal h p ins p' := by
    intro hc
    obtain ⟨sv, hsv, hd'⟩ := dispatch_dataProcessing h p hc
    rw [dataProcessing_undefined (Except.ok.inj (hd'.symm.trans hd))]
    exact .result hc hsv
  have hd' := hd
  rw [dispatch_eq] at hd'
  cases hc : insClass ins with
  | miscellaneous =>
      rw [hc] at hd'
      rw [armMiscellaneous_undefined (Except.ok.inj hd')]
      exact .unchanged (by simp [hc]) (by simp [hc]) (by simp [hc])
  | loadStore =>
      rw [hc] at hd'
      have hls : armLoadStore h p ins = (UNDEFINED_INSTRUCTION, p') := Except.ok.inj hd'
      have hr := (armLoadStore_undefined_iff h p ins).mp (by rw [hls])
      rw [armLoadStore_of_refuses h p hr] at hls
      rw [← (Prod.mk.inj hls).2]
      exact .transfer hc
  | dpShift => exact hdp (Or.inl hc)
  | dpImmediate => exact hdp (Or.inr hc)
  | loadStoreMultiple =>
      rw [hc] at hd'
      rw [armLoadStoreMultiple_undefined hd']
      exact .unchanged (by simp [hc]) (by simp [hc]) (by simp [hc])
  | branch =>
      rw [hc] at hd'
      exact absurd (congrArg Prod.fst (Except.ok.inj hd')) zero_ne_undefined
  | coprocessorLoadStore =>
      rw [hc] at hd'
      rw [← (Prod.mk.inj (Except.ok.inj hd')).2]
      exact .unchanged (by simp [hc]) (by simp [hc]) (by simp [hc])
  | othersSwi =>
      rw [hc] at hd'
      exact absurd (congrArg Prod.fst (Except.ok.inj hd')) swi_ne_undefined

/-- A refusal has written at most r15 and the base. -/
theorem Refusal.frame {h : Host} {p p' : ArmCore} {ins : Word} (hr : Refusal h p ins p') :
    p'.mem = p.mem ∧ p'.stdout = p.stdout ∧
      ∀ k, k ≠ 15 → k ≠ slot (bitsRn ins) (registersGetMode p.reg) → p'.reg k = p.reg k := by
  cases hr with
  | unchanged _ _ _ => exact ⟨rfl, rfl, fun _ _ _ => rfl⟩
  | transfer _ =>
      obtain ⟨hmem, hout, hreg⟩ := refusedState_frame p ins
      exact ⟨hmem, hout, fun k _ hk => hreg k hk⟩
  | result _ _ =>
      refine ⟨rfl, rfl, fun k hk _ => ?_⟩
      rw [armWriteRegister_reg, slot_pc, Function.update_of_ne hk]

/-! ## A rejected instruction has no effect -/

/-- A refused word has left no trace: a transfer with writeback must bring
its base back to the old value, and a data-processing result must be the
address of the next instruction. -/
def RefusesCleanly (h : Host) (p : ArmCore) (ins : Word) : Prop :=
  match insClass ins with
  | .loadStore => bitP ins = bitW ins → leftInBase p ins = regView p (bitsRn ins)
  | .dpShift | .dpImmediate =>
      ∀ sv, shifterValues h p ins = some sv → resultOf p ins sv = p.reg 15
  | _ => True

/-- A refusal leaves its state exactly when it is clean. -/
theorem Refusal.clean_iff {h : Host} {p p' : ArmCore} {ins : Word} (hr : Refusal h p ins p') :
    p'.reg = p.reg ∧ p'.mem = p.mem ↔ RefusesCleanly h p ins := by
  unfold RefusesCleanly
  cases hr with
  | unchanged hl hs hi =>
      refine iff_of_true ⟨rfl, rfl⟩ ?_
      cases hc : insClass ins with
      | loadStore => exact absurd hc hl
      | dpShift => exact absurd hc hs
      | dpImmediate => exact absurd hc hi
      | _ => trivial
  | transfer hc =>
      rw [hc]
      by_cases hb : bitP ins = bitW ins
      · rw [refusedState_reg_of_eq p hb, Function.update_eq_self_iff]
        exact ⟨fun hv _ => hv.1, fun hv => ⟨hv hb, (refusedState_frame p ins).1⟩⟩
      · rw [refusedState_of_ne p hb]
        exact iff_of_true ⟨rfl, rfl⟩ fun hc => absurd hc hb
  | @result sv hc hsv =>
      rw [armWriteRegister_reg, slot_pc, Function.update_eq_self_iff]
      have hall : resultOf p ins sv = p.reg 15 ↔
          ∀ sv', shifterValues h p ins = some sv' → resultOf p ins sv' = p.reg 15 := by
        refine ⟨fun hv sv' hsv' => ?_, fun hall => hall _ hsv⟩
        rw [← Option.some.inj (hsv.symm.trans hsv')]
        exact hv
      rcases hc with hc | hc <;> rw [hc] <;>
        exact ⟨fun hv => hall.mp hv.1, fun hv => ⟨hall.mpr hv, rfl⟩⟩

/-- A step that returns `UNDEFINED_INSTRUCTION` changes nothing but the
program counter exactly when the word it refuses is refused cleanly. -/
theorem undefined_step_clean_iff (h : Host) (p p' : ArmCore)
    (hs : armStep h p = .ok (UNDEFINED_INSTRUCTION, p')) :
    ∃ ins, Executes h p ins ∧ (OnlyAdvances p p' ↔ RefusesCleanly h (fetched p) ins) := by
  obtain ⟨ins, hx, hd⟩ := executes_of_undefined hs
  refine ⟨ins, hx, ?_⟩
  rw [onlyAdvances_iff, ← (refusal_of_dispatch hd).clean_iff]
  rfl

/-- A coprocessor load in SVC mode: refused, and cleanly. -/
def coprocessorLoad : ArmCore := booted 16 [0xEC000000]

theorem undefined_step_clean_iff_coprocessorLoad :
    ∃ ins, Executes x86Host coprocessorLoad ins ∧
      (OnlyAdvances coprocessorLoad (fetched coprocessorLoad) ↔
        RefusesCleanly x86Host (fetched coprocessorLoad) ins) :=
  undefined_step_clean_iff x86Host coprocessorLoad (fetched coprocessorLoad) (by rfl)

/-- `MOVS pc, r1` in USR mode, with 0x100 in r1. -/
def usrMovsPc : ArmCore :=
  armWriteCpsr (armWriteRegister (booted 16 [0xE1B0F001]) 1 0x100) 0x10

/-- `LDRH pc, [r1], #2` -/
def ldrhPc : ArmCore := armWriteRegister (booted 16 [0xE0D1F0B2]) 1 8

/-- The first is refused after r15 was written, the second after r1 was. -/
theorem undefined_step_leaves_writes :
    (∃ p', armStep x86Host usrMovsPc = .ok (UNDEFINED_INSTRUCTION, p') ∧ p'.reg 15 = 0x100 ∧
      ¬ OnlyAdvances usrMovsPc p') ∧
    ∃ p', armStep x86Host ldrhPc = .ok (UNDEFINED_INSTRUCTION, p') ∧
      armReadRegister p' 1 = 188 ∧ ¬ OnlyAdvances ldrhPc p' := by
  refine ⟨⟨_, rfl, by decide +kernel, ?_⟩, _, rfl, by decide +kernel, ?_⟩
  · intro ho
    exact absurd ho.pc (by decide +kernel)
  · intro ho
    exact absurd (ho.registers 1 (by decide)) (by decide +kernel)

/-! ## Unimplemented encodings -/

/-- The encoding classes the simulator does not implement. -/
inductive Unimplemented where
  | multiply
  | swap
  | doubleWord
  | msrImmediate
  | registerOffset
  | coprocessor
deriving DecidableEq, Repr

/-- The words of a class. -/
def Unimplemented.Matches (ins : Word) : Unimplemented → Prop
  | .multiply => getBits ins 27 24 = 0b0000 ∧ getBits ins 7 4 = 0b1001
  | .swap => getBits ins 27 23 = 0b00010 ∧ getBits ins 21 20 = 0b00 ∧ getBits ins 7 4 = 0b1001
  | .doubleWord => getBits ins 27 25 = 0b000 ∧ getBit ins 20 = 0 ∧
      (getBits ins 7 4 = 0b1101 ∨ getBits ins 7 4 = 0b1111)
  | .msrImmediate => getBits ins 27 23 = 0b00110 ∧ getBit ins 20 = 0
  | .registerOffset => getBits ins 27 25 = 0b011 ∧ getBit ins 4 = 1
  | .coprocessor => getBits ins 27 24 = 0b1110

/-- The base of a transfer that writes it back is brought back to the value
it had. -/
def BaseBroughtBack (p : ArmCore) (ins : Word) : Prop :=
  bitP ins = bitW ins → leftInBase p ins = regView p (bitsRn ins)

/-- When a word of a class is refused, with nothing done for it.  A multiply
is taken for a store or load of mode 3, and so is a double-word transfer,
unless it looks like the MRS that a swap is taken for; the move to a status
register is taken for a comparison, the register offset with bit 4 for one
without, and the coprocessor operations for software interrupts. -/
def Unimplemented.RefusedWhen (p : ArmCore) (ins : Word) : Unimplemented → Prop
  | .multiply => (bitW ins ≠ 0 ∨ bitL ins ≠ 0 ∨ regNum (getBits ins 15 12) = 15 ∨
      armReadRegister p (bitsRn ins) = -1) ∧ BaseBroughtBack p ins
  | .doubleWord =>
      if bitP ins ≠ 0 ∧ bitU ins = 0 then bitW ins ≠ 0
      else (Untreated ins ∨ regNum (getBits ins 15 12) = 15 ∨ mode2Address p ins = -1) ∧
        BaseBroughtBack p ins
  | .registerOffset => (Untreated ins ∨ mode2Address p ins = -1) ∧ BaseBroughtBack p ins
  | .swap | .msrImmediate | .coprocessor => False

/-- The step rejects the word, and has not done the work of another
instruction, or part of it: but for the program counter, which has advanced
by one word, registers, memory and output are as they were. -/
structure Rejected (p : ArmCore) (r : Int) (p' : ArmCore) : Prop where
  result : r = UNDEFINED_INSTRUCTION
  advances : OnlyAdvances p p'
  stdout : p'.stdout = p.stdout

/-- Without S nothing of data processing is refused. -/
theorem dataProcessing_result (p : ArmCore) {ins : Word} (sv : ShifterValues)
    (hS : getBit ins 20 = 0) : (dataProcessing p ins sv).1 = 0 := by
  have h1 : ¬ getBit ins 20 = 1 := (getBit_ne_one_iff ..).mpr hS
  unfold dataProcessing alu writeRd
  simp only [h1, false_and, if_false]
  split <;> rfl

/-- MRS refuses the words with bit 21 or 20. -/
theorem armMiscellaneous_undefined_iff (p : ArmCore) {ins : Word}
    (h : getBits ins 27 23 = 0b00010) :
    (armMiscellaneous p ins).1 = UNDEFINED_INSTRUCTION ↔ getBits ins 21 20 ≠ 0 := by
  unfold armMiscellaneous
  simp only [h, true_and]
  by_cases h20 : getBits ins 21 20 = 0
  · rw [if_pos h20]
    refine iff_of_false ?_ (not_not.mpr h20)
    split
    · exact neg_one_ne_undefined
    · exact zero_ne_undefined
  · rw [if_neg h20]
    exact iff_of_true rfl h20

/-- Bits 7 to 4 of a multiply are those of no load. -/
theorem mode3Refuses_multiply {ins : Word} (h74 : getBits ins 7 4 = 0b1001) :
    Mode3Refuses ins ↔ regNum (getBits ins 15 12) = 15 ∨ bitL ins ≠ 0 := by
  unfold Mode3Refuses
  rw [h74]
  exact or_congr_right ⟨And.left, fun hL => ⟨hL, by decide, by decide, by decide⟩⟩

/-- Of the stores only those of r15 are refused. -/
theorem mode3Refuses_store {ins : Word} (hL : bitL ins = 0) :
    Mode3Refuses ins ↔ regNum (getBits ins 15 12) = 15 :=
  or_iff_left fun hr => hr.1 hL

theorem mode2Address_of_post (p : ArmCore) {ins : Word} (hP : bitP ins = 0) :
    mode2Address p ins = armReadRegister p (bitsRn ins) :=
  if_neg (not_not.mpr hP)

section

variable (h : Host) (p : ArmCore) {ins : Word}

/-- What a single transfer answers to a word of a class sent to it. -/
theorem dispatch_loadStore (hc : insClass ins = .loadStore) :
    ∃ o, dispatch h p ins = .ok o ∧ (o.1 = UNDEFINED_INSTRUCTION ∧ RefusesCleanly h p ins ↔
      LoadStoreRefuses p ins ∧ BaseBroughtBack p ins) := by
  rw [dispatch_eq, hc, RefusesCleanly, hc]
  exact ⟨_, rfl, and_congr_left' (armLoadStore_undefined_iff h p ins)⟩

/-- A handler that does not refuse the word. -/
theorem dispatch_accepts {c : Prop} {o : Int × ArmCore} (hd : dispatch h p ins = .ok o)
    (ho : o.1 ≠ UNDEFINED_INSTRUCTION) (hc : ¬ c) :
    ∃ o, dispatch h p ins = .ok o ∧
      (o.1 = UNDEFINED_INSTRUCTION ∧ RefusesCleanly h p ins ↔ c) :=
  ⟨o, hd, iff_of_false (fun hr => ho hr.1) hc⟩

theorem dispatch_multiply (hm : Unimplemented.multiply.Matches ins) :
    ∃ o, dispatch h p ins = .ok o ∧ (o.1 = UNDEFINED_INSTRUCTION ∧ RefusesCleanly h p ins ↔
      Unimplemented.multiply.RefusedWhen p ins) := by
  obtain ⟨h24, h74⟩ := hm
  have hP : bitP ins = 0 := getBit_of_field h24 (i := 24)
  have h25 : getBits ins 27 25 = 0b000 := getBits_of_field h24 (l := 25)
  have h26 : getBit ins 26 = 0 := getBit_of_field h24 (i := 26)
  have hc : insClass ins = .loadStore := by
    refine insClass_loadStore h25 (fun hc => ?_) (getBit_of_field h74 (i := 7))
      (getBit_of_field h74 (i := 4))
    exact absurd (hc.1.symm.trans hP) (by decide)
  obtain ⟨o, ho, hiff⟩ := dispatch_loadStore h p hc
  refine ⟨o, ho, hiff.trans ?_⟩
  refine and_congr_left' ?_
  unfold LoadStoreRefuses Untreated
  rw [mode2Address_of_post p hP, mode3Refuses_multiply h74]
  simp only [hP, h26, true_and, or_assoc, or_comm, or_left_comm]

theorem dispatch_swap (hm : Unimplemented.swap.Matches ins) :
    ∃ o, dispatch h p ins = .ok o ∧ (o.1 = UNDEFINED_INSTRUCTION ∧ RefusesCleanly h p ins ↔
      Unimplemented.swap.RefusedWhen p ins) := by
  obtain ⟨h23, h20, -⟩ := hm
  have hc : insClass ins = .miscellaneous :=
    insClass_miscellaneous (getBits_of_field h23 (l := 25))
      (getBit_of_field h23 (i := 24))
      (getBit_of_field h23 (i := 23))
      (getBit_of_field h20 (i := 20))
  have hd : dispatch h p ins = .ok (armMiscellaneous p ins) := by
    rw [dispatch_eq, hc]
    rfl
  refine dispatch_accepts h p hd ?_ id
  exact fun hr => (armMiscellaneous_undefined_iff p h23).mp hr h20

theorem dispatch_msrImmediate (hm : Unimplemented.msrImmediate.Matches ins) :
    ∃ o, dispatch h p ins = .ok o ∧ (o.1 = UNDEFINED_INSTRUCTION ∧ RefusesCleanly h p ins ↔
      Unimplemented.msrImmediate.RefusedWhen p ins) := by
  obtain ⟨h23, h20⟩ := hm
  have hc : insClass ins = .dpImmediate :=
    insClass_dpImmediate (getBits_of_field h23 (l := 25))
  obtain ⟨sv, -, hd⟩ := dispatch_dataProcessing h p (Or.inr hc)
  refine dispatch_accepts h p hd ?_ id
  rw [dataProcessing_result p sv h20]
  exact zero_ne_undefined

theorem dispatch_coprocessor (hm : Unimplemented.coprocessor.Matches ins) :
    ∃ o, dispatch h p ins = .ok o ∧ (o.1 = UNDEFINED_INSTRUCTION ∧ RefusesCleanly h p ins ↔
      Unimplemented.coprocessor.RefusedWhen p ins) := by
  have hc : insClass ins = .othersSwi :=
    insClass_othersSwi (getBits_of_field hm (l := 25))
  have hd : dispatch h p ins = .ok (armCoprocessorOthersSwi p ins) := by
    rw [dispatch_eq, hc]
    rfl
  exact dispatch_accepts h p hd swi_ne_undefined id

theorem dispatch_registerOffset (hm : Unimplemented.registerOffset.Matches ins) :
    ∃ o, dispatch h p ins = .ok o ∧ (o.1 = UNDEFINED_INSTRUCTION ∧ RefusesCleanly h p ins ↔
      Unimplemented.registerOffset.RefusedWhen p ins) := by
  obtain ⟨h25, -⟩ := hm
  have h26 : ¬ getBit ins 26 = 0 := (getBit_ne_zero_iff ..).mpr (getBit_of_field h25)
  obtain ⟨o, ho, hiff⟩ := dispatch_loadStore h p (insClass_loadStore_register h25)
  refine ⟨o, ho, hiff.trans (and_congr_left' ?_)⟩
  unfold LoadStoreRefuses
  simp only [h26, false_and, or_false]

/-- A double-word transfer with P set and U clear lies in the space of the
status register moves, and is taken for MRS. -/
theorem dispatch_doubleWord (hm : Unimplemented.doubleWord.Matches ins) :
    ∃ o, dispatch h p ins = .ok o ∧ (o.1 = UNDEFINED_INSTRUCTION ∧ RefusesCleanly h p ins ↔
      Unimplemented.doubleWord.RefusedWhen p ins) := by
  obtain ⟨h25, h20, h74⟩ := hm
  have hL : bitL ins = 0 := h20
  by_cases hmisc : bitP ins ≠ 0 ∧ bitU ins = 0
  · have h24 : getBit ins 24 = 1 := (getBit_ne_zero_iff ins 24).mp hmisc.1
    have hc : insClass ins = .miscellaneous := insClass_miscellaneous h25 h24 hmisc.2 h20
    have h23 : getBits ins 27 23 = 0b00010 := by
      have hU := (getBit_eq_zero_iff ins 23).mp hmisc.2
      rw [getBit_eq_one_iff] at h24
      rw [getBits_eq_iff] at h25 ⊢
      rw [show (0b000 : Word).toNat = 0 from rfl] at h25
      rw [show (0b00010 : Word).toNat = 2 from rfl]
      omega
    have hW : getBits ins 21 20 ≠ 0 ↔ bitW ins ≠ 0 := by
      unfold bitW
      rw [getBit_eq_zero_iff] at h20
      rw [Ne, Ne, getBit_eq_zero_iff, getBits_eq_iff, show (0 : Word).toNat = 0 from rfl]
      omega
    have hclean : RefusesCleanly h p ins := by
      rw [RefusesCleanly, hc]
      trivial
    rw [dispatch_eq, hc]
    refine ⟨_, rfl, ?_⟩
    unfold Unimplemented.RefusedWhen
    rw [if_pos hmisc, and_iff_left hclean]
    exact (armMiscellaneous_undefined_iff p h23).trans hW
  · have hc : insClass ins = .loadStore := by
      have h7 : getBit ins 7 = 1 := by
        rcases h74 with h74 | h74 <;>
          exact getBit_of_field h74 (i := 7)
      have h4 : getBit ins 4 = 1 := by
        rcases h74 with h74 | h74 <;>
          exact getBit_of_field h74 (i := 4)
      refine insClass_loadStore h25 (fun hc => hmisc ⟨?_, hc.2.1⟩) h7 h4
      rw [bitP, hc.1]
      decide
    have h26 : getBit ins 26 = 0 := getBit_of_field h25 (i := 26)
    obtain ⟨o, ho, hiff⟩ := dispatch_loadStore h p hc
    refine ⟨o, ho, hiff.trans ?_⟩
    unfold Unimplemented.RefusedWhen
    rw [if_neg hmisc]
    refine and_congr_left' ?_
    unfold LoadStoreRefuses
    rw [mode3Refuses_store hL]
    simp only [h26, true_and, or_comm]

end

theorem dispatch_unimplemented (h : Host) (p : ArmCore) {ins : Word} (c : Unimplemented)
    (hm : c.Matches ins) :
    ∃ o, dispatch h p ins = .ok o ∧
      (o.1 = UNDEFINED_INSTRUCTION ∧ RefusesCleanly h p ins ↔ c.RefusedWhen p ins) := by
  cases c with
  | multiply => exact dispatch_multiply h p hm
  | swap => exact dispatch_swap h p hm
  | doubleWord => exact dispatch_doubleWord h p hm
  | msrImmediate => exact dispatch_msrImmediate h p hm
  | registerOffset => exact dispatch_registerOffset h p hm
  | coprocessor => exact dispatch_coprocessor h p hm

/-- A word of an unimplemented class is rejected exactly when the handler
it is sent to happens to refuse it, and cleanly. -/
theorem unimplemented_rejected_iff (h : Host) (p : ArmCore) (ins : Word) (c : Unimplemented)
    (hx : Executes h p ins) (hm : c.Matches ins) :
    ∃ r p', armStep h p = .ok (r, p') ∧
      (Rejected p r p' ↔ c.RefusedWhen (fetched p) ins) := by
  obtain ⟨o, r, p', ho, hs, hiff, hstate⟩ := armStep_undefined_iff hx
  obtain ⟨o', ho', hwhen⟩ := dispatch_unimplemented h (fetched p) c hm
  obtain rfl := Except.ok.inj (ho.symm.trans ho')
  refine ⟨r, p', hs, ?_⟩
  rw [← hwhen, ← hiff]
  -- what a refusal leaves is the handler's doing, for the fetch writes only r15
  have hrefusal : r = UNDEFINED_INSTRUCTION → Refusal h (fetched p) ins p' := by
    intro hr
    have h7 := hiff.mp hr
    refine refusal_of_dispatch ?_
    rw [ho, hstate h7, ← h7]
  constructor
  · intro hr
    refine ⟨hr.result, (hrefusal hr.result).clean_iff.mp ?_⟩
    rw [fetched_mem, ← onlyAdvances_iff]
    exact hr.advances
  · rintro ⟨hr, hclean⟩
    refine ⟨hr, ?_, (hrefusal hr).frame.2.1⟩
    rw [onlyAdvances_iff, ← fetched_mem p]
    exact (hrefusal hr).clean_iff.mpr hclean

/-- `MLA r3, r2, r1, r0`: refused, for the addressing modes do not have its
indexing. -/
def multiplying : ArmCore := booted 16 [0xE0230192]

theorem unimplemented_rejected_iff_multiplying :
    ∃ r p', armStep x86Host multiplying = .ok (r, p') ∧
      (Rejected multiplying r p' ↔
        Unimplemented.multiply.RefusedWhen (fetched multiplying) 0xE0230192) :=
  unimplemented_rejected_iff x86Host multiplying 0xE0230192 .multiply
    ⟨by decide +kernel, by decide +kernel⟩ ⟨by decide, by decide⟩

/-- `MUL r3, r2, r1`, with 0xABCD in r0 and 0x19A in r3. -/
def storingMultiply : ArmCore :=
  writeRegisters (booted 16 [0xE0030192]) [(0, 0xABCD), (3, 0x19A)]

/-- It stores the half-word of r0 at address 8. -/
theorem multiply_executed_as_store :
    Executes x86Host storingMultiply 0xE0030192 ∧ Unimplemented.multiply.Matches 0xE0030192 ∧
    ∃ r p', armStep x86Host storingMultiply = .ok (r, p') ∧ r = 0 ∧
      p'.mem.byteAt 8 = 0xCD ∧ ¬ Rejected storingMultiply r p' := by
  refine ⟨⟨by decide +kernel, by decide +kernel⟩, ⟨by decide, by decide⟩, _, _, rfl,
    by decide +kernel, by decide +kernel, ?_⟩
  intro hr
  exact absurd hr.result (by decide +kernel)

end Armator
