/-
Running again from the trace.

The trace of the memory holds every value that the processor reads.  So two
processors that differ in what their memories hold do the same as long as
they leave the same trace: the same results, the same registers and the same
output (`trace_replays`).  The memory is needed for nothing else, its size
apart, which decides whether a fetch fails.

Each access is compared where it stands in the trace.  What it tells is used
for what comes after it, and so the traces need not be known to have the
same parts beforehand.
-/
import Armator.Constant
import Armator.Lib.Lockstep
import Armator.Lib.Telling
import Armator.MemoryLog

namespace Armator

open CText Lockstep Telling

/-! ## Apart from the memory -/

/-- The same registers, clock and output, and some memory. -/
def SameButMemory (p p' : ArmCore) : Prop := ∃ mem, p' = p.withMem mem

/-- The same result, and the same state apart from the memory. -/
def SameResult (o o' : Int × ArmCore) : Prop := o'.1 = o.1 ∧ SameButMemory o.2 o'.2

section Handlers

variable (h : Host) (p : ArmCore) (mem : Memory) (ins : Word)

theorem calculateAddress_withMem :
    calculateAddress (p.withMem mem) ins
      = ((calculateAddress p ins).1, (calculateAddress p ins).2.withMem mem) := by
  by_cases hu : Untreated ins
  · rw [calculateAddress_untreated _ hu, calculateAddress_untreated p hu]
  · rw [calculateAddress_eq _ hu, calculateAddress_eq p hu, mode2State_withMem]
    rfl

theorem calculateAddressMode3_withMem :
    calculateAddressMode3 h (p.withMem mem) ins
      = ((calculateAddressMode3 h p ins).1, (calculateAddressMode3 h p ins).2.withMem mem) := by
  by_cases hu : Untreated ins
  · unfold calculateAddressMode3
    simp only [indexAddress_eq, if_pos hu]
    rfl
  · rw [calculateAddressMode3_eq h _ hu, calculateAddressMode3_eq h p hu, mode3State_withMem]
    rfl

/-! ## Single transfers -/

/-- A byte or a half-word is traced as a word. -/
theorem setWidth_word_injective {n : ℕ} (hn : n ≤ 32) {x y : BitVec n}
    (hxy : x.setWidth 32 = y.setWidth 32) : x = y := by
  have hback := congrArg (BitVec.setWidth n) hxy
  rwa [BitVec.setWidth_setWidth_of_le _ hn, BitVec.setWidth_setWidth_of_le _ hn,
    BitVec.setWidth_eq, BitVec.setWidth_eq] at hback

theorem loadStoreMode2_tells (address : Word) (Rd_num : Fin 16) :
    Tells (loadStoreMode2Trace h p ins address Rd_num)
      (loadStoreMode2Trace h (p.withMem mem) ins address Rd_num)
      (SameResult (loadStoreMode2 h p ins address Rd_num)
        (loadStoreMode2 h (p.withMem mem) ins address Rd_num)) := by
  unfold loadStoreMode2Trace loadStoreMode2
  split_ifs
  · refine .single fun hsame => ?_
    have hval : (armReadWord h (p.withMem mem) address (h.garbage .val)).2
        = (armReadWord h p address (h.garbage .val)).2 := congrArg TracedAccess.value hsame
    simp only [hval]
    exact ⟨rfl, mem, rfl⟩
  · exact .single fun _ => ⟨rfl, _, rfl⟩
  · refine .single fun hsame => ?_
    have hval : (armReadByte (p.withMem mem) address ((h.garbage .val).setWidth 8)).2
        = (armReadByte p address ((h.garbage .val).setWidth 8)).2 :=
      setWidth_word_injective (by decide) (congrArg TracedAccess.value hsame)
    simp only [hval]
    exact ⟨rfl, mem, rfl⟩
  · exact .single fun _ => ⟨rfl, _, rfl⟩

theorem loadStoreMode3_tells (address : Word) (Rd_num : Fin 16) :
    Tells (loadStoreMode3Trace h p ins address Rd_num)
      (loadStoreMode3Trace h (p.withMem mem) ins address Rd_num)
      (SameResult (loadStoreMode3 h p ins address Rd_num)
        (loadStoreMode3 h (p.withMem mem) ins address Rd_num)) := by
  have hrefused : Tells ([] : List TracedAccess) []
      (SameResult (UNDEFINED_INSTRUCTION, p) (UNDEFINED_INSTRUCTION, p.withMem mem)) :=
    .nil ⟨rfl, mem, rfl⟩
  have hhalf : (p.withMem mem).traced .read 2 address
        ((armReadHalf h (p.withMem mem) address ((h.garbage .val).setWidth 16)).2.setWidth 32)
      = p.traced .read 2 address
        ((armReadHalf h p address ((h.garbage .val).setWidth 16)).2.setWidth 32) →
      (armReadHalf h (p.withMem mem) address ((h.garbage .val).setWidth 16)).2
        = (armReadHalf h p address ((h.garbage .val).setWidth 16)).2 := fun hsame =>
    setWidth_word_injective (by decide) (congrArg TracedAccess.value hsame)
  unfold loadStoreMode3Trace loadStoreMode3
  by_cases hL : bitL ins = 0
  · simp only [if_pos hL]
    split_ifs
    · exact hrefused
    · exact .single fun _ => ⟨rfl, _, rfl⟩
  · simp only [if_neg hL]
    generalize (getBits ins 7 4).toNat = bits
    by_cases h11 : bits = 0b1011
    · subst h11
      simp only
      split_ifs
      · exact hrefused
      · refine .single fun hsame => ?_
        simp only [hhalf hsame]
        exact ⟨rfl, mem, rfl⟩
    by_cases h13 : bits = 0b1101
    · subst h13
      simp only
      split_ifs
      · exact hrefused
      · refine .single fun hsame => ?_
        have hvalue : (armReadByte (p.withMem mem) address ((h.garbage .val).setWidth 8)).2
            = (armReadByte p address ((h.garbage .val).setWidth 8)).2 :=
          setWidth_word_injective (by decide) (congrArg TracedAccess.value hsame)
        simp only [hvalue]
        exact ⟨rfl, mem, rfl⟩
    by_cases h15 : bits = 0b1111
    · subst h15
      simp only
      split_ifs
      · exact hrefused
      · refine .single fun hsame => ?_
        simp only [hhalf hsame]
        exact ⟨rfl, mem, rfl⟩
    · simp only
      exact hrefused

theorem armLoadStore_tells :
    Tells (armLoadStoreTrace h p ins) (armLoadStoreTrace h (p.withMem mem) ins)
      (SameResult (armLoadStore h p ins) (armLoadStore h (p.withMem mem) ins)) := by
  unfold armLoadStoreTrace armLoadStore
  rw [calculateAddress_withMem]
  rcases calculateAddress p ins with ⟨address, q⟩
  simp only
  split_ifs
  · exact .nil ⟨rfl, mem, rfl⟩
  · exact loadStoreMode2_tells h q mem ins address _
  · rw [calculateAddressMode3_withMem]
    rcases calculateAddressMode3 h q ins with ⟨address₃, q₃⟩
    exact loadStoreMode3_tells h q₃ mem ins address₃ _

/-! ## Block transfers -/

/-- The loop of a load-multiple. -/
theorem ldmTurns_tells (l : List (Fin 16)) (address word : Word) :
    Tells (ldmTurnsTrace h ins l (p, address, word))
      (ldmTurnsTrace h ins l (p.withMem mem, address, word))
      (l.foldl (ldmTurn h ins) (p.withMem mem, address, word)
        = ((l.foldl (ldmTurn h ins) (p, address, word)).1.withMem mem,
            (l.foldl (ldmTurn h ins) (p, address, word)).2)) := by
  induction l generalizing p address word with
  | nil => exact .nil rfl
  | cons i l ih =>
      simp only [ldmTurnsTrace, List.foldl_cons, ldmTurn]
      by_cases hi : getBit ins i = 1
      · simp only [if_pos hi]
        refine Tells.append
          (P := (armReadWord h (p.withMem mem) address word).2 = (armReadWord h p address word).2)
          (.single (congrArg TracedAccess.value)) fun hword => ?_
        rw [hword]
        exact ih (armWriteRegister p i (armReadWord h p address word).2) (address + 4) _
      · simp only [if_neg hi, List.nil_append]
        exact ih p address word

theorem instructionLdm1_tells :
    Tells (instructionLdm1Trace h p ins) (instructionLdm1Trace h (p.withMem mem) ins)
      (SameButMemory (ldmState h p ins) (ldmState h (p.withMem mem) ins)) := by
  have houtcome : Tells (instructionLdm1Trace h p ins) (instructionLdm1Trace h (p.withMem mem) ins)
      (instructionLdm1 h (p.withMem mem) ins
        = (instructionLdm1 h p ins).map fun o => (o.1, o.2.withMem mem)) := by
    unfold instructionLdm1Trace instructionLdm1
    rw [addrLsMultiple_withMem]
    rcases addrLsMultiple p ins with ⟨start, last, q⟩
    simp only
    refine (ldmTurns_tells h q mem ins _ start (h.garbage .word)).append fun hloop => ?_
    rw [← ldmLoop, ← ldmLoop] at hloop
    rw [hloop]
    rcases ldmLoop h q ins start (h.garbage .word) with ⟨q', address, word⟩
    simp only
    by_cases h15 : getBit ins 15 = 1
    · simp only [if_pos h15]
      refine .single fun hsame => ?_
      have hword : (armReadWord h (q'.withMem mem) address word).2
          = (armReadWord h q' address word).2 := congrArg TracedAccess.value hsame
      simp only [hword]
      split_ifs <;> rfl
    · simp only [if_neg h15]
      refine .nil ?_
      split_ifs <;> rfl
  refine houtcome.imp fun hsame => ?_
  rw [instructionLdm1_eq, instructionLdm1_eq] at hsame
  exact ⟨mem, congrArg Prod.snd (Except.ok.inj hsame)⟩

/-- The loop of a store-multiple, which writes what the registers hold. -/
theorem stmTurns_tells (l : List (Fin 16)) (address : Word) :
    Tells (stmTurnsTrace h ins l (p, address)) (stmTurnsTrace h ins l (p.withMem mem, address))
      True := by
  induction l generalizing p mem address with
  | nil => exact .nil trivial
  | cons i l ih =>
      simp only [stmTurnsTrace, stmTurn]
      by_cases hi : getBit ins i = 1
      · simp only [if_pos hi]
        exact Tells.append (P := True) (.single fun _ => trivial) fun _ =>
          ih (armWriteWord h p address (armReadRegister p i)).2
            (armWriteWord h (p.withMem mem) address (armReadRegister p i)).2.mem (address + 4)
      · simp only [if_neg hi, List.nil_append]
        exact ih p mem address

theorem armLoadStoreMultiple_tells :
    Tells (armLoadStoreMultipleTrace h p ins) (armLoadStoreMultipleTrace h (p.withMem mem) ins)
      (Together SameResult (armLoadStoreMultiple h p ins)
        (armLoadStoreMultiple h (p.withMem mem) ins)) := by
  unfold armLoadStoreMultipleTrace
  by_cases hB : bitB ins = 0
  · by_cases hL : bitL ins = 0
    · rw [armLoadStoreMultiple_store h p hL hB, armLoadStoreMultiple_store h _ hL hB]
      simp only [if_neg fun hc : bitL ins ≠ 0 ∧ bitB ins = 0 => hc.1 hL,
        if_pos (And.intro hL hB), addrLsMultiple_withMem]
      unfold instructionStm1Trace
      rw [addrLsMultiple_withMem]
      exact (stmTurns_tells h _ mem ins _ _).imp fun _ => .ok ⟨rfl, _, rfl⟩
    · rw [armLoadStoreMultiple_load h p hL hB, armLoadStoreMultiple_load h _ hL hB,
        if_pos ⟨hL, hB⟩, if_pos ⟨hL, hB⟩]
      exact (instructionLdm1_tells h p mem ins).imp fun hsame => .ok ⟨rfl, hsame⟩
  · rw [armLoadStoreMultiple, armLoadStoreMultiple]
    simp only [if_neg fun hc : bitL ins ≠ 0 ∧ bitB ins = 0 => hB hc.2,
      if_neg fun hc : bitL ins = 0 ∧ bitB ins = 0 => hB hc.2]
    exact .nil (.ok ⟨rfl, mem, rfl⟩)

/-! ## The other handlers, and exceptions -/

theorem writeRd_withMem (Rd_num : Fin 16) (S value : Word) (flags : Word → Word) :
    SameResult (writeRd p Rd_num S value flags) (writeRd (p.withMem mem) Rd_num S value flags) := by
  have hspsr : armCurrentModeHasSpsr (armWriteRegister (p.withMem mem) Rd_num value)
      = armCurrentModeHasSpsr (armWriteRegister p Rd_num value) := rfl
  unfold writeRd
  simp only [hspsr]
  split_ifs <;> exact ⟨rfl, mem, rfl⟩

theorem dataProcessing_withMem (sv : ShifterValues) :
    SameResult (dataProcessing p ins sv) (dataProcessing (p.withMem mem) ins sv) := by
  unfold dataProcessing alu
  simp only
  split_ifs
  · exact ⟨rfl, mem, rfl⟩
  · exact writeRd_withMem p mem ..

theorem armMiscellaneous_withMem :
    SameResult (armMiscellaneous p ins) (armMiscellaneous (p.withMem mem) ins) := by
  unfold armMiscellaneous
  simp only
  split_ifs <;> exact ⟨rfl, mem, rfl⟩

theorem armBranch_withMem : SameResult (armBranch p ins) (armBranch (p.withMem mem) ins) := by
  unfold armBranch
  simp only
  split_ifs <;> exact ⟨rfl, mem, rfl⟩

theorem dispatch_tells :
    Tells (dispatchTrace h p ins) (dispatchTrace h (p.withMem mem) ins)
      (Together SameResult (dispatch h p ins) (dispatch h (p.withMem mem) ins)) := by
  have hdp : insClass ins = .dpShift ∨ insClass ins = .dpImmediate →
      Together SameResult (dispatch h p ins) (dispatch h (p.withMem mem) ins) := by
    intro hc
    obtain ⟨sv, hsv, hd⟩ := dispatch_dataProcessing h p hc
    obtain ⟨sv', hsv', hd'⟩ := dispatch_dataProcessing h (p.withMem mem) hc
    obtain rfl : sv' = sv := Option.some.inj (hsv'.symm.trans hsv)
    rw [hd, hd']
    exact .ok (dataProcessing_withMem p mem ins _)
  unfold dispatchTrace
  cases hc : insClass ins with
  | dpShift => exact .nil (hdp (.inl hc))
  | dpImmediate => exact .nil (hdp (.inr hc))
  | loadStore =>
      rw [dispatch_eq, dispatch_eq, hc]
      exact (armLoadStore_tells h p mem ins).imp .ok
  | loadStoreMultiple =>
      rw [dispatch_eq, dispatch_eq, hc]
      exact armLoadStoreMultiple_tells h p mem ins
  | miscellaneous =>
      rw [dispatch_eq, dispatch_eq, hc]
      exact .nil (.ok (armMiscellaneous_withMem p mem ins))
  | branch =>
      rw [dispatch_eq, dispatch_eq, hc]
      exact .nil (.ok (armBranch_withMem p mem ins))
  | coprocessorLoadStore =>
      rw [dispatch_eq, dispatch_eq, hc]
      exact .nil (.ok ⟨rfl, mem, rfl⟩)
  | othersSwi =>
      rw [dispatch_eq, dispatch_eq, hc]
      exact .nil (.ok ⟨rfl, mem, rfl⟩)

theorem armException_tells (exception : Byte) :
    Tells (armExceptionTrace h p exception) (armExceptionTrace h (p.withMem mem) exception)
      (SameResult (armException h p exception) (armException h (p.withMem mem) exception)) := by
  have hpc : armReadRegister (p.withMem mem) 15 = armReadRegister p 15 := rfl
  unfold armExceptionTrace armException
  simp only [hpc]
  by_cases h8 : (exception.toNat : Int) = SOFTWARE_INTERRUPT
  · simp only [if_pos h8]
    refine .single fun hsame => ?_
    have hins : (armReadWord h (p.withMem mem) (armReadRegister p 15 - 8)
          (h.garbage .instruction)).2
        = (armReadWord h p (armReadRegister p 15 - 8) (h.garbage .instruction)).2 :=
      congrArg TracedAccess.value hsame
    rw [hins]
    split_ifs <;> exact ⟨rfl, mem, rfl⟩
  · simp only [if_neg h8]
    refine .nil ?_
    split_ifs <;> exact ⟨rfl, mem, rfl⟩

end Handlers

/-! ## Steps -/

section Steps

variable (h : Host) (p : ArmCore) {mem : Memory} (hsize : mem.size = p.mem.size)

include hsize

/-- The size of the memory decides whether the fetch fails, and the trace
holds the word. -/
theorem armFetch_tells :
    Tells [armFetchTrace h p] [armFetchTrace h (p.withMem mem)]
      (fetchRead h (p.withMem mem) = fetchRead h p) := by
  refine .single fun hsame => ?_
  have hfetch : ∀ q : ArmCore, (armFetchTrace h q).value = (fetchRead h q).2 := by
    intro q
    rw [armFetchTrace, armFetch_eq]
  have hword := congrArg TracedAccess.value hsame
  rw [hfetch, hfetch] at hword
  refine Prod.ext ?_ hword
  have hread : (p.withMem mem).reg 15 = p.reg 15 := rfl
  have hmem : (p.withMem mem).mem.size = p.mem.size := hsize
  unfold fetchRead memoryReadWord memoryReadBytes
  simp only [hread, hmem]
  split_ifs <;> rfl

theorem armStep_tells :
    Tells (armStepTrace h p) (armStepTrace h (p.withMem mem))
      (Together SameResult (armStep h p) (armStep h (p.withMem mem))) := by
  have hcons : ∀ q : ArmCore, armStepTrace h q = [armFetchTrace h q] ++ (armStepTrace h q).tail :=
    fun _ => rfl
  rw [hcons p, hcons (p.withMem mem)]
  refine (armFetch_tells h p hsize).append fun hfetch => ?_
  have hfetched : fetched (p.withMem mem) = (fetched p).withMem mem := rfl
  unfold armStepTrace armStep
  simp only [List.tail_cons, armFetch_eq, hfetch, hfetched]
  refine Tells.append (P := Together SameResult (armExecuteInstruction h p)
    (armExecuteInstruction h (p.withMem mem))) ?_ fun hexecute => ?_
  · -- the instruction
    have hcondition : armCondition ((fetched p).withMem mem) (fetchRead h p).2
        = armCondition (fetched p) (fetchRead h p).2 := rfl
    unfold armExecuteInstruction
    simp only [armFetch_eq, hfetch, hfetched, hcondition]
    by_cases hr : (fetchRead h p).1 = 0
    · by_cases hc : armCondition (fetched p) (fetchRead h p).2 = true
      · simp only [if_pos (And.intro hr hc), if_neg (not_not.mpr hr), if_pos hc]
        exact dispatch_tells h (fetched p) mem (fetchRead h p).2
      · simp only [if_neg fun hh : (fetchRead h p).1 = 0 ∧ _ => hc hh.2, if_neg (not_not.mpr hr),
          if_neg hc]
        exact .nil (.ok ⟨rfl, mem, rfl⟩)
    · simp only [if_neg fun hh : (fetchRead h p).1 = 0 ∧ _ => hr hh.1, if_pos hr]
      exact .nil (.ok ⟨rfl, mem, rfl⟩)
  · -- what it raises
    generalize armExecuteInstruction h p = run at hexecute ⊢
    generalize armExecuteInstruction h (p.withMem mem) = run' at hexecute ⊢
    cases hexecute with
    | error e => exact .nil (.error e)
    | @ok o o' hsame =>
        obtain ⟨result, q⟩ := o
        obtain ⟨result', q'⟩ := o'
        obtain ⟨hresult, mem', hq⟩ := hsame
        simp only at hresult hq
        subst hresult hq
        simp only
        split_ifs
        · exact (armException_tells h q mem' _).imp .ok
        · exact .nil (.ok ⟨rfl, mem', rfl⟩)

end Steps

/-! ## Runs -/

/-- A step, or an exception from outside. -/
inductive Turn where
  | step
  | exception (number : Byte)

section Runs

variable (h : Host)

/-- What a turn does. -/
def Turn.outcome (p : ArmCore) : Turn → Outcome
  | .step => armStep h p
  | .exception number => .ok (armException h p number)

/-- What it leaves in the trace. -/
def Turn.trace (p : ArmCore) : Turn → List TracedAccess
  | .step => armStepTrace h p
  | .exception number => armExceptionTrace h p number

/-- Some turns, with their trace and their results. -/
inductive ScheduledRun : List Turn → ArmCore → List TracedAccess → List Int → ArmCore → Prop where
  | nil (p : ArmCore) : ScheduledRun [] p [] [] p
  | cons {t : Turn} {ts : List Turn} {p p' q : ArmCore} {r : Int} {log : List TracedAccess}
      {results : List Int} (hturn : t.outcome h p = .ok (r, p'))
      (hrest : ScheduledRun ts p' log results q) :
      ScheduledRun (t :: ts) p (t.trace h p ++ log) (r :: results) q

variable {h}

theorem Turn.memSize {t : Turn} {p p' : ArmCore} {r : Int} (hturn : t.outcome h p = .ok (r, p')) :
    p'.mem.size = p.mem.size := by
  cases t with
  | step => exact (SameProcessor.step h hturn).memSize
  | exception number =>
      have hend : (armException h p number).2 = p' := congrArg Prod.snd (Except.ok.inj hturn)
      rw [← hend, armException_mem]

theorem Turn.tells (t : Turn) (p : ArmCore) {mem : Memory} (hsize : mem.size = p.mem.size) :
    Tells (t.trace h p) (t.trace h (p.withMem mem))
      (Together SameResult (t.outcome h p) (t.outcome h (p.withMem mem))) := by
  cases t with
  | step => exact armStep_tells h p hsize
  | exception number => exact (armException_tells h p mem number).imp .ok

theorem ScheduledRun.tells {ts : List Turn} {p q q' : ArmCore} {mem : Memory}
    {log log' : List TracedAccess} {results results' : List Int} (hsize : mem.size = p.mem.size)
    (hrun : ScheduledRun h ts p log results q)
    (hrun' : ScheduledRun h ts (p.withMem mem) log' results' q') :
    Tells log log' (results' = results ∧ SameButMemory q q') := by
  induction hrun generalizing mem log' results' q' with
  | nil p =>
      cases hrun' with
      | nil => exact .nil ⟨rfl, mem, rfl⟩
  | @cons t ts p p₁ q r log results hturn _ ih =>
      cases hrun' with
      | @cons _ _ _ p₁' _ r' log' results' hturn' hrest' =>
          refine (t.tells p hsize).append fun hturns => ?_
          have hsize₁ := Turn.memSize hturn
          have hsize₁' := Turn.memSize hturn'
          rw [hturn, hturn'] at hturns
          cases hturns with
          | ok hsame =>
              obtain ⟨hr, mem₁, hp₁⟩ := hsame
              simp only at hr hp₁
              subst hr hp₁
              have hmem₁ : mem₁.size = p₁.mem.size := hsize₁'.trans (hsize.trans hsize₁.symm)
              refine (ih hmem₁ hrest').imp fun hend => ?_
              exact ⟨by rw [hend.1], hend.2⟩

/-- The trace file tells what the processor has done, whatever its memory
holds: from the same registers, the same clock and output, and memories of
one size, the same turns that leave the same file have had the same results,
and end with the same registers, clock and output. -/
theorem trace_replays {ts : List Turn} {p p' q q' : ArmCore} {log log' : List TracedAccess}
    {results results' : List Int} (hsame : SameButMemory p p')
    (hsize : p'.mem.size = p.mem.size) (hrun : ScheduledRun h ts p log results q)
    (hrun' : ScheduledRun h ts p' log' results' q') (hfile : traceFile log' = traceFile log) :
    results' = results ∧ SameButMemory q q' := by
  obtain ⟨mem, rfl⟩ := hsame
  exact (hrun.tells hsize hrun').of_eq (traceFile_injective hfile)

end Runs

/-- The same program, with something else in a byte that it leaves alone. -/
def storingBeside : ArmCore := storing.withMem (memoryWriteByte storing.mem 12 0xFF).2

theorem traceFile_storingBeside :
    traceFile (armStepTrace x86Host storingBeside ++ []) = storedFile := by
  decide +kernel

theorem trace_replays_storing :
    storingBeside.mem.byteAt 12 ≠ storing.mem.byteAt 12 ∧
      SameButMemory storedWord (stepped x86Host storingBeside) := by
  obtain ⟨r, hstr⟩ := armStep_stepped x86Host storing
  obtain ⟨r', hstr'⟩ := armStep_stepped x86Host storingBeside
  have hrun : ScheduledRun x86Host [.step] storing (armStepTrace x86Host storing ++ []) [r]
      storedWord := .cons (t := .step) hstr (.nil _)
  have hrun' : ScheduledRun x86Host [.step] storingBeside
      (armStepTrace x86Host storingBeside ++ []) [r'] (stepped x86Host storingBeside) :=
    .cons (t := .step) hstr' (.nil _)
  have hsame : SameButMemory storing storingBeside := ⟨_, rfl⟩
  have hsize : storingBeside.mem.size = storing.mem.size := memoryWriteByte_size ..
  exact ⟨by decide +kernel, (trace_replays hsame hsize hrun hrun'
    (traceFile_storingBeside.trans traceFile_storing.symm)).2⟩

end Armator
