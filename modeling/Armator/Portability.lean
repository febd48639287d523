/-
What the host decides.

The host brings its byte order, the value of a shift by 32 and the contents
of the uninitialised locals.  The byte order does not show: a half-word or
a word crosses the host's view of it twice.  Neither does a shift by 32, on
a host where it adds nothing to the word (`Host.ShiftsOut`).  The locals
show where a load, or the fetch, runs past the end of the memory.

So a run of which no step does that (`Contained`) is the same on every host
of one build (`runsFromCreate_portable`).
-/
import Armator.DataAccess
import Armator.ReachableModes
import Armator.SoftwareInterrupt

namespace Armator

open ByteOrder

/-- A shift by 32 leaves the word, as on x86, or nothing of it, as on ARM:
in any case nothing that the word does not have. -/
def Host.ShiftsOut (h : Host) : Prop := ∀ x : Word, x ||| h.shl32 x = x

/-- Two hosts that run one build of the simulator. -/
structure SameBuild (h h' : Host) : Prop where
  endianess : h'.endianess = h.endianess
  shiftsOut : h.ShiftsOut
  shiftsOut' : h'.ShiftsOut

theorem SameBuild.symm {h h' : Host} (hb : SameBuild h h') : SameBuild h' h :=
  ⟨hb.endianess.symm, hb.shiftsOut', hb.shiftsOut⟩

/-! ## The memory -/

/-- The bytes of a value as they are written, in the requested order. -/
theorem orient_hostBytes {n : Nat} (bigEndian : Bool) (value : BitVec (8 * n)) (be : Byte) :
    orient (swapBytes bigEndian be) (hostBytes bigEndian value)
      = orient (decide (be ≠ 0)) (toBytes value) := by
  rw [hostBytes, orient_orient, Bool.xor_comm, swapBytes_xor]

/-- A write is its bytes written one after the other. -/
theorem memoryWriteBytes_loop {n : Nat} (bigEndian : Bool) (mem : Memory) (address : Word)
    (value : BitVec (8 * n)) (be : Byte) :
    memoryWriteBytes n bigEndian mem address value be =
      if address.toNat < mem.size.toNat then
        (0, (List.finRange n).foldl (fun mem (i : Fin n) =>
          (memoryWriteByte mem (address + BitVec.ofNat 32 i)
            (orient (decide (be ≠ 0)) (toBytes value) i)).2) mem)
      else (-1, mem) := by
  rw [← orient_hostBytes bigEndian value be, memoryWriteBytes]
  cases swapBytes bigEndian be <;> rfl

/-- A write is the same on every host, also past the end. -/
theorem memoryWriteBytes_host {n : Nat} (bigEndian bigEndian' : Bool) (mem : Memory)
    (address : Word) (value : BitVec (8 * n)) (be : Byte) :
    memoryWriteBytes n bigEndian' mem address value be
      = memoryWriteBytes n bigEndian mem address value be := by
  rw [memoryWriteBytes_loop, memoryWriteBytes_loop]

/-- Bytes that are all inside the memory are an access inside it. -/
theorem Memory.inRange_of_inside {mem : Memory} {address : Word} {n : Nat} (hn : 0 < n)
    (hin : ∀ b ∈ bytesFrom address n, b.toNat < mem.size.toNat) : mem.InRange address n := by
  have hs := mem.size.isLt
  have h0 : address.toNat < mem.size.toNat := by
    have h := hin _ (mem_bytesFrom hn)
    rwa [show address + BitVec.ofNat 32 0 = address from BitVec.add_zero address] at h
  unfold Memory.InRange
  by_contra hout
  -- the first byte past the end
  have hi : mem.size.toNat - address.toNat < n := by omega
  have h := hin _ (mem_bytesFrom hi)
  rw [BitVec.toNat_add, BitVec.toNat_ofNat] at h
  omega

section Host

variable {h h' : Host} (hb : SameBuild h h') (p : ArmCore)

include hb

theorem armReadWord_host {address : Word} (value value' : Word)
    (hr : p.mem.InRange address 4) :
    armReadWord h' p address value' = armReadWord h p address value := by
  rw [armReadWord, armReadWord, memoryReadWord_eq _ _ _ _ hr, memoryReadWord_eq _ _ _ _ hr,
    hb.endianess]

theorem armReadHalf_host {address : Word} (value value' : Half)
    (hr : p.mem.InRange address 2) :
    armReadHalf h' p address value' = armReadHalf h p address value := by
  rw [armReadHalf, armReadHalf, memoryReadHalf_eq _ _ _ _ hr, memoryReadHalf_eq _ _ _ _ hr,
    hb.endianess]

theorem armWriteWord_host (address value : Word) :
    armWriteWord h' p address value = armWriteWord h p address value := by
  rw [armWriteWord, armWriteWord, hb.endianess]
  simp only [memoryWriteWord, memoryWriteBytes_host h.isBigEndian h'.isBigEndian]

theorem armWriteHalf_host (address : Word) (value : Half) :
    armWriteHalf h' p address value = armWriteHalf h p address value := by
  rw [armWriteHalf, armWriteHalf, hb.endianess]
  simp only [memoryWriteHalf, memoryWriteBytes_host h.isBigEndian h'.isBigEndian]

theorem storeWords_host (mem : Memory) (a : Word) (vs : List Word) :
    storeWords h' mem a vs = storeWords h mem a vs := by
  induction vs generalizing mem a with
  | nil => rfl
  | cons v vs ih =>
      rw [storeWords, storeWords, hb.endianess, memoryWriteWord,
        memoryWriteBytes_host h.isBigEndian h'.isBigEndian, ih]
      rfl

end Host


/-! ## The transfers -/

/-- A load reads inside the memory; a store may go past its end. -/
def ReadsInside (p : ArmCore) (ins : Word) : Prop := bitL ins ≠ 0 → AccessesInside p ins

section Transfers

variable {h h' : Host} (hb : SameBuild h h') (p : ArmCore) (ins : Word)

include hb

theorem loadStoreMode2_host (address : Word) (Rd_num : Fin 16)
    (hr : bitL ins ≠ 0 → p.mem.InRange address (if bitB ins = 0 then 4 else 1)) :
    loadStoreMode2 h' p ins address Rd_num = loadStoreMode2 h p ins address Rd_num := by
  unfold loadStoreMode2
  split_ifs with hB hL hL
  · rw [if_pos hB] at hr
    simp only [armReadWord_host hb p (h.garbage .val) (h'.garbage .val) (hr hL)]
  · simp only [armWriteWord_host hb]
  · rw [if_neg hB] at hr
    have hlt : address.toNat < p.mem.size.toNat := (hr hL).lt_zero (by decide)
    simp only [armReadByte, memoryReadByte_of_lt _ hlt]
  · rfl

theorem loadStoreMode3_host (address : Word) (Rd_num : Fin 16)
    (hr : bitL ins ≠ 0 → p.mem.InRange address (mode3Width ins)) :
    loadStoreMode3 h' p ins address Rd_num = loadStoreMode3 h p ins address Rd_num := by
  unfold mode3Width at hr
  unfold loadStoreMode3
  by_cases hL : bitL ins = 0
  · simp only [if_pos hL, armWriteHalf_host hb]
  · simp only [if_neg hL]
    have hhalf : (getBits ins 7 4).toNat ≠ 0b1101 → p.mem.InRange address 2 := by
      intro h74
      have hr' := hr hL
      rwa [if_neg fun hc => h74 hc.2] at hr'
    split
    · rename_i h74
      rw [armReadHalf_host hb p _ _ (hhalf (by rw [h74]; decide))]
    · rename_i h74
      have hr' := hr hL
      rw [if_pos ⟨hL, h74⟩] at hr'
      have hlt : address.toNat < p.mem.size.toNat := hr'.lt_zero (by decide)
      simp only [armReadByte, memoryReadByte_of_lt _ hlt]
    · rename_i h74
      rw [armReadHalf_host hb p _ _ (hhalf (by rw [h74]; decide))]
    · rfl

theorem armLoadStore_host (hc : insClass ins = .loadStore) (hin : ReadsInside p ins) :
    armLoadStore h' p ins = armLoadStore h p ins := by
  by_cases hr : LoadStoreRefuses p ins
  · rw [armLoadStore_of_refuses h' p hr, armLoadStore_of_refuses h p hr]
  · unfold ReadsInside AccessesInside accessedBytes at hin
    simp only [hc, if_neg hr] at hin
    unfold LoadStoreRefuses at hr
    push Not at hr
    rw [armLoadStore_eq h' p hr.1, armLoadStore_eq h p hr.1, if_neg hr.2.1, if_neg hr.2.1]
    by_cases h26 : getBit ins 26 = 0
    · rw [if_neg (not_not.mpr h26)] at hin
      rw [if_neg (not_not.mpr h26), if_neg (not_not.mpr h26)]
      refine loadStoreMode3_host hb _ ins _ _ fun hL => ?_
      rw [Memory.InRange, mode3State_mem, mode2State_mem]
      refine Memory.inRange_of_inside ?_ (hin hL)
      unfold mode3Width
      split <;> decide
    · rw [if_pos h26] at hin
      rw [if_pos h26, if_pos h26]
      refine loadStoreMode2_host hb _ ins _ _ fun hL => ?_
      rw [Memory.InRange, mode2State_mem]
      refine Memory.inRange_of_inside ?_ (hin hL)
      split <;> decide

/-- The last of some reads inside the memory. -/
theorem readThrough_host {a : Word} (w w' : Word) {n : Nat} (hn : 0 < n)
    (hin : ∀ b ∈ bytesFrom a (4 * n), b.toNat < p.mem.size.toNat) :
    readThrough h' p a w' n = readThrough h p a w n := by
  obtain ⟨n, rfl⟩ := Nat.exists_eq_succ_of_ne_zero hn.ne'
  rw [Nat.mul_succ, bytesFrom_add] at hin
  rw [readThrough, readThrough]
  have hlast : p.mem.InRange (a + BitVec.ofNat 32 (4 * n)) 4 :=
    Memory.inRange_of_inside (by decide) fun b hb => hin b (List.mem_append_right _ hb)
  rw [armReadWord_host hb p _ _ hlast]

theorem loadEntries_host {a : Word} (w w' : Word) {l : List (Fin 16)}
    (hin : ∀ b ∈ bytesFrom a (4 * l.length), b.toNat < p.mem.size.toNat) :
    loadEntries h' p a w' l = loadEntries h p a w l := by
  induction l generalizing a w w' with
  | nil => rfl
  | cons i l ih =>
      rw [List.length_cons, Nat.mul_succ, Nat.add_comm, bytesFrom_add] at hin
      have hfirst : p.mem.InRange a 4 :=
        Memory.inRange_of_inside (by decide) fun b hb => hin b (List.mem_append_left _ hb)
      rw [loadEntries, loadEntries, armReadWord_host hb p w w' hfirst]
      exact congrArg _ (ih _ _ fun b hb => hin b (List.mem_append_right _ hb))

theorem ldmState_host
    (hin : ∀ b ∈ bytesFrom (addrLsMultiple p ins).1 (4 * numberOfSetBitsIn ins),
      b.toNat < p.mem.size.toNat) :
    ldmState h' p ins = ldmState h p ins := by
  have hloaded : (loadedList ins).length ≤ numberOfSetBitsIn ins := by
    rw [numberOfSetBitsIn_eq, registerList_eq, List.length_append]
    exact Nat.le_add_right ..
  have hregs : ldmRegisters h' p ins = ldmRegisters h p ins := by
    unfold ldmRegisters
    rw [loadEntries_host hb p (h.garbage .word) (h'.garbage .word)]
    intro b hmem
    refine hin b ?_
    rw [← Nat.add_sub_cancel' hloaded, Nat.mul_add, bytesFrom_add]
    exact List.mem_append_left _ hmem
  have hpc : getBit ins 15 = 1 → pcWord h' p ins = pcWord h p ins := by
    intro h15
    refine readThrough_host hb p _ _ ?_ hin
    rw [numberOfSetBitsIn_eq]
    have hmem : 15 ∈ registerList ins := mem_registerList.mpr h15
    exact List.length_pos_of_mem hmem
  unfold ldmState
  simp only [hregs]
  by_cases h15 : getBit ins 15 = 1
  · rw [hpc h15]
  · rw [if_neg h15, if_neg h15]

theorem armLoadStoreMultiple_host (hc : insClass ins = .loadStoreMultiple)
    (hin : ReadsInside p ins) :
    armLoadStoreMultiple h' p ins = armLoadStoreMultiple h p ins := by
  by_cases hB : bitB ins = 0
  · unfold ReadsInside AccessesInside accessedBytes at hin
    simp only [hc, if_pos hB] at hin
    by_cases hL : bitL ins = 0
    · rw [armLoadStoreMultiple_store h' p hL hB, armLoadStoreMultiple_store h p hL hB,
        storeWords_host hb]
    · rw [armLoadStoreMultiple_load h' p hL hB, armLoadStoreMultiple_load h p hL hB,
        ldmState_host hb p ins (hin hL)]
  · rw [armLoadStoreMultiple, armLoadStoreMultiple, if_neg (fun hh => hB hh.2),
      if_neg (fun hh => hB hh.2), if_neg (fun hh => hB hh.2), if_neg (fun hh => hB hh.2)]

end Transfers


/-! ## The step -/

theorem immediateOperand_unrotated {h : Host} (hh : h.ShiftsOut) {ins : Word}
    (hr : getBits ins 11 8 = 0) : immediateOperand h ins = getBits ins 7 0 := by
  have h0 : (getBits ins 11 8).toNat = 0 := congrArg BitVec.toNat hr
  unfold immediateOperand
  simp only [h0, if_true, Nat.zero_mul, BitVec.ushiftRight_zero]
  exact hh _

/-- The immediate operand is the same, with and without a rotation. -/
theorem immediateOperand_host {h h' : Host} (hb : SameBuild h h') (ins : Word) :
    immediateOperand h' ins = immediateOperand h ins := by
  by_cases hr : getBits ins 11 8 = 0
  · rw [immediateOperand_unrotated hb.shiftsOut' hr, immediateOperand_unrotated hb.shiftsOut hr]
  · have h0 : ¬ (getBits ins 11 8).toNat = 0 := fun h0 => hr (BitVec.eq_of_toNat_eq h0)
    unfold immediateOperand
    simp only [if_neg h0]

/-- Clearing bit 1 takes 2 away, if it was set. -/
theorem and_eq_sub {x : Word} (hx : x.getLsbD 1 = true) : x &&& 0xFFFFFFFD = x - 2 := by
  have hmask : ∀ j < 32, (0xFFFFFFFD#32).getLsbD j = decide (j ≠ 1) := by decide
  have htwo : ∀ j < 32, (2#32).getLsbD j = decide (j = 1) := by decide
  have hor : (x &&& 0xFFFFFFFD) ||| 2 = x := by
    refine BitVec.eq_of_getLsbD_eq fun j hj => ?_
    rw [BitVec.getLsbD_or, BitVec.getLsbD_and, show (0xFFFFFFFD : Word) = 0xFFFFFFFD#32 from rfl,
      show (2 : Word) = 2#32 from rfl, hmask j hj, htwo j hj]
    by_cases h1 : j = 1
    · rw [h1, hx]
      rfl
    · rw [decide_eq_true h1, decide_eq_false h1, Bool.and_true, Bool.or_false]
  have hand : (x &&& 0xFFFFFFFD) &&& 2 = 0 := by
    rw [BitVec.and_assoc, show (0xFFFFFFFD : Word) &&& 2 = 0#32 from by decide, BitVec.and_zero]
    rfl
  rw [← BitVec.add_eq_or_of_and_eq_zero _ _ hand] at hor
  exact eq_sub_of_add_eq hor

/-- A software interrupt looks again at its own word, or two bytes before
it where the program counter is not aligned. -/
theorem swi_inRange {mem : Memory} {A : Word} (hr : mem.InRange A 4) :
    mem.InRange (((A + 8) &&& 0xFFFFFFFD) - 8) 4 := by
  cases h1 : (A + 8).getLsbD 1 with
  | false =>
      rw [(and_eq_self_iff _).mpr h1, BitVec.add_sub_cancel]
      exact hr
  | true =>
      have h2 : 2 ≤ A.toNat := by
        have hbit := (getBit_eq_one_iff (A + 8) 1).mp ((getBit_eq_one_iff_getLsbD _ 1).mpr h1)
        rw [BitVec.toNat_add, show (8 : Word).toNat = 8 from rfl] at hbit
        omega
      rw [and_eq_sub h1, show A + 8 - 2 - 8 = A - 2 by ring]
      unfold Memory.InRange at hr ⊢
      rw [BitVec.toNat_sub_of_le h2]
      have htwo : (2 : Word).toNat = 2 := rfl
      omega

/-- A handler that raises a software interrupt has kept the memory, and the
program counter. -/
theorem swi_state {h : Host} {p : ArmCore} {ins : Word} {o : Int × ArmCore}
    (ho : dispatch h (fetched p) ins = .ok o)
    (hswi : o.1 = SOFTWARE_INTERRUPT) :
    o.2.mem = p.mem ∧ armReadRegister o.2 15 = (p.reg 15 + 8) &&& 0xFFFFFFFD := by
  have hcl : insClass ins = .othersSwi := by
    by_contra hcl
    exact dispatch_ne_swi hcl ho hswi
  rw [dispatch_eq, hcl] at ho
  obtain rfl := Except.ok.inj ho
  refine ⟨rfl, ?_⟩
  show armReadRegister (armWriteRegister (fetched p) 14 _) 15 = _
  rw [armReadRegister_write_of_ne _ _ (by decide), fetched_pc]

/-- A step of which neither the fetch nor a load runs past the end of the
memory. -/
structure StepContained (be : Byte) (p : ArmCore) : Prop where
  fetch : p.mem.InRange (p.reg 15) 4 ∨ p.mem.size.toNat ≤ (p.reg 15).toNat
  reads : p.mem.InRange (p.reg 15) 4 →
    armCondition (fetched p) (p.mem.wordAt be (p.reg 15)) = true →
      ReadsInside (fetched p) (p.mem.wordAt be (p.reg 15))

theorem StepContained.of_word {be : Byte} {p : ArmCore} {ins : Word}
    (hr : p.mem.InRange (p.reg 15) 4) (hw : p.mem.wordAt be (p.reg 15) = ins)
    (hin : ReadsInside (fetched p) ins) : StepContained be p := by
  subst hw
  exact ⟨Or.inl hr, fun _ _ => hin⟩

section Step

variable {h h' : Host} (hb : SameBuild h h') (p : ArmCore) (ins : Word)

include hb

theorem dispatch_host (hin : ReadsInside p ins) : dispatch h' p ins = dispatch h p ins := by
  have hdp : insClass ins = .dpShift ∨ insClass ins = .dpImmediate →
      dispatch h' p ins = dispatch h p ins := by
    intro hc
    obtain ⟨sv, hsv, hd⟩ := dispatch_dataProcessing h p hc
    obtain ⟨sv', hsv', hd'⟩ := dispatch_dataProcessing h' p hc
    have heq : shifterValues h' p ins = shifterValues h p ins := by
      unfold shifterValues immediateValues immediateCarryOut
      rw [immediateOperand_host hb]
    rw [heq, hsv] at hsv'
    obtain rfl := Option.some.inj hsv'
    rw [hd, hd']
  cases hc : insClass ins with
  | dpShift => exact hdp (Or.inl hc)
  | dpImmediate => exact hdp (Or.inr hc)
  | loadStore =>
      rw [dispatch_eq, dispatch_eq, hc]
      exact congrArg Except.ok (armLoadStore_host hb p ins hc hin)
  | loadStoreMultiple =>
      rw [dispatch_eq, dispatch_eq, hc]
      exact armLoadStoreMultiple_host hb p ins hc hin
  | _ => rw [dispatch_eq, dispatch_eq, hc]; rfl

/-- An exception reads memory only to serve a software interrupt. -/
theorem armException_host {exception : Byte}
    (hr : exception = 8 → p.mem.InRange (armReadRegister p 15 - 8) 4) :
    armException h' p exception = armException h p exception := by
  by_cases h8 : exception = 8
  · unfold armException
    simp only [armReadWord_host hb p (h.garbage .instruction) (h'.garbage .instruction) (hr h8)]
  · have hne : ¬ ((exception.toNat : Int) = SOFTWARE_INTERRUPT) := by
      intro he
      exact h8 (BitVec.eq_of_toNat_eq (Int.ofNat_inj.mp he))
    unfold armException
    simp only [if_neg hne]

/-- What a handler hands on is served in the same way: a software interrupt
finds its word inside the memory. -/
theorem raise_host {o : Int × ArmCore} (hr : IsResult o.1)
    (hswi : o.1 = SOFTWARE_INTERRUPT → o.2.mem.InRange (armReadRegister o.2 15 - 8) 4) :
    raise h' (.ok o) = raise h (.ok o) := by
  obtain ⟨result, q⟩ := o
  rcases hr with hr | hr | hr | hr
  · subst hr
    rw [raise_zero, raise_zero]
  · subst hr
    rw [raise_neg_one, raise_neg_one]
  · subst hr
    rw [raise_undefined, raise_undefined]
  · subst hr
    rw [raise_swi, raise_swi, armException_host hb q fun _ => hswi rfl]

theorem armStep_host (hin : StepContained h.endianess p) : armStep h' p = armStep h p := by
  rcases hin.fetch with hr | hout
  · have hfetch : ∀ g : Host, g.endianess = h.endianess →
        fetchRead g p = (0, p.mem.wordAt h.endianess (p.reg 15)) := by
      intro g hg
      rw [fetchRead, memoryReadWord_eq _ _ _ _ hr, hg]
    by_cases hc : armCondition (fetched p) (p.mem.wordAt h.endianess (p.reg 15)) = true
    · have hx : Executes h p (p.mem.wordAt h.endianess (p.reg 15)) := ⟨hfetch h rfl, hc⟩
      have hx' : Executes h' p (p.mem.wordAt h.endianess (p.reg 15)) :=
        ⟨hfetch h' hb.endianess, hc⟩
      obtain ⟨o, ho, hres, -⟩ := dispatch_effective h (fetched p)
        (p.mem.wordAt h.endianess (p.reg 15))
      rw [armStep_of_executes hx, armStep_of_executes hx',
        dispatch_host hb _ _ (hin.reads hr hc), ho]
      refine raise_host hb hres fun hswi => ?_
      obtain ⟨hmem, hpc⟩ := swi_state ho hswi
      rw [hmem, hpc]
      exact swi_inRange hr
    · rw [armStep_eq, armStep_eq, hfetch h rfl, hfetch h' hb.endianess, if_neg (not_not.mpr rfl),
        if_neg (not_not.mpr rfl), if_neg hc, if_neg hc]
      rfl
  · -- the fetch fails as a whole
    have hfetch : ∀ g : Host, (fetchRead g p).1 = -1 := by
      intro g
      rw [fetchRead, memoryReadWord, memoryReadBytes, if_neg (Nat.not_lt.mpr hout)]
    rw [armStep_eq, armStep_eq, hfetch h, hfetch h', if_pos (by decide), if_pos (by decide),
      raise_neg_one, raise_neg_one]

end Step

/-! ## Runs -/

/-- The same of any move: an exception from outside that is served as a
software interrupt looks for its word as well. -/
def Contained (be : Byte) (p : ArmCore) : Move → Prop
  | .step => StepContained be p
  | .exception number => number = 8 → p.mem.InRange (armReadRegister p 15 - 8) 4
  | .contents _ => True

theorem armCreate_host {h h' : Host} (hb : SameBuild h h') (reg : Registers) (mem : Memory) :
    armCreate h' reg mem = armCreate h reg mem := by
  unfold armCreate
  rw [armException_host hb _ fun h8 => absurd h8 (by decide)]

theorem Takes.host {h h' : Host} (hb : SameBuild h h') {p p' : ArmCore} {m : Move}
    (ht : Takes h p p' m) (hin : Contained h.endianess p m) : Takes h' p p' m := by
  cases m with
  | step =>
      obtain ⟨r, hs⟩ := ht
      exact ⟨r, (armStep_host hb p hin).trans hs⟩
  | exception number =>
      show (armException h' p number).2 = p'
      rw [armException_host hb p hin]
      exact ht
  | contents bytes => exact ht

section Runs

variable {h h' : Host} {mem : Memory} {N : Nat} {moves : Nat → Move} {s : Nat → ArmCore}

theorem RunsFromCreate.host (hb : SameBuild h h') (hrun : RunsFromCreate h mem N moves s)
    (hin : ∀ n < N, Contained h.endianess (s n) (moves n)) : RunsFromCreate h' mem N moves s where
  start := hrun.start.trans (armCreate_host hb ..).symm
  next := fun n hn => (hrun.next n hn).host hb (hin n hn)

/-- What the processor does is the same on every host of one build, as long
as it reads inside its memory: the hosts have the same runs, and each step
reports the same. -/
theorem runsFromCreate_portable (hb : SameBuild h h')
    (hin : ∀ n < N, Contained h.endianess (s n) (moves n)) :
    (RunsFromCreate h mem N moves s ↔ RunsFromCreate h' mem N moves s) ∧
      ∀ n < N, moves n = .step → armStep h' (s n) = armStep h (s n) := by
  constructor
  · constructor
    · intro hrun
      exact hrun.host hb hin
    · intro hrun
      exact hrun.host hb.symm (hb.endianess ▸ hin)
  · intro n hn hm
    have hc := hin n hn
    rw [hm] at hc
    exact armStep_host hb _ hc

end Runs

/-- A big-endian host, where nothing is left of a shift by 32. -/
def bigEndianHost : Host :=
  { isBigEndian := true, endianess := 0, shl32 := fun _ => 0, garbage := fun _ => 0xFFFFFFFF }

theorem sameBuild_bigEndianHost : SameBuild x86Host bigEndianHost where
  endianess := rfl
  shiftsOut := fun _ => BitVec.or_self
  shiftsOut' := fun _ => BitVec.or_zero

/-- The state after a step. -/
def stepped (h : Host) (p : ArmCore) : ArmCore :=
  match armStep h p with
  | .ok o => o.2
  | .error _ => p

theorem armStep_stepped (h : Host) (p : ArmCore) : ∃ r, armStep h p = .ok (r, stepped h p) := by
  obtain ⟨r, p', hs, -⟩ := armStep_effect h p
  exact ⟨r, by rw [stepped, hs]⟩

/-- The processor left to itself runs. -/
theorem runsFromCreate_stepped (h : Host) (mem : Memory) (N : Nat) :
    RunsFromCreate h mem N (fun _ => .step)
      fun n => (stepped h)^[n] (armCreate h registersCreate mem) := by
  refine ⟨rfl, fun n _ => ?_⟩
  obtain ⟨r, hs⟩ := armStep_stepped h ((stepped h)^[n] (armCreate h registersCreate mem))
  refine ⟨r, ?_⟩
  rw [Function.iterate_succ_apply', hs]

/-- `LDR r0, [pc]` and `swi 1`: the letter A, loaded and printed. -/
def printingMemory : Memory :=
  memoryCreate 12 fun i =>
    (([0xE59F0000, 0xEF000001, 0x41] : List Word).getD (i / 4) 0 >>> (8 * (i % 4))).setWidth 8

def printingRun (n : Nat) : ArmCore :=
  (stepped x86Host)^[n] (armCreate x86Host registersCreate printingMemory)

theorem printingRun_contained : ∀ n < 2, Contained 0 (printingRun n) .step := by
  have hloads : accessedBytes (fetched (printingRun 0)) 0xE59F0000 = [8, 9, 10, 11] := by
    decide +kernel
  have hprints : accessedBytes (fetched (printingRun 1)) 0xEF000001 = [] := by decide +kernel
  have hfirst : (printingRun 0).mem.wordAt 0 ((printingRun 0).reg 15) = 0xE59F0000 := by
    decide +kernel
  have hsecond : (printingRun 1).mem.wordAt 0 ((printingRun 1).reg 15) = 0xEF000001 := by
    decide +kernel
  intro n hn
  obtain rfl | rfl : n = 0 ∨ n = 1 := by omega
  · refine StepContained.of_word (by decide +kernel) hfirst fun _ b hb => ?_
    rw [hloads] at hb
    rw [show (fetched (printingRun 0)).mem.size = 12 from rfl]
    revert b
    simp
  · refine StepContained.of_word (by decide +kernel) hsecond fun _ b hb => ?_
    rw [hprints] at hb
    exact absurd hb List.not_mem_nil

theorem runsFromCreate_portable_printingRun :
    (RunsFromCreate x86Host printingMemory 2 (fun _ => .step) printingRun ↔
        RunsFromCreate bigEndianHost printingMemory 2 (fun _ => .step) printingRun) ∧
      ∀ n < 2, (fun _ => Move.step) n = .step →
        armStep bigEndianHost (printingRun n) = armStep x86Host (printingRun n) :=
  runsFromCreate_portable sameBuild_bigEndianHost printingRun_contained

/-- The run is one, on either host. -/
example : RunsFromCreate bigEndianHost printingMemory 2 (fun _ => .step) printingRun :=
  (runsFromCreate_stepped x86Host printingMemory 2).host sameBuild_bigEndianHost
    printingRun_contained

end Armator
