/-
Push and pop.

A store-multiple with writeback and the load-multiple of the opposite
addressing walk over the same words: `matching_start` and
`matching_writeback` say so for the four pairs of addressing modes.  With
`loadEntries_storeWords`, that a load reads what a store has left, the
round trip follows: whatever happens between the two to the registers of
the list, and to memory outside the stored words, the load puts back
every register of the list and the base.
-/
import Armator.BlockTransfer

namespace Armator

open Replay

/-! ## Reading back a store -/

/-- Loading from words that a store has left gives the stored values. -/
theorem loadEntries_storeWords (h : Host) (q : ArmCore) (f : Fin 16 → Word) {mem : Memory}
    {a : Word} (w : Word) {l : List (Fin 16)} (hr : mem.InRange a (4 * l.length))
    (hs : q.mem.size = mem.size)
    (hb : ∀ b : Word, a.toNat ≤ b.toNat → b.toNat < a.toNat + 4 * l.length →
      q.mem.byteAt b = (storeWords h mem a (l.map f)).byteAt b) :
    loadEntries h q a w l = l.map fun i => (i, f i) := by
  induction l generalizing mem a w with
  | nil => rfl
  | cons i l ih =>
      rw [List.length_cons] at hr hb
      obtain ⟨hhead, htail, hnext⟩ := hr.word_cons
      rw [List.map_cons, storeWords] at hb
      have hsize : (memoryWriteWord h.isBigEndian mem a (f i) h.endianess).2.size = mem.size :=
        memoryWriteBytes_size (n := 4) ..
      have htail' := htail.of_size hsize
      -- the words after the first leave its four bytes alone
      have hfirst : ∀ b : Word, a.toNat ≤ b.toNat → b.toNat < a.toNat + 4 →
          q.mem.byteAt b
            = (memoryWriteWord h.isBigEndian mem a (f i) h.endianess).2.byteAt b := by
        intro b hlo hhi
        rw [hb b hlo (by omega)]
        by_cases hl : l.length = 0
        · rw [List.eq_nil_of_length_eq_zero hl]
          rfl
        · apply storeWords_byteAt_of_outside h (by rw [List.length_map]; exact htail')
          have := hnext hl
          omega
      have hword : (armReadWord h q a w).2 = f i := by
        rw [armReadWord, memoryReadWord_eq _ _ _ _ (hhead.of_size hs),
          Memory.wordAt_congr h.endianess (hhead.of_size hsize) hfirst,
          wordAt_memoryWriteWord _ _ _ hhead]
      rw [loadEntries, hword, List.map_cons]
      refine congrArg (List.cons (i, f i)) (ih _ htail' (hs.trans hsize.symm) ?_)
      intro b hlo hhi
      by_cases hl : l.length = 0
      · omega
      · have := hnext hl
        exact hb b (by omega) (by omega)

/-! ## Matching words -/

/-- A store-multiple and the load-multiple that undoes it: the same base,
not r15, the same non-empty list without base and r15, both with
writeback, and P and U exchanged for their opposites. -/
structure MatchingPair (st ld : Word) : Prop where
  st_class : getBits st 27 25 = 0b100
  ld_class : getBits ld 27 25 = 0b100
  st_L : bitL st = 0
  ld_L : bitL ld = 1
  st_B : bitB st = 0
  ld_B : bitB ld = 0
  st_W : bitW st = 1
  ld_W : bitW ld = 1
  P : bitP ld ≠ bitP st
  U : bitU ld ≠ bitU st
  base : getBits ld 19 16 = getBits st 19 16
  base_ne_pc : bitsRn st ≠ 15
  list : getBits ld 15 0 = getBits st 15 0
  list_ne_nil : getBits st 15 0 ≠ 0
  pc_not_mem : getBit st 15 = 0
  base_not_mem : getBit st (bitsRn st) = 0

theorem getBit_opposite {x y : Word} {i : Nat} (hne : getBit x i ≠ getBit y i) :
    getBit x i = 0 ↔ ¬ getBit y i = 0 := by
  constructor
  · intro hx hy
    exact hne (hx.trans hy.symm)
  · intro hy
    by_contra hx
    rw [← Ne, getBit_ne_zero_iff] at hx hy
    exact hne (hx.trans hy.symm)

section

variable {st ld : Word} (hm : MatchingPair st ld)

include hm

theorem MatchingPair.bitsRn_eq : bitsRn ld = bitsRn st := by
  rw [bitsRn, hm.base, bitsRn]

theorem MatchingPair.getBit_eq (i : Fin 16) : getBit ld i = getBit st i := by
  have hi := i.isLt
  have hb := congrArg (fun w => BitVec.getLsbD w i) hm.list
  simp only [getLsbD_getBits, Nat.zero_add] at hb
  rw [decide_eq_true (show i.val < 15 - 0 + 1 by omega), Bool.true_and, Bool.true_and] at hb
  refine BitVec.eq_of_getLsbD_eq ?_
  intro j _
  rw [getLsbD_getBit, getLsbD_getBit, hb]

theorem MatchingPair.registerList_eq : registerList ld = registerList st := by
  unfold registerList
  congr 1
  funext i
  rw [selects, selects, hm.getBit_eq]

theorem MatchingPair.pc_not_loaded : ¬ getBit ld 15 = 1 := by
  rw [show getBit ld 15 = getBit st 15 from hm.getBit_eq 15, hm.pc_not_mem]
  decide

theorem MatchingPair.loadedList_eq : loadedList ld = registerList st := by
  rw [← hm.registerList_eq, Armator.registerList_eq, if_neg hm.pc_not_loaded, List.append_nil]

theorem MatchingPair.numberOfSetBitsIn_eq : numberOfSetBitsIn ld = numberOfSetBitsIn st := by
  rw [Armator.numberOfSetBitsIn_eq, Armator.numberOfSetBitsIn_eq, hm.registerList_eq]

theorem MatchingPair.base_not_mem_list : bitsRn st ∉ registerList st := by
  rw [mem_registerList, hm.base_not_mem]
  decide

theorem MatchingPair.pc_not_mem_list : (15 : Fin 16) ∉ registerList st := by
  rw [mem_registerList]
  show ¬ getBit st 15 = 1
  rw [hm.pc_not_mem]
  decide

theorem MatchingPair.P_iff : getBit ld 24 = 0 ↔ ¬ getBit st 24 = 0 :=
  getBit_opposite hm.P

theorem MatchingPair.U_iff : getBit ld 23 = 0 ↔ ¬ getBit st 23 = 0 :=
  getBit_opposite hm.U

/-- The load starts where the store started, and brings the base back. -/
theorem matching_addr {p q : ArmCore}
    (hRn : armReadRegister q (bitsRn st)
      = armReadRegister (addrLsMultiple p st).2.2 (bitsRn st)) :
    (addrLsMultiple q ld).1 = (addrLsMultiple p st).1 ∧
      (addrLsMultiple q ld).2.2
        = armWriteRegister q (bitsRn st) (armReadRegister p (bitsRn st)) := by
  have hP : getBit ld 24 = 0 ↔ ¬ getBit st 24 = 0 := hm.P_iff
  have hU : getBit ld 23 = 0 ↔ ¬ getBit st 23 = 0 := hm.U_iff
  have hW : bitW st ≠ 0 := by rw [hm.st_W]; decide
  have hW' : bitW ld ≠ 0 := by rw [hm.ld_W]; decide
  unfold addrLsMultiple at hRn ⊢
  rw [hm.bitsRn_eq, hm.numberOfSetBitsIn_eq]
  simp only [if_pos hW, if_pos hW', ne_eq, hP, hU] at hRn ⊢
  -- one case for each discipline: the two offsets cancel
  by_cases h24 : getBit st 24 = 0 <;> by_cases h23 : getBit st 23 = 0 <;>
    simp only [h24, h23, not_true, not_false_iff, and_true, and_false, if_true, if_false,
      armReadRegister_write_self _ _ hm.base_ne_pc] at hRn ⊢ <;>
    rw [hRn] <;>
    exact ⟨by ring, congrArg (armWriteRegister q (bitsRn st)) (by ring)⟩

end

/-! ## The round trip -/

/-- `q` may follow `p` between store and load: it has the mode and the
base register of `p`, and the `n` bytes of `p` from `start` on. -/
structure KeepsStack (p q : ArmCore) (Rn : Fin 16) (start : Word) (n : Nat) : Prop where
  mode : registersGetMode q.reg = registersGetMode p.reg
  base : armReadRegister q Rn = armReadRegister p Rn
  size : q.mem.size = p.mem.size
  stored : ∀ b : Word, start.toNat ≤ b.toNat → b.toNat < start.toNat + n →
    q.mem.byteAt b = p.mem.byteAt b

/-- Whatever is written to registers other than the base, the stack stays. -/
theorem keepsStack_writeRegisters (p : ArmCore) {entries : List (Fin 16 × Word)} {Rn : Fin 16}
    (start : Word) (n : Nat) (hRn : Rn ≠ 15) (he : ∀ e ∈ entries, e.1 ≠ Rn) :
    KeepsStack p (writeRegisters p entries) Rn start n where
  mode := writeRegisters_mode ..
  base := by
    rw [armReadRegister_eq_regView hRn, armReadRegister_eq_regView hRn, regView_writeRegisters,
      replay_of_forall_ne _ he]
  size := by rw [writeRegisters_mem]
  stored := by
    intro b _ _
    rw [writeRegisters_mem]

/-- The state a store-multiple leaves. -/
def stmState (h : Host) (p : ArmCore) (ins : Word) : ArmCore :=
  { (addrLsMultiple p ins).2.2 with
    mem := storeWords h p.mem (addrLsMultiple p ins).1
      ((registerList ins).map (armReadRegister (addrLsMultiple p ins).2.2)) }

/-- Bytes outside the transfer are not written. -/
theorem stmState_byteAt_of_outside (h : Host) {p : ArmCore} {ins : Word}
    (hr : p.mem.InRange (addrLsMultiple p ins).1 (4 * (registerList ins).length)) {b : Word}
    (hb : b.toNat < (addrLsMultiple p ins).1.toNat ∨
      (addrLsMultiple p ins).1.toNat + 4 * (registerList ins).length ≤ b.toNat) :
    (stmState h p ins).mem.byteAt b = p.mem.byteAt b := by
  unfold stmState
  apply storeWords_byteAt_of_outside
  · rw [List.length_map]
    exact hr
  · rw [List.length_map]
    exact hb

section

variable {h : Host} {p q : ArmCore} {st ld : Word} (hm : MatchingPair st ld)
  (hr : p.mem.InRange (addrLsMultiple p st).1 (4 * (registerList st).length))
  (hk : KeepsStack (stmState h p st) q (bitsRn st) (addrLsMultiple p st).1
    (4 * (registerList st).length))

include hm

/-- The writeback comes first, but changes no register of the list. -/
theorem MatchingPair.stored_values :
    (registerList st).map (armReadRegister (addrLsMultiple p st).2.2)
      = (registerList st).map (armReadRegister p) := by
  apply List.map_congr_left
  intro i hi
  obtain ⟨value, hv⟩ := addrLsMultiple_state p st
  rw [hv]
  split
  · apply armReadRegister_write_of_ne
    intro he
    exact hm.base_not_mem_list (he ▸ hi)
  · rfl

include hr hk

/-- The registers a matching load leaves are those before the store. -/
theorem regView_ldmState :
    regView (ldmState h q ld)
      = replay (Function.update (regView q) (bitsRn st) (armReadRegister p (bitsRn st)))
          ((registerList st).map fun i => (i, armReadRegister p i)) := by
  obtain ⟨hstart, hback⟩ := matching_addr hm (p := p) (q := q) hk.base
  have hload : loadEntries h q (addrLsMultiple p st).1 (h.garbage .word) (registerList st)
      = (registerList st).map fun i => (i, armReadRegister p i) := by
    have hsize : (stmState h p st).mem.size = p.mem.size := storeWords_size ..
    apply loadEntries_storeWords h q (armReadRegister p) _ hr (hk.size.trans hsize)
    intro b hlo hhi
    rw [hk.stored b hlo hhi, stmState, hm.stored_values]
  simp only [ldmState, if_neg hm.pc_not_loaded]
  rw [ldmRegisters, hstart, hback, hm.loadedList_eq, hload, regView_writeRegisters,
    regView_armWriteRegister]

theorem ldmState_restores {i : Fin 16} (hi : i ∈ registerList st ∨ i = bitsRn st) :
    armReadRegister (ldmState h q ld) i = armReadRegister p i := by
  have hne : i ≠ 15 := by
    rcases hi with hi | rfl
    · intro he
      exact hm.pc_not_mem_list (he ▸ hi)
    · exact hm.base_ne_pc
  rw [armReadRegister_eq_regView hne, regView_ldmState hm hr hk]
  have hkeys : ((registerList st).map fun i => (i, armReadRegister p i)).map Prod.fst
      = registerList st := by
    rw [List.map_map]
    exact List.map_id _
  rcases hi with hi | rfl
  · exact replay_of_mem (e := (i, armReadRegister p i)) _
      (by rw [hkeys]; exact registerList_nodup st) (List.mem_map_of_mem hi)
  · rw [replay_of_forall_ne, Function.update_self]
    intro e he hei
    obtain ⟨j, hj, rfl⟩ := List.mem_map.mp he
    exact hm.base_not_mem_list (hei ▸ hj)

omit hr hk in
theorem ldmState_mem : (ldmState h q ld).mem = q.mem := by
  simp only [ldmState, if_neg hm.pc_not_loaded, ldmRegisters, writeRegisters_mem,
    addrLsMultiple_mem]

end

/-! ## On the step -/

theorem addrLsMultiple_fetched (p : ArmCore) {ins : Word} (hb : bitsRn ins ≠ 15) :
    (addrLsMultiple (fetched p) ins).1 = (addrLsMultiple p ins).1 := by
  unfold addrLsMultiple
  rw [armReadRegister_fetched p hb]
  split_ifs <;> rfl

theorem armStep_store {h : Host} {p : ArmCore} {st ld : Word} (hm : MatchingPair st ld)
    (hx : Executes h p st) : armStep h p = .ok (0, stmState h (fetched p) st) := by
  rw [armStep_of_executes hx, dispatch_eq, insClass_of_bits hm.st_class]
  show raise h (armLoadStoreMultiple h (fetched p) st) = _
  rw [armLoadStoreMultiple_store h _ hm.st_L hm.st_B, raise_zero]
  rfl

theorem armStep_load {h : Host} {q : ArmCore} {st ld : Word} (hm : MatchingPair st ld)
    (hx : Executes h q ld) : armStep h q = .ok (0, ldmState h (fetched q) ld) := by
  have hL : bitL ld ≠ 0 := by rw [hm.ld_L]; decide
  rw [armStep_of_executes hx, dispatch_eq, insClass_of_bits hm.ld_class]
  show raise h (armLoadStoreMultiple h (fetched q) ld) = _
  rw [armLoadStoreMultiple_load h _ hL hm.ld_B, raise_zero]

theorem KeepsStack.fetched {p q : ArmCore} {Rn : Fin 16} {start : Word} {n : Nat}
    (hk : KeepsStack p q Rn start n) (hRn : Rn ≠ 15) :
    KeepsStack p (fetched q) Rn start n where
  mode := (fetched_mode q).trans hk.mode
  base := (armReadRegister_fetched q hRn).trans hk.base
  size := hk.size
  stored := hk.stored

/-- Push and pop: after a store-multiple, from any state that still has the
mode, the base and the stored words, the matching load-multiple puts back
every register of the list and the base.  Bytes outside the stored words
are not written by the store, and none is by the load. -/
theorem push_pop_restores (h : Host) (p : ArmCore) (st ld : Word) (hm : MatchingPair st ld)
    (hx : Executes h p st)
    (hr : p.mem.InRange (addrLsMultiple p st).1 (4 * numberOfSetBitsIn st)) :
    ∃ p₁, armStep h p = .ok (0, p₁) ∧ p₁.mem.size = p.mem.size ∧
      (∀ b : Word, (b.toNat < (addrLsMultiple p st).1.toNat ∨
          (addrLsMultiple p st).1.toNat + 4 * numberOfSetBitsIn st ≤ b.toNat) →
        p₁.mem.byteAt b = p.mem.byteAt b) ∧
      ∀ q, KeepsStack p₁ q (bitsRn st) (addrLsMultiple p st).1 (4 * numberOfSetBitsIn st) →
        Executes h q ld →
        ∃ q', armStep h q = .ok (0, q') ∧ q'.mem = q.mem ∧
          ∀ i : Fin 16, getBit st i = 1 ∨ i = bitsRn st →
            armReadRegister q' i = armReadRegister p i := by
  rw [numberOfSetBitsIn_eq, ← addrLsMultiple_fetched p hm.base_ne_pc] at hr ⊢
  refine ⟨stmState h (fetched p) st, armStep_store hm hx, storeWords_size .., ?_, ?_⟩
  · intro b hb
    exact stmState_byteAt_of_outside h (p := fetched p) hr hb
  · intro q hk hxq
    have hkf := hk.fetched hm.base_ne_pc
    refine ⟨ldmState h (fetched q) ld, armStep_load hm hxq, ldmState_mem hm, ?_⟩
    intro i hi
    have hne : i ≠ 15 := by
      rcases hi with hi | rfl
      · rintro rfl
        exact hm.pc_not_mem_list (mem_registerList.mpr hi)
      · exact hm.base_ne_pc
    rw [← mem_registerList] at hi
    rw [← armReadRegister_fetched p hne]
    exact ldmState_restores (p := fetched p) hm hr hkf hi

/-- `STMDB sp!, {r0-r2, lr}`, then `LDMIA sp!, {r0-r2, lr}`. -/
def pushing : ArmCore :=
  writeRegisters (booted 64 [0xE92D4007, 0xE8BD4007]) [(0, 10), (1, 11), (2, 12), (14, 13)]

theorem push_pop_restores_pushing :
    ∃ p₁, armStep x86Host pushing = .ok (0, p₁) ∧
      ∃ q', armStep x86Host (writeRegisters p₁ [(0, 7), (1, 7), (2, 7), (14, 7)]) = .ok (0, q') ∧
        ∀ i : Fin 16, getBit 0xE92D4007 i = 1 ∨ i = bitsRn 0xE92D4007 →
          armReadRegister q' i = armReadRegister pushing i := by
  have hx : Executes x86Host pushing 0xE92D4007 := ⟨by decide +kernel, by decide +kernel⟩
  have hm : MatchingPair 0xE92D4007 0xE8BD4007 := by constructor <;> decide
  obtain ⟨p₁, hs, -, -, hload⟩ :=
    push_pop_restores x86Host pushing 0xE92D4007 0xE8BD4007 hm hx (by decide +kernel)
  have hclobber : ∀ e ∈ [((0 : Fin 16), (7 : Word)), (1, 7), (2, 7), (14, 7)],
      e.1 ≠ bitsRn 0xE92D4007 := by
    intro e he
    simp only [List.mem_cons, List.not_mem_nil, or_false] at he
    rcases he with rfl | rfl | rfl | rfl <;> decide
  refine ⟨p₁, hs, ?_⟩
  obtain rfl : p₁ = stmState x86Host (fetched pushing) 0xE92D4007 :=
    congrArg Prod.snd (Except.ok.inj (hs.symm.trans (armStep_store hm hx)))
  obtain ⟨q', hq, -, hrest⟩ :=
    hload (writeRegisters _ [(0, 7), (1, 7), (2, 7), (14, 7)])
      (keepsStack_writeRegisters _ _ _ (by decide) hclobber)
      ⟨by decide +kernel, by decide +kernel⟩
  exact ⟨q', hq, hrest⟩

end Armator
