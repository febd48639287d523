/-
Block transfers, read as lists.

The loops of `instruction_ldm1` and `instruction_stm1` test sixteen bits
and move an address; what they do is said here over the list of selected
registers.  A store-multiple writes a list of words at consecutive
addresses (`storeWords`), a load-multiple writes a list of registers from
them (`loadEntries`).  On the way the assertion at the end of either loop
is discharged: both functions always return.
-/
import Armator.Step
import Armator.ByteMap

namespace Armator

open ByteOrder Replay

/-! ## The register list -/

/-- Bit `i` of the list is set. -/
def selects (ins : Word) (i : Fin 16) : Bool := decide (getBit ins i = 1)

/-- The selected registers, lowest first. -/
def registerList (ins : Word) : List (Fin 16) := (List.finRange 16).filter (selects ins)

/-- The selected registers below r15. -/
def loadedList (ins : Word) : List (Fin 16) :=
  ((List.finRange 15).map Fin.castSucc).filter (selects ins)

theorem registerList_eq (ins : Word) :
    registerList ins = loadedList ins ++ if getBit ins 15 = 1 then [15] else [] := by
  rw [registerList, List.finRange_succ_last, List.filter_append, loadedList,
    List.filter_cons, List.filter_nil]
  by_cases h : getBit ins 15 = 1
  · rw [if_pos h, if_pos (show selects ins (Fin.last 15) = true from decide_eq_true h)]
    rfl
  · rw [if_neg h, if_neg (show ¬selects ins (Fin.last 15) = true from
      fun hc => h (of_decide_eq_true hc))]

theorem mem_registerList {ins : Word} {i : Fin 16} :
    i ∈ registerList ins ↔ getBit ins i = 1 := by
  simp [registerList, selects]

theorem registerList_nodup (ins : Word) : (registerList ins).Nodup :=
  (List.nodup_finRange 16).filter _

theorem foldl_add_getBit (ins : Word) (l : List Nat) (n : Nat) :
    l.foldl (fun res i => res + (getBit ins i).toNat) n
      = n + (l.filter fun i => decide (getBit ins i = 1)).length := by
  induction l generalizing n with
  | nil => rfl
  | cons i l ih =>
      rw [List.foldl_cons, ih, List.filter_cons]
      by_cases h : getBit ins i = 1
      · simp only [h, decide_true, if_true, List.length_cons]
        rw [show (1 : Word).toNat = 1 from rfl]
        omega
      · have h0 : (getBit ins i).toNat = 0 := by
          rw [getBit_eq_one_iff] at h
          rw [toNat_getBit]
          omega
        simp only [h, decide_false, Bool.false_eq_true, if_false, h0, Nat.add_zero]

theorem numberOfSetBitsIn_eq (ins : Word) :
    numberOfSetBitsIn ins = (registerList ins).length := by
  have hr : List.range 16 = (List.finRange 16).map Fin.val := rfl
  rw [numberOfSetBitsIn, foldl_add_getBit, hr, List.filter_map, List.length_map, Nat.zero_add]
  rfl

/-- An iteration that skips unselected registers runs over the selected. -/
theorem foldl_skip {σ : Type} (ins : Word) (turn : σ → Fin 16 → σ) (l : List (Fin 16)) (s : σ) :
    l.foldl (fun s (i : Fin 16) => if getBit ins i = 1 then turn s i else s) s
      = (l.filter (selects ins)).foldl turn s := by
  rw [List.foldl_filter]
  simp only [selects, decide_eq_true_eq]

/-! ## Addresses -/

/-- The words of the transfer end where the assertion says. -/
theorem addrLsMultiple_end (p : ArmCore) (ins : Word) :
    (addrLsMultiple p ins).2.1
      = (addrLsMultiple p ins).1 + BitVec.ofNat 32 (4 * numberOfSetBitsIn ins) - 4 := by
  unfold addrLsMultiple
  split_ifs <;> simp only <;> ring

/-- The addressing writes no register but the base, and no memory. -/
theorem addrLsMultiple_state (p : ArmCore) (ins : Word) :
    ∃ value, (addrLsMultiple p ins).2.2
      = if bitW ins ≠ 0 then armWriteRegister p (bitsRn ins) value else p := by
  by_cases hW : bitW ins = 0
  · refine ⟨0, ?_⟩
    unfold addrLsMultiple
    simp only [hW, ne_eq, not_true_eq_false, if_false]
    split_ifs <;> rfl
  · unfold addrLsMultiple
    simp only [hW, ne_eq, not_false_eq_true, if_true]
    split_ifs <;> exact ⟨_, rfl⟩

@[simp] theorem addrLsMultiple_mem (p : ArmCore) (ins : Word) :
    (addrLsMultiple p ins).2.2.mem = p.mem := by
  obtain ⟨value, hv⟩ := addrLsMultiple_state p ins
  rw [hv]
  split <;> rfl

/-- Address `k + 1` words on is one word on, then `k`. -/
theorem add_word_succ (a : Word) (k : Nat) :
    a + 4 + BitVec.ofNat 32 (4 * k) = a + BitVec.ofNat 32 (4 * (k + 1)) := by
  rw [BitVec.add_assoc, Nat.mul_succ, Nat.add_comm (4 * k) 4, BitVec.ofNat_add]
  rfl

/-! ## Storing -/

/-- Words written at consecutive addresses. -/
def storeWords (h : Host) : Memory → Word → List Word → Memory
  | mem, _, [] => mem
  | mem, a, v :: vs =>
      storeWords h (memoryWriteWord h.isBigEndian mem a v h.endianess).2 (a + 4) vs

@[simp] theorem storeWords_size (h : Host) (mem : Memory) (a : Word) (vs : List Word) :
    (storeWords h mem a vs).size = mem.size := by
  induction vs generalizing mem a with
  | nil => rfl
  | cons v vs ih => exact (ih _ _).trans (memoryWriteBytes_size (n := 4) ..)

theorem Memory.InRange.of_size {mem mem' : Memory} {a : Word} {n : Nat}
    (hs : mem'.size = mem.size) (h : mem.InRange a n) : mem'.InRange a n := by
  rw [Memory.InRange, hs]
  exact h

/-- A range of words splits into its first word and the rest. -/
theorem Memory.InRange.word_cons {mem : Memory} {a : Word} {n : Nat}
    (h : mem.InRange a (4 * (n + 1))) : mem.InRange a 4 ∧ mem.InRange (a + 4) (4 * n) ∧
      (n ≠ 0 → (a + 4).toNat = a.toNat + 4) := by
  have hs := mem.size.isLt
  unfold Memory.InRange at h ⊢
  refine ⟨by omega, ?_, fun hn => ?_⟩
  · by_cases hn : n = 0
    · subst hn
      have hle : (a + 4).toNat ≤ a.toNat + 4 := by
        rw [BitVec.toNat_add]
        exact Nat.mod_le _ _
      omega
    · have : (a + 4).toNat = a.toNat + 4 := by
        rw [BitVec.toNat_add, show (4 : Word).toNat = 4 from rfl, Nat.mod_eq_of_lt (by omega)]
      omega
  · rw [BitVec.toNat_add, show (4 : Word).toNat = 4 from rfl, Nat.mod_eq_of_lt (by omega)]

theorem memoryWriteWord_byteAt {mem : Memory} {a : Word} (bigEndian : Bool) (v : Word)
    (be : Byte) (h : mem.InRange a 4) :
    (memoryWriteWord bigEndian mem a v be).2.byteAt
      = replay mem.byteAt (writeEntries (n := 4) a v be) :=
  (memoryWriteBytes_eq (n := 4) (by decide) bigEndian v be h).2.2

/-- Bytes outside the stored words stay. -/
theorem storeWords_byteAt_of_outside (h : Host) {mem : Memory} {a : Word} {vs : List Word}
    (hr : mem.InRange a (4 * vs.length)) {b : Word}
    (hb : b.toNat < a.toNat ∨ a.toNat + 4 * vs.length ≤ b.toNat) :
    (storeWords h mem a vs).byteAt b = mem.byteAt b := by
  induction vs generalizing mem a with
  | nil => rfl
  | cons v vs ih =>
      rw [List.length_cons] at hr hb
      obtain ⟨hhead, htail, hnext⟩ := hr.word_cons
      have hsize : (memoryWriteWord h.isBigEndian mem a v h.endianess).2.size = mem.size :=
        memoryWriteBytes_size (n := 4) ..
      rw [storeWords]
      have hb' : b.toNat < (a + 4).toNat ∨ (a + 4).toNat + 4 * vs.length ≤ b.toNat := by
        by_cases hn : vs.length = 0
        · omega
        · have := hnext hn
          omega
      rw [ih (htail.of_size hsize) hb', memoryWriteWord_byteAt _ _ _ hhead,
        replay_writeEntries_of_outside (n := 4) v h.endianess hhead _ (by omega)]

/-- The bytes of a word depend on the memory only there. -/
theorem Memory.wordAt_congr {mem mem' : Memory} {a : Word} (be : Byte)
    (hr : mem.InRange a 4)
    (hb : ∀ b : Word, a.toNat ≤ b.toNat → b.toNat < a.toNat + 4 → mem'.byteAt b = mem.byteAt b) :
    mem'.wordAt be a = mem.wordAt be a := by
  have hbytes : mem'.bytesAt a 4 = mem.bytesAt a 4 := by
    funext i
    have ht := hr.toNat_add i.isLt
    have hi := i.isLt
    exact hb _ (by omega) (by omega)
  rw [Memory.wordAt, Memory.wordAt, hbytes]

theorem wordAt_memoryWriteWord {mem : Memory} {a : Word} (bigEndian : Bool) (v : Word)
    (be : Byte) (h : mem.InRange a 4) :
    (memoryWriteWord bigEndian mem a v be).2.wordAt be a = v := by
  rw [Memory.wordAt, memoryWriteWord, bytesAt_memoryWriteBytes (by decide) bigEndian v be h,
    orient_orient, Bool.xor_self, orient_false]
  exact ofBytes_toBytes (n := 4) v

/-- One turn of the store loop on a selected register. -/
def storeTurn (h : Host) (s : ArmCore × Word) (i : Fin 16) : ArmCore × Word :=
  ((armWriteWord h s.1 s.2 (armReadRegister s.1 i)).2, s.2 + 4)

/-- The store loop writes the values of the registers it visits. -/
theorem foldl_storeTurn (h : Host) (l : List (Fin 16)) (p : ArmCore) (a : Word) :
    l.foldl (storeTurn h) (p, a)
      = ({ p with mem := storeWords h p.mem a (l.map (armReadRegister p)) },
          a + BitVec.ofNat 32 (4 * l.length)) := by
  induction l generalizing p a with
  | nil => simp [storeWords]
  | cons i l ih =>
      rw [List.foldl_cons, storeTurn, ih, List.length_cons, add_word_succ]
      rfl

theorem foldl_stmTurn (h : Host) (ins : Word) (s : ArmCore × Word) :
    (List.finRange 16).foldl (stmTurn h ins) s = (registerList ins).foldl (storeTurn h) s := by
  rw [registerList, ← foldl_skip]
  rfl

theorem instructionStm1_eq (h : Host) (p : ArmCore) (ins : Word) :
    instructionStm1 h p ins = .ok (0,
      { (addrLsMultiple p ins).2.2 with
        mem := storeWords h p.mem (addrLsMultiple p ins).1
          ((registerList ins).map (armReadRegister (addrLsMultiple p ins).2.2)) }) := by
  have hend := addrLsMultiple_end p ins
  have hmem := addrLsMultiple_mem p ins
  unfold instructionStm1
  rcases hA : addrLsMultiple p ins with ⟨start, last, p₁⟩
  rw [hA] at hend hmem
  simp only at hend hmem ⊢
  rw [foldl_stmTurn, foldl_storeTurn, ← numberOfSetBitsIn_eq, if_pos hend, hmem]

/-! ## Loading -/

/-- The value of `word` after `n` reads at `a`, `a + 4`, …, starting from
`w`. -/
def readThrough (h : Host) (p : ArmCore) (a w : Word) : Nat → Word
  | 0 => w
  | n + 1 => (armReadWord h p (a + BitVec.ofNat 32 (4 * n)) (readThrough h p a w n)).2

/-- The register writes of the load loop. -/
def loadEntries (h : Host) (p : ArmCore) : Word → Word → List (Fin 16) → List (Fin 16 × Word)
  | _, _, [] => []
  | a, w, i :: l =>
      (i, (armReadWord h p a w).2) :: loadEntries h p (a + 4) (armReadWord h p a w).2 l

/-- Registers written one after the other. -/
def writeRegisters (p : ArmCore) (entries : List (Fin 16 × Word)) : ArmCore :=
  entries.foldl (fun p e => armWriteRegister p e.1 e.2) p

/-- One turn of the load loop on a selected register. -/
def loadTurn (h : Host) (s : ArmCore × Word × Word) (i : Fin 16) : ArmCore × Word × Word :=
  (armWriteRegister s.1 i (armReadWord h s.1 s.2.1 s.2.2).2, s.2.1 + 4,
    (armReadWord h s.1 s.2.1 s.2.2).2)

theorem readThrough_cons (h : Host) (p : ArmCore) (a w : Word) (n : Nat) :
    readThrough h p (a + 4) (armReadWord h p a w).2 n = readThrough h p a w (n + 1) := by
  induction n with
  | zero => simp [readThrough]
  | succ n ih => rw [readThrough, ih, add_word_succ, ← readThrough]

theorem readThrough_congr (h : Host) {p q : ArmCore} (hm : q.mem = p.mem) (a w : Word)
    (n : Nat) : readThrough h q a w n = readThrough h p a w n := by
  induction n with
  | zero => rfl
  | succ n ih =>
      rw [readThrough, readThrough, ih]
      simp only [armReadWord, hm]

theorem loadEntries_congr (h : Host) {p q : ArmCore} (hm : q.mem = p.mem) (a w : Word)
    (l : List (Fin 16)) : loadEntries h q a w l = loadEntries h p a w l := by
  induction l generalizing a w with
  | nil => rfl
  | cons i l ih => simp only [loadEntries, armReadWord, hm, ih]

/-- The load loop reads the words in order and writes the registers. -/
theorem foldl_loadTurn (h : Host) (l : List (Fin 16)) (p : ArmCore) (a w : Word) :
    l.foldl (loadTurn h) (p, a, w)
      = (writeRegisters p (loadEntries h p a w l), a + BitVec.ofNat 32 (4 * l.length),
          readThrough h p a w l.length) := by
  induction l generalizing p a w with
  | nil => simp [loadEntries, writeRegisters, readThrough]
  | cons i l ih =>
      rw [List.foldl_cons, loadTurn, ih, List.length_cons, add_word_succ,
        readThrough_congr h (armWriteRegister_mem ..), readThrough_cons,
        loadEntries_congr h (armWriteRegister_mem ..)]
      rfl

section WriteRegisters

variable (p : ArmCore) (entries : List (Fin 16 × Word))

theorem writeRegisters_cons (e : Fin 16 × Word) :
    writeRegisters p (e :: entries) = writeRegisters (armWriteRegister p e.1 e.2) entries := rfl

@[simp] theorem writeRegisters_mem : (writeRegisters p entries).mem = p.mem := by
  induction entries generalizing p with
  | nil => rfl
  | cons e entries ih => rw [writeRegisters_cons, ih, armWriteRegister_mem]

@[simp] theorem writeRegisters_mode :
    registersGetMode (writeRegisters p entries).reg = registersGetMode p.reg := by
  induction entries generalizing p with
  | nil => rfl
  | cons e entries ih => rw [writeRegisters_cons, ih, armWriteRegister_mode]

end WriteRegisters

/-- The registers the current mode sees. -/
def regView (p : ArmCore) (n : Fin 16) : Word := p.reg (slot n (registersGetMode p.reg))

theorem regView_armWriteRegister (p : ArmCore) (n : Fin 16) (value : Word) :
    regView (armWriteRegister p n value) = Function.update (regView p) n value := by
  funext k
  rw [regView, armWriteRegister_mode, armWriteRegister_reg]
  exact congrFun (Function.update_comp_eq_of_injective p.reg
    (slot_injective (registersGetMode p.reg)) n value) k

theorem regView_writeRegisters (p : ArmCore) (entries : List (Fin 16 × Word)) :
    regView (writeRegisters p entries) = replay (regView p) entries := by
  induction entries generalizing p with
  | nil => rfl
  | cons e entries ih => rw [writeRegisters_cons, ih, regView_armWriteRegister, replay_cons]

theorem armReadRegister_eq_regView {p : ArmCore} {n : Fin 16} (h : n ≠ 15) :
    armReadRegister p n = regView p n :=
  armReadRegister_of_ne_pc h

/-- The word a load-multiple reads for r15. -/
def pcWord (h : Host) (p : ArmCore) (ins : Word) : Word :=
  readThrough h p (addrLsMultiple p ins).1 (h.garbage .word) (numberOfSetBitsIn ins)

/-- The state a load-multiple has reached when its loop ends. -/
def ldmRegisters (h : Host) (p : ArmCore) (ins : Word) : ArmCore :=
  writeRegisters (addrLsMultiple p ins).2.2
    (loadEntries h p (addrLsMultiple p ins).1 (h.garbage .word) (loadedList ins))

/-- The state a load-multiple leaves. -/
def ldmState (h : Host) (p : ArmCore) (ins : Word) : ArmCore :=
  let p₂ := ldmRegisters h p ins
  if getBit ins 15 = 1 then
    let p₃ := armWriteRegister p₂ 15 (pcWord h p ins &&& 0xFFFFFFFE)
    if getBit (pcWord h p ins) 0 = 0 then armWriteCpsr p₃ (clrBit (armReadCpsr p₃) 5)
    else armWriteCpsr p₃ (setBit (armReadSpsr p₃) 5)
  else p₂

theorem ldmLoop_eq (h : Host) (p : ArmCore) (ins a w : Word) :
    ldmLoop h p ins a w
      = (writeRegisters p (loadEntries h p a w (loadedList ins)),
          a + BitVec.ofNat 32 (4 * (loadedList ins).length),
          readThrough h p a w (loadedList ins).length) := by
  rw [← foldl_loadTurn, loadedList, ← foldl_skip]
  rfl

theorem instructionLdm1_eq (h : Host) (p : ArmCore) (ins : Word) :
    instructionLdm1 h p ins = .ok (0, ldmState h p ins) := by
  have hend := addrLsMultiple_end p ins
  have hmem := addrLsMultiple_mem p ins
  have hlen : numberOfSetBitsIn ins
      = (loadedList ins).length + if getBit ins 15 = 1 then 1 else 0 := by
    rw [numberOfSetBitsIn_eq, registerList_eq, List.length_append]
    split <;> rfl
  unfold instructionLdm1 ldmState ldmRegisters pcWord
  rcases hA : addrLsMultiple p ins with ⟨start, last, p₁⟩
  rw [hA] at hend hmem
  simp only at hend hmem ⊢
  rw [ldmLoop_eq, loadEntries_congr h hmem, readThrough_congr h hmem]
  by_cases h15 : getBit ins 15 = 1
  · rw [if_pos h15] at hlen
    have hread : (armReadWord h
        (writeRegisters p₁ (loadEntries h p start (h.garbage .word) (loadedList ins)))
        (start + BitVec.ofNat 32 (4 * (loadedList ins).length))
        (readThrough h p start (h.garbage .word) (loadedList ins).length)).2
          = readThrough h p start (h.garbage .word) (numberOfSetBitsIn ins) := by
      rw [hlen, readThrough]
      simp only [armReadWord, writeRegisters_mem, hmem]
    have haddr : start + BitVec.ofNat 32 (4 * (loadedList ins).length) + 4 - 4
        = start + BitVec.ofNat 32 (4 * numberOfSetBitsIn ins) - 4 := by
      rw [hlen, Nat.mul_add, BitVec.ofNat_add, ← BitVec.add_assoc]
      rfl
    simp only [if_pos h15, hread]
    split_ifs with ht he he
    · rfl
    · exact absurd (hend.trans haddr.symm) he
    · rfl
    · exact absurd (hend.trans haddr.symm) he
  · rw [if_neg h15, Nat.add_zero] at hlen
    simp only [if_neg h15]
    rw [← hlen, if_pos hend]

theorem armLoadStoreMultiple_load (h : Host) (p : ArmCore) {ins : Word}
    (hL : bitL ins ≠ 0) (hB : bitB ins = 0) :
    armLoadStoreMultiple h p ins = .ok (0, ldmState h p ins) := by
  rw [armLoadStoreMultiple, if_pos ⟨hL, hB⟩, instructionLdm1_eq]
  rfl

theorem armLoadStoreMultiple_store (h : Host) (p : ArmCore) {ins : Word}
    (hL : bitL ins = 0) (hB : bitB ins = 0) :
    armLoadStoreMultiple h p ins = .ok (0,
      { (addrLsMultiple p ins).2.2 with
        mem := storeWords h p.mem (addrLsMultiple p ins).1
          ((registerList ins).map (armReadRegister (addrLsMultiple p ins).2.2)) }) := by
  rw [armLoadStoreMultiple, if_neg (fun hc => hc.1 hL), if_pos ⟨hL, hB⟩, instructionStm1_eq]
  rfl

/-! ## The assertions -/

/-- `address` at the end of `instruction_ldm1`. -/
def ldmAddress (h : Host) (p : ArmCore) (ins : Word) : Word :=
  let (start, _, p) := addrLsMultiple p ins
  let (_, address, _) := ldmLoop h p ins start (h.garbage .word)
  if getBit ins 15 = 1 then address + 4 else address

/-- `address` at the end of `instruction_stm1`. -/
def stmAddress (h : Host) (p : ArmCore) (ins : Word) : Word :=
  let (start, _, p) := addrLsMultiple p ins
  ((List.finRange 16).foldl (stmTurn h ins) (p, start)).2

theorem ldmAddress_eq (h : Host) (p : ArmCore) (ins : Word) :
    ldmAddress h p ins
      = (addrLsMultiple p ins).1 + BitVec.ofNat 32 (4 * numberOfSetBitsIn ins) := by
  unfold ldmAddress
  rcases addrLsMultiple p ins with ⟨start, last, p₁⟩
  simp only [ldmLoop_eq, numberOfSetBitsIn_eq, registerList_eq, List.length_append]
  by_cases h15 : getBit ins 15 = 1
  · rw [if_pos h15, if_pos h15, List.length_singleton, Nat.mul_add, BitVec.ofNat_add,
      ← BitVec.add_assoc]
    rfl
  · rw [if_neg h15, if_neg h15, List.length_nil, Nat.add_zero]

theorem stmAddress_eq (h : Host) (p : ArmCore) (ins : Word) :
    stmAddress h p ins
      = (addrLsMultiple p ins).1 + BitVec.ofNat 32 (4 * numberOfSetBitsIn ins) := by
  unfold stmAddress
  rcases addrLsMultiple p ins with ⟨start, last, p₁⟩
  simp only [foldl_stmTurn, foldl_storeTurn, numberOfSetBitsIn_eq]

/-- Whatever the base, the list and the addressing mode, both assertions
hold: a block transfer always returns. -/
theorem block_transfer_assertions (h : Host) (p : ArmCore) {ins : Word}
    (hclass : insClass ins = .loadStoreMultiple) (hB : bitB ins = 0) :
    (addrLsMultiple p ins).2.1 = ldmAddress h p ins - 4 ∧
    (addrLsMultiple p ins).2.1 = stmAddress h p ins - 4 ∧
    ∃ p', dispatch h p ins = .ok (0, p') := by
  have hend := addrLsMultiple_end p ins
  refine ⟨by rw [hend, ldmAddress_eq], by rw [hend, stmAddress_eq], ?_⟩
  rw [dispatch_eq, hclass, handler]
  by_cases hL : bitL ins = 0
  · exact ⟨_, armLoadStoreMultiple_store h p hL hB⟩
  · exact ⟨_, armLoadStoreMultiple_load h p hL hB⟩

/-- `LDMDB pc!, {}` -/
theorem block_transfer_assertions_empty :
    (addrLsMultiple (armCreate x86Host registersCreate (memoryCreate 16 fun _ => 0))
        0xE93F0000).2.1
      = ldmAddress x86Host (armCreate x86Host registersCreate (memoryCreate 16 fun _ => 0))
          0xE93F0000 - 4 ∧
    (addrLsMultiple (armCreate x86Host registersCreate (memoryCreate 16 fun _ => 0))
        0xE93F0000).2.1
      = stmAddress x86Host (armCreate x86Host registersCreate (memoryCreate 16 fun _ => 0))
          0xE93F0000 - 4 ∧
    ∃ p', dispatch x86Host (armCreate x86Host registersCreate (memoryCreate 16 fun _ => 0))
      0xE93F0000 = .ok (0, p') :=
  block_transfer_assertions x86Host _ (by decide) (by decide)

/-- A fresh processor with a program at address 0. -/
def booted (size : Word) (program : List Word) : ArmCore :=
  let p := armCreate x86Host registersCreate (memoryCreate size fun _ => 0)
  { p with mem := storeWords x86Host p.mem 0 program }

end Armator
