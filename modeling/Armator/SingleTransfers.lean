/-
A block transfer is a run of single transfers.

One LDR or STR for each register of the list, lowest first, each at the
next higher word, and the base moved at the end: `block_eq_singles` says
that a load-multiple or store-multiple leaves the state of that run.  The
code moves the base at the beginning, and walks an address instead of
adding offsets to the base; the two agree as long as no transfer of the
run reads or writes a base that moves.
-/
import Armator.Mode2
import Armator.BlockTransfer

namespace Armator

/-! ## Where a block lies -/

/-- The lowest address of a block of `n` words: above the base when U is set
and below it when U is clear, with the word at the base itself only when P
is clear. -/
def blockStart (ins base : Word) (n : Nat) : Word :=
  if bitU ins ≠ 0 then
    if bitP ins ≠ 0 then base + 4 else base
  else
    if bitP ins ≠ 0 then base - BitVec.ofNat 32 (4 * n) else base - BitVec.ofNat 32 (4 * n) + 4

/-- The base moved over a block of `n` words, when W is set. -/
def baseMoved (p : ArmCore) (ins base : Word) (n : Nat) : ArmCore :=
  if bitW ins ≠ 0 then
    armWriteRegister p (bitsRn ins) (offsetBase ins base (BitVec.ofNat 32 (4 * n)))
  else p

theorem addrLsMultiple_start (p : ArmCore) (ins : Word) :
    (addrLsMultiple p ins).1
      = blockStart ins (armReadRegister p (bitsRn ins)) (registerList ins).length := by
  rw [← numberOfSetBitsIn_eq]
  unfold addrLsMultiple blockStart bitU bitP
  by_cases hP : getBit ins 24 = 0 <;> by_cases hU : getBit ins 23 = 0 <;>
    simp only [hP, hU, ne_eq, not_true, not_false_iff, and_self, and_true, and_false, if_true,
      if_false]

theorem addrLsMultiple_base (p : ArmCore) (ins : Word) :
    (addrLsMultiple p ins).2.2
      = baseMoved p ins (armReadRegister p (bitsRn ins)) (registerList ins).length := by
  rw [← numberOfSetBitsIn_eq]
  unfold addrLsMultiple baseMoved offsetBase bitU
  by_cases hP : getBit ins 24 = 0 <;> by_cases hU : getBit ins 23 = 0 <;>
    simp only [hP, hU, ne_eq, not_true, not_false_iff, and_self, and_true, and_false, if_true,
      if_false]

/-! ## Single transfers -/

/-- `word` is an LDR or STR, as `ins` loads or stores, of a word at the base
of `ins` moved by an immediate offset, without writeback. -/
structure IsSingle (ins word : Word) : Prop where
  form : getBits word 27 25 = 0b010
  P : bitP word = 1
  B : bitB word = 0
  W : bitW word = 0
  L : bitL word = bitL ins
  Rn : bitsRn word = bitsRn ins

/-- Such a word, for a register and an offset in the direction of `ins`. -/
def singleWord (ins : Word) (Rd : Fin 16) (offset : Nat) : Word :=
  BitVec.ofNat 32 (0xE5000000 + (bitU ins).toNat * 2 ^ 23 + (bitL ins).toNat * 2 ^ 20 +
    (bitsRn ins).val * 2 ^ 16 + Rd.val * 2 ^ 12 + offset)

theorem bitU_le_one (ins : Word) : (bitU ins).toNat ≤ 1 := by
  rw [bitU, toNat_getBit]
  omega

theorem bitL_le_one (ins : Word) : (bitL ins).toNat ≤ 1 := by
  rw [bitL, toNat_getBit]
  omega

section

variable (ins : Word) (Rd : Fin 16) {offset : Nat}

theorem toNat_singleWord (ho : offset < 4096) :
    (singleWord ins Rd offset).toNat = 0xE5000000 + (bitU ins).toNat * 2 ^ 23 +
      (bitL ins).toNat * 2 ^ 20 + (bitsRn ins).val * 2 ^ 16 + Rd.val * 2 ^ 12 + offset := by
  have hU := bitU_le_one ins
  have hL := bitL_le_one ins
  rw [singleWord, BitVec.toNat_ofNat, Nat.mod_eq_of_lt (by omega)]

/-- A field of such a word, by its number. -/
theorem regNum_eq {x : Word} {h l : Nat} {n : Fin 16}
    (hx : x.toNat / 2 ^ l % 2 ^ (h - l + 1) % 16 = n.val) : regNum (getBits x h l) = n := by
  refine Fin.ext ?_
  show (getBits x h l).toNat % 16 = n.val
  rw [toNat_getBits, hx]

theorem singleWord_isSingle (ho : offset < 4096) : IsSingle ins (singleWord ins Rd offset) := by
  have hw := toNat_singleWord ins Rd ho
  have hU := bitU_le_one ins
  have hL := bitL_le_one ins
  refine ⟨?_, ?_, ?_, ?_, ?_, ?_⟩
  · refine (getBits_eq_iff ..).mpr ?_
    show _ / 2 ^ 25 % 2 ^ 3 = 2
    omega
  · refine (getBit_eq_one_iff ..).mpr ?_
    omega
  · refine (getBit_eq_zero_iff ..).mpr ?_
    omega
  · refine (getBit_eq_zero_iff ..).mpr ?_
    omega
  · refine BitVec.eq_of_toNat_eq ?_
    show (getBit _ 20).toNat = _
    rw [toNat_getBit]
    omega
  · refine regNum_eq ?_
    omega

theorem rdNum_singleWord (ho : offset < 4096) : rdNum (singleWord ins Rd offset) = Rd := by
  have hw := toNat_singleWord ins Rd ho
  have hU := bitU_le_one ins
  have hL := bitL_le_one ins
  refine regNum_eq ?_
  omega

theorem offsetBase_singleWord (ho : offset < 4096) (base : Word) :
    offsetBase (singleWord ins Rd offset) base (getBits (singleWord ins Rd offset) 11 0)
      = offsetBase ins base (BitVec.ofNat 32 offset) := by
  have hw := toNat_singleWord ins Rd ho
  have hU := bitU_le_one ins
  have hL := bitL_le_one ins
  have hbit : bitU (singleWord ins Rd offset) = bitU ins := by
    refine BitVec.eq_of_toNat_eq ?_
    show (getBit _ 23).toNat = _
    rw [toNat_getBit]
    omega
  have hfield : getBits (singleWord ins Rd offset) 11 0 = BitVec.ofNat 32 offset := by
    refine BitVec.eq_of_toNat_eq ?_
    rw [toNat_getBits, BitVec.toNat_ofNat]
    omega
  rw [offsetBase, offsetBase, hbit, hfield]

end

section

variable {h : Host} {s : ArmCore} {ins word : Word} (hi : IsSingle ins word)

include hi

theorem IsSingle.bitP_ne_zero : bitP word ≠ 0 := (getBit_ne_zero_iff ..).mpr hi.P

theorem IsSingle.mode2Address_eq :
    mode2Address s word
      = offsetBase word (armReadRegister s (bitsRn ins)) (getBits word 11 0) := by
  have h25 : getBit word 25 = 0 := getBit_of_field hi.form
  rw [mode2Address, mode2Offset, if_pos h25, indexed, if_pos hi.bitP_ne_zero, hi.Rn]

/-- The word does its transfer where the base and its offset say. -/
theorem IsSingle.dispatch_eq (hin : s.mem.InRange (mode2Address s word) 4) :
    dispatch h s word = .ok (loadStoreMode2 h s word (mode2Address s word) (rdNum word)) := by
  have hb : bitP word ≠ bitW word := by
    rw [hi.W]
    exact hi.bitP_ne_zero
  have h26 : getBit word 26 = 1 := getBit_of_field hi.form
  have hstate : mode2State s word = s := if_neg hb
  rw [Armator.dispatch_eq, insClass_loadStore_immediate hi.form, handler,
    armLoadStore_eq h s fun hu => hi.bitP_ne_zero hu.1, hstate,
    if_neg (hin.ne_neg_one (by decide)), if_pos (by rw [h26]; decide)]

end

/-! ## The run -/

/-- Words executed one after the other, up to the first that does not return
0. -/
def executeAll (h : Host) : List Word → ArmCore → Outcome
  | [], p => .ok (0, p)
  | word :: words, p =>
      match dispatch h p word with
      | .error e => .error e
      | .ok (result, p) => if result = 0 then executeAll h words p else .ok (result, p)

theorem executeAll_cons {h : Host} {p p' : ArmCore} {word : Word}
    (hd : dispatch h p word = .ok (0, p')) (words : List Word) :
    executeAll h (word :: words) p = executeAll h words p' := by
  rw [executeAll, hd]
  rfl

/-- How far the word of the `j`-th of `n` registers is from the base. -/
def singleOffset (ins : Word) (n j : Nat) : Nat :=
  if bitU ins ≠ 0 then
    if bitP ins ≠ 0 then 4 * j + 4 else 4 * j
  else
    if bitP ins ≠ 0 then 4 * (n - j) else 4 * (n - j) - 4

theorem singleOffset_lt (ins : Word) {n j : Nat} (hn : n ≤ 16) (hj : j < n) :
    singleOffset ins n j < 4096 := by
  unfold singleOffset
  split_ifs <;> omega

/-- From the lowest address on, the words lie one after the other. -/
theorem offsetBase_singleOffset (ins base : Word) {n j : Nat} (hj : j < n) :
    offsetBase ins base (BitVec.ofNat 32 (singleOffset ins n j))
      = blockStart ins base n + BitVec.ofNat 32 (4 * j) := by
  have hback :
      BitVec.ofNat 32 (4 * n) = BitVec.ofNat 32 (4 * (n - j)) + BitVec.ofNat 32 (4 * j) := by
    rw [← BitVec.ofNat_add]
    congr 1
    omega
  have hlast : BitVec.ofNat 32 (4 * (n - j)) = BitVec.ofNat 32 (4 * (n - j) - 4) + 4 := by
    rw [show (4 : Word) = BitVec.ofNat 32 4 from rfl, ← BitVec.ofNat_add]
    congr 1
    omega
  unfold offsetBase singleOffset blockStart
  split_ifs
  · rw [show BitVec.ofNat 32 (4 * j + 4) = BitVec.ofNat 32 (4 * j) + 4 from BitVec.ofNat_add _ _]
    ring
  · rfl
  · rw [hback]
    ring
  · rw [hback, hlast]
    ring

/-- The single transfers of a block: for the registers `l`, from the `j`-th
of `n` on. -/
def singlesFrom (ins : Word) (n j : Nat) (l : List (Fin 16)) : List Word :=
  (l.zipIdx j).map fun e => singleWord ins e.1 (singleOffset ins n e.2)

theorem singlesFrom_cons (ins : Word) (n j : Nat) (i : Fin 16) (l : List (Fin 16)) :
    singlesFrom ins n j (i :: l)
      = singleWord ins i (singleOffset ins n j) :: singlesFrom ins n (j + 1) l := rfl

/-- One LDR or STR for each register of the list, lowest first. -/
def singles (ins : Word) : List Word :=
  singlesFrom ins (registerList ins).length 0 (registerList ins)

theorem add_succ_word (a : Word) (j : Nat) :
    a + BitVec.ofNat 32 (4 * j) + 4 = a + BitVec.ofNat 32 (4 * (j + 1)) := by
  rw [Nat.mul_succ, BitVec.ofNat_add, BitVec.add_assoc]
  rfl

section Run

variable {h : Host} {ins base : Word} {n : Nat}

theorem mode2Address_singleWord (hn : n ≤ 16) {s : ArmCore} {j : Nat} (hj : j < n) (i : Fin 16)
    (hbase : armReadRegister s (bitsRn ins) = base) :
    mode2Address s (singleWord ins i (singleOffset ins n j))
      = blockStart ins base n + BitVec.ofNat 32 (4 * j) := by
  have ho := singleOffset_lt ins hn hj
  rw [(singleWord_isSingle ins _ ho).mode2Address_eq, offsetBase_singleWord ins _ ho, hbase,
    offsetBase_singleOffset ins base hj]

/-- The first of the remaining words. -/
theorem dispatch_singleWord (hn : n ≤ 16) {s : ArmCore} {j : Nat} (hj : j < n) (i : Fin 16)
    (hbase : armReadRegister s (bitsRn ins) = base)
    (hin : s.mem.InRange (blockStart ins base n + BitVec.ofNat 32 (4 * j)) 4) :
    dispatch h s (singleWord ins i (singleOffset ins n j))
      = .ok (loadStoreMode2 h s (singleWord ins i (singleOffset ins n j))
          (blockStart ins base n + BitVec.ofNat 32 (4 * j)) i) := by
  have ho := singleOffset_lt ins hn hj
  have haddress := mode2Address_singleWord hn hj i hbase
  rw [(singleWord_isSingle ins _ ho).dispatch_eq (by rw [haddress]; exact hin), haddress,
    rdNum_singleWord ins _ ho]

/-- Loads write the registers that the loop of `instruction_ldm1` writes. -/
theorem executeAll_loads (hL : bitL ins ≠ 0) (hn : n ≤ 16) {l : List (Fin 16)} {j : Nat}
    {s : ArmCore} (w : Word) (hbase : armReadRegister s (bitsRn ins) = base)
    (hl : bitsRn ins ∉ l) (hj : j + l.length = n)
    (hin : s.mem.InRange (blockStart ins base n + BitVec.ofNat 32 (4 * j)) (4 * l.length)) :
    executeAll h (singlesFrom ins n j l) s
      = .ok (0, writeRegisters s
          (loadEntries h s (blockStart ins base n + BitVec.ofNat 32 (4 * j)) w l)) := by
  induction l generalizing j s w with
  | nil => rfl
  | cons i l ih =>
      rw [List.length_cons] at hin hj
      rw [List.mem_cons, not_or] at hl
      obtain ⟨hhead, htail, -⟩ := hin.word_cons
      have hsingle := singleWord_isSingle ins i
        (singleOffset_lt ins (j := j) hn (by omega))
      have hd := dispatch_singleWord (h := h) hn (show j < n by omega) i hbase hhead
      have hword : mode2Width (singleWord ins i (singleOffset ins n j)) = 4 := if_pos hsingle.B
      rw [loadStoreMode2_load (by rw [hsingle.L]; exact hL) (by rw [hword]; exact hhead),
        mode2Loaded, if_pos hsingle.B] at hd
      rw [add_succ_word] at htail
      have hread : (armReadWord h s (blockStart ins base n + BitVec.ofNat 32 (4 * j)) w).2
          = s.mem.wordAt h.endianess (blockStart ins base n + BitVec.ofNat 32 (4 * j)) := by
        rw [armReadWord, memoryReadWord_eq _ _ _ _ hhead]
      generalize s.mem.wordAt h.endianess (blockStart ins base n + BitVec.ofNat 32 (4 * j)) = v
        at hd hread
      rw [singlesFrom_cons, executeAll_cons hd, loadEntries, hread,
        writeRegisters_cons, add_succ_word]
      refine (ih v ?_ hl.2 (by omega) ?_).trans ?_
      · rw [armReadRegister_write_of_ne _ _ hl.1, hbase]
      · exact htail
      · rw [loadEntries_congr h (armWriteRegister_mem ..)]

/-- Stores write the words that the loop of `instruction_stm1` writes. -/
theorem executeAll_stores (hL : bitL ins = 0) (hn : n ≤ 16) {l : List (Fin 16)} {j : Nat}
    {s : ArmCore} (hbase : armReadRegister s (bitsRn ins) = base) (hj : j + l.length = n)
    (hin : s.mem.InRange (blockStart ins base n + BitVec.ofNat 32 (4 * j)) (4 * l.length)) :
    executeAll h (singlesFrom ins n j l) s
      = .ok (0, { s with
          mem := storeWords h s.mem (blockStart ins base n + BitVec.ofNat 32 (4 * j))
            (l.map (armReadRegister s)) }) := by
  induction l generalizing j s with
  | nil => rfl
  | cons i l ih =>
      rw [List.length_cons] at hin hj
      obtain ⟨hhead, htail, -⟩ := hin.word_cons
      have hsingle := singleWord_isSingle ins i
        (singleOffset_lt ins (j := j) hn (by omega))
      have hd := dispatch_singleWord (h := h) hn (show j < n by omega) i hbase hhead
      rw [loadStoreMode2, if_pos hsingle.B, if_neg (not_not.mpr (hsingle.L.trans hL))] at hd
      rw [add_succ_word] at htail
      rw [singlesFrom_cons, executeAll_cons hd]
      refine (ih ?_ (by omega) ?_).trans ?_
      · exact hbase
      · exact htail.of_size (memoryWriteBytes_size (n := 4) ..)
      · rw [List.map_cons, storeWords, add_succ_word]
        rfl

end Run

/-! ## The two together -/

/-- The words are the single transfers of a block: one for each register of
the list, lowest first, at one word after the other. -/
structure AreSingles (ins : Word) (p : ArmCore) (words : List Word) : Prop where
  single : ∀ word ∈ words, IsSingle ins word
  registers : words.map rdNum = registerList ins
  ascending : (words.map rdNum).Pairwise (· < ·)
  addresses : words.map (mode2Address p) = (List.range (registerList ins).length).map fun j =>
    blockStart ins (armReadRegister p (bitsRn ins)) (registerList ins).length
      + BitVec.ofNat 32 (4 * j)

theorem registerList_length_le (ins : Word) : (registerList ins).length ≤ 16 :=
  (List.length_filter_le ..).trans (List.length_finRange).le

/-- The list is in ascending order. -/
theorem registerList_ascending (ins : Word) : (registerList ins).Pairwise (· < ·) :=
  (List.pairwise_lt_finRange 16).filter _

theorem singlesFrom_areSingles (ins : Word) (p : ArmCore) {n : Nat} (hn : n ≤ 16)
    {l : List (Fin 16)} {j : Nat} (hj : j + l.length = n) :
    (∀ word ∈ singlesFrom ins n j l, IsSingle ins word) ∧
    (singlesFrom ins n j l).map rdNum = l ∧
    (singlesFrom ins n j l).map (mode2Address p) = (List.range' j l.length).map fun k =>
      blockStart ins (armReadRegister p (bitsRn ins)) n + BitVec.ofNat 32 (4 * k) := by
  induction l generalizing j with
  | nil => exact ⟨fun word hw => absurd hw List.not_mem_nil, rfl, rfl⟩
  | cons i l ih =>
      rw [List.length_cons] at hj
      obtain ⟨hsingle, hregs, haddrs⟩ := ih (j := j + 1) (by omega)
      have ho := singleOffset_lt ins (j := j) hn (by omega)
      rw [singlesFrom_cons, List.map_cons, List.map_cons, hregs, haddrs, rdNum_singleWord ins _ ho,
        mode2Address_singleWord hn (by omega) i rfl, List.length_cons, List.range'_succ,
        List.map_cons]
      refine ⟨?_, rfl, rfl⟩
      intro word hw
      rcases List.mem_cons.mp hw with rfl | hw
      · exact singleWord_isSingle ins _ ho
      · exact hsingle word hw

theorem singles_areSingles (ins : Word) (p : ArmCore) : AreSingles ins p (singles ins) := by
  obtain ⟨hsingle, hregs, haddrs⟩ := singlesFrom_areSingles ins p (registerList_length_le ins)
    (l := registerList ins) (j := 0) (Nat.zero_add _)
  refine ⟨hsingle, hregs, hregs ▸ registerList_ascending ins, ?_⟩
  rw [List.range_eq_range']
  exact haddrs

theorem armWriteRegister_comm (p : ArmCore) {m n : Fin 16} (hmn : m ≠ n) (a b : Word) :
    armWriteRegister (armWriteRegister p m a) n b
      = armWriteRegister (armWriteRegister p n b) m a := by
  refine ArmCore.ext rfl ?_ rfl rfl
  rw [armWriteRegister_reg _ n, armWriteRegister_mode, armWriteRegister_reg _ m,
    armWriteRegister_reg _ m, armWriteRegister_mode, armWriteRegister_reg _ n,
    Function.update_comm fun hs => hmn (slot_inj.mp hs)]

/-- A base that no load writes can be moved before the loads or after. -/
theorem writeRegisters_baseMoved (p : ArmCore) {ins base : Word} {n : Nat}
    {entries : List (Fin 16 × Word)} (he : ∀ e ∈ entries, e.1 ≠ bitsRn ins) :
    writeRegisters (baseMoved p ins base n) entries
      = baseMoved (writeRegisters p entries) ins base n := by
  induction entries generalizing p with
  | nil => rfl
  | cons e entries ih =>
      have hcomm : armWriteRegister (baseMoved p ins base n) e.1 e.2
          = baseMoved (armWriteRegister p e.1 e.2) ins base n := by
        unfold baseMoved
        split
        · exact armWriteRegister_comm p (he e List.mem_cons_self).symm _ _
        · rfl
      rw [writeRegisters_cons, writeRegisters_cons, hcomm]
      exact ih _ fun e' he' => he e' (List.mem_cons_of_mem e he')

theorem fst_mem_of_mem_loadEntries (h : Host) (p : ArmCore) {a w : Word} {l : List (Fin 16)} :
    ∀ e ∈ loadEntries h p a w l, e.1 ∈ l := by
  induction l generalizing a w with
  | nil => exact fun e he => absurd he List.not_mem_nil
  | cons i l ih =>
      intro e he
      rcases List.mem_cons.mp he with rfl | he
      · exact List.mem_cons_self
      · exact List.mem_cons_of_mem i (ih e he)

section Block

variable (h : Host) (p : ArmCore) {ins : Word} (hB : bitB ins = 0)
  (hin : p.mem.InRange (blockStart ins (armReadRegister p (bitsRn ins)) (registerList ins).length)
    (4 * (registerList ins).length))

include hB hin

/-- A base that moves is not among the registers that are stored. -/
theorem block_stores (hL : bitL ins = 0) (hbase : bitsRn ins ∉ registerList ins ∨ bitW ins = 0) :
    ∃ q, executeAll h (singles ins) p = .ok (0, q) ∧
      armLoadStoreMultiple h p ins = .ok (0,
        baseMoved q ins (armReadRegister p (bitsRn ins)) (registerList ins).length) := by
  have hstart : ∀ a : Word, a + BitVec.ofNat 32 (4 * 0) = a := BitVec.add_zero
  have hrun := executeAll_stores (h := h) (j := 0) hL (registerList_length_le ins) rfl
    (Nat.zero_add _) (by rwa [hstart])
  refine ⟨_, hrun, ?_⟩
  have hvalues : (registerList ins).map (armReadRegister (baseMoved p ins
      (armReadRegister p (bitsRn ins)) (registerList ins).length))
        = (registerList ins).map (armReadRegister p) := by
    refine List.map_congr_left ?_
    intro i hi
    unfold baseMoved
    split
    · rename_i hW
      refine armReadRegister_write_of_ne _ _ ?_
      rintro rfl
      rcases hbase with hbase | hW'
      · exact hbase hi
      · exact hW hW'
    · rfl
  rw [armLoadStoreMultiple_store h p hL hB, addrLsMultiple_start, addrLsMultiple_base, hvalues,
    hstart]
  unfold baseMoved
  split <;> rfl

/-- A base that is not loaded can be moved last. -/
theorem block_loads (hL : bitL ins ≠ 0) (h15 : getBit ins 15 = 0)
    (hbase : bitsRn ins ∉ registerList ins) :
    ∃ q, executeAll h (singles ins) p = .ok (0, q) ∧
      armLoadStoreMultiple h p ins = .ok (0,
        baseMoved q ins (armReadRegister p (bitsRn ins)) (registerList ins).length) := by
  have hstart : ∀ a : Word, a + BitVec.ofNat 32 (4 * 0) = a := BitVec.add_zero
  have hrun := executeAll_loads (h := h) (j := 0) hL (registerList_length_le ins)
    (h.garbage .word) rfl hbase (Nat.zero_add _) (by rwa [hstart])
  refine ⟨_, hrun, ?_⟩
  have hpc : ¬ getBit ins 15 = 1 := (getBit_ne_one_iff ..).mpr h15
  have hlist : loadedList ins = registerList ins := by
    rw [registerList_eq, if_neg hpc, List.append_nil]
  have hloaded : ldmState h p ins = ldmRegisters h p ins := if_neg hpc
  rw [armLoadStoreMultiple_load h p hL hB, hloaded, ldmRegisters, addrLsMultiple_start,
    addrLsMultiple_base, hlist, hstart, writeRegisters_baseMoved]
  intro e he hRn
  exact hbase (hRn ▸ fst_mem_of_mem_loadEntries h p e he)

end Block

/-- A block transfer without r15, of words inside the memory, leaves the
state that its single transfers leave, followed by the writeback; they all
return 0. -/
theorem block_eq_singles (h : Host) (p : ArmCore) {ins : Word} (hB : bitB ins = 0)
    (h15 : getBit ins 15 = 0)
    (hbase : bitsRn ins ∉ registerList ins ∨ bitL ins = 0 ∧ bitW ins = 0)
    (hin : p.mem.InRange (blockStart ins (armReadRegister p (bitsRn ins)) (registerList ins).length)
      (4 * (registerList ins).length)) :
    AreSingles ins p (singles ins) ∧
    ∃ q, executeAll h (singles ins) p = .ok (0, q) ∧
      armLoadStoreMultiple h p ins = .ok (0,
        baseMoved q ins (armReadRegister p (bitsRn ins)) (registerList ins).length) := by
  refine ⟨singles_areSingles ins p, ?_⟩
  by_cases hL : bitL ins = 0
  · exact block_stores h p hB hin hL (hbase.imp_right And.right)
  · refine block_loads h p hB hin hL h15 ?_
    rcases hbase with hbase | ⟨hL', -⟩
    · exact hbase
    · exact absurd hL' hL

/-- `STMDB r1!, {r0, r2}` with 12 in r1. -/
def storingTwo : ArmCore := armWriteRegister (booted 16 []) 1 12

theorem block_eq_singles_storingTwo :
    AreSingles 0xE9210005 storingTwo (singles 0xE9210005) ∧
    ∃ q, executeAll x86Host (singles 0xE9210005) storingTwo = .ok (0, q) ∧
      armLoadStoreMultiple x86Host storingTwo 0xE9210005 = .ok (0,
        baseMoved q 0xE9210005 (armReadRegister storingTwo (bitsRn 0xE9210005))
          (registerList 0xE9210005).length) :=
  block_eq_singles x86Host storingTwo (by decide) (by decide) (Or.inl (by decide))
    (by decide +kernel)

end Armator
