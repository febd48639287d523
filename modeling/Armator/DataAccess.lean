/-
The data accesses of a step.

A load or store hands its addresses to the memory and drops what the
memory answers: `arm_load_store`, `instruction_ldm1` and `instruction_stm1`
return 0 whether or not the bytes exist.  `accessedBytes` are the bytes a
word accesses.  No other byte changes (`armStep_byteAt_of_notMem`), and an
access outside the memory is never reported (`access_reported_iff`).
-/
import Armator.Addressing

namespace Armator

open Replay

/-! ## The bytes of an access -/

/-- The addresses of `n` bytes, which wrap at the end of the addresses. -/
def bytesFrom (address : Word) (n : Nat) : List Word :=
  (List.range n).map fun i => address + BitVec.ofNat 32 i

theorem mem_bytesFrom {address : Word} {n i : Nat} (hi : i < n) :
    address + BitVec.ofNat 32 i ∈ bytesFrom address n :=
  List.mem_map.mpr ⟨i, List.mem_range.mpr hi, rfl⟩

theorem bytesFrom_one (address : Word) : bytesFrom address 1 = [address] := by
  rw [bytesFrom, List.range_one, List.map_singleton]
  exact congrArg (fun a => [a]) (BitVec.add_zero address)

theorem bytesFrom_add (address : Word) (m n : Nat) :
    bytesFrom address (m + n)
      = bytesFrom address m ++ bytesFrom (address + BitVec.ofNat 32 m) n := by
  have hshift : ∀ i, address + BitVec.ofNat 32 m + BitVec.ofNat 32 i
      = address + BitVec.ofNat 32 (m + i) := by
    intro i
    rw [BitVec.add_assoc, BitVec.ofNat_add]
  simp only [bytesFrom, List.range_add, List.map_append, List.map_map, Function.comp_def, hshift]

instance (ins : Word) : Decidable (Mode3Refuses ins) := inferInstanceAs (Decidable (_ ∨ _))

instance (p : ArmCore) (ins : Word) : Decidable (LoadStoreRefuses p ins) :=
  inferInstanceAs (Decidable (_ ∨ _))

/-- How many bytes a transfer of mode 3 moves. -/
def mode3Width (ins : Word) : Nat :=
  if bitL ins ≠ 0 ∧ (getBits ins 7 4).toNat = 0b1101 then 1 else 2

/-- The bytes that the handler of a word reads or writes. -/
def accessedBytes (p : ArmCore) (ins : Word) : List Word :=
  match insClass ins with
  | .loadStore =>
      if LoadStoreRefuses p ins then []
      else if getBit ins 26 ≠ 0 then
        bytesFrom (mode2Address p ins) (if bitB ins = 0 then 4 else 1)
      else bytesFrom (mode3Address (mode2State p ins) ins) (mode3Width ins)
  | .loadStoreMultiple =>
      if bitB ins = 0 then bytesFrom (addrLsMultiple p ins).1 (4 * numberOfSetBitsIn ins)
      else []
  | _ => []

/-! ## Nothing else is written -/

theorem memoryWriteByte_byteAt_of_ne (mem : Memory) {address b : Word} (value : Byte)
    (hb : b ≠ address) : (memoryWriteByte mem address value).2.byteAt b = mem.byteAt b := by
  by_cases h : address.toNat < mem.size.toNat
  · rw [memoryWriteByte_byteAt value h, Function.update_of_ne hb]
  · rw [memoryWriteByte, dif_neg h]

theorem memoryWriteBytes_byteAt_of_notMem {n : Nat} (bigEndian : Bool) (mem : Memory)
    {address b : Word} (value : BitVec (8 * n)) (be : Byte) (hb : b ∉ bytesFrom address n) :
    (memoryWriteBytes n bigEndian mem address value be).2.byteAt b = mem.byteAt b := by
  have hne : ∀ i : Fin n, b ≠ address + BitVec.ofNat 32 i := by
    intro i hi
    exact hb (hi ▸ mem_bytesFrom i.isLt)
  have hloop : ∀ (v : Fin n → Byte) (l : List (Fin n)) (mem' : Memory),
      (l.foldl (fun mem (i : Fin n) =>
        (memoryWriteByte mem (address + BitVec.ofNat 32 i) (v i)).2) mem').byteAt b
        = mem'.byteAt b := by
    intro v l
    induction l with
    | nil => intro mem'; rfl
    | cons i l ih =>
        intro mem'
        rw [List.foldl_cons, ih, memoryWriteByte_byteAt_of_ne _ _ (hne i)]
  unfold memoryWriteBytes
  split_ifs
  · exact hloop _ _ mem
  · exact hloop _ _ mem
  · rfl

theorem storeWords_byteAt_of_notMem (h : Host) (mem : Memory) {a b : Word} {vs : List Word}
    (hb : b ∉ bytesFrom a (4 * vs.length)) :
    (storeWords h mem a vs).byteAt b = mem.byteAt b := by
  induction vs generalizing mem a with
  | nil => rfl
  | cons v vs ih =>
      rw [List.length_cons, Nat.mul_succ, Nat.add_comm, bytesFrom_add, List.mem_append,
        not_or] at hb
      exact (ih _ hb.2).trans (memoryWriteBytes_byteAt_of_notMem (n := 4) _ _ _ _ hb.1)

theorem mode2State_mem (p : ArmCore) (ins : Word) : (mode2State p ins).mem = p.mem :=
  writtenBack_mem ..

theorem mode3State_mem (p : ArmCore) (ins : Word) : (mode3State p ins).mem = p.mem :=
  writtenBack_mem ..

section Frame

variable (h : Host) (p : ArmCore) (ins : Word)

theorem loadStoreMode2_byteAt (address : Word) (Rd_num : Fin 16) {b : Word}
    (hb : b ∉ bytesFrom address (if bitB ins = 0 then 4 else 1)) :
    (loadStoreMode2 h p ins address Rd_num).2.mem.byteAt b = p.mem.byteAt b := by
  unfold loadStoreMode2
  split_ifs with hB hL hL
  · rfl
  · rw [if_pos hB] at hb
    exact memoryWriteBytes_byteAt_of_notMem (n := 4) _ _ _ _ hb
  · rfl
  · rw [if_neg hB] at hb
    rw [bytesFrom_one, List.mem_singleton] at hb
    exact memoryWriteByte_byteAt_of_ne _ _ hb

theorem loadStoreMode3_byteAt (address : Word) (Rd_num : Fin 16) {b : Word}
    (hb : b ∉ bytesFrom address (mode3Width ins)) :
    (loadStoreMode3 h p ins address Rd_num).2.mem.byteAt b = p.mem.byteAt b := by
  unfold loadStoreMode3
  split_ifs with hL h15
  · rfl
  · rw [mode3Width, if_neg fun hc => hc.1 hL] at hb
    exact memoryWriteBytes_byteAt_of_notMem (n := 2) _ _ _ _ hb
  · -- the loads write no memory
    split <;> rfl
  · split <;> rfl

theorem armLoadStore_byteAt (hc : insClass ins = .loadStore) {b : Word}
    (hb : b ∉ accessedBytes p ins) : (armLoadStore h p ins).2.mem.byteAt b = p.mem.byteAt b := by
  unfold accessedBytes at hb
  simp only [hc] at hb
  by_cases hr : LoadStoreRefuses p ins
  · rw [armLoadStore_of_refuses h p hr, (refusedState_frame p ins).1]
  · rw [if_neg hr] at hb
    have hr' := hr
    unfold LoadStoreRefuses at hr'
    push Not at hr'
    rw [armLoadStore_eq h p hr'.1, if_neg hr'.2.1]
    by_cases h26 : getBit ins 26 = 0
    · rw [if_neg (not_not.mpr h26)] at hb ⊢
      rw [loadStoreMode3_byteAt h _ ins _ _ hb, mode3State_mem, mode2State_mem]
    · rw [if_pos h26] at hb ⊢
      rw [loadStoreMode2_byteAt h _ ins _ _ hb, mode2State_mem]

theorem armLoadStoreMultiple_byteAt (hc : insClass ins = .loadStoreMultiple) {b : Word}
    (hb : b ∉ accessedBytes p ins) :
    ∃ o, armLoadStoreMultiple h p ins = .ok o ∧ o.2.mem.byteAt b = p.mem.byteAt b := by
  unfold accessedBytes at hb
  simp only [hc] at hb
  by_cases hB : bitB ins = 0
  · rw [if_pos hB, numberOfSetBitsIn_eq] at hb
    by_cases hL : bitL ins = 0
    · refine ⟨_, armLoadStoreMultiple_store h p hL hB, ?_⟩
      refine storeWords_byteAt_of_notMem h p.mem ?_
      rwa [List.length_map]
    · refine ⟨_, armLoadStoreMultiple_load h p hL hB, ?_⟩
      have hmem : (ldmState h p ins).mem = p.mem := by
        unfold ldmState ldmRegisters
        simp only
        split_ifs <;> simp
      rw [hmem]
  · refine ⟨(UNDEFINED_INSTRUCTION, p), ?_, rfl⟩
    rw [armLoadStoreMultiple, if_neg (fun hh => hB hh.2), if_neg (fun hh => hB hh.2)]

theorem dataProcessing_mem (sv : ShifterValues) : (dataProcessing p ins sv).2.mem = p.mem := by
  unfold dataProcessing alu writeRd
  simp only
  split_ifs <;> simp

theorem armMiscellaneous_mem : (armMiscellaneous p ins).2.mem = p.mem := by
  unfold armMiscellaneous
  simp only
  split_ifs <;> rfl

theorem armBranch_mem : (armBranch p ins).2.mem = p.mem := by
  unfold armBranch
  simp only
  split_ifs <;> rfl

/-- The handlers of the other classes have no memory to write. -/
theorem dispatch_byteAt {b : Word} (hb : b ∉ accessedBytes p ins) :
    ∃ o, dispatch h p ins = .ok o ∧ o.2.mem.byteAt b = p.mem.byteAt b := by
  have hdp : insClass ins = .dpShift ∨ insClass ins = .dpImmediate →
      ∃ o, dispatch h p ins = .ok o ∧ o.2.mem.byteAt b = p.mem.byteAt b := by
    intro hc
    obtain ⟨sv, -, hd⟩ := dispatch_dataProcessing h p hc
    exact ⟨_, hd, by rw [dataProcessing_mem]⟩
  cases hc : insClass ins with
  | dpShift => exact hdp (Or.inl hc)
  | dpImmediate => exact hdp (Or.inr hc)
  | loadStore =>
      rw [dispatch_eq, hc]
      exact ⟨_, rfl, armLoadStore_byteAt h p ins hc hb⟩
  | loadStoreMultiple =>
      rw [dispatch_eq, hc]
      exact armLoadStoreMultiple_byteAt h p ins hc hb
  | miscellaneous =>
      rw [dispatch_eq, hc]
      exact ⟨armMiscellaneous p ins, rfl, by rw [armMiscellaneous_mem]⟩
  | branch =>
      rw [dispatch_eq, hc]
      exact ⟨armBranch p ins, rfl, by rw [armBranch_mem]⟩
  | coprocessorLoadStore =>
      rw [dispatch_eq, hc]
      exact ⟨_, rfl, rfl⟩
  | othersSwi =>
      rw [dispatch_eq, hc]
      exact ⟨_, rfl, rfl⟩

end Frame

/-- A byte that the executed word does not access keeps its value. -/
theorem armStep_byteAt_of_notMem {h : Host} {p : ArmCore} {ins b : Word}
    (hx : Executes h p ins) (hb : b ∉ accessedBytes (fetched p) ins) :
    ∃ r p', armStep h p = .ok (r, p') ∧ p'.mem.byteAt b = p.mem.byteAt b := by
  obtain ⟨o, ho, hr, -⟩ := dispatch_effective h (fetched p) ins
  obtain ⟨o', ho', hbyte⟩ := dispatch_byteAt h (fetched p) ins hb
  obtain rfl := Except.ok.inj (ho.symm.trans ho')
  obtain ⟨r, p', hraise, -, hmem⟩ := raise_keeps h hr
  exact ⟨r, p', by rw [armStep_of_executes hx, ho, hraise], by rw [hmem, hbyte, fetched_mem]⟩

/-! ## Another memory -/

/-- The state with another memory. -/
def ArmCore.withMem (p : ArmCore) (mem : Memory) : ArmCore := { p with mem := mem }

section

variable (p : ArmCore) (ins : Word)

theorem writtenBack_withMem (mem : Memory) (Rn offset : Word) :
    writtenBack (p.withMem mem) ins Rn offset = (writtenBack p ins Rn offset).withMem mem := by
  unfold writtenBack
  split <;> rfl

theorem mode2State_withMem (mem : Memory) :
    mode2State (p.withMem mem) ins = (mode2State p ins).withMem mem :=
  writtenBack_withMem ..

theorem mode3State_withMem (mem : Memory) :
    mode3State (p.withMem mem) ins = (mode3State p ins).withMem mem :=
  writtenBack_withMem ..

theorem addrLsMultiple_withMem (mem : Memory) :
    addrLsMultiple (p.withMem mem) ins
      = ((addrLsMultiple p ins).1, (addrLsMultiple p ins).2.1,
          (addrLsMultiple p ins).2.2.withMem mem) := by
  have hread : armReadRegister (p.withMem mem) (bitsRn ins) = armReadRegister p (bitsRn ins) := rfl
  have hback : ∀ value, (if bitW ins ≠ 0 then armWriteRegister (p.withMem mem) (bitsRn ins) value
      else p.withMem mem)
        = (if bitW ins ≠ 0 then armWriteRegister p (bitsRn ins) value else p).withMem mem := by
    intro value
    split <;> rfl
  unfold addrLsMultiple
  simp only [hread, hback]
  split_ifs <;> rfl

end

/-! ## Nothing is reported -/

/-- A handler that accesses a byte returns 0. -/
theorem dispatch_of_accesses (h : Host) {p : ArmCore} {ins : Word}
    (ha : accessedBytes p ins ≠ []) : ∃ q, dispatch h p ins = .ok (0, q) := by
  unfold accessedBytes at ha
  rw [dispatch_eq]
  cases hc : insClass ins with
  | loadStore =>
      simp only [hc] at ha
      have hr : ¬ LoadStoreRefuses p ins := fun hr => ha (if_pos hr)
      exact ⟨(armLoadStore h p ins).2,
        congrArg Except.ok (Prod.ext (armLoadStore_of_not_refuses h p hr) rfl)⟩
  | loadStoreMultiple =>
      simp only [hc] at ha
      have hB : bitB ins = 0 := by
        by_contra hB
        exact ha (if_neg hB)
      by_cases hL : bitL ins = 0
      · exact ⟨_, armLoadStoreMultiple_store h p hL hB⟩
      · exact ⟨_, armLoadStoreMultiple_load h p hL hB⟩
  | _ =>
      simp only [hc] at ha
      exact absurd rfl ha

/-- Every byte the word accesses lies inside the memory. -/
def AccessesInside (p : ArmCore) (ins : Word) : Prop :=
  ∀ b ∈ accessedBytes p ins, b.toNat < p.mem.size.toNat

instance (p : ArmCore) (ins : Word) : Decidable (AccessesInside p ins) :=
  inferInstanceAs (Decidable (∀ b ∈ _, _))

/-- The result of a step tells accesses inside the memory from others only
where they all are inside: the step returns 0 whatever it accesses. -/
theorem access_reported_iff (h : Host) (p : ArmCore) (ins : Word) (hx : Executes h p ins) :
    ∃ r p', armStep h p = .ok (r, p') ∧
      ((r = 0 → AccessesInside (fetched p) ins) ∧ (¬ AccessesInside (fetched p) ins → r ≠ 0) ↔
        AccessesInside (fetched p) ins) := by
  by_cases ha : accessedBytes (fetched p) ins = []
  · obtain ⟨r, p', hs, -⟩ := armStep_effect h p
    have hin : AccessesInside (fetched p) ins := by
      intro b hb
      rw [ha] at hb
      exact absurd hb List.not_mem_nil
    exact ⟨r, p', hs, iff_of_true ⟨fun _ => hin, fun hout => absurd hin hout⟩ hin⟩
  · obtain ⟨q, hq⟩ := dispatch_of_accesses h ha
    refine ⟨0, q, by rw [armStep_of_executes hx, hq, raise_zero], ?_⟩
    exact ⟨fun hp => hp.1 rfl, fun hin => ⟨fun _ => hin, fun hout => absurd hin hout⟩⟩

/-- `LDR r0, [r1]` with 8 in r1, in a memory of 16 bytes. -/
def loadingInside : ArmCore := armWriteRegister (booted 16 [0xE5910000]) 1 8

theorem access_reported_iff_loadingInside :
    ∃ r p', armStep x86Host loadingInside = .ok (r, p') ∧
      ((r = 0 → AccessesInside (fetched loadingInside) 0xE5910000) ∧
          (¬ AccessesInside (fetched loadingInside) 0xE5910000 → r ≠ 0) ↔
        AccessesInside (fetched loadingInside) 0xE5910000) :=
  access_reported_iff x86Host loadingInside 0xE5910000 ⟨by decide +kernel, by decide +kernel⟩

/-- The same word with 16 in r1. -/
def loadingOutside : ArmCore := armWriteRegister (booted 16 [0xE5910000]) 1 16

theorem accessedBytes_loadingOutside :
    accessedBytes (fetched loadingOutside) 0xE5910000 = [16, 17, 18, 19] := by
  decide +kernel

/-- It loads what `val` happens to hold, and reports nothing. -/
theorem load_outside_unreported :
    Executes x86Host loadingOutside 0xE5910000 ∧
    ¬ AccessesInside (fetched loadingOutside) 0xE5910000 ∧
    ∃ p', armStep x86Host loadingOutside = .ok (0, p') := by
  have hx : Executes x86Host loadingOutside 0xE5910000 := ⟨by decide +kernel, by decide +kernel⟩
  have hne : accessedBytes (fetched loadingOutside) 0xE5910000 ≠ [] := by
    rw [accessedBytes_loadingOutside]
    exact List.cons_ne_nil _ _
  obtain ⟨q, hq⟩ := dispatch_of_accesses x86Host hne
  refine ⟨hx, ?_, q, by rw [armStep_of_executes hx, hq, raise_zero]⟩
  intro hin
  have h16 := hin 16 (by rw [accessedBytes_loadingOutside]; exact List.mem_cons_self)
  exact absurd h16 (by decide +kernel)

end Armator
