/-
What the trace of the memory tells.

Every accessor of `arm_core.c` calls `trace_memory` once, so a step leaves a
log of accesses (`armStepTrace`).  The log of a run is a history of the
memory: a traced read has found what the traced writes before it have left,
or what was there at the start, and the memory at the end is what the traced
writes have left (`memory_trace_history`).  An access that runs past the end
of the memory is traced like any other; what it has done to the bytes that
are there is what counts.

As the file tells the accesses apart, it is enough to know the memory at the
end (`trace_file_memory`).
-/
import Armator.Lib.History
import Armator.Portability
import Armator.Trace

namespace Armator

open ByteOrder CText Relation Replay

/-! ## The accesses of a step -/

/-- `trace_memory`, as the accessors of `arm_core.c` call it. -/
def ArmCore.traced (p : ArmCore) (type : AccessType) (size : ℕ) (address value : Word) :
    TracedAccess where
  cycle := p.cycleCount
  type := type
  size := size
  cause := .otherAccess
  address := address
  value := value

section

variable (h : Host) (p : ArmCore)

/-- `arm_fetch` -/
def armFetchTrace : TracedAccess where
  cycle := p.cycleCount + 1
  type := .read
  size := 4
  cause := .opcodeFetch
  address := registersRead p.reg 15 (registersGetMode p.reg)
  value := (armFetch h p (h.garbage .ins)).2.2

/-- The transfers of mode 2 in `arm_load_store`. -/
def loadStoreMode2Trace (ins address : Word) (Rd_num : Fin 16) : List TracedAccess :=
  if bitB ins = 0 then
    if bitL ins ≠ 0 then [p.traced .read 4 address (armReadWord h p address (h.garbage .val)).2]
    else [p.traced .write 4 address (armReadRegister p Rd_num)]
  else
    if bitL ins ≠ 0 then
      [p.traced .read 1 address
        ((armReadByte p address ((h.garbage .val).setWidth 8)).2.setWidth 32)]
    else
      let val : Byte := (getBits (armReadRegister p Rd_num) 7 0).setWidth 8
      [p.traced .write 1 address (val.setWidth 32)]

/-- The transfers of mode 3 in `arm_load_store`. -/
def loadStoreMode3Trace (ins address : Word) (Rd_num : Fin 16) : List TracedAccess :=
  let half := (armReadHalf h p address ((h.garbage .val).setWidth 16)).2
  if bitL ins = 0 then
    if Rd_num = 15 then []
    else
      let val : Half := (getBits (armReadRegister p Rd_num) 15 0).setWidth 16
      [p.traced .write 2 address (val.setWidth 32)]
  else
    match (getBits ins 7 4).toNat with
    | 0b1011 => if Rd_num = 15 then [] else [p.traced .read 2 address (half.setWidth 32)]
    | 0b1101 =>
        if Rd_num = 15 then []
        else
          [p.traced .read 1 address
            ((armReadByte p address ((h.garbage .val).setWidth 8)).2.setWidth 32)]
    | 0b1111 => if Rd_num = 15 then [] else [p.traced .read 2 address (half.setWidth 32)]
    | _ => []

/-- `arm_load_store` -/
def armLoadStoreTrace (ins : Word) : List TracedAccess :=
  let (address, p) := calculateAddress p ins
  if address = -1 then []
  else
    let Rd_num := regNum (getBits ins 15 12)
    if getBit ins 26 ≠ 0 then loadStoreMode2Trace h p ins address Rd_num
    else
      let (address, p) := calculateAddressMode3 h p ins
      loadStoreMode3Trace h p ins address Rd_num

/-- The loop of `instruction_ldm1`, over the registers that are left. -/
def ldmTurnsTrace (ins : Word) : List (Fin 16) → ArmCore × Word × Word → List TracedAccess
  | [], _ => []
  | i :: l, s =>
      let (p, address, word) := s
      (if getBit ins i = 1 then [p.traced .read 4 address (armReadWord h p address word).2]
        else []) ++ ldmTurnsTrace ins l (ldmTurn h ins s i)

/-- `instruction_ldm1` -/
def instructionLdm1Trace (ins : Word) : List TracedAccess :=
  let (start, _, p) := addrLsMultiple p ins
  ldmTurnsTrace h ins ((List.finRange 15).map Fin.castSucc) (p, start, h.garbage .word) ++
    (if getBit ins 15 = 1 then
      let (p, address, word) := ldmLoop h p ins start (h.garbage .word)
      [p.traced .read 4 address (armReadWord h p address word).2]
    else [])

/-- The loop of `instruction_stm1`. -/
def stmTurnsTrace (ins : Word) : List (Fin 16) → ArmCore × Word → List TracedAccess
  | [], _ => []
  | i :: l, s =>
      let (p, address) := s
      (if getBit ins i = 1 then [p.traced .write 4 address (armReadRegister p i)] else []) ++
        stmTurnsTrace ins l (stmTurn h ins s i)

/-- `instruction_stm1` -/
def instructionStm1Trace (ins : Word) : List TracedAccess :=
  let (start, _, p) := addrLsMultiple p ins
  stmTurnsTrace h ins (List.finRange 16) (p, start)

/-- `arm_load_store_multiple` -/
def armLoadStoreMultipleTrace (ins : Word) : List TracedAccess :=
  if bitL ins ≠ 0 ∧ bitB ins = 0 then instructionLdm1Trace h p ins
  else if bitL ins = 0 ∧ bitB ins = 0 then instructionStm1Trace h p ins
  else []

/-- The handlers; those of the other classes do not access the memory. -/
def dispatchTrace (ins : Word) : List TracedAccess :=
  match insClass ins with
  | .loadStore => armLoadStoreTrace h p ins
  | .loadStoreMultiple => armLoadStoreMultipleTrace h p ins
  | _ => []

/-- `arm_exception`, which reads the word of a software interrupt again. -/
def armExceptionTrace (exception : Byte) : List TracedAccess :=
  if (exception.toNat : Int) = SOFTWARE_INTERRUPT then
    let address := armReadRegister p 15 - 8
    [p.traced .read 4 address (armReadWord h p address (h.garbage .instruction)).2]
  else []

/-- `arm_step` -/
def armStepTrace : List TracedAccess :=
  let (res, fetched, ins) := armFetch h p (h.garbage .ins)
  let executed :=
    if res = 0 ∧ armCondition fetched ins = true then dispatchTrace h fetched ins else []
  let raised :=
    match armExecuteInstruction h p with
    | .error _ => []
    | .ok (result, p) =>
        if result ≠ 0 then armExceptionTrace h p (BitVec.ofInt 8 result) else []
  armFetchTrace h p :: (executed ++ raised)

end

/-- Steps and exceptions one after the other, with what they log. -/
inductive TracedRun (h : Host) : ArmCore → List TracedAccess → ArmCore → Prop where
  | nil (p : ArmCore) : TracedRun h p [] p
  | step {p p' q : ArmCore} {r : Int} {log : List TracedAccess} (hstep : armStep h p = .ok (r, p'))
      (hrest : TracedRun h p' log q) : TracedRun h p (armStepTrace h p ++ log) q
  | exception {p q : ArmCore} {log : List TracedAccess} (number : Byte)
      (hrest : TracedRun h (armException h p number).2 log q) :
      TracedRun h p (armExceptionTrace h p number ++ log) q

/-! ## What an access is to the memory -/

/-- The bytes that an access has read or written, where there is memory. -/
def TracedAccess.entries (be : Byte) (size : Word) (t : TracedAccess) : List (Word × Byte) :=
  if t.address.toNat < size.toNat then
    (writeEntries (n := t.size) t.address (t.value.setWidth (8 * t.size)) be).filter
      fun e => decide (e.1.toNat < size.toNat)
  else []

/-- As an access of a store of bytes. -/
def TracedAccess.access (be : Byte) (size : Word) (t : TracedAccess) : Access Word Byte :=
  match t.type with
  | .read => .read (t.entries be size)
  | .write => .write (t.entries be size)

/-- The bytes that an access has written. -/
def TracedAccess.written (be : Byte) (size : Word) (t : TracedAccess) : List (Word × Byte) :=
  (t.access be size).written

/-- Between `mem` and `mem'` these accesses have been made. -/
structure Logs (be : Byte) (mem : Memory) (log : List TracedAccess) (mem' : Memory) : Prop where
  size : mem'.size = mem.size
  history : History mem.byteAt (log.map (TracedAccess.access be mem.size)) mem'.byteAt

section Logs

variable {be : Byte} {mem mem' mem'' : Memory} {log log' : List TracedAccess}

theorem Logs.nil (be : Byte) (mem : Memory) : Logs be mem [] mem := ⟨rfl, .nil _⟩

theorem Logs.append (hl : Logs be mem log mem') (hl' : Logs be mem' log' mem'') :
    Logs be mem (log ++ log') mem'' := by
  refine ⟨hl'.size.trans hl.size, ?_⟩
  rw [List.map_append]
  exact hl.history.append (hl.size ▸ hl'.history)

/-- Bytes written one after the other, where there is memory. -/
theorem foldl_memoryWriteByte_byteAt (mem : Memory) (l : List (Word × Byte)) :
    (l.foldl (fun mem e => (memoryWriteByte mem e.1 e.2).2) mem).byteAt
      = replay mem.byteAt (l.filter fun e => decide (e.1.toNat < mem.size.toNat)) := by
  induction l generalizing mem with
  | nil => rfl
  | cons e l ih =>
      rw [List.foldl_cons, ih, memoryWriteByte_size, List.filter_cons]
      by_cases he : e.1.toNat < mem.size.toNat
      · rw [if_pos (decide_eq_true he), replay_cons, memoryWriteByte_byteAt e.2 he]
      · rw [if_neg (by rw [decide_eq_true_eq]; exact he), memoryWriteByte, dif_neg he]

variable (cycle : Word) (cause : Cause) (address : Word) {n : ℕ} (hn : 8 * n ≤ 32)

include hn

/-- A value is logged with as many bytes as it has. -/
theorem entries_logged (type : AccessType) (size : Word) (x : BitVec (8 * n)) :
    TracedAccess.entries be size ⟨cycle, type, n, cause, address, x.setWidth 32⟩ =
      if address.toNat < size.toNat then
        (writeEntries address x be).filter fun e => decide (e.1.toNat < size.toNat)
      else [] := by
  simp only [TracedAccess.entries]
  rw [BitVec.setWidth_setWidth_of_le _ hn, BitVec.setWidth_eq]

/-- A read that finds the bytes that are there. -/
theorem logs_read {x : BitVec (8 * n)}
    (hx : address.toNat < mem.size.toNat → ∀ i : Fin n,
      (address + BitVec.ofNat 32 i).toNat < mem.size.toNat →
        orient (decide (be ≠ 0)) (toBytes x) i = mem.byteAt (address + BitVec.ofNat 32 i)) :
    Logs be mem [⟨cycle, .read, n, cause, address, x.setWidth 32⟩] mem := by
  refine ⟨rfl, .read (fun e he => ?_) (.nil _)⟩
  rw [entries_logged cycle cause address hn] at he
  split_ifs at he with hin
  · obtain ⟨he, hlt⟩ := List.mem_filter.mp he
    obtain ⟨i, -, rfl⟩ := List.mem_map.mp he
    exact (hx hin i (of_decide_eq_true hlt)).symm
  · exact absurd he List.not_mem_nil

theorem logs_write (bigEndian : Bool) (x : BitVec (8 * n)) :
    Logs be mem [⟨cycle, .write, n, cause, address, x.setWidth 32⟩]
      (memoryWriteBytes n bigEndian mem address x be).2 := by
  refine ⟨memoryWriteBytes_size .., ?_⟩
  have hwritten : (memoryWriteBytes n bigEndian mem address x be).2.byteAt = replay mem.byteAt
      (TracedAccess.entries be mem.size ⟨cycle, .write, n, cause, address, x.setWidth 32⟩) := by
    rw [entries_logged cycle cause address hn, memoryWriteBytes_loop]
    split_ifs
    · rw [← foldl_memoryWriteByte_byteAt, writeEntries, List.foldl_map]
    · rfl
  rw [hwritten]
  exact .write (.nil _)

/-- Where a half-word or a word is read, the bytes that are there are read. -/
theorem logs_memoryReadBytes (bigEndian : Bool) (bytearray : Fin n → Byte)
    (value : BitVec (8 * n)) :
    Logs be mem [⟨cycle, .read, n, cause, address,
      (memoryReadBytes n bigEndian bytearray mem address value be).2.setWidth 32⟩] mem := by
  refine logs_read cycle cause address hn fun hin i hi => ?_
  generalize hbytes : (fun i : Fin n =>
    (memoryReadByte mem (address + BitVec.ofNat 32 i) (bytearray i)).2) = read
  have hread : (memoryReadBytes n bigEndian bytearray mem address value be).2
      = ofBytes (orient (decide (be ≠ 0)) read) := by
    have hswap : ∀ s : Bool, swapBytes bigEndian be = s →
        ofHostBytes bigEndian (orient s read) = ofBytes (orient (decide (be ≠ 0)) read) := by
      intro s hs
      rw [ofHostBytes, orient_orient, ← hs, swapBytes_xor]
    rw [memoryReadBytes, if_pos hin, hbytes]
    cases hs : swapBytes bigEndian be with
    | true =>
        rw [if_pos rfl, ← hswap true hs, ← hbytes]
        rfl
    | false =>
        rw [if_neg Bool.false_ne_true, ← hswap false hs]
        rfl
  rw [hread, toBytes_ofBytes, orient_orient, Bool.xor_self, orient_false, ← hbytes]
  exact congrArg Prod.snd (memoryReadByte_of_lt (bytearray i) hi)

end Logs

/-! ## Single bytes -/

section Bytes

variable {be : Byte} {mem : Memory} (cycle : Word) (cause : Cause) (address : Word)

theorem logs_memoryReadByte (value : Byte) :
    Logs be mem [⟨cycle, .read, 1, cause, address,
      (memoryReadByte mem address value).2.setWidth 32⟩] mem := by
  refine logs_read (n := 1) cycle cause address (by decide) fun hin i _ => ?_
  rw [orient_one, toBytes_one, memoryReadByte_of_lt value hin, Subsingleton.elim i 0]
  exact congrArg mem.byteAt (BitVec.add_zero address).symm

theorem logs_memoryWriteByte (value : Byte) :
    Logs be mem [⟨cycle, .write, 1, cause, address, value.setWidth 32⟩]
      (memoryWriteByte mem address value).2 := by
  have hone : (memoryWriteBytes 1 false mem address value be).2
      = (memoryWriteByte mem address value).2 := by
    rw [memoryWriteBytes_loop, orient_one, toBytes_one]
    split_ifs with hin
    · exact congrArg (fun a => (memoryWriteByte mem a value).2) (BitVec.add_zero address)
    · rw [memoryWriteByte, dif_neg hin]
  rw [← hone]
  exact logs_write (n := 1) cycle cause address (by decide) false value

end Bytes

/-! ## The handlers -/

section Handlers

variable (h : Host) (p : ArmCore)

theorem logs_armReadWord (address value : Word) :
    Logs h.endianess p.mem [p.traced .read 4 address (armReadWord h p address value).2] p.mem := by
  have hread : Logs h.endianess p.mem [⟨p.cycleCount, .read, 4, .otherAccess, address,
      (armReadWord h p address value).2.setWidth 32⟩] p.mem :=
    logs_memoryReadBytes p.cycleCount .otherAccess address (n := 4) (by decide) h.isBigEndian
      (fun i => (h.garbage (.bytearray address i)).setWidth 8) value
  rwa [BitVec.setWidth_eq] at hread

theorem logs_armReadHalf (address : Word) (value : Half) :
    Logs h.endianess p.mem
      [p.traced .read 2 address ((armReadHalf h p address value).2.setWidth 32)] p.mem :=
  logs_memoryReadBytes p.cycleCount .otherAccess address (n := 2) (by decide) h.isBigEndian
    (fun i => (h.garbage (.bytearray address i)).setWidth 8) value

theorem logs_armReadByte (be : Byte) (address : Word) (value : Byte) :
    Logs be p.mem [p.traced .read 1 address ((armReadByte p address value).2.setWidth 32)] p.mem :=
  logs_memoryReadByte p.cycleCount .otherAccess address value

theorem logs_armWriteWord (address value : Word) :
    Logs h.endianess p.mem [p.traced .write 4 address value]
      (armWriteWord h p address value).2.mem := by
  have hwrite : Logs h.endianess p.mem [⟨p.cycleCount, .write, 4, .otherAccess, address,
      value.setWidth 32⟩] (armWriteWord h p address value).2.mem :=
    logs_write p.cycleCount .otherAccess address (n := 4) (by decide) h.isBigEndian value
  rwa [BitVec.setWidth_eq] at hwrite

theorem logs_armWriteHalf (address : Word) (value : Half) :
    Logs h.endianess p.mem [p.traced .write 2 address (value.setWidth 32)]
      (armWriteHalf h p address value).2.mem :=
  logs_write p.cycleCount .otherAccess address (n := 2) (by decide) h.isBigEndian value

theorem logs_armWriteByte (be : Byte) (address : Word) (value : Byte) :
    Logs be p.mem [p.traced .write 1 address (value.setWidth 32)]
      (armWriteByte p address value).2.mem :=
  logs_memoryWriteByte p.cycleCount .otherAccess address value

variable (ins : Word)

theorem loadStoreMode2_logs (address : Word) (Rd_num : Fin 16) :
    Logs h.endianess p.mem (loadStoreMode2Trace h p ins address Rd_num)
      (loadStoreMode2 h p ins address Rd_num).2.mem := by
  unfold loadStoreMode2Trace loadStoreMode2
  split_ifs
  · exact logs_armReadWord h p address _
  · exact logs_armWriteWord h p address _
  · exact logs_armReadByte p h.endianess address _
  · exact logs_armWriteByte p h.endianess address _

theorem loadStoreMode3_logs (address : Word) (Rd_num : Fin 16) :
    Logs h.endianess p.mem (loadStoreMode3Trace h p ins address Rd_num)
      (loadStoreMode3 h p ins address Rd_num).2.mem := by
  unfold loadStoreMode3Trace loadStoreMode3
  by_cases hL : bitL ins = 0
  · simp only [if_pos hL]
    split_ifs
    · exact .nil ..
    · exact logs_armWriteHalf h p address _
  · simp only [if_neg hL]
    generalize (getBits ins 7 4).toNat = bits
    by_cases h11 : bits = 0b1011
    · subst h11
      simp only
      split_ifs
      · exact .nil ..
      · exact logs_armReadHalf h p address _
    by_cases h13 : bits = 0b1101
    · subst h13
      simp only
      split_ifs
      · exact .nil ..
      · exact logs_armReadByte p h.endianess address _
    by_cases h15 : bits = 0b1111
    · subst h15
      simp only
      split_ifs
      · exact .nil ..
      · exact logs_armReadHalf h p address _
    · simp only
      exact .nil ..

theorem calculateAddress_mem : (calculateAddress p ins).2.mem = p.mem := by
  by_cases hu : Untreated ins
  · rw [calculateAddress_untreated p hu]
  · rw [calculateAddress_eq p hu]
    exact mode2State_mem p ins

theorem calculateAddressMode3_mem : (calculateAddressMode3 h p ins).2.mem = p.mem := by
  by_cases hu : Untreated ins
  · unfold calculateAddressMode3
    simp only [indexAddress_eq, if_pos hu]
    rfl
  · rw [calculateAddressMode3_eq h p hu]
    exact mode3State_mem p ins

theorem armLoadStore_logs :
    Logs h.endianess p.mem (armLoadStoreTrace h p ins) (armLoadStore h p ins).2.mem := by
  have hmem := calculateAddress_mem p ins
  unfold armLoadStoreTrace armLoadStore
  rcases hA : calculateAddress p ins with ⟨address, q⟩
  rw [hA] at hmem
  rw [← hmem]
  simp only
  split_ifs
  · exact .nil ..
  · exact loadStoreMode2_logs h q ins address _
  · have hmem₃ := calculateAddressMode3_mem h q ins
    rcases hA₃ : calculateAddressMode3 h q ins with ⟨address₃, q₃⟩
    rw [hA₃] at hmem₃
    rw [← hmem₃]
    exact loadStoreMode3_logs h q₃ ins address₃ _

/-- The loop of a load-multiple reads, and leaves the memory. -/
theorem ldmTurns_logs (l : List (Fin 16)) (s : ArmCore × Word × Word) :
    Logs h.endianess s.1.mem (ldmTurnsTrace h ins l s) (l.foldl (ldmTurn h ins) s).1.mem := by
  induction l generalizing s with
  | nil => exact .nil ..
  | cons i l ih =>
      obtain ⟨p, address, word⟩ := s
      rw [ldmTurnsTrace, List.foldl_cons]
      refine .append ?_ (ih _)
      unfold ldmTurn
      simp only
      split_ifs
      · exact logs_armReadWord h p address word
      · exact .nil ..

/-- The loop of a store-multiple writes. -/
theorem stmTurns_logs (l : List (Fin 16)) (s : ArmCore × Word) :
    Logs h.endianess s.1.mem (stmTurnsTrace h ins l s) (l.foldl (stmTurn h ins) s).1.mem := by
  induction l generalizing s with
  | nil => exact .nil ..
  | cons i l ih =>
      obtain ⟨p, address⟩ := s
      rw [stmTurnsTrace, List.foldl_cons]
      refine .append ?_ (ih _)
      unfold stmTurn
      simp only
      split_ifs
      · exact logs_armWriteWord h p address _
      · exact .nil ..

theorem instructionLdm1_logs :
    Logs h.endianess p.mem (instructionLdm1Trace h p ins) p.mem := by
  have hmem := addrLsMultiple_mem p ins
  unfold instructionLdm1Trace
  rcases hA : addrLsMultiple p ins with ⟨start, last, q⟩
  rw [hA] at hmem
  rw [← hmem]
  have hloop := ldmTurns_logs h ins ((List.finRange 15).map Fin.castSucc)
    (q, start, h.garbage .word)
  have hend : (ldmLoop h q ins start (h.garbage .word)).1.mem = q.mem := by
    rw [ldmLoop_eq, writeRegisters_mem]
  rw [← ldmLoop, hend] at hloop
  refine hloop.append ?_
  split_ifs
  · rcases hL : ldmLoop h q ins start (h.garbage .word) with ⟨q', address, word⟩
    rw [hL] at hend
    rw [← hend]
    exact logs_armReadWord h q' address word
  · exact .nil ..

theorem instructionStm1_logs :
    Logs h.endianess p.mem (instructionStm1Trace h p ins)
      (storeWords h p.mem (addrLsMultiple p ins).1
        ((registerList ins).map (armReadRegister (addrLsMultiple p ins).2.2))) := by
  have hmem := addrLsMultiple_mem p ins
  unfold instructionStm1Trace
  rcases hA : addrLsMultiple p ins with ⟨start, last, q⟩
  rw [hA] at hmem
  rw [← hmem]
  have hloop := stmTurns_logs h ins (List.finRange 16) (q, start)
  rwa [foldl_stmTurn, foldl_storeTurn] at hloop

theorem armLoadStoreMultiple_logs :
    ∃ o, armLoadStoreMultiple h p ins = .ok o ∧
      Logs h.endianess p.mem (armLoadStoreMultipleTrace h p ins) o.2.mem := by
  unfold armLoadStoreMultipleTrace
  by_cases hB : bitB ins = 0
  · by_cases hL : bitL ins = 0
    · refine ⟨_, armLoadStoreMultiple_store h p hL hB, ?_⟩
      rw [if_neg fun hc => hc.1 hL, if_pos ⟨hL, hB⟩]
      exact instructionStm1_logs h p ins
    · refine ⟨_, armLoadStoreMultiple_load h p hL hB, ?_⟩
      have hmem : (ldmState h p ins).mem = p.mem := by
        unfold ldmState ldmRegisters
        simp only
        split_ifs <;> simp
      rw [if_pos ⟨hL, hB⟩, hmem]
      exact instructionLdm1_logs h p ins
  · refine ⟨(UNDEFINED_INSTRUCTION, p), ?_, ?_⟩
    · rw [armLoadStoreMultiple, if_neg fun hc => hB hc.2, if_neg fun hc => hB hc.2]
    · rw [if_neg fun hc => hB hc.2, if_neg fun hc => hB hc.2]
      exact .nil ..

/-- A handler logs what it does to the memory. -/
theorem dispatch_logs :
    ∃ o, dispatch h p ins = .ok o ∧ Logs h.endianess p.mem (dispatchTrace h p ins) o.2.mem := by
  have hkeeps : ∀ {o : Int × ArmCore}, o.2.mem = p.mem → Logs h.endianess p.mem [] o.2.mem := by
    intro o hmem
    rw [hmem]
    exact .nil ..
  have hdp : insClass ins = .dpShift ∨ insClass ins = .dpImmediate →
      ∃ o, dispatch h p ins = .ok o ∧ Logs h.endianess p.mem [] o.2.mem := by
    intro hc
    obtain ⟨sv, -, hd⟩ := dispatch_dataProcessing h p hc
    exact ⟨_, hd, hkeeps (dataProcessing_mem p ins sv)⟩
  unfold dispatchTrace
  cases hc : insClass ins with
  | dpShift => exact hdp (.inl hc)
  | dpImmediate => exact hdp (.inr hc)
  | loadStore =>
      rw [dispatch_eq, hc]
      exact ⟨_, rfl, armLoadStore_logs h p ins⟩
  | loadStoreMultiple =>
      rw [dispatch_eq, hc]
      exact armLoadStoreMultiple_logs h p ins
  | miscellaneous =>
      rw [dispatch_eq, hc]
      exact ⟨_, rfl, hkeeps (armMiscellaneous_mem p ins)⟩
  | branch =>
      rw [dispatch_eq, hc]
      exact ⟨_, rfl, hkeeps (armBranch_mem p ins)⟩
  | coprocessorLoadStore =>
      rw [dispatch_eq, hc]
      exact ⟨_, rfl, .nil ..⟩
  | othersSwi =>
      rw [dispatch_eq, hc]
      exact ⟨_, rfl, .nil ..⟩

theorem armException_logs (exception : Byte) :
    Logs h.endianess p.mem (armExceptionTrace h p exception)
      (armException h p exception).2.mem := by
  rw [armException_mem]
  unfold armExceptionTrace
  split_ifs
  · exact logs_armReadWord h p _ _
  · exact .nil ..

theorem armFetch_logs : Logs h.endianess p.mem [armFetchTrace h p] p.mem := by
  have hread : Logs h.endianess p.mem [⟨p.cycleCount + 1, .read, 4, .opcodeFetch,
      registersRead p.reg 15 (registersGetMode p.reg),
      (armFetch h p (h.garbage .ins)).2.2.setWidth 32⟩] p.mem :=
    logs_memoryReadBytes (p.cycleCount + 1) .opcodeFetch _ (n := 4) (by decide) h.isBigEndian
      (fun i => (h.garbage (.fetchBytes i)).setWidth 8) (h.garbage .ins)
  rwa [BitVec.setWidth_eq] at hread

end Handlers

/-! ## Steps and runs -/

section Runs

variable (h : Host) {p q : ArmCore} {log : List TracedAccess}

theorem armStep_logs {r : Int} {p' : ArmCore} (hstep : armStep h p = .ok (r, p')) :
    Logs h.endianess p.mem (armStepTrace h p) p'.mem := by
  -- up to the exception
  have hexecute : ∃ o, armExecuteInstruction h p = .ok o ∧
      Logs h.endianess p.mem
        (if (fetchRead h p).1 = 0 ∧ armCondition (fetched p) (fetchRead h p).2 = true then
          dispatchTrace h (fetched p) (fetchRead h p).2 else []) o.2.mem := by
    simp only [armExecuteInstruction, armFetch_eq]
    by_cases hr : (fetchRead h p).1 = 0
    · by_cases hc : armCondition (fetched p) (fetchRead h p).2 = true
      · obtain ⟨o, ho, hlogs⟩ := dispatch_logs h (fetched p) (fetchRead h p).2
        refine ⟨o, ?_, ?_⟩
        · rw [if_neg (not_not.mpr hr), if_pos hc, ho]
        · rw [if_pos ⟨hr, hc⟩]
          exact hlogs
      · refine ⟨(0, fetched p), ?_, ?_⟩
        · rw [if_neg (not_not.mpr hr), if_neg hc]
        · rw [if_neg fun hh => hc hh.2]
          exact .nil ..
    · refine ⟨(-1, fetched p), ?_, ?_⟩
      · rw [if_pos hr]
      · rw [if_neg fun hh => hr hh.1]
        exact .nil ..
  obtain ⟨⟨result, p₁⟩, ho, hlogs⟩ := hexecute
  unfold armStepTrace
  simp only [armFetch_eq, ho]
  refine (armFetch_logs h p).append (hlogs.append ?_)
  rw [armStep, ho] at hstep
  simp only at hstep
  split_ifs at hstep ⊢
  · obtain ⟨-, rfl⟩ := Prod.mk.inj (Except.ok.inj hstep)
    exact armException_logs h p₁ _
  · obtain ⟨-, rfl⟩ := Prod.mk.inj (Except.ok.inj hstep)
    exact .nil ..

theorem TracedRun.logs (hrun : TracedRun h p log q) : Logs h.endianess p.mem log q.mem := by
  induction hrun with
  | nil p => exact .nil ..
  | step hstep _ ih => exact (armStep_logs h hstep).append ih
  | @exception p q log number _ ih => exact (armException_logs h p number).append ih

/-- Over every run of steps and exceptions the trace tells what the memory
has become, and each byte that a traced read has found is the one that was
traced as written last, or else the one that was there. -/
theorem memory_trace_history (hrun : TracedRun h p log q) :
    q.mem.size = p.mem.size ∧
    q.mem.byteAt
      = replay p.mem.byteAt (log.flatMap (TracedAccess.written h.endianess p.mem.size)) ∧
    ∀ before t after, log = before ++ t :: after → t.type = .read →
      ∀ e ∈ t.entries h.endianess p.mem.size,
        replay p.mem.byteAt (before.flatMap (TracedAccess.written h.endianess p.mem.size)) e.1
          = e.2 := by
  obtain ⟨hsize, hhistory⟩ := hrun.logs
  have hwritten : ∀ l : List TracedAccess,
      (l.map (TracedAccess.access h.endianess p.mem.size)).flatMap Access.written
        = l.flatMap (TracedAccess.written h.endianess p.mem.size) := by
    intro l
    rw [List.flatMap_map]
    rfl
  refine ⟨hsize, ?_, ?_⟩
  · rw [hhistory.end_eq, hwritten]
  · rintro before t after rfl hread e he
    have haccess : t.access h.endianess p.mem.size = .read (t.entries h.endianess p.mem.size) := by
      rw [TracedAccess.access, hread]
    rw [List.map_append, List.map_cons, haccess] at hhistory
    rw [← hwritten]
    exact hhistory.read_eq he

end Runs

/-- `STR r1, [r0]` and `LDR r2, [r0]`, across the end of the memory. -/
def storing : ArmCore :=
  armWriteRegister (armWriteRegister (booted 16 [0xE5801000, 0xE5902000]) 0 14) 1 0x01020304

def storedWord : ArmCore := stepped x86Host storing

theorem storing_runs :
    TracedRun x86Host storing
      (armStepTrace x86Host storing ++ (armStepTrace x86Host storedWord ++ []))
      (stepped x86Host storedWord) := by
  obtain ⟨r, hstr⟩ := armStep_stepped x86Host storing
  obtain ⟨r', hldr⟩ := armStep_stepped x86Host storedWord
  exact .step hstr (.step hldr (.nil _))

theorem memory_trace_history_storing :
    (stepped x86Host storedWord).mem.size = storing.mem.size ∧
    (stepped x86Host storedWord).mem.byteAt = replay storing.mem.byteAt
      ((armStepTrace x86Host storing ++ (armStepTrace x86Host storedWord ++ [])).flatMap
        (TracedAccess.written 0 storing.mem.size)) ∧
    ∀ before t after,
      armStepTrace x86Host storing ++ (armStepTrace x86Host storedWord ++ [])
          = before ++ t :: after →
        t.type = .read → ∀ e ∈ t.entries 0 storing.mem.size,
          replay storing.mem.byteAt (before.flatMap (TracedAccess.written 0 storing.mem.size)) e.1
            = e.2 :=
  memory_trace_history x86Host storing_runs

/-- Two of the four bytes are in the memory, and they are read back. -/
example : (armStepTrace x86Host storedWord).flatMap (TracedAccess.entries 0 16)
    = [(4, 0), (5, 0x20), (6, 0x90), (7, 0xE5), (14, 4), (15, 3)] := by decide +kernel

/-- The trace file of a run and the memory at its start determine the memory
at its end: two runs of one build, on whatever hosts and whatever else they
start from, that begin with one memory and leave one file end with one
memory. -/
theorem trace_file_memory {h h' : Host} {p p' q q' : ArmCore} {log log' : List TracedAccess}
    (hbuild : h'.endianess = h.endianess) (hmem : p'.mem = p.mem) (hrun : TracedRun h p log q)
    (hrun' : TracedRun h' p' log' q') (hfile : traceFile log' = traceFile log) :
    q'.mem = q.mem := by
  obtain rfl := traceFile_injective hfile
  obtain ⟨hsize, hhistory⟩ := hrun.logs
  obtain ⟨hsize', hhistory'⟩ := hrun'.logs
  rw [hmem] at hsize' hhistory'
  rw [hbuild] at hhistory'
  exact Memory.ext_byteAt (hsize'.trans hsize.symm)
    (hhistory'.end_eq.trans hhistory.end_eq.symm)

/-- The same on another host, with something else in r5. -/
def storingElsewhere : ArmCore := armWriteRegister storing 5 7

/-- The file that `STR r1, [r0]` leaves. -/
def storedFile : Text :=
  bytes "Cycle 1, Mem read (4 bytes, fetch) addr: 00000000, val: E5801000\n" ++
    bytes "Cycle 1, Mem write (4 bytes) addr: 0000000E, val: 01020304\n"

theorem traceFile_storing : traceFile (armStepTrace x86Host storing ++ []) = storedFile := by
  decide +kernel

theorem traceFile_storingElsewhere :
    traceFile (armStepTrace bigEndianHost storingElsewhere ++ []) = storedFile := by
  decide +kernel

theorem trace_file_memory_storing :
    (stepped bigEndianHost storingElsewhere).mem = storedWord.mem := by
  obtain ⟨r, hstr⟩ := armStep_stepped x86Host storing
  obtain ⟨r', hstr'⟩ := armStep_stepped bigEndianHost storingElsewhere
  have hrun : TracedRun x86Host storing (armStepTrace x86Host storing ++ []) storedWord :=
    .step hstr (.nil _)
  have hrun' : TracedRun bigEndianHost storingElsewhere
      (armStepTrace bigEndianHost storingElsewhere ++ [])
      (stepped bigEndianHost storingElsewhere) := .step hstr' (.nil _)
  have hmem : storingElsewhere.mem = storing.mem := armWriteRegister_mem ..
  have hbuild : bigEndianHost.endianess = x86Host.endianess := rfl
  exact trace_file_memory hbuild hmem hrun hrun'
    (traceFile_storingElsewhere.trans traceFile_storing.symm)

end Armator
