/-
What a packet can do to the server.

Three handlers trust what they scan.  `p` and `P` assert that the number of
a register is below 16, although gdb has more registers than that, and `P`
and `X` use what `index` returns without a look at it.  A packet that is
correct in every other respect ends the simulator there.  The other failures
are of another kind: `G` and `X` read on past the end of a short packet, `m`
writes past the end of the reply, and `c` runs as long as the program does.

Each handler is shown to return, or to end in exactly one of these ways,
by a condition on its text and the memory (`Harmless`, `InBounds`); the
packets that are handled are those that meet both
(`packet_handled_iff`).
-/
import Armator.Gdb.Continue
import Armator.Gdb.MemoryTransfer
import Armator.Gdb.RegisterTransfer
import Armator.Lib.Outcomes

namespace Armator

open CText Outcomes

/-! ## Registers -/

section Registers

variable (h : GdbHost) (gdb : GdbProtocolData) {data : Text}

/-- The register number in a `p` packet. -/
def readNumber (data : Text) : Byte := (atoi data).setWidth 8

/-- A number below 16 is answered by the register. -/
theorem readSingleRegister_sent (hreg : (readNumber data).toNat < 16) :
    Transmits gdb (hexText 8 (gdb.register ⟨(readNumber data).toNat, hreg⟩).toNat)
      (readSingleRegister gdb data) := by
  have hlen := length_hexText 8 (gdb.register ⟨(readNumber data).toNat, hreg⟩).toNat
  obtain ⟨gdb₁, hput, honly, hs⟩ := gdb.put_holds 1
    (hexText 8 (gdb.register ⟨(readNumber data).toNat, hreg⟩).toNat) (by omega)
  have hread : readSingleRegister gdb data = gdbSendBuffer gdb₁ := by
    show (readRegister gdb 1 (readNumber data) >>= gdbSendBuffer) = _
    rw [readRegister, dif_pos hreg, writeUint32, hput, ok_bind]
  rw [hread]
  exact (gdbSendBuffer_spec hs (digits_hexText (by decide) _).nul_notMem (by omega)).of_onlyPacket
    honly

theorem readSingleRegister_assertion (hreg : ¬ (readNumber data).toNat < 16) :
    readSingleRegister gdb data = .error .assertion := by
  show (readRegister gdb 1 (readNumber data) >>= gdbSendBuffer) = _
  rw [readRegister, dif_neg hreg]
  rfl

/-- The register number in a `P` packet, or what was in its place. -/
def writeNumber (data : Text) : Word := stored (sscanf [.hex none] data) 0 (h.gdbGarbage .reg)

theorem writeSingleRegister_nullIndex (hi : index (ch '=') data = none) :
    writeSingleRegister h gdb data = .error .nullIndex := by
  rw [writeSingleRegister, hi]

/-- The value is looked for before the NUL that ends the payload, so there
is text behind the `=`. -/
theorem readUint32_behind {c : Byte} {found : Text} (hc : c ≠ 0) (h0 : (0 : Byte) ∈ data)
    (hi : index c data = some found) : ∃ value, readUint32 h (found.drop 1) = .ok value := by
  obtain ⟨front, rest, rfl, rfl, hfront⟩ := index_eq_some hi
  have hrest : rest ≠ [] := by
    rintro rfl
    rw [List.mem_append, List.mem_singleton] at h0
    exact h0.elim hfront (Ne.symm hc)
  rw [List.drop_succ_cons, List.drop_zero, readUint32, if_neg hrest]
  exact ⟨_, rfl⟩

theorem writeSingleRegister_ok (hopen : gdb.shut = false) (h0 : (0 : Byte) ∈ data) {found : Text}
    (hi : index (ch '=') data = some found) (hreg : (writeNumber h data).toNat < 16) :
    ∃ gdb', writeSingleRegister h gdb data = .ok gdb' := by
  obtain ⟨value, hvalue⟩ := readUint32_behind h (by decide) h0 hi
  rw [writeNumber] at hreg
  rw [writeSingleRegister, hi]
  simp only [writeRegister, hvalue, ok_bind, dif_pos hreg]
  refine gdbSendData_ok ?_ (s := bytes "OK") (by decide)
  exact hopen

theorem writeSingleRegister_assertion (h0 : (0 : Byte) ∈ data) {found : Text}
    (hi : index (ch '=') data = some found) (hreg : ¬ (writeNumber h data).toNat < 16) :
    writeSingleRegister h gdb data = .error .assertion := by
  obtain ⟨value, hvalue⟩ := readUint32_behind h (by decide) h0 hi
  rw [writeNumber] at hreg
  rw [writeSingleRegister, hi]
  simp only [writeRegister, hvalue, ok_bind, dif_neg hreg]
  rfl

theorem writeRegister_ok {i : Nat} (hi : i < 16) (hd : data ≠ []) :
    ∃ gdb', writeRegister h gdb (BitVec.ofNat 32 i) data = .ok gdb' ∧ gdb'.shut = gdb.shut := by
  have hreg : (BitVec.ofNat 32 i).toNat < 16 := by
    rw [BitVec.toNat_ofNat]
    omega
  rw [writeRegister, readUint32, if_neg hd, ok_bind, dif_pos hreg]
  exact ⟨_, rfl, rfl⟩

theorem writeGeneralRegisters_ok (hopen : gdb.shut = false) (hlen : 328 < data.length) :
    ∃ gdb', writeGeneralRegisters h gdb data = .ok gdb' := by
  have hdrop : ∀ n ≤ 328, data.drop n ≠ [] := by
    intro n hn hnil
    rw [List.drop_eq_nil_iff] at hnil
    omega
  have hturns : ComesTo (fun gdb' => gdb'.shut = false) (fun _ => False) ((List.range 16).foldlM
      (fun gdb i => writeRegister h gdb (BitVec.ofNat 32 i) (data.drop (8 * i))) gdb) := by
    refine comesTo_foldlM hopen fun i hi gdb hopen => ?_
    have hi16 := List.mem_range.mp hi
    obtain ⟨gdb', hok, hshut⟩ := writeRegister_ok h gdb hi16 (hdrop (8 * i) (by omega))
    rw [hok]
    exact hshut.trans hopen
  obtain ⟨gdb₁, hloop, hopen₁⟩ := hturns.exists_ok
  rw [writeGeneralRegisters, hloop, ok_bind, readUint32, if_neg (hdrop _ (by decide)), ok_bind]
  refine gdbSendData_ok ?_ (s := bytes "OK") (by decide)
  exact hopen₁

theorem writeGeneralRegisters_outOfBounds (hlen : ¬ 328 < data.length) :
    writeGeneralRegisters h gdb data = .error .outOfBounds := by
  have hturns : ComesTo (fun _ => True) (· = NoReturn.outOfBounds) ((List.range 16).foldlM
      (fun gdb i => writeRegister h gdb (BitVec.ofNat 32 i) (data.drop (8 * i))) gdb) := by
    refine comesTo_foldlM trivial fun i hi gdb _ => ?_
    by_cases hd : data.drop (8 * i) = []
    · rw [writeRegister, readUint32, if_pos hd]
      rfl
    · obtain ⟨gdb', hok, -⟩ := writeRegister_ok h gdb (List.mem_range.mp hi) hd
      rw [hok]
      trivial
  have hnil : data.drop (8 * (16 + 8 * 3 + 1)) = [] := by
    rw [List.drop_eq_nil_iff]
    omega
  rw [writeGeneralRegisters]
  rcases hturns.cases with ⟨gdb₁, hloop, -⟩ | ⟨_, hloop, rfl⟩
  · rw [hloop, ok_bind, readUint32, if_pos hnil]
    rfl
  · rw [hloop]
    rfl

end Registers

/-! ## Writing memory -/

/-- The bytes a text holds as the content of an `X` packet; `}` and the
byte after it count as one. -/
def contentLength : Text → Nat
  | [] => 0
  | [c] => if c = 0x7d then 0 else 1
  | c :: d :: content =>
      if c = 0x7d then contentLength content + 1 else contentLength (d :: content) + 1

/-- There is a byte to take, or the text is used up. -/
theorem nextContent_cases (content : Text) :
    (nextContent (some content) = .error .outOfBounds ∧ contentLength content = 0) ∨
      ∃ value content', nextContent (some content) = .ok (value, some content') ∧
        contentLength content = contentLength content' + 1 := by
  cases content with
  | nil => exact Or.inl ⟨rfl, rfl⟩
  | cons c content =>
      by_cases hc : c = 0x7d
      · subst hc
        cases content with
        | nil => exact Or.inl ⟨rfl, rfl⟩
        | cons d content => exact Or.inr ⟨d ^^^ 0x20, content, rfl, rfl⟩
      · refine Or.inr ⟨c, content, nextContent_plain hc content, ?_⟩
        cases content with
        | nil => exact if_neg hc
        | cons d content => exact if_neg hc

/-- The bytes the loop takes from the content: as many as asked for, up to
the first that does not fit into the memory. -/
def bytesTaken (mem : Memory) (address : Word) (size : Nat) : Nat :=
  min size (mem.size.toNat - address.toNat + 1)

theorem bytesTaken_succ {mem : Memory} {address : Word} (ha : address.toNat < mem.size.toNat)
    (size : Nat) :
    bytesTaken mem address (size + 1) = bytesTaken mem (address + 1) size + 1 := by
  rw [bytesTaken, bytesTaken, toNat_add_one ha]
  omega

/-- The loop returns exactly if the content holds what it takes. -/
theorem writeMemoryLoop_outcome (mem : Memory) (address : Word) (content : Text) (size : Nat) :
    (bytesTaken mem address size ≤ contentLength content ∧
        ∃ o, writeMemoryLoop mem address (some content) size = .ok o) ∨
      (¬ bytesTaken mem address size ≤ contentLength content ∧
        writeMemoryLoop mem address (some content) size = .error .outOfBounds) := by
  induction size generalizing mem address content with
  | zero => exact Or.inl ⟨by rw [bytesTaken, Nat.zero_min]; exact Nat.zero_le _, _, rfl⟩
  | succ size ih =>
      rcases nextContent_cases content with ⟨hnext, hzero⟩ | ⟨value, content', hnext, hlen⟩
      · refine Or.inr ⟨?_, ?_⟩
        · rw [hzero, bytesTaken]
          omega
        · rw [writeMemoryLoop, hnext]
          rfl
      · by_cases ha : address.toNat < mem.size.toNat
        · have hloop := writeMemoryLoop_succ ha hnext size
          have hsize : bytesTaken (memoryWriteByte mem address value).2 (address + 1) size
              = bytesTaken mem (address + 1) size := by
            rw [bytesTaken, memoryWriteByte_size, bytesTaken]
          have := ih (memoryWriteByte mem address value).2 (address + 1) content'
          rwa [hsize, ← hloop, ← Nat.succ_le_succ_iff, Nat.succ_eq_add_one, Nat.succ_eq_add_one,
            ← bytesTaken_succ ha, ← hlen] at this
        · -- the byte that ends the loop has been taken, too
          refine Or.inl ⟨?_, (false, mem), ?_⟩
          · rw [hlen, bytesTaken]
            omega
          · rw [writeMemoryLoop, hnext, ok_bind]
            simp only [memoryWriteByte, dif_neg ha]
            rfl

section Memory

variable (h : GdbHost) (gdb : GdbProtocolData) (data : Text)

/-- The bytes `write_memory_binary` takes from the content: none where it
does not accept the address. -/
def contentTaken (mem : Memory) : Nat :=
  if (transferAddress h data .writeMemoryBinary).setWidth 64 < memoryGetSize mem then
    bytesTaken mem (transferAddress h data .writeMemoryBinary)
      (transferSize h data .writeMemoryBinary)
  else 0

variable {h gdb data}

theorem writeMemoryBinary_ok (hopen : gdb.shut = false)
    (hcolon : contentTaken h data gdb.arm.mem ≠ 0 → index (ch ':') data ≠ none)
    (hcontent : ∀ found, index (ch ':') data = some found →
      contentTaken h data gdb.arm.mem ≤ contentLength (found.drop 1)) :
    ∃ gdb', writeMemoryBinary h gdb data = .ok gdb' := by
  have hreturns : ∃ written, transferWrite h data gdb.arm.mem = .ok written := by
    unfold contentTaken at hcolon hcontent
    unfold transferWrite transferContent
    split_ifs with ha
    · rw [if_pos ha] at hcolon hcontent
      cases hi : index (ch ':') data with
      | none =>
          have hzero : transferSize h data .writeMemoryBinary = 0 := by
            by_contra hne
            refine hcolon ?_ hi
            rw [bytesTaken]
            omega
          rw [hzero]
          exact ⟨_, rfl⟩
      | some found =>
          rcases writeMemoryLoop_outcome gdb.arm.mem (transferAddress h data .writeMemoryBinary)
            (found.drop 1) (transferSize h data .writeMemoryBinary) with hloop | ⟨hle, -⟩
          · exact hloop.2
          · exact absurd (hcontent found hi) hle
    · exact ⟨_, rfl⟩
  obtain ⟨written, hwrite⟩ := hreturns
  obtain ⟨gdb', hrun, -⟩ := (writeMemoryBinary_sent hwrite).ok hopen
  exact ⟨gdb', hrun⟩

theorem writeMemoryBinary_nullIndex (htaken : contentTaken h data gdb.arm.mem ≠ 0)
    (hi : index (ch ':') data = none) :
    writeMemoryBinary h gdb data = .error .nullIndex := by
  refine writeMemoryBinary_error ?_
  unfold contentTaken at htaken
  split_ifs at htaken with ha
  · obtain ⟨size, hsize⟩ : ∃ size, transferSize h data .writeMemoryBinary = size + 1 := by
      refine Nat.exists_eq_succ_of_ne_zero ?_
      intro hzero
      rw [hzero, bytesTaken, Nat.zero_min] at htaken
      exact htaken rfl
    rw [transferWrite, if_pos ha, transferContent, hi, hsize]
    rfl
  · exact absurd rfl htaken

theorem writeMemoryBinary_outOfBounds {found : Text} (hi : index (ch ':') data = some found)
    (hcontent : ¬ contentTaken h data gdb.arm.mem ≤ contentLength (found.drop 1)) :
    writeMemoryBinary h gdb data = .error .outOfBounds := by
  refine writeMemoryBinary_error ?_
  unfold contentTaken at hcontent
  split_ifs at hcontent with ha
  · rcases writeMemoryLoop_outcome gdb.arm.mem (transferAddress h data .writeMemoryBinary)
      (found.drop 1) (transferSize h data .writeMemoryBinary) with ⟨hle, -⟩ | ⟨-, hloop⟩
    · exact absurd hle hcontent
    · rw [transferWrite, if_pos ha, transferContent, hi]
      exact hloop
  · exact absurd (Nat.zero_le _) hcontent

end Memory

/-! ## Reading memory -/

/-- What does not leave four bytes for the frame, and the NUL, is not sent. -/
theorem gdbSendBuffer_outOfBounds {gdb : GdbProtocolData} {s : Text} (hs : gdb.Holds 1 s)
    (h0 : (0 : Byte) ∉ s) (hgt : ¬ s.length ≤ 4091) :
    gdbSendBuffer gdb = .error .outOfBounds := by
  obtain ⟨packet, rest, -, heq⟩ := gdbSendBuffer_eq hs h0
  -- the digits of the sum no longer fit
  have hdigits : packet.write (ch '$' :: s ++ [ch '#']).length
      (hexText 2 (checksum s).toNat ++ [0]) = .error .outOfBounds := by
    refine packet.write_of_gt ?_
    simp only [List.length_append, List.length_cons, List.length_nil, length_hexText]
    omega
  rw [heq, hdigits]
  rfl

theorem GdbProtocolData.put_outOfBounds (gdb : GdbProtocolData) {pos : Nat} {s : Text}
    (hgt : ¬ pos + s.length + 1 ≤ 4096) : gdb.put pos s = .error .outOfBounds := by
  rw [put, gdb.packet.write_of_gt]
  · rfl
  · rw [List.length_append, List.length_singleton]
    omega

/-- The digits are put into the reply and sent exactly if they fit. -/
theorem readMemoryLoop_outcome (h : GdbHost) {gdb : GdbProtocolData} {s : Text}
    (hs : gdb.Holds 1 s) (h0 : (0 : Byte) ∉ s) (address : Word) (size : Nat) :
    (s.length + 2 * (memoryText gdb.arm.mem address size).length ≤ 4091 ∧
        Transmits gdb (s ++ hexBytes (memoryText gdb.arm.mem address size))
          (readMemoryLoop h gdb address (1 + s.length) size >>= gdbSendBuffer)) ∨
      (¬ s.length + 2 * (memoryText gdb.arm.mem address size).length ≤ 4091 ∧
        readMemoryLoop h gdb address (1 + s.length) size >>= gdbSendBuffer
          = .error .outOfBounds) := by
  by_cases hle : s.length + 2 * (memoryText gdb.arm.mem address size).length ≤ 4091
  · obtain ⟨gdb₁, hloop, honly, hs₁⟩ :=
      readMemoryLoop_spec h hs (a := address) (n := size) (by omega)
    have hsends := gdbSendBuffer_spec hs₁ (by
      rw [List.mem_append, not_or]
      exact ⟨h0, hexBytes_nul_notMem _⟩) (by
      rw [List.length_append, length_hexBytes]
      exact hle)
    rw [hloop, ok_bind]
    exact Or.inl ⟨hle, hsends.of_onlyPacket honly⟩
  · refine Or.inr ⟨hle, ?_⟩
    -- `s` grows by what each turn writes, so the sum of lengths stays
    induction size generalizing gdb s address with
    | zero => exact gdbSendBuffer_outOfBounds hs h0 hle
    | succ size ih =>
        rw [memoryText] at hle
        by_cases ha : address.toNat < gdb.arm.mem.size.toNat
        · rw [if_pos ha, List.length_cons] at hle
          rw [readMemoryLoop_succ h ha]
          by_cases hput : 1 + s.length + (hexText 2 (gdb.arm.mem.byteAt address).toNat).length + 1
              ≤ 4096
          · obtain ⟨gdb₁, hput, honly, hs₁⟩ := hs.begins.put _ hput
            have hlen : 1 + s.length + 2
                = 1 + (s ++ hexText 2 (gdb.arm.mem.byteAt address).toNat).length := by
              rw [List.length_append, length_hexText, Nat.add_assoc]
            rw [hput, ok_bind, hlen]
            refine ih hs₁ ?_ (address + 1) ?_
            · rw [List.mem_append, not_or]
              exact ⟨h0, (digits_hexText (by decide) _).nul_notMem⟩
            · rw [honly.arm, List.length_append, length_hexText]
              omega
          · rw [gdb.put_outOfBounds hput]
            rfl
        · rw [if_neg ha, List.length_nil] at hle
          rw [readMemoryLoop_end h ha, ok_bind]
          exact gdbSendBuffer_outOfBounds hs h0 hle

theorem length_memoryText (mem : Memory) (address : Word) (size : Nat) :
    (memoryText mem address size).length = min size (mem.size.toNat - address.toNat) := by
  induction size generalizing address with
  | zero => rw [memoryText, List.length_nil, Nat.zero_min]
  | succ size ih =>
      rw [memoryText]
      split_ifs with ha
      · rw [List.length_cons, ih, toNat_add_one ha]
        omega
      · rw [List.length_nil]
        omega

section Memory

variable (h : GdbHost) (gdb : GdbProtocolData) (data : Text)

/-- The bytes `read_memory` answers. -/
def bytesRead (mem : Memory) : Nat :=
  min (transferSize h data .readMemory)
    (mem.size.toNat - (transferAddress h data .readMemory).toNat)

/-- The reply to `m`. -/
def memoryReply (mem : Memory) : Text :=
  if (transferAddress h data .readMemory).setWidth 64 < memoryGetSize mem then
    hexBytes (memoryText mem (transferAddress h data .readMemory)
      (transferSize h data .readMemory))
  else bytes "E0E"

/-- `m` is answered exactly if the digits fit into the reply. -/
theorem readMemory_outcome :
    (2 * bytesRead h data gdb.arm.mem ≤ 4091 ∧
        Transmits gdb (memoryReply h data gdb.arm.mem) (readMemory h gdb data)) ∨
      (¬ 2 * bytesRead h data gdb.arm.mem ≤ 4091 ∧
        readMemory h gdb data = .error .outOfBounds) := by
  by_cases ha : (transferAddress h data .readMemory).setWidth 64 < memoryGetSize gdb.arm.mem
  · obtain ⟨gdb₁, hput, honly, hs₁⟩ := gdb.put_holds 1 [] (by decide)
    have heq : readMemory h gdb data
        = readMemoryLoop h gdb₁ (transferAddress h data .readMemory) (1 + ([] : Text).length)
            (transferSize h data .readMemory) >>= gdbSendBuffer := by
      rw [readMemory_eq, if_pos ha, hput, ok_bind, List.length_nil]
    have hloop := readMemoryLoop_outcome h hs₁ List.not_mem_nil
      (transferAddress h data .readMemory) (transferSize h data .readMemory)
    rw [← heq, List.length_nil, Nat.zero_add, List.nil_append, honly.arm, length_memoryText]
      at hloop
    rw [memoryReply, if_pos ha]
    exact hloop.imp_left fun hfits => ⟨hfits.1, hfits.2.of_onlyPacket honly⟩
  · have hge : gdb.arm.mem.size.toNat ≤ (transferAddress h data .readMemory).toNat :=
      Nat.not_lt.mp fun hlt => ha (lt_memoryGetSize hlt)
    refine Or.inl ⟨?_, ?_⟩
    · rw [bytesRead]
      omega
    · rw [readMemory_eq, memoryReply, if_neg ha, if_neg ha]
      exact gdbSendData_spec gdb (by decide) (by decide)

/-- Every index `read_memory` and `gdb_send_buffer` write is inside the
packet exactly if at most 2045 bytes are asked for, or left in the memory:
the last index is that of the NUL, four after the digits.  On an open
connection these are the requests that are answered. -/
theorem reply_fits_iff :
    (gdb.shut = false →
      ((∃ gdb', readMemory h gdb data = .ok gdb') ↔ bytesRead h data gdb.arm.mem ≤ 2045)) ∧
    (readMemory h gdb data ≠ .error .outOfBounds ↔ bytesRead h data gdb.arm.mem ≤ 2045) := by
  rcases readMemory_outcome h gdb data with ⟨hfit, hsends⟩ | ⟨hfit, hfail⟩
  · have hle : bytesRead h data gdb.arm.mem ≤ 2045 := by omega
    refine ⟨fun hopen => ?_, iff_of_true (fun hfail => ?_) hle⟩
    · obtain ⟨gdb', hok, -⟩ := hsends.ok hopen
      exact iff_of_true ⟨gdb', hok⟩ hle
    · cases hshut : gdb.shut with
      | true => exact nomatch (hsends.error hshut).symm.trans hfail
      | false =>
          obtain ⟨gdb', hok, -⟩ := hsends.ok hshut
          exact nomatch hok.symm.trans hfail
  · have hgt : ¬ bytesRead h data gdb.arm.mem ≤ 2045 := by omega
    refine ⟨fun _ => iff_of_false ?_ hgt, iff_of_false (not_not.mpr hfail) hgt⟩
    rintro ⟨gdb', hok⟩
    exact nomatch hok.symm.trans hfail

end Memory

/-- A server with a memory of 4096 bytes. -/
def serving4096 : GdbProtocolData :=
  { holdingOk with arm := armCreate x86Host registersCreate (memoryCreate 4096 fun _ => 0) }

theorem reply_fits_iff_serving4096 :
    (∃ gdb', readMemory x86GdbHost serving4096 (bytes "0,7fe") = .ok gdb') ↔
      bytesRead x86GdbHost (bytes "0,7fe") serving4096.arm.mem ≤ 2045 :=
  (reply_fits_iff x86GdbHost serving4096 (bytes "0,7fe")).1 rfl

/-- `m0,7fe` asks for 2046 bytes. -/
theorem reply_astray :
    bytesRead x86GdbHost (bytes "0,7fe") serving4096.arm.mem = 2046 ∧
    readMemory x86GdbHost serving4096 (bytes "0,7fe") = .error .outOfBounds := by
  have hread : bytesRead x86GdbHost (bytes "0,7fe") serving4096.arm.mem = 2046 := by
    decide +kernel
  refine ⟨hread, ?_⟩
  rcases readMemory_outcome x86GdbHost serving4096 (bytes "0,7fe") with ⟨hfit, -⟩ | ⟨-, hfail⟩
  · rw [hread] at hfit
    exact absurd hfit (by decide)
  · exact hfail

/-! ## Continuing -/

section Continue

variable {h : GdbHost} {gdb : GdbProtocolData} {data : Text}

/-- Stepped on, the program comes to a breakpoint or an exception. -/
def ComesToStop (h : GdbHost) (gdb : GdbProtocolData) : Prop :=
  ∃ k s, s 0 = gdb ∧ FirstStop (singleStep h) gdb.table.Holds s k

theorem cont_ok_iff (hopen : gdb.shut = false) (hsorted : gdb.table.Sorted) :
    (∃ turns gdb', cont h turns gdb data = .ok gdb') ↔ ComesToStop h gdb := by
  constructor
  · rintro ⟨turns, gdb', hcont⟩
    cases hloop : contLoop h turns gdb with
    | error e =>
        rw [cont, hloop] at hcont
        cases hcont
    | ok gdb₁ =>
        obtain ⟨k, s, hs0, hfirst, -⟩ :=
          firstStop_of_contLoop h (runsLikeStep_singleStep h) hsorted hopen (.refl gdb) hloop
        exact ⟨k, s, hs0, hfirst⟩
  · rintro ⟨k, s, hs0, hfirst⟩
    have hloop := contLoop_of_firstStop h hsorted hs0 hfirst
    obtain ⟨_, hsends⟩ := gdbSendStopReason_spec (s k)
    obtain ⟨gdb', hsend, -⟩ := hsends.ok ((contLoop_shut hloop).trans hopen)
    exact ⟨k, gdb', by rw [cont, hloop, ok_bind, hsend]⟩

/-- As long as the loop has not ended it is running. -/
theorem contLoop_ok_or_running (turns : ℕ) (hsorted : gdb.table.Sorted) :
    (∃ gdb', contLoop h turns gdb = .ok gdb') ∨ contLoop h turns gdb = .error .running := by
  induction turns generalizing gdb with
  | zero => exact Or.inr rfl
  | succ turns ih =>
      obtain ⟨r, arm, -, hstep⟩ := singleStep_spec h gdb
      obtain ⟨htable, hstop, hgo⟩ := contLoop_succ h turns hsorted hstep
      by_cases hst : Stopped gdb.table.Holds { gdb with arm := arm, targetException := r }
      · exact Or.inl ⟨_, hstop hst⟩
      · rw [hgo hst]
        exact ih hsorted

theorem cont_ok_or_running (turns : ℕ) (hopen : gdb.shut = false) (hsorted : gdb.table.Sorted) :
    (∃ gdb', cont h turns gdb data = .ok gdb') ∨ cont h turns gdb data = .error .running := by
  rcases contLoop_ok_or_running (h := h) turns hsorted with ⟨gdb₁, hloop⟩ | hloop
  · obtain ⟨_, hsends⟩ := gdbSendStopReason_spec gdb₁
    obtain ⟨gdb', hsend, -⟩ := hsends.ok ((contLoop_shut hloop).trans hopen)
    exact Or.inl ⟨gdb', by rw [cont, hloop, ok_bind, hsend]⟩
  · refine Or.inr ?_
    rw [cont, hloop]
    rfl

end Continue

/-! ## Packets -/

/-- The handler of a letter, run. -/
def handleLetter (h : GdbHost) (turns : ℕ) (gdb : GdbProtocolData) (letter : Byte)
    (data : Text) : Except NoReturn GdbProtocolData :=
  match gdbHandler h turns letter with
  | some handler => handler gdb data
  | none => gdbSendData gdb []

/-- The letter of a packet; an empty one has the NUL after it. -/
def PacketToken.letter (p : PacketToken) : Byte := p.payload.headD 0

/-- What the handler of a packet is given. -/
def PacketToken.data (p : PacketToken) (after : Text) : Text := p.payload.tail ++ p.behind after

theorem PacketToken.nul_mem_data (p : PacketToken) (after : Text) : (0 : Byte) ∈ p.data after :=
  List.mem_append_right _ List.mem_cons_self

theorem handlePacket_opened (h : GdbHost) (turns : ℕ) (gdb : GdbProtocolData) (p : PacketToken)
    (after : Text) :
    handlePacket h turns gdb (p.opened after)
      = handleLetter h turns gdb p.letter (p.data after) := by
  unfold PacketToken.opened PacketToken.letter PacketToken.data
  cases p.payload with
  | nil => rfl
  | cons letter data => rfl

/-- The numbers and the separators that the handlers rely on are there. -/
structure Harmless (h : GdbHost) (mem : Memory) (letter : Byte) (data : Text) : Prop where
  readNumber : letter = ch 'p' → (readNumber data).toNat < 16
  writeSeparator : letter = ch 'P' → index (ch '=') data ≠ none
  writeNumber : letter = ch 'P' → (writeNumber h data).toNat < 16
  contentSeparator : letter = ch 'X' → contentTaken h data mem ≠ 0 → index (ch ':') data ≠ none

/-- The text holds what is read from it, and the reply what is written. -/
structure InBounds (h : GdbHost) (mem : Memory) (letter : Byte) (data : Text) : Prop where
  fields : letter = ch 'G' → 328 < data.length
  content : letter = ch 'X' → ∀ found, index (ch ':') data = some found →
    contentTaken h data mem ≤ contentLength (found.drop 1)
  reply : letter = ch 'm' → 2 * bytesRead h data mem ≤ 4091

/-- `run` ends exactly under the three conditions, and none of its turns
fails an assertion or uses a null pointer exactly under the first. -/
def HandledIff (run : ℕ → Except NoReturn GdbProtocolData) (harmless inBounds stops : Prop) :
    Prop :=
  ((∃ turns gdb', run turns = .ok gdb') ↔ harmless ∧ inBounds ∧ stops) ∧
    ((∀ turns, run turns ≠ .error .assertion ∧ run turns ≠ .error .nullIndex) ↔ harmless)

section HandledIff

variable {run : ℕ → Except NoReturn GdbProtocolData} {harmless inBounds stops : Prop}

theorem HandledIff.of_ok {gdb' : GdbProtocolData} (hrun : ∀ turns, run turns = .ok gdb')
    (hh : harmless) (hi : inBounds) (hs : stops) : HandledIff run harmless inBounds stops := by
  refine ⟨iff_of_true ⟨0, gdb', hrun 0⟩ ⟨hh, hi, hs⟩, iff_of_true (fun turns => ?_) hh⟩
  rw [hrun]
  exact ⟨nofun, nofun⟩

theorem HandledIff.of_error {e : NoReturn} (hrun : ∀ turns, run turns = .error e)
    (he : e = .assertion ∨ e = .nullIndex) (hh : ¬ harmless) :
    HandledIff run harmless inBounds stops := by
  refine ⟨iff_of_false ?_ fun hall => hh hall.1, iff_of_false ?_ hh⟩
  · rintro ⟨turns, gdb', hok⟩
    rw [hrun] at hok
    cases hok
  · intro hall
    rcases he with rfl | rfl
    · exact (hall 0).1 (hrun 0)
    · exact (hall 0).2 (hrun 0)

theorem HandledIff.of_outOfBounds (hrun : ∀ turns, run turns = .error .outOfBounds)
    (hh : harmless) (hi : ¬ inBounds) : HandledIff run harmless inBounds stops := by
  refine ⟨iff_of_false ?_ fun hall => hi hall.2.1, iff_of_true (fun turns => ?_) hh⟩
  · rintro ⟨turns, gdb', hok⟩
    rw [hrun] at hok
    cases hok
  · rw [hrun]
    exact ⟨nofun, nofun⟩

theorem HandledIff.of_running
    (hrun : ∀ turns, (∃ gdb', run turns = .ok gdb') ∨ run turns = .error .running)
    (hs : (∃ turns gdb', run turns = .ok gdb') ↔ stops) (hh : harmless) (hi : inBounds) :
    HandledIff run harmless inBounds stops := by
  refine ⟨?_, iff_of_true (fun turns => ?_) hh⟩
  · rw [hs]
    exact ⟨fun h => ⟨hh, hi, h⟩, fun h => h.2.2⟩
  · rcases hrun turns with ⟨gdb', hok⟩ | hgo
    · rw [hok]
      exact ⟨nofun, nofun⟩
    · rw [hgo]
      exact ⟨nofun, nofun⟩

end HandledIff

section Letters

variable (h : GdbHost) {gdb : GdbProtocolData} (hopen : gdb.shut = false) (data : Text)

include hopen

theorem query_ok : ∃ gdb', query gdb data = .ok gdb' := by
  unfold query
  split_ifs <;> exact gdbSendData_ok hopen (by decide)

theorem setThread_ok : ∃ gdb', setThread gdb data = .ok gdb' := by
  unfold setThread
  simp only
  split_ifs
  · exact gdbSendData_ok hopen (by decide)
  · exact gdbSendData_ok hopen (by decide)

theorem gdbSendStopReason_ok : ∃ gdb', gdbSendStopReason gdb = .ok gdb' := by
  obtain ⟨_, hsends⟩ := gdbSendStopReason_spec gdb
  obtain ⟨gdb', hsend, -⟩ := hsends.ok hopen
  exact ⟨gdb', hsend⟩

theorem step_ok : ∃ gdb', step h gdb data = .ok gdb' := by
  obtain ⟨r, arm, -, hstep⟩ := singleStep_spec h gdb
  obtain ⟨gdb', hsend⟩ := gdbSendStopReason_ok ((singleStep_shut hstep).trans hopen)
  exact ⟨gdb', by rw [step, hstep, ok_bind, hsend]⟩

/-- The handlers that look at nothing in the text, and those of the
breakpoints, always return; so do letters without a handler. -/
theorem handleLetter_ok {set : Word → Bool} (ht : Represents gdb.table set) {letter : Byte}
    (hc : letter ≠ ch 'c') (hC : letter ≠ ch 'C') (hp : letter ≠ ch 'p') (hP : letter ≠ ch 'P')
    (hG : letter ≠ ch 'G') (hX : letter ≠ ch 'X') (hm : letter ≠ ch 'm') :
    ∃ gdb', ∀ turns, handleLetter h turns gdb letter data = .ok gdb' := by
  by_cases hk : letter = ch 'k'
  · subst hk
    exact ⟨_, fun _ => rfl⟩
  by_cases hq : letter = ch 'q'
  · subst hq
    obtain ⟨gdb', hok⟩ := query_ok hopen data
    exact ⟨gdb', fun _ => hok⟩
  by_cases hg : letter = ch 'g'
  · subst hg
    obtain ⟨gdb', hok, -⟩ := (readGeneralRegisters_spec gdb data).ok hopen
    exact ⟨gdb', fun _ => hok⟩
  by_cases hreason : letter = ch '?'
  · subst hreason
    obtain ⟨gdb', hok⟩ := gdbSendStopReason_ok hopen
    exact ⟨gdb', fun _ => hok⟩
  by_cases hH : letter = ch 'H'
  · subst hH
    obtain ⟨gdb', hok⟩ := setThread_ok hopen data
    exact ⟨gdb', fun _ => hok⟩
  by_cases hs : letter = ch 's'
  · subst hs
    obtain ⟨gdb', hok⟩ := step_ok h hopen data
    exact ⟨gdb', fun _ => hok⟩
  by_cases hS : letter = ch 'S'
  · subst hS
    obtain ⟨gdb', hok⟩ := step_ok h hopen data
    exact ⟨gdb', fun _ => hok⟩
  by_cases hz : letter = ch 'z'
  · subst hz
    obtain ⟨_, _, _, -, hsends⟩ := (BreakpointRequest.remove data).handle_spec h ht
    obtain ⟨gdb', hok, -⟩ := hsends.ok hopen
    exact ⟨gdb', fun _ => hok⟩
  by_cases hZ : letter = ch 'Z'
  · subst hZ
    obtain ⟨_, _, _, -, hsends⟩ := (BreakpointRequest.set data).handle_spec h ht
    obtain ⟨gdb', hok, -⟩ := hsends.ok hopen
    exact ⟨gdb', fun _ => hok⟩
  -- no other letter has a handler
  obtain ⟨gdb', hok⟩ := gdbSendData_ok hopen (s := []) (by decide)
  refine ⟨gdb', fun turns => ?_⟩
  have hnone : gdbHandler h turns letter = none := by
    rw [gdbHandler, if_neg hc, if_neg hC, if_neg hk, if_neg hq, if_neg hg, if_neg hm, if_neg hp,
      if_neg hreason, if_neg hH, if_neg hs, if_neg hS, if_neg hG, if_neg hX, if_neg hP, if_neg hz,
      if_neg hZ]
  rw [handleLetter, hnone]
  exact hok

end Letters

/-! ## Each letter -/

section Conditions

variable {h : GdbHost} {mem : Memory} {letter : Byte} {data : Text}

theorem Harmless.of_ne (hp : letter ≠ ch 'p') (hP : letter ≠ ch 'P') (hX : letter ≠ ch 'X') :
    Harmless h mem letter data where
  readNumber := fun he => absurd he hp
  writeSeparator := fun he => absurd he hP
  writeNumber := fun he => absurd he hP
  contentSeparator := fun he => absurd he hX

theorem InBounds.of_ne (hG : letter ≠ ch 'G') (hX : letter ≠ ch 'X') (hm : letter ≠ ch 'm') :
    InBounds h mem letter data where
  fields := fun he => absurd he hG
  content := fun he => absurd he hX
  reply := fun he => absurd he hm

theorem harmless_p : Harmless h mem (ch 'p') data ↔ (readNumber data).toNat < 16 :=
  ⟨fun hh => hh.readNumber rfl, fun hreg =>
    ⟨fun _ => hreg, fun he => absurd he (by decide), fun he => absurd he (by decide),
      fun he => absurd he (by decide)⟩⟩

theorem harmless_P : Harmless h mem (ch 'P') data ↔
    index (ch '=') data ≠ none ∧ (writeNumber h data).toNat < 16 :=
  ⟨fun hh => ⟨hh.writeSeparator rfl, hh.writeNumber rfl⟩, fun hreg =>
    ⟨fun he => absurd he (by decide), fun _ => hreg.1, fun _ => hreg.2,
      fun he => absurd he (by decide)⟩⟩

theorem harmless_X : Harmless h mem (ch 'X') data ↔
    (contentTaken h data mem ≠ 0 → index (ch ':') data ≠ none) :=
  ⟨fun hh => hh.contentSeparator rfl, fun hcolon =>
    ⟨fun he => absurd he (by decide), fun he => absurd he (by decide),
      fun he => absurd he (by decide), fun _ => hcolon⟩⟩

theorem inBounds_X : InBounds h mem (ch 'X') data ↔
    ∀ found, index (ch ':') data = some found →
      contentTaken h data mem ≤ contentLength (found.drop 1) :=
  ⟨fun hi => hi.content rfl, fun hcontent =>
    ⟨fun he => absurd he (by decide), fun _ => hcontent, fun he => absurd he (by decide)⟩⟩

theorem inBounds_G : InBounds h mem (ch 'G') data ↔ 328 < data.length :=
  ⟨fun hi => hi.fields rfl, fun hlen =>
    ⟨fun _ => hlen, fun he => absurd he (by decide), fun he => absurd he (by decide)⟩⟩

theorem inBounds_m : InBounds h mem (ch 'm') data ↔ 2 * bytesRead h data mem ≤ 4091 :=
  ⟨fun hi => hi.reply rfl, fun hfit =>
    ⟨fun he => absurd he (by decide), fun he => absurd he (by decide), fun _ => hfit⟩⟩

end Conditions

/-- The handler of a letter returns exactly under its conditions. -/
def LetterHandledIff (h : GdbHost) (gdb : GdbProtocolData) (letter : Byte) (data : Text) : Prop :=
  HandledIff (fun turns => handleLetter h turns gdb letter data)
    (Harmless h gdb.arm.mem letter data) (InBounds h gdb.arm.mem letter data)
    (letter = ch 'c' ∨ letter = ch 'C' → ComesToStop h gdb)

section Letters

variable (h : GdbHost) {gdb : GdbProtocolData}

theorem not_continues (gdb : GdbProtocolData) {letter : Byte} (hc : letter ≠ ch 'c')
    (hC : letter ≠ ch 'C') : letter = ch 'c' ∨ letter = ch 'C' → ComesToStop h gdb := by
  rintro (he | he)
  · exact absurd he hc
  · exact absurd he hC

variable (hopen : gdb.shut = false) {data : Text}

include hopen

theorem letterHandledIff_p : LetterHandledIff h gdb (ch 'p') data := by
  by_cases hreg : (readNumber data).toNat < 16
  · obtain ⟨gdb', hok, -⟩ := (readSingleRegister_sent gdb hreg).ok hopen
    exact .of_ok (fun _ => hok) (harmless_p.mpr hreg)
      (.of_ne (by decide) (by decide) (by decide)) (not_continues h gdb (by decide) (by decide))
  · exact .of_error (fun _ => readSingleRegister_assertion gdb hreg) (Or.inl rfl)
      fun hh => hreg (harmless_p.mp hh)

theorem letterHandledIff_P (h0 : (0 : Byte) ∈ data) : LetterHandledIff h gdb (ch 'P') data := by
  cases hi : index (ch '=') data with
  | none =>
      exact .of_error (fun _ => writeSingleRegister_nullIndex h gdb hi) (Or.inr rfl)
        fun hh => (harmless_P.mp hh).1 hi
  | some found =>
      by_cases hreg : (writeNumber h data).toNat < 16
      · obtain ⟨gdb', hok⟩ := writeSingleRegister_ok h gdb hopen h0 hi hreg
        refine .of_ok (fun _ => hok) (harmless_P.mpr ⟨?_, hreg⟩)
          (.of_ne (by decide) (by decide) (by decide))
          (not_continues h gdb (by decide) (by decide))
        rw [hi]
        exact Option.some_ne_none found
      · exact .of_error (fun _ => writeSingleRegister_assertion h gdb h0 hi hreg) (Or.inl rfl)
          fun hh => hreg (harmless_P.mp hh).2

theorem letterHandledIff_G : LetterHandledIff h gdb (ch 'G') data := by
  have hharmless : Harmless h gdb.arm.mem (ch 'G') data :=
    .of_ne (by decide) (by decide) (by decide)
  by_cases hlen : 328 < data.length
  · obtain ⟨gdb', hok⟩ := writeGeneralRegisters_ok h gdb hopen hlen
    exact .of_ok (fun _ => hok) hharmless (inBounds_G.mpr hlen)
      (not_continues h gdb (by decide) (by decide))
  · exact .of_outOfBounds (fun _ => writeGeneralRegisters_outOfBounds h gdb hlen) hharmless
      fun hi => hlen (inBounds_G.mp hi)

theorem letterHandledIff_X : LetterHandledIff h gdb (ch 'X') data := by
  by_cases hcolon : contentTaken h data gdb.arm.mem ≠ 0 → index (ch ':') data ≠ none
  · by_cases hcontent : ∀ found, index (ch ':') data = some found →
        contentTaken h data gdb.arm.mem ≤ contentLength (found.drop 1)
    · obtain ⟨gdb', hok⟩ := writeMemoryBinary_ok hopen hcolon hcontent
      exact .of_ok (fun _ => hok) (harmless_X.mpr hcolon) (inBounds_X.mpr hcontent)
        (not_continues h gdb (by decide) (by decide))
    · refine .of_outOfBounds (fun _ => ?_) (harmless_X.mpr hcolon)
        fun hi => hcontent (inBounds_X.mp hi)
      push Not at hcontent
      obtain ⟨found, hi, hlt⟩ := hcontent
      exact writeMemoryBinary_outOfBounds hi (Nat.not_le.mpr hlt)
  · refine .of_error (fun _ => ?_) (Or.inr rfl) fun hh => hcolon (harmless_X.mp hh)
    push Not at hcolon
    exact writeMemoryBinary_nullIndex hcolon.1 hcolon.2

theorem letterHandledIff_m : LetterHandledIff h gdb (ch 'm') data := by
  have hharmless : Harmless h gdb.arm.mem (ch 'm') data :=
    .of_ne (by decide) (by decide) (by decide)
  rcases readMemory_outcome h gdb data with ⟨hfit, hsends⟩ | ⟨hfit, hfail⟩
  · obtain ⟨gdb', hok, -⟩ := hsends.ok hopen
    exact .of_ok (fun _ => hok) hharmless (inBounds_m.mpr hfit)
      (not_continues h gdb (by decide) (by decide))
  · exact .of_outOfBounds (fun _ => hfail) hharmless fun hi => hfit (inBounds_m.mp hi)

/-- `c` and `C` are one handler. -/
theorem letterHandledIff_continue (hsorted : gdb.table.Sorted) {letter : Byte}
    (hl : letter = ch 'c' ∨ letter = ch 'C') : LetterHandledIff h gdb letter data := by
  have hrun : ∀ turns, handleLetter h turns gdb letter data = cont h turns gdb data := by
    intro turns
    rcases hl with rfl | rfl <;> rfl
  refine .of_running (fun turns => ?_) ?_ (.of_ne ?_ ?_ ?_) (.of_ne ?_ ?_ ?_)
  · simp only [hrun]
    exact cont_ok_or_running turns hopen hsorted
  · simp only [hrun, cont_ok_iff hopen hsorted]
    exact ⟨fun hstop _ => hstop, fun hstop => hstop hl⟩
  all_goals rcases hl with rfl | rfl <;> decide

/-- Every letter. -/
theorem letterHandledIff {set : Word → Bool} (ht : Represents gdb.table set) (letter : Byte)
    (h0 : (0 : Byte) ∈ data) : LetterHandledIff h gdb letter data := by
  by_cases hcont : letter = ch 'c' ∨ letter = ch 'C'
  · exact letterHandledIff_continue h hopen ht.1 hcont
  rw [not_or] at hcont
  by_cases hp : letter = ch 'p'
  · exact hp ▸ letterHandledIff_p h hopen
  by_cases hP : letter = ch 'P'
  · exact hP ▸ letterHandledIff_P h hopen h0
  by_cases hG : letter = ch 'G'
  · exact hG ▸ letterHandledIff_G h hopen
  by_cases hX : letter = ch 'X'
  · exact hX ▸ letterHandledIff_X h hopen
  by_cases hm : letter = ch 'm'
  · exact hm ▸ letterHandledIff_m h hopen
  obtain ⟨gdb', hok⟩ := handleLetter_ok h hopen data ht hcont.1 hcont.2 hp hP hG hX hm
  exact .of_ok hok (.of_ne hp hP hX) (.of_ne hG hX hm) (not_continues h gdb hcont.1 hcont.2)

end Letters

/-- For every packet that verifies, in every state whose connection is open
and whose table requests have made: its handler returns exactly if the packet is harmless and stays
in bounds and the program, where it is continued, comes to a stop; and it
fails no assertion and uses no null pointer exactly if it is harmless. -/
theorem packet_handled_iff (h : GdbHost) (breakpoints : Fin MAX_BREAKPOINTS_NUMBER → Word)
    (requests : List BreakpointRequest) (first reached gdb : GdbProtocolData) (p : PacketToken)
    (after : Text) (hfirst : first.table = emptyTable breakpoints)
    (hreached : handleRequests h first requests = .ok reached)
    (htable : gdb.table = reached.table) (hopen : gdb.shut = false) (hp : p.Verifies) :
    ((∃ turns gdb', gdbPacketAnalysis h turns gdb (p.text ++ 0 :: after) p.text.length
          = .ok gdb') ↔
      Harmless h gdb.arm.mem p.letter (p.data after) ∧
        InBounds h gdb.arm.mem p.letter (p.data after) ∧
        (p.letter = ch 'c' ∨ p.letter = ch 'C' → ComesToStop h (gdb.wrote [ch '+']))) ∧
    ((∀ turns,
        gdbPacketAnalysis h turns gdb (p.text ++ 0 :: after) p.text.length
          ≠ .error .assertion ∧
        gdbPacketAnalysis h turns gdb (p.text ++ 0 :: after) p.text.length
          ≠ .error .nullIndex) ↔
      Harmless h gdb.arm.mem p.letter (p.data after)) := by
  obtain ⟨log, -, ht⟩ := requested_table hfirst hreached
  rw [← htable] at ht
  have hrun : ∀ turns, gdbPacketAnalysis h turns gdb (p.text ++ 0 :: after) p.text.length
      = handleLetter h turns (gdb.wrote [ch '+']) p.letter (p.data after) := by
    intro turns
    rw [gdbPacketAnalysis_eq, if_pos hp, gdbSendAck, rioWriten_of_open hopen, ok_bind,
      handlePacket_opened]
  have hacked : (gdb.wrote [ch '+']).shut = false := hopen
  simp only [hrun]
  exact letterHandledIff h hacked ht p.letter (p.nul_mem_data after)

/-- `$p19#da`: a debugger asks for the CPSR by its number. -/
def cpsrRequest : PacketToken := framedToken (bytes "p19") (by decide) (by decide)

/-- `$P0#80`: a register, and no value. -/
def valueMissing : PacketToken := framedToken (bytes "P0") (by decide) (by decide)

theorem packet_handled_iff_cpsrRequest :
    ((∃ turns gdb', gdbPacketAnalysis x86GdbHost turns resetServer
          (cpsrRequest.text ++ 0 :: []) cpsrRequest.text.length = .ok gdb') ↔
      Harmless x86GdbHost resetServer.arm.mem cpsrRequest.letter (cpsrRequest.data []) ∧
        InBounds x86GdbHost resetServer.arm.mem cpsrRequest.letter (cpsrRequest.data []) ∧
        (cpsrRequest.letter = ch 'c' ∨ cpsrRequest.letter = ch 'C' →
          ComesToStop x86GdbHost (resetServer.wrote [ch '+']))) ∧
    ((∀ turns,
        gdbPacketAnalysis x86GdbHost turns resetServer (cpsrRequest.text ++ 0 :: [])
          cpsrRequest.text.length ≠ .error .assertion ∧
        gdbPacketAnalysis x86GdbHost turns resetServer (cpsrRequest.text ++ 0 :: [])
          cpsrRequest.text.length ≠ .error .nullIndex) ↔
      Harmless x86GdbHost resetServer.arm.mem cpsrRequest.letter (cpsrRequest.data [])) :=
  packet_handled_iff x86GdbHost (fun _ => 0) [] resetServer resetServer resetServer cpsrRequest []
    rfl rfl rfl rfl (by decide)

/-- The first packet fails an assertion, the second uses a null pointer. -/
theorem packets_end_simulator :
    cpsrRequest.text = bytes "$p19#da" ∧ valueMissing.text = bytes "$P0#80" ∧
    gdbPacketAnalysis x86GdbHost 1 resetServer (cpsrRequest.text ++ 0 :: [])
      cpsrRequest.text.length = .error .assertion ∧
    gdbPacketAnalysis x86GdbHost 1 resetServer (valueMissing.text ++ 0 :: [])
      valueMissing.text.length = .error .nullIndex := by
  have hopen : resetServer.shut = false := rfl
  refine ⟨by decide +kernel, by decide +kernel, ?_, ?_⟩
  · have hpayload : cpsrRequest.payload = ch 'p' :: bytes "19" := rfl
    rw [gdbPacketAnalysis_letter x86GdbHost 1 hopen (by decide) hpayload rfl]
    exact readSingleRegister_assertion _ (by decide +kernel)
  · have hpayload : valueMissing.payload = ch 'P' :: bytes "0" := rfl
    rw [gdbPacketAnalysis_letter x86GdbHost 1 hopen (by decide) hpayload rfl]
    exact writeSingleRegister_nullIndex x86GdbHost _ (by decide +kernel)

end Armator
