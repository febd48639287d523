/-
The memory through the server: `X` writes bytes, `m` reads them.

An `X` packet carries the bytes as they are, but for those that would be
taken for something else: these are escaped, as `}` and the byte with bit
5 changed.  `write_memory_binary` takes one or two bytes of the content
for each byte it writes; `read_memory` writes two digits for each byte it
reads, up to the end of the memory.
-/
import Armator.DataAccess
import Armator.Gdb.Framing

namespace Armator

open CText

/-! ## Numbers in a request -/

/-- The text is a hexadecimal number of value `n`. -/
structure Numeral (text : Text) (n : Nat) : Prop where
  digits : Digits text
  value : number 16 text = n

theorem numeral_hexText {k n : Nat} (hk : k ≠ 0) (hn : n < 16 ^ k) : Numeral (hexText k n) n where
  digits := digits_hexText hk n
  value := by rw [number_hexText, Nat.mod_eq_of_lt hn]

/-- What `sscanf(data, "%x,%x", …)` reads. -/
theorem sscanf_two {first second rest : Text} {a n : Nat} (ha : Numeral first a)
    (hn : Numeral second n) (hr : EndsNumber rest) :
    sscanf [.hex none, .literal (ch ','), .hex none] (first ++ ch ',' :: (second ++ rest))
      = [unsignedLong false a, unsignedLong false n] := by
  have hcomma : EndsNumber (ch ',' :: (second ++ rest)) := endsNumber_cons _ (by decide)
  simp only [sscanf, scanHex_digits ha.digits hcomma, if_true, scanHex_digits hn.digits hr,
    ha.value, hn.value]

theorem stored_unsignedLong {values : List (BitVec 64)} {i n : Nat} {garbage : Word}
    (hi : values[i]? = some (unsignedLong false n)) (hn : n < 2 ^ 32) :
    stored values i garbage = BitVec.ofNat 32 n := by
  rw [stored, hi]
  exact setWidth_unsignedLong (by decide) hn

/-- A size taken for an `int` only grows when made a `size_t`. -/
theorem lt_memoryGetSize {mem : Memory} {a : Word} (ha : a.toNat < mem.size.toNat) :
    a.setWidth 64 < memoryGetSize mem := by
  rw [BitVec.lt_def, memoryGetSize, BitVec.toNat_signExtend, BitVec.toNat_setWidth,
    BitVec.toNat_setWidth]
  have := mem.size.isLt
  omega

/-- The numbers in an `X` or `m` request, or what was in their place. -/
def transferAddress (h : GdbHost) (data : Text) (f : Scans) : Word :=
  stored (sscanf [.hex none, .literal (ch ','), .hex none] data) 0 (h.gdbGarbage (.address f))

def transferSize (h : GdbHost) (data : Text) (f : Scans) : Nat :=
  (stored (sscanf [.hex none, .literal (ch ','), .hex none] data) 1
    (h.gdbGarbage (.size f))).toNat

/-- The text after the colon. -/
def transferContent (data : Text) : Option Text :=
  (index (ch ':') data).map fun content => content.drop 1

section Numbers

variable (h : GdbHost) (f : Scans) {first second rest : Text} {a : Word} {n : Nat}

theorem transferAddress_eq (ha : Numeral first a.toNat) (hn : Numeral second n)
    (hr : EndsNumber rest) :
    transferAddress h (first ++ ch ',' :: (second ++ rest)) f = a := by
  rw [transferAddress, sscanf_two ha hn hr, stored_unsignedLong rfl a.isLt, BitVec.ofNat_toNat,
    BitVec.setWidth_eq]

theorem transferSize_eq (ha : Numeral first a.toNat) (hn : Numeral second n)
    (hr : EndsNumber rest) (hlt : n < 2 ^ 32) :
    transferSize h (first ++ ch ',' :: (second ++ rest)) f = n := by
  rw [transferSize, sscanf_two ha hn hr, stored_unsignedLong rfl hlt]
  exact Nat.mod_eq_of_lt hlt

end Numbers

/-- The content is found: neither number nor the comma is taken for the
colon. -/
theorem transferContent_eq {first second : Text} {a n : Nat} (ha : Numeral first a)
    (hn : Numeral second n) (content : Text) :
    transferContent (first ++ ch ',' :: (second ++ ch ':' :: content)) = some content := by
  have hcolon : ∀ {digits : Text}, Digits digits → ch ':' ∉ digits :=
    fun hd hm => absurd (hd.all _ hm) (by decide)
  have hfront : first ++ ch ',' :: (second ++ ch ':' :: content)
      = (first ++ ch ',' :: second) ++ ch ':' :: content := by
    rw [List.append_assoc, List.cons_append]
  rw [transferContent, hfront, index_append]
  · rfl
  · rw [List.mem_append, List.mem_cons, not_or, not_or]
    exact ⟨hcolon ha.digits, by decide, hcolon hn.digits⟩
  · rw [List.mem_append, List.mem_cons, not_or, not_or]
    exact ⟨ha.digits.nul_notMem, by decide, hn.digits.nul_notMem⟩

/-! ## Writing -/

/-- `content` is `bs` with some bytes escaped, every `}` among them; a `#`
or `$` that is not escaped cannot stand in a payload. -/
inductive Escaped : Text → Text → Prop where
  | nil : Escaped [] []
  | plain {c : Byte} {bs content : Text} : c ≠ 0x7d → Escaped bs content →
      Escaped (c :: bs) (c :: content)
  | escape {c : Byte} {bs content : Text} : Escaped bs content →
      Escaped (c :: bs) (0x7d :: (c ^^^ 0x20) :: content)

/-- Between `mem` and `mem'` the bytes from `a` on have become `bs`. -/
structure Stored (mem : Memory) (a : Word) (bs : Text) (mem' : Memory) : Prop where
  size : mem'.size = mem.size
  inside : ∀ i (hi : i < bs.length), mem'.byteAt (a + BitVec.ofNat 32 i) = bs[i]
  outside : ∀ b : Word, b.toNat < a.toNat ∨ a.toNat + bs.length ≤ b.toNat →
    mem'.byteAt b = mem.byteAt b

theorem nextContent_escape (c : Byte) (content : Text) :
    nextContent (some (0x7d :: (c ^^^ 0x20) :: content)) = .ok (c, some content) := by
  have hback : c ^^^ 0x20 ^^^ 0x20 = c := by
    rw [BitVec.xor_assoc, BitVec.xor_self, BitVec.xor_zero]
  have hnext : nextContent (some (0x7d :: (c ^^^ 0x20) :: content))
      = .ok (c ^^^ 0x20 ^^^ 0x20, some content) := rfl
  rw [hnext, hback]

theorem nextContent_plain {c : Byte} (hc : c ≠ 0x7d) (content : Text) :
    nextContent (some (c :: content)) = .ok (c, some content) := if_neg hc

/-- One byte of the content, and the rest of it. -/
theorem Escaped.nextContent {c : Byte} {bs content : Text} (h : Escaped (c :: bs) content)
    (rest : Text) :
    ∃ content', Armator.nextContent (some (content ++ rest)) = .ok (c, some (content' ++ rest)) ∧
      Escaped bs content' := by
  cases h with
  | plain hc h => exact ⟨_, nextContent_plain hc _, h⟩
  | escape h => exact ⟨_, nextContent_escape c _, h⟩

/-- The next address, below the end of the memory. -/
theorem toNat_add_one {a : Word} {mem : Memory} (ha : a.toNat < mem.size.toNat) :
    (a + 1).toNat = a.toNat + 1 := by
  have := mem.size.isLt
  rw [BitVec.toNat_add, show (1 : Word).toNat = 1 from rfl, Nat.mod_eq_of_lt (by omega)]

theorem add_byte_succ (a : Word) (i : Nat) :
    a + 1 + BitVec.ofNat 32 i = a + BitVec.ofNat 32 (i + 1) := by
  rw [BitVec.add_assoc, Nat.add_comm i 1, BitVec.ofNat_add]
  rfl

/-- One turn of the loop of `write_memory_binary` inside the memory. -/
theorem writeMemoryLoop_succ {mem : Memory} {a : Word} {c : Byte} {content content' : Option Text}
    (ha : a.toNat < mem.size.toNat) (hnext : nextContent content = .ok (c, content')) (n : Nat) :
    writeMemoryLoop mem a content (n + 1)
      = writeMemoryLoop (memoryWriteByte mem a c).2 (a + 1) content' n := by
  have hwrite : (memoryWriteByte mem a c).1 = 0 := by
    rw [memoryWriteByte, dif_pos ha]
  rw [writeMemoryLoop, hnext, ok_bind]
  simp only [hwrite, if_true]

/-- Nothing stored. -/
theorem Stored.nil (mem : Memory) (a : Word) : Stored mem a [] mem :=
  ⟨rfl, fun i hi => absurd hi (Nat.not_lt_zero i), fun _ _ => rfl⟩

/-- One byte is stored, and then those behind it. -/
theorem Stored.cons {mem mem' : Memory} {a : Word} {c : Byte} {bs : Text}
    (ha : a.toNat < mem.size.toNat)
    (hs : Stored (memoryWriteByte mem a c).2 (a + 1) bs mem') : Stored mem a (c :: bs) mem' := by
  have hnext := toNat_add_one ha
  refine ⟨hs.size.trans (memoryWriteByte_size ..), ?_, ?_⟩
  · intro i hi
    cases i with
    | zero =>
        have h0 : a + BitVec.ofNat 32 0 = a := BitVec.add_zero a
        rw [h0, hs.outside a (by omega), memoryWriteByte_byteAt c ha, Function.update_self]
        rfl
    | succ i =>
        rw [← add_byte_succ]
        exact hs.inside i (Nat.lt_of_succ_lt_succ hi)
  · intro b hb
    rw [List.length_cons] at hb
    rw [hs.outside b (by omega)]
    refine memoryWriteByte_byteAt_of_ne mem c fun he => ?_
    rw [he] at hb
    omega

/-- The loop writes the content, whatever lies behind it. -/
theorem writeMemoryLoop_spec {mem : Memory} {a : Word} {bs content : Text}
    (hin : a.toNat + bs.length ≤ mem.size.toNat) (hc : Escaped bs content) (rest : Text) :
    ∃ mem', writeMemoryLoop mem a (some (content ++ rest)) bs.length = .ok (true, mem') ∧
      Stored mem a bs mem' := by
  induction bs generalizing mem a content with
  | nil => exact ⟨mem, rfl, Stored.nil mem a⟩
  | cons c bs ih =>
      rw [List.length_cons] at hin
      have ha : a.toNat < mem.size.toNat := by omega
      obtain ⟨content', hcontent, hc'⟩ := hc.nextContent rest
      have hin' : (a + 1).toNat + bs.length ≤ (memoryWriteByte mem a c).2.size.toNat := by
        rw [memoryWriteByte_size, toNat_add_one ha]
        omega
      obtain ⟨mem', hloop, hstored⟩ := ih hin' hc'
      refine ⟨mem', ?_, hstored.cons ha⟩
      rw [List.length_cons, writeMemoryLoop_succ ha hcontent]
      exact hloop

section Request

variable (h : GdbHost) (gdb : GdbProtocolData) (data : Text)

/-- The loop of `write_memory_binary`, where the range starts inside the
memory. -/
def transferWrite (mem : Memory) : Except NoReturn (Bool × Memory) :=
  if (transferAddress h data .writeMemoryBinary).setWidth 64 < memoryGetSize mem then
    writeMemoryLoop mem (transferAddress h data .writeMemoryBinary) (transferContent data)
      (transferSize h data .writeMemoryBinary)
  else .ok (false, mem)

theorem writeMemoryBinary_eq :
    writeMemoryBinary h gdb data = transferWrite h data gdb.arm.mem >>= fun written =>
      gdbSendData { gdb with arm := { gdb.arm with mem := written.2 } }
        (if written.1 then bytes "OK" else bytes "E02") := by
  have hreply : ∀ write : Except NoReturn (Bool × Memory),
      (write >>= fun written =>
        if written.1 then
          gdbSendData { gdb with arm := { gdb.arm with mem := written.2 } } (bytes "OK")
        else gdbSendData { gdb with arm := { gdb.arm with mem := written.2 } } (bytes "E02"))
        = write >>= fun written =>
            gdbSendData { gdb with arm := { gdb.arm with mem := written.2 } }
              (if written.1 then bytes "OK" else bytes "E02") := by
    intro write
    refine congrArg (write >>= ·) (funext fun written => ?_)
    split <;> rfl
  unfold transferWrite
  by_cases hin : (transferAddress h data .writeMemoryBinary).setWidth 64
      < memoryGetSize gdb.arm.mem
  · rw [if_pos hin]
    exact (if_pos hin).trans (hreply _)
  · rw [if_neg hin]
    exact (if_neg hin).trans (hreply _)

variable {h gdb data}

/-- A write whose loop ends is answered by OK or by E02. -/
theorem writeMemoryBinary_sent {ok : Bool} {mem' : Memory}
    (hwrite : transferWrite h data gdb.arm.mem = .ok (ok, mem')) :
    Transmits { gdb with arm := { gdb.arm with mem := mem' } }
      (if ok then bytes "OK" else bytes "E02") (writeMemoryBinary h gdb data) := by
  have hreply : (0 : Byte) ∉ (if ok then bytes "OK" else bytes "E02") ∧
      (if ok then bytes "OK" else bytes "E02").length ≤ 4091 := by
    cases ok <;> decide
  rw [writeMemoryBinary_eq, hwrite, ok_bind]
  exact gdbSendData_spec { gdb with arm := { gdb.arm with mem := mem' } } hreply.1 hreply.2

/-- One that does not return is not answered. -/
theorem writeMemoryBinary_error {f : NoReturn}
    (hwrite : transferWrite h data gdb.arm.mem = .error f) :
    writeMemoryBinary h gdb data = .error f := by
  rw [writeMemoryBinary_eq, hwrite]
  rfl

end Request

/-- An `X` request is answered by `OK`, and stores its content. -/
theorem writeMemoryBinary_spec (h : GdbHost) (gdb : GdbProtocolData) {a : Word}
    {bs content first second : Text} (rest : Text) (ha : a.toNat < gdb.arm.mem.size.toNat)
    (hin : a.toNat + bs.length ≤ gdb.arm.mem.size.toNat) (hfirst : Numeral first a.toNat)
    (hsecond : Numeral second bs.length) (hc : Escaped bs content) :
    ∃ mem', Stored gdb.arm.mem a bs mem' ∧
      Transmits { gdb with arm := { gdb.arm with mem := mem' } } (bytes "OK")
        (writeMemoryBinary h gdb
          (first ++ ch ',' :: (second ++ ch ':' :: (content ++ rest)))) := by
  obtain ⟨mem', hloop, hstored⟩ := writeMemoryLoop_spec hin hc rest
  have hlen : bs.length < 2 ^ 32 := by
    have := gdb.arm.mem.size.isLt
    omega
  have hr : EndsNumber (ch ':' :: (content ++ rest)) := endsNumber_cons _ (by decide)
  have hwrite : transferWrite h (first ++ ch ',' :: (second ++ ch ':' :: (content ++ rest)))
      gdb.arm.mem = .ok (true, mem') := by
    rw [transferWrite, transferAddress_eq h _ hfirst hsecond hr, if_pos (lt_memoryGetSize ha),
      transferSize_eq h _ hfirst hsecond hr hlen, transferContent_eq hfirst hsecond]
    exact hloop
  exact ⟨mem', hstored, writeMemoryBinary_sent hwrite⟩

/-! ## Reading -/

/-- At most `n` bytes from `a` on, up to the end of the memory. -/
def memoryText (mem : Memory) (a : Word) : Nat → Text
  | 0 => []
  | n + 1 => if a.toNat < mem.size.toNat then mem.byteAt a :: memoryText mem (a + 1) n else []

/-- Two digits for each byte. -/
def hexBytes (bs : Text) : Text := (bs.map fun b => hexText 2 b.toNat).flatten

@[simp] theorem length_hexBytes (bs : Text) : (hexBytes bs).length = 2 * bs.length := by
  rw [hexBytes, length_fields (k := 2), List.length_map]
  intro f hf
  obtain ⟨b, -, rfl⟩ := List.mem_map.mp hf
  exact length_hexText ..

theorem hexBytes_nul_notMem (bs : Text) : (0 : Byte) ∉ hexBytes bs := by
  rw [hexBytes, List.mem_flatten]
  rintro ⟨f, hf, h0⟩
  obtain ⟨b, -, rfl⟩ := List.mem_map.mp hf
  exact (digits_hexText (by decide) b.toNat).nul_notMem h0

/-- One turn of the loop of `read_memory` inside the memory. -/
theorem readMemoryLoop_succ (h : GdbHost) {gdb : GdbProtocolData} {a : Word}
    (ha : a.toNat < gdb.arm.mem.size.toNat) (pos n : Nat) :
    readMemoryLoop h gdb a pos (n + 1) =
      gdb.put pos (hexText 2 (gdb.arm.mem.byteAt a).toNat) >>= fun gdb =>
        readMemoryLoop h gdb (a + 1) (pos + 2) n := by
  have hne : (0 : Int) ≠ -1 := by decide
  rw [readMemoryLoop, memoryReadByte_of_lt _ ha]
  simp only
  rw [if_pos hne]

/-- Outside it the loop ends. -/
theorem readMemoryLoop_end (h : GdbHost) {gdb : GdbProtocolData} {a : Word}
    (ha : ¬ a.toNat < gdb.arm.mem.size.toNat) (pos n : Nat) :
    readMemoryLoop h gdb a pos (n + 1) = .ok gdb := by
  rw [readMemoryLoop, memoryReadByte, dif_neg ha]
  rfl

/-- The loop puts the digits of the bytes it reads behind what is there. -/
theorem readMemoryLoop_spec (h : GdbHost) {gdb : GdbProtocolData} {a : Word} {s : Text} {n : Nat}
    (hs : gdb.Holds 1 s)
    (hle : 1 + s.length + 2 * (memoryText gdb.arm.mem a n).length + 1 ≤ 4096) :
    ∃ gdb', readMemoryLoop h gdb a (1 + s.length) n = .ok gdb' ∧ OnlyPacket gdb gdb' ∧
      gdb'.Holds 1 (s ++ hexBytes (memoryText gdb.arm.mem a n)) := by
  induction n generalizing gdb a s with
  | zero => exact ⟨gdb, rfl, OnlyPacket.refl gdb, by rwa [memoryText, hexBytes, List.map_nil,
      List.flatten_nil, List.append_nil]⟩
  | succ n ih =>
      rw [memoryText] at hle ⊢
      by_cases ha : a.toNat < gdb.arm.mem.size.toNat
      · rw [if_pos ha, List.length_cons] at hle
        rw [if_pos ha]
        obtain ⟨gdb₁, hput, honly, hs₁⟩ :=
          hs.begins.put (hexText 2 (gdb.arm.mem.byteAt a).toNat) (by
            rw [length_hexText]
            omega)
        have hlen : 1 + s.length + 2
            = 1 + (s ++ hexText 2 (gdb.arm.mem.byteAt a).toNat).length := by
          rw [List.length_append, length_hexText, Nat.add_assoc]
        have hmem : gdb₁.arm.mem = gdb.arm.mem := by rw [honly.arm]
        obtain ⟨gdb', hloop, honly', hs'⟩ := ih (a := a + 1) hs₁ (by
          rw [hmem, ← hlen]
          omega)
        refine ⟨gdb', ?_, honly.trans honly', ?_⟩
        · rw [readMemoryLoop_succ h ha, hput, ok_bind, hlen, hloop]
        · rw [hmem, List.append_assoc] at hs'
          exact hs'
      · rw [if_neg ha]
        refine ⟨gdb, readMemoryLoop_end h ha _ n, OnlyPacket.refl gdb, ?_⟩
        rwa [hexBytes, List.map_nil, List.flatten_nil, List.append_nil]

theorem readMemory_eq (h : GdbHost) (gdb : GdbProtocolData) (data : Text) :
    readMemory h gdb data =
      if (transferAddress h data .readMemory).setWidth 64 < memoryGetSize gdb.arm.mem then
        gdb.put 1 [] >>= fun gdb =>
          readMemoryLoop h gdb (transferAddress h data .readMemory) 1
            (transferSize h data .readMemory) >>= gdbSendBuffer
      else gdbSendData gdb (bytes "E0E") := rfl

/-- An `m` request is answered by the digits of the bytes, where these fit. -/
theorem readMemory_spec (h : GdbHost) (gdb : GdbProtocolData) {a : Word} {n : Nat}
    {first second rest : Text} (ha : a.toNat < gdb.arm.mem.size.toNat) (hn : n < 2 ^ 32)
    (hfirst : Numeral first a.toNat) (hsecond : Numeral second n) (hr : EndsNumber rest)
    (hfit : 2 * (memoryText gdb.arm.mem a n).length ≤ 4091) :
    Transmits gdb (hexBytes (memoryText gdb.arm.mem a n))
      (readMemory h gdb (first ++ ch ',' :: (second ++ rest))) := by
  obtain ⟨gdb₁, hput, honly₁, hs₁⟩ := gdb.put_holds 1 [] (by decide)
  have hmem : gdb₁.arm.mem = gdb.arm.mem := by rw [honly₁.arm]
  obtain ⟨gdb₂, hloop, honly₂, hs₂⟩ := readMemoryLoop_spec h (a := a) (n := n) hs₁ (by
    rw [hmem, List.length_nil]
    omega)
  rw [List.nil_append, hmem] at hs₂
  have hloop' : readMemoryLoop h gdb₁ a 1 n = .ok gdb₂ := hloop
  rw [readMemory_eq, transferAddress_eq h _ hfirst hsecond hr, if_pos (lt_memoryGetSize ha), hput,
    ok_bind, transferSize_eq h _ hfirst hsecond hr hn, hloop', ok_bind]
  refine (gdbSendBuffer_spec hs₂ (hexBytes_nul_notMem _) ?_).of_onlyPacket (honly₁.trans honly₂)
  rw [length_hexBytes]
  exact hfit

/-- Bytes that were stored read back. -/
theorem Stored.memoryText {mem mem' : Memory} {a : Word} {bs : Text} (hs : Stored mem a bs mem')
    (hin : a.toNat + bs.length ≤ mem.size.toNat) :
    Armator.memoryText mem' a bs.length = bs := by
  have hbytes : ∀ (bs : Text) (a : Word), a.toNat + bs.length ≤ mem'.size.toNat →
      (∀ i (hi : i < bs.length), mem'.byteAt (a + BitVec.ofNat 32 i) = bs[i]) →
      Armator.memoryText mem' a bs.length = bs := by
    intro bs
    induction bs with
    | nil => intro a _ _; rfl
    | cons c bs ih =>
        intro a hle hb
        rw [List.length_cons] at hle
        have ha : a.toNat < mem'.size.toNat := by omega
        have hhead : mem'.byteAt a = c := by
          have h0 := hb 0 (Nat.succ_pos _)
          rwa [show a + BitVec.ofNat 32 0 = a from BitVec.add_zero a] at h0
        rw [List.length_cons, Armator.memoryText, if_pos ha, hhead, ih (a + 1)]
        · rw [toNat_add_one ha]
          omega
        · intro i hi
          rw [add_byte_succ]
          exact hb (i + 1) (Nat.succ_lt_succ hi)
  exact hbytes bs a (hs.size ▸ hin) hs.inside

/-! ## The round trip -/

/-- A download of `bs` to `a`: the packets `Xa,n:…` and `ma,n`. -/
structure Transfer (a : Word) (bs : Text) where
  write : PacketToken
  read : PacketToken
  write_verifies : write.Verifies
  read_verifies : read.Verifies
  write_payload : ∃ first second content, Numeral first a.toNat ∧ Numeral second bs.length ∧
    Escaped bs content ∧
    write.payload = ch 'X' :: (first ++ ch ',' :: (second ++ ch ':' :: content))
  read_payload : ∃ first second, Numeral first a.toNat ∧ Numeral second bs.length ∧
    read.payload = ch 'm' :: (first ++ ch ',' :: second)

/-- On an open connection the `X` packet is acknowledged, stores the bytes
and nothing else, and is answered by `OK`; the `m` packet after it is
answered by their digits. -/
theorem memory_round_trip (h : GdbHost) (turns : Nat) (gdb : GdbProtocolData) (a : Word)
    (bs : Text) (t : Transfer a bs) (after after' : Text) (hopen : gdb.shut = false)
    (ha : a.toNat < gdb.arm.mem.size.toNat)
    (hin : a.toNat + bs.length ≤ gdb.arm.mem.size.toNat) (hfit : 2 * bs.length + 5 ≤ 4096) :
    ∃ gdb₁ gdb₂,
      gdbPacketAnalysis h turns gdb (t.write.text ++ 0 :: after) t.write.text.length = .ok gdb₁ ∧
      gdb₁.fd = gdb.fd ++ ch '+' :: frame (bytes "OK") ∧
      gdb₁.arm = { gdb.arm with mem := gdb₁.arm.mem } ∧
      Stored gdb.arm.mem a bs gdb₁.arm.mem ∧
      gdbPacketAnalysis h turns gdb₁ (t.read.text ++ 0 :: after') t.read.text.length = .ok gdb₂ ∧
      gdb₂.fd = gdb₁.fd ++ ch '+' :: frame (hexBytes bs) := by
  obtain ⟨first, second, content, hfirst, hsecond, hc, hwrite⟩ := t.write_payload
  obtain ⟨first', second', hfirst', hsecond', hread⟩ := t.read_payload
  obtain ⟨mem', hstored, hsends⟩ :=
    writeMemoryBinary_spec h (gdb.wrote [ch '+']) (t.write.behind after) ha hin hfirst hsecond hc
  obtain ⟨gdb₁, hhandle, hsent⟩ := hsends.ok hopen
  have hmem : gdb₁.arm.mem = mem' := by rw [hsent.arm]
  have hopen₁ : gdb₁.shut = false := hsent.shut.trans hopen
  have htext : memoryText gdb₁.arm.mem a bs.length = bs := by
    rw [hmem]
    exact hstored.memoryText hin
  have ha' : a.toNat < gdb₁.arm.mem.size.toNat := by
    rwa [hmem, hstored.size]
  have hbehind : EndsNumber (t.read.behind after') := endsNumber_cons _ (by decide)
  have hlen : bs.length < 2 ^ 32 := by
    have := gdb.arm.mem.size.isLt
    omega
  have hreads := readMemory_spec h (gdb₁.wrote [ch '+']) ha' hlen hfirst' hsecond' hbehind (by
    rw [GdbProtocolData.wrote_arm, htext]
    omega)
  rw [GdbProtocolData.wrote_arm, htext] at hreads
  obtain ⟨gdb₂, hhandle', hsent'⟩ := hreads.ok hopen₁
  refine ⟨gdb₁, gdb₂, ?_, ?_, ?_, hmem ▸ hstored, ?_, ?_⟩
  · rw [gdbPacketAnalysis_letter h turns hopen t.write_verifies hwrite rfl]
    simp only [List.append_assoc, List.cons_append]
    exact hhandle
  · rw [hsent.fd]
    exact List.append_assoc ..
  · rw [hmem, hsent.arm]
    rfl
  · rw [gdbPacketAnalysis_letter h turns hopen₁ t.read_verifies hread rfl]
    simp only [List.append_assoc, List.cons_append]
    exact hhandle'
  · rw [hsent'.fd]
    exact List.append_assoc ..

/-! ## Making the packets -/

/-- What a debugger escapes: no more than it must. -/
def escapeByte (c : Byte) : Text :=
  if c = ch '#' ∨ c = ch '$' ∨ c = 0x7d then [0x7d, c ^^^ 0x20] else [c]

def escape (bs : Text) : Text := bs.flatMap escapeByte

theorem escaped_escape (bs : Text) : Escaped bs (escape bs) := by
  induction bs with
  | nil => exact .nil
  | cons c bs ih =>
      rw [escape, List.flatMap_cons, escapeByte]
      split_ifs with hc
      · exact .escape ih
      · push Not at hc
        exact .plain hc.2.2 ih

theorem frameByte_notMem_escape {d : Byte} (hd : d = ch '$' ∨ d = ch '#') (bs : Text) :
    d ∉ escape bs := by
  have hall : ∀ c : Byte, ch '$' ∉ escapeByte c ∧ ch '#' ∉ escapeByte c := by decide +kernel
  rw [escape, List.mem_flatMap]
  rintro ⟨c, -, hdc⟩
  rcases hd with rfl | rfl
  · exact (hall c).1 hdc
  · exact (hall c).2 hdc

theorem frameByte_notMem_hexText {d : Byte} (hd : d = ch '$' ∨ d = ch '#') (k value : Nat) :
    d ∉ hexText k value := by
  intro h
  have hdigit := isDigit_of_mem_hexText h
  rcases hd with rfl | rfl <;> exact absurd hdigit (by decide)

/-- The packets of a download, with numbers of eight digits. -/
def transfer (a : Word) (bs : Text) (hn : bs.length < 16 ^ 8) : Transfer a bs :=
  have ha : Numeral (hexText 8 a.toNat) a.toNat := numeral_hexText (by decide) a.isLt
  have hsize : Numeral (hexText 8 bs.length) bs.length := numeral_hexText (by decide) hn
  have hwrite : ∀ d, d = ch '$' ∨ d = ch '#' →
      d ∉ ch 'X' :: (hexText 8 a.toNat ++ ch ',' ::
        (hexText 8 bs.length ++ ch ':' :: escape bs)) := by
    intro d hd
    have hhex := frameByte_notMem_hexText hd
    simp only [List.mem_cons, List.mem_append, not_or]
    refine ⟨?_, hhex 8 a.toNat, ?_, hhex 8 bs.length, ?_, frameByte_notMem_escape hd bs⟩
    all_goals rcases hd with rfl | rfl <;> decide
  have hread : ∀ d, d = ch '$' ∨ d = ch '#' →
      d ∉ ch 'm' :: (hexText 8 a.toNat ++ ch ',' :: hexText 8 bs.length) := by
    intro d hd
    have hhex := frameByte_notMem_hexText hd
    simp only [List.mem_cons, List.mem_append, not_or]
    refine ⟨?_, hhex 8 a.toNat, ?_, hhex 8 bs.length⟩
    all_goals rcases hd with rfl | rfl <;> decide
  { write := framedToken _ (hwrite _ (Or.inl rfl)) (hwrite _ (Or.inr rfl))
    read := framedToken _ (hread _ (Or.inl rfl)) (hread _ (Or.inr rfl))
    write_verifies := framedToken_verifies ..
    read_verifies := framedToken_verifies ..
    write_payload := ⟨_, _, _, ha, hsize, escaped_escape bs, rfl⟩
    read_payload := ⟨_, _, ha, hsize, rfl⟩ }

/-- `}`, `#` and NUL to the last three bytes of a memory of 16. -/
theorem memory_round_trip_last :
    ∃ gdb₁ gdb₂,
      gdbPacketAnalysis x86GdbHost 1 holdingOk
        ((transfer 13 [0x7d, 0x23, 0] (by decide)).write.text ++ 0 :: [])
        (transfer 13 [0x7d, 0x23, 0] (by decide)).write.text.length = .ok gdb₁ ∧
      gdb₁.fd = holdingOk.fd ++ ch '+' :: frame (bytes "OK") ∧
      gdb₁.arm = { holdingOk.arm with mem := gdb₁.arm.mem } ∧
      Stored holdingOk.arm.mem 13 [0x7d, 0x23, 0] gdb₁.arm.mem ∧
      gdbPacketAnalysis x86GdbHost 1 gdb₁
        ((transfer 13 [0x7d, 0x23, 0] (by decide)).read.text ++ 0 :: [])
        (transfer 13 [0x7d, 0x23, 0] (by decide)).read.text.length = .ok gdb₂ ∧
      gdb₂.fd = gdb₁.fd ++ ch '+' :: frame (hexBytes [0x7d, 0x23, 0]) :=
  memory_round_trip x86GdbHost 1 holdingOk 13 [0x7d, 0x23, 0] (transfer 13 [0x7d, 0x23, 0]
    (by decide)) [] [] rfl (by decide) (by decide) (by decide)

end Armator
