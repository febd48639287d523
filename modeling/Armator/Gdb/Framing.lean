/-
The frame around a payload.

`gdb_send_buffer` puts `$` before the payload in the buffer, `#` and two
digits after it; `gdb_packet_analysis` takes these off again, where it
finds the sum of the payload in the digits.  The sender stops at the NUL
that ends the payload, the receiver counts three bytes back from the end
of the token; on a payload without NUL the two sums agree.
-/
import Armator.Gdb.Protocol
import Armator.Gdb.Scanner

namespace Armator

open CText

/-! ## The buffer -/

/-- A write that fits, where what lies before it is known. -/
theorem Packet.write_append {packet : Packet} {front back : Text}
    (hb : packet.bytes = front ++ back) (text : Text)
    (hle : front.length + text.length ≤ 4096) :
    ∃ packet', packet.write front.length text = .ok packet' ∧
      packet'.bytes = front ++ (text ++ back.drop text.length) := by
  refine ⟨_, dif_pos hle, ?_⟩
  simp only
  rw [hb, List.take_left, List.drop_append, List.drop_eq_nil_of_le (by omega), List.nil_append,
    Nat.add_sub_cancel_left]

/-- A write that does not fit is seen. -/
theorem Packet.write_of_gt (packet : Packet) {pos : Nat} {text : Text}
    (hgt : 4096 < pos + text.length) : packet.write pos text = .error .outOfBounds :=
  dif_neg (Nat.not_le.mpr hgt)

/-- The buffer holds `s` from `packet[pos]` on. -/
def GdbProtocolData.Begins (gdb : GdbProtocolData) (pos : Nat) (s : Text) : Prop :=
  ∃ front rest, front.length = pos ∧ gdb.packet.bytes = front ++ (s ++ rest)

/-- The string `s` is at `packet[pos]`. -/
def GdbProtocolData.Holds (gdb : GdbProtocolData) (pos : Nat) (s : Text) : Prop :=
  ∃ front rest, front.length = pos ∧ gdb.packet.bytes = front ++ (s ++ 0 :: rest)

/-- Nothing has changed but the buffer. -/
def OnlyPacket (gdb gdb' : GdbProtocolData) : Prop := gdb' = { gdb with packet := gdb'.packet }

theorem OnlyPacket.refl (gdb : GdbProtocolData) : OnlyPacket gdb gdb := rfl

theorem OnlyPacket.trans {gdb gdb' gdb'' : GdbProtocolData} (h : OnlyPacket gdb gdb')
    (h' : OnlyPacket gdb' gdb'') : OnlyPacket gdb gdb'' := by
  unfold OnlyPacket at *
  rw [h', h]

theorem OnlyPacket.arm {gdb gdb' : GdbProtocolData} (h : OnlyPacket gdb gdb') :
    gdb'.arm = gdb.arm := by
  rw [h]

theorem GdbProtocolData.Holds.begins {gdb : GdbProtocolData} {pos : Nat} {s : Text}
    (h : gdb.Holds pos s) : gdb.Begins pos s := by
  obtain ⟨front, rest, hfront, hb⟩ := h
  exact ⟨front, 0 :: rest, hfront, hb⟩

theorem GdbProtocolData.begins_nil (gdb : GdbProtocolData) {pos : Nat} (hle : pos ≤ 4096) :
    gdb.Begins pos [] := by
  have hlen : gdb.packet.bytes.length = 4096 := gdb.packet.length_eq
  refine ⟨_, gdb.packet.bytes.drop pos, ?_, (List.take_append_drop pos _).symm⟩
  rw [List.length_take]
  omega

/-- A string written behind text that is there makes one string of them. -/
theorem GdbProtocolData.Begins.put {gdb : GdbProtocolData} {pos : Nat} {s : Text}
    (hs : gdb.Begins pos s) (t : Text) (hle : pos + s.length + t.length + 1 ≤ 4096) :
    ∃ gdb', gdb.put (pos + s.length) t = .ok gdb' ∧ OnlyPacket gdb gdb' ∧
      gdb'.Holds pos (s ++ t) := by
  obtain ⟨front, rest, rfl, hb⟩ := hs
  rw [← List.append_assoc] at hb
  obtain ⟨packet, hw, hb'⟩ := Packet.write_append hb (t ++ [0]) (by
    simp only [List.length_append, List.length_singleton]
    omega)
  rw [List.length_append] at hw
  refine ⟨{ gdb with packet := packet }, ?_, rfl, front, rest.drop (t ++ [0]).length, rfl, ?_⟩
  · unfold GdbProtocolData.put
    rw [hw]
    rfl
  · show packet.bytes = _
    rw [hb']
    simp only [List.append_assoc, List.singleton_append]

theorem GdbProtocolData.put_holds (gdb : GdbProtocolData) (pos : Nat) (s : Text)
    (hle : pos + s.length + 1 ≤ 4096) :
    ∃ gdb', gdb.put pos s = .ok gdb' ∧ OnlyPacket gdb gdb' ∧ gdb'.Holds pos s :=
  (gdb.begins_nil (by omega)).put s hle

/-! ## Sending -/

/-- The bytes around a payload. -/
def frame (s : Text) : Text := ch '$' :: (s ++ ch '#' :: hexText 2 (checksum s).toNat)

@[simp] theorem length_frame (s : Text) : (frame s).length = s.length + 4 := by
  rw [frame, List.length_cons, List.length_append, List.length_cons, length_hexText]

theorem frame_inj {s s' : Text} : frame s = frame s' ↔ s = s' := by
  constructor
  · intro h
    have hlen := congrArg List.length h
    rw [length_frame, length_frame] at hlen
    exact (List.append_inj (List.cons.inj h).2 (Nat.add_right_cancel hlen)).1
  · rintro rfl
    rfl

/-- More has been sent. -/
def GdbProtocolData.wrote (gdb : GdbProtocolData) (s : Text) : GdbProtocolData :=
  { gdb with fd := gdb.fd ++ s }

@[simp] theorem GdbProtocolData.wrote_arm (gdb : GdbProtocolData) (s : Text) :
    (gdb.wrote s).arm = gdb.arm := rfl

theorem rioWriten_of_open {gdb : GdbProtocolData} (hopen : gdb.shut = false) (s : Text) :
    rioWriten gdb s = .ok (gdb.wrote s) :=
  if_neg fun h => Bool.false_ne_true (hopen.symm.trans h.1)

theorem rioWriten_of_shut {gdb : GdbProtocolData} (hshut : gdb.shut = true) {s : Text}
    (hs : s ≠ []) : rioWriten gdb s = .error .connectionShut :=
  if_pos ⟨hshut, hs⟩

/-- Between `gdb` and `gdb'` the payload `s` has been sent, and nothing
else done. -/
structure Sent (gdb : GdbProtocolData) (s : Text) (gdb' : GdbProtocolData) : Prop where
  arm : gdb'.arm = gdb.arm
  targetException : gdb'.targetException = gdb.targetException
  table : gdb'.table = gdb.table
  shut : gdb'.shut = gdb.shut
  fd : gdb'.fd = gdb.fd ++ frame s
  /-- what a request for retransmission would send -/
  stored : gdb'.packet.bytes.take gdb'.len = frame s

theorem Sent.of_onlyPacket {gdb gdb₁ gdb' : GdbProtocolData} {s : Text}
    (hsent : Sent gdb₁ s gdb') (h : OnlyPacket gdb gdb₁) : Sent gdb s gdb' := by
  unfold OnlyPacket at h
  rw [h] at hsent
  exact ⟨hsent.arm, hsent.targetException, hsent.table, hsent.shut, hsent.fd, hsent.stored⟩

/-- The run sends the payload `s`, and does nothing else; where the connection
has been shut it fails. -/
structure Transmits (gdb : GdbProtocolData) (s : Text) (run : Except NoReturn GdbProtocolData) :
    Prop where
  ok : gdb.shut = false → ∃ gdb', run = .ok gdb' ∧ Sent gdb s gdb'
  error : gdb.shut = true → run = .error .connectionShut

theorem Transmits.of_onlyPacket {gdb gdb₁ : GdbProtocolData} {s : Text}
    {run : Except NoReturn GdbProtocolData} (hsends : Transmits gdb₁ s run)
    (h : OnlyPacket gdb gdb₁) : Transmits gdb s run := by
  have hshut : gdb₁.shut = gdb.shut := by rw [h]
  refine ⟨fun hopen => ?_, fun hs => hsends.error (hshut.trans hs)⟩
  obtain ⟨gdb', hrun, hsent⟩ := hsends.ok (hshut.trans hopen)
  exact ⟨gdb', hrun, hsent.of_onlyPacket h⟩

/-- A run that returns has found the connection open. -/
theorem Transmits.of_ok {gdb gdb' : GdbProtocolData} {s : Text}
    {run : Except NoReturn GdbProtocolData} (hsends : Transmits gdb s run) (hrun : run = .ok gdb') :
    gdb.shut = false ∧ Sent gdb s gdb' := by
  cases hshut : gdb.shut with
  | true => exact nomatch (hsends.error hshut).symm.trans hrun
  | false =>
      obtain ⟨gdb'', hrun', hsent⟩ := hsends.ok hshut
      obtain rfl := Except.ok.inj (hrun'.symm.trans hrun)
      exact ⟨rfl, hsent⟩

/-- `gdb_send_buffer` up to the `#`: what is left are two writes, behind the
string at `packet[1]`. -/
theorem gdbSendBuffer_eq {gdb : GdbProtocolData} {s : Text} (hs : gdb.Holds 1 s)
    (h0 : (0 : Byte) ∉ s) :
    ∃ (packet : Packet) (rest : Text), packet.bytes = (ch '$' :: s ++ [ch '#']) ++ rest ∧
      gdbSendBuffer gdb
        = packet.write (ch '$' :: s ++ [ch '#']).length (hexText 2 (checksum s).toNat ++ [0]) >>=
            fun packet => packet.write (frame s).length [0] >>=
            fun packet =>
              gdbTransmitPacket { gdb with packet := packet, len := (frame s).length } := by
  obtain ⟨front, rest, hfront, hb⟩ := hs
  obtain ⟨b, rfl⟩ := List.length_eq_one_iff.mp hfront
  have hlen : gdb.packet.bytes.length = 4096 := gdb.packet.length_eq
  rw [hb] at hlen
  simp only [List.length_append, List.length_cons, List.length_nil] at hlen
  have hb₀ : gdb.packet.bytes = [] ++ ([b] ++ (s ++ 0 :: rest)) := hb
  obtain ⟨packet₁, hw₁, hb₁⟩ := Packet.write_append hb₀ [ch '$'] (by decide)
  have hw₁' : gdb.packet.write 0 [ch '$'] = .ok packet₁ := hw₁
  have hb₁' : packet₁.bytes = ch '$' :: s ++ 0 :: rest := hb₁
  have hstring : cString (packet₁.bytes.drop 1) = s := by
    rw [hb₁']
    exact cString_append h0 rest
  obtain ⟨packet₂, hw₂, hb₂⟩ := Packet.write_append hb₁' [ch '#'] (by
    simp only [List.length_cons, List.length_nil]
    omega)
  refine ⟨packet₂, rest, ?_, ?_⟩
  · rw [hb₂]
    simp
  · have hlen₂ : 1 + s.length = (ch '$' :: s).length := by
      rw [List.length_cons, Nat.add_comm]
    have hlen₃ : (ch '$' :: s).length + 1 = (ch '$' :: s ++ [ch '#']).length := by
      rw [List.length_append, List.length_singleton]
    have hlen₄ : (ch '$' :: s ++ [ch '#']).length + 2 = (frame s).length := by
      rw [length_frame, List.length_append, List.length_cons, List.length_singleton]
    unfold gdbSendBuffer
    rw [hw₁', ok_bind]
    simp only [hstring]
    rw [hlen₂, hw₂, ok_bind, hlen₃, hlen₄]

/-- `gdb_send_buffer` sends the string at `packet[1]`. -/
theorem gdbSendBuffer_spec {gdb : GdbProtocolData} {s : Text} (hs : gdb.Holds 1 s)
    (h0 : (0 : Byte) ∉ s) (hle : s.length ≤ 4091) : Transmits gdb s (gdbSendBuffer gdb) := by
  obtain ⟨packet₂, rest, hb₂, heq⟩ := gdbSendBuffer_eq hs h0
  obtain ⟨packet₃, hw₃, hb₃⟩ :=
    Packet.write_append hb₂ (hexText 2 (checksum s).toNat ++ [0]) (by
      simp only [List.length_append, List.length_cons, List.length_nil, length_hexText]
      omega)
  have hb₃' : packet₃.bytes = frame s ++ 0 :: rest.drop 3 := by
    rw [hb₃, List.length_append, length_hexText, List.length_singleton, frame]
    simp
  obtain ⟨packet₄, hw₄, hb₄⟩ := Packet.write_append hb₃' [0] (by
    simp only [length_frame, List.length_cons, List.length_nil]
    omega)
  have hstored : packet₄.bytes.take (frame s).length = frame s := by
    rw [hb₄, List.take_left]
  have hsend : gdbSendBuffer gdb
      = rioWriten { gdb with packet := packet₄, len := (frame s).length } (frame s) := by
    rw [heq, hw₃, ok_bind, hw₄, ok_bind, gdbTransmitPacket, hstored]
  rw [hsend]
  refine ⟨fun hopen => ?_, fun hshut => ?_⟩
  · refine ⟨_, rioWriten_of_open ?_ _, rfl, rfl, rfl, rfl, rfl, hstored⟩
    exact hopen
  · refine rioWriten_of_shut ?_ (List.cons_ne_nil _ _)
    exact hshut

/-- `gdb_send_data` -/
theorem gdbSendData_spec (gdb : GdbProtocolData) {s : Text} (h0 : (0 : Byte) ∉ s)
    (hle : s.length ≤ 4091) : Transmits gdb s (gdbSendData gdb s) := by
  obtain ⟨gdb₁, hput, honly, hs⟩ := gdb.put_holds 1 s (by omega)
  rw [gdbSendData, hput, ok_bind]
  exact (gdbSendBuffer_spec hs h0 hle).of_onlyPacket honly

theorem gdbSendData_ok {gdb : GdbProtocolData} (hopen : gdb.shut = false) {s : Text}
    (hs : (0 : Byte) ∉ s ∧ s.length ≤ 4091) : ∃ gdb', gdbSendData gdb s = .ok gdb' := by
  obtain ⟨gdb', hsend, -⟩ := (gdbSendData_spec gdb hs.1 hs.2).ok hopen
  exact ⟨gdb', hsend⟩

/-! ## Receiving -/

/-- The number in the two digits of a packet. -/
def PacketToken.given (p : PacketToken) : Nat := number 16 [p.high, p.low]

theorem PacketToken.digits (p : PacketToken) : Digits [p.high, p.low] where
  ne_nil := List.cons_ne_nil _ _
  all := by
    intro c hc
    rw [List.mem_cons, List.mem_singleton] at hc
    rcases hc with rfl | rfl
    · exact p.high_hex
    · exact p.low_hex

theorem PacketToken.given_lt (p : PacketToken) : p.given < 256 := by
  obtain ⟨a, ha⟩ := Option.isSome_iff_exists.mp p.high_hex
  obtain ⟨b, hb⟩ := Option.isSome_iff_exists.mp p.low_hex
  have := digitValue_lt ha
  have := digitValue_lt hb
  have hgiven : p.given = 16 * (16 * 0 + (digitValue 16 p.high).getD 0)
      + (digitValue 16 p.low).getD 0 := rfl
  rw [hgiven, ha, hb]
  simp only [Option.getD_some]
  omega

/-- What a handler finds in the buffer: the payload, ended by a NUL where
the `#` was. -/
def PacketToken.opened (p : PacketToken) (after : Text) : Text :=
  ch '$' :: (p.payload ++ 0 :: p.high :: p.low :: 0 :: after)

/-- The checksum of the packet is right. -/
def PacketToken.Verifies (p : PacketToken) : Prop := (checksum p.payload).toNat = p.given

instance (p : PacketToken) : Decidable p.Verifies := inferInstanceAs (Decidable (_ = _))

/-- A packet is handled where its digits are the sum of its payload, and
asked for again where they are not. -/
theorem gdbPacketAnalysis_eq (h : GdbHost) (turns : Nat) (gdb : GdbProtocolData)
    (p : PacketToken) (after : Text) :
    gdbPacketAnalysis h turns gdb (p.text ++ 0 :: after) p.text.length
      = if p.Verifies then
          gdbSendAck gdb >>= fun gdb => handlePacket h turns gdb (p.opened after)
        else gdbRequireRetransmission gdb := by
  have hlen : max 1 (p.text.length - 3) = (ch '$' :: p.payload).length := by
    rw [p.length_text, List.length_cons]
    omega
  have htext : p.text ++ 0 :: after
      = (ch '$' :: p.payload) ++ ch '#' :: ([p.high, p.low] ++ 0 :: after) := by
    simp [PacketToken.text]
  have hscan : sscanf [.hex none] ([p.high, p.low] ++ 0 :: after)
      = [unsignedLong false p.given] := by
    unfold sscanf
    rw [scanHex_digits p.digits (endsNumber_cons _ (by decide))]
    rfl
  have hgiven : stored [unsignedLong false p.given] 0 (h.gdbGarbage .given)
      = BitVec.ofNat 32 p.given := by
    have := p.given_lt
    show (unsignedLong false p.given).setWidth 32 = _
    exact setWidth_unsignedLong (by decide) (by omega)
  have hcheck : (checksum p.payload).setWidth 32 = BitVec.ofNat 32 p.given ↔ p.Verifies := by
    have := p.given_lt
    have := (checksum p.payload).isLt
    rw [PacketToken.Verifies, ← BitVec.toNat_inj, BitVec.toNat_setWidth, BitVec.toNat_ofNat]
    omega
  unfold gdbPacketAnalysis
  simp only [hlen, htext]
  rw [List.take_left, List.drop_append, List.drop_eq_nil_of_le (Nat.le_succ _), List.nil_append,
    Nat.add_sub_cancel_left, List.drop_succ_cons, List.drop_zero, List.drop_succ_cons,
    List.drop_zero, hscan, hgiven]
  simp only [hcheck]
  rw [List.set_append_right _ _ (Nat.le_refl _), Nat.sub_self, List.set_cons_zero]
  rfl

/-- What the handler of a packet is given: the payload after its letter,
and what lies behind. -/
def PacketToken.behind (p : PacketToken) (after : Text) : Text := 0 :: p.high :: p.low :: 0 :: after

/-- A packet that verifies is acknowledged and handed to the handler of
its letter. -/
theorem gdbPacketAnalysis_letter (h : GdbHost) (turns : Nat) {gdb : GdbProtocolData}
    (hopen : gdb.shut = false) {p : PacketToken} (hp : p.Verifies) {letter : Byte} {data : Text}
    (hpayload : p.payload = letter :: data) {handler : GdbHandler}
    (hletter : gdbHandler h turns letter = some handler) (after : Text) :
    gdbPacketAnalysis h turns gdb (p.text ++ 0 :: after) p.text.length
      = handler (gdb.wrote [ch '+']) (data ++ p.behind after) := by
  have hopened : p.opened after = ch '$' :: letter :: (data ++ p.behind after) := by
    rw [PacketToken.opened, hpayload]
    rfl
  rw [gdbPacketAnalysis_eq, if_pos hp, gdbSendAck, rioWriten_of_open hopen, ok_bind, hopened,
    handlePacket]
  simp only [List.getD_cons_succ, List.getD_cons_zero, hletter]
  rfl

/-- The sum is taken modulo 256. -/
theorem toNat_checksum (s : Text) : (checksum s).toNat = (s.map BitVec.toNat).sum % 256 := by
  have hfold : ∀ (s : Text) (c : Byte),
      (s.foldl (· + ·) c).toNat = (c.toNat + (s.map BitVec.toNat).sum) % 256 := by
    intro s
    induction s with
    | nil =>
        intro c
        rw [List.map_nil, List.sum_nil, Nat.add_zero]
        exact (Nat.mod_eq_of_lt c.isLt).symm
    | cons x s ih =>
        intro c
        rw [List.foldl_cons, ih, List.map_cons, List.sum_cons, BitVec.toNat_add]
        omega
  rw [checksum, hfold]
  exact congrArg (· % 256) (Nat.zero_add _)

/-! ## The round trip -/

theorem hexText_two (c : Byte) :
    hexText 2 c.toNat = [hexDigit (c.toNat / 16 % 16), hexDigit (c.toNat % 16)] := rfl

theorem high_mem_hexText (c : Byte) : hexDigit (c.toNat / 16 % 16) ∈ hexText 2 c.toNat := by
  rw [hexText_two]
  exact List.mem_cons_self

theorem low_mem_hexText (c : Byte) : hexDigit (c.toNat % 16) ∈ hexText 2 c.toNat := by
  rw [hexText_two]
  exact List.mem_cons_of_mem _ List.mem_cons_self

/-- A payload without `$` and `#`, framed. -/
def framedToken (s : Text) (hd : ch '$' ∉ s) (hh : ch '#' ∉ s) : PacketToken where
  payload := s
  high := hexDigit ((checksum s).toNat / 16 % 16)
  low := hexDigit ((checksum s).toNat % 16)
  dollar_notMem := hd
  hash_notMem := hh
  high_hex := isDigit_of_mem_hexText (high_mem_hexText (checksum s))
  low_hex := isDigit_of_mem_hexText (low_mem_hexText (checksum s))

theorem framedToken_text (s : Text) (hd : ch '$' ∉ s) (hh : ch '#' ∉ s) :
    (framedToken s hd hh).text = frame s := rfl

theorem framedToken_verifies (s : Text) (hd : ch '$' ∉ s) (hh : ch '#' ∉ s) :
    (framedToken s hd hh).Verifies := by
  have h := number_hexText 2 (checksum s).toNat
  rw [Nat.mod_eq_of_lt (show (checksum s).toNat < 16 ^ 2 from (checksum s).isLt)] at h
  exact h.symm

/-- What `gdb_send_buffer` sends is one packet, which is acknowledged and
opened to the payload it was made of; a packet whose digits are not the
sum of its payload modulo 256 is answered by `-` and nothing else.  The
connections are open. -/
theorem packet_framing (h : GdbHost) (turns : Nat) :
    (∀ (gdb : GdbProtocolData) (s : Text), gdb.shut = false → gdb.Holds 1 s → s.length ≤ 4091 →
      (0 : Byte) ∉ s → ch '$' ∉ s → ch '#' ∉ s →
      ∃ gdb', gdbSendBuffer gdb = .ok gdb' ∧ gdb'.fd = gdb.fd ++ frame s ∧
        Lexer.tokenise scannerRules (frame s) = [(.packet, frame s)] ∧
        ∀ receiver after, receiver.shut = false → ∃ text,
          gdbPacketAnalysis h turns receiver (frame s ++ 0 :: after) (frame s).length
            = handlePacket h turns { receiver with fd := receiver.fd ++ [ch '+'] } text ∧
          cString (text.drop 1) = s) ∧
    (∀ (p : PacketToken), (p.payload.map BitVec.toNat).sum % 256 ≠ number 16 [p.high, p.low] →
      ∀ receiver after, receiver.shut = false →
        gdbPacketAnalysis h turns receiver (p.text ++ 0 :: after) p.text.length
          = .ok { receiver with fd := receiver.fd ++ [ch '-'] }) := by
  constructor
  · intro gdb s hopen hs hle h0 hd hh
    obtain ⟨gdb', hsend, hsent⟩ := (gdbSendBuffer_spec hs h0 hle).ok hopen
    refine ⟨gdb', hsend, hsent.fd, ?_, ?_⟩
    · have htoken := tokenise_messages [.packet (framedToken s hd hh)]
      rwa [List.map_singleton, List.flatten_singleton, List.map_singleton] at htoken
    · intro receiver after hopen
      refine ⟨(framedToken s hd hh).opened after, ?_, ?_⟩
      · rw [← framedToken_text s hd hh, gdbPacketAnalysis_eq,
          if_pos (framedToken_verifies s hd hh), gdbSendAck, rioWriten_of_open hopen]
        rfl
      · exact cString_append h0 _
  · intro p hsum receiver after hopen
    have hwrong : ¬ p.Verifies := by
      rwa [PacketToken.Verifies, toNat_checksum]
    rw [gdbPacketAnalysis_eq, if_neg hwrong]
    exact rioWriten_of_open hopen [ch '-']

/-- A buffer of NULs. -/
def blankPacket : Packet := { bytes := List.replicate 4096 0, length_eq := List.length_replicate }

/-- A server with `OK` in its buffer. -/
def holdingOk : GdbProtocolData :=
  gdbInitData (armCreate x86Host registersCreate (memoryCreate 16 fun _ => 0))
    { bytes := 0 :: (bytes "OK" ++ 0 :: List.replicate 4092 0)
      length_eq := by
        rw [List.length_cons, List.length_append, List.length_cons, List.length_replicate]
        rfl }
    fun _ => 0

/-- `$OK#00` -/
def wrongSum : PacketToken :=
  { framedToken (bytes "OK") (by decide) (by decide) with
    high := ch '0', low := ch '0', high_hex := by decide, low_hex := by decide }

theorem packet_framing_ok :
    (∃ gdb', gdbSendBuffer holdingOk = .ok gdb' ∧
      gdb'.fd = holdingOk.fd ++ frame (bytes "OK") ∧
      Lexer.tokenise scannerRules (frame (bytes "OK")) = [(.packet, frame (bytes "OK"))] ∧
      ∃ text,
        gdbPacketAnalysis x86GdbHost 1 holdingOk (frame (bytes "OK") ++ 0 :: [])
            (frame (bytes "OK")).length
          = handlePacket x86GdbHost 1 { holdingOk with fd := holdingOk.fd ++ [ch '+'] } text ∧
        cString (text.drop 1) = bytes "OK") ∧
    gdbPacketAnalysis x86GdbHost 1 holdingOk (wrongSum.text ++ 0 :: []) wrongSum.text.length
      = .ok { holdingOk with fd := holdingOk.fd ++ [ch '-'] } := by
  have hframing := packet_framing x86GdbHost 1
  obtain ⟨gdb', hsend, hfd, htoken, hopened⟩ := hframing.1 holdingOk (bytes "OK") rfl
    ⟨[0], List.replicate 4092 0, rfl, rfl⟩ (by decide) (by decide) (by decide) (by decide)
  exact ⟨⟨gdb', hsend, hfd, htoken, hopened holdingOk [] rfl⟩,
    hframing.2 wrongSum (by decide) holdingOk [] rfl⟩

end Armator
