/-
The registers as one packet: `G` writes them, `g` reads them.

`write_general_registers` writes r0 to r15 first, in the mode it finds,
and the CPSR last; `read_general_registers` reads all of them in the mode
the CPSR now says.  Where the packet changes the mode, the registers that
are banked differently in the two modes are written in the bank of the
old one and read from the bank of the new one
(`registers_round_trip_iff`).
-/
import Armator.Effects
import Armator.Gdb.Framing

namespace Armator

open CText Replay

/-! ## The fields of a packet -/

/-- Eight hexadecimal digits. -/
structure HexField where
  digits : Text
  length_eq : digits.length = 8
  all : ∀ c ∈ digits, isDigit 16 c = true

/-- The number in a field. -/
def HexField.value (f : HexField) : Word := BitVec.ofNat 32 (number 16 f.digits)

/-- The text of a `G` packet after its letter: sixteen registers, the
fields for the floating point that nobody looks at, the CPSR. -/
structure RegisterPayload where
  registers : Fin 16 → HexField
  ignored : Text
  ignored_length : ignored.length = 200
  cpsr : HexField

def RegisterPayload.text (payload : RegisterPayload) : Text :=
  (List.ofFn fun n => (payload.registers n).digits).flatten ++
    (payload.ignored ++ payload.cpsr.digits)

theorem HexField.toDigits (f : HexField) : Digits f.digits where
  ne_nil := fun h => by
    have := f.length_eq
    rw [h] at this
    cases this
  all := f.all

/-- `read_uint32` reads a field, whatever follows it. -/
theorem readUint32_field (h : GdbHost) (f : HexField) (rest : Text) :
    readUint32 h (f.digits ++ rest) = .ok f.value := by
  have hne : f.digits ++ rest ≠ [] := fun hnil =>
    f.toDigits.ne_nil (List.append_eq_nil_iff.mp hnil).1
  have hlt : number 16 f.digits < 2 ^ 32 := by
    have := number_lt f.all
    rwa [f.length_eq] at this
  rw [readUint32, if_neg hne, sscanf, scanHex_width f.toDigits f.length_eq]
  exact congrArg Except.ok (setWidth_unsignedLong (by decide) hlt)

section Payload

variable (payload : RegisterPayload) (rest : Text)

theorem RegisterPayload.width :
    ∀ f ∈ List.ofFn fun n => (payload.registers n).digits, f.length = 8 := by
  intro f hf
  obtain ⟨n, rfl⟩ := List.mem_ofFn.mp hf
  exact (payload.registers n).length_eq

theorem RegisterPayload.length_registers :
    (List.ofFn fun n => (payload.registers n).digits).flatten.length = 128 := by
  rw [length_fields payload.width, List.length_ofFn]

/-- Field `n` is found where `write_general_registers` looks for it. -/
theorem RegisterPayload.drop_register (n : Fin 16) :
    ∃ rest', (payload.text ++ rest).drop (8 * n.val) = (payload.registers n).digits ++ rest' := by
  have hlen := payload.length_registers
  have hn : n.val < (List.ofFn fun n => (payload.registers n).digits).length := by
    rw [List.length_ofFn]
    exact n.isLt
  rw [text, List.append_assoc, List.drop_append_of_le_length (by omega),
    drop_fields payload.width hn, List.getElem_ofFn, List.append_assoc]
  exact ⟨_, rfl⟩

theorem RegisterPayload.drop_cpsr :
    (payload.text ++ rest).drop (8 * (16 + 8 * 3 + 1)) = payload.cpsr.digits ++ rest := by
  have hlen := payload.length_registers
  have hignored := payload.ignored_length
  have hfront : ((List.ofFn fun n => (payload.registers n).digits).flatten
      ++ payload.ignored).length = 8 * (16 + 8 * 3 + 1) := by
    rw [List.length_append, hlen, hignored]
  rw [text, ← List.append_assoc, List.append_assoc _ payload.cpsr.digits, ← hfront]
  exact List.drop_left

end Payload

/-! ## Writing -/

/-- The values of the fields, register by register. -/
def RegisterPayload.entries (payload : RegisterPayload) (l : List (Fin 16)) :
    List (Fin 16 × Word) :=
  l.map fun n => (n, (payload.registers n).value)

theorem writeRegister_field (h : GdbHost) (gdb : GdbProtocolData) (n : Fin 16) (f : HexField)
    (rest : Text) :
    writeRegister h gdb (BitVec.ofNat 32 n.val) (f.digits ++ rest)
      = .ok { gdb with arm := armWriteRegister gdb.arm n f.value } := by
  have hn : (BitVec.ofNat 32 n.val).toNat = n.val :=
    Nat.mod_eq_of_lt (Nat.lt_trans n.isLt (by decide))
  have hlt : (BitVec.ofNat 32 n.val).toNat < 16 := hn.symm ▸ n.isLt
  have hreg : (⟨(BitVec.ofNat 32 n.val).toNat, hlt⟩ : Fin 16) = n := Fin.ext hn
  rw [writeRegister, readUint32_field, ok_bind, dif_pos hlt, hreg]
  rfl

/-- The loop over r0 to r15 writes them in the mode it finds. -/
theorem writeRegisters_fields (h : GdbHost) (payload : RegisterPayload) (rest : Text)
    (l : List (Fin 16)) (gdb : GdbProtocolData) :
    (l.map Fin.val).foldlM
        (fun gdb i => writeRegister h gdb (BitVec.ofNat 32 i)
          ((payload.text ++ rest).drop (8 * i))) gdb
      = .ok { gdb with arm := writeRegisters gdb.arm (payload.entries l) } := by
  induction l generalizing gdb with
  | nil => rfl
  | cons n l ih =>
      obtain ⟨rest', hdrop⟩ := payload.drop_register rest n
      rw [List.map_cons, List.foldlM_cons, hdrop, writeRegister_field, ok_bind, ih]
      rfl

/-- The state of the processor after a `G` packet. -/
def RegisterPayload.written (payload : RegisterPayload) (arm : ArmCore) : ArmCore :=
  armWriteCpsr (writeRegisters arm (payload.entries (List.finRange 16))) payload.cpsr.value

theorem writeGeneralRegisters_spec (h : GdbHost) (gdb : GdbProtocolData)
    (payload : RegisterPayload) (rest : Text) :
    Transmits { gdb with arm := payload.written gdb.arm } (bytes "OK")
      (writeGeneralRegisters h gdb (payload.text ++ rest)) := by
  have hloop := writeRegisters_fields h payload rest (List.finRange 16) gdb
  have hrange : (List.finRange 16).map Fin.val = List.range 16 := rfl
  rw [hrange] at hloop
  rw [writeGeneralRegisters, hloop, ok_bind, payload.drop_cpsr, readUint32_field, ok_bind]
  exact gdbSendData_spec { gdb with arm := payload.written gdb.arm } (by decide) (by decide)

/-! ## Reading -/

/-- The step of a reply puts `text` behind what the buffer holds, whatever
else the state is, as long as its processor is `arm`. -/
def Writes (arm : ArmCore)
    (write : GdbProtocolData × Nat → Except NoReturn (GdbProtocolData × Nat)) (text : Text) :
    Prop :=
  ∀ gdb s, gdb.arm = arm → gdb.Begins 1 s → 1 + s.length + text.length + 1 ≤ 4096 →
    ∃ gdb', write (gdb, 1 + s.length) = .ok (gdb', 1 + (s ++ text).length) ∧
      OnlyPacket gdb gdb' ∧ gdb'.Begins 1 (s ++ text)

theorem Writes.nextField {arm : ArmCore}
    {write : GdbProtocolData → Nat → Except NoReturn GdbProtocolData} {text : Text}
    (hwrite : ∀ gdb pos, gdb.arm = arm → write gdb pos = gdb.put pos text)
    (hlen : text.length = 8) : Writes arm (nextField write) text := by
  intro gdb s harm hs hle
  obtain ⟨gdb', hput, honly, hholds⟩ := hs.put text hle
  refine ⟨gdb', ?_, honly, hholds.begins⟩
  rw [Armator.nextField, hwrite gdb _ harm, hput, ok_bind, List.length_append, hlen, Nat.add_assoc]
  rfl

theorem Writes.nil (arm : ArmCore) : Writes arm (fun s => .ok s) [] := by
  intro gdb s _ hs _
  rw [List.append_nil]
  exact ⟨gdb, rfl, OnlyPacket.refl gdb, hs⟩

/-- Steps one after the other put their texts one after the other. -/
theorem Writes.bind {arm : ArmCore}
    {write write' : GdbProtocolData × Nat → Except NoReturn (GdbProtocolData × Nat)}
    {text text' : Text} (hw : Writes arm write text) (hw' : Writes arm write' text') :
    Writes arm (fun s => write s >>= write') (text ++ text') := by
  intro gdb s harm hs hle
  rw [List.length_append] at hle
  obtain ⟨gdb₁, hwrite₁, honly₁, hs₁⟩ := hw gdb s harm hs (by omega)
  obtain ⟨gdb₂, hwrite₂, honly₂, hs₂⟩ := hw' gdb₁ (s ++ text) (honly₁.arm.trans harm) hs₁ (by
    rw [List.length_append]
    omega)
  rw [List.append_assoc] at hwrite₂ hs₂
  refine ⟨gdb₂, ?_, honly₁.trans honly₂, hs₂⟩
  show (write (gdb, 1 + s.length) >>= write') = _
  rw [hwrite₁, ok_bind, hwrite₂]

theorem Writes.foldlM {arm : ArmCore} {ι : Type}
    {write : ι → GdbProtocolData × Nat → Except NoReturn (GdbProtocolData × Nat)}
    {text : ι → Text} {l : List ι} (hl : ∀ i ∈ l, Writes arm (write i) (text i)) :
    Writes arm (fun s => l.foldlM (fun s i => write i s) s) (l.map text).flatten := by
  induction l with
  | nil => exact Writes.nil arm
  | cons i l ih =>
      simp only [List.foldlM_cons, List.map_cons, List.flatten_cons]
      exact (hl i List.mem_cons_self).bind (ih fun j hj => hl j (List.mem_cons_of_mem i hj))

/-- The reply of `read_general_registers`: sixteen registers, 25 fields of
`x`, the CPSR. -/
def registersReply (values : Fin 16 → Word) (cpsr : Word) : Text :=
  ((List.finRange 16).map fun n => hexText 8 (values n).toNat).flatten ++
    ((List.replicate 25 (bytes "xxxxxxxx")).flatten ++ hexText 8 cpsr.toNat)

theorem length_registerField (values : Fin 16 → Word) :
    ∀ f ∈ (List.finRange 16).map fun n => hexText 8 (values n).toNat, f.length = 8 := by
  intro f hf
  obtain ⟨n, -, rfl⟩ := List.mem_map.mp hf
  exact length_hexText ..

theorem length_registerFields (values : Fin 16 → Word) :
    ((List.finRange 16).map fun n => hexText 8 (values n).toNat).flatten.length = 128 := by
  rw [length_fields (length_registerField values), List.length_map, List.length_finRange]

theorem length_registersReply (values : Fin 16 → Word) (cpsr : Word) :
    (registersReply values cpsr).length = 336 := by
  have hx : (List.replicate 25 (bytes "xxxxxxxx")).flatten.length = 200 := by
    rw [length_fields (k := 8), List.length_replicate]
    intro f hf
    rw [List.eq_of_mem_replicate hf]
    rfl
  rw [registersReply, List.length_append, length_registerFields, List.length_append, hx,
    length_hexText]

/-- Field `n` of the reply. -/
theorem field_registersReply (values : Fin 16 → Word) (cpsr : Word) (n : Fin 16) :
    ((registersReply values cpsr).drop (8 * n.val)).take 8 = hexText 8 (values n).toNat := by
  have hlen := length_registerFields values
  have hn : n.val < ((List.finRange 16).map fun n => hexText 8 (values n).toNat).length := by
    rw [List.length_map, List.length_finRange]
    exact n.isLt
  rw [registersReply, List.drop_append_of_le_length (by omega),
    drop_fields (length_registerField values) hn, List.getElem_map, List.getElem_finRange,
    List.append_assoc]
  exact List.take_left' (length_hexText ..)

theorem hexText_word_inj {v v' : Word} : hexText 8 v.toNat = hexText 8 v'.toNat ↔ v = v' := by
  rw [hexText_inj (show v.toNat < 16 ^ 8 from v.isLt) (show v'.toNat < 16 ^ 8 from v'.isLt),
    BitVec.toNat_inj]

theorem readRegister_eq (gdb : GdbProtocolData) (pos : Nat) (n : Fin 16) :
    readRegister gdb pos (BitVec.ofNat 8 n.val) =
      gdb.put pos (hexText 8 (gdb.register n).toNat) := by
  have hn : (BitVec.ofNat 8 n.val).toNat = n.val :=
    Nat.mod_eq_of_lt (Nat.lt_trans n.isLt (by decide))
  have hlt : (BitVec.ofNat 8 n.val).toNat < 16 := hn.symm ▸ n.isLt
  have hreg : (⟨(BitVec.ofNat 8 n.val).toNat, hlt⟩ : Fin 16) = n := Fin.ext hn
  rw [readRegister, dif_pos hlt, hreg]
  rfl

theorem registersReply_nul_notMem (values : Fin 16 → Word) (cpsr : Word) :
    (0 : Byte) ∉ registersReply values cpsr := by
  have hhex : ∀ v : Word, (0 : Byte) ∉ hexText 8 v.toNat :=
    fun v => (digits_hexText (by decide) v.toNat).nul_notMem
  simp only [registersReply, List.mem_append, List.mem_flatten, List.mem_map, not_or]
  refine ⟨?_, ?_, hhex cpsr⟩
  · rintro ⟨_, ⟨n, -, rfl⟩, hn⟩
    exact hhex (values n) hn
  · rintro ⟨f, hf, h0⟩
    rw [List.eq_of_mem_replicate hf] at h0
    exact absurd h0 (by decide)

/-- The fields of `read_general_registers` before the CPSR. -/
def readFields (s : GdbProtocolData × Nat) : Except NoReturn (GdbProtocolData × Nat) :=
  (List.range 16).foldlM
      (fun s i => nextField (fun gdb pos => readRegister gdb pos (BitVec.ofNat 8 i)) s) s >>=
    fun s => (List.range 8).foldlM (fun s _ => (List.range 3).foldlM
      (fun s _ => nextField (fun gdb pos => gdb.put pos (bytes "xxxxxxxx")) s) s) s >>=
    nextField fun gdb pos => gdb.put pos (bytes "xxxxxxxx")

theorem readGeneralRegisters_eq (gdb : GdbProtocolData) (data : Text) :
    readGeneralRegisters gdb data = readFields (gdb, 1) >>= fun s =>
      writeUint32 s.1 s.2 (registersReadCpsr gdb.arm.reg) >>= gdbSendBuffer := by
  unfold readGeneralRegisters readFields
  simp only [bind_assoc]

theorem readFields_writes (gdb : GdbProtocolData) :
    Writes gdb.arm readFields
      (((List.finRange 16).map fun n => hexText 8 (gdb.register n).toNat).flatten ++
        (List.replicate 25 (bytes "xxxxxxxx")).flatten) := by
  have hrange : List.range 16 = (List.finRange 16).map Fin.val := rfl
  have hx : Writes gdb.arm (nextField fun gdb pos => gdb.put pos (bytes "xxxxxxxx"))
      (bytes "xxxxxxxx") := Writes.nextField (fun _ _ _ => rfl) rfl
  refine Writes.bind ?_ ((Writes.foldlM (l := List.range 8) fun _ _ =>
    Writes.foldlM (l := List.range 3) fun _ _ => hx).bind hx)
  simp only [hrange, List.foldlM_map]
  refine Writes.foldlM fun n _ => Writes.nextField (fun gdb₁ pos harm => ?_) (length_hexText ..)
  rw [readRegister_eq, GdbProtocolData.register, harm]
  rfl

/-- What `g` reports: the registers of the mode the CPSR says. -/
theorem readGeneralRegisters_spec (gdb : GdbProtocolData) (data : Text) :
    Transmits gdb (registersReply gdb.register (registersReadCpsr gdb.arm.reg))
      (readGeneralRegisters gdb data) := by
  have hlen := length_registersReply gdb.register (registersReadCpsr gdb.arm.reg)
  rw [registersReply, ← List.append_assoc, List.length_append, length_hexText] at hlen
  obtain ⟨gdb₁, hwrite, honly₁, hs₁⟩ :=
    readFields_writes gdb gdb [] rfl (gdb.begins_nil (by decide)) (by
      simp only [List.length_nil]
      omega)
  rw [List.nil_append] at hwrite hs₁
  obtain ⟨gdb₂, hput, honly₂, hs₂⟩ :=
    hs₁.put (hexText 8 (registersReadCpsr gdb.arm.reg).toNat) (by
      rw [length_hexText]
      omega)
  rw [List.append_assoc] at hs₂
  have hsends := gdbSendBuffer_spec hs₂
    (registersReply_nul_notMem gdb.register (registersReadCpsr gdb.arm.reg)) (by
      rw [← registersReply, length_registersReply]
      decide)
  have hread : readGeneralRegisters gdb data = gdbSendBuffer gdb₂ := by
    have hwrite' : readFields (gdb, 1) = _ := hwrite
    rw [readGeneralRegisters_eq, hwrite', ok_bind]
    show (gdb₁.put _ _ >>= gdbSendBuffer) = _
    rw [hput, ok_bind]
  rw [hread]
  exact hsends.of_onlyPacket (honly₁.trans honly₂)

/-! ## The round trip -/

/-- `g` reports these values. -/
def Reports (gdb : GdbProtocolData) (values : Fin 16 → Word) (cpsr : Word) : Prop :=
  ∃ gdb', readGeneralRegisters gdb [] = .ok gdb' ∧
    gdb'.fd = gdb.fd ++ frame (registersReply values cpsr)

theorem registersReply_inj {values values' : Fin 16 → Word} {cpsr cpsr' : Word} :
    registersReply values cpsr = registersReply values' cpsr' ↔
      values = values' ∧ cpsr = cpsr' := by
  constructor
  · intro h
    refine ⟨funext fun n => ?_, ?_⟩
    · have hfield := congrArg (fun reply => (reply.drop (8 * n.val)).take 8) h
      simp only [field_registersReply] at hfield
      exact hexText_word_inj.mp hfield
    · obtain ⟨-, hrest⟩ := List.append_inj h (by
        rw [length_registerFields, length_registerFields])
      exact hexText_word_inj.mp (List.append_cancel_left hrest)
  · rintro ⟨rfl, rfl⟩
    rfl

theorem reports_iff {gdb : GdbProtocolData} (hopen : gdb.shut = false) (values : Fin 16 → Word)
    (cpsr : Word) :
    Reports gdb values cpsr ↔ gdb.register = values ∧ registersReadCpsr gdb.arm.reg = cpsr := by
  obtain ⟨gdb', hread, hsent⟩ := (readGeneralRegisters_spec gdb []).ok hopen
  rw [← registersReply_inj, ← frame_inj]
  constructor
  · rintro ⟨gdb'', hread', hfd⟩
    obtain rfl := Except.ok.inj (hread.symm.trans hread')
    exact List.append_cancel_left (hsent.fd.symm.trans hfd)
  · intro h
    exact ⟨gdb', hread, h ▸ hsent.fd⟩

/-- The mode a CPSR value says. -/
def modeOf (cpsr : Word) : Byte := (cpsr &&& 0x1f).setWidth 8

section Written

variable (payload : RegisterPayload) (arm : ArmCore)

theorem RegisterPayload.written_cpsr :
    registersReadCpsr (payload.written arm).reg = payload.cpsr.value :=
  armReadCpsr_writeCpsr ..

theorem RegisterPayload.written_mode :
    registersGetMode (payload.written arm).reg = modeOf payload.cpsr.value := by
  have h := payload.written_cpsr arm
  unfold registersReadCpsr at h
  rw [registersGetMode, h]
  rfl

/-- The registers of the old mode hold the fields, and those that only the
new mode sees what they held. -/
theorem RegisterPayload.written_register (n : Fin 16) :
    (payload.written arm).reg (slot n (modeOf payload.cpsr.value))
      = if slot n (modeOf payload.cpsr.value) = slot n (registersGetMode arm.reg) then
          (payload.registers n).value
        else arm.reg (slot n (modeOf payload.cpsr.value)) := by
  have hcpsr : (payload.written arm).reg (slot n (modeOf payload.cpsr.value))
      = (writeRegisters arm (payload.entries (List.finRange 16))).reg
          (slot n (modeOf payload.cpsr.value)) :=
    Function.update_of_ne (slot_ne_cpsr n _) _ _
  rw [hcpsr]
  split_ifs with hs
  · have hview := congrFun (regView_writeRegisters arm (payload.entries (List.finRange 16))) n
    rw [regView, writeRegisters_mode] at hview
    rw [hs, hview]
    have hnodup : ((payload.entries (List.finRange 16)).map Prod.fst).Nodup := by
      rw [RegisterPayload.entries, List.map_map]
      exact (List.map_id (List.finRange 16)).symm ▸ List.nodup_finRange 16
    exact replay_of_mem _ hnodup (e := (n, (payload.registers n).value))
      (List.mem_map_of_mem (List.mem_finRange n))
  · refine (RegWrites.writeRegisters arm _).slot_of_invisible ?_
    intro m hm
    rw [eq_of_slot_eq hm] at hm
    exact hs hm.symm

end Written

/-- After a `G` packet `g` reports what was sent exactly where each
register is the same in the old and the new mode, or already held its
value in the new one. -/
theorem reports_written_iff {gdb gdb' : GdbProtocolData} {payload : RegisterPayload} {s : Text}
    (hopen : gdb.shut = false)
    (hsent : Sent { gdb with arm := payload.written gdb.arm } s gdb') :
    Reports gdb' (fun n => (payload.registers n).value) payload.cpsr.value ↔
      ∀ n, slot n (modeOf payload.cpsr.value) = slot n (registersGetMode gdb.arm.reg) ∨
        gdb.arm.reg (slot n (modeOf payload.cpsr.value)) = (payload.registers n).value := by
  have harm : gdb'.arm = payload.written gdb.arm := hsent.arm
  have hregister : ∀ n, gdb'.register n
      = (payload.written gdb.arm).reg (slot n (modeOf payload.cpsr.value)) := by
    intro n
    rw [GdbProtocolData.register, registersRead_eq, harm, payload.written_mode]
  rw [reports_iff (hsent.shut.trans hopen), harm, payload.written_cpsr, and_iff_left rfl,
    funext_iff]
  refine forall_congr' fun n => ?_
  rw [hregister, payload.written_register]
  split_ifs with hs
  · exact iff_of_true rfl (Or.inl hs)
  · rw [or_iff_right hs]

/-- On an open connection the `G` packet is answered, and `g` after it
reports exactly what was sent where the change of mode, if there is one,
hides no register that was written. -/
theorem registers_round_trip_iff (h : GdbHost) (gdb : GdbProtocolData)
    (payload : RegisterPayload) (rest : Text) (hopen : gdb.shut = false) :
    ∃ gdb', writeGeneralRegisters h gdb (payload.text ++ rest) = .ok gdb' ∧
      (Reports gdb' (fun n => (payload.registers n).value) payload.cpsr.value ↔
        ∀ n, slot n (modeOf payload.cpsr.value) = slot n (registersGetMode gdb.arm.reg) ∨
          gdb.arm.reg (slot n (modeOf payload.cpsr.value)) = (payload.registers n).value) := by
  obtain ⟨gdb', hwrite, hsent⟩ := (writeGeneralRegisters_spec h gdb payload rest).ok hopen
  exact ⟨gdb', hwrite, reports_written_iff hopen hsent⟩

/-- A server after the reset, in SVC mode. -/
def resetServer : GdbProtocolData :=
  gdbInitData (armCreate x86Host registersCreate (memoryCreate 16 fun _ => 0)) blankPacket
    fun _ => 0

/-- The field of a number. -/
def HexField.of (value : Nat) : HexField where
  digits := hexText 8 value
  length_eq := length_hexText ..
  all := fun _ hc => isDigit_of_mem_hexText hc

/-- All registers 1, and the CPSR 0x10: USR mode. -/
def usrPayload : RegisterPayload where
  registers := fun _ => HexField.of 1
  ignored := List.replicate 200 (ch 'x')
  ignored_length := List.length_replicate
  cpsr := HexField.of 0x10

theorem registers_round_trip_iff_usrPayload :
    ∃ gdb', writeGeneralRegisters x86GdbHost resetServer (usrPayload.text ++ [0]) = .ok gdb' ∧
      (Reports gdb' (fun n => (usrPayload.registers n).value) usrPayload.cpsr.value ↔
        ∀ n, slot n (modeOf usrPayload.cpsr.value)
            = slot n (registersGetMode resetServer.arm.reg) ∨
          resetServer.arm.reg (slot n (modeOf usrPayload.cpsr.value))
            = (usrPayload.registers n).value) :=
  registers_round_trip_iff x86GdbHost resetServer usrPayload [0] rfl

/-- r13 and r14 are written in SVC mode, and read in USR mode as 0. -/
theorem registers_lost_with_mode :
    registersGetMode resetServer.arm.reg = SVC ∧ modeOf usrPayload.cpsr.value = USR ∧
    ∃ gdb', writeGeneralRegisters x86GdbHost resetServer (usrPayload.text ++ [0]) = .ok gdb' ∧
      ¬ Reports gdb' (fun n => (usrPayload.registers n).value) usrPayload.cpsr.value := by
  obtain ⟨gdb', hwrite, hsent⟩ :=
    (writeGeneralRegisters_spec x86GdbHost resetServer usrPayload [0]).ok rfl
  refine ⟨by decide +kernel, by decide +kernel, gdb', hwrite, ?_⟩
  rw [reports_written_iff rfl hsent]
  intro hall
  rcases hall 13 with hslot | hold
  · exact absurd hslot (by decide +kernel)
  · exact absurd hold (by decide +kernel)

end Armator
