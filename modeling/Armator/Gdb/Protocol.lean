/-
The gdb server, `gdb_protocol.c`.

A packet arrives as text in the buffer of the scanner: the model is given
the bytes from its `$` to the end of that buffer, so that a handler that
reads past its packet reads what lies there, and one that reads past the
buffer is seen to.  The reply is built in `gdb->packet`, an array of 4096
bytes, and writing outside it is seen as well.

Debug messages, the trace and the lock are left out, for they change
nothing the server reads back; the connection takes what is written, until
`kill_request` shuts it.
-/
import Armator.Gdb.Breakpoints
import Armator.Lib.CText

namespace Armator

open CText

abbrev MAX_PACKET_SIZE : Nat := 4096

/-! ## What the C text does not fix -/

/-- The functions that scan numbers into uninitialised locals. -/
inductive Scans where
  | readMemory | writeMemoryBinary | setBreakpoint | removeBreakpoint

/-- An uninitialised local of the server. -/
inductive GdbLocal where
  /-- `address`, by the function -/
  | address (f : Scans)
  /-- `size`, by the function -/
  | size (f : Scans)
  /-- `type`, by the function -/
  | type (f : Scans)
  /-- `value` in `read_uint32` -/
  | value
  /-- `value` in `read_memory` -/
  | byteValue
  /-- `reg` in `write_single_register` -/
  | reg
  /-- `given` in `gdb_packet_analysis` -/
  | given

/-- A host with a gdb server. -/
structure GdbHost extends Host where
  /-- what an uninitialised local of the server happens to hold -/
  gdbGarbage : GdbLocal → Word

/-- The host of `x86Host`. -/
def x86GdbHost : GdbHost := { x86Host with gdbGarbage := fun _ => 0 }

/-- What `sscanf` has stored for its conversion `i`, or what was there. -/
def stored (values : List (BitVec 64)) (i : Nat) (garbage : Word) : Word :=
  match values[i]? with
  | some value => value.setWidth 32
  | none => garbage

/-! ## State -/

/-- The array `packet`. -/
structure Packet where
  bytes : Text
  length_eq : bytes.length = MAX_PACKET_SIZE

/-- Bytes written to `packet[pos]` and on. -/
def Packet.write (packet : Packet) (pos : Nat) (text : Text) : Except NoReturn Packet :=
  if h : pos + text.length ≤ MAX_PACKET_SIZE then
    .ok
      { bytes := packet.bytes.take pos ++ (text ++ packet.bytes.drop (pos + text.length))
        length_eq := by
          have := packet.length_eq
          simp only [List.length_append, List.length_take, List.length_drop]
          omega }
  else .error .outOfBounds

/-- `struct gdb_protocol_data`.  The registers and the memory it points to
are those of the core; `buffer` always is `packet + 1`. -/
structure GdbProtocolData where
  arm : ArmCore
  targetException : Int
  /-- what has been written to `fd` -/
  fd : Text
  /-- `shutdown` has been called on `fd` -/
  shut : Bool
  packet : Packet
  table : BreakpointTable
  len : Nat

/-- `gdb_init_data`; `malloc` leaves the arrays as they happen to be. -/
def gdbInitData (arm : ArmCore) (packet : Packet)
    (breakpoints : Fin MAX_BREAKPOINTS_NUMBER → Word) : GdbProtocolData where
  arm := arm
  targetException := 0
  fd := []
  shut := false
  packet := packet
  table := emptyTable breakpoints
  len := 0

/-- What a handler is given, apart from the host: the state, and the text
after the letter of the command. -/
abbrev GdbHandler := GdbProtocolData → Text → Except NoReturn GdbProtocolData

/-! ## Sending -/

/-- `Rio_writen` to `fd`.  The first byte written after the `shutdown` ends
the simulator: by the signal SIGPIPE, which nothing handles, and where that
is ignored by the `exit` of `unix_error`. -/
def rioWriten (gdb : GdbProtocolData) (s : Text) : Except NoReturn GdbProtocolData :=
  if gdb.shut = true ∧ s ≠ [] then .error .connectionShut
  else .ok { gdb with fd := gdb.fd ++ s }

/-- `gdb_transmit_packet` -/
def gdbTransmitPacket (gdb : GdbProtocolData) : Except NoReturn GdbProtocolData :=
  rioWriten gdb (gdb.packet.bytes.take gdb.len)

/-- `gdb_send_ack` -/
def gdbSendAck (gdb : GdbProtocolData) : Except NoReturn GdbProtocolData :=
  rioWriten gdb [ch '+']

/-- `gdb_require_retransmission` -/
def gdbRequireRetransmission (gdb : GdbProtocolData) : Except NoReturn GdbProtocolData :=
  rioWriten gdb [ch '-']

/-- The sum of characters in an `unsigned char`. -/
def checksum (s : Text) : Byte := s.foldl (· + ·) 0

/-- A string written to `packet[pos]` and on, as by `snprintf` and `strcpy`. -/
def GdbProtocolData.put (gdb : GdbProtocolData) (pos : Nat) (s : Text) :
    Except NoReturn GdbProtocolData := do
  return { gdb with packet := ← gdb.packet.write pos (s ++ [0]) }

/-- `gdb_send_buffer`.  Its loop stops at the first NUL after `packet[0]`. -/
def gdbSendBuffer (gdb : GdbProtocolData) : Except NoReturn GdbProtocolData := do
  let packet ← gdb.packet.write 0 [ch '$']
  let s := cString (packet.bytes.drop 1)
  let check := checksum s
  let i := 1 + s.length
  let packet ← packet.write i [ch '#']
  let i := i + 1
  let packet ← packet.write i (hexText 2 check.toNat ++ [0])
  let i := i + 2
  let packet ← packet.write i [0]
  gdbTransmitPacket { gdb with packet := packet, len := i }

/-- `gdb_send_data` -/
def gdbSendData (gdb : GdbProtocolData) (data : Text) : Except NoReturn GdbProtocolData := do
  gdbSendBuffer (← gdb.put 1 data)

abbrev DATA_ABORT : Int := 2
abbrev PREFETCH_ABORT : Int := 6

/-- `gdb_send_stop_reason` -/
def gdbSendStopReason (gdb : GdbProtocolData) : Except NoReturn GdbProtocolData :=
  let action :=
    if gdb.targetException = UNDEFINED_INSTRUCTION then bytes "S04"
    else if gdb.targetException = PREFETCH_ABORT then bytes "S0A"
    else if gdb.targetException = DATA_ABORT then bytes "S0B"
    else if gdb.targetException = END_SIMULATION then bytes "X05"
    else bytes "S05"
  gdbSendData gdb action

/-- `read_uint32` -/
def readUint32 (h : GdbHost) (data : Text) : Except NoReturn Word :=
  if data = [] then .error .outOfBounds
  else .ok (stored (sscanf [.hex (some 8)] data) 0 (h.gdbGarbage .value))

/-- `write_uint32`, at `packet[pos]` -/
def writeUint32 (gdb : GdbProtocolData) (pos : Nat) (value : Word) :
    Except NoReturn GdbProtocolData :=
  gdb.put pos (hexText 8 value.toNat)

/-! ## Running -/

/-- `single_step` -/
def singleStep (h : GdbHost) (gdb : GdbProtocolData) : Except NoReturn GdbProtocolData :=
  match armStep h.toHost gdb.arm with
  | .error f => .error (.fault f)
  | .ok (result, arm) => .ok { gdb with arm := arm, targetException := result }

/-- The register `reg` of the current mode, as `registers_read` gives it. -/
def GdbProtocolData.register (gdb : GdbProtocolData) (reg : Fin 16) : Word :=
  registersRead gdb.arm.reg reg (registersGetMode gdb.arm.reg)

/-- The loop of `cont`, for a number of turns. -/
def contLoop (h : GdbHost) : Nat → GdbProtocolData → Except NoReturn GdbProtocolData
  | 0, _ => .error .running
  | turns + 1, gdb => do
      let gdb ← singleStep h gdb
      let PC := gdb.register 15
      if (← gdbFindBreakpoint gdb.table PC) ≠ -1 then return gdb
      else if gdb.targetException ≠ 0 then return gdb
      else contLoop h turns gdb

/-- `cont` -/
def cont (h : GdbHost) (turns : Nat) : GdbHandler := fun gdb _ => do
  gdbSendStopReason (← contLoop h turns gdb)

/-- `cont_with_signal` -/
def contWithSignal (h : GdbHost) (turns : Nat) : GdbHandler := fun gdb data =>
  cont h turns gdb data

/-- `step` -/
def step (h : GdbHost) : GdbHandler := fun gdb _ => do
  gdbSendStopReason (← singleStep h gdb)

/-- `step_with_signal` -/
def stepWithSignal (h : GdbHost) : GdbHandler := fun gdb _ => do
  gdbSendStopReason (← singleStep h gdb)

/-- `reason` -/
def reason : GdbHandler := fun gdb _ => gdbSendStopReason gdb

/-- `kill_request` -/
def killRequest : GdbHandler := fun gdb _ => return { gdb with shut := true }

/-- `query` -/
def query : GdbHandler := fun gdb data =>
  if cString data = bytes "Offsets" then gdbSendData gdb (bytes "Text=0;Data=0;Bss=0")
  else if (cString data).take 9 = bytes "Supported" then gdbSendData gdb (bytes "PacketSize=400")
  else if cString data = bytes "TStatus" then gdbSendData gdb (bytes "T0;tnotrun:0")
  else if cString data = bytes "Symbol::" then gdbSendData gdb []
  else gdbSendData gdb []

/-- `set_thread` -/
def setThread : GdbHandler := fun gdb data =>
  let type := data.headD 0
  let value := (atoi (data.drop 1)).toInt
  if (type = ch 'c' ∨ type = ch 'g') ∧ value < 1 ∧ value > -2 then gdbSendData gdb (bytes "OK")
  else gdbSendData gdb (bytes "E01")

/-! ## Registers -/

/-- `read_register`, at `packet[pos]` -/
def readRegister (gdb : GdbProtocolData) (pos : Nat) (reg : Byte) :
    Except NoReturn GdbProtocolData :=
  if h : reg.toNat < 16 then writeUint32 gdb pos (gdb.register ⟨reg.toNat, h⟩)
  else .error .assertion

/-- A field of the reply of `read_general_registers`, and the position
after it. -/
def nextField (write : GdbProtocolData → Nat → Except NoReturn GdbProtocolData)
    (s : GdbProtocolData × Nat) : Except NoReturn (GdbProtocolData × Nat) := do
  return (← write s.1 s.2, s.2 + 8)

/-- `read_general_registers` -/
def readGeneralRegisters : GdbHandler := fun gdb _ => do
  let s := (gdb, 1)
  let s ← (List.range 16).foldlM
    (fun s i => nextField (fun gdb pos => readRegister gdb pos (BitVec.ofNat 8 i)) s) s
  -- the floating point registers, three words each
  let s ← (List.range 8).foldlM (fun s _ => (List.range 3).foldlM
    (fun s _ => nextField (fun gdb pos => gdb.put pos (bytes "xxxxxxxx")) s) s) s
  let s ← nextField (fun gdb pos => gdb.put pos (bytes "xxxxxxxx")) s
  gdbSendBuffer (← writeUint32 s.1 s.2 (registersReadCpsr gdb.arm.reg))

/-- `read_single_register`; `read_register` takes its `reg` as a `uint8_t`. -/
def readSingleRegister : GdbHandler := fun gdb data => do
  gdbSendBuffer (← readRegister gdb 1 ((atoi data).setWidth 8))

/-- `write_register` -/
def writeRegister (h : GdbHost) (gdb : GdbProtocolData) (reg : Word) (data : Text) :
    Except NoReturn GdbProtocolData := do
  let value ← readUint32 h data
  if hr : reg.toNat < 16 then
    return { gdb with
      arm := { gdb.arm with
        reg := registersWrite gdb.arm.reg ⟨reg.toNat, hr⟩ (registersGetMode gdb.arm.reg) value } }
  else .error .assertion

/-- `write_general_registers`: sixteen fields, then 25 that are skipped,
then the CPSR. -/
def writeGeneralRegisters (h : GdbHost) : GdbHandler := fun gdb data => do
  let gdb ← (List.range 16).foldlM
    (fun gdb i => writeRegister h gdb (BitVec.ofNat 32 i) (data.drop (8 * i))) gdb
  let value ← readUint32 h (data.drop (8 * (16 + 8 * 3 + 1)))
  gdbSendData { gdb with arm := armWriteCpsr gdb.arm value } (bytes "OK")

/-- `write_single_register` -/
def writeSingleRegister (h : GdbHost) : GdbHandler := fun gdb data => do
  let reg := stored (sscanf [.hex none] data) 0 (h.gdbGarbage .reg)
  match index (ch '=') data with
  | none => .error .nullIndex
  | some data => gdbSendData (← writeRegister h gdb reg (data.drop 1)) (bytes "OK")

/-! ## Memory -/

/-- `memory_get_size`: an `int` made a `size_t`. -/
def memoryGetSize (mem : Memory) : BitVec 64 := mem.size.signExtend 64

/-- The loop of `read_memory`. -/
def readMemoryLoop (h : GdbHost) (gdb : GdbProtocolData) (address : Word) (position : Nat) :
    Nat → Except NoReturn GdbProtocolData
  | 0 => return gdb
  | size + 1 => do
      let (result, value) :=
        memoryReadByte gdb.arm.mem address ((h.gdbGarbage .byteValue).setWidth 8)
      if result ≠ -1 then
        let gdb ← gdb.put position (hexText 2 value.toNat)
        readMemoryLoop h gdb (address + 1) (position + 2) size
      else return gdb

/-- `read_memory` -/
def readMemory (h : GdbHost) : GdbHandler := fun gdb data => do
  let values := sscanf [.hex none, .literal (ch ','), .hex none] data
  let address := stored values 0 (h.gdbGarbage (.address .readMemory))
  let size := stored values 1 (h.gdbGarbage (.size .readMemory))
  if address.setWidth 64 < memoryGetSize gdb.arm.mem then
    let gdb ← gdb.put 1 []
    gdbSendBuffer (← readMemoryLoop h gdb address 1 size.toNat)
  else
    -- `EFAULT` is 14
    gdbSendBuffer (← gdb.put 1 (bytes "E0E"))

/-- `*content`, escaped or not: the byte, and the content after it.  The
content is what follows the `:` that `index` has found, if it has. -/
def nextContent : Option Text → Except NoReturn (Byte × Option Text)
  | none => .error .nullIndex
  | some [] => .error .outOfBounds
  | some (c :: content) =>
      if c = 0x7d then
        match content with
        | [] => .error .outOfBounds
        | c :: content => return (c ^^^ 0x20, some content)
      else return (c, some content)

/-- The loop of `write_memory_binary`: `write_ok`, and the memory. -/
def writeMemoryLoop (mem : Memory) (address : Word) (content : Option Text) :
    Nat → Except NoReturn (Bool × Memory)
  | 0 => return (true, mem)
  | size + 1 => do
      let (value, content) ← nextContent content
      let (result, mem) := memoryWriteByte mem address value
      if result = 0 then writeMemoryLoop mem (address + 1) content size
      else return (false, mem)

/-- `write_memory_binary` -/
def writeMemoryBinary (h : GdbHost) : GdbHandler := fun gdb data => do
  let values := sscanf [.hex none, .literal (ch ','), .hex none] data
  let address := stored values 0 (h.gdbGarbage (.address .writeMemoryBinary))
  let size := stored values 1 (h.gdbGarbage (.size .writeMemoryBinary))
  let content := (index (ch ':') data).map fun content => content.drop 1
  let (writeOk, mem) ←
    if address.setWidth 64 < memoryGetSize gdb.arm.mem then
      writeMemoryLoop gdb.arm.mem address content size.toNat
    else .ok (false, gdb.arm.mem)
  let gdb := { gdb with arm := { gdb.arm with mem := mem } }
  if writeOk then gdbSendData gdb (bytes "OK") else gdbSendData gdb (bytes "E02")

/-! ## Breakpoints -/

/-- `sscanf(data, "%hhx,%x,%x", &type, &address, &length)`: `type` and
`address`; the `length` is not used. -/
def scanBreakpoint (h : GdbHost) (f : Scans) (data : Text) : Byte × Word :=
  let values :=
    sscanf [.hex none, .literal (ch ','), .hex none, .literal (ch ','), .hex none] data
  ((stored values 0 (h.gdbGarbage (.type f))).setWidth 8,
    stored values 1 (h.gdbGarbage (.address f)))

/-- `set_breakpoint` -/
def setBreakpoint (h : GdbHost) : GdbHandler := fun gdb data => do
  let (type, address) := scanBreakpoint h .setBreakpoint data
  if type ≠ 0 then gdbSendData gdb (bytes "E03")
  else
    let (result, table) ← gdbAddBreakpoint gdb.table address
    let gdb := { gdb with table := table }
    if result ≠ 0 then gdbSendData gdb (bytes "OK") else gdbSendData gdb (bytes "E04")

/-- `remove_breakpoint` -/
def removeBreakpoint (h : GdbHost) : GdbHandler := fun gdb data => do
  let (type, address) := scanBreakpoint h .removeBreakpoint data
  if type ≠ 0 then gdbSendData gdb (bytes "E03")
  else
    let (result, table) ← gdbRemoveBreakpoint gdb.table address
    let gdb := { gdb with table := table }
    if result ≠ 0 then gdbSendData gdb (bytes "OK") else gdbSendData gdb (bytes "E05")

/-! ## Packets -/

/-- The table of `gdb_init`; `turns` bounds the loop of `cont`. -/
def gdbHandler (h : GdbHost) (turns : Nat) (letter : Byte) : Option GdbHandler :=
  if letter = ch 'c' then some (cont h turns)
  else if letter = ch 'C' then some (contWithSignal h turns)
  else if letter = ch 'k' then some killRequest
  else if letter = ch 'q' then some query
  else if letter = ch 'g' then some readGeneralRegisters
  else if letter = ch 'm' then some (readMemory h)
  else if letter = ch 'p' then some readSingleRegister
  else if letter = ch '?' then some reason
  else if letter = ch 'H' then some setThread
  else if letter = ch 's' then some (step h)
  else if letter = ch 'S' then some (stepWithSignal h)
  else if letter = ch 'G' then some (writeGeneralRegisters h)
  else if letter = ch 'X' then some (writeMemoryBinary h)
  else if letter = ch 'P' then some (writeSingleRegister h)
  else if letter = ch 'z' then some (removeBreakpoint h)
  else if letter = ch 'Z' then some (setBreakpoint h)
  else none

/-- The end of `gdb_packet_analysis`: the handler of `packet[1]` is given
`packet + 2`. -/
def handlePacket (h : GdbHost) (turns : Nat) (gdb : GdbProtocolData) (packet : Text) :
    Except NoReturn GdbProtocolData :=
  match gdbHandler h turns (packet.getD 1 0) with
  | some handler => handler gdb (packet.drop 2)
  | none => gdbSendData gdb []

/-- `gdb_packet_analysis`.  `packet` is what the buffer of the scanner
holds from the packet on. -/
def gdbPacketAnalysis (h : GdbHost) (turns : Nat) (gdb : GdbProtocolData) (packet : Text)
    (length : Nat) : Except NoReturn GdbProtocolData :=
  let i := max 1 (length - 3)
  let check := checksum ((packet.take i).drop 1)
  let given := stored (sscanf [.hex none] (packet.drop (i + 1))) 0 (h.gdbGarbage .given)
  if check.setWidth 32 = given then do
    handlePacket h turns (← gdbSendAck gdb) (packet.set i 0)
  else gdbRequireRetransmission gdb

end Armator
