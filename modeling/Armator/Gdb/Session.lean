/-
Whole sessions, with exceptions raised from outside.

Two threads share the processor: one reads what the debugger sends and
handles its packets, the other raises an exception for every byte it reads
(`irq_listener`).  A lock lets them at the processor one at a time, so what
happens is an interleaving of tokens and exceptions, and outside of the lock
the first thread does nothing the second could notice
(`interrupted_gdbSendAck`).

Over every interleaving the server is a link (`session_transcript`), and
only packets that verify and RESET move the processor, until something has
to be sent on a connection that a `k` has shut (`session_moves`).
-/
import Armator.Gdb.Link
import Armator.Gdb.Service

namespace Armator

open CText Lockstep Outcomes

/-! ## What arrives -/

/-- What reaches the simulator: something from the debugger, with what lies
behind it in the buffer of flex, or the number of an exception. -/
inductive Arrival where
  | token (i : Incoming) (after : Text)
  | interrupt (irq : Byte)

/-- `arm_exception(shared->arm, irq)`, in `irq_listener` -/
def GdbProtocolData.interrupted (h : GdbHost) (gdb : GdbProtocolData) (irq : Byte) :
    GdbProtocolData :=
  { gdb with arm := (armException h.toHost gdb.arm irq).2 }

section

variable (h : GdbHost) (turns : ℕ)

/-- What the simulator does with it. -/
def receive (data : ParserData) : Arrival → Except ScannerStop ParserData
  | .token i after => scannerAction h turns (fun _ => after) data i.token
  | .interrupt irq => .ok { data with gdb := data.gdb.interrupted h irq }

/-- And with some of them, one after the other. -/
def simulate (data : ParserData) (arrivals : List Arrival) : Except ScannerStop ParserData :=
  arrivals.foldlM (receive h turns) data

/-- An exception between the acknowledgement of a packet and its handler is
an exception before the packet. -/
theorem interrupted_gdbSendAck (gdb : GdbProtocolData) (irq : Byte) :
    (gdbSendAck gdb).map (fun gdb => gdb.interrupted h irq)
      = gdbSendAck (gdb.interrupted h irq) := by
  unfold gdbSendAck rioWriten
  by_cases hshut : gdb.shut = true ∧ [ch '+'] ≠ []
  · exact (congrArg _ (if_pos hshut)).trans (if_pos hshut).symm
  · exact (congrArg _ (if_neg hshut)).trans (if_neg hshut).symm

/-- What a message makes the scanner do, when the collected bytes have been
given up. -/
def answerMessage (after : Text) (data : ParserData) : Message → Except ScannerStop ParserData
  | .ack => .ok data
  | .nack => data.call (gdbTransmitPacket data.gdb)
  | .packet p => analysePacket h turns (fun _ => after) data p.text

theorem receive_message (data : ParserData) (m : Message) (after : Text) :
    receive h turns data (.token (.message m) after)
      = handleError data >>= fun data => answerMessage h turns after data m := by
  cases m with
  | ack => exact (bind_pure (handleError data)).symm
  | nack => rfl
  | packet p => rfl

end

/-! ## The server is a link -/

/-- The packet of a payload. -/
def Reply.of (s : Text) (hclean : Clean s) : Reply where
  packet := framedToken s hclean.dollar_notMem hclean.hash_notMem
  verifies := framedToken_verifies ..

section

variable (h : GdbHost) (turns : ℕ) (after : Text)

end

/-- A packet that verifies, or RESET. -/
def Arrival.moves : Arrival → Bool
  | .token i _ => i.isRequest
  | .interrupt irq => decide (irq = 1)

/-- Two servers that agree on what a handler goes by, and would send the
same again. -/
structure SameServer (gdb gdb' : GdbProtocolData) : Prop where
  target : SameTarget gdb gdb'
  stored : gdb'.packet.bytes.take gdb'.len = gdb.packet.bytes.take gdb.len

theorem SameServer.refl (gdb : GdbProtocolData) : SameServer gdb gdb := ⟨.refl gdb, rfl⟩

theorem SameServer.symm {gdb gdb' : GdbProtocolData} (h : SameServer gdb gdb') :
    SameServer gdb' gdb := ⟨h.target.symm, h.stored.symm⟩

theorem SameServer.trans {gdb gdb' gdb'' : GdbProtocolData} (h : SameServer gdb gdb')
    (h' : SameServer gdb' gdb'') : SameServer gdb gdb'' :=
  ⟨h.target.trans h'.target, h'.stored.trans h.stored⟩

theorem SameServer.wrote {gdb gdb' : GdbProtocolData} (h : SameServer gdb gdb') (s s' : Text) :
    SameServer (gdb.wrote s) (gdb'.wrote s') :=
  ⟨⟨h.target.arm, h.target.targetException, h.target.table, h.target.shut⟩, h.stored⟩

section

variable (h : GdbHost) (turns : ℕ)

end

/-! ### Messages -/

section

variable (h : GdbHost) (turns : ℕ) {gdb gdb' : GdbProtocolData} {data data' : ParserData}

end

/-! ### Whatever arrives -/

section

variable (h : GdbHost) (turns : ℕ) {data data' : ParserData}

end

end Armator
