/-
The link between the debugger and the server, seen from the server.

A link remembers three things: the last packet it has sent, how many bytes
that are no message it has collected, and whether the connection has been
shut.  `Link.Answers` says what it sends for each thing that comes in: for a
packet that verifies `+` and a reply, for one that does not `-`, for a `-`
the last reply again, and for bytes that are no message one `-`, when the
next message begins or 1023 of them are there.  A link that has been shut
sends nothing any more.  What the replies say is left open here; that
`gdb_protocol.c` and `scanner.l` are such a link, whatever comes in, is shown
in `Armator.Gdb.Session`.
-/
import Armator.Gdb.ErrorBuffer
import Armator.Gdb.PacketSafety

namespace Armator

open CText

/-! ## Messages -/

/-- A packet whose digits are the sum of its payload. -/
structure Reply where
  packet : PacketToken
  verifies : packet.Verifies

def Reply.message (r : Reply) : Message := .packet r.packet

/-- The packet in a message. -/
def Message.packet? : Message → Option PacketToken
  | .packet p => some p
  | _ => none

/-- What the scanner finds in the input: a message, a byte that belongs to
none, or a newline, which is echoed. -/
inductive Incoming where
  | message (m : Message)
  | garbage (c : Byte)
  | echo (c : Byte)

def Incoming.token : Incoming → TokenKind × Text
  | .message m => m.token
  | .garbage c => (.error, [c])
  | .echo c => (.echo, [c])

/-- A packet that verifies. -/
def Incoming.isRequest : Incoming → Bool
  | .message (.packet p) => decide p.Verifies
  | _ => false

/-- And of these the one that ends the session. -/
def Incoming.isKill : Incoming → Bool
  | .message (.packet p) => decide p.Verifies && decide (p.letter = ch 'k')
  | _ => false

/-- A packet that does not verify, or a byte that belongs to no message. -/
def Incoming.isFault : Incoming → Bool
  | .message (.packet p) => !decide p.Verifies
  | .garbage _ => true
  | _ => false

/-! ## The link -/

/-- What a link remembers. -/
structure Link where
  /-- the last reply sent -/
  last : Option Reply
  /-- how many bytes are collected that are no message -/
  collected : Fin MAX_ERROR_SIZE
  /-- the connection has been shut -/
  shut : Bool

namespace Link

/-- What is sent where the collected bytes end: one request, if there are any. -/
def requests (l : Link) : List Message := if l.collected = 0 then [] else [.nack]

def emptied (l : Link) : Link := { l with collected := 0 }

/-- What the link sends for what comes in, and what it is then. -/
inductive Answers (l : Link) : Incoming → List Message → Link → Prop
  | ack : Answers l (.message .ack) l.requests l.emptied
  | nack : Answers l (.message .nack) (l.requests ++ l.last.toList.map Reply.message) l.emptied
  | refused {p : PacketToken} : ¬ p.Verifies →
      Answers l (.message (.packet p)) (l.requests ++ [.nack]) l.emptied
  | reply {p : PacketToken} (r : Reply) : p.Verifies → p.letter ≠ ch 'k' →
      Answers l (.message (.packet p)) (l.requests ++ [.ack, r.message])
        { l.emptied with last := some r }
  /-- `kill_request` does not reply -/
  | killed {p : PacketToken} : p.Verifies → p.letter = ch 'k' →
      Answers l (.message (.packet p)) (l.requests ++ [.ack]) { l.emptied with shut := true }
  | garbage (c : Byte) (h : l.collected.val + 1 < MAX_ERROR_SIZE) :
      Answers l (.garbage c) [] { l with collected := ⟨l.collected.val + 1, h⟩ }
  | full (c : Byte) : l.collected.val + 1 = MAX_ERROR_SIZE →
      Answers l (.garbage c) [.nack] { l with collected := 1 }
  | echo (c : Byte) : Answers l (.echo c) [] l

/-- What it sends one after the other; once it has been shut, nothing. -/
inductive Runs : Link → List Incoming → List (List Message) → Link → Prop
  | nil (l : Link) : Runs l [] [] l
  | cons {l l' l'' : Link} {i : Incoming} {answer : List Message} {is : List Incoming}
      {answers : List (List Message)} :
      l.Answers i answer l' → (l.shut = true → answer = []) → Runs l' is answers l'' →
      Runs l (i :: is) (answer :: answers) l''

theorem Answers.verifies {l l' : Link} {i : Incoming} {answer : List Message}
    (h : l.Answers i answer l') {p : PacketToken} (hp : .packet p ∈ answer) : p.Verifies := by
  have hrequests : .packet p ∉ l.requests := by
    unfold requests
    split <;> simp
  cases h with
  | ack => exact absurd hp hrequests
  | nack =>
      obtain ⟨r, -, hr⟩ := List.mem_map.mp ((List.mem_append.mp hp).resolve_left hrequests)
      cases hr
      exact r.verifies
  | refused _ => simp [hrequests] at hp
  | reply r _ _ =>
      have hr : Message.packet p = r.message := by simpa [hrequests] using hp
      cases hr
      exact r.verifies
  | killed _ _ => simp [hrequests] at hp
  | garbage _ _ => exact absurd hp List.not_mem_nil
  | full _ _ => simp at hp
  | echo _ => exact absurd hp List.not_mem_nil

/-- Every packet sent is right. -/
theorem Runs.verifies {l l' : Link} {is : List Incoming} {answers : List (List Message)}
    (h : Runs l is answers l') {p : PacketToken} (hp : .packet p ∈ answers.flatten) :
    p.Verifies := by
  induction h with
  | nil l => exact absurd hp List.not_mem_nil
  | cons h _ _ ih =>
      rw [List.flatten_cons, List.mem_append] at hp
      exact hp.elim h.verifies ih

/-- The last packet of some messages, or else the one before. -/
def lastPacket (messages : List Message) (before : Option PacketToken) : Option PacketToken :=
  (messages.filterMap Message.packet?).getLast?.or before

theorem lastPacket_append (ms ms' : List Message) (before : Option PacketToken) :
    lastPacket (ms ++ ms') before = lastPacket ms' (lastPacket ms before) := by
  rw [lastPacket, lastPacket, lastPacket, List.filterMap_append, List.getLast?_append,
    Option.or_assoc]

theorem Answers.last {l l' : Link} {i : Incoming} {answer : List Message}
    (h : l.Answers i answer l') :
    l'.last.map Reply.packet = lastPacket answer (l.last.map Reply.packet) := by
  have hrequests : ∀ before, lastPacket l.requests before = before := by
    intro before
    unfold requests
    split <;> rfl
  cases h with
  | ack => exact (hrequests _).symm
  | nack =>
      rw [lastPacket_append, hrequests, emptied]
      cases l.last <;> rfl
  | refused _ =>
      rw [lastPacket_append, hrequests]
      rfl
  | reply r _ _ =>
      rw [lastPacket_append, hrequests]
      rfl
  | killed _ _ =>
      rw [lastPacket_append, hrequests]
      rfl
  | garbage _ _ => rfl
  | full _ _ => rfl
  | echo _ => rfl

/-- What is sent again is the last packet sent. -/
theorem Runs.last {l l' : Link} {is : List Incoming} {answers : List (List Message)}
    (h : Runs l is answers l') :
    l'.last.map Reply.packet = lastPacket answers.flatten (l.last.map Reply.packet) := by
  induction h with
  | nil l => rfl
  | cons h _ _ ih => rw [List.flatten_cons, lastPacket_append, ← h.last, ih]

theorem Answers.shut {l l' : Link} {i : Incoming} {answer : List Message}
    (h : l.Answers i answer l') : l'.shut = (l.shut || i.isKill) := by
  cases h with
  | ack => exact (Bool.or_false _).symm
  | nack => exact (Bool.or_false _).symm
  | refused hp =>
      rw [Incoming.isKill, decide_eq_false hp]
      exact (Bool.or_false _).symm
  | reply r hp hk =>
      rw [Incoming.isKill, decide_eq_false hk, Bool.and_false]
      exact (Bool.or_false _).symm
  | killed hp hk =>
      rw [Incoming.isKill, decide_eq_true hp, decide_eq_true hk]
      exact (Bool.or_true _).symm
  | garbage _ _ => exact (Bool.or_false _).symm
  | full _ _ => exact (Bool.or_false _).symm
  | echo _ => exact (Bool.or_false _).symm

/-- The connection is shut where a `k` packet has come in. -/
theorem Runs.shut {l l' : Link} {is : List Incoming} {answers : List (List Message)}
    (h : Runs l is answers l') : l'.shut = (l.shut || is.any Incoming.isKill) := by
  induction h with
  | nil l => exact (Bool.or_false _).symm
  | cons h _ _ ih =>
      rw [ih, h.shut, List.any_cons, Bool.or_assoc]

theorem Runs.silent {l l' : Link} {is : List Incoming} {answers : List (List Message)}
    (h : l.Runs is answers l') (hshut : l.shut = true) : answers.flatten = [] := by
  induction h with
  | nil l => rfl
  | cons h hsilent _ ih =>
      rw [List.flatten_cons, hsilent hshut, ih (by rw [h.shut, hshut]; rfl)]
      rfl

end Link

end Armator
