/-
The server is a target.

`Command.Asks` says which payloads ask for a command: any numerals and any
escaping the debugger may choose.  A server that shows a target answers such
a packet as the target serves the command, and shows what the target has
become (`command_replied`, `command_serves`).  Over whole runs, with
acknowledgements and exceptions in between, the replies of the server are
the replies of a session (`server_refines_target`), and while the program is
not run what it reads is what was written last (`reads_last_written`).
-/
import Armator.Gdb.FullTable
import Armator.Gdb.RefusedWrite
import Armator.Gdb.Session
import Armator.Gdb.Target

namespace Armator

open CText Relation Replay

/-! ## What a server shows -/

/-- The target that a server shows, on an open connection. -/
structure Shows (gdb : GdbProtocolData) (t : Target) : Prop where
  shut : gdb.shut = false
  arm : gdb.arm = t.arm
  exception : gdb.targetException = t.exception
  sorted : gdb.table.Sorted
  holds : ∀ a, gdb.table.Holds a ↔ a ∈ t.breakpoints

/-- A command has been answered with `s`, and the server shows `t'`. -/
structure Replied (gdb : GdbProtocolData) (s : Text) (t' : Target) (gdb' : GdbProtocolData) :
    Prop where
  fd : gdb'.fd = gdb.fd ++ frame s
  shut : gdb'.shut = gdb.shut
  shows : Shows gdb' t'

/-- A sorted table holds as many addresses as it counts. -/
theorem Shows.card {gdb : GdbProtocolData} {t : Target} (hs : Shows gdb t) :
    t.breakpoints.card = gdb.table.breakpointsNumber := by
  have himage : t.breakpoints
      = (Finset.range gdb.table.breakpointsNumber).image gdb.table.entry := by
    ext a
    rw [← hs.holds, Finset.mem_image]
    simp only [Finset.mem_range]
    rfl
  rw [himage, Finset.card_image_of_injOn, Finset.card_range]
  intro i hi j hj heq
  rw [Finset.coe_range] at hi hj
  exact hs.sorted.strictMono.injOn hi hj (congrArg BitVec.toNat heq)

/-- A server that has just been started shows a target without
breakpoints. -/
theorem shows_init (arm : ArmCore) (packet : Packet)
    (breakpoints : Fin MAX_BREAKPOINTS_NUMBER → Word) :
    Shows (gdbInitData arm packet breakpoints)
      { arm := arm, breakpoints := ∅, exception := 0 } := by
  obtain ⟨hsorted, hholds⟩ := emptyTable_represents breakpoints
  refine ⟨rfl, rfl, rfl, hsorted, fun a => ?_⟩
  rw [gdbInitData, hholds]
  exact iff_of_false Bool.false_ne_true (Finset.notMem_empty a)

theorem Shows.of_sent {gdb gdb' : GdbProtocolData} {s : Text} {t : Target} (hs : Shows gdb t)
    (hsent : Sent gdb s gdb') : Shows gdb' t where
  shut := hsent.shut.trans hs.shut
  arm := hsent.arm.trans hs.arm
  exception := hsent.targetException.trans hs.exception
  sorted := by
    rw [hsent.table]
    exact hs.sorted
  holds := by
    rw [hsent.table]
    exact hs.holds

/-- A reply is one from whatever the handler has made of the server. -/
theorem Replied.of_sent {gdb gdb₁ gdb' : GdbProtocolData} {s : Text} {t' : Target}
    (hsent : Sent gdb₁ s gdb') (hfd : gdb₁.fd = gdb.fd) (hshut : gdb₁.shut = gdb.shut)
    (hs : Shows gdb₁ t') : Replied gdb s t' gdb' :=
  ⟨hfd ▸ hsent.fd, hsent.shut.trans hshut, hs.of_sent hsent⟩

/-! ## What a payload asks -/

/-- The payloads that ask for a command. -/
inductive Command.Asks : Command → Text → Prop where
  | readMemory {a : Word} {n : ℕ} {first second : Text} (ha : Numeral first a.toNat)
      (hn : Numeral second n) :
      Asks (.request (.readMemory a n)) (ch 'm' :: (first ++ ch ',' :: second))
  | writeMemory {a : Word} {bs first second content : Text} (ha : Numeral first a.toNat)
      (hn : Numeral second bs.length) (hc : Escaped bs content) :
      Asks (.request (.writeMemory a bs))
        (ch 'X' :: (first ++ ch ',' :: (second ++ ch ':' :: content)))
  | readRegisters (data : Text) : Asks (.request .readRegisters) (ch 'g' :: data)
  | writeRegisters (payload : RegisterPayload) :
      Asks (.request (.writeRegisters (fun n => (payload.registers n).value) payload.cpsr.value))
        (ch 'G' :: payload.text)
  | readRegister {n : Fin 16} {text : Text} (hn : Numeral text n.val) :
      Asks (.request (.readRegister n)) (ch 'p' :: text)
  | writeRegister {n : Fin 16} {text : Text} (hn : Numeral text n.val) (f : HexField) :
      Asks (.request (.writeRegister n f.value)) (ch 'P' :: (text ++ ch '=' :: f.digits))
  | setBreakpoint {a : Word} {type address : Text} (htype : Numeral type 0)
      (ha : Numeral address a.toNat) (length : Text) :
      Asks (.request (.setBreakpoint a))
        (ch 'Z' :: (type ++ ch ',' :: (address ++ ch ',' :: length)))
  | removeBreakpoint {a : Word} {type address : Text} (htype : Numeral type 0)
      (ha : Numeral address a.toNat) (length : Text) :
      Asks (.request (.removeBreakpoint a))
        (ch 'z' :: (type ++ ch ',' :: (address ++ ch ',' :: length)))
  | reason (data : Text) : Asks (.request .reason) (ch '?' :: data)
  | step (data : Text) : Asks (.request .step) (ch 's' :: data)
  | stepWithSignal (data : Text) : Asks (.request .step) (ch 'S' :: data)
  | resume (data : Text) : Asks .resume (ch 'c' :: data)
  | resumeWithSignal (data : Text) : Asks .resume (ch 'C' :: data)

/-- The address in a request for a breakpoint. -/
theorem scanBreakpoint_eq (h : GdbHost) (f : Scans) {a : Word} {type address : Text}
    (htype : Numeral type 0) (ha : Numeral address a.toNat) (rest : Text) :
    scanBreakpoint h f (type ++ ch ',' :: (address ++ ch ',' :: rest)) = (0, a) := by
  have hcomma : ∀ s, EndsNumber (ch ',' :: s) := fun s => endsNumber_cons s (by decide)
  have hscan : ∃ values,
      sscanf [.hex none, .literal (ch ','), .hex none, .literal (ch ','), .hex none]
        (type ++ ch ',' :: (address ++ ch ',' :: rest))
          = unsignedLong false 0 :: unsignedLong false a.toNat :: values := by
    refine ⟨sscanf [.literal (ch ','), .hex none] (ch ',' :: rest), ?_⟩
    rw [sscanf, scanHex_digits htype.digits (hcomma _), htype.value]
    simp only
    rw [sscanf, if_pos rfl, sscanf, scanHex_digits ha.digits (hcomma _), ha.value]
  obtain ⟨values, hvalues⟩ := hscan
  unfold scanBreakpoint
  simp only [hvalues]
  rw [stored_unsignedLong (n := 0) rfl (by decide), stored_unsignedLong (n := a.toNat) rfl a.isLt,
    BitVec.ofNat_toNat, BitVec.setWidth_eq]
  rfl

/-! ## Handlers -/

/-- The handler answers the request, whatever lies behind its data. -/
def Handles (h : Host) (handler : GdbHandler) (data : Text) (q : Request) : Prop :=
  ∀ (gdb : GdbProtocolData) (t : Target) (rest : Text), Shows gdb t →
    q.Within gdb.arm.mem.size.toNat →
      ∃ gdb', handler gdb (data ++ 0 :: rest) = .ok gdb' ∧
        Replied gdb (t.serve h q).1 (t.serve h q).2 gdb'

theorem Shows.setArm {gdb : GdbProtocolData} {t : Target} (hs : Shows gdb t) {p p' : ArmCore}
    (hp : p = p') : Shows { gdb with arm := p } { t with arm := p' } :=
  ⟨hs.shut, hp, hs.exception, hs.sorted, hs.holds⟩

section Handlers

variable (h : GdbHost)

theorem readMemory_handles {a : Word} {n : ℕ} {first second : Text} (ha : Numeral first a.toNat)
    (hn : Numeral second n) :
    Handles h.toHost (readMemory h) (first ++ ch ',' :: second) (.readMemory a n) := by
  intro gdb t rest hs hwithin
  have hlen := length_memoryText gdb.arm.mem a n
  obtain ⟨hin, hlt, hfit⟩ := hwithin
  obtain ⟨gdb', hok, hsent⟩ := (readMemory_spec h gdb hin hlt ha hn
    (endsNumber_cons (c := 0) rest (by decide)) (by omega)).ok hs.shut
  rw [List.append_assoc, List.cons_append]
  refine ⟨gdb', hok, ?_⟩
  rw [hs.arm] at hsent
  exact .of_sent hsent rfl rfl hs

theorem writeMemory_handles {a : Word} {bs first second content : Text}
    (ha : Numeral first a.toNat) (hn : Numeral second bs.length) (hc : Escaped bs content) :
    Handles h.toHost (writeMemoryBinary h) (first ++ ch ',' :: (second ++ ch ':' :: content))
      (.writeMemory a bs) := by
  intro gdb t rest hs hwithin
  obtain ⟨mem', hstored, hsends⟩ :=
    writeMemoryBinary_spec h gdb (0 :: rest) hwithin.1 hwithin.2 ha hn hc
  obtain ⟨gdb', hok, hsent⟩ := hsends.ok hs.shut
  have hmem : mem' = t.arm.mem.store a bs := by
    rw [← hs.arm]
    exact hstored.unique hwithin.2 (Memory.stored_store hwithin.2)
  simp only [List.append_assoc, List.cons_append]
  refine ⟨gdb', hok, .of_sent hsent rfl rfl (hs.setArm ?_)⟩
  rw [hmem, hs.arm]

theorem readRegisters_handles (data : Text) :
    Handles h.toHost readGeneralRegisters data .readRegisters := by
  intro gdb t rest hs _
  obtain ⟨gdb', hok, hsent⟩ := (readGeneralRegisters_spec gdb (data ++ 0 :: rest)).ok hs.shut
  rw [gdb.register_eq, hs.arm] at hsent
  exact ⟨gdb', hok, .of_sent hsent rfl rfl hs⟩

theorem writeRegisters_handles (payload : RegisterPayload) :
    Handles h.toHost (writeGeneralRegisters h) payload.text
      (.writeRegisters (fun n => (payload.registers n).value) payload.cpsr.value) := by
  intro gdb t rest hs _
  obtain ⟨gdb', hok, hsent⟩ := (writeGeneralRegisters_spec h gdb payload (0 :: rest)).ok hs.shut
  refine ⟨gdb', hok, .of_sent hsent rfl rfl (hs.setArm ?_)⟩
  rw [hs.arm]
  rfl

theorem readRegister_handles {n : Fin 16} {text : Text} (hn : Numeral text n.val) :
    Handles h.toHost readSingleRegister text (.readRegister n) := by
  intro gdb t rest hs _
  obtain ⟨gdb', hok, hsent⟩ :=
    (readSingleRegister_spec gdb hn (endsNumber_cons (c := 0) rest (by decide))).ok hs.shut
  rw [gdb.register_eq, hs.arm] at hsent
  exact ⟨gdb', hok, .of_sent hsent rfl rfl hs⟩

theorem writeRegister_handles {n : Fin 16} {text : Text} (hn : Numeral text n.val) (f : HexField) :
    Handles h.toHost (writeSingleRegister h) (text ++ ch '=' :: f.digits)
      (.writeRegister n f.value) := by
  intro gdb t rest hs _
  obtain ⟨gdb', hok, hsent⟩ := (writeSingleRegister_spec h gdb hn f (0 :: rest)).ok hs.shut
  rw [List.append_assoc, List.cons_append]
  refine ⟨gdb', hok, .of_sent hsent rfl rfl (hs.setArm ?_)⟩
  rw [hs.arm]

theorem reason_handles (data : Text) : Handles h.toHost reason data .reason := by
  intro gdb t rest hs _
  obtain ⟨gdb', hok, hsent⟩ := (gdbSendData_spec gdb (stopReason_short gdb.targetException).1
    (stopReason_short gdb.targetException).2).ok hs.shut
  rw [hs.exception] at hsent
  exact ⟨gdb', hok, .of_sent hsent rfl rfl hs⟩

/-- `step`, and `step_with_signal`, which is the same. -/
theorem step_handles (data : Text) :
    Handles h.toHost (step h) data .step ∧ Handles h.toHost (stepWithSignal h) data .step := by
  have hstep : Handles h.toHost (step h) data .step := by
    intro gdb t rest hs _
    obtain ⟨r, p, harm, hone⟩ := singleStep_spec h gdb
    have hsends := gdbSendData_spec { gdb with arm := p, targetException := r }
      (stopReason_short r).1 (stopReason_short r).2
    obtain ⟨gdb', hsend, hsent⟩ := hsends.ok hs.shut
    rw [hs.arm] at harm
    rw [Target.serve_step harm]
    refine ⟨gdb', ?_, .of_sent hsent rfl rfl ⟨hs.shut, rfl, rfl, hs.sorted, hs.holds⟩⟩
    rw [step, hone, ok_bind, gdbSendStopReason_eq, hsend]
  exact ⟨hstep, hstep⟩

end Handlers

/-! ## Breakpoints -/

section Breakpoints

variable (h : GdbHost) {gdb : GdbProtocolData} {t : Target}

/-- An operation on the table is answered by what it returns. -/
theorem BreakpointRequest.replied {r : BreakpointRequest} {result : Int} {table : BreakpointTable}
    {breakpoints : Finset Word} (hs : Shows gdb t) (htype : (r.scan h).1 = 0)
    (happly : (r.op h).apply gdb.table = .ok (result, table)) (hsorted : table.Sorted)
    (hholds : ∀ a, table.Holds a ↔ a ∈ breakpoints) :
    ∃ gdb', r.handle h gdb = .ok gdb' ∧
      Replied gdb (if result ≠ 0 then bytes "OK" else r.failure)
        { t with breakpoints := breakpoints } gdb' := by
  have hshort : (0 : Byte) ∉ (if result ≠ 0 then bytes "OK" else r.failure) ∧
      (if result ≠ 0 then bytes "OK" else r.failure).length ≤ 4091 := by
    split
    · exact ⟨by decide, by decide⟩
    · exact r.failure_short
  have hsends := gdbSendData_spec { gdb with table := table } hshort.1 hshort.2
  obtain ⟨gdb', hsend, hsent⟩ := hsends.ok hs.shut
  refine ⟨gdb', ?_, .of_sent hsent rfl rfl ⟨hs.shut, hs.arm, hs.exception, hsorted, hholds⟩⟩
  rw [r.handle_eq, if_neg (not_not.mpr htype), happly, ok_bind, hsend]

theorem setBreakpoint_handles {a : Word} {type address : Text} (htype : Numeral type 0)
    (ha : Numeral address a.toNat) (length : Text) :
    Handles h.toHost (setBreakpoint h) (type ++ ch ',' :: (address ++ ch ',' :: length))
      (.setBreakpoint a) := by
  intro gdb t rest hs _
  simp only [List.append_assoc, List.cons_append]
  have hscan := scanBreakpoint_eq h .setBreakpoint htype ha (length ++ 0 :: rest)
  generalize type ++ ch ',' :: (address ++ ch ',' :: (length ++ 0 :: rest)) = data at hscan ⊢
  have hzero : ((BreakpointRequest.set data).scan h).1 = 0 := congrArg Prod.fst hscan
  have hop : (BreakpointRequest.set data).op h = .add a :=
    congrArg BreakpointOp.add (congrArg Prod.snd hscan)
  have hreply : ∀ {result : Int} {table : BreakpointTable} {breakpoints : Finset Word},
      gdbAddBreakpoint gdb.table a = .ok (result, table) → table.Sorted →
      (∀ b, table.Holds b ↔ b ∈ breakpoints) →
      ∃ gdb', setBreakpoint h gdb data = .ok gdb' ∧
        Replied gdb (if result ≠ 0 then bytes "OK" else bytes "E04")
          { t with breakpoints := breakpoints } gdb' := by
    intro result table breakpoints hadd
    refine BreakpointRequest.replied h (r := .set data) hs hzero ?_
    rw [hop]
    exact hadd
  rw [Target.serve]
  by_cases hroom : t.breakpoints.card < MAX_BREAKPOINTS_NUMBER
  · rw [if_pos hroom]
    rw [hs.card] at hroom
    by_cases hold : gdb.table.Holds a
    · rw [Finset.insert_eq_of_mem ((hs.holds a).mp hold)]
      exact hreply (gdbAddBreakpoint_of_holds hs.sorted hroom hold) hs.sorted hs.holds
    · obtain ⟨table, hadd, hadded, -⟩ := gdbAddBreakpoint_of_new hs.sorted hroom hold
      refine hreply hadd hadded.sorted fun b => ?_
      rw [hadded.holds, hs.holds, Finset.mem_insert]
  · rw [if_neg hroom]
    rw [hs.card, Nat.not_lt] at hroom
    exact hreply (gdbAddBreakpoint_of_full hroom) hs.sorted hs.holds

theorem removeBreakpoint_handles {a : Word} {type address : Text} (htype : Numeral type 0)
    (ha : Numeral address a.toNat) (length : Text) :
    Handles h.toHost (removeBreakpoint h) (type ++ ch ',' :: (address ++ ch ',' :: length))
      (.removeBreakpoint a) := by
  intro gdb t rest hs _
  simp only [List.append_assoc, List.cons_append]
  have hscan := scanBreakpoint_eq h .removeBreakpoint htype ha (length ++ 0 :: rest)
  generalize type ++ ch ',' :: (address ++ ch ',' :: (length ++ 0 :: rest)) = data at hscan ⊢
  have hzero : ((BreakpointRequest.remove data).scan h).1 = 0 := congrArg Prod.fst hscan
  have hop : (BreakpointRequest.remove data).op h = .remove a :=
    congrArg BreakpointOp.remove (congrArg Prod.snd hscan)
  have hreply : ∀ {result : Int} {table : BreakpointTable} {breakpoints : Finset Word},
      gdbRemoveBreakpoint gdb.table a = .ok (result, table) → table.Sorted →
      (∀ b, table.Holds b ↔ b ∈ breakpoints) →
      ∃ gdb', removeBreakpoint h gdb data = .ok gdb' ∧
        Replied gdb (if result ≠ 0 then bytes "OK" else bytes "E05")
          { t with breakpoints := breakpoints } gdb' := by
    intro result table breakpoints hremove
    refine BreakpointRequest.replied h (r := .remove data) hs hzero ?_
    rw [hop]
    exact hremove
  rw [Target.serve]
  rcases gdbRemoveBreakpoint_spec hs.sorted a with ⟨hremove, hnot⟩ | ⟨table, hremove, hremoved⟩
  · rw [if_neg fun hmem => hnot ((hs.holds a).mpr hmem)]
    exact hreply hremove hs.sorted hs.holds
  · rw [if_pos ((hs.holds a).mp hremoved.held)]
    refine hreply hremove hremoved.sorted fun b => ?_
    rw [hremoved.holds, hs.holds, Finset.mem_erase, and_comm]

end Breakpoints

/-! ## Running the program -/

section Resume

variable (h : GdbHost) {gdb : GdbProtocolData} {t : Target}

theorem Shows.stop_eq (hs : Shows gdb t) : gdb.table.Holds = fun a => a ∈ t.breakpoints :=
  funext fun a => propext (hs.holds a)

/-- A run of the target is one of the loop, when it has the turns. -/
theorem cont_replied {s : Text} {t' : Target} (hserves : Serves h.toHost t .resume s t') :
    ∃ turns₀, ∀ turns, turns₀ ≤ turns → ∀ (gdb : GdbProtocolData) (data : Text), Shows gdb t →
      ∃ gdb', cont h turns gdb data = .ok gdb' ∧ Replied gdb s t' gdb' := by
  cases hserves with
  | @resume p p' r hrun hstop =>
      obtain ⟨turns₀, hloop⟩ := contLoop_of_run h hrun hstop
      refine ⟨turns₀, fun turns hturns gdb data hs => ?_⟩
      have hreturns := hloop turns hturns gdb hs.sorted hs.stop_eq hs.arm
      have hsends := gdbSendData_spec { gdb with arm := p', targetException := r }
        (stopReason_short r).1 (stopReason_short r).2
      obtain ⟨gdb', hsend, hsent⟩ := hsends.ok hs.shut
      refine ⟨gdb', ?_, .of_sent hsent rfl rfl ⟨hs.shut, rfl, rfl, hs.sorted, hs.holds⟩⟩
      rw [cont, hreturns, ok_bind, gdbSendStopReason_eq, hsend]

/-- And the loop runs as the target does. -/
theorem cont_serves (hs : Shows gdb t) {turns : ℕ} {data : Text} {gdb' : GdbProtocolData}
    (hcont : cont h turns gdb data = .ok gdb') :
    ∃ s t', Serves h.toHost t .resume s t' ∧ Replied gdb s t' gdb' := by
  rw [cont] at hcont
  cases hloop : contLoop h turns gdb with
  | error e =>
      rw [hloop] at hcont
      cases hcont
  | ok gdb₁ =>
      rw [hloop, ok_bind, gdbSendStopReason_eq] at hcont
      obtain ⟨p, hrun, hstop⟩ := run_of_contLoop h hs.sorted rfl hloop
      have hsends := gdbSendData_spec gdb₁ (stopReason_short gdb₁.targetException).1
        (stopReason_short gdb₁.targetException).2
      obtain ⟨hopen, hsent⟩ := hsends.of_ok hcont
      rw [hs.stop_eq, hs.arm] at hrun
      rw [hs.stop_eq] at hstop
      have hframe := contLoop_frame hloop
      refine ⟨_, _, .resume hrun hstop, .of_sent hsent ?_ ?_ ⟨hopen, rfl, rfl, ?_, ?_⟩⟩
      · rw [hframe]
      · rw [hframe]
      · rw [hframe]
        exact hs.sorted
      · rw [hframe]
        exact hs.holds

end Resume

/-! ## Packets -/

/-- A payload that asks for a request is one for a handler of it. -/
theorem Command.Asks.handler {q : Request} {payload : Text}
    (hasks : (Command.request q).Asks payload) (h : GdbHost) (turns : ℕ) :
    ∃ letter data handler, payload = letter :: data ∧
      gdbHandler h turns letter = some handler ∧ Handles h.toHost handler data q := by
  cases hasks with
  | readMemory ha hn => exact ⟨_, _, _, rfl, rfl, readMemory_handles h ha hn⟩
  | writeMemory ha hn hc => exact ⟨_, _, _, rfl, rfl, writeMemory_handles h ha hn hc⟩
  | readRegisters data => exact ⟨_, _, _, rfl, rfl, readRegisters_handles h data⟩
  | writeRegisters payload => exact ⟨_, _, _, rfl, rfl, writeRegisters_handles h payload⟩
  | readRegister hn => exact ⟨_, _, _, rfl, rfl, readRegister_handles h hn⟩
  | writeRegister hn f => exact ⟨_, _, _, rfl, rfl, writeRegister_handles h hn f⟩
  | setBreakpoint htype ha length =>
      exact ⟨_, _, _, rfl, rfl, setBreakpoint_handles h htype ha length⟩
  | removeBreakpoint htype ha length =>
      exact ⟨_, _, _, rfl, rfl, removeBreakpoint_handles h htype ha length⟩
  | reason data => exact ⟨_, _, _, rfl, rfl, reason_handles h data⟩
  | step data => exact ⟨_, _, _, rfl, rfl, (step_handles h data).1⟩
  | stepWithSignal data => exact ⟨_, _, _, rfl, rfl, (step_handles h data).2⟩

/-- A payload that asks to go on is one for `cont`. -/
theorem Command.Asks.resume_handler {payload : Text} (hasks : Command.resume.Asks payload)
    (h : GdbHost) (turns : ℕ) :
    ∃ letter data handler, payload = letter :: data ∧
      gdbHandler h turns letter = some handler ∧
      ∀ gdb data, handler gdb data = cont h turns gdb data := by
  cases hasks with
  | resume data => exact ⟨_, _, _, rfl, rfl, fun _ _ => rfl⟩
  | resumeWithSignal data => exact ⟨_, _, _, rfl, rfl, fun _ _ => rfl⟩

/-- A packet that asks for a command. -/
structure PacketToken.Carries (p : PacketToken) (c : Command) : Prop where
  verifies : p.Verifies
  asks : c.Asks p.payload

/-- A payload that asks for a command, and that a packet can hold. -/
structure Command.Askable (c : Command) (payload : Text) : Prop where
  asks : c.Asks payload
  clean : Clean payload

section Payloads

theorem numeral_word (a : Word) : Numeral (hexText 8 a.toNat) a.toNat :=
  numeral_hexText (by decide) a.isLt

theorem Clean.cons {c : Byte} {s : Text} (hdollar : ch '$' ≠ c) (hhash : ch '#' ≠ c)
    (hs : Clean s) : Clean (c :: s) where
  dollar_notMem := List.not_mem_cons_of_ne_of_not_mem hdollar hs.dollar_notMem
  hash_notMem := List.not_mem_cons_of_ne_of_not_mem hhash hs.hash_notMem

theorem clean_nil : Clean [] := ⟨List.not_mem_nil, List.not_mem_nil⟩

/-- Every text can be escaped. -/
theorem exists_escaped (bs : Text) : ∃ content, Escaped bs content ∧ Clean content := by
  induction bs with
  | nil => exact ⟨[], .nil, clean_nil⟩
  | cons c bs ih =>
      obtain ⟨content, hescaped, hclean⟩ := ih
      by_cases hc : c = 0x7d ∨ c = ch '$' ∨ c = ch '#'
      · refine ⟨_, .escape hescaped, .cons (by decide) (by decide) (.cons ?_ ?_ hclean)⟩ <;>
          rcases hc with rfl | rfl | rfl <;> decide
      · obtain ⟨hescape, hdollar, hhash⟩ := not_or.mp hc |>.imp_right not_or.mp
        exact ⟨_, .plain hescape hescaped, .cons (Ne.symm hdollar) (Ne.symm hhash) hclean⟩

theorem HexField.value_of (value : Word) : (HexField.of value.toNat).value = value := by
  rw [HexField.value, HexField.of, (numeral_word value).value, BitVec.ofNat_toNat,
    BitVec.setWidth_eq]

/-- The registers in a packet, with zeros for what nobody looks at. -/
def RegisterPayload.of (values : Fin 16 → Word) (cpsr : Word) : RegisterPayload where
  registers n := .of (values n).toNat
  ignored := hexText 200 0
  ignored_length := length_hexText ..
  cpsr := .of cpsr.toNat

theorem clean_registerPayload (values : Fin 16 → Word) (cpsr : Word) :
    Clean (RegisterPayload.of values cpsr).text := by
  refine .append (.flatten fun s hs => ?_) (.append (clean_hexText ..) (clean_hexText ..))
  obtain ⟨n, rfl⟩ := List.mem_ofFn.mp hs
  exact clean_hexText ..

/-- What is there can be asked for. -/
theorem exists_askable {size : ℕ} (hsize : size < 2 ^ 32) {c : Command} (hc : c.Within size) :
    ∃ payload, c.Askable payload := by
  have hword : ∀ a : Word, Clean (hexText 8 a.toNat) := fun a => clean_hexText ..
  cases c with
  | resume => exact ⟨_, .resume [], .cons (by decide) (by decide) clean_nil⟩
  | request q =>
      cases q with
      | readMemory a n =>
          exact ⟨_, .readMemory (numeral_word a) (numeral_hexText (k := 8) (by decide) hc.2.1),
            .cons (by decide) (by decide)
              (.append (hword a) (.cons (by decide) (by decide) (clean_hexText ..)))⟩
      | writeMemory a bs =>
          obtain ⟨content, hescaped, hclean⟩ := exists_escaped bs
          have hlen : bs.length < 16 ^ 8 := by
            have := hc.2
            omega
          exact ⟨_, .writeMemory (numeral_word a) (numeral_hexText (by decide) hlen) hescaped,
            .cons (by decide) (by decide) (.append (hword a) (.cons (by decide) (by decide)
              (.append (clean_hexText ..) (.cons (by decide) (by decide) hclean))))⟩
      | readRegisters => exact ⟨_, .readRegisters [], .cons (by decide) (by decide) clean_nil⟩
      | writeRegisters values cpsr =>
          have hasks := Command.Asks.writeRegisters (.of values cpsr)
          have hvalues : (fun n => ((RegisterPayload.of values cpsr).registers n).value) = values :=
            funext fun n => HexField.value_of (values n)
          have hcpsr : (RegisterPayload.of values cpsr).cpsr.value = cpsr := HexField.value_of cpsr
          rw [hvalues, hcpsr] at hasks
          exact ⟨_, hasks, .cons (by decide) (by decide) (clean_registerPayload ..)⟩
      | readRegister n =>
          have hn : n.val < 16 ^ 1 := n.isLt
          exact ⟨_, .readRegister (numeral_hexText (by decide) hn),
            .cons (by decide) (by decide) (clean_hexText ..)⟩
      | writeRegister n value =>
          have hn : n.val < 16 ^ 1 := n.isLt
          have hasks := Command.Asks.writeRegister (numeral_hexText (by decide) hn)
            (.of value.toNat)
          rw [HexField.value_of] at hasks
          exact ⟨_, hasks, .cons (by decide) (by decide)
            (.append (clean_hexText ..) (.cons (by decide) (by decide) (hword value)))⟩
      | setBreakpoint a =>
          exact ⟨_, .setBreakpoint (numeral_hexText (k := 1) (by decide) (by decide))
            (numeral_word a) [], .cons (by decide) (by decide) (.append (clean_hexText ..)
              (.cons (by decide) (by decide) (.append (hword a)
                (.cons (by decide) (by decide) clean_nil))))⟩
      | removeBreakpoint a =>
          exact ⟨_, .removeBreakpoint (numeral_hexText (k := 1) (by decide) (by decide))
            (numeral_word a) [], .cons (by decide) (by decide) (.append (clean_hexText ..)
              (.cons (by decide) (by decide) (.append (hword a)
                (.cons (by decide) (by decide) clean_nil))))⟩
      | reason => exact ⟨_, .reason [], .cons (by decide) (by decide) clean_nil⟩
      | step => exact ⟨_, .step [], .cons (by decide) (by decide) clean_nil⟩

/-- And so there is a packet for it. -/
theorem exists_carries {size : ℕ} (hsize : size < 2 ^ 32) {c : Command} (hc : c.Within size) :
    ∃ p : PacketToken, p.Carries c := by
  obtain ⟨payload, hasks, hclean⟩ := exists_askable hsize hc
  exact ⟨framedToken payload hclean.dollar_notMem hclean.hash_notMem,
    framedToken_verifies .., hasks⟩

end Payloads

/-- What the analysis of a packet gives, with what lies behind it. -/
def analysis (h : GdbHost) (turns : ℕ) (gdb : GdbProtocolData) (p : PacketToken) (after : Text) :
    Except NoReturn GdbProtocolData :=
  gdbPacketAnalysis h turns gdb (p.text ++ 0 :: after) p.text.length

section Packets

variable (h : GdbHost) {gdb : GdbProtocolData} {t : Target} {p : PacketToken}

theorem Shows.ack (hs : Shows gdb t) : Shows (gdb.wrote [ch '+']) t :=
  ⟨hs.shut, hs.arm, hs.exception, hs.sorted, hs.holds⟩

theorem request_replied (turns : ℕ) {q : Request} (hs : Shows gdb t) (hp : p.Carries (.request q))
    (hwithin : q.Within gdb.arm.mem.size.toNat) (after : Text) :
    ∃ gdb', analysis h turns gdb p after = .ok gdb' ∧
      Replied (gdb.wrote [ch '+']) (t.serve h.toHost q).1 (t.serve h.toHost q).2 gdb' := by
  obtain ⟨letter, data, handler, hpayload, hletter, hhandles⟩ := hp.asks.handler h turns
  obtain ⟨gdb', hok, hreplied⟩ :=
    hhandles (gdb.wrote [ch '+']) t (p.high :: p.low :: 0 :: after) hs.ack hwithin
  refine ⟨gdb', ?_, hreplied⟩
  rw [analysis, gdbPacketAnalysis_letter h turns hs.shut hp.verifies hpayload hletter]
  exact hok

theorem analysis_resume (hs : Shows gdb t) (hp : p.Carries .resume) :
    ∃ data, ∀ turns after,
      analysis h turns gdb p after =
        cont h turns (gdb.wrote [ch '+']) (data ++ p.behind after) := by
  obtain ⟨letter, data, -, hpayload, -, -⟩ := hp.asks.resume_handler h 0
  refine ⟨data, fun turns after => ?_⟩
  obtain ⟨letter', data', handler, hpayload', hletter, hcont⟩ := hp.asks.resume_handler h turns
  obtain ⟨rfl, rfl⟩ := List.cons.inj (hpayload.symm.trans hpayload')
  rw [analysis, gdbPacketAnalysis_letter h turns hs.shut hp.verifies hpayload hletter, hcont]

/-- A packet is answered as the target serves its command, given the turns.
Only a command that runs the program needs any. -/
theorem command_replied {c : Command} {s : Text} {t' : Target}
    (hserves : Serves h.toHost t c s t') :
    ∃ turns₀, (¬ c.Runs → turns₀ = 0) ∧
      ∀ turns, turns₀ ≤ turns → ∀ (gdb : GdbProtocolData) (p : PacketToken) (after : Text),
        Shows gdb t → p.Carries c → c.Within gdb.arm.mem.size.toNat →
          ∃ gdb', analysis h turns gdb p after = .ok gdb' ∧
            Replied (gdb.wrote [ch '+']) s t' gdb' := by
  cases hserves with
  | request q =>
      exact ⟨0, fun _ => rfl, fun turns _ gdb p after hs hp hwithin =>
        request_replied h turns hs hp hwithin after⟩
  | resume hrun hstop =>
      obtain ⟨turns₀, hreplied⟩ := cont_replied h (.resume hrun hstop)
      refine ⟨turns₀, fun hruns => absurd trivial hruns, fun turns hturns gdb p after hs hp _ => ?_⟩
      obtain ⟨data, hanalysis⟩ := analysis_resume h hs hp
      rw [hanalysis]
      exact hreplied turns hturns (gdb.wrote [ch '+']) _ hs.ack

/-- And what it is answered is what the target serves. -/
theorem command_serves {c : Command} {turns : ℕ} {after : Text} {gdb' : GdbProtocolData}
    (hs : Shows gdb t) (hp : p.Carries c) (hwithin : c.Within gdb.arm.mem.size.toNat)
    (hok : analysis h turns gdb p after = .ok gdb') :
    ∃ s t', Serves h.toHost t c s t' ∧ Replied (gdb.wrote [ch '+']) s t' gdb' := by
  cases c with
  | request q =>
      obtain ⟨gdb₁, hok₁, hreplied⟩ := request_replied h turns hs hp hwithin after
      obtain rfl := Except.ok.inj (hok₁.symm.trans hok)
      exact ⟨_, _, .request q, hreplied⟩
  | resume =>
      obtain ⟨data, hanalysis⟩ := analysis_resume h hs hp
      rw [hanalysis] at hok
      exact cont_serves h hs.ack hok

end Packets

/-! ## Whole runs -/

/-- What reaches the simulator when a debugger gives its commands: a packet
for each, acknowledgements and exceptions wherever they come. -/
inductive Sends : List Arrival → List Event → Prop where
  | nil : Sends [] []
  | ack {as : List Arrival} {es : List Event} (after : Text) (hrest : Sends as es) :
      Sends (.token (.message .ack) after :: as) es
  | packet {as : List Arrival} {es : List Event} {p : PacketToken} {c : Command} (after : Text)
      (hp : p.Carries c) (hrest : Sends as es) :
      Sends (.token (.message (.packet p)) after :: as) (.command c :: es)
  | interrupt {as : List Arrival} {es : List Event} (irq : Byte) (hrest : Sends as es) :
      Sends (.interrupt irq :: as) (.interrupt irq :: es)

/-- Whatever a debugger wants to do, it can. -/
theorem exists_sends {size : ℕ} (hsize : size < 2 ^ 32) {es : List Event}
    (hwithin : ∀ e ∈ es, e.Within size) : ∃ as, Sends as es := by
  induction es with
  | nil => exact ⟨[], .nil⟩
  | cons e es ih =>
      obtain ⟨as, has⟩ := ih fun e he => hwithin e (List.mem_cons_of_mem _ he)
      cases e with
      | command c =>
          obtain ⟨p, hp⟩ := exists_carries hsize (hwithin (.command c) List.mem_cons_self)
          exact ⟨_, .packet [] hp has⟩
      | interrupt irq => exact ⟨_, .interrupt irq has⟩

/-- Each packet is acknowledged, and answered. -/
def repliesText (ss : List Text) : Text := (ss.map fun s => ch '+' :: frame s).flatten

@[simp] theorem repliesText_nil : repliesText [] = [] := rfl

theorem repliesText_cons (s : Text) (ss : List Text) :
    repliesText (s :: ss) = (ch '+' :: frame s) ++ repliesText ss := rfl

/-- Where the server is between two arrivals. -/
structure Serving (data : ParserData) (t : Target) : Prop where
  empty : data.len = 0
  shows : Shows data.gdb t

section Run

variable (h : GdbHost) {turns : ℕ} {data data' : ParserData} {t t' : Target}

theorem Serving.interrupted (hs : Serving data t) (irq : Byte) :
    Serving { data with gdb := data.gdb.interrupted h irq } (t.interrupted h.toHost irq) := by
  refine ⟨hs.empty, ⟨hs.shows.shut, ?_, hs.shows.exception, hs.shows.sorted, hs.shows.holds⟩⟩
  show (armException h.toHost data.gdb.arm irq).2 = (armException h.toHost t.arm irq).2
  rw [hs.shows.arm]

theorem Serving.replied {s : Text} {gdb' : GdbProtocolData} (hs : Serving data t)
    (hreplied : Replied (data.gdb.wrote [ch '+']) s t' gdb') :
    Serving { data with gdb := gdb' } t' ∧ gdb'.fd = data.gdb.fd ++ (ch '+' :: frame s) := by
  refine ⟨⟨hs.empty, hreplied.shows⟩, ?_⟩
  rw [hreplied.fd]
  exact List.append_assoc ..

theorem receive_ack (hs : Serving data t) (after : Text) :
    receive h turns data (.token (.message .ack) after) = .ok data :=
  handleError_of_empty hs.empty

theorem receive_packet (hs : Serving data t) (p : PacketToken) (after : Text) :
    receive h turns data (.token (.message (.packet p)) after)
      = analysePacket h turns (fun _ => after) data p.text := by
  rw [receive_message, handleError_of_empty hs.empty]
  rfl

/-- A packet received is a command served. -/
theorem Serving.packet {p : PacketToken} {c : Command} {after : Text} (hs : Serving data t)
    (hp : p.Carries c) (hwithin : c.Within t.arm.mem.size.toNat)
    (hrun : receive h turns data (.token (.message (.packet p)) after) = .ok data') :
    ∃ s t', Serves h.toHost t c s t' ∧ Serving data' t' ∧
      data'.gdb.fd = data.gdb.fd ++ (ch '+' :: frame s) := by
  rw [receive_packet h hs] at hrun
  obtain ⟨gdb', hok, rfl⟩ := ParserData.call_ok hrun
  obtain ⟨s, t', hserves, hreplied⟩ :=
    command_serves h hs.shows hp (hs.shows.arm.symm ▸ hwithin) hok
  exact ⟨s, t', hserves, hs.replied hreplied⟩

/-- A run of the simulator is a session of the target. -/
theorem simulate_session {as : List Arrival} {es : List Event} (hsends : Sends as es)
    (hs : Serving data t) (hwithin : ∀ e ∈ es, e.Within t.arm.mem.size.toNat)
    (hrun : simulate h turns data as = .ok data') :
    ∃ ss t', Session h.toHost t es ss t' ∧ Serving data' t' ∧
      data'.gdb.fd = data.gdb.fd ++ repliesText ss := by
  induction hsends generalizing data t with
  | nil =>
      obtain rfl := Except.ok.inj hrun
      exact ⟨[], t, .nil t, hs, (List.append_nil _).symm⟩
  | ack after hrest ih =>
      rw [simulate, List.foldlM_cons, receive_ack h hs] at hrun
      exact ih hs hwithin hrun
  | @packet as es p c after hp hrest ih =>
      rw [simulate, List.foldlM_cons] at hrun
      cases hone : receive h turns data (.token (.message (.packet p)) after) with
      | error e =>
          rw [hone] at hrun
          cases hrun
      | ok data₁ =>
          rw [hone] at hrun
          obtain ⟨s, t₁, hserves, hs₁, hfd₁⟩ :=
            hs.packet h hp (hwithin (.command c) List.mem_cons_self) hone
          obtain ⟨ss, t', hsession, hs', hfd⟩ :=
            ih hs₁ (fun e he => hserves.memSize ▸ hwithin e (List.mem_cons_of_mem _ he)) hrun
          refine ⟨s :: ss, t', .command hserves hsession, hs', ?_⟩
          rw [hfd, hfd₁, repliesText_cons, List.append_assoc]
  | @interrupt as es irq hrest ih =>
      rw [simulate, List.foldlM_cons] at hrun
      have hmem : (t.interrupted h.toHost irq).arm.mem = t.arm.mem := armException_mem ..
      obtain ⟨ss, t', hsession, hs', hfd⟩ := ih (hs.interrupted h irq)
        (fun e he => hmem ▸ hwithin e (List.mem_cons_of_mem _ he)) hrun
      exact ⟨ss, t', .interrupt hsession, hs', hfd⟩

/-- And a session of the target is a run of the simulator, given the turns. -/
theorem session_simulate {as : List Arrival} {es : List Event} (hsends : Sends as es)
    {ss : List Text} (hsession : Session h.toHost t es ss t')
    (hwithin : ∀ e ∈ es, e.Within t.arm.mem.size.toNat) :
    ∃ turns₀, ((∀ e ∈ es, ¬ e.Runs) → turns₀ = 0) ∧
      ∀ turns, turns₀ ≤ turns → ∀ data, Serving data t →
        ∃ data', simulate h turns data as = .ok data' ∧ Serving data' t' ∧
          data'.gdb.fd = data.gdb.fd ++ repliesText ss := by
  induction hsends generalizing t ss with
  | nil =>
      cases hsession
      exact ⟨0, fun _ => rfl, fun turns _ data hs =>
        ⟨data, rfl, hs, (List.append_nil _).symm⟩⟩
  | ack after hrest ih =>
      obtain ⟨turns₀, hzero, hruns⟩ := ih hsession hwithin
      refine ⟨turns₀, hzero, fun turns hturns data hs => ?_⟩
      rw [simulate, List.foldlM_cons, receive_ack h hs]
      exact hruns turns hturns data hs
  | @packet as es p c after hp hrest ih =>
      cases hsession with
      | @command _ t₁ _ _ _ s ss hserves hsession =>
          obtain ⟨turns₁, hzero₁, hone⟩ := command_replied h hserves
          obtain ⟨turns₂, hzero₂, hruns⟩ := ih hsession
            (fun e he => hserves.memSize ▸ hwithin e (List.mem_cons_of_mem _ he))
          refine ⟨max turns₁ turns₂, fun hno => ?_, fun turns hturns data hs => ?_⟩
          · rw [hzero₁ (hno (.command c) List.mem_cons_self),
              hzero₂ fun e he => hno e (List.mem_cons_of_mem _ he), max_self]
          obtain ⟨hturns₁, hturns₂⟩ := max_le_iff.mp hturns
          obtain ⟨gdb₁, hok, hreplied⟩ := hone turns hturns₁ data.gdb p after hs.shows hp
            (hs.shows.arm.symm ▸ hwithin (.command c) List.mem_cons_self)
          have hreceive : receive h turns data (.token (.message (.packet p)) after)
              = .ok { data with gdb := gdb₁ } := by
            rw [analysis] at hok
            rw [receive_packet h hs, analysePacket, hok]
            rfl
          obtain ⟨hs₁, hfd₁⟩ := hs.replied hreplied
          obtain ⟨data', hrun, hs', hfd⟩ := hruns turns hturns₂ _ hs₁
          refine ⟨data', ?_, hs', ?_⟩
          · rw [simulate, List.foldlM_cons, hreceive]
            exact hrun
          · rw [hfd, repliesText_cons, ← List.append_assoc]
            exact congrArg (· ++ repliesText ss) hfd₁
  | @interrupt as es irq hrest ih =>
      cases hsession with
      | interrupt hsession =>
          have hmem : (t.interrupted h.toHost irq).arm.mem = t.arm.mem := armException_mem ..
          obtain ⟨turns₀, hzero, hruns⟩ := ih hsession
            (fun e he => hmem ▸ hwithin e (List.mem_cons_of_mem _ he))
          refine ⟨turns₀, fun hno => hzero fun e he => hno e (List.mem_cons_of_mem _ he),
            fun turns hturns data hs => ?_⟩
          rw [simulate, List.foldlM_cons]
          exact hruns turns hturns _ (hs.interrupted h irq)

end Run

theorem Sends.append {as as' : List Arrival} {es es' : List Event} (hsends : Sends as es)
    (hsends' : Sends as' es') : Sends (as ++ as') (es ++ es') := by
  induction hsends with
  | nil => exact hsends'
  | ack after _ ih => exact .ack after ih
  | packet after hp _ ih => exact .packet after hp ih
  | interrupt irq _ ih => exact .interrupt irq ih

/-- What the memory holds where it is read. -/
theorem memoryText_eq_ofFn (mem : Memory) (a : Word) (n : ℕ) :
    memoryText mem a n
      = List.ofFn fun i : Fin (min n (mem.size.toNat - a.toNat)) =>
          mem.byteAt (a + BitVec.ofNat 32 i) := by
  refine List.ext_getElem ?_ fun i hi _ => ?_
  · rw [length_memoryText, List.length_ofFn]
  · rw [getElem_memoryText mem hi, List.getElem_ofFn]

/-! ## The server is a target -/

section

variable (h : GdbHost) {gdb : GdbProtocolData} {t : Target} {es : List Event}
  (buffer : Fin MAX_ERROR_SIZE → Byte)

/-- Whatever a debugger does, with exceptions from outside in between, can be
sent, and what the server replies and shows afterwards is what a session of
the target gives.  Every session of the target is one of the server, given
the turns for the loop of `cont`. -/
theorem server_refines_target (hs : Shows gdb t)
    (hwithin : ∀ e ∈ es, e.Within t.arm.mem.size.toNat) :
    (∃ as, Sends as es) ∧ ∀ as, Sends as es →
      (∀ turns data', simulate h turns { gdb := gdb, buffer := buffer, len := 0 } as = .ok data' →
        ∃ ss t', Session h.toHost t es ss t' ∧ Shows data'.gdb t' ∧
          data'.gdb.fd = gdb.fd ++ repliesText ss) ∧
      ∀ ss t', Session h.toHost t es ss t' → ∃ turns₀, ∀ turns, turns₀ ≤ turns →
        ∃ data', simulate h turns { gdb := gdb, buffer := buffer, len := 0 } as = .ok data' ∧
          Shows data'.gdb t' ∧ data'.gdb.fd = gdb.fd ++ repliesText ss := by
  have hstart : Serving { gdb := gdb, buffer := buffer, len := 0 } t := ⟨rfl, hs⟩
  refine ⟨exists_sends t.arm.mem.size.isLt hwithin, fun as hsends => ⟨?_, ?_⟩⟩
  · intro turns data' hrun
    obtain ⟨ss, t', hsession, hserving, hfd⟩ := simulate_session h hsends hstart hwithin hrun
    exact ⟨ss, t', hsession, hserving.shows, hfd⟩
  · intro ss t' hsession
    obtain ⟨turns₀, -, hruns⟩ := session_simulate h hsends hsession hwithin
    refine ⟨turns₀, fun turns hturns => ?_⟩
    obtain ⟨data', hrun, hserving, hfd⟩ := hruns turns hturns _ hstart
    exact ⟨data', hrun, hserving.shows, hfd⟩

/-- 16 bytes of memory, after a reset. -/
def smallTarget : Target where
  arm := armCreate x86Host registersCreate (memoryCreate 16 fun _ => 0)
  breakpoints := ∅
  exception := 0

def smallServer : GdbProtocolData := gdbInitData smallTarget.arm blankPacket fun _ => 0

/-- A breakpoint, an exception, and the program is run. -/
def breakpointEvents : List Event :=
  [.command (.request (.setBreakpoint 8)), .interrupt 1, .command .resume]

theorem server_refines_target_breakpointEvents :
    (∃ as, Sends as breakpointEvents) ∧ ∀ as, Sends as breakpointEvents →
      (∀ turns data',
        simulate x86GdbHost turns { gdb := smallServer, buffer := fun _ => 0, len := 0 } as
            = .ok data' →
          ∃ ss t', Session x86GdbHost.toHost smallTarget breakpointEvents ss t' ∧
            Shows data'.gdb t' ∧ data'.gdb.fd = smallServer.fd ++ repliesText ss) ∧
      ∀ ss t', Session x86GdbHost.toHost smallTarget breakpointEvents ss t' →
        ∃ turns₀, ∀ turns, turns₀ ≤ turns → ∃ data',
          simulate x86GdbHost turns { gdb := smallServer, buffer := fun _ => 0, len := 0 } as
              = .ok data' ∧
            Shows data'.gdb t' ∧ data'.gdb.fd = smallServer.fd ++ repliesText ss := by
  refine server_refines_target x86GdbHost (fun _ => 0) (shows_init ..) fun e he => ?_
  simp only [breakpointEvents, List.mem_cons, List.not_mem_nil, or_false] at he
  rcases he with rfl | rfl | rfl <;> trivial

/-- What is read is what was written last, and else what was there before,
whatever else was done meanwhile except for running the program. -/
theorem reads_last_written {as : List Arrival} (hs : Shows gdb t) (hsends : Sends as es)
    (hwithin : ∀ e ∈ es, e.Within t.arm.mem.size.toNat) (hruns : ∀ e ∈ es, ¬ e.Runs)
    {a : Word} {n : ℕ} {p : PacketToken} (hp : p.Carries (.request (.readMemory a n)))
    (hread : (Request.readMemory a n).Within t.arm.mem.size.toNat) (turns : ℕ) (after : Text) :
    ∃ ss t' data', Session h.toHost t es ss t' ∧
      simulate h turns { gdb := gdb, buffer := buffer, len := 0 }
        (as ++ [.token (.message (.packet p)) after]) = .ok data' ∧
      data'.gdb.fd = gdb.fd ++ repliesText (ss ++ [hexBytes (List.ofFn
        fun i : Fin (min n (t.arm.mem.size.toNat - a.toNat)) =>
          replay t.arm.mem.byteAt (es.flatMap Event.entries) (a + BitVec.ofNat 32 i))]) := by
  obtain ⟨ss, t', hsession⟩ := exists_session h.toHost t hruns
  obtain ⟨hsize, hbytes⟩ := hsession.byteAt hruns hwithin
  -- the packet is one more event, which runs nothing either
  have hlast : Session h.toHost t' [.command (.request (.readMemory a n))]
      [hexBytes (memoryText t'.arm.mem a n)] t' := .command (.request (.readMemory a n)) (.nil t')
  obtain ⟨turns₀, hzero, hrun⟩ := session_simulate h
    (hsends.append (.packet after hp .nil)) (hsession.append hlast)
    (List.forall_mem_append.mpr ⟨hwithin, List.forall_mem_singleton.mpr hread⟩)
  have hnone : turns₀ = 0 := hzero
    (List.forall_mem_append.mpr ⟨hruns, List.forall_mem_singleton.mpr not_false⟩)
  obtain ⟨data', hok, -, hfd⟩ := hrun turns (hnone ▸ Nat.zero_le turns)
    { gdb := gdb, buffer := buffer, len := 0 } ⟨rfl, hs⟩
  refine ⟨ss, t', data', hsession, hok, ?_⟩
  rw [hfd, memoryText_eq_ofFn, hsize, hbytes]

/-- `X4,2:`, a `#` that is escaped, and `A`. -/
def writePacket : PacketToken :=
  framedToken (bytes "X4,2:" ++ [0x7d, 0x03, ch 'A']) (by decide) (by decide)

theorem writePacket_carries :
    writePacket.Carries (.request (.writeMemory 4 [ch '#', ch 'A'])) where
  verifies := framedToken_verifies ..
  asks := by
    have ha : Numeral (bytes "4") (4 : Word).toNat := ⟨⟨by decide, by decide⟩, by decide⟩
    have hn : Numeral (bytes "2") 2 := ⟨⟨by decide, by decide⟩, by decide⟩
    exact .writeMemory ha hn (.escape (c := ch '#') (.plain (c := ch 'A') (by decide) .nil))

/-- `m3,4` -/
def readPacket : PacketToken := framedToken (bytes "m3,4") (by decide) (by decide)

theorem readPacket_carries : readPacket.Carries (.request (.readMemory 3 4)) where
  verifies := framedToken_verifies ..
  asks := by
    have ha : Numeral (bytes "3") (3 : Word).toNat := ⟨⟨by decide, by decide⟩, by decide⟩
    have hn : Numeral (bytes "4") 4 := ⟨⟨by decide, by decide⟩, by decide⟩
    exact .readMemory ha hn

theorem reads_last_written_writePacket :
    ∃ ss t' data',
      Session x86GdbHost.toHost smallTarget
        [.command (.request (.writeMemory 4 [ch '#', ch 'A'])), .interrupt 1] ss t' ∧
      simulate x86GdbHost 0 { gdb := smallServer, buffer := fun _ => 0, len := 0 }
        ([.token (.message (.packet writePacket)) [], .interrupt 1] ++
          [.token (.message (.packet readPacket)) []]) = .ok data' ∧
      data'.gdb.fd = smallServer.fd ++ repliesText (ss ++ [hexBytes (List.ofFn
        fun i : Fin (min 4 (smallTarget.arm.mem.size.toNat - (3 : Word).toNat)) =>
          replay smallTarget.arm.mem.byteAt
            (List.flatMap Event.entries
              [.command (.request (.writeMemory 4 [ch '#', ch 'A'])), .interrupt 1])
            (3 + BitVec.ofNat 32 i))]) := by
  refine reads_last_written x86GdbHost (fun _ => 0) (shows_init ..)
    (.packet [] writePacket_carries (.interrupt 1 .nil)) (fun e he => ?_) (fun e he => ?_)
    readPacket_carries ⟨by decide, by decide, by decide⟩ 0 []
  · simp only [List.mem_cons, List.not_mem_nil, or_false] at he
    rcases he with rfl | rfl
    · exact ⟨by decide, by decide⟩
    · trivial
  · simp only [List.mem_cons, List.not_mem_nil, or_false] at he
    rcases he with rfl | rfl <;> exact not_false

end

end Armator
