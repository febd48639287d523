/-
Programs run by the debugger.

The command `c` and the logic of programs say the same: a triple holds for
the addresses in the breakpoint table if and only if `c`, given in a state
where its precondition holds, comes to an end in one where its postcondition
does (`cont_ends_iff`).  So what the logic proves of a program is seen by
the debugger: of the first example, whatever its number, that `c` is
answered by `X05` (`example1_debugged`), and of the second that it tells the
byte order (`example2_debugged`).
-/
import Armator.Example1
import Armator.Example2
import Armator.Gdb.PacketSafety

namespace Armator

open CText Progress Relation

/-! ## The reply -/

/-- What is replied to a command that runs the program. -/
def stopReason (targetException : Int) : Text :=
  if targetException = UNDEFINED_INSTRUCTION then bytes "S04"
  else if targetException = PREFETCH_ABORT then bytes "S0A"
  else if targetException = DATA_ABORT then bytes "S0B"
  else if targetException = END_SIMULATION then bytes "X05"
  else bytes "S05"

theorem gdbSendStopReason_eq (gdb : GdbProtocolData) :
    gdbSendStopReason gdb = gdbSendData gdb (stopReason gdb.targetException) := rfl

theorem stopReason_short (r : Int) :
    (0 : Byte) ∉ stopReason r ∧ (stopReason r).length ≤ 4091 := by
  unfold stopReason
  split_ifs <;> decide

/-! ## The loop of `cont` and the runs of the processor -/

section

variable (h : GdbHost) {gdb : GdbProtocolData}

/-- A run that stops makes the loop return, when it has the turns: as many
for every server with the processor and the breakpoints. -/
theorem contLoop_of_run {stop : Word → Prop} {p p₁ : ArmCore} {r : Int} {p' : ArmCore}
    (hrun : ReflTransGen (Goes h.toHost stop) p p₁) (hstop : Stops h.toHost stop p₁ r p') :
    ∃ turns₀, ∀ turns, turns₀ ≤ turns → ∀ gdb : GdbProtocolData, gdb.table.Sorted →
      gdb.table.Holds = stop → gdb.arm = p →
        contLoop h turns gdb = .ok { gdb with arm := p', targetException := r } := by
  induction hrun using ReflTransGen.head_induction_on with
  | refl =>
      refine ⟨1, fun turns hturns gdb hsorted hholds hp => ?_⟩
      have hstep : singleStep h gdb = .ok { gdb with arm := p', targetException := r } := by
        rw [singleStep, hp, hstop.1]
      obtain ⟨turns, rfl⟩ := Nat.exists_eq_add_of_le' hturns
      subst hholds
      obtain ⟨-, hreturn, -⟩ := contLoop_succ h turns hsorted hstep
      refine hreturn (hstop.2.symm.imp_left fun hpc => ?_)
      rwa [register_pc]
  | @head p p₂ hgo _ ih =>
      obtain ⟨turns₀, hloop⟩ := ih
      refine ⟨turns₀ + 1, fun turns hturns gdb hsorted hholds hp => ?_⟩
      have hstep : singleStep h gdb = .ok { gdb with arm := p₂, targetException := 0 } := by
        rw [singleStep, hp, hgo.1]
      obtain ⟨turns, rfl⟩ : ∃ k, turns = k + 1 := ⟨turns - 1, by omega⟩
      subst hholds
      obtain ⟨-, -, hnext⟩ := contLoop_succ h turns hsorted hstep
      have hgoes : ¬ Stopped gdb.table.Holds { gdb with arm := p₂, targetException := 0 } := by
        rintro (hpc | hne)
        · rw [register_pc] at hpc
          exact hgo.2 hpc
        · exact hne rfl
      rw [hnext hgoes]
      exact hloop turns (Nat.le_of_succ_le_succ hturns) { gdb with arm := p₂, targetException := 0 }
        hsorted rfl rfl

/-- And where the loop returns a run has stopped. -/
theorem run_of_contLoop {t : BreakpointTable} (hsorted : t.Sorted) {turns : ℕ}
    {gdb' : GdbProtocolData} (htable : gdb.table = t) (hloop : contLoop h turns gdb = .ok gdb') :
    ∃ p₁, ReflTransGen (Goes h.toHost t.Holds) gdb.arm p₁ ∧
      Stops h.toHost t.Holds p₁ gdb'.targetException gdb'.arm := by
  induction turns generalizing gdb with
  | zero => cases hloop
  | succ turns ih =>
      obtain ⟨r, arm, harm, hstep⟩ := singleStep_spec h gdb
      subst htable
      obtain ⟨-, hreturn, hnext⟩ := contLoop_succ h turns hsorted hstep
      by_cases hst : Stopped gdb.table.Holds { gdb with arm := arm, targetException := r }
      · rw [hreturn hst] at hloop
        obtain rfl := Except.ok.inj hloop
        refine ⟨gdb.arm, .refl, harm, hst.symm.imp_right fun hholds => ?_⟩
        rwa [register_pc] at hholds
      · rw [hnext hst] at hloop
        obtain ⟨p₁, hrun, hstop⟩ :=
          @ih { gdb with arm := arm, targetException := r } rfl hloop
        unfold Stopped at hst
        push Not at hst
        rw [register_pc] at hst
        have hzero : r = 0 := hst.2
        rw [hzero] at harm
        exact ⟨p₁, .head ⟨harm, hst.1⟩ hrun, hstop⟩

end

/-! ## The logic of programs, seen by the debugger -/

/-- The command `c`, with enough turns, comes to an end, replies why, and
leaves the processor in a state where `Q` holds. -/
def ContEnds (h : GdbHost) (gdb : GdbProtocolData) (data : Text) (Q : Int → ArmCore → Prop) :
    Prop :=
  ∃ turns₀, ∀ turns, turns₀ ≤ turns → ∃ gdb', cont h turns gdb data = .ok gdb' ∧
    gdb'.fd = gdb.fd ++ frame (stopReason gdb'.targetException) ∧ gdb'.table = gdb.table ∧
    Q gdb'.targetException gdb'.arm

section

variable (h : GdbHost) {t : BreakpointTable} {P : ArmCore → Prop} {Q : Int → ArmCore → Prop}

theorem contEnds_of_ends (hsorted : t.Sorted) (hends : Ends h.toHost t.Holds P Q)
    {gdb : GdbProtocolData} (htable : gdb.table = t) (hopen : gdb.shut = false) (hp : P gdb.arm)
    (data : Text) :
    ContEnds h gdb data Q := by
  obtain ⟨p₁, hrun, r, p', hstop, hq⟩ := hends gdb.arm hp
  obtain ⟨turns₀, hloop⟩ := contLoop_of_run h hrun hstop
  refine ⟨turns₀, fun turns hturns => ?_⟩
  have hreturns := hloop turns hturns gdb (htable ▸ hsorted) (htable ▸ rfl) rfl
  have hsends := gdbSendData_spec { gdb with arm := p', targetException := r }
    (stopReason_short r).1 (stopReason_short r).2
  obtain ⟨gdb', hsend, hsent⟩ := hsends.ok hopen
  refine ⟨gdb', ?_, ?_, hsent.table, ?_⟩
  · show (contLoop h turns gdb >>= fun gdb => gdbSendStopReason gdb) = _
    rw [hreturns, ok_bind, gdbSendStopReason_eq, hsend]
  · rw [hsent.fd, hsent.targetException]
  · rw [hsent.targetException, hsent.arm]
    exact hq

theorem run_of_contEnds (hsorted : t.Sorted) {gdb : GdbProtocolData} (htable : gdb.table = t)
    {data : Text} (hcont : ContEnds h gdb data Q) :
    ∃ p₁, ReflTransGen (Goes h.toHost t.Holds) gdb.arm p₁ ∧
      ∃ r p', Stops h.toHost t.Holds p₁ r p' ∧ Q r p' := by
  obtain ⟨turns₀, hreturns⟩ := hcont
  obtain ⟨gdb', hrun, -, -, hq⟩ := hreturns turns₀ le_rfl
  have hrun' : (contLoop h turns₀ gdb >>= fun gdb => gdbSendStopReason gdb) = .ok gdb' := hrun
  cases hloop : contLoop h turns₀ gdb with
  | error e =>
      rw [hloop] at hrun'
      cases hrun'
  | ok gdb₁ =>
      rw [hloop, ok_bind] at hrun'
      obtain ⟨s, hsends⟩ := gdbSendStopReason_spec gdb₁
      obtain ⟨-, hsent⟩ := hsends.of_ok hrun'
      obtain ⟨p₁, hgoes, hstop⟩ := run_of_contLoop h hsorted htable hloop
      rw [hsent.targetException, hsent.arm] at hq
      exact ⟨p₁, hgoes, _, _, hstop, hq⟩

/-- The logic is sound and complete for `c`: what it says of a program is
what the debugger finds on an open connection. -/
theorem cont_ends_iff (hsorted : t.Sorted) (P : ArmCore → Prop) (Q : Int → ArmCore → Prop)
    (data : Text) :
    Ends h.toHost t.Holds P Q ↔
      ∀ gdb : GdbProtocolData, gdb.table = t → gdb.shut = false → P gdb.arm →
        ContEnds h gdb data Q := by
  constructor
  · intro hends gdb htable hopen hp
    exact contEnds_of_ends h hsorted hends htable hopen hp data
  · intro hcont p hp
    have hgdb : ∃ gdb : GdbProtocolData, gdb.table = t ∧ gdb.shut = false ∧ gdb.arm = p :=
      ⟨{ gdbInitData p blankPacket (fun _ => 0) with table := t }, rfl, rfl, rfl⟩
    obtain ⟨gdb, htable, hopen, rfl⟩ := hgdb
    exact run_of_contEnds h hsorted htable (hcont gdb htable hopen hp)

end

/-- A server whose program is `swi 0x123456`. -/
def endingServer : GdbProtocolData :=
  gdbInitData (booted 16 [0xEF123456]) blankPacket fun _ => 0

theorem cont_ends_iff_endingServer :
    Ends x86Host (emptyTable fun _ => 0).Holds (fun p => p = endingServer.arm)
        (fun r _ => r = END_SIMULATION) ↔
      ∀ gdb : GdbProtocolData, (gdb.table = emptyTable fun _ => 0) → gdb.shut = false →
        gdb.arm = endingServer.arm →
        ContEnds x86GdbHost gdb [] fun r _ => r = END_SIMULATION :=
  cont_ends_iff x86GdbHost (emptyTable_represents _).1 _ _ []

/-! ## The first example -/

/-- Whatever has been set elsewhere, a debugger that has loaded the example
and gives `c` at `main` on an open connection is answered `X05`, for every number the example
begins with, and finds 0 in r0, the address behind the example in r14, and
everything else but the flags as it was. -/
theorem example1_debugged (h : GdbHost) (hh : h.toHost.ShiftsOut) {A : Word} {n : Byte}
    (gdb : GdbProtocolData) (hopen : gdb.shut = false) (hsorted : gdb.table.Sorted)
    (hgo : ∀ i < 6, ¬ gdb.table.Holds (wordAddress A i))
    (hl : Loaded h.toHost A (example1 n) gdb.arm.mem) (hpc : gdb.arm.reg 15 = wordAddress A 2)
    (data : Text) :
    ContEnds h gdb data fun r p =>
      stopReason r = bytes "X05" ∧ p.reg 15 = wordAddress A 6 ∧ armReadRegister p 0 = 0 ∧
        armReadRegister p 14 = wordAddress A 6 ∧ Changes [0, 14] gdb.arm p := by
  refine contEnds_of_ends h hsorted ((example1_ends hh hgo gdb.arm hl).imp (fun _ => id) ?_) rfl
    hopen ⟨rfl, hpc⟩ data
  rintro p₁ ⟨r, p', hstop, hr, hpost⟩
  refine ⟨r, p', hstop, ?_, hpost⟩
  rw [hr]
  rfl

/-- The example as it is, at address 0x20. -/
def example1Memory : Memory :=
  memoryCreate 64 fun i => ((example1 5).getD (i / 4 - 8) 0 >>> (8 * (i % 4))).setWidth 8

def example1Server : GdbProtocolData :=
  gdbInitData (armWriteRegister (armCreate x86Host registersCreate example1Memory) 15 0x28)
    blankPacket fun _ => 0

theorem loaded_example1Server : Loaded x86Host 0x20 (example1 5) example1Server.arm.mem :=
  .of_forall (by decide) (by decide +kernel)

theorem example1_debugged_example1Server :
    ContEnds x86GdbHost example1Server [] fun r p =>
      stopReason r = bytes "X05" ∧ p.reg 15 = wordAddress 0x20 6 ∧ armReadRegister p 0 = 0 ∧
        armReadRegister p 14 = wordAddress 0x20 6 ∧ Changes [0, 14] example1Server.arm p := by
  have hempty : Represents example1Server.table fun _ => false := emptyTable_represents _
  refine example1_debugged x86GdbHost (fun x => BitVec.or_self) example1Server rfl hempty.1 ?_
    loaded_example1Server (by decide +kernel) []
  intro i _ hholds
  exact Bool.false_ne_true ((hempty.2 _).mp hholds)

/-! ## The second example -/

/-- A debugger that gives `c` at the start of the second example, on an open
connection, is answered `X05`, and reads off r2 and r3 with which byte order the simulator has been
built. -/
theorem example2_debugged (h : GdbHost) (hh : h.toHost.ShiftsOut) {A : Word}
    (gdb : GdbProtocolData) (hopen : gdb.shut = false) (hsorted : gdb.table.Sorted)
    (hgo : ∀ i < 13, ¬ gdb.table.Holds (wordAddress A i))
    (hl : Loaded h.toHost A example2 gdb.arm.mem) (hin : gdb.arm.mem.InRange 0x2000 4)
    (hapart : ∀ i < 13, ∀ j < 4, wordAddress A i + BitVec.ofNat 32 j ∉ bytesFrom 0x2000 4)
    (hpc : gdb.arm.reg 15 = wordAddress A 0) (data : Text) :
    ContEnds h gdb data fun r p =>
      stopReason r = bytes "X05" ∧ p.reg 15 = wordAddress A 13 ∧
        armReadRegister p 0 = 0x12345678 ∧ armReadRegister p 1 = 0x2003 ∧
        armReadRegister p 2 = (if h.endianess = 0 then 0x78 else 0x12) ∧
        armReadRegister p 3 = (if h.endianess = 0 then 0x12 else 0x78) ∧
        p.mem.size = gdb.arm.mem.size ∧ p.mem.wordAt h.endianess 0x2000 = 0x12345678 ∧
        (∀ b ∉ bytesFrom 0x2000 4, p.mem.byteAt b = gdb.arm.mem.byteAt b) ∧
        Changes [0, 1, 2, 3, 14] (gdb.arm.withMem p.mem) p := by
  refine contEnds_of_ends h hsorted
    ((example2_ends hh hgo gdb.arm hl hin hapart).imp (fun _ => id) ?_) rfl hopen ⟨rfl, hpc⟩ data
  rintro p₁ ⟨r, p', hstop, hr, hpost⟩
  refine ⟨r, p', hstop, ?_, hpost⟩
  rw [hr]
  rfl

/-- The example at address 0x20. -/
def example2Memory : Memory :=
  memoryCreate 0x3000 fun i => (example2.getD (i / 4 - 8) 0 >>> (8 * (i % 4))).setWidth 8

def example2Server : GdbProtocolData :=
  gdbInitData (armWriteRegister (armCreate x86Host registersCreate example2Memory) 15 0x20)
    blankPacket fun _ => 0

theorem loaded_example2Server : Loaded x86Host 0x20 example2 example2Server.arm.mem :=
  .of_forall (by decide) (by decide +kernel)

theorem example2_debugged_example2Server :
    ContEnds x86GdbHost example2Server [] fun r p =>
      stopReason r = bytes "X05" ∧ p.reg 15 = wordAddress 0x20 13 ∧
        armReadRegister p 0 = 0x12345678 ∧ armReadRegister p 1 = 0x2003 ∧
        armReadRegister p 2 = 0x78 ∧ armReadRegister p 3 = 0x12 ∧
        p.mem.size = example2Memory.size ∧ p.mem.wordAt 0 0x2000 = 0x12345678 ∧
        (∀ b ∉ bytesFrom 0x2000 4, p.mem.byteAt b = example2Memory.byteAt b) ∧
        Changes [0, 1, 2, 3, 14] (example2Server.arm.withMem p.mem) p := by
  have hempty : Represents example2Server.table fun _ => false := emptyTable_represents _
  refine example2_debugged x86GdbHost (fun x => BitVec.or_self) example2Server rfl hempty.1 ?_
    loaded_example2Server (by decide +kernel) (by decide +kernel) (by decide +kernel) []
  intro i _ hholds
  exact Bool.false_ne_true ((hempty.2 _).mp hholds)

end Armator
