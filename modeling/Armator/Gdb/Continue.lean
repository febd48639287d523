/-
The continue command, `cont`.

`cont` runs single steps and looks after each of them for its program
counter in the breakpoint table.  The search is right on a table that is
sorted, and every table that requests can make is; so the loop stops where
a debugger that steps by itself and knows what it has set would stop, and
not before (`cont_eq_steps`).
-/
import Armator.Effects
import Armator.Gdb.Framing
import Armator.Gdb.FullTable

namespace Armator

open CText Replay

/-! ## Requests -/

/-- A `Z` or `z` packet, given by the text after its letter. -/
inductive BreakpointRequest where
  | set (data : Text)
  | remove (data : Text)

/-- The handler of a request. -/
def BreakpointRequest.handle (h : GdbHost) (gdb : GdbProtocolData) :
    BreakpointRequest → Except NoReturn GdbProtocolData
  | .set data => setBreakpoint h gdb data
  | .remove data => removeBreakpoint h gdb data

/-- The type and the address in a request. -/
def BreakpointRequest.scan (h : GdbHost) : BreakpointRequest → Byte × Word
  | .set data => scanBreakpoint h .setBreakpoint data
  | .remove data => scanBreakpoint h .removeBreakpoint data

/-- The operation a request of type 0 makes on the table. -/
def BreakpointRequest.op (h : GdbHost) : BreakpointRequest → BreakpointOp
  | .set data => .add (scanBreakpoint h .setBreakpoint data).2
  | .remove data => .remove (scanBreakpoint h .removeBreakpoint data).2

def BreakpointRequest.ops (h : GdbHost) (r : BreakpointRequest) : List BreakpointOp :=
  if (r.scan h).1 = 0 then [r.op h] else []

/-- The reply to a request whose operation has failed. -/
def BreakpointRequest.failure : BreakpointRequest → Text
  | .set _ => bytes "E04"
  | .remove _ => bytes "E05"

/-- Requests handled one after the other. -/
def handleRequests (h : GdbHost) (gdb : GdbProtocolData) :
    List BreakpointRequest → Except NoReturn GdbProtocolData
  | [] => return gdb
  | r :: requests => do handleRequests h (← r.handle h gdb) requests

theorem runBreakpoints_singleton {t t' : BreakpointTable} {op : BreakpointOp} {result : Int}
    (happly : op.apply t = .ok (result, t')) :
    runBreakpoints t [op] = .ok (t', [(op, result)]) := by
  rw [runBreakpoints, happly]
  rfl

theorem runBreakpoints_append {t t₁ t₂ : BreakpointTable} {ops ops' : List BreakpointOp}
    {log log' : BreakpointLog} (h : runBreakpoints t ops = .ok (t₁, log))
    (h' : runBreakpoints t₁ ops' = .ok (t₂, log')) :
    runBreakpoints t (ops ++ ops') = .ok (t₂, log ++ log') := by
  induction ops generalizing t log with
  | nil =>
      obtain ⟨rfl, rfl⟩ := Prod.mk.inj (Except.ok.inj h)
      exact h'
  | cons op ops ih =>
      rw [runBreakpoints] at h
      cases happly : op.apply t with
      | error e =>
          rw [happly] at h
          cases h
      | ok o =>
          rw [happly, ok_bind] at h
          simp only at h
          cases hrun : runBreakpoints o.2 ops with
          | error e =>
              rw [hrun] at h
              cases h
          | ok q =>
              rw [hrun, ok_bind] at h
              obtain ⟨rfl, rfl⟩ := Prod.mk.inj (Except.ok.inj h)
              rw [List.cons_append, runBreakpoints, happly, ok_bind]
              simp only [ih hrun]
              rfl

theorem BreakpointRequest.handle_eq (h : GdbHost) (gdb : GdbProtocolData)
    (r : BreakpointRequest) :
    r.handle h gdb = if (r.scan h).1 ≠ 0 then gdbSendData gdb (bytes "E03") else
      (r.op h).apply gdb.table >>= fun o =>
        gdbSendData { gdb with table := o.2 } (if o.1 ≠ 0 then bytes "OK" else r.failure) := by
  have hif : ∀ (c : Prop) [Decidable c] (gdb : GdbProtocolData) (s t : Text),
      (if c then gdbSendData gdb s else gdbSendData gdb t)
        = gdbSendData gdb (if c then s else t) := by
    intro c _ gdb s t
    split <;> rfl
  cases r with
  | set data =>
      rw [handle, setBreakpoint]
      simp only [hif]
      rfl
  | remove data =>
      rw [handle, removeBreakpoint]
      simp only [hif]
      rfl

theorem BreakpointRequest.failure_short (r : BreakpointRequest) :
    (0 : Byte) ∉ r.failure ∧ r.failure.length ≤ 4091 := by
  cases r with
  | set _ => exact (by decide : (0 : Byte) ∉ bytes "E04" ∧ (bytes "E04").length ≤ 4091)
  | remove _ => exact (by decide : (0 : Byte) ∉ bytes "E05" ∧ (bytes "E05").length ≤ 4091)

/-- A request is answered, and what it does to the table is its operation. -/
theorem BreakpointRequest.handle_spec (h : GdbHost) {gdb : GdbProtocolData} {set : Word → Bool}
    (ht : Represents gdb.table set) (r : BreakpointRequest) :
    ∃ t' log s, runBreakpoints gdb.table (r.ops h) = .ok (t', log) ∧
      Transmits { gdb with table := t' } s (r.handle h gdb) := by
  rw [r.handle_eq, ops]
  by_cases htype : (r.scan h).1 = 0
  · obtain ⟨result, t', happly, -⟩ := (r.op h).apply_spec ht
    obtain ⟨h0, hle⟩ : (0 : Byte) ∉ (if result ≠ 0 then bytes "OK" else r.failure) ∧
        (if result ≠ 0 then bytes "OK" else r.failure).length ≤ 4091 := by
      split
      · exact ⟨by decide, by decide⟩
      · exact r.failure_short
    refine ⟨t', [(r.op h, result)], if result ≠ 0 then bytes "OK" else r.failure, ?_, ?_⟩
    · rw [if_pos htype, runBreakpoints_singleton happly]
    · rw [if_neg (not_not.mpr htype), happly, ok_bind]
      exact gdbSendData_spec { gdb with table := t' } h0 hle
  · refine ⟨gdb.table, [], bytes "E03", ?_, ?_⟩
    · rw [if_neg htype]
      rfl
    · rw [if_pos htype]
      exact gdbSendData_spec gdb (by decide) (by decide)

/-- On an open connection requests are all answered. -/
theorem handleRequests_ok (h : GdbHost) {gdb : GdbProtocolData} (hopen : gdb.shut = false)
    {set : Word → Bool} (ht : Represents gdb.table set) (requests : List BreakpointRequest) :
    ∃ gdb', handleRequests h gdb requests = .ok gdb' := by
  induction requests generalizing gdb set with
  | nil => exact ⟨gdb, rfl⟩
  | cons r requests ih =>
      obtain ⟨t₁, log₁, s, hrun₁, hsends⟩ := r.handle_spec h ht
      obtain ⟨t, log, hrun, ht₁⟩ := runBreakpoints_spec ht (r.ops h)
      obtain ⟨rfl, rfl⟩ := Prod.mk.inj (Except.ok.inj (hrun₁.symm.trans hrun))
      obtain ⟨gdb₁, hhandle, hsent⟩ := hsends.ok hopen
      have htable : gdb₁.table = t₁ := hsent.table
      rw [← htable] at ht₁
      obtain ⟨gdb', hrest⟩ := ih (hsent.shut.trans hopen) ht₁
      exact ⟨gdb', by rw [handleRequests, hhandle, ok_bind, hrest]⟩

/-- Where they are, the table they leave is that of a run of their
operations. -/
theorem handleRequests_spec (h : GdbHost) {gdb gdb' : GdbProtocolData} {set : Word → Bool}
    (ht : Represents gdb.table set) {requests : List BreakpointRequest}
    (hhandled : handleRequests h gdb requests = .ok gdb') :
    ∃ log, runBreakpoints gdb.table (requests.flatMap fun r => r.ops h)
      = .ok (gdb'.table, log) := by
  induction requests generalizing gdb set with
  | nil =>
      obtain rfl := Except.ok.inj hhandled
      exact ⟨[], rfl⟩
  | cons r requests ih =>
      obtain ⟨t₁, log₁, s, hrun₁, hsends⟩ := r.handle_spec h ht
      obtain ⟨t, log, hrun, ht₁⟩ := runBreakpoints_spec ht (r.ops h)
      obtain ⟨rfl, rfl⟩ := Prod.mk.inj (Except.ok.inj (hrun₁.symm.trans hrun))
      rw [handleRequests] at hhandled
      cases hhandle : r.handle h gdb with
      | error e =>
          rw [hhandle] at hhandled
          cases hhandled
      | ok gdb₁ =>
          rw [hhandle, ok_bind] at hhandled
          obtain ⟨-, hsent⟩ := hsends.of_ok hhandle
          have htable : gdb₁.table = t₁ := hsent.table
          rw [← htable] at ht₁ hrun₁
          obtain ⟨log', hrun'⟩ := ih ht₁ hhandled
          rw [List.flatMap_cons]
          exact ⟨log₁ ++ log', runBreakpoints_append hrun₁ hrun'⟩

/-- The table that requests make of an empty one holds what its log says. -/
theorem requested_table {h : GdbHost} {breakpoints : Fin MAX_BREAKPOINTS_NUMBER → Word}
    {requests : List BreakpointRequest} {first reached : GdbProtocolData}
    (hfirst : first.table = emptyTable breakpoints)
    (hreached : handleRequests h first requests = .ok reached) :
    ∃ log, runBreakpoints (emptyTable breakpoints) (requests.flatMap fun r => r.ops h)
        = .ok (reached.table, log) ∧
      Represents reached.table (replay (fun _ => false) (log.flatMap breakpointEntries)) := by
  have hempty := emptyTable_represents breakpoints
  rw [← hfirst] at hempty ⊢
  obtain ⟨log, hrun⟩ := handleRequests_spec h hempty hreached
  obtain ⟨t, log', hrun', ht⟩ := runBreakpoints_spec hempty (requests.flatMap fun r => r.ops h)
  obtain ⟨rfl, rfl⟩ := Prod.mk.inj (Except.ok.inj (hrun.symm.trans hrun'))
  exact ⟨log, hrun, ht⟩

/-! ## Stepping until something happens -/

/-- The program counter is in the set, or the step has reported an
exception. -/
def Stopped (set : Word → Prop) (gdb : GdbProtocolData) : Prop :=
  set (gdb.register 15) ∨ gdb.targetException ≠ 0

/-- The states `s 0, s 1, …` are those of successive commands, and `s k`,
`k` at least 1, is the first after a command that is stopped. -/
structure FirstStop (next : GdbProtocolData → Except NoReturn GdbProtocolData)
    (set : Word → Prop) (s : ℕ → GdbProtocolData) (k : ℕ) : Prop where
  pos : 1 ≤ k
  next : ∀ i < k, next (s i) = .ok (s (i + 1))
  stopped : Stopped set (s k)
  before : ∀ i, 1 ≤ i → i < k → ¬ Stopped set (s i)

/-- One more state before the others. -/
def before (gdb : GdbProtocolData) (s : ℕ → GdbProtocolData) : ℕ → GdbProtocolData
  | 0 => gdb
  | i + 1 => s i

section

variable {next : GdbProtocolData → Except NoReturn GdbProtocolData} {set : Word → Prop}
  {gdb : GdbProtocolData} {s : ℕ → GdbProtocolData} {k : ℕ}

theorem FirstStop.one (hnext : next gdb = .ok (s 0)) (hstop : Stopped set (s 0)) :
    FirstStop next set (Armator.before gdb s) 1 where
  pos := le_rfl
  next := by
    intro i hi
    obtain rfl : i = 0 := by omega
    exact hnext
  stopped := hstop
  before := by
    intro i h1 h2
    omega

theorem FirstStop.cons (hnext : next gdb = .ok (s 0)) (hgo : ¬ Stopped set (s 0))
    (hs : FirstStop next set s k) : FirstStop next set (Armator.before gdb s) (k + 1) where
  pos := Nat.le_add_left 1 k
  next := by
    intro i hi
    cases i with
    | zero => exact hnext
    | succ i => exact hs.next i (by omega)
  stopped := hs.stopped
  before := by
    intro i h1 h2
    cases i with
    | zero => omega
    | succ i =>
        cases i with
        | zero => exact hgo
        | succ i => exact hs.before (i + 1) (by omega) (by omega)

end

/-! ## The loop of `cont` -/

/-- Two states that run the same program: they differ in what has been
sent. -/
structure SameRun (gdb gdb' : GdbProtocolData) : Prop where
  arm : gdb'.arm = gdb.arm
  targetException : gdb'.targetException = gdb.targetException
  shut : gdb'.shut = gdb.shut

theorem SameRun.refl (gdb : GdbProtocolData) : SameRun gdb gdb := ⟨rfl, rfl, rfl⟩

theorem SameRun.stopped_iff {gdb gdb' : GdbProtocolData} (hs : SameRun gdb gdb')
    (set : Word → Prop) : Stopped set gdb' ↔ Stopped set gdb := by
  rw [Stopped, Stopped, GdbProtocolData.register, GdbProtocolData.register, hs.arm,
    hs.targetException]

/-- On an open connection the command does to the program what
`single_step` does. -/
def RunsLikeStep (h : GdbHost) (next : GdbProtocolData → Except NoReturn GdbProtocolData) :
    Prop :=
  ∀ gdb gdb' gdb₁, SameRun gdb gdb' → gdb.shut = false → singleStep h gdb = .ok gdb₁ →
    ∃ gdb₁', next gdb' = .ok gdb₁' ∧ SameRun gdb₁ gdb₁'

/-- The simulated instruction always comes to an end. -/
theorem singleStep_spec (h : GdbHost) (gdb : GdbProtocolData) :
    ∃ r arm, armStep h.toHost gdb.arm = .ok (r, arm) ∧
      singleStep h gdb = .ok { gdb with arm := arm, targetException := r } := by
  obtain ⟨r, arm, hstep, -⟩ := armStep_effect h.toHost gdb.arm
  exact ⟨r, arm, hstep, by rw [singleStep, hstep]⟩

theorem runsLikeStep_singleStep (h : GdbHost) : RunsLikeStep h (singleStep h) := by
  intro gdb gdb' gdb₁ hsame _ hstep
  obtain ⟨r, arm, harm, hstep'⟩ := singleStep_spec h gdb'
  refine ⟨_, hstep', ?_⟩
  rw [hsame.arm] at harm
  rw [singleStep, harm] at hstep
  obtain rfl := Except.ok.inj hstep
  exact ⟨rfl, rfl, hsame.shut⟩

theorem singleStep_shut {h : GdbHost} {gdb gdb₁ : GdbProtocolData}
    (hstep : singleStep h gdb = .ok gdb₁) : gdb₁.shut = gdb.shut := by
  obtain ⟨r, arm, -, hstep'⟩ := singleStep_spec h gdb
  obtain rfl := Except.ok.inj (hstep'.symm.trans hstep)
  rfl

/-- Every reason to stop has a reply. -/
theorem gdbSendStopReason_spec (gdb : GdbProtocolData) :
    ∃ s, Transmits gdb s (gdbSendStopReason gdb) := by
  unfold gdbSendStopReason
  simp only
  split_ifs <;> exact ⟨_, gdbSendData_spec gdb (by decide) (by decide)⟩

theorem runsLikeStep_step (h : GdbHost) (data : Text) :
    RunsLikeStep h fun gdb => step h gdb data := by
  intro gdb gdb' gdb₁ hsame hopen hstep
  obtain ⟨gdb₂, hstep₂, hsame₂⟩ := runsLikeStep_singleStep h gdb gdb' gdb₁ hsame hopen hstep
  obtain ⟨s, hsends⟩ := gdbSendStopReason_spec gdb₂
  have hopen₂ : gdb₂.shut = false := hsame₂.shut.trans ((singleStep_shut hstep).trans hopen)
  obtain ⟨gdb₃, hsend, hsent⟩ := hsends.ok hopen₂
  refine ⟨gdb₃, ?_, hsent.arm.trans hsame₂.arm,
    hsent.targetException.trans hsame₂.targetException, hsent.shut.trans hsame₂.shut⟩
  show (singleStep h gdb' >>= fun gdb => gdbSendStopReason gdb) = _
  rw [hstep₂, ok_bind, hsend]

theorem register_pc (gdb : GdbProtocolData) : gdb.register 15 = gdb.arm.reg 15 := by
  rw [GdbProtocolData.register, registersRead_eq, slot_pc]

/-- One turn of the loop: a single step, and then the search. -/
theorem contLoop_succ (h : GdbHost) (turns : ℕ) {gdb gdb₁ : GdbProtocolData}
    (hsorted : gdb.table.Sorted) (hstep : singleStep h gdb = .ok gdb₁) :
    gdb₁.table = gdb.table ∧
      (Stopped gdb.table.Holds gdb₁ → contLoop h (turns + 1) gdb = .ok gdb₁) ∧
      (¬ Stopped gdb.table.Holds gdb₁ → contLoop h (turns + 1) gdb = contLoop h turns gdb₁) := by
  have htable : gdb₁.table = gdb.table := by
    obtain ⟨r, arm, -, hstep'⟩ := singleStep_spec h gdb
    rw [hstep] at hstep'
    rw [Except.ok.inj hstep']
  have hturn : contLoop h (turns + 1) gdb
      = gdbFindBreakpoint gdb.table (gdb₁.register 15) >>= fun i =>
          if i ≠ -1 then .ok gdb₁
          else if gdb₁.targetException ≠ 0 then .ok gdb₁
          else contLoop h turns gdb₁ := by
    rw [contLoop, hstep, ok_bind, htable]
    rfl
  refine ⟨htable, ?_, ?_⟩
  · intro hstop
    rw [hturn]
    by_cases hold : gdb.table.Holds (gdb₁.register 15)
    · obtain ⟨i, hfind, -⟩ := gdbFindBreakpoint_of_holds hsorted hold
      have hi : (i : Int) ≠ -1 := by omega
      rw [hfind, ok_bind, if_pos hi]
    · rw [gdbFindBreakpoint_of_not_holds hsorted hold, ok_bind, if_neg (not_not.mpr rfl),
        if_pos (hstop.resolve_left hold)]
  · intro hgo
    rw [hturn]
    unfold Stopped at hgo
    push Not at hgo
    rw [gdbFindBreakpoint_of_not_holds hsorted hgo.1, ok_bind, if_neg (not_not.mpr rfl),
      if_neg (not_not.mpr hgo.2)]

/-- The loop writes nothing but the processor and the exception. -/
theorem contLoop_frame {h : GdbHost} {turns : ℕ} {gdb gdb' : GdbProtocolData}
    (hloop : contLoop h turns gdb = .ok gdb') :
    gdb' = { gdb with arm := gdb'.arm, targetException := gdb'.targetException } := by
  induction turns generalizing gdb with
  | zero => cases hloop
  | succ turns ih =>
      obtain ⟨r, p, -, hstep⟩ := singleStep_spec h gdb
      rw [contLoop, hstep, ok_bind] at hloop
      simp only at hloop
      cases hfind : gdbFindBreakpoint gdb.table
          (({ gdb with arm := p, targetException := r } : GdbProtocolData).register 15) with
      | error e =>
          rw [hfind] at hloop
          cases hloop
      | ok i =>
          rw [hfind, ok_bind] at hloop
          split at hloop
          · obtain rfl := Except.ok.inj hloop
            rfl
          · split at hloop
            · obtain rfl := Except.ok.inj hloop
              rfl
            · have hrest := ih hloop
              exact hrest

theorem contLoop_shut {h : GdbHost} {turns : ℕ} {gdb gdb' : GdbProtocolData}
    (hloop : contLoop h turns gdb = .ok gdb') : gdb'.shut = gdb.shut := by
  rw [contLoop_frame hloop]

/-- Where the loop ends is where commands that run like a step first stop. -/
theorem firstStop_of_contLoop (h : GdbHost)
    {next : GdbProtocolData → Except NoReturn GdbProtocolData} (hnext : RunsLikeStep h next)
    {turns : ℕ} {gdb gdb₀ gdb' : GdbProtocolData} (hsorted : gdb.table.Sorted)
    (hopen : gdb.shut = false) (hsame : SameRun gdb gdb₀)
    (hloop : contLoop h turns gdb = .ok gdb') :
    ∃ k s, s 0 = gdb₀ ∧ FirstStop next gdb.table.Holds s k ∧ SameRun gdb' (s k) := by
  induction turns generalizing gdb gdb₀ with
  | zero => cases hloop
  | succ turns ih =>
      obtain ⟨r, arm, -, hstep⟩ := singleStep_spec h gdb
      obtain ⟨htable, hstop, hgo⟩ := contLoop_succ h turns hsorted hstep
      obtain ⟨gdb₁, hnext₁, hsame₁⟩ := hnext _ _ _ hsame hopen hstep
      by_cases hst : Stopped gdb.table.Holds { gdb with arm := arm, targetException := r }
      · rw [hstop hst] at hloop
        obtain rfl := Except.ok.inj hloop
        exact ⟨1, before gdb₀ fun _ => gdb₁, rfl,
          FirstStop.one hnext₁ ((hsame₁.stopped_iff _).mpr hst), hsame₁⟩
      · rw [hgo hst] at hloop
        have hsorted₁ : ({ gdb with arm := arm, targetException := r } :
          GdbProtocolData).table.Sorted := hsorted
        obtain ⟨k, s, hs0, hfirst, hsame'⟩ := ih hsorted₁ hopen hsame₁ hloop
        exact ⟨k + 1, before gdb₀ s, rfl,
          FirstStop.cons (hs0 ▸ hnext₁) (fun hc => hst ((hsame₁.stopped_iff _).mp (hs0 ▸ hc)))
            hfirst, hsame'⟩

/-- And where single steps stop, the loop ends. -/
theorem contLoop_of_firstStop (h : GdbHost) {gdb : GdbProtocolData} {s : ℕ → GdbProtocolData}
    {k : ℕ} (hsorted : gdb.table.Sorted) (hs0 : s 0 = gdb)
    (hfirst : FirstStop (singleStep h) gdb.table.Holds s k) :
    contLoop h k gdb = .ok (s k) := by
  induction k generalizing gdb s with
  | zero => exact absurd hfirst.pos (by decide)
  | succ k ih =>
      have hstep : singleStep h gdb = .ok (s 1) := hs0 ▸ hfirst.next 0 (Nat.succ_pos k)
      obtain ⟨htable, hstop, hgo⟩ := contLoop_succ h k hsorted hstep
      by_cases hk : k = 0
      · subst hk
        exact hstop hfirst.stopped
      · rw [hgo (hfirst.before 1 le_rfl (by omega))]
        rw [← htable] at hsorted hfirst
        refine ih (s := fun i => s (i + 1)) hsorted rfl ⟨by omega, ?_, hfirst.stopped, ?_⟩
        · intro i hi
          exact hfirst.next (i + 1) (by omega)
        · intro i h1 h2
          exact hfirst.before (i + 1) (by omega) (by omega)

/-- For every state, and every table that requests make of an empty one:
where `c` stops, it has run the program as `k` times `s`, and stops at the
first of them that is at a breakpoint currently set or reports an
exception. -/
theorem cont_eq_steps (h : GdbHost) (turns : ℕ)
    (breakpoints : Fin MAX_BREAKPOINTS_NUMBER → Word) (requests : List BreakpointRequest)
    (first reached gdb gdb' : GdbProtocolData) (data : Text)
    (hfirst : first.table = emptyTable breakpoints)
    (hreached : handleRequests h first requests = .ok reached)
    (htable : gdb.table = reached.table) (hstop : cont h turns gdb data = .ok gdb') :
    ∃ log, runBreakpoints (emptyTable breakpoints) (requests.flatMap fun r => r.ops h)
        = .ok (gdb.table, log) ∧
      ∃ k s, s 0 = gdb ∧ FirstStop (fun gdb => step h gdb []) (CurrentlySet log) s k ∧
        gdb'.arm.reg = (s k).arm.reg ∧ gdb'.arm.mem = (s k).arm.mem ∧
        gdb'.targetException = (s k).targetException := by
  obtain ⟨log, hrun, ht⟩ := requested_table hfirst hreached
  rw [← htable] at ht hrun
  have hset : gdb.table.Holds = CurrentlySet log := by
    funext a
    rw [eq_iff_iff, currentlySet_iff]
    exact ht.2 a
  have hcont : (contLoop h turns gdb >>= fun gdb => gdbSendStopReason gdb) = .ok gdb' := hstop
  cases hloop : contLoop h turns gdb with
  | error e =>
      rw [hloop] at hcont
      cases hcont
  | ok gdb₁ =>
      rw [hloop, ok_bind] at hcont
      obtain ⟨reason, hsends⟩ := gdbSendStopReason_spec gdb₁
      -- the reply has been sent, so the connection was open all along
      obtain ⟨hopen₁, hsent⟩ := hsends.of_ok hcont
      have hopen : gdb.shut = false := (contLoop_shut hloop).symm.trans hopen₁
      obtain ⟨k, s, hs0, hfirst', hsame⟩ :=
        firstStop_of_contLoop h (runsLikeStep_step h []) ht.1 hopen (.refl gdb) hloop
      rw [hset] at hfirst'
      refine ⟨log, hrun, k, s, hs0, hfirst', ?_, ?_, ?_⟩
      · rw [hsent.arm, hsame.arm]
      · rw [hsent.arm, hsame.arm]
      · rw [hsent.targetException, hsame.targetException]

/-- A server whose program is `ADD r0, r0, #1`, four times. -/
def addingServer : GdbProtocolData :=
  gdbInitData (booted 16 (List.replicate 4 0xE2800001)) blankPacket fun _ => 0

/-- With a breakpoint at 12 set, `c` stops there after three instructions. -/
theorem cont_eq_steps_addingServer :
    ∃ reached gdb',
      handleRequests x86GdbHost addingServer [.set (bytes "0,c,4")] = .ok reached ∧
      cont x86GdbHost 3 { addingServer with table := reached.table } [] = .ok gdb' ∧
      ∃ log, runBreakpoints (emptyTable fun _ => 0)
          ([BreakpointRequest.set (bytes "0,c,4")].flatMap fun r => r.ops x86GdbHost)
            = .ok (reached.table, log) ∧
        ∃ k s, s 0 = { addingServer with table := reached.table } ∧
          FirstStop (fun gdb => step x86GdbHost gdb []) (CurrentlySet log) s k ∧
          gdb'.arm.reg = (s k).arm.reg ∧ gdb'.arm.mem = (s k).arm.mem ∧
          gdb'.targetException = (s k).targetException := by
  have hempty : Represents addingServer.table fun _ => false := emptyTable_represents _
  obtain ⟨reached, hreached⟩ := handleRequests_ok x86GdbHost rfl hempty [.set (bytes "0,c,4")]
  -- the table is that of one addition
  obtain ⟨t', hadd, hadded, -⟩ := gdbAddBreakpoint_of_new hempty.1 (by decide)
    fun hholds => Bool.false_ne_true ((hempty.2 12).mp hholds)
  obtain ⟨log, hlog⟩ := handleRequests_spec x86GdbHost hempty hreached
  have hops : ([BreakpointRequest.set (bytes "0,c,4")].flatMap fun r => r.ops x86GdbHost)
      = [.add 12] := by decide
  have happly : (BreakpointOp.add 12).apply addingServer.table = .ok (1, t') := hadd
  rw [hops, runBreakpoints_singleton happly] at hlog
  obtain rfl : t' = reached.table := congrArg Prod.fst (Except.ok.inj hlog)
  have hholds : ∀ a, reached.table.Holds a ↔ a = 12 := by
    intro a
    rw [hadded.holds, or_iff_left]
    exact fun hh => Bool.false_ne_true ((hempty.2 a).mp hh)
  obtain ⟨p₁, p₂, p₃, hstep₁, hstep₂, hstep₃, hpc₁, hpc₂, hpc₃⟩ : ∃ p₁ p₂ p₃,
      armStep x86Host addingServer.arm = .ok (0, p₁) ∧ armStep x86Host p₁ = .ok (0, p₂) ∧
      armStep x86Host p₂ = .ok (0, p₃) ∧ p₁.reg 15 = 4 ∧ p₂.reg 15 = 8 ∧ p₃.reg 15 = 12 :=
    ⟨_, _, _, rfl, rfl, rfl, by decide +kernel, by decide +kernel, by decide +kernel⟩
  -- neither of the first two turns stops the loop
  have hturn : ∀ (turns : ℕ) (gdb : GdbProtocolData) (p : ArmCore),
      gdb.table = reached.table → armStep x86Host gdb.arm = .ok (0, p) → p.reg 15 ≠ 12 →
        contLoop x86GdbHost (turns + 1) gdb
          = contLoop x86GdbHost turns { gdb with arm := p, targetException := 0 } := by
    intro turns gdb p htable hstep hpc
    have hone : singleStep x86GdbHost gdb = .ok { gdb with arm := p, targetException := 0 } := by
      have hstep' : armStep x86GdbHost.toHost gdb.arm = .ok (0, p) := hstep
      rw [singleStep, hstep']
    refine (contLoop_succ x86GdbHost turns (htable ▸ hadded.sorted) hone).2.2 ?_
    rintro (hstop | hne)
    · rw [htable, hholds, register_pc] at hstop
      exact hpc hstop
    · exact hne rfl
  have hlast : singleStep x86GdbHost
      { addingServer with table := reached.table, arm := p₂, targetException := 0 }
        = .ok { addingServer with table := reached.table, arm := p₃, targetException := 0 } := by
    have hstep' : armStep x86GdbHost.toHost p₂ = .ok (0, p₃) := hstep₃
    rw [singleStep, hstep']
  have hsorted : ({ addingServer with table := reached.table, arm := p₂, targetException := 0 } :
    GdbProtocolData).table.Sorted := hadded.sorted
  obtain ⟨-, hstop, -⟩ := contLoop_succ x86GdbHost 0 hsorted hlast
  have hloop : contLoop x86GdbHost 3 { addingServer with table := reached.table }
      = .ok { addingServer with table := reached.table, arm := p₃, targetException := 0 } := by
    rw [hturn 2 { addingServer with table := reached.table } p₁ rfl hstep₁ (by rw [hpc₁]; decide),
      hturn 1 { addingServer with table := reached.table, arm := p₁, targetException := 0 } p₂ rfl
        hstep₂ (by rw [hpc₂]; decide)]
    refine hstop (Or.inl ?_)
    rw [hholds, register_pc]
    exact hpc₃
  obtain ⟨reason, hsends⟩ := gdbSendStopReason_spec
    { addingServer with table := reached.table, arm := p₃, targetException := 0 }
  obtain ⟨gdb', hsend, -⟩ := hsends.ok rfl
  have hcont : cont x86GdbHost 3 { addingServer with table := reached.table } [] = .ok gdb' := by
    rw [cont, hloop, ok_bind, hsend]
  exact ⟨reached, gdb', hreached, hcont,
    cont_eq_steps x86GdbHost 3 (fun _ => 0) [.set (bytes "0,c,4")] addingServer reached
      { addingServer with table := reached.table } gdb' [] rfl hreached rfl hcont⟩

end Armator
