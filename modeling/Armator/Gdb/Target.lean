/-
What a debugger talks to.

Behind packets, buffers and a sorted table there is a target: a processor, a
set of breakpoints and what the last step has reported.  `Target.serve` says
what each request is answered and what it does, `Serves` adds the command
that runs the program, and a `Session` is some of them one after the other,
with exceptions raised from outside in between.  That the server is such a
target is shown in `Armator.Gdb.Refinement`.

What is proved here needs no server: while the program is not run, the
memory is what the requests have written (`Session.byteAt`).
-/
import Armator.Constant
import Armator.Gdb.Running
import Armator.Gdb.SingleRegister

namespace Armator

open CText Relation Replay

/-! ## Bytes stored one after the other -/

/-- Bytes written from an address on. -/
def Memory.store (mem : Memory) : Word → Text → Memory
  | _, [] => mem
  | a, b :: bs => (memoryWriteByte mem a b).2.store (a + 1) bs

/-- The same as writes of single bytes. -/
def storeEntries : Word → Text → List (Word × Byte)
  | _, [] => []
  | a, b :: bs => (a, b) :: storeEntries (a + 1) bs

@[simp] theorem Memory.store_size (mem : Memory) (a : Word) (bs : Text) :
    (mem.store a bs).size = mem.size := by
  induction bs generalizing mem a with
  | nil => rfl
  | cons b bs ih => rw [Memory.store, ih, memoryWriteByte_size]

theorem Memory.store_byteAt {mem : Memory} {a : Word} {bs : Text}
    (hin : a.toNat + bs.length ≤ mem.size.toNat) :
    (mem.store a bs).byteAt = replay mem.byteAt (storeEntries a bs) := by
  induction bs generalizing mem a with
  | nil => rfl
  | cons b bs ih =>
      rw [List.length_cons] at hin
      have ha : a.toNat < mem.size.toNat := by omega
      have hnext := toNat_add_one ha
      rw [Memory.store, ih, storeEntries, replay_cons, memoryWriteByte_byteAt b ha]
      rw [memoryWriteByte_size]
      omega

theorem Memory.stored_store {mem : Memory} {a : Word} {bs : Text}
    (hin : a.toNat + bs.length ≤ mem.size.toNat) : Stored mem a bs (mem.store a bs) := by
  induction bs generalizing mem a with
  | nil => exact Stored.nil mem a
  | cons b bs ih =>
      rw [List.length_cons] at hin
      have ha : a.toNat < mem.size.toNat := by omega
      have hnext := toNat_add_one ha
      refine Stored.cons ha (ih ?_)
      rw [memoryWriteByte_size]
      omega

/-! ## The target -/

/-- A processor, the breakpoints that are set, and what the last step has
reported. -/
structure Target where
  arm : ArmCore
  breakpoints : Finset Word
  exception : Int

/-- What is answered at once. -/
inductive Request where
  | readMemory (a : Word) (n : ℕ)
  | writeMemory (a : Word) (bs : Text)
  | readRegisters
  | writeRegisters (values : Fin 16 → Word) (cpsr : Word)
  | readRegister (n : Fin 16)
  | writeRegister (n : Fin 16) (value : Word)
  | setBreakpoint (a : Word)
  | removeBreakpoint (a : Word)
  | reason
  | step

/-- A request, or that the program goes on. -/
inductive Command where
  | request (q : Request)
  | resume

/-- What a request is answered, and what is left. -/
def Target.serve (h : Host) (t : Target) : Request → Text × Target
  | .readMemory a n => (hexBytes (memoryText t.arm.mem a n), t)
  | .writeMemory a bs =>
      (bytes "OK", { t with arm := { t.arm with mem := t.arm.mem.store a bs } })
  | .readRegisters => (registersReply (regView t.arm) (armReadCpsr t.arm), t)
  | .writeRegisters values cpsr =>
      let entries := (List.finRange 16).map fun n => (n, values n)
      (bytes "OK", { t with arm := armWriteCpsr (writeRegisters t.arm entries) cpsr })
  | .readRegister n => (hexText 8 (regView t.arm (shownRegister n)).toNat, t)
  | .writeRegister n value => (bytes "OK", { t with arm := armWriteRegister t.arm n value })
  | .setBreakpoint a =>
      if t.breakpoints.card < MAX_BREAKPOINTS_NUMBER then
        (bytes "OK", { t with breakpoints := insert a t.breakpoints })
      else (bytes "E04", t)
  | .removeBreakpoint a =>
      if a ∈ t.breakpoints then (bytes "OK", { t with breakpoints := t.breakpoints.erase a })
      else (bytes "E05", t)
  | .reason => (stopReason t.exception, t)
  | .step =>
      match armStep h t.arm with
      | .ok (r, p) => (stopReason r, { t with arm := p, exception := r })
      | .error _ => ([], t)

/-- A command served: the reply, and the target after it. -/
inductive Serves (h : Host) (t : Target) : Command → Text → Target → Prop where
  | request (q : Request) : Serves h t (.request q) (t.serve h q).1 (t.serve h q).2
  | resume {p p' : ArmCore} {r : Int}
      (hrun : ReflTransGen (Goes h fun a => a ∈ t.breakpoints) t.arm p)
      (hstop : Stops h (fun a => a ∈ t.breakpoints) p r p') :
      Serves h t .resume (stopReason r) { t with arm := p', exception := r }

/-- What happens to a target: a command of its debugger, or an exception. -/
inductive Event where
  | command (c : Command)
  | interrupt (irq : Byte)

/-- An exception raised from outside. -/
def Target.interrupted (h : Host) (t : Target) (irq : Byte) : Target :=
  { t with arm := (armException h t.arm irq).2 }

/-- Events one after the other, and the replies to the commands of them. -/
inductive Session (h : Host) : Target → List Event → List Text → Target → Prop where
  | nil (t : Target) : Session h t [] [] t
  | command {t t' t'' : Target} {c : Command} {es : List Event} {s : Text} {ss : List Text}
      (hserves : Serves h t c s t') (hrest : Session h t' es ss t'') :
      Session h t (.command c :: es) (s :: ss) t''
  | interrupt {t t' : Target} {irq : Byte} {es : List Event} {ss : List Text}
      (hrest : Session h (t.interrupted h irq) es ss t') :
      Session h t (.interrupt irq :: es) ss t'

/-- What is read and written is there, and fits into a packet. -/
def Request.Within (size : ℕ) : Request → Prop
  | .readMemory a n => a.toNat < size ∧ n < 2 ^ 32 ∧ 2 * min n (size - a.toNat) ≤ 4091
  | .writeMemory a bs => a.toNat < size ∧ a.toNat + bs.length ≤ size
  | _ => True

def Command.Within (size : ℕ) : Command → Prop
  | .request q => q.Within size
  | .resume => True

def Event.Within (size : ℕ) : Event → Prop
  | .command c => c.Within size
  | .interrupt _ => True

/-! ## The memory of a session -/

theorem Goes.memSize {h : Host} {stop : Word → Prop} {p p' : ArmCore} (hgo : Goes h stop p p') :
    p'.mem.size = p.mem.size :=
  (SameProcessor.step h hgo.1).memSize

theorem memSize_of_run {h : Host} {stop : Word → Prop} {p p' : ArmCore}
    (hrun : ReflTransGen (Goes h stop) p p') : p'.mem.size = p.mem.size := by
  induction hrun with
  | refl => rfl
  | tail _ hgo ih => exact hgo.memSize.trans ih

/-- The program is run. -/
def Command.Runs : Command → Prop
  | .request .step => True
  | .request _ => False
  | .resume => True

def Event.Runs : Event → Prop
  | .command c => c.Runs
  | .interrupt _ => False

/-- What the registers are set to leaves the memory. -/
theorem Target.serve_writeRegisters_mem (h : Host) (t : Target) (values : Fin 16 → Word)
    (cpsr : Word) : (t.serve h (.writeRegisters values cpsr)).2.arm.mem = t.arm.mem := by
  show (armWriteCpsr (writeRegisters t.arm _) cpsr).mem = t.arm.mem
  rw [armWriteCpsr_mem, writeRegisters_mem]

/-- The bytes that a command writes. -/
def Command.entries : Command → List (Word × Byte)
  | .request (.writeMemory a bs) => storeEntries a bs
  | _ => []

def Event.entries : Event → List (Word × Byte)
  | .command c => c.entries
  | .interrupt _ => []

section

variable {h : Host} {t t' : Target}

theorem Target.serve_step {r : Int} {p : ArmCore} (hstep : armStep h t.arm = .ok (r, p)) :
    t.serve h .step = (stopReason r, { t with arm := p, exception := r }) := by
  rw [Target.serve, hstep]

theorem Serves.memSize {c : Command} {s : Text} (hs : Serves h t c s t') :
    t'.arm.mem.size = t.arm.mem.size := by
  cases hs with
  | request q =>
      cases q with
      | writeMemory a bs => exact Memory.store_size ..
      | writeRegisters values cpsr => rw [Target.serve_writeRegisters_mem]
      | setBreakpoint a =>
          rw [Target.serve]
          split <;> rfl
      | removeBreakpoint a =>
          rw [Target.serve]
          split <;> rfl
      | step =>
          obtain ⟨r, p, hstep, hsize⟩ := SameProcessor.step_memSize h t.arm
          rw [Target.serve_step hstep]
          exact hsize
      | _ => rfl
  | resume hrun hstop => exact ((SameProcessor.step h hstop.1).memSize).trans (memSize_of_run hrun)

/-- A command that does not run the program writes its bytes, and no
others. -/
theorem Serves.byteAt {c : Command} {s : Text} (hs : Serves h t c s t') (hruns : ¬ c.Runs)
    (hwithin : c.Within t.arm.mem.size.toNat) :
    t'.arm.mem.byteAt = replay t.arm.mem.byteAt c.entries := by
  cases hs with
  | request q =>
      cases q with
      | writeMemory a bs => exact Memory.store_byteAt hwithin.2
      | writeRegisters values cpsr =>
          exact congrArg Memory.byteAt (Target.serve_writeRegisters_mem ..)
      | setBreakpoint a =>
          rw [Target.serve]
          split <;> rfl
      | removeBreakpoint a =>
          rw [Target.serve]
          split <;> rfl
      | step => exact absurd trivial hruns
      | _ => rfl
  | resume hrun hstop => exact absurd trivial hruns

/-- While the program is not run, the memory holds what was written last. -/
theorem Session.byteAt {es : List Event} {ss : List Text} (hs : Session h t es ss t')
    (hruns : ∀ e ∈ es, ¬ e.Runs) (hwithin : ∀ e ∈ es, e.Within t.arm.mem.size.toNat) :
    t'.arm.mem.size = t.arm.mem.size ∧
      t'.arm.mem.byteAt = replay t.arm.mem.byteAt (es.flatMap Event.entries) := by
  induction hs with
  | nil t => exact ⟨rfl, rfl⟩
  | @command t t₁ t' c es s ss hserves hrest ih =>
      have hsize := hserves.memSize
      obtain ⟨hsize', hbytes⟩ := ih (fun e he => hruns e (List.mem_cons_of_mem _ he))
        (fun e he => hsize ▸ hwithin e (List.mem_cons_of_mem _ he))
      have hone := hserves.byteAt (hruns _ List.mem_cons_self) (hwithin _ List.mem_cons_self)
      refine ⟨hsize'.trans hsize, ?_⟩
      rw [hbytes, hone, List.flatMap_cons, replay_append]
      rfl
  | @interrupt t t' irq es ss hrest ih =>
      have hmem : (t.interrupted h irq).arm.mem = t.arm.mem := armException_mem h t.arm irq
      rw [hmem] at ih
      exact ih (fun e he => hruns e (List.mem_cons_of_mem _ he))
        (fun e he => hwithin e (List.mem_cons_of_mem _ he))

theorem Session.append {es es' : List Event} {ss ss' : List Text} {t'' : Target}
    (hs : Session h t es ss t') (hs' : Session h t' es' ss' t'') :
    Session h t (es ++ es') (ss ++ ss') t'' := by
  induction hs with
  | nil => exact hs'
  | command hserves _ ih => exact .command hserves (ih hs')
  | interrupt _ ih => exact .interrupt (ih hs')

/-- While the program is not run, there is always an answer. -/
theorem exists_session (h : Host) (t : Target) {es : List Event} (hruns : ∀ e ∈ es, ¬ e.Runs) :
    ∃ ss t', Session h t es ss t' := by
  induction es generalizing t with
  | nil => exact ⟨[], t, .nil t⟩
  | cons e es ih =>
      have hrest : ∀ e ∈ es, ¬ e.Runs := fun e he => hruns e (List.mem_cons_of_mem _ he)
      cases e with
      | interrupt irq =>
          obtain ⟨ss, t', hsession⟩ := ih (t.interrupted h irq) hrest
          exact ⟨ss, t', .interrupt hsession⟩
      | command c =>
          cases c with
          | resume => exact absurd trivial (hruns _ List.mem_cons_self)
          | request q =>
              obtain ⟨ss, t', hsession⟩ := ih (t.serve h q).2 hrest
              exact ⟨_, t', .command (.request q) hsession⟩

end

end Armator
