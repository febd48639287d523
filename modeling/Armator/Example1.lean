/-
The first example, `Examples/example1.s`, from any address and for any
number of rounds.

`main` counts down from a number by calls of `decr` and ends the simulation
at 0:

    decr:  subs r0, r0, #1
           mov pc, lr
    main:  mov r0, #5
    loop:  bl decr
           bne loop
    end:   swi 0x123456

The number is a byte of the third word.  Where it is 0 the subtraction
wraps around, and the loop goes through all words before it ends.
-/
import Armator.Portability
import Armator.ProgramLogic

namespace Armator

open Progress Relation

/-- The words of `example1`, with the number `main` begins with. -/
def example1 (n : Byte) : List Word :=
  [0xE2500001, movPcLr, 0xE3A00000 ||| n.setWidth 32, 0xEBFFFFFB, 0x1AFFFFFD, 0xEF123456]

/-! ## The words -/

/-- What `mov r0, #n` is. -/
structure IsMovR0 (n : Byte) (ins : Word) : Prop where
  insClass : insClass ins = .dpImmediate
  opcode : (getBits ins 24 21).toNat = Opcode.mov.code
  Rd : rdNum ins = 0
  S : getBit ins 20 = 0
  rotate : getBits ins 11 8 = 0
  immediate : getBits ins 7 0 = n.setWidth 32
  always : getBits ins 31 28 = 0b1110

theorem isMovR0 (n : Byte) : IsMovR0 n (0xE3A00000 ||| n.setWidth 32) := by
  have hall : ∀ n : Byte, insClass (0xE3A00000 ||| n.setWidth 32) = .dpImmediate ∧
      (getBits (0xE3A00000 ||| n.setWidth 32) 24 21).toNat = Opcode.mov.code ∧
      rdNum (0xE3A00000 ||| n.setWidth 32) = 0 ∧
      getBit (0xE3A00000 ||| n.setWidth 32) 20 = 0 ∧
      getBits (0xE3A00000 ||| n.setWidth 32) 11 8 = 0 ∧
      getBits (0xE3A00000 ||| n.setWidth 32) 7 0 = n.setWidth 32 ∧
      getBits (0xE3A00000 ||| n.setWidth 32) 31 28 = 0b1110 := by
    decide +kernel
  obtain ⟨h1, h2, h3, h4, h5, h6, h7⟩ := hall n
  exact ⟨h1, h2, h3, h4, h5, h6, h7⟩

theorem armCondition_always {p : ArmCore} {ins : Word} (hi : getBits ins 31 28 = 0b1110) :
    armCondition p ins = true := by
  simp only [armCondition, hi]
  rfl

section

variable {h : Host} {stop : Word → Prop} {A : Word} {n : Byte}

/-- `bl decr` goes to the first word, and `bne loop` to the fourth. -/
theorem branchTarget_decr (A : Word) : branchTarget (wordAddress A 3) 0xEBFFFFFB = A := by
  have hoffset : signExtend30 (getBits 0xEBFFFFFB 23 0) <<< 2 = (0xFFFFFFEC : Word) := by decide
  rw [branchTarget]
  simp only [hoffset, wordAddress]
  bv_omega

theorem branchTarget_loop (A : Word) :
    branchTarget (wordAddress A 4) 0x1AFFFFFD = wordAddress A 3 := by
  have hoffset : signExtend30 (getBits 0x1AFFFFFD 23 0) <<< 2 = (0xFFFFFFF4 : Word) := by decide
  rw [branchTarget]
  simp only [hoffset, wordAddress]
  bv_omega

/-! ## The subroutine -/

/-- `decr` takes 1 from r0, sets Z where nothing is left, and returns. -/
theorem decr_returns (hh : h.ShiftsOut) {p : ArmCore} (hl : Loaded h A (example1 n) p.mem)
    (hpc : p.reg 15 = A) (hgo : ¬ stop (wordAddress A 1)) (hgo' : ¬ stop (armReadRegister p 14)) :
    ∃ p', ReflTransGen (Goes h stop) p p' ∧ p'.reg 15 = armReadRegister p 14 ∧
      armReadRegister p' 0 = armReadRegister p 0 - 1 ∧
      (armReadCpsr p').getLsbD 30 = decide (armReadRegister p 0 - 1 = 0) ∧ Changes [0] p p' := by
  have hA : wordAddress A 0 = A := BitVec.add_zero A
  have hsub : IsDataProcessing .sub 0xE2500001 := ⟨.inr (by decide), by decide⟩
  have hvalues : shifterValues h (fetched p) 0xE2500001
      = some (immediateValues h (fetched p) 0xE2500001) := if_pos (by decide)
  have hoperand : immediateOperand h 0xE2500001 = 1 := immediateOperand_unrotated hh (by decide)
  have hvalue : opValue .sub (fetched p) 0xE2500001 (immediateValues h (fetched p) 0xE2500001)
      = armReadRegister p 0 - 1 := by
    show armReadRegister (fetched p) 0 - immediateOperand h 0xE2500001 = _
    rw [hoperand, armReadRegister_fetched p (by decide)]
  obtain ⟨p₁, hstep₁, hpc₁, hresult, hflags, -, hchanges₁⟩ := dataProcessing_rule
    (hl.fetchedAt (i := 0) rfl (hpc.trans hA.symm)) (armCondition_always (by decide)) hsub
    (fun _ => by decide) hvalues (by rwa [← wordAddress_succ])
  rw [← wordAddress_succ] at hpc₁
  have hr14 : armReadRegister p₁ 14 = armReadRegister p 14 :=
    hchanges₁.read (by decide) (by decide)
  obtain ⟨p₂, hstep₂, hpc₂, hcpsr₂, hchanges₂⟩ :=
    return_rule ((hchanges₁.loaded hl).fetchedAt (i := 1) rfl hpc₁) (by rwa [hr14])
  refine ⟨p₂, .head hstep₁ (.single hstep₂), hpc₂.trans hr14, ?_, ?_,
    hchanges₁.trans (hchanges₂.mono (List.nil_subset _))⟩
  · rw [hchanges₂.read (by decide) List.not_mem_nil]
    exact (hresult rfl).trans hvalue
  · rw [hcpsr₂, hflags (.inr (by decide))]
    refine Eq.trans (arithFlags_z ..) ?_
    rw [hvalue]

/-! ## The loop -/

/-- The run that began in `p₀` is at `loop`, with `k` in r0. -/
structure AtLoop (A : Word) (p₀ : ArmCore) (k : Word) (p : ArmCore) : Prop where
  pc : p.reg 15 = wordAddress A 3
  r0 : armReadRegister p 0 = k
  changes : Changes [0, 14] p₀ p

/-- It has come to `end`. -/
structure AtEnd (A : Word) (p₀ p : ArmCore) : Prop where
  pc : p.reg 15 = wordAddress A 5
  r0 : armReadRegister p 0 = 0
  changes : Changes [0, 14] p₀ p

/-- A round of the loop: one call, and then the branch, back or on. -/
theorem loop_round (hh : h.ShiftsOut) {p₀ p : ArmCore} {k : Word}
    (hl : Loaded h A (example1 n) p₀.mem) (hgo : ∀ i < 6, ¬ stop (wordAddress A i))
    (hp : AtLoop A p₀ k p) :
    ∃ p', ReflTransGen (Goes h stop) p p' ∧
      (k - 1 = 0 ∧ AtEnd A p₀ p' ∨ k - 1 ≠ 0 ∧ AtLoop A p₀ (k - 1) p') := by
  have hA : wordAddress A 0 = A := BitVec.add_zero A
  -- `bl decr`
  have hl₀ := hp.changes.loaded hl
  have hdecr := branchTarget_decr A
  obtain ⟨p₁, hstep₁, hpc₁, -, hlink, hchanges₁⟩ :=
    branch_rule (hl₀.fetchedAt (i := 3) rfl hp.pc) (armCondition_always (by decide)) (by decide)
      (by rw [hdecr, ← hA]; exact hgo 0 (by decide))
  rw [if_pos (by decide)] at hchanges₁
  have hr14 : armReadRegister p₁ 14 = wordAddress A 4 := by
    rw [hlink (by decide), wordAddress_succ A 3]
  have hr0 : armReadRegister p₁ 0 = k := (hchanges₁.read (by decide) (by decide)).trans hp.r0
  -- `decr`
  have hl₁ := hchanges₁.loaded hl₀
  obtain ⟨p₂, hrun₂, hpc₂, hr0₂, hz₂, hchanges₂⟩ := decr_returns hh hl₁ (hpc₁.trans hdecr)
    (hgo 1 (by decide)) (by rw [hr14]; exact hgo 4 (by decide))
  rw [hr14] at hpc₂
  rw [hr0] at hr0₂ hz₂
  have hl₂ := hchanges₂.loaded hl₁
  have hf₂ := hl₂.fetchedAt (i := 4) rfl hpc₂
  have hchanges : Changes [0, 14] p₀ p₂ :=
    (hp.changes.trans (hchanges₁.mono (by decide))).trans (hchanges₂.mono (by decide))
  have hcondition : armCondition (fetched p₂) 0x1AFFFFFD = !decide (k - 1 = 0) := by
    rw [armCondition_ne _ (by decide), fetched_cpsr, hz₂]
  have hrun : ReflTransGen (Goes h stop) p p₂ := .head hstep₁ hrun₂
  -- `bne loop`
  by_cases hk : k - 1 = 0
  · rw [hk, decide_eq_true rfl, Bool.not_true] at hcondition
    obtain ⟨p₃, hstep₃, hpc₃, -, hread, hchanges₃⟩ := skip_rule hf₂ hcondition
      (by rw [← wordAddress_succ]; exact hgo 5 (by decide))
    rw [← wordAddress_succ] at hpc₃
    refine ⟨p₃, hrun.tail hstep₃, .inl ⟨hk, hpc₃, ?_, hchanges.trans
      (hchanges₃.mono (List.nil_subset _))⟩⟩
    rw [hread 0 (by decide), hr0₂, hk]
  · rw [decide_eq_false hk, Bool.not_false] at hcondition
    have hloop := branchTarget_loop A
    obtain ⟨p₃, hstep₃, hpc₃, -, -, hchanges₃⟩ := branch_rule hf₂ hcondition (by decide)
      (by rw [hloop]; exact hgo 3 (by decide))
    rw [if_neg (by decide)] at hchanges₃
    refine ⟨p₃, hrun.tail hstep₃, .inr ⟨hk, hpc₃.trans hloop, ?_, hchanges.trans
      (hchanges₃.mono (List.nil_subset _))⟩⟩
    rw [hchanges₃.read (by decide) List.not_mem_nil, hr0₂]

/-- The loop comes to its end; what every round makes smaller is what is left
in r0 after it. -/
theorem loop_leads (hh : h.ShiftsOut) {p₀ : ArmCore} (hl : Loaded h A (example1 n) p₀.mem)
    (hgo : ∀ i < 6, ¬ stop (wordAddress A i)) (k : Word) :
    Leads (Goes h stop) (AtLoop A p₀ k) (AtEnd A p₀) := by
  have hrounds : ∀ m, Leads (Goes h stop)
      (fun p => ∃ k : Word, (k - 1).toNat = m ∧ AtLoop A p₀ k p) (AtEnd A p₀) := by
    refine leads_loop fun m => leads_exists fun k p hp => ?_
    obtain ⟨hm, hp⟩ := hp
    obtain ⟨p', hrun, hend | hmore⟩ := loop_round hh hl hgo hp
    · exact ⟨p', hrun, .inl hend.2⟩
    · refine ⟨p', hrun, .inr ⟨(k - 1 - 1).toNat, ?_, k - 1, rfl, hmore.2⟩⟩
      have hne := hmore.1
      rw [← hm]
      bv_omega
  intro p hp
  exact hrounds (k - 1).toNat p ⟨k, rfl, hp⟩

/-! ## The program -/

/-- Wherever the example is loaded, whatever number it begins with and
whatever the registers hold: from `main` it comes to its end and reports it,
with 0 in r0, the address behind it in r14, and nothing else changed but
the flags. -/
theorem example1_ends (hh : h.ShiftsOut) (hgo : ∀ i < 6, ¬ stop (wordAddress A i))
    (p₀ : ArmCore) (hl : Loaded h A (example1 n) p₀.mem) :
    Ends h stop (fun p => p = p₀ ∧ p.reg 15 = wordAddress A 2) fun r p' =>
      r = END_SIMULATION ∧ p'.reg 15 = wordAddress A 6 ∧ armReadRegister p' 0 = 0 ∧
        armReadRegister p' 14 = wordAddress A 6 ∧ Changes [0, 14] p₀ p' := by
  have hmain : Leads (Goes h stop) (fun p => p = p₀ ∧ p.reg 15 = wordAddress A 2)
      (AtLoop A p₀ (n.setWidth 32)) := by
    refine leads_of_step fun p hp => ?_
    obtain ⟨rfl, hpc⟩ := hp
    have hi := isMovR0 n
    have hvalues : shifterValues h (fetched p) (0xE3A00000 ||| n.setWidth 32)
        = some (immediateValues h (fetched p) (0xE3A00000 ||| n.setWidth 32)) :=
      if_pos hi.insClass
    obtain ⟨p', hstep, hpc', hresult, -, -, hchanges⟩ := dataProcessing_rule
      (hl.fetchedAt (i := 2) rfl hpc) (armCondition_always hi.always)
      (⟨.inr hi.insClass, hi.opcode⟩ : IsDataProcessing .mov _) (fun _ => by rw [hi.Rd]; decide)
      hvalues (by rw [← wordAddress_succ]; exact hgo 3 (by decide))
    rw [hi.Rd] at hresult hchanges
    refine ⟨p', hstep, hpc'.trans (wordAddress_succ A 2).symm, ?_, hchanges.mono (by decide)⟩
    refine (hresult rfl).trans ((immediateOperand_unrotated hh hi.rotate).trans hi.immediate)
  refine (hmain.trans (loop_leads hh hl hgo _)).trans (leads_of_imp fun p hp => ?_)
  obtain ⟨p', hstop, hpc, hr14, hchanges⟩ := @end_rule h stop p _ _
    ((hp.changes.loaded hl).fetchedAt (i := 5) rfl hp.pc) (armCondition_always (by decide))
    ⟨by decide, by decide⟩
  refine ⟨END_SIMULATION, p', hstop, rfl, hpc.trans (wordAddress_succ A 5).symm, ?_,
    hr14.trans (wordAddress_succ A 5).symm, hp.changes.trans (hchanges.mono (by decide))⟩
  rw [hchanges.read (by decide) (by decide), hp.r0]

end

end Armator
