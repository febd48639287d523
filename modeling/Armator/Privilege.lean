/-
The privileges of unprivileged code.

In USR mode there is no SPSR, so of the CPSR values in `CpsrWrite` only
flags and the T bit seem to be left.  One case slips through: a
load-multiple that loads an odd r15 writes the SPSR with its T bit set,
without asking whether the mode has one.  In USR mode the SPSR reads as 0,
so the CPSR becomes 0x20: no mode at all, and interrupts unmasked.  The
path for an even r15, next to it, starts from the CPSR.
-/
import Armator.Effects

namespace Armator

/-- Mode bits and interrupt masks are the same. -/
def KeepsPrivilege (cpsr cpsr' : Word) : Prop :=
  getBits cpsr' 4 0 = getBits cpsr 4 0 ∧ getBits cpsr' 7 6 = getBits cpsr 7 6

instance (cpsr cpsr' : Word) : Decidable (KeepsPrivilege cpsr cpsr') :=
  inferInstanceAs (Decidable (_ ∧ _))

theorem getBits_congr {x y : Word} {h l : Nat}
    (hb : ∀ j, l ≤ j → j < h + 1 → x.getLsbD j = y.getLsbD j) (hl : l ≤ h) :
    getBits x h l = getBits y h l := by
  refine BitVec.eq_of_getLsbD_eq ?_
  intro j _
  rw [getLsbD_getBits, getLsbD_getBits]
  by_cases hj : j < h - l + 1
  · rw [hb (l + j) (by omega) (by omega)]
  · rw [decide_eq_false hj, Bool.false_and, Bool.false_and]

/-- What agrees below the flags, but for the T bit, has the same privilege. -/
theorem keepsPrivilege_of_bits {x y : Word}
    (hb : ∀ j < 8, j ≠ 5 → y.getLsbD j = x.getLsbD j) : KeepsPrivilege x y :=
  ⟨getBits_congr (fun j _ hj => hb j (by omega) (by omega)) (by decide),
    getBits_congr (fun j hl hj => hb j (by omega) (by omega)) (by decide)⟩

/-- The mode is what bits 4 to 0 of the CPSR say. -/
theorem getBits_of_mode {p : ArmCore} {mode : Byte} (hm : registersGetMode p.reg = mode) :
    (getBits (armReadCpsr p) 4 0).toNat = mode.toNat := by
  have hand : ((p.reg 31) &&& 0x1f).toNat = (p.reg 31).toNat % 32 :=
    Nat.and_two_pow_sub_one_eq_mod _ 5
  rw [← hm, registersGetMode, BitVec.toNat_setWidth, hand, toNat_getBits]
  show (p.reg 31).toNat / 1 % 32 = (p.reg 31).toNat % 32 % 256
  omega

theorem armReadSpsr_usr {p : ArmCore} (hu : registersGetMode p.reg = USR) :
    armReadSpsr p = 0 := by
  rw [armReadSpsr, hu]
  rfl

theorem not_hasSpsr_usr {p : ArmCore} (hu : registersGetMode p.reg = USR) :
    armCurrentModeHasSpsr p = false := by
  rw [armCurrentModeHasSpsr, registersCurrentModeHasSpsr, hu]
  rfl

/-- In USR mode every CPSR a step can leave keeps the privilege, but for
the one of an odd r15. -/
theorem keepsPrivilege_of_cpsrWrite {thumb : Prop} {p : ArmCore}
    (hu : registersGetMode p.reg = USR) (ht : ¬ thumb) {value : Word}
    (hv : CpsrWrite thumb p value) : KeepsPrivilege (armReadCpsr p) value := by
  cases hv with
  | keep => exact ⟨rfl, rfl⟩
  | flags hf => exact keepsPrivilege_of_bits fun j hj _ => hf j (by omega)
  | restore hs =>
      rw [not_hasSpsr_usr hu] at hs
      cases hs
  | clearT =>
      apply keepsPrivilege_of_bits
      intro j _ h5
      rw [getLsbD_clrBit_ite _ 5, if_neg h5]
  | setT h => exact absurd h ht

/-- From USR mode, a step keeps mode and interrupt masks exactly when it
does not load an odd r15 with a load-multiple. -/
theorem usr_step_keeps_privilege_iff (h : Host) (p : ArmCore)
    (hu : registersGetMode p.reg = USR) :
    ∃ r p', armStep h p = .ok (r, p') ∧
      (KeepsPrivilege (armReadCpsr p) (armReadCpsr p') ↔ ¬ StepLoadsThumbPc h p) := by
  obtain ⟨r, p', hs, he⟩ := armStep_effect h p
  refine ⟨r, p', hs, ?_, fun ht => keepsPrivilege_of_cpsrWrite hu ht he.cpsrWrite⟩
  rintro ⟨hkeep, -⟩ ⟨ins, hx, hc, hL, hB, h15, ht⟩
  have huf : registersGetMode (fetched p).reg = USR := (fetched_mode p).trans hu
  have hstep : armStep h p = .ok (0, ldmState h (fetched p) ins) := by
    rw [armStep_of_executes hx, dispatch_eq, hc]
    show raise h (armLoadStoreMultiple h (fetched p) ins) = _
    rw [armLoadStoreMultiple_load h _ hL hB, raise_zero]
  have hp : p' = ldmState h (fetched p) ins :=
    congrArg Prod.snd (Except.ok.inj (hs.symm.trans hstep))
  rw [hp, armReadCpsr_ldmState_odd h _ ins h15 ht, armReadSpsr_usr huf] at hkeep
  have h16 := getBits_of_mode hu
  rw [← hkeep] at h16
  exact absurd h16 (by decide)

/-- `LDMIA r0, {pc}` in USR mode, where r0 points at 0x101. -/
def usrLoadsPc : ArmCore :=
  armWriteCpsr (armWriteRegister (booted 16 [0xE8908000, 0, 0x101]) 0 8) 0x10

theorem usr_step_keeps_privilege_iff_usrLoadsPc :
    ∃ r p', armStep x86Host usrLoadsPc = .ok (r, p') ∧
      (KeepsPrivilege (armReadCpsr usrLoadsPc) (armReadCpsr p') ↔
        ¬ StepLoadsThumbPc x86Host usrLoadsPc) :=
  usr_step_keeps_privilege_iff x86Host usrLoadsPc (by decide)

/-- There the step leaves USR mode. -/
theorem usr_step_loses_privilege :
    registersGetMode usrLoadsPc.reg = USR ∧
    ∃ r p', armStep x86Host usrLoadsPc = .ok (r, p') ∧
      ¬ KeepsPrivilege (armReadCpsr usrLoadsPc) (armReadCpsr p') :=
  ⟨by decide, _, _, rfl, by decide⟩

end Armator
