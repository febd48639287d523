/-
Exceptions, `arm_exception.c`.

There is no operating system under the simulated program: a software
interrupt is served here, by looking again at the instruction that raised
it.  Of the other exceptions only RESET does anything.
-/
import Armator.Core

namespace Armator

/-! ## Exception numbers (`arm_constants.h`) -/

abbrev RESET : Int := 1
abbrev UNDEFINED_INSTRUCTION : Int := 7
abbrev SOFTWARE_INTERRUPT : Int := 8
abbrev END_SIMULATION : Int := 9

/-- `Exception_bit_9`: `CP15_reg1_EEbit << 9`, and the former is 0. -/
def exceptionBit9 : Word := 0 <<< 9

/-- `arm_exception` -/
def armException (h : Host) (p : ArmCore) (exception : Byte) : Int × ArmCore :=
  let cpsr : Word := 0x1d3 ||| exceptionBit9
  let number : Int := exception.toNat
  -- what the code does after its `if (exception == SOFTWARE_INTERRUPT)`
  let afterSwi : Int × ArmCore :=
    if number = RESET then (number, armWriteRegister (armWriteCpsr p cpsr) 15 0)
    else (number, p)
  if number = SOFTWARE_INTERRUPT then
    let address := armReadRegister p 15 - 8
    let instruction := (armReadWord h p address (h.garbage .instruction)).2 &&& 0xFFFFFF
    if instruction = 0x123456 then (END_SIMULATION, p)
    else if instruction = 0x000001 then
      -- `putchar` sends its argument as an `unsigned char`
      (0, { p with stdout := p.stdout ++ [(armReadRegister p 0).setWidth 8] })
    else afterSwi
  else afterSwi

/-- `arm_create`: the processor is reset, and `sp` set to the end of the
memory. -/
def armCreate (h : Host) (reg : Registers) (mem : Memory) : ArmCore :=
  let p := (armException h { cycleCount := 0, reg := reg, mem := mem, stdout := [] } 1).2
  armWriteRegister p 13 mem.size

/-- Any number but RESET and SOFTWARE_INTERRUPT is handed back, and the
state with it. -/
theorem armException_other (h : Host) (p : ArmCore) {exception : Byte}
    (h1 : exception ≠ 1) (h8 : exception ≠ 8) :
    armException h p exception = ((exception.toNat : Int), p) := by
  have h1' : (exception.toNat : Int) ≠ RESET := by
    intro he
    apply h1
    refine BitVec.eq_of_toNat_eq ?_
    exact Int.ofNat_inj.mp he
  have h8' : (exception.toNat : Int) ≠ SOFTWARE_INTERRUPT := by
    intro he
    apply h8
    refine BitVec.eq_of_toNat_eq ?_
    exact Int.ofNat_inj.mp he
  simp only [armException, if_neg h1', if_neg h8']

/-- RESET writes the CPSR, and r15. -/
theorem armException_reset_reg (h : Host) (p : ArmCore) :
    (armException h p 1).2.reg = Function.update (Function.update p.reg 31 0x1d3) 15 0 := by
  have h8 : ¬ (((1 : Byte).toNat : Nat) : Int) = SOFTWARE_INTERRUPT := by decide
  have h1 : (((1 : Byte).toNat : Nat) : Int) = RESET := rfl
  simp only [armException, if_neg h8, if_pos h1]
  rw [armWriteRegister_reg, slot_pc]
  rfl

/-- The three ends of a software interrupt: the end of the simulation, a
byte sent, or the number handed back.  None of them writes a register. -/
theorem armException_swi_cases (h : Host) (p : ArmCore) :
    armException h p 8 = (END_SIMULATION, p) ∨
    armException h p 8
      = (0, { p with stdout := p.stdout ++ [(armReadRegister p 0).setWidth 8] }) ∨
    armException h p 8 = (SOFTWARE_INTERRUPT, p) := by
  have h8 : (((8 : Byte).toNat : Nat) : Int) = SOFTWARE_INTERRUPT := rfl
  have h1 : ¬ (((8 : Byte).toNat : Nat) : Int) = RESET := by decide
  simp only [armException, if_neg h1]
  rw [if_pos h8]
  split_ifs
  · exact Or.inl rfl
  · exact Or.inr (Or.inl rfl)
  · exact Or.inr (Or.inr rfl)

/-- No exception writes the memory. -/
theorem armException_mem (h : Host) (p : ArmCore) (irq : Byte) :
    (armException h p irq).2.mem = p.mem := by
  by_cases h8 : irq = 8
  · subst h8
    rcases armException_swi_cases h p with he | he | he <;> rw [he]
  · by_cases h1 : irq = 1
    · subst h1
      rfl
    · rw [armException_other h p h1 h8]

end Armator
