/-
Branches, status register moves and software interrupts,
`arm_branch_other.c`.
-/
import Armator.LoadStore

namespace Armator

/-- `sign_extend_30` -/
def signExtend30 (value : Word) : Word :=
  let signBit := value &&& 0x00800000
  if signBit ≠ 0 then value ||| 0xFFC00000 else value

/-- `arm_branch` -/
def armBranch (p : ArmCore) (ins : Word) : Int × ArmCore :=
  let PC := armReadRegister p 15
  let offset := signExtend30 (getBits ins 23 0) <<< 2
  let target_address := PC + offset
  let p := if getBit ins 24 ≠ 0 then armWriteRegister p 14 (PC - 4) else p
  (0, armWriteRegister p 15 target_address)

/-- `arm_coprocessor_others_swi`: every word of this class is a software
interrupt, and leaves a return address in r14. -/
def armCoprocessorOthersSwi (p : ArmCore) (_ins : Word) : Int × ArmCore :=
  let return_address := armReadRegister p 15 - 4
  (SOFTWARE_INTERRUPT, armWriteRegister p 14 return_address)

/-- `arm_miscellaneous`: MRS, and nothing else. -/
def armMiscellaneous (p : ArmCore) (ins : Word) : Int × ArmCore :=
  if getBits ins 27 23 = 0b00010 ∧ getBits ins 21 20 = 0 then
    let Rd := regNum (getBits ins 15 12)
    let R_bit := getBit ins 22
    if Rd = 15 then (-1, p)
    else
      let value := if R_bit ≠ 0 then armReadSpsr p else armReadCpsr p
      (0, armWriteRegister p Rd value)
  else (UNDEFINED_INSTRUCTION, p)

end Armator
