/-
Conditions, dispatch and the step, `arm_instruction.c`.
-/
import Armator.BranchOther

namespace Armator

/-- `arm_condition` -/
def armCondition (p : ArmCore) (ins : Word) : Bool :=
  let cpsr := armReadCpsr p
  let n := decide (getBit cpsr 31 ≠ 0)
  let z := decide (getBit cpsr 30 ≠ 0)
  let c := decide (getBit cpsr 29 ≠ 0)
  let v := decide (getBit cpsr 28 ≠ 0)
  match (getBits ins 31 28).toNat with
  | 0b0000 => z -- EQ
  | 0b0001 => !z -- NE
  | 0b0010 => c -- CS/HS
  | 0b0011 => !c -- CC/LO
  | 0b0100 => n -- MI
  | 0b0101 => !n -- PL
  | 0b0110 => v -- VS
  | 0b0111 => !v -- VC
  | 0b1000 => c && !z -- HI
  | 0b1001 => !c || z -- LS
  | 0b1010 => n == v -- GE
  | 0b1011 => n != v -- LT
  | 0b1100 => !z && (n == v) -- GT
  | 0b1101 => z || (n != v) -- LE
  | 0b1110 => true -- AL
  | _ => false

/-- The switch of `arm_execute_instruction` on `instype`. -/
def dispatch (h : Host) (p : ArmCore) (ins : Word) : Outcome :=
  let bit_24 := getBit ins 24
  let bit_23 := getBit ins 23
  let bit_20 := getBit ins 20
  let bit_7 := getBit ins 7
  let bit_4 := getBit ins 4
  match (getBits ins 27 25).toNat with
  | 0 =>
      if bit_24 = 1 ∧ bit_23 = 0 ∧ bit_20 = 0 then .ok (armMiscellaneous p ins)
      else if bit_7 = 1 ∧ bit_4 = 1 then .ok (armLoadStore h p ins)
      else armDataProcessingShift p ins
  | 1 => .ok (armDataProcessingImmediateMsr h p ins)
  | 2 => .ok (armLoadStore h p ins)
  | 3 => .ok (armLoadStore h p ins)
  | 4 => armLoadStoreMultiple h p ins
  | 5 => .ok (armBranch p ins)
  | 6 => .ok (armCoprocessorLoadStore p ins)
  | 7 => .ok (armCoprocessorOthersSwi p ins)
  | _ => .ok (UNDEFINED_INSTRUCTION, p)

/-- `arm_execute_instruction` -/
def armExecuteInstruction (h : Host) (p : ArmCore) : Outcome :=
  let (res, p, ins) := armFetch h p (h.garbage .ins)
  if res ≠ 0 then .ok (-1, p)
  else if armCondition p ins then dispatch h p ins
  else .ok (0, p)

/-- `arm_step`; the result is passed to `arm_exception` as a `uint8_t`. -/
def armStep (h : Host) (p : ArmCore) : Outcome :=
  match armExecuteInstruction h p with
  | .error e => .error e
  | .ok (result, p) =>
      if result ≠ 0 then .ok (armException h p (BitVec.ofInt 8 result))
      else .ok (result, p)

end Armator
