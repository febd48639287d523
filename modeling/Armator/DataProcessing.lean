/-
The data-processing instructions, `arm_data_processing.c`.

The source has two functions, one for a shifted register operand and one
for a rotated immediate, each with its own sixteen-way switch.  The
switches are copies of each other and are kept as two definitions.

Inside a switch the cases follow one of two patterns.  The twelve opcodes
that write `Rd` write it, read it back and update the CPSR (`writeRd`);
the four that only compare update the CPSR.  The flag updates follow two
patterns as well, for the logical and the arithmetic opcodes.
-/
import Armator.Exception

namespace Armator

/-- `struct shifter_values_data` -/
structure ShifterValues where
  shifterCarryOut : Byte
  shifterOperand : Word

/-! ## Carry, borrow and overflow -/

/-- `carryFrom`.  The sum wraps to 32 bits before it is compared with the
`double` 4294967295.0. -/
def carryFrom (a b c : Word) : Bool := decide ((a + b + c).toNat > 2 ^ 32 - 1)

/-- `BorrowFrom` -/
def borrowFrom (op1 op2 : Word) : Bool := decide (op1.toNat < op2.toNat)

/-- `OverflowFrom` -/
def overflowFrom (Rd Rn shifter_operand : Word) : Bool :=
  decide (getBit Rn 31 = getBit shifter_operand 31 ∧ getBit Rd 31 ≠ getBit Rn 31)

/-! ## Flag updates -/

/-- `if (b) {cpsr_val = set_bit(cpsr_val,i);} else {cpsr_val = clr_bit(cpsr_val,i);}` -/
def putBit (cpsr_val : Word) (i : Nat) (b : Bool) : Word :=
  if b then setBit cpsr_val i else clrBit cpsr_val i

/-- N and Z from a result, as every opcode sets them. -/
def putNZ (cpsr_val result : Word) : Word :=
  putBit (putBit cpsr_val 31 (decide (getBit result 31 = 1))) 30 (decide (result = 0))

/-- The flags of a logical opcode: C is the shifter carry-out, V stays. -/
def logicalFlags (cpsr_val result : Word) (shifter_carry_out : Byte) : Word :=
  putBit (putNZ cpsr_val result) 29 (decide (shifter_carry_out ≠ 0))

/-- The flags of an arithmetic opcode. -/
def arithFlags (cpsr_val result : Word) (c v : Bool) : Word :=
  putBit (putBit (putNZ cpsr_val result) 29 c) 28 v

/-- The pattern of the opcodes that write `Rd`: write, read back, then
copy the SPSR (S with `Rd` = 15), set the flags of the value read back
(S), or leave the CPSR alone. -/
def writeRd (p : ArmCore) (Rd_num : Fin 16) (S : Word) (value : Word)
    (flags : Word → Word) : Int × ArmCore :=
  let p := armWriteRegister p Rd_num value
  let Rd_value := armReadRegister p Rd_num
  if S = 1 ∧ Rd_num = 15 then
    if armCurrentModeHasSpsr p then (0, armWriteCpsr p (armReadSpsr p))
    else (UNDEFINED_INSTRUCTION, p)
  else if S = 1 then (0, armWriteCpsr p (flags Rd_value))
  else (0, p)

/-! ## The shifter operand -/

/-- `shifter_values_calculator`, the case of an immediate shift
(`bit_4 == 0`). -/
def immediateShift (Rm : Word) (FLAG_c : Byte) (ins : Word) : Option ShifterValues :=
  let shift_imm := (getBits ins 11 7).toNat
  match (getBits ins 6 4).toNat with
  | 0b000 => -- LSL
      if shift_imm = 0 then some ⟨FLAG_c, Rm⟩
      else some ⟨(getBit Rm (32 - shift_imm)).setWidth 8, Rm <<< shift_imm⟩
  | 0b010 => -- LSR
      if shift_imm = 0 then some ⟨(getBit Rm 31).setWidth 8, 0⟩
      else some ⟨(getBit Rm (shift_imm - 1)).setWidth 8, Rm >>> shift_imm⟩
  | 0b100 => -- ASR; the source casts 0xFFFFFFFF to `uint8_t`
      if shift_imm = 0 then
        if getBit Rm 31 = 0 then some ⟨(getBit Rm 31).setWidth 8, 0⟩
        else some ⟨(getBit Rm 31).setWidth 8, (0xFFFFFFFF#32).setWidth 8 |>.setWidth 32⟩
      else some ⟨(getBit Rm (shift_imm - 1)).setWidth 8, Rm >>> shift_imm⟩
  | 0b110 => -- ROR, and RRX for a zero amount
      if shift_imm = 0 then
        some ⟨(getBit Rm 0).setWidth 8, (FLAG_c.setWidth 32 <<< 31) ||| (Rm >>> 1)⟩
      else
        let shift_imm := shift_imm % 32
        some ⟨(getBit Rm (shift_imm - 1)).setWidth 8,
          (Rm >>> shift_imm) ||| (Rm <<< (32 - shift_imm))⟩
  | _ => none

/-- `shifter_values_calculator`, the case of a shift by register. -/
def registerShift (Rm Rs : Word) (FLAG_c : Byte) (ins : Word) : Option ShifterValues :=
  let Rs7_0 := (getBits Rs 7 0).toNat
  match (getBits ins 7 4).toNat with
  | 0b0001 => -- LSL
      if Rs7_0 = 0 then some ⟨FLAG_c, Rm⟩
      else if Rs7_0 < 32 then
        some ⟨(getBit Rm (32 - Rs7_0)).setWidth 8, Rm <<< Rs7_0⟩
      else if Rs7_0 = 32 then some ⟨(getBit Rm 0).setWidth 8, Rm⟩
      else some ⟨0, 0⟩
  | 0b0011 => -- LSR
      if Rs7_0 = 0 then some ⟨FLAG_c, Rm⟩
      else if Rs7_0 < 32 then
        some ⟨(getBit Rm (Rs7_0 - 1)).setWidth 8, Rm >>> Rs7_0⟩
      else if Rs7_0 = 32 then some ⟨(getBit Rm 31).setWidth 8, 0⟩
      else some ⟨0, 0⟩
  | 0b0101 => -- ASR
      if Rs7_0 = 0 then some ⟨FLAG_c, Rm⟩
      else if Rs7_0 < 32 then
        some ⟨(getBit Rm (Rs7_0 - 1)).setWidth 8, Rm >>> Rs7_0⟩
      else if getBit Rm 31 = 0 then some ⟨(getBit Rm 31).setWidth 8, 0⟩
      else some ⟨(getBit Rm 31).setWidth 8, 0xFFFFFFFF⟩
  | 0b0111 => -- ROR
      let Rs4_0 := (getBits Rs 4 0).toNat
      if Rs7_0 = 0 then some ⟨FLAG_c, Rm⟩
      else if Rs4_0 = 0 then some ⟨(getBit Rm 31).setWidth 8, Rm⟩
      else
        let Rs4_0 := Rs4_0 % 32
        some ⟨(getBit Rm (Rs4_0 - 1)).setWidth 8, (Rm >>> Rs4_0) ||| (Rm <<< (32 - Rs4_0))⟩
  | _ => none

/-- `shifter_values_calculator`; `none` is the null pointer.  The two
assignments before the shift is decoded are overwritten on every path that
returns a value. -/
def shifterValuesCalculator (p : ArmCore) (ins : Word) (FLAG_c : Byte) : Option ShifterValues :=
  let Rm := armReadRegister p (regNum (getBits ins 3 0))
  if getBit ins 4 = 0 then immediateShift Rm FLAG_c ins
  else registerShift Rm (armReadRegister p (regNum (getBits ins 11 8))) FLAG_c ins

/-! ## The two functions -/

/-- What ends a run of the simulator: a null pointer read, or an assertion
that fails. -/
inductive Fault where
  | nullPointer
  | assertion
deriving DecidableEq, Repr

/-- What a handler returns: its result code and the state, or a fault. -/
abbrev Outcome := Except Fault (Int × ArmCore)

/-- The switch of `arm_data_processing_shift`. -/
def shiftSwitch (p : ArmCore) (opcode : Nat) (S : Word) (Rd_num : Fin 16)
    (Rn_value Rd_value cpsr_val : Word) (FLAG_c : Byte) (sv : ShifterValues) : Int × ArmCore :=
  let c := FLAG_c.setWidth 32
  match opcode with
  | 0b0000 => -- AND
      writeRd p Rd_num S (Rn_value &&& sv.shifterOperand) fun Rd =>
        logicalFlags cpsr_val Rd sv.shifterCarryOut
  | 0b0001 => -- EOR
      writeRd p Rd_num S (Rn_value ^^^ sv.shifterOperand) fun Rd =>
        logicalFlags cpsr_val Rd sv.shifterCarryOut
  | 0b0010 => -- SUB
      writeRd p Rd_num S (Rn_value - sv.shifterOperand) fun Rd =>
        arithFlags cpsr_val Rd (!borrowFrom Rn_value sv.shifterOperand)
          (overflowFrom Rd Rn_value sv.shifterOperand)
  | 0b0011 => -- RSB
      writeRd p Rd_num S (sv.shifterOperand - Rn_value) fun Rd =>
        arithFlags cpsr_val Rd (!borrowFrom sv.shifterOperand Rn_value)
          (overflowFrom Rd sv.shifterOperand Rn_value)
  | 0b0100 => -- ADD; the carry is computed with the old C
      writeRd p Rd_num S (Rn_value + sv.shifterOperand) fun Rd =>
        arithFlags cpsr_val Rd (carryFrom Rn_value sv.shifterOperand c)
          (overflowFrom Rd Rn_value sv.shifterOperand)
  | 0b0101 => -- ADC
      writeRd p Rd_num S (Rn_value + sv.shifterOperand + c) fun Rd =>
        arithFlags cpsr_val Rd (carryFrom Rn_value sv.shifterOperand c)
          (overflowFrom Rd Rn_value sv.shifterOperand)
  | 0b0110 => -- SBC; `~FLAG_c` is the complement of the promoted flag
      writeRd p Rd_num S (Rn_value - sv.shifterOperand - (1 - c)) fun Rd =>
        arithFlags cpsr_val Rd (!borrowFrom Rn_value (sv.shifterOperand + ~~~c))
          (overflowFrom Rd Rn_value (sv.shifterOperand + ~~~c))
  | 0b0111 => -- RSC
      writeRd p Rd_num S (sv.shifterOperand - Rn_value - (1 - c)) fun Rd =>
        arithFlags cpsr_val Rd (!borrowFrom sv.shifterOperand (Rn_value + ~~~c))
          (overflowFrom Rd sv.shifterOperand (Rn_value + ~~~c))
  | 0b1000 => -- TST
      (0, armWriteCpsr p
        (logicalFlags cpsr_val (Rn_value &&& sv.shifterOperand) sv.shifterCarryOut))
  | 9 => -- TEQ
      (0, armWriteCpsr p
        (logicalFlags cpsr_val (Rn_value ^^^ sv.shifterOperand) sv.shifterCarryOut))
  | 0b1010 => -- CMP; the overflow is computed from the old value of `Rd`
      (0, armWriteCpsr p
        (arithFlags cpsr_val (Rn_value - sv.shifterOperand)
          (!borrowFrom Rn_value sv.shifterOperand)
          (overflowFrom Rd_value Rn_value sv.shifterOperand)))
  | 0b1011 => -- CMN
      (0, armWriteCpsr p
        (arithFlags cpsr_val (Rn_value + sv.shifterOperand)
          (carryFrom Rn_value sv.shifterOperand 0)
          (overflowFrom Rd_value Rn_value sv.shifterOperand)))
  | 0b1100 => -- ORR
      writeRd p Rd_num S (Rn_value ||| sv.shifterOperand) fun Rd =>
        logicalFlags cpsr_val Rd sv.shifterCarryOut
  | 0b1101 => -- MOV
      writeRd p Rd_num S sv.shifterOperand fun Rd =>
        logicalFlags cpsr_val Rd sv.shifterCarryOut
  | 0b1110 => -- BIC
      writeRd p Rd_num S (Rn_value &&& ~~~sv.shifterOperand) fun Rd =>
        logicalFlags cpsr_val Rd sv.shifterCarryOut
  | 0b1111 => -- MVN
      writeRd p Rd_num S (~~~sv.shifterOperand) fun Rd =>
        logicalFlags cpsr_val Rd sv.shifterCarryOut
  | _ => (UNDEFINED_INSTRUCTION, p)

/-- `arm_data_processing_shift`; a null `MyShifterValue` is dereferenced by
every case of the switch. -/
def armDataProcessingShift (p : ArmCore) (ins : Word) : Outcome :=
  let Rn_value := armReadRegister p (regNum (getBits ins 19 16))
  let Rd_num := regNum (getBits ins 15 12)
  let Rd_value := armReadRegister p Rd_num
  let S := getBit ins 20
  let cpsr_val := armReadCpsr p
  let FLAG_c : Byte := (getBit cpsr_val 29).setWidth 8
  match shifterValuesCalculator p ins FLAG_c with
  | none => .error .nullPointer
  | some sv =>
      .ok (shiftSwitch p (getBits ins 24 21).toNat S Rd_num Rn_value Rd_value cpsr_val FLAG_c sv)

/-- The switch of `arm_data_processing_immediate_msr`. -/
def immediateSwitch (p : ArmCore) (opcode : Nat) (S : Word) (Rd_num : Fin 16)
    (Rn_value Rd_value cpsr_val : Word) (FLAG_c : Byte)
    (shifter_operand : Word) (shifter_carry_out : Byte) : Int × ArmCore :=
  let c := FLAG_c.setWidth 32
  match opcode with
  | 0b0000 => -- AND
      writeRd p Rd_num S (Rn_value &&& shifter_operand) fun Rd =>
        logicalFlags cpsr_val Rd shifter_carry_out
  | 0b0001 => -- EOR
      writeRd p Rd_num S (Rn_value ^^^ shifter_operand) fun Rd =>
        logicalFlags cpsr_val Rd shifter_carry_out
  | 0b0010 => -- SUB
      writeRd p Rd_num S (Rn_value - shifter_operand) fun Rd =>
        arithFlags cpsr_val Rd (!borrowFrom Rn_value shifter_operand)
          (overflowFrom Rd Rn_value shifter_operand)
  | 0b0011 => -- RSB
      writeRd p Rd_num S (shifter_operand - Rn_value) fun Rd =>
        arithFlags cpsr_val Rd (!borrowFrom shifter_operand Rn_value)
          (overflowFrom Rd shifter_operand Rn_value)
  | 0b0100 => -- ADD
      writeRd p Rd_num S (Rn_value + shifter_operand) fun Rd =>
        arithFlags cpsr_val Rd (carryFrom Rn_value shifter_operand c)
          (overflowFrom Rd Rn_value shifter_operand)
  | 0b0101 => -- ADC
      writeRd p Rd_num S (Rn_value + shifter_operand + c) fun Rd =>
        arithFlags cpsr_val Rd (carryFrom Rn_value shifter_operand c)
          (overflowFrom Rd Rn_value shifter_operand)
  | 0b0110 => -- SBC
      writeRd p Rd_num S (Rn_value - shifter_operand - (1 - c)) fun Rd =>
        arithFlags cpsr_val Rd (!borrowFrom Rn_value (shifter_operand + ~~~c))
          (overflowFrom Rd Rn_value (shifter_operand + ~~~c))
  | 0b0111 => -- RSC
      writeRd p Rd_num S (shifter_operand - Rn_value - (1 - c)) fun Rd =>
        arithFlags cpsr_val Rd (!borrowFrom shifter_operand (Rn_value + ~~~c))
          (overflowFrom Rd shifter_operand (Rn_value + ~~~c))
  | 0b1000 => -- TST
      (0, armWriteCpsr p (logicalFlags cpsr_val (Rn_value &&& shifter_operand) shifter_carry_out))
  | 9 => -- TEQ
      (0, armWriteCpsr p (logicalFlags cpsr_val (Rn_value ^^^ shifter_operand) shifter_carry_out))
  | 0b1010 => -- CMP
      (0, armWriteCpsr p
        (arithFlags cpsr_val (Rn_value - shifter_operand)
          (!borrowFrom Rn_value shifter_operand)
          (overflowFrom Rd_value Rn_value shifter_operand)))
  | 0b1011 => -- CMN
      (0, armWriteCpsr p
        (arithFlags cpsr_val (Rn_value + shifter_operand)
          (carryFrom Rn_value shifter_operand 0)
          (overflowFrom Rd_value Rn_value shifter_operand)))
  | 0b1100 => -- ORR
      writeRd p Rd_num S (Rn_value ||| shifter_operand) fun Rd =>
        logicalFlags cpsr_val Rd shifter_carry_out
  | 0b1101 => -- MOV
      writeRd p Rd_num S shifter_operand fun Rd =>
        logicalFlags cpsr_val Rd shifter_carry_out
  | 0b1110 => -- BIC
      writeRd p Rd_num S (Rn_value &&& ~~~shifter_operand) fun Rd =>
        logicalFlags cpsr_val Rd shifter_carry_out
  | 0b1111 => -- MVN
      writeRd p Rd_num S (~~~shifter_operand) fun Rd =>
        logicalFlags cpsr_val Rd shifter_carry_out
  | _ => (UNDEFINED_INSTRUCTION, p)

/-- The operand of `arm_data_processing_immediate_msr`.  Without rotation
the left shift has a count of 32, whose value the host decides. -/
def immediateOperand (h : Host) (ins : Word) : Word :=
  let rotate_imm := (getBits ins 11 8).toNat
  let immed_8 := getBits ins 7 0
  (immed_8 >>> (rotate_imm * 2)) |||
    (if rotate_imm = 0 then h.shl32 immed_8 else immed_8 <<< (32 - rotate_imm * 2))

/-- The carry-out of `arm_data_processing_immediate_msr`. -/
def immediateCarryOut (h : Host) (ins : Word) (FLAG_c : Byte) : Byte :=
  if (getBits ins 11 8).toNat = 0 then FLAG_c
  else (getBit (immediateOperand h ins) 31).setWidth 8

/-- `arm_data_processing_immediate_msr` -/
def armDataProcessingImmediateMsr (h : Host) (p : ArmCore) (ins : Word) : Int × ArmCore :=
  let cpsr_val := armReadCpsr p
  let FLAG_c : Byte := (getBit cpsr_val 29).setWidth 8
  let Rn_value := armReadRegister p (regNum (getBits ins 19 16))
  let Rd_num := regNum (getBits ins 15 12)
  let Rd_value := armReadRegister p Rd_num
  let S := getBit ins 20
  immediateSwitch p (getBits ins 24 21).toNat S Rd_num Rn_value Rd_value cpsr_val FLAG_c
    (immediateOperand h ins) (immediateCarryOut h ins FLAG_c)

end Armator
