/-
Loads and stores, `arm_load_store.c`.

Single transfers compute their address first, and write the base register
back while they do.  The three operand forms of `calculate_address` and
the two of `calculate_address_mode3` share one indexing pattern,
`indexAddress`; they differ in the offset, and in what they do with the
indexing the code does not treat (P = 0 and W = 1).
-/
import Armator.DataProcessing

namespace Armator

/-! ## Fields (`arm_constants.h`) -/

def bitL (x : Word) : Word := getBit x 20
def bitW (x : Word) : Word := getBit x 21
def bitB (x : Word) : Word := getBit x 22
def bitU (x : Word) : Word := getBit x 23
def bitP (x : Word) : Word := getBit x 24

/-- `bits_rn`, as a register number -/
def bitsRn (x : Word) : Fin 16 := regNum (getBits x 19 16)

/-- `signExtend8to32` -/
def signExtend8to32 (value : Byte) : Word :=
  (if value &&& 0x80 ≠ 0 then 0xFFFFFF00 else 0x00000000) ||| value.setWidth 32

/-- `signExtend16to32` -/
def signExtend16to32 (value : Half) : Word :=
  (if value &&& 0x8000 ≠ 0 then 0xFFFF0000 else 0x00000000) ||| value.setWidth 32

/-- `shift_index_calculator` -/
def shiftIndexCalculator (Rm : Word) (shift_imm : Nat) (shift : Nat) (C_flag : Byte) : Word :=
  match shift with
  | 0b00 => Rm <<< shift_imm -- LSL
  | 0b01 => if shift_imm = 0 then 0 else Rm >>> shift_imm -- LSR
  | 0b10 => -- ASR
      if shift_imm = 0 then (if getBit Rm 31 = 1 then 0xFFFFFFFF else 0) else Rm >>> shift_imm
  | 0b11 => -- RRX, or ROR
      if shift_imm = 0 then (C_flag >>> 31).setWidth 32 ||| (Rm >>> 1)
      else
        let shift_imm := shift_imm % 32
        (Rm >>> shift_imm) ||| (Rm <<< (32 - shift_imm))
  | _ => 0

/-! ## Addresses -/

/-- The base moved by an offset, up or down by the U bit. -/
def offsetBase (ins Rn offset : Word) : Word :=
  if bitU ins ≠ 0 then Rn + offset else Rn - offset

/-- The indexing pattern of every operand form: the address, and the state
with the base written back.  `none` is the untreated case. -/
def indexAddress (p : ArmCore) (ins : Word) (Rn offset : Word) : Option (Word × ArmCore) :=
  if bitP ins ≠ 0 then
    let address := offsetBase ins Rn offset
    some (address, if bitW ins ≠ 0 then armWriteRegister p (bitsRn ins) address else p)
  else if bitW ins = 0 then
    some (Rn, armWriteRegister p (bitsRn ins) (offsetBase ins Rn offset))
  else none

/-- `calculate_address_mode3`; its `address` stays uninitialised in the
untreated case. -/
def calculateAddressMode3 (h : Host) (p : ArmCore) (ins : Word) : Word × ArmCore :=
  let Rn := armReadRegister p (bitsRn ins)
  let offset :=
    if getBit ins 22 ≠ 0 then
      let immedH : Byte := (getBits ins 11 8).setWidth 8
      let immedL : Byte := (getBits ins 3 0).setWidth 8
      let offset_8 : Byte := (immedH <<< 4) ||| immedL
      offset_8.setWidth 32
    else armReadRegister p (regNum (getBits ins 3 0))
  (indexAddress p ins Rn offset).getD (h.garbage .address, p)

/-- `calculate_address`; the untreated cases return -1 as a `uint32_t`.
In the register form bits 11 to 4 are zero, so `get_bits(ins, 4, 0)` is a
four-bit field there. -/
def calculateAddress (p : ArmCore) (ins : Word) : Word × ArmCore :=
  let Rn := armReadRegister p (bitsRn ins)
  if getBit ins 25 = 0 then
    let offset_12 := getBits ins 11 0
    (indexAddress p ins Rn offset_12).getD (-1, p)
  else if getBit ins 25 ≠ 0 ∧ getBits ins 11 4 = 0 then
    let Rm := armReadRegister p (regNum (getBits ins 4 0))
    (indexAddress p ins Rn Rm).getD (-1, p)
  else if getBit ins 25 ≠ 0 ∧ getBits ins 11 4 ≠ 0 then
    let Rm := armReadRegister p (regNum (getBits ins 3 0))
    let shift_imm := (getBits ins 11 7).toNat
    let shift := (getBits ins 6 5).toNat
    let C_flag : Byte := (getBit (armReadCpsr p) 29).setWidth 8
    (indexAddress p ins Rn (shiftIndexCalculator Rm shift_imm shift C_flag)).getD (-1, p)
  else (-1, p)

/-! ## Single transfers -/

/-- The word and byte transfers of `arm_load_store` (addressing mode 2). -/
def loadStoreMode2 (h : Host) (p : ArmCore) (ins address : Word) (Rd_num : Fin 16) :
    Int × ArmCore :=
  if bitB ins = 0 then
    if bitL ins ≠ 0 then -- LDR
      let val := (armReadWord h p address (h.garbage .val)).2
      (0, armWriteRegister p Rd_num val)
    else -- STR
      let val := armReadRegister p Rd_num
      (0, (armWriteWord h p address val).2)
  else
    if bitL ins ≠ 0 then -- LDRB
      let val := (armReadByte p address ((h.garbage .val).setWidth 8)).2
      (0, armWriteRegister p Rd_num (val.setWidth 32))
    else -- STRB
      let Rd := armReadRegister p Rd_num
      let val : Byte := (getBits Rd 7 0).setWidth 8
      (0, (armWriteByte p address val).2)

/-- The half-word and signed transfers of `arm_load_store` (addressing
mode 3), once their address is known. -/
def loadStoreMode3 (h : Host) (p : ArmCore) (ins address : Word) (Rd_num : Fin 16) :
    Int × ArmCore :=
  if bitL ins = 0 then -- STRH
    if Rd_num = 15 then (UNDEFINED_INSTRUCTION, p)
    else
      let val : Half := (getBits (armReadRegister p Rd_num) 15 0).setWidth 16
      (0, (armWriteHalf h p address val).2)
  else
    match (getBits ins 7 4).toNat with
    | 0b1011 => -- LDRH
        if Rd_num = 15 then (UNDEFINED_INSTRUCTION, p)
        else
          let val := (armReadHalf h p address ((h.garbage .val).setWidth 16)).2
          (0, armWriteRegister p Rd_num (val.setWidth 32))
    | 0b1101 => -- LDRSB
        if Rd_num = 15 then (UNDEFINED_INSTRUCTION, p)
        else
          let value := (armReadByte p address ((h.garbage .val).setWidth 8)).2
          (0, armWriteRegister p Rd_num (signExtend8to32 value))
    | 0b1111 => -- LDRSH
        if Rd_num = 15 then (UNDEFINED_INSTRUCTION, p)
        else
          let vals := (armReadHalf h p address ((h.garbage .val).setWidth 16)).2
          (0, armWriteRegister p Rd_num (signExtend16to32 vals))
    | _ => (UNDEFINED_INSTRUCTION, p)

/-- `arm_load_store`.  Mode 3 computes its address after, and on top of,
the mode 2 computation. -/
def armLoadStore (h : Host) (p : ArmCore) (ins : Word) : Int × ArmCore :=
  let (address, p) := calculateAddress p ins
  if address = -1 then (UNDEFINED_INSTRUCTION, p)
  else
    let Rd_num := regNum (getBits ins 15 12)
    if getBit ins 26 ≠ 0 then loadStoreMode2 h p ins address Rd_num
    else
      let (address, p) := calculateAddressMode3 h p ins
      loadStoreMode3 h p ins address Rd_num

/-! ## Block transfers -/

/-- `Number_of_Set_Bits_In` -/
def numberOfSetBitsIn (ins : Word) : Nat :=
  (List.range 16).foldl (fun res i => res + (getBit ins i).toNat) 0

/-- `addr_ls_multiple`: `*start`, `*end` and the state with the base
written back.  The last of the four cases is the only one left. -/
def addrLsMultiple (p : ArmCore) (ins : Word) : Word × Word × ArmCore :=
  let Rn := armReadRegister p (bitsRn ins)
  let bytes := BitVec.ofNat 32 (4 * numberOfSetBitsIn ins)
  let writeback (value : Word) : ArmCore :=
    if bitW ins ≠ 0 then armWriteRegister p (bitsRn ins) value else p
  if getBit ins 24 ≠ 0 ∧ getBit ins 23 ≠ 0 then -- increment before
    (Rn + 4, Rn + bytes, writeback (Rn + bytes))
  else if getBit ins 24 ≠ 0 ∧ getBit ins 23 = 0 then -- decrement before
    (Rn - bytes, Rn - 4, writeback (Rn - bytes))
  else if getBit ins 24 = 0 ∧ getBit ins 23 ≠ 0 then -- increment after
    (Rn, Rn + bytes - 4, writeback (Rn + bytes))
  else -- decrement after
    (Rn - bytes + 4, Rn, writeback (Rn - bytes))

/-- One turn of the loop of `instruction_ldm1`, on the state, `address`
and `word`.  A read that fails leaves `word` as it was. -/
def ldmTurn (h : Host) (ins : Word) (s : ArmCore × Word × Word) (i : Fin 16) :
    ArmCore × Word × Word :=
  let (p, address, word) := s
  if getBit ins i = 1 then
    let word := (armReadWord h p address word).2
    (armWriteRegister p i word, address + 4, word)
  else s

/-- `for (i = 0; i < 15; i++)` -/
def ldmLoop (h : Host) (p : ArmCore) (ins address word : Word) : ArmCore × Word × Word :=
  ((List.finRange 15).map Fin.castSucc).foldl (ldmTurn h ins) (p, address, word)

/-- `instruction_ldm1` -/
def instructionLdm1 (h : Host) (p : ArmCore) (ins : Word) : Outcome :=
  let (start, «end», p) := addrLsMultiple p ins
  let (p, address, word) := ldmLoop h p ins start (h.garbage .word)
  let (p, address) :=
    if getBit ins 15 = 1 then
      let word := (armReadWord h p address word).2
      let p := armWriteRegister p 15 (word &&& 0xFFFFFFFE)
      let t_bit := getBit word 0
      if t_bit = 0 then (armWriteCpsr p (clrBit (armReadCpsr p) 5), address + 4)
      else (armWriteCpsr p (setBit (armReadSpsr p) 5), address + 4)
    else (p, address)
  if «end» = address - 4 then .ok (0, p) else .error .assertion

/-- One turn of the loop of `instruction_stm1`, on the state and `address`. -/
def stmTurn (h : Host) (ins : Word) (s : ArmCore × Word) (i : Fin 16) : ArmCore × Word :=
  let (p, address) := s
  if getBit ins i = 1 then
    ((armWriteWord h p address (armReadRegister p i)).2, address + 4)
  else s

/-- `instruction_stm1` -/
def instructionStm1 (h : Host) (p : ArmCore) (ins : Word) : Outcome :=
  let (start, «end», p) := addrLsMultiple p ins
  let (p, address) := (List.finRange 16).foldl (stmTurn h ins) (p, start)
  if «end» = address - 4 then .ok (0, p) else .error .assertion

/-- `arm_load_store_multiple`, which drops the results of the two. -/
def armLoadStoreMultiple (h : Host) (p : ArmCore) (ins : Word) : Outcome :=
  if bitL ins ≠ 0 ∧ bitB ins = 0 then (instructionLdm1 h p ins).map fun o => (0, o.2)
  else if bitL ins = 0 ∧ bitB ins = 0 then (instructionStm1 h p ins).map fun o => (0, o.2)
  else .ok (UNDEFINED_INSTRUCTION, p)

/-- `arm_coprocessor_load_store` -/
def armCoprocessorLoadStore (p : ArmCore) (_ins : Word) : Int × ArmCore :=
  (UNDEFINED_INSTRUCTION, p)

end Armator
