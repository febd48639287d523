/-
The processor state and its accessors, `arm_core.c`.

Every instruction goes through these accessors: a register is read and
written in the current mode, the program counter reads four bytes ahead
of its slot, and the fetch advances it before the instruction runs.
Tracing is left out, since it changes nothing the simulator reads back.
-/
import Armator.Registers
import Armator.Memory

namespace Armator

/-! ## The host

What the C text does not fix, gathered in one argument. -/

/-- An uninitialised local, by the function that declares it. -/
inductive Local where
  /-- `bytearray[i]` in `memory_read_half` and `memory_read_word`, for a
  data access at `address` -/
  | bytearray (address : Word) (i : Nat)
  /-- `bytearray[i]` in `memory_read_word`, during the fetch -/
  | fetchBytes (i : Nat)
  /-- `ins` in `arm_execute_instruction` -/
  | ins
  /-- `val`, `value` and `vals` in `arm_load_store` -/
  | val
  /-- `address` in `calculate_address_mode3` -/
  | address
  /-- `word` in `instruction_ldm1` -/
  | word
  /-- `instruction` in `arm_exception` -/
  | instruction

/-- The machine and the compilation the simulator runs under. -/
structure Host where
  /-- the answer of `is_big_endian()` -/
  isBigEndian : Bool
  /-- `ENDIANESS`, set by `BIG_ENDIAN_SIMULATOR` -/
  endianess : Byte
  /-- `x << 32` on a 32-bit value, which C leaves undefined -/
  shl32 : Word → Word
  /-- what an uninitialised local happens to hold -/
  garbage : Local → Word

/-- A little-endian build on an x86 host, where a shift by 32 is a shift
by 0; the uninitialised locals are taken to be 0. -/
def x86Host : Host := { isBigEndian := false, endianess := 0, shl32 := id, garbage := fun _ => 0 }

/-- `struct arm_core_data`, and the bytes `putchar` has sent so far. -/
@[ext] structure ArmCore where
  cycleCount : Word
  reg : Registers
  mem : Memory
  stdout : List Byte

/-! ## Registers -/

/-- `arm_current_mode_has_spsr` -/
def armCurrentModeHasSpsr (p : ArmCore) : Bool := registersCurrentModeHasSpsr p.reg

/-- `arm_read_register_internal` -/
def armReadRegisterInternal (p : ArmCore) (reg : Fin 16) (mode : Byte) : Word :=
  let value := registersRead p.reg reg mode
  if reg = 15 then (value + 4) &&& 0xFFFFFFFD else value

/-- `arm_read_register` -/
def armReadRegister (p : ArmCore) (reg : Fin 16) : Word :=
  armReadRegisterInternal p reg (registersGetMode p.reg)

/-- `arm_read_cpsr` -/
def armReadCpsr (p : ArmCore) : Word := registersReadCpsr p.reg

/-- `arm_read_spsr` -/
def armReadSpsr (p : ArmCore) : Word := registersReadSpsr p.reg (registersGetMode p.reg)

/-- `arm_write_register` -/
def armWriteRegister (p : ArmCore) (reg : Fin 16) (value : Word) : ArmCore :=
  { p with reg := registersWrite p.reg reg (registersGetMode p.reg) value }

/-- `arm_write_cpsr` -/
def armWriteCpsr (p : ArmCore) (value : Word) : ArmCore :=
  { p with reg := registersWriteCpsr p.reg value }

/-! ## Memory -/

section

variable (h : Host)

/-- `arm_read_byte` -/
def armReadByte (p : ArmCore) (address : Word) (value : Byte) : Int × Byte :=
  memoryReadByte p.mem address value

/-- `arm_read_half` -/
def armReadHalf (p : ArmCore) (address : Word) (value : Half) : Int × Half :=
  memoryReadHalf h.isBigEndian (fun i => (h.garbage (.bytearray address i)).setWidth 8)
    p.mem address value h.endianess

/-- `arm_read_word` -/
def armReadWord (p : ArmCore) (address : Word) (value : Word) : Int × Word :=
  memoryReadWord h.isBigEndian (fun i => (h.garbage (.bytearray address i)).setWidth 8)
    p.mem address value h.endianess

/-- `arm_write_byte` -/
def armWriteByte (p : ArmCore) (address : Word) (value : Byte) : Int × ArmCore :=
  let (result, mem) := memoryWriteByte p.mem address value
  (result, { p with mem := mem })

/-- `arm_write_half` -/
def armWriteHalf (p : ArmCore) (address : Word) (value : Half) : Int × ArmCore :=
  let (result, mem) := memoryWriteHalf h.isBigEndian p.mem address value h.endianess
  (result, { p with mem := mem })

/-- `arm_write_word` -/
def armWriteWord (p : ArmCore) (address : Word) (value : Word) : Int × ArmCore :=
  let (result, mem) := memoryWriteWord h.isBigEndian p.mem address value h.endianess
  (result, { p with mem := mem })

/-- `arm_fetch`: the result, the state with its program counter advanced,
and the word read. -/
def armFetch (p : ArmCore) (value : Word) : Int × ArmCore × Word :=
  let mode := registersGetMode p.reg
  let address := registersRead p.reg 15 mode
  let reg := registersWrite p.reg 15 mode (address + 4)
  let (result, value) := memoryReadWord h.isBigEndian
    (fun i => (h.garbage (.fetchBytes i)).setWidth 8) p.mem address value h.endianess
  (result, { p with reg := reg, cycleCount := p.cycleCount + 1 }, value)

end

/-! ## What the accessors leave alone -/

section Accessors

variable (p : ArmCore) (reg : Fin 16) (value : Word)

@[simp] theorem armWriteRegister_mem : (armWriteRegister p reg value).mem = p.mem := rfl

@[simp] theorem armWriteRegister_cycleCount :
    (armWriteRegister p reg value).cycleCount = p.cycleCount := rfl

@[simp] theorem armWriteRegister_stdout :
    (armWriteRegister p reg value).stdout = p.stdout := rfl

@[simp] theorem armWriteRegister_mode :
    registersGetMode (armWriteRegister p reg value).reg = registersGetMode p.reg :=
  registersGetMode_write ..

/-- A write goes to the slot the register has in the current mode. -/
theorem armWriteRegister_reg :
    (armWriteRegister p reg value).reg
      = Function.update p.reg (slot reg (registersGetMode p.reg)) value :=
  registersWrite_eq ..

/-- Writing r15 sets the one program counter. -/
@[simp] theorem armWriteRegister_pc : (armWriteRegister p 15 value).reg 15 = value := by
  rw [armWriteRegister_reg, slot_pc, Function.update_self]

@[simp] theorem armReadCpsr_write :
    armReadCpsr (armWriteRegister p reg value) = armReadCpsr p :=
  registersReadCpsr_write ..

@[simp] theorem armWriteCpsr_mem : (armWriteCpsr p value).mem = p.mem := rfl

@[simp] theorem armWriteCpsr_cycleCount :
    (armWriteCpsr p value).cycleCount = p.cycleCount := rfl

@[simp] theorem armWriteCpsr_stdout : (armWriteCpsr p value).stdout = p.stdout := rfl

@[simp] theorem armReadCpsr_writeCpsr : armReadCpsr (armWriteCpsr p value) = value := by
  simp [armReadCpsr, armWriteCpsr, registersReadCpsr, registersWriteCpsr]

theorem armReadRegister_of_ne_pc {p : ArmCore} {reg : Fin 16} (h : reg ≠ 15) :
    armReadRegister p reg = p.reg (slot reg (registersGetMode p.reg)) := by
  rw [armReadRegister, armReadRegisterInternal, if_neg h, registersRead_eq]

theorem armReadRegister_pc (p : ArmCore) :
    armReadRegister p 15 = (p.reg 15 + 4) &&& 0xFFFFFFFD := by
  rw [armReadRegister, armReadRegisterInternal, if_pos rfl, registersRead_eq, slot_pc]

theorem armReadRegister_write_self {reg : Fin 16} (h : reg ≠ 15) :
    armReadRegister (armWriteRegister p reg value) reg = value := by
  rw [armReadRegister, armReadRegisterInternal, if_neg h, armWriteRegister_mode]
  exact registersRead_write_self ..

theorem armReadRegister_write_of_ne {reg reg' : Fin 16} (h : reg' ≠ reg) :
    armReadRegister (armWriteRegister p reg value) reg' = armReadRegister p reg' := by
  simp only [armReadRegister, armReadRegisterInternal, armWriteRegister_mode]
  rw [show (armWriteRegister p reg value).reg
    = registersWrite p.reg reg (registersGetMode p.reg) value from rfl,
    registersRead_write_of_ne _ _ _ h]

end Accessors

end Armator
