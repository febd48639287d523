/-
The register file of `registers.c`.

All banks live in one array of 37 slots.  Reads and writes find their
slot with two hand-written ladders of index offsets; they are kept here
as two ladders, and `slot` below is the bank map both turn out to follow.

    0 .. 15   r0 .. r15 of USR and SYS      24 .. 30  r8 .. r14 of FIQ
    16, 17    r13, r14 of SVC               31        CPSR
    18, 19    r13, r14 of ABT               32 .. 36  SPSR of SVC, ABT,
    20, 21    r13, r14 of UND                         UND, IRQ, FIQ
    22, 23    r13, r14 of IRQ

A register number is a `Fin 16`: every caller passes a four-bit field or
a loop index below 16, and an index past the array is undefined in C.
-/
import Armator.Util
import Mathlib.Logic.Function.Basic

namespace Armator

/-! ## Modes (`arm_constants.h`) -/

def USR : Byte := 0x10
def FIQ : Byte := 0x11
def IRQ : Byte := 0x12
def SVC : Byte := 0x13
def ABT : Byte := 0x17
def UND : Byte := 0x1b
def SYS : Byte := 0x1f

/-- `struct registers_data` times 37. -/
abbrev Registers := Fin 37 → Word

/-- `registers_create`: `calloc` clears the slots. -/
def registersCreate : Registers := fun _ => 0

/-- `registers_get_mode` -/
def registersGetMode (r : Registers) : Byte := (r 31 &&& 0x1f).setWidth 8

/-- `registers_mode_has_spsr` -/
def registersModeHasSpsr (mode : Byte) : Bool :=
  if mode = USR ∨ mode = SYS then false else true

/-- `registers_current_mode_has_spsr` -/
def registersCurrentModeHasSpsr (r : Registers) : Bool :=
  registersModeHasSpsr (registersGetMode r)

/-! ## Reading -/

/-- `registers_read` -/
def registersRead (r : Registers) (reg : Fin 16) (mode : Byte) : Word :=
  if _ : reg.val < 8 then
    r ⟨reg, by omega⟩
  else if _ : reg.val < 13 then
    if mode = FIQ then r ⟨reg + 16, by omega⟩ else r ⟨reg, by omega⟩
  else if _ : reg.val < 15 then
    if mode = 0b10001 then r ⟨reg + 16, by omega⟩
    else if mode = 0b10010 then r ⟨reg + 9, by omega⟩
    else if mode = 0b10011 then r ⟨reg + 3, by omega⟩
    else if mode = 0b10111 then r ⟨reg + 5, by omega⟩
    else if mode = 0b11011 then r ⟨reg + 7, by omega⟩
    else r ⟨reg, by omega⟩
  else r ⟨reg, by omega⟩

/-- `registers_read_cpsr` -/
def registersReadCpsr (r : Registers) : Word := r 31

/-- `registers_read_spsr` -/
def registersReadSpsr (r : Registers) (mode : Byte) : Word :=
  if mode = 0b10001 then r 36
  else if mode = 0b10010 then r 35
  else if mode = 0b10011 then r 32
  else if mode = 0b10111 then r 33
  else if mode = 0b11011 then r 34
  else 0

/-! ## Writing -/

/-- `registers_write` -/
def registersWrite (r : Registers) (reg : Fin 16) (mode : Byte) (value : Word) : Registers :=
  if _ : reg.val < 8 then
    Function.update r ⟨reg, by omega⟩ value
  else if _ : reg.val < 13 then
    if mode = FIQ then Function.update r ⟨reg + 16, by omega⟩ value
    else Function.update r ⟨reg, by omega⟩ value
  else if _ : reg.val < 15 then
    if mode = 0b10001 then Function.update r ⟨reg + 16, by omega⟩ value
    else if mode = 0b10010 then Function.update r ⟨reg + 9, by omega⟩ value
    else if mode = 0b10011 then Function.update r ⟨reg + 3, by omega⟩ value
    else if mode = 0b10111 then Function.update r ⟨reg + 5, by omega⟩ value
    else if mode = 0b11011 then Function.update r ⟨reg + 7, by omega⟩ value
    else Function.update r ⟨reg, by omega⟩ value
  else Function.update r ⟨reg, by omega⟩ value

/-- `registers_write_cpsr` -/
def registersWriteCpsr (r : Registers) (value : Word) : Registers :=
  Function.update r 31 value

/-- `registers_write_spsr` -/
def registersWriteSpsr (r : Registers) (mode : Byte) (value : Word) : Registers :=
  if mode = 0b10001 then Function.update r 36 value
  else if mode = 0b10010 then Function.update r 35 value
  else if mode = 0b10011 then Function.update r 32 value
  else if mode = 0b10111 then Function.update r 33 value
  else if mode = 0b11011 then Function.update r 34 value
  else r

/-! ## The bank map -/

/-- How far the slot of `reg` in `mode` lies above `reg` itself. -/
def bankOffset (reg : Fin 16) (mode : Byte) : Nat :=
  if reg.val < 8 ∨ reg.val = 15 then 0
  else if mode = FIQ then 16
  else if reg.val < 13 then 0
  else if mode = IRQ then 9
  else if mode = SVC then 3
  else if mode = ABT then 5
  else if mode = UND then 7
  else 0

theorem slot_lt (reg : Fin 16) (mode : Byte) : reg.val + bankOffset reg mode < 31 := by
  unfold bankOffset
  split_ifs <;> omega

/-- The slot `reg` occupies in `mode`. -/
def slot (reg : Fin 16) (mode : Byte) : Fin 37 :=
  ⟨reg.val + bankOffset reg mode, by have := slot_lt reg mode; omega⟩

theorem slot_val_lt (reg : Fin 16) (mode : Byte) : (slot reg mode).val < 31 :=
  slot_lt reg mode

theorem registersRead_eq (r : Registers) (reg : Fin 16) (mode : Byte) :
    registersRead r reg mode = r (slot reg mode) := by
  unfold registersRead slot bankOffset FIQ IRQ SVC ABT UND
  by_cases h15 : reg.val = 15
  · simp only [h15, or_true, if_true]
    rfl
  · have hlt : reg.val < 15 := by omega
    by_cases h8 : reg.val < 8 <;> by_cases h13 : reg.val < 13 <;>
      simp only [h8, h13, h15, hlt, or_false, if_true, if_false, dite_true, dite_false] <;>
      split_ifs <;> rfl

theorem registersWrite_eq (r : Registers) (reg : Fin 16) (mode : Byte) (value : Word) :
    registersWrite r reg mode value = Function.update r (slot reg mode) value := by
  unfold registersWrite slot bankOffset FIQ IRQ SVC ABT UND
  by_cases h15 : reg.val = 15
  · simp only [h15, or_true, if_true]
    rfl
  · have hlt : reg.val < 15 := by omega
    by_cases h8 : reg.val < 8 <;> by_cases h13 : reg.val < 13 <;>
      simp only [h8, h13, h15, hlt, or_false, if_true, if_false, dite_true, dite_false] <;>
      split_ifs <;> rfl

/-- Two registers never share a slot, whatever their modes. -/
theorem eq_of_slot_eq {a b : Fin 16} {mode mode' : Byte} (h : slot a mode = slot b mode') :
    a = b := by
  have h' := congrArg Fin.val h
  simp only [slot, bankOffset] at h'
  refine Fin.ext ?_
  -- outside FIQ only r13 and r14 move, and never by 1 or 2, onto r15
  generalize hk : (if mode = IRQ then 9 else if mode = SVC then 3 else if mode = ABT then 5
    else if mode = UND then 7 else 0) = k at h'
  generalize hk' : (if mode' = IRQ then 9 else if mode' = SVC then 3 else if mode' = ABT then 5
    else if mode' = UND then 7 else 0) = k' at h'
  have hv : k = 0 ∨ k = 3 ∨ k = 5 ∨ k = 7 ∨ k = 9 := by split_ifs at hk <;> omega
  have hv' : k' = 0 ∨ k' = 3 ∨ k' = 5 ∨ k' = 7 ∨ k' = 9 := by split_ifs at hk' <;> omega
  split_ifs at h' <;> omega

theorem slot_injective (mode : Byte) : Function.Injective fun reg => slot reg mode :=
  fun _ _ h => eq_of_slot_eq h

@[simp] theorem slot_inj {a b : Fin 16} {mode : Byte} : slot a mode = slot b mode ↔ a = b :=
  (slot_injective mode).eq_iff

theorem slot_ne_cpsr (reg : Fin 16) (mode : Byte) : slot reg mode ≠ 31 := by
  intro h
  have := slot_val_lt reg mode
  rw [h] at this
  exact absurd this (by decide)

@[simp] theorem slot_pc (mode : Byte) : slot 15 mode = 15 := rfl

theorem slot_ne_pc {reg : Fin 16} (h : reg ≠ 15) (mode : Byte) : slot reg mode ≠ 15 := by
  rw [← slot_pc mode, Ne, slot_inj]
  exact h

/-! ## Read after write -/

@[simp] theorem registersRead_write_self (r : Registers) (reg : Fin 16) (mode : Byte)
    (value : Word) : registersRead (registersWrite r reg mode value) reg mode = value := by
  rw [registersRead_eq, registersWrite_eq, Function.update_self]

theorem registersRead_write_of_ne (r : Registers) {reg reg' : Fin 16} (mode : Byte)
    (value : Word) (h : reg' ≠ reg) :
    registersRead (registersWrite r reg mode value) reg' mode = registersRead r reg' mode := by
  rw [registersRead_eq, registersWrite_eq, registersRead_eq,
    Function.update_of_ne (fun hs => h (slot_inj.mp hs))]

@[simp] theorem registersReadCpsr_write (r : Registers) (reg : Fin 16) (mode : Byte)
    (value : Word) : registersReadCpsr (registersWrite r reg mode value) = registersReadCpsr r := by
  rw [registersReadCpsr, registersWrite_eq,
    Function.update_of_ne (Ne.symm (slot_ne_cpsr reg mode))]
  rfl

@[simp] theorem registersGetMode_write (r : Registers) (reg : Fin 16) (mode : Byte)
    (value : Word) : registersGetMode (registersWrite r reg mode value) = registersGetMode r := by
  have h := registersReadCpsr_write r reg mode value
  unfold registersReadCpsr at h
  rw [registersGetMode, h]
  rfl

/-- The mode is in the five low bits of the CPSR. -/
theorem registersGetMode_congr {r r' : Registers}
    (hb : ∀ j < 5, (r' 31).getLsbD j = (r 31).getLsbD j) :
    registersGetMode r' = registersGetMode r := by
  have hmask : ∀ j < 32, 5 ≤ j → (0x1f#32).getLsbD j = false := by decide
  refine BitVec.eq_of_getLsbD_eq ?_
  intro j hj
  have hw : j < 32 := by omega
  rw [registersGetMode, registersGetMode, BitVec.getLsbD_setWidth, BitVec.getLsbD_setWidth,
    BitVec.getLsbD_and, BitVec.getLsbD_and, show (0x1f : Word) = 0x1f#32 from rfl]
  by_cases h5 : j < 5
  · rw [hb j h5]
  · simp only [hmask j hw (by omega), Bool.and_false]

end Armator
