/-
The shift counts of a step.

C leaves a shift undefined when its count is the width of the word or more.
The three functions that shift by computed amounts are written here once
more, as far as the operand, the carry-out and the index, with every shift
logged, also those inside the bit macros; they return what those of the
model return.  All counts are below 32, for every state and every word, but
for one: an immediate that is not rotated is shifted left by 32 places
(`shift_counts_iff`).
-/
import Armator.Addressing
import Armator.Lib.EventLog

namespace Armator

open EventLog

namespace Counted

/-! ## Shifts and macros -/

/-- `x >> n` -/
def shr (x : Word) (n : Nat) : Logged Nat Word := emit n (x >>> n)

/-- `x << n`, whose value the host decides from a count of 32 on. -/
def shl (host : Host) (x : Word) (n : Nat) : Logged Nat Word :=
  emit n (if n < 32 then x <<< n else host.shl32 x)

/-- `get_bit(x, i)` -/
def getBit (x : Word) (i : Nat) : Logged Nat Word := do
  let y ← shr x i
  pure (y &&& 1)

/-- `get_bits(x, h, l)` -/
def getBits (host : Host) (x : Word) (h l : Nat) : Logged Nat Word := do
  let y ← shr x l
  let low ← shr (BitVec.allOnes 32) (h - l + 1)
  let mask ← shl host low (h - l + 1)
  pure (y &&& ~~~mask)

/-- A computation with this value, whose shifts are all defined. -/
abbrev Computes {α : Type} (m : Logged Nat α) (a : α) : Prop := Yields (· < 32) m a

section

variable (host : Host) (x : Word)

theorem computes_shr {n : Nat} (hn : n < 32) : Computes (shr x n) (x >>> n) := yields_emit hn

theorem computes_shl {n : Nat} (hn : n < 32) : Computes (shl host x n) (x <<< n) := by
  unfold shl
  rw [if_pos hn]
  exact yields_emit hn

theorem computes_getBit {i : Nat} (hi : i < 32) : Computes (getBit x i) (Armator.getBit x i) :=
  (computes_shr x hi).bind yields_pure

theorem computes_getBits {h l : Nat} (hl : l < 32 := by decide) (hh : h - l + 1 < 32 := by decide) :
    Computes (getBits host x h l) (Armator.getBits x h l) :=
  (computes_shr x hl).bind <| (computes_shr _ hh).bind <| (computes_shl host _ hh).bind yields_pure

end

/-! ## `shifter_values_calculator` -/

/-- The case of an immediate shift. -/
def immediateShift (host : Host) (Rm : Word) (FLAG_c : Byte) (ins : Word) :
    Logged Nat (Option ShifterValues) := do
  let shift_imm := (← getBits host ins 11 7).toNat
  match (← getBits host ins 6 4).toNat with
  | 0b000 =>
      if shift_imm = 0 then pure (some ⟨FLAG_c, Rm⟩)
      else do
        let operand ← shl host Rm shift_imm
        let carry ← getBit Rm (32 - shift_imm)
        pure (some ⟨carry.setWidth 8, operand⟩)
  | 0b010 =>
      if shift_imm = 0 then do
        let carry ← getBit Rm 31
        pure (some ⟨carry.setWidth 8, 0⟩)
      else do
        let operand ← shr Rm shift_imm
        let carry ← getBit Rm (shift_imm - 1)
        pure (some ⟨carry.setWidth 8, operand⟩)
  | 0b100 =>
      if shift_imm = 0 then do
        let sign ← getBit Rm 31
        let carry ← getBit Rm 31
        if sign = 0 then pure (some ⟨carry.setWidth 8, 0⟩)
        else pure (some ⟨carry.setWidth 8, (0xFFFFFFFF#32).setWidth 8 |>.setWidth 32⟩)
      else do
        let operand ← shr Rm shift_imm
        let carry ← getBit Rm (shift_imm - 1)
        pure (some ⟨carry.setWidth 8, operand⟩)
  | 0b110 =>
      if shift_imm = 0 then do
        let C ← shl host (FLAG_c.setWidth 32) 31
        let rest ← shr Rm 1
        let carry ← getBit Rm 0
        pure (some ⟨carry.setWidth 8, C ||| rest⟩)
      else do
        let shift_imm := shift_imm % 32
        let right ← shr Rm shift_imm
        let left ← shl host Rm (32 - shift_imm)
        let carry ← getBit Rm (shift_imm - 1)
        pure (some ⟨carry.setWidth 8, right ||| left⟩)
  | _ => pure none

theorem computes_immediateShift (host : Host) (Rm : Word) (FLAG_c : Byte) (ins : Word) :
    Computes (immediateShift host Rm FLAG_c ins) (Armator.immediateShift Rm FLAG_c ins) := by
  have hlt : (Armator.getBits ins 11 7).toNat < 32 := by
    rw [toNat_getBits]
    omega
  unfold immediateShift Armator.immediateShift
  refine (computes_getBits host ins).bind ((computes_getBits host ins).bind ?_)
  generalize (Armator.getBits ins 11 7).toNat = shift_imm at hlt ⊢
  generalize (Armator.getBits ins 6 4).toNat = t
  split
  · refine yields_ite (c := shift_imm = 0) (fun _ => yields_pure) fun h0 => ?_
    exact (computes_shl host Rm hlt).bind <| (computes_getBit Rm (by omega)).bind yields_pure
  · refine yields_ite (c := shift_imm = 0) (fun _ => ?_) fun h0 => ?_
    · exact (computes_getBit Rm (by decide)).bind yields_pure
    · exact (computes_shr Rm hlt).bind <| (computes_getBit Rm (by omega)).bind yields_pure
  · refine yields_ite (c := shift_imm = 0) (fun _ => ?_) fun h0 => ?_
    · refine (computes_getBit Rm (by decide)).bind <| (computes_getBit Rm (by decide)).bind ?_
      exact yields_ite (fun _ => yields_pure) fun _ => yields_pure
    · exact (computes_shr Rm hlt).bind <| (computes_getBit Rm (by omega)).bind yields_pure
  · refine yields_ite (c := shift_imm = 0) (fun _ => ?_) fun h0 => ?_
    · exact (computes_shl host _ (by decide)).bind <| (computes_shr Rm (by decide)).bind <|
        (computes_getBit Rm (by decide)).bind yields_pure
    · exact (computes_shr Rm (by omega)).bind <| (computes_shl host Rm (by omega)).bind <|
        (computes_getBit Rm (by omega)).bind yields_pure
  · try split
    all_goals first | contradiction | exact yields_pure

/-- The case of a shift by register. -/
def registerShift (host : Host) (Rm Rs : Word) (FLAG_c : Byte) (ins : Word) :
    Logged Nat (Option ShifterValues) := do
  let Rs7_0 := (← getBits host Rs 7 0).toNat
  match (← getBits host ins 7 4).toNat with
  | 0b0001 =>
      if Rs7_0 = 0 then pure (some ⟨FLAG_c, Rm⟩)
      else if Rs7_0 < 32 then do
        let operand ← shl host Rm Rs7_0
        let carry ← getBit Rm (32 - Rs7_0)
        pure (some ⟨carry.setWidth 8, operand⟩)
      else if Rs7_0 = 32 then do
        let carry ← getBit Rm 0
        pure (some ⟨carry.setWidth 8, Rm⟩)
      else pure (some ⟨0, 0⟩)
  | 0b0011 =>
      if Rs7_0 = 0 then pure (some ⟨FLAG_c, Rm⟩)
      else if Rs7_0 < 32 then do
        let operand ← shr Rm Rs7_0
        let carry ← getBit Rm (Rs7_0 - 1)
        pure (some ⟨carry.setWidth 8, operand⟩)
      else if Rs7_0 = 32 then do
        let carry ← getBit Rm 31
        pure (some ⟨carry.setWidth 8, 0⟩)
      else pure (some ⟨0, 0⟩)
  | 0b0101 =>
      if Rs7_0 = 0 then pure (some ⟨FLAG_c, Rm⟩)
      else if Rs7_0 < 32 then do
        let operand ← shr Rm Rs7_0
        let carry ← getBit Rm (Rs7_0 - 1)
        pure (some ⟨carry.setWidth 8, operand⟩)
      else do
        let sign ← getBit Rm 31
        let carry ← getBit Rm 31
        if sign = 0 then pure (some ⟨carry.setWidth 8, 0⟩)
        else pure (some ⟨carry.setWidth 8, 0xFFFFFFFF⟩)
  | 0b0111 => do
      let Rs4_0 := (← getBits host Rs 4 0).toNat
      if Rs7_0 = 0 then pure (some ⟨FLAG_c, Rm⟩)
      else if Rs4_0 = 0 then do
        let carry ← getBit Rm 31
        pure (some ⟨carry.setWidth 8, Rm⟩)
      else do
        let Rs4_0 := Rs4_0 % 32
        let right ← shr Rm Rs4_0
        let left ← shl host Rm (32 - Rs4_0)
        let carry ← getBit Rm (Rs4_0 - 1)
        pure (some ⟨carry.setWidth 8, right ||| left⟩)
  | _ => pure none

theorem computes_registerShift (host : Host) (Rm Rs : Word) (FLAG_c : Byte) (ins : Word) :
    Computes (registerShift host Rm Rs FLAG_c ins) (Armator.registerShift Rm Rs FLAG_c ins) := by
  have hrot : (Armator.getBits Rs 4 0).toNat < 32 := by
    rw [toNat_getBits]
    omega
  unfold registerShift Armator.registerShift
  refine (computes_getBits host Rs).bind ((computes_getBits host ins).bind ?_)
  generalize (Armator.getBits Rs 7 0).toNat = k
  generalize (Armator.getBits ins 7 4).toNat = t
  split
  · refine yields_ite (c := k = 0) (fun _ => yields_pure) fun h0 => ?_
    refine yields_ite (fun hk => ?_) fun _ => yields_ite (fun _ => ?_) fun _ => yields_pure
    · exact (computes_shl host Rm hk).bind <| (computes_getBit Rm (by omega)).bind yields_pure
    · exact (computes_getBit Rm (by decide)).bind yields_pure
  · refine yields_ite (c := k = 0) (fun _ => yields_pure) fun h0 => ?_
    refine yields_ite (fun hk => ?_) fun _ => yields_ite (fun _ => ?_) fun _ => yields_pure
    · exact (computes_shr Rm hk).bind <| (computes_getBit Rm (by omega)).bind yields_pure
    · exact (computes_getBit Rm (by decide)).bind yields_pure
  · refine yields_ite (c := k = 0) (fun _ => yields_pure) fun h0 => ?_
    refine yields_ite (fun hk => ?_) fun _ => ?_
    · exact (computes_shr Rm hk).bind <| (computes_getBit Rm (by omega)).bind yields_pure
    · refine (computes_getBit Rm (by decide)).bind <| (computes_getBit Rm (by decide)).bind ?_
      exact yields_ite (fun _ => yields_pure) fun _ => yields_pure
  · refine (computes_getBits host Rs).bind ?_
    generalize (Armator.getBits Rs 4 0).toNat = r at hrot ⊢
    refine yields_ite (c := k = 0) (fun _ => yields_pure) fun _ => ?_
    refine yields_ite (c := r = 0) (fun _ => ?_) fun hr => ?_
    · exact (computes_getBit Rm (by decide)).bind yields_pure
    · exact (computes_shr Rm (by omega)).bind <| (computes_shl host Rm (by omega)).bind <|
        (computes_getBit Rm (by omega)).bind yields_pure
  · try split
    all_goals first | contradiction | exact yields_pure

/-- The two assignments before the shift is decoded. -/
def firstAssignments (host : Host) (Rm : Word) (FLAG_c : Byte) (ins : Word) :
    Logged Nat Unit := do
  let _ ← getBits host ins 11 4
  let field ← getBits host ins 11 4
  if field = 0b00000110 then do
    let _ ← getBit Rm 0
    let _ ← shl host (FLAG_c.setWidth 32) 31
    let _ ← shr Rm 1
    pure ()
  else pure ()

theorem computes_firstAssignments (host : Host) (Rm : Word) (FLAG_c : Byte) (ins : Word) :
    Computes (firstAssignments host Rm FLAG_c ins) () := by
  refine (computes_getBits host ins).bind ((computes_getBits host ins).bind ?_)
  refine (yields_ite (fun _ => ?_) fun _ => yields_pure).congr (ite_self ())
  exact (computes_getBit Rm (by decide)).bind <| (computes_shl host _ (by decide)).bind <|
    (computes_shr Rm (by decide)).bind yields_pure

/-- `shifter_values_calculator` -/
def shifterValuesCalculator (host : Host) (p : ArmCore) (ins : Word) (FLAG_c : Byte) :
    Logged Nat (Option ShifterValues) := do
  let bit_4 ← getBit ins 4
  let Rm := armReadRegister p (regNum (← getBits host ins 3 0))
  firstAssignments host Rm FLAG_c ins
  if bit_4 = 0 then immediateShift host Rm FLAG_c ins
  else do
    let Rm := armReadRegister p (regNum (← getBits host ins 3 0))
    let Rs := armReadRegister p (regNum (← getBits host ins 11 8))
    registerShift host Rm Rs FLAG_c ins

theorem computes_shifterValuesCalculator (host : Host) (p : ArmCore) (ins : Word) (FLAG_c : Byte) :
    Computes (shifterValuesCalculator host p ins FLAG_c)
      (Armator.shifterValuesCalculator p ins FLAG_c) := by
  refine (computes_getBit ins (by decide)).bind ((computes_getBits host ins).bind ?_)
  refine (computes_firstAssignments ..).bind ?_
  refine yields_ite (fun _ => computes_immediateShift ..) fun _ => ?_
  exact (computes_getBits host ins).bind <| (computes_getBits host ins).bind <|
    computes_registerShift ..

/-! ## `shift_index_calculator` -/

/-- `shift_index_calculator` -/
def shiftIndexCalculator (host : Host) (Rm : Word) (shift_imm shift : Nat) (C_flag : Byte) :
    Logged Nat Word :=
  match shift with
  | 0b00 => shl host Rm shift_imm
  | 0b01 => if shift_imm = 0 then pure 0 else shr Rm shift_imm
  | 0b10 =>
      if shift_imm = 0 then do
        let sign ← getBit Rm 31
        pure (if sign = 1 then 0xFFFFFFFF else 0)
      else shr Rm shift_imm
  | 0b11 =>
      if shift_imm = 0 then do
        let C ← shr (C_flag.setWidth 32) 31
        let rest ← shr Rm 1
        pure (C ||| rest)
      else do
        let shift_imm := shift_imm % 32
        let right ← shr Rm shift_imm
        let left ← shl host Rm (32 - shift_imm)
        pure (right ||| left)
  | _ => pure 0

/-- A byte is shifted out by 31 places, promoted or not. -/
theorem promoted_byte_shr (b : Byte) : (b.setWidth 32 : Word) >>> 31 = (b >>> 31).setWidth 32 := by
  refine BitVec.eq_of_getLsbD_eq ?_
  intro j hj
  rw [BitVec.getLsbD_ushiftRight, BitVec.getLsbD_setWidth, BitVec.getLsbD_setWidth,
    BitVec.getLsbD_ushiftRight, BitVec.getLsbD_of_ge b (31 + j) (by omega), Bool.and_false,
    Bool.and_false]

theorem computes_shiftIndexCalculator (host : Host) (Rm : Word) {shift_imm : Nat} (shift : Nat)
    (C_flag : Byte) (hlt : shift_imm < 32) :
    Computes (shiftIndexCalculator host Rm shift_imm shift C_flag)
      (Armator.shiftIndexCalculator Rm shift_imm shift C_flag) := by
  unfold shiftIndexCalculator Armator.shiftIndexCalculator
  split
  · exact computes_shl host Rm hlt
  · exact yields_ite (fun _ => yields_pure) fun _ => computes_shr Rm hlt
  · refine yields_ite (fun _ => ?_) fun _ => computes_shr Rm hlt
    exact (computes_getBit Rm (by decide)).bind yields_pure
  · refine yields_ite (c := shift_imm = 0) (fun _ => ?_) fun h0 => ?_
    · rw [← promoted_byte_shr]
      exact (computes_shr _ (by decide)).bind <| (computes_shr Rm (by decide)).bind yields_pure
    · exact (computes_shr Rm (by omega)).bind <| (computes_shl host Rm (by omega)).bind yields_pure
  · try split
    all_goals first | contradiction | exact yields_pure

/-- `calculate_address`, which calls it for a scaled register. -/
def calculateAddress (host : Host) (p : ArmCore) (ins : Word) : Logged Nat (Word × ArmCore) :=
  let Rn := armReadRegister p (bitsRn ins)
  if Armator.getBit ins 25 ≠ 0 ∧ Armator.getBits ins 11 4 ≠ 0 then do
    let Rm := armReadRegister p (regNum (← getBits host ins 3 0))
    let shift_imm := (← getBits host ins 11 7).toNat
    let shift := (← getBits host ins 6 5).toNat
    let C_flag : Byte := (← getBit (armReadCpsr p) 29).setWidth 8
    let index ← shiftIndexCalculator host Rm shift_imm shift C_flag
    pure ((indexAddress p ins Rn index).getD (-1, p))
  else pure (Armator.calculateAddress p ins)

theorem computes_calculateAddress (host : Host) (p : ArmCore) (ins : Word) :
    Computes (calculateAddress host p ins) (Armator.calculateAddress p ins) := by
  have hlt : (Armator.getBits ins 11 7).toNat < 32 := by
    rw [toNat_getBits]
    omega
  unfold calculateAddress
  by_cases hc : Armator.getBit ins 25 ≠ 0 ∧ Armator.getBits ins 11 4 ≠ 0
  · have hvalue : Armator.calculateAddress p ins = (indexAddress p ins
        (armReadRegister p (bitsRn ins)) (Armator.shiftIndexCalculator
          (armReadRegister p (regNum (Armator.getBits ins 3 0))) (Armator.getBits ins 11 7).toNat
          (Armator.getBits ins 6 5).toNat (flagC p))).getD (-1, p) := by
      rw [calculateAddress_index, mode2Offset, if_neg hc.1, if_neg hc.2]
    rw [hvalue]
    simp only [if_pos hc]
    exact (computes_getBits host ins).bind <| (computes_getBits host ins).bind <|
      (computes_getBits host ins).bind <| (computes_getBit _ (by decide)).bind <|
        (computes_shiftIndexCalculator host _ _ _ hlt).bind yields_pure
  · simp only [if_neg hc]
    exact yields_pure

/-! ## The step -/

/-- `arm_data_processing_shift` -/
def armDataProcessingShift (host : Host) (p : ArmCore) (ins : Word) : Logged Nat Outcome := do
  let sv ← shifterValuesCalculator host p ins (flagC p)
  match sv with
  | none => pure (.error .nullPointer)
  | some sv =>
      pure (.ok (shiftSwitch p (Armator.getBits ins 24 21).toNat (Armator.getBit ins 20)
        (regNum (Armator.getBits ins 15 12))
        (armReadRegister p (regNum (Armator.getBits ins 19 16)))
        (armReadRegister p (regNum (Armator.getBits ins 15 12))) (armReadCpsr p) (flagC p) sv))

/-- `arm_data_processing_immediate_msr` -/
def armDataProcessingImmediateMsr (host : Host) (p : ArmCore) (ins : Word) :
    Logged Nat Outcome := do
  let rotate_imm := (← getBits host ins 11 8).toNat
  let immed_8 ← getBits host ins 7 0
  let cpsr_val := armReadCpsr p
  let FLAG_c : Byte := (← getBit cpsr_val 29).setWidth 8
  let right ← shr immed_8 (rotate_imm * 2)
  let left ← shl host immed_8 (32 - rotate_imm * 2)
  let shifter_operand := right ||| left
  let shifter_carry_out : Byte ←
    if rotate_imm = 0 then pure FLAG_c
    else do
      let carry ← getBit shifter_operand 31
      pure (carry.setWidth 8)
  pure (.ok (immediateSwitch p (Armator.getBits ins 24 21).toNat (Armator.getBit ins 20)
    (regNum (Armator.getBits ins 15 12)) (armReadRegister p (regNum (Armator.getBits ins 19 16)))
    (armReadRegister p (regNum (Armator.getBits ins 15 12))) cpsr_val FLAG_c
    shifter_operand shifter_carry_out))

/-- `arm_load_store` -/
def armLoadStore (host : Host) (p : ArmCore) (ins : Word) : Logged Nat Outcome := do
  let (address, p) ← calculateAddress host p ins
  if address = -1 then pure (.ok (UNDEFINED_INSTRUCTION, p))
  else
    let Rd_num := regNum (Armator.getBits ins 15 12)
    if Armator.getBit ins 26 ≠ 0 then pure (.ok (loadStoreMode2 host p ins address Rd_num))
    else
      let (address, p) := calculateAddressMode3 host p ins
      pure (.ok (loadStoreMode3 host p ins address Rd_num))

/-- The handler of a class; the others call none of the three functions. -/
def handler (host : Host) (p : ArmCore) (ins : Word) : InsClass → Logged Nat Outcome
  | .dpShift => armDataProcessingShift host p ins
  | .dpImmediate => armDataProcessingImmediateMsr host p ins
  | .loadStore => armLoadStore host p ins
  | c => pure (Armator.handler host p ins c)

/-- `arm_step` -/
def armStep (host : Host) (p : ArmCore) : Logged Nat Outcome := do
  let (res, p, ins) := armFetch host p (host.garbage .ins)
  let outcome ←
    if res ≠ 0 then pure (.ok (-1, p))
    else if armCondition p ins then handler host p ins (insClass ins)
    else pure (.ok (0, p))
  pure (raise host outcome)

theorem computes_armDataProcessingShift (host : Host) (p : ArmCore) (ins : Word) :
    Computes (armDataProcessingShift host p ins) (Armator.armDataProcessingShift p ins) := by
  have hrun : Armator.armDataProcessingShift p ins =
      match Armator.shifterValuesCalculator p ins (flagC p) with
      | none => .error .nullPointer
      | some sv => .ok (shiftSwitch p (Armator.getBits ins 24 21).toNat (Armator.getBit ins 20)
        (regNum (Armator.getBits ins 15 12))
        (armReadRegister p (regNum (Armator.getBits ins 19 16)))
        (armReadRegister p (regNum (Armator.getBits ins 15 12))) (armReadCpsr p) (flagC p) sv) :=
    rfl
  rw [hrun]
  refine (computes_shifterValuesCalculator host p ins (flagC p)).bind ?_
  cases Armator.shifterValuesCalculator p ins (flagC p) <;> exact yields_pure

theorem computes_armLoadStore (host : Host) (p : ArmCore) (ins : Word) :
    Computes (armLoadStore host p ins) (.ok (Armator.armLoadStore host p ins)) := by
  unfold armLoadStore Armator.armLoadStore
  refine (computes_calculateAddress host p ins).bind ?_
  rcases Armator.calculateAddress p ins with ⟨address, p₁⟩
  simp only
  split_ifs <;> exact yields_pure

/-- Rotated by two places or more. -/
theorem computes_armDataProcessingImmediateMsr (host : Host) (p : ArmCore) {ins : Word}
    (hr : (Armator.getBits ins 11 8).toNat ≠ 0) :
    Computes (armDataProcessingImmediateMsr host p ins)
      (.ok (Armator.armDataProcessingImmediateMsr host p ins)) := by
  have hlt : (Armator.getBits ins 11 8).toNat < 16 := by
    rw [toNat_getBits]
    omega
  have hoperand : immediateOperand host ins
      = (Armator.getBits ins 7 0 >>> ((Armator.getBits ins 11 8).toNat * 2)) |||
        (Armator.getBits ins 7 0 <<< (32 - (Armator.getBits ins 11 8).toNat * 2)) := by
    simp only [immediateOperand, if_neg hr]
  unfold armDataProcessingImmediateMsr Armator.armDataProcessingImmediateMsr immediateCarryOut
  simp only [hoperand, if_neg hr]
  refine (computes_getBits host ins).bind <| (computes_getBits host ins).bind ?_
  refine (computes_getBit _ (by decide)).bind <| (computes_shr _ (by omega)).bind ?_
  refine (computes_shl host _ (by omega)).bind ?_
  rw [if_neg hr]
  exact ((computes_getBit _ (by decide)).bind yields_pure).bind yields_pure

/-- Not rotated: the left shift has a count of 32. -/
theorem unrotated_armDataProcessingImmediateMsr (host : Host) (p : ArmCore) {ins : Word}
    (hr : (Armator.getBits ins 11 8).toNat = 0) :
    value (armDataProcessingImmediateMsr host p ins)
        = .ok (Armator.armDataProcessingImmediateMsr host p ins) ∧
      32 ∈ log (armDataProcessingImmediateMsr host p ins) := by
  have hfield := (computes_getBits host ins (h := 11) (l := 8)).value
  have himmed := (computes_getBits host ins (h := 7) (l := 0)).value
  constructor
  · unfold armDataProcessingImmediateMsr Armator.armDataProcessingImmediateMsr immediateCarryOut
      immediateOperand
    simp only [value_bind, hfield, himmed, hr, if_pos]
    rfl
  · unfold armDataProcessingImmediateMsr
    -- past the two fields, C and the right shift
    rw [mem_log_bind, mem_log_bind, mem_log_bind, mem_log_bind, mem_log_bind, hfield, hr]
    exact Or.inr <| Or.inr <| Or.inr <| Or.inr <| Or.inl <| List.mem_singleton.mpr rfl

/-- An immediate that is not rotated. -/
def Unrotated (ins : Word) : Prop :=
  insClass ins = .dpImmediate ∧ (Armator.getBits ins 11 8).toNat = 0

theorem computes_handler (host : Host) (p : ArmCore) {ins : Word} (hu : ¬ Unrotated ins) :
    Computes (handler host p ins (insClass ins)) (dispatch host p ins) := by
  rw [dispatch_eq]
  cases hc : insClass ins with
  | dpShift => exact computes_armDataProcessingShift host p ins
  | dpImmediate => exact computes_armDataProcessingImmediateMsr host p fun hr => hu ⟨hc, hr⟩
  | loadStore => exact computes_armLoadStore host p ins
  | miscellaneous => exact yields_pure
  | loadStoreMultiple => exact yields_pure
  | branch => exact yields_pure
  | coprocessorLoadStore => exact yields_pure
  | othersSwi => exact yields_pure

theorem unrotated_handler (host : Host) (p : ArmCore) {ins : Word} (hu : Unrotated ins) :
    value (handler host p ins (insClass ins)) = dispatch host p ins ∧
      32 ∈ log (handler host p ins (insClass ins)) := by
  rw [dispatch_eq, hu.1]
  exact unrotated_armDataProcessingImmediateMsr host p hu.2

/-- A step that fails to fetch or skips evaluates no shift. -/
theorem armStep_eq (host : Host) (p : ArmCore) :
    armStep host p = (do
      let outcome ←
        if (fetchRead host p).1 ≠ 0 then pure (.ok (-1, fetched p))
        else if armCondition (fetched p) (fetchRead host p).2 then
          handler host (fetched p) (fetchRead host p).2 (insClass (fetchRead host p).2)
        else pure (.ok (0, fetched p))
      pure (raise host outcome)) := by
  simp only [armStep, armFetch_eq]

end Counted

/-- Counting the shifts of a step does not change it, and all of them are
defined exactly when the step does not execute an unrotated immediate. -/
theorem shift_counts_iff (h : Host) (p : ArmCore) :
    value (Counted.armStep h p) = armStep h p ∧
    ((∀ n ∈ log (Counted.armStep h p), n ≤ 31) ↔
      ∀ ins, Executes h p ins → ¬ Counted.Unrotated ins) := by
  rw [Counted.armStep_eq, armStep_eq]
  by_cases hr : (fetchRead h p).1 ≠ 0
  · rw [if_pos hr, if_pos hr]
    refine ⟨rfl, iff_of_true (List.forall_mem_nil _) fun ins hx => ?_⟩
    exact absurd (congrArg Prod.fst hx.1) hr
  rw [if_neg hr, if_neg hr]
  by_cases hc : armCondition (fetched p) (fetchRead h p).2 = true
  · rw [if_pos hc, if_pos hc]
    have hx : Executes h p (fetchRead h p).2 := ⟨Prod.ext (not_not.mp hr) rfl, hc⟩
    by_cases hu : Counted.Unrotated (fetchRead h p).2
    · obtain ⟨hvalue, hmem⟩ := Counted.unrotated_handler h (fetched p) hu
      refine ⟨congrArg (raise h) hvalue, iff_of_false (fun hall => ?_) fun hall => hall _ hx hu⟩
      exact absurd (hall 32 ((mem_log_bind ..).mpr (Or.inl hmem))) (by decide)
    · have hcomputes := Counted.computes_handler h (fetched p) hu
      refine ⟨congrArg (raise h) hcomputes.value, iff_of_true (fun n hn => ?_) fun ins hx' => ?_⟩
      · exact Nat.le_of_lt_succ ((hcomputes.bind yields_pure).log n hn)
      · have hins : (fetchRead h p).2 = ins := congrArg Prod.snd hx'.1
        exact hins ▸ hu
  · rw [if_neg hc, if_neg hc]
    refine ⟨rfl, iff_of_true (List.forall_mem_nil _) fun ins hx => ?_⟩
    exact absurd (congrArg Prod.snd hx.1 ▸ hx.2) hc

/-- `MOV r0, #1` -/
theorem shift_counts_astray :
    Executes x86Host (booted 16 [0xE3A00001]) 0xE3A00001 ∧
    32 ∈ log (Counted.armStep x86Host (booted 16 [0xE3A00001])) :=
  ⟨⟨by decide +kernel, by decide +kernel⟩, by decide +kernel⟩

end Armator
