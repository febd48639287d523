/-
The transfers of addressing mode 3.

STRH, LDRH, LDRSB and LDRSH share an encoding space with the status
register moves, and `arm_load_store` computes their address twice.  Both
show.  With P set and W clear the second address is the right one and the
transfer does its work, unless the word is a store with U clear, which the
dispatch takes for MRS, or its first address, read from the offset field of
a word transfer, is the error value -1 (`mode3_offset_iff`).  With writeback
the base is moved by both offsets (`armLoadStore_base`), and the first is
never 0: no such transfer leaves the base it should (`mode3_writeback_never`).
-/
import Armator.DataAccess
import Armator.Opcode
import Armator.Lib.WordArith

namespace Armator

open WordArith

/-! ## The four transfers -/

inductive Mode3Transfer where
  | strh | ldrh | ldrsb | ldrsh
deriving DecidableEq, Repr

namespace Mode3Transfer

/-- Bit 20 of the word. -/
def L : Mode3Transfer → Word
  | strh => 0
  | _ => 1

/-- Bits 7 to 4 of the word. -/
def code : Mode3Transfer → Word
  | strh | ldrh => 0b1011
  | ldrsb => 0b1101
  | ldrsh => 0b1111

/-- How many bytes it moves. -/
def width : Mode3Transfer → Nat
  | ldrsb => 1
  | _ => 2

/-- What a load finds in the memory for `Rd`; a store finds nothing. -/
def loaded (mem : Memory) (be : Byte) (address : Word) : Mode3Transfer → Option Word
  | strh => none
  | ldrh => some ((mem.halfAt be address).setWidth 32)
  | ldrsb => some ((mem.byteAt address).signExtend 32)
  | ldrsh => some ((mem.halfAt be address).signExtend 32)

end Mode3Transfer

/-- A word that encodes the transfer `t`. -/
structure IsMode3 (t : Mode3Transfer) (ins : Word) : Prop where
  space : getBits ins 27 25 = 0b000
  L : bitL ins = t.L
  code : getBits ins 7 4 = t.code

/-- The offset of such a word: eight bits in two fields, or a register. -/
def splitOffset (p : ArmCore) (ins : Word) : Word :=
  if getBit ins 22 = 1 then
    BitVec.ofNat 32 (16 * (getBits ins 11 8).toNat + (getBits ins 3 0).toNat)
  else armReadRegister p (regNum (getBits ins 3 0))

/-- `mem'` is `mem` with a half-word stored at an address. -/
structure HalfStored (be : Byte) (address : Word) (half : Half) (mem mem' : Memory) : Prop where
  size : mem'.size = mem.size
  half : mem'.halfAt be address = half
  bytes : ∀ b, b ∉ bytesFrom address 2 → mem'.byteAt b = mem.byteAt b

/-- Between `p` and `p'` the word has made its access at an address: a load
has put what it found there into `Rd`, a store the low half of `Rd` there. -/
def Mode3Transfer.Accesses (t : Mode3Transfer) (h : Host) (ins address : Word)
    (p p' : ArmCore) : Prop :=
  match t.loaded p.mem h.endianess address with
  | some value => armReadRegister p' (rdNum ins) = value ∧ p'.mem = p.mem
  | none => HalfStored h.endianess address ((rdValue p ins).setWidth 16) p.mem p'.mem

/-- The access, and no other change. -/
structure Mode3Transfer.Transfers (t : Mode3Transfer) (h : Host) (ins address : Word)
    (p p' : ArmCore) : Prop where
  access : t.Accesses h ins address p p'
  registers : ∀ k : Fin 37, (t ≠ .strh → k ≠ slot (rdNum ins) (registersGetMode p.reg)) →
    p'.reg k = p.reg k
  stdout : p'.stdout = p.stdout
  cycleCount : p'.cycleCount = p.cycleCount

/-! ## What the code computes, in these terms -/

theorem signExtend8to32_eq (value : Byte) : signExtend8to32 value = value.signExtend 32 := by
  have hsign : value &&& 0x80 ≠ 0 ↔ value.msb = true :=
    and_twoPow_ne_zero_iff (w := 8) (by decide) value
  rw [signExtend8to32, if_congr hsign rfl rfl]
  exact signExtend_eq_or value (by decide)

theorem signExtend16to32_eq (value : Half) : signExtend16to32 value = value.signExtend 32 := by
  have hsign : value &&& 0x8000 ≠ 0 ↔ value.msb = true :=
    and_twoPow_ne_zero_iff (w := 16) (by decide) value
  rw [signExtend16to32, if_congr hsign rfl rfl]
  exact signExtend_eq_or value (by decide)

theorem low_half (x : Word) : (getBits x 15 0).setWidth 16 = x.setWidth 16 := by
  refine BitVec.eq_of_getLsbD_eq ?_
  intro j hj
  rw [BitVec.getLsbD_setWidth, BitVec.getLsbD_setWidth, getLsbD_getBits, Nat.zero_add,
    decide_eq_true (show j < 15 - 0 + 1 from hj), Bool.true_and]

theorem mode3Offset_eq (p : ArmCore) (ins : Word) : mode3Offset p ins = splitOffset p ins := by
  unfold mode3Offset splitOffset
  rw [if_congr (getBit_ne_zero_iff ins 22) ?_ rfl]
  have hH : (getBits ins 11 8).toNat < 16 := by
    rw [toNat_getBits]
    omega
  have hL : (getBits ins 3 0).toNat < 16 := by
    rw [toNat_getBits]
    omega
  refine BitVec.eq_of_toNat_eq ?_
  rw [BitVec.toNat_setWidth, BitVec.toNat_or, BitVec.toNat_shiftLeft, BitVec.toNat_setWidth,
    BitVec.toNat_setWidth, BitVec.toNat_ofNat, Nat.mod_eq_of_lt (show _ < 2 ^ 8 by omega),
    Nat.mod_eq_of_lt (show (getBits ins 3 0).toNat < 2 ^ 8 by omega), Nat.shiftLeft_eq,
    Nat.mod_eq_of_lt (show _ < 2 ^ 8 by omega)]
  have hor := Nat.two_pow_add_eq_or_of_lt (i := 4) hL (getBits ins 11 8).toNat
  rw [Nat.mul_comm, ← hor]

section

variable {t : Mode3Transfer} {ins : Word}

theorem loaded_eq_none_iff {mem : Memory} {be : Byte} {address : Word} :
    t.loaded mem be address = none ↔ t = .strh := by
  cases t with
  | strh => exact iff_of_true rfl rfl
  | ldrh | ldrsb | ldrsh => exact iff_of_false nofun nofun

theorem loadStoreMode3_load (h : Host) (p : ArmCore) (hi : IsMode3 t ins) (hRd : rdNum ins ≠ 15)
    {address value : Word} (hin : p.mem.InRange address t.width)
    (hv : t.loaded p.mem h.endianess address = some value) :
    loadStoreMode3 h p ins address (rdNum ins) = (0, armWriteRegister p (rdNum ins) value) := by
  have hcode : (getBits ins 7 4).toNat = t.code.toNat := congrArg BitVec.toNat hi.code
  have hL : t ≠ .strh → bitL ins ≠ 0 := by
    intro ht
    rw [hi.L]
    cases t with
    | strh => exact absurd rfl ht
    | ldrh | ldrsb | ldrsh => decide
  unfold loadStoreMode3
  cases t with
  | strh => cases hv
  | ldrh =>
      obtain rfl := Option.some.inj hv
      rw [if_neg (hL nofun), hcode]
      simp only [Mode3Transfer.code, if_neg hRd, armReadHalf, memoryReadHalf_eq _ _ _ _ hin]
      rfl
  | ldrsb =>
      obtain rfl := Option.some.inj hv
      rw [if_neg (hL nofun), hcode]
      simp only [Mode3Transfer.code, if_neg hRd, armReadByte,
        memoryReadByte_of_lt _ (hin.lt_zero Nat.one_pos), signExtend8to32_eq]
      rfl
  | ldrsh =>
      obtain rfl := Option.some.inj hv
      rw [if_neg (hL nofun), hcode]
      simp only [Mode3Transfer.code, if_neg hRd, armReadHalf, memoryReadHalf_eq _ _ _ _ hin,
        signExtend16to32_eq]
      rfl

theorem loadStoreMode3_store (h : Host) (p : ArmCore) (hL : bitL ins = 0) (hRd : rdNum ins ≠ 15)
    (address : Word) :
    loadStoreMode3 h p ins address (rdNum ins)
      = (0, (armWriteHalf h p address ((rdValue p ins).setWidth 16)).2) := by
  rw [loadStoreMode3, if_pos hL, if_neg hRd, low_half]

/-- Inside the memory, the transfer does its work. -/
theorem transfers_loadStoreMode3 (h : Host) (p : ArmCore) (hi : IsMode3 t ins)
    (hRd : rdNum ins ≠ 15) {address : Word} (hin : p.mem.InRange address t.width) :
    ∃ p', loadStoreMode3 h p ins address (rdNum ins) = (0, p') ∧
      t.Transfers h ins address p p' := by
  cases hv : t.loaded p.mem h.endianess address with
  | some value =>
      have ht : t ≠ .strh := by
        intro ht
        rw [loaded_eq_none_iff.mpr ht] at hv
        cases hv
      refine ⟨_, loadStoreMode3_load h p hi hRd hin hv, ?_, ?_, rfl, rfl⟩
      · rw [Mode3Transfer.Accesses, hv]
        exact ⟨armReadRegister_write_self _ _ hRd, rfl⟩
      · intro k hk
        rw [armWriteRegister_reg, Function.update_of_ne (hk ht)]
  | none =>
      obtain rfl := loaded_eq_none_iff.mp hv
      refine ⟨_, loadStoreMode3_store h p hi.L hRd address, ?_, fun _ _ => rfl, rfl, rfl⟩
      rw [Mode3Transfer.Accesses, hv]
      exact ⟨memoryWriteBytes_size (n := 2) .., halfAt_memoryWriteHalf _ _ _ hin,
        fun b hb => memoryWriteBytes_byteAt_of_notMem (n := 2) _ _ _ _ hb⟩

end

/-! ## Offset addressing -/

/-- The status register an MRS reads. -/
def statusWord (p : ArmCore) (ins : Word) : Word :=
  if getBit ins 22 ≠ 0 then armReadSpsr p else armReadCpsr p

/-- The base and the offset: the address with P set. -/
def offsetAddress (p : ArmCore) (ins : Word) : Word :=
  offsetBase ins (rnValue p ins) (splitOffset p ins)

/-- When a word with P set and W clear does its transfer.  A store with U
clear is run as MRS: then `Rd` must hold the status already, and the memory
the half-word.  Any other word must not have -1 for its first address. -/
def OffsetWorks (t : Mode3Transfer) (h : Host) (p : ArmCore) (ins : Word) : Prop :=
  if t = .strh ∧ bitU ins = 0 then
    rdValue p ins = statusWord p ins ∧
      p.mem.halfAt h.endianess (offsetAddress p ins) = (rdValue p ins).setWidth 16
  else offsetBase ins (rnValue p ins) (getBits ins 11 0) ≠ -1

section

variable {t : Mode3Transfer} {ins : Word}

/-- Every other word reaches `arm_load_store`. -/
theorem IsMode3.insClass (hi : IsMode3 t ins)
    (hm : ¬ (t = .strh ∧ bitU ins = 0)) : insClass ins = .loadStore := by
  have h7 : getBit ins 7 = 1 := by
    have hf : getBit ins 7 = getBit t.code 3 := getBit_of_field hi.code
    rw [hf]
    cases t <;> decide
  have h4 : getBit ins 4 = 1 := by
    have hf : getBit ins 4 = getBit t.code 0 := getBit_of_field hi.code
    rw [hf]
    cases t <;> decide
  refine insClass_loadStore hi.space ?_ h7 h4
  rintro ⟨-, hU, hL⟩
  refine hm ⟨?_, hU⟩
  have hL' : t.L = 0 := hi.L.symm.trans hL
  cases t with
  | strh => rfl
  | ldrh | ldrsb | ldrsh => exact absurd hL' (by decide)

theorem armMiscellaneous_mrs (p : ArmCore) (h27 : getBits ins 27 23 = 0b00010)
    (h21 : getBits ins 21 20 = 0) (hRd : rdNum ins ≠ 15) :
    armMiscellaneous p ins = (0, armWriteRegister p (rdNum ins) (statusWord p ins)) := by
  rw [armMiscellaneous, if_pos ⟨h27, h21⟩]
  simp only [if_neg hRd]
  rfl

/-- The fields an MRS is told by. -/
theorem mrs_fields (h25 : getBits ins 27 25 = 0b000) (h24 : getBit ins 24 = 1)
    (h23 : getBit ins 23 = 0) (h21 : getBit ins 21 = 0) (h20 : getBit ins 20 = 0) :
    getBits ins 27 23 = 0b00010 ∧ getBits ins 21 20 = 0 := by
  rw [getBits_eq_iff] at h25
  rw [getBit_eq_one_iff] at h24
  rw [getBit_eq_zero_iff] at h23 h21 h20
  have h25' : ins.toNat / 2 ^ 25 % 8 = 0 := h25
  constructor
  · refine (getBits_eq_iff ..).mpr (show ins.toNat / 2 ^ 23 % 2 ^ (27 - 23 + 1) = 2 from ?_)
    omega
  · refine (getBits_eq_iff ..).mpr (show ins.toNat / 2 ^ 20 % 2 ^ (21 - 20 + 1) = 0 from ?_)
    omega

/-- A store with P set and U clear sets `Rd` to a status register. -/
theorem IsMode3.dispatch_store (hi : IsMode3 .strh ins) (hP : bitP ins = 1) (hU : bitU ins = 0)
    (hW : bitW ins = 0) (hRd : rdNum ins ≠ 15) (h : Host) (p : ArmCore) :
    dispatch h p ins = .ok (0, armWriteRegister p (rdNum ins) (statusWord p ins)) := by
  obtain ⟨h27, h21⟩ := mrs_fields hi.space hP hU hW hi.L
  rw [dispatch_eq, insClass_miscellaneous hi.space hP hU hi.L, handler,
    armMiscellaneous_mrs p h27 h21 hRd]

/-- The register of `Rd` written, the store has been done only where it had
nothing to change. -/
theorem transfers_strh_write_iff (h : Host) (p : ArmCore) (hRd : rdNum ins ≠ 15)
    (address value : Word) :
    Mode3Transfer.strh.Transfers h ins address p (armWriteRegister p (rdNum ins) value) ↔
      rdValue p ins = value ∧ p.mem.halfAt h.endianess address = (rdValue p ins).setWidth 16 := by
  constructor
  · rintro ⟨haccess, hreg, -, -⟩
    refine ⟨?_, haccess.half⟩
    have hk := hreg (slot (rdNum ins) (registersGetMode p.reg)) fun hne => absurd rfl hne
    rw [armWriteRegister_reg, Function.update_self] at hk
    exact (armReadRegister_of_ne_pc hRd).trans hk.symm
  · rintro ⟨hv, hhalf⟩
    refine ⟨⟨rfl, hhalf, fun _ _ => rfl⟩, ?_, rfl, rfl⟩
    intro k _
    rw [armWriteRegister_reg, ← hv, rdValue, armReadRegister_of_ne_pc hRd,
      Function.update_eq_self]

theorem IsMode3.mode2Offset_eq (hi : IsMode3 t ins) (p : ArmCore) :
    mode2Offset p ins = getBits ins 11 0 := by
  have h25 : getBit ins 25 = 0 := getBit_of_field hi.space
  exact if_pos h25

/-- Nothing is written back, and the second address is the right one. -/
theorem IsMode3.armLoadStore_offset (hi : IsMode3 t ins) (hP : bitP ins = 1) (hW : bitW ins = 0)
    (h : Host) (p : ArmCore) :
    armLoadStore h p ins =
      if offsetBase ins (rnValue p ins) (getBits ins 11 0) = -1 then (UNDEFINED_INSTRUCTION, p)
      else loadStoreMode3 h p ins (offsetAddress p ins) (rdNum ins) := by
  have hP0 : bitP ins ≠ 0 := (getBit_ne_zero_iff ..).mpr hP
  have hb : bitP ins ≠ bitW ins := by
    rw [hW]
    exact hP0
  have h26 : getBit ins 26 = 0 := getBit_of_field hi.space
  have h2 : mode2State p ins = p := if_neg hb
  have h3 : mode3State p ins = p := if_neg hb
  have ha2 : mode2Address p ins = offsetBase ins (rnValue p ins) (getBits ins 11 0) := by
    rw [mode2Address, hi.mode2Offset_eq, indexed, if_pos hP0]
    rfl
  have ha3 : mode3Address p ins = offsetAddress p ins := by
    rw [mode3Address, mode3Offset_eq, indexed, if_pos hP0]
    rfl
  rw [armLoadStore_eq h p fun hu => hP0 hu.1, h2, h3, ha2, ha3, if_neg (not_not.mpr h26)]

/-- STRH, LDRH, LDRSB and LDRSH with an offset, of an access inside the
memory: the step returns 0 and does the transfer, and nothing else, exactly
when `OffsetWorks`. -/
theorem mode3_offset_iff (h : Host) (p : ArmCore) (hx : Executes h p ins) (hi : IsMode3 t ins)
    (hP : bitP ins = 1) (hW : bitW ins = 0) (hRd : rdNum ins ≠ 15)
    (hin : p.mem.InRange (offsetAddress (fetched p) ins) t.width) :
    ∃ r p', armStep h p = .ok (r, p') ∧
      (r = 0 ∧ t.Transfers h ins (offsetAddress (fetched p) ins) (fetched p) p' ↔
        OffsetWorks t h (fetched p) ins) := by
  unfold OffsetWorks
  by_cases hm : t = .strh ∧ bitU ins = 0
  · obtain ⟨rfl, hU⟩ := hm
    refine ⟨0, _, by rw [armStep_of_executes hx, hi.dispatch_store hP hU hW hRd, raise_zero], ?_⟩
    rw [if_pos ⟨rfl, hU⟩, transfers_strh_write_iff h _ hRd]
    exact and_iff_right rfl
  · have hstep : armStep h p = raise h (.ok (armLoadStore h (fetched p) ins)) := by
      rw [armStep_of_executes hx, dispatch_eq, hi.insClass hm, handler]
    rw [if_neg hm]
    rw [hi.armLoadStore_offset hP hW] at hstep
    by_cases ha : offsetBase ins (rnValue (fetched p) ins) (getBits ins 11 0) = -1
    · rw [if_pos ha, raise_undefined] at hstep
      refine ⟨_, _, hstep, iff_of_false (fun hr => ?_) (fun hne => hne ha)⟩
      exact absurd hr.1 (by decide)
    · obtain ⟨p', hrun, htransfers⟩ := transfers_loadStoreMode3 h (fetched p) hi hRd hin
      rw [if_neg ha, hrun, raise_zero] at hstep
      exact ⟨0, p', hstep, iff_of_true ⟨rfl, htransfers⟩ ha⟩

end

/-- `LDRSB r0, [r1, #-2]`, with 6 in r1. -/
def loadingSigned : ArmCore := armWriteRegister (booted 16 [0xE15100D2]) 1 6

theorem mode3_offset_iff_loadingSigned :
    ∃ r p', armStep x86Host loadingSigned = .ok (r, p') ∧
      (r = 0 ∧ Mode3Transfer.ldrsb.Transfers x86Host 0xE15100D2
          (offsetAddress (fetched loadingSigned) 0xE15100D2) (fetched loadingSigned) p' ↔
        OffsetWorks .ldrsb x86Host (fetched loadingSigned) 0xE15100D2) :=
  mode3_offset_iff x86Host loadingSigned ⟨by decide +kernel, by decide +kernel⟩
    ⟨by decide, by decide, by decide⟩ (by decide) (by decide) (by decide) (by decide +kernel)

/-- `STRH r0, [r1, #-2]`, with 0x1234 in r0 and 6 in r1. -/
def storingBelow : ArmCore :=
  writeRegisters (booted 16 [0xE14100B2]) [(0, 0x1234), (1, 6)]

/-- `LDRSB r0, [r1, #-2]` in a memory of 256 bytes, with 209 in r1: taken as
one number the offset fields are 210. -/
def loadingSentinel : ArmCore := armWriteRegister (booted 256 [0xE15100D2]) 1 209

/-- The store is run as MRS, and the load is refused. -/
theorem mode3_offset_goes_astray :
    (Executes x86Host storingBelow 0xE14100B2 ∧ IsMode3 .strh 0xE14100B2 ∧
      offsetAddress (fetched storingBelow) 0xE14100B2 = 4 ∧
      ∃ p', armStep x86Host storingBelow = .ok (0, p') ∧
        ¬ Mode3Transfer.strh.Transfers x86Host 0xE14100B2 4 (fetched storingBelow) p') ∧
    (Executes x86Host loadingSentinel 0xE15100D2 ∧ IsMode3 .ldrsb 0xE15100D2 ∧
      offsetAddress (fetched loadingSentinel) 0xE15100D2 = 207 ∧
      armStep x86Host loadingSentinel = .ok (UNDEFINED_INSTRUCTION, fetched loadingSentinel)) := by
  refine ⟨⟨⟨by decide +kernel, by decide +kernel⟩, ⟨by decide, by decide, by decide⟩,
    by decide +kernel, _, rfl, ?_⟩, ⟨by decide +kernel, by decide +kernel⟩,
    ⟨by decide, by decide, by decide⟩, by decide +kernel, ?_⟩
  · intro htransfers
    exact absurd (htransfers.registers 0 fun hne => absurd rfl hne) (by decide +kernel)
  · rfl

/-! ## Writeback -/

/-- Between `p` and `p'` the word has accessed the indexed address, and has
moved its base by the offset. -/
structure Mode3Transfer.Indexes (t : Mode3Transfer) (h : Host) (ins : Word)
    (p p' : ArmCore) : Prop where
  access : t.Accesses h ins (indexed ins (rnValue p ins) (splitOffset p ins)) p p'
  base : armReadRegister p' (bitsRn ins) = offsetAddress p ins

theorem offsetBase_left_inj {ins a b offset : Word} :
    offsetBase ins a offset = offsetBase ins b offset ↔ a = b := by
  unfold offsetBase
  split
  · exact add_left_inj offset
  · exact sub_left_inj

theorem offsetBase_eq_self_iff {ins a offset : Word} :
    offsetBase ins a offset = a ↔ offset = 0 := by
  unfold offsetBase
  split
  · exact add_eq_left
  · exact sub_eq_self

theorem Memory.InRange.ne_neg_one {mem : Memory} {address : Word} {n : Nat}
    (h : mem.InRange address n) (hn : 0 < n) : address ≠ -1 := by
  rintro rfl
  have hlt := h.lt_zero hn
  have hsize := mem.size.isLt
  rw [show (-1 : Word).toNat = 2 ^ 32 - 1 from rfl] at hlt
  omega

theorem Mode3Transfer.width_pos (t : Mode3Transfer) : 0 < t.width := by
  cases t <;> decide

/-- A transfer leaves the other registers as they were. -/
theorem armReadRegister_loadStoreMode3 (h : Host) (p : ArmCore) (ins address : Word)
    {Rd_num n : Fin 16} (hn : n ≠ Rd_num) :
    armReadRegister (loadStoreMode3 h p ins address Rd_num).2 n = armReadRegister p n := by
  unfold loadStoreMode3
  split_ifs
  · rfl
  · rfl
  · split <;> rfl
  · split
    · exact armReadRegister_write_of_ne _ _ hn
    · exact armReadRegister_write_of_ne _ _ hn
    · exact armReadRegister_write_of_ne _ _ hn
    · rfl

section

variable {t : Mode3Transfer} {ins : Word}

/-- Bits 11 to 0 hold the code of the transfer, so they are no zero offset. -/
theorem IsMode3.mode2Offset_ne_zero (hi : IsMode3 t ins) (p : ArmCore) : mode2Offset p ins ≠ 0 := by
  rw [hi.mode2Offset_eq]
  intro h0
  have hcode : getBits ins 7 4 = getBits 0 7 4 := getBits_of_field h0
  rw [hi.code] at hcode
  cases t <;> exact absurd hcode (by decide)

/-- Both computations of the address have moved the base, the second from
where the first has left it. -/
theorem armLoadStore_base (h : Host) (p : ArmCore) (hi : IsMode3 t ins)
    (hb : bitP ins = bitW ins) (hRd : bitsRn ins ≠ rdNum ins) :
    armReadRegister (armLoadStore h p ins).2 (bitsRn ins)
      = readBack (bitsRn ins) (leftInBase p ins) := by
  have h26 : getBit ins 26 = 0 := getBit_of_field hi.space
  have h2 : mode2State p ins = armWriteRegister p (bitsRn ins) (baseOnce p ins) :=
    writtenBack_of_eq p _ _ hb
  rw [armLoadStore_eq h p (not_untreated_of_eq hb), leftInBase]
  by_cases ha : mode2Address p ins = -1
  · rw [if_pos ha, if_pos ha, h2, armReadRegister_write]
  · rw [if_neg ha, if_neg ha, if_neg (not_not.mpr h26), armReadRegister_loadStoreMode3 _ _ _ _ hRd,
      mode3State, h2, writtenBack_of_eq _ _ _ hb, armReadRegister_write, mode3Offset_write,
      armReadRegister_write]
    rfl

/-- What the base holds then, unless it is the index register. -/
theorem baseTwice_eq (p : ArmCore) (h15 : bitsRn ins ≠ 15)
    (hRm : getBit ins 22 = 0 → bitsRn ins ≠ regNum (getBits ins 3 0)) :
    baseTwice p ins = offsetBase ins
      (offsetBase ins (rnValue p ins) (mode2Offset p ins)) (splitOffset p ins) := by
  have hoff : secondOffset p ins = splitOffset p ins := by
    rw [secondOffset, if_neg fun hc => hRm hc.1 hc.2.symm, mode3Offset_eq]
  rw [baseTwice, hoff, readBack, if_neg h15, baseOnce]
  rfl

/-- An address inside the memory is not the base a transfer leaves. -/
theorem leftInBase_ne (p : ArmCore) (hi : IsMode3 t ins) (h15 : bitsRn ins ≠ 15)
    (hRm : getBit ins 22 = 0 → bitsRn ins ≠ regNum (getBits ins 3 0))
    (hin : p.mem.InRange (indexed ins (rnValue p ins) (splitOffset p ins)) t.width) :
    leftInBase p ins ≠ offsetAddress p ins := by
  have hlast := hin.ne_neg_one t.width_pos
  unfold leftInBase
  by_cases ha : mode2Address p ins = -1
  · rw [if_pos ha]
    unfold mode2Address at ha
    by_cases hP : bitP ins = 0
    · -- post-indexed, the first address is the second
      rw [indexed, if_neg (not_not.mpr hP)] at ha hlast
      exact absurd ha hlast
    · rw [indexed, if_pos hP] at ha hlast
      rw [baseOnce, ha]
      exact Ne.symm hlast
  · rw [if_neg ha, baseTwice_eq p h15 hRm, offsetAddress, Ne, offsetBase_left_inj,
      offsetBase_eq_self_iff]
    exact hi.mode2Offset_ne_zero p

/-- STRH, LDRH, LDRSB and LDRSH with writeback, before or after an access
inside the memory: the base is never left where it should be. -/
theorem mode3_writeback_never (h : Host) (p : ArmCore) (hi : IsMode3 t ins)
    (hb : bitP ins = bitW ins) (h15 : bitsRn ins ≠ 15) (hRd : bitsRn ins ≠ rdNum ins)
    (hRm : getBit ins 22 = 0 → bitsRn ins ≠ regNum (getBits ins 3 0))
    (hin : p.mem.InRange (indexed ins (rnValue p ins) (splitOffset p ins)) t.width) :
    ¬ t.Indexes h ins p (armLoadStore h p ins).2 := by
  rintro ⟨-, hbase⟩
  rw [armLoadStore_base h p hi hb hRd, readBack, if_neg h15] at hbase
  exact leftInBase_ne p hi h15 hRm hin hbase

end

/-- A processor with 4 in r1. -/
def givenBase : ArmCore := armWriteRegister (booted 16 []) 1 4

/-- `LDRH r0, [r1, #2]!` leaves 184 in r1: 4 and 178 and 2. -/
theorem mode3_writeback_never_ldrh :
    ¬ Mode3Transfer.ldrh.Indexes x86Host 0xE1F100B2 givenBase
      (armLoadStore x86Host givenBase 0xE1F100B2).2 :=
  mode3_writeback_never x86Host givenBase ⟨by decide, by decide, by decide⟩ (by decide)
    (by decide) (by decide) (fun hc => absurd hc (by decide)) (by decide +kernel)

/-- The half-word it should load is at 6, and 6 should be left. -/
theorem ldrh_writeback_moves_twice :
    IsMode3 .ldrh 0xE1F100B2 ∧ bitP 0xE1F100B2 = 1 ∧ bitW 0xE1F100B2 = 1 ∧
    indexed 0xE1F100B2 (rnValue givenBase 0xE1F100B2) (splitOffset givenBase 0xE1F100B2) = 6 ∧
    armReadRegister (armLoadStore x86Host givenBase 0xE1F100B2).2 1 = 184 ∧
    ¬ Mode3Transfer.ldrh.Indexes x86Host 0xE1F100B2 givenBase
      (armLoadStore x86Host givenBase 0xE1F100B2).2 := by
  refine ⟨⟨by decide, by decide, by decide⟩, by decide, by decide, by decide +kernel,
    by decide +kernel, ?_⟩
  intro hindexes
  exact absurd hindexes.base (by decide +kernel)

end Armator
