/-
One register as a packet: `P` writes it, `p` reads it.

Both are given the number in hexadecimal.  `write_single_register` scans
it as such; `read_single_register` uses `atoi`, which knows the digits up
to 9.  Of r10 to r15 it finds no digit, or the zeros before one, so that
it reports r0 in their place (`shownRegister`).
-/
import Armator.Gdb.PacketSafety

namespace Armator

open CText

/-! ## Writing -/

theorem writeNumber_register (h : GdbHost) {text rest : Text} {n : Fin 16}
    (hn : Numeral text n.val) (hr : EndsNumber rest) :
    writeNumber h (text ++ rest) = BitVec.ofNat 32 n.val := by
  have hscan : sscanf [.hex none] (text ++ rest) = [unsignedLong false n.val] := by
    simp only [sscanf, scanHex_digits hn.digits hr, hn.value]
  rw [writeNumber, hscan]
  exact stored_unsignedLong rfl (Nat.lt_trans n.isLt (by decide))

/-- A `P` request writes the register it names, in the current mode. -/
theorem writeSingleRegister_spec (h : GdbHost) (gdb : GdbProtocolData) {n : Fin 16} {text : Text}
    (hn : Numeral text n.val) (f : HexField) (rest : Text) :
    Transmits { gdb with arm := armWriteRegister gdb.arm n f.value } (bytes "OK")
      (writeSingleRegister h gdb (text ++ ch '=' :: (f.digits ++ rest))) := by
  have hsends := gdbSendData_spec { gdb with arm := armWriteRegister gdb.arm n f.value }
    (s := bytes "OK") (by decide) (by decide)
  have hequals : ch '=' ∉ text := fun hm => absurd (hn.digits.all _ hm) (by decide)
  have hends : EndsNumber (ch '=' :: (f.digits ++ rest)) := endsNumber_cons _ (by decide)
  have hnumber := writeNumber_register h hn hends
  rw [writeNumber] at hnumber
  unfold writeSingleRegister
  simp only [hnumber, index_append hequals hn.digits.nul_notMem,
    List.drop_succ_cons, List.drop_zero, writeRegister_field, ok_bind]
  exact hsends

/-! ## Reading -/

/-- The register that `p` reports for register `n`. -/
def shownRegister (n : Fin 16) : Fin 16 := if n.val < 10 then n else 0

theorem readNumber_register {text rest : Text} {n : Fin 16} (hn : Numeral text n.val)
    (hr : EndsNumber rest) : (readNumber (text ++ rest)).toNat = (shownRegister n).val := by
  have hvalue : (if number 16 text < 10 then number 16 text else 0) = (shownRegister n).val := by
    rw [hn.value, shownRegister]
    split <;> rfl
  have hlt : number 16 text < 16 := hn.value ▸ n.isLt
  rw [readNumber, atoi_digits hn.digits hlt hr, hvalue, BitVec.setWidth_ofNat_of_le (by decide)]
  exact Nat.mod_eq_of_lt (Nat.lt_trans (shownRegister n).isLt (by decide))

/-- A `p` request is answered by eight digits. -/
theorem readSingleRegister_spec (gdb : GdbProtocolData) {n : Fin 16} {text rest : Text}
    (hn : Numeral text n.val) (hr : EndsNumber rest) :
    Transmits gdb (hexText 8 (gdb.register (shownRegister n)).toNat)
      (readSingleRegister gdb (text ++ rest)) := by
  have hnumber := readNumber_register hn hr
  have hreg : (readNumber (text ++ rest)).toNat < 16 := hnumber ▸ (shownRegister n).isLt
  have hshown : (⟨(readNumber (text ++ rest)).toNat, hreg⟩ : Fin 16) = shownRegister n :=
    Fin.ext hnumber
  rw [← hshown]
  exact readSingleRegister_sent gdb hreg

/-! ## What `p` says, against `P` and `g` -/

/-- After `P n=v`, `p n` reports `v`; `text` is the number of the register,
`f` the value. -/
def ReportsWritten (h : GdbHost) (gdb : GdbProtocolData) (text : Text) (f : HexField)
    (after after' : Text) : Prop :=
  ∃ gdb₁ gdb₂, writeSingleRegister h gdb (text ++ ch '=' :: (f.digits ++ 0 :: after)) = .ok gdb₁ ∧
    readSingleRegister gdb₁ (text ++ 0 :: after') = .ok gdb₂ ∧
    gdb₂.fd = gdb₁.fd ++ frame (hexText 8 f.value.toNat)

/-- What `p n` reports is field `n` of what `g` reports. -/
def ReportsField (gdb : GdbProtocolData) (n : Fin 16) (text after : Text) : Prop :=
  ∃ gdb₁ gdb₂ one all, readSingleRegister gdb (text ++ 0 :: after) = .ok gdb₁ ∧
    gdb₁.fd = gdb.fd ++ frame one ∧
    readGeneralRegisters gdb [] = .ok gdb₂ ∧ gdb₂.fd = gdb.fd ++ frame all ∧
    one = (all.drop (8 * n.val)).take 8

theorem GdbProtocolData.register_eq (gdb : GdbProtocolData) : gdb.register = regView gdb.arm := by
  funext n
  exact registersRead_eq ..

/-- Where `p` shows register `n` or a register that holds the value. -/
theorem reportsWritten_iff (h : GdbHost) {gdb : GdbProtocolData} (hopen : gdb.shut = false)
    {n : Fin 16} {text : Text} (hn : Numeral text n.val) (f : HexField) (after after' : Text) :
    ReportsWritten h gdb text f after after' ↔ shownRegister n = n ∨
      gdb.register (shownRegister n) = f.value := by
  obtain ⟨gdb₁, hwrite, hsent₁⟩ := (writeSingleRegister_spec h gdb hn f (0 :: after)).ok hopen
  obtain ⟨gdb₂, hread, hsent₂⟩ := (readSingleRegister_spec gdb₁ hn
    (endsNumber_cons (c := 0) after' (by decide))).ok (hsent₁.shut.trans hopen)
  have hregister : gdb₁.register (shownRegister n)
      = Function.update gdb.register n f.value (shownRegister n) := by
    rw [gdb₁.register_eq, gdb.register_eq, hsent₁.arm, regView_armWriteRegister]
  have hvalue : ReportsWritten h gdb text f after after' ↔
      gdb₁.register (shownRegister n) = f.value := by
    constructor
    · rintro ⟨gdb₁', gdb₂', hwrite', hread', hfd⟩
      obtain rfl := Except.ok.inj (hwrite.symm.trans hwrite')
      obtain rfl := Except.ok.inj (hread.symm.trans hread')
      exact hexText_word_inj.mp (frame_inj.mp (List.append_cancel_left (hsent₂.fd.symm.trans hfd)))
    · intro hv
      exact ⟨gdb₁, gdb₂, hwrite, hread, hv ▸ hsent₂.fd⟩
  rw [hvalue, hregister]
  by_cases hs : shownRegister n = n
  · rw [hs, Function.update_self]
    exact iff_of_true rfl (Or.inl rfl)
  · rw [Function.update_of_ne hs, or_iff_right hs]

/-- Where `p` shows a register that holds what register `n` holds. -/
theorem reportsField_iff {gdb : GdbProtocolData} (hopen : gdb.shut = false) {n : Fin 16}
    {text : Text} (hn : Numeral text n.val) (after : Text) :
    ReportsField gdb n text after ↔ gdb.register (shownRegister n) = gdb.register n := by
  obtain ⟨gdb₁, hread, hsent₁⟩ := (readSingleRegister_spec gdb hn
    (endsNumber_cons (c := 0) after (by decide))).ok hopen
  obtain ⟨gdb₂, hall, hsent₂⟩ := (readGeneralRegisters_spec gdb []).ok hopen
  rw [← hexText_word_inj, ← field_registersReply gdb.register (registersReadCpsr gdb.arm.reg) n]
  constructor
  · rintro ⟨gdb₁', gdb₂', one, all, hread', hone, hall', hfd, hfield⟩
    obtain rfl := Except.ok.inj (hread.symm.trans hread')
    obtain rfl := Except.ok.inj (hall.symm.trans hall')
    rw [frame_inj.mp (List.append_cancel_left (hsent₁.fd.symm.trans hone)),
      frame_inj.mp (List.append_cancel_left (hsent₂.fd.symm.trans hfd))]
    exact hfield
  · intro hfield
    exact ⟨gdb₁, gdb₂, _, _, hread, hsent₁.fd, hall, hsent₂.fd, hfield⟩

theorem shownRegister_eq_self_iff (n : Fin 16) : shownRegister n = n ↔ n.val < 10 := by
  revert n
  decide

theorem shownRegister_of_le {n : Fin 16} (hn : ¬ n.val < 10) : shownRegister n = 0 := if_neg hn

/-- `p` reports what `P` wrote, and what `g` reports, exactly of r0 to r9,
and of r10 to r15 where r0 holds the value that was written and register
`n` had it before.  The connection is open. -/
theorem single_register_iff (h : GdbHost) {gdb : GdbProtocolData} (hopen : gdb.shut = false)
    (n : Fin 16) (text : Text) (hn : Numeral text n.val) (f : HexField) (after after' : Text) :
    (ReportsWritten h gdb text f after after' ∧ ReportsField gdb n text after') ↔
      n.val < 10 ∨ (gdb.register 0 = f.value ∧ gdb.register n = f.value) := by
  rw [reportsWritten_iff h hopen hn f after after', reportsField_iff hopen hn after',
    shownRegister_eq_self_iff]
  by_cases hten : n.val < 10
  · have hshown := (shownRegister_eq_self_iff n).mpr hten
    rw [hshown]
    exact iff_of_true ⟨Or.inl hten, rfl⟩ (Or.inl hten)
  · rw [shownRegister_of_le hten, or_iff_right hten, or_iff_right hten]
    constructor
    · rintro ⟨hzero, hsame⟩
      exact ⟨hzero, hsame.symm.trans hzero⟩
    · rintro ⟨hzero, hn⟩
      exact ⟨hzero, hzero.trans hn.symm⟩

/-- Register 10, written `a`. -/
theorem numeral_a : Numeral (bytes "a") (10 : Fin 16).val where
  digits :=
    { ne_nil := by decide
      all := by decide }
  value := by decide

theorem single_register_iff_a :
    (ReportsWritten x86GdbHost resetServer (bytes "a") (HexField.of 1) [] [] ∧
      ReportsField resetServer 10 (bytes "a") []) ↔
      (10 : Fin 16).val < 10 ∨
        (resetServer.register 0 = (HexField.of 1).value ∧
          resetServer.register 10 = (HexField.of 1).value) :=
  single_register_iff x86GdbHost rfl 10 (bytes "a") numeral_a (HexField.of 1) [] []

/-- After the reset `Pa=00000001` is not read back by `pa`: r10 is 1, and
what is reported is r0. -/
theorem register_a_astray :
    Numeral (bytes "a") (10 : Fin 16).val ∧
      ¬ ReportsWritten x86GdbHost resetServer (bytes "a") (HexField.of 1) [] [] := by
  refine ⟨numeral_a, ?_⟩
  rw [reportsWritten_iff x86GdbHost (show resetServer.shut = false from rfl) numeral_a
    (HexField.of 1)]
  decide +kernel

end Armator
