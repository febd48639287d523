/-
A refused write of memory.

`write_memory_binary` looks at the first address of the range alone; the
end of the memory is found by the byte that can no longer be written, and
the bytes before it stay written.  The reply is E02 all the same.

A range that starts outside the memory is refused at once, and one inside
it is not refused.  In a range across the end the bytes up to the end are
stored (`writeMemoryLoop_stored`), so a refused write leaves the memory as
it was exactly when they were there already (`refused_write_iff`).
-/
import Armator.ByteMap
import Armator.Gdb.MemoryTransfer

namespace Armator

open CText

/-! ## The loop -/

/-- At most `n` bytes of the content, with the escapes taken off. -/
def decoded : Nat → Option Text → Text
  | 0, _ => []
  | n + 1, content =>
      match nextContent content with
      | .ok (c, content) => c :: decoded n content
      | .error _ => []

/-- Outside the memory nothing is written. -/
theorem writeMemoryLoop_outside {mem mem' : Memory} {a : Word} {content : Option Text} {n : Nat}
    {ok : Bool} (ha : ¬ a.toNat < mem.size.toNat)
    (hloop : writeMemoryLoop mem a content n = .ok (ok, mem')) :
    ok = decide (n = 0) ∧ mem' = mem := by
  cases n with
  | zero =>
      obtain ⟨rfl, rfl⟩ := Prod.mk.inj (Except.ok.inj hloop)
      exact ⟨rfl, rfl⟩
  | succ n =>
      have hwrite : ∀ c, memoryWriteByte mem a c = (-1, mem) := fun c => dif_neg ha
      rw [writeMemoryLoop] at hloop
      cases hnext : nextContent content with
      | error f =>
          rw [hnext] at hloop
          cases hloop
      | ok next =>
          rw [hnext, ok_bind] at hloop
          simp only [hwrite] at hloop
          obtain ⟨rfl, rfl⟩ := Prod.mk.inj (Except.ok.inj hloop)
          exact ⟨rfl, rfl⟩

/-- The loop stores the content up to the end of the memory, and says
whether that was all of it. -/
theorem writeMemoryLoop_stored {mem mem' : Memory} {a : Word} {content : Option Text} {n : Nat}
    {ok : Bool} (ha : a.toNat ≤ mem.size.toNat)
    (hloop : writeMemoryLoop mem a content n = .ok (ok, mem')) :
    ok = decide (n ≤ mem.size.toNat - a.toNat) ∧
      (decoded (min n (mem.size.toNat - a.toNat)) content).length
        = min n (mem.size.toNat - a.toNat) ∧
      Stored mem a (decoded (min n (mem.size.toNat - a.toNat)) content) mem' := by
  induction n generalizing mem a content with
  | zero =>
      obtain ⟨rfl, rfl⟩ := Prod.mk.inj (Except.ok.inj hloop)
      rw [Nat.zero_min]
      exact ⟨(decide_eq_true (Nat.zero_le _)).symm, rfl, Stored.nil mem a⟩
  | succ n ih =>
      by_cases hlt : a.toNat < mem.size.toNat
      · have hnext := toNat_add_one hlt
        cases hcontent : nextContent content with
        | error f =>
            rw [writeMemoryLoop, hcontent] at hloop
            cases hloop
        | ok next =>
            obtain ⟨c, content'⟩ := next
            rw [writeMemoryLoop_succ hlt hcontent] at hloop
            obtain ⟨hok, hlength, hstored⟩ := ih (by
              rw [memoryWriteByte_size, hnext]
              omega) hloop
            have hroom : mem.size.toNat - a.toNat = mem.size.toNat - (a + 1).toNat + 1 := by
              omega
            rw [memoryWriteByte_size] at hok hlength hstored
            rw [hroom, Nat.succ_min_succ, decoded, hcontent]
            refine ⟨hok.trans ?_, ?_, hstored.cons hlt⟩
            · exact decide_eq_decide.mpr Nat.succ_le_succ_iff.symm
            · rw [List.length_cons, hlength]
      -- the range has reached the end
      · obtain ⟨hok, rfl⟩ := writeMemoryLoop_outside hlt hloop
        have hroom : mem'.size.toNat - a.toNat = 0 := by omega
        rw [hroom, Nat.min_zero]
        refine ⟨hok.trans ?_, rfl, Stored.nil mem' a⟩
        exact decide_eq_decide.mpr Nat.le_zero.symm

/-! ## Whether anything has changed -/

theorem getElem_memoryText (mem : Memory) {a : Word} {n i : Nat}
    (hi : i < (memoryText mem a n).length) :
    (memoryText mem a n)[i] = mem.byteAt (a + BitVec.ofNat 32 i) := by
  induction n generalizing a i with
  | zero => exact absurd hi (Nat.not_lt_zero i)
  | succ n ih =>
      simp only [memoryText] at hi ⊢
      split_ifs at hi ⊢ with ha
      · cases i with
        | zero =>
            rw [show a + BitVec.ofNat 32 0 = a from BitVec.add_zero a]
            rfl
        | succ i =>
            rw [List.getElem_cons_succ, ih, add_byte_succ]
      · exact absurd hi (Nat.not_lt_zero i)

/-- What is there, stored again. -/
theorem stored_memoryText (mem : Memory) (a : Word) (n : Nat) :
    Stored mem a (memoryText mem a n) mem :=
  ⟨rfl, fun _ hi => (getElem_memoryText mem hi).symm, fun _ _ => rfl⟩

/-- What has been stored says what the memory is. -/
theorem Stored.unique {mem mem₁ mem₂ : Memory} {a : Word} {bs : Text}
    (hin : a.toNat + bs.length ≤ mem.size.toNat) (h₁ : Stored mem a bs mem₁)
    (h₂ : Stored mem a bs mem₂) : mem₁ = mem₂ := by
  refine Memory.ext_byteAt (h₁.size.trans h₂.size.symm) ?_
  funext b
  by_cases hb : b.toNat < a.toNat ∨ a.toNat + bs.length ≤ b.toNat
  · rw [h₁.outside b hb, h₂.outside b hb]
  · push Not at hb
    have hi : b.toNat - a.toNat < bs.length := by omega
    have hb' : b = a + BitVec.ofNat 32 (b.toNat - a.toNat) := by
      refine BitVec.eq_of_toNat_eq ?_
      have := b.isLt
      have hoffset : (b.toNat - a.toNat) % 2 ^ 32 = b.toNat - a.toNat :=
        Nat.mod_eq_of_lt (by omega)
      rw [BitVec.toNat_add, BitVec.toNat_ofNat, hoffset, Nat.add_sub_cancel' hb.1,
        Nat.mod_eq_of_lt b.isLt]
    rw [hb', h₁.inside _ hi, h₂.inside _ hi]

/-- The memory is the same exactly where what was stored was there. -/
theorem Stored.eq_iff {mem mem' : Memory} {a : Word} {bs : Text} (hs : Stored mem a bs mem')
    (hin : a.toNat + bs.length ≤ mem.size.toNat) :
    mem' = mem ↔ bs = Armator.memoryText mem a bs.length := by
  constructor
  · rintro rfl
    exact (hs.memoryText hin).symm
  · intro hbs
    have hsame := stored_memoryText mem a bs.length
    rw [← hbs] at hsame
    exact hs.unique hin hsame

/-- The range does not run across the end of the memory from inside, or
the bytes for its part inside are there already. -/
def LeavesNoTrace (mem : Memory) (a : Word) (n : Nat) (content : Option Text) : Prop :=
  mem.Straddles a n →
    decoded (mem.size.toNat - a.toNat) content = memoryText mem a (mem.size.toNat - a.toNat)

theorem writeMemoryLoop_refused_iff {mem mem' : Memory} {a : Word} {content : Option Text}
    {n : Nat} {ok : Bool} (hloop : writeMemoryLoop mem a content n = .ok (ok, mem')) :
    (ok = false → mem' = mem) ↔ LeavesNoTrace mem a n content := by
  by_cases hlt : a.toNat < mem.size.toNat
  · obtain ⟨hok, hlength, hstored⟩ := writeMemoryLoop_stored hlt.le hloop
    by_cases hfits : n ≤ mem.size.toNat - a.toNat
    · -- not refused
      refine iff_of_true (fun hrefused => ?_) fun hstraddles => ?_
      · rw [hok, decide_eq_true hfits] at hrefused
        cases hrefused
      · have := hstraddles.2
        omega
    · have hrefused : ok = false := hok.trans (decide_eq_false hfits)
      have hstraddles : mem.Straddles a n := ⟨hlt, by omega⟩
      rw [Nat.min_eq_right (by omega)] at hlength hstored
      have hsame := hstored.eq_iff (by
        rw [hlength]
        omega)
      rw [hlength] at hsame
      constructor
      · intro hkept _
        exact hsame.mp (hkept hrefused)
      · intro hthere _
        exact hsame.mpr (hthere hstraddles)
  · exact iff_of_true (fun _ => (writeMemoryLoop_outside hlt hloop).2)
      fun hstraddles => absurd hstraddles.1 hlt

/-! ## The request -/

theorem transferWrite_refused_iff {h : GdbHost} {mem mem' : Memory} {data : Text} {ok : Bool}
    (hwrite : transferWrite h data mem = .ok (ok, mem')) :
    (ok = false → mem' = mem) ↔
      LeavesNoTrace mem (transferAddress h data .writeMemoryBinary)
        (transferSize h data .writeMemoryBinary) (transferContent data) := by
  unfold transferWrite at hwrite
  split_ifs at hwrite with hin
  · exact writeMemoryLoop_refused_iff hwrite
  -- nothing is written
  · refine iff_of_true (fun _ => (Prod.mk.inj (Except.ok.inj hwrite)).2.symm) fun hstraddles => ?_
    exact absurd (lt_memoryGetSize hstraddles.1) hin

/-- A request that is refused says E02. -/
theorem sent_refused_iff {gdb gdb₁ gdb' : GdbProtocolData} {ok : Bool}
    (hfd : gdb₁.fd = gdb.fd) (hsent : Sent gdb₁ (if ok then bytes "OK" else bytes "E02") gdb') :
    gdb'.fd = gdb.fd ++ frame (bytes "E02") ↔ ok = false := by
  rw [hsent.fd, hfd, List.append_cancel_left_eq, frame_inj]
  cases ok <;> decide

/-- Where a request is answered by E02, the memory is as before exactly
unless the range runs across its end from inside, and the bytes that fall
inside were not there already. -/
theorem refused_write_iff (h : GdbHost) (gdb gdb' : GdbProtocolData) (data : Text)
    (hrun : writeMemoryBinary h gdb data = .ok gdb') :
    (gdb'.fd = gdb.fd ++ frame (bytes "E02") → gdb'.arm.mem = gdb.arm.mem) ↔
      LeavesNoTrace gdb.arm.mem (transferAddress h data .writeMemoryBinary)
        (transferSize h data .writeMemoryBinary) (transferContent data) := by
  cases hwrite : transferWrite h data gdb.arm.mem with
  | error f =>
      rw [writeMemoryBinary_error hwrite] at hrun
      cases hrun
  | ok written =>
      obtain ⟨-, hsent⟩ := (writeMemoryBinary_sent hwrite).of_ok hrun
      have hmem : gdb'.arm.mem = written.2 := by rw [hsent.arm]
      rw [sent_refused_iff rfl hsent, hmem]
      exact transferWrite_refused_iff hwrite

/-- `Xf,2:AB`, as the handler is given it: two bytes at the last address of
a memory of 16. -/
def overrunning : Text := bytes "f,2:AB" ++ [0]

theorem transferWrite_overrunning :
    transferWrite x86GdbHost overrunning holdingOk.arm.mem
      = .ok (false, (memoryWriteByte holdingOk.arm.mem 15 0x41).2) := rfl

theorem refused_write_iff_overrunning :
    ∃ gdb', writeMemoryBinary x86GdbHost holdingOk overrunning = .ok gdb' ∧
      ((gdb'.fd = holdingOk.fd ++ frame (bytes "E02") → gdb'.arm.mem = holdingOk.arm.mem) ↔
        LeavesNoTrace holdingOk.arm.mem (transferAddress x86GdbHost overrunning .writeMemoryBinary)
          (transferSize x86GdbHost overrunning .writeMemoryBinary)
          (transferContent overrunning)) := by
  obtain ⟨gdb', hrun, -⟩ := (writeMemoryBinary_sent transferWrite_overrunning).ok rfl
  exact ⟨gdb', hrun, refused_write_iff x86GdbHost holdingOk gdb' overrunning hrun⟩

/-- The A is stored, the B is not, and the reply is E02. -/
theorem refused_write_astray :
    ∃ gdb', writeMemoryBinary x86GdbHost holdingOk overrunning = .ok gdb' ∧
      gdb'.fd = holdingOk.fd ++ frame (bytes "E02") ∧
      gdb'.arm.mem ≠ holdingOk.arm.mem := by
  obtain ⟨gdb', hrun, hsent⟩ := (writeMemoryBinary_sent transferWrite_overrunning).ok rfl
  refine ⟨gdb', hrun, hsent.fd, fun hsame => ?_⟩
  have hmem : gdb'.arm.mem = (memoryWriteByte holdingOk.arm.mem 15 0x41).2 := by rw [hsent.arm]
  have hlast := congrArg (Memory.byteAt · 15) (hmem.symm.trans hsame)
  exact absurd hlast (by decide +kernel)

end Armator
