/-
The simulated memory refines a map of bytes.

A run of writes, of any widths and byte orders, leaves at each address the
last byte written there; a read of any width puts the bytes it finds
together in the order its own flag asks for.  The byte order of the host
appears in none of it.

All this is about accesses inside the memory.  A half-word or a word is
tested at its first address alone: one that starts inside the memory and
ends outside it is reported as done, and has been done in part.
-/
import Armator.Memory

namespace Armator

open ByteOrder Replay

/-! ## One access -/

theorem Memory.InRange.address_injective {mem : Memory} {address : Word} {n : Nat}
    (h : mem.InRange address n) :
    Function.Injective fun i : Fin n => address + BitVec.ofNat 32 i := by
  intro i j hij
  have ht := congrArg BitVec.toNat hij
  simp only [h.toNat_add i.isLt, h.toNat_add j.isLt] at ht
  exact Fin.ext (by omega)

theorem writeEntries_nodup {n : Nat} {mem : Memory} {address : Word}
    (value : BitVec (8 * n)) (be : Byte) (h : mem.InRange address n) :
    ((writeEntries address value be).map Prod.fst).Nodup := by
  rw [writeEntries, List.map_map]
  exact (List.nodup_finRange n).map h.address_injective

/-- The bytes an access leaves at its own addresses. -/
theorem replay_writeEntries {n : Nat} {mem : Memory} {address : Word}
    (value : BitVec (8 * n)) (be : Byte) (h : mem.InRange address n) (f : Word → Byte)
    (i : Fin n) :
    replay f (writeEntries address value be) (address + BitVec.ofNat 32 i)
      = orient (decide (be ≠ 0)) (toBytes value) i :=
  replay_of_mem f (e := (address + BitVec.ofNat 32 i, _)) (writeEntries_nodup value be h)
    (List.mem_map.mpr ⟨i, List.mem_finRange i, rfl⟩)

/-- An access leaves every other address as it was. -/
theorem replay_writeEntries_of_outside {n : Nat} {mem : Memory} {address : Word}
    (value : BitVec (8 * n)) (be : Byte) (h : mem.InRange address n) (f : Word → Byte)
    {a : Word} (ha : a.toNat < address.toNat ∨ address.toNat + n ≤ a.toNat) :
    replay f (writeEntries address value be) a = f a := by
  refine replay_of_forall_ne _ ?_
  intro e he heq
  obtain ⟨i, -, rfl⟩ := List.mem_map.mp he
  subst heq
  have ht := h.toNat_add i.isLt
  have hi := i.isLt
  simp only at ha
  omega

/-- The number `n` bytes make in the requested order: with `be` set, the
byte at the lowest address is the most significant. -/
def bytesNumber {n : Nat} (be : Byte) (b : Fin n → Byte) : Nat :=
  Nat.ofDigits 256 (List.ofFn fun i => (orient (decide (be ≠ 0)) b i).toNat)

/-- A value with its bytes in the opposite order. -/
def byteReverse {n : Nat} (value : BitVec (8 * n)) : BitVec (8 * n) :=
  ofBytes (orient true (toBytes value))

/-- The bytes of a value just written. -/
theorem bytesAt_memoryWriteBytes {n : Nat} (hn : 0 < n) {mem : Memory} {address : Word}
    (bigEndian : Bool) (value : BitVec (8 * n)) (be : Byte) (h : mem.InRange address n) :
    (memoryWriteBytes n bigEndian mem address value be).2.bytesAt address n
      = orient (decide (be ≠ 0)) (toBytes value) := by
  obtain ⟨-, -, hbytes⟩ := memoryWriteBytes_eq hn bigEndian value be h
  funext i
  rw [Memory.bytesAt, hbytes]
  exact replay_writeEntries value be h mem.byteAt i

/-- Reading back what was written at the same address and width: the value
itself with the same flag, its bytes reversed with the other one. -/
theorem memoryReadBytes_write {n : Nat} (hn : 0 < n) {mem : Memory} {address : Word}
    (bigEndian : Bool) (bytearray : Fin n → Byte) (value old : BitVec (8 * n)) (be be' : Byte)
    (h : mem.InRange address n) :
    memoryReadBytes n bigEndian bytearray
        (memoryWriteBytes n bigEndian mem address value be).2 address old be'
      = (0, ofBytes (orient (decide (be' ≠ 0) ^^ decide (be ≠ 0)) (toBytes value))) := by
  have hsize := memoryWriteBytes_size bigEndian mem address value be
  rw [memoryReadBytes_eq hn _ _ _ _ (by rw [Memory.InRange, hsize]; exact h),
    bytesAt_memoryWriteBytes hn bigEndian value be h, orient_orient]

/-- A half-word just written. -/
theorem halfAt_memoryWriteHalf {mem : Memory} {address : Word} (bigEndian : Bool) (value : Half)
    (be : Byte) (h : mem.InRange address 2) :
    (memoryWriteHalf bigEndian mem address value be).2.halfAt be address = value := by
  rw [Memory.halfAt, memoryWriteHalf, bytesAt_memoryWriteBytes (by decide) bigEndian value be h,
    orient_orient, Bool.xor_self, orient_false]
  exact ofBytes_toBytes (n := 2) value

/-! ## Runs of writes -/

inductive MemOp where
  | writeByte (address : Word) (value : Byte)
  | writeHalf (address : Word) (value : Half) (be : Byte)
  | writeWord (address : Word) (value : Word) (be : Byte)

def MemOp.address : MemOp → Word
  | .writeByte address _ | .writeHalf address _ _ | .writeWord address _ _ => address

def MemOp.width : MemOp → Nat
  | .writeByte _ _ => 1
  | .writeHalf _ _ _ => 2
  | .writeWord _ _ _ => 4

/-- The call an operation stands for. -/
def MemOp.apply (bigEndian : Bool) (mem : Memory) : MemOp → Memory
  | .writeByte address value => (memoryWriteByte mem address value).2
  | .writeHalf address value be => (memoryWriteHalf bigEndian mem address value be).2
  | .writeWord address value be => (memoryWriteWord bigEndian mem address value be).2

/-- The byte writes an operation stands for. -/
def MemOp.entries : MemOp → List (Word × Byte)
  | .writeByte address value => [(address, value)]
  | .writeHalf address value be => writeEntries (n := 2) address value be
  | .writeWord address value be => writeEntries (n := 4) address value be

theorem MemOp.apply_spec (bigEndian : Bool) {mem : Memory} (op : MemOp)
    (h : mem.InRange op.address op.width) :
    (op.apply bigEndian mem).size = mem.size ∧
      (op.apply bigEndian mem).byteAt = replay mem.byteAt op.entries := by
  cases op with
  | writeByte address value =>
      exact ⟨memoryWriteByte_size .., memoryWriteByte_byteAt value (h.lt_zero Nat.one_pos)⟩
  | writeHalf address value be =>
      exact (memoryWriteBytes_eq (n := 2) (by decide) bigEndian value be h).2
  | writeWord address value be =>
      exact (memoryWriteBytes_eq (n := 4) (by decide) bigEndian value be h).2

theorem MemOp.run_spec (bigEndian : Bool) {mem : Memory} {ops : List MemOp}
    (hops : ∀ op ∈ ops, mem.InRange op.address op.width) :
    (ops.foldl (MemOp.apply bigEndian) mem).size = mem.size ∧
      (ops.foldl (MemOp.apply bigEndian) mem).byteAt
        = replay mem.byteAt (ops.flatMap MemOp.entries) := by
  refine foldl_replay Memory.byteAt (MemOp.apply bigEndian) MemOp.entries
    (fun mem' => mem'.size = mem.size) (fun op => mem.InRange op.address op.width)
    ?_ ops mem rfl hops
  intro mem' op hsize hop
  have hin : mem'.InRange op.address op.width := by
    rw [Memory.InRange, hsize]
    exact hop
  obtain ⟨hs, hb⟩ := op.apply_spec bigEndian hin
  exact ⟨hs.trans hsize, hb⟩

/-- Every read inside the memory returns what the map `now` holds at its
addresses. -/
structure ReadsBytes (bigEndian : Bool) (mem : Memory) (now : Word → Byte) : Prop where
  byte : ∀ address value, mem.InRange address 1 →
    memoryReadByte mem address value = (0, now address)
  half : ∀ address bytearray value be, mem.InRange address 2 →
    (memoryReadHalf bigEndian bytearray mem address value be).1 = 0 ∧
    (memoryReadHalf bigEndian bytearray mem address value be).2.toNat
      = bytesNumber be fun i : Fin 2 => now (address + BitVec.ofNat 32 i)
  word : ∀ address bytearray value be, mem.InRange address 4 →
    (memoryReadWord bigEndian bytearray mem address value be).1 = 0 ∧
    (memoryReadWord bigEndian bytearray mem address value be).2.toNat
      = bytesNumber be fun i : Fin 4 => now (address + BitVec.ofNat 32 i)

theorem readsBytes_byteAt (bigEndian : Bool) (mem : Memory) :
    ReadsBytes bigEndian mem mem.byteAt where
  byte address value h := memoryReadByte_of_lt value (h.lt_zero Nat.one_pos)
  half address bytearray value be h := by
    rw [memoryReadHalf, memoryReadBytes_eq (by decide) bigEndian bytearray value be h]
    exact ⟨rfl, toNat_ofBytes _⟩
  word address bytearray value be h := by
    rw [memoryReadWord, memoryReadBytes_eq (by decide) bigEndian bytearray value be h]
    exact ⟨rfl, toNat_ofBytes _⟩

/-- Reading back a half-word or a word just written. -/
structure ReadsBack (bigEndian : Bool) (mem : Memory) : Prop where
  half : ∀ address bytearray value old be be', mem.InRange address 2 →
    memoryReadHalf bigEndian bytearray
        (memoryWriteHalf bigEndian mem address value be).2 address old be'
      = (0, if be' = 0 ↔ be = 0 then value else byteReverse (n := 2) value)
  word : ∀ address bytearray value old be be', mem.InRange address 4 →
    memoryReadWord bigEndian bytearray
        (memoryWriteWord bigEndian mem address value be).2 address old be'
      = (0, if be' = 0 ↔ be = 0 then value else byteReverse (n := 4) value)

theorem ofBytes_orient_flags {n : Nat} (be be' : Byte) (value : BitVec (8 * n)) :
    ofBytes (orient (decide (be' ≠ 0) ^^ decide (be ≠ 0)) (toBytes value))
      = if be' = 0 ↔ be = 0 then value else byteReverse value := by
  by_cases h : be = 0 <;> by_cases h' : be' = 0 <;>
    simp only [h, h', byteReverse, ne_eq, not_true, not_false_iff, decide_true, decide_false,
      iff_true, iff_false, if_true, if_false, Bool.xor_self, Bool.xor_false, Bool.false_xor,
      orient_false, ofBytes_toBytes]

theorem readsBack (bigEndian : Bool) (mem : Memory) : ReadsBack bigEndian mem where
  half address bytearray value old be be' h := by
    rw [memoryReadHalf, memoryWriteHalf, memoryReadBytes_write (by decide) _ _ _ _ _ _ h,
      ofBytes_orient_flags]
  word address bytearray value old be be' h := by
    rw [memoryReadWord, memoryWriteWord, memoryReadBytes_write (by decide) _ _ _ _ _ _ h,
      ofBytes_orient_flags]

/-- No access of the run reaches the address `a`. -/
def Untouched (ops : List MemOp) (a : Word) : Prop :=
  ∀ op ∈ ops, a.toNat < op.address.toNat ∨ op.address.toNat + op.width ≤ a.toNat

theorem replay_of_untouched {mem : Memory} {ops : List MemOp} {a : Word}
    (hops : ∀ op ∈ ops, mem.InRange op.address op.width) (ha : Untouched ops a)
    (f : Word → Byte) : replay f (ops.flatMap MemOp.entries) a = f a := by
  refine replay_of_forall_ne _ ?_
  intro e he heq
  obtain ⟨op, hop, he⟩ := List.mem_flatMap.mp he
  have hout := ha op hop
  have hin := hops op hop
  cases op with
  | writeByte address value =>
      rw [List.mem_singleton.mp he] at heq
      subst heq
      simp only [MemOp.address, MemOp.width] at hout
      omega
  | writeHalf address value be | writeWord address value be =>
      obtain ⟨i, -, rfl⟩ := List.mem_map.mp he
      have ht := Memory.InRange.toNat_add hin i.isLt
      simp only [MemOp.address, MemOp.width] at hout heq ht
      rw [heq] at ht
      have hi := i.isLt
      omega

/-- Any run of writes inside the memory, on either host: every read inside
the memory returns the last bytes written at its addresses, in the order
its flag asks for; the other host reaches the same memory; bytes no access
reaches are as they were; and what is written next is read back, reversed
under the other flag. -/
theorem memory_refines_bytes (bigEndian : Bool) (mem : Memory) (ops : List MemOp)
    (hops : ∀ op ∈ ops, mem.InRange op.address op.width) :
    (ops.foldl (MemOp.apply bigEndian) mem).size = mem.size ∧
    ReadsBytes bigEndian (ops.foldl (MemOp.apply bigEndian) mem)
      (fun a => (lastWrite (ops.flatMap MemOp.entries) a).getD (mem.byteAt a)) ∧
    ops.foldl (MemOp.apply (!bigEndian)) mem = ops.foldl (MemOp.apply bigEndian) mem ∧
    (∀ a, Untouched ops a →
      (ops.foldl (MemOp.apply bigEndian) mem).byteAt a = mem.byteAt a) ∧
    ReadsBack bigEndian (ops.foldl (MemOp.apply bigEndian) mem) := by
  obtain ⟨hsize, hbytes⟩ := MemOp.run_spec bigEndian hops
  obtain ⟨hsize', hbytes'⟩ := MemOp.run_spec (!bigEndian) hops
  refine ⟨hsize, ?_, ?_, ?_, readsBack ..⟩
  · have hnow : (fun a => (lastWrite (ops.flatMap MemOp.entries) a).getD (mem.byteAt a))
        = (ops.foldl (MemOp.apply bigEndian) mem).byteAt := by
      funext a
      rw [hbytes, replay_apply]
    rw [hnow]
    exact readsBytes_byteAt ..
  · exact Memory.ext_byteAt (hsize'.trans hsize.symm) (hbytes'.trans hbytes.symm)
  · intro a ha
    rw [hbytes, replay_of_untouched hops ha]

/-- Overlapping writes of all widths and both orders. -/
def overlappingWrites : List MemOp :=
  [.writeWord 0 0x01020304 1, .writeHalf 2 0xAABB 0, .writeByte 3 0x07, .writeWord 4 0xFF 0]

theorem memory_refines_bytes_overlapping :
    ReadsBytes false (overlappingWrites.foldl (MemOp.apply false) (memoryCreate 8 fun _ => 0x55))
      (fun a => (lastWrite (overlappingWrites.flatMap MemOp.entries) a).getD
        ((memoryCreate 8 fun _ => 0x55).byteAt a)) :=
  (memory_refines_bytes false (memoryCreate 8 fun _ => 0x55) overlappingWrites
    (by decide)).2.1

/-! ## Accesses across the end of the memory -/

/-- An access of `n` bytes starts inside the memory and ends outside it. -/
def Memory.Straddles (mem : Memory) (address : Word) (n : Nat) : Prop :=
  address.toNat < mem.size.toNat ∧ mem.size.toNat < address.toNat + n

/-- A write of `n` bytes returns 0 exactly when they are inside the memory,
and changes nothing when it returns -1. -/
def WritesAllOrNothing (n : Nat) (mem : Memory) (address : Word) (o : Int × Memory) : Prop :=
  (o.1 = 0 ↔ mem.InRange address n) ∧ (o.1 = -1 → o.2 = mem)

/-- A read of `n` bytes returns 0 exactly when they are inside the memory. -/
def ReadsAllOrNothing (n : Nat) (mem : Memory) (address : Word) (result : Int) : Prop :=
  result = 0 ↔ mem.InRange address n

section

variable {n : Nat} (bigEndian : Bool) (mem : Memory) (address : Word) (be : Byte)

/-- The first address alone is inside where the access is, unless it
straddles the end. -/
theorem lt_iff_inRange_iff (hn : 0 < n) :
    (address.toNat < mem.size.toNat ↔ mem.InRange address n) ↔ ¬ mem.Straddles address n := by
  unfold Memory.Straddles Memory.InRange
  omega

theorem memoryReadBytes_result (bytearray : Fin n → Byte) (value : BitVec (8 * n)) :
    (memoryReadBytes n bigEndian bytearray mem address value be).1 = 0 ↔
      address.toNat < mem.size.toNat := by
  unfold memoryReadBytes
  split_ifs with hlt
  · exact iff_of_true rfl hlt
  · exact iff_of_true rfl hlt
  · exact iff_of_false (show ¬ (-1 : Int) = 0 by decide) hlt

theorem memoryWriteBytes_result (value : BitVec (8 * n)) :
    ((memoryWriteBytes n bigEndian mem address value be).1 = 0 ↔
      address.toNat < mem.size.toNat) ∧
    ((memoryWriteBytes n bigEndian mem address value be).1 = -1 →
      (memoryWriteBytes n bigEndian mem address value be).2 = mem) := by
  unfold memoryWriteBytes
  split_ifs with hlt
  · exact ⟨iff_of_true rfl hlt, fun hr => absurd hr (by decide)⟩
  · exact ⟨iff_of_true rfl hlt, fun hr => absurd hr (by decide)⟩
  · exact ⟨iff_of_false (show ¬ (-1 : Int) = 0 by decide) hlt, fun _ => rfl⟩

theorem readsAllOrNothing_iff (hn : 0 < n) (bytearray : Fin n → Byte) (value : BitVec (8 * n)) :
    ReadsAllOrNothing n mem address (memoryReadBytes n bigEndian bytearray mem address value be).1 ↔
      ¬ mem.Straddles address n := by
  rw [ReadsAllOrNothing, memoryReadBytes_result, lt_iff_inRange_iff mem address hn]

theorem writesAllOrNothing_iff (hn : 0 < n) (value : BitVec (8 * n)) :
    WritesAllOrNothing n mem address (memoryWriteBytes n bigEndian mem address value be) ↔
      ¬ mem.Straddles address n := by
  obtain ⟨hresult, hkeeps⟩ := memoryWriteBytes_result bigEndian mem address be value
  rw [WritesAllOrNothing, hresult, and_iff_left hkeeps, lt_iff_inRange_iff mem address hn]

end

/-- Half-words and words are read and written in whole or not at all, and
reported so, exactly when they do not straddle the end of the memory. -/
theorem all_or_nothing_iff (bigEndian : Bool) (mem : Memory) (address : Word) (be : Byte) :
    (∀ value, WritesAllOrNothing 2 mem address (memoryWriteHalf bigEndian mem address value be) ↔
      ¬ mem.Straddles address 2) ∧
    (∀ value, WritesAllOrNothing 4 mem address (memoryWriteWord bigEndian mem address value be) ↔
      ¬ mem.Straddles address 4) ∧
    (∀ bytearray value,
      ReadsAllOrNothing 2 mem address
          (memoryReadHalf bigEndian bytearray mem address value be).1 ↔
        ¬ mem.Straddles address 2) ∧
    (∀ bytearray value,
      ReadsAllOrNothing 4 mem address
          (memoryReadWord bigEndian bytearray mem address value be).1 ↔
        ¬ mem.Straddles address 4) :=
  ⟨writesAllOrNothing_iff (n := 2) bigEndian mem address be (by decide),
    writesAllOrNothing_iff (n := 4) bigEndian mem address be (by decide),
    readsAllOrNothing_iff (n := 2) bigEndian mem address be (by decide),
    readsAllOrNothing_iff (n := 4) bigEndian mem address be (by decide)⟩

/-- Eight bytes of memory, all 0. -/
def eightBytes : Memory := memoryCreate 8 fun _ => 0

/-- A word at 6: both functions return 0, and two bytes have been written. -/
theorem word_at_the_end_astray :
    ¬ eightBytes.InRange 6 4 ∧
    (memoryWriteWord false eightBytes 6 0x01020304 0).1 = 0 ∧
    (memoryWriteWord false eightBytes 6 0x01020304 0).2.byteAt 7 = 3 ∧
    ¬ WritesAllOrNothing 4 eightBytes 6 (memoryWriteWord false eightBytes 6 0x01020304 0) ∧
    ¬ ReadsAllOrNothing 4 eightBytes 6 (memoryReadWord false (fun _ => 0) eightBytes 6 0 0).1 := by
  have hout : ¬ eightBytes.InRange 6 4 := by decide
  refine ⟨hout, by decide +kernel, by decide +kernel, ?_, ?_⟩
  · rintro ⟨hresult, -⟩
    exact hout (hresult.mp (by decide +kernel))
  · intro hresult
    exact hout (hresult.mp (by decide +kernel))

end Armator
