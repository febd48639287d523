/-
The simulated memory of `memory.c`.

A half-word or a word is moved byte by byte through a local `bytearray`,
whose order against the value is chosen by comparing the host's byte
order with the requested one.  The two widths are the same code, so the
loops are written once for `n` bytes and each source function is that
code at its own width.

Two things the C text leaves open are arguments here:

  * the byte order of the host, `bigEndian`, which is what
    `is_big_endian()` answers;
  * the contents of the uninitialised `bytearray`, which are read when an
    access starts inside the memory and runs past its end.
-/
import Armator.Util
import Armator.Lib.ByteOrder
import Armator.Lib.Replay
import Mathlib.Data.List.FinRange

namespace Armator

open ByteOrder Replay

/-- `struct memory_data`.  The array has exactly `size` bytes, so an index
outside it cannot be written down.  `size` is an `int` that the code only
ever compares with a `uint32_t`, hence as an unsigned word. -/
structure Memory where
  size : Word
  memoryArray : Fin size.toNat → Byte

/-- `memory_create`: `malloc` leaves the bytes as they happen to be. -/
def memoryCreate (size : Word) (bytes : Nat → Byte) : Memory :=
  { size := size, memoryArray := fun i => bytes i }

/-! ## The host's view of a value -/

/-- `*((uint8_t *) &value + i)`: byte `i` of a value in the host's memory. -/
def hostBytes {n : Nat} (bigEndian : Bool) (value : BitVec (8 * n)) : Fin n → Byte :=
  orient bigEndian (toBytes value)

/-- The value whose bytes in the host's memory are `b`. -/
def ofHostBytes {n : Nat} (bigEndian : Bool) (b : Fin n → Byte) : BitVec (8 * n) :=
  ofBytes (orient bigEndian b)

/-- `(!is_big_endian() && be) || (is_big_endian() && !be)` -/
def swapBytes (bigEndian : Bool) (be : Byte) : Bool :=
  (!bigEndian && decide (be ≠ 0)) || (bigEndian && !decide (be ≠ 0))

/-! ## Reading -/

/-- `memory_read_byte` -/
def memoryReadByte (mem : Memory) (address : Word) (value : Byte) : Int × Byte :=
  if h : address.toNat < mem.size.toNat then (0, mem.memoryArray ⟨address.toNat, h⟩)
  else (-1, value)

/-- The common body of `memory_read_half` and `memory_read_word`. -/
def memoryReadBytes (n : Nat) (bigEndian : Bool) (bytearray : Fin n → Byte) (mem : Memory)
    (address : Word) (value : BitVec (8 * n)) (be : Byte) : Int × BitVec (8 * n) :=
  if address.toNat < mem.size.toNat then
    let bytearray := fun i : Fin n =>
      (memoryReadByte mem (address + BitVec.ofNat 32 i) (bytearray i)).2
    if swapBytes bigEndian be then
      (0, ofHostBytes bigEndian fun i => bytearray i.rev)
    else
      (0, ofHostBytes bigEndian fun i => bytearray i)
  else (-1, value)

/-- `memory_read_half` -/
def memoryReadHalf (bigEndian : Bool) (bytearray : Fin 2 → Byte) (mem : Memory)
    (address : Word) (value : Half) (be : Byte) : Int × Half :=
  memoryReadBytes 2 bigEndian bytearray mem address value be

/-- `memory_read_word` -/
def memoryReadWord (bigEndian : Bool) (bytearray : Fin 4 → Byte) (mem : Memory)
    (address : Word) (value : Word) (be : Byte) : Int × Word :=
  memoryReadBytes 4 bigEndian bytearray mem address value be

/-! ## Writing -/

/-- `memory_write_byte` -/
def memoryWriteByte (mem : Memory) (address : Word) (value : Byte) : Int × Memory :=
  if h : address.toNat < mem.size.toNat then
    (0, { mem with memoryArray := Function.update mem.memoryArray ⟨address.toNat, h⟩ value })
  else (-1, mem)

/-- The common body of `memory_write_half` and `memory_write_word`. -/
def memoryWriteBytes (n : Nat) (bigEndian : Bool) (mem : Memory) (address : Word)
    (value : BitVec (8 * n)) (be : Byte) : Int × Memory :=
  if address.toNat < mem.size.toNat then
    let bytearray := hostBytes bigEndian value
    if swapBytes bigEndian be then
      (0, (List.finRange n).foldl (fun mem (i : Fin n) =>
        (memoryWriteByte mem (address + BitVec.ofNat 32 i) (bytearray i.rev)).2) mem)
    else
      (0, (List.finRange n).foldl (fun mem (i : Fin n) =>
        (memoryWriteByte mem (address + BitVec.ofNat 32 i) (bytearray i)).2) mem)
  else (-1, mem)

/-- `memory_write_half` -/
def memoryWriteHalf (bigEndian : Bool) (mem : Memory) (address : Word) (value : Half)
    (be : Byte) : Int × Memory :=
  memoryWriteBytes 2 bigEndian mem address value be

/-- `memory_write_word` -/
def memoryWriteWord (bigEndian : Bool) (mem : Memory) (address : Word) (value : Word)
    (be : Byte) : Int × Memory :=
  memoryWriteBytes 4 bigEndian mem address value be

/-! ## Memory as a map of bytes

`byteAt` forgets the bound of the array; past the end it answers 0, which
no function of the source ever sees. -/

def Memory.byteAt (mem : Memory) (address : Word) : Byte :=
  if h : address.toNat < mem.size.toNat then mem.memoryArray ⟨address.toNat, h⟩ else 0

/-- An access of `n` bytes at `address` lies inside the memory. -/
def Memory.InRange (mem : Memory) (address : Word) (n : Nat) : Prop :=
  address.toNat + n ≤ mem.size.toNat

instance (mem : Memory) (address : Word) (n : Nat) : Decidable (mem.InRange address n) :=
  inferInstanceAs (Decidable (_ ≤ _))

/-- Two memories of one size with the same bytes are the same. -/
theorem Memory.ext_byteAt : ∀ {mem mem' : Memory}, mem.size = mem'.size →
    mem.byteAt = mem'.byteAt → mem = mem'
  | ⟨size, a⟩, ⟨_, a'⟩, rfl, hb => by
      have : a = a' := by
        funext i
        have hi : (BitVec.ofNat 32 i.val).toNat = i.val :=
          Nat.mod_eq_of_lt (Nat.lt_trans i.isLt size.isLt)
        have h := congrFun hb (BitVec.ofNat 32 i.val)
        simpa only [Memory.byteAt, hi, i.isLt, dite_true] using h
      rw [this]

theorem memoryReadByte_of_lt {mem : Memory} {address : Word} (value : Byte)
    (h : address.toNat < mem.size.toNat) :
    memoryReadByte mem address value = (0, mem.byteAt address) := by
  rw [memoryReadByte, dif_pos h, Memory.byteAt, dif_pos h]

@[simp] theorem memoryWriteByte_size (mem : Memory) (address : Word) (value : Byte) :
    (memoryWriteByte mem address value).2.size = mem.size := by
  unfold memoryWriteByte
  split <;> rfl

theorem memoryWriteByte_byteAt {mem : Memory} {address : Word} (value : Byte)
    (h : address.toNat < mem.size.toNat) :
    (memoryWriteByte mem address value).2.byteAt
      = Function.update mem.byteAt address value := by
  funext b
  rw [memoryWriteByte, dif_pos h]
  by_cases hb : b = address
  · subst hb
    simp [Memory.byteAt, h]
  · have hne : b.toNat ≠ address.toNat := fun he => hb (BitVec.eq_of_toNat_eq he)
    simp [Memory.byteAt, hb, Fin.ext_iff, hne]

/-! ## Accesses that stay inside the memory

There the host's byte order and the contents of `bytearray` drop out: the
two choices of order cancel, and only the requested one is left. -/

theorem swapBytes_xor (bigEndian : Bool) (be : Byte) :
    (bigEndian ^^ swapBytes bigEndian be) = decide (be ≠ 0) := by
  cases bigEndian <;> by_cases h : be = 0 <;> simp [swapBytes, h]

/-- The address of byte `i` of an access inside the memory. -/
theorem Memory.InRange.toNat_add {mem : Memory} {address : Word} {n : Nat}
    (h : mem.InRange address n) {i : Nat} (hi : i < n) :
    (address + BitVec.ofNat 32 i).toNat = address.toNat + i := by
  have hs := mem.size.isLt
  unfold Memory.InRange at h
  rw [BitVec.toNat_add, BitVec.toNat_ofNat, Nat.mod_eq_of_lt (show i < 2 ^ 32 by omega),
    Nat.mod_eq_of_lt (by omega)]

theorem Memory.InRange.lt {mem : Memory} {address : Word} {n : Nat}
    (h : mem.InRange address n) {i : Nat} (hi : i < n) :
    (address + BitVec.ofNat 32 i).toNat < mem.size.toNat := by
  rw [h.toNat_add hi]
  unfold Memory.InRange at h
  omega

theorem Memory.InRange.lt_zero {mem : Memory} {address : Word} {n : Nat}
    (h : mem.InRange address n) (hn : 0 < n) : address.toNat < mem.size.toNat := by
  unfold Memory.InRange at h
  omega

/-- The bytes of `n` consecutive addresses. -/
def Memory.bytesAt (mem : Memory) (address : Word) (n : Nat) : Fin n → Byte :=
  fun i => mem.byteAt (address + BitVec.ofNat 32 i)

/-- A read inside the memory puts the bytes together in the requested
order, whatever the host. -/
theorem memoryReadBytes_eq {n : Nat} (hn : 0 < n) {mem : Memory} {address : Word}
    (bigEndian : Bool) (bytearray : Fin n → Byte) (value : BitVec (8 * n)) (be : Byte)
    (h : mem.InRange address n) :
    memoryReadBytes n bigEndian bytearray mem address value be
      = (0, ofBytes (orient (decide (be ≠ 0)) (mem.bytesAt address n))) := by
  have hbytes : (fun i : Fin n =>
      (memoryReadByte mem (address + BitVec.ofNat 32 i) (bytearray i)).2)
        = mem.bytesAt address n := by
    funext i
    rw [memoryReadByte_of_lt _ (h.lt i.isLt)]
    rfl
  have hswap : ∀ s : Bool, swapBytes bigEndian be = s →
      ofHostBytes bigEndian (orient s (mem.bytesAt address n))
        = ofBytes (orient (decide (be ≠ 0)) (mem.bytesAt address n)) := by
    intro s hs
    rw [ofHostBytes, orient_orient, ← hs, swapBytes_xor]
  rw [memoryReadBytes, if_pos (h.lt_zero hn), hbytes]
  cases hs : swapBytes bigEndian be with
  | true =>
      rw [if_pos rfl, ← hswap true hs]
      rfl
  | false =>
      rw [if_neg Bool.false_ne_true, ← hswap false hs]
      rfl

/-- The word at an address, most significant byte first when `be` is set. -/
def Memory.wordAt (mem : Memory) (be : Byte) (address : Word) : Word :=
  ofBytes (orient (decide (be ≠ 0)) (mem.bytesAt address 4))

theorem memoryReadWord_eq {mem : Memory} {address : Word} (bigEndian : Bool)
    (bytearray : Fin 4 → Byte) (value : Word) (be : Byte) (h : mem.InRange address 4) :
    memoryReadWord bigEndian bytearray mem address value be = (0, mem.wordAt be address) :=
  memoryReadBytes_eq (by decide) bigEndian bytearray value be h

/-- The half-word at an address. -/
def Memory.halfAt (mem : Memory) (be : Byte) (address : Word) : Half :=
  ofBytes (orient (decide (be ≠ 0)) (mem.bytesAt address 2))

theorem memoryReadHalf_eq {mem : Memory} {address : Word} (bigEndian : Bool)
    (bytearray : Fin 2 → Byte) (value : Half) (be : Byte) (h : mem.InRange address 2) :
    memoryReadHalf bigEndian bytearray mem address value be = (0, mem.halfAt be address) :=
  memoryReadBytes_eq (by decide) bigEndian bytearray value be h

/-- The byte writes of one `n`-byte access, in increasing address order:
most significant byte first when `be` is set. -/
def writeEntries {n : Nat} (address : Word) (value : BitVec (8 * n)) (be : Byte) :
    List (Word × Byte) :=
  (List.finRange n).map fun i : Fin n =>
    (address + BitVec.ofNat 32 i, orient (decide (be ≠ 0)) (toBytes value) i)

/-- The byte loop, for any bytes: it keeps the size and replays its writes. -/
theorem writeLoop_replay {n : Nat} {mem : Memory} {address : Word} (b : Fin n → Byte)
    (h : mem.InRange address n) :
    ((List.finRange n).foldl (fun mem (i : Fin n) =>
        (memoryWriteByte mem (address + BitVec.ofNat 32 i) (b i)).2) mem).size = mem.size ∧
      ((List.finRange n).foldl (fun mem (i : Fin n) =>
        (memoryWriteByte mem (address + BitVec.ofNat 32 i) (b i)).2) mem).byteAt
        = replay mem.byteAt
            ((List.finRange n).map fun i : Fin n => (address + BitVec.ofNat 32 i, b i)) := by
  have hrun := foldl_replay Memory.byteAt
    (fun mem (i : Fin n) => (memoryWriteByte mem (address + BitVec.ofNat 32 i) (b i)).2)
    (fun i => [(address + BitVec.ofNat 32 i, b i)])
    (fun mem' => mem'.size = mem.size) (fun _ => True)
    (by
      intro mem' i hsize _
      refine ⟨by rw [memoryWriteByte_size, hsize], ?_⟩
      exact memoryWriteByte_byteAt _ (hsize ▸ h.lt i.isLt))
    (List.finRange n) mem rfl (fun _ _ => trivial)
  rw [← List.map_eq_flatMap] at hrun
  exact hrun

/-- A write inside the memory succeeds, keeps the size and replays the
bytes of the value in the requested order, whatever the host. -/
theorem memoryWriteBytes_eq {n : Nat} (hn : 0 < n) {mem : Memory} {address : Word}
    (bigEndian : Bool) (value : BitVec (8 * n)) (be : Byte) (h : mem.InRange address n) :
    (memoryWriteBytes n bigEndian mem address value be).1 = 0 ∧
      (memoryWriteBytes n bigEndian mem address value be).2.size = mem.size ∧
      (memoryWriteBytes n bigEndian mem address value be).2.byteAt
        = replay mem.byteAt (writeEntries address value be) := by
  have horder : ∀ s : Bool, swapBytes bigEndian be = s →
      orient s (hostBytes bigEndian value) = orient (decide (be ≠ 0)) (toBytes value) := by
    intro s hs
    rw [hostBytes, orient_orient, ← hs, Bool.xor_comm, swapBytes_xor]
  rw [memoryWriteBytes, if_pos (h.lt_zero hn), writeEntries]
  cases hs : swapBytes bigEndian be with
  | true =>
      rw [if_pos rfl, ← horder true hs]
      exact ⟨rfl, writeLoop_replay (orient true (hostBytes bigEndian value)) h⟩
  | false =>
      rw [if_neg Bool.false_ne_true, ← horder false hs]
      exact ⟨rfl, writeLoop_replay (orient false (hostBytes bigEndian value)) h⟩

/-- No write changes the size. -/
theorem memoryWriteBytes_size {n : Nat} (bigEndian : Bool) (mem : Memory) (address : Word)
    (value : BitVec (8 * n)) (be : Byte) :
    (memoryWriteBytes n bigEndian mem address value be).2.size = mem.size := by
  have hloop : ∀ (b : Fin n → Byte) (l : List (Fin n)) (mem' : Memory),
      (l.foldl (fun mem (i : Fin n) =>
        (memoryWriteByte mem (address + BitVec.ofNat 32 i) (b i)).2) mem').size = mem'.size := by
    intro b l
    induction l with
    | nil => intro mem'; rfl
    | cons i l ih => intro mem'; rw [List.foldl_cons, ih, memoryWriteByte_size]
  unfold memoryWriteBytes
  split_ifs
  · exact hloop _ _ mem
  · exact hloop _ _ mem
  · rfl

end Armator
