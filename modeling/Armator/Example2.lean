/-
The second example, `Examples/example2.s`: the byte order of a build.

`main` puts the word 0x12345678 together byte by byte, stores it at 0x2000,
and loads the first and the last of its four bytes:

    main:  mov r0, #0x12
           mov r1, #0x34
           add r0, r1, r0, lsl #8
           mov r1, #0x56
           add r0, r1, r0, lsl #8
           mov r1, #0x78
           add r0, r1, r0, lsl #8
           mov r1, #0x2000
           str r0, [r1]
           ldrb r2, [r1]
           add r1, r1, #3
           ldrb r3, [r1]
           swi 0x123456

So r2 and r3 tell the byte order that the simulator was built with, on a
host of either order.
-/
import Armator.Example1
import Armator.Shifter

namespace Armator

open ByteOrder Progress Relation

/-- `add r0, r1, r0, lsl #8` -/
def addShifted : Word := 0xE0810400

def example2 : List Word :=
  [0xE3A00012, 0xE3A01034, addShifted, 0xE3A01056, addShifted, 0xE3A01078, addShifted,
    0xE3A01A02, 0xE5810000, 0xE5D12000, 0xE2811003, 0xE5D13000, 0xEF123456]

/-! ## The memory -/

/-- The bytes of a word. -/
theorem byteAt_of_wordAt {mem : Memory} {be : Byte} {address value : Word}
    (hword : mem.wordAt be address = value) (i : Fin 4) :
    mem.byteAt (address + BitVec.ofNat 32 i)
      = orient (decide (be ≠ 0)) (toBytes (n := 4) value) i := by
  rw [← hword, Memory.wordAt, toBytes_ofBytes, orient_orient, Bool.xor_self, orient_false]
  rfl

/-- An address that is the value of r1. -/
structure PlainBase (ins : Word) : Prop where
  before : bitP ins ≠ 0
  immediate : getBit ins 25 = 0
  offset : getBits ins 11 0 = 0
  Rn : bitsRn ins = 1

theorem PlainBase.address {ins : Word} (hi : PlainBase ins) (p : ArmCore) (A : Word) :
    indexed ins (operandAt p A (bitsRn ins)) (plainOffset p A ins) = armReadRegister p 1 := by
  have hr1 : operandAt p A 1 = armReadRegister p 1 := if_neg (by decide)
  rw [indexed, if_pos hi.before, hi.Rn, hr1, plainOffset, if_pos hi.immediate, hi.offset,
    offsetBase]
  split
  · exact BitVec.add_zero _
  · exact BitVec.sub_zero _

/-! ## Straight-line code -/

/-- The run that began in `p₀` is at the word `i`, with these values in these
registers, and has changed no others. -/
structure At (A : Word) (p₀ : ArmCore) (i : ℕ) (values : List (Fin 16 × Word)) (p : ArmCore) :
    Prop where
  pc : p.reg 15 = wordAddress A i
  values : ∀ e ∈ values, armReadRegister p e.1 = e.2
  changes : Changes [0, 1, 2, 3] p₀ p

/-- Where `values` were known, `values'` are known after `value` has been
written to `n`. -/
def Known (values : List (Fin 16 × Word)) (n : Fin 16) (value : Word)
    (values' : List (Fin 16 × Word)) : Prop :=
  ∀ e ∈ values', e = (n, value) ∨ e ∈ values ∧ e.1 ≠ n ∧ e.1 ≠ 15

instance (values values' : List (Fin 16 × Word)) (n : Fin 16) (value : Word) :
    Decidable (Known values n value values') :=
  List.decidableBAll _ _

/-- One register more. -/
theorem known_concat {values : List (Fin 16 × Word)} {n : Fin 16} {value : Word}
    (hvalues : ∀ e ∈ values, e.1 ≠ n ∧ e.1 ≠ 15) :
    Known values n value (values ++ [(n, value)]) := by
  intro e he
  cases List.mem_append.mp he with
  | inl he => exact .inr ⟨he, hvalues e he⟩
  | inr he => exact .inl (List.mem_singleton.mp he)

section

variable {h : Host} {stop : Word → Prop} {A ins : Word} {words : List Word} {p₀ p : ArmCore} {i : ℕ}
  {values values' : List (Fin 16 × Word)}

/-- After a step that writes `value` to `Rd`. -/
theorem At.after (hp : At A p₀ i values p) {p' : ArmCore} {value : Word}
    (hpc : p'.reg 15 = wordAddress A i + 4) (hvalue : armReadRegister p' (rdNum ins) = value)
    (hRd : rdNum ins ∈ ([0, 1, 2, 3] : List (Fin 16))) (hchanges : Changes [rdNum ins] p p')
    (hvalues : Known values (rdNum ins) value values') :
    At A p₀ (i + 1) values' p' where
  pc := hpc.trans (wordAddress_succ A i).symm
  values := by
    intro e he
    obtain rfl | ⟨he, hne, h15⟩ := hvalues e he
    · exact hvalue
    · rw [hchanges.read h15 (by rwa [List.mem_singleton]), hp.values e he]
  changes := hp.changes.trans (hchanges.mono (List.cons_subset.mpr ⟨hRd, List.nil_subset _⟩))

/-- An operation that sets no flags. -/
theorem At.compute (hp : At A p₀ i values p) (hl : Loaded h A words p₀.mem)
    (hi : words[i]? = some ins) (halways : getBits ins 31 28 = 0b1110) {op : Opcode}
    (hop : IsDataProcessing op ins) (hw : op.compares = false)
    (hRd : rdNum ins ∈ ([0, 1, 2, 3] : List (Fin 16))) (h15 : rdNum ins ≠ 15)
    {sv : ShifterValues} (hsv : shifterValues h (fetched p) ins = some sv) {value : Word}
    (hvalue : opValue op (fetched p) ins sv = value)
    (hvalues : Known values (rdNum ins) value values')
    (hgo : ¬ stop (wordAddress A (i + 1))) :
    ∃ p', Goes h stop p p' ∧ At A p₀ (i + 1) values' p' := by
  obtain ⟨p', hstep, hpc, hresult, -, -, hchanges⟩ := dataProcessing_rule
    ((hp.changes.loaded hl).fetchedAt hi hp.pc) (armCondition_always halways) hop (fun _ => h15) hsv
    (by rwa [← wordAddress_succ])
  exact ⟨p', hstep, hp.after hpc ((hresult hw).trans hvalue) hRd hchanges hvalues⟩

/-- `mov Rd, #value` -/
theorem At.move (hp : At A p₀ i values p) (hl : Loaded h A words p₀.mem)
    (hi : words[i]? = some ins) (halways : getBits ins 31 28 = 0b1110)
    (hop : (getBits ins 24 21).toNat = Opcode.mov.code) (hclass : insClass ins = .dpImmediate)
    (hRd : rdNum ins ∈ ([0, 1, 2, 3] : List (Fin 16))) (h15 : rdNum ins ≠ 15) {value : Word}
    (hvalue : immediateOperand h ins = value)
    (hvalues : Known values (rdNum ins) value values')
    (hgo : ¬ stop (wordAddress A (i + 1))) :
    ∃ p', Goes h stop p p' ∧ At A p₀ (i + 1) values' p' :=
  hp.compute hl hi halways ⟨.inr hclass, hop⟩ rfl hRd h15 (if_pos hclass) hvalue hvalues hgo

theorem shifterValues_of_shift (h : Host) (hclass : insClass ins ≠ .dpImmediate) :
    shifterValues h p ins = shifterValuesCalculator p ins (flagC p) := if_neg hclass

/-- `add r0, r1, r0, lsl #8` puts a byte behind a number. -/
theorem At.shift (hp : At A p₀ i values p) (hl : Loaded h A words p₀.mem)
    (hi : words[i]? = some addShifted) (number byte : Word) (hnumber : (0, number) ∈ values)
    (hbyte : (1, byte) ∈ values) {value : Word} (hsum : byte + number <<< 8 = value)
    (hgo : ¬ stop (wordAddress A (i + 1))) :
    ∃ p', Goes h stop p p' ∧ At A p₀ (i + 1) [(0, value)] p' := by
  have hclass : insClass addShifted ≠ .dpImmediate := by decide
  have hshift : IsImmediateShift .lsl addShifted := ⟨by decide, by decide⟩
  have hadd : IsDataProcessing .add addShifted := ⟨.inl (by decide), by decide⟩
  obtain ⟨sv, hsv, hoperand⟩ : ∃ sv, shifterValues h (fetched p) addShifted = some sv ∧
      sv.shifterOperand = armReadRegister (fetched p) 0 <<< 8 := by
    have hshifted := hshift.values (fetched p) (flagSet (fetched p))
    rw [carryByte_flagSet, ← shifterValues_of_shift h hclass] at hshifted
    exact ⟨_, hshifted, rfl⟩
  have hr0 : armReadRegister (fetched p) 0 = number :=
    (armReadRegister_fetched p (by decide)).trans (hp.values _ hnumber)
  have hr1 : armReadRegister (fetched p) 1 = byte :=
    (armReadRegister_fetched p (by decide)).trans (hp.values _ hbyte)
  have hvalue : opValue .add (fetched p) addShifted sv = value := by
    show armReadRegister (fetched p) 1 + sv.shifterOperand = _
    rw [hoperand, hr0, hr1, hsum]
  refine hp.compute hl hi (by decide) hadd rfl (by decide) (by decide) hsv hvalue ?_ hgo
  intro e he
  exact .inl (List.mem_singleton.mp he)

/-- `ldrb Rd, [r1]` -/
theorem At.loadByte (hp : At A p₀ i values p) (hl : Loaded h A words p₀.mem)
    (hi : words[i]? = some ins) (halways : getBits ins 31 28 = 0b1110) (hform : IsMode2 ins)
    (hindex : bitP ins ≠ bitW ins) (hL : bitL ins ≠ 0) (hB : bitB ins ≠ 0)
    (hRd : rdNum ins ∈ ([0, 1, 2, 3] : List (Fin 16))) (h15 : rdNum ins ≠ 15)
    (haddress : PlainBase ins) {address value : Word} (hr1 : (1, address) ∈ values)
    (hin : p₀.mem.InRange address 1) (hvalue : (p₀.mem.byteAt address).setWidth 32 = value)
    (hvalues : Known values (rdNum ins) value values')
    (hgo : ¬ stop (wordAddress A (i + 1))) :
    ∃ p', Goes h stop p p' ∧ At A p₀ (i + 1) values' p' := by
  have hwidth : mode2Width ins = 1 := if_neg hB
  have hmem := hp.changes.mem
  obtain ⟨p', hstep, hpc, hread, -, hchanges⟩ := load_rule
    ((hp.changes.loaded hl).fetchedAt hi hp.pc) (armCondition_always halways) hform hindex hL h15
    ((haddress.address p _).trans (hp.values _ hr1)) (by rwa [hwidth, hmem])
    (by rwa [← wordAddress_succ])
  rw [mode2Loaded, if_neg hB, hmem, hvalue] at hread
  exact ⟨p', hstep, hp.after hpc hread hRd hchanges hvalues⟩

/-! ## The program -/

/-- The word is put together, from the first address on. -/
theorem example2_builds (hh : h.ShiftsOut) (hl : Loaded h A example2 p₀.mem)
    (hgo : ∀ i < 13, ¬ stop (wordAddress A i)) (hpc : p₀.reg 15 = wordAddress A 0) :
    ∃ p, ReflTransGen (Goes h stop) p₀ p ∧ At A p₀ 8 [(0, 0x12345678), (1, 0x2000)] p := by
  have hmov : ∀ {ins : Word}, getBits ins 11 8 = 0 → immediateOperand h ins = getBits ins 7 0 :=
    immediateOperand_unrotated hh
  have hstart : At A p₀ 0 [] p₀ := ⟨hpc, fun _ he => absurd he List.not_mem_nil, .refl p₀⟩
  obtain ⟨p₁, hs₁, h₁⟩ : ∃ p', Goes h stop p₀ p' ∧ At A p₀ 1 [(0, 0x12)] p' :=
    hstart.move hl rfl (by decide) (by decide) (by decide) (by decide) (by decide)
      (hmov (by decide)) (by decide) (hgo 1 (by decide))
  obtain ⟨p₂, hs₂, h₂⟩ : ∃ p', Goes h stop p₁ p' ∧ At A p₀ 2 [(0, 0x12), (1, 0x34)] p' :=
    h₁.move hl rfl (by decide) (by decide) (by decide) (by decide) (by decide)
      (hmov (by decide)) (by decide) (hgo 2 (by decide))
  obtain ⟨p₃, hs₃, h₃⟩ : ∃ p', Goes h stop p₂ p' ∧ At A p₀ 3 [(0, 0x1234)] p' :=
    h₂.shift hl rfl 0x12 0x34 (by decide) (by decide) (by decide) (hgo 3 (by decide))
  obtain ⟨p₄, hs₄, h₄⟩ : ∃ p', Goes h stop p₃ p' ∧ At A p₀ 4 [(0, 0x1234), (1, 0x56)] p' :=
    h₃.move hl rfl (by decide) (by decide) (by decide) (by decide) (by decide)
      (hmov (by decide)) (by decide) (hgo 4 (by decide))
  obtain ⟨p₅, hs₅, h₅⟩ : ∃ p', Goes h stop p₄ p' ∧ At A p₀ 5 [(0, 0x123456)] p' :=
    h₄.shift hl rfl 0x1234 0x56 (by decide) (by decide) (by decide) (hgo 5 (by decide))
  obtain ⟨p₆, hs₆, h₆⟩ : ∃ p', Goes h stop p₅ p' ∧ At A p₀ 6 [(0, 0x123456), (1, 0x78)] p' :=
    h₅.move hl rfl (by decide) (by decide) (by decide) (by decide) (by decide)
      (hmov (by decide)) (by decide) (hgo 6 (by decide))
  obtain ⟨p₇, hs₇, h₇⟩ : ∃ p', Goes h stop p₆ p' ∧ At A p₀ 7 [(0, 0x12345678)] p' :=
    h₆.shift hl rfl 0x123456 0x78 (by decide) (by decide) (by decide) (hgo 7 (by decide))
  have hrotated : immediateOperand h 0xE3A01A02 = 0x2000 := by
    have hrotate : ¬ (getBits 0xE3A01A02 11 8).toNat = 0 := by decide
    unfold immediateOperand
    simp only [if_neg hrotate]
    decide
  obtain ⟨p₈, hs₈, h₈⟩ :
      ∃ p', Goes h stop p₇ p' ∧ At A p₀ 8 [(0, 0x12345678), (1, 0x2000)] p' :=
    h₇.move hl rfl (by decide) (by decide) (by decide) (by decide) (by decide) hrotated
      (by decide) (hgo 8 (by decide))
  exact ⟨p₈, .head hs₁ (.head hs₂ (.head hs₃ (.head hs₄ (.head hs₅ (.head hs₆ (.head hs₇
    (.single hs₈))))))), h₈⟩

/-- The word is stored, and the program is still there. -/
theorem example2_stores (hl : Loaded h A example2 p₀.mem)
    (hgo : ∀ i < 13, ¬ stop (wordAddress A i)) (hin : p₀.mem.InRange 0x2000 4)
    (hapart : ∀ i < 13, ∀ j < 4, wordAddress A i + BitVec.ofNat 32 j ∉ bytesFrom 0x2000 4)
    (hp : At A p₀ 8 [(0, 0x12345678), (1, 0x2000)] p) :
    ∃ p' mem', Goes h stop p p' ∧ mem'.size = p₀.mem.size ∧
      mem'.wordAt h.endianess 0x2000 = 0x12345678 ∧
      (∀ b ∉ bytesFrom 0x2000 4, mem'.byteAt b = p₀.mem.byteAt b) ∧
      Loaded h A example2 mem' ∧
      At A (p₀.withMem mem') 9 [(0, 0x12345678), (1, 0x2000)] p' := by
  have hbase : PlainBase 0xE5810000 := ⟨by decide, by decide, by decide, by decide⟩
  have hstr : IsMode2 0xE5810000 := ⟨.inl (by decide), by decide⟩
  have hwidth : mode2Width 0xE5810000 = 4 := if_pos (by decide)
  have hr0 : armReadRegister p 0 = 0x12345678 := hp.values (0, 0x12345678) (by decide)
  have hr1 : armReadRegister p 1 = 0x2000 := hp.values (1, 0x2000) (by decide)
  have hRd : rdNum 0xE5810000 = 0 := by decide
  obtain ⟨p', mem', hstep, hpc, hstored, -, hchanges⟩ := store_rule
    ((hp.changes.loaded hl).fetchedAt (i := 8) rfl hp.pc) (armCondition_always (by decide)) hstr
    (by decide) (by decide) (by decide) ((hbase.address p _).trans hr1)
    (by rwa [hwidth, hp.changes.mem]) (by rw [← wordAddress_succ]; exact hgo 9 (by decide))
  rw [hRd, hr0, hp.changes.mem] at hstored
  have hword := hstored.word (by decide)
  have hbytes := hstored.bytes
  rw [hwidth] at hbytes
  refine ⟨p', mem', hstep, hstored.size, hword, hbytes,
    hl.of_bytes hstored.size fun i hi j hj => hbytes _ (hapart i hi j hj), ?_, fun e he => ?_,
    (hp.changes.withMem mem').trans (hchanges.mono (List.nil_subset _))⟩
  · exact hpc.trans (wordAddress_succ A 8).symm
  · have h15 : ∀ e ∈ [((0 : Fin 16), (0x12345678 : Word)), (1, 0x2000)], e.1 ≠ 15 := by simp
    rw [hchanges.read (h15 e he) List.not_mem_nil]
    exact hp.values e he

/-- The first and the last byte of a word, in the order of a build. -/
theorem ends_of_wordAt {mem : Memory} {be : Byte} (hword : mem.wordAt be 0x2000 = 0x12345678) :
    (mem.byteAt 0x2000).setWidth 32 = (if be = 0 then 0x78 else 0x12 : Word) ∧
      (mem.byteAt 0x2003).setWidth 32 = (if be = 0 then 0x12 else 0x78 : Word) := by
  have hfirst : mem.byteAt 0x2000 = _ := byteAt_of_wordAt hword 0
  have hlast : mem.byteAt 0x2003 = _ := byteAt_of_wordAt hword 3
  rw [hfirst, hlast]
  by_cases hbe : be = 0
  · rw [if_pos hbe, if_pos hbe, decide_eq_false (not_not.mpr hbe)]
    decide
  · rw [if_neg hbe, if_neg hbe, decide_eq_true hbe]
    decide

/-- Its bytes are loaded, in the order of the build. -/
theorem example2_loads (hh : h.ShiftsOut) (hl : Loaded h A example2 p₀.mem)
    (hgo : ∀ i < 13, ¬ stop (wordAddress A i)) (hin : p₀.mem.InRange 0x2000 4)
    (hword : p₀.mem.wordAt h.endianess 0x2000 = 0x12345678)
    (hp : At A p₀ 9 [(0, 0x12345678), (1, 0x2000)] p) :
    ∃ p', ReflTransGen (Goes h stop) p p' ∧
      At A p₀ 12 [(0, 0x12345678), (1, 0x2003), (2, if h.endianess = 0 then 0x78 else 0x12),
        (3, if h.endianess = 0 then 0x12 else 0x78)] p' := by
  obtain ⟨hfirst, hlast⟩ := ends_of_wordAt hword
  generalize (if h.endianess = 0 then 0x78 else 0x12 : Word) = first at hfirst ⊢
  generalize (if h.endianess = 0 then 0x12 else 0x78 : Word) = last at hlast ⊢
  have hin₀ : p₀.mem.InRange 0x2000 1 := by
    unfold Memory.InRange at hin ⊢
    omega
  have hin₃ : p₀.mem.InRange 0x2003 1 := by
    unfold Memory.InRange at hin ⊢
    have h2000 : (0x2000 : Word).toNat = 0x2000 := rfl
    have h2003 : (0x2003 : Word).toNat = 0x2003 := rfl
    omega
  -- `ldrb r2, [r1]`
  have hldrb : example2[9]? = some 0xE5D12000 := rfl
  have hknown : ∀ e ∈ ([(0, 0x12345678), (1, 0x2000)] : List (Fin 16 × Word)),
      e.1 ≠ rdNum 0xE5D12000 ∧ e.1 ≠ 15 := by
    have hRd : rdNum 0xE5D12000 = 2 := by decide
    rw [hRd]
    simp
  obtain ⟨p₁, hs₁, h₁⟩ : ∃ p', Goes h stop p p' ∧
      At A p₀ 10 [(0, 0x12345678), (1, 0x2000), (2, first)] p' :=
    hp.loadByte hl hldrb (by decide) ⟨.inl (by decide), by decide⟩ (by decide)
      (by decide) (by decide) (by decide) (by decide) ⟨by decide, by decide, by decide, by decide⟩
      (by decide) hin₀ hfirst (known_concat hknown) (hgo 10 (by decide))
  -- `add r1, r1, #3`
  have hthree : immediateOperand h 0xE2811003 = 3 := immediateOperand_unrotated hh (by decide)
  have hr1 : armReadRegister (fetched p₁) 1 = 0x2000 :=
    (armReadRegister_fetched p₁ (by decide)).trans
      (h₁.values (1, 0x2000) (List.mem_cons_of_mem _ List.mem_cons_self))
  have hsum : opValue .add (fetched p₁) 0xE2811003 (immediateValues h (fetched p₁) 0xE2811003)
      = 0x2003 := by
    show armReadRegister (fetched p₁) 1 + immediateOperand h 0xE2811003 = _
    rw [hr1, hthree]
    rfl
  have hadd : IsDataProcessing .add 0xE2811003 := ⟨.inr (by decide), by decide⟩
  have hRd : rdNum 0xE2811003 = 1 := by decide
  obtain ⟨p₂, hs₂, h₂⟩ : ∃ p', Goes h stop p₁ p' ∧
      At A p₀ 11 [(0, 0x12345678), (1, 0x2003), (2, first)] p' := by
    refine h₁.compute hl rfl (by decide) hadd rfl (by decide) (by decide) (if_pos (by decide)) hsum
      ?_ (hgo 11 (by decide))
    rw [hRd]
    simp [Known]
  -- `ldrb r3, [r1]`
  have hldrb' : example2[11]? = some 0xE5D13000 := rfl
  have hknown' : ∀ e ∈ ([(0, 0x12345678), (1, 0x2003), (2, first)] : List (Fin 16 × Word)),
      e.1 ≠ rdNum 0xE5D13000 ∧ e.1 ≠ 15 := by
    have hRd' : rdNum 0xE5D13000 = 3 := by decide
    rw [hRd']
    simp
  obtain ⟨p₃, hs₃, h₃⟩ : ∃ p', Goes h stop p₂ p' ∧
      At A p₀ 12 [(0, 0x12345678), (1, 0x2003), (2, first), (3, last)] p' :=
    h₂.loadByte hl hldrb' (by decide) ⟨.inl (by decide), by decide⟩ (by decide)
      (by decide) (by decide) (by decide) (by decide) ⟨by decide, by decide, by decide, by decide⟩
      (List.mem_cons_of_mem _ List.mem_cons_self) hin₃ hlast
      (known_concat hknown') (hgo 12 (by decide))
  exact ⟨p₃, .head hs₁ (.head hs₂ (.single hs₃)), h₃⟩

/-- Wherever the example is loaded beside the word at 0x2000: from `main` it
comes to its end, with the word stored and its two ends in r2 and r3, in the
order of the build. -/
theorem example2_ends (hh : h.ShiftsOut) (hgo : ∀ i < 13, ¬ stop (wordAddress A i))
    (p₀ : ArmCore) (hl : Loaded h A example2 p₀.mem) (hin : p₀.mem.InRange 0x2000 4)
    (hapart : ∀ i < 13, ∀ j < 4, wordAddress A i + BitVec.ofNat 32 j ∉ bytesFrom 0x2000 4) :
    Ends h stop (fun p => p = p₀ ∧ p.reg 15 = wordAddress A 0) fun r p' =>
      r = END_SIMULATION ∧ p'.reg 15 = wordAddress A 13 ∧
        armReadRegister p' 0 = 0x12345678 ∧ armReadRegister p' 1 = 0x2003 ∧
        armReadRegister p' 2 = (if h.endianess = 0 then 0x78 else 0x12) ∧
        armReadRegister p' 3 = (if h.endianess = 0 then 0x12 else 0x78) ∧
        p'.mem.size = p₀.mem.size ∧ p'.mem.wordAt h.endianess 0x2000 = 0x12345678 ∧
        (∀ b ∉ bytesFrom 0x2000 4, p'.mem.byteAt b = p₀.mem.byteAt b) ∧
        Changes [0, 1, 2, 3, 14] (p₀.withMem p'.mem) p' := by
  intro p hp
  obtain ⟨rfl, hpc⟩ := hp
  obtain ⟨p₁, hrun₁, h₁⟩ := example2_builds hh hl hgo hpc
  obtain ⟨p₂, mem', hs₂, hsize, hword, hbytes, hl₂, h₂⟩ := example2_stores hl hgo hin hapart h₁
  have hin₂ : (p.withMem mem').mem.InRange 0x2000 4 := hin.of_size hsize
  obtain ⟨p₃, hrun₃, h₃⟩ :=
    @example2_loads h stop A (p.withMem mem') p₂ hh hl₂ hgo hin₂ hword h₂
  obtain ⟨p', hstop, hpc', -, hchanges⟩ := @end_rule h stop p₃ _ _
    ((h₃.changes.loaded hl₂).fetchedAt (i := 12) rfl h₃.pc) (armCondition_always (by decide))
    ⟨by decide, by decide⟩
  have hmem : p'.mem = mem' := hchanges.mem.trans h₃.changes.mem
  rw [← hmem] at hsize hword hbytes h₃
  have hread : ∀ n, n ≠ 15 → n ≠ 14 → armReadRegister p' n = armReadRegister p₃ n :=
    fun n h15 h14 => hchanges.read h15 (by rwa [List.mem_singleton])
  have hr0 := h₃.values _ List.mem_cons_self
  have hr1 := h₃.values _ (List.mem_cons_of_mem _ List.mem_cons_self)
  have hr2 := h₃.values _ (List.mem_cons_of_mem _ (List.mem_cons_of_mem _ List.mem_cons_self))
  have hr3 := h₃.values _ (List.mem_cons_of_mem _ (List.mem_cons_of_mem _
    (List.mem_cons_of_mem _ List.mem_cons_self)))
  exact ⟨p₃, (hrun₁.tail hs₂).trans hrun₃, END_SIMULATION, p', hstop, rfl,
    hpc'.trans (wordAddress_succ A 12).symm, (hread 0 (by decide) (by decide)).trans hr0,
    (hread 1 (by decide) (by decide)).trans hr1, (hread 2 (by decide) (by decide)).trans hr2,
    (hread 3 (by decide) (by decide)).trans hr3, hsize, hword, hbytes,
    (h₃.changes.mono (by decide)).trans (hchanges.mono (by decide))⟩

end

end Armator
