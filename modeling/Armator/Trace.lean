/-
The trace of the memory, `trace.c`.

With `--trace-memory` every access of the processor to the memory writes one
line to the trace file (`trace_memory`).  The lines can be told apart, and so
can the files (`traceFile_injective`).

The other switches write other lines to the same file; here they are off.
`enabled` is 1 and stays so, and the letters for sequential accesses are
empty in this format.
-/
import Armator.Core
import Armator.Lib.Printf

namespace Armator

open CText

/-! ## Lines -/

/-- `WRITE` and `READ` -/
inductive AccessType where
  | write | read
deriving DecidableEq

/-- `OTHER_ACCESS` and `OPCODE_FETCH` -/
inductive Cause where
  | otherAccess | opcodeFetch
deriving DecidableEq

/-- The arguments of `trace_memory`. -/
@[ext] structure TracedAccess where
  cycle : Word
  type : AccessType
  size : ℕ
  cause : Cause
  address : Word
  value : Word
deriving DecidableEq

/-- `MEMORY` -/
def MEMORY : ℕ := 32

/-- `trace_memory_type` -/
def AccessType.text : AccessType → Text
  | .write => bytes "write"
  | .read => bytes "read"

/-- `trace_memory_cause` -/
def Cause.text : Cause → Text
  | .otherAccess => bytes ""
  | .opcodeFetch => bytes ", fetch"

/-- What the `fprintf` of `trace_memory` writes. -/
def TracedAccess.text (t : TracedAccess) : Text :=
  bytes "Cycle " ++ signedText t.cycle ++ bytes ", Mem " ++ t.type.text ++ bytes " (" ++
    decimalText t.size ++ bytes " bytes" ++ t.cause.text ++ bytes ") addr: " ++
    upperText 8 t.address.toNat ++ bytes ", val: " ++ upperText 8 t.value.toNat ++ bytes "\n"

/-- `trace_memory`, on `output` -/
def traceMemory (trace_flags : ℕ) (output : Text) (t : TracedAccess) : Text :=
  if trace_flags &&& MEMORY ≠ 0 then output ++ t.text else output

/-- The file that some accesses leave. -/
def traceFile (log : List TracedAccess) : Text := log.foldl (traceMemory MEMORY) []

/-! ## Reading them -/

theorem AccessType.text_injective : Function.Injective AccessType.text := by
  intro type type'
  cases type <;> cases type' <;> decide

theorem Cause.text_injective : Function.Injective Cause.text := by
  intro cause cause'
  cases cause <;> cases cause' <;> decide

theorem AccessType.space_notMem (type : AccessType) : ch ' ' ∉ type.text := by
  cases type <;> decide

theorem Cause.paren_notMem (cause : Cause) : ch ')' ∉ cause.text := by
  cases cause <;> decide

theorem comma_notMem_signedText (x : Word) : ch ',' ∉ signedText x := by
  intro hc
  rcases signedText_mem hc with hc | hc
  · exact absurd hc (by decide)
  · exact absurd hc (by decide)

theorem space_notMem_decimalText (n : ℕ) : ch ' ' ∉ decimalText n :=
  fun hc => absurd (isDigit_of_mem_decimalText hc) (by decide)

/-- Eight digits and what is behind them. -/
theorem upperText_append_cancel {x x' : Word} {rest rest' : Text}
    (heq : upperText 8 x.toNat ++ rest = upperText 8 x'.toNat ++ rest') :
    x = x' ∧ rest = rest' := by
  obtain ⟨hx, hrest⟩ := List.append_inj heq (by rw [length_upperText, length_upperText])
  exact ⟨BitVec.eq_of_toNat_eq (upperText_inj x.isLt x'.isLt hx), hrest⟩

/-- A line, with the characters its fields end at. -/
theorem TracedAccess.text_append (t : TracedAccess) (rest : Text) :
    t.text ++ rest = bytes "Cycle " ++ (signedText t.cycle ++ ch ',' :: (bytes " Mem " ++
      (t.type.text ++ ch ' ' :: (bytes "(" ++ (decimalText t.size ++ ch ' ' :: (bytes "bytes" ++
        (t.cause.text ++ ch ')' :: (bytes " addr: " ++ (upperText 8 t.address.toNat ++
          (bytes ", val: " ++ (upperText 8 t.value.toNat ++ (bytes "\n" ++ rest)))))))))))) := by
  simp only [TracedAccess.text, List.append_assoc]
  rfl

/-- A line gives its access back, and the lines behind it. -/
theorem TracedAccess.text_append_cancel {t t' : TracedAccess} {rest rest' : Text}
    (heq : t.text ++ rest = t'.text ++ rest') : t = t' ∧ rest = rest' := by
  rw [text_append, text_append] at heq
  obtain ⟨hcycle, heq⟩ := append_cons_cancel (comma_notMem_signedText _)
    (comma_notMem_signedText _) (List.append_cancel_left heq)
  obtain ⟨htype, heq⟩ := append_cons_cancel t.type.space_notMem t'.type.space_notMem
    (List.append_cancel_left heq)
  obtain ⟨hsize, heq⟩ := append_cons_cancel (space_notMem_decimalText _)
    (space_notMem_decimalText _) (List.append_cancel_left heq)
  obtain ⟨hcause, heq⟩ := append_cons_cancel t.cause.paren_notMem t'.cause.paren_notMem
    (List.append_cancel_left heq)
  obtain ⟨haddress, heq⟩ := upperText_append_cancel (List.append_cancel_left heq)
  obtain ⟨hvalue, heq⟩ := upperText_append_cancel (List.append_cancel_left heq)
  refine ⟨TracedAccess.ext (signedText_injective hcycle) (AccessType.text_injective htype)
    (decimalText_injective hsize) (Cause.text_injective hcause) haddress hvalue, ?_⟩
  exact List.append_cancel_left heq

theorem traceFile_eq (log : List TracedAccess) :
    traceFile log = (log.map TracedAccess.text).flatten := by
  have hrun : ∀ output, log.foldl (traceMemory MEMORY) output
      = output ++ (log.map TracedAccess.text).flatten := by
    induction log with
    | nil => exact fun output => (List.append_nil output).symm
    | cons t log ih =>
        intro output
        rw [List.foldl_cons, traceMemory, if_pos (by decide), ih, List.map_cons,
          List.flatten_cons, List.append_assoc]
  exact hrun []

/-- The accesses can be read off the file. -/
theorem traceFile_injective : Function.Injective traceFile := by
  intro log log' heq
  rw [traceFile_eq, traceFile_eq] at heq
  have hline : ∀ (t : TracedAccess) (rest : Text), [] ≠ t.text ++ rest :=
    fun t rest hnil => List.cons_ne_nil _ _ (hnil.trans (t.text_append rest)).symm
  induction log generalizing log' with
  | nil =>
      cases log' with
      | nil => rfl
      | cons t' log' => exact absurd heq (hline t' _)
  | cons t log ih =>
      cases log' with
      | nil => exact absurd heq.symm (hline t _)
      | cons t' log' =>
          obtain ⟨rfl, hrest⟩ := TracedAccess.text_append_cancel heq
          rw [ih hrest]

end Armator
