/-
Logs that tell what was done.

Two computations leave a log each, and something follows.  `Tells log log' P`
says that where all of it is the same, the two logs end at the same place,
and `P` holds of the computations.  Its rules follow the shape of the
computations: what comes later may use what the logs have told so far
(`Tells.append`).
-/
import Mathlib.Data.List.Basic

namespace Telling

variable {α : Type*} {log log' l l' : List α} {P Q : Prop}

/-- Where the logs are the same with all that follows, `P` holds. -/
def Tells (log log' : List α) (P : Prop) : Prop :=
  ∀ rest rest', log' ++ rest' = log ++ rest → rest' = rest ∧ P

namespace Tells

theorem nil (hP : P) : Tells ([] : List α) [] P := fun _ _ hsame => ⟨hsame, hP⟩

theorem single {a a' : α} (hP : a' = a → P) : Tells [a] [a'] P := by
  intro rest rest' hsame
  obtain ⟨ha, hrest⟩ := List.cons.inj hsame
  exact ⟨hrest, hP ha⟩

theorem append (h : Tells log log' P) (hnext : P → Tells l l' Q) :
    Tells (log ++ l) (log' ++ l') Q := by
  intro rest rest' hsame
  rw [List.append_assoc, List.append_assoc] at hsame
  obtain ⟨hl, hP⟩ := h _ _ hsame
  exact hnext hP _ _ hl

theorem imp (h : Tells log log' P) (himp : P → Q) : Tells log log' Q := by
  intro rest rest' hsame
  obtain ⟨hrest, hP⟩ := h _ _ hsame
  exact ⟨hrest, himp hP⟩

/-- What the same log tells. -/
theorem of_eq (h : Tells log log' P) (hsame : log' = log) : P :=
  (h [] [] (by rw [hsame])).2

end Tells

end Telling
