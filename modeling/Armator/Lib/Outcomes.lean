/-
What computations that can fail come to.

`ComesTo P Q run` says of a computation that its result has the property
`P`, or that it fails, and its failure has the property `Q`.  Its rules
follow the shape of the computation; that of a loop asks for an invariant.
-/
import Mathlib.Data.List.Basic

namespace Outcomes

universe u v

variable {ε : Type u} {α β σ : Type v} {ι : Type*}

/-- A result with the one property, or a failure with the other. -/
def ComesTo (P : α → Prop) (Q : ε → Prop) : Except ε α → Prop
  | .ok a => P a
  | .error e => Q e

section

variable {P : α → Prop} {R : β → Prop} {Q : ε → Prop} {run : Except ε α}

/-- What cannot fail returns. -/
theorem ComesTo.exists_ok (hrun : ComesTo P (fun _ => False) run) : ∃ a, run = .ok a ∧ P a := by
  cases run with
  | ok a => exact ⟨a, rfl, hrun⟩
  | error e => exact hrun.elim

theorem ComesTo.imp {P' : α → Prop} (hrun : ComesTo P Q run) (himp : ∀ a, P a → P' a) :
    ComesTo P' Q run := by
  cases run with
  | ok a => exact himp a hrun
  | error e => exact hrun

theorem ComesTo.cases (hrun : ComesTo P Q run) :
    (∃ a, run = .ok a ∧ P a) ∨ ∃ e, run = .error e ∧ Q e := by
  cases run with
  | ok a => exact Or.inl ⟨a, rfl, hrun⟩
  | error e => exact Or.inr ⟨e, rfl, hrun⟩

theorem ComesTo.bind {next : α → Except ε β} (hrun : ComesTo P Q run)
    (hnext : ∀ a, P a → ComesTo R Q (next a)) : ComesTo R Q (run >>= next) := by
  cases run with
  | ok a => exact hnext a hrun
  | error e => exact hrun

end

/-- A loop keeps what each of its turns keeps, and fails only as they do. -/
theorem comesTo_foldlM {P : σ → Prop} {Q : ε → Prop} {f : σ → ι → Except ε σ} {l : List ι} {s : σ}
    (hs : P s) (hturn : ∀ i ∈ l, ∀ s, P s → ComesTo P Q (f s i)) :
    ComesTo P Q (l.foldlM f s) := by
  induction l generalizing s with
  | nil => exact hs
  | cons i l ih =>
      rw [List.foldlM_cons]
      refine (hturn i List.mem_cons_self s hs).bind fun s₁ hs₁ => ?_
      exact ih hs₁ fun j hj => hturn j (List.mem_cons_of_mem i hj)

end Outcomes
