/-
What a machine is led to.

A machine is a relation between its states.  `Leads R P Q` says of it that
from every state in `P` some run comes to a state in `Q`: for a machine
whose runs are determined, that it does come there.  The rules are those of
a logic of programs: a step, one stretch after the other, weaker and
stronger assertions, a case distinction, and for a loop a number that every
round makes smaller.
-/
import Mathlib.Data.Nat.Basic
import Mathlib.Logic.Relation

namespace Progress

variable {σ α : Type*} {R : σ → σ → Prop} {P P' Q Q' S : σ → Prop}

/-- From every state in `P` a run comes to one in `Q`. -/
def Leads (R : σ → σ → Prop) (P Q : σ → Prop) : Prop :=
  ∀ s, P s → ∃ s', Relation.ReflTransGen R s s' ∧ Q s'

theorem leads_of_imp (h : ∀ s, P s → Q s) : Leads R P Q := by
  intro s hs
  exact ⟨s, .refl, h s hs⟩

theorem leads_of_step (h : ∀ s, P s → ∃ s', R s s' ∧ Q s') : Leads R P Q := by
  intro s hs
  obtain ⟨s', hstep, hq⟩ := h s hs
  exact ⟨s', .single hstep, hq⟩

theorem Leads.trans (h : Leads R P Q) (h' : Leads R Q S) : Leads R P S := by
  intro s hs
  obtain ⟨s₁, hrun, hq⟩ := h s hs
  obtain ⟨s₂, hrun', hs₂⟩ := h' s₁ hq
  exact ⟨s₂, hrun.trans hrun', hs₂⟩

theorem Leads.imp (h : Leads R P Q) (hpre : ∀ s, P' s → P s) (hpost : ∀ s, Q s → Q' s) :
    Leads R P' Q' := by
  intro s hs
  obtain ⟨s', hrun, hq⟩ := h s (hpre s hs)
  exact ⟨s', hrun, hpost s' hq⟩

theorem Leads.or (h : Leads R P S) (h' : Leads R Q S) : Leads R (fun s => P s ∨ Q s) S := by
  intro s hs
  cases hs with
  | inl hp => exact h s hp
  | inr hq => exact h' s hq

theorem leads_exists {P : α → σ → Prop} (h : ∀ a, Leads R (P a) Q) :
    Leads R (fun s => ∃ a, P a s) Q := by
  intro s hs
  obtain ⟨a, ha⟩ := hs
  exact h a s ha

/-- A loop whose rounds end it or make the number smaller comes to its end. -/
theorem leads_loop {I : ℕ → σ → Prop}
    (hround : ∀ n, Leads R (I n) fun s => Q s ∨ ∃ m < n, I m s) (n : ℕ) : Leads R (I n) Q := by
  induction n using Nat.strong_induction_on with
  | _ n ih =>
      refine (hround n).trans (Leads.or (leads_of_imp fun s hs => hs) ?_)
      intro s hs
      obtain ⟨m, hm, hs⟩ := hs
      exact ih m hm s hs

end Progress
