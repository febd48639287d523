/-
Computations that leave a log of events.

`Logged ε` is the writer monad over lists of events.  A computation has a
value and a log.  `Yields P m a` says both at once, that the value is `a`
and that every event has the property `P`; its rules follow the shape of
the computation.
-/
import Mathlib.Control.Monad.Writer

namespace EventLog

/-- A computation that leaves a list of events. -/
abbrev Logged (ε : Type) : Type → Type := Writer (List ε)

variable {ε α β : Type}

def value (m : Logged ε α) : α := (WriterT.run m).1

def log (m : Logged ε α) : List ε := (WriterT.run m).2

/-- One event, and a value. -/
def emit (e : ε) (a : α) : Logged ε α := WriterT.mk (a, [e])

section

variable (m : Logged ε α) (f : α → Logged ε β)

@[simp] theorem value_bind : value (m >>= f) = value (f (value m)) := rfl

theorem mem_log_bind {x : ε} :
    x ∈ log (m >>= f) ↔ x ∈ log m ∨ x ∈ log (f (value m)) := List.mem_append

end

/-- The computation returns `a`, and all its events have the property. -/
structure Yields (P : ε → Prop) (m : Logged ε α) (a : α) : Prop where
  value : value m = a
  log : ∀ e ∈ log m, P e

section

variable {P : ε → Prop} {m m' : Logged ε α} {f : α → Logged ε β} {a a' : α} {b : β}

theorem yields_pure : Yields P (pure a) a := ⟨rfl, List.forall_mem_nil P⟩

theorem yields_emit {e : ε} (he : P e) : Yields P (emit e a) a :=
  ⟨rfl, List.forall_mem_singleton.mpr he⟩

theorem Yields.bind (hm : Yields P m a) (hf : Yields P (f a) b) : Yields P (m >>= f) b := by
  obtain ⟨rfl, hlog⟩ := hm
  exact ⟨hf.value, List.forall_mem_append.mpr ⟨hlog, hf.log⟩⟩

theorem Yields.congr (hm : Yields P m a) (heq : a = a') : Yields P m a' := heq ▸ hm

/-- Both branches may use what they know. -/
theorem yields_ite {c : Prop} [Decidable c] (hpos : c → Yields P m a)
    (hneg : ¬ c → Yields P m' a') :
    Yields P (if c then m else m') (if c then a else a') := by
  by_cases hc : c
  · rw [if_pos hc, if_pos hc]
    exact hpos hc
  · rw [if_neg hc, if_neg hc]
    exact hneg hc

end

end EventLog
