/-
Stores seen as logs of keyed writes.

A component that offers "write under a key, read under a key" is
specified by one sentence: a read returns the last value written under
its key, or what was there at the start.  This file says that sentence
once, for any keys and values, and gives the rule that carries it from
one operation to a whole run.

  * `lastWrite log k` is the value the last entry of `log` gives to `k`;
  * `replay f log` writes the log into the map `f`;
  * `foldl_replay` is the run rule: when every operation acts on an
    abstraction of the store as the replay of its own entries, a run
    acts as the replay of all entries, in order.
-/
import Mathlib.Logic.Function.Basic
import Mathlib.Data.List.Basic

namespace Replay

variable {K V : Type*} [DecidableEq K]

/-- The value the last entry for `k` gives it, if some entry names `k`. -/
def lastWrite : List (K × V) → K → Option V
  | [], _ => none
  | e :: log, k => (lastWrite log k).or (if e.1 = k then some e.2 else none)

/-- The map after all entries of the log are written, first to last. -/
def replay (f : K → V) (log : List (K × V)) : K → V :=
  log.foldl (fun g e => Function.update g e.1 e.2) f

@[simp] theorem replay_nil (f : K → V) : replay f [] = f := rfl

@[simp] theorem replay_cons (f : K → V) (e : K × V) (log : List (K × V)) :
    replay f (e :: log) = replay (Function.update f e.1 e.2) log := rfl

theorem replay_append (f : K → V) (log log' : List (K × V)) :
    replay f (log ++ log') = replay (replay f log) log' :=
  List.foldl_append

/-- A replayed map holds at each key its last entry, or its old value. -/
theorem replay_apply (f : K → V) (log : List (K × V)) (k : K) :
    replay f log k = (lastWrite log k).getD (f k) := by
  induction log generalizing f with
  | nil => rfl
  | cons e log ih =>
      rw [replay_cons, ih, lastWrite]
      cases lastWrite log k with
      | some v => rfl
      | none =>
          by_cases h : e.1 = k
          · subst h; simp
          · simp [h, Function.update_of_ne (Ne.symm h)]

/-- A key that no entry names has no last write. -/
theorem lastWrite_eq_none {log : List (K × V)} {k : K} (h : ∀ e ∈ log, e.1 ≠ k) :
    lastWrite log k = none := by
  induction log with
  | nil => rfl
  | cons e log ih =>
      rw [lastWrite, ih (fun e' he' => h e' (List.mem_cons_of_mem _ he')),
        if_neg (h e List.mem_cons_self)]
      rfl

/-- The map at a key that no entry names is as it was. -/
theorem replay_of_forall_ne (f : K → V) {log : List (K × V)} {k : K}
    (h : ∀ e ∈ log, e.1 ≠ k) : replay f log k = f k := by
  rw [replay_apply, lastWrite_eq_none h, Option.getD_none]

/-- Entries under pairwise different keys all stay: each is still read. -/
theorem replay_of_mem (f : K → V) {log : List (K × V)} {e : K × V}
    (hn : (log.map Prod.fst).Nodup) (he : e ∈ log) : replay f log e.1 = e.2 := by
  induction log generalizing f with
  | nil => exact absurd he List.not_mem_nil
  | cons e' log ih =>
      rw [List.map_cons, List.nodup_cons] at hn
      rcases List.mem_cons.mp he with rfl | he
      · rw [replay_cons, replay_of_forall_ne]
        · exact Function.update_self ..
        · intro e' he' heq
          exact hn.1 (heq ▸ List.mem_map_of_mem he')
      · exact ih _ hn.2 he

section Run

variable {S Op : Type*} (abs : S → K → V) (step : S → Op → S)
  (entries : Op → List (K × V)) (Inv : S → Prop) (Ok : Op → Prop)

/-- The run rule.  One step keeps `Inv` and replays its own entries; so a
run of steps keeps `Inv` and replays the entries of all of them. -/
theorem foldl_replay
    (hstep : ∀ s op, Inv s → Ok op →
      Inv (step s op) ∧ abs (step s op) = replay (abs s) (entries op)) :
    ∀ (ops : List Op) (s : S), Inv s → (∀ op ∈ ops, Ok op) →
      Inv (ops.foldl step s) ∧
        abs (ops.foldl step s) = replay (abs s) (ops.flatMap entries) := by
  intro ops
  induction ops with
  | nil => intro s hs _; exact ⟨hs, rfl⟩
  | cons op ops ih =>
      intro s hs hok
      obtain ⟨hs', habs⟩ := hstep s op hs (hok op List.mem_cons_self)
      obtain ⟨hinv, hrun⟩ :=
        ih (step s op) hs' (fun op' h => hok op' (List.mem_cons_of_mem _ h))
      refine ⟨hinv, ?_⟩
      rw [List.foldl_cons, hrun, habs, List.flatMap_cons, replay_append]

end Run

end Replay
