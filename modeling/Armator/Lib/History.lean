/-
Histories of a store.

An access names some keys and their values, which it has read or written.
`History f as g` says that the accesses `as` can follow each other from the
map `f` to the map `g`: what is read is there.  So a history tells what the
map is at its end (`History.end_eq`), and what each of its reads has found
(`History.read_eq`), from the map at its start and the accesses alone.
-/
import Armator.Lib.Replay

namespace Replay

variable {K V : Type*} [DecidableEq K]

/-- Keys with their values, read or written. -/
inductive Access (K V : Type*) where
  | read (entries : List (K × V))
  | write (entries : List (K × V))

/-- What an access writes. -/
def Access.written : Access K V → List (K × V)
  | .read _ => []
  | .write entries => entries

/-- From `f` the accesses lead to `g`, and what they read is there. -/
inductive History : (K → V) → List (Access K V) → (K → V) → Prop where
  | nil (f : K → V) : History f [] f
  | read {f g : K → V} {entries : List (K × V)} {as : List (Access K V)}
      (hread : ∀ e ∈ entries, f e.1 = e.2) (hrest : History f as g) :
      History f (.read entries :: as) g
  | write {f g : K → V} {entries : List (K × V)} {as : List (Access K V)}
      (hrest : History (replay f entries) as g) : History f (.write entries :: as) g

namespace History

variable {f g k : K → V} {as bs : List (Access K V)}

theorem append (h : History f as g) (h' : History g bs k) : History f (as ++ bs) k := by
  induction h with
  | nil => exact h'
  | read hread _ ih => exact .read hread (ih h')
  | write _ ih => exact .write (ih h')

/-- The map at the end is what the writes have left. -/
theorem end_eq (h : History f as g) : g = replay f (as.flatMap Access.written) := by
  induction h with
  | nil => rfl
  | read _ _ ih => exact ih
  | write _ ih => rw [ih, List.flatMap_cons, replay_append, Access.written]

/-- What is found at a key is what was written there last before. -/
theorem read_eq {entries : List (K × V)} {e : K × V}
    (h : History f (as ++ .read entries :: bs) g) (he : e ∈ entries) :
    replay f (as.flatMap Access.written) e.1 = e.2 := by
  induction as generalizing f with
  | nil =>
      cases h with
      | read hread _ => exact hread e he
  | cons a as ih =>
      cases h with
      | read _ hrest => exact ih hrest
      | write hrest =>
          rw [List.flatMap_cons, replay_append]
          exact ih hrest

end History

end Replay
