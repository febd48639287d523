/-
Lexers by longest match.

A lexer is a list of rules, each of which matches some texts.  It takes
from its input the longest text that some rule matches, under the name of
the first rule that does, and goes on behind it.

  * `nextToken_eq` says what has to be known to name the next token;
  * `tokenise_append_anchor` is resynchronisation: a letter that no rule
    matches but at the head of its text begins a token wherever it occurs,
    whatever came before it.
-/
import Mathlib.Data.Nat.Find
import Mathlib.Data.List.Basic
import Mathlib.Data.List.Infix
import Mathlib.Data.List.TakeDrop

namespace Lexer

variable {ι α : Type*}

structure Rule (ι α : Type*) where
  name : ι
  accepts : List α → Bool

variable (rules : List (Rule ι α))

/-- Some rule matches the text. -/
def Accepts (t : List α) : Prop := ∃ r ∈ rules, r.accepts t = true

instance (t : List α) : Decidable (Accepts rules t) :=
  inferInstanceAs (Decidable (∃ r ∈ rules, r.accepts t = true))

/-- The length of the longest match at the start of the input. -/
def matchLength (s : List α) : ℕ :=
  Nat.findGreatest (fun n => Accepts rules (s.take n)) s.length

/-- The next token: the longest match, named by the first rule. -/
def nextToken (s : List α) : Option (ι × List α) :=
  if matchLength rules s = 0 then none
  else (rules.find? fun r => r.accepts (s.take (matchLength rules s))).map fun r =>
    (r.name, s.take (matchLength rules s))

theorem nextToken_ne_nil {s t : List α} {i : ι} (h : nextToken rules s = some (i, t)) :
    t ≠ [] ∧ t <+: s := by
  unfold nextToken at h
  split_ifs at h with h0
  obtain ⟨r, -, hr⟩ := Option.map_eq_some_iff.mp h
  obtain rfl := (Prod.mk.inj hr).2
  refine ⟨?_, List.take_prefix ..⟩
  have hle : matchLength rules s ≤ s.length := Nat.findGreatest_le _
  intro hnil
  have := congrArg List.length hnil
  rw [List.length_take, List.length_nil] at this
  omega

theorem nextToken_rule {s t : List α} {i : ι} (h : nextToken rules s = some (i, t)) :
    ∃ r ∈ rules, r.name = i ∧ r.accepts t = true := by
  unfold nextToken at h
  split_ifs at h
  obtain ⟨r, hr, heq⟩ := Option.map_eq_some_iff.mp h
  obtain ⟨rfl, rfl⟩ := Prod.mk.inj heq
  have haccepts := List.find?_some hr
  exact ⟨r, List.mem_of_find?_eq_some hr, rfl, haccepts⟩

/-- The tokens of an input, up to where no rule matches. -/
def tokenise (s : List α) : List (ι × List α) :=
  match _hnext : nextToken rules s with
  | none => []
  | some (i, t) => (i, t) :: tokenise (s.drop t.length)
termination_by s.length
decreasing_by
  obtain ⟨hne, hpre⟩ := nextToken_ne_nil rules ‹_›
  have h1 := List.length_pos_iff.mpr hne
  have h2 := hpre.length_le
  rw [List.length_drop]
  omega

variable {rules}

theorem tokenise_of_nextToken {s t rest : List α} {i : ι}
    (h : nextToken rules (t ++ rest) = some (i, t)) (hs : s = t ++ rest) :
    tokenise rules s = (i, t) :: tokenise rules rest := by
  subst hs
  rw [tokenise]
  split
  · rename_i hnone
    rw [h] at hnone
    cases hnone
  · rename_i i' t' hsome
    rw [h] at hsome
    obtain ⟨rfl, rfl⟩ := Prod.mk.inj (Option.some.inj hsome)
    rw [List.drop_left]

/-- The name of a token is that of the first rule that matches it. -/
theorem find_of_nextToken {s t : List α} {i : ι} (h : nextToken rules s = some (i, t)) :
    ∃ r, (rules.find? fun r => r.accepts t) = some r ∧ r.name = i := by
  unfold nextToken at h
  split_ifs at h
  obtain ⟨r, hr, heq⟩ := Option.map_eq_some_iff.mp h
  obtain ⟨rfl, rfl⟩ := Prod.mk.inj heq
  exact ⟨r, hr, rfl⟩

/-- Each token is a text its rule matches. -/
theorem rule_of_mem_tokenise {s : List α} {token : ι × List α} (h : token ∈ tokenise rules s) :
    ∃ r ∈ rules, r.name = token.1 ∧ r.accepts token.2 = true := by
  fun_induction tokenise rules s with
  | case1 s hnext => exact absurd h List.not_mem_nil
  | case2 s i t hnext ih =>
      rcases List.mem_cons.mp h with rfl | h
      · exact nextToken_rule rules hnext
      · exact ih h

@[simp] theorem tokenise_nil : tokenise rules [] = [] := by
  rw [tokenise]
  split
  · rfl
  · rename_i i t h
    obtain ⟨hne, hpre⟩ := nextToken_ne_nil rules h
    exact absurd (List.prefix_nil.mp hpre) hne

/-- A text that a rule matches is the next token, if no rule before it
matches it and no rule matches more of the input. -/
theorem nextToken_eq (before : List (Rule ι α)) {after : List (Rule ι α)} {r : Rule ι α}
    {t rest : List α} (hrules : rules = before ++ r :: after) (hne : t ≠ [])
    (hr : r.accepts t = true) (hfirst : ∀ r' ∈ before, r'.accepts t = false)
    (hlongest : ∀ t', t' <+: t ++ rest → Accepts rules t' → t'.length ≤ t.length) :
    nextToken rules (t ++ rest) = some (r.name, t) := by
  have hacc : Accepts rules t := ⟨r, by rw [hrules]; simp, hr⟩
  have hlen : matchLength rules (t ++ rest) = t.length := by
    unfold matchLength
    rw [Nat.findGreatest_eq_iff]
    refine ⟨by rw [List.length_append]; omega, ?_, ?_⟩
    · intro _
      rw [List.take_left]
      exact hacc
    · intro n hlt hle hn
      have := hlongest _ (List.take_prefix n _) hn
      rw [List.length_take] at this
      omega
  have hfind : rules.find? (fun r => r.accepts t) = some r := by
    have hbefore : before.find? (fun r => r.accepts t) = none := by
      rw [List.find?_eq_none]
      intro r' hr'
      rw [hfirst r' hr']
      exact Bool.false_ne_true
    have hcons : (r :: after).find? (fun r => r.accepts t) = some r :=
      List.find?_cons_of_pos hr
    rw [hrules, List.find?_append, hbefore, Option.none_or, hcons]
  unfold nextToken
  rw [hlen, if_neg (fun h0 => hne (List.length_eq_zero_iff.mp h0)), List.take_left, hfind]
  rfl

/-- Every letter is a token, if nothing longer is. -/
def Total (rules : List (Rule ι α)) : Prop := ∀ c, Accepts rules [c]

/-- Where every letter is a token there always is a next one, and some
rule matches it. -/
theorem exists_nextToken (ht : Total rules) {s : List α} (hs : s ≠ []) :
    ∃ i t, nextToken rules s = some (i, t) ∧ Accepts rules t := by
  obtain ⟨c, s', rfl⟩ := List.exists_cons_of_ne_nil hs
  have h1 : Accepts rules ((c :: s').take 1) := ht c
  have hpos : 0 < matchLength rules (c :: s') :=
    Nat.le_findGreatest (P := fun n => Accepts rules ((c :: s').take n)) (by simp) h1
  have hacc : Accepts rules ((c :: s').take (matchLength rules (c :: s'))) :=
    Nat.findGreatest_spec (P := fun n => Accepts rules ((c :: s').take n)) (by simp) h1
  obtain ⟨r, hr⟩ := Option.isSome_iff_exists.mp
    (List.find?_isSome.mpr hacc : (rules.find? fun r =>
      r.accepts ((c :: s').take (matchLength rules (c :: s')))).isSome)
  refine ⟨r.name, _, ?_, hacc⟩
  unfold nextToken
  rw [if_neg (by omega), hr]
  rfl

/-- The letter occurs in a match at its head only. -/
def Anchor (rules : List (Rule ι α)) (c : α) : Prop :=
  ∀ t, Accepts rules t → c ∉ t.tail

/-- Whatever comes before an anchor is tokenised up to it, and no token
runs across. -/
theorem tokenise_append_anchor (ht : Total rules) {c : α} (hc : Anchor rules c)
    (u w : List α) :
    ∃ toks, tokenise rules (u ++ c :: w) = toks ++ tokenise rules (c :: w) ∧
      (toks.map Prod.snd).flatten = u := by
  induction hn : u.length using Nat.strong_induction_on generalizing u with
  | _ n ih =>
      rcases List.eq_nil_or_concat u with rfl | ⟨_, _, hu⟩
      · exact ⟨[], rfl, rfl⟩
      · have hne : u ++ c :: w ≠ [] := by simp
        obtain ⟨i, t, hnext, hacc⟩ := exists_nextToken ht hne
        obtain ⟨htne, hpre⟩ := nextToken_ne_nil rules hnext
        obtain ⟨a, t', rfl⟩ := List.exists_cons_of_ne_nil htne
        -- a token that reached the anchor would have it in its tail
        have htu : a :: t' <+: u := by
          rcases List.prefix_or_prefix_of_prefix hpre (List.prefix_append u (c :: w)) with h | h
          · exact h
          · obtain ⟨x, hx⟩ := h
            cases x with
            | nil => rw [List.append_nil] at hx; rw [hx]
            | cons b x =>
                obtain ⟨y, hy⟩ := hpre
                rw [← hx, List.append_assoc, List.append_cancel_left_eq] at hy
                have hb : b = c := (List.cons.inj hy).1
                refine absurd ?_ (hc _ hacc)
                cases u with
                | nil => exact absurd hu (by simp)
                | cons d u =>
                    rw [← hx, hb]
                    simp
        obtain ⟨u', rfl⟩ := htu
        obtain ⟨toks, htoks, hflat⟩ := ih u'.length (by
          rw [← hn, List.length_append, List.length_cons]
          omega) u' rfl
        rw [List.append_assoc] at hnext
        refine ⟨(i, a :: t') :: toks, ?_, ?_⟩
        · rw [tokenise_of_nextToken hnext (List.append_assoc ..), htoks, List.cons_append]
        · rw [List.map_cons, List.flatten_cons, hflat]

end Lexer
