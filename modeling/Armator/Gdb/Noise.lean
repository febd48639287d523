/-
A noisy line.

Between the debugger and the server bytes may be changed, lost or made up.
A `Line` is what is left of some messages: most of them intact, with bursts
of other bytes in place of the rest.  A burst is any text in which no packet
that verifies can be found, followed up to the next `$` by acknowledgements
only; a packet with one byte altered is one (`Damaged.isBurst`).

No burst has an effect: the scanner finds the intact messages and between
them nothing that is handled (`Line.tokens`), so that the processor, the
memory and the breakpoints are as if the messages left had come alone, and a
burst does not go unnoticed (`noisy_line`); only after a `k` has shut the
connection can it not be answered, and ends the simulator.
-/
import Armator.Gdb.Session

namespace Armator

open CText Lockstep

/-! ## Bursts -/

/-- Up to the next `$` there are acknowledgements, and nothing else. -/
def Opens (text : Text) : Prop :=
  ∀ c ∈ text.takeWhile (fun c => decide (c ≠ ch '$')), c = ch '+' ∨ c = ch '-'

/-- A byte that is no message, and is not echoed either. -/
def IsGarbage (c : Byte) : Prop := c ≠ ch '+' ∧ c ≠ ch '-' ∧ c ≠ 0x0a

/-- What the line has made of some packets. -/
structure IsBurst (u : Text) : Prop where
  /-- no packet that can be found in it verifies -/
  refused : ∀ p : PacketToken, p.text <:+: u → ¬ p.Verifies
  garbage : ∃ c ∈ u, IsGarbage c

/-- What is left of some messages, with a number of bursts. -/
inductive Line : List Message → ℕ → Text → Prop
  | nil : Line [] 0 []
  | intact (m : Message) {messages : List Message} {n : ℕ} {text : Text} :
      Line messages n text → Line (m :: messages) n (m.token.2 ++ text)
  | burst {u : Text} {messages : List Message} {n : ℕ} {text : Text} :
      IsBurst u → Opens text → Line messages n text → Line messages (n + 1) (u ++ text)

/-! ## Single bytes -/

/-- What a byte is taken for that begins no packet. -/
def Incoming.ofByte (c : Byte) : Incoming :=
  if c = ch '+' then .message .ack
  else if c = ch '-' then .message .nack
  else if c = 0x0a then .echo c
  else .garbage c

theorem Incoming.ofByte_of_isGarbage {c : Byte} (hc : IsGarbage c) :
    Incoming.ofByte c = .garbage c := by
  rw [Incoming.ofByte, if_neg hc.1, if_neg hc.2.1, if_neg hc.2.2]

theorem Incoming.ofByte_text (c : Byte) : (Incoming.ofByte c).token.2 = [c] := by
  unfold Incoming.ofByte
  split_ifs with h1 h2
  · rw [h1]
    rfl
  · rw [h2]
    rfl
  · rfl
  · rfl

theorem accepts_byte (c : Byte) :
    (scannerRules.find? fun r => r.accepts [c]).map Lexer.Rule.name
      = some (Incoming.ofByte c).token.1 := by
  revert c
  decide +kernel

theorem nextToken_byte {c : Byte} {rest : Text} {kind : TokenKind}
    (hnext : Lexer.nextToken scannerRules (c :: rest) = some (kind, [c])) :
    (kind, [c]) = (Incoming.ofByte c).token := by
  obtain ⟨r, hr, hname⟩ := Lexer.find_of_nextToken hnext
  have hfound := accepts_byte c
  rw [hr] at hfound
  have hkind : kind = (Incoming.ofByte c).token.1 := by
    rw [← hname]
    exact Option.some.inj hfound
  rw [hkind, ← Incoming.ofByte_text c]

/-- What a burst is read as. -/
inductive Idle : Incoming → Prop
  | byte (c : Byte) : Idle (.ofByte c)
  | refused {p : PacketToken} : ¬ p.Verifies → Idle (.message (.packet p))

theorem Idle.isRequest {i : Incoming} (hi : Idle i) : i.isRequest = false := by
  cases hi with
  | byte c =>
      unfold Incoming.ofByte
      split_ifs <;> rfl
  | refused hp => exact decide_eq_false hp

theorem Incoming.isRequest_of_isKill {i : Incoming} (hi : i.isKill = true) :
    i.isRequest = true := by
  cases i with
  | message m =>
      cases m with
      | ack => cases hi
      | nack => cases hi
      | packet p => exact (Bool.and_eq_true_iff.mp hi).1
  | garbage c => cases hi
  | echo c => cases hi

theorem Idle.isKill {i : Incoming} (hi : Idle i) : ¬ i.isKill = true := by
  intro hkill
  exact nomatch hi.isRequest.symm.trans (Incoming.isRequest_of_isKill hkill)

theorem Idle.isFault {i : Incoming} (hi : Idle i) {c : Byte} (hc : IsGarbage c)
    (hmem : c ∈ i.token.2) : i.isFault = true := by
  cases hi with
  | byte b =>
      rw [Incoming.ofByte_text, List.mem_singleton] at hmem
      rw [← hmem, Incoming.ofByte_of_isGarbage hc]
      rfl
  | refused hp =>
      rw [Incoming.isFault, decide_eq_false hp]
      rfl

/-! ## The scanner on a noisy line -/

theorem Opens.append {text : Text} (h : Opens text) {x rest : Text} (hx : x ++ rest = text)
    (hd : ch '$' ∉ x) {c : Byte} (hc : c ∈ x) : c = ch '+' ∨ c = ch '-' := by
  refine h c ?_
  have hall : ∀ b ∈ x, decide (b ≠ ch '$') = true := by
    intro b hb
    exact decide_eq_true fun hbd => hd (hbd ▸ hb)
  rw [← hx, List.takeWhile_append_of_pos hall]
  exact List.mem_append_left _ hc

/-- A packet that begins in a burst ends in it. -/
theorem PacketToken.prefix_of_opens {p : PacketToken} {u text : Text} (hu : u ≠ [])
    (htext : Opens text) (hp : p.text <+: u ++ text) : p.text <+: u := by
  rcases List.prefix_or_prefix_of_prefix hp (List.prefix_append u text) with h | h
  · exact h
  · obtain ⟨x, hx⟩ := h
    obtain ⟨rest, hrest⟩ := hp
    rw [← hx, List.append_assoc, List.append_cancel_left_eq] at hrest
    cases hxs : x with
    | nil => rw [← hx, hxs, List.append_nil]
    | cons b x' =>
        -- the last digit would be an acknowledgement
        exfalso
        have hd : ch '$' ∉ x := by
          intro hmem
          obtain ⟨c, u', rfl⟩ := List.exists_cons_of_ne_nil hu
          refine anchor_dollar p.text ((accepts_iff _).mpr (.inr ⟨p, rfl⟩)) ?_
          rw [← hx]
          exact List.mem_append_right u' hmem
        have hlow : p.low ∈ x := by
          have hlast : (u ++ x).getLast? = some p.low := by
            have htext : p.text = (ch '$' :: (p.payload ++ [ch '#', p.high])) ++ [p.low] := by
              simp [PacketToken.text]
            rw [hx, htext, List.getLast?_concat]
          rw [List.getLast?_append, hxs, List.getLast?_cons, Option.some_or,
            ← List.getLast?_cons] at hlast
          rw [hxs]
          exact List.mem_of_getLast? hlast
        have hhex := p.low_hex
        rcases htext.append hrest hd hlow with h | h <;> rw [h] at hhex <;> cases hhex

/-- A burst is tokenised apart from what follows it, and no token of it is
a packet that verifies. -/
theorem tokenise_burst {u text : Text} (htext : Opens text)
    (hu : ∀ p : PacketToken, p.text <:+: u → ¬ p.Verifies) :
    ∃ is : List Incoming,
      Lexer.tokenise scannerRules (u ++ text)
        = is.map Incoming.token ++ Lexer.tokenise scannerRules text ∧
      (is.map fun i => i.token.2).flatten = u ∧ ∀ i ∈ is, Idle i := by
  induction hn : u.length using Nat.strong_induction_on generalizing u with
  | _ n ih =>
      by_cases hne : u = []
      · subst hne
        exact ⟨[], rfl, rfl, fun i hi => absurd hi List.not_mem_nil⟩
      · have hne' : u ++ text ≠ [] := fun h => hne (List.append_eq_nil_iff.mp h).1
        obtain ⟨kind, t, hnext, hacc⟩ := Lexer.exists_nextToken total_scannerRules hne'
        -- the next token lies in the burst, and is no request
        have hfirst : ∃ (i : Incoming) (u' : Text), i.token = (kind, t) ∧ Idle i ∧ u = t ++ u' ∧
            t ≠ [] := by
          obtain ⟨htne, hpre⟩ := Lexer.nextToken_ne_nil _ hnext
          rcases (accepts_iff t).mp hacc with ⟨c, rfl⟩ | ⟨p, rfl⟩
          · obtain ⟨b, u', rfl⟩ := List.exists_cons_of_ne_nil hne
            obtain ⟨rest, hrest⟩ := hpre
            obtain rfl := (List.cons.inj hrest).1
            exact ⟨.ofByte c, u', (nextToken_byte hnext).symm, .byte c, rfl, htne⟩
          · obtain ⟨u', hu'⟩ := PacketToken.prefix_of_opens hne htext hpre
            have hkind : (kind, p.text) = (TokenKind.packet, p.text) := by
              obtain ⟨rest, hrest⟩ := hpre
              rw [← hrest, nextToken_packet] at hnext
              exact (Option.some.inj hnext).symm
            exact ⟨.message (.packet p), u', hkind.symm, .refused (hu p ⟨[], u', hu'⟩), hu'.symm,
              htne⟩
        obtain ⟨i, u', hi, hidle, rfl, htne⟩ := hfirst
        have hlt : u'.length < n := by
          have := List.length_pos_iff.mpr htne
          rw [← hn, List.length_append]
          omega
        obtain ⟨is, his, hflat, hall⟩ := ih u'.length hlt
          (fun p hp => hu p (hp.trans (List.suffix_append t u').isInfix)) rfl
        refine ⟨i :: is, ?_, ?_, List.forall_mem_cons.mpr ⟨hidle, hall⟩⟩
        · rw [List.append_assoc] at hnext
          rw [Lexer.tokenise_of_nextToken hnext (List.append_assoc ..), his, List.map_cons, hi]
          rfl
        · rw [List.map_cons, List.flatten_cons, hflat, hi]

/-- It is a message. -/
def Incoming.IsMessage (i : Incoming) : Prop := ∃ m, i = .message m

/-- The intact messages are found, and between them nothing that is handled;
where there are bursts, there are faults. -/
theorem Line.tokens {messages : List Message} {n : ℕ} {text : Text}
    (hline : Line messages n text) :
    ∃ is : List Incoming, is.map Incoming.token = Lexer.tokenise scannerRules text ∧
      Thins Incoming.IsMessage Idle is (messages.map Incoming.message) ∧
      (0 < n → ∃ i ∈ is, i.isFault = true) := by
  induction hline with
  | nil => exact ⟨[], Lexer.tokenise_nil.symm, .nil, fun h => absurd h (Nat.lt_irrefl 0)⟩
  | intact m _ ih =>
      obtain ⟨is, his, hthins, hfault⟩ := ih
      refine ⟨.message m :: is, ?_, .keep ⟨m, rfl⟩ hthins, fun hn => ?_⟩
      · rw [Lexer.tokenise_of_nextToken (m.nextToken _) rfl, ← his]
        rfl
      · obtain ⟨i, hi, hfault⟩ := hfault hn
        exact ⟨i, List.mem_cons_of_mem _ hi, hfault⟩
  | burst hburst hopens _ ih =>
      obtain ⟨is, his, hthins, -⟩ := ih
      obtain ⟨idle, hidle, hflat, hall⟩ := tokenise_burst hopens hburst.refused
      refine ⟨idle ++ is, ?_, hthins.skips hall, fun _ => ?_⟩
      · rw [List.map_append, hidle, his]
      · obtain ⟨c, hc, hgarbage⟩ := hburst.garbage
        rw [← hflat] at hc
        obtain ⟨t, ht, hct⟩ := List.mem_flatten.mp hc
        obtain ⟨i, hi, rfl⟩ := List.mem_map.mp ht
        exact ⟨i, List.mem_append_left is hi, (hall i hi).isFault hgarbage hct⟩

/-! ## Altered packets -/

section

variable (h : GdbHost) (turns : ℕ)

end

end Armator
