/-
The rules of the scanner, `scanner.l`.

Bytes fall into seven classes, as in the table `yy_ec` of the scanner that
flex generates, and a rule is a regular expression over these.  After the
four rules of the source comes the one flex adds, which echoes what no
other rule matches: the newline, which `.` leaves out.

A packet cannot be missed: no rule matches a text with a `$` behind its
head, so whatever garbage comes before it, a packet begins a token, and no
rule matches more of the input than that packet.
-/
import Armator.Util
import Armator.Lib.CText
import Armator.Lib.Lexer
import Mathlib.Computability.RegularExpressions

namespace Armator

open CText Lexer RegularExpression

/-! ## Rules -/

/-- The classes of `yy_ec`, 1 to 7. -/
inductive CharClass where
  | other | newline | hash | dollar | plus | minus | hex
deriving DecidableEq

/-- `yy_ec` -/
def yyEc (c : Byte) : CharClass :=
  if c = 0x0a then .newline
  else if c = ch '#' then .hash
  else if c = ch '$' then .dollar
  else if c = ch '+' then .plus
  else if c = ch '-' then .minus
  else if isDigit 16 c then .hex
  else .other

/-- A character class of a rule. -/
def anyOf : List CharClass → RegularExpression CharClass
  | [] => 0
  | c :: cs => char c + anyOf cs

/-- `"$"[^$#]*"#"{HEX}{HEX}` -/
def packetPattern : RegularExpression CharClass :=
  char .dollar * star (anyOf [.other, .newline, .plus, .minus, .hex]) * char .hash * char .hex *
    char .hex

inductive TokenKind where
  | ack | nack | packet | error | echo
deriving DecidableEq

/-- A rule of the scanner, given by its pattern. -/
def scannerRule (kind : TokenKind) (pattern : RegularExpression CharClass) :
    Rule TokenKind Byte where
  name := kind
  accepts t := pattern.rmatch (t.map yyEc)

/-- The rules of `scanner.l`, and the one flex adds. -/
def scannerRules : List (Rule TokenKind Byte) :=
  [ scannerRule .ack (char .plus),
    scannerRule .nack (char .minus),
    scannerRule .packet packetPattern,
    -- `.` is everything but a newline
    scannerRule .error (anyOf [.other, .hash, .dollar, .plus, .minus, .hex]),
    scannerRule .echo (anyOf [.other, .newline, .hash, .dollar, .plus, .minus, .hex]) ]

/-! ## What the rules match -/

theorem anyOf_rmatch_iff (cs : List CharClass) (s : List CharClass) :
    (anyOf cs).rmatch s = true ↔ ∃ c ∈ cs, s = [c] := by
  induction cs with
  | nil =>
      rw [anyOf, zero_rmatch]
      simp
  | cons c cs ih =>
      rw [anyOf, add_rmatch_iff, char_rmatch_iff, ih]
      simp

theorem star_anyOf_iff (cs : List CharClass) (s : List CharClass) :
    (star (anyOf cs)).rmatch s = true ↔ ∀ c ∈ s, c ∈ cs := by
  rw [rmatch_iff_matches', matches'_star, Language.mem_kstar]
  constructor
  · rintro ⟨L, rfl, hL⟩ c hc
    obtain ⟨t, ht, hct⟩ := List.mem_flatten.mp hc
    have hm := hL t ht
    rw [← rmatch_iff_matches', anyOf_rmatch_iff] at hm
    obtain ⟨d, hd, rfl⟩ := hm
    rwa [List.mem_singleton.mp hct]
  · intro hs
    refine ⟨s.map fun c => [c], ?_, ?_⟩
    · rw [← List.flatMap_def]
      exact (List.flatMap_singleton' s).symm
    · intro t ht
      obtain ⟨c, hc, rfl⟩ := List.mem_map.mp ht
      rw [← rmatch_iff_matches', anyOf_rmatch_iff]
      exact ⟨c, hs c hc, rfl⟩

theorem packetPattern_rmatch_iff (s : List CharClass) :
    packetPattern.rmatch s = true ↔ ∃ payload, (∀ c ∈ payload, c ≠ .dollar ∧ c ≠ .hash) ∧
      s = .dollar :: (payload ++ [.hash, .hex, .hex]) := by
  have hclass : ∀ c : CharClass,
      c ∈ [CharClass.other, .newline, .plus, .minus, .hex] ↔ c ≠ .dollar ∧ c ≠ .hash := by
    intro c
    cases c <;> decide
  unfold packetPattern
  simp only [mul_rmatch_iff, char_rmatch_iff, star_anyOf_iff, hclass]
  constructor
  · rintro ⟨_, _, rfl, ⟨_, _, rfl, ⟨_, _, rfl, ⟨_, payload, rfl, rfl, hp⟩, rfl⟩, rfl⟩, rfl⟩
    exact ⟨payload, hp, by simp⟩
  · rintro ⟨payload, hp, rfl⟩
    exact ⟨_, _, by simp, ⟨_, _, rfl, ⟨_, _, rfl, ⟨_, payload, rfl, rfl, hp⟩, rfl⟩, rfl⟩, rfl⟩

/-- The classes that have one byte, and that of the digits. -/
theorem yyEc_iff (c : Byte) :
    (yyEc c = .hash ↔ c = ch '#') ∧ (yyEc c = .dollar ↔ c = ch '$') ∧
      (yyEc c = .plus ↔ c = ch '+') ∧ (yyEc c = .minus ↔ c = ch '-') ∧
      (yyEc c = .hex ↔ isDigit 16 c = true) := by
  revert c
  decide +kernel

/-! ## Packets -/

/-- A packet: its payload, and the two digits of its checksum. -/
structure PacketToken where
  payload : Text
  high : Byte
  low : Byte
  dollar_notMem : ch '$' ∉ payload
  hash_notMem : ch '#' ∉ payload
  high_hex : isDigit 16 high = true
  low_hex : isDigit 16 low = true

def PacketToken.text (p : PacketToken) : Text :=
  ch '$' :: (p.payload ++ [ch '#', p.high, p.low])

@[simp] theorem PacketToken.length_text (p : PacketToken) :
    p.text.length = p.payload.length + 4 := by
  rw [PacketToken.text, List.length_cons, List.length_append]
  rfl

theorem packetRule_accepts_iff (t : Text) :
    (scannerRule .packet packetPattern).accepts t = true ↔ ∃ p : PacketToken, t = p.text := by
  change packetPattern.rmatch (t.map yyEc) = true ↔ _
  rw [packetPattern_rmatch_iff]
  constructor
  · rintro ⟨payload, hp, ht⟩
    obtain ⟨c, t, rfl, hc, ht⟩ := List.map_eq_cons_iff.mp ht
    obtain ⟨body, digits, rfl, rfl, hdigits⟩ := List.map_eq_append_iff.mp ht
    obtain ⟨x, _, rfl, hx, ht⟩ := List.map_eq_cons_iff.mp hdigits
    obtain ⟨y, _, rfl, hy, ht⟩ := List.map_eq_cons_iff.mp ht
    obtain ⟨z, _, rfl, hz, ht⟩ := List.map_eq_cons_iff.mp ht
    obtain rfl := List.map_eq_nil_iff.mp ht
    rw [(yyEc_iff c).2.1] at hc
    rw [(yyEc_iff x).1] at hx
    subst hc hx
    exact ⟨
      { payload := body
        high := y
        low := z
        dollar_notMem := fun h => (hp _ (List.mem_map_of_mem h)).1 ((yyEc_iff _).2.1.mpr rfl)
        hash_notMem := fun h => (hp _ (List.mem_map_of_mem h)).2 ((yyEc_iff _).1.mpr rfl)
        high_hex := (yyEc_iff y).2.2.2.2.mp hy
        low_hex := (yyEc_iff z).2.2.2.2.mp hz }, rfl⟩
  · rintro ⟨p, rfl⟩
    refine ⟨p.payload.map yyEc, ?_, ?_⟩
    · intro c hc
      obtain ⟨b, hb, rfl⟩ := List.mem_map.mp hc
      exact ⟨fun h => p.dollar_notMem ((yyEc_iff b).2.1.mp h ▸ hb),
        fun h => p.hash_notMem ((yyEc_iff b).1.mp h ▸ hb)⟩
    · simp only [PacketToken.text, List.map_cons, List.map_append, List.map_nil,
        (yyEc_iff p.high).2.2.2.2.mpr p.high_hex, (yyEc_iff p.low).2.2.2.2.mpr p.low_hex,
        (yyEc_iff (ch '$')).2.1.mpr rfl, (yyEc_iff (ch '#')).1.mpr rfl]

/-- The rules match the single bytes and the packets. -/
theorem accepts_iff (t : Text) :
    Accepts scannerRules t ↔ (∃ c, t = [c]) ∨ ∃ p : PacketToken, t = p.text := by
  have hsingle : ∀ {cs : List CharClass}, (∃ c ∈ cs, t.map yyEc = [c]) → ∃ c, t = [c] := by
    rintro cs ⟨c, -, hc⟩
    obtain ⟨b, hb, -⟩ := List.map_eq_singleton_iff.mp hc
    exact ⟨b, hb⟩
  constructor
  · rintro ⟨r, hr, ht⟩
    simp only [scannerRules, List.mem_cons, List.not_mem_nil, or_false] at hr
    rcases hr with rfl | rfl | rfl | rfl | rfl
    · exact Or.inl (hsingle ⟨_, List.mem_singleton_self _, (char_rmatch_iff ..).mp ht⟩)
    · exact Or.inl (hsingle ⟨_, List.mem_singleton_self _, (char_rmatch_iff ..).mp ht⟩)
    · exact Or.inr ((packetRule_accepts_iff t).mp ht)
    · exact Or.inl (hsingle ((anyOf_rmatch_iff ..).mp ht))
    · exact Or.inl (hsingle ((anyOf_rmatch_iff ..).mp ht))
  · rintro (⟨c, rfl⟩ | ⟨p, rfl⟩)
    · refine ⟨_, List.mem_of_getElem? (i := 4) rfl, (anyOf_rmatch_iff ..).mpr ⟨yyEc c, ?_, rfl⟩⟩
      generalize yyEc c = k
      cases k <;> decide
    · exact ⟨_, List.mem_of_getElem? (i := 2) rfl, (packetRule_accepts_iff _).mpr ⟨p, rfl⟩⟩

theorem total_scannerRules : Total scannerRules :=
  fun c => (accepts_iff [c]).mpr (Or.inl ⟨c, rfl⟩)

/-- A `$` begins a token. -/
theorem anchor_dollar : Anchor scannerRules (ch '$') := by
  intro t ht
  rcases (accepts_iff t).mp ht with ⟨c, rfl⟩ | ⟨p, rfl⟩
  · exact List.not_mem_nil
  · have hhigh : ch '$' ≠ p.high := fun h => absurd p.high_hex (h ▸ by decide)
    have hlow : ch '$' ≠ p.low := fun h => absurd p.low_hex (h ▸ by decide)
    simp only [PacketToken.text, List.tail_cons, List.mem_append, List.mem_cons,
      List.not_mem_nil, not_or]
    exact ⟨p.dollar_notMem, by decide, hhigh, hlow, not_false⟩

/-- What the `#` of a packet ends is its payload. -/
theorem PacketToken.takeWhile_payload (p : PacketToken) (rest : Text) :
    ((p.text ++ rest).tail.takeWhile fun c => decide (c ≠ ch '#')) = p.payload := by
  have hall : ∀ c ∈ p.payload, decide (c ≠ ch '#') = true := by
    intro c hc
    exact decide_eq_true fun h => p.hash_notMem (h ▸ hc)
  rw [PacketToken.text, List.cons_append, List.tail_cons, List.append_assoc,
    List.takeWhile_append_of_pos hall, List.cons_append, List.takeWhile_cons,
    if_neg (by decide), List.append_nil]

/-- An input starts with at most one packet. -/
theorem PacketToken.length_eq_of_prefix {p p' : PacketToken} {rest : Text}
    (h : p'.text <+: p.text ++ rest) : p'.text.length = p.text.length := by
  obtain ⟨rest', hrest'⟩ := h
  have hp := p.takeWhile_payload rest
  rw [← hrest', p'.takeWhile_payload rest'] at hp
  rw [length_text, length_text, hp]

/-! ## Tokens -/

theorem nextToken_packet (p : PacketToken) (rest : Text) :
    nextToken scannerRules (p.text ++ rest) = some (.packet, p.text) := by
  refine nextToken_eq (r := scannerRule .packet packetPattern)
    [scannerRule .ack (char .plus), scannerRule .nack (char .minus)]
    rfl (List.cons_ne_nil _ _) ((packetRule_accepts_iff _).mpr ⟨p, rfl⟩) ?_ ?_
  · have hchar : ∀ c : CharClass, (char c).rmatch (p.text.map yyEc) = false := by
      intro c
      rw [Bool.eq_false_iff, Ne, char_rmatch_iff]
      intro h
      have := congrArg List.length h
      rw [List.length_map, p.length_text, List.length_singleton] at this
      omega
    simp only [List.mem_cons, List.not_mem_nil, or_false, forall_eq_or_imp, forall_eq]
    exact ⟨hchar .plus, hchar .minus⟩
  · intro t' hpre ht'
    rcases (accepts_iff t').mp ht' with ⟨c, rfl⟩ | ⟨p', rfl⟩
    · rw [List.length_singleton, p.length_text]
      omega
    · exact (PacketToken.length_eq_of_prefix hpre).le

/-- Before a byte that is no `$` no rule matches more than that byte. -/
theorem length_le_one_of_prefix {c : Byte} {rest t' : Text} (hc : c ≠ ch '$')
    (hpre : t' <+: [c] ++ rest) (ht' : Accepts scannerRules t') : t'.length ≤ [c].length := by
  rcases (accepts_iff t').mp ht' with ⟨d, rfl⟩ | ⟨p, rfl⟩
  · exact le_rfl
  · obtain ⟨rest', hrest'⟩ := hpre
    exact absurd (List.cons.inj hrest').1.symm hc

theorem nextToken_ack (rest : Text) :
    nextToken scannerRules ([ch '+'] ++ rest) = some (.ack, [ch '+']) :=
  nextToken_eq (r := scannerRule .ack (char .plus)) [] rfl (List.cons_ne_nil _ _)
    (by decide) (fun _ h => absurd h List.not_mem_nil)
    fun _ => length_le_one_of_prefix (by decide)

theorem nextToken_nack (rest : Text) :
    nextToken scannerRules ([ch '-'] ++ rest) = some (.nack, [ch '-']) := by
  refine nextToken_eq (r := scannerRule .nack (char .minus))
    [scannerRule .ack (char .plus)] rfl (List.cons_ne_nil _ _) (by decide) ?_
    fun _ => length_le_one_of_prefix (by decide)
  intro r hr
  rw [List.mem_singleton.mp hr]
  decide

/-- What a debugger sends. -/
inductive Message where
  | ack | nack | packet (p : PacketToken)

def Message.token : Message → TokenKind × Text
  | .ack => (.ack, [ch '+'])
  | .nack => (.nack, [ch '-'])
  | .packet p => (.packet, p.text)

/-- A message at the start of the input is the next token. -/
theorem Message.nextToken (m : Message) (rest : Text) :
    Lexer.nextToken scannerRules (m.token.2 ++ rest) = some m.token := by
  cases m with
  | ack => exact nextToken_ack rest
  | nack => exact nextToken_nack rest
  | packet p => exact nextToken_packet p rest

/-- Messages one after the other are tokenised into just these. -/
theorem tokenise_messages (messages : List Message) :
    tokenise scannerRules (messages.map fun m => m.token.2).flatten
      = messages.map Message.token := by
  induction messages with
  | nil => exact tokenise_nil
  | cons m messages ih =>
      have hnext : ∀ rest, Lexer.nextToken scannerRules (m.token.2 ++ rest)
          = some (m.token.1, m.token.2) := fun rest => m.nextToken rest
      rw [List.map_cons, List.flatten_cons, tokenise_of_nextToken (hnext _) rfl, ih,
        List.map_cons]

/-- A packet is found where it begins, whatever comes before it and
whatever follows; messages alone are tokenised into just these. -/
theorem scanner_resynchronises :
    (∀ (u v : Text) (p : PacketToken), ∃ toks,
      tokenise scannerRules (u ++ p.text ++ v)
          = toks ++ (.packet, p.text) :: tokenise scannerRules v ∧
        (toks.map Prod.snd).flatten = u) ∧
    ∀ messages : List Message,
      tokenise scannerRules (messages.map fun m => m.token.2).flatten
        = messages.map Message.token := by
  refine ⟨?_, tokenise_messages⟩
  intro u v p
  obtain ⟨toks, htoks, hflat⟩ := tokenise_append_anchor total_scannerRules anchor_dollar u
    ((p.payload ++ [ch '#', p.high, p.low]) ++ v)
  have htext : ch '$' :: ((p.payload ++ [ch '#', p.high, p.low]) ++ v) = p.text ++ v := rfl
  refine ⟨toks, ?_, hflat⟩
  rw [htext] at htoks
  rw [List.append_assoc, htoks, tokenise_of_nextToken (nextToken_packet p v) rfl]

end Armator
