import CaseSuite.Token.Scan
import Mathlib

/-!
# Where strings end

A quoted string ends at the first quote that is not escaped, and a quote is escaped if an odd number
of backslashes stands before it.  A raw string ends at the first three quotes in a row.  Both rules
speak about the text as a whole; the scanner walks over it and looks one or two characters ahead.
It finds exactly the ends that the rules give.
-/

namespace CaseSuite
namespace Token

/-! ## Quoted strings -/

/-- What comes right after this text is escaped: an odd number of backslashes stands before it. -/
def Escaped (before : List Char) : Prop :=
  Odd (before.rtakeWhile (· = '\\')).length

instance (before : List Char) : Decidable (Escaped before) :=
  inferInstanceAs (Decidable (Odd _))

/-- A text whose end escapes nothing may be put in front. -/
theorem escaped_append {front : List Char} (h : ¬ Escaped front) (cs : List Char) :
    Escaped (front ++ cs) ↔ Escaped cs := by
  unfold Escaped at h ⊢
  by_cases hall : ∀ c ∈ cs.reverse, decide (c = '\\') = true
  · -- the run of backslashes reaches into the front, where their number is even
    have hcs : cs.reverse.takeWhile (· = '\\') = cs.reverse := List.takeWhile_eq_self_iff.mpr hall
    have hlength : ((front ++ cs).rtakeWhile (· = '\\')).length =
        (front.rtakeWhile (· = '\\')).length + (cs.rtakeWhile (· = '\\')).length := by
      simp [List.rtakeWhile, List.takeWhile_append_of_pos hall, hcs, Nat.add_comm]
    rw [hlength, Nat.odd_add, iff_false_left h, Nat.not_even_iff_odd]
  · have hshort : (cs.reverse.takeWhile (· = '\\')).length ≠ cs.reverse.length := by
      intro hlength
      exact hall (List.takeWhile_eq_self_iff.mp
        (( List.takeWhile_prefix _).eq_of_length hlength))
    rw [List.rtakeWhile, List.reverse_append, List.takeWhile_append, if_neg hshort]
    rfl

/-- No quote of this text closes a string: up to the first line feed all of them are escaped. -/
def Unclosed (cs : List Char) : Prop :=
  ∀ before after, cs = before ++ '\x22' :: after → '\n' ∉ before → Escaped before

/-- What may stand between the quotes of a quoted string: one line that does not end in the middle
of an escape and in which all quotes are escaped. -/
structure QuotedBody (inner : List Char) : Prop where
  line : '\n' ∉ inner
  whole : ¬ Escaped inner
  unclosed : Unclosed inner

theorem unclosed_of_notMem {cs : List Char} (h : '\x22' ∉ cs) : Unclosed cs := by
  rintro before after rfl
  simp at h

theorem not_unclosed_quote (cs : List Char) : ¬ Unclosed ('\x22' :: cs) :=
  fun h => absurd (h [] cs rfl (by simp)) (by decide)

/-- What comes on later lines closes nothing. -/
theorem Unclosed.line
    {front : List Char} (h : Unclosed front) (cs : List Char) : Unclosed (front ++ '\n' :: cs) := by
  intro before after hcs hbefore
  rcases List.append_eq_append_iff.mp hcs with ⟨more, rfl, hmore⟩ | ⟨more, rfl, hmore⟩
  · rcases List.cons_eq_append_iff.mp hmore with ⟨-, hat⟩ | ⟨_, rfl, -⟩
    · exact absurd (List.cons.inj hat).1 (by decide)
    · simp at hbefore
  · rcases more with _ | ⟨c, more⟩
    · exact absurd (List.cons.inj hmore).1 (by decide)
    · obtain ⟨rfl, -⟩ := List.cons.inj hmore
      exact h before more rfl hbefore

namespace QuotedBody

/-- A body closes nothing and escapes nothing in what follows it. -/
theorem unclosed_append_iff {front : List Char} (h : QuotedBody front) (cs : List Char) :
    Unclosed (front ++ cs) ↔ Unclosed cs := by
  constructor
  · intro hcs before after hafter hbefore
    have hescaped := hcs (front ++ before) after (by simp [hafter]) (by simp [h.line, hbefore])
    exact (escaped_append h.whole before).mp hescaped
  · intro hcs before after hwhole hbefore
    rcases List.append_eq_append_iff.mp hwhole with ⟨more, rfl, hmore⟩ | ⟨more, rfl, hmore⟩
    · rw [escaped_append h.whole]
      exact hcs more after hmore (fun hin => hbefore (by simp [hin]))
    · rcases more with _ | ⟨c, more⟩
      · exact absurd (hmore ▸ hcs) (not_unclosed_quote after)
      · obtain ⟨rfl, -⟩ := List.cons.inj hmore
        exact h.unclosed before more rfl hbefore

theorem append_iff {front : List Char} (h : QuotedBody front) (inner : List Char) :
    QuotedBody (front ++ inner) ↔ QuotedBody inner := by
  have hline : '\n' ∉ front ++ inner ↔ '\n' ∉ inner := by simp [h.line]
  constructor
  · rintro ⟨line, whole, unclosed⟩
    exact ⟨hline.mp line, (escaped_append h.whole inner).not.mp whole,
      (h.unclosed_append_iff inner).mp unclosed⟩
  · rintro ⟨line, whole, unclosed⟩
    exact ⟨hline.mpr line, (escaped_append h.whole inner).not.mpr whole,
      (h.unclosed_append_iff inner).mpr unclosed⟩

theorem nil : QuotedBody [] :=
  ⟨by simp, by decide, unclosed_of_notMem (by simp)⟩

/-- A character other than a quote or a backslash stands for itself. -/
theorem single {c : Char} (hquote : c ≠ '\x22') (hslash : c ≠ '\\') (hline : c ≠ '\n') :
    QuotedBody [c] := by
  refine ⟨by simpa using hline.symm, ?_, unclosed_of_notMem (by simpa using hquote.symm)⟩
  simp [Escaped, List.rtakeWhile, hslash]

/-- A backslash may stand before any character of its line. -/
theorem pair {c : Char} (hline : c ≠ '\n') : QuotedBody ['\\', c] := by
  refine ⟨by simp [hline.symm], ?_, ?_⟩
  · by_cases h : c = '\\' <;> simp [Escaped, List.rtakeWhile, h]
  · intro before after h _
    rcases List.cons_eq_append_iff.mp h with ⟨-, hat⟩ | ⟨more, rfl, hmore⟩
    · exact absurd (List.cons.inj hat).1.symm (by decide)
    · rcases List.cons_eq_append_iff.mp hmore with ⟨rfl, -⟩ | ⟨_, -, hnil⟩
      · decide
      · simp at hnil

theorem eq_nil_of_quote
    {front more tail after : List Char} (h : QuotedBody front) (hmore : QuotedBody (front ++ more))
    (heq : '\x22' :: tail = more ++ after) : more = [] := by
  rcases more with _ | ⟨c, more⟩
  · rfl
  · obtain ⟨rfl, -⟩ := List.cons.inj heq
    exact absurd ((h.append_iff _).mp hmore).unclosed (not_unclosed_quote more)

/-- Of two bodies that a quote follows in one text neither goes on beyond the other. -/
theorem unique
    {inner inner' rest rest' : List Char} (h : QuotedBody inner) (h' : QuotedBody inner')
    (heq : inner ++ '\x22' :: rest = inner' ++ '\x22' :: rest') : inner = inner' := by
  rcases List.append_eq_append_iff.mp heq with ⟨more, rfl, hmore⟩ | ⟨more, rfl, hmore⟩
  · rw [h.eq_nil_of_quote h' hmore, List.append_nil]
  · rw [h'.eq_nil_of_quote h hmore, List.append_nil]

end QuotedBody

/-- The scanner finds no end exactly where nothing closes the string. -/
theorem splitQuoted_eq_none_iff {cs : List Char} : splitQuoted cs = none ↔ Unclosed cs := by
  fun_induction splitQuoted cs with
  | case1 => exact iff_of_true rfl QuotedBody.nil.unclosed
  | case2 rest => simp [not_unclosed_quote]
  | case3 rest => exact iff_of_true rfl (QuotedBody.nil.unclosed.line rest)
  | case4 c cs hescaped ih =>
      have hline : c ≠ '\n' := by
        rintro rfl
        simp at hescaped
      rw [Option.map_eq_none_iff, ih]
      exact ((QuotedBody.pair hline).unclosed_append_iff cs).symm
  | case5 c cs hplain ih =>
      simp only [Bool.or_eq_true, decide_eq_true_eq, not_or] at hplain
      rw [Option.map_eq_none_iff, ih]
      by_cases hline : c = '\n'
      · -- a backslash at the end of a line escapes nothing
        subst hline
        have hslash : Unclosed ['\\'] := unclosed_of_notMem (by decide)
        exact iff_of_true (QuotedBody.nil.unclosed.line cs) (hslash.line cs)
      · have hsingle := (QuotedBody.single hplain.1 hplain.2 hline).unclosed_append_iff cs
        have hpair := (QuotedBody.pair hline).unclosed_append_iff cs
        exact hsingle.trans hpair.symm
  | case6 c cs hquote hline hslash ih =>
      rw [Option.map_eq_none_iff, ih]
      by_cases hlast : c = '\\'
      · -- a backslash that ends the text
        have hcs : cs = [] := by
          rcases cs with _ | ⟨d, cs⟩
          · rfl
          · exact absurd rfl (hslash d cs hlast)
        subst hlast hcs
        exact iff_of_true QuotedBody.nil.unclosed (unclosed_of_notMem (by decide))
      · exact ((QuotedBody.single hquote hlast hline).unclosed_append_iff cs).symm

theorem quotedBody_of_splitQuoted
    {cs body rest : List Char} (h : splitQuoted cs = some (body, rest)) :
    ∃ inner, body = inner ++ ['\x22'] ∧ QuotedBody inner := by
  fun_induction splitQuoted cs generalizing body with
  | case1 => cases h
  | case2 tail =>
      cases h
      exact ⟨[], rfl, QuotedBody.nil⟩
  | case3 => cases h
  | case4 c cs hescaped ih =>
      obtain ⟨⟨body', rest'⟩, hsplit, heq⟩ := Option.map_eq_some_iff.mp h
      cases heq
      obtain ⟨inner, rfl, hinner⟩ := ih hsplit
      have hline : c ≠ '\n' := by
        rintro rfl
        simp at hescaped
      exact ⟨'\\' :: c :: inner, rfl, ((QuotedBody.pair hline).append_iff inner).mpr hinner⟩
  | case5 c cs hplain ih =>
      simp only [Bool.or_eq_true, decide_eq_true_eq, not_or] at hplain
      obtain ⟨⟨body', rest'⟩, hsplit, heq⟩ := Option.map_eq_some_iff.mp h
      cases heq
      obtain ⟨inner, rfl, hinner⟩ := ih hsplit
      -- the character behind the backslash is not the closing quote
      rcases inner with _ | ⟨d, inner⟩
      · exact absurd (List.cons.inj (splitQuoted_append hsplit)).1.symm hplain.1
      · obtain ⟨rfl, -⟩ := List.cons.inj (splitQuoted_append hsplit)
        have hline : d ≠ '\n' := fun hfeed => hinner.line (by simp [hfeed])
        have hinner' := ((QuotedBody.single hplain.1 hplain.2 hline).append_iff inner).mp hinner
        exact ⟨'\\' :: d :: inner, rfl, ((QuotedBody.pair hline).append_iff inner).mpr hinner'⟩
  | case6 c cs hquote hline hslash ih =>
      obtain ⟨⟨body', rest'⟩, hsplit, heq⟩ := Option.map_eq_some_iff.mp h
      cases heq
      obtain ⟨inner, rfl, hinner⟩ := ih hsplit
      have hlast : c ≠ '\\' := by
        intro hc
        rcases cs with _ | ⟨d, cs⟩
        · simp [splitQuoted] at hsplit
        · exact hslash d cs hc rfl
      exact ⟨c :: inner, rfl, ((QuotedBody.single hquote hlast hline).append_iff inner).mpr hinner⟩

/-- The scanner ends a quoted string at the first quote that is not escaped. -/
theorem splitQuoted_eq_some_iff
    {cs body rest : List Char} :
    splitQuoted cs = some (body, rest) ↔
      ∃ inner, body = inner ++ ['\x22'] ∧ cs = inner ++ '\x22' :: rest ∧ QuotedBody inner := by
  constructor
  · intro h
    obtain ⟨inner, rfl, hinner⟩ := quotedBody_of_splitQuoted h
    exact ⟨inner, rfl, by simpa using (splitQuoted_append h).symm, hinner⟩
  · rintro ⟨inner, rfl, rfl, hinner⟩
    rcases hsplit : splitQuoted (inner ++ '\x22' :: rest) with _ | ⟨body, rest'⟩
    · have hclosed := splitQuoted_eq_none_iff.mp hsplit
      exact absurd ((hinner.unclosed_append_iff _).mp hclosed) (not_unclosed_quote rest)
    · obtain ⟨inner', rfl, hinner'⟩ := quotedBody_of_splitQuoted hsplit
      have happend : inner' ++ '\x22' :: rest' = inner ++ '\x22' :: rest := by
        simpa using splitQuoted_append hsplit
      obtain rfl := hinner'.unique hinner happend
      obtain ⟨-, rfl⟩ := List.cons.inj (List.append_cancel_left happend)
      rfl

/-! ## Raw strings -/

/-- Three quotes in a row. -/
def tripleQuote : List Char := ['\x22', '\x22', '\x22']

/-- What may stand between the triple quotes of a raw string: the closing quotes are the first three
in a row. -/
def RawBody (inner : List Char) : Prop :=
  ∀ before, before ++ tripleQuote <+: inner ++ tripleQuote → before = inner

/-- The scanner finds no end exactly where no three quotes stand in a row. -/
theorem splitRaw_eq_none_iff {cs : List Char} :
    splitRaw cs = none ↔ ¬ tripleQuote <:+: cs := by
  fun_induction splitRaw cs with
  | case1 rest =>
      have hfront : tripleQuote <:+: '\x22' :: '\x22' :: '\x22' :: rest := ⟨[], rest, rfl⟩
      simp [hfront]
  | case2 c cs hnot ih =>
      have hfront : ¬ tripleQuote <+: c :: cs := by
        rintro ⟨rest, hrest⟩
        obtain ⟨rfl, rfl⟩ := List.cons.inj hrest
        exact hnot rest rfl rfl
      rw [Option.map_eq_none_iff, ih, List.infix_cons_iff, not_or, and_iff_right hfront]
  | case3 => simp [tripleQuote]

theorem rawBody_of_splitRaw
    {cs body rest : List Char} (h : splitRaw cs = some (body, rest)) :
    ∃ inner, body = inner ++ tripleQuote ∧ RawBody inner := by
  fun_induction splitRaw cs generalizing body with
  | case1 tail =>
      cases h
      refine ⟨[], rfl, ?_⟩
      intro before hbefore
      have hlength := hbefore.length_le
      rw [List.length_append, List.length_append] at hlength
      exact List.eq_nil_of_length_eq_zero (by simpa using hlength)
  | case2 c cs hnot ih =>
      obtain ⟨⟨body', rest'⟩, hsplit, heq⟩ := Option.map_eq_some_iff.mp h
      cases heq
      obtain ⟨inner, rfl, hinner⟩ := ih hsplit
      refine ⟨c :: inner, rfl, ?_⟩
      intro before hbefore
      rcases before with _ | ⟨d, before⟩
      · -- three quotes at the very front would have been found there
        obtain ⟨tail, htail⟩ := hbefore
        obtain ⟨rfl, hmore⟩ := List.cons.inj htail
        have hcs : cs = '\x22' :: '\x22' :: (tail ++ rest) :=
          (splitRaw_append hsplit).symm.trans (congrArg (· ++ rest) hmore.symm)
        exact (hnot (tail ++ rest) rfl hcs).elim
      · obtain ⟨rfl, hmore⟩ := List.cons_prefix_cons.mp hbefore
        rw [hinner before hmore]
  | case3 => cases h

theorem RawBody.unique
    {inner inner' rest rest' : List Char} (h : RawBody inner) (h' : RawBody inner')
    (heq : inner ++ tripleQuote ++ rest = inner' ++ tripleQuote ++ rest') : inner = inner' := by
  have hfront : inner ++ tripleQuote <+: inner' ++ tripleQuote ++ rest' := ⟨rest, heq⟩
  have hfront' : inner' ++ tripleQuote <+: inner' ++ tripleQuote ++ rest' := ⟨rest', rfl⟩
  rcases List.prefix_or_prefix_of_prefix hfront hfront' with hle | hle
  · exact h' inner hle
  · exact (h inner' hle).symm

/-- The scanner ends a raw string at the first three quotes in a row. -/
theorem splitRaw_eq_some_iff
    {cs body rest : List Char} :
    splitRaw cs = some (body, rest) ↔
      ∃ inner, body = inner ++ tripleQuote ∧ cs = inner ++ tripleQuote ++ rest ∧ RawBody inner := by
  constructor
  · intro h
    obtain ⟨inner, rfl, hinner⟩ := rawBody_of_splitRaw h
    exact ⟨inner, rfl, (splitRaw_append h).symm, hinner⟩
  · rintro ⟨inner, rfl, rfl, hinner⟩
    rcases hsplit : splitRaw (inner ++ tripleQuote ++ rest) with _ | ⟨body, rest'⟩
    · exact absurd ⟨inner, rest, rfl⟩ (splitRaw_eq_none_iff.mp hsplit)
    · obtain ⟨inner', rfl, hinner'⟩ := rawBody_of_splitRaw hsplit
      have happend := splitRaw_append hsplit
      obtain rfl := hinner'.unique hinner happend
      rw [List.append_cancel_left happend]

/-- A text may stand in a raw string if it has no three quotes in a row and no quote at its end. -/
theorem rawBody_iff {inner : List Char} :
    RawBody inner ↔ ¬ tripleQuote <:+: inner ∧ ¬ ['\x22'] <:+ inner := by
  constructor
  · intro h
    constructor
    · rintro ⟨before, after, rfl⟩
      have hbefore := h before (by simp)
      simp [tripleQuote] at hbefore
    · rintro ⟨before, rfl⟩
      have hbefore := h before ⟨['\x22'], by simp [tripleQuote]⟩
      simp at hbefore
  · rintro ⟨hinside, hend⟩ before hbefore
    have hlength := hbefore.length_le
    rw [List.length_append, List.length_append, Nat.add_le_add_iff_right] at hlength
    obtain ⟨more, rfl⟩ : before <+: inner :=
      List.prefix_of_prefix_length_le ((List.prefix_append _ _).trans hbefore)
        (List.prefix_append _ _) hlength
    rw [List.append_assoc, List.prefix_append_right_inj] at hbefore
    -- the three quotes begin in the text; they end in it too, or the text ends with a quote
    rcases more with _ | ⟨a, _ | ⟨b, _ | ⟨c, more⟩⟩⟩
    · simp
    · obtain ⟨rfl, -⟩ := List.cons_prefix_cons.mp hbefore
      exact absurd (List.suffix_append _ _) hend
    · obtain ⟨rfl, hmore⟩ := List.cons_prefix_cons.mp hbefore
      obtain ⟨rfl, -⟩ := List.cons_prefix_cons.mp hmore
      exact absurd ⟨before ++ ['\x22'], by simp⟩ hend
    · have hfront : tripleQuote <+: a :: b :: c :: more :=
        List.prefix_of_prefix_length_le hbefore (List.prefix_append _ _) (by simp [tripleQuote])
      exact absurd (hfront.isInfix.trans (List.suffix_append _ _).isInfix) hinside

end Token
end CaseSuite
