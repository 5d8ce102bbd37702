import CaseSuite.Proofs.Scanning.Layout
import CaseSuite.Proofs.Scanning.Lexemes
import Mathlib

/-!
# Scanning by the lexical grammar

The scanner takes what is a complete lexeme behind a gap, and it stops where none begins: at a
character that belongs to no lexeme and no gap, or at a string that nothing closes.  Both are said
of single steps first and then of whole texts.
-/

namespace CaseSuite
namespace Token

/-! ## Where no lexeme stands -/

/-- A string is opened and nothing closes it, a quoted string not before the end of its line. -/
def OpensUnclosed (cs : List Char) : Prop :=
  (∃ body, cs = tripleQuote ++ body ∧ ¬ tripleQuote <:+: body) ∨
    ∃ body, cs = '\x22' :: body ∧ ¬ tripleQuote <+: cs ∧ Unclosed body

/-- What cannot be scanned: a character that begins no lexeme and no gap, or a string that nothing
closes. -/
def Offends (cs : List Char) : Fault → Prop
  | .unexpected c => cs.head? = some c ∧ isSpace c = false ∧ c ≠ '#' ∧ c ≠ '\x22' ∧
      (∀ kind, (c, kind) ∉ marks) ∧
      ∀ lexeme, lexeme <+: cs → ¬ IsNumber lexeme ∧ ¬ IsIdentifier lexeme
  | .unterminated => OpensUnclosed cs

theorem opensUnclosed_triple {tail : List Char} :
    OpensUnclosed (tripleQuote ++ tail) ↔ ¬ tripleQuote <:+: tail := by
  constructor
  · rintro (⟨body, heq, hbody⟩ | ⟨_, -, hsingle, -⟩)
    · rwa [List.append_cancel_left heq]
    · exact absurd (List.prefix_append _ _) hsingle
  · exact fun h => Or.inl ⟨tail, rfl, h⟩

theorem opensUnclosed_single {cs : List Char} (h : ¬ tripleQuote <+: '\x22' :: cs) :
    OpensUnclosed ('\x22' :: cs) ↔ Unclosed cs := by
  constructor
  · rintro (⟨body, heq, -⟩ | ⟨body, heq, -, hbody⟩)
    · exact absurd ⟨body, heq.symm⟩ h
    · rwa [(List.cons.inj heq).2]
  · exact fun hcs => Or.inr ⟨cs, rfl, h, hcs⟩

theorem cutString_eq_error_iff {cs : List Char} {fault : Fault} :
    cutString cs = .error fault ↔ fault = .unterminated ∧ OpensUnclosed ('\x22' :: cs) := by
  by_cases htriple : tripleQuote <+: '\x22' :: cs
  · obtain ⟨tail, rfl⟩ := tripleQuote_prefix_iff.mp htriple
    have hopens : OpensUnclosed ('\x22' :: '\x22' :: '\x22' :: tail) ↔ splitRaw tail = none :=
      opensUnclosed_triple.trans splitRaw_eq_none_iff.symm
    rw [cutString, hopens]
    rcases splitRaw tail with _ | ⟨body, rest⟩ <;> simp [eq_comm]
  · rw [cutString_of_single htriple, opensUnclosed_single htriple, ← splitQuoted_eq_none_iff]
    rcases splitQuoted cs with _ | ⟨body, rest⟩ <;> simp [eq_comm]

theorem head?_of_opensUnclosed {cs : List Char} (h : OpensUnclosed cs) :
    cs.head? = some '\x22' := by
  rcases h with ⟨body, rfl, -⟩ | ⟨body, rfl, -, -⟩ <;> rfl

theorem cut_eq_unterminated_iff {c : Char} {cs : List Char} :
    cut c cs = .error .unterminated ↔ OpensUnclosed (c :: cs) := by
  by_cases hquote : c = '\x22'
  · subst hquote
    rw [cut, if_pos rfl, cutString_eq_error_iff]
    simp
  · constructor
    · intro h
      rw [cut, if_neg hquote] at h
      split_ifs at h
      split at h <;> cases h
    · intro h
      exact absurd (Option.some.inj (head?_of_opensUnclosed h)) hquote

theorem cut_eq_unexpected_iff {c d : Char} {cs : List Char} :
    cut c cs = .error (.unexpected d) ↔ c = d ∧ c ≠ '\x22' ∧ (∀ kind, (c, kind) ∉ marks) ∧
      Number.isDigit c = false ∧ isWordStart c = false := by
  have hmarks : (∀ kind, (c, kind) ∉ marks) ↔ punctuation? c = none := by
    simp only [← punctuation?_eq_some_iff, Option.eq_none_iff_forall_ne_some, ne_eq]
  rw [hmarks, cut]
  split_ifs with hquote hdigit hstart
  · simp [cutString_eq_error_iff, hquote]
  · simp [hdigit]
  · simp [hstart]
  · rcases punctuation? c with _ | kind <;> simp [hquote, hdigit, hstart]

/-- A text begins with a number or a word exactly if its first character is a digit, a letter or an
underscore. -/
theorem begins_neither_iff {c : Char} {cs : List Char} :
    (∀ lexeme, lexeme <+: c :: cs → ¬ IsNumber lexeme ∧ ¬ IsIdentifier lexeme) ↔
      Number.isDigit c = false ∧ isWordStart c = false := by
  constructor
  · intro h
    obtain ⟨hnumber, hword⟩ := h [c] ⟨cs, rfl⟩
    constructor
    · rw [← Bool.not_eq_true]
      exact fun hdigit => hnumber (IsNumber.whole ⟨by simp, by simpa using hdigit⟩)
    · rw [← Bool.not_eq_true]
      exact fun hstart => hword ⟨hstart, by simp⟩
  · rintro ⟨hdigit, hstart⟩ lexeme hlexeme
    constructor
    · intro hnumber
      obtain ⟨d, tail, rfl, hd⟩ := hnumber.exists_digit
      obtain ⟨rfl, -⟩ := List.cons_prefix_cons.mp hlexeme
      simp [hdigit] at hd
    · intro hword
      rcases lexeme with _ | ⟨d, tail⟩
      · exact hword
      · obtain ⟨rfl, -⟩ := List.cons_prefix_cons.mp hlexeme
        exact absurd hword.1 (by simp [hstart])

/-- At a character that belongs to no gap, cutting off a lexeme fails exactly if none begins. -/
theorem cut_eq_error_iff
    {c : Char} {cs : List Char} (hspace : isSpace c = false) (hhash : c ≠ '#') {fault : Fault} :
    cut c cs = .error fault ↔ Offends (c :: cs) fault := by
  cases fault with
  | unexpected d =>
      rw [cut_eq_unexpected_iff]
      constructor
      · rintro ⟨rfl, hquote, hmarks, hbegins⟩
        exact ⟨rfl, hspace, hhash, hquote, hmarks, begins_neither_iff.mpr hbegins⟩
      · rintro ⟨hhead, -, -, hquote, hmarks, hbegins⟩
        obtain rfl := Option.some.inj hhead
        exact ⟨rfl, hquote, hmarks, begins_neither_iff.mp hbegins⟩
  | unterminated => exact cut_eq_unterminated_iff

/-- What offends begins with a character that belongs to no gap. -/
theorem exists_cons_of_offends
    {cs : List Char} {fault : Fault} (h : Offends cs fault) :
    ∃ c rest, cs = c :: rest ∧ isSpace c = false ∧ c ≠ '#' := by
  cases fault with
  | unexpected c =>
      obtain ⟨hhead, hspace, hhash, -⟩ := h
      obtain ⟨rest, rfl⟩ := List.head?_eq_some_iff.mp hhead
      exact ⟨c, rest, rfl, hspace, hhash⟩
  | unterminated =>
      obtain ⟨rest, rfl⟩ := List.head?_eq_some_iff.mp (head?_of_opensUnclosed h)
      exact ⟨'\x22', rest, rfl, by decide, by decide⟩

/-! ## Steps of the scanner -/

/-- What begins a lexeme is neither a blank nor a comment. -/
theorem not_apart_of_cut
    {c : Char} {cs : List Char} {token : Cut} (h : cut c cs = .ok token) :
    isSpace c = false ∧ c ≠ '#' := by
  by_contra hnot
  have hapart : isSpace c = true ∨ c = '#' := by
    by_contra hneither
    apply hnot
    simpa [not_or] using hneither
  obtain ⟨hword, hdigit, -, hquote⟩ := isWordChar_of_apart hapart
  have hstart : isWordStart c = false := by
    simp only [isWordChar, Bool.or_eq_false_iff] at hword
    exact hword.1
  have hmarks : ∀ kind, (c, kind) ∉ marks := by
    have hall : ∀ m ∈ marks, ¬ (isSpace m.1 = true ∨ m.1 = '#') := by decide
    exact fun kind hmark => hall (c, kind) hmark hapart
  have herror : cut c cs = .error (.unexpected c) :=
    cut_eq_unexpected_iff.mpr ⟨rfl, hquote, hmarks, hdigit, hstart⟩
  rw [h] at herror
  cases herror

/-- The scanner takes a lexeme exactly if it is complete behind a gap. -/
theorem Cursor.step_token_iff {s next : Cursor} {t : Token} :
    s.step = .token t next ↔ ∃ gap rest, Gap gap ∧ s.rest = gap ++ (t.lexeme.toList ++ rest) ∧
      Complete rest t.kind t.lexeme.toList ∧ t.position = s.position.advance gap ∧
      next = ⟨t.position.advance t.lexeme.toList, rest⟩ := by
  constructor
  · intro h
    obtain ⟨gap, c, cs, rest, hgap, hrest, hcut, hposition, hnext⟩ := Cursor.step_token h
    obtain ⟨happend, hcomplete⟩ := cut_eq_ok_iff.mp hcut
    exact ⟨gap, rest, hgap, by rw [hrest, happend], hcomplete, hposition, hnext⟩
  · rintro ⟨gap, rest, hgap, hrest, hcomplete, hposition, rfl⟩
    obtain ⟨p, cs⟩ := s
    obtain ⟨c, tail, hlexeme⟩ := List.exists_cons_of_ne_nil
      (List.append_ne_nil_of_left_ne_nil hcomplete.ne_nil rest)
    have hcut := hcomplete.cut_eq hlexeme.symm
    obtain ⟨hspace, hhash⟩ := not_apart_of_cut hcut
    simp only at hrest hposition
    rw [hrest, hlexeme, Cursor.step_of_gap hgap hspace hhash, hcut]
    simp [← hposition]

/-- The scanner stops exactly where what comes after a gap cannot be scanned. -/
theorem Cursor.step_failed_iff {s : Cursor} {e : ScanError} :
    s.step = .failed e ↔ ∃ gap rest fault, Gap gap ∧ s.rest = gap ++ rest ∧ Offends rest fault ∧
      e = fault.toError (s.position.advance gap) := by
  obtain ⟨p, cs⟩ := s
  constructor
  · intro h
    rcases exists_gap cs with hlast | ⟨gap, c, rest, rfl, hgap, hspace, hhash⟩
    · rw [Cursor.step_of_lastGap hlast] at h
      cases h
    · rw [Cursor.step_of_gap hgap hspace hhash] at h
      rcases hcut : cut c rest with fault | token
      · rw [hcut] at h
        cases h
        exact ⟨gap, c :: rest, fault, hgap, rfl, (cut_eq_error_iff hspace hhash).mp hcut, rfl⟩
      · rw [hcut] at h
        cases h
  · rintro ⟨gap, rest, fault, hgap, rfl, hoffends, rfl⟩
    obtain ⟨c, rest, rfl, hspace, hhash⟩ := exists_cons_of_offends hoffends
    rw [Cursor.step_of_gap hgap hspace hhash, (cut_eq_error_iff hspace hhash).mpr hoffends]

/-- A run of the scanner takes complete lexemes, each from the place where its token stands. -/
theorem Scans.complete
    {s last : Cursor} {ts : List Token} (h : Scans s ts last) {before : List Char}
    (hplace : s.position.Follows before) {t : Token} (ht : t ∈ ts) :
    ∃ start rest, before ++ s.rest = start ++ t.lexeme.toList ++ rest ∧
      t.position.Follows start ∧ Complete rest t.kind t.lexeme.toList := by
  induction h generalizing before with
  | rest s => cases ht
  | @take s next last first ts hstep _ ih =>
      obtain ⟨gap, rest, -, hrest, hcomplete, hposition, rfl⟩ := Cursor.step_token_iff.mp hstep
      have hfirst : first.position.Follows (before ++ gap) := hposition ▸ hplace.advance gap
      rcases List.mem_cons.mp ht with rfl | hmore
      · exact ⟨before ++ gap, rest, by simp [hrest], hfirst, hcomplete⟩
      · obtain ⟨start, rest', hwhole, hthere⟩ := ih (hfirst.advance first.lexeme.toList) hmore
        exact ⟨start, rest', by rw [← hwhole, hrest]; simp, hthere⟩

theorem mem_of_mem_items
    {text : String} {t : Token} (h : .ok t ∈ (Stream.ofText text).items.1) :
    ∃ ts last, Scans (Cursor.ofText text) ts last ∧ t ∈ ts := by
  obtain ⟨ts, last, hscans, hend⟩ := (Cursor.ofText text).exists_scans
  refine ⟨ts, last, hscans, ?_⟩
  rw [Stream.ofText, hscans.items] at h
  rcases hend with ⟨stop, hending, -⟩ | ⟨e, hfailed, -⟩
  · rw [Stream.items_ending hending] at h
    simpa using h
  · rw [Stream.items_failed hfailed] at h
    simpa using h

/--
The scanner obeys the lexical grammar.  Every token that it hands out is a complete lexeme of its
kind at the place of the token.  Wherever the scanner has got to in a text, it stops there exactly
if what comes behind a gap begins no lexeme or opens a string that nothing closes, and the error is
the one for what stands there.
-/
theorem scanner_obeys_lexical_grammar (text : String) :
    (∀ t, .ok t ∈ (Stream.ofText text).items.1 → ∃ before rest,
      text.toList = before ++ t.lexeme.toList ++ rest ∧ t.position.Follows before ∧
        Complete rest t.kind t.lexeme.toList) ∧
    ∀ ts s, Scans (Cursor.ofText text) ts s →
      (∃ before, text.toList = before ++ s.rest ∧ s.position.Follows before) ∧
      ∀ e, s.step = .failed e ↔ ∃ gap rest fault, Gap gap ∧ s.rest = gap ++ rest ∧
        Offends rest fault ∧ e = fault.toError (s.position.advance gap) := by
  have hstart : (Cursor.ofText text).position.Follows [] := Position.follows_start
  constructor
  · intro t ht
    obtain ⟨ts, last, hscans, hmem⟩ := mem_of_mem_items ht
    exact hscans.complete hstart hmem
  · intro ts s hscans
    obtain ⟨before, -, hplace, hwhole⟩ := hscans.laid hstart
    exact ⟨⟨before, hwhole, hplace⟩, fun e => Cursor.step_failed_iff⟩

/-- Lexemes of many kinds, some with nothing between them, and a point that belongs to none. -/
def mixed : String :=
  "x1 \x22a\\\\\\\x22b\x22 \x22\x22\x22q\x22r\x22\x22\x2212.5 if;3."

def mixedTokens : List Token :=
  [⟨.name, "x1", ⟨1, 1, 0⟩⟩, ⟨.string, "\x22a\\\\\\\x22b\x22", ⟨1, 4, 3⟩⟩,
    ⟨.rawString, "\x22\x22\x22q\x22r\x22\x22\x22", ⟨1, 13, 12⟩⟩,
    ⟨.number, "12.5", ⟨1, 22, 21⟩⟩, ⟨.keyword .ifWord, "if", ⟨1, 27, 26⟩⟩,
    ⟨.semicolon, ";", ⟨1, 29, 28⟩⟩, ⟨.number, "3", ⟨1, 30, 29⟩⟩]

theorem scans_mixed : Scans (Cursor.ofText mixed) mixedTokens ⟨⟨1, 31, 30⟩, ['.']⟩ :=
  .take rfl (.take rfl (.take rfl (.take rfl (.take rfl (.take rfl (.take rfl (.rest _)))))))

theorem scanner_obeys_lexical_grammar_mixed :
    (Stream.ofText mixed).items.1 =
      mixedTokens.map .ok ++ [.error (.unexpected '.' ⟨1, 31, 30⟩)] ∧
    (∀ t ∈ mixedTokens, ∃ before rest, mixed.toList = before ++ t.lexeme.toList ++ rest ∧
      t.position.Follows before ∧ Complete rest t.kind t.lexeme.toList) ∧
    Scans (Cursor.ofText mixed) mixedTokens ⟨⟨1, 31, 30⟩, ['.']⟩ ∧
    ∃ gap rest fault, Gap gap ∧ ['.'] = gap ++ rest ∧ Offends rest fault ∧
      .unexpected '.' ⟨1, 31, 30⟩ = fault.toError (Position.advance ⟨1, 31, 30⟩ gap) := by
  obtain ⟨hcomplete, hstops⟩ := scanner_obeys_lexical_grammar mixed
  have hitems : (Stream.ofText mixed).items.1 =
      mixedTokens.map .ok ++ [.error (.unexpected '.' ⟨1, 31, 30⟩)] := by cbv
  refine ⟨hitems, ?_, scans_mixed, ((hstops _ _ scans_mixed).2 _).mp rfl⟩
  intro t ht
  apply hcomplete
  rw [hitems]
  exact List.mem_append_left _ (List.mem_map_of_mem ht)

end Token
end CaseSuite
