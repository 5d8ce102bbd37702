import CaseSuite.Proofs.Scanning.Delimiters
import CaseSuite.Proofs.Scanning.Steps
import Mathlib

/-!
# The lexical grammar

Numbers, words, strings and marks are described as texts of a certain form.  A lexeme is complete in
front of a text if it has the form of its kind and the text does not carry it on.  The scanner cuts
a lexeme off exactly if it is complete there, so what a lexeme is depends on the text alone and not
on how the scanner walks over it.
-/

namespace CaseSuite
namespace Token

/-! ## Forms of lexemes -/

/-- One or more digits. -/
def IsDigits (cs : List Char) : Prop :=
  cs ≠ [] ∧ ∀ c ∈ cs, Number.isDigit c = true

/-- Digits, with or without a point and more digits behind them. -/
inductive IsNumber : List Char → Prop
  | whole {digits : List Char} (form : IsDigits digits) : IsNumber digits
  | point {digits fraction : List Char} (form : IsDigits digits) (more : IsDigits fraction) :
      IsNumber (digits ++ '.' :: fraction)

/-- A letter or an underscore, and then letters, digits and underscores. -/
def IsIdentifier : List Char → Prop
  | [] => False
  | c :: cs => isWordStart c = true ∧ ∀ d ∈ cs, isWordChar d = true

/-- The words that cannot be names. -/
def reservedWords : List String :=
  ["Async", "if", "then", "else", "while", "TestCase", "Terminal", "ResultSet", "Config",
    "expect_equal", "expect_not_equal", "expect_str_equal", "expect_str_not_equal",
    "expect_substr", "expect_no_substr", "expect_in", "expect_not_in"]

/-- The punctuation characters and their kinds. -/
def marks : List (Char × Kind) :=
  [('\x7b', .leftBrace), ('\x7d', .rightBrace), (':', .colon), (',', .comma), (';', .semicolon),
    ('=', .equals), ('(', .leftParen), (')', .rightParen)]

/-- A lexeme of a certain kind that the text behind it does not carry on. -/
inductive Complete (rest : List Char) : Kind → List Char → Prop
  | number {lexeme : List Char} (form : IsNumber lexeme)
      (longest : ∀ more, more <+: rest → IsNumber (lexeme ++ more) → more = []) :
      Complete rest .number lexeme
  | name {lexeme : List Char} (form : IsIdentifier lexeme)
      (longest : ∀ c ∈ rest.head?, isWordChar c = false)
      (free : String.ofList lexeme ∉ reservedWords) : Complete rest .name lexeme
  | keyword {lexeme : List Char} {word : Keyword} (form : IsIdentifier lexeme)
      (longest : ∀ c ∈ rest.head?, isWordChar c = false)
      (reserved : String.ofList lexeme ∈ reservedWords)
      (spelled : word.text = String.ofList lexeme) : Complete rest (.keyword word) lexeme
  | rawString {inner : List Char} (body : RawBody inner) :
      Complete rest .rawString (tripleQuote ++ inner ++ tripleQuote)
  | string {inner : List Char} (single : ¬ tripleQuote <+: '\x22' :: inner ++ '\x22' :: rest)
      (body : QuotedBody inner) : Complete rest .string ('\x22' :: inner ++ ['\x22'])
  | mark {c : Char} {kind : Kind} (listed : (c, kind) ∈ marks) : Complete rest kind [c]

/-! ## Numbers -/

/-- A run of one class ends where a character outside of it stands. -/
theorem span_of_run
    {p : Char → Bool} {run rest : List Char} (hrun : ∀ c ∈ run, p c = true)
    (hrest : ∀ c ∈ rest.head?, p c = false) :
    (run ++ rest).takeWhile p = run ∧ (run ++ rest).dropWhile p = rest := by
  rw [List.takeWhile_append_of_pos hrun, List.dropWhile_append_of_pos hrun]
  rcases rest with _ | ⟨c, rest⟩
  · simp
  · have hc := hrest c rfl
    simp [hc]

/-- After digits a number can only go on with a point and more digits. -/
theorem IsNumber.after_digits
    {digits more : List Char} {c : Char} (hdigits : ∀ d ∈ digits, Number.isDigit d = true)
    (hc : Number.isDigit c = false) (h : IsNumber (digits ++ c :: more)) :
    c = '.' ∧ IsDigits more := by
  generalize hcs : digits ++ c :: more = cs at h
  rcases h with form | ⟨form, fraction⟩
  · subst hcs
    have hdigit := form.2 c (by simp)
    rw [hc] at hdigit
    cases hdigit
  · rename_i digits' fraction'
    have hstop : ∀ d ∈ (c :: more).head?, Number.isDigit d = false := by simpa using hc
    have hpoint : ∀ d ∈ ('.' :: fraction').head?, Number.isDigit d = false := by
      rintro d ⟨⟩
      decide
    have hmore := (span_of_run hdigits hstop).2
    rw [hcs, (span_of_run form.2 hpoint).2] at hmore
    obtain ⟨rfl, rfl⟩ := List.cons.inj hmore
    exact ⟨rfl, fraction⟩

/-- A number is made of digits and points. -/
theorem IsNumber.chars
    {cs : List Char} (h : IsNumber cs) : ∀ c ∈ cs, Number.isDigit c = true ∨ c = '.' := by
  intro c hc
  rcases h with form | ⟨form, fraction⟩
  · exact Or.inl (form.2 c hc)
  · rcases List.mem_append.mp hc with hfront | hback
    · exact Or.inl (form.2 c hfront)
    · rcases List.mem_cons.mp hback with rfl | hmore
      · exact Or.inr rfl
      · exact Or.inl (fraction.2 c hmore)

theorem IsNumber.exists_digit
    {cs : List Char} (h : IsNumber cs) : ∃ c tail, cs = c :: tail ∧ Number.isDigit c = true := by
  rcases h with form | ⟨form, _⟩
  · obtain ⟨c, tail, rfl⟩ := List.exists_cons_of_ne_nil form.1
    exact ⟨c, tail, rfl, form.2 c (by simp)⟩
  · obtain ⟨c, tail, rfl⟩ := List.exists_cons_of_ne_nil form.1
    exact ⟨c, _, rfl, form.2 c (by simp)⟩

/-- Digits are a longest number where neither a digit nor a point with a digit follows. -/
theorem longest_whole
    {digits rest : List Char} (hdigits : ∀ c ∈ digits, Number.isDigit c = true)
    (hstop : ∀ c ∈ rest.head?, Number.isDigit c = false)
    (hpoint : ∀ d tail, rest = '.' :: d :: tail → Number.isDigit d = false) :
    ∀ more, more <+: rest → IsNumber (digits ++ more) → more = [] := by
  intro more hmore hnumber
  by_contra hne
  obtain ⟨c, more, rfl⟩ := List.exists_cons_of_ne_nil hne
  obtain ⟨tail, rfl⟩ := hmore
  obtain ⟨rfl, hsome, hall⟩ := hnumber.after_digits hdigits (hstop c rfl)
  obtain ⟨d, more, rfl⟩ := List.exists_cons_of_ne_nil hsome
  have hdigit := hall d (by simp)
  rw [hpoint d (more ++ tail) rfl] at hdigit
  cases hdigit

/-- Digits, a point and digits are a longest number where no digit follows. -/
theorem longest_point
    {digits fraction rest : List Char} (hdigits : ∀ c ∈ digits, Number.isDigit c = true)
    (hstop : ∀ c ∈ rest.head?, Number.isDigit c = false) :
    ∀ more, more <+: rest → IsNumber (digits ++ '.' :: fraction ++ more) → more = [] := by
  intro more hmore hnumber
  by_contra hne
  obtain ⟨c, more, rfl⟩ := List.exists_cons_of_ne_nil hne
  obtain ⟨tail, rfl⟩ := hmore
  rw [List.append_assoc, List.cons_append] at hnumber
  obtain ⟨-, -, hall⟩ := hnumber.after_digits hdigits (by decide)
  have hdigit := hall c (by simp)
  rw [hstop c rfl] at hdigit
  cases hdigit

theorem head?_dropWhile_isDigit (cs : List Char) :
    ∀ c ∈ (cs.dropWhile Number.isDigit).head?, Number.isDigit c = false := by
  intro c hc
  have hnot := List.head?_dropWhile_not Number.isDigit cs
  rw [Option.mem_def.mp hc] at hnot
  simpa using hnot

/-- What the scanner splits off where a digit stands is a longest number. -/
theorem longest_of_splitNumber
    {c : Char} {cs lexeme rest : List Char} (hc : Number.isDigit c = true)
    (hsplit : splitNumber (c :: cs) = (lexeme, rest)) :
    IsNumber lexeme ∧ ∀ more, more <+: rest → IsNumber (lexeme ++ more) → more = [] := by
  have hdigits : IsDigits ((c :: cs).takeWhile Number.isDigit) := by
    refine ⟨by simp [hc], fun d hd => List.mem_takeWhile_imp hd⟩
  have hstop := head?_dropWhile_isDigit (c :: cs)
  unfold splitNumber at hsplit
  split at hsplit
  · rename_i d tail heq
    rw [heq] at hstop
    split at hsplit
    · rename_i hdigit
      obtain ⟨rfl, rfl⟩ := Prod.mk.inj hsplit
      have hfraction : IsDigits ((d :: tail).takeWhile Number.isDigit) :=
        ⟨by simp [hdigit], fun e he => List.mem_takeWhile_imp he⟩
      exact ⟨IsNumber.point hdigits hfraction,
        longest_point hdigits.2 (head?_dropWhile_isDigit (d :: tail))⟩
    · rename_i hdigit
      obtain ⟨rfl, rfl⟩ := Prod.mk.inj hsplit
      refine ⟨IsNumber.whole hdigits, longest_whole hdigits.2 hstop ?_⟩
      rintro e tail' ⟨⟩
      simpa using hdigit
  · rename_i hpoint
    obtain ⟨rfl, rfl⟩ := Prod.mk.inj hsplit
    exact ⟨IsNumber.whole hdigits,
      longest_whole hdigits.2 hstop fun d tail heq => absurd heq (hpoint d tail)⟩

/-- A longest number is what the scanner splits off: of two of them in one text neither goes on
beyond the other. -/
theorem splitNumber_of_longest
    {lexeme rest : List Char} (form : IsNumber lexeme)
    (longest : ∀ more, more <+: rest → IsNumber (lexeme ++ more) → more = []) :
    splitNumber (lexeme ++ rest) = (lexeme, rest) := by
  obtain ⟨c, tail, rfl, hc⟩ := form.exists_digit
  rcases hsplit : splitNumber (c :: tail ++ rest) with ⟨lexeme', rest'⟩
  obtain ⟨form', longest'⟩ := longest_of_splitNumber hc hsplit
  have happend := splitNumber_append (c :: tail ++ rest)
  rw [hsplit] at happend
  rcases List.append_eq_append_iff.mp happend with ⟨more, heq, rfl⟩ | ⟨more, rfl, rfl⟩
  · have hnil := longest' more (List.prefix_append _ _) (heq ▸ form)
    subst hnil
    simp [heq]
  · have hnil := longest more (List.prefix_append _ _) form'
    subst hnil
    simp

/-! ## Words and marks -/

theorem ofText?_text (word : Keyword) : Keyword.ofText? word.text = some word := by
  cases word with
  | check relation => cases relation <;> rfl
  | _ => rfl

theorem mem_reservedWords_iff {word : String} :
    word ∈ reservedWords ↔ ∃ k : Keyword, k.text = word := by
  have hall : ∀ k : Keyword, k.text ∈ reservedWords := by
    intro k
    cases k with
    | check relation => cases relation <;> decide
    | _ => decide
  constructor
  · intro h
    have hwords : reservedWords = Keyword.all.map Keyword.text := rfl
    rw [hwords] at h
    obtain ⟨k, -, hk⟩ := List.mem_map.mp h
    exact ⟨k, hk⟩
  · rintro ⟨k, rfl⟩
    exact hall k

theorem isDigit_of_isWordStart {c : Char} (h : isWordStart c = true) :
    Number.isDigit c = false := by
  by_contra hdigit
  simp only [isWordStart, Number.isDigit, Bool.or_eq_true, Bool.and_eq_true, decide_eq_true_eq,
    Bool.not_eq_false] at h hdigit
  rcases h with (⟨hlow, -⟩ | ⟨hlow, -⟩) | rfl
  · exact absurd (hlow.trans hdigit.2) (by decide)
  · exact absurd (hlow.trans hdigit.2) (by decide)
  · exact absurd hdigit.2 (by decide)

theorem wordKind_text (word : Keyword) : wordKind word.text = .keyword word := by
  rw [wordKind, ofText?_text]

theorem wordKind_of_free {word : String} (h : word ∉ reservedWords) : wordKind word = .name := by
  unfold wordKind
  split
  · rename_i k hk
    exact absurd (mem_reservedWords_iff.mpr ⟨k, by simpa using List.find?_some hk⟩) h
  · rfl

/-- The kind of a word in front of a text that does not carry it on. -/
theorem complete_word
    {lexeme rest : List Char} (form : IsIdentifier lexeme)
    (longest : ∀ c ∈ rest.head?, isWordChar c = false) :
    Complete rest (wordKind (String.ofList lexeme)) lexeme := by
  by_cases hreserved : String.ofList lexeme ∈ reservedWords
  · obtain ⟨word, hspelled⟩ := mem_reservedWords_iff.mp hreserved
    rw [← hspelled, wordKind_text]
    exact Complete.keyword form longest hreserved hspelled
  · rw [wordKind_of_free hreserved]
    exact Complete.name form longest hreserved

theorem punctuation?_eq_some_iff {c : Char} {kind : Kind} :
    punctuation? c = some kind ↔ (c, kind) ∈ marks := by
  constructor
  · intro h
    unfold punctuation? at h
    split_ifs at h <;> cases h <;> simp [marks, *]
  · have hall : ∀ m ∈ marks, punctuation? m.1 = some m.2 := by decide
    exact hall (c, kind)

/-- A mark begins neither a string nor a number nor a word. -/
theorem alone_of_mem_marks {c : Char} {kind : Kind} (h : (c, kind) ∈ marks) :
    c ≠ '\x22' ∧ Number.isDigit c = false ∧ isWordStart c = false := by
  have hall : ∀ m ∈ marks, m.1 ≠ '\x22' ∧ Number.isDigit m.1 = false ∧ isWordStart m.1 = false := by
    decide
  exact hall (c, kind) h

/-! ## Cutting off a lexeme -/

theorem tripleQuote_prefix_iff {cs : List Char} :
    tripleQuote <+: '\x22' :: cs ↔ ∃ tail, cs = '\x22' :: '\x22' :: tail := by
  constructor
  · rintro ⟨tail, htail⟩
    exact ⟨tail, (List.cons.inj htail).2.symm⟩
  · rintro ⟨tail, rfl⟩
    exact ⟨tail, rfl⟩

/-- The quotes around a body are no triple quote, unless there is nothing between them and a third
quote follows. -/
theorem tripleQuote_prefix_quoted_iff
    {inner : List Char} (h : QuotedBody inner) (rest : List Char) :
    tripleQuote <+: '\x22' :: inner ++ '\x22' :: rest ↔ inner = [] ∧ '\x22' ∈ rest.head? := by
  rw [List.cons_append, tripleQuote_prefix_iff]
  constructor
  · rintro ⟨tail, htail⟩
    rcases inner with _ | ⟨c, inner⟩
    · exact ⟨rfl, by rw [(List.cons.inj htail).2]; rfl⟩
    · obtain ⟨rfl, -⟩ := List.cons.inj htail
      exact absurd h.unclosed (not_unclosed_quote inner)
  · rintro ⟨rfl, hquote⟩
    obtain ⟨tail, rfl⟩ := List.head?_eq_some_iff.mp hquote
    exact ⟨tail, rfl⟩

/-- One quote alone begins a quoted string. -/
theorem cutString_of_single {cs : List Char} (h : ¬ tripleQuote <+: '\x22' :: cs) :
    cutString cs =
      match splitQuoted cs with
      | some (body, rest) => .ok ⟨.string, '\x22' :: body, rest⟩
      | none => .error .unterminated :=
  cutString.eq_2 cs fun tail htail => h (tripleQuote_prefix_iff.mpr ⟨tail, htail⟩)

theorem complete_of_cutString
    {cs : List Char} {token : Cut} (h : cutString cs = .ok token) :
    Complete token.rest token.kind token.lexeme := by
  by_cases htriple : tripleQuote <+: '\x22' :: cs
  · obtain ⟨tail, rfl⟩ := tripleQuote_prefix_iff.mp htriple
    rw [cutString] at h
    split at h
    · rename_i body rest hraw
      cases h
      obtain ⟨inner, rfl, -, hinner⟩ := splitRaw_eq_some_iff.mp hraw
      exact Complete.rawString hinner
    · cases h
  · rw [cutString_of_single htriple] at h
    split at h
    · rename_i body rest hquoted
      cases h
      obtain ⟨inner, rfl, rfl, hinner⟩ := splitQuoted_eq_some_iff.mp hquoted
      exact Complete.string htriple hinner
    · cases h

/-- Whatever the scanner cuts off is complete. -/
theorem complete_of_cut
    {c : Char} {cs : List Char} {token : Cut} (h : cut c cs = .ok token) :
    Complete token.rest token.kind token.lexeme := by
  unfold cut at h
  split_ifs at h with hquote hdigit hstart
  · exact complete_of_cutString h
  · cases h
    obtain ⟨form, longest⟩ := longest_of_splitNumber hdigit rfl
    exact Complete.number form longest
  · cases h
    refine complete_word ⟨hstart, fun d hd => List.mem_takeWhile_imp hd⟩ ?_
    intro d hd
    have hnot := List.head?_dropWhile_not isWordChar cs
    rw [Option.mem_def.mp hd] at hnot
    simpa using hnot
  · split at h
    · rename_i kind hkind
      cases h
      exact Complete.mark (punctuation?_eq_some_iff.mp hkind)
    · cases h

theorem cut_word
    {lexeme rest : List Char} (form : IsIdentifier lexeme)
    (longest : ∀ d ∈ rest.head?, isWordChar d = false) {c : Char} {cs : List Char}
    (heq : c :: cs = lexeme ++ rest) :
    cut c cs = .ok ⟨wordKind (String.ofList lexeme), lexeme, rest⟩ := by
  rcases lexeme with _ | ⟨d, tail⟩
  · exact form.elim
  · obtain ⟨rfl, rfl⟩ := List.cons.inj heq
    obtain ⟨hstart, htail⟩ := form
    have hquote : c ≠ '\x22' := by
      rintro rfl
      exact absurd hstart (by decide)
    have hdigit : ¬ Number.isDigit c = true := by simp [isDigit_of_isWordStart hstart]
    obtain ⟨htake, hdrop⟩ := span_of_run htail longest
    rw [cut, if_neg hquote, if_neg hdigit, if_pos hstart]
    simp only [List.append_eq, htake, hdrop]

theorem cut_number
    {lexeme rest : List Char} (form : IsNumber lexeme)
    (longest : ∀ more, more <+: rest → IsNumber (lexeme ++ more) → more = []) {c : Char}
    {cs : List Char} (heq : c :: cs = lexeme ++ rest) : cut c cs = .ok ⟨.number, lexeme, rest⟩ := by
  obtain ⟨d, tail, rfl, hd⟩ := form.exists_digit
  obtain ⟨rfl, rfl⟩ := List.cons.inj heq
  have hquote : c ≠ '\x22' := by
    rintro rfl
    exact absurd hd (by decide)
  have hsplit := splitNumber_of_longest form longest
  rw [List.cons_append] at hsplit
  rw [cut, if_neg hquote, if_pos hd]
  simp only [List.append_eq, hsplit]

/-- Whatever is complete is cut off. -/
theorem Complete.cut_eq
    {rest lexeme : List Char} {kind : Kind} (h : Complete rest kind lexeme) {c : Char}
    {cs : List Char} (heq : c :: cs = lexeme ++ rest) : cut c cs = .ok ⟨kind, lexeme, rest⟩ := by
  cases h with
  | number form longest => exact cut_number form longest heq
  | name form longest free => rw [cut_word form longest heq, wordKind_of_free free]
  | keyword form longest reserved spelled =>
      rw [cut_word form longest heq, ← spelled, wordKind_text]
  | @rawString inner body =>
      obtain ⟨rfl, hcs⟩ := List.cons.inj heq
      have hsplit : splitRaw (inner ++ tripleQuote ++ rest) = some (inner ++ tripleQuote, rest) :=
        splitRaw_eq_some_iff.mpr ⟨inner, rfl, rfl, body⟩
      have hcut : cs = '\x22' :: '\x22' :: (inner ++ tripleQuote ++ rest) := hcs
      rw [cut, if_pos rfl, hcut, cutString, hsplit]
      rfl
  | @string inner single body =>
      obtain ⟨rfl, hcs⟩ := List.cons.inj heq
      have hcut : cs = inner ++ '\x22' :: rest := by simpa using hcs
      have hsplit : splitQuoted cs = some (inner ++ ['\x22'], rest) :=
        splitQuoted_eq_some_iff.mpr ⟨inner, rfl, hcut, body⟩
      rw [List.cons_append, ← hcut] at single
      rw [cut, if_pos rfl, cutString_of_single single, hsplit]
      rfl
  | mark listed =>
      obtain ⟨rfl, rfl⟩ := List.cons.inj heq
      obtain ⟨hquote, hdigit, hstart⟩ := alone_of_mem_marks listed
      simp [cut, hquote, hdigit, hstart, punctuation?_eq_some_iff.mpr listed]

theorem Complete.ne_nil
    {rest lexeme : List Char} {kind : Kind} (h : Complete rest kind lexeme) : lexeme ≠ [] := by
  cases h with
  | number form longest =>
      obtain ⟨c, tail, rfl, -⟩ := form.exists_digit
      simp
  | name form longest free =>
      rintro rfl
      exact form
  | keyword form longest reserved spelled =>
      rintro rfl
      exact form
  | rawString body => simp [tripleQuote]
  | string single body => simp
  | mark listed => simp

theorem cut_eq_ok_iff {c : Char} {cs : List Char} {token : Cut} :
    cut c cs = .ok token ↔
      c :: cs = token.lexeme ++ token.rest ∧ Complete token.rest token.kind token.lexeme :=
  ⟨fun h => ⟨(cut_append h).symm, complete_of_cut h⟩, fun ⟨heq, h⟩ => h.cut_eq heq⟩

/-! ## What carries no lexeme on -/

/-- No lexeme is carried on by this text: it is empty or begins with a blank or a comment. -/
def Apart (cs : List Char) : Prop :=
  ∀ c ∈ cs.head?, isSpace c = true ∨ c = '#'

theorem isWordChar_of_apart
    {c : Char} (h : isSpace c = true ∨ c = '#') :
    isWordChar c = false ∧ Number.isDigit c = false ∧ c ≠ '.' ∧ c ≠ '\x22' := by
  rcases h with hspace | rfl
  · have hmem := isSpace_iff.mp hspace
    simp only [List.mem_cons, List.not_mem_nil, or_false] at hmem
    rcases hmem with rfl | rfl | rfl | rfl <;> decide
  · decide

/-- Where a text comes to an end, or a blank or a comment is put in, no lexeme before that place is
carried on that was not carried on before. -/
theorem Complete.of_apart
    {rest common tail lexeme : List Char} {kind : Kind} (h : Complete rest kind lexeme)
    (hcommon : common <+: rest) (htail : Apart tail) : Complete (common ++ tail) kind lexeme := by
  -- the character behind the lexeme is the same as before or carries nothing on
  have hhead : ∀ c ∈ (common ++ tail).head?, c ∈ rest.head? ∨ isSpace c = true ∨ c = '#' := by
    intro c hc
    rcases common with _ | ⟨d, common⟩
    · exact Or.inr (htail c hc)
    · obtain ⟨after, rfl⟩ := hcommon
      exact Or.inl hc
  have hword : (∀ c ∈ rest.head?, isWordChar c = false) →
      ∀ c ∈ (common ++ tail).head?, isWordChar c = false := by
    intro hrest c hc
    rcases hhead c hc with hsame | hapart
    · exact hrest c hsame
    · exact (isWordChar_of_apart hapart).1
  cases h with
  | number form longest =>
      refine Complete.number form ?_
      intro more hmore hnumber
      rcases List.prefix_or_prefix_of_prefix hmore (List.prefix_append common tail) with
        hwithin | ⟨beyond, rfl⟩
      · exact longest more (hwithin.trans hcommon) hnumber
      · rcases beyond with _ | ⟨c, beyond⟩
        · rw [List.append_nil] at hnumber ⊢
          exact longest common hcommon hnumber
        · obtain ⟨after, rfl⟩ := (List.prefix_append_right_inj common).mp hmore
          obtain ⟨-, hdigit, hpoint, -⟩ := isWordChar_of_apart (htail c rfl)
          rcases hnumber.chars c (by simp) with hc | hc
          · simp [hdigit] at hc
          · exact absurd hc hpoint
  | name form longest free => exact Complete.name form (hword longest) free
  | keyword form longest reserved spelled =>
      exact Complete.keyword form (hword longest) reserved spelled
  | rawString body => exact Complete.rawString body
  | string single body =>
      refine Complete.string ?_ body
      rw [tripleQuote_prefix_quoted_iff body] at single ⊢
      rintro ⟨hnil, hquote⟩
      rcases hhead _ hquote with hsame | hapart
      · exact single ⟨hnil, hsame⟩
      · exact absurd rfl (isWordChar_of_apart hapart).2.2.2
  | mark listed => exact Complete.mark listed

end Token
end CaseSuite
