import CaseSuite.Proofs.Grammar.Refusals
import CaseSuite.Proofs.Scanning.Layout
import CaseSuite.Proofs.Scanning.Lexemes
import Mathlib

/-!
# The first offending token

A text that can be scanned but not parsed is refused at the first token that no sentence could have
there.  Three facts make this up: the tokens of a scanned text are whole and none of them is an end
mark, the parser stops honestly, and it would stop at the refused token whatever came after it.
-/

namespace CaseSuite

namespace Token

/-! ## Scanned tokens are whole -/

theorem value?_raw
    {t : Token} {inner : List Char} (hkind : t.kind = .rawString)
    (hlexeme : t.lexeme.toList = tripleQuote ++ inner ++ tripleQuote) :
    t.value? = some (String.ofList inner) := by
  have hslice := Text.byteSlice?_between tripleQuote inner tripleQuote
  have hquotes : Text.byteLength tripleQuote = 3 := by decide
  rw [hquotes, ← hlexeme] at hslice
  simp only [value?, hkind, hslice]
  rfl

theorem value?_string
    {t : Token} {inner : List Char} (hkind : t.kind = .string)
    (hlexeme : t.lexeme.toList = '\x22' :: inner ++ ['\x22']) :
    t.value? = some (String.ofList (unescape inner)) := by
  have hslice := Text.byteSlice?_between ['\x22'] inner ['\x22']
  have hquote : Text.byteLength ['\x22'] = 1 := by decide
  rw [hquote, List.singleton_append, ← hlexeme] at hslice
  simp only [value?, hkind, hslice]
  rfl

/-- A token with its quotes, if it is a string, and no end mark. -/
structure Whole (t : Token) : Prop where
  kind : t.kind ≠ .ending
  value : t.kind.isString → t.value?.isSome

theorem whole_of_not_string
    {t : Token} (hend : t.kind ≠ .ending) (hstring : t.kind.isString = false) : t.Whole := by
  refine ⟨hend, ?_⟩
  rw [hstring]
  intro h
  cases h

theorem kind_of_mem_marks
    {c : Char} {kind : Kind} (h : (c, kind) ∈ marks) : kind ≠ .ending ∧ kind.isString = false := by
  have hall : ∀ m ∈ marks, m.2 ≠ .ending ∧ m.2.isString = false := by decide
  exact hall (c, kind) h

theorem whole_of_complete
    {t : Token} {rest : List Char} (h : Complete rest t.kind t.lexeme.toList) : t.Whole := by
  generalize hkind : t.kind = kind at h
  generalize hlexeme : t.lexeme.toList = lexeme at h
  cases h with
  | number => exact whole_of_not_string (by simp [hkind]) (by rw [hkind]; rfl)
  | name => exact whole_of_not_string (by simp [hkind]) (by rw [hkind]; rfl)
  | keyword => exact whole_of_not_string (by simp [hkind]) (by rw [hkind]; rfl)
  | rawString body => exact ⟨by simp [hkind], fun _ => by rw [value?_raw hkind hlexeme]; rfl⟩
  | string single body => exact ⟨by simp [hkind], fun _ => by rw [value?_string hkind hlexeme]; rfl⟩
  | mark listed =>
      obtain ⟨hend, hstring⟩ := kind_of_mem_marks listed
      exact whole_of_not_string (hkind ▸ hend) (hkind ▸ hstring)

theorem Scans.whole
    {s last : Cursor} {ts : List Token} (h : Scans s ts last) {t : Token} (ht : t ∈ ts) :
    t.Whole := by
  induction h with
  | rest => cases ht
  | take hstep _ ih =>
      rcases List.mem_cons.mp ht with rfl | hmore
      · obtain ⟨_, _, _, _, _, _, hcut, _, _⟩ := Cursor.step_token hstep
        exact whole_of_complete (complete_of_cut hcut)
      · exact ih hmore

/-- A scanned text is whole tokens in ascending order and the end mark. -/
theorem tokens_of_scan
    {text : String} {ts : List Token} (h : scan text = .ok ts) :
    ∃ tokens stop, ts = tokens ++ [ending stop] ∧ (∀ t ∈ tokens, t.Whole) ∧
      tokens.Pairwise fun t u => t.position.offset < u.position.offset := by
  obtain ⟨tokens, last, stop, hscans, -, rfl⟩ := exists_scans_of_scan h
  have hstart : (Cursor.ofText text).position.Follows [] := Position.follows_start
  obtain ⟨after, hlaid, -, -⟩ := hscans.laid hstart
  refine ⟨tokens, stop, rfl, fun t ht => hscans.whole ht, ?_⟩
  exact hlaid.ordered.imp And.left

end Token

namespace Grammar

open Parse (Refusal)

/-! ## The refused token -/

/-- The sentences of the grammar, without an end mark. -/
def sentences : Language Token := language File

/-- Where a stream of tokens is refused.  A refused token is the first one that no sentence could
have there; a stream that has ended begins a sentence but is none. -/
def FirstOffence (ts : List Token) : ParseError → Prop
  | .unexpected found expected => ∃ before after, ts = before ++ found :: after ∧
      found.kind ≠ .ending ∧ (∀ t ∈ before, t.position.offset < found.position.offset) ∧
      Honest sentences before expected ∧ ¬ Viable sentences (before ++ [found])
  | .ended position expected => ∃ tokens, ts = tokens ++ [.ending position] ∧
      Honest sentences tokens expected ∧ tokens ∉ sentences ∧
      ∃ s ∈ sentences, tokens <+: s ∧ tokens ≠ s

/-- No sentence begins with tokens at which the parser stops. -/
theorem not_viable_of_stops
    {before : List Token} {found : Token} {r : Refusal}
    (h : ∀ after, after.head? = some found → Parse.file (before ++ after) = .error r) :
    ¬ Viable sentences (before ++ [found]) := by
  rintro ⟨s, ⟨file, hfile⟩, rest, rfl⟩
  have hok := file_of_sentence hfile
  rw [List.append_assoc, h ([found] ++ rest) rfl] at hok
  cases hok

theorem endOf_append_ending
    {tokens : List Token} (h : Unended tokens) (stop : Position) :
    CaseFile.endOf (tokens ++ [.ending stop]) = stop := by
  have hnone : tokens.find? (·.kind == .ending) = none := by
    simpa [Unended] using h
  simp [CaseFile.endOf, List.find?_append, hnone, Token.ending]

theorem refusal_of_parse
    {ts : List Token} {e : ParseError} (h : CaseFile.parse ts = .error e) :
    ∃ r : Refusal, Parse.file (CaseFile.body ts) = .error r ∧
      ((∃ found, r.found = some found ∧ e = .unexpected found r.expected) ∨
        r.found = none ∧ e = .ended (CaseFile.endOf ts) r.expected) := by
  unfold CaseFile.parse at h
  split at h
  · cases h
  · rename_i found expected hfile
    cases h
    exact ⟨_, hfile, Or.inl ⟨found, rfl, rfl⟩⟩
  · rename_i expected hfile
    cases h
    exact ⟨_, hfile, Or.inr ⟨rfl, rfl⟩⟩

/-- A text that can be scanned but is no case file is refused at the first offending token, and with
an honest message. -/
theorem parse_refuses_first_offence
    {text : String} {ts : List Token} {e : ParseError} (hscan : Token.scan text = .ok ts)
    (hparse : CaseFile.parse ts = .error e) : FirstOffence ts e := by
  obtain ⟨tokens, stop, rfl, hwhole, hordered⟩ := Token.tokens_of_scan hscan
  have hunended : Unended tokens := fun t ht => (hwhole t ht).kind
  have hdelimited : Delimited tokens := fun t ht => (hwhole t ht).value
  obtain ⟨r, hfile, hrefusal⟩ := refusal_of_parse hparse
  rw [body_append_ending hunended] at hfile
  obtain ⟨before, after, rfl, hfound, honest, hlocal⟩ := file_stops hdelimited hfile
  rcases hrefusal with ⟨found, hsome, rfl⟩ | ⟨hnone, rfl⟩
  · rw [hsome] at hfound
    obtain ⟨after, rfl⟩ := List.head?_eq_some_iff.mp hfound.symm
    refine ⟨before, after ++ [.ending stop], by simp, (hwhole found (by simp)).kind, ?_, honest, ?_⟩
    · intro t ht
      exact (List.pairwise_append.mp hordered).2.2 t ht found (by simp)
    · exact not_viable_of_stops hlocal
  · rw [hnone] at hfound
    obtain rfl : after = [] := List.head?_eq_none_iff.mp hfound.symm
    rw [List.append_nil] at hfile hunended ⊢
    have hno : before ∉ sentences := by
      rintro ⟨file, hsentence⟩
      rw [file_of_sentence hsentence] at hfile
      cases hfile
    obtain ⟨s, hs, hprefix⟩ := honest.viable
    refine ⟨before, by rw [endOf_append_ending hunended], honest, hno, s, hs, hprefix, ?_⟩
    rintro rfl
    exact hno hs

/-- A request without its semicolon. -/
def unstopped : String :=
  "Config \x7b\x22c\x22\x7d\nTestCase t \x7b a: \x22q\x22 \x7d"

/-- The brace that stands in the semicolon's place. -/
def misplaced : Token :=
  ⟨.rightBrace, "\x7d", ⟨2, 21, 33⟩⟩

def unstoppedHead : List Token :=
  [⟨.keyword .config, "Config", ⟨1, 1, 0⟩⟩, ⟨.leftBrace, "\x7b", ⟨1, 8, 7⟩⟩,
    ⟨.string, "\x22c\x22", ⟨1, 9, 8⟩⟩, ⟨.rightBrace, "\x7d", ⟨1, 12, 11⟩⟩,
    ⟨.keyword .testCase, "TestCase", ⟨2, 1, 13⟩⟩, ⟨.name, "t", ⟨2, 10, 22⟩⟩,
    ⟨.leftBrace, "\x7b", ⟨2, 12, 24⟩⟩]

def unstoppedRequest : List Token :=
  [⟨.name, "a", ⟨2, 14, 26⟩⟩, ⟨.colon, ":", ⟨2, 15, 27⟩⟩, ⟨.string, "\x22q\x22", ⟨2, 17, 29⟩⟩]

def unstoppedTokens : List Token :=
  unstoppedHead ++ unstoppedRequest ++ [misplaced, .ending ⟨2, 22, 34⟩]

theorem parse_unstopped :
    CaseFile.parse unstoppedTokens = .error (.unexpected misplaced (.token .semicolon)) := by
  have hstatement : Parse.statement (unstoppedRequest ++ [misplaced]) =
      .error ⟨some misplaced, .token .semicolon⟩ := by
    cbv
  have hcase : Parse.testCase (unstoppedHead.drop 4 ++ (unstoppedRequest ++ [misplaced])) =
      .error ⟨some misplaced, .token .semicolon⟩ := by
    simp [Parse.testCase, unstoppedHead, statements_of_error hstatement]
    rfl
  have hbody : CaseFile.body unstoppedTokens =
      unstoppedHead ++ (unstoppedRequest ++ [misplaced]) := by
    cbv
  have hfile : Parse.file (CaseFile.body unstoppedTokens) =
      .error ⟨some misplaced, .token .semicolon⟩ := by
    have hconfig : Parse.config (unstoppedHead ++ (unstoppedRequest ++ [misplaced])) =
        .ok ("c", unstoppedHead.drop 4 ++ (unstoppedRequest ++ [misplaced])) := by
      cbv
    simp only [Parse.file, hbody, hconfig, ok_bind, cases_of_error hcase]
    rfl
  rw [CaseFile.parse, hfile]

theorem parse_refuses_first_offence_unstopped :
    FirstOffence unstoppedTokens (.unexpected misplaced (.token .semicolon)) ∧
      FirstOffence [⟨.keyword .config, "Config", ⟨1, 1, 0⟩⟩, .ending ⟨1, 7, 6⟩]
        (.ended ⟨1, 7, 6⟩ (.token .leftBrace)) := by
  have hscan : Token.scan unstopped = .ok unstoppedTokens := by cbv
  have hscan' : Token.scan "Config" =
      .ok [⟨.keyword .config, "Config", ⟨1, 1, 0⟩⟩, .ending ⟨1, 7, 6⟩] := by
    cbv
  have hparse' : CaseFile.parse
      [⟨.keyword .config, "Config", ⟨1, 1, 0⟩⟩, .ending ⟨1, 7, 6⟩] =
      .error (.ended ⟨1, 7, 6⟩ (.token .leftBrace)) := by
    cbv
  exact ⟨parse_refuses_first_offence hscan parse_unstopped,
    parse_refuses_first_offence hscan' hparse'⟩

end Grammar
end CaseSuite
