import CaseSuite.Proofs.Grammar.Offence
import CaseSuite.Proofs.Grammar.Printing
import CaseSuite.Proofs.Scanning.Respacing
import Mathlib

/-!
# Writing strings

A text on one line can be written between quotes if its quotes and backslashes are protected.  A
text can be written between triple quotes as it is, over many lines too, unless it would close them
early.  Scanning gives back what was written, and every string token of a scanned text has a value.
-/

namespace CaseSuite
namespace Token

/-- A text between quotes, with its quotes and backslashes protected. -/
def inQuotes (text : String) : String :=
  String.ofList ('\x22' :: escape text.toList ++ ['\x22'])

/-- A text as it is between triple quotes. -/
def inTripleQuotes (text : String) : String :=
  String.ofList (tripleQuote ++ text.toList ++ tripleQuote)

/-- The source is one token of a certain kind that has a certain text as its value. -/
def Spells (source : String) (kind : Kind) (text : String) : Prop :=
  ∃ t stop, scan source = .ok [t, ending stop] ∧ t.kind = kind ∧ t.value? = some text

/-- A protected text closes no string. -/
theorem quotedBody_escape {cs : List Char} (h : '\n' ∉ cs) : QuotedBody (escape cs) := by
  induction cs with
  | nil => exact QuotedBody.nil
  | cons c cs ih =>
      obtain ⟨hline, hcs⟩ := List.ne_and_not_mem_of_not_mem_cons h
      by_cases hc : c = '\x22' ∨ c = '\\'
      · rw [escape, if_pos hc]
        exact ((QuotedBody.pair hline.symm).append_iff _).mpr (ih hcs)
      · rw [escape, if_neg hc]
        rw [not_or] at hc
        exact ((QuotedBody.single hc.1 hc.2 hline.symm).append_iff _).mpr (ih hcs)

/-- A lexeme that makes up a whole text is its only token. -/
theorem scan_of_complete {kind : Kind} {lexeme : List Char} (h : Complete [] kind lexeme) :
    scan (String.ofList lexeme) = .ok [⟨kind, String.ofList lexeme, .start⟩,
      ending (Position.start.advance lexeme)] := by
  have hstep : (Cursor.ofText (String.ofList lexeme)).step =
      .token ⟨kind, String.ofList lexeme, .start⟩ ⟨Position.start.advance lexeme, []⟩ := by
    refine Cursor.step_token_iff.mpr ⟨[], [], Gap.nil, ?_, ?_, rfl, ?_⟩
    · simp [Cursor.ofText]
    · simpa using h
    · simp
  have hend := Cursor.tokens_of_lastGap (LastGap.gap Gap.nil) (Position.start.advance lexeme)
  exact Cursor.tokens_of_token hstep hend

theorem spells_inQuotes {text : String} (h : '\n' ∉ text.toList) :
    Spells (inQuotes text) .string text := by
  have hbody := quotedBody_escape h
  have hsingle : ¬ tripleQuote <+: '\x22' :: escape text.toList ++ ['\x22'] := by
    rw [tripleQuote_prefix_quoted_iff hbody]
    simp
  have hvalue : (Token.mk .string (inQuotes text) .start).value? =
      some (String.ofList (unescape (escape text.toList))) :=
    value?_string rfl String.toList_ofList
  rw [unescape_escape, String.ofList_toList] at hvalue
  exact ⟨_, _, scan_of_complete (Complete.string hsingle hbody), rfl, hvalue⟩

/-- Between triple quotes a text is read back exactly if it does not close them early. -/
theorem spells_inTripleQuotes_iff {text : String} :
    Spells (inTripleQuotes text) .rawString text ↔ RawBody text.toList := by
  constructor
  · rintro ⟨t, stop, hscan, hkind, hvalue⟩
    have htokens : scan (inTripleQuotes text) = .ok ([t] ++ [ending stop]) := hscan
    obtain ⟨_, _, rest, hcut⟩ := isCut_of_scan htokens (List.mem_singleton_self t)
    have hcomplete : Complete rest t.kind t.lexeme.toList := complete_of_cut hcut
    generalize hlexeme : t.lexeme.toList = lexeme at hcomplete
    rw [hkind] at hcomplete
    cases hcomplete with
    | rawString body =>
        rw [value?_raw hkind hlexeme, Option.some.injEq] at hvalue
        rw [← hvalue, String.toList_ofList]
        exact body
    | mark listed => simp [marks] at listed
  · intro hbody
    have hvalue : (Token.mk .rawString (inTripleQuotes text) .start).value? =
        some (String.ofList text.toList) :=
      value?_raw rfl String.toList_ofList
    rw [String.ofList_toList] at hvalue
    exact ⟨_, _, scan_of_complete (Complete.rawString hbody), rfl, hvalue⟩

theorem Whole.value?_isSome {t : Token} (h : t.Whole) : t.value?.isSome := by
  rcases hstring : t.kind.isString with _ | _
  · unfold value?
    split <;> simp_all [Kind.isString]
  · exact h.value hstring

/--
Strings are read back.  A text on one line is the value of its quoted form, and a text is the value
of its raw form exactly if it has no three quotes in a row and does not end with a quote.  Every
token of a text that can be scanned has a value.
-/
theorem strings_are_read_back :
    (∀ text : String, '\n' ∉ text.toList → Spells (inQuotes text) .string text) ∧
    (∀ text : String, Spells (inTripleQuotes text) .rawString text ↔
      ¬ tripleQuote <:+: text.toList ∧ ¬ ['\x22'] <:+ text.toList) ∧
    ∀ source ts, scan source = .ok ts → ∀ t ∈ ts, t.value?.isSome := by
  refine ⟨fun text h => spells_inQuotes h, ?_, ?_⟩
  · intro text
    rw [spells_inTripleQuotes_iff, rawBody_iff]
  · intro source ts hscan t ht
    obtain ⟨tokens, stop, rfl, hwhole, -⟩ := tokens_of_scan hscan
    rcases List.mem_append.mp ht with htoken | hend
    · exact (hwhole t htoken).value?_isSome
    · rw [List.mem_singleton.mp hend]
      rfl

theorem strings_are_read_back_knotty :
    '\n' ∉ "\\\x22\\\\n".toList ∧
    Spells (inQuotes "\\\x22\\\\n") .string "\\\x22\\\\n" ∧
    Spells (inTripleQuotes "\x22\x22\n\\") .rawString "\x22\x22\n\\" ∧
    ¬ Spells (inTripleQuotes "\\\x22") .rawString "\\\x22" ∧
    scan accented = .ok (accentedTokens ++ [ending ⟨3, 11, 25⟩]) ∧
    ∀ t ∈ accentedTokens ++ [ending ⟨3, 11, 25⟩], t.value?.isSome := by
  obtain ⟨hquoted, hraw, hvalues⟩ := strings_are_read_back
  have hscan : scan accented = .ok (accentedTokens ++ [ending ⟨3, 11, 25⟩]) := by cbv
  exact ⟨by decide, hquoted _ (by decide), (hraw _).mpr (by decide), (hraw _).not.mpr (by decide),
    hscan, hvalues accented _ hscan⟩

end Token
end CaseSuite
