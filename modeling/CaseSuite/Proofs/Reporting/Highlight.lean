import CaseSuite.Proofs.Reporting.Caret
import CaseSuite.Proofs.Scanning.Conformance
import Mathlib

/-!
# The text that a report marks

A report marks a span of characters, while an error knows a byte offset and a width.  The span is
never empty and never leaves the text, whatever the error says.  For an error of the text itself it
is the offending text: the place of the error follows an initial part of the text, so the bytes
before it are whole characters, and what stands there is as wide as the error says.
-/

namespace CaseSuite

/-- The characters of a text in a span. -/
def Span.of (s : Span) (source : List Char) : List Char :=
  (source.drop s.start).take (s.stop - s.start)

namespace CompileError

/-! ## Spans -/

/-- A span holds a character, and lies inside the text if that has one. -/
theorem span_bounds (e : CompileError) (source : List Char) :
    (e.span source).start < (e.span source).stop ∧
      (e.span source).stop ≤ max 1 source.length := by
  simp only [span]
  omega

/-- The span of an error at a place whose width is that of the text there. -/
theorem span_eq
    {e : CompileError} {p : Position} {before marked after : List Char}
    (hplace : e.position? = some p) (hp : p.Follows before) (hne : marked ≠ [])
    (hwidth : max e.width 1 = marked.length) :
    e.span (before ++ marked ++ after) =
      ⟨before.length, before.length + marked.length⟩ := by
  have hstart : e.start (before ++ marked ++ after) = before.length := by
    simp only [start, hplace, hp.offset]
    rw [List.append_assoc, Text.takeBytes_byteLength]
  have hpos : 0 < marked.length := List.length_pos_iff.mpr hne
  simp only [span, hstart, hwidth, List.length_append, Span.mk.injEq]
  omega

/-- The span of an error at the end of a text that is one character wide. -/
theorem span_eq_last
    {e : CompileError} {p : Position} {source : List Char} (hplace : e.position? = some p)
    (hp : p.Follows source) (hwidth : e.width = 1) :
    e.span source = ⟨source.length - 1, source.length - 1 + 1⟩ := by
  have hstart : e.start source = source.length := by
    have htake := Text.takeBytes_byteLength source []
    rw [List.append_nil] at htake
    simp only [start, hplace, hp.offset, htake]
  simp only [span, hstart, hwidth, Span.mk.injEq]
  omega

theorem span_eq_first
    {e : CompileError} (hplace : e.position? = none) (source : List Char) :
    e.span source = ⟨0, 1⟩ := by
  have hwidth : e.width = 1 := by
    cases e with
    | scan e => cases hplace
    | parse e => cases hplace
    | plan e => rfl
    | name e => rfl
  simp only [span, start, hplace, hwidth, Span.mk.injEq]
  omega

end CompileError

/-! ## What stands at the place of an error -/

/-- Where the scanner stops, the text goes on with what it stops at. -/
theorem Token.offends_of_scan_error
    {text : String} {e : ScanError} (h : scan text = .error e) :
    ∃ before rest fault, text.toList = before ++ rest ∧ e.position.Follows before ∧
      Offends rest fault ∧ e = fault.toError e.position := by
  obtain ⟨tokens, last, hscans, ⟨stop, -, hok⟩ | ⟨e', hfailed, herror⟩⟩ :=
    (Cursor.ofText text).exists_scans
  · simp [scan, hok] at h
  · rw [scan, herror, Except.error.injEq] at h
    subst h
    obtain ⟨before, -, hplace, hwhole⟩ := hscans.laid Position.follows_start
    obtain ⟨gap, rest, fault, -, hrest, hoffends, rfl⟩ := Cursor.step_failed_iff.mp hfailed
    rw [hrest, ← List.append_assoc] at hwhole
    refine ⟨before ++ gap, rest, fault, hwhole, ?_, hoffends, ?_⟩
    · rw [Fault.toError_position]
      exact hplace.advance gap
    · rw [Fault.toError_position]

/-- The end mark of a text stands behind all of it. -/
theorem Token.follows_of_ending
    {text : String} {tokens : List Token} {last : Cursor} {stop : Position}
    (hscans : Scans (Cursor.ofText text) tokens last) (hending : last.step = .ending stop) :
    stop.Follows text.toList := by
  obtain ⟨before, -, hplace, hwhole⟩ := hscans.laid Position.follows_start
  obtain ⟨-, rfl⟩ := Cursor.step_ending hending
  rw [List.nil_append] at hwhole
  have hstop := hplace.advance last.rest
  rwa [← hwhole] at hstop

namespace CompileError

/-- What a span marks for an error: the character that is no token, the quote that opens an unclosed
string, or the token that was not expected, each at the place of the error; the last character of
a text that has ended, or where it would stand; and the beginning of the text for an error without a
place. -/
def Marks (e : CompileError) (source : List Char) (s : Span) : Prop :=
  match e with
  | scan (.unexpected c p) => p.Follows (source.take s.start) ∧ s.of source = [c]
  | scan (.unterminated p) => p.Follows (source.take s.start) ∧ s.of source = ['\x22'] ∧
      Token.OpensUnclosed (source.drop s.start)
  | parse (.unexpected found _) =>
      found.position.Follows (source.take s.start) ∧ s.of source = found.lexeme.toList
  | parse (.ended p _) => p.Follows source ∧
      s = ⟨source.length - 1, source.length - 1 + 1⟩ ∧ s.of source = source.getLast?.toList
  | plan _ | name _ => s = ⟨0, 1⟩

/-- A span around a part of a text. -/
theorem span_of_append (before marked after : List Char) :
    (before ++ marked ++ after).take before.length = before ∧
      (before ++ marked ++ after).drop before.length = marked ++ after ∧
      (Span.mk before.length (before.length + marked.length)).of (before ++ marked ++ after) =
        marked := by
  rw [List.append_assoc]
  refine ⟨List.take_left, List.drop_left, ?_⟩
  rw [Span.of, List.drop_left, Nat.add_sub_cancel_left, List.take_left]

theorem span_of_last (source : List Char) :
    (Span.mk (source.length - 1) (source.length - 1 + 1)).of source = source.getLast?.toList := by
  rcases source.eq_nil_or_concat with rfl | ⟨before, c, rfl⟩
  · rfl
  · simp [Span.of]

theorem scan_marks {text : String} {e : ScanError} (h : Token.scan text = .error e) :
    (scan e).Marks text.toList ((scan e).span text.toList) := by
  obtain ⟨before, rest, fault, htext, hplace, hoffends, hfault⟩ := Token.offends_of_scan_error h
  obtain ⟨c, after, rfl⟩ : ∃ c after, rest = c :: after := by
    obtain ⟨c, after, hrest, -⟩ := Token.exists_cons_of_offends hoffends
    exact ⟨c, after, hrest⟩
  have hspan : (scan e).span (before ++ [c] ++ after) = ⟨before.length, before.length + 1⟩ :=
    span_eq rfl hplace (List.cons_ne_nil c []) rfl
  obtain ⟨htake, hdrop, hof⟩ := span_of_append before [c] after
  rw [htext, List.append_cons, hspan]
  cases fault with
  | unexpected d =>
      obtain ⟨hhead, -⟩ := hoffends
      obtain rfl := Option.some.inj hhead
      rw [hfault]
      exact ⟨htake.symm ▸ hplace, hof⟩
  | unterminated =>
      have hquote := Token.head?_of_opensUnclosed hoffends
      obtain rfl := Option.some.inj hquote
      rw [hfault]
      exact ⟨htake.symm ▸ hplace, hof, hdrop.symm ▸ hoffends⟩

theorem parse_marks
    {text : String} {ts : List Token} {e : ParseError} (hscan : Token.scan text = .ok ts)
    (hparse : CaseFile.parse ts = .error e) :
    (parse e).Marks text.toList ((parse e).span text.toList) := by
  obtain ⟨tokens, last, stop, hscans, hending, hrefused⟩ :=
    CaseFile.refused_of_parse_error hscan hparse
  rcases hrefused with ⟨found, hmem, expected, rfl⟩ | ⟨expected, rfl⟩
  · obtain ⟨before, after, htext, hplace, hcomplete⟩ :=
      hscans.complete Position.follows_start hmem
    have hne := hcomplete.ne_nil
    have hpos : 0 < found.lexeme.toList.length := List.length_pos_iff.mpr hne
    have hwidth : max (parse (.unexpected found expected)).width 1 =
        found.lexeme.toList.length := by
      rw [width, ← String.length_toList]
      omega
    obtain ⟨htake, -, hof⟩ := span_of_append before found.lexeme.toList after
    have htext : text.toList = before ++ found.lexeme.toList ++ after := htext
    rw [htext, span_eq rfl hplace hne hwidth]
    exact ⟨htake.symm ▸ hplace, hof⟩
  · have hplace := Token.follows_of_ending hscans hending
    have hspan : (parse (.ended stop expected)).span text.toList =
        ⟨text.toList.length - 1, text.toList.length - 1 + 1⟩ := span_eq_last rfl hplace rfl
    rw [hspan]
    exact ⟨hplace, rfl, span_of_last text.toList⟩

end CompileError

/--
A report marks what the error is about.  Of every text that does not compile a span is marked that
holds at least one character and ends inside the text, or after one character if the text is empty.
It is the unexpected character, the quote that opens an unclosed string, the lexeme of the
unexpected token or the last character of a text that has ended, at the place of the error.
-/
theorem span_marks_offending_text
    {text : String} {e : CompileError} (h : compile text = .error e) :
    (e.span text.toList).start < (e.span text.toList).stop ∧
      (e.span text.toList).stop ≤ max 1 text.length ∧
      e.Marks text.toList (e.span text.toList) := by
  obtain ⟨hsome, hinside⟩ := e.span_bounds text.toList
  rw [String.length_toList] at hinside
  refine ⟨hsome, hinside, ?_⟩
  rcases CompileError.origin h with ⟨e', rfl, hscan⟩ | ⟨ts, e', rfl, hscan, hparse⟩ | hnone
  · exact CompileError.scan_marks hscan
  · exact CompileError.parse_marks hscan hparse
  · have hfirst := CompileError.span_eq_first hnone text.toList
    cases e with
    | scan e => cases hnone
    | parse e => cases hnone
    | plan e => exact hfirst
    | name e => exact hfirst

/-- The string after a comment with a letter of two bytes. -/
def misplacedString : Token := ⟨.string, "\x22ü\x22", ⟨2, 9, 12⟩⟩

theorem span_marks_offending_text_accented :
    ((CompileError.parse (.unexpected misplacedString (.token .leftBrace))).span
      "#é\n Config \x22ü\x22".toList).of "#é\n Config \x22ü\x22".toList =
        ['\x22', 'ü', '\x22'] ∧
    ((CompileError.scan (.unterminated ⟨2, 2, 6⟩)).span "_#é\n \x22ü".toList).of
      "_#é\n \x22ü".toList = ['\x22'] ∧
    (CompileError.parse (.ended ⟨1, 3, 3⟩ (.token (.keyword .config)))).span "#é".toList =
      ⟨1, 2⟩ ∧
    (CompileError.parse (.ended ⟨1, 1, 0⟩ (.token (.keyword .config)))).span "".toList =
      ⟨0, 1⟩ := by
  have hstring : compile "#é\n Config \x22ü\x22" =
      .error (.parse (.unexpected misplacedString (.token .leftBrace))) := by cbv
  have hquote : compile "_#é\n \x22ü" = .error (.scan (.unterminated ⟨2, 2, 6⟩)) := by cbv
  have hcomment : compile "#é" =
      .error (.parse (.ended ⟨1, 3, 3⟩ (.token (.keyword .config)))) := by cbv
  have hempty : compile "" =
      .error (.parse (.ended ⟨1, 1, 0⟩ (.token (.keyword .config)))) := by cbv
  obtain ⟨-, -, -, hlexeme⟩ := span_marks_offending_text hstring
  obtain ⟨-, -, -, hopening, -⟩ := span_marks_offending_text hquote
  obtain ⟨-, -, -, hlast, -⟩ := span_marks_offending_text hcomment
  obtain ⟨-, -, -, hnone, -⟩ := span_marks_offending_text hempty
  exact ⟨hlexeme, hopening, hlast, hnone⟩

end CaseSuite
