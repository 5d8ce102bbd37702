import CaseSuite.Proofs.Scanning.Respacing
import Mathlib

/-!
# Texts below one another

A text that stands on the lines below another one is scanned as if it stood alone.  Nothing of the
upper text reaches over the line feed between them: a comment ends there, and no number, word or
string goes on behind it.  What is found below only moves down by the lines and bytes above it.
-/

namespace CaseSuite

/-! ## Moving down -/

/-- Where a place is found when its text stands on the lines below another one. -/
def Position.below (above : String) (p : Position) : Position :=
  ⟨p.line + (above.toList.count '\n' + 1), p.column, p.offset + (above.utf8ByteSize + 1)⟩

/-- A token of a text that stands on the lines below another one. -/
def Token.below (above : String) (t : Token) : Token :=
  { t with position := t.position.below above }

/-- An error in a text that stands on the lines below another one. -/
def ScanError.below (above : String) : ScanError → ScanError
  | .unexpected c p => .unexpected c (p.below above)
  | .unterminated p => .unterminated (p.below above)

namespace Position

theorem advance_append (p : Position) (cs ds : List Char) :
    p.advance (cs ++ ds) = (p.advance cs).advance ds :=
  List.foldl_append

theorem next_below (above : String) (p : Position) (c : Char) :
    (p.below above).next c = (p.next c).below above := by
  by_cases hfeed : c = '\n'
  · simp only [below, next, if_pos hfeed, Position.mk.injEq, true_and]
    omega
  · simp only [below, next, if_neg hfeed, Position.mk.injEq, true_and]
    omega

theorem advance_below (above : String) (p : Position) (cs : List Char) :
    (p.below above).advance cs = (p.advance cs).below above := by
  induction cs generalizing p with
  | nil => rfl
  | cons c cs ih =>
      have hcons : ∀ q : Position, q.advance (c :: cs) = (q.next c).advance cs := fun _ => rfl
      rw [hcons, hcons, next_below, ih]

theorem Follows.unique
    {p q : Position} {before : List Char} (hp : p.Follows before) (hq : q.Follows before) :
    p = q := by
  obtain ⟨line, column, offset⟩ := p
  obtain ⟨line', column', offset'⟩ := q
  simp only [Position.mk.injEq]
  exact ⟨hp.line.trans hq.line.symm, hp.column.trans hq.column.symm,
    hp.offset.trans hq.offset.symm⟩

/-- The lower text begins where the line feed behind the upper one ends. -/
theorem start_below_follows (above : String) :
    (start.below above).Follows (above.toList ++ ['\n']) := by
  refine ⟨?_, ?_, ?_⟩
  · rw [Text.byteLength_append, Text.byteLength_toList]
    simp only [below, start]
    exact Nat.zero_add _
  · simp only [below, start, List.count_append, List.count_singleton_self]
  · simp [below, start]

end Position

namespace Token

/-! ## Steps further down -/

/-- The scanner on the same text, further down. -/
def Cursor.below (above : String) (s : Cursor) : Cursor :=
  ⟨s.position.below above, s.rest⟩

theorem Cursor.step_below_token
    {s next : Cursor} {t : Token} (h : s.step = .token t next) (above : String) :
    (s.below above).step = .token (t.below above) (next.below above) := by
  obtain ⟨gap, rest, hgap, hrest, hcomplete, hposition, rfl⟩ := Cursor.step_token_iff.mp h
  refine Cursor.step_token_iff.mpr ⟨gap, rest, hgap, hrest, hcomplete, ?_, ?_⟩
  · rw [Token.below, hposition]
    exact (Position.advance_below above s.position gap).symm
  · simp only [Cursor.below, Token.below, Position.advance_below]

theorem Cursor.step_below_failed
    {s : Cursor} {e : ScanError} (h : s.step = .failed e) (above : String) :
    (s.below above).step = .failed (e.below above) := by
  obtain ⟨gap, rest, fault, hgap, hrest, hoffends, rfl⟩ := Cursor.step_failed_iff.mp h
  refine Cursor.step_failed_iff.mpr ⟨gap, rest, fault, hgap, hrest, hoffends, ?_⟩
  rw [Cursor.below, Position.advance_below]
  cases fault <;> rfl

theorem Cursor.step_below_ending
    {s : Cursor} {p : Position} (h : s.step = .ending p) (above : String) :
    (s.below above).step = .ending (p.below above) := by
  obtain ⟨hlast, rfl⟩ := Cursor.step_ending h
  rw [Cursor.below, Cursor.step_of_lastGap hlast, Position.advance_below]

/-- What is found further down is the same, further down. -/
theorem Cursor.tokens_below (above : String) (s : Cursor) :
    (s.below above).tokens =
      match s.tokens with
      | .ok ts => .ok (ts.map (Token.below above))
      | .error e => .error (e.below above) := by
  fun_induction Cursor.tokens s with
  | case1 s e hstep => rw [Cursor.tokens_eq, Cursor.step_below_failed hstep]
  | case2 s p hstep =>
      rw [Cursor.tokens_eq, Cursor.step_below_ending hstep]
      rfl
  | case3 s t next hstep e htokens ih =>
      rw [Cursor.tokens_eq, Cursor.step_below_token hstep]
      simp only [ih, htokens]
      rfl
  | case4 s t next hstep ts htokens ih =>
      rw [Cursor.tokens_eq, Cursor.step_below_token hstep]
      simp only [ih, htokens]
      rfl

/-! ## Putting a text below -/

/-- A run of the scanner is followed by what is found behind it. -/
theorem Scans.tokens
    {s last : Cursor} {ts : List Token} (h : Scans s ts last) :
    s.tokens = last.tokens.map (ts ++ ·) := by
  induction h with
  | rest s => rcases s.tokens with e | us <;> rfl
  | @take s next last t ts hstep _ ih =>
      rw [Cursor.tokens_eq, hstep]
      simp only [ih]
      rcases last.tokens with e | us <;> rfl

/-- The scanner takes the same tokens if the text breaks off somewhere behind them and something
that carries no lexeme on is put there. -/
theorem Scans.recut
    {s last : Cursor} {ts : List Token} (h : Scans s ts last) {kept tail : List Char}
    (hkept : kept <+: last.rest) (htail : Apart tail) :
    ∃ read, s.rest = read ++ last.rest ∧
      Scans ⟨s.position, read ++ (kept ++ tail)⟩ ts ⟨last.position, kept ++ tail⟩ := by
  induction h with
  | rest s => exact ⟨[], rfl, Scans.rest _⟩
  | @take s next last t ts hstep _ ih =>
      obtain ⟨gap, rest, hgap, hrest, hcomplete, hposition, rfl⟩ := Cursor.step_token_iff.mp hstep
      obtain ⟨read, hread, hscans⟩ := ih hkept
      -- what is left of the text behind the lexeme still follows it, and only then the new tail
      have hfurther : Complete (read ++ kept ++ tail) t.kind t.lexeme.toList := by
        refine hcomplete.of_apart ?_ htail
        rw [show rest = read ++ last.rest from hread]
        exact (List.prefix_append_right_inj read).mpr hkept
      rw [List.append_assoc] at hfurther
      refine ⟨gap ++ t.lexeme.toList ++ read, ?_, ?_⟩
      · rw [hrest, show rest = read ++ last.rest from hread]
        simp
      · refine Scans.take (Cursor.step_token_iff.mpr ?_) hscans
        exact ⟨gap, read ++ (kept ++ tail), hgap, by simp, hfurther, hposition, rfl⟩

/-- The scanner takes the same tokens if something that carries no lexeme on is put at the end. -/
theorem Scans.extend
    {s last : Cursor} {ts : List Token} (h : Scans s ts last) {tail : List Char}
    (htail : Apart tail) :
    Scans ⟨s.position, s.rest ++ tail⟩ ts ⟨last.position, last.rest ++ tail⟩ := by
  obtain ⟨read, hread, hscans⟩ := h.recut List.prefix_rfl htail
  rw [hread, List.append_assoc]
  exact hscans

theorem Gap.append {gap gap' : List Char} (h : Gap gap) (h' : Gap gap') : Gap (gap ++ gap') := by
  induction h with
  | nil => exact h'
  | blank space _ ih => exact Gap.blank space ih
  | @comment body cs line _ ih => simpa using Gap.comment line ih

/-- At the end of a line every comment is closed. -/
theorem LastGap.gap_feed {last : List Char} (h : LastGap last) : Gap (last ++ ['\n']) := by
  rcases h with closed | ⟨closed, line⟩
  · exact closed.append (Gap.blank (by simp) Gap.nil)
  · rw [List.append_assoc]
    exact closed.append (Gap.comment line Gap.nil)

/-- A gap is skipped. -/
theorem Gap.tokens {gap : List Char} (h : Gap gap) (p : Position) (rest : List Char) :
    (Cursor.mk p (gap ++ rest)).tokens = (Cursor.mk (p.advance gap) rest).tokens := by
  have hstep : (Cursor.mk p (gap ++ rest)).step = (Cursor.mk (p.advance gap) rest).step := by
    simp only [Cursor.step, h.splitTrivia_append, Position.advance_append]
  rw [Cursor.tokens_eq, Cursor.tokens_eq, hstep]

/-- Behind the end of a text and a line feed, scanning begins anew. -/
theorem tokens_behind_end
    {above : String} {ts : List Token} {last : Cursor} (h : Scans (Cursor.ofText above) ts last)
    (hlast : LastGap last.rest) (rest : List Char) :
    (Cursor.mk last.position (last.rest ++ '\n' :: rest)).tokens =
      ((Cursor.mk .start rest).below above).tokens := by
  have hstart : (Cursor.ofText above).position.Follows [] := Position.follows_start
  obtain ⟨before, -, hplace, hwhole⟩ := h.laid hstart
  have habove : above.toList = before ++ last.rest := hwhole
  -- two positions right after the same text are the same, so none has to be computed
  have hnext := hplace.advance (last.rest ++ ['\n'])
  rw [← List.append_assoc, ← habove] at hnext
  have hgap := hlast.gap_feed.tokens last.position rest
  rw [List.append_assoc, List.singleton_append, hnext.unique (Position.start_below_follows above)]
    at hgap
  exact hgap

/--
Scanning turns texts below one another into lists of tokens behind one another: the tokens of the
upper text, without its end mark, and then those of the lower text, moved down.  If the lower text
cannot be scanned the error is its error, moved down.
-/
theorem scan_of_joined_lines
    (above lower : String) {as : List Token} (h : scan above = .ok as) :
    ∃ ts stop, as = ts ++ [ending stop] ∧
      scan (above ++ "\n" ++ lower) =
        match scan lower with
        | .ok bs => .ok (ts ++ bs.map (Token.below above))
        | .error e => .error (e.below above) := by
  obtain ⟨ts, last, stop, hscans, hending, rfl⟩ := exists_scans_of_scan h
  refine ⟨ts, stop, rfl, ?_⟩
  have hfeed : Apart ('\n' :: lower.toList) := by
    rintro _ ⟨⟩
    exact Or.inl rfl
  have hjoined := (hscans.extend hfeed).tokens
  rw [tokens_behind_end hscans (Cursor.step_ending hending).1, Cursor.tokens_below] at hjoined
  have htext : (above ++ "\n" ++ lower).toList = above.toList ++ '\n' :: lower.toList := by simp
  rw [scan, Cursor.ofText, htext]
  refine hjoined.trans ?_
  rw [scan, Cursor.ofText]
  rcases (Cursor.mk .start lower.toList).tokens with e | bs <;> rfl

/-- A text that ends in a comment, with a line feed and a letter of two bytes in a raw string. -/
def commented : String :=
  "1 \x22\x22\x22é\n\x22\x22\x22 # \x22"

def commentedTokens : List Token :=
  [⟨.number, "1", ⟨1, 1, 0⟩⟩, ⟨.rawString, "\x22\x22\x22é\n\x22\x22\x22", ⟨1, 3, 2⟩⟩]

theorem scan_of_joined_lines_commented :
    scan commented = .ok (commentedTokens ++ [ending ⟨2, 8, 15⟩]) ∧
    scan (commented ++ "\n" ++ "2\n x") = .ok (commentedTokens ++
      [⟨.number, "2", ⟨3, 1, 16⟩⟩, ⟨.name, "x", ⟨4, 2, 19⟩⟩, ending ⟨4, 3, 20⟩]) ∧
    scan (commented ++ "\n" ++ "x .5") = .error (.unexpected '.' ⟨3, 3, 18⟩) := by
  have habove : scan commented = .ok (commentedTokens ++ [ending ⟨2, 8, 15⟩]) := by cbv
  have hlower : scan "2\n x" =
      .ok [⟨.number, "2", ⟨1, 1, 0⟩⟩, ⟨.name, "x", ⟨2, 2, 3⟩⟩, ending ⟨2, 3, 4⟩] := by cbv
  have hfails : scan "x .5" = .error (.unexpected '.' ⟨1, 3, 2⟩) := by cbv
  obtain ⟨ts, stop, hts, hscans⟩ := scan_of_joined_lines commented "2\n x" habove
  obtain ⟨us, stop', hus, herror⟩ := scan_of_joined_lines commented "x .5" habove
  obtain ⟨rfl, -⟩ := List.append_inj' hts rfl
  rw [hlower] at hscans
  rw [hfails] at herror
  exact ⟨habove, hscans, herror⟩

end Token
end CaseSuite
