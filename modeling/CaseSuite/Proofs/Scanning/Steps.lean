import CaseSuite.Proofs.Text.Bytes
import CaseSuite.Token.Scan

/-!
# Steps of the scanner

A step of the scanner leaves a gap behind and takes a token, finds the end after a gap, or stops
after a gap at something that is no token.  `Scans` is a run of steps that take tokens.  Scanning a
text and handing its tokens out one by one are both such a run and the step that ends it.
-/

namespace CaseSuite
namespace Token

/-! ## Gaps -/

/-- Blanks and comments, each comment with the line feed that ends it. -/
inductive Gap : List Char → Prop
  | nil : Gap []
  | blank {c : Char} {cs : List Char}
      (space : c ∈ [' ', '\t', '\r', '\n']) (rest : Gap cs) : Gap (c :: cs)
  | comment {body cs : List Char}
      (line : '\n' ∉ body) (rest : Gap cs) : Gap ('#' :: body ++ '\n' :: cs)

/-- What may stand before the end of a text: a gap, or a gap and a comment that nothing ends. -/
inductive LastGap : List Char → Prop
  | gap {cs : List Char} (closed : Gap cs) : LastGap cs
  | comment {cs body : List Char}
      (closed : Gap cs) (line : '\n' ∉ body) : LastGap (cs ++ '#' :: body)

theorem isSpace_iff {c : Char} : isSpace c = true ↔ c ∈ [' ', '\t', '\r', '\n'] := by
  simp [isSpace, or_assoc]

theorem LastGap.blank
    {c : Char} {cs : List Char} (space : c ∈ [' ', '\t', '\r', '\n']) (h : LastGap cs) :
    LastGap (c :: cs) := by
  cases h with
  | gap closed => exact LastGap.gap (Gap.blank space closed)
  | comment closed line => exact LastGap.comment (Gap.blank space closed) line

theorem LastGap.line
    {body cs : List Char} (line : '\n' ∉ body) (h : LastGap cs) :
    LastGap ('#' :: body ++ '\n' :: cs) := by
  cases h with
  | gap closed => exact LastGap.gap (Gap.comment line closed)
  | @comment gap last closed lastLine =>
      have hlast := LastGap.comment (Gap.comment line closed) lastLine
      simpa using hlast

/-- Skipped text is a gap, of the last kind only if nothing is left after it.  Inside a comment
the same holds once its beginning is put back. -/
theorem splitTrivia_gap (cs : List Char) :
    (LastGap (splitTrivia false cs).1 ∧
      ((splitTrivia false cs).2 ≠ [] → Gap (splitTrivia false cs).1)) ∧
    ∀ body : List Char, '\n' ∉ body →
      LastGap ('#' :: body ++ (splitTrivia true cs).1) ∧
      ((splitTrivia true cs).2 ≠ [] → Gap ('#' :: body ++ (splitTrivia true cs).1)) := by
  induction cs with
  | nil =>
      refine ⟨⟨LastGap.gap Gap.nil, fun _ => Gap.nil⟩, ?_⟩
      intro body hbody
      refine ⟨?_, fun hrest => absurd rfl hrest⟩
      simpa [splitTrivia] using LastGap.comment Gap.nil hbody
  | cons c cs ih =>
      obtain ⟨⟨hlast, hgap⟩, hcomment⟩ := ih
      constructor
      · by_cases hhash : c = '#'
        · subst hhash
          simpa [splitTrivia] using hcomment [] (by simp)
        · by_cases hspace : isSpace c = true
          · have hmem := isSpace_iff.mp hspace
            simp only [splitTrivia, hspace, hhash, decide_false, Bool.or_false, if_true]
            exact ⟨hlast.blank hmem, fun hrest => Gap.blank hmem (hgap hrest)⟩
          · simp only [splitTrivia, hspace, hhash, decide_false, Bool.or_false]
            exact ⟨LastGap.gap Gap.nil, fun _ => Gap.nil⟩
      · intro body hbody
        by_cases hfeed : c = '\n'
        · subst hfeed
          simp only [splitTrivia, bne_self_eq_false]
          exact ⟨hlast.line hbody, fun hrest => Gap.comment hbody (hgap hrest)⟩
        · have hmore : '\n' ∉ body ++ [c] := by simp [hbody, Ne.symm hfeed]
          have hne : (c != '\n') = true := by simpa using hfeed
          have hthere := hcomment (body ++ [c]) hmore
          simp only [splitTrivia, hne]
          simpa using hthere

/-- A comment ends with its line. -/
theorem splitTrivia_comment
    {body : List Char} (hline : '\n' ∉ body) (rest : List Char) :
    splitTrivia true (body ++ '\n' :: rest) =
      (body ++ '\n' :: (splitTrivia false rest).1, (splitTrivia false rest).2) := by
  induction body with
  | nil => simp [splitTrivia]
  | cons c body ih =>
      obtain ⟨hc, hbody⟩ := List.ne_and_not_mem_of_not_mem_cons hline
      have hne : (c != '\n') = true := by simpa using hc.symm
      rw [List.cons_append, splitTrivia, hne, ih hbody]
      rfl

theorem splitTrivia_unended
    {body : List Char} (hline : '\n' ∉ body) : splitTrivia true body = (body, []) := by
  induction body with
  | nil => rfl
  | cons c body ih =>
      obtain ⟨hc, hbody⟩ := List.ne_and_not_mem_of_not_mem_cons hline
      have hne : (c != '\n') = true := by simpa using hc.symm
      rw [splitTrivia, hne, ih hbody]

/-- A gap is skipped, and the text behind it is searched for more. -/
theorem Gap.splitTrivia_append
    {gap : List Char} (h : Gap gap) (rest : List Char) :
    splitTrivia false (gap ++ rest) =
      (gap ++ (splitTrivia false rest).1, (splitTrivia false rest).2) := by
  induction h with
  | nil => rfl
  | @blank c cs space _ ih =>
      have hspace := isSpace_iff.mpr space
      have hhash : c ≠ '#' := by
        rintro rfl
        simp at space
      simp [splitTrivia, hspace, hhash, ih]
  | @comment body cs line _ ih =>
      have hcomment := splitTrivia_comment line (cs ++ rest)
      simp [splitTrivia, hcomment, ih]

theorem LastGap.splitTrivia_eq
    {last : List Char} (h : LastGap last) : splitTrivia false last = (last, []) := by
  rcases h with closed | ⟨closed, line⟩
  · simpa [splitTrivia] using closed.splitTrivia_append []
  · rename_i gap body
    have hcomment := splitTrivia_unended line
    simp [closed.splitTrivia_append, splitTrivia, hcomment]

/-- Skipping stops at a character that is neither a blank nor the beginning of a comment. -/
theorem splitTrivia_stops
    (inComment : Bool) {cs rest : List Char} {c : Char}
    (h : (splitTrivia inComment cs).2 = c :: rest) : isSpace c = false ∧ c ≠ '#' := by
  induction cs generalizing inComment with
  | nil => cases inComment <;> simp [splitTrivia] at h
  | cons d cs ih =>
      cases inComment with
      | true => exact ih _ h
      | false =>
          simp only [splitTrivia] at h
          split at h
          · exact ih _ h
          · rename_i hnot
            obtain ⟨rfl, -⟩ := List.cons.inj h
            simpa using hnot

/-- A text is a gap up to its end, or a gap up to a character that belongs to no gap. -/
theorem exists_gap (cs : List Char) :
    LastGap cs ∨ ∃ gap c rest, cs = gap ++ c :: rest ∧ Gap gap ∧ isSpace c = false ∧ c ≠ '#' := by
  have happend := splitTrivia_append false cs
  obtain ⟨⟨hlast, hgap⟩, -⟩ := splitTrivia_gap cs
  rcases hsplit : splitTrivia false cs with ⟨gap, _ | ⟨c, rest⟩⟩
  · rw [hsplit, List.append_nil] at happend
    rw [hsplit] at hlast
    exact Or.inl (happend ▸ hlast)
  · rw [hsplit] at happend hgap
    have hstops := splitTrivia_stops false (congrArg Prod.snd hsplit)
    exact Or.inr ⟨gap, c, rest, happend.symm, hgap (by simp), hstops⟩

/-! ## What a step finds -/

/-- The error for what is wrong at a place. -/
def Fault.toError (p : Position) : Fault → ScanError
  | .unexpected c => .unexpected c p
  | .unterminated => .unterminated p

@[simp] theorem Fault.toError_position (p : Position) (fault : Fault) :
    (fault.toError p).position = p := by
  cases fault <;> rfl

/-- Behind a gap the scanner does what cutting off a token there gives. -/
theorem Cursor.step_of_gap
    {gap cs : List Char} {c : Char} (hgap : Gap gap) (hspace : isSpace c = false) (hhash : c ≠ '#')
    (p : Position) :
    (Cursor.mk p (gap ++ c :: cs)).step =
      match cut c cs with
      | .error fault => .failed (fault.toError (p.advance gap))
      | .ok token => .token ⟨token.kind, String.ofList token.lexeme, p.advance gap⟩
          ⟨(p.advance gap).advance token.lexeme, token.rest⟩ := by
  have htrivia : splitTrivia false (gap ++ c :: cs) = (gap, c :: cs) := by
    simp [hgap.splitTrivia_append, splitTrivia, hspace, hhash]
  simp only [Cursor.step, htrivia]
  rcases cut c cs with (d | _) | ⟨kind, lexeme, rest⟩ <;> rfl

theorem Cursor.step_of_lastGap
    {last : List Char} (h : LastGap last) (p : Position) :
    (Cursor.mk p last).step = .ending (p.advance last) := by
  simp [Cursor.step, h.splitTrivia_eq]

/-- A token stands after a gap, and the scanner goes on right behind it. -/
theorem Cursor.step_token
    {s next : Cursor} {t : Token} (h : s.step = .token t next) :
    ∃ gap c cs rest, Gap gap ∧ s.rest = gap ++ c :: cs ∧
      cut c cs = .ok ⟨t.kind, t.lexeme.toList, rest⟩ ∧ t.position = s.position.advance gap ∧
      next = ⟨t.position.advance t.lexeme.toList, rest⟩ := by
  obtain ⟨p, cs⟩ := s
  rcases exists_gap cs with hlast | ⟨gap, c, cs, rfl, hgap, hspace, hhash⟩
  · rw [Cursor.step_of_lastGap hlast] at h
    cases h
  · rw [Cursor.step_of_gap hgap hspace hhash] at h
    rcases hcut : cut c cs with fault | ⟨kind, lexeme, rest⟩
    · rw [hcut] at h
      cases h
    · rw [hcut] at h
      cases h
      exact ⟨gap, c, cs, rest, hgap, rfl, by simp [hcut], rfl, by simp⟩

/-- The end stands after a gap of the last kind. -/
theorem Cursor.step_ending
    {s : Cursor} {position : Position} (h : s.step = .ending position) :
    LastGap s.rest ∧ position = s.position.advance s.rest := by
  obtain ⟨p, cs⟩ := s
  rcases exists_gap cs with hlast | ⟨gap, c, cs, rfl, hgap, hspace, hhash⟩
  · rw [Cursor.step_of_lastGap hlast] at h
    cases h
    exact ⟨hlast, rfl⟩
  · rw [Cursor.step_of_gap hgap hspace hhash] at h
    rcases hcut : cut c cs with fault | token <;> rw [hcut] at h <;> cases h

/-- The scanner stops at a character after a gap. -/
theorem Cursor.step_failed
    {s : Cursor} {e : ScanError} (h : s.step = .failed e) :
    ∃ gap c cs, Gap gap ∧ s.rest = gap ++ c :: cs ∧ e.position = s.position.advance gap := by
  obtain ⟨p, cs⟩ := s
  rcases exists_gap cs with hlast | ⟨gap, c, cs, rfl, hgap, hspace, hhash⟩
  · rw [Cursor.step_of_lastGap hlast] at h
    cases h
  · rw [Cursor.step_of_gap hgap hspace hhash] at h
    rcases hcut : cut c cs with fault | token
    · rw [hcut] at h
      cases h
      exact ⟨gap, c, cs, hgap, rfl, Fault.toError_position _ fault⟩
    · rw [hcut] at h
      cases h

/-! ## Runs of steps -/

/-- The scanner takes tokens one after the other. -/
inductive Scans : Cursor → List Token → Cursor → Prop
  | rest (s : Cursor) : Scans s [] s
  | take {s next last : Cursor} {t : Token} {ts : List Token}
      (step : s.step = .token t next) (more : Scans next ts last) : Scans s (t :: ts) last

/-- Scanning goes on from what the next step finds. -/
theorem Cursor.tokens_eq (s : Cursor) :
    s.tokens =
      match s.step with
      | .failed e => .error e
      | .ending position => .ok [ending position]
      | .token t next => next.tokens.map (t :: ·) := by
  rw [Cursor.tokens]
  split
  · rename_i hstep
    rw [hstep]
  · rename_i hstep
    rw [hstep]
  · rename_i t next hstep
    simp only [hstep]
    rcases next.tokens with e | ts <;> rfl

/-- Scanning is a run of steps that ends at the end of the text or at an error. -/
theorem Cursor.exists_scans (s : Cursor) :
    ∃ ts last, Scans s ts last ∧
      ((∃ position, last.step = .ending position ∧ s.tokens = .ok (ts ++ [ending position])) ∨
        ∃ e, last.step = .failed e ∧ s.tokens = .error e) := by
  fun_induction Cursor.tokens s with
  | case1 s e hstep => exact ⟨[], s, Scans.rest s, Or.inr ⟨e, hstep, rfl⟩⟩
  | case2 s position hstep => exact ⟨[], s, Scans.rest s, Or.inl ⟨position, hstep, rfl⟩⟩
  | case3 s t next hstep e htokens ih =>
      obtain ⟨ts, last, hscans, ⟨position, -, hok⟩ | ⟨e', hfailed, herror⟩⟩ := ih
      · simp [htokens] at hok
      · rw [htokens] at herror
        exact ⟨t :: ts, last, Scans.take hstep hscans, Or.inr ⟨e', hfailed, herror⟩⟩
  | case4 s t next hstep more htokens ih =>
      obtain ⟨ts, last, hscans, ⟨position, hending, hok⟩ | ⟨e', -, herror⟩⟩ := ih
      · rw [htokens, Except.ok.injEq] at hok
        refine ⟨t :: ts, last, Scans.take hstep hscans, Or.inl ⟨position, hending, ?_⟩⟩
        rw [hok, List.cons_append]
      · simp [htokens] at herror

/-- The tokens of a text are those of a run up to its end, and the end mark. -/
theorem exists_scans_of_scan
    {text : String} {tokens : List Token} (h : scan text = .ok tokens) :
    ∃ ts last stop, Scans (Cursor.ofText text) ts last ∧ last.step = .ending stop ∧
      tokens = ts ++ [ending stop] := by
  obtain ⟨ts, last, hscans, ⟨stop, hending, hok⟩ | ⟨e, -, herror⟩⟩ :=
    (Cursor.ofText text).exists_scans
  · rw [scan, hok, Except.ok.injEq] at h
    exact ⟨ts, last, stop, hscans, hending, h.symm⟩
  · simp [scan, herror] at h

/-- Streaming hands out the tokens of a run and then what comes after it. -/
theorem Scans.items
    {s last : Cursor} {ts : List Token} (h : Scans s ts last) :
    (Stream.mk s false).items.1 = ts.map .ok ++ (Stream.mk last false).items.1 := by
  induction h with
  | rest s => simp
  | @take s next last t ts hstep _ ih =>
      have hnext : (Stream.mk s false).next = (some (.ok t), ⟨next, false⟩) := by
        simp [Stream.next, hstep]
      rw [Stream.items]
      split
      · simp_all
      · rename_i item after hitem
        rw [hnext, Prod.mk.injEq, Option.some.injEq] at hitem
        obtain ⟨rfl, rfl⟩ := hitem
        simp [ih]

/-- At the end a stream hands nothing out. -/
theorem Stream.items_ending
    {s : Cursor} {p : Position} (h : s.step = .ending p) : (Stream.mk s false).items.1 = [] := by
  rw [Stream.items]
  split <;> simp_all [Stream.next]

/-- At an error a stream hands the error out and nothing more. -/
theorem Stream.items_failed
    {s : Cursor} {e : ScanError} (h : s.step = .failed e) :
    (Stream.mk s false).items.1 = [.error e] := by
  have hnext : (Stream.mk s false).next = (some (.error e), ⟨s, true⟩) := by
    simp [Stream.next, h]
  have hnone : (Stream.mk s true).items.1 = [] := by
    rw [Stream.items]
    split <;> simp_all [Stream.next]
  rw [Stream.items]
  split
  · simp_all
  · rename_i item after hitem
    rw [hnext, Prod.mk.injEq, Option.some.injEq] at hitem
    obtain ⟨rfl, rfl⟩ := hitem
    simp [hnone]

end Token
end CaseSuite
