import CaseSuite.Proofs.Scanning.Conformance
import Mathlib

/-!
# Other layouts of the same tokens

A lexeme is cut off again, whole and of the same kind, wherever it stands in front of a blank, a
comment or the end of a text.  So the lexemes of a text may be laid out anew, with any blanks and
comments between them, and scanning finds them all again.
-/

namespace CaseSuite
namespace Token

/-! ## Gaps between lexemes -/

theorem Gap.apart
    {gap : List Char} (h : Gap gap) (hne : gap ≠ []) (rest : List Char) : Apart (gap ++ rest) := by
  intro c hc
  rcases h with _ | ⟨space, _⟩ | _
  · exact absurd rfl hne
  · cases hc
    exact Or.inl (isSpace_iff.mpr space)
  · cases hc
    exact Or.inr rfl

theorem LastGap.apart {last : List Char} (h : LastGap last) : Apart last := by
  rcases h with closed | ⟨closed, _⟩
  · by_cases hne : last = []
    · simp [hne, Apart]
    · simpa using closed.apart hne []
  · rename_i gap body line
    by_cases hne : gap = []
    · simp [hne, Apart]
    · exact closed.apart hne _

/-! ## Scanning a new layout -/

/-- What is written of a token, apart from its place. -/
def spelling (t : Token) : Kind × String := (t.kind, t.lexeme)

/-- The token was cut off some text. -/
def IsCut (t : Token) : Prop :=
  ∃ c cs rest, cut c cs = .ok ⟨t.kind, t.lexeme.toList, rest⟩

theorem Scans.isCut
    {s last : Cursor} {ts : List Token} (h : Scans s ts last) {t : Token} (ht : t ∈ ts) :
    t.IsCut := by
  induction h with
  | rest => cases ht
  | take hstep _ ih =>
      rcases List.mem_cons.mp ht with rfl | hmore
      · obtain ⟨_, c, cs, rest, -, -, hcut, -, -⟩ := Cursor.step_token hstep
        exact ⟨c, cs, rest, hcut⟩
      · exact ih hmore

theorem isCut_of_scan
    {text : String} {tokens : List Token} {stop : Position}
    (h : scan text = .ok (tokens ++ [ending stop])) {t : Token} (ht : t ∈ tokens) : t.IsCut := by
  obtain ⟨ts, last, stop', hscans, -, hts⟩ := exists_scans_of_scan h
  obtain ⟨rfl, -⟩ := List.append_inj' hts rfl
  exact hscans.isCut ht

/-- Behind a gap and in front of a blank, a comment or the end, a token is taken again. -/
theorem IsCut.step
    {t : Token} (h : t.IsCut) {gap other : List Char} (hgap : Gap gap) (hother : Apart other)
    (p : Position) :
    ∃ u next, (Cursor.mk p (gap ++ t.lexeme.toList ++ other)).step = .token u next ∧
      u.spelling = t.spelling ∧ next.rest = other := by
  obtain ⟨c, cs, rest, hcut⟩ := h
  have hcomplete : Complete other t.kind t.lexeme.toList :=
    (complete_of_cut hcut).of_apart List.nil_prefix hother
  refine ⟨⟨t.kind, t.lexeme, p.advance gap⟩,
    ⟨(p.advance gap).advance t.lexeme.toList, other⟩, ?_, rfl, rfl⟩
  exact Cursor.step_token_iff.mpr ⟨gap, other, hgap, by simp, hcomplete, rfl, rfl⟩

theorem Cursor.tokens_of_token
    {s next : Cursor} {t : Token} {ts : List Token} (hstep : s.step = .token t next)
    (htokens : next.tokens = .ok ts) : s.tokens = .ok (t :: ts) := by
  simp only [Cursor.tokens_eq s, hstep, htokens]
  rfl

theorem Cursor.tokens_of_lastGap
    {last : List Char} (h : LastGap last) (p : Position) :
    (Cursor.mk p last).tokens = .ok [ending (p.advance last)] := by
  rw [Cursor.tokens_eq, Cursor.step_of_lastGap h p]

/-- The lexemes of tokens, each behind its gap, are all found again. -/
theorem exists_tokens_weave
    {ts : List Token} (hts : ∀ t ∈ ts, t.IsCut) {gaps : List (List Char)}
    (hlength : gaps.length = ts.length) (hgaps : ∀ gap ∈ gaps, Gap gap)
    (hbetween : ∀ gap ∈ gaps.tail, gap ≠ []) {last : List Char} (hlast : LastGap last)
    (p : Position) :
    ∃ us stop, (Cursor.mk p (weave gaps ts ++ last)).tokens = .ok (us ++ [ending stop]) ∧
      us.map spelling = ts.map spelling := by
  induction ts generalizing gaps p with
  | nil =>
      have hnothing : weave gaps [] = [] := by simp [weave]
      rw [hnothing]
      exact ⟨[], _, Cursor.tokens_of_lastGap hlast p, rfl⟩
  | cons t ts ih =>
      obtain ⟨gap, gaps, rfl⟩ := List.exists_cons_of_length_eq_add_one hlength
      rw [List.tail_cons] at hbetween
      have happend : weave (gap :: gaps) (t :: ts) ++ last =
          gap ++ t.lexeme.toList ++ (weave gaps ts ++ last) := by
        simp [weave]
      -- what follows a lexeme is the next gap or, behind the last lexeme, the end
      have hother : Apart (weave gaps ts ++ last) := by
        rcases ts with _ | ⟨next, ts⟩
        · simpa [weave] using hlast.apart
        · obtain ⟨gap', gaps, rfl⟩ :=
            List.exists_cons_of_length_eq_add_one (Nat.succ.inj hlength)
          have hgap' := hgaps gap' (by simp)
          simpa [weave] using hgap'.apart (hbetween gap' (by simp)) _
      obtain ⟨u, next, hstep, hspelling, hrest⟩ :=
        (hts t (by simp)).step (hgaps gap (by simp)) hother p
      obtain ⟨us, stop, htokens, hsame⟩ := ih (fun t ht => hts t (List.mem_cons_of_mem _ ht))
        (Nat.succ.inj hlength) (fun gap hgap => hgaps gap (List.mem_cons_of_mem _ hgap))
        (fun gap hgap => hbetween gap (List.mem_of_mem_tail hgap)) next.position
      rw [← hrest] at htokens
      refine ⟨u :: us, stop, ?_, by rw [List.map_cons, List.map_cons, hspelling, hsame]⟩
      rw [happend]
      exact Cursor.tokens_of_token hstep htokens

/-- The text is made of the lexemes of tokens, in order and with blanks or comments between any
two of them; there may be some around them too. -/
def LaysOut (text : String) (ts : List Token) : Prop :=
  ∃ gaps last, gaps.length = ts.length ∧ (∀ gap ∈ gaps, Gap gap) ∧
    (∀ gap ∈ gaps.tail, gap ≠ []) ∧ LastGap last ∧ text.toList = weave gaps ts ++ last

/-- A new layout of the lexemes of a text is scanned to the same kinds and lexemes. -/
theorem scan_of_laysOut
    {text relaid : String} {tokens : List Token} {stop : Position}
    (hscan : scan text = .ok (tokens ++ [ending stop])) (h : LaysOut relaid tokens) :
    ∃ us, scan relaid = .ok us ∧
      us.map spelling = (tokens ++ [ending stop]).map spelling := by
  obtain ⟨gaps, last, hlength, hgaps, hbetween, hlast, htext⟩ := h
  obtain ⟨us, stop', htokens, hsame⟩ :=
    exists_tokens_weave (fun t ht => isCut_of_scan hscan ht) hlength hgaps hbetween hlast .start
  refine ⟨us ++ [ending stop'], ?_, ?_⟩
  · rw [scan, Cursor.ofText, htext]
    exact htokens
  · rw [List.map_append, List.map_append, hsame]
    rfl

end Token
end CaseSuite
