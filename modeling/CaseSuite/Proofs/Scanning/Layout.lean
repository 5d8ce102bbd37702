import CaseSuite.Proofs.Scanning.Steps
import Mathlib

/-!
# The layout of a text

Scanning loses nothing.  The lexemes are slices of the text at the byte offsets of their tokens, in
order and without overlap, and what lies between them are gaps.  Lines and columns are those of the
same places, counted in line feeds and in characters.  The same holds of a text that cannot be
scanned, up to the place of the error.
-/

namespace CaseSuite

/-! ## Exact positions -/

namespace Position

/-- The position is the place right after a text. -/
structure Follows (p : Position) (before : List Char) : Prop where
  offset : p.offset = Text.byteLength before
  line : p.line = 1 + before.count '\n'
  column : p.column = 1 + (before.reverse.takeWhile (· != '\n')).length

theorem follows_start : start.Follows [] :=
  ⟨rfl, rfl, rfl⟩

theorem Follows.next
    {p : Position} {before : List Char} (h : p.Follows before) (c : Char) :
    (p.next c).Follows (before ++ [c]) := by
  have hoffset : p.offset + c.utf8Size = Text.byteLength (before ++ [c]) := by
    rw [Text.byteLength_append, h.offset]
    rfl
  by_cases hfeed : c = '\n'
  · rw [Position.next, if_pos hfeed]
    refine ⟨hoffset, ?_, ?_⟩
    · simp [h.line, hfeed, Nat.add_assoc]
    · simp [hfeed]
  · rw [Position.next, if_neg hfeed]
    refine ⟨hoffset, ?_, ?_⟩
    · simp [h.line, hfeed]
    · simp [h.column, hfeed]
      omega

theorem Follows.advance
    {p : Position} {before : List Char} (h : p.Follows before) (cs : List Char) :
    (p.advance cs).Follows (before ++ cs) := by
  induction cs generalizing p before with
  | nil => simpa [Position.advance] using h
  | cons c cs ih =>
      have hrest := ih (h.next c)
      rw [List.append_assoc, List.singleton_append] at hrest
      exact hrest

/-- The position tells the line and the column of the place at its byte offset in a text. -/
def IsIn (p : Position) (source : List Char) : Prop :=
  ∃ before after, Text.splitAtByte? p.offset source = some (before, after) ∧
    p.line = 1 + before.count '\n' ∧
    p.column = 1 + (before.reverse.takeWhile (· != '\n')).length

theorem Follows.isIn
    {p : Position} {before : List Char} (h : p.Follows before) (after : List Char) :
    p.IsIn (before ++ after) := by
  refine ⟨before, after, ?_, h.line, h.column⟩
  rw [h.offset]
  exact Text.splitAtByte?_byteLength before after

end Position

namespace Token

/-! ## Tokens and gaps in a text -/

/-- The texts between one place and the next token, between tokens, and up to a last place. -/
def gapsOf (source : List Char) (last : Nat) : Nat → List Token → Option (List (List Char))
  | first, [] => (Text.byteSlice? source first last).map fun gap => [gap]
  | first, t :: ts => do
      let gap ← Text.byteSlice? source first t.position.offset
      let gaps ← gapsOf source last t.after.offset ts
      return gap :: gaps

/-- Gaps and lexemes in turn. -/
def weave (gaps : List (List Char)) (ts : List Token) : List Char :=
  (gaps.zip ts).flatMap fun (gap, t) => gap ++ t.lexeme.toList

/-- Tokens, the gaps around them up to a place, and what is left of a text make up the whole text,
and all places are exact. -/
structure Lossless (source : List Char) (ts : List Token) (stop : Position)
    (Last : List Char → Prop) (rest : List Char) : Prop where
  lexemes : ∀ t ∈ ts, t.lexeme ≠ "" ∧
    Text.byteSlice? source t.position.offset t.after.offset = some t.lexeme.toList
  ordered : ts.Pairwise fun t u =>
    t.position.offset < u.position.offset ∧ t.after.offset ≤ u.position.offset
  gaps : ∃ gaps last, gapsOf source stop.offset 0 ts = some (gaps ++ [last]) ∧
    (∀ gap ∈ gaps, Gap gap) ∧ Last last ∧ weave gaps ts ++ last ++ rest = source
  positions : ∀ t ∈ ts, t.position.IsIn source
  stop : stop.IsIn source

/-- Tokens stand one after the other behind a text, each after a gap, and reach up to the end of a
longer text. -/
inductive Laid : List Char → List Token → List Char → Prop
  | nil (before : List Char) : Laid before [] before
  | cons {before gap after : List Char} {t : Token} {ts : List Token}
      (between : Gap gap) (nonempty : t.lexeme ≠ "") (place : t.position.Follows (before ++ gap))
      (more : Laid (before ++ gap ++ t.lexeme.toList) ts after) : Laid before (t :: ts) after

/-- A run of the scanner lays its tokens out. -/
theorem Scans.laid
    {s last : Cursor} {ts : List Token} (h : Scans s ts last) {before : List Char}
    (hplace : s.position.Follows before) :
    ∃ after, Laid before ts after ∧ last.position.Follows after ∧
      before ++ s.rest = after ++ last.rest := by
  induction h generalizing before with
  | rest s => exact ⟨before, Laid.nil before, hplace, rfl⟩
  | @take s next last t ts hstep _ ih =>
      obtain ⟨gap, c, cs, rest, hgap, hrest, hcut, hposition, rfl⟩ := Cursor.step_token hstep
      have htoken : t.position.Follows (before ++ gap) := hposition ▸ hplace.advance gap
      obtain ⟨after, hlaid, hlast, hwhole⟩ := ih (htoken.advance t.lexeme.toList)
      have hnonempty : t.lexeme ≠ "" := by
        intro hempty
        exact cut_lexeme_ne_nil hcut (by simp [hempty])
      refine ⟨after, Laid.cons hgap hnonempty htoken hlaid, hlast, ?_⟩
      rw [← hwhole, hrest, ← cut_append hcut]
      simp

namespace Laid

variable {before after : List Char} {ts : List Token}

theorem isPrefix (h : Laid before ts after) : before <+: after := by
  induction h with
  | nil before => exact List.prefix_rfl
  | cons _ _ _ _ ih =>
      rw [List.append_assoc] at ih
      exact (List.prefix_append _ _).trans ih

/-- The byte offset behind a token is the length of the text up to its last character. -/
theorem after_offset
    {t : Token} {start : List Char} (h : t.position.Follows start) :
    t.after.offset = Text.byteLength (start ++ t.lexeme.toList) := by
  rw [Token.after, h.offset, Text.byteLength_append, Text.byteLength_toList]

theorem byteLength_le_of_prefix
    {cs ds : List Char} (h : cs <+: ds) : Text.byteLength cs ≤ Text.byteLength ds := by
  obtain ⟨rest, rfl⟩ := h
  rw [Text.byteLength_append]
  exact Nat.le_add_right _ _

/-- Each token begins where its lexeme stands in the text, and lies between the two ends. -/
theorem placed
    (h : Laid before ts after) {t : Token} (ht : t ∈ ts) (rest : List Char) :
    t.lexeme ≠ "" ∧
      Text.byteSlice? (after ++ rest) t.position.offset t.after.offset = some t.lexeme.toList ∧
      t.position.IsIn (after ++ rest) ∧ Text.byteLength before ≤ t.position.offset := by
  induction h with
  | nil before => cases ht
  | @cons before gap after first ts _ nonempty place more ih =>
      rcases List.mem_cons.mp ht with rfl | hmore
      · obtain ⟨more', rfl⟩ := more.isPrefix
        have hslice := Text.byteSlice?_middle (before ++ gap) t.lexeme.toList (more' ++ rest)
        have hoffset := after_offset place
        rw [Text.byteLength_append] at hoffset
        refine ⟨nonempty, ?_, ?_, ?_⟩
        · rw [hoffset, place.offset]
          simpa using hslice
        · have hin := place.isIn (t.lexeme.toList ++ (more' ++ rest))
          simpa using hin
        · rw [place.offset, Text.byteLength_append]
          exact Nat.le_add_right _ _
      · obtain ⟨hne, hslice, hin, hle⟩ := ih hmore
        refine ⟨hne, hslice, hin, Nat.le_trans ?_ hle⟩
        rw [List.append_assoc]
        exact byteLength_le_of_prefix (List.prefix_append _ _)

theorem ordered (h : Laid before ts after) :
    ts.Pairwise fun t u =>
      t.position.offset < u.position.offset ∧ t.after.offset ≤ u.position.offset := by
  induction h with
  | nil before => exact List.Pairwise.nil
  | @cons before gap after first ts _ nonempty place more ih =>
      refine List.pairwise_cons.mpr ⟨?_, ih⟩
      intro u hu
      have hle := (more.placed hu []).2.2.2
      rw [← after_offset place] at hle
      have hsize : first.lexeme.utf8ByteSize ≠ 0 := by
        simpa using nonempty
      have hwidth : first.after.offset = first.position.offset + first.lexeme.utf8ByteSize := rfl
      exact ⟨by omega, hle⟩

/-- The gaps are the slices between the tokens, and with the lexemes they make up the text. -/
theorem exists_gaps
    (h : Laid before ts after) (last rest : List Char) :
    ∃ gaps, gapsOf (after ++ last ++ rest) (Text.byteLength (after ++ last))
        (Text.byteLength before) ts = some (gaps ++ [last]) ∧
      (∀ gap ∈ gaps, Gap gap) ∧ before ++ weave gaps ts = after := by
  induction h with
  | nil before =>
      have hslice := Text.byteSlice?_middle before last rest
      rw [← Text.byteLength_append] at hslice
      exact ⟨[], by rw [gapsOf, hslice]; rfl, by simp, by simp [weave]⟩
  | @cons before gap after first ts between _ place more ih =>
      obtain ⟨gaps, hgaps, hall, hweave⟩ := ih
      refine ⟨gap :: gaps, ?_, ?_, ?_⟩
      · obtain ⟨more', rfl⟩ := more.isPrefix
        have hslice := Text.byteSlice?_middle before gap
          (first.lexeme.toList ++ more' ++ last ++ rest)
        rw [← Text.byteLength_append, ← place.offset] at hslice
        rw [← after_offset place] at hgaps
        simp only [List.append_assoc] at hslice hgaps ⊢
        rw [gapsOf, hslice]
        simp only [bind, Option.bind_some, hgaps]
        rfl
      · simpa using ⟨between, hall⟩
      · rw [← hweave]
        simp [weave]

end Laid

/-- What a run of the scanner has read, with the gap behind it, is lossless. -/
theorem Scans.lossless
    {s last : Cursor} {ts : List Token} (h : Scans s ts last) (hstart : s.position = .start)
    {Last : List Char → Prop} {gap rest : List Char} (hlast : Last gap)
    (hrest : last.rest = gap ++ rest) :
    Lossless s.rest ts (last.position.advance gap) Last rest ∧
      (last.position.advance gap).offset + Text.byteLength rest = Text.byteLength s.rest := by
  have hfollows : s.position.Follows [] := hstart ▸ Position.follows_start
  obtain ⟨after, hlaid, hplace, hwhole⟩ := h.laid hfollows
  rw [List.nil_append, hrest] at hwhole
  have hstop := hplace.advance gap
  obtain ⟨gaps, hgaps, hall, hweave⟩ := hlaid.exists_gaps gap rest
  rw [← hstop.offset] at hgaps
  rw [hwhole, ← List.append_assoc]
  refine ⟨⟨?_, hlaid.ordered, ?_, ?_, hstop.isIn rest⟩, ?_⟩
  · intro t ht
    obtain ⟨hne, hslice, -, -⟩ := hlaid.placed ht (gap ++ rest)
    rw [← List.append_assoc] at hslice
    exact ⟨hne, hslice⟩
  · refine ⟨gaps, gap, hgaps, hall, hlast, ?_⟩
    rw [← hweave, List.nil_append]
  · intro t ht
    obtain ⟨-, -, hin, -⟩ := hlaid.placed ht (gap ++ rest)
    rwa [← List.append_assoc] at hin
  · rw [hstop.offset, ← Text.byteLength_append]

/--
Scanning is lossless and its positions are exact.  A text that can be scanned is its lexemes and the
gaps between them, and the mark of the end stands behind its last byte.  Of a text that cannot be
scanned the same holds up to the place of the error, for the tokens that are handed out before it.
-/
theorem scan_is_lossless (text : String) :
    (∀ ts, scan text = .ok ts → ∃ tokens stop, ts = tokens ++ [ending stop] ∧
      stop.offset = text.utf8ByteSize ∧ Lossless text.toList tokens stop LastGap []) ∧
    ∀ e, scan text = .error e → ∃ tokens rest,
      (Stream.ofText text).items.1 = tokens.map .ok ++ [.error e] ∧
      Lossless text.toList tokens e.position Gap rest := by
  obtain ⟨tokens, last, hscans, hend⟩ := (Cursor.ofText text).exists_scans
  constructor
  · intro ts hts
    rcases hend with ⟨stop, hending, hok⟩ | ⟨e, -, herror⟩
    · obtain ⟨hgap, rfl⟩ := Cursor.step_ending hending
      have hrest : last.rest = last.rest ++ [] := (List.append_nil _).symm
      obtain ⟨hlossless, hoffset⟩ := hscans.lossless rfl hgap hrest
      rw [scan, hok, Except.ok.injEq] at hts
      refine ⟨tokens, _, hts.symm, ?_, hlossless⟩
      rw [← Text.byteLength_toList]
      exact hoffset
    · simp [scan, herror] at hts
  · intro e he
    rcases hend with ⟨stop, -, hok⟩ | ⟨e', hfailed, herror⟩
    · simp [scan, hok] at he
    · rw [scan, herror, Except.error.injEq] at he
      subst he
      obtain ⟨gap, c, cs, hgap, hrest, hposition⟩ := Cursor.step_failed hfailed
      refine ⟨tokens, c :: cs, ?_, ?_⟩
      · rw [Stream.ofText, hscans.items, Stream.items_failed hfailed]
      · rw [hposition]
        exact (hscans.lossless rfl hgap hrest).1

/-- A comment, a raw string over two lines and letters of two bytes. -/
def accented : String :=
  "# é\nx = \x22\x22\x22a\nü\x22\x22\x22 ;#end"

def accentedTokens : List Token :=
  [⟨.name, "x", ⟨2, 1, 5⟩⟩, ⟨.equals, "=", ⟨2, 3, 7⟩⟩,
    ⟨.rawString, "\x22\x22\x22a\nü\x22\x22\x22", ⟨2, 5, 9⟩⟩, ⟨.semicolon, ";", ⟨3, 6, 20⟩⟩]

theorem scan_is_lossless_accented :
    scan accented = .ok (accentedTokens ++ [ending ⟨3, 11, 25⟩]) ∧
      Lossless accented.toList accentedTokens ⟨3, 11, 25⟩ LastGap [] ∧
      scan "x\n é ?" = .error (.unexpected 'é' ⟨2, 2, 3⟩) ∧
      ∃ tokens rest, Lossless "x\n é ?".toList tokens ⟨2, 2, 3⟩ Gap rest := by
  have hscan : scan accented = .ok (accentedTokens ++ [ending ⟨3, 11, 25⟩]) := by cbv
  have hfail : scan "x\n é ?" = .error (.unexpected 'é' ⟨2, 2, 3⟩) := by cbv
  obtain ⟨tokens, stop, htokens, -, hlossless⟩ := (scan_is_lossless accented).1 _ hscan
  obtain ⟨hbody, hstop⟩ := List.append_inj' htokens rfl
  obtain rfl : (⟨3, 11, 25⟩ : Position) = stop := by simpa [ending] using hstop
  rw [← hbody] at hlossless
  obtain ⟨before, rest, -, hbefore⟩ := (scan_is_lossless "x\n é ?").2 _ hfail
  exact ⟨hscan, hlossless, hfail, before, rest, hbefore⟩

end Token
end CaseSuite
