import CaseSuite.Proofs.Grammar.Placeless
import CaseSuite.Report.Basic
import Mathlib

/-!
# The caret under an error

A report ends with the line of its error and a caret below it.  The line is found by searching for
line feeds around a byte offset, while the scanner has counted lines and columns on its way.  Both
ways lead to the same place, since an error stands at a place that follows an initial part of the
text.  The search only cuts the text between two characters, wherever it starts.
-/

namespace CaseSuite

namespace Text

/-! ## Cuts -/

theorem splitAtByte?_eq_some
    {cs before after : List Char} {n : Nat} (h : splitAtByte? n cs = some (before, after)) :
    cs = before ++ after ∧ n = byteLength before := by
  fun_induction splitAtByte? n cs generalizing before with
  | case1 cs =>
      cases h
      exact ⟨rfl, rfl⟩
  | case2 => cases h
  | case3 n c cs hfits ih =>
      obtain ⟨⟨before', after'⟩, hsplit, heq⟩ := Option.map_eq_some_iff.mp h
      cases heq
      obtain ⟨rfl, hlength⟩ := ih hsplit
      refine ⟨rfl, ?_⟩
      rw [byteLength, ← hlength]
      omega
  | case4 => cases h

theorem takeBytes_prefix (n : Nat) (cs : List Char) : takeBytes n cs <+: cs := by
  fun_induction takeBytes n cs with
  | case1 => exact List.prefix_rfl
  | case2 n c cs _ ih => exact (List.prefix_cons_inj c).mpr ih
  | case3 => exact List.nil_prefix

theorem byteLength_takeBytes_le (n : Nat) (cs : List Char) : byteLength (takeBytes n cs) ≤ n := by
  fun_induction takeBytes n cs with
  | case1 => exact Nat.zero_le _
  | case2 n c cs hfits ih =>
      rw [byteLength]
      omega
  | case3 => exact Nat.zero_le _

/-- No longer part of the text fits into as many bytes. -/
theorem byteLength_le_takeBytes
    {cs before after : List Char} {n : Nat} (h : cs = before ++ after)
    (hfits : byteLength before ≤ n) : byteLength before ≤ byteLength (takeBytes n cs) := by
  fun_induction takeBytes n cs generalizing before with
  | case1 =>
      obtain ⟨rfl, -⟩ := List.append_eq_nil_iff.mp h.symm
      exact Nat.le_refl _
  | case2 n c cs _ ih =>
      rcases before with _ | ⟨d, before⟩
      · exact Nat.zero_le _
      · obtain ⟨rfl, rfl⟩ := List.cons_eq_cons.mp h
        rw [byteLength] at hfits
        have hrest := ih rfl (by omega)
        rw [byteLength, byteLength]
        omega
  | case3 n c cs hwide =>
      rcases before with _ | ⟨d, before⟩
      · exact Nat.zero_le _
      · obtain ⟨rfl, rfl⟩ := List.cons_eq_cons.mp h
        rw [byteLength] at hfits
        omega

theorem takeBytes_byteLength (before after : List Char) :
    takeBytes (byteLength before) (before ++ after) = before := by
  induction before with
  | nil =>
      rcases after with _ | ⟨c, cs⟩
      · rfl
      · have hwide : ¬ c.utf8Size ≤ 0 := Nat.not_le.mpr c.utf8Size_pos
        rw [List.nil_append, byteLength, takeBytes, if_neg hwide]
  | cons c cs ih =>
      have hfits : c.utf8Size ≤ c.utf8Size + byteLength cs := Nat.le_add_right _ _
      rw [List.cons_append, byteLength, takeBytes, if_pos hfits, Nat.add_sub_cancel_left, ih]

theorem byteSlice?_initial (before after : List Char) :
    byteSlice? (before ++ after) 0 (byteLength before) = some before := by
  simpa [byteLength] using byteSlice?_middle [] before after

/-- The last cut at or before a byte offset. -/
def lastCut (cs : List Char) : Nat → Nat
  | 0 => 0
  | n + 1 => if (splitAtByte? (n + 1) cs).isSome then n + 1 else lastCut cs n

/-- Stepping back from an offset to a cut leaves out what does not lie wholly before it. -/
theorem lastCut_eq_takeBytes
    {cs : List Char} {offset n : Nat} (hle : n ≤ offset)
    (hge : byteLength (takeBytes offset cs) ≤ n) :
    lastCut cs n = byteLength (takeBytes offset cs) := by
  induction n with
  | zero => exact (Nat.le_zero.mp hge).symm
  | succ n ih =>
      obtain ⟨after, hcs⟩ := takeBytes_prefix offset cs
      rw [lastCut]
      split
      · rename_i hcut
        obtain ⟨⟨before, after'⟩, hsplit⟩ := Option.isSome_iff_exists.mp hcut
        obtain ⟨hwhole, hlength⟩ := splitAtByte?_eq_some hsplit
        have hmost := byteLength_le_takeBytes hwhole (hlength ▸ hle)
        omega
      · rename_i hcut
        have hne : byteLength (takeBytes offset cs) ≠ n + 1 := by
          intro heq
          have hsplit := splitAtByte?_byteLength (takeBytes offset cs) after
          rw [hcs, heq] at hsplit
          exact hcut (by rw [hsplit]; rfl)
        exact ih (by omega) (by omega)

end Text

namespace Report

open Text

/-! ## The line around a cut -/

theorem lineBefore_of_not_mem
    {before : List Char} (h : '\n' ∉ before) : lineBefore before = before := by
  have hall : ∀ c ∈ before.reverse, (c != '\n') = true := by
    intro c hc
    simp only [bne_iff_ne]
    rintro rfl
    exact h (List.mem_reverse.mp hc)
  rw [lineBefore, List.takeWhile_eq_self_iff.mpr hall, List.reverse_reverse]

theorem lineBefore_cons_of_mem
    {before : List Char} (h : '\n' ∈ before) (c : Char) :
    lineBefore (c :: before) = lineBefore before := by
  have hlong : (before.reverse.takeWhile (· != '\n')).length ≠ before.reverse.length := by
    intro heq
    have hall := List.takeWhile_eq_self_iff.mp
      (( List.takeWhile_prefix _).eq_of_length heq)
    exact absurd (hall '\n' (List.mem_reverse.mpr h)) (by simp)
  rw [lineBefore, lineBefore, List.reverse_cons, List.takeWhile_append, if_neg hlong]

theorem lineBefore_cons_feed (before : List Char) :
    lineBefore ('\n' :: before) = lineBefore before := by
  by_cases h : '\n' ∈ before
  · exact lineBefore_cons_of_mem h '\n'
  · have hplain := lineBefore_of_not_mem h
    rw [lineBefore, List.reverse_eq_iff] at hplain
    rw [lineBefore, lineBefore, List.reverse_cons, List.takeWhile_append, hplain, if_pos rfl]
    simp

theorem head?_splitOn (cs : List Char) :
    (cs.splitOn '\n').head? = some (cs.takeWhile (· != '\n')) := by
  induction cs with
  | nil => rfl
  | cons c cs ih =>
      rw [List.splitOn, List.splitOnP_cons_eq_if_modifyHead]
      rw [List.splitOn] at ih
      by_cases hc : c = '\n'
      · simp [hc]
      · simp [hc, ih]

/-- The line around a cut is the one with as many line feeds before it as the cut. -/
theorem getElem?_splitOn (before after : List Char) :
    ((before ++ after).splitOn '\n')[before.count '\n']? = some (lineAround before after) := by
  induction before with
  | nil =>
      rw [List.count_nil, ← List.head?_eq_getElem?]
      exact head?_splitOn after
  | cons c cs ih =>
      rw [List.splitOn] at ih
      rw [List.splitOn, List.cons_append, List.splitOnP_cons_eq_if_modifyHead,
        lineAround]
      rw [lineAround] at ih
      by_cases hc : c = '\n'
      · subst hc
        rw [List.count_cons_self, lineBefore_cons_feed, if_pos (by simp), List.getElem?_cons_succ]
        exact ih
      · rw [List.count_cons_of_ne hc, if_neg (by simpa using hc), List.getElem?_modifyHead]
        by_cases hmem : '\n' ∈ cs
        · have hpos := List.count_pos_iff.mpr hmem
          rw [lineBefore_cons_of_mem hmem, if_neg (by omega)]
          exact ih
        · have hall : '\n' ∉ c :: cs := by simp [hmem, Ne.symm hc]
          rw [lineBefore_of_not_mem hmem] at ih
          rw [lineBefore_of_not_mem hall, if_pos (List.count_eq_zero.mpr hmem), ih]
          rfl

/-! ## The search for the line -/

/-- The byte offset of the first line feed. -/
def firstFeed? : List Char → Option Nat
  | [] => none
  | c :: cs => if c = '\n' then some 0 else (firstFeed? cs).map (c.utf8Size + ·)

/-- The byte offset of the last line feed. -/
def lastFeed? : List Char → Option Nat
  | [] => none
  | c :: cs =>
      match lastFeed? cs with
      | some n => some (c.utf8Size + n)
      | none => if c = '\n' then some 0 else none

/-- The fragment of a report made of byte slices, each of which may fail: from the last cut at or
before an offset the line is searched for in both directions. -/
def slicedFragment? (source : List Char) (offset : Nat) : Option (List (List Char)) := do
  let size := byteLength source
  let cut := lastCut source (min offset size)
  let before ← byteSlice? source 0 cut
  let after ← byteSlice? source cut size
  let start := (lastFeed? before).elim 0 (· + 1)
  let stop := (firstFeed? after).elim size (cut + ·)
  let indent ← byteSlice? source start cut
  let line ← byteSlice? source start stop
  return ["[Cases Code Fragment]".toList, line, padding indent ++ ['^']]

theorem firstFeed?_elim (after : List Char) (cut : Nat) :
    (firstFeed? after).elim (cut + byteLength after) (cut + ·) =
      cut + byteLength (after.takeWhile (· != '\n')) := by
  induction after generalizing cut with
  | nil => rfl
  | cons c cs ih =>
      rw [firstFeed?]
      by_cases hc : c = '\n'
      · simp [hc, byteLength]
      · have hrest := ih (cut + c.utf8Size)
        rw [if_neg hc, List.takeWhile_cons_of_pos (by simpa using hc), byteLength, byteLength,
          ← Nat.add_assoc, ← Nat.add_assoc, ← hrest]
        rcases firstFeed? cs with _ | n
        · rfl
        · exact (Nat.add_assoc _ _ _).symm

theorem lastFeed?_eq_none {before : List Char} (h : lastFeed? before = none) : '\n' ∉ before := by
  induction before with
  | nil => simp
  | cons c cs ih =>
      rw [lastFeed?] at h
      split at h
      · cases h
      · rename_i hnone
        split at h
        · cases h
        · rename_i hc
          simp [ih hnone, Ne.symm hc]

theorem mem_of_lastFeed? {before : List Char} {n : Nat} (h : lastFeed? before = some n) :
    '\n' ∈ before := by
  induction before generalizing n with
  | nil => cases h
  | cons c cs ih =>
      rw [lastFeed?] at h
      split at h
      · rename_i hsome
        exact List.mem_cons_of_mem c (ih hsome)
      · split at h
        · rename_i hc
          exact hc ▸ List.mem_cons_self
        · cases h

/-- The search backwards ends where the line begins. -/
theorem lastFeed?_elim (before : List Char) :
    ∃ head, before = head ++ lineBefore before ∧
      (lastFeed? before).elim 0 (· + 1) = byteLength head := by
  induction before with
  | nil => exact ⟨[], rfl, rfl⟩
  | cons c cs ih =>
      obtain ⟨head, hcs, hhead⟩ := ih
      rw [lastFeed?]
      rcases hlast : lastFeed? cs with _ | n
      · have hmem := lastFeed?_eq_none hlast
        by_cases hc : c = '\n'
        · subst hc
          refine ⟨['\n'], ?_, rfl⟩
          rw [lineBefore_cons_feed, lineBefore_of_not_mem hmem]
          rfl
        · have hall : '\n' ∉ c :: cs := by simp [hmem, Ne.symm hc]
          refine ⟨[], ?_, ?_⟩
          · rw [lineBefore_of_not_mem hall]
            rfl
          · simp [hc, byteLength]
      · rw [hlast] at hhead
        refine ⟨c :: head, ?_, ?_⟩
        · rw [lineBefore_cons_of_mem (mem_of_lastFeed? hlast), List.cons_append, ← hcs]
        · rw [byteLength, ← hhead]
          exact Nat.add_assoc _ _ _

/-- No slice fails, and the search finds the fragment of the report. -/
theorem slicedFragment?_eq (source : List Char) (offset : Nat) :
    slicedFragment? source offset = some (fragment source offset) := by
  obtain ⟨after, hsource⟩ := takeBytes_prefix offset source
  have hbytes := byteLength_takeBytes_le offset source
  have hcut : lastCut source (min offset (byteLength source)) =
      byteLength (takeBytes offset source) := by
    apply lastCut_eq_takeBytes (Nat.min_le_left _ _)
    refine Nat.le_min.mpr ⟨hbytes, ?_⟩
    nth_rewrite 2 [← hsource]
    rw [byteLength_append]
    exact Nat.le_add_right _ _
  have hdrop : (takeBytes offset source ++ after).drop (takeBytes offset source).length = after :=
    List.drop_left
  rw [hsource] at hdrop
  rw [slicedFragment?, fragment, hcut, hdrop]
  generalize takeBytes offset source = before at hsource ⊢
  subst hsource
  obtain ⟨head, hbefore, hstart⟩ := lastFeed?_elim before
  have hafter? : byteSlice? (before ++ after) (byteLength before)
      (byteLength before + byteLength after) = some after := by
    simpa using byteSlice?_middle before after []
  have hindent? : byteSlice? (before ++ after) (byteLength head) (byteLength before) =
      some (lineBefore before) := by
    have hslice := byteSlice?_middle head (lineBefore before) after
    rwa [← byteLength_append, ← hbefore] at hslice
  have hline? : byteSlice? (before ++ after) (byteLength head)
      (byteLength before + byteLength (after.takeWhile (· != '\n'))) =
        some (lineAround before after) := by
    have hslice := byteSlice?_middle head (lineAround before after) (after.dropWhile (· != '\n'))
    rwa [← byteLength_append, lineAround, ← List.append_assoc head, ← hbefore, List.append_assoc,
      List.takeWhile_append_dropWhile, byteLength_append] at hslice
  simp only [byteSlice?_initial, hafter?, hstart, byteLength_append, firstFeed?_elim, hindent?,
    hline?, bind, Option.bind_some]
  rfl

end Report

/-! ## The place of an error -/

theorem Position.IsIn.follows
    {p : Position} {source : List Char} (h : p.IsIn source) :
    ∃ before after, source = before ++ after ∧ p.Follows before := by
  obtain ⟨before, after, hsplit, hline, hcolumn⟩ := h
  obtain ⟨rfl, hoffset⟩ := Text.splitAtByte?_eq_some hsplit
  exact ⟨before, after, rfl, hoffset, hline, hcolumn⟩

namespace Token

/-- An error of the scanner has an exact place. -/
theorem isIn_of_scan_error
    {text : String} {e : ScanError} (h : scan text = .error e) :
    e.position.IsIn text.toList := by
  obtain ⟨tokens, last, hscans, ⟨stop, -, hok⟩ | ⟨e', hfailed, herror⟩⟩ :=
    (Cursor.ofText text).exists_scans
  · simp [scan, hok] at h
  · rw [scan, herror, Except.error.injEq] at h
    subst h
    obtain ⟨gap, c, cs, hgap, hrest, hposition⟩ := Cursor.step_failed hfailed
    rw [hposition]
    exact (hscans.lossless rfl hgap hrest).1.stop

/-- Every token has an exact place, and so has the end. -/
theorem isIn_of_scans
    {text : String} {tokens : List Token} {last : Cursor} {stop : Position}
    (hscans : Scans (Cursor.ofText text) tokens last) (hending : last.step = .ending stop) :
    (∀ t ∈ tokens, t.position.IsIn text.toList) ∧ stop.IsIn text.toList := by
  obtain ⟨hgap, rfl⟩ := Cursor.step_ending hending
  have hlossless := (hscans.lossless rfl hgap (List.append_nil _).symm).1
  exact ⟨hlossless.positions, hlossless.stop⟩

end Token

/-- A scanned text that is no case file is refused at one of its tokens or at its end. -/
theorem CaseFile.refused_of_parse_error
    {text : String} {ts : List Token} {e : ParseError} (hscan : Token.scan text = .ok ts)
    (hparse : parse ts = .error e) :
    ∃ tokens last stop, Token.Scans (Token.Cursor.ofText text) tokens last ∧
      last.step = .ending stop ∧
      ((∃ found ∈ tokens, ∃ expected, e = .unexpected found expected) ∨
        ∃ expected, e = .ended stop expected) := by
  obtain ⟨tokens, last, stop, hscans, hending, rfl⟩ := Token.exists_scans_of_scan hscan
  have hunended : Grammar.Unended tokens := fun t ht => (hscans.whole ht).kind
  refine ⟨tokens, last, stop, hscans, hending, ?_⟩
  obtain ⟨r, hfile, ⟨found, hsome, rfl⟩ | ⟨-, rfl⟩⟩ := Grammar.refusal_of_parse hparse
  · rw [Grammar.body_append_ending hunended] at hfile
    obtain ⟨before, after, rfl, hfound, -, -⟩ :=
      Grammar.file_stops (fun t ht => (hscans.whole ht).value) hfile
    rw [hsome] at hfound
    obtain ⟨after, rfl⟩ := List.head?_eq_some_iff.mp hfound.symm
    exact Or.inl ⟨found, by simp, r.expected, rfl⟩
  · rw [Grammar.endOf_append_ending hunended]
    exact Or.inr ⟨r.expected, rfl⟩

namespace CompileError

/-- An error comes from the scanner, from the parser, or has no place. -/
theorem origin
    {text : String} {e : CompileError} (h : compile text = .error e) :
    (∃ e', e = .scan e' ∧ Token.scan text = .error e') ∨
      (∃ ts e', e = .parse e' ∧ Token.scan text = .ok ts ∧ CaseFile.parse ts = .error e') ∨
      e.position? = none := by
  rcases hscan : Token.scan text with e' | ts
  · have hcompile : compile text = .error (.scan e') := by
      simp only [compile, Suite.ofText, CaseFile.ofText, hscan]
    exact Or.inl ⟨e', Except.error.inj (h.symm.trans hcompile), rfl⟩
  · right
    rw [compile_of_scan hscan, compileTokens] at h
    split at h
    · rename_i e' hparse
      exact Or.inl ⟨ts, e', (Except.error.inj h).symm, rfl, hparse⟩
    · right
      split at h
      · obtain rfl := Except.error.inj h
        rfl
      · rename_i suite _
        rcases hlisting : suite.program.listing with e' | listing
        · rw [hlisting] at h
          obtain rfl := Except.error.inj h
          rfl
        · rw [hlisting] at h
          cases h

/-- The place of an error is exact. -/
theorem position_isIn
    {text : String} {e : CompileError} {p : Position} (herror : compile text = .error e)
    (hplace : e.position? = some p) : p.IsIn text.toList := by
  rcases origin herror with ⟨e', rfl, hscan⟩ | ⟨ts, e', rfl, hscan, hparse⟩ | hnone
  · obtain rfl : e'.position = p := Option.some.inj hplace
    exact Token.isIn_of_scan_error hscan
  · obtain rfl : e'.position = p := Option.some.inj hplace
    obtain ⟨tokens, last, stop, hscans, hending, hrefused⟩ :=
      CaseFile.refused_of_parse_error hscan hparse
    obtain ⟨htokens, hstop⟩ := Token.isIn_of_scans hscans hending
    rcases hrefused with ⟨found, hmem, expected, rfl⟩ | ⟨expected, rfl⟩
    · exact htokens found hmem
    · exact hstop
  · rw [hnone] at hplace
    cases hplace

end CompileError

/-! ## The end of a report -/

namespace Report

/-- The last rows of a report for an error at a place: a heading, the line of the place, and a caret
below its column with the tabs of the line before it. -/
def Shows (rows : List (List Char)) (p : Position) (source : List Char) : Prop :=
  ∃ row column line, p.line = row + 1 ∧ p.column = column + 1 ∧
    (source.splitOn '\n')[row]? = some line ∧ column ≤ line.length ∧
    rows = ["[Cases Code Fragment]".toList, line, padding (line.take column) ++ ['^']]

theorem fragment_shows
    {p : Position} {source : List Char} (h : p.IsIn source) :
    Shows (fragment source p.offset) p source := by
  obtain ⟨before, after, rfl, hplace⟩ := h.follows
  have hline : lineAround before after =
      lineBefore before ++ after.takeWhile (· != '\n') := rfl
  refine ⟨before.count '\n', (lineBefore before).length, lineAround before after, ?_, ?_,
    getElem?_splitOn before after, ?_, ?_⟩
  · rw [hplace.line, Nat.add_comm]
  · rw [hplace.column, Nat.add_comm, lineBefore, List.length_reverse]
  · rw [hline, List.length_append]
    exact Nat.le_add_right _ _
  · rw [fragment, hplace.offset, Text.takeBytes_byteLength, List.drop_left, hline, List.take_left]

end Report

/-- The characters before an error, counted in a byte slice that may fail. -/
def CompileError.slicedStart? (e : CompileError) (source : List Char) : Option Nat :=
  match e.position? with
  | some p => (Text.byteSlice? source 0 (min p.offset (Text.byteLength source))).map List.length
  | none => some 0

theorem CompileError.slicedStart?_eq
    {e : CompileError} {p : Position} {source : List Char} (hplace : e.position? = some p)
    (h : p.IsIn source) : e.slicedStart? source = some (e.start source) := by
  obtain ⟨before, after, rfl, hfollows⟩ := h.follows
  have hmin : min (Text.byteLength before) (Text.byteLength (before ++ after)) =
      Text.byteLength before := by
    rw [Text.byteLength_append]
    omega
  simp only [slicedStart?, start, hplace, hfollows.offset, hmin, Text.byteSlice?_initial,
    Option.map_some, Text.takeBytes_byteLength]

/-- A report of an error in a text ends with the line of its place and a caret below its column.
No slice of the text that is made for it fails, neither for the excerpt nor for the caret. -/
theorem report_shows_place
    {text : String} {e : CompileError} {p : Position} (herror : compile text = .error e)
    (hplace : e.position? = some p) :
    ∃ fragment, Report.Shows fragment p text.toList ∧
      Report.slicedFragment? text.toList p.offset = some fragment ∧
      e.slicedStart? text.toList = some (e.start text.toList) ∧
      ∀ filename, ∃ rows, e.report text filename = Report.unlines (rows ++ fragment) := by
  have hin := CompileError.position_isIn herror hplace
  refine ⟨Report.fragment text.toList p.offset, Report.fragment_shows hin,
    Report.slicedFragment?_eq text.toList p.offset, CompileError.slicedStart?_eq hplace hin, ?_⟩
  intro filename
  rw [CompileError.report]
  simp only [hplace]
  exact ⟨_, rfl⟩

theorem report_shows_place_at_ends :
    (∃ rows, (CompileError.scan (.unexpected '@' ⟨2, 4, 7⟩)).report "#é\n\t \t@" "cases.tc" =
      Report.unlines (rows ++
        ["[Cases Code Fragment]".toList, ['\t', ' ', '\t', '@'], ['\t', ' ', '\t', '^']])) ∧
    (∃ rows, (CompileError.parse (.ended ⟨2, 1, 7⟩ (.token .leftBrace))).report "Config\n" "" =
      Report.unlines (rows ++ ["[Cases Code Fragment]".toList, [], ['^']])) ∧
    ∃ rows, (CompileError.parse (.ended ⟨1, 1, 0⟩ (.token (.keyword .config)))).report "" "" =
      Report.unlines (rows ++ ["[Cases Code Fragment]".toList, [], ['^']]) := by
  have htabs : compile "#é\n\t \t@" = .error (.scan (.unexpected '@' ⟨2, 4, 7⟩)) := by cbv
  have hfeed : compile "Config\n" = .error (.parse (.ended ⟨2, 1, 7⟩ (.token .leftBrace))) := by
    cbv
  have hempty : compile "" = .error (.parse (.ended ⟨1, 1, 0⟩ (.token (.keyword .config)))) := by
    cbv
  obtain ⟨_, -, htabs', -, hrows⟩ := report_shows_place htabs rfl
  obtain ⟨_, -, hfeed', -, hrows'⟩ := report_shows_place hfeed rfl
  obtain ⟨_, -, hempty', -, hrows''⟩ := report_shows_place hempty rfl
  cases htabs'
  cases hfeed'
  cases hempty'
  exact ⟨hrows "cases.tc", hrows' "", hrows'' ""⟩

end CaseSuite
