import CaseSuite.Proofs.Text.Regions

/-!
# Braces and indentation

Beside where it stands, a reader of generated code keeps the number of open braces; a brace in a
literal does not count.  Code is well nested if the count never falls below zero and comes back to
it, and it is indented by depth if every line that begins outside of literals stands as far to the
right as there are open braces in front of it.

Both are properties of whole texts.  They are proved of texts that are put together line by line:
`Passes` follows the reader through one line, `Laid` through one line after another.
-/

namespace CaseSuite
namespace Text

/-! ## What is asked of a text -/

/-- What a reader of generated code keeps. -/
structure Reader where
  region : Region := .code []
  /-- Opening braces less closing braces so far. -/
  depth : Int := 0
  deriving DecidableEq, Repr

/-- What a character adds to the depth, outside of literals. -/
def braceValue (c : Char) : Int :=
  if c = '\x7b' then 1 else if c = '\x7d' then -1 else 0

namespace Reader

/-- Read one character. -/
def step (s : Reader) (c : Char) : Reader where
  region := s.region.next c
  depth := if s.region.isOutside then s.depth + braceValue c else s.depth

/-- Read a text. -/
def read (s : Reader) (cs : List Char) : Reader := cs.foldl step s

@[simp] theorem read_nil (s : Reader) : s.read [] = s :=
  rfl

@[simp] theorem read_cons (s : Reader) (c : Char) (cs : List Char) :
    s.read (c :: cs) = (s.step c).read cs :=
  rfl

@[simp] theorem read_append (s : Reader) (cs ds : List Char) :
    s.read (cs ++ ds) = (s.read cs).read ds :=
  List.foldl_append

/-- Behind a line feed outside of literals no word is under way. -/
theorem step_feed {s : Reader} (h : s.region.isOutside = true) :
    s.step '\n' = ⟨.code [], s.depth⟩ := by
  have hnext : s.region.next '\n' = .code [] :=
    Region.next_of_isOutside h (by decide) (by decide) (by decide)
  simp [step, h, hnext, braceValue]

/-- Up to no point have more braces been closed than opened. -/
def StaysNonneg (s : Reader) (text : List Char) : Prop :=
  ∀ before, before <+: text → 0 ≤ (s.read before).depth

end Reader

/-- A line of a text, with what stands before it and after it. -/
structure IsLine (text before line after : List Char) : Prop where
  split : text = before ++ line ++ after
  unbroken : '\n' ∉ line
  starts : before = [] ∨ before.getLast? = some '\n'
  ends : after = [] ∨ after.head? = some '\n'

/-- A line is empty, or four blanks for each level stand in front of its first visible character; a
closing brace stands one level to the left of what it closes. -/
def IndentedAt (depth : Int) (line : List Char) : Prop :=
  line = [] ∨ ∃ (levels : Nat) (c : Char) (cs : List Char),
    line = List.replicate (4 * levels) ' ' ++ c :: cs ∧ Token.isSpace c = false ∧
      (levels : Int) = if c = '\x7d' then depth - 1 else depth

/-- Every line that begins outside of literals is indented by the depth at its start. -/
def Reader.Indents (s : Reader) (text : List Char) : Prop :=
  ∀ before line after, IsLine text before line after →
    (s.read before).region.isOutside = true → IndentedAt (s.read before).depth line

/-- The braces outside of literals are balanced, and every literal ends. -/
structure WellNested (text : List Char) : Prop where
  nonneg : Reader.StaysNonneg {} text
  balanced : (Reader.read {} text).depth = 0
  complete : (Reader.read {} text).region.isOutside = true

/-- A line that goes on in a literal is indented if its first part is. -/
theorem IndentedAt.of_append {depth : Int} {line more : List Char}
    (h : IndentedAt depth (line ++ more)) (hmore : more = [] ∨ more.head? = some '\n') :
    IndentedAt depth line := by
  rcases h with hnil | ⟨levels, c, cs, hline, hvisible, hlevels⟩
  · exact Or.inl (List.append_eq_nil_iff.mp hnil).1
  · right
    -- What follows the line begins with a line feed, so it lies behind the first visible character.
    rcases List.append_eq_append_iff.mp hline with ⟨blanks, hblanks, hmoreEq⟩ | ⟨rest, rfl, hrest⟩
    · have hfeed : more.head? = some '\n' := hmore.resolve_left (by simp [hmoreEq])
      rcases blanks with _ | ⟨b, blanks⟩
      · rw [hmoreEq] at hfeed
        obtain rfl : c = '\n' := by simpa using hfeed
        exact absurd hvisible (by decide)
      · rw [hmoreEq] at hfeed
        obtain rfl : b = '\n' := by simpa using hfeed
        have hmem : '\n' ∈ List.replicate (4 * levels) ' ' := by
          rw [hblanks]
          simp
        exact absurd (List.eq_of_mem_replicate hmem) (by decide)
    · rcases rest with _ | ⟨d, rest⟩
      · rw [List.nil_append] at hrest
        rw [← hrest] at hmore
        obtain rfl : c = '\n' := by simpa using hmore
        exact absurd hvisible (by decide)
      · obtain ⟨rfl, -⟩ := List.cons.inj hrest
        exact ⟨levels, c, rest, rfl, hvisible, hlevels⟩

/-! ## Within a line -/

/-- The reader passes through a text, with no negative depth, and with no line feed outside of
literals. -/
inductive Passes : Reader → List Char → Reader → Prop
  | nil {s : Reader} (nonneg : 0 ≤ s.depth) : Passes s [] s
  | cons {s t : Reader} {c : Char} {cs : List Char} (nonneg : 0 ≤ s.depth)
      (feed : c = '\n' → s.region.isOutside = false) (rest : Passes (s.step c) cs t) :
      Passes s (c :: cs) t

namespace Passes

variable {s t u : Reader} {cs ds : List Char}

theorem append (hcs : Passes s cs t) (hds : Passes t ds u) : Passes s (cs ++ ds) u := by
  induction hcs with
  | nil nonneg => exact hds
  | cons nonneg feed rest ih => exact cons nonneg feed (ih hds)

theorem read_eq (h : Passes s cs t) : s.read cs = t := by
  induction h with
  | nil nonneg => rfl
  | cons nonneg feed rest ih => exact ih

theorem nonneg_start (h : Passes s cs t) : 0 ≤ s.depth := by
  cases h with
  | nil nonneg => exact nonneg
  | cons nonneg feed rest => exact nonneg

theorem staysNonneg (h : Passes s cs t) : s.StaysNonneg cs := by
  induction h with
  | nil nonneg =>
      intro before hbefore
      rw [List.prefix_nil.mp hbefore]
      exact nonneg
  | cons nonneg feed rest ih =>
      intro before hbefore
      rcases List.prefix_cons_iff.mp hbefore with rfl | ⟨front, rfl, hfront⟩
      · exact nonneg
      · exact ih front hfront

/-- Where a line feed is read, the reader stands in a literal. -/
theorem inside_of_feed {before after : List Char} (h : Passes s (before ++ '\n' :: after) t) :
    (s.read before).region.isOutside = false := by
  induction before generalizing s with
  | nil =>
      cases h with
      | cons nonneg feed rest => exact feed rfl
  | cons c before ih =>
      cases h with
      | cons nonneg feed rest => exact ih rest

/-- Text without braces and line feeds. -/
theorem of_plain (hs : 0 ≤ s.depth) (h : ∀ c ∈ cs, braceValue c = 0 ∧ c ≠ '\n') :
    Passes s cs ⟨s.region.read cs, s.depth⟩ := by
  induction cs generalizing s with
  | nil => exact nil hs
  | cons c cs ih =>
      rw [List.forall_mem_cons] at h
      have hstep : s.step c = ⟨s.region.next c, s.depth⟩ := by simp [Reader.step, h.1]
      apply cons hs (fun hfeed => absurd hfeed h.1.2)
      rw [hstep]
      exact ih hs h.2

/-- Text that lies in a literal. -/
theorem of_inside (hs : 0 ≤ s.depth) (h : s.region.Inside cs) :
    Passes s cs ⟨s.region.read cs, s.depth⟩ := by
  induction cs generalizing s with
  | nil => exact nil hs
  | cons c cs ih =>
      have hstep : s.step c = ⟨s.region.next c, s.depth⟩ := by simp [Reader.step, h.1]
      apply cons hs (fun _ => h.1)
      rw [hstep]
      exact ih hs h.2

theorem openBrace (houtside : s.region.isOutside = true) (hs : 0 ≤ s.depth) :
    Passes s ['\x7b'] ⟨.code [], s.depth + 1⟩ := by
  have hnext : s.region.next '\x7b' = .code [] :=
    Region.next_of_isOutside houtside (by decide) (by decide) (by decide)
  have hstep : s.step '\x7b' = ⟨.code [], s.depth + 1⟩ := by
    simp [Reader.step, houtside, hnext, braceValue]
  apply cons hs (fun hfeed => absurd hfeed (by decide))
  rw [hstep]
  exact nil (Int.add_nonneg hs (by decide))

theorem closeBrace (houtside : s.region.isOutside = true) (hs : 1 ≤ s.depth) :
    Passes s ['\x7d'] ⟨.code [], s.depth - 1⟩ := by
  have hnext : s.region.next '\x7d' = .code [] :=
    Region.next_of_isOutside houtside (by decide) (by decide) (by decide)
  have hstep : s.step '\x7d' = ⟨.code [], s.depth - 1⟩ := by
    simp [Reader.step, houtside, hnext, braceValue, Int.sub_eq_add_neg]
  apply cons (by omega) (fun hfeed => absurd hfeed (by decide))
  rw [hstep]
  exact nil (Int.sub_nonneg_of_le hs)

theorem blanks {depth : Int} (h : 0 ≤ depth) (n : Nat) :
    Passes ⟨.code [], depth⟩ (List.replicate n ' ') ⟨.code [], depth⟩ := by
  have hread : (Region.code []).read (List.replicate n ' ') = .code [] := by
    induction n with
    | zero => rfl
    | succ n ih => exact ih
  have hplain : ∀ c ∈ List.replicate n ' ', braceValue c = 0 ∧ c ≠ '\n' := by
    intro c hc
    rw [List.eq_of_mem_replicate hc]
    decide
  have hpasses := of_plain (s := ⟨.code [], depth⟩) h hplain
  rwa [hread] at hpasses

/-- The reader comes out of a quoted literal at the depth at which it went in. -/
theorem literal {depth : Int} (h : 0 ≤ depth) (text : String) :
    Passes ⟨.code [], depth⟩ (literal text).toList ⟨.code [], depth⟩ := by
  obtain ⟨hinside, hread⟩ := Region.quoted_body isHidden text.toList
  have hopening : Passes ⟨.code [], depth⟩ [doubleQuote] ⟨.quoted, depth⟩ :=
    of_plain h (by simp [braceValue, doubleQuote])
  have hbody := of_inside (s := ⟨.quoted, depth⟩) h hinside
  rw [hread] at hbody
  rw [Text.literal, String.toList_ofList]
  exact hopening.append hbody

/-- The reader comes out of a raw literal at the depth at which it went in. -/
theorem rawLiteral {depth : Int} (h : 0 ≤ depth) (text : String) :
    Passes ⟨.code [], depth⟩ (rawLiteral text).toList ⟨.code [], depth⟩ := by
  obtain ⟨hashes, hfence⟩ := exists_fence_eq_succ text.toList
  have habsent : ¬ fenceEnd (hashes + 1) <:+: text.toList := by
    rw [← hfence]
    exact not_contained_fenceFrom text.toList 1
  have hopening : Passes ⟨.code [], depth⟩ ('r' :: List.replicate (hashes + 1) '#' ++ [doubleQuote])
      ⟨.raw (hashes + 1) [], depth⟩ := by
    rw [← Region.code_fence]
    apply of_plain h
    simp [braceValue, doubleQuote]
  obtain ⟨hinside, hread⟩ := Region.raw_literal habsent
  have hbody := of_inside (s := ⟨.raw (hashes + 1) [], depth⟩) h hinside
  rw [hread] at hbody
  have hall := hopening.append hbody
  rw [rawLiteral_toList, hfence]
  simpa using hall

end Passes

/-! ## Line after line -/

/-- The reader goes through lines, each of them indented by the depth at its start. -/
inductive Laid : Reader → List Char → Reader → Prop
  | nil {s : Reader} (nonneg : 0 ≤ s.depth) : Laid s [] s
  | line {s m t : Reader} {line cs : List Char} (passes : Passes s line m)
      (outside : m.region.isOutside = true) (indented : IndentedAt s.depth line)
      (rest : Laid (m.step '\n') cs t) : Laid s (line ++ '\n' :: cs) t

namespace Laid

variable {s t u : Reader} {text more : List Char}

theorem append (h : Laid s text t) (hmore : Laid t more u) : Laid s (text ++ more) u := by
  induction h with
  | nil nonneg => exact hmore
  | line passes outside indented rest ih =>
      rw [List.append_assoc]
      exact line passes outside indented (ih hmore)

theorem read_eq (h : Laid s text t) : s.read text = t := by
  induction h with
  | nil nonneg => rfl
  | line passes outside indented rest ih =>
      rw [Reader.read_append, passes.read_eq]
      exact ih

theorem staysNonneg (h : Laid s text t) : s.StaysNonneg text := by
  induction h with
  | nil nonneg =>
      intro before hbefore
      rw [List.prefix_nil.mp hbefore]
      exact nonneg
  | @line s m t line cs passes outside indented rest ih =>
      intro before hbefore
      rcases List.prefix_or_prefix_of_prefix hbefore (List.prefix_append line _) with
        hwithin | ⟨behind, rfl⟩
      · exact passes.staysNonneg before hwithin
      · rw [List.prefix_append_right_inj, List.prefix_cons_iff] at hbefore
        rcases hbefore with rfl | ⟨front, rfl, hfront⟩
        · exact passes.staysNonneg _ (by simp)
        · rw [Reader.read_append, passes.read_eq]
          exact ih front hfront

/-- The first line of a text that begins with a line, maybe only a part of that line. -/
theorem indentedAt_first {depth : Int} {whole line cs after : List Char}
    (h : IndentedAt depth whole) (hfirst : IsLine (whole ++ '\n' :: cs) [] line after) :
    IndentedAt depth line := by
  have hsplit : whole ++ '\n' :: cs = line ++ after := hfirst.split
  rcases List.append_eq_append_iff.mp hsplit with ⟨extra, rfl, hextra⟩ | ⟨part, rfl, hpart⟩
  · -- A line holds no line feed, so it does not reach beyond the end of the whole line.
    rcases extra with _ | ⟨c, extra⟩
    · simpa using h
    · obtain ⟨rfl, -⟩ := List.cons.inj hextra
      exact absurd hfirst.unbroken (by simp)
  · apply h.of_append
    rcases part with _ | ⟨c, part⟩
    · exact Or.inl rfl
    · right
      simpa [hpart] using hfirst.ends

/-- What begins behind a line feed begins in a literal or behind the end of the first line. -/
theorem split_behind {s m : Reader} {line before cs ds : List Char} (passes : Passes s line m)
    (hsplit : line ++ '\n' :: cs = before ++ '\n' :: ds)
    (houtside : (s.read (before ++ ['\n'])).region.isOutside = true) :
    ∃ between, before ++ ['\n'] = line ++ '\n' :: between ∧ cs = between ++ ds ∧
      (between = [] ∨ between.getLast? = some '\n') := by
  rcases List.append_eq_append_iff.mp hsplit with ⟨extra, rfl, hextra⟩ | ⟨part, rfl, hpart⟩
  · rcases extra with _ | ⟨c, extra⟩
    · obtain ⟨-, rfl⟩ := List.cons.inj hextra
      exact ⟨[], by simp, rfl, Or.inl rfl⟩
    · obtain ⟨rfl, rfl⟩ := List.cons.inj hextra
      exact ⟨extra ++ ['\n'], by simp, by simp, Or.inr (by simp)⟩
  · rcases part with _ | ⟨c, part⟩
    · obtain ⟨-, rfl⟩ := List.cons.inj hpart
      exact ⟨[], by simp, rfl, Or.inl rfl⟩
    · obtain ⟨rfl, -⟩ := List.cons.inj hpart
      have hinside := Region.not_isOutside_next_feed passes.inside_of_feed
      rw [Reader.read_append] at houtside
      exact absurd houtside (by simpa [Reader.step] using hinside)

theorem indents (h : Laid s text t) : s.Indents text := by
  induction h with
  | nil nonneg =>
      intro before line after hline houtside
      obtain ⟨-, hnil, -⟩ : before = [] ∧ line = [] ∧ after = [] := by simpa using hline.split
      exact Or.inl hnil
  | @line s m t whole cs passes outside indented rest ih =>
      intro before line after hline houtside
      rcases hline.starts with rfl | hlast
      · exact indentedAt_first indented hline
      · obtain ⟨front, rfl⟩ := List.getLast?_eq_some_iff.mp hlast
        have hsplit : whole ++ '\n' :: cs = front ++ '\n' :: (line ++ after) := by
          simpa using hline.split
        obtain ⟨between, hbetween, hcs, hstarts⟩ := split_behind passes hsplit houtside
        have hread : s.read (front ++ ['\n']) = (m.step '\n').read between := by
          rw [hbetween, Reader.read_append, passes.read_eq]
          rfl
        rw [hread] at houtside ⊢
        exact ih between line after ⟨by simp [hcs], hline.unbroken, hstarts, hline.ends⟩ houtside

/-- Lines that bring the reader back to where it began are nested and indented well. -/
theorem wellNested (h : Laid {} text {}) : WellNested text where
  nonneg := h.staysNonneg
  balanced := by rw [h.read_eq]
  complete := by
    rw [h.read_eq]
    rfl

end Laid

/-! ## The parts of a line -/

/-- A character that neither counts nor ends a line nor begins a literal. -/
def isInert (c : Char) : Bool := c ∉ [doubleQuote, '\x7b', '\x7d', '\n']

/-- An inert character behind which a quote begins a quoted literal. -/
def isGap (c : Char) : Bool := isInert c && c ≠ '#' && !isWordPart c

/-- Code that leaves the depth as it was, with all its literals complete. -/
def Tidy (cs : List Char) : Prop :=
  ∀ s : Reader, s.region.isOutside = true → 0 ≤ s.depth →
    ∃ r : Region, r.isOutside = true ∧ Passes s cs ⟨r, s.depth⟩

/-- Tidy code behind which a literal may begin. -/
def Ready (cs : List Char) : Prop :=
  ∀ s : Reader, s.region.isOutside = true → 0 ≤ s.depth → Passes s cs ⟨.code [], s.depth⟩

section Parts

variable {cs ds : List Char}

theorem ne_doubleQuote_of_isInert {c : Char} (h : isInert c = true) : c ≠ doubleQuote := by
  rintro rfl
  exact absurd h (by decide)

theorem braceValue_of_isInert {c : Char} (h : isInert c = true) :
    braceValue c = 0 ∧ c ≠ '\n' := by
  simp only [isInert, List.mem_cons, List.not_mem_nil, or_false, not_or, decide_eq_true_eq] at h
  simp [braceValue, h]

theorem Tidy.append (hcs : Tidy cs) (hds : Tidy ds) : Tidy (cs ++ ds) := by
  intro s houtside hdepth
  obtain ⟨r, hr, hfirst⟩ := hcs s houtside hdepth
  obtain ⟨q, hq, hsecond⟩ := hds ⟨r, s.depth⟩ hr hdepth
  exact ⟨q, hq, hfirst.append hsecond⟩

theorem Tidy.append_ready (hcs : Tidy cs) (hds : Ready ds) : Ready (cs ++ ds) := by
  intro s houtside hdepth
  obtain ⟨r, hr, hfirst⟩ := hcs s houtside hdepth
  exact hfirst.append (hds ⟨r, s.depth⟩ hr hdepth)

theorem Ready.tidy (h : Ready cs) : Tidy cs :=
  fun s houtside hdepth => ⟨.code [], rfl, h s houtside hdepth⟩

theorem Ready.append_literal (h : Ready cs) (text : String) :
    Ready (cs ++ (literal text).toList) :=
  fun s houtside hdepth => (h s houtside hdepth).append (Passes.literal hdepth text)

theorem Ready.append_rawLiteral (h : Ready cs) (text : String) :
    Ready (cs ++ (rawLiteral text).toList) :=
  fun s houtside hdepth => (h s houtside hdepth).append (Passes.rawLiteral hdepth text)

theorem tidy_of_inert (h : ∀ c ∈ cs, isInert c = true) : Tidy cs := by
  intro s houtside hdepth
  refine ⟨s.region.read cs, ?_, ?_⟩
  · apply Region.isOutside_read houtside
    intro c hc
    exact ne_doubleQuote_of_isInert (h c hc)
  · apply Passes.of_plain hdepth
    intro c hc
    exact braceValue_of_isInert (h c hc)

theorem ready_gap {c : Char} (h : isGap c = true) : Ready [c] := by
  intro s houtside hdepth
  simp only [isGap, Bool.and_eq_true, decide_eq_true_eq, Bool.not_eq_true'] at h
  have hnext := Region.next_of_isOutside houtside (ne_doubleQuote_of_isInert h.1.1) h.1.2 h.2
  have hpasses := Passes.of_plain (s := s) hdepth (List.forall_mem_singleton.mpr
    (braceValue_of_isInert h.1.1))
  rwa [Region.read_cons, hnext] at hpasses

/-- Inert code whose last character is a gap. -/
theorem ready_of_inert (h : cs.all isInert = true) (hlast : cs.getLast?.any isGap = true) :
    Ready cs := by
  rw [List.all_eq_true] at h
  rcases cs.eq_nil_or_concat with rfl | ⟨init, c, rfl⟩
  · cases hlast
  · rw [List.concat_eq_append] at *
    have hgap : isGap c = true := by simpa using hlast
    have hinit : Tidy init := tidy_of_inert fun d hd => h d (List.mem_append_left [c] hd)
    exact hinit.append_ready (ready_gap hgap)

end Parts

end Text
end CaseSuite
