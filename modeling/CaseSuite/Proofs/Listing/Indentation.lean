import CaseSuite.Proofs.Listing.Naming
import CaseSuite.Proofs.Listing.Sources
import CaseSuite.Proofs.Number.Spelling
import CaseSuite.Proofs.Text.Layout

/-!
# Nesting and indentation of listings

A page keeps a depth of its own and never looks at the braces in its lines.  The two stay in step
because a line that opens a block ends with an opening brace, a line that closes one begins with a
closing brace, and no other line has a brace outside of literals.  So every listing is well nested
and indented by depth, for guarded bodies inside guarded bodies and whatever stands in literals.
-/

namespace CaseSuite

open Text

namespace Listing

/-! ## Lines -/

/-- A character that may come first on a line that closes nothing. -/
def isLeading (c : Char) : Bool := !Token.isSpace c && c ≠ '\x7d'

/-- Code that can have a line for itself. -/
structure Standalone (cs : List Char) : Prop where
  tidy : Tidy cs
  begins : cs.head?.any isLeading = true

theorem begins_append {cs : List Char} (h : cs.head?.any isLeading = true) (ds : List Char) :
    (cs ++ ds).head?.any isLeading = true := by
  rcases cs with _ | ⟨c, cs⟩
  · cases h
  · exact h

theorem tidy_of_all {cs : List Char} (h : cs.all isInert = true) : Tidy cs :=
  tidy_of_inert (List.all_eq_true.mp h)

theorem standalone_of_inert {cs : List Char} (h : cs.all isInert = true)
    (hbegins : cs.head?.any isLeading = true) : Standalone cs :=
  ⟨tidy_of_all h, hbegins⟩

/-- A call whose first argument is a literal. -/
theorem standalone_call {stem rest : String} (hstem : Ready stem.toList)
    (hbegins : stem.toList.head?.any isLeading = true) (argument : String)
    (hrest : Tidy rest.toList) : Standalone (stem ++ literal argument ++ rest).toList := by
  simp only [String.toList_append]
  refine ⟨(hstem.append_literal argument).tidy.append hrest, ?_⟩
  exact begins_append (begins_append hbegins _) _

/-- A line whose code is passed through is laid out well if it stands at the right level. -/
theorem laid_lineText
    {depth next : Int} {levels : Nat} {text : String} {r : Region} {c : Char} {cs : List Char}
    (hpasses : Passes ⟨.code [], depth⟩ text.toList ⟨r, next⟩) (hr : r.isOutside = true)
    (hnext : 0 ≤ next) (htext : text.toList = c :: cs) (hc : Token.isSpace c = false)
    (hlevels : (levels : Int) = if c = '\x7d' then depth - 1 else depth) :
    Laid ⟨.code [], depth⟩ (Mark.lineText levels text) ⟨.code [], next⟩ := by
  apply Laid.line ((Passes.blanks hpasses.nonneg_start (4 * levels)).append hpasses) hr
  · exact Or.inr ⟨levels, c, cs, by rw [htext], hc, hlevels⟩
  · rw [Reader.step_feed hr]
    exact Laid.nil hnext

/-! ## Marks -/

/-- Marks that lead from one depth to another, where page and braces agree on both. -/
structure Arranged (depth : Nat) (marks : List Mark) (next : Nat) : Prop where
  reaches : after depth marks = next
  laid : Laid ⟨.code [], depth⟩ (render depth marks) ⟨.code [], next⟩

theorem Arranged.nil (depth : Nat) : Arranged depth [] depth :=
  ⟨rfl, Laid.nil (Int.natCast_nonneg depth)⟩

theorem Arranged.append {depth next last : Nat} {ms ns : List Mark} (hms : Arranged depth ms next)
    (hns : Arranged next ns last) : Arranged depth (ms ++ ns) last where
  reaches := by rw [after_append, hms.reaches, hns.reaches]
  laid := by
    rw [render_append, hms.reaches]
    exact hms.laid.append hns.laid

theorem Arranged.of_mark {depth next : Nat} {m : Mark} (hnext : m.after depth = next)
    (h : Laid ⟨.code [], depth⟩ (m.render depth) ⟨.code [], next⟩) : Arranged depth [m] next where
  reaches := hnext
  laid := by simpa using h

section Marks

variable {text : String} {cs : List Char}

theorem exists_cons_of_begins (h : cs.head?.any isLeading = true) :
    ∃ c ds, cs = c :: ds ∧ Token.isSpace c = false ∧ c ≠ '\x7d' := by
  rcases cs with _ | ⟨c, ds⟩
  · cases h
  · have hleading : isLeading c = true := by simpa using h
    simp only [isLeading, Bool.and_eq_true, Bool.not_eq_true', decide_eq_true_eq] at hleading
    exact ⟨c, ds, rfl, hleading⟩

theorem arranged_blank (depth : Nat) : Arranged depth [.blank] depth := by
  have hdepth := Int.natCast_nonneg depth
  apply Arranged.of_mark rfl
  apply Laid.line (Passes.nil hdepth) rfl (Or.inl rfl)
  rw [Reader.step_feed rfl]
  exact Laid.nil hdepth

theorem arranged_line (h : Standalone text.toList) (depth : Nat) :
    Arranged depth [.line text] depth := by
  have hdepth := Int.natCast_nonneg depth
  obtain ⟨r, hr, hpasses⟩ := h.tidy ⟨.code [], depth⟩ rfl hdepth
  obtain ⟨c, ds, htext, hspace, hbrace⟩ := exists_cons_of_begins h.begins
  apply Arranged.of_mark rfl
  exact laid_lineText hpasses hr hdepth htext hspace (by rw [if_neg hbrace])

theorem arranged_opening (htext : text.toList = cs ++ ['\x7b']) (h : Standalone cs) (depth : Nat) :
    Arranged depth [.opening text] (depth + 1) := by
  have hdepth := Int.natCast_nonneg depth
  obtain ⟨r, hr, hfront⟩ := h.tidy ⟨.code [], depth⟩ rfl hdepth
  obtain ⟨c, ds, rfl, hspace, hbrace⟩ := exists_cons_of_begins h.begins
  have hpasses := hfront.append (Passes.openBrace hr hdepth)
  have hnext := Int.natCast_nonneg (depth + 1)
  rw [← htext] at hpasses
  apply Arranged.of_mark rfl
  exact laid_lineText hpasses rfl hnext htext hspace (by rw [if_neg hbrace])

theorem passes_closing (h : Tidy cs) (depth : Nat) :
    ∃ r : Region, r.isOutside = true ∧
      Passes ⟨.code [], (depth + 1 : Nat)⟩ ('\x7d' :: cs) ⟨r, depth⟩ := by
  have hdeep : (1 : Int) ≤ (depth + 1 : Nat) := by omega
  have hback : ((depth + 1 : Nat) : Int) - 1 = depth := by omega
  have hbrace : Passes ⟨.code [], (depth + 1 : Nat)⟩ ['\x7d'] ⟨.code [], depth⟩ := by
    rw [← hback]
    exact Passes.closeBrace rfl hdeep
  obtain ⟨r, hr, hpasses⟩ := h ⟨.code [], depth⟩ rfl (Int.natCast_nonneg depth)
  exact ⟨r, hr, hbrace.append hpasses⟩

theorem arranged_closing (htext : text.toList = '\x7d' :: cs) (h : Tidy cs) (depth : Nat) :
    Arranged (depth + 1) [.closing text] depth := by
  obtain ⟨r, hr, hpasses⟩ := passes_closing h depth
  rw [← htext] at hpasses
  apply Arranged.of_mark rfl
  exact laid_lineText hpasses hr (Int.natCast_nonneg depth) htext (by decide) (by simp)

theorem arranged_reopening (htext : text.toList = '\x7d' :: cs ++ ['\x7b']) (h : Tidy cs)
    (depth : Nat) : Arranged (depth + 1) [.reopening text] (depth + 1) := by
  obtain ⟨r, hr, hfront⟩ := passes_closing h depth
  have hpasses := hfront.append (Passes.openBrace hr (Int.natCast_nonneg depth))
  rw [← htext] at hpasses
  apply Arranged.of_mark rfl
  exact laid_lineText hpasses rfl (Int.natCast_nonneg (depth + 1)) htext (by decide) (by simp)

end Marks

/-! ### Marks without literals -/

namespace Mark

/-- A mark whose text has no literals and no braces but those that its kind asks for. -/
def isBraced : Mark → Bool
  | line text => text.toList.all isInert && text.toList.head?.any isLeading
  | blank => true
  | opening text =>
      text.toList.getLast? = some '\x7b' && text.toList.dropLast.all isInert &&
        text.toList.dropLast.head?.any isLeading
  | closing text => text.toList.head? = some '\x7d' && text.toList.tail.all isInert
  | reopening text =>
      text.toList.head? = some '\x7d' && text.toList.tail.getLast? = some '\x7b' &&
        text.toList.tail.dropLast.all isInert

/-- A mark that can be written at a depth: the page is not taken back beyond the margin. -/
def fits (depth : Nat) : Mark → Bool
  | line _ | blank | opening _ => true
  | closing _ | reopening _ => depth ≠ 0

end Mark

theorem Mark.isBraced.arranged {m : Mark} (h : m.isBraced = true) {depth : Nat}
    (hfits : m.fits depth = true) : Arranged depth [m] (m.after depth) := by
  cases m with
  | line text =>
      simp only [Mark.isBraced, Bool.and_eq_true] at h
      exact arranged_line (standalone_of_inert h.1 h.2) depth
  | blank => exact arranged_blank depth
  | opening text =>
      simp only [Mark.isBraced, Bool.and_eq_true, decide_eq_true_eq] at h
      obtain ⟨⟨hlast, hinert⟩, hbegins⟩ := h
      have htext := List.dropLast_append_getLast? _ hlast
      exact arranged_opening htext.symm (standalone_of_inert hinert hbegins) depth
  | closing text =>
      simp only [Mark.isBraced, Bool.and_eq_true, decide_eq_true_eq] at h
      obtain ⟨hhead, hinert⟩ := h
      obtain ⟨cs, htext⟩ := List.head?_eq_some_iff.mp hhead
      obtain ⟨depth, rfl⟩ := Nat.exists_eq_succ_of_ne_zero (of_decide_eq_true hfits)
      rw [htext] at hinert
      exact arranged_closing htext (tidy_of_all hinert) depth
  | reopening text =>
      simp only [Mark.isBraced, Bool.and_eq_true, decide_eq_true_eq] at h
      obtain ⟨⟨hhead, hlast⟩, hinert⟩ := h
      obtain ⟨cs, htext⟩ := List.head?_eq_some_iff.mp hhead
      obtain ⟨depth, rfl⟩ := Nat.exists_eq_succ_of_ne_zero (of_decide_eq_true hfits)
      rw [htext, List.tail_cons] at hlast hinert
      rw [← List.dropLast_append_getLast? _ hlast] at htext
      exact arranged_reopening htext (tidy_of_all hinert) depth

theorem Mark.fits_add {m : Mark} {depth : Nat} (h : m.fits depth = true) (base : Nat) :
    m.fits (base + depth) = true ∧ m.after (base + depth) = base + m.after depth := by
  cases m with
  | line text => exact ⟨rfl, rfl⟩
  | blank => exact ⟨rfl, rfl⟩
  | opening text => exact ⟨rfl, rfl⟩
  | closing text =>
      simp only [Mark.fits, decide_eq_true_eq] at h ⊢
      simp only [Mark.after]
      omega
  | reopening text =>
      simp only [Mark.fits, decide_eq_true_eq] at h ⊢
      simp only [Mark.after]
      omega

/-- Marks without literals that can be written from a depth on. -/
def bracedFrom : Nat → List Mark → Bool
  | _, [] => true
  | depth, m :: ms => m.isBraced && m.fits depth && bracedFrom (m.after depth) ms

/-- Marks that can be written from a depth on can be written at any greater depth. -/
theorem arranged_of_bracedFrom (depth : Nat) {ms : List Mark} (h : bracedFrom depth ms = true)
    (base : Nat) : Arranged (base + depth) ms (base + after depth ms) := by
  induction ms generalizing depth with
  | nil => exact Arranged.nil _
  | cons m ms ih =>
      simp only [bracedFrom, Bool.and_eq_true] at h
      obtain ⟨⟨hbraced, hfits⟩, hrest⟩ := h
      obtain ⟨hdeeper, hshift⟩ := Mark.fits_add hfits base
      have hfirst := Mark.isBraced.arranged hbraced hdeeper
      rw [hshift] at hfirst
      exact hfirst.append (ih _ hrest)

/-- Marks that lead back to the depth from which they are written. -/
def Steady (marks : List Mark) : Prop :=
  ∀ depth, Arranged depth marks depth

theorem Steady.append {ms ns : List Mark} (hms : Steady ms) (hns : Steady ns) : Steady (ms ++ ns) :=
  fun depth => (hms depth).append (hns depth)

theorem steady_of_bracedFrom {ms : List Mark} (h : bracedFrom 0 ms = true)
    (hback : after 0 ms = 0) : Steady ms := by
  intro depth
  have harranged := arranged_of_bracedFrom 0 h depth
  rwa [hback] at harranged

end Listing

open Listing

/-! ## Actions -/

/-- A name without quotes, braces and blanks, as every identifier is. -/
def IsBare (name : String) : Prop :=
  ∀ c ∈ name.toList, c ∉ [doubleQuote, '\x7b', '\x7d', ' ', '\t', '\r', '\n']

theorem IsWord.isBare {name : String} (h : IsWord name) : IsBare name := by
  have hother : ∀ c ∈ [doubleQuote, '\x7b', '\x7d', ' ', '\t', '\r', '\n'],
      Token.isWordChar c = false := by
    simp [doubleQuote, Token.isWordChar, Token.isWordStart, Number.isDigit]
  intro c hc hmem
  have hword := h c hc
  rw [hother c hmem] at hword
  cases hword

namespace IsBare

variable {name : String}

theorem inert (h : IsBare name) : ∀ c ∈ name.toList, isInert c = true := by
  intro c hc
  have hbare := h c hc
  simp only [List.mem_cons, List.not_mem_nil, or_false, not_or] at hbare
  simp [isInert, hbare]

theorem tidy (h : IsBare name) : Tidy name.toList :=
  tidy_of_inert h.inert

/-- A line may begin with a bare name, even with an empty one. -/
theorem begins_append (h : IsBare name) {cs : List Char} (hcs : cs.head?.any isLeading = true) :
    (name.toList ++ cs).head?.any isLeading = true := by
  rcases hname : name.toList with _ | ⟨c, rest⟩
  · exact hcs
  · have hbare := h c (by simp [hname])
    simp only [List.mem_cons, List.not_mem_nil, or_false, not_or] at hbare
    simp [isLeading, Token.isSpace, hbare]

/-- A bare name is written as a bare name. -/
theorem binding {text : String} (h : IsBare name) (htext : binding name = .ok text) :
    IsBare text := by
  rw [Listing.binding] at htext
  split at htext
  · cases htext
  · split at htext
    · cases htext
      intro c hc
      rw [String.toList_append, List.mem_append] at hc
      rcases hc with hraw | hname
      · have hmark : "r#".toList = ['r', '#'] := rfl
        rw [hmark, List.mem_cons, List.mem_singleton] at hraw
        rcases hraw with rfl | rfl
        · decide
        · decide
      · exact h c hname
    · cases htext
      exact h

end IsBare

namespace Binary64

theorem inert_of_isNumberChar {c : Char} (h : isNumberChar c = true) : isInert c = true := by
  have hother : ∀ d ∈ [doubleQuote, '\x7b', '\x7d', '\n'], isNumberChar d = false := by
    simp [doubleQuote, isNumberChar, Number.isDigit]
  rw [isInert, decide_eq_true_eq]
  intro hmem
  rw [hother c hmem] at h
  cases h

/-- Also what is no finite number is written without quotes and braces. -/
theorem inert_text (x : Binary64) : ∀ c ∈ x.text.toList, isInert c = true := by
  by_cases hfinite : x.isFinite = true
  · intro c hc
    exact inert_of_isNumberChar (isNumberChar_of_mem_text hfinite hc)
  · rw [← List.all_eq_true, text, if_neg hfinite]
    split
    · decide
    · split
      · decide
      · decide

end Binary64

/-- The argument of a call follows its parenthesis. -/
theorem Text.Ready.append_argument {cs : List Char} (h : Ready cs) (argument : Option String) :
    Tidy (cs ++ (Operand.argumentText argument).toList) := by
  cases argument with
  | none => simpa [Operand.argumentText] using h.tidy
  | some text => exact (h.append_literal text).tidy

theorem Method.tidy_name (m : Method) : Tidy m.name.toList := by
  apply tidy_of_all
  cases m <;> decide

/-- An operand can have a line for itself. -/
theorem Operand.standalone {value : Operand} {text : String}
    (hnames : ∀ name ∈ value.reads, IsBare name) (h : value.text? = .ok text) :
    Standalone text.toList := by
  have hend : Tidy ")".toList := tidy_of_all (by decide)
  cases value with
  | text content =>
      cases h
      have hstem : Ready "Value::from(".toList := ready_of_inert (by decide) (by decide)
      exact standalone_call hstem (by decide) content hend
  | int value =>
      cases h
      have hstem : Tidy "Value::Int(".toList := tidy_of_all (by decide)
      have hnumber : Tidy (Number.intText value.toInt).toList :=
        tidy_of_inert fun c hc => Binary64.inert_of_isNumberChar
          (Binary64.isNumberChar_of_mem_intText hc)
      simp only [String.toList_append]
      refine ⟨(hstem.append hnumber).append hend, ?_⟩
      exact begins_append (begins_append (by decide) _) _
  | float value =>
      cases h
      have hstem : Tidy "Value::Float(".toList := tidy_of_all (by decide)
      simp only [String.toList_append]
      refine ⟨(hstem.append (tidy_of_inert value.inert_text)).append hend, ?_⟩
      exact begins_append (begins_append (by decide) _) _
  | «variable» name =>
      obtain ⟨word, hbinding, hrest⟩ := Parse.bind_ok h
      cases hrest
      have hword := (hnames name (by simp [reads])).binding hbinding
      have hclone : Tidy ".clone()".toList := tidy_of_all (by decide)
      rw [String.toList_append]
      exact ⟨hword.tidy.append hclone, hword.begins_append (by decide)⟩
  | call terminal method argument =>
      obtain ⟨word, hbinding, hrest⟩ := Parse.bind_ok h
      cases hrest
      have hword := (hnames terminal (by simp [reads])).binding hbinding
      have hpoint : Tidy ".".toList := tidy_of_all (by decide)
      have hparenthesis : Ready "(".toList := ready_of_inert (by decide) (by decide)
      have hmark : Tidy (if method.fallible then "?" else "").toList := by
        apply tidy_of_all
        cases method <;> decide
      have hcall := ((hword.tidy.append hpoint).append method.tidy_name).append_ready hparenthesis
      simp only [String.toList_append]
      refine ⟨((hcall.append_argument argument).append hend).append hmark, ?_⟩
      simp only [List.append_assoc]
      exact hword.begins_append (begins_append (by decide) _)

/-- An action can have a line for itself. -/
theorem Action.standalone {a : Action} {text : String}
    (hnames : ∀ name ∈ a.written, IsBare name) (h : a.text? = .ok text) :
    Standalone text.toList := by
  have hlet : Tidy "let ".toList := tidy_of_all (by decide)
  have hend : Tidy ";".toList := tidy_of_all (by decide)
  cases a with
  | start terminal =>
      obtain ⟨word, hbinding, hrest⟩ := Parse.bind_ok h
      cases hrest
      have hword := (hnames terminal (by simp [written, binds])).binding hbinding
      have hstart : Ready " = terminals.start(".toList := ready_of_inert (by decide) (by decide)
      have hlast : Tidy ", &self.env)?;".toList := tidy_of_all (by decide)
      have hstem := ((hlet.append hword.tidy).append_ready hstart).append_literal terminal
      simp only [String.toList_append]
      refine ⟨hstem.tidy.append hlast, ?_⟩
      simp only [List.append_assoc]
      exact begins_append (by decide) _
  | bind target value =>
      obtain ⟨word, hbinding, hrest⟩ := Parse.bind_ok h
      obtain ⟨operand, hvalue, hrest⟩ := Parse.bind_ok hrest
      cases hrest
      have hword := (hnames target (by simp [written, binds])).binding hbinding
      have hoperand : Standalone operand.toList :=
        Operand.standalone (fun name hname => hnames name (by simp [written, reads, hname])) hvalue
      have hequals : Tidy " = ".toList := tidy_of_all (by decide)
      simp only [String.toList_append]
      refine ⟨(((hlet.append hword.tidy).append hequals).append hoperand.tidy).append hend, ?_⟩
      simp only [List.append_assoc]
      exact begins_append (by decide) _
  | run value =>
      obtain ⟨operand, hvalue, hrest⟩ := Parse.bind_ok h
      cases hrest
      have hoperand : Standalone operand.toList :=
        Operand.standalone (fun name hname => hnames name (by simp [written, reads, hname])) hvalue
      rw [String.toList_append]
      exact ⟨hoperand.tidy.append hend, begins_append hoperand.begins _⟩
  | check relation left right =>
      obtain ⟨first, hleft, hrest⟩ := Parse.bind_ok h
      obtain ⟨second, hright, hrest⟩ := Parse.bind_ok hrest
      cases hrest
      have hfirst := (hnames left (by simp [written, reads])).binding hleft
      have hsecond := (hnames right (by simp [written, reads])).binding hright
      have hrelation : Standalone relation.word.toList := by
        cases relation <;> exact standalone_of_inert (by decide) (by decide)
      have hopening : Tidy "(&".toList := tidy_of_all (by decide)
      have hcomma : Tidy ", &".toList := tidy_of_all (by decide)
      have hlast : Tidy ")?;".toList := tidy_of_all (by decide)
      have hfront := (hrelation.tidy.append hopening).append hfirst.tidy
      simp only [String.toList_append]
      refine ⟨((hfront.append hcomma).append hsecond.tidy).append hlast, ?_⟩
      simp only [List.append_assoc]
      exact begins_append hrelation.begins _

/-! ## Instructions -/

namespace Instr

mutual

/-- The names of an instruction, in the order in which they are written. -/
def written : Instr → List String
  | .register | .teardown => []
  | .action a => a.written
  | .guarded _ body => writtenAll body

/-- The names of instructions, in the order in which they are written. -/
def writtenAll : List Instr → List String
  | [] => []
  | i :: is => i.written ++ writtenAll is

end

/-- What follows a guarded body closes the block that was opened before it. -/
theorem arranged_guardMarks (label : String) (depth : Nat) :
    Arranged (depth + 1) (guardMarks label) depth := by
  have hassertion : Ready "Err(CaseFailure::Assertion(failure)) => fail_assertion(".toList :=
    ready_of_inert (by decide) (by decide)
  have hunexpected : Ready "Err(failure) => fail_unexpected(".toList :=
    ready_of_inert (by decide) (by decide)
  have hrest : Tidy ", failure),".toList := tidy_of_all (by decide)
  have hbefore : Arranged (depth + 1) [.line "Ok(())", .reopening "\x7d) \x7b"] (depth + 1) :=
    arranged_of_bracedFrom 1 (by decide +kernel) depth
  have hafter : Arranged (depth + 1) [.line "Ok(()) => Ok(()),", .closing "\x7d;"] depth :=
    arranged_of_bracedFrom 1 (by decide +kernel) depth
  have hfirst := arranged_line (standalone_call hassertion (by decide) label hrest) (depth + 1)
  have hsecond := arranged_line (standalone_call hunexpected (by decide) label hrest) (depth + 1)
  exact ((hbefore.append hfirst).append hsecond).append hafter

theorem steady_guarded {label : String} {body : Draft} (h : (guardedDraft label body).fault = none)
    (hbody : Steady body.marks) : Steady (guardedDraft label body).marks := by
  intro depth
  have hopening : Arranged depth [.opening "let outcome = match guarded(|| -> CaseResult \x7b"]
      (depth + 1) := arranged_of_bracedFrom 0 (by decide +kernel) depth
  rw [guardedDraft, Draft.append_fault_eq_none] at h
  rw [guardedDraft, Draft.marks_append h.1, Draft.marks_append rfl]
  -- The body stands one level deeper, and it is steady there as it is everywhere.
  exact (hopening.append (hbody (depth + 1))).append (arranged_guardMarks label depth)

mutual

/-- Whatever is nested in it, an instruction leads back to the depth at which it begins. -/
theorem steady_draft : ∀ i : Instr, (∀ name ∈ i.written, IsBare name) → i.draft.fault = none →
    Steady i.draft.marks
  | .register, _, _ => steady_of_bracedFrom (by decide +kernel) rfl
  | .action a, hnames, hfault => by
      rw [draft] at hfault ⊢
      rcases htext : a.text? with e | text
      · rw [htext] at hfault
        cases hfault
      · exact arranged_line (Action.standalone hnames htext)
  | .guarded label body, hnames, hfault => by
      rw [draft] at hfault ⊢
      have hbody : (draftAll body).fault = none := by
        simp only [guardedDraft, Draft.append_fault_eq_none] at hfault
        exact hfault.1.2
      exact steady_guarded hfault (steady_draftAll body hnames hbody)
  | .teardown, _, _ => steady_of_bracedFrom (by decide +kernel) rfl

theorem steady_draftAll : ∀ is : List Instr, (∀ name ∈ writtenAll is, IsBare name) →
    (draftAll is).fault = none → Steady (draftAll is).marks
  | [], _, _ => Arranged.nil
  | i :: is, hnames, hfault => by
      rw [draftAll, Draft.append_fault_eq_none] at hfault
      rw [writtenAll, List.forall_mem_append] at hnames
      rw [draftAll, Draft.marks_append hfault.1]
      exact (steady_draft i hnames.1 hfault.1).append (steady_draftAll is hnames.2 hfault.2)

end

end Instr

/-! ## Programs -/

namespace Routine

/-- The names of a routine. -/
def written (r : Routine) : List String :=
  r.function :: Instr.writtenAll r.body

theorem steady_draft {r : Routine} (hnames : ∀ name ∈ r.written, IsBare name)
    (h : r.draft.fault = none) : Steady r.draft.marks := by
  intro depth
  rw [written, List.forall_mem_cons] at hnames
  have hsignature :
      ("pub fn " ++ r.function ++ "(&self) -> CaseResult \x7b").toList =
        ("pub fn ".toList ++ r.function.toList ++ "(&self) -> CaseResult ".toList) ++ ['\x7b'] := by
    simp only [String.toList_append, List.append_assoc]
    rfl
  have hopening : Standalone
      ("pub fn ".toList ++ r.function.toList ++ "(&self) -> CaseResult ".toList) := by
    have hstem : Tidy "pub fn ".toList := tidy_of_all (by decide)
    have hrest : Tidy "(&self) -> CaseResult ".toList := tidy_of_all (by decide)
    refine ⟨(hstem.append hnames.1.tidy).append hrest, ?_⟩
    exact begins_append (begins_append (by decide) _) _
  have hclosing : Arranged (depth + 1) [.line "outcome", .closing "\x7d"] depth :=
    arranged_of_bracedFrom 1 (by decide +kernel) depth
  rw [draft, Draft.append_fault_eq_none] at h
  have hbody := h.1
  rw [Draft.append_fault_eq_none] at hbody
  rw [draft, Draft.marks_append h.1, Draft.marks_append rfl]
  have hfront := (arranged_blank depth).append (arranged_opening hsignature hopening depth)
  exact (hfront.append (Instr.steady_draftAll r.body hnames.2 hbody.2 (depth + 1))).append hclosing

theorem steady_runLine {r : Routine} (hname : IsBare r.function) : Steady [r.runLine] := by
  have hstem : Ready "suite.run(".toList := ready_of_inert (by decide) (by decide)
  have hcomma : Tidy ", || cases.".toList := tidy_of_all (by decide)
  have hend : Tidy "());".toList := tidy_of_all (by decide)
  apply arranged_line
  simp only [String.toList_append]
  have hfront := ((hstem.append_literal r.function).tidy.append hcomma).append hname.tidy
  refine ⟨hfront.append hend, ?_⟩
  simp only [List.append_assoc]
  exact begins_append (by decide) _

end Routine

theorem steady_flatMap {α : Type} {f : α → List Mark} {xs : List α}
    (h : ∀ x ∈ xs, Steady (f x)) : Steady (xs.flatMap f) := by
  induction xs with
  | nil => exact Arranged.nil
  | cons x xs ih =>
      rw [List.forall_mem_cons] at h
      rw [List.flatMap_cons]
      exact h.1.append (ih h.2)

namespace Program

/-- The names of a program: those of its functions and those in them. -/
def written (p : Program) : List String :=
  p.routines.flatMap Routine.written

/-- What stands before the functions leaves the implementation block open. -/
theorem arranged_opening (config : String) : Arranged 0 (opening config) 1 := by
  have hsplit : opening config =
      Suite.openingMarks ++ ([.line ("pub const CONFIG: &str = " ++ rawLiteral config ++ ";")] ++
        Suite.middleMarks) := rfl
  have hline : Standalone ("pub const CONFIG: &str = " ++ rawLiteral config ++ ";").toList := by
    have hstem : Ready "pub const CONFIG: &str = ".toList := ready_of_inert (by decide) (by decide)
    have hend : Tidy ";".toList := tidy_of_all (by decide)
    simp only [String.toList_append]
    refine ⟨(hstem.append_rawLiteral config).tidy.append hend, ?_⟩
    exact begins_append (begins_append (by decide) _) _
  have hbefore : Arranged 0 Suite.openingMarks 0 := arranged_of_bracedFrom 0 (by decide +kernel) 0
  have hafter : Arranged 0 Suite.middleMarks 1 := arranged_of_bracedFrom 0 (by decide +kernel) 0
  rw [hsplit]
  exact hbefore.append ((arranged_line hline 0).append hafter)

/-- What stands after the functions closes the implementation block and all it opens itself. -/
theorem arranged_closing {routines : List Routine} (h : ∀ r ∈ routines, IsBare r.function) :
    Arranged 1 (closing routines) 0 := by
  have hrun : Steady (routines.map Routine.runLine) := by
    rw [List.map_eq_flatMap]
    exact steady_flatMap fun r hr => Routine.steady_runLine (h r hr)
  refine Arranged.append (Arranged.append ?_ (hrun 1)) ?_
  · exact arranged_of_bracedFrom 1 (by decide +kernel) 0
  · exact arranged_of_bracedFrom 1 (by decide +kernel) 0

theorem arranged_draft {p : Program} (hnames : ∀ name ∈ p.written, IsBare name)
    (h : p.draft.fault = none) : Arranged 0 p.draft.marks 0 := by
  have hroutine : ∀ r ∈ p.routines, ∀ name ∈ r.written, IsBare name :=
    fun r hr name hname => hnames name (List.mem_flatMap.mpr ⟨r, hr, hname⟩)
  rw [draft, Draft.append_fault_eq_none] at h
  have hfaults := h.1
  rw [Draft.append_fault_eq_none] at hfaults
  obtain ⟨hall, hmarks⟩ := Draft.concat_eq_ofMarks hfaults.2
  have hbodies : Steady (Draft.concat (p.routines.map Routine.draft)).marks := by
    rw [hmarks, Draft.ofMarks_marks, List.flatMap_map]
    apply steady_flatMap
    intro r hr
    exact Routine.steady_draft (hroutine r hr) (hall _ (List.mem_map_of_mem hr))
  rw [draft, Draft.marks_append h.1, Draft.marks_append rfl]
  refine ((arranged_opening p.config).append (hbodies 1)).append (arranged_closing fun r hr => ?_)
  exact hroutine r hr r.function List.mem_cons_self

/-- The listing of a program is well nested, and indented by the depth of its braces: for every
configuration, every nesting of guarded bodies and every text in a literal. -/
theorem listing_is_indented_by_depth {p : Program} {code : String}
    (hnames : ∀ name ∈ p.written, IsBare name) (h : p.listing = .ok code) :
    WellNested code.toList ∧ Reader.Indents {} code.toList := by
  obtain ⟨hfault, hcode⟩ := draft_of_listing h
  have hlaid := (arranged_draft hnames hfault).laid
  rw [hcode]
  exact ⟨hlaid.wellNested, hlaid.indents⟩

/-- One guarded body in another, a keyword for a name, and literals with quotes, braces and line
feeds in them. -/
def guardedTwice : Program where
  config := "[db]\n\x7durl = \x22#\x7b\x22#\n"
  routines :=
    [⟨"case_1_nested",
      [.register,
       .guarded "outer \x7b\x22\n"
         [.action (.start "type"),
          .guarded "\x7d\x7d inner \\"
            [.action (.bind "rows" (.call "type" .rows (some "r\x22#\n\x7b"))),
             .action (.bind "other" (.text "\x7d\n\x7d")),
             .action (.check .notEqual "rows" "other")],
          .action (.run (.call "type" .wait none))],
       .teardown]⟩]

theorem listing_is_indented_by_depth_guardedTwice :
    (∀ name ∈ guardedTwice.written, IsBare name) ∧
      ∃ code, guardedTwice.listing = .ok code ∧
        WellNested code.toList ∧ Reader.Indents {} code.toList := by
  have hwords : (guardedTwice.written.all fun name => name.toList.all Token.isWordChar) = true := by
    decide
  have hnames : ∀ name ∈ guardedTwice.written, IsBare name :=
    fun name hname => IsWord.isBare (isWord_of_all (List.all_eq_true.mp hwords name hname))
  rcases hlisting : guardedTwice.listing with e | code
  · have hok : guardedTwice.listing.isOk = true := by rfl
    rw [hlisting] at hok
    cases hok
  · exact ⟨hnames, code, rfl, listing_is_indented_by_depth hnames hlisting⟩

end Program

end CaseSuite
