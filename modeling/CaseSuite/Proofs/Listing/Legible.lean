import CaseSuite.Proofs.Listing.Rendering
import CaseSuite.Proofs.Listing.Sources
import CaseSuite.Proofs.Number.Spelling
import CaseSuite.Proofs.Text.Literals

/-!
# Listings can be read in one way only

Each construct of a listing is found again at the front of any text that begins with it: runs of
characters are ended by a character of another class, literals end by their own rules, and the text
between them is fixed.  Put together this gives back the suite from its listing, so two texts that
compile to the same code have the same plans.
-/

namespace CaseSuite
namespace Listing

/-- A quoted literal is found again. -/
theorem literal_unique
    {a b : String} {u v : List Char}
    (h : (Text.literal a).toList ++ u = (Text.literal b).toList ++ v) : a = b ∧ u = v := by
  have hread := congrArg Text.readLiteral? h
  rw [Text.readLiteral?_literal, Text.readLiteral?_literal] at hread
  obtain ⟨htext, hrest⟩ := Prod.mk.inj (Option.some.inj hread)
  exact ⟨String.toList_injective htext, hrest⟩

/-- A raw literal is found again. -/
theorem rawLiteral_unique
    {a b : String} {u v : List Char}
    (h : (Text.rawLiteral a).toList ++ u = (Text.rawLiteral b).toList ++ v) : a = b ∧ u = v := by
  have hread := congrArg Text.readRawLiteral? h
  rw [Text.readRawLiteral?_rawLiteral, Text.readRawLiteral?_rawLiteral] at hread
  obtain ⟨htext, hrest⟩ := Prod.mk.inj (Option.some.inj hread)
  exact ⟨String.toList_injective htext, hrest⟩

/-! ## Names -/

/-- A character of a name as it is bound: of a word, or the mark of the raw form. -/
def isNameChar (c : Char) : Bool := Token.isWordChar c || c = '#'

theorem isNameChar_of_binding
    {name bound : String} (hname : IsWord name) (h : binding name = .ok bound) :
    ∀ c ∈ bound.toList, isNameChar c = true := by
  have hword : ∀ c ∈ name.toList, isNameChar c = true := by
    intro c hc
    simp [isNameChar, hname c hc]
  unfold binding at h
  split at h
  · simp at h
  split at h
  · obtain rfl := Except.ok.inj h
    intro c hc
    rw [String.toList_append, List.mem_append] at hc
    rcases hc with hmark | hrest
    · have hmark : c = 'r' ∨ c = '#' := by simpa using hmark
      rcases hmark with rfl | rfl <;> decide
    · exact hword c hrest
  · obtain rfl := Except.ok.inj h
    exact hword

/-- Different names are bound differently. -/
theorem binding_unique
    {name other bound : String} (hname : IsWord name) (hother : IsWord other)
    (h : binding name = .ok bound) (h' : binding other = .ok bound) : name = other := by
  have hmark : ∀ {a b : String}, IsWord b → "r#" ++ a ≠ b := by
    rintro a b hb rfl
    have hhash := hb '#' (by simp)
    exact absurd hhash (by decide)
  unfold binding at h h'
  split at h
  · simp at h
  split at h'
  · simp at h'
  split at h
  · split at h'
    · have hlists := congrArg String.toList (Except.ok.inj (h.trans h'.symm))
      rw [String.toList_append, String.toList_append] at hlists
      exact String.toList_injective (List.append_cancel_left hlists)
    · exact absurd (Except.ok.inj (h.trans h'.symm)) (hmark hother)
  · split at h'
    · exact absurd (Except.ok.inj (h'.trans h.symm)) (hmark hname)
    · exact Except.ok.inj (h.trans h'.symm)

end Listing

open Listing

/-! ## Operands -/

namespace Operand

/-- What an operand begins with: a fixed word, or the name that it reads. -/
def stem? : Operand → Except NameError String
  | .text _ | .int _ | .float _ => .ok "Value"
  | .variable name | .call name _ _ => binding name

/-- The character that ends the stem. -/
def mark : Operand → Char
  | .text _ | .int _ | .float _ => ':'
  | .variable _ | .call _ _ _ => '.'

/-- What stands between the mark and the bracket. -/
def form : Operand → String
  | .text _ => ":from"
  | .int _ => ":Int"
  | .float _ => ":Float"
  | .variable _ => "clone"
  | .call _ method _ => method.name

/-- What follows the bracket. -/
def payload : Operand → List Char
  | .text content => (Text.literal content).toList ++ [')']
  | .int value => (Number.intText value.toInt).toList ++ [')']
  | .float value => value.text.toList ++ [')']
  | .variable _ => [')']
  | .call _ method argument =>
      (argumentText argument).toList ++ (')' :: if method.fallible then ['?'] else [])

theorem text?_eq {o : Operand} {s : String} (h : o.text? = .ok s) :
    ∃ stem, o.stem? = .ok stem ∧
      s.toList = stem.toList ++ o.mark :: (o.form.toList ++ '(' :: o.payload) := by
  cases o with
  | text content =>
      obtain rfl := Except.ok.inj h
      exact ⟨_, rfl, by simp [mark, form, payload]⟩
  | int value =>
      obtain rfl := Except.ok.inj h
      exact ⟨_, rfl, by simp [mark, form, payload]⟩
  | float value =>
      obtain rfl := Except.ok.inj h
      exact ⟨_, rfl, by simp [mark, form, payload]⟩
  | «variable» name =>
      obtain ⟨bound, hbound, htext⟩ := Parse.bind_ok h
      obtain rfl := Except.ok.inj htext
      exact ⟨bound, hbound, by simp [mark, form, payload]⟩
  | call terminal method argument =>
      obtain ⟨bound, hbound, htext⟩ := Parse.bind_ok h
      obtain rfl := Except.ok.inj htext
      refine ⟨bound, hbound, ?_⟩
      rcases hfallible : method.fallible with _ | _
      · simp [mark, form, payload, hfallible]
      · simp [mark, form, payload, hfallible]

theorem isNameChar_of_stem?
    {o : Operand} {stem : String} (ho : o.Plain) (h : o.stem? = .ok stem) :
    ∀ c ∈ stem.toList, isNameChar c = true := by
  have hfixed : ∀ c ∈ "Value".toList, isNameChar c = true := List.all_eq_true.mp (by decide)
  cases o with
  | text | int | float =>
      obtain rfl := Except.ok.inj h
      exact hfixed
  | «variable» | call => exact isNameChar_of_binding ho h

theorem isNameChar_mark (o : Operand) : isNameChar o.mark = false := by
  cases o <;> rfl

/-- A form never reaches the bracket. -/
theorem notMem_form (o : Operand) : ∀ c ∈ o.form.toList, (c != '(') = true := by
  apply List.all_eq_true.mp
  cases o with
  | call terminal method argument => cases method <;> simp [form, Method.name]
  | _ => simp [form]

theorem argumentText_unique
    {a b : Option String} {u v : List Char}
    (h : (argumentText a).toList ++ ')' :: u = (argumentText b).toList ++ ')' :: v) :
    a = b ∧ u = v := by
  have hquote : ∀ (text : String) (w : List Char),
      ∃ rest, (Text.literal text).toList ++ w = '\x22' :: rest := by
    intro text w
    rw [Text.literal, String.toList_ofList]
    exact ⟨_, rfl⟩
  rcases a with _ | a <;> rcases b with _ | b
  · exact ⟨rfl, (List.cons.inj h).2⟩
  · obtain ⟨rest, hrest⟩ := hquote b (')' :: v)
    have hclash : ')' :: u = '\x22' :: rest := h.trans hrest
    exact absurd (List.cons.inj hclash).1 (by decide)
  · obtain ⟨rest, hrest⟩ := hquote a (')' :: u)
    have hclash : '\x22' :: rest = ')' :: v := hrest.symm.trans h
    exact absurd (List.cons.inj hclash).1 (by decide)
  · obtain ⟨rfl, hrest⟩ := literal_unique h
    exact ⟨rfl, (List.cons.inj hrest).2⟩

theorem name_injective {m n : Method} (h : m.name.toList = n.name.toList) : m = n := by
  cases m <;> cases n <;> simp [Method.name] at h ⊢

/-- Operands of the same stem, mark and form differ in their payload. -/
theorem eq_of_form
    {a b : Operand} {stem : String} {u v : List Char} (ha : a.Plain) (hb : b.Plain)
    (hstem : a.stem? = .ok stem) (hstem' : b.stem? = .ok stem) (hmark : a.mark = b.mark)
    (hform : a.form.toList = b.form.toList) (h : a.payload ++ u = b.payload ++ v) :
    a = b ∧ u = v := by
  have hbracket : Binary64.isNumberChar ')' = false := by decide
  cases a with
  | text content =>
      cases b with
      | text content' =>
          rw [payload, payload, List.append_assoc, List.append_assoc] at h
          obtain ⟨rfl, hrest⟩ := literal_unique h
          exact ⟨rfl, (List.cons.inj hrest).2⟩
      | int | float => simp [form] at hform
      | «variable» | call => simp [mark] at hmark
  | int value =>
      cases b with
      | int value' =>
          rw [payload, payload, List.append_assoc, List.append_assoc] at h
          obtain ⟨htext, -, hrest⟩ := Text.run_unique
            (fun c hc => Binary64.isNumberChar_of_mem_intText hc)
            (fun c hc => Binary64.isNumberChar_of_mem_intText hc) hbracket hbracket h
          have hvalue := Number.intText_injective (String.toList_injective htext)
          exact ⟨by rw [Int64.toInt_inj.mp hvalue], hrest⟩
      | text | float => simp [form] at hform
      | «variable» | call => simp [mark] at hmark
  | float value =>
      cases b with
      | float value' =>
          rw [payload, payload, List.append_assoc, List.append_assoc] at h
          obtain ⟨htext, -, hrest⟩ := Text.run_unique
            (fun c hc => Binary64.isNumberChar_of_mem_text ha hc)
            (fun c hc => Binary64.isNumberChar_of_mem_text hb hc) hbracket hbracket h
          exact ⟨by rw [Binary64.eq_of_text ha hb (String.toList_injective htext)], hrest⟩
      | text | int => simp [form] at hform
      | «variable» | call => simp [mark] at hmark
  | «variable» name =>
      cases b with
      | «variable» name' =>
          exact ⟨by rw [binding_unique ha hb hstem hstem'], (List.cons.inj h).2⟩
      | call terminal method argument => cases method <;> simp [form, Method.name] at hform
      | text | int | float => simp [mark] at hmark
  | call terminal method argument =>
      cases b with
      | call terminal' method' argument' =>
          obtain rfl := name_injective hform
          rw [payload, payload, List.append_assoc, List.append_assoc] at h
          obtain ⟨rfl, hrest⟩ := argumentText_unique h
          exact ⟨by rw [binding_unique ha hb hstem hstem'], List.append_cancel_left hrest⟩
      | «variable» name => cases method <;> simp [form, Method.name] at hform
      | text | int | float => simp [mark] at hmark

/-- An operand is found again. -/
theorem text?_unique
    {a b : Operand} {s t : String} {u v : List Char} (ha : a.Plain) (hb : b.Plain)
    (hs : a.text? = .ok s) (ht : b.text? = .ok t) (h : s.toList ++ u = t.toList ++ v) :
    a = b ∧ u = v := by
  obtain ⟨stem, hstem, htext⟩ := text?_eq hs
  obtain ⟨stem', hstem', htext'⟩ := text?_eq ht
  rw [htext, htext', List.append_assoc, List.append_assoc, List.cons_append, List.cons_append,
    List.append_assoc, List.append_assoc] at h
  obtain ⟨hsame, hmark, hrest⟩ := Text.run_unique (isNameChar_of_stem? ha hstem)
    (isNameChar_of_stem? hb hstem') (isNameChar_mark a) (isNameChar_mark b) h
  obtain ⟨hform, -, hpayload⟩ :=
    Text.run_unique (notMem_form a) (notMem_form b) (by decide) (by decide) hrest
  rw [← String.toList_injective hsame] at hstem'
  exact eq_of_form ha hb hstem hstem' hmark hform hpayload

theorem mark_ne (o : Operand) : o.mark ≠ ' ' ∧ o.mark ≠ '(' := by
  cases o <;> simp [mark]

end Operand

/-! ## Actions -/

namespace Action

/-- The line of an action, taken apart. -/
inductive Line : Action → List Char → Prop
  | start {terminal bound : String} (name : binding terminal = .ok bound) :
      Line (.start terminal) ("let ".toList ++ (bound.toList ++ (" = ".toList ++
        ("terminals".toList ++ '.' :: ("start".toList ++ '(' ::
          ((Text.literal terminal).toList ++ ", &self.env)?;".toList))))))
  | bind {target bound text : String} {value : Operand}
      (name : binding target = .ok bound) (operand : value.text? = .ok text) :
      Line (.bind target value)
        ("let ".toList ++ (bound.toList ++ (" = ".toList ++ (text.toList ++ [';']))))
  | run {text : String} {value : Operand} (operand : value.text? = .ok text) :
      Line (.run value) (text.toList ++ [';'])
  | check {relation : Relation} {left right l r : String}
      (first : binding left = .ok l) (second : binding right = .ok r) :
      Line (.check relation left right)
        (relation.word.toList ++ '(' :: '&' :: (l.toList ++ ',' :: ' ' :: '&' ::
          (r.toList ++ ')' :: "?;".toList)))

theorem line_of_text? {a : Action} {s : String} (h : a.text? = .ok s) : a.Line s.toList := by
  cases a with
  | start terminal =>
      obtain ⟨bound, hbound, htext⟩ := Parse.bind_ok h
      obtain rfl := Except.ok.inj htext
      simpa using Line.start hbound
  | bind target value =>
      obtain ⟨bound, hbound, hrest⟩ := Parse.bind_ok h
      obtain ⟨text, hvalue, htext⟩ := Parse.bind_ok hrest
      obtain rfl := Except.ok.inj htext
      simpa using Line.bind hbound hvalue
  | run value =>
      obtain ⟨text, hvalue, htext⟩ := Parse.bind_ok h
      obtain rfl := Except.ok.inj htext
      simpa using Line.run hvalue
  | check relation left right =>
      obtain ⟨l, hl, hrest⟩ := Parse.bind_ok h
      obtain ⟨r, hr, htext⟩ := Parse.bind_ok hrest
      obtain rfl := Except.ok.inj htext
      simpa using Line.check hl hr

/-- The character that ends the first word of a line. -/
def lead : Action → Char
  | .start _ | .bind _ _ => ' '
  | .run value => value.mark
  | .check _ _ _ => '('

theorem isNameChar_lead (a : Action) : isNameChar a.lead = false := by
  cases a with
  | run value => exact value.isNameChar_mark
  | _ => rfl

theorem isNameChar_word (relation : Relation) :
    ∀ c ∈ relation.word.toList, isNameChar c = true := by
  apply List.all_eq_true.mp
  cases relation <;> decide

theorem word_injective {r r' : Relation} (h : r.word.toList = r'.word.toList) : r = r' := by
  have hfind : ∀ r : Relation,
      Relation.all.find? (fun s => s.word.toList == r.word.toList) = some r := by
    intro r
    cases r <;> decide
  exact Option.some.inj ((hfind r).symm.trans (h ▸ hfind r'))

/-- A line begins with a word and its lead; a check begins with its relation. -/
theorem Line.begins {a : Action} {s : List Char} (h : a.Line s) (ha : a.Plain) :
    ∃ word rest, (∀ c ∈ word, isNameChar c = true) ∧ s = word ++ a.lead :: rest ∧
      ∀ relation left right, a = .check relation left right → word = relation.word.toList := by
  have hlet : ∀ c ∈ "let".toList, isNameChar c = true := List.all_eq_true.mp (by decide)
  cases h with
  | start => exact ⟨_, _, hlet, by simp [lead]; rfl, by simp⟩
  | bind => exact ⟨_, _, hlet, by simp [lead]; rfl, by simp⟩
  | run hvalue =>
      obtain ⟨stem, hstem, htext⟩ := Operand.text?_eq hvalue
      rw [htext, List.append_assoc, List.cons_append]
      exact ⟨_, _, Operand.isNameChar_of_stem? ha hstem, rfl, by simp⟩
  | check =>
      refine ⟨_, _, isNameChar_word _, rfl, ?_⟩
      rintro relation left right ⟨⟩
      rfl

theorem lead_unique
    {a b : Action} {s t u v : List Char} (ha : a.Plain) (hb : b.Plain) (hs : a.Line s)
    (ht : b.Line t) (h : s ++ u = t ++ v) : a.lead = b.lead := by
  obtain ⟨word, rest, hword, rfl, -⟩ := hs.begins ha
  obtain ⟨word', rest', hword', rfl, -⟩ := ht.begins hb
  rw [List.append_assoc, List.append_assoc, List.cons_append, List.cons_append] at h
  exact (Text.run_unique hword hword' (isNameChar_lead a) (isNameChar_lead b) h).2.1

theorem let_unique
    {name other bound bound' : String} {u v : List Char} (hname : IsWord name)
    (hother : IsWord other) (hbound : binding name = .ok bound)
    (hbound' : binding other = .ok bound')
    (h : "let ".toList ++ (bound.toList ++ (" = ".toList ++ u)) =
      "let ".toList ++ (bound'.toList ++ (" = ".toList ++ v))) : name = other ∧ u = v := by
  have hrest :
      bound.toList ++ ' ' :: ("= ".toList ++ u) = bound'.toList ++ ' ' :: ("= ".toList ++ v) :=
    List.append_cancel_left h
  obtain ⟨hsame, -, hrest⟩ := Text.run_unique (isNameChar_of_binding hname hbound)
    (isNameChar_of_binding hother hbound') (by decide) (by decide) hrest
  rw [← String.toList_injective hsame] at hbound'
  exact ⟨binding_unique hname hother hbound hbound', List.append_cancel_left hrest⟩

/-- Starting a terminal does not read like any operand. -/
theorem not_operand_start
    {value : Operand} {text : String} {u v : List Char} (hvalue : value.Plain)
    (htext : value.text? = .ok text)
    (h : "terminals".toList ++ '.' :: ("start".toList ++ '(' :: u) = text.toList ++ v) : False := by
  obtain ⟨stem, hstem, heq⟩ := Operand.text?_eq htext
  rw [heq, List.append_assoc, List.cons_append, List.append_assoc, List.cons_append] at h
  have hterminals : ∀ c ∈ "terminals".toList, isNameChar c = true := List.all_eq_true.mp (by decide)
  have hstart : ∀ c ∈ "start".toList, (c != '(') = true := List.all_eq_true.mp (by decide)
  obtain ⟨-, hmark, hrest⟩ := Text.run_unique hterminals (Operand.isNameChar_of_stem? hvalue hstem)
    (by decide) value.isNameChar_mark h
  obtain ⟨hform, -⟩ := Text.run_unique hstart value.notMem_form (by decide) (by decide) hrest
  cases value with
  | call terminal method argument => cases method <;> simp [Operand.form, Method.name] at hform
  | _ => simp [Operand.form] at hform

/-- An action is found again. -/
theorem Line.unique
    {a b : Action} {s t u v : List Char} (ha : a.Plain) (hb : b.Plain) (hs : a.Line s)
    (ht : b.Line t) (h : s ++ u = t ++ v) : a = b ∧ u = v := by
  have hlead := lead_unique ha hb hs ht h
  cases hs with
  | start hbound =>
      cases ht with
      | start hbound' =>
          simp only [List.append_assoc] at h
          obtain ⟨rfl, hrest⟩ := let_unique ha hb hbound hbound' h
          exact ⟨rfl, by simpa using hrest⟩
      | bind hbound' hvalue' =>
          simp only [List.append_assoc] at h
          obtain ⟨-, hrest⟩ := let_unique ha hb.1 hbound hbound' h
          exact (not_operand_start hb.2 hvalue' hrest).elim
      | run => exact absurd hlead.symm (Operand.mark_ne _).1
      | check => simp [lead] at hlead
  | bind hbound hvalue =>
      cases ht with
      | start hbound' =>
          simp only [List.append_assoc] at h
          obtain ⟨-, hrest⟩ := let_unique ha.1 hb hbound hbound' h
          exact (not_operand_start ha.2 hvalue hrest.symm).elim
      | bind hbound' hvalue' =>
          simp only [List.append_assoc] at h
          obtain ⟨rfl, hrest⟩ := let_unique ha.1 hb.1 hbound hbound' h
          obtain ⟨rfl, hrest⟩ := Operand.text?_unique ha.2 hb.2 hvalue hvalue' hrest
          exact ⟨rfl, (List.cons.inj hrest).2⟩
      | run => exact absurd hlead.symm (Operand.mark_ne _).1
      | check => simp [lead] at hlead
  | run hvalue =>
      cases ht with
      | start => exact absurd hlead (Operand.mark_ne _).1
      | bind => exact absurd hlead (Operand.mark_ne _).1
      | run hvalue' =>
          simp only [List.append_assoc] at h
          obtain ⟨rfl, hrest⟩ := Operand.text?_unique ha hb hvalue hvalue' h
          exact ⟨rfl, (List.cons.inj hrest).2⟩
      | check => exact absurd hlead (Operand.mark_ne _).2
  | check hl hr =>
      cases ht with
      | start => simp [lead] at hlead
      | bind => simp [lead] at hlead
      | run => exact absurd hlead.symm (Operand.mark_ne _).2
      | check hl' hr' =>
          simp only [List.append_assoc, List.cons_append] at h
          obtain ⟨hword, -, hrest⟩ := Text.run_unique (isNameChar_word _) (isNameChar_word _)
            (by decide) (by decide) h
          obtain ⟨hleft, -, hrest⟩ := Text.run_unique (isNameChar_of_binding ha.1 hl)
            (isNameChar_of_binding hb.1 hl') (by decide) (by decide) (List.cons.inj hrest).2
          have hrest := (List.cons.inj (List.cons.inj hrest).2).2
          obtain ⟨hright, -, hrest⟩ := Text.run_unique (isNameChar_of_binding ha.2 hr)
            (isNameChar_of_binding hb.2 hr') (by decide) (by decide) hrest
          rw [← String.toList_injective hleft] at hl'
          rw [← String.toList_injective hright] at hr'
          obtain rfl := word_injective hword
          obtain rfl := binding_unique ha.1 hb.1 hl hl'
          obtain rfl := binding_unique ha.2 hb.2 hr hr'
          exact ⟨rfl, List.append_cancel_left hrest⟩

/-- The end of a body does not read like an action. -/
theorem Line.ne_ending
    {a : Action} {s u v : List Char} (ha : a.Plain) (hs : a.Line s)
    (h : s ++ u = "Ok".toList ++ '(' :: v) : False := by
  obtain ⟨word, rest, hword, rfl, hcheck⟩ := hs.begins ha
  have hok : ∀ c ∈ "Ok".toList, isNameChar c = true := List.all_eq_true.mp (by decide)
  rw [List.append_assoc, List.cons_append] at h
  obtain ⟨hsame, hlead, -⟩ := Text.run_unique hword hok (isNameChar_lead a) (by decide) h
  cases a with
  | start => simp [lead] at hlead
  | bind => simp [lead] at hlead
  | run => exact (Operand.mark_ne _).2 hlead
  | check relation left right =>
      rw [hcheck _ _ _ rfl] at hsame
      cases relation <;> simp [Relation.word] at hsame

end Action

/-! ## Functions -/

namespace Plan

theorem lineText_append (line : String) (rest : List Char) :
    Mark.lineText 3 line ++ rest = List.replicate 12 ' ' ++ (line.toList ++ '\n' :: rest) := by
  simp [Mark.lineText]

/-- The actions before the end of a body are found again. -/
theorem lines_unique
    {as bs : List Action} {lines lines' : List String} {u v : List Char}
    (ha : ∀ a ∈ as, a.Plain) (hb : ∀ b ∈ bs, b.Plain) (hs : Spelled as lines)
    (ht : Spelled bs lines')
    (h : lines.flatMap (Mark.lineText 3) ++ (List.replicate 12 ' ' ++ ("Ok".toList ++ '(' :: u)) =
      lines'.flatMap (Mark.lineText 3) ++ (List.replicate 12 ' ' ++ ("Ok".toList ++ '(' :: v))) :
    as = bs ∧ u = v := by
  induction hs generalizing bs lines' with
  | nil =>
      cases ht with
      | nil =>
          have hrest := List.append_cancel_left (List.append_cancel_left h)
          exact ⟨rfl, (List.cons.inj (List.append_cancel_left hrest)).2⟩
      | cons hline _ =>
          rw [List.flatMap_nil, List.nil_append, List.flatMap_cons, List.append_assoc,
            lineText_append] at h
          have hend := (Action.line_of_text? hline).ne_ending (hb _ List.mem_cons_self)
            (List.append_cancel_left h).symm
          exact hend.elim
  | cons hline hmore ih =>
      rw [List.flatMap_cons, List.append_assoc, lineText_append] at h
      have ha' := fun a hmem => ha a (List.mem_cons_of_mem _ hmem)
      cases ht with
      | nil =>
          have hend := (Action.line_of_text? hline).ne_ending (ha _ List.mem_cons_self)
            (List.append_cancel_left h)
          exact hend.elim
      | cons hline' hmore' =>
          rw [List.flatMap_cons, List.append_assoc, lineText_append] at h
          obtain ⟨rfl, hrest⟩ := (Action.line_of_text? hline).unique (ha _ List.mem_cons_self)
            (hb _ List.mem_cons_self) (Action.line_of_text? hline') (List.append_cancel_left h)
          obtain ⟨rfl, hrest⟩ := ih ha' (fun b hmem => hb b (List.mem_cons_of_mem _ hmem)) hmore'
            (List.cons.inj hrest).2
          exact ⟨rfl, hrest⟩

/-- A function begins with its name, which a bracket ends. -/
theorem render_headMarks (function : String) :
    ∃ rest, render 1 (headMarks function) =
      "\n    pub fn ".toList ++ (function.toList ++ '(' :: rest) := by
  refine ⟨"&self) -> CaseResult \x7b\n".toList ++ render 2
    [.line "let terminals = TerminalRegistry::new();",
      .opening "let outcome = match guarded(|| -> CaseResult \x7b"], ?_⟩
  have hline : Mark.lineText 1 ("pub fn " ++ function ++ "(&self) -> CaseResult \x7b") =
      "    pub fn ".toList ++ (function.toList ++ '(' :: "&self) -> CaseResult \x7b\n".toList) := by
    simp [Mark.lineText]
  change ['\n'] ++ (Mark.lineText 1 _ ++ _) = _
  rw [hline]
  simp only [List.append_assoc, List.cons_append]
  rfl

/-- After its actions a function goes on with the end of the body. -/
theorem render_tailMarks (function : String) :
    ∃ rest, render 3 (tailMarks function) =
      List.replicate 12 ' ' ++ ("Ok".toList ++ '(' :: rest) :=
  ⟨_, rfl⟩

/-- A function is found again. -/
theorem functionText_unique
    {p q : Plan} {lines lines' : List String} {u v : List Char} (hp : p.Plain) (hq : q.Plain)
    (hs : Spelled p.actions lines) (ht : Spelled q.actions lines')
    (h : functionText p.function lines ++ u = functionText q.function lines' ++ v) :
    p = q ∧ u = v := by
  obtain ⟨function, actions⟩ := p
  obtain ⟨function', actions'⟩ := q
  have hwords : function = function' := by
    obtain ⟨rest, hrest⟩ := render_headMarks function
    obtain ⟨rest', hrest'⟩ := render_headMarks function'
    simp only [functionText, hrest, hrest', List.append_assoc, List.cons_append] at h
    have hnames := List.append_cancel_left h
    exact String.toList_injective
      (Text.run_unique hp.function hq.function (by decide) (by decide) hnames).1
  subst hwords
  obtain ⟨rest, hrest⟩ := render_tailMarks function
  simp only [functionText, hrest, List.append_assoc, List.cons_append] at h
  obtain ⟨rfl, hlast⟩ := lines_unique hp.actions hq.actions hs ht (List.append_cancel_left h)
  exact ⟨rfl, List.append_cancel_left hlast⟩

end Plan

/-! ## Suites -/

namespace Suite

/-- The functions before the closing text are found again. -/
theorem functions_unique
    {ps qs : List Plan} {s t u v : List Char} (hp : ∀ p ∈ ps, p.Plain) (hq : ∀ q ∈ qs, q.Plain)
    (hs : FunctionsText ps s) (ht : FunctionsText qs t)
    (h : s ++ '\x7d' :: u = t ++ '\x7d' :: v) : ps = qs := by
  have hfirst : ∀ (function : String) (lines : List String) (w : List Char),
      (Plan.functionText function lines ++ w).head? = some '\n' := by
    intro function lines w
    obtain ⟨rest, hrest⟩ := Plan.render_headMarks function
    rw [Plan.functionText, hrest]
    rfl
  induction hs generalizing qs t with
  | nil =>
      cases ht with
      | nil => rfl
      | cons =>
          have hclash := congrArg List.head? h
          rw [List.append_assoc, hfirst] at hclash
          simp at hclash
  | cons hspelled _ ih =>
      cases ht with
      | nil =>
          have hclash := congrArg List.head? h
          rw [List.append_assoc, hfirst] at hclash
          simp at hclash
      | cons hspelled' hmore' =>
          rw [List.append_assoc, List.append_assoc] at h
          obtain ⟨rfl, hrest⟩ := Plan.functionText_unique (hp _ List.mem_cons_self)
            (hq _ List.mem_cons_self) hspelled hspelled' h
          rw [ih (fun p hmem => hp p (List.mem_cons_of_mem _ hmem))
            (fun q hmem => hq q (List.mem_cons_of_mem _ hmem)) hmore' hrest]

/-- A suite with plain plans is found again in its listing. -/
theorem listing_unique
    {a b : Suite} {code : String} (ha : ∀ p ∈ a.plans, p.Plain) (hb : ∀ p ∈ b.plans, p.Plain)
    (hcode : a.program.listing = .ok code) (hcode' : b.program.listing = .ok code) : a = b := by
  obtain ⟨functions, hfunctions, htext⟩ := listing_eq hcode
  obtain ⟨functions', hfunctions', htext'⟩ := listing_eq hcode'
  obtain ⟨hconfig, hrest⟩ :=
    rawLiteral_unique (List.append_cancel_left (htext.symm.trans htext'))
  have hplans : a.plans = b.plans :=
    functions_unique ha hb hfunctions hfunctions' (List.append_cancel_left hrest)
  obtain ⟨config, plans⟩ := a
  obtain ⟨config', plans'⟩ := b
  rw [Suite.mk.injEq]
  exact ⟨hconfig, hplans⟩

end Suite

/--
The code of a compiled text determines what was planned: two texts that compile to the same code
have the same suite, with the same configuration and the same plans in the same order.
-/
theorem compile_determines_suite
    {text other code : String} (h : compile text = .ok code) (h' : compile other = .ok code) :
    ∃ suite, Suite.ofText text = .ok suite ∧ Suite.ofText other = .ok suite := by
  obtain ⟨suite, hsuite, hlisting⟩ := listing_of_compile h
  obtain ⟨suite', hsuite', hlisting'⟩ := listing_of_compile h'
  have hsame : suite = suite' := Suite.listing_unique (fun p hp => Suite.plain hsuite hp)
    (fun p hp => Suite.plain hsuite' hp) hlisting hlisting'
  exact ⟨suite, hsuite, hsame ▸ hsuite'⟩

/-- A case file with a name that is a keyword of generated code, a fraction and a list of rows. -/
def spaciousSource : String :=
  "Config \x7b \x22c\x22 \x7d\nTestCase T \x7b\n  Terminal type;\n  x = 0.10;\n" ++
    "  y = type: ResultSet(\x22q\x22);\n  expect_in(y, 7);\n\x7d\n"

/-- The same case file, spelled and laid out differently. -/
def denseSource : String :=
  "# dense\nConfig\x7b\x22\x22\x22c\x22\x22\x22\x7dTestCase T\x7bTerminal type;x=0.1;" ++
    "y=type:ResultSet(\x22\x22\x22q\x22\x22\x22);expect_in(y,007);\x7d"

theorem compile_determines_suite_layouts :
    ∃ code, compile spaciousSource = .ok code ∧ compile denseSource = .ok code ∧
      ∃ suite, Suite.ofText spaciousSource = .ok suite ∧ Suite.ofText denseSource = .ok suite := by
  obtain ⟨code, hcode⟩ := exists_code spaciousSource (by decide +kernel)
  have hplans : Suite.ofText denseSource = Suite.ofText spaciousSource := by decide +kernel
  have hsame : compile denseSource = compile spaciousSource := by rw [compile, hplans, compile]
  exact ⟨code, hcode, hsame.trans hcode, compile_determines_suite hcode (hsame.trans hcode)⟩

end CaseSuite
