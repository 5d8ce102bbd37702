import CaseSuite.Proofs.Text.Literals
import CaseSuite.Token.Scan
import Mathlib

/-!
# Code and literals

A reader of generated code goes through it character by character and knows whether it stands in a
literal.  Outside of literals it follows the words, since some of them announce a raw literal.  A
quoted literal ends at a quote that no backslash escapes; a raw literal ends as soon as its fence
has been read.  Whatever text a literal holds, the reader comes out of it where the literal ends and
not before.
-/

namespace CaseSuite
namespace Text

/-! ## Regions -/

/-- Where a reader of generated code stands. -/
inductive Region where
  /-- Outside of literals, behind the characters of a word if there are any. -/
  | code (word : List Char)
  /-- Outside of literals, behind a word that announces a raw literal and number signs. -/
  | fence (hashes : Nat)
  /-- In a quoted literal. -/
  | quoted
  /-- In a quoted literal, behind a backslash. -/
  | escaped
  /-- In a raw literal, behind a part of what follows its opening quote. -/
  | raw (hashes : Nat) (body : List Char)
  deriving DecidableEq, Repr

/-- The words that announce a raw literal. -/
def rawWords : List (List Char) := [['r'], ['b', 'r'], ['c', 'r']]

/-- A character of a word; beyond ASCII everything is taken for a letter. -/
def isWordPart (c : Char) : Bool := Token.isWordChar c || 0x80 ≤ c.toNat

namespace Region

/-- Go on with a word, or behind what belongs to no word. -/
def resume (word : List Char) (c : Char) : Region :=
  if isWordPart c then code (word ++ [c]) else code []

/-- Where the reader stands after one more character. -/
def next : Region → Char → Region
  | code word, c =>
      if c = doubleQuote then if word ∈ rawWords then raw 0 [] else quoted
      else if c = '#' ∧ word ∈ rawWords then fence 1
      else resume word c
  | fence hashes, c =>
      if c = doubleQuote then raw hashes []
      else if c = '#' then fence (hashes + 1)
      else resume [] c
  | quoted, c =>
      if c = doubleQuote then code []
      else if c = '\\' then escaped
      else quoted
  | escaped, _ => quoted
  | raw hashes body, c =>
      if (fenceEnd hashes).isSuffixOf (body ++ [c]) then code [] else raw hashes (body ++ [c])

/-- Outside of literals. -/
def isOutside : Region → Bool
  | code _ | fence _ => true
  | quoted | escaped | raw _ _ => false

/-- Where the reader stands after a text. -/
def read (r : Region) (cs : List Char) : Region := cs.foldl next r

@[simp] theorem read_nil (r : Region) : r.read [] = r :=
  rfl

@[simp] theorem read_cons (r : Region) (c : Char) (cs : List Char) :
    r.read (c :: cs) = (r.next c).read cs :=
  rfl

@[simp] theorem read_append (r : Region) (cs ds : List Char) :
    r.read (cs ++ ds) = (r.read cs).read ds :=
  List.foldl_append

theorem resume_of_not_isWordPart {c : Char} (h : isWordPart c = false) (word : List Char) :
    resume word c = code [] := by
  simp [resume, h]

theorem isOutside_resume (word : List Char) (c : Char) : (resume word c).isOutside = true := by
  unfold resume
  split <;> rfl

/-- Only a quote leads into a literal. -/
theorem isOutside_next {r : Region} {c : Char} (h : r.isOutside = true) (hc : c ≠ doubleQuote) :
    (r.next c).isOutside = true := by
  cases r with
  | code word =>
      rw [next, if_neg hc]
      split
      · rfl
      · exact isOutside_resume word c
  | fence hashes =>
      rw [next, if_neg hc]
      split
      · rfl
      · exact isOutside_resume [] c
  | quoted => cases h
  | escaped => cases h
  | raw hashes body => cases h

theorem isOutside_read {r : Region} {cs : List Char} (h : r.isOutside = true)
    (hcs : ∀ c ∈ cs, c ≠ doubleQuote) : (r.read cs).isOutside = true := by
  induction cs generalizing r with
  | nil => exact h
  | cons c cs ih =>
      rw [List.forall_mem_cons] at hcs
      exact ih (isOutside_next h hcs.1) hcs.2

/-- Behind a character that belongs to no word, to no literal and to no fence there is no word. -/
theorem next_of_isOutside {r : Region} {c : Char} (h : r.isOutside = true) (hc : c ≠ doubleQuote)
    (hhash : c ≠ '#') (hword : isWordPart c = false) : r.next c = code [] := by
  cases r with
  | code word => simp [next, hc, hhash, resume_of_not_isWordPart hword]
  | fence hashes => simp [next, hc, hhash, resume_of_not_isWordPart hword]
  | quoted => cases h
  | escaped => cases h
  | raw hashes body => cases h

/-- A line feed does not end a literal. -/
theorem not_isOutside_next_feed {r : Region} (h : r.isOutside = false) :
    (r.next '\n').isOutside = false := by
  cases r with
  | code word => cases h
  | fence hashes => cases h
  | quoted => rfl
  | escaped => rfl
  | raw hashes body =>
      have hopen : ¬ fenceEnd hashes <:+ body ++ ['\n'] := by
        rintro ⟨front, hfront⟩
        have hne : fenceEnd hashes ≠ [] := List.cons_ne_nil _ _
        have hlast : (fenceEnd hashes).getLast? = some '\n' := by
          rw [← List.getLast?_append_of_ne_nil front hne, hfront, List.getLast?_concat]
        have hmem := List.mem_of_getLast? hlast
        simp [fenceEnd, doubleQuote] at hmem
      rw [next, if_neg (by rwa [List.isSuffixOf_iff_suffix])]
      rfl

/-- The reader stands in a literal in front of every character of a text. -/
def Inside : Region → List Char → Prop
  | _, [] => True
  | r, c :: cs => r.isOutside = false ∧ Inside (r.next c) cs

theorem Inside.append {r : Region} {cs ds : List Char} (hcs : r.Inside cs)
    (hds : (r.read cs).Inside ds) : r.Inside (cs ++ ds) := by
  induction cs generalizing r with
  | nil => exact hds
  | cons c cs ih => exact ⟨hcs.1, ih hcs.2 hds⟩

/-! ## Quoted literals -/

theorem quoted_of_plain {cs : List Char} (h : ∀ c ∈ cs, c ≠ doubleQuote ∧ c ≠ '\\') :
    quoted.Inside cs ∧ quoted.read cs = quoted := by
  induction cs with
  | nil => exact ⟨trivial, rfl⟩
  | cons c cs ih =>
      rw [List.forall_mem_cons] at h
      have hnext : quoted.next c = quoted := by simp [next, h.1]
      obtain ⟨hinside, hread⟩ := ih h.2
      rw [Inside, read_cons, hnext]
      exact ⟨⟨rfl, hinside⟩, hread⟩

/-- An escaped character ends no literal. -/
theorem quoted_escape (hidden : Char → Bool) (c : Char) :
    quoted.Inside (escape hidden doubleQuote c) ∧
      quoted.read (escape hidden doubleQuote c) = quoted := by
  rcases escape_cases hidden c with ⟨e, hescape, -, -⟩ | hescape | ⟨hescape, hplain⟩
  · rw [hescape]
    exact ⟨⟨rfl, rfl, trivial⟩, rfl⟩
  · have hdigits : ∀ d ∈ '\x7b' :: (Nat.toDigits 16 c.toNat ++ ['\x7d']),
        d ≠ doubleQuote ∧ d ≠ '\\' := by
      have hdigit : ∀ n < 16, n.digitChar ≠ doubleQuote ∧ n.digitChar ≠ '\\' := by decide
      intro d hd
      rw [List.mem_cons, List.mem_append, List.mem_singleton] at hd
      rcases hd with rfl | hd | rfl
      · decide
      · obtain ⟨n, hn, rfl⟩ := exists_digitChar_of_mem_toDigits hd
        exact hdigit n hn
      · decide
    obtain ⟨hinside, hread⟩ := quoted_of_plain hdigits
    rw [hescape]
    exact ⟨⟨rfl, rfl, hinside⟩, hread⟩
  · simp only [List.mem_cons, List.not_mem_nil, or_false, not_or] at hplain
    rw [hescape]
    exact quoted_of_plain (by simp [hplain])

/-- The reader leaves a quoted literal with its last quote. -/
theorem quoted_body (hidden : Char → Bool) (cs : List Char) :
    quoted.Inside (cs.flatMap (escape hidden doubleQuote) ++ [doubleQuote]) ∧
      quoted.read (cs.flatMap (escape hidden doubleQuote) ++ [doubleQuote]) = code [] := by
  induction cs with
  | nil => exact ⟨⟨rfl, trivial⟩, rfl⟩
  | cons c cs ih =>
      obtain ⟨hinside, hread⟩ := quoted_escape hidden c
      rw [List.flatMap_cons, List.append_assoc]
      constructor
      · apply hinside.append
        rw [hread]
        exact ih.1
      · rw [read_append, hread]
        exact ih.2

/-! ## Raw literals -/

theorem fence_hashes (hashes more : Nat) :
    (fence hashes).read (List.replicate more '#') = fence (hashes + more) := by
  induction more generalizing hashes with
  | zero => rfl
  | succ more ih =>
      rw [List.replicate_succ, read_cons]
      have hnext : (fence hashes).next '#' = fence (hashes + 1) := rfl
      rw [hnext, ih, Nat.add_right_comm, Nat.add_assoc]

/-- A fence of at least one number sign leads into a raw literal. -/
theorem code_fence (hashes : Nat) :
    (code []).read ('r' :: List.replicate (hashes + 1) '#' ++ [doubleQuote]) =
      raw (hashes + 1) [] := by
  have hfirst : (code []).read ['r', '#'] = fence 1 := by decide
  have hsplit : 'r' :: List.replicate (hashes + 1) '#' ++ [doubleQuote] =
      ['r', '#'] ++ (List.replicate hashes '#' ++ [doubleQuote]) := by
    simp [List.replicate_succ]
  rw [hsplit, read_append, hfirst, read_append, fence_hashes, Nat.add_comm]
  rfl

/-- The reader leaves a raw literal as soon as it has read its fence. -/
theorem raw_body {hashes : Nat} {body cs : List Char} (hne : cs ≠ [])
    (hopen : ∀ front, front <+: cs → front ≠ cs → ¬ fenceEnd hashes <:+ body ++ front)
    (hclosed : fenceEnd hashes <:+ body ++ cs) :
    (raw hashes body).Inside cs ∧ (raw hashes body).read cs = code [] := by
  induction cs generalizing body with
  | nil => exact absurd rfl hne
  | cons c cs ih =>
      rw [Inside, read_cons]
      by_cases hcs : cs = []
      · subst hcs
        have hnext : (raw hashes body).next c = code [] := by
          rw [next, if_pos (by rwa [List.isSuffixOf_iff_suffix])]
        rw [hnext]
        exact ⟨⟨rfl, trivial⟩, rfl⟩
      · have hnext : (raw hashes body).next c = raw hashes (body ++ [c]) := by
          have hfirst := hopen [c] (by simp) (by simpa using Ne.symm hcs)
          rw [next, if_neg (by rwa [List.isSuffixOf_iff_suffix])]
        have hmore := @ih (body ++ [c]) hcs ?_ ?_
        · rw [hnext]
          exact ⟨⟨rfl, hmore.1⟩, hmore.2⟩
        · intro front hfront hproper
          have hlonger := hopen (c :: front) ((List.prefix_cons_inj c).mpr hfront)
            (by simpa using hproper)
          simpa using hlonger
        · simpa using hclosed

/-- The fence of a literal is not read before its end if its text does not hold it. -/
theorem not_suffix_of_proper {hashes : Nat} {cs front : List Char}
    (h : ¬ fenceEnd hashes <:+: cs) (hfront : front <+: cs ++ fenceEnd hashes)
    (hproper : front ≠ cs ++ fenceEnd hashes) : ¬ fenceEnd hashes <:+ front := by
  rintro ⟨before, rfl⟩
  obtain ⟨after, hafter⟩ := hfront
  have hsome : after ≠ [] := by
    rintro rfl
    exact hproper (by simpa using hafter)
  have hlength := congrArg List.length hafter
  have hpos := List.length_pos_iff.mpr hsome
  simp only [List.length_append] at hlength
  -- The fence that was found begins inside the text, so it lies inside the text.
  have hprefix : before <+: cs := by
    apply List.prefix_of_prefix_length_le _ (List.prefix_append cs (fenceEnd hashes)) (by omega)
    exact ⟨fenceEnd hashes ++ after, by simpa using hafter⟩
  obtain ⟨rest, rfl⟩ := hprefix
  rw [List.append_assoc, List.append_assoc] at hafter
  have hrest := List.append_cancel_left hafter
  rcases rest with _ | ⟨c, rest⟩
  · simp only [List.append_nil] at hlength
    omega
  · have hinside : fenceEnd hashes <+: c :: rest := fenceEnd_prefix_of_append ⟨after, hrest⟩
    exact h (hinside.isInfix.trans (List.suffix_append _ _).isInfix)

/-- The reader leaves a raw literal with its last number sign. -/
theorem raw_literal {hashes : Nat} {cs : List Char} (h : ¬ fenceEnd hashes <:+: cs) :
    (raw hashes []).Inside (cs ++ fenceEnd hashes) ∧
      (raw hashes []).read (cs ++ fenceEnd hashes) = code [] := by
  apply raw_body
  · simp [fenceEnd]
  · intro front hfront hproper
    exact not_suffix_of_proper h hfront hproper
  · exact List.suffix_append cs (fenceEnd hashes)

end Region

/-- There is at least one number sign in a fence. -/
theorem exists_fence_eq_succ (cs : List Char) : ∃ hashes, fence cs = hashes + 1 :=
  Nat.exists_eq_add_of_le' (le_fenceFrom cs 1)

end Text
end CaseSuite
