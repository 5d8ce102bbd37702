import CaseSuite.Text.Quoted
import Mathlib.Data.List.Infix
import Mathlib.Tactic.Common

/-!
# Reading literals

Both literal forms of generated code are read from the front of a text.  A quoted literal ends at
the first quote that no backslash escapes; a raw literal ends at the first quote that as many number
signs follow as opened it.  What was written is read back whatever text comes after it.
-/

namespace CaseSuite
namespace Text

/-! ## Quoted literals -/

/-- The number that a hexadecimal digit stands for. -/
def hexDigit? (c : Char) : Option Nat :=
  if '0' ≤ c && c ≤ '9' then some (c.toNat - '0'.toNat)
  else if 'a' ≤ c && c ≤ 'f' then some (c.toNat - 'a'.toNat + 10)
  else if 'A' ≤ c && c ≤ 'F' then some (c.toNat - 'A'.toNat + 10)
  else none

/-- Hexadecimal digits up to a closing brace, after digits that stand for a given number. -/
def readCode? (n : Nat) : List Char → Option (Nat × List Char)
  | [] => none
  | c :: rest =>
      if c = '\x7d' then some (n, rest)
      else (hexDigit? c).bind fun d => readCode? (16 * n + d) rest

/-- What an escape stands for, given what follows its backslash; a code point has one to six
digits. -/
def readEscape? : List Char → Option (Char × List Char)
  | '0' :: rest => some ('\x00', rest)
  | 't' :: rest => some ('\t', rest)
  | 'r' :: rest => some ('\r', rest)
  | 'n' :: rest => some ('\n', rest)
  | '\x22' :: rest => some ('\x22', rest)
  | '\\' :: rest => some ('\\', rest)
  | 'u' :: '\x7b' :: rest =>
      let digits := (rest.takeWhile (· ≠ '\x7d')).length
      if 1 ≤ digits ∧ digits ≤ 6 then
        (readCode? 0 rest).bind fun (n, rest) =>
          if n.isValidChar then some (Char.ofNat n, rest) else none
      else none
  | _ => none

theorem readCode?_length
    {n m : Nat} {cs rest : List Char} (h : readCode? n cs = some (m, rest)) :
    rest.length < cs.length := by
  induction cs generalizing n with
  | nil => simp [readCode?] at h
  | cons c cs ih =>
      rw [readCode?] at h
      split at h
      · obtain ⟨rfl, rfl⟩ := Prod.mk.inj (Option.some.inj h)
        simp
      · obtain ⟨d, -, hmore⟩ := Option.bind_eq_some_iff.mp h
        have hshort := ih hmore
        simp only [List.length_cons]
        omega

theorem readEscape?_length
    {c : Char} {cs rest : List Char} (h : readEscape? cs = some (c, rest)) :
    rest.length < cs.length := by
  unfold readEscape? at h
  split at h
  case h_7 cs =>
    replace h := (Option.ite_none_right_eq_some.mp h).2
    obtain ⟨⟨n, left⟩, hcode, hvalid⟩ := Option.bind_eq_some_iff.mp h
    have hshort := readCode?_length hcode
    simp only at hvalid
    split at hvalid
    · obtain ⟨-, rfl⟩ := Prod.mk.inj (Option.some.inj hvalid)
      simp only [List.length_cons]
      omega
    · simp at hvalid
  case h_8 => simp at h
  all_goals
    obtain ⟨-, rfl⟩ := Prod.mk.inj (Option.some.inj h)
    simp

/-- A quoted text and what follows its closing quote, given what follows its opening quote. -/
def readQuoted? : List Char → Option (List Char × List Char)
  | [] => none
  | c :: cs =>
      if c = doubleQuote then some ([], cs)
      else if c = '\\' then
        match h : readEscape? cs with
        | none => none
        | some (e, rest) =>
            have := readEscape?_length h
            (readQuoted? rest).map fun (text, rest) => (e :: text, rest)
      else (readQuoted? cs).map fun (text, rest) => (c :: text, rest)
termination_by cs => cs.length
decreasing_by
  · exact Nat.lt_succ_of_lt this
  · exact Nat.lt_succ_self _

/-- A quoted literal at the front of a text, and what follows it. -/
def readLiteral? : List Char → Option (List Char × List Char)
  | [] => none
  | c :: cs => if c = doubleQuote then readQuoted? cs else none

theorem hexDigit?_digitChar : ∀ d < 16, hexDigit? d.digitChar = some d := by
  decide

theorem digitChar_ne_brace : ∀ d < 16, d.digitChar ≠ '\x7d' := by
  decide

theorem digitChar_notMem_breaks : ∀ d < 16, d.digitChar ∉ ['\n', '\r'] := by
  decide

theorem exists_digitChar_of_mem_toDigits
    {n : Nat} {c : Char} (h : c ∈ Nat.toDigits 16 n) : ∃ d < 16, c = d.digitChar := by
  induction n using Nat.strongRecOn with
  | ind n ih =>
      by_cases hn : n < 16
      · rw [Nat.toDigits_of_lt_base hn, List.mem_singleton] at h
        exact ⟨n, hn, h⟩
      · rw [Nat.toDigits_of_base_le (by decide) (by omega), List.mem_append,
          List.mem_singleton] at h
        rcases h with hfront | hlast
        · exact ih (n / 16) (by omega) hfront
        · exact ⟨n % 16, Nat.mod_lt n (by decide), hlast⟩

/-- The digits of a number are read back; what was read before them moves up by some places. -/
theorem readCode?_toDigits (n m : Nat) (rest : List Char) :
    ∃ places, readCode? m (Nat.toDigits 16 n ++ rest) = readCode? (m * places + n) rest := by
  induction n using Nat.strongRecOn generalizing rest with
  | ind n ih =>
      by_cases hn : n < 16
      · refine ⟨16, ?_⟩
        rw [Nat.toDigits_of_lt_base hn, List.singleton_append, readCode?,
          if_neg (digitChar_ne_brace n hn), hexDigit?_digitChar n hn]
        simp [Nat.mul_comm]
      · have hmod : n % 16 < 16 := Nat.mod_lt n (by decide)
        obtain ⟨places, hplaces⟩ := ih (n / 16) (by omega) ((n % 16).digitChar :: rest)
        refine ⟨places * 16, ?_⟩
        rw [Nat.toDigits_of_base_le (by decide) (by omega), List.append_assoc,
          List.singleton_append, hplaces, readCode?, if_neg (digitChar_ne_brace _ hmod),
          hexDigit?_digitChar _ hmod, Option.bind_some]
        congr 1
        rw [← Nat.mul_assoc]
        omega

/-- A code point has one to six hexadecimal digits, and a brace is none of them. -/
theorem length_code (c : Char) (rest : List Char) :
    let digits := ((Nat.toDigits 16 c.toNat ++ '\x7d' :: rest).takeWhile (· ≠ '\x7d')).length
    1 ≤ digits ∧ digits ≤ 6 := by
  have hdigits : ∀ d ∈ Nat.toDigits 16 c.toNat, decide (d ≠ '\x7d') = true := by
    intro d hd
    obtain ⟨n, hn, rfl⟩ := exists_digitChar_of_mem_toDigits hd
    exact decide_eq_true (digitChar_ne_brace n hn)
  have hbound : c.toNat < 16 ^ 6 := by
    have hvalid : c.toNat.isValidChar := c.valid
    unfold Nat.isValidChar at hvalid
    omega
  simp only [List.takeWhile_append_of_pos hdigits, ne_eq, not_true, decide_false,
    Bool.false_eq_true, not_false_eq_true, List.takeWhile_cons_of_neg, List.append_nil]
  exact ⟨Nat.length_toDigits_pos, (Nat.length_toDigits_le_iff (by decide) (by decide)).mpr hbound⟩

theorem readEscape?_code (c : Char) (rest : List Char) :
    readEscape? ('u' :: '\x7b' :: Nat.toDigits 16 c.toNat ++ '\x7d' :: rest) = some (c, rest) := by
  obtain ⟨places, hplaces⟩ := readCode?_toDigits c.toNat 0 ('\x7d' :: rest)
  have hvalid : c.toNat.isValidChar := c.valid
  rw [List.cons_append, List.cons_append, readEscape?, if_pos (length_code c rest)]
  simp [hplaces, readCode?, hvalid]

/-- A backslash is read with the escape that follows it. -/
theorem readQuoted?_slash
    {c : Char} {cs rest : List Char} (h : readEscape? cs = some (c, rest)) :
    readQuoted? ('\\' :: cs) = (readQuoted? rest).map fun (text, rest) => (c :: text, rest) := by
  have hslash : '\\' ≠ doubleQuote := by decide
  rw [readQuoted?, if_neg hslash, if_pos rfl]
  split
  · rename_i hnone
    simp [h] at hnone
  · rename_i e left hsome
    rw [h] at hsome
    obtain ⟨rfl, rfl⟩ := Prod.mk.inj (Option.some.inj hsome)
    rfl

/-- A character is written as a backslash and one more character, as its code point, or as
itself. -/
theorem escape_cases (hidden : Char → Bool) (c : Char) :
    (∃ e, escape hidden doubleQuote c = ['\\', e] ∧
        (∀ rest, readEscape? (e :: rest) = some (c, rest)) ∧
        e ∈ ['0', 't', 'r', 'n', doubleQuote, '\\']) ∨
      escape hidden doubleQuote c = escapeCode c ∨
      escape hidden doubleQuote c = [c] ∧ c ∉ ['\n', '\r', doubleQuote, '\\'] := by
  by_cases hnamed : c ∈ ['\x00', '\t', '\r', '\n', doubleQuote, '\\']
  · left
    simp only [List.mem_cons, List.not_mem_nil, or_false] at hnamed
    rcases hnamed with rfl | rfl | rfl | rfl | rfl | rfl <;>
      exact ⟨_, rfl, fun _ => rfl, by decide⟩
  · right
    simp only [List.mem_cons, List.not_mem_nil, or_false, not_or] at hnamed
    obtain ⟨hzero, htab, hreturn, hline, hquote, hslash⟩ := hnamed
    by_cases hhidden : hidden c = true
    · left
      simp [escape, hzero, htab, hreturn, hline, hquote, hslash, hhidden]
    · right
      simp [escape, hzero, htab, hreturn, hline, hquote, hslash, hhidden]

/-- An escaped character is read back, whichever characters are hidden. -/
theorem readQuoted?_escape (hidden : Char → Bool) (c : Char) (rest : List Char) :
    readQuoted? (escape hidden doubleQuote c ++ rest) =
      (readQuoted? rest).map fun (text, rest) => (c :: text, rest) := by
  rcases escape_cases hidden c with ⟨e, hescape, hread, -⟩ | hescape | ⟨hescape, hplain⟩
  · rw [hescape]
    exact readQuoted?_slash (hread rest)
  · have hcode : escapeCode c ++ rest =
        '\\' :: ('u' :: '\x7b' :: Nat.toDigits 16 c.toNat ++ '\x7d' :: rest) := by
      simp [escapeCode]
    rw [hescape, hcode]
    exact readQuoted?_slash (readEscape?_code c rest)
  · simp only [List.mem_cons, List.not_mem_nil, or_false, not_or] at hplain
    obtain ⟨-, -, hquote, hslash⟩ := hplain
    simp [hescape, readQuoted?, hquote, hslash]

/-- A quoted literal is read back exactly, whichever characters are hidden and whatever follows. -/
theorem readLiteral?_quoted (hidden : Char → Bool) (cs rest : List Char) :
    readLiteral? (quoted hidden doubleQuote cs ++ rest) = some (cs, rest) := by
  have hbody : readQuoted? (cs.flatMap (escape hidden doubleQuote) ++ doubleQuote :: rest) =
      some (cs, rest) := by
    induction cs with
    | nil => simp [readQuoted?]
    | cons c cs ih =>
        rw [List.flatMap_cons, List.append_assoc, readQuoted?_escape, ih]
        rfl
  simpa [readLiteral?, quoted] using hbody

theorem readLiteral?_literal (text : String) (rest : List Char) :
    readLiteral? ((literal text).toList ++ rest) = some (text.toList, rest) := by
  rw [literal, String.toList_ofList, readLiteral?_quoted]

/-- No escape breaks the line. -/
theorem notMem_breaks_of_mem_escape
    {hidden : Char → Bool} {c d : Char} (h : d ∈ escape hidden doubleQuote c) :
    d ∉ ['\n', '\r'] := by
  rcases escape_cases hidden c with ⟨e, hescape, -, he⟩ | hescape | ⟨hescape, hplain⟩
  · have hfree : ∀ e ∈ ['0', 't', 'r', 'n', doubleQuote, '\\'], e ∉ ['\n', '\r'] := by
      simp [doubleQuote]
    rw [hescape] at h
    rcases List.mem_cons.mp h with rfl | hlast
    · decide
    · rw [List.mem_singleton.mp hlast]
      exact hfree e he
  · have hopen : ∀ d ∈ ['\\', 'u', '\x7b'], d ∉ ['\n', '\r'] := by simp
    rw [hescape, escapeCode, List.mem_append, List.mem_append] at h
    rcases h with (hfront | hdigit) | hlast
    · exact hopen d hfront
    · obtain ⟨n, hn, rfl⟩ := exists_digitChar_of_mem_toDigits hdigit
      exact digitChar_notMem_breaks n hn
    · rw [List.mem_singleton.mp hlast]
      decide
  · rw [hescape] at h
    rw [List.mem_singleton.mp h]
    simp only [List.mem_cons, List.not_mem_nil, or_false, not_or] at hplain ⊢
    exact ⟨hplain.1, hplain.2.1⟩

/-- A written literal holds a text: it is read back as this text and ends where it was meant to end,
whatever follows it, and it lies on one line. -/
structure Encloses (written text : List Char) : Prop where
  reads (rest : List Char) : readLiteral? (written ++ rest) = some (text, rest)
  feed : '\n' ∉ written
  carriage : '\r' ∉ written

theorem quoted_encloses (hidden : Char → Bool) (cs : List Char) :
    Encloses (quoted hidden doubleQuote cs) cs := by
  have hbreaks : ∀ d ∈ quoted hidden doubleQuote cs, d ∉ ['\n', '\r'] := by
    intro d hd
    rw [quoted, List.mem_append, List.mem_cons, List.mem_singleton, List.mem_flatMap] at hd
    rcases hd with (rfl | ⟨c, -, hin⟩) | rfl
    · decide
    · exact notMem_breaks_of_mem_escape hin
    · decide
  exact ⟨readLiteral?_quoted hidden cs, fun h => hbreaks _ h (by simp),
    fun h => hbreaks _ h (by simp)⟩

/-- No text escapes its quoted literal, whichever characters are hidden. -/
theorem text_stays_in_literal (text : String) :
    Encloses (literal text).toList text.toList ∧
      ∀ hidden, Encloses (quoted hidden doubleQuote text.toList) text.toList := by
  refine ⟨?_, fun hidden => quoted_encloses hidden text.toList⟩
  rw [literal, String.toList_ofList]
  exact quoted_encloses isHidden text.toList

/-- A quote, a backslash and what looks like an escape. -/
example : literal "\x22\\u\x7b22\x7d" = "\x22\\\x22\\\\u\x7b22\x7d\x22" := by decide

/-! ## Raw literals -/

/-- A raw text and what follows its fence: it reaches up to the first end of that fence. -/
def readRaw? (hashes : Nat) : List Char → Option (List Char × List Char)
  | [] => none
  | c :: cs =>
      if (fenceEnd hashes).isPrefixOf (c :: cs) then some ([], (c :: cs).drop (hashes + 1))
      else (readRaw? hashes cs).map fun (text, rest) => (c :: text, rest)

/-- A raw literal at the front of a text, and what follows it. -/
def readRawLiteral? : List Char → Option (List Char × List Char)
  | 'r' :: cs =>
      match cs.dropWhile (· = '#') with
      | '\x22' :: rest => readRaw? (cs.takeWhile (· = '#')).length rest
      | _ => none
  | _ => none

theorem contains_iff {needle hay : List Char} : contains needle hay = true ↔ needle <:+: hay := by
  induction hay with
  | nil => simp [contains]
  | cons c cs ih =>
      rw [contains, Bool.or_eq_true, List.isPrefixOf_iff_prefix, ih, List.infix_cons_iff]

theorem not_contained_fenceFrom (cs : List Char) (hashes : Nat) :
    ¬ fenceEnd (fenceFrom cs hashes) <:+: cs := by
  fun_induction fenceFrom cs hashes with
  | case1 hashes _ ih => exact ih
  | case2 hashes hfree => exact fun hinside => hfree (contains_iff.mpr hinside)

theorem le_fenceFrom (cs : List Char) (hashes : Nat) : hashes ≤ fenceFrom cs hashes := by
  fun_induction fenceFrom cs hashes with
  | case1 hashes hcontains ih => exact Nat.le_of_succ_le ih
  | case2 hashes hcontains => exact Nat.le_refl hashes

theorem length_fenceEnd (hashes : Nat) : (fenceEnd hashes).length = hashes + 1 := by
  simp [fenceEnd]

/-- The end of a fence does not straddle the end of a text: the quote that closes the text is no
number sign. -/
theorem fenceEnd_prefix_of_append
    {hashes : Nat} {c : Char} {cs rest : List Char}
    (h : fenceEnd hashes <+: c :: cs ++ doubleQuote :: rest) : fenceEnd hashes <+: c :: cs := by
  rcases Nat.lt_or_ge (c :: cs).length (fenceEnd hashes).length with hlong | hshort
  · exfalso
    rw [length_fenceEnd, List.length_cons] at hlong
    have hat := h.getElem (i := cs.length + 1) (by rw [length_fenceEnd]; omega)
    have hquote : (c :: cs ++ doubleQuote :: rest).get ⟨cs.length + 1, by simp⟩ = doubleQuote := by
      simp
    have hhash : (fenceEnd hashes).get ⟨cs.length + 1, by rw [length_fenceEnd]; omega⟩ = '#' := by
      simp [fenceEnd]
    simp only [List.get_eq_getElem] at hquote hhash
    rw [hquote, hhash] at hat
    exact absurd hat (by decide)
  · exact List.prefix_of_prefix_length_le h (List.prefix_append _ _) hshort

/-- A text that does not hold the end of the fence is read up to the fence. -/
theorem readRaw?_append
    {hashes : Nat} {cs : List Char} (h : ¬ fenceEnd hashes <:+: cs) (rest : List Char) :
    readRaw? hashes (cs ++ (fenceEnd hashes ++ rest)) = some (cs, rest) := by
  induction cs with
  | nil =>
      have hhead : fenceEnd hashes ++ rest =
          doubleQuote :: (List.replicate hashes '#' ++ rest) := rfl
      have hfence : (fenceEnd hashes).isPrefixOf (fenceEnd hashes ++ rest) = true :=
        List.isPrefixOf_iff_prefix.mpr (List.prefix_append _ _)
      rw [List.nil_append]
      rw [hhead] at hfence ⊢
      rw [readRaw?, if_pos hfence, ← hhead, ← length_fenceEnd, List.drop_left]
  | cons c cs ih =>
      have hhead :
          ¬ (fenceEnd hashes).isPrefixOf (c :: (cs ++ (fenceEnd hashes ++ rest))) = true := by
        rw [ List.isPrefixOf_iff_prefix]
        intro hfront
        exact h (fenceEnd_prefix_of_append hfront).isInfix
      have htail : ¬ fenceEnd hashes <:+: cs := fun hinside =>
        h (hinside.trans (List.suffix_cons c cs).isInfix)
      rw [List.cons_append, readRaw?, if_neg hhead, ih htail]
      rfl

/-- A fence around a text: the text is read back if it does not hold the end of the fence. -/
theorem readRawLiteral?_append
    {hashes : Nat} {cs : List Char} (h : ¬ fenceEnd hashes <:+: cs) (rest : List Char) :
    readRawLiteral?
      ('r' :: List.replicate hashes '#' ++ doubleQuote :: cs ++ (fenceEnd hashes ++ rest)) =
      some (cs, rest) := by
  have hdrop :
      (List.replicate hashes '#' ++ doubleQuote :: (cs ++ (fenceEnd hashes ++ rest))).dropWhile
        (· = '#') = doubleQuote :: (cs ++ (fenceEnd hashes ++ rest)) := by
    rw [List.dropWhile_append_of_pos (by simp)]
    rfl
  have htake :
      (List.replicate hashes '#' ++ doubleQuote :: (cs ++ (fenceEnd hashes ++ rest))).takeWhile
        (· = '#') = List.replicate hashes '#' := by
    rw [List.takeWhile_append_of_pos (by simp)]
    simp [doubleQuote]
  simp only [List.cons_append, List.append_assoc, readRawLiteral?, hdrop, htake]
  simpa [doubleQuote] using readRaw?_append h rest

theorem rawLiteral_toList (text : String) :
    (rawLiteral text).toList =
      'r' :: List.replicate (fence text.toList) '#' ++ doubleQuote :: text.toList ++
        fenceEnd (fence text.toList) := by
  simp [rawLiteral, fenceEnd]

/-- A raw literal is read back exactly, whatever follows. -/
theorem readRawLiteral?_rawLiteral (text : String) (rest : List Char) :
    readRawLiteral? ((rawLiteral text).toList ++ rest) = some (text.toList, rest) := by
  have hread := readRawLiteral?_append (not_contained_fenceFrom text.toList 1) rest
  rw [rawLiteral_toList, List.append_assoc]
  exact hread

end Text
end CaseSuite
