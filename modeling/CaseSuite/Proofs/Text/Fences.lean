import CaseSuite.Proofs.Text.Literals
import Mathlib.Order.Bounds.Defs

/-!
# The fence of a raw literal

The end of a fence is a quote and as many number signs as the fence has.  A raw literal is closed by
the first end of its fence, so this must not stand before the end of the text.  It cannot begin
inside the text and reach over its end, because a quote follows there; so a fence closes a text
exactly if its end does not occur in it.  The search for a fence goes through the lengths one by one
and stops at the first that is good enough, at the latest when the end is longer than the text.
-/

namespace CaseSuite
namespace Text

/-! ## First occurrences -/

/-- One text stands in another behind a number of characters. -/
def OccursAt (needle hay : List Char) (place : Nat) : Prop :=
  needle <+: hay.drop place

/-- The first place at which one text stands in another. -/
def FirstAt (needle hay : List Char) (place : Nat) : Prop :=
  OccursAt needle hay place ∧ ∀ earlier < place, ¬ OccursAt needle hay earlier

/-- A fence of this length closes the text at its very end, with the given text behind the fence. -/
def Closes (hashes : Nat) (cs rest : List Char) : Prop :=
  FirstAt (fenceEnd hashes) (cs ++ (fenceEnd hashes ++ rest)) cs.length

theorem occursAt_length (needle cs rest : List Char) :
    OccursAt needle (cs ++ (needle ++ rest)) cs.length := by
  rw [OccursAt, List.drop_left]
  exact List.prefix_append needle rest

/-- What occurs in a text begins before its end, whatever follows. -/
theorem exists_occursAt
    {needle cs : List Char} (h : needle <:+: cs) (hne : needle ≠ []) (rest : List Char) :
    ∃ place < cs.length, OccursAt needle (cs ++ rest) place := by
  obtain ⟨before, after, rfl⟩ := h
  have hlength := List.length_pos_iff.mpr hne
  refine ⟨before.length, by simp only [List.length_append]; omega, ?_⟩
  simpa only [List.append_assoc] using occursAt_length needle before (after ++ rest)

/-- An end of the fence that begins inside the text lies wholly inside it. -/
theorem inside_of_occursAt
    {hashes place : Nat} {cs rest : List Char} (hplace : place < cs.length)
    (h : OccursAt (fenceEnd hashes) (cs ++ (fenceEnd hashes ++ rest)) place) :
    fenceEnd hashes <:+: cs := by
  rw [OccursAt, List.drop_append_of_le_length hplace.le] at h
  obtain ⟨c, tail, htail⟩ : ∃ c tail, cs.drop place = c :: tail :=
    List.exists_cons_of_ne_nil (by simpa using hplace)
  rw [htail] at h
  have hfront : fenceEnd hashes <+: cs.drop place := htail ▸ fenceEnd_prefix_of_append h
  exact hfront.isInfix.trans (List.drop_suffix place cs).isInfix

/-- A fence closes a text, whatever follows, exactly if its end does not occur in the text. -/
theorem closes_iff {hashes : Nat} {cs rest : List Char} :
    Closes hashes cs rest ↔ ¬ fenceEnd hashes <:+: cs := by
  constructor
  · rintro ⟨-, hfirst⟩ hinside
    obtain ⟨place, hplace, hoccurs⟩ :=
      exists_occursAt hinside (by simp [fenceEnd]) (fenceEnd hashes ++ rest)
    exact hfirst place hplace hoccurs
  · intro hfree
    refine ⟨occursAt_length _ _ _, ?_⟩
    intro earlier hearlier hoccurs
    exact hfree (inside_of_occursAt hearlier hoccurs)

/-! ## The search -/

/-- The search passes over no fence that is good enough. -/
theorem contained_of_lt_fenceFrom
    {cs : List Char} {hashes n : Nat} (hfrom : hashes ≤ n) (hbelow : n < fenceFrom cs hashes) :
    fenceEnd n <:+: cs := by
  fun_induction fenceFrom cs hashes with
  | case1 hashes hcontains ih =>
      rcases Nat.eq_or_lt_of_le hfrom with rfl | hlater
      · exact contains_iff.mp hcontains
      · exact ih hlater hbelow
  | case2 hashes _ => omega

/-- The end of the last fence that was passed over fits into the text. -/
theorem fenceFrom_le (cs : List Char) (hashes : Nat) :
    fenceFrom cs hashes ≤ max hashes cs.length := by
  rcases Nat.eq_or_lt_of_le (le_fenceFrom cs hashes) with hnone | hsome
  · omega
  · have hlast : fenceFrom cs hashes - 1 < fenceFrom cs hashes := by omega
    have hlength := (contained_of_lt_fenceFrom (Nat.le_sub_one_of_lt hsome) hlast).length_le
    rw [length_fenceEnd] at hlength
    omega

/--
The search for the fence of a raw literal ends: it goes on at every length from one up to the one it
finds and stops there, not beyond the length of the text.  The literal stands in a fence of this
length.  It closes the text at its very end, whatever follows, and no shorter one does, the empty
one apart.
-/
theorem fence_is_least (text : String) :
    ∃ hashes,
      (∀ n, 1 ≤ n → n < hashes → contains (fenceEnd n) text.toList = true) ∧
      contains (fenceEnd hashes) text.toList = false ∧
      hashes ≤ max 1 text.toList.length ∧
      (rawLiteral text).toList =
        'r' :: List.replicate hashes '#' ++ doubleQuote :: text.toList ++ fenceEnd hashes ∧
      ∀ rest, IsLeast {n | 1 ≤ n ∧ Closes n text.toList rest} hashes := by
  have hfree := not_contained_fenceFrom text.toList 1
  refine ⟨fence text.toList, ?_, ?_, fenceFrom_le _ 1, rawLiteral_toList text, ?_⟩
  · intro n hone hbelow
    exact contains_iff.mpr (contained_of_lt_fenceFrom hone hbelow)
  · rw [← Bool.not_eq_true, contains_iff]
    exact hfree
  · intro rest
    refine ⟨⟨le_fenceFrom _ 1, closes_iff.mpr hfree⟩, ?_⟩
    rintro n ⟨hone, hcloses⟩
    by_contra hshorter
    exact closes_iff.mp hcloses (contained_of_lt_fenceFrom hone (Nat.lt_of_not_le hshorter))

/-- A text whose last characters could be taken for the beginning of the end of a fence. -/
theorem fence_is_least_straddling :
    rawLiteral "\x22##x\x22##" = "r###\x22\x22##x\x22##\x22###" ∧
      ∀ rest, Closes 3 "\x22##x\x22##".toList rest ∧ ¬ Closes 2 "\x22##x\x22##".toList rest := by
  obtain ⟨hashes, hgoes, hstops, -, hliteral, hleast⟩ := fence_is_least "\x22##x\x22##"
  have hthree : hashes = 3 := by
    have hone : 1 ≤ hashes := (hleast []).1.1
    have hmost : ¬ 3 < hashes := fun hmore => absurd (hgoes 3 (by decide) hmore) (by decide)
    obtain rfl | rfl | rfl : hashes = 1 ∨ hashes = 2 ∨ hashes = 3 := by omega
    · exact absurd hstops (by decide)
    · exact absurd hstops (by decide)
    · rfl
  subst hthree
  refine ⟨String.toList_inj.mp (hliteral.trans (by decide)), fun rest => ⟨(hleast rest).1.2, ?_⟩⟩
  intro hcloses
  exact absurd ((hleast rest).2 ⟨by decide, hcloses⟩) (by decide)

end Text
end CaseSuite
