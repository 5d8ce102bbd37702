import CaseSuite.Proofs.Number.Spelling
import CaseSuite.Proofs.Text.Bytes
import CaseSuite.Proofs.Value.Equality
import CaseSuite.Value.Check
import Mathlib

/-!
# Texts of values

Comparing values by their texts can go wrong only for texts and doubles.  A value that is built from
null, truth values, integers and lists is found again in its text: a scalar ends at the comma or
bracket that follows it, and the items of a list end at the bracket that closes it.  So two such
values have the same text exactly if they are equal.
-/

namespace CaseSuite
namespace Value

/-- Null, a truth value or an integer. -/
inductive Scalar : Value → Prop
  | null : Scalar .null
  | bool (b : Bool) : Scalar (.bool b)
  | int (n : Int64) : Scalar (.int n)

/-- Built from scalars and lists of such values, to any depth. -/
inductive Textless : Value → Prop
  | scalar {v : Value} (h : v.Scalar) : Textless v
  | list {items : List Value} (each : ∀ v ∈ items, Textless v) : Textless (.list items)

/-! ## Equality -/

theorem Textless.not_hasNaN {a : Value} (h : a.Textless) : ¬ a.HasNaN := by
  induction h with
  | scalar h =>
      intro hnan
      cases h <;> cases hnan
  | list each ih =>
      rw [hasNaN_list_iff]
      rintro ⟨v, hmem, hnan⟩
      exact ih v hmem hnan

theorem Scalar.eq_of_equal {a b : Value} (ha : a.Scalar) (hb : b.Textless)
    (h : a.equal b = true) : a = b := by
  rcases hb with hb | _
  · cases ha <;> cases hb <;> simp_all [equal]
  · cases ha <;> simp [equal] at h

theorem eq_of_equalAll {as bs : List Value}
    (has : ∀ a ∈ as, ∀ b : Value, b.Textless → a.equal b = true → a = b)
    (hbs : ∀ b ∈ bs, b.Textless) (h : equalAll as bs = true) : as = bs := by
  induction as generalizing bs with
  | nil =>
      rcases bs with _ | ⟨b, bs⟩
      · rfl
      · simp [equalAll] at h
  | cons a as ih =>
      rcases bs with _ | ⟨b, bs⟩
      · simp [equalAll] at h
      · rw [equalAll, Bool.and_eq_true] at h
        rw [List.forall_mem_cons] at has hbs
        rw [has.1 b hbs.1 h.1, ih has.2 hbs.2 h.2]

theorem Textless.eq_of_equal {a b : Value} (ha : a.Textless) (hb : b.Textless)
    (h : a.equal b = true) : a = b := by
  induction ha generalizing b with
  | scalar ha => exact ha.eq_of_equal hb h
  | list each ih =>
      rcases hb with hb | hb
      · cases hb <;> simp [equal] at h
      · rw [equal] at h
        rw [eq_of_equalAll (fun a ha b => ih a ha) hb h]

/-! ## Texts of scalars -/

/-- A character that neither separates values nor brackets them. -/
def isInner (c : Char) : Bool := c != '[' && c != ']' && c != ','

/-- A character that may follow a value inside a list. -/
def Ends (c : Char) : Prop := c = ',' ∨ c = ']'

theorem Ends.not_isInner {c : Char} (h : Ends c) : isInner c = false := by
  rcases h with rfl | rfl <;> decide

/-- The text of a value inside a list. -/
def written (v : Value) : List Char := (v.displayIn true).toList

theorem isInner_of_isNumberChar {c : Char} (h : Binary64.isNumberChar c = true) :
    isInner c = true := by
  rw [isInner, Bool.and_eq_true, Bool.and_eq_true, bne_iff_ne, bne_iff_ne, bne_iff_ne]
  refine ⟨⟨?_, ?_⟩, ?_⟩ <;> rintro rfl <;> exact absurd h (by decide)

theorem Scalar.isInner_written {a : Value} (h : a.Scalar) : ∀ c ∈ a.written, isInner c = true := by
  cases h with
  | null => exact List.all_eq_true.mp (by decide)
  | bool b =>
      apply List.all_eq_true.mp
      cases b <;> decide
  | int n =>
      intro c hc
      exact isInner_of_isNumberChar (Binary64.isNumberChar_of_mem_intText hc)

/-- The scalar with a given text: a number if it can be read as one, and else a word. -/
def readScalar? (cs : List Char) : Option Value :=
  match Number.readInt? cs with
  | some n => some (.int (Int64.ofInt n))
  | none => [.null, .bool true, .bool false].find? fun v => v.written == cs

theorem Scalar.readScalar?_written {a : Value} (h : a.Scalar) :
    readScalar? a.written = some a := by
  cases h with
  | null => rfl
  | bool b => cases b <;> rfl
  | int n =>
      have hread : Number.readInt? (written (.int n)) = some n.toInt :=
        Number.readInt?_intText n.toInt
      simp [readScalar?, hread]

theorem Scalar.written_injective {a b : Value} (ha : a.Scalar) (hb : b.Scalar)
    (h : a.written = b.written) : a = b := by
  have hread := ha.readScalar?_written
  rw [h, hb.readScalar?_written] at hread
  exact (Option.some.inj hread).symm

theorem Scalar.exists_cons {a : Value} (h : a.Scalar) :
    ∃ c cs, a.written = c :: cs ∧ isInner c = true := by
  rcases hwritten : a.written with _ | ⟨c, cs⟩
  · have hread := h.readScalar?_written
    have hnone : readScalar? [] = none := rfl
    rw [hwritten, hnone] at hread
    cases hread
  · exact ⟨c, cs, rfl, h.isInner_written c (hwritten ▸ List.mem_cons_self)⟩

/-! ## Texts of lists -/

/-- The texts of items with commas between them. -/
def writtenAll (items : List Value) : List Char := (displayItems items).toList

/-- What stands after the first item of a list: the other items, the bracket and a rest. -/
def afterFirst (items : List Value) (rest : List Char) : List Char :=
  if items.isEmpty then ']' :: rest else ',' :: ' ' :: (writtenAll items ++ ']' :: rest)

theorem written_list (items : List Value) (rest : List Char) :
    written (.list items) ++ rest = '[' :: (writtenAll items ++ ']' :: rest) := by
  simp [written, writtenAll, displayIn]

theorem writtenAll_cons (v : Value) (vs : List Value) (rest : List Char) :
    writtenAll (v :: vs) ++ ']' :: rest = v.written ++ afterFirst vs rest := by
  rcases vs with _ | ⟨w, ws⟩
  · simp [writtenAll, written, displayItems, afterFirst]
  · simp [writtenAll, written, displayItems, afterFirst]

theorem exists_ends_afterFirst (items : List Value) (rest : List Char) :
    ∃ c more, afterFirst items rest = c :: more ∧ Ends c := by
  unfold afterFirst
  split
  · exact ⟨']', _, rfl, Or.inr rfl⟩
  · exact ⟨',', _, rfl, Or.inl rfl⟩

/-- The text of a value begins with what ends no value. -/
theorem Textless.exists_cons {a : Value} (h : a.Textless) :
    ∃ c cs, a.written = c :: cs ∧ ¬ Ends c := by
  rcases h with h | each
  · obtain ⟨c, cs, hwritten, hinner⟩ := h.exists_cons
    refine ⟨c, cs, hwritten, ?_⟩
    intro hends
    rw [hends.not_isInner] at hinner
    exact Bool.false_ne_true hinner
  · rename_i items
    have hwritten := written_list items []
    rw [List.append_nil] at hwritten
    refine ⟨'[', _, hwritten, ?_⟩
    rintro (h | h) <;> exact absurd h (by decide)

theorem Textless.written_ne {a : Value} (h : a.Textless) (rest more : List Char) :
    a.written ++ rest ≠ ']' :: more := by
  obtain ⟨c, cs, hwritten, hends⟩ := h.exists_cons
  rw [hwritten]
  intro h
  exact hends (Or.inr (List.cons.inj h).1)

/-! ## Unique readability -/

/-- The value is found again at the front of a text that begins with its text and an end of it. -/
def ReadBack (a : Value) : Prop :=
  ∀ {b : Value} {c d : Char} {u v : List Char}, b.Textless → Ends c → Ends d →
    a.written ++ c :: u = b.written ++ d :: v → a = b ∧ c = d ∧ u = v

theorem Scalar.written_append_ne {a : Value} (h : a.Scalar) (items : List Value)
    (rest more : List Char) : a.written ++ rest ≠ written (.list items) ++ more := by
  obtain ⟨c, cs, hwritten, hinner⟩ := h.exists_cons
  rw [hwritten, written_list]
  intro h
  obtain ⟨rfl, -⟩ := List.cons.inj h
  exact absurd hinner (by decide)

theorem Scalar.readBack {a : Value} (ha : a.Scalar) : a.ReadBack := by
  intro b c d u v hb hc hd h
  rcases hb with hb | each
  · obtain ⟨hwritten, hend, hrest⟩ := Text.run_unique ha.isInner_written hb.isInner_written
      hc.not_isInner hd.not_isInner h
    exact ⟨ha.written_injective hb hwritten, hend, hrest⟩
  · exact absurd h (ha.written_append_ne _ _ _)

/-- Items are found again up to the bracket that closes their list. -/
theorem writtenAll_unique
    {as bs : List Value} {u v : List Char} (has : ∀ a ∈ as, a.Textless ∧ a.ReadBack)
    (hbs : ∀ b ∈ bs, b.Textless)
    (h : writtenAll as ++ ']' :: u = writtenAll bs ++ ']' :: v) : as = bs ∧ u = v := by
  induction as generalizing bs with
  | nil =>
      rcases bs with _ | ⟨b, bs⟩
      · exact ⟨rfl, (List.cons.inj h).2⟩
      · rw [writtenAll_cons] at h
        exact absurd h.symm ((hbs b List.mem_cons_self).written_ne _ _)
  | cons a as ih =>
      rw [List.forall_mem_cons] at has
      rcases bs with _ | ⟨b, bs⟩
      · rw [writtenAll_cons] at h
        exact absurd h (has.1.1.written_ne _ _)
      · rw [List.forall_mem_cons] at hbs
        rw [writtenAll_cons, writtenAll_cons] at h
        obtain ⟨c, more, hc, hcends⟩ := exists_ends_afterFirst as u
        obtain ⟨d, more', hd, hdends⟩ := exists_ends_afterFirst bs v
        rw [hc, hd] at h
        obtain ⟨rfl, rfl, rfl⟩ := has.1.2 hbs.1 hcends hdends h
        -- The same character ends both first items, so both lists go on or neither does.
        have hafter := hc.trans hd.symm
        rcases as with _ | ⟨a', as⟩
        · rcases bs with _ | ⟨b', bs⟩
          · exact ⟨rfl, (List.cons.inj hafter).2⟩
          · exact absurd (List.cons.inj hafter).1 (by decide)
        · rcases bs with _ | ⟨b', bs⟩
          · exact absurd (List.cons.inj hafter).1 (by decide)
          · obtain ⟨hitems, hrest⟩ := ih has.2 hbs.2
              (List.cons.inj (List.cons.inj hafter).2).2
            exact ⟨by rw [hitems], hrest⟩

theorem Textless.readBack {a : Value} (ha : a.Textless) : a.ReadBack := by
  induction ha with
  | scalar h => exact h.readBack
  | list each ih =>
      intro b c d u v hb hc hd h
      rcases hb with hb | hb
      · exact absurd h.symm (hb.written_append_ne _ _ _)
      · rw [written_list, written_list] at h
        obtain ⟨rfl, hrest⟩ := writtenAll_unique (fun a ha => ⟨each a ha, ih a ha⟩) hb
          (List.cons.inj h).2
        obtain ⟨rfl, rfl⟩ := List.cons.inj hrest
        exact ⟨rfl, rfl, rfl⟩

theorem Textless.display_toList {a : Value} (h : a.Textless) : a.display.toList = a.written := by
  rcases h with h | each
  · cases h <;> rfl
  · rfl

theorem Textless.display_injective {a b : Value} (ha : a.Textless) (hb : b.Textless)
    (h : a.display = b.display) : a = b := by
  have hwritten : a.written ++ [']'] = b.written ++ [']'] := by
    rw [← ha.display_toList, ← hb.display_toList, h]
  exact (ha.readBack hb (Or.inr rfl) (Or.inr rfl) hwritten).1

theorem demand_eq_ok_iff {condition : Bool} {message : String} :
    demand condition message = .ok () ↔ condition = true := by
  cases condition <;> simp [demand]

/--
Comparing texts is comparing values where no text and no double is involved: of two values that are
built from null, truth values, integers and lists, the texts are equal exactly if the values are,
so the two relations accept the same pairs.  Both mean that it is one value.
-/
theorem text_comparison_is_exact {a b : Value} (ha : a.Textless) (hb : b.Textless) :
    (Relation.textEqual.check a b = .ok () ↔ Relation.equal.check a b = .ok ()) ∧
      (a.display = b.display ↔ a.equal b = true) ∧ (a.equal b = true ↔ a = b) := by
  have hequal : a.equal b = true ↔ a = b := by
    constructor
    · exact ha.eq_of_equal hb
    · rintro rfl
      exact (equal_self_iff a).mpr ha.not_hasNaN
  have hdisplay : a.display = b.display ↔ a.equal b = true := by
    rw [hequal]
    exact ⟨ha.display_injective hb, congrArg display⟩
  refine ⟨?_, hdisplay, hequal⟩
  simp only [Relation.check, demand_eq_ok_iff, beq_iff_eq]
  exact hdisplay

/-- Rows with the same digits and words, which other brackets set apart. -/
def nestedRow : Value := .list [.list [.int 1, .int (-23)], .list [], .null]

def splitRow : Value := .list [.list [.int 1], .int (-2), .list [.int 3], .list [], .null]

theorem textless_nestedRow : nestedRow.Textless := by
  have hpair : (list [.int 1, .int (-23)]).Textless :=
    .list (by simp [Textless.scalar, Scalar.int])
  have hempty : (list []).Textless := .list (by simp)
  exact .list (by simp [hpair, hempty, Textless.scalar, Scalar.null])

theorem textless_splitRow : splitRow.Textless := by
  have hone : ∀ n, (list [.int n]).Textless := fun n =>
    .list (by simp [Textless.scalar, Scalar.int])
  have hempty : (list []).Textless := .list (by simp)
  exact .list (by simp [hone, hempty, Textless.scalar, Scalar.int, Scalar.null])

theorem text_comparison_is_exact_rows :
    nestedRow.Textless ∧ splitRow.Textless ∧
    Relation.textEqual.check nestedRow nestedRow = .ok () ∧
    Relation.textEqual.check nestedRow splitRow ≠ .ok () ∧
    nestedRow.display ≠ splitRow.display := by
  obtain ⟨hsame, -, hself⟩ := text_comparison_is_exact textless_nestedRow textless_nestedRow
  obtain ⟨hcheck, hdisplay, -⟩ := text_comparison_is_exact textless_nestedRow textless_splitRow
  have hequal : nestedRow.equal nestedRow = true := hself.mpr rfl
  have hdiffer : nestedRow.equal splitRow = false := by decide
  refine ⟨textless_nestedRow, textless_splitRow, hsame.mpr ?_, ?_, ?_⟩
  · simp [Relation.check, hequal, demand]
  · rw [Ne, hcheck]
    simp [Relation.check, hdiffer, demand]
  · rw [Ne, hdisplay, hdiffer]
    exact Bool.false_ne_true

end Value
end CaseSuite
