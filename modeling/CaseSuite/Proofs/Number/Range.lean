import CaseSuite.Plan.Planner
import CaseSuite.Proofs.Number.Overflow
import CaseSuite.Proofs.Number.Spelling
import CaseSuite.Proofs.Scanning.Lexemes
import Mathlib

/-!
# Numbers in range

Which texts are numbers in range is said here by their spelling and their value: a whole number of
64 bits, or a decimal with a point that does not overflow a double.  These are the numbers that the
planner takes.
-/

namespace CaseSuite
namespace Number

/-- The text spells a whole number: digits, behind a sign if there is one. -/
inductive Spells : List Char → Int → Prop
  | plain {digits : List Char} (form : Token.IsDigits digits) : Spells digits (digitsValue digits)
  | plus {digits : List Char} (form : Token.IsDigits digits) :
      Spells ('+' :: digits) (digitsValue digits)
  | minus {digits : List Char} (form : Token.IsDigits digits) :
      Spells ('-' :: digits) (-(digitsValue digits : Int))

/-- The text spells the power of ten behind a number; nothing at all means none. -/
inductive SpellsPower : List Char → Int → Prop
  | none : SpellsPower [] 0
  | some {mark : Char} {cs : List Char} {n : Int} (marked : mark = 'e' ∨ mark = 'E')
      (spells : Spells cs n) : SpellsPower (mark :: cs) n

/-- The signs in front of a number. -/
def signs : List (List Char) := [[], ['+'], ['-']]

/-- A number literal in range: a whole number of 64 bits, or a decimal with a point that does not
overflow a double. -/
inductive InRange : List Char → Prop
  | whole {cs : List Char} {n : Int} (spells : Spells cs n) (least : -2 ^ 63 ≤ n)
      (below : n < 2 ^ 63) : InRange cs
  | decimal {sign whole part power : List Char} {n : Int} (signed : sign ∈ signs)
      (nonempty : whole ++ part ≠ []) (digits : ∀ c ∈ whole ++ part, isDigit c = true)
      (spells : SpellsPower power n)
      (below : Decimal.value ⟨digitsValue (whole ++ part), n - part.length⟩ < Binary64.overflow) :
      InRange (sign ++ (whole ++ '.' :: (part ++ power)))

/-! ## Reading whole numbers and powers -/

theorem readSign_of_head {cs : List Char}
    (h : ∀ c, cs.head? = some c → isDigit c = true ∨ c = '.') : readSign cs = (false, cs) := by
  unfold readSign
  split
  · exact absurd (h '-' rfl) (by decide)
  · exact absurd (h '+' rfl) (by decide)
  · rfl

theorem isDigit_head_of_isDigits {digits : List Char} (h : Token.IsDigits digits) :
    ∀ c, digits.head? = some c → isDigit c = true ∨ c = '.' :=
  fun c hc => Or.inl (h.2 c (List.mem_of_mem_head? hc))

theorem readInt?_eq_some_iff {cs : List Char} {n : Int} : readInt? cs = some n ↔ Spells cs n := by
  have hread : ∀ {digits : List Char} {negative : Bool}, readSign cs = (negative, digits) →
      (readInt? cs = some n ↔ Token.IsDigits digits ∧
        n = if negative then -(digitsValue digits : Int) else digitsValue digits) := by
    intro digits negative hsign
    have hform : (digits.isEmpty || !digits.all isDigit) = false ↔ Token.IsDigits digits := by
      simp [Token.IsDigits]
    rw [readInt?, hsign]
    dsimp only
    by_cases hdigits : Token.IsDigits digits
    · rw [hform.mpr hdigits]
      simp [hdigits, eq_comm (a := n)]
    · rw [Bool.eq_true_of_not_eq_false (mt hform.mp hdigits)]
      simp [hdigits]
  constructor
  · intro h
    unfold readSign at hread
    split at hread
    · obtain ⟨hdigits, rfl⟩ := (hread rfl).mp h
      exact Spells.minus hdigits
    · obtain ⟨hdigits, rfl⟩ := (hread rfl).mp h
      exact Spells.plus hdigits
    · obtain ⟨hdigits, rfl⟩ := (hread rfl).mp h
      exact Spells.plain hdigits
  · intro h
    cases h with
    | plain form => exact (hread (readSign_of_head (isDigit_head_of_isDigits form))).mpr ⟨form, rfl⟩
    | plus form => exact (hread rfl).mpr ⟨form, rfl⟩
    | minus form => exact (hread rfl).mpr ⟨form, rfl⟩

theorem readExponent?_eq_some_iff {cs : List Char} {n : Int} :
    readExponent? cs = some n ↔ SpellsPower cs n := by
  constructor
  · intro h
    rcases cs with _ | ⟨c, cs⟩
    · cases h
      exact SpellsPower.none
    · simp only [readExponent?] at h
      split at h
      · rename_i hmark
        exact SpellsPower.some (by simpa using hmark) (readInt?_eq_some_iff.mp h)
      · cases h
  · intro h
    cases h with
    | none => rfl
    | some marked spells =>
        rw [readExponent?, if_pos (by simpa using marked), readInt?_eq_some_iff]
        exact spells

theorem readInt64?_isSome_iff {cs : List Char} :
    (readInt64? cs).isSome = true ↔ ∃ n, Spells cs n ∧ -2 ^ 63 ≤ n ∧ n < 2 ^ 63 := by
  have hlimit : Int.pow 2 63 = 2 ^ 63 := rfl
  simp only [← readInt?_eq_some_iff]
  unfold readInt64?
  rw [hlimit]
  rcases readInt? cs with _ | n
  · simp
  · dsimp only
    by_cases hrange : -2 ^ 63 ≤ n ∧ n < 2 ^ 63
    · exact iff_of_true (by rw [if_pos hrange]; rfl) ⟨n, rfl, hrange⟩
    · refine iff_of_false (by rw [if_neg hrange]; simp) ?_
      rintro ⟨m, ⟨⟩, hm⟩
      exact hrange hm

/-! ## Reading decimals -/

theorem stops_of_spellsPower {cs : List Char} {n : Int} (h : SpellsPower cs n) : Stops cs := by
  cases h with
  | none => simp [Stops]
  | some marked =>
      rintro c ⟨⟩
      rcases marked with rfl | rfl <;> decide

theorem point_notMem_of_digits {cs : List Char} (h : ∀ c ∈ cs, isDigit c = true) : '.' ∉ cs := by
  intro hmem
  exact absurd (h '.' hmem) (by decide)

theorem point_notMem_of_spells {cs : List Char} {n : Int} (h : Spells cs n) : '.' ∉ cs := by
  cases h with
  | plain form => exact point_notMem_of_digits form.2
  | plus form | minus form => simpa using point_notMem_of_digits form.2

theorem point_notMem_of_spellsPower {cs : List Char} {n : Int} (h : SpellsPower cs n) :
    '.' ∉ cs := by
  cases h with
  | none => simp
  | some marked spells =>
      have hrest := point_notMem_of_spells spells
      rcases marked with rfl | rfl <;> simpa using hrest

/-- The literals with a point are digits on one side of it at least, and a power of ten. -/
theorem readLiteral?_eq_some_iff {cs : List Char} {l : Literal} (h : '.' ∈ cs) :
    readLiteral? cs = some l ↔
      l.whole ++ l.part ≠ [] ∧ (∀ c ∈ l.whole ++ l.part, isDigit c = true) ∧
        ∃ power, SpellsPower power l.exponent ∧ cs = l.whole ++ '.' :: (l.part ++ power) := by
  constructor
  · intro hread
    have hsplit := List.takeWhile_append_dropWhile (p := isDigit) (l := cs)
    simp only [readLiteral?] at hread
    split at hread
    · rename_i rest hrest
      split at hread
      · cases hread
      · rename_i hsome
        obtain ⟨exponent, hexponent, rfl⟩ := Option.map_eq_some_iff.mp hread
        refine ⟨by simpa using hsome, ?_, rest.dropWhile isDigit,
          readExponent?_eq_some_iff.mp hexponent, ?_⟩
        · intro c hc
          exact (List.mem_append.mp hc).elim List.mem_takeWhile_imp List.mem_takeWhile_imp
        · rw [List.takeWhile_append_dropWhile, ← hrest, hsplit]
    · -- without a point after the digits there is none at all
      split at hread
      · cases hread
      · obtain ⟨exponent, hexponent, -⟩ := Option.map_eq_some_iff.mp hread
        rw [← hsplit] at h
        rcases List.mem_append.mp h with hfront | hback
        · exact absurd hfront (point_notMem_of_digits fun c hc => List.mem_takeWhile_imp hc)
        · exact absurd hback
            (point_notMem_of_spellsPower (readExponent?_eq_some_iff.mp hexponent))
  · rintro ⟨hne, hdigits, power, hpower, rfl⟩
    have hwhole : ∀ c ∈ l.whole, isDigit c = true := fun c hc => hdigits c (by simp [hc])
    have hpart : ∀ c ∈ l.part, isDigit c = true := fun c hc => hdigits c (by simp [hc])
    rw [readLiteral?_point hne hwhole hpart (stops_of_spellsPower hpower),
      readExponent?_eq_some_iff.mpr hpower]
    rfl

theorem readSign_split (cs : List Char) : ∃ sign ∈ signs, cs = sign ++ (readSign cs).2 := by
  unfold readSign
  split
  · exact ⟨['-'], by simp [signs], rfl⟩
  · exact ⟨['+'], by simp [signs], rfl⟩
  · exact ⟨[], by simp [signs], rfl⟩

theorem readSign_append {sign cs : List Char} (hsign : sign ∈ signs)
    (hcs : ∀ c, cs.head? = some c → isDigit c = true ∨ c = '.') :
    (readSign (sign ++ cs)).2 = cs := by
  simp only [signs, List.mem_cons, List.not_mem_nil, or_false] at hsign
  rcases hsign with rfl | rfl | rfl
  · rw [List.nil_append, readSign_of_head hcs]
  · rfl
  · rfl

theorem point_mem_readSign {cs : List Char} (h : '.' ∈ cs) : '.' ∈ (readSign cs).2 := by
  obtain ⟨sign, hsign, hsplit⟩ := readSign_split cs
  rw [hsplit] at h
  rcases List.mem_append.mp h with hfront | hback
  · simp only [signs, List.mem_cons, List.not_mem_nil, or_false] at hsign
    rcases hsign with rfl | rfl | rfl <;> simp at hfront
  · exact hback

/-- A text with a point is none of the words for infinity and not a number. -/
theorem read?_of_point {text : String} (h : '.' ∈ text.toList) :
    Binary64.read? text = (readLiteral? (readSign text.toList).2).map fun l =>
      Binary64.ofDecimal (readSign text.toList).1
        ⟨digitsValue (l.whole ++ l.part), l.exponent - l.part.length⟩ := by
  have hpoint : '.' ∈ (String.ofList ((readSign text.toList).2.map Char.toLower)).toList := by
    rw [String.toList_ofList]
    exact List.mem_map_of_mem (f := Char.toLower) (point_mem_readSign h)
  have hword : ∀ word : String, '.' ∉ word.toList →
      String.ofList ((readSign text.toList).2.map Char.toLower) ≠ word := by
    rintro word hword rfl
    exact hword hpoint
  simp only [Binary64.read?]
  rw [if_neg, if_neg]
  · exact hword _ (by decide)
  · simp only [infinityWords, List.mem_cons, List.not_mem_nil, or_false, not_or]
    exact ⟨hword _ (by decide), hword _ (by decide)⟩

theorem head_of_point {whole : List Char} (h : ∀ c ∈ whole, isDigit c = true) (rest : List Char) :
    ∀ c, (whole ++ '.' :: rest).head? = some c → isDigit c = true ∨ c = '.' := by
  intro c hc
  rcases whole with _ | ⟨d, whole⟩
  · cases hc
    exact Or.inr rfl
  · cases hc
    exact Or.inl (h _ List.mem_cons_self)

/-- A literal with a point is read as a finite double exactly if it is a decimal in range. -/
theorem finite_read?_iff {text : String} (h : '.' ∈ text.toList) :
    (∃ x, Binary64.read? text = some x ∧ x.isFinite = true) ↔ InRange text.toList := by
  rw [read?_of_point h]
  generalize text.toList = cs at h
  have hpoint := point_mem_readSign h
  constructor
  · rintro ⟨x, hx, hfinite⟩
    obtain ⟨l, hl, rfl⟩ := Option.map_eq_some_iff.mp hx
    obtain ⟨hne, hdigits, power, hpower, hbody⟩ := (readLiteral?_eq_some_iff hpoint).mp hl
    obtain ⟨sign, hsign, hsplit⟩ := readSign_split cs
    rw [hsplit, hbody]
    exact InRange.decimal hsign hne hdigits hpower ((Binary64.isFinite_ofDecimal _ _).mp hfinite)
  · intro hrange
    cases hrange with
    | whole spells => exact absurd h (point_notMem_of_spells spells)
    | @decimal sign whole part power n signed nonempty digits spells below =>
        have hwhole : ∀ c ∈ whole, isDigit c = true := fun c hc => digits c (by simp [hc])
        have hbody := readSign_append signed (head_of_point hwhole (part ++ power))
        rw [hbody] at hpoint ⊢
        have hread := (readLiteral?_eq_some_iff (l := ⟨whole, part, n⟩) hpoint).mpr
          ⟨nonempty, digits, power, spells, rfl⟩
        rw [hread]
        exact ⟨_, rfl, (Binary64.isFinite_ofDecimal _ _).mpr below⟩

/-- Without a point only a whole number is in range. -/
theorem inRange_iff_of_notMem {cs : List Char} (h : '.' ∉ cs) :
    InRange cs ↔ ∃ n, Spells cs n ∧ -2 ^ 63 ≤ n ∧ n < 2 ^ 63 := by
  constructor
  · intro hrange
    cases hrange with
    | whole spells least below => exact ⟨_, spells, least, below⟩
    | decimal => simp at h
  · rintro ⟨n, spells, least, below⟩
    exact InRange.whole spells least below

end Number

/-- The planner takes exactly the numbers in range. -/
theorem Plan.number?_isSome_iff {literal : String} :
    (number? literal).isSome = true ↔ Number.InRange literal.toList := by
  unfold number?
  split
  · rename_i hpoint
    have hpoint : '.' ∈ literal.toList := by simpa using hpoint
    rw [← Number.finite_read?_iff hpoint]
    rcases hread : Binary64.read? literal with _ | x
    · simp
    · by_cases hfinite : x.isFinite = true
      · simp [hfinite]
      · simp [hfinite]
  · rename_i hpoint
    have hpoint : '.' ∉ literal.toList := by simpa using hpoint
    rw [Option.isSome_map, Number.readInt64?_isSome_iff, Number.inRange_iff_of_notMem hpoint]

end CaseSuite
