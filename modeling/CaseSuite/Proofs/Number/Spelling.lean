import CaseSuite.Number.Text
import CaseSuite.Proofs.Number.Rounding

/-!
# Numbers as they are written

The text of a whole number reads back as that number.  The text of a finite double is a literal
whose exact value is the shortest decimal of the double, so it lies in the rounding interval of no
other one and no two finite doubles are written alike.
-/

namespace CaseSuite
namespace Number

/-! ## Digits -/

theorem isDigit_of_mem_digitsOf {n : Nat} {c : Char} (h : c ∈ digitsOf n) : isDigit c = true := by
  have hdigit : c.isDigit = true := Nat.isDigit_of_mem_toDigits (by decide) (by decide) h
  simpa [Char.isDigit, isDigit, Char.le_def] using hdigit

theorem digitsOf_ne_nil (n : Nat) : digitsOf n ≠ [] :=
  Nat.toDigits_ne_nil

theorem digitsValue_digitsOf (n : Nat) : digitsValue (digitsOf n) = n :=
  Nat.ofDigitChars_ten_toDigits

theorem digitsValue_append (cs ds : List Char) :
    digitsValue (cs ++ ds) = 10 ^ ds.length * digitsValue cs + digitsValue ds := by
  have happend : digitsValue (cs ++ ds) = Nat.ofDigitChars 10 ds (digitsValue cs) :=
    Nat.ofDigitChars_append 0
  rw [happend, Nat.ofDigitChars_eq_ofDigitChars_zero]
  rfl

theorem digitsValue_zeros (n : Nat) : digitsValue (List.replicate n '0') = 0 := by
  have hzeros : digitsValue (List.replicate n '0') = 10 ^ n * 0 := Nat.ofDigitChars_replicate_zero
  rw [hzeros, Nat.mul_zero]

/-! ## Whole numbers -/

theorem intText_toList (n : Int) :
    (intText n).toList = if n < 0 then '-' :: digitsOf n.natAbs else digitsOf n.natAbs := by
  rw [intText, String.toList_ofList]

theorem readSign_digitsOf (n : Nat) : readSign (digitsOf n) = (false, digitsOf n) := by
  rcases hdigits : digitsOf n with _ | ⟨c, cs⟩
  · rfl
  · have hdigit : isDigit c = true := isDigit_of_mem_digitsOf (hdigits ▸ List.mem_cons_self)
    unfold readSign
    split
    · rename_i heq
      obtain ⟨rfl, -⟩ := List.cons.inj heq
      exact absurd hdigit (by decide)
    · rename_i heq
      obtain ⟨rfl, -⟩ := List.cons.inj heq
      exact absurd hdigit (by decide)
    · rfl

/-- A whole number reads back. -/
theorem readInt?_intText (n : Int) : readInt? (intText n).toList = some n := by
  have hall : ((digitsOf n.natAbs).isEmpty || !(digitsOf n.natAbs).all isDigit) = false := by
    have hdigits : (digitsOf n.natAbs).all isDigit = true :=
      List.all_eq_true.mpr fun c hc => isDigit_of_mem_digitsOf hc
    simp [digitsOf_ne_nil, hdigits]
  rw [intText_toList]
  split
  · rename_i hneg
    have habs : -(n.natAbs : Int) = n := by omega
    simp only [readInt?, readSign, hall, digitsValue_digitsOf, habs]
    rfl
  · rename_i hpos
    have habs : (n.natAbs : Int) = n := by omega
    simp only [readInt?, readSign_digitsOf, hall, digitsValue_digitsOf, habs]
    rfl

theorem intText_injective {m n : Int} (h : intText m = intText n) : m = n := by
  have hread := readInt?_intText m
  rw [h, readInt?_intText n] at hread
  exact (Option.some.inj hread).symm

/-! ## Literals -/

/-- The rational number that a literal stands for. -/
def Literal.value (l : Literal) : ℚ :=
  digitsValue (l.whole ++ l.part) * 10 ^ (l.exponent - l.part.length)

/-- What follows digits does not go on with one. -/
def Stops (cs : List Char) : Prop :=
  ∀ c, cs.head? = some c → isDigit c = false

theorem takeWhile_of_stops
    {digits rest : List Char} (hdigits : ∀ c ∈ digits, isDigit c = true) (h : Stops rest) :
    (digits ++ rest).takeWhile isDigit = digits ∧ (digits ++ rest).dropWhile isDigit = rest := by
  rw [List.takeWhile_append_of_pos hdigits, List.dropWhile_append_of_pos hdigits]
  rcases rest with _ | ⟨c, rest⟩
  · simp
  · have hc := h c rfl
    simp [hc]

/-- A literal with a point. -/
theorem readLiteral?_point
    {whole part rest : List Char} (hne : whole ++ part ≠ [])
    (hwhole : ∀ c ∈ whole, isDigit c = true) (hpart : ∀ c ∈ part, isDigit c = true)
    (hrest : Stops rest) :
    readLiteral? (whole ++ '.' :: (part ++ rest)) =
      (readExponent? rest).map fun exponent => { whole, part, exponent } := by
  have hstops : Stops ('.' :: (part ++ rest)) := by
    rintro c ⟨⟩
    decide
  obtain ⟨htake, hdrop⟩ := takeWhile_of_stops hwhole hstops
  obtain ⟨htake', hdrop'⟩ := takeWhile_of_stops hpart hrest
  have hsome : (whole.isEmpty && part.isEmpty) = false := by
    rw [Bool.eq_false_iff]
    simpa using hne
  simp [readLiteral?, htake, hdrop, htake', hdrop', hsome]

/-- A literal without a point. -/
theorem readLiteral?_exponent
    {whole rest : List Char} (hne : whole ≠ []) (hwhole : ∀ c ∈ whole, isDigit c = true) :
    readLiteral? (whole ++ 'e' :: rest) =
      (readInt? rest).map fun exponent => { whole, part := [], exponent } := by
  have hstops : Stops ('e' :: rest) := by
    rintro c ⟨⟩
    decide
  obtain ⟨htake, hdrop⟩ := takeWhile_of_stops hwhole hstops
  simp [readLiteral?, htake, hdrop, hne, readExponent?]

end Number

/-! ## Doubles -/

namespace Binary64

open Number

/-- A literal is read from the text, with a given value. -/
def Reads (cs : List Char) (q : ℚ) : Prop :=
  ∃ l, readLiteral? cs = some l ∧ l.value = q

theorem reads_point
    {whole part : List Char} (hne : whole ≠ []) (hwhole : ∀ c ∈ whole, isDigit c = true)
    (hpart : ∀ c ∈ part, isDigit c = true) :
    Reads (whole ++ '.' :: part) (digitsValue (whole ++ part) * 10 ^ (-(part.length : Int))) := by
  have hstops : Stops [] := by simp [Stops]
  have hread :=
    readLiteral?_point (List.append_ne_nil_of_left_ne_nil hne part) hwhole hpart hstops
  rw [List.append_nil] at hread
  exact ⟨_, hread, by simp [Literal.value]⟩

theorem isDigit_of_mem_zeros {n : Nat} {c : Char} (h : c ∈ List.replicate n '0') :
    isDigit c = true := by
  rw [(List.mem_replicate.mp h).2]
  decide

section Positional

variable {digits : List Char} {point : Int}

/-- Digits behind the point, with zeros in front of them. -/
theorem reads_fraction
    (hdigits : ∀ c ∈ digits, isDigit c = true) (hpoint : point ≤ 0) :
    Reads (['0'] ++ '.' :: (List.replicate (-point).toNat '0' ++ digits))
      (digitsValue digits * 10 ^ (point - digits.length)) := by
  have hpart : ∀ c ∈ List.replicate (-point).toNat '0' ++ digits, isDigit c = true := by
    intro c hc
    exact (List.mem_append.mp hc).elim isDigit_of_mem_zeros (hdigits c)
  have hread := reads_point (List.cons_ne_nil '0' []) (List.forall_mem_singleton.mpr (by decide))
    hpart
  have hzeros : ['0'] ++ (List.replicate (-point).toNat '0' ++ digits) =
      List.replicate ((-point).toNat + 1) '0' ++ digits := by
    simp [List.replicate_succ]
  have hexponent : -((List.replicate (-point).toNat '0' ++ digits).length : Int) =
      point - digits.length := by
    simp
    omega
  rw [hzeros, digitsValue_append, digitsValue_zeros, Nat.mul_zero, Nat.zero_add,
    hexponent] at hread
  exact hread

/-- Digits in front of the point, with zeros behind them. -/
theorem reads_whole
    (hdigits : ∀ c ∈ digits, isDigit c = true) (hne : digits ≠ [])
    (hlong : (digits.length : Int) ≤ point) :
    Reads (digits ++ List.replicate (point.toNat - digits.length) '0' ++ '.' :: ['0'])
      (digitsValue digits * 10 ^ (point - digits.length)) := by
  have hwhole : ∀ c ∈ digits ++ List.replicate (point.toNat - digits.length) '0',
      isDigit c = true := by
    intro c hc
    exact (List.mem_append.mp hc).elim (hdigits c) isDigit_of_mem_zeros
  have hread := reads_point (by simp [hne]) hwhole (List.forall_mem_singleton.mpr
    (by decide : isDigit '0' = true))
  have hzeros : digits ++ List.replicate (point.toNat - digits.length) '0' ++ ['0'] =
      digits ++ List.replicate (point.toNat - digits.length + 1) '0' := by
    simp [List.replicate_succ']
  have hvalue :
      ((digitsValue (digits ++ List.replicate (point.toNat - digits.length + 1) '0') : ℕ) : ℚ) *
        10 ^ (-((1 : ℕ) : Int)) = digitsValue digits * 10 ^ (point - digits.length) := by
    have hexponent : point - digits.length =
        ((point.toNat - digits.length + 1 : ℕ) : Int) + -((1 : ℕ) : Int) := by omega
    rw [digitsValue_append, digitsValue_zeros, List.length_replicate, hexponent,
      zpow_add₀ (by norm_num), zpow_natCast]
    push_cast
    ring
  rw [hzeros, List.length_singleton, hvalue] at hread
  exact hread

/-- Digits on both sides of the point. -/
theorem reads_split
    (hdigits : ∀ c ∈ digits, isDigit c = true) (hne : digits ≠ []) (hpoint : 0 < point)
    (hshort : point < digits.length) :
    Reads (digits.take point.toNat ++ '.' :: digits.drop point.toNat)
      (digitsValue digits * 10 ^ (point - digits.length)) := by
  have hsome : digits.take point.toNat ≠ [] := by
    rw [Ne, List.take_eq_nil_iff]
    rintro (hzero | hnil)
    · omega
    · exact hne hnil
  have hread := reads_point hsome (fun c hc => hdigits c (List.mem_of_mem_take hc))
    (fun c hc => hdigits c (List.mem_of_mem_drop (i := point.toNat) hc))
  have hexponent : -((digits.drop point.toNat).length : Int) = point - digits.length := by
    simp
    omega
  rw [List.take_append_drop, hexponent] at hread
  exact hread

/-- A positional text stands for its digits at its point. -/
theorem reads_positional
    (hdigits : ∀ c ∈ digits, isDigit c = true) (hne : digits ≠ []) (point : Int) :
    Reads (positional digits point) (digitsValue digits * 10 ^ (point - digits.length)) := by
  unfold positional
  split
  · rename_i hpoint
    exact reads_fraction hdigits hpoint
  · rename_i hpoint
    dsimp only
    split
    · rename_i hlong
      exact reads_whole hdigits hne (by omega)
    · rename_i hlong
      exact reads_split hdigits hne (by omega) (by omega)

end Positional

/-- A scientific text stands for its digits at its point. -/
theorem reads_scientific
    {digits : List Char} (hdigits : ∀ c ∈ digits, isDigit c = true) (hne : digits ≠ [])
    (point : Int) :
    Reads (scientific digits point) (digitsValue digits * 10 ^ (point - digits.length)) := by
  rcases digits with _ | ⟨d, _ | ⟨d', tail⟩⟩
  · exact absurd rfl hne
  · have hread := @readLiteral?_exponent [d] (intText (point - 1)).toList hne hdigits
    rw [readInt?_intText] at hread
    exact ⟨_, hread, by simp [Literal.value]⟩
  · have hstops : Stops ('e' :: (intText (point - 1)).toList) := by
      rintro c ⟨⟩
      decide
    have hwhole : ∀ c ∈ [d], isDigit c = true := List.forall_mem_singleton.mpr (hdigits d (by simp))
    have hread := readLiteral?_point (List.cons_ne_nil d _) hwhole
      (fun c hc => hdigits c (List.mem_cons_of_mem d hc)) hstops
    have hexponent : readExponent? ('e' :: (intText (point - 1)).toList) = some (point - 1) :=
      readInt?_intText (point - 1)
    rw [hexponent] at hread
    have hplaces : point - 1 - ((d' :: tail).length : Int) = point - (d :: d' :: tail).length := by
      simp only [List.length_cons]
      omega
    exact ⟨_, hread, by rw [Literal.value, hplaces, List.singleton_append]⟩

/-- The text of a positive magnitude stands for the shortest decimal. -/
theorem reads_magnitudeText {x : Binary64} (h : x.magnitude ≠ 0) :
    Reads x.magnitudeText (Number.shortest x).value := by
  have hdigits : ∀ c ∈ digitsOf (Number.shortest x).digits, isDigit c = true :=
    fun c hc => isDigit_of_mem_digitsOf hc
  have hne := digitsOf_ne_nil (Number.shortest x).digits
  have hvalue : (Number.shortest x).value = digitsValue (digitsOf (Number.shortest x).digits) *
      10 ^ ((Number.shortest x).exponent + (digitsOf (Number.shortest x).digits).length -
        (digitsOf (Number.shortest x).digits).length) := by
    rw [digitsValue_digitsOf, add_sub_cancel_right, Decimal.value]
  rw [magnitudeText, if_neg h, hvalue]
  dsimp only
  split
  · exact reads_positional hdigits hne _
  · exact reads_scientific hdigits hne _

theorem Reads.unique {cs : List Char} {p q : ℚ} (hp : Reads cs p) (hq : Reads cs q) : p = q := by
  obtain ⟨l, hl, rfl⟩ := hp
  obtain ⟨l', hl', rfl⟩ := hq
  rw [hl] at hl'
  rw [Option.some.inj hl']

/-- A text with a sign is no literal. -/
theorem not_reads_minus {cs : List Char} {q : ℚ} : ¬ Reads ('-' :: cs) q := by
  rintro ⟨l, hl, -⟩
  have hminus : isDigit '-' = false := by decide
  simp [readLiteral?, hminus] at hl

theorem reads_zero : Reads ['0', '.', '0'] 0 := by
  refine ⟨⟨['0'], ['0'], 0⟩, rfl, ?_⟩
  have hzero : digitsValue (['0'] ++ ['0']) = 0 := by decide
  rw [Literal.value, hzero]
  simp

theorem magnitude_eq_zero_iff {x : Binary64} : x.magnitude = 0 ↔ x.unsigned = 0 := by
  have hunit := unitAt_pos x.unsigned
  rw [magnitude_eq, Nat.mul_eq_zero]
  constructor
  · rintro (hzero | hzero)
    · unfold significandAt at hzero
      split at hzero <;> omega
    · omega
  · intro hzero
    rw [hzero]
    exact Or.inl (by decide)

/-- Zero rounds to no other double. -/
theorem not_within_zero {x : Binary64} (h : x.magnitude ≠ 0) :
    ¬ (Interval.ofBinary64 x).Within 0 := by
  intro hwithin
  have hunsigned : 0 < x.unsigned := Nat.pos_of_ne_zero (mt magnitude_eq_zero_iff.mpr h)
  have hborder : border 0 < border x.unsigned := border_strictMono hunsigned
  have hlower := hwithin.bounds.1
  rw [Interval.ofBinary64_eq, zero_mul] at hlower
  have hlower : border x.unsigned ≤ 0 := by exact_mod_cast hlower
  omega

/-- Doubles of different size are written differently. -/
theorem unsigned_eq_of_magnitudeText
    {x y : Binary64} (h : x.magnitudeText = y.magnitudeText) : x.unsigned = y.unsigned := by
  have hshortest : ∀ z : Binary64, z.magnitude ≠ 0 →
      (Interval.ofBinary64 z).Within (Number.shortest z).value :=
    fun z hz => Interval.within_shortest (Nat.pos_of_ne_zero hz)
  have hzero : ∀ z : Binary64, z.magnitude = 0 → Reads z.magnitudeText 0 := by
    intro z hz
    rw [magnitudeText, if_pos hz]
    exact reads_zero
  by_cases hx : x.magnitude = 0
  · by_cases hy : y.magnitude = 0
    · rw [magnitude_eq_zero_iff.mp hx, magnitude_eq_zero_iff.mp hy]
    · have hvalue := (reads_magnitudeText hy).unique (h ▸ hzero x hx)
      exact absurd (hvalue ▸ hshortest y hy) (not_within_zero hy)
  · by_cases hy : y.magnitude = 0
    · have hvalue := (reads_magnitudeText hx).unique (h ▸ hzero y hy)
      exact absurd (hvalue ▸ hshortest x hx) (not_within_zero hx)
    · have hvalue := (reads_magnitudeText hx).unique (h ▸ reads_magnitudeText hy)
      exact Interval.unsigned_eq_of_within (hshortest x hx) (hvalue ▸ hshortest y hy)

theorem exists_reads_magnitudeText (x : Binary64) : ∃ q, Reads x.magnitudeText q := by
  by_cases hzero : x.magnitude = 0
  · rw [magnitudeText, if_pos hzero]
    exact ⟨0, reads_zero⟩
  · exact ⟨_, reads_magnitudeText hzero⟩

theorem text_of_isFinite {x : Binary64} (h : x.isFinite = true) :
    x.text.toList = if x.negative then '-' :: x.magnitudeText else x.magnitudeText := by
  have hnumber : x.isNaN = false := by
    simp only [isFinite, bne_iff_ne] at h
    simp [isNaN, h]
  simp [text, hnumber, h]

/-- No two finite doubles are written alike. -/
theorem eq_of_text
    {x y : Binary64} (hx : x.isFinite = true) (hy : y.isFinite = true)
    (h : x.text = y.text) : x = y := by
  have htexts := congrArg String.toList h
  rw [text_of_isFinite hx, text_of_isFinite hy] at htexts
  obtain ⟨p, hp⟩ := exists_reads_magnitudeText x
  obtain ⟨q, hq⟩ := exists_reads_magnitudeText y
  rcases hxsign : x.negative with _ | _
  · rcases hysign : y.negative with _ | _
    · rw [hxsign, hysign] at htexts
      exact eq_of_unsigned (hxsign.trans hysign.symm) (unsigned_eq_of_magnitudeText htexts)
    · rw [hxsign, hysign] at htexts
      have hminus : x.magnitudeText = '-' :: y.magnitudeText := htexts
      exact absurd (hminus ▸ hp) not_reads_minus
  · rcases hysign : y.negative with _ | _
    · rw [hxsign, hysign] at htexts
      have hminus : '-' :: x.magnitudeText = y.magnitudeText := htexts
      exact absurd (hminus ▸ hq) not_reads_minus
    · rw [hxsign, hysign] at htexts
      exact eq_of_unsigned (hxsign.trans hysign.symm)
        (unsigned_eq_of_magnitudeText (List.cons.inj htexts).2)

/-! ## Characters -/

/-- A character of a number: a digit, a point, a minus or the mark of an exponent. -/
def isNumberChar (c : Char) : Bool := isDigit c || c = '.' || c = '-' || c = 'e'

theorem isNumberChar_of_isDigit {c : Char} (h : isDigit c = true) : isNumberChar c = true := by
  simp [isNumberChar, h]

theorem isNumberChar_of_mem_intText {n : Int} {c : Char} (h : c ∈ (intText n).toList) :
    isNumberChar c = true := by
  rw [intText_toList] at h
  split at h
  · rcases List.mem_cons.mp h with rfl | hdigit
    · decide
    · exact isNumberChar_of_isDigit (isDigit_of_mem_digitsOf hdigit)
  · exact isNumberChar_of_isDigit (isDigit_of_mem_digitsOf h)

theorem isNumberChar_of_mem_positional
    {digits : List Char} (hdigits : ∀ c ∈ digits, isDigit c = true) {point : Int} {c : Char}
    (h : c ∈ positional digits point) : isNumberChar c = true := by
  have hzeros : ∀ {n : Nat}, c ∈ List.replicate n '0' → isNumberChar c = true :=
    fun hc => isNumberChar_of_isDigit (isDigit_of_mem_zeros hc)
  have hdigit : c ∈ digits → isNumberChar c = true :=
    fun hc => isNumberChar_of_isDigit (hdigits c hc)
  unfold positional at h
  dsimp only at h
  split at h
  · rcases List.mem_append.mp h with hfirst | hlast
    · rcases List.mem_append.mp hfirst with hhead | hmiddle
      · simp only [List.mem_cons, List.not_mem_nil, or_false] at hhead
        rcases hhead with rfl | rfl <;> decide
      · exact hzeros hmiddle
    · exact hdigit hlast
  · split at h
    · rcases List.mem_append.mp h with hfirst | hlast
      · exact (List.mem_append.mp hfirst).elim hdigit hzeros
      · simp only [List.mem_cons, List.not_mem_nil, or_false] at hlast
        rcases hlast with rfl | rfl <;> decide
    · rcases List.mem_append.mp h with hfirst | hlast
      · exact hdigit (List.mem_of_mem_take hfirst)
      · rcases List.mem_cons.mp hlast with rfl | hrest
        · decide
        · exact hdigit (List.mem_of_mem_drop hrest)

theorem isNumberChar_of_mem_scientific
    {digits : List Char} (hdigits : ∀ c ∈ digits, isDigit c = true) {point : Int} {c : Char}
    (h : c ∈ scientific digits point) : isNumberChar c = true := by
  have hdigit : c ∈ digits → isNumberChar c = true :=
    fun hc => isNumberChar_of_isDigit (hdigits c hc)
  unfold scientific at h
  dsimp only at h
  rcases List.mem_append.mp h with hfirst | hlast
  · rcases List.mem_append.mp hfirst with hhead | hmiddle
    · exact hdigit (List.mem_of_mem_take hhead)
    · split at hmiddle
      · simp at hmiddle
      · rcases List.mem_cons.mp hmiddle with rfl | htail
        · decide
        · exact hdigit (List.mem_of_mem_drop htail)
  · rcases List.mem_cons.mp hlast with rfl | hexponent
    · decide
    · exact isNumberChar_of_mem_intText hexponent

/-- The text of a finite double has only characters of numbers. -/
theorem isNumberChar_of_mem_text
    {x : Binary64} (hx : x.isFinite = true) {c : Char} (h : c ∈ x.text.toList) :
    isNumberChar c = true := by
  have hmagnitude : c ∈ x.magnitudeText → isNumberChar c = true := by
    intro hc
    have hdigits : ∀ d ∈ digitsOf (Number.shortest x).digits, isDigit d = true :=
      fun d hd => isDigit_of_mem_digitsOf hd
    unfold magnitudeText at hc
    dsimp only at hc
    split at hc
    · simp only [List.mem_cons, List.not_mem_nil, or_false] at hc
      rcases hc with rfl | rfl | rfl <;> decide
    · split at hc
      · exact isNumberChar_of_mem_positional hdigits hc
      · exact isNumberChar_of_mem_scientific hdigits hc
  rw [text_of_isFinite hx] at h
  split at h
  · rcases List.mem_cons.mp h with rfl | hrest
    · decide
    · exact hmagnitude hrest
  · exact hmagnitude h

end Binary64
end CaseSuite
