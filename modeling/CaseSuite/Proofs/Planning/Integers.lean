import CaseSuite.Proofs.Listing.Sources
import CaseSuite.Proofs.Planning.Acceptance
import CaseSuite.Proofs.Planning.Functions
import CaseSuite.Proofs.Planning.Temporaries
import CaseSuite.Proofs.Scanning.Strings
import Mathlib

/-!
# Whole numbers from the source to the listing

A run of digits is one token wherever nothing carries it on.  The planner refuses it exactly if its
value is too large for 64 bits, however many digits and leading zeros it has.  Otherwise the
temporary of the expression is bound to that value, and the listing spells it without leading zeros.
-/

namespace CaseSuite

/-! ## Leading zeros -/

namespace Number

/-- A run of digits without its leading zeros; of zeros alone one is left. -/
def withoutLeadingZeros (cs : List Char) : List Char :=
  match cs.dropWhile (· == '0') with
  | [] => ['0']
  | c :: rest => c :: rest

theorem toNat_of_isDigit {c : Char} (h : isDigit c = true) : 48 ≤ c.toNat ∧ c.toNat ≤ 57 := by
  simpa [isDigit, Char.le_def, UInt32.le_iff_toNat_le] using h

theorem digitValue_lt {c : Char} (h : isDigit c = true) : digitValue c < 10 := by
  have hbounds := toNat_of_isDigit h
  change c.toNat - 48 < 10
  omega

theorem digitsOf_digitValue {c : Char} (h : isDigit c = true) : digitsOf (digitValue c) = [c] := by
  have hchar : (digitValue c).digitChar = c := by
    have hbounds := toNat_of_isDigit h
    apply Char.toNat_inj.mp
    rw [Nat.toNat_digitChar_of_lt_ten (digitValue_lt h)]
    change 48 + (c.toNat - 48) = c.toNat
    omega
  rw [digitsOf, Nat.toDigits_of_lt_base (digitValue_lt h), hchar]

/-- Digits that do not begin with a zero are those of their value. -/
theorem digitsOf_of_head_ne
    {cs : List Char} (hsome : cs ≠ []) (hdigits : ∀ c ∈ cs, isDigit c = true)
    (hhead : cs.head? ≠ some '0') : digitsOf (digitsValue cs) = cs := by
  -- the last digit is split off, and what stands in front of it is not zero
  induction cs using List.reverseRecOn with
  | nil => exact absurd rfl hsome
  | append_singleton front c ih =>
      have hc : isDigit c = true := hdigits c (by simp)
      have hvalue : digitsValue (front ++ [c]) = 10 * digitsValue front + digitValue c := by
        simp [digitsValue]
      rcases front with _ | ⟨d, front⟩
      · rw [hvalue]
        simpa [digitsValue] using digitsOf_digitValue hc
      · have hfront := ih (by simp) (fun e he => hdigits e (List.mem_append_left _ he))
          (by simpa using hhead)
        have hpos : 0 < digitsValue (d :: front) := by
          rw [Nat.pos_iff_ne_zero]
          intro hzero
          rw [hzero] at hfront
          obtain ⟨rfl, -⟩ := List.cons.inj hfront
          exact hhead rfl
        have happend := Nat.toDigits_append_toDigits (b := 10) (by decide) hpos (digitValue_lt hc)
        rw [hvalue, digitsOf, ← happend]
        exact congrArg₂ (· ++ ·) hfront (digitsOf_digitValue hc)

/-- The digits of the value of a run of digits are the run without its leading zeros. -/
theorem digitsOf_digitsValue {cs : List Char} (h : ∀ c ∈ cs, isDigit c = true) :
    digitsOf (digitsValue cs) = withoutLeadingZeros cs := by
  have hsplit := List.takeWhile_append_dropWhile (p := (· == '0')) (l := cs)
  have hzeros : cs.takeWhile (· == '0') =
      List.replicate (cs.takeWhile (· == '0')).length '0' := by
    refine List.eq_replicate_of_mem fun c hc => ?_
    simpa using List.mem_takeWhile_imp hc
  have hvalue : digitsValue cs = digitsValue (cs.dropWhile (· == '0')) := by
    conv_lhs => rw [← hsplit, digitsValue_append, hzeros, digitsValue_zeros]
    rw [Nat.mul_zero, Nat.zero_add]
  have hstop := List.head?_dropWhile_not (· == '0') cs
  have hdigits : ∀ c ∈ cs.dropWhile (· == '0'), isDigit c = true :=
    fun c hc => h c (List.dropWhile_sublist _ |>.mem hc)
  rw [hvalue, withoutLeadingZeros]
  rcases hrest : cs.dropWhile (· == '0') with _ | ⟨c, rest⟩
  · rfl
  · rw [hrest] at hstop hdigits
    refine digitsOf_of_head_ne (by simp) hdigits ?_
    simpa using hstop

/-- Of the runs of digits those up to the largest integer of 64 bits are in range. -/
theorem inRange_iff_of_isDigits {cs : List Char} (form : Token.IsDigits cs) :
    InRange cs ↔ digitsValue cs ≤ 2 ^ 63 - 1 := by
  rw [inRange_iff_of_notMem (point_notMem_of_digits form.2)]
  constructor
  · rintro ⟨n, spells, -, hbelow⟩
    cases spells with
    | plain => omega
    | plus => exact absurd (form.2 '+' List.mem_cons_self) (by decide)
    | minus => exact absurd (form.2 '-' List.mem_cons_self) (by decide)
  · intro hvalue
    exact ⟨_, Spells.plain form, by omega, by omega⟩

end Number

/-! ## Scanning -/

/-- A run of digits is one token where neither a digit nor a point with a digit follows. -/
theorem Token.complete_of_isDigits
    {digits rest : List Char} (form : IsDigits digits)
    (hstop : ∀ c ∈ rest.head?, Number.isDigit c = false)
    (hpoint : ∀ c tail, rest = '.' :: c :: tail → Number.isDigit c = false) :
    Complete rest .number digits :=
  Complete.number (IsNumber.whole form) (longest_whole form.2 hstop hpoint)

/-! ## Planning -/

namespace Plan

/-- The planner takes a run of digits for an integer if it is in range. -/
theorem number?_of_isDigits {literal : String} (form : Token.IsDigits literal.toList)
    (hvalue : Number.digitsValue literal.toList ≤ 2 ^ 63 - 1) :
    ∃ value : Int64, value.toInt = Number.digitsValue literal.toList ∧
      number? literal = some (.int value) := by
  have hpoint : ¬ literal.toList.contains '.' = true := by
    simpa using Number.point_notMem_of_digits form.2
  have hread := Number.readInt?_eq_some_iff.mpr (Number.Spells.plain form)
  refine ⟨_, Int64.toInt_ofInt_of_le (by omega) (by omega), ?_⟩
  have hlimit : Int.pow 2 63 = 2 ^ 63 := rfl
  rw [number?, if_neg hpoint, Number.readInt64?, hread, hlimit]
  dsimp only
  rw [if_pos ⟨by omega, by omega⟩]
  rfl

theorem expression_number
    {literal : String} {value : Operand} (h : number? literal = some value) (n : Numbering) :
    (expression (.number literal)).runFrom n =
      (.ok ([.bind (temporary (n.temporaries + 1)) value], temporary (n.temporaries + 1)),
        { n with temporaries := n.temporaries + 1 }) := by
  simp only [expression, h]
  rfl

theorem expression_number_error_iff {literal : String} {n : Numbering} :
    ((expression (.number literal)).runFrom n).1 = .error (.numberOutOfRange literal) ↔
      ¬ Number.InRange literal.toList := by
  rw [← number?_isSome_iff]
  rcases h : number? literal with _ | value
  · simp only [expression, h]
    exact iff_of_true rfl (by simp)
  · rw [expression_number h]
    simp

theorem PreparedAll.bind_mem
    {k : Nat} {es : List Expr} {as : List Action} (h : PreparedAll k es as) {i : Nat} {e : Expr}
    (he : es[i]? = some e) :
    ∃ value, Denotes e value ∧ .bind (temporary (k + i + 1)) value ∈ as := by
  obtain ⟨hlength, rfl⟩ := List.getElem?_eq_some_iff.mp he
  have hsplit : es = es.take i ++ es[i] :: es.drop (i + 1) := by simp
  rw [hsplit] at h
  obtain ⟨_, value, _, -, hdenotes, -, rfl⟩ := h.split
  rw [List.length_take_of_le hlength.le]
  exact ⟨value, hdenotes, by simp⟩

/-- The value of each expression is bound to the temporary of that number. -/
theorem bind_mem_of_statements
    {ss : List Statement} {actions : List Action} {n n' : Numbering}
    (h : (statements ss).runFrom n = (.ok actions, n')) {i : Nat} {e : Expr}
    (he : (ss.flatMap Statement.exprs)[i]? = some e) :
    ∃ value, Denotes e value ∧ .bind (temporary (n.temporaries + i + 1)) value ∈ actions := by
  induction ss generalizing actions n n' i with
  | nil => cases he
  | cons s ss ih =>
      obtain ⟨first, n₁, hfirst, hrest⟩ := runFrom_bind_ok h
      obtain ⟨more, n₂, hmore, hrest₂⟩ := runFrom_bind_ok hrest
      cases hrest₂
      rw [List.flatMap_cons, List.getElem?_append] at he
      split at he
      · obtain ⟨es, later, hprepared, rfl, -⟩ := (statement_ok hfirst).prepared
        obtain ⟨value, hdenotes, hmem⟩ := hprepared.bind_mem he
        exact ⟨value, hdenotes, by simp [hmem]⟩
      · rename_i hlater
        obtain ⟨value, hdenotes, hmem⟩ := ih hmore he
        have hcount : n₁.temporaries + (i - s.exprs.length) + 1 = n.temporaries + i + 1 := by
          rw [temporaries_of_statement hfirst]
          omega
        rw [hcount] at hmem
        exact ⟨value, hdenotes, List.mem_append_right _ hmem⟩

/-- The plan of a case stands where the case stands, under the number of the case, and binds the
value of each expression. -/
theorem exists_plan_of_testCases
    {cs : List TestCase} {plans : List Plan} {n n' : Numbering}
    (h : (testCases cs).runFrom n = (.ok plans, n')) {j : Nat} {c : TestCase}
    (hc : cs[j]? = some c) :
    ∃ p, plans[j]? = some p ∧ p.function = functionName (n.nextCase + j) c.name ∧
      ∀ i e, c.exprs[i]? = some e →
        ∃ value, Denotes e value ∧ .bind (temporary (i + 1)) value ∈ p.actions := by
  induction cs generalizing plans n n' j with
  | nil => cases hc
  | cons d cs ih =>
      obtain ⟨p, n₁, hp, hrest⟩ := runFrom_bind_ok h
      obtain ⟨more, n₂, hmore, hplans⟩ := runFrom_bind_ok hrest
      cases hplans
      cases j with
      | zero =>
          cases hc
          refine ⟨p, rfl, testCase_function hp, fun i e he => ?_⟩
          obtain ⟨function, n₃, hbegin, hrest₃⟩ := runFrom_bind_ok hp
          obtain ⟨body, n₄, hbody, hplan⟩ := runFrom_bind_ok hrest₃
          cases hbegin
          cases hplan
          obtain ⟨value, hdenotes, hmem⟩ := bind_mem_of_statements hbody he
          rw [Nat.zero_add] at hmem
          exact ⟨value, hdenotes, List.mem_cons_of_mem _ hmem⟩
      | succ j =>
          have hnumber := testCase_nextCase d n
          rw [hp] at hnumber
          obtain ⟨q, hq, hfunction, hbinds⟩ := ih hmore hc
          have hcount : n.nextCase + 1 + j = n.nextCase + (j + 1) := by omega
          rw [hnumber, hcount] at hfunction
          exact ⟨q, hq, hfunction, hbinds⟩

/-! ## Writing -/

/-- The line that binds a temporary to the value of a run of digits. -/
def integerLine (k : Nat) (literal : String) : String :=
  "let " ++ temporary k ++ " = Value::Int(" ++
    String.ofList (Number.withoutLeadingZeros literal.toList) ++ ");"

/-- A temporary is written as it is. -/
theorem binding_temporary (k : Nat) : Listing.binding (temporary k) = .ok (temporary k) := by
  have hreserved : Reserved (temporary k) := (isTemporary_temporary k).reserved
  have hforbidden : ∀ name ∈ Listing.forbidden, ¬ Reserved name := by decide
  have hkeywords : ∀ name ∈ Listing.keywords, ¬ Reserved name :=
    fun name hname => (Listing.keywords_are_free name hname).1
  rw [Listing.binding, if_neg fun h => hforbidden _ h hreserved,
    if_neg fun h => hkeywords _ h hreserved]

theorem text?_bind_integer
    {literal : String} (form : Token.IsDigits literal.toList) {value : Int64}
    (hvalue : value.toInt = Number.digitsValue literal.toList) (k : Nat) :
    (Action.bind (temporary k) (.int value)).text? = .ok (integerLine k literal) := by
  have htext : Number.intText value.toInt =
      String.ofList (Number.withoutLeadingZeros literal.toList) := by
    rw [Number.intText, hvalue, if_neg (by omega), Int.natAbs_natCast,
      Number.digitsOf_digitsValue form.2]
  simp only [Action.text?, binding_temporary, Operand.text?, htext, integerLine, bind, Except.bind,
    pure, Except.pure]
  refine congrArg Except.ok (String.toList_injective ?_)
  simp

end Plan

theorem Spelled.exists_line
    {actions : List Action} {lines : List String} (h : Spelled actions lines) {a : Action}
    (ha : a ∈ actions) : ∃ line ∈ lines, a.text? = .ok line := by
  induction h with
  | nil => cases ha
  | cons first _ ih =>
      rcases List.mem_cons.mp ha with rfl | hmore
      · exact ⟨_, List.mem_cons_self, first⟩
      · obtain ⟨line, hline, htext⟩ := ih hmore
        exact ⟨line, List.mem_cons_of_mem _ hline, htext⟩

/-- Every plan has its function among the functions of a suite. -/
theorem Suite.FunctionsText.exists_function
    {plans : List Plan} {text : List Char} (h : FunctionsText plans text) {p : Plan}
    (hp : p ∈ plans) :
    ∃ lines front back, Spelled p.actions lines ∧
      text = front ++ (Plan.functionText p.function lines ++ back) := by
  induction h with
  | nil => cases hp
  | @cons q qs lines text spelled _ ih =>
      rcases List.mem_cons.mp hp with rfl | hmore
      · exact ⟨lines, [], text, spelled, rfl⟩
      · obtain ⟨lines', front, back, hlines, rfl⟩ := ih hmore
        exact ⟨lines', Plan.functionText q.function lines ++ front, back, hlines, by simp⟩

/-! ## Whole sources -/

theorem compile_eq_plan_error_iff
    {text : String} {file : CaseFile} (h : CaseFile.ofText text = .ok file) {e : PlanError} :
    compile text = .error (.plan e) ↔ file.suite = .error e := by
  simp only [compile, Suite.ofText, h]
  rcases file.suite with e' | suite
  · simp
  · rcases hlisting : suite.program.listing with e' | code
    · simp [hlisting]
    · simp [hlisting]

/-- The literal that the planner refuses is out of range. -/
theorem CaseFile.not_inRange_of_suite
    {file : CaseFile} {literal : String} (h : file.suite = .error (.numberOutOfRange literal)) :
    ¬ Number.InRange literal.toList := by
  rw [suite_eq_error_iff, Use.findSome?_eq_some_iff] at h
  obtain ⟨before, testCase, use, after, -, -, hrefused, herror⟩ := h
  cases use with
  | name n => cases herror
  | number other =>
      cases herror
      exact hrefused

/-- In compiled code each expression of a case stands in the function of the case, bound to the
temporary of its number. -/
theorem exists_line_of_compile
    {text code : String} {file : CaseFile} (hfile : CaseFile.ofText text = .ok file)
    (hcode : compile text = .ok code) {j : Nat} {c : TestCase} (hc : file.cases[j]? = some c)
    {i : Nat} {e : Expr} (he : c.exprs[i]? = some e) :
    ∃ value lines front back line, Plan.Denotes e value ∧
      code.toList = front ++
        (Plan.functionText (Plan.functionName (j + 1) c.name) lines ++ back) ∧
      line ∈ lines ∧ (Action.bind (Plan.temporary (i + 1)) value).text? = .ok line := by
  obtain ⟨suite, hsuite, hlisting⟩ := listing_of_compile hcode
  have hplanned : file.suite = .ok suite := by
    simp only [Suite.ofText, hfile] at hsuite
    rcases hresult : file.suite with e' | suite'
    · simp [hresult] at hsuite
    · simpa [hresult] using hsuite
  obtain ⟨n, hrun, -⟩ := CaseFile.suite_run hplanned
  obtain ⟨p, hp, hfunction, hbinds⟩ := Plan.exists_plan_of_testCases hrun hc
  obtain ⟨value, hdenotes, hmem⟩ := hbinds i e he
  obtain ⟨functions, hfunctions, hlist⟩ := Suite.listing_eq hlisting
  obtain ⟨lines, front, back, hlines, rfl⟩ :=
    hfunctions.exists_function (List.mem_of_getElem? hp)
  obtain ⟨line, hline, htext⟩ := hlines.exists_line hmem
  have hnumber : (({} : Plan.Numbering).nextCase + j) = j + 1 := Nat.add_comm 1 j
  rw [hfunction, hnumber] at hlist
  refine ⟨value, lines, Suite.openingText ++ ((Text.rawLiteral suite.config).toList ++
    (Suite.middleText ++ front)), back ++ Suite.closingText suite.plans, line, hdenotes, ?_, hline,
    htext⟩
  rw [hlist]
  simp

/--
A run of digits keeps its value or is refused.  It is one token on its own, and behind any gap where
neither a digit nor a point with a digit follows.  As an expression it is refused exactly if its
value is too large for 64 bits; otherwise the next temporary is bound to that value, in a line that
spells it without leading zeros.  A source is refused for it exactly if its value is too large, once
everything that is planned before it is acceptable; and the code of every source in which it is an
expression holds that line in the function of its case, for the temporary of that expression.
-/
theorem integer_literals_keep_their_value
    {literal : String} (form : Token.IsDigits literal.toList) :
    (Token.scan literal = .ok [⟨.number, literal, .start⟩,
        Token.ending (Position.start.advance literal.toList)] ∧
      ∀ (p : Position) (gap rest : List Char), Token.Gap gap →
        (∀ c ∈ rest.head?, Number.isDigit c = false) →
        (∀ c tail, rest = '.' :: c :: tail → Number.isDigit c = false) →
        Token.Cursor.step ⟨p, gap ++ (literal.toList ++ rest)⟩ =
          .token ⟨.number, literal, p.advance gap⟩
            ⟨(p.advance gap).advance literal.toList, rest⟩) ∧
    Number.digitsValue (Number.withoutLeadingZeros literal.toList) =
      Number.digitsValue literal.toList ∧
    (∀ n : Plan.Numbering,
      (((Plan.expression (.number literal)).runFrom n).1 = .error (.numberOutOfRange literal) ↔
        2 ^ 63 - 1 < Number.digitsValue literal.toList) ∧
      (Number.digitsValue literal.toList ≤ 2 ^ 63 - 1 → ∃ value : Int64,
        value.toInt = Number.digitsValue literal.toList ∧
        ((Plan.expression (.number literal)).runFrom n).1 =
          .ok ([.bind (Plan.temporary (n.temporaries + 1)) (.int value)],
            Plan.temporary (n.temporaries + 1)) ∧
        (Action.bind (Plan.temporary (n.temporaries + 1)) (.int value)).text? =
          .ok (Plan.integerLine (n.temporaries + 1) literal))) ∧
    ∀ (text : String) (file : CaseFile), CaseFile.ofText text = .ok file →
      (∀ before testCase after, file.uses = before ++ (testCase, .number literal) :: after →
        (∀ x ∈ before, x.2.Acceptable) →
        (compile text = .error (.plan (.numberOutOfRange literal)) ↔
          2 ^ 63 - 1 < Number.digitsValue literal.toList)) ∧
      ∀ code j c i, compile text = .ok code → file.cases[j]? = some c →
        c.exprs[i]? = some (.number literal) →
        Number.digitsValue literal.toList ≤ 2 ^ 63 - 1 ∧ ∃ lines front back,
          code.toList = front ++
            (Plan.functionText (Plan.functionName (j + 1) c.name) lines ++ back) ∧
          Plan.integerLine (i + 1) literal ∈ lines := by
  have hrange : ¬ Number.InRange literal.toList ↔
      2 ^ 63 - 1 < Number.digitsValue literal.toList := by
    rw [Number.inRange_iff_of_isDigits form, not_le]
  refine ⟨⟨?_, ?_⟩, ?_, ?_, ?_⟩
  · have hcomplete : Token.Complete [] .number literal.toList :=
      Token.complete_of_isDigits form (by simp) (by simp)
    simpa using Token.scan_of_complete hcomplete
  · intro p gap rest hgap hstop hpoint
    exact Token.Cursor.step_token_iff.mpr ⟨gap, rest, hgap, rfl,
      Token.complete_of_isDigits form hstop hpoint, rfl, rfl⟩
  · rw [← Number.digitsOf_digitsValue form.2, Number.digitsValue_digitsOf]
  · intro n
    refine ⟨Plan.expression_number_error_iff.trans hrange, fun hvalue => ?_⟩
    obtain ⟨value, hint, hnumber⟩ := Plan.number?_of_isDigits form hvalue
    refine ⟨value, hint, ?_, Plan.text?_bind_integer form hint _⟩
    rw [Plan.expression_number hnumber]
  · intro text file hfile
    refine ⟨?_, ?_⟩
    · intro before testCase after huses hbefore
      rw [compile_eq_plan_error_iff hfile, ← hrange]
      refine ⟨CaseFile.not_inRange_of_suite, fun hrefused => ?_⟩
      rw [CaseFile.suite_eq_error_iff, Use.findSome?_eq_some_iff]
      exact ⟨before, testCase, .number literal, after, huses, hbefore, hrefused, rfl⟩
    · intro code j c i hcode hc he
      obtain ⟨value, lines, front, back, line, hdenotes, hlist, hline, htext⟩ :=
        exists_line_of_compile hfile hcode hc he
      have hnumber : Plan.number? literal = some value := by
        cases hdenotes with
        | number hnumber => exact hnumber
      have hvalue : Number.digitsValue literal.toList ≤ 2 ^ 63 - 1 := by
        rw [← Number.inRange_iff_of_isDigits form, ← Plan.number?_isSome_iff, hnumber]
        rfl
      obtain ⟨value', hint, hnumber'⟩ := Plan.number?_of_isDigits form hvalue
      obtain rfl := Option.some.inj (hnumber.symm.trans hnumber')
      rw [Plan.text?_bind_integer form hint] at htext
      obtain rfl := Except.ok.inj htext
      exact ⟨hvalue, lines, front, back, hlist, hline⟩

/-- A check against the largest integer of 64 bits, with zeros in front of it. -/
def largestSource : String :=
  "Config \x7b \x22c\x22 \x7d\nTestCase T \x7b expect_equal(7,0009223372036854775807); \x7d\n"

/-- A check against one more than that. -/
def tooLargeSource : String :=
  "Config \x7b \x22c\x22 \x7d\nTestCase T \x7b expect_equal(7,0009223372036854775808); \x7d\n"

/-- The zeros in front neither bring the largest integer out of range nor show in its line. -/
theorem integer_literals_keep_their_value_limit :
    (∃ code, compile largestSource = .ok code ∧ ∃ lines front back,
      code.toList = front ++ (Plan.functionText "test_1_T" lines ++ back) ∧
      "let tmp_2 = Value::Int(9223372036854775807);" ∈ lines) ∧
    compile tooLargeSource = .error (.plan (.numberOutOfRange "0009223372036854775808")) := by
  have hlargest : CaseFile.ofText largestSource = .ok ⟨"c", [⟨"T", 2,
      [.check .equal (.number "7") (.number "0009223372036854775807")]⟩]⟩ := by decide +kernel
  have htooLarge : CaseFile.ofText tooLargeSource = .ok ⟨"c", [⟨"T", 2,
      [.check .equal (.number "7") (.number "0009223372036854775808")]⟩]⟩ := by decide +kernel
  obtain ⟨code, hcode⟩ := exists_code largestSource (by decide +kernel)
  have hform : Token.IsDigits "0009223372036854775807".toList := by
    simp [Token.IsDigits, Number.isDigit]
  have hform' : Token.IsDigits "0009223372036854775808".toList := by
    simp [Token.IsDigits, Number.isDigit]
  constructor
  · obtain ⟨-, -, -, hsources⟩ := integer_literals_keep_their_value hform
    obtain ⟨-, hline⟩ := hsources _ _ hlargest
    obtain ⟨-, hlines⟩ := hline code 0 _ 1 hcode rfl rfl
    exact ⟨code, hcode, hlines⟩
  · obtain ⟨-, -, -, hsources⟩ := integer_literals_keep_their_value hform'
    obtain ⟨hrefused, -⟩ := hsources _ _ htooLarge
    exact (hrefused [("T", .number "7")] "T" [] rfl (by decide +kernel)).mpr (by decide +kernel)

end CaseSuite
