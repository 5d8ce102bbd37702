import CaseSuite.Proofs.Number.Quantities
import CaseSuite.Value.Basic
import Mathlib

/-!
# Equality of values

Values are compared by what they mean: a number by the quantity it denotes, whether it is kept as an
integer or as a double, and a list by the meanings of its items.  A NaN means nothing and leaves
every list that holds it without a meaning.  Two values are equal exactly if they have a meaning and
it is the same, which makes equality a partial equivalence.
-/

namespace CaseSuite

/-- What a value means in comparisons. -/
inductive Meaning where
  | null
  | bool (b : Bool)
  | number (q : Quantity)
  | text (content : String)
  | list (items : List Meaning)

namespace Value

mutual

/-- The meaning of a value, if it has one. -/
def meaning? : Value → Option Meaning
  | null => some .null
  | bool b => some (.bool b)
  | int n => some (.number (.finite n.toInt))
  | float x => x.quantity?.map .number
  | text content => some (.text content)
  | list items => (meanings? items).map .list

/-- The meanings of values, if all of them have one. -/
def meanings? : List Value → Option (List Meaning)
  | [] => some []
  | v :: vs => do
      let m ← meaning? v
      let ms ← meanings? vs
      return m :: ms

end

/-- A NaN stands in the value, at any depth. -/
inductive HasNaN : Value → Prop
  | here {x : Binary64} (nan : x.isNaN = true) : HasNaN (.float x)
  | inside {v : Value} {items : List Value} (mem : v ∈ items) (deeper : HasNaN v) :
      HasNaN (.list items)

theorem hasNaN_float_iff {x : Binary64} : (float x).HasNaN ↔ x.isNaN = true := by
  constructor
  · rintro ⟨nan⟩
    exact nan
  · exact HasNaN.here

theorem hasNaN_list_iff {items : List Value} :
    (list items).HasNaN ↔ ∃ v ∈ items, v.HasNaN := by
  constructor
  · rintro (_ | ⟨mem, deeper⟩)
    exact ⟨_, mem, deeper⟩
  · rintro ⟨v, mem, deeper⟩
    exact HasNaN.inside mem deeper

/-! ## Equality is having the same meaning -/

theorem meanings?_nil : meanings? [] = some [] :=
  rfl

theorem meanings?_cons_eq_some_iff {v : Value} {vs : List Value} {ms : List Meaning} :
    meanings? (v :: vs) = some ms ↔
      ∃ m ms', v.meaning? = some m ∧ meanings? vs = some ms' ∧ ms = m :: ms' := by
  simp only [meanings?, bind, Option.bind_eq_some_iff, pure, Option.some.injEq, eq_comm (a := ms)]
  constructor
  · rintro ⟨m, hm, ms', hms, hcons⟩
    exact ⟨m, ms', hm, hms, hcons⟩
  · rintro ⟨m, ms', hm, hms, hcons⟩
    exact ⟨m, hm, ms', hms, hcons⟩

mutual

/-- Equality of values is having the same meaning. -/
theorem equal_iff_meaning : ∀ a b : Value,
    a.equal b = true ↔ ∃ m, a.meaning? = some m ∧ b.meaning? = some m
  | .null, b => by cases b <;> simp [equal, meaning?]
  | .bool a, b => by
      cases b with
      | bool b => simp [equal, meaning?, eq_comm (a := a)]
      | _ => simp [equal, meaning?]
  | .text a, b => by
      cases b with
      | text b => simp [equal, meaning?, eq_comm (a := a)]
      | _ => simp [equal, meaning?]
  | .int a, b => by
      cases b with
      | int b => simp [equal, meaning?, Int64.toInt_inj, eq_comm (a := a)]
      | float x => simp [equal, meaning?, Binary64.equalsInt_iff_quantity]
      | _ => simp [equal, meaning?]
  | .float x, b => by
      cases b with
      | int b => simp [equal, meaning?, Binary64.equalsInt_iff_quantity]
      | float y => simp [equal, meaning?, Binary64.equal_iff_quantity]
      | _ => simp [equal, meaning?]
  | .list as, b => by
      cases b with
      | list bs => simp [equal, meaning?, equalAll_iff_meanings as bs]
      | _ => simp [equal, meaning?]

theorem equalAll_iff_meanings : ∀ as bs : List Value,
    equalAll as bs = true ↔ ∃ ms, meanings? as = some ms ∧ meanings? bs = some ms
  | [], [] => by simp [equalAll, meanings?_nil]
  | [], b :: bs => by simp [equalAll, meanings?_nil, meanings?_cons_eq_some_iff]
  | a :: as, [] => by simp [equalAll, meanings?_nil, meanings?_cons_eq_some_iff]
  | a :: as, b :: bs => by
      rw [equalAll, Bool.and_eq_true, equal_iff_meaning a b, equalAll_iff_meanings as bs]
      simp only [meanings?_cons_eq_some_iff]
      constructor
      · rintro ⟨⟨m, ha, hb⟩, ms, has, hbs⟩
        exact ⟨m :: ms, ⟨m, ms, ha, has, rfl⟩, m, ms, hb, hbs, rfl⟩
      · rintro ⟨_, ⟨m, ms, ha, has, rfl⟩, m', ms', hb, hbs, hcons⟩
        obtain ⟨rfl, rfl⟩ := List.cons.inj hcons
        exact ⟨⟨m, ha, hb⟩, ms, has, hbs⟩

end

/-! ## What has a meaning -/

mutual

theorem meaning?_isSome_iff : ∀ v : Value, v.meaning?.isSome ↔ ¬ v.HasNaN
  | .null => iff_of_true rfl (by intro h; cases h)
  | .bool _ => iff_of_true rfl (by intro h; cases h)
  | .int _ => iff_of_true rfl (by intro h; cases h)
  | .text _ => iff_of_true rfl (by intro h; cases h)
  | .float x => by
      simp [meaning?, hasNaN_float_iff, Binary64.quantity?_isSome_iff]
  | .list items => by
      simp [meaning?, hasNaN_list_iff, meanings?_isSome_iff items]

theorem meanings?_isSome_iff : ∀ vs : List Value,
    (meanings? vs).isSome ↔ ∀ v ∈ vs, ¬ v.HasNaN
  | [] => by simp [meanings?_nil]
  | v :: vs => by
      rw [List.forall_mem_cons, ← meaning?_isSome_iff v, ← meanings?_isSome_iff vs]
      simp only [Option.isSome_iff_exists, meanings?_cons_eq_some_iff]
      constructor
      · rintro ⟨_, m, ms, hm, hms, rfl⟩
        exact ⟨⟨m, hm⟩, ms, hms⟩
      · rintro ⟨⟨m, hm⟩, ms, hms⟩
        exact ⟨m :: ms, m, ms, hm, hms, rfl⟩

end

/-! ## A partial equivalence -/

theorem equal_symm {a b : Value} (h : a.equal b = true) : b.equal a = true := by
  obtain ⟨m, ha, hb⟩ := (equal_iff_meaning a b).mp h
  exact (equal_iff_meaning b a).mpr ⟨m, hb, ha⟩

theorem equal_trans {a b c : Value} (hab : a.equal b = true) (hbc : b.equal c = true) :
    a.equal c = true := by
  obtain ⟨m, ha, hb⟩ := (equal_iff_meaning a b).mp hab
  obtain ⟨m', hb', hc⟩ := (equal_iff_meaning b c).mp hbc
  obtain rfl : m = m' := Option.some.inj (hb.symm.trans hb')
  exact (equal_iff_meaning a c).mpr ⟨m, ha, hc⟩

theorem equal_self_iff (a : Value) : a.equal a = true ↔ ¬ a.HasNaN := by
  rw [equal_iff_meaning, ← meaning?_isSome_iff, Option.isSome_iff_exists]
  simp

/-- Nothing tells equal values apart. -/
theorem equal_congr_right {a b : Value} (h : a.equal b = true) (v : Value) :
    v.equal a = v.equal b := by
  rw [Bool.eq_iff_iff]
  exact ⟨fun ha => equal_trans ha h, fun hb => equal_trans hb (equal_symm h)⟩

/--
Equality of values is a partial equivalence: it is symmetric and transitive, and exactly the values
without a NaN in them are equal to themselves.  Numbers, integers and doubles alike, are equal if
they denote the same number or the same infinity.  So a list contains a value if it contains an
equal one.
-/
theorem equality_is_partial_equivalence :
    (∀ a b : Value, a.equal b = true ↔ b.equal a = true) ∧
    (∀ a b c : Value, a.equal b = true → b.equal c = true → a.equal c = true) ∧
    (∀ a : Value, a.equal a = true ↔ ¬ a.HasNaN) ∧
    (∀ a b : Value, a.equal b = true ↔ ∃ m, a.meaning? = some m ∧ b.meaning? = some m) ∧
    ∀ (items : List Value) (a b : Value), a.equal b = true →
      (list items).contains? a = (list items).contains? b := by
  refine ⟨?_, ?_, equal_self_iff, equal_iff_meaning, ?_⟩
  · exact fun a b => ⟨equal_symm, equal_symm⟩
  · exact fun a b c => equal_trans
  · intro items a b h
    have hitems : items.any (equal · a) = items.any (equal · b) := by
      simp only [equal_congr_right h]
    rw [contains?, contains?, hitems]

/-- The double `2^53`; the next integer is no double. -/
def brink : Value := .float ⟨0x4340000000000000⟩

/-- The same integer and the same zero, each kept in two ways. -/
def keptAsInt : Value := .list [.int 9007199254740992, .float (Binary64.zero true)]

def keptAsDouble : Value := .list [brink, .int 0]

def keptAsIntAgain : Value := .list [.int 9007199254740992, .float (Binary64.zero false)]

theorem equality_is_partial_equivalence_brink :
    keptAsInt.equal keptAsDouble = true ∧ keptAsDouble.equal keptAsIntAgain = true ∧
    keptAsInt.equal keptAsIntAgain = true ∧
    (list [keptAsIntAgain]).contains? keptAsInt = (list [keptAsIntAgain]).contains? keptAsDouble ∧
    (int 9007199254740993).equal brink = false ∧
    ¬ (list [.null, .list [.float Binary64.nan]]).equal
      (.list [.null, .list [.float Binary64.nan]]) = true := by
  obtain ⟨-, htrans, hself, -, hcontains⟩ := equality_is_partial_equivalence
  have hfirst : keptAsInt.equal keptAsDouble = true := by decide +kernel
  have hsecond : keptAsDouble.equal keptAsIntAgain = true := by decide +kernel
  have hnan : (list [.null, .list [.float Binary64.nan]]).HasNaN :=
    .inside (.tail _ (.head _)) (.inside (.head _) (.here (by decide +kernel)))
  refine ⟨hfirst, hsecond, htrans _ _ _ hfirst hsecond, hcontains _ _ _ hfirst, ?_, ?_⟩
  · decide +kernel
  · exact fun h => (hself _).mp h hnan

end Value
end CaseSuite
