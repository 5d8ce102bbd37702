import CaseSuite.Proofs.Grammar.Printing
import Mathlib

/-!
# Parsers guided by a language

A parser is guided by a language when it reads sentences of that language and, where it stops, is
right to do so: what it has read begins some sentence, and so does what it has read with a token
that its message names.  In both cases it looks no further than the next token.  Guidance is kept by
sequences and by branches on the next token, and every function of the parser is made of these.
-/

namespace CaseSuite
namespace Grammar

open Parse (Parser Refusal)
open Token (Kind)

/-! ## Stopping at a token -/

/-- The token lists that denote something. -/
def language {α : Type} (phrase : List Token → α → Prop) : Language Token :=
  {ts | ∃ a, phrase ts a}

/-- Some sentence of the language begins with these tokens. -/
def Viable (L : Language Token) (before : List Token) : Prop :=
  ∃ s ∈ L, before <+: s

/-- A message that expects this describes the kind of the token, and the token is a whole one. -/
def Names (expected : Expectation) (t : Token) : Prop :=
  t.kind.describe = expected.describe ∧ Delimited [t]

/-- What has been read begins a sentence, and so does what has been read with a token that the
message names. -/
structure Honest (L : Language Token) (before : List Token) (expected : Expectation) : Prop where
  viable : Viable L before
  offered : ∀ t, Names expected t → Viable L (before ++ [t])

/-- A parser reads a sentence; only the token after it matters for that. -/
def Takes {α : Type} (parser : Parser α) (L : Language Token) (ts : List Token) (a : α)
    (rest : List Token) : Prop :=
  ∃ us ∈ L, ts = us ++ rest ∧
    ∀ rest', rest'.head? = rest.head? → parser (us ++ rest') = .ok (a, rest')

/-- A parser stops honestly at a token; what comes after it does not matter. -/
def Stops {α : Type} (parser : List Token → Except Refusal α) (L : Language Token)
    (ts : List Token) (r : Refusal) : Prop :=
  ∃ before after, ts = before ++ after ∧ r.found = after.head? ∧ Honest L before r.expected ∧
    ∀ after', after'.head? = after.head? → parser (before ++ after') = .error r

/-- A parser reads a language and stops honestly. -/
structure Guided {α : Type} (parser : Parser α) (L : Language Token) : Prop where
  inhabited : ∃ s, s ∈ L
  takes : ∀ {ts rest : List Token} {a : α}, Delimited ts → parser ts = .ok (a, rest) →
    Takes parser L ts a rest
  stops : ∀ {ts : List Token} {r : Refusal}, Delimited ts → parser ts = .error r →
    Stops parser L ts r

section Languages

variable {L M : Language Token} {before us : List Token} {expected : Expectation}

theorem Viable.mono (hle : L ≤ M) (h : Viable L before) : Viable M before := by
  obtain ⟨s, hs, hprefix⟩ := h
  exact ⟨s, hle hs, hprefix⟩

theorem viable_nil (h : ∃ s, s ∈ L) : Viable L [] := by
  obtain ⟨s, hs⟩ := h
  exact ⟨s, hs, List.nil_prefix⟩

/-- A sentence that has been begun can be followed by another one. -/
theorem Viable.mul_right (h : Viable L before) (hM : ∃ s, s ∈ M) : Viable (L * M) before := by
  obtain ⟨s, hs, hprefix⟩ := h
  obtain ⟨s', hs'⟩ := hM
  refine ⟨s ++ s', Language.mem_mul.mpr ⟨s, hs, s', hs', rfl⟩, ?_⟩
  exact hprefix.trans (List.prefix_append s s')

/-- After one sentence another one can be begun. -/
theorem Viable.mul_left (hus : us ∈ L) (h : Viable M before) : Viable (L * M) (us ++ before) := by
  obtain ⟨s, hs, hprefix⟩ := h
  refine ⟨us ++ s, Language.mem_mul.mpr ⟨us, hus, s, hs, rfl⟩, ?_⟩
  exact (List.prefix_append_right_inj us).mpr hprefix

theorem Honest.mono (hle : L ≤ M) (h : Honest L before expected) : Honest M before expected :=
  ⟨h.viable.mono hle, fun t ht => (h.offered t ht).mono hle⟩

theorem Honest.mul_right (h : Honest L before expected) (hM : ∃ s, s ∈ M) :
    Honest (L * M) before expected :=
  ⟨h.viable.mul_right hM, fun t ht => (h.offered t ht).mul_right hM⟩

theorem Honest.mul_left (hus : us ∈ L) (h : Honest M before expected) :
    Honest (L * M) (us ++ before) expected := by
  refine ⟨Viable.mul_left hus h.viable, ?_⟩
  intro t ht
  rw [List.append_assoc]
  exact Viable.mul_left hus (h.offered t ht)

end Languages

/-! ## Sequences and branches -/

/-- One parser after another. -/
def andThen {α β : Type} (p : Parser α) (k : α → Parser β) : Parser β :=
  fun ts => p ts >>= fun x => k x.1 x.2

/-- A result that takes no token. -/
def give {α : Type} (a : α) : Parser α :=
  fun ts => .ok (a, ts)

theorem head?_append_congr
    (before : List Token) {after after' : List Token} (h : after'.head? = after.head?) :
    (before ++ after').head? = (before ++ after).head? := by
  rw [List.head?_append, List.head?_append, h]

theorem kindOf_congr
    {ts us : List Token} (h : us.head? = ts.head?) : Parse.kindOf us = Parse.kindOf ts := by
  cases ts with
  | nil => rw [List.head?_eq_none_iff.mp h]
  | cons t ts =>
      obtain ⟨us', rfl⟩ := List.head?_eq_some_iff.mp h
      rfl

section Combinators

variable {α β : Type} {L M : Language Token} {ts : List Token}

/-- What a parser does depends on the next token, so a parser that does the same takes the same. -/
theorem Takes.congr
    {p q : Parser α} {a : α} {rest : List Token} (h : Takes p L ts a rest)
    (hagree : ∀ us, us.head? = ts.head? → q us = p us) : Takes q L ts a rest := by
  obtain ⟨us, hus, rfl, hlocal⟩ := h
  refine ⟨us, hus, rfl, ?_⟩
  intro rest' hrest
  rw [hagree _ (head?_append_congr us hrest)]
  exact hlocal rest' hrest

theorem Takes.delimited
    {p : Parser α} {a : α} {rest : List Token} (h : Takes p L ts a rest) (hts : Delimited ts) :
    Delimited rest := by
  obtain ⟨us, -, rfl, -⟩ := h
  exact hts.of_append

theorem Stops.congr
    {p q : List Token → Except Refusal α} {r : Refusal} (h : Stops p L ts r)
    (hagree : ∀ us, us.head? = ts.head? → q us = p us) : Stops q L ts r := by
  obtain ⟨before, after, rfl, hfound, honest, hlocal⟩ := h
  refine ⟨before, after, rfl, hfound, honest, ?_⟩
  intro after' hafter
  rw [hagree _ (head?_append_congr before hafter)]
  exact hlocal after' hafter

theorem Stops.mono
    {p : List Token → Except Refusal α} {r : Refusal} (h : Stops p L ts r) (hle : L ≤ M) :
    Stops p M ts r := by
  obtain ⟨before, after, hts, hfound, honest, hlocal⟩ := h
  exact ⟨before, after, hts, hfound, honest.mono hle, hlocal⟩

theorem Takes.mono
    {p : Parser α} {a : α} {rest : List Token} (h : Takes p L ts a rest) (hle : L ≤ M) :
    Takes p M ts a rest := by
  obtain ⟨us, hus, hts, hlocal⟩ := h
  exact ⟨us, hle hus, hts, hlocal⟩

theorem Guided.mono {p : Parser α} (hle : L ≤ M) (h : Guided p L) : Guided p M where
  inhabited := by
    obtain ⟨s, hs⟩ := h.inhabited
    exact ⟨s, hle hs⟩
  takes hts hok := (h.takes hts hok).mono hle
  stops hts herror := (h.stops hts herror).mono hle

theorem guided_give (a : α) : Guided (give a) 1 where
  inhabited := ⟨[], rfl⟩
  takes := by
    intro ts rest b _ hok
    cases hok
    exact ⟨[], rfl, rfl, fun rest' _ => rfl⟩
  stops := by
    intro ts r _ herror
    cases herror

/-- A parser that stops at once. -/
theorem guided_refuse
    {expected : Expectation} (hL : ∃ s, s ∈ L) (hoffered : ∀ t, Names expected t → Viable L [t]) :
    Guided (Parse.refuse expected : Parser α) L where
  inhabited := hL
  takes := by
    intro ts rest a _ hok
    cases hok
  stops := by
    intro ts r _ herror
    cases herror
    refine ⟨[], ts, rfl, rfl, ⟨viable_nil hL, hoffered⟩, ?_⟩
    intro after' hafter
    rw [List.nil_append, Parse.refuse, hafter]

/-- Two parts in a row are taken by a parser that goes on with the second after the first. -/
theorem Takes.andThen
    {γ : Type} {p : Parser α} {k : Parser β} {q : Parser γ} {a : α} {b : β} {c : γ}
    {rest final : List Token} (hp : Takes p L ts a rest) (hk : Takes k M rest b final)
    (hagree : ∀ us rest' final', p us = .ok (a, rest') → rest'.head? = rest.head? →
      k rest' = .ok (b, final') → q us = .ok (c, final')) : Takes q (L * M) ts c final := by
  obtain ⟨us, hus, rfl, hlocal⟩ := hp
  obtain ⟨vs, hvs, rfl, hlocal'⟩ := hk
  refine ⟨us ++ vs, Language.mem_mul.mpr ⟨us, hus, vs, hvs, rfl⟩, by simp, ?_⟩
  intro final' hfinal
  have hhead := head?_append_congr vs hfinal
  rw [List.append_assoc]
  exact hagree _ _ _ (hlocal _ hhead) hhead (hlocal' final' hfinal)

/-- A stop in a second part is a stop of a parser that goes on with it after the first. -/
theorem Takes.stops
    {γ : Type} {p : Parser α} {k : List Token → Except Refusal β}
    {q : List Token → Except Refusal γ} {a : α} {rest : List Token} {r : Refusal}
    (hp : Takes p L ts a rest) (hk : Stops k M rest r)
    (hagree : ∀ us rest', p us = .ok (a, rest') → rest'.head? = rest.head? →
      k rest' = .error r → q us = .error r) : Stops q (L * M) ts r := by
  obtain ⟨us, hus, rfl, hlocal⟩ := hp
  obtain ⟨before, after, rfl, hfound, honest, hlocal'⟩ := hk
  refine ⟨us ++ before, after, by simp, hfound, honest.mul_left hus, ?_⟩
  intro after' hafter
  have hhead := head?_append_congr before hafter
  rw [List.append_assoc]
  exact hagree _ _ (hlocal _ hhead) hhead (hlocal' after' hafter)

/-- A stop is a stop of every parser that does not go on then. -/
theorem Stops.of_error
    {p : List Token → Except Refusal α} {q : List Token → Except Refusal β} {r : Refusal}
    (h : Stops p L ts r) (hagree : ∀ us, p us = .error r → q us = .error r) : Stops q L ts r := by
  obtain ⟨before, after, hts, hfound, honest, hlocal⟩ := h
  refine ⟨before, after, hts, hfound, honest, ?_⟩
  intro after' hafter
  exact hagree _ (hlocal after' hafter)

/-- A stop in a first part leaves the second one to be read. -/
theorem Stops.mul_right
    {p : List Token → Except Refusal α} {r : Refusal} (h : Stops p L ts r) (hM : ∃ s, s ∈ M) :
    Stops p (L * M) ts r := by
  obtain ⟨before, after, hts, hfound, honest, hlocal⟩ := h
  exact ⟨before, after, hts, hfound, honest.mul_right hM, hlocal⟩

/-- A sequence stops in its first part, before the second is begun, or in the second. -/
theorem Guided.andThen
    [Nonempty α] {p : Parser α} {k : α → Parser β} (hp : Guided p L) (hk : ∀ a, Guided (k a) M) :
    Guided (andThen p k) (L * M) where
  inhabited := by
    obtain ⟨us, hus⟩ := hp.inhabited
    obtain ⟨vs, hvs⟩ := (hk (Classical.arbitrary α)).inhabited
    exact ⟨us ++ vs, Language.mem_mul.mpr ⟨us, hus, vs, hvs, rfl⟩⟩
  takes := by
    intro ts final b hts hok
    obtain ⟨⟨a, rest⟩, hfirst, hsecond⟩ := Parse.bind_ok hok
    have htakes := hp.takes hts hfirst
    refine htakes.andThen ((hk a).takes (htakes.delimited hts) hsecond) ?_
    intro us rest' final' hus _ hrest
    rw [Grammar.andThen, hus]
    exact hrest
  stops := by
    intro ts r hts herror
    rcases hfirst : p ts with r' | ⟨a, rest⟩
    · obtain rfl : r' = r := by simpa [Grammar.andThen, hfirst, bind, Except.bind] using herror
      have hstops := (hp.stops hts hfirst).mul_right (hk (Classical.arbitrary α)).inhabited
      refine hstops.of_error ?_
      intro us hus
      rw [Grammar.andThen, hus]
      rfl
    · rw [Grammar.andThen, hfirst] at herror
      have htakes := hp.takes hts hfirst
      refine htakes.stops ((hk a).stops (htakes.delimited hts) herror) ?_
      intro us rest' hus _ hrest
      rw [Grammar.andThen, hus]
      exact hrest

/-- A parser that decides by the next token which of several guided parsers to follow. -/
theorem guided_of_branches
    {q : Parser α} (hL : ∃ s, s ∈ L)
    (h : ∀ ts : List Token, ∃ p M, Guided p M ∧ M ≤ L ∧ ∀ us, us.head? = ts.head? → q us = p us) :
    Guided q L where
  inhabited := hL
  takes := by
    intro ts rest a hts hok
    obtain ⟨p, M, hp, hle, hagree⟩ := h ts
    rw [hagree ts rfl] at hok
    exact ((hp.mono hle).takes hts hok).congr hagree
  stops := by
    intro ts r hts herror
    obtain ⟨p, M, hp, hle, hagree⟩ := h ts
    rw [hagree ts rfl] at herror
    exact ((hp.mono hle).stops hts herror).congr hagree

/-- A last part that only makes a result. -/
theorem Guided.map
    [Nonempty α] {p : Parser α} (h : Guided p L) (f : α → β) :
    Guided (Grammar.andThen p fun a => give (f a)) L := by
  have hseq := h.andThen fun a => guided_give (f a)
  rwa [mul_one] at hseq

/-- A parser that takes one token if it passes a test. -/
theorem guided_accept
    {expected : Expectation} {test : Kind → Bool} (hL : ∃ s, s ∈ L)
    (htest : ∀ t : Token, test t.kind = true → Delimited [t] → [t] ∈ L)
    (hoffered : ∀ t, Names expected t → Viable L [t]) :
    Guided (Parse.accept expected test) L where
  inhabited := hL
  takes := by
    intro ts rest t hts hok
    obtain ⟨rfl, ht⟩ := accept_inv hok
    have hwhole : Delimited [t] := fun u hu => hts u (by simp_all)
    exact ⟨[t], htest t ht hwhole, rfl, fun rest' _ => if_pos ht⟩
  stops := by
    intro ts r hts herror
    have hagree : ∀ us, us.head? = ts.head? →
        Parse.accept expected test us = Parse.refuse expected us := by
      intro us hus
      cases ts with
      | nil =>
          rw [List.head?_eq_none_iff.mp hus]
          rfl
      | cons t ts =>
          have ht : test t.kind ≠ true := by
            intro ht
            simp [Parse.accept, ht] at herror
          obtain ⟨us', rfl⟩ := List.head?_eq_some_iff.mp hus
          exact if_neg ht
    rw [hagree ts rfl] at herror
    exact ((guided_refuse hL hoffered).stops hts herror).congr hagree

end Combinators

end Grammar
end CaseSuite
