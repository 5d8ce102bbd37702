import CaseSuite.Token.Basic
import CaseSuite.Number.Digits
import CaseSuite.Text.Quoted

/-!
# Scanning a case file

Blanks and comments separate tokens. One step of the scanner takes the longest token at the front of
the text; scanning a whole text and scanning it token by token are both repetitions of that step,
which ends because a token is never empty.
-/

namespace CaseSuite

/-- Why a text cannot be split into tokens. -/
inductive ScanError where
  | unexpected (c : Char) (position : Position)
  | unterminated (position : Position)
  deriving DecidableEq, Repr

namespace ScanError

/-- The place of the offending character or opening quote. -/
def position : ScanError → Position
  | unexpected _ p => p
  | unterminated p => p

/-- What is wrong there. -/
def reason : ScanError → String
  | unexpected c _ => "unexpected character " ++ Text.charLiteral c
  | unterminated _ => "unterminated string literal"

/-- The text of the error. -/
def message (e : ScanError) : String :=
  let line := Nat.repr e.position.line
  let column := Nat.repr e.position.column
  s!"[Lex Error] Line:{line},Column:{column}: " ++ e.reason

end ScanError

namespace Token

/-- A character that separates tokens by itself. -/
def isSpace (c : Char) : Bool := c = ' ' || c = '\t' || c = '\r' || c = '\n'

/-- A letter or the underscore. -/
def isWordStart (c : Char) : Bool :=
  'a' ≤ c && c ≤ 'z' || 'A' ≤ c && c ≤ 'Z' || c = '_'

/-- What may follow in a word. -/
def isWordChar (c : Char) : Bool := isWordStart c || Number.isDigit c

/-- The kind of a punctuation character. -/
def punctuation? (c : Char) : Option Kind :=
  if c = '\x7b' then some .leftBrace
  else if c = '\x7d' then some .rightBrace
  else if c = ':' then some .colon
  else if c = ',' then some .comma
  else if c = ';' then some .semicolon
  else if c = '=' then some .equals
  else if c = '(' then some .leftParen
  else if c = ')' then some .rightParen
  else none

/-- The kind of a word. -/
def wordKind (word : String) : Kind :=
  match Keyword.ofText? word with
  | some k => .keyword k
  | none => .name

/-- Split off the blanks and comments at the front; a comment runs up to a line feed. -/
def splitTrivia : (inComment : Bool) → List Char → List Char × List Char
  | _, [] => ([], [])
  | true, c :: cs =>
      let (trivia, rest) := splitTrivia (c != '\n') cs
      (c :: trivia, rest)
  | false, c :: cs =>
      if isSpace c || c = '#' then
        let (trivia, rest) := splitTrivia (c = '#') cs
        (c :: trivia, rest)
      else ([], c :: cs)

/-- Split after the first three quotes in a row. -/
def splitRaw : List Char → Option (List Char × List Char)
  | '\x22' :: '\x22' :: '\x22' :: rest => some (['\x22', '\x22', '\x22'], rest)
  | c :: cs => (splitRaw cs).map fun (body, rest) => (c :: body, rest)
  | [] => none

/-- Split after the first quote that no backslash escapes, if it stands on the same line. -/
def splitQuoted : List Char → Option (List Char × List Char)
  | [] => none
  | '\x22' :: rest => some (['\x22'], rest)
  | '\n' :: _ => none
  | '\\' :: c :: cs =>
      if c = '\x22' || c = '\\' then
        (splitQuoted cs).map fun (body, rest) => ('\\' :: c :: body, rest)
      else
        (splitQuoted (c :: cs)).map fun (body, rest) => ('\\' :: body, rest)
  | c :: cs => (splitQuoted cs).map fun (body, rest) => (c :: body, rest)

/-- Split off the longest number: digits, and a point only if a digit follows it. -/
def splitNumber (cs : List Char) : List Char × List Char :=
  let whole := cs.takeWhile Number.isDigit
  match cs.dropWhile Number.isDigit with
  | '.' :: d :: rest =>
      if Number.isDigit d then
        (whole ++ '.' :: (d :: rest).takeWhile Number.isDigit,
          (d :: rest).dropWhile Number.isDigit)
      else (whole, '.' :: d :: rest)
  | rest => (whole, rest)

/-- Why no token stands at the front of a text. -/
inductive Fault where
  | unexpected (c : Char)
  | unterminated
  deriving DecidableEq, Repr

/-- A token cut off the front of a text: its kind, its characters and what follows them. -/
structure Cut where
  kind : Kind
  lexeme : List Char
  rest : List Char

/-- Cut off a string, given what follows its first quote. -/
def cutString : List Char → Except Fault Cut
  | '\x22' :: '\x22' :: rest =>
      match splitRaw rest with
      | some (body, rest) => .ok ⟨.rawString, '\x22' :: '\x22' :: '\x22' :: body, rest⟩
      | none => .error .unterminated
  | cs =>
      match splitQuoted cs with
      | some (body, rest) => .ok ⟨.string, '\x22' :: body, rest⟩
      | none => .error .unterminated

/-- Cut off the token that begins with a given character. -/
def cut (c : Char) (cs : List Char) : Except Fault Cut :=
  if c = '\x22' then cutString cs
  else if Number.isDigit c then
    let (lexeme, rest) := splitNumber (c :: cs)
    .ok ⟨.number, lexeme, rest⟩
  else if isWordStart c then
    let word := c :: cs.takeWhile isWordChar
    .ok ⟨wordKind (String.ofList word), word, cs.dropWhile isWordChar⟩
  else
    match punctuation? c with
    | some kind => .ok ⟨kind, [c], cs⟩
    | none => .error (.unexpected c)

/-- A place in a text and the characters from there on. -/
structure Cursor where
  position : Position
  rest : List Char

/-- What one step of the scanner finds. -/
inductive Found where
  /-- A token, and where the scanner stands after it. -/
  | token (t : Token) (next : Cursor)
  /-- Nothing but blanks and comments up to the end. -/
  | ending (position : Position)
  | failed (e : ScanError)

/-- The scanner before the first character of a text. -/
def Cursor.ofText (text : String) : Cursor :=
  ⟨.start, text.toList⟩

/-- Skip blanks and comments and take one token. -/
def Cursor.step (s : Cursor) : Found :=
  let (trivia, rest) := splitTrivia false s.rest
  let position := s.position.advance trivia
  match rest with
  | [] => .ending position
  | c :: cs =>
      match cut c cs with
      | .error (.unexpected c) => .failed (.unexpected c position)
      | .error .unterminated => .failed (.unterminated position)
      | .ok ⟨kind, lexeme, rest⟩ =>
          .token ⟨kind, String.ofList lexeme, position⟩ ⟨position.advance lexeme, rest⟩

/-! ## A step shortens the text -/

theorem splitTrivia_append (inComment : Bool) (cs : List Char) :
    (splitTrivia inComment cs).1 ++ (splitTrivia inComment cs).2 = cs := by
  induction cs generalizing inComment with
  | nil => cases inComment <;> rfl
  | cons c cs ih =>
      cases inComment with
      | true => simp [splitTrivia, ih]
      | false =>
          simp only [splitTrivia]
          split
          · simp [ih]
          · rfl

theorem splitRaw_append {cs body rest : List Char}
    (h : splitRaw cs = some (body, rest)) : body ++ rest = cs := by
  fun_induction splitRaw cs generalizing body with
  | case1 tail =>
      simp only [Option.some.injEq, Prod.mk.injEq] at h
      obtain ⟨rfl, rfl⟩ := h
      rfl
  | case2 c cs _ ih =>
      obtain ⟨⟨body', rest'⟩, hsplit, heq⟩ := Option.map_eq_some_iff.1 h
      simp only [Prod.mk.injEq] at heq
      obtain ⟨rfl, rfl⟩ := heq
      simp [ih hsplit]
  | case3 => simp at h

theorem splitQuoted_append {cs body rest : List Char}
    (h : splitQuoted cs = some (body, rest)) : body ++ rest = cs := by
  fun_induction splitQuoted cs generalizing body with
  | case1 => simp at h
  | case2 tail =>
      simp only [Option.some.injEq, Prod.mk.injEq] at h
      obtain ⟨rfl, rfl⟩ := h
      rfl
  | case3 => simp at h
  | case4 c cs _ ih =>
      obtain ⟨⟨body', rest'⟩, hsplit, heq⟩ := Option.map_eq_some_iff.1 h
      simp only [Prod.mk.injEq] at heq
      obtain ⟨rfl, rfl⟩ := heq
      simp [ih hsplit]
  | case5 c cs _ ih =>
      obtain ⟨⟨body', rest'⟩, hsplit, heq⟩ := Option.map_eq_some_iff.1 h
      simp only [Prod.mk.injEq] at heq
      obtain ⟨rfl, rfl⟩ := heq
      simp [ih hsplit]
  | case6 c cs _ _ _ ih =>
      obtain ⟨⟨body', rest'⟩, hsplit, heq⟩ := Option.map_eq_some_iff.1 h
      simp only [Prod.mk.injEq] at heq
      obtain ⟨rfl, rfl⟩ := heq
      simp [ih hsplit]

theorem splitNumber_append (cs : List Char) :
    (splitNumber cs).1 ++ (splitNumber cs).2 = cs := by
  have hsplit := List.takeWhile_append_dropWhile (p := Number.isDigit) (l := cs)
  unfold splitNumber
  split
  · rename_i d rest heq
    split
    · simp only [List.append_assoc, List.cons_append, List.takeWhile_append_dropWhile]
      rw [← heq, hsplit]
    · rw [← heq, hsplit]
  · exact hsplit

/-- A token is cut off the front: its characters and the rest are the text. -/
theorem cut_append {c : Char} {cs : List Char} {token : Cut}
    (h : cut c cs = .ok token) : token.lexeme ++ token.rest = c :: cs := by
  unfold cut at h
  split at h
  · rename_i hc
    subst hc
    unfold cutString at h
    split at h
    · split at h
      · rename_i body rest hraw
        cases h
        simp [splitRaw_append hraw]
      · cases h
    · split at h
      · rename_i body rest hquoted
        cases h
        simp [splitQuoted_append hquoted]
      · cases h
  · split at h
    · cases h
      exact splitNumber_append (c :: cs)
    · split at h
      · cases h
        simp [List.takeWhile_append_dropWhile]
      · split at h
        · cases h
          rfl
        · cases h

theorem splitNumber_ne_nil {c : Char} (cs : List Char) (hc : Number.isDigit c = true) :
    (splitNumber (c :: cs)).1 ≠ [] := by
  unfold splitNumber
  simp only [List.takeWhile_cons, hc, if_true]
  split
  · split <;> simp
  · simp

/-- A token has at least one character. -/
theorem cut_lexeme_ne_nil {c : Char} {cs : List Char} {token : Cut}
    (h : cut c cs = .ok token) : token.lexeme ≠ [] := by
  unfold cut at h
  split at h
  · unfold cutString at h
    split at h
    · split at h
      · cases h
        simp
      · cases h
    · split at h
      · cases h
        simp
      · cases h
  · split at h
    · rename_i hdigit
      cases h
      exact splitNumber_ne_nil cs hdigit
    · split at h
      · cases h
        simp
      · split at h
        · cases h
          simp
        · cases h

/-- After a token less text is left. -/
theorem Cursor.rest_lt_of_step {s next : Cursor} {t : Token}
    (h : s.step = .token t next) : next.rest.length < s.rest.length := by
  have htrivia := splitTrivia_append false s.rest
  unfold step at h
  simp only at h
  split at h
  · cases h
  · rename_i c cs heq
    split at h
    · cases h
    · cases h
    · rename_i kind lexeme rest hcut
      cases h
      have happend := cut_append hcut
      have hne := cut_lexeme_ne_nil hcut
      simp only at happend hne
      rw [heq, ← happend] at htrivia
      have hpos := List.length_pos_iff.2 hne
      rw [← htrivia]
      simp only [List.length_append]
      omega

/-! ## Scanning a text -/

/-- Every token from the cursor on, with the mark of the end last. -/
def Cursor.tokens (s : Cursor) : Except ScanError (List Token) :=
  match _h : s.step with
  | .failed e => .error e
  | .ending position => .ok [ending position]
  | .token t next =>
      match next.tokens with
      | .error e => .error e
      | .ok ts => .ok (t :: ts)
termination_by s.rest.length
decreasing_by exact s.rest_lt_of_step _h

/-- All tokens of a text, with the mark of its end last. -/
def scan (text : String) : Except ScanError (List Token) :=
  (Cursor.ofText text).tokens

/-! ## Scanning token by token -/

/-- A scanner that hands out one item at a time and stops for good at the first error. -/
structure Stream where
  cursor : Cursor
  failed : Bool

namespace Stream

/-- The stream of a text before its first item. -/
def ofText (text : String) : Stream :=
  ⟨Cursor.ofText text, false⟩

/-- The next item, if there is one, and the stream after it. -/
def next (s : Stream) : Option (Except ScanError Token) × Stream :=
  if s.failed then (none, s)
  else
    match s.cursor.step with
    | .token t cursor => (some (.ok t), { s with cursor })
    | .ending _ => (none, s)
    | .failed e => (some (.error e), { s with failed := true })

/-- How much a stream can still yield: the characters left, and one more for an error. -/
def measure (s : Stream) : Nat :=
  s.cursor.rest.length + if s.failed then 0 else 1

theorem measure_lt_of_next {s after : Stream} {item : Except ScanError Token}
    (h : s.next = (some item, after)) : after.measure < s.measure := by
  unfold next at h
  split at h
  · simp at h
  · rename_i hfailed
    have hs : s.failed = false := by simpa using hfailed
    split at h
    · rename_i t cursor hstep
      have hlt := s.cursor.rest_lt_of_step hstep
      simp only [Prod.mk.injEq] at h
      obtain ⟨-, rfl⟩ := h
      simp only [measure, hs]
      omega
    · simp at h
    · simp only [Prod.mk.injEq] at h
      obtain ⟨-, rfl⟩ := h
      simp [measure, hs]

/-- All items up to the first time there is none, and the stream then. -/
def items (s : Stream) : List (Except ScanError Token) × Stream :=
  match _h : s.next with
  | (none, after) => ([], after)
  | (some item, after) =>
      let (rest, final) := after.items
      (item :: rest, final)
termination_by s.measure
decreasing_by exact measure_lt_of_next _h

end Stream

end Token

end CaseSuite
