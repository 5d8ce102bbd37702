/-!
# Plain text

Text without the control sequences that steer a terminal. A sequence opens with the escape character
and runs up to the character that ends its kind; it is dropped together with all other control
characters. White space is kept, also inside the sequences that a terminal would obey it in: the text
after it is then kept too, and the sequence goes on at the next control character.
-/

namespace CaseSuite.Text

/-- The kinds of sequence, by what may end them. -/
inductive Sequence where
  /-- After the escape character. -/
  | escape
  /-- A short command that names a character set or the like. -/
  | short
  /-- A command with numbers. -/
  | command
  /-- The head of a message to the device, before its numbers. -/
  | head
  /-- The numbers in the head of a message to the device. -/
  | numbers
  /-- The part of such a head after its numbers. -/
  | tail
  /-- The body of a message, which ends at the byte `9c`. -/
  | message
  /-- A message to the system, which ends at a bell. -/
  | system
  deriving DecidableEq, Repr

/-- Where a reader of text stands. -/
inductive Reading where
  | text
  | inside (s : Sequence)
  /-- In text that interrupts a sequence. -/
  | paused (s : Sequence)
  deriving DecidableEq, Repr

namespace Sequence

/-- White space takes effect in the middle of the sequence. -/
def obeysBlanks : Sequence → Bool
  | escape | short | command => true
  | _ => false

/-- A character that opens a sequence after the escape character, or that is all of one. -/
def opened (n : Nat) : Reading :=
  if n = 0x50 then .inside head
  else if n = 0x5b then .inside command
  else if n = 0x5d then .inside system
  else if n = 0x58 || n = 0x5e || n = 0x5f then .inside message
  else .text

/-- Where the reader stands after a code point that is none of the controls that break off. -/
def next (s : Sequence) (n : Nat) : Reading :=
  let intermediate := 0x20 ≤ n && n ≤ 0x2f
  let parameter := 0x30 ≤ n && n ≤ 0x3f
  let final := 0x40 ≤ n && n ≤ 0x7e
  match s with
  | escape =>
      if intermediate then .inside short
      else if parameter || final then opened n
      else .inside escape
  | short => if parameter || final then .text else .inside short
  | command => if final then .text else .inside command
  | head =>
      if intermediate then .inside tail
      else if parameter then .inside numbers
      else if final then .inside message
      else .inside head
  | numbers =>
      if intermediate then .inside tail
      else if final || (0x3c ≤ n && n ≤ 0x3f) then .inside message
      else .inside numbers
  | tail => if parameter || final then .inside message else .inside tail
  | message => .inside message
  | system => if n = 0x07 then .text else .inside system

end Sequence

/-- The blanks that a terminal obeys: tab, line feed, form feed and carriage return. -/
def isControlBlank (c : Char) : Bool :=
  c = '\t' || c = '\n' || c = '\x0c' || c = '\r'

/-- A character of plain text. -/
def isPlain (c : Char) : Bool :=
  isControlBlank c || (0x20 ≤ c.toNat && c.toNat != 0x7f)

/-- The two controls that break off any sequence. -/
def breaksOff (c : Char) : Bool :=
  c = '\x18' || c = '\x1a'

/-- The bytes of the character hold the one that ends a message. -/
def endsMessage (c : Char) : Bool :=
  (String.utf8EncodeChar c).contains 0x9c

namespace Reading

/-- Where the reader stands after a character, and whether the character is kept. -/
def step (r : Reading) (c : Char) : Reading × Bool :=
  if c = '\x1b' then (.inside .escape, false)
  else if breaksOff c then (.text, false)
  else
    match r with
    | .text => (.text, isPlain c)
    | .paused s =>
        if 0x80 ≤ c.toNat then (.text, true)
        else if isPlain c then (.paused s, true)
        else (.inside s, false)
    | .inside s =>
        if s.obeysBlanks && isControlBlank c then (.paused s, true)
        else if s = .message && endsMessage c then (.text, false)
        else (s.next c.toNat, false)

/-- What is kept of a text. -/
def kept (r : Reading) : List Char → List Char
  | [] => []
  | c :: cs =>
      let (r, keep) := r.step c
      if keep then c :: r.kept cs else r.kept cs

end Reading

/-- A text without control sequences. -/
def plain (text : String) : String :=
  String.ofList (Reading.kept .text text.toList)

end CaseSuite.Text
