import CaseSuite.Number.Binary64

/-!
# Likeness of words

How like two words are, from zero to one. Two letters match if they are equal and not further apart
than a reach that grows with the length of the words; each letter matches once. The likeness is the
mean of the share of matched letters in either word and of the share of them that are in the same
order in both. It is a double, and every step towards it is rounded.
-/

namespace CaseSuite.Text

/-- A letter of a word, and whether it has been matched. -/
structure Slot where
  letter : Char
  taken : Bool := false

/-- Match a letter with the first free slot that holds it, from one place up to another. -/
def takeSlot? (c : Char) : Nat → Nat → List Slot → Option (List Slot)
  | first, stop + 1, slot :: rest =>
      if first = 0 && !slot.taken && slot.letter = c then some ({ slot with taken := true } :: rest)
      else (takeSlot? c (first - 1) stop rest).map (slot :: ·)
  | _, _, _ => none

/-- Match the letters of a word from a place on; gives those that were matched and the slots. -/
def takeSlots (reach : Nat) : Nat → List Char → List Slot → List Char × List Slot
  | _, [], slots => ([], slots)
  | place, c :: cs, slots =>
      match takeSlot? c (place - reach) (place + reach + 1) slots with
      | some slots =>
          let (matched, slots) := takeSlots reach (place + 1) cs slots
          (c :: matched, slots)
      | none => takeSlots reach (place + 1) cs slots

/-- How far apart two letters of words of these lengths may be to match. -/
def reach (a b : Nat) : Nat := max a b / 2 - 1

/-- How like two words are. -/
def similarity (a b : List Char) : Binary64 :=
  let (matched, slots) := takeSlots (reach a.length b.length) 0 a (b.map fun c => { letter := c })
  let partners := (slots.filter Slot.taken).map Slot.letter
  let n := matched.length
  let swaps := (matched.zip partners).countP (fun (x, y) => x != y) / 2
  if a.isEmpty && b.isEmpty then .ofRatio false 1 1
  else if n = 0 then .zero false
  else
    let shares := (Binary64.ofRatio false n a.length).add (.ofRatio false n b.length)
    (shares.add (.ofRatio false (n - swaps) n)).divNat 3

/-- Words are alike if their likeness is above seven tenths. -/
def alike (likeness : Binary64) : Bool :=
  (Binary64.ofRatio false 7 10).magnitude < likeness.magnitude

end CaseSuite.Text
