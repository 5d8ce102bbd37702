import CaseSuite.Text.Position

/-!
# Cutting texts

A text can be cut at the byte length of each of its initial parts, and nowhere else is needed: all
offsets of this library are such lengths.  It can also be cut where a run of characters of one class
ends, so what such a run spells is found again whatever follows it.
-/

namespace CaseSuite
namespace Text

@[simp] theorem byteLength_append (cs ds : List Char) :
    byteLength (cs ++ ds) = byteLength cs + byteLength ds := by
  induction cs with
  | nil => simp [byteLength]
  | cons c cs ih =>
      rw [List.cons_append, byteLength, byteLength, ih]
      omega

/-- A text can be cut after any of its initial parts. -/
theorem splitAtByte?_byteLength (cs ds : List Char) :
    splitAtByte? (byteLength cs) (cs ++ ds) = some (cs, ds) := by
  induction cs with
  | nil => simp [byteLength, splitAtByte?]
  | cons c cs ih =>
      have hpos : 0 < c.utf8Size := c.utf8Size_pos
      have hlength : byteLength (c :: cs) = c.utf8Size + byteLength cs := rfl
      obtain ⟨n, hn⟩ : ∃ n, byteLength (c :: cs) = n + 1 := ⟨byteLength (c :: cs) - 1, by omega⟩
      have hrest : n + 1 - c.utf8Size = byteLength cs := by omega
      have hfits : c.utf8Size ≤ n + 1 := by omega
      rw [hn, List.cons_append, splitAtByte?, if_pos hfits, hrest, ih]
      rfl

/-- The middle of three parts is the slice between its ends. -/
theorem byteSlice?_middle (before middle after : List Char) :
    byteSlice? (before ++ middle ++ after) (byteLength before)
      (byteLength before + byteLength middle) = some middle := by
  have hfirst := splitAtByte?_byteLength before (middle ++ after)
  have hsecond := splitAtByte?_byteLength middle after
  simp [byteSlice?, hfirst, hsecond]

theorem byteSlice?_between (before middle after : List Char) :
    byteSlice? (before ++ middle ++ after) (byteLength before)
      (byteLength (before ++ middle ++ after) - byteLength after) = some middle := by
  have hlast : byteLength (before ++ middle ++ after) - byteLength after =
      byteLength before + byteLength middle := by
    rw [byteLength_append, byteLength_append]
    omega
  rw [hlast]
  exact byteSlice?_middle before middle after

/-- The byte length of a string is that of its characters. -/
theorem byteLength_toList (text : String) : byteLength text.toList = text.utf8ByteSize := by
  have hlist : ∀ cs : List Char, byteLength cs = (String.ofList cs).utf8ByteSize := by
    intro cs
    induction cs with
    | nil => rfl
    | cons c cs ih =>
        rw [byteLength, ih, String.ofList_cons, String.utf8ByteSize_append,
          String.utf8ByteSize_singleton]
  rw [hlist, String.ofList_toList]

/-- Runs of one class, each ended by a character outside of it, are equal if the texts are. -/
theorem run_unique
    {p : Char → Bool} {s t u v : List Char} {c d : Char}
    (hs : ∀ a ∈ s, p a = true) (ht : ∀ a ∈ t, p a = true) (hc : p c = false) (hd : p d = false)
    (h : s ++ c :: u = t ++ d :: v) : s = t ∧ c = d ∧ u = v := by
  have htake := congrArg (List.takeWhile p) h
  rw [List.takeWhile_append_of_pos hs, List.takeWhile_append_of_pos ht,
    List.takeWhile_cons_of_neg (by simp [hc]), List.takeWhile_cons_of_neg (by simp [hd]),
    List.append_nil, List.append_nil] at htake
  subst htake
  obtain ⟨rfl, rfl⟩ := List.cons.inj (List.append_cancel_left h)
  exact ⟨rfl, rfl, rfl⟩

end Text
end CaseSuite
