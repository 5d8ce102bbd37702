import CaseSuite.Proofs.Scanning.Joining
import Mathlib

/-!
# Scanning token by token

A stream hands out what scanning the whole text finds, one item a call, and is silent from then on.
An error is local: the tokens before it are those of the text in front of it, so none of them was
decided by looking at what offends or behind it.
-/

namespace CaseSuite
namespace Token

namespace Stream

/-! ## Call after call -/

/-- The stream after a number of calls. -/
def afterCalls (s : Stream) : Nat → Stream
  | 0 => s
  | k + 1 => s.next.2.afterCalls k

/-- A stream hands out these items: all of them at once, or one by one and then nothing ever. -/
def Yields (s : Stream) (items : List (Except ScanError Token)) : Prop :=
  s.items.1 = items ∧ ∀ k, (s.afterCalls k).next.1 = items[k]?

/-- A call that finds nothing changes nothing. -/
theorem eq_of_next_none
    {s after : Stream} (h : s.next = (none, after)) : after = s := by
  unfold next at h
  split at h
  · exact (Prod.mk.inj h).2.symm
  · split at h
    · cases h
    · exact (Prod.mk.inj h).2.symm
    · cases h

theorem afterCalls_of_next_none
    {s : Stream} (h : s.next = (none, s)) (k : Nat) : s.afterCalls k = s := by
  induction k with
  | zero => rfl
  | succ k ih => rw [afterCalls, h, ih]

/-- Each call hands out the next item of the whole stream. -/
theorem next_afterCalls (s : Stream) (k : Nat) : (s.afterCalls k).next.1 = s.items.1[k]? := by
  fun_induction Stream.items s generalizing k with
  | case1 s after hnext =>
      obtain rfl := eq_of_next_none hnext
      rw [afterCalls_of_next_none hnext, hnext]
      rfl
  | case2 s item after hnext rest final hitems ih =>
      cases k with
      | zero => simp [afterCalls, hnext]
      | succ k =>
          rw [hitems] at ih
          simp [afterCalls, hnext, ih]

theorem yields_iff {s : Stream} {items : List (Except ScanError Token)} :
    s.Yields items ↔ s.items.1 = items :=
  ⟨fun h => h.1, fun h => ⟨h, fun k => h ▸ s.next_afterCalls k⟩⟩

end Stream

/-! ## In front of an error -/

/-- The text in front of an error is scanned to the tokens that were found before the error, and it
ends where the error was. -/
theorem scan_before_failure
    {text : String} {ts : List Token} {last : Cursor} {e : ScanError}
    (h : Scans (Cursor.ofText text) ts last) (hfailed : last.step = .failed e) :
    ∃ before rest, Text.splitAtByte? e.position.offset text.toList = some (before, rest) ∧
      scan (String.ofList before) = .ok (ts ++ [ending e.position]) := by
  obtain ⟨gap, c, cs, hgap, hrest, hposition⟩ := Cursor.step_failed hfailed
  have hkept : gap <+: last.rest := ⟨c :: cs, hrest.symm⟩
  have hnothing : Apart [] := by
    rintro _ ⟨⟩
  obtain ⟨read, hread, hscans⟩ := h.recut hkept hnothing
  rw [List.append_nil] at hscans
  refine ⟨read ++ gap, c :: cs, ?_, ?_⟩
  · have hstart : (Cursor.ofText text).position.Follows [] := Position.follows_start
    obtain ⟨before, -, hplace, hwhole⟩ := h.laid hstart
    have htext : text.toList = read ++ last.rest := hread
    obtain rfl : before = read := by
      rw [List.nil_append] at hwhole
      exact List.append_cancel_right (hwhole.symm.trans hread)
    rw [hposition, (hplace.advance gap).offset, htext, hrest, ← List.append_assoc]
    exact Text.splitAtByte?_byteLength _ _
  · have hend : (Cursor.mk last.position gap).step = .ending e.position := by
      rw [hposition]
      exact Cursor.step_of_lastGap (LastGap.gap hgap) _
    have htokens := hscans.tokens
    rw [Cursor.tokens_eq ⟨last.position, gap⟩, hend] at htokens
    rw [scan, Cursor.ofText, String.toList_ofList]
    exact htokens

/--
Streaming and scanning agree, and errors are local.  A text that can be scanned is handed out token
by token without its end mark.  Of a text that cannot be scanned, the tokens are handed out up to
the error and then the error alone; and these are the tokens of the text in front of the error,
which can be scanned and ends where the error was.  Afterwards no call ever hands out anything.
-/
theorem streaming_agrees_with_scanning (text : String) :
    (∀ tokens, scan text = .ok tokens → ∃ ts stop, tokens = ts ++ [ending stop] ∧
      (Stream.ofText text).Yields (ts.map .ok)) ∧
    ∀ e, scan text = .error e → ∃ before rest ts,
      Text.splitAtByte? e.position.offset text.toList = some (before, rest) ∧
      scan (String.ofList before) = .ok (ts ++ [ending e.position]) ∧
      (Stream.ofText text).Yields (ts.map .ok ++ [.error e]) := by
  obtain ⟨ts, last, hscans, hend⟩ := (Cursor.ofText text).exists_scans
  have hitems : (Stream.ofText text).items.1 = ts.map .ok ++ (Stream.mk last false).items.1 :=
    hscans.items
  constructor
  · intro tokens htokens
    rcases hend with ⟨stop, hending, hok⟩ | ⟨e, -, herror⟩
    · rw [scan, hok, Except.ok.injEq] at htokens
      refine ⟨ts, stop, htokens.symm, Stream.yields_iff.mpr ?_⟩
      rw [hitems, Stream.items_ending hending, List.append_nil]
    · simp [scan, herror] at htokens
  · intro e he
    rcases hend with ⟨stop, -, hok⟩ | ⟨e', hfailed, herror⟩
    · simp [scan, hok] at he
    · rw [scan, herror, Except.error.injEq] at he
      subst he
      obtain ⟨before, rest, hsplit, hscan⟩ := scan_before_failure hscans hfailed
      refine ⟨before, rest, ts, hsplit, hscan, Stream.yields_iff.mpr ?_⟩
      rw [hitems, Stream.items_failed hfailed]

/-- Lexemes that look ahead, a comment and letters of two bytes. -/
def undotted : String :=
  "1.5 \x22\x22# é\n\x22é\x223"

def undottedTokens : List Token :=
  [⟨.number, "1.5", ⟨1, 1, 0⟩⟩, ⟨.string, "\x22\x22", ⟨1, 5, 4⟩⟩,
    ⟨.string, "\x22é\x22", ⟨2, 1, 11⟩⟩, ⟨.number, "3", ⟨2, 4, 15⟩⟩]

/-- The same, with a point too many at the end. -/
def overdotted : String :=
  "1.5 \x22\x22# é\n\x22é\x223."

theorem streaming_agrees_with_scanning_overdotted :
    scan undotted = .ok (undottedTokens ++ [ending ⟨2, 5, 16⟩]) ∧
    (Stream.ofText undotted).Yields (undottedTokens.map .ok) ∧
    scan overdotted = .error (.unexpected '.' ⟨2, 5, 16⟩) ∧
    (Stream.ofText overdotted).Yields
      (undottedTokens.map .ok ++ [.error (.unexpected '.' ⟨2, 5, 16⟩)]) ∧
    ((Stream.ofText overdotted).afterCalls 7).next.1 = none := by
  have hscan : scan undotted = .ok (undottedTokens ++ [ending ⟨2, 5, 16⟩]) := by cbv
  have hfails : scan overdotted = .error (.unexpected '.' ⟨2, 5, 16⟩) := by cbv
  have hcut : Text.splitAtByte? 16 overdotted.toList = some (undotted.toList, ['.']) := by cbv
  obtain ⟨ts, stop, hts, hyields⟩ := (streaming_agrees_with_scanning undotted).1 _ hscan
  obtain ⟨rfl, -⟩ := List.append_inj' hts rfl
  obtain ⟨before, rest, us, hsplit, hbefore, hyields'⟩ :=
    (streaming_agrees_with_scanning overdotted).2 _ hfails
  obtain ⟨rfl, rfl⟩ := Prod.mk.inj (Option.some.inj (hsplit.symm.trans hcut))
  rw [String.ofList_toList, hscan, Except.ok.injEq] at hbefore
  obtain ⟨rfl, -⟩ := List.append_inj' hbefore rfl
  exact ⟨hscan, hyields, hfails, hyields', hyields'.2 7⟩

end Token
end CaseSuite
