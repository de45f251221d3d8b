import NamingLint.Proofs.Text.Positions

/-!
# Replacing a stretch of a text

A stretch is replaced by another one of the same measures: as many bytes, as many code units, and no
line break in either. Whatever is read of the text outside the stretch, characters and positions, is
then the same as before.
-/
namespace NamingLint.Text

def replaceBytes (start stop : Nat) (new text : List Char) : List Char :=
  charsBefore start text ++ (new ++ text.drop (charsBefore stop text).length)

/-- Two stretches of text take the same room on one line. -/
structure SameRoom (old new : List Char) : Prop where
  bytes : byteLength old = byteLength new
  units : unitLength old = unitLength new
  unbroken_left : ∀ c ∈ old, c ∉ lineTerminators
  unbroken_right : ∀ c ∈ new, c ∉ lineTerminators

theorem SameRoom.symm {old new : List Char} (h : SameRoom old new) : SameRoom new old :=
  ⟨h.bytes.symm, h.units.symm, h.unbroken_right, h.unbroken_left⟩

theorem charsBefore_append (s t : List Char) : charsBefore (byteLength s) (s ++ t) = s := by
  induction s with
  | nil => cases t <;> rfl
  | cons c s ih =>
    obtain ⟨n, hn, hc, hs⟩ := exists_byteLength_cons c s
    rw [hn, List.cons_append, charsBefore, hs, ih]

theorem replaceBytes_append (before old new after : List Char) :
    replaceBytes (byteLength before) (byteLength before + byteLength old) new
      (before ++ (old ++ after)) = before ++ (new ++ after) := by
  have hstop := charsBefore_append (before ++ old) after
  rw [List.append_assoc, byteLength_append] at hstop
  rw [replaceBytes, charsBefore_append, hstop, ← List.append_assoc before old, List.drop_left]

/-- What follows a text matters to the cursor only if it is a line feed. -/
theorem cursor_congr {rest rest' : List Char}
    (h : rest.head? = some '\n' ↔ rest'.head? = some '\n') (p : Position) (s : List Char) :
    cursor p rest s = cursor p rest' s := by
  induction s generalizing p with
  | nil => rfl
  | cons c s ih =>
    have hends : endsLine c (s ++ rest) = endsLine c (s ++ rest') := by
      cases s with
      | nil =>
        have hfeed : (rest.head? != some '\n') = (rest'.head? != some '\n') := by
          rw [Bool.eq_iff_iff, bne_iff_ne, bne_iff_ne]
          exact not_congr h
        simp only [endsLine, List.nil_append, hfeed]
      | cons d s => rfl
    rw [cursor, cursor, nextPosition, nextPosition, hends]
    exact ih _

section
variable {before old new after : List Char} (h : SameRoom old new)
include h

theorem SameRoom.head?_iff :
    (old ++ after).head? = some '\n' ↔ (new ++ after).head? = some '\n' := by
  have hnil : old = [] ↔ new = [] := by
    rw [← byteLength_eq_zero, ← byteLength_eq_zero, h.bytes]
  cases old with
  | nil =>
    obtain rfl := hnil.1 rfl
    rfl
  | cons c old =>
    cases new with
    | nil => exact absurd (hnil.2 rfl) (List.cons_ne_nil c old)
    | cons d new =>
      have hc := h.unbroken_left c List.mem_cons_self
      have hd := h.unbroken_right d List.mem_cons_self
      simp only [lineTerminators, List.mem_cons, not_or] at hc hd
      simp [hc.1, hd.1]

theorem SameRoom.spans_outside {start stop : Nat} {s : List Char}
    (hout : stop ≤ byteLength before ∨ byteLength before + byteLength old ≤ start)
    (hs : Spans (before ++ (old ++ after)) start stop s) :
    Spans (before ++ (new ++ after)) start stop s := by
  obtain ⟨b, a, htext, hb, hstop⟩ := hs
  rcases hout with hle | hle
  · rw [← List.append_assoc b] at htext
    obtain ⟨r, rfl, rfl⟩ := exists_append_of_byteLength_le htext.symm
      (by rw [byteLength_append]; omega)
    exact ⟨b, r ++ (new ++ after), by simp, hb, hstop⟩
  · rw [← List.append_assoc] at htext
    obtain ⟨r, rfl, rfl⟩ := exists_append_of_byteLength_le htext
      (by rw [byteLength_append]; omega)
    refine ⟨before ++ new ++ r, a, by simp, ?_, ?_⟩
    · rw [← hb]
      simp only [byteLength_append, h.bytes]
    · rw [← hstop]
      simp only [byteLength_append, h.bytes]

theorem SameRoom.slice?_outside {start stop : Nat}
    (hout : stop ≤ byteLength before ∨ byteLength before + byteLength old ≤ start) :
    slice? start stop (before ++ (old ++ after)) =
      slice? start stop (before ++ (new ++ after)) := by
  refine Option.ext fun s => ?_
  rw [slice?_eq_some_iff, slice?_eq_some_iff]
  exact ⟨h.spans_outside hout, h.symm.spans_outside (h.bytes ▸ hout)⟩

theorem SameRoom.position_outside {n : Nat} (hn : IsBoundary (before ++ (old ++ after)) n)
    (hout : n ≤ byteLength before ∨ byteLength before + byteLength old ≤ n) :
    (LineTable.ofText (before ++ (old ++ after))).position (before ++ (old ++ after)) n =
      (LineTable.ofText (before ++ (new ++ after))).position (before ++ (new ++ after)) n := by
  obtain ⟨b, a, htext, rfl⟩ := hn
  rcases hout with hle | hle
  · obtain ⟨r, rfl, rfl⟩ := exists_append_of_byteLength_le htext.symm hle
    have hhead : (r ++ (old ++ after)).head? = some '\n' ↔
        (r ++ (new ++ after)).head? = some '\n' := by
      cases r with
      | nil => exact h.head?_iff
      | cons c r => rfl
    rw [List.append_assoc, List.append_assoc, LineTable.position_eq_cursor,
      LineTable.position_eq_cursor, cursor_congr hhead]
  · rw [← List.append_assoc] at htext
    obtain ⟨r, rfl, rfl⟩ := exists_append_of_byteLength_le htext
      (by rw [byteLength_append]; exact hle)
    have hold := LineTable.position_eq_cursor (before ++ old ++ r) a
    have hnew := LineTable.position_eq_cursor (before ++ new ++ r) a
    have hbytes : byteLength (before ++ new ++ r) = byteLength (before ++ old ++ r) := by
      simp only [byteLength_append, h.bytes]
    rw [hbytes] at hnew
    simp only [List.append_assoc, cursor_append] at hold hnew ⊢
    rw [hold, hnew, cursor_of_no_break _ _ h.unbroken_left, cursor_of_no_break _ _ h.unbroken_right,
      h.units, cursor_congr h.head?_iff]

end

/-- A text ends in an ASCII character where the slice of its last byte is that character. -/
theorem endsWithAt_iff {c : Char} (hc : c.utf8Size = 1) {stop : Nat} {text : List Char} :
    endsWithAt c stop text = true ↔ slice? (stop - 1) stop text = some [c] := by
  rw [slice?_eq_some_iff]
  cases stop with
  | zero =>
    simp [endsWithAt, Spans, hc]
  | succ n =>
    rw [endsWithAt, beq_iff_eq, Option.bind_eq_some_iff, Nat.add_sub_cancel]
    constructor
    · rintro ⟨rest, hdrop, hhead⟩
      obtain ⟨before, rfl, hb⟩ := dropBytes?_eq_some hdrop
      obtain ⟨after, rfl⟩ := List.head?_eq_some_iff.1 hhead
      exact ⟨before, after, rfl, hb, by simp [hb, hc]⟩
    · rintro ⟨before, after, rfl, rfl, -⟩
      exact ⟨[c] ++ after, dropBytes?_append .., rfl⟩

end NamingLint.Text
