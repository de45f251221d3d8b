import NamingLint.Proofs.Text.Positions

/-!
# A text behind another one

What is read of a text at some byte offset is read behind a prefix at the offset moved by the length
of the prefix. If the prefix ends with a line break, the positions behind it are moved by whole
lines, as many as the prefix has breaks. A carriage return with its line feed is one break, so the
two must not be parted between the prefix and the text.
-/
namespace NamingLint.Text

def lineBreaks : List Char → Nat
  | [] => 0
  | '\r' :: '\n' :: r => lineBreaks r + 1
  | c :: r => lineBreaks r + if c ∈ lineTerminators then 1 else 0

/-- The text `s` starts on a new line behind `p`. -/
def StartsLine (p s : List Char) : Prop :=
  p = [] ∨ ∃ q c, p = q ++ [c] ∧ c ∈ lineTerminators ∧ (c = '\r' → s.head? ≠ some '\n')

section Bytes
variable (p s : List Char)

theorem dropBytes?_behind (n : Nat) : dropBytes? (n + byteLength p) (p ++ s) = dropBytes? n s := by
  induction p with
  | nil => rfl
  | cons c p ih =>
    have hc := c.utf8Size_pos
    obtain ⟨k, hk⟩ : ∃ k, n + byteLength (c :: p) = k + 1 :=
      ⟨n + byteLength (c :: p) - 1, by rw [byteLength_cons]; omega⟩
    have hrest : k + 1 - c.utf8Size = n + byteLength p := by
      rw [byteLength_cons] at hk
      omega
    rw [hk, List.cons_append, dropBytes?, hrest, ih, if_pos]
    rw [byteLength_cons] at hk
    omega

theorem slice?_behind (start stop : Nat) :
    slice? (start + byteLength p) (stop + byteLength p) (p ++ s) = slice? start stop s := by
  simp only [slice?, dropBytes?_behind, Nat.add_le_add_iff_right, Nat.add_sub_add_right]

theorem endsWithAt_behind (c : Char) {stop : Nat} (h : 0 < stop) :
    endsWithAt c (stop + byteLength p) (p ++ s) = endsWithAt c stop s := by
  obtain ⟨n, rfl⟩ := Nat.exists_eq_succ_of_ne_zero (Nat.ne_of_gt h)
  rw [Nat.succ_add]
  simp only [endsWithAt, dropBytes?_behind]

end Bytes

/-- The line of a cursor counts the breaks that it has passed, unless it stands inside one. -/
theorem cursor_line (pos : Position) (rest s : List Char)
    (h : s.getLast? = some '\r' → rest.head? ≠ some '\n') :
    (cursor pos rest s).line = pos.line + lineBreaks s := by
  fun_induction lineBreaks s generalizing pos with
  | case1 => rfl
  | case2 r ih =>
    have hlast : r.getLast? = some '\r' → rest.head? ≠ some '\n' := by
      intro hr
      apply h
      simp [List.getLast?_cons, hr]
    rw [cursor, cursor, ih _ hlast]
    simp only [nextPosition, endsLine, List.cons_append, List.head?_cons, bne_self_eq_false,
      Bool.false_eq_true, if_true, if_false]
    omega
  | case3 c r hpair ih =>
    have hlast : r.getLast? = some '\r' → rest.head? ≠ some '\n' := by
      intro hr
      apply h
      simp [List.getLast?_cons, hr]
    have hends : endsLine c (r ++ rest) = true ↔ c ∈ lineTerminators := by
      rw [endsLine_iff, and_iff_left_iff_imp]
      intro _ hc
      cases r with
      | nil => exact h (by simp [hc])
      | cons d r =>
        intro hd
        exact hpair r hc (by simpa using hd)
    rw [cursor, ih _ hlast, nextPosition]
    by_cases hc : c ∈ lineTerminators
    · simp only [hends, hc, if_true]
      omega
    · simp only [hends, hc, if_false, Nat.add_zero]

/-- Behind a break the cursor is at the start of a line. -/
theorem cursor_of_startsLine {p s : List Char} (h : StartsLine p s) :
    cursor ⟨0, 0⟩ s p = ⟨lineBreaks p, 0⟩ := by
  rcases h with rfl | ⟨q, c, rfl, hc, hpair⟩
  · rfl
  · have hline := cursor_line ⟨0, 0⟩ s (q ++ [c]) (by simpa using hpair)
    have hends : endsLine c s = true := endsLine_iff.2 ⟨hc, hpair⟩
    rw [cursor_append, cursor, cursor, nextPosition, List.nil_append, if_pos hends] at hline ⊢
    simpa using hline

theorem cursor_addLines (pos : Position) (k : Nat) (rest s : List Char) :
    cursor ⟨pos.line + k, pos.character⟩ rest s =
      ⟨(cursor pos rest s).line + k, (cursor pos rest s).character⟩ := by
  induction s generalizing pos with
  | nil => rfl
  | cons c s ih =>
    have hnext : nextPosition ⟨pos.line + k, pos.character⟩ c (s ++ rest) =
        ⟨(nextPosition pos c (s ++ rest)).line + k,
          (nextPosition pos c (s ++ rest)).character⟩ := by
      unfold nextPosition
      split
      · rw [Nat.add_right_comm]
      · rfl
    rw [cursor, cursor, hnext, ih]

/-- Behind a prefix that ends with a line break, positions are moved by lines only. -/
theorem position_behind {p s : List Char} (h : StartsLine p s) {n : Nat} (hn : IsBoundary s n) :
    (LineTable.ofText (p ++ s)).position (p ++ s) (n + byteLength p) =
      ⟨((LineTable.ofText s).position s n).line + lineBreaks p,
        ((LineTable.ofText s).position s n).character⟩ := by
  obtain ⟨before, after, rfl, rfl⟩ := hn
  have hpos := LineTable.position_eq_cursor (p ++ before) after
  rw [List.append_assoc, byteLength_append, Nat.add_comm, cursor_append,
    cursor_of_startsLine h] at hpos
  rw [hpos, LineTable.position_eq_cursor, ← cursor_addLines, Nat.zero_add]

end NamingLint.Text
