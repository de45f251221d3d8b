import NamingLint.Proofs.Text.Slices

/-!
# Rows and columns

Syntax errors are placed by rows, which only newlines end, and by bytes inside a row. A later offset
has more of the text before it, so it is never at an earlier place.
-/
namespace NamingLint.Text

theorem charsBefore_prefix {m n : Nat} (h : m ≤ n) (text : List Char) :
    charsBefore m text <+: charsBefore n text := by
  induction text generalizing m n with
  | nil => simp [charsBefore]
  | cons c text ih =>
    cases m with
    | zero => exact List.nil_prefix
    | succ m =>
      obtain ⟨k, rfl⟩ := Nat.exists_eq_add_of_le' (Nat.le_trans (Nat.succ_pos m) h)
      rw [charsBefore, charsBefore, List.cons_prefix_cons]
      exact ⟨rfl, ih (Nat.sub_le_sub_right h _)⟩

/-- The bytes behind the last newline of a text. -/
theorem takeWhile_reverse_append (s : List Char) {t : List Char} (h : '\n' ∉ t) :
    (s ++ t).reverse.takeWhile (· ≠ '\n') = t.reverse ++ s.reverse.takeWhile (· ≠ '\n') := by
  rw [List.reverse_append]
  refine List.takeWhile_append_of_pos fun c hc => ?_
  rw [List.mem_reverse] at hc
  simpa using fun he : c = '\n' => h (he ▸ hc)

/-- A later offset is on a later row, or on the same one and no less far in it. -/
theorem row_column_le {m n : Nat} (h : m ≤ n) (text : List Char) :
    row m text < row n text ∨ row m text = row n text ∧ column m text ≤ column n text := by
  obtain ⟨between, hsplit⟩ := charsBefore_prefix h text
  unfold row column
  rw [← hsplit, List.count_append]
  by_cases hbreak : '\n' ∈ between
  · have := List.count_pos_iff.2 hbreak
    omega
  · refine .inr ⟨by rw [List.count_eq_zero.2 hbreak, Nat.add_zero], ?_⟩
    rw [takeWhile_reverse_append _ hbreak, byteLength_append]
    exact Nat.le_add_left _ _

end NamingLint.Text
