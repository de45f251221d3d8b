import NamingLint.Proofs.Text.LineBreaks
import Mathlib.Data.List.TakeWhile

/-!
# The search in the table of line starts

The line starts of a text begin with zero, increase and are character boundaries. So those up to an
offset are the first ones of the table, and a search by halves finds how many they are. The last of
them exists and stands before the offset with some characters between, and so a position is never
made from a default value.
-/
namespace NamingLint.Text

section Partition
variable {α : Type} {p : α → Bool} {l : List α} {n : Nat}

/-- The entries of a list that satisfy `p` are the first `n`. -/
structure PartitionedAt (p : α → Bool) (l : List α) (n : Nat) : Prop where
  le_length : n ≤ l.length
  holds_iff : ∀ i x, l[i]? = some x → (p x = true ↔ i < n)

/-- Looks for the end of the entries that satisfy `p` among the `size` entries from `base` on, of
which every step leaves about one half. -/
def bisectFrom (p : α → Bool) (l : List α) (base size : Nat) : Nat :=
  if size = 0 then base
  else if l[base + size / 2]?.any p then
    bisectFrom p l (base + size / 2 + 1) (size - size / 2 - 1)
  else bisectFrom p l base (size / 2)
termination_by size

/-- Where the entries that satisfy `p` end, if they are the first ones of a list. -/
def bisect (p : α → Bool) (l : List α) : Nat :=
  bisectFrom p l 0 l.length

theorem PartitionedAt.of_append {yes no : List α} (hyes : ∀ x ∈ yes, p x = true)
    (hno : ∀ x ∈ no, p x = false) : PartitionedAt p (yes ++ no) yes.length where
  le_length := by simp
  holds_iff i x hx := by
    by_cases hi : i < yes.length
    · rw [List.getElem?_append_left hi] at hx
      simp [hyes x (List.mem_of_getElem? hx), hi]
    · rw [List.getElem?_append_right (Nat.le_of_not_lt hi)] at hx
      simp [hno x (List.mem_of_getElem? hx), hi]

/-- The entries that the search still looks at always hold the end that it looks for. -/
theorem PartitionedAt.bisectFrom_eq {base size : Nat} (h : PartitionedAt p l n) (hbase : base ≤ n)
    (hsize : n ≤ base + size) (hlength : base + size ≤ l.length) :
    bisectFrom p l base size = n := by
  fun_induction bisectFrom p l base size with
  | case1 base => omega
  | case2 base size hpos hany ih =>
    -- The entry in the middle is one of the first `n`, so the end is behind it.
    obtain ⟨x, hx, hp⟩ := (Option.any_eq_true ..).1 hany
    have hmid := (h.holds_iff _ x hx).1 hp
    exact ih (by omega) (by omega) (by omega)
  | case3 base size hpos hany ih =>
    -- It exists, since the stretch is inside the list, and so it is none of them.
    have hx := List.getElem?_eq_getElem (by omega : base + size / 2 < l.length)
    have hmid : ¬base + size / 2 < n := by
      intro hlt
      rw [hx] at hany
      exact hany ((h.holds_iff _ _ hx).2 hlt)
    exact ih hbase (by omega) (by omega)

theorem PartitionedAt.bisect_eq (h : PartitionedAt p l n) : bisect p l = n :=
  h.bisectFrom_eq (Nat.zero_le n) (by simpa using h.le_length) (by simp)

section
variable (h : l.Pairwise fun x y => p y = true → p x = true)
include h

theorem dropWhile_none : ∀ x ∈ l.dropWhile p, p x = false := by
  have hfirst := List.head?_dropWhile_not p l
  have hrest := h.sublist (List.dropWhile_sublist p)
  cases hdrop : l.dropWhile p with
  | nil => simp
  | cons y r =>
    rw [hdrop] at hfirst hrest
    have hy : p y = false := hfirst
    intro x hx
    rcases List.mem_cons.1 hx with rfl | hx
    · exact hy
    · have himp := (List.pairwise_cons.1 hrest).1 x hx
      simpa [hy] using himp

theorem length_takeWhile_eq_countP : (l.takeWhile p).length = l.countP p := by
  have hyes : (l.takeWhile p).countP p = (l.takeWhile p).length :=
    List.countP_eq_length.2 fun x => List.mem_takeWhile_imp
  have hno : (l.dropWhile p).countP p = 0 :=
    List.countP_eq_zero.2 fun x hx => by simp [dropWhile_none h x hx]
  calc (l.takeWhile p).length
      = (l.takeWhile p ++ l.dropWhile p).countP p := by rw [List.countP_append, hyes, hno]; rfl
    _ = l.countP p := by rw [List.takeWhile_append_dropWhile]

theorem partitionedAt_countP : PartitionedAt p l (l.countP p) := by
  have hyes : ∀ x ∈ l.takeWhile p, p x = true := fun x => List.mem_takeWhile_imp
  have hsplit := PartitionedAt.of_append hyes (dropWhile_none h)
  rwa [List.takeWhile_append_dropWhile, length_takeWhile_eq_countP h] at hsplit

end
end Partition

theorem IsBoundary.le_byteLength {text : List Char} {n : Nat} (h : IsBoundary text n) :
    n ≤ byteLength text := by
  obtain ⟨before, after, rfl, rfl⟩ := h
  rw [byteLength_append]
  exact Nat.le_add_right _ _

namespace LineTable
variable {text : List Char} {start offset : Nat}

theorem starts_sorted (text : List Char) : (ofText text).starts.Pairwise (· < ·) :=
  List.pairwise_cons.2 ⟨fun _ => lt_of_mem_lineStartsFrom, lineStartsFrom_sorted 0 text⟩

/-- A line starts at the beginning of the text or behind the character that ends the line before. -/
theorem isBoundary_of_mem_starts (h : start ∈ (ofText text).starts) : IsBoundary text start := by
  rcases List.mem_cons.1 h with rfl | h
  · exact ⟨[], text, rfl, rfl⟩
  · obtain ⟨before, c, after, rfl, -, rfl⟩ := mem_lineStartsFrom.1 h
    exact ⟨before ++ [c], after, by simp, by simp [byteLength_append]⟩

/-- The lines that start up to an offset come before those that start behind it. -/
theorem starts_pairwise_le (text : List Char) (offset : Nat) :
    (ofText text).starts.Pairwise fun x y => decide (y ≤ offset) = true →
      decide (x ≤ offset) = true := by
  apply (starts_sorted text).imp
  intro x y hlt hy
  simp only [decide_eq_true_eq] at hy ⊢
  omega

/-- The line of an offset is the last of the lines that start up to it; there is always one. -/
theorem line_add_one (text : List Char) (offset : Nat) :
    (ofText text).line offset + 1 = (ofText text).starts.countP (· ≤ offset) := by
  have hpos : 0 < (ofText text).starts.countP (· ≤ offset) :=
    List.countP_pos_iff.2 ⟨0, List.mem_cons_self, by simp⟩
  rw [LineTable.line, length_takeWhile_eq_countP (starts_pairwise_le text offset)]
  omega

/-- From the start of the line of an offset to the offset there is some stretch of the text. -/
theorem exists_spans_line (h : IsBoundary text offset) :
    ∃ start s, (ofText text).starts[(ofText text).line offset]? = some start ∧
      Spans text start offset s := by
  have hpart := partitionedAt_countP (starts_pairwise_le text offset)
  have hcount := line_add_one text offset
  have hle := hpart.le_length
  have hget := List.getElem?_eq_getElem
    (by omega : (ofText text).line offset < (ofText text).starts.length)
  have hstart := of_decide_eq_true ((hpart.holds_iff _ _ hget).2 (by omega))
  have hboundary := isBoundary_of_mem_starts (List.mem_of_getElem? hget)
  obtain ⟨s, hs⟩ := exists_spans hboundary h hstart
  exact ⟨_, s, hget, hs⟩

/-- The table of a text begins with zero and increases, and every entry is a character boundary of
the text. So for a character boundary the entries up to it are the first ones, and halving the table
comes to their number, as going through it does. This number is not zero, the entry before it exists
and the text from there to the offset does: the position has no part that stands in for a missing
one. -/
theorem position_without_defaults (text : List Char) :
    let starts := (ofText text).starts
    (starts.head? = some 0 ∧ starts.Pairwise (· < ·) ∧
      ∀ start ∈ starts, IsBoundary text start ∧ start ≤ byteLength text) ∧
    ∀ offset, IsBoundary text offset →
      let count := starts.countP (· ≤ offset)
      PartitionedAt (· ≤ offset) starts count ∧
      bisect (· ≤ offset) starts = count ∧
      (starts.takeWhile (· ≤ offset)).length = count ∧
      ∃ line start s, count = line + 1 ∧ starts[line]? = some start ∧
        slice? start offset text = some s ∧
        (ofText text).position text offset = ⟨line, unitLength s⟩ := by
  intro starts
  refine ⟨⟨rfl, starts_sorted text, fun start hstart => ?_⟩, fun offset h => ?_⟩
  · have hboundary := isBoundary_of_mem_starts hstart
    exact ⟨hboundary, hboundary.le_byteLength⟩
  · have hmono := starts_pairwise_le text offset
    have hpart := partitionedAt_countP hmono
    obtain ⟨start, s, hstart, hspans⟩ := exists_spans_line h
    have hslice := slice?_eq_some_iff.2 hspans
    refine ⟨hpart, hpart.bisect_eq, length_takeWhile_eq_countP hmono, _, start, s,
      (line_add_one text offset).symm, hstart, hslice, ?_⟩
    simp [position, hstart, hslice]

/-- An offset on the fourth line, behind three breaks of different kinds. -/
theorem position_without_defaults_mixed :
    IsBoundary mixedBreaks 11 ∧ (ofText mixedBreaks).starts = [0, 3, 4, 7] ∧
      bisect (· ≤ 11) (ofText mixedBreaks).starts = 4 ∧
      ∃ start s, (ofText mixedBreaks).starts[3]? = some start ∧
        slice? start 11 mixedBreaks = some s ∧
        (ofText mixedBreaks).position mixedBreaks 11 = ⟨3, unitLength s⟩ := by
  have hboundary : IsBoundary mixedBreaks 11 :=
    ⟨['x', '\r', '\n', '\r', '\u2028', '𝑥'], ['y'], rfl, rfl⟩
  have hcount : (ofText mixedBreaks).starts.countP (· ≤ 11) = 4 := by decide
  obtain ⟨-, hbisect, -, line, start, s, hline, hstart, hslice, hposition⟩ :=
    (position_without_defaults mixedBreaks).2 11 hboundary
  obtain rfl : line = 3 := by omega
  exact ⟨hboundary, by decide, hbisect.trans hcount, start, s, hstart, hslice, hposition⟩

end LineTable
end NamingLint.Text
