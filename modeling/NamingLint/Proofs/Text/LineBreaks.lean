import NamingLint.Proofs.Text.Positions
import Mathlib.Data.Set.Card
import Mathlib.Order.Bounds.Basic

/-!
# Positions counted in line breaks

The line breaks of a text are given by rules on how they are spelled and what stands beside them.
The line of an offset is the number of breaks that end up to it, and its character the number of
code units behind the last of them.
-/
namespace NamingLint.Text

/-- A line break stands between two byte offsets of a text. A carriage return and the line feed
behind it are one break. -/
inductive IsBreak (text : List Char) : Nat → Nat → Prop where
  | pair {before after : List Char} (h : text = before ++ '\r' :: '\n' :: after) :
      IsBreak text (byteLength before) (byteLength before + 2)
  | loneReturn {before after : List Char} (h : text = before ++ '\r' :: after)
      (hafter : after.head? ≠ some '\n') :
      IsBreak text (byteLength before) (byteLength before + 1)
  | loneFeed {before after : List Char} (h : text = before ++ '\n' :: after)
      (hbefore : before.getLast? ≠ some '\r') :
      IsBreak text (byteLength before) (byteLength before + 1)
  | separator {before after : List Char} {c : Char} (h : text = before ++ c :: after)
      (hc : c = '\u2028' ∨ c = '\u2029') :
      IsBreak text (byteLength before) (byteLength before + 3)

/-- The breaks that end at or before an offset, each with its start and its end. -/
def breaksUpTo (text : List Char) (offset : Nat) : Set (Nat × Nat) :=
  {b | IsBreak text b.1 b.2 ∧ b.2 ≤ offset}

/-- Where the break begins that ends with `c`, when `before` precedes it. -/
def breakStart (before : List Char) (c : Char) : Nat :=
  if c = '\n' ∧ before.getLast? = some '\r' then byteLength before.dropLast else byteLength before

variable {text : List Char} {start start' stop : Nat}

/-- A break ends behind the characters that end a line. -/
theorem isBreak_iff : IsBreak text start stop ↔
    ∃ before c after, text = before ++ c :: after ∧ endsLine c after = true ∧
      start = breakStart before c ∧ stop = byteLength before + c.utf8Size := by
  constructor
  · intro h
    cases h with
    | @pair before after h =>
      refine ⟨before ++ ['\r'], '\n', after, by simp [h], rfl, by simp [breakStart], ?_⟩
      rw [byteLength_append]
      rfl
    | @loneReturn before after h hafter =>
      exact ⟨before, '\r', after, h, by simp [endsLine, hafter], by simp [breakStart], rfl⟩
    | @loneFeed before after h hbefore =>
      exact ⟨before, '\n', after, h, rfl, by simp [breakStart, hbefore], rfl⟩
    | @separator before after c h hc =>
      rcases hc with rfl | rfl
      · exact ⟨before, '\u2028', after, h, rfl, by simp [breakStart], rfl⟩
      · exact ⟨before, '\u2029', after, h, rfl, by simp [breakStart], rfl⟩
  · rintro ⟨before, c, after, h, hends, rfl, rfl⟩
    obtain ⟨hc, hreturn⟩ := endsLine_iff.1 hends
    simp only [lineTerminators, List.mem_cons, List.not_mem_nil, or_false] at hc
    rcases hc with rfl | rfl | rfl | rfl
    · by_cases hlast : before.getLast? = some '\r'
      · obtain ⟨front, rfl⟩ := List.getLast?_eq_some_iff.1 hlast
        simp only [breakStart, hlast, and_self, if_true, List.dropLast_concat, byteLength_append]
        exact .pair (by simpa using h)
      · simp only [breakStart, hlast, and_false, if_false]
        exact .loneFeed h hlast
    · exact .loneReturn h (hreturn rfl)
    · exact .separator h (.inl rfl)
    · exact .separator h (.inr rfl)

theorem IsBreak.start_unique (h : IsBreak text start stop) (h' : IsBreak text start' stop) :
    start = start' := by
  obtain ⟨before, c, after, htext, -, rfl, rfl⟩ := isBreak_iff.1 h
  obtain ⟨before', c', after', htext', -, rfl, hstop⟩ := isBreak_iff.1 h'
  have hsplit : (before ++ [c]) ++ after = (before' ++ [c']) ++ after' := by
    simp only [List.append_assoc, List.singleton_append]
    rw [← htext, htext']
  have hlength : byteLength (before ++ [c]) = byteLength (before' ++ [c']) := by
    simp only [byteLength_append]
    exact hstop
  obtain ⟨heq, -⟩ := append_inj_of_byteLength hsplit hlength
  obtain ⟨rfl, hc⟩ := List.append_inj' heq rfl
  obtain rfl : c = c' := by simpa using hc
  rfl

theorem mem_lineStartsFrom {base x : Nat} : x ∈ lineStartsFrom base text ↔
    ∃ before c after, text = before ++ c :: after ∧ endsLine c after = true ∧
      x = base + byteLength before + c.utf8Size := by
  constructor
  · intro h
    induction text generalizing base with
    | nil => simp [lineStartsFrom] at h
    | cons c s ih =>
      have hrest (h : x ∈ lineStartsFrom (base + c.utf8Size) s) : ∃ before d after,
          c :: s = before ++ d :: after ∧ endsLine d after = true ∧
            x = base + byteLength before + d.utf8Size := by
        obtain ⟨before, d, after, rfl, hends, rfl⟩ := ih h
        exact ⟨c :: before, d, after, rfl, hends, by rw [byteLength_cons, Nat.add_assoc base]⟩
      rw [lineStartsFrom] at h
      split at h
      case isTrue hends =>
        rcases List.mem_cons.1 h with rfl | h
        · exact ⟨[], c, s, rfl, hends, rfl⟩
        · exact hrest h
      case isFalse => exact hrest h
  · rintro ⟨before, c, after, rfl, hends, rfl⟩
    simp [lineStartsFrom_append, lineStartsFrom, hends]

/-- The ends of the breaks are the line starts behind the first one. -/
theorem mem_lineStartsFrom_zero {x : Nat} :
    x ∈ lineStartsFrom 0 text ↔ ∃ start, IsBreak text start x := by
  simp only [mem_lineStartsFrom, isBreak_iff, Nat.zero_add]
  constructor
  · rintro ⟨before, c, after, h, hends, hx⟩
    exact ⟨_, before, c, after, h, hends, rfl, hx⟩
  · rintro ⟨_, before, c, after, h, hends, -, hx⟩
    exact ⟨before, c, after, h, hends, hx⟩

section
variable (before after : List Char)

theorem ends_breaksUpTo : Prod.snd '' breaksUpTo (before ++ after) (byteLength before) =
    {x | x ∈ startsIn 0 after before} := by
  ext x
  have hsplit : x ∈ lineStartsFrom 0 (before ++ after) ∧ x ≤ byteLength before ↔
      x ∈ startsIn 0 after before := by
    rw [lineStartsFrom_append, List.mem_append, Nat.zero_add]
    constructor
    · rintro ⟨hx | hx, hle⟩
      · exact hx
      · have := lt_of_mem_lineStartsFrom hx
        omega
    · intro hx
      exact ⟨.inl hx, by simpa using le_of_mem_startsIn hx⟩
  simp only [breaksUpTo, Set.mem_image, Set.mem_ofPred_eq, Prod.exists, exists_eq_right,
    exists_and_right, ← hsplit, mem_lineStartsFrom_zero]

theorem startsIn_sorted : (startsIn 0 after before).Pairwise (· < ·) := by
  have hall := lineStartsFrom_sorted 0 (before ++ after)
  rw [lineStartsFrom_append] at hall
  exact (List.pairwise_append.1 hall).1

theorem encard_breaksUpTo : (breaksUpTo (before ++ after) (byteLength before)).encard =
    (startsIn 0 after before).length := by
  have hinj : Set.InjOn Prod.snd (breaksUpTo (before ++ after) (byteLength before)) := by
    rintro ⟨start, stop⟩ hb ⟨start', stop'⟩ hb' hstop
    obtain rfl : stop = stop' := hstop
    obtain rfl : start = start' := hb.1.start_unique hb'.1
    rfl
  have hnodup : (startsIn 0 after before).Nodup := (startsIn_sorted before after).imp Nat.ne_of_lt
  rw [← hinj.encard_image, ends_breaksUpTo, ← List.coe_toFinset,
    Set.encard_coe_eq_coe_finsetCard, List.toFinset_card_of_nodup hnodup]

/-- The last of the line starts up to an offset is where the last break ends. -/
theorem isGreatest_lineStart {x : Nat}
    (h : (0 :: startsIn 0 after before)[(startsIn 0 after before).length]? = some x) :
    IsGreatest (insert 0 (Prod.snd '' breaksUpTo (before ++ after) (byteLength before))) x := by
  rw [ends_breaksUpTo]
  have hsorted : (0 :: startsIn 0 after before).Pairwise (· ≤ ·) := by
    apply List.pairwise_cons.2
    exact ⟨fun x _ => Nat.zero_le x, (startsIn_sorted before after).imp Nat.le_of_lt⟩
  constructor
  · exact List.mem_cons.1 (List.mem_of_getElem? h)
  · intro y hy
    have hlast : (0 :: startsIn 0 after before).getLast (List.cons_ne_nil _ _) = x := by
      rw [List.getLast_eq_iff_getLast?_eq_some, List.getLast?_eq_getElem?, List.length_cons,
        Nat.add_sub_cancel, h]
    exact hlast ▸ hsorted.rel_getLast (List.mem_cons.2 hy)

end

namespace LineTable

/-- A pair of carriage return and line feed ends a line, and the return alone does not. -/
theorem line_in_pair {before after : List Char} (h : text = before ++ '\r' :: '\n' :: after) :
    ((ofText text).position text (byteLength before + 1)).line =
        ((ofText text).position text (byteLength before)).line ∧
      ((ofText text).position text (byteLength before + 2)).line =
        ((ofText text).position text (byteLength before)).line + 1 := by
  have hsplit : text = (before ++ ['\r']) ++ '\n' :: after := by simpa using h
  have hreturn : (ofText text).position text (byteLength before + 1) = _ := position_next h
  have hfeed := position_next hsplit
  rw [byteLength_append] at hfeed
  change (ofText text).position text (byteLength before + 2) =
    nextPosition ((ofText text).position text (byteLength before + 1)) '\n' after at hfeed
  rw [hfeed, hreturn]
  exact ⟨rfl, rfl⟩

/-- The line of an offset is the number of breaks that end up to it. Its character is the number of
code units since the last of these breaks, or since the start of the text. An offset inside a pair
of carriage return and line feed is still on the line that the pair ends. -/
theorem position_counts_breaks {text : List Char} {offset : Nat} (h : IsBoundary text offset) :
    let p := (ofText text).position text offset
    (breaksUpTo text offset).encard = p.line ∧
    (∃ start s, IsGreatest (insert 0 (Prod.snd '' breaksUpTo text offset)) start ∧
      Spans text start offset s ∧ p.character = unitLength s) ∧
    ∀ before after, text = before ++ '\r' :: '\n' :: after → offset = byteLength before + 1 →
      p.line = ((ofText text).position text (byteLength before)).line ∧
      ((ofText text).position text (offset + 1)).line = p.line + 1 := by
  obtain ⟨before, after, rfl, rfl⟩ := h
  obtain ⟨above, line, rfl, hlast, hcursor⟩ := exists_line before after
  intro p
  have hp : p = ⟨(startsIn 0 after (above ++ line)).length, unitLength line⟩ :=
    (position_eq_cursor _ _).trans hcursor
  refine ⟨?_, ?_, ?_⟩
  · rw [hp, encard_breaksUpTo]
  · refine ⟨byteLength above, line, isGreatest_lineStart _ _ hlast, ?_, by rw [hp]⟩
    exact ⟨above, after, List.append_assoc .., rfl, (byteLength_append ..).symm⟩
  · intro front back htext hoffset
    obtain ⟨hreturn, hfeed⟩ := line_in_pair htext
    rw [hoffset, hfeed, ← hreturn, ← hoffset]
    exact ⟨rfl, rfl⟩

/-- A pair, a lone return, a line separator and a character of two code units. -/
def mixedBreaks : List Char := ['x', '\r', '\n', '\r', '\u2028', '𝑥', 'y']

theorem position_counts_breaks_mixed :
    IsBoundary mixedBreaks 11 ∧ (ofText mixedBreaks).position mixedBreaks 11 = ⟨3, 2⟩ ∧
      (breaksUpTo mixedBreaks 11).encard = 3 ∧
      IsBoundary mixedBreaks 2 ∧ (breaksUpTo mixedBreaks 2).encard = 0 := by
  have hend : IsBoundary mixedBreaks 11 :=
    ⟨['x', '\r', '\n', '\r', '\u2028', '𝑥'], ['y'], rfl, rfl⟩
  have hinside : IsBoundary mixedBreaks 2 :=
    ⟨['x', '\r'], ['\n', '\r', '\u2028', '𝑥', 'y'], rfl, rfl⟩
  have hposition : (ofText mixedBreaks).position mixedBreaks 11 = ⟨3, 2⟩ := by decide
  have hposition' : (ofText mixedBreaks).position mixedBreaks 2 = ⟨0, 2⟩ := by decide
  have hline := (position_counts_breaks hend).1
  have hline' := (position_counts_breaks hinside).1
  rw [hposition] at hline
  rw [hposition'] at hline'
  exact ⟨hend, hposition, hline, hinside, hline'⟩

end LineTable
end NamingLint.Text
