import NamingLint.Proofs.Text.Slices
import NamingLint.Text.LineTable
import Mathlib.Data.List.Induction

/-!
# Editor positions as a cursor moves

A cursor that moves over a text one character at a time goes to the start of the next line behind
a line break and some code units to the right behind any other character. The table of line starts
gives the position that the cursor has when it comes to an offset. So positions increase with the
offsets, and inside a line they increase by code units.
-/
namespace NamingLint

/-- Positions are ordered by lines first. -/
instance : LT Position where
  lt p q := p.line < q.line ∨ p.line = q.line ∧ p.character < q.character

instance : LE Position where
  le p q := p.line < q.line ∨ p.line = q.line ∧ p.character ≤ q.character

theorem Position.lt_iff {p q : Position} :
    p < q ↔ p.line < q.line ∨ p.line = q.line ∧ p.character < q.character := Iff.rfl

theorem Position.le_iff {p q : Position} :
    p ≤ q ↔ p.line < q.line ∨ p.line = q.line ∧ p.character ≤ q.character := Iff.rfl

theorem Position.lt_trans {p q r : Position} (h : p < q) (h' : q < r) : p < r := by
  rw [lt_iff] at *
  omega

theorem Position.le_of_lt {p q : Position} (h : p < q) : p ≤ q := by
  rw [lt_iff] at h
  rw [le_iff]
  omega

theorem Position.le_refl (p : Position) : p ≤ p := by
  rw [le_iff]
  omega

theorem Position.not_lt_of_le {p q : Position} (h : p ≤ q) : ¬q < p := by
  rw [le_iff] at h
  rw [lt_iff]
  omega

namespace Text

/-- The characters that can end a line. -/
def lineTerminators : List Char := ['\n', '\r', '\u2028', '\u2029']

theorem endsLine_iff {c : Char} {rest : List Char} : endsLine c rest = true ↔
    c ∈ lineTerminators ∧ (c = '\r' → rest.head? ≠ some '\n') := by
  unfold endsLine
  split <;> simp_all [lineTerminators]

theorem endsLine_eq_false {c : Char} (h : c ∉ lineTerminators) (rest : List Char) :
    endsLine c rest = false := by
  rw [← Bool.not_eq_true, endsLine_iff]
  exact fun hends => h hends.1

/-- The position behind `c` of a cursor before it, when `rest` follows. -/
def nextPosition (p : Position) (c : Char) (rest : List Char) : Position :=
  if endsLine c rest then ⟨p.line + 1, 0⟩ else ⟨p.line, p.character + units16 c⟩

/-- The position of a cursor that has moved over a text, when `rest` follows. -/
def cursor (p : Position) (rest : List Char) : List Char → Position
  | [] => p
  | c :: s => cursor (nextPosition p c (s ++ rest)) rest s

theorem cursor_append (p : Position) (rest s t : List Char) :
    cursor p rest (s ++ t) = cursor (cursor p (t ++ rest) s) rest t := by
  induction s generalizing p with
  | nil => rfl
  | cons c s ih => simp only [List.cons_append, cursor, List.append_assoc, ih]

theorem lt_nextPosition (p : Position) (c : Char) (rest : List Char) :
    p < nextPosition p c rest := by
  have hc := units16_pos c
  unfold nextPosition
  rw [Position.lt_iff]
  split
  · exact .inl (Nat.lt_succ_self _)
  · exact .inr ⟨rfl, Nat.lt_add_of_pos_right hc⟩

theorem lt_cursor (p : Position) (rest : List Char) {s : List Char} (h : s ≠ []) :
    p < cursor p rest s := by
  induction s generalizing p with
  | nil => exact absurd rfl h
  | cons c s ih =>
    have hc := lt_nextPosition p c (s ++ rest)
    by_cases hs : s = []
    · subst hs
      exact hc
    · exact Position.lt_trans hc (ih _ hs)

/-- Without a line break the cursor only moves to the right, by code units. -/
theorem cursor_of_no_break (p : Position) (rest : List Char) {s : List Char}
    (h : ∀ c ∈ s, c ∉ lineTerminators) :
    cursor p rest s = ⟨p.line, p.character + unitLength s⟩ := by
  induction s generalizing p with
  | nil => rfl
  | cons c s ih =>
    have hc := endsLine_eq_false (h c (List.mem_cons_self ..)) (s ++ rest)
    rw [cursor, ih _ (fun d hd => h d (List.mem_cons_of_mem c hd)), nextPosition, hc]
    simp only [Bool.false_eq_true, if_false, unitLength_cons, Nat.add_assoc]

/-- The line starts behind the breaks of a text that begins at byte `base`, when `rest` follows. -/
def startsIn (base : Nat) (rest : List Char) : List Char → List Nat
  | [] => []
  | c :: s =>
    if endsLine c (s ++ rest) then
      (base + c.utf8Size) :: startsIn (base + c.utf8Size) rest s
    else startsIn (base + c.utf8Size) rest s

theorem lineStartsFrom_append (base : Nat) (s t : List Char) :
    lineStartsFrom base (s ++ t) =
      startsIn base t s ++ lineStartsFrom (base + byteLength s) t := by
  induction s generalizing base with
  | nil => simp [startsIn]
  | cons c s ih =>
    rw [List.cons_append, lineStartsFrom, startsIn, ih, byteLength_cons, ← Nat.add_assoc]
    split <;> rfl

theorem startsIn_concat (base : Nat) (rest s : List Char) (c : Char) :
    startsIn base rest (s ++ [c]) = startsIn base (c :: rest) s ++
      if endsLine c rest then [base + byteLength s + c.utf8Size] else [] := by
  induction s generalizing base with
  | nil => simp [startsIn]
  | cons d s ih =>
    rw [List.cons_append, startsIn, startsIn, ih, List.append_assoc, byteLength_cons,
      ← Nat.add_assoc, List.singleton_append]
    split <;> rfl

theorem le_of_mem_startsIn {base x : Nat} {rest s : List Char} (h : x ∈ startsIn base rest s) :
    x ≤ base + byteLength s := by
  induction s generalizing base with
  | nil => simp [startsIn] at h
  | cons c s ih =>
    rw [startsIn] at h
    rw [byteLength_cons]
    split at h
    · rcases List.mem_cons.1 h with rfl | h
      · omega
      · have := ih h
        omega
    · have := ih h
      omega

theorem lt_of_mem_lineStartsFrom {base x : Nat} {s : List Char} (h : x ∈ lineStartsFrom base s) :
    base < x := by
  induction s generalizing base with
  | nil => simp [lineStartsFrom] at h
  | cons c s ih =>
    have hc := c.utf8Size_pos
    rw [lineStartsFrom] at h
    split at h
    · rcases List.mem_cons.1 h with rfl | h
      · omega
      · have := ih h
        omega
    · have := ih h
      omega

theorem lineStartsFrom_sorted (base : Nat) (text : List Char) :
    (lineStartsFrom base text).Pairwise (· < ·) := by
  induction text generalizing base with
  | nil => exact .nil
  | cons c s ih =>
    rw [lineStartsFrom]
    split
    · exact List.pairwise_cons.2 ⟨fun x hx => lt_of_mem_lineStartsFrom hx, ih _⟩
    · exact ih _

namespace LineTable

/-- The table at an offset: the lines that start up to it, and those that start behind it. -/
theorem starts_append (before after : List Char) :
    (ofText (before ++ after)).starts =
      (0 :: startsIn 0 after before) ++ lineStartsFrom (byteLength before) after := by
  simp only [ofText, lineStartsFrom_append, Nat.zero_add, List.cons_append]

theorem takeWhile_starts (before after : List Char) :
    (ofText (before ++ after)).starts.takeWhile (· ≤ byteLength before) =
      0 :: startsIn 0 after before := by
  have hle : ∀ x ∈ 0 :: startsIn 0 after before, decide (x ≤ byteLength before) = true := by
    intro x hx
    rcases List.mem_cons.1 hx with rfl | hx
    · simp
    · simpa using le_of_mem_startsIn hx
  rw [starts_append, List.takeWhile_append_of_pos hle]
  cases hl : lineStartsFrom (byteLength before) after with
  | nil => simp
  | cons x xs =>
    have hx : byteLength before < x := lt_of_mem_lineStartsFrom (hl ▸ List.mem_cons_self ..)
    rw [List.takeWhile_cons_of_neg (by simpa using hx), List.append_nil]

/-- Where the line of an offset begins, and what stands between: the offset cuts the text behind
`line`, which is all that the cursor has passed since. -/
theorem exists_line (before after : List Char) :
    ∃ above line, before = above ++ line ∧
      (0 :: startsIn 0 after before)[(startsIn 0 after before).length]? = some (byteLength above) ∧
      cursor ⟨0, 0⟩ after before = ⟨(startsIn 0 after before).length, unitLength line⟩ := by
  induction before using List.reverseRecOn generalizing after with
  | nil => exact ⟨[], [], rfl, rfl, rfl⟩
  | append_singleton s c ih =>
    obtain ⟨above, line, hs, hlast, hcur⟩ := ih (c :: after)
    have hcons : cursor ⟨0, 0⟩ after (s ++ [c]) =
        nextPosition ⟨(startsIn 0 (c :: after) s).length, unitLength line⟩ c after := by
      rw [cursor_append, List.singleton_append, hcur]
      rfl
    by_cases hc : endsLine c after = true
    · refine ⟨s ++ [c], [], (List.append_nil _).symm, ?_, ?_⟩
      · simp [startsIn_concat, hc, byteLength_append]
      · rw [hcons, nextPosition, if_pos hc]
        simp [startsIn_concat, hc]
    · refine ⟨above, line ++ [c], by rw [hs, List.append_assoc], ?_, ?_⟩
      · simpa only [startsIn_concat, hc, Bool.false_eq_true, if_false, List.append_nil] using hlast
      · rw [hcons, nextPosition, if_neg hc]
        simp [startsIn_concat, hc, unitLength_append]

/-- A search in the table finds the position that a cursor reaches. -/
theorem position_eq_cursor (before after : List Char) :
    (ofText (before ++ after)).position (before ++ after) (byteLength before) =
      cursor ⟨0, 0⟩ after before := by
  obtain ⟨above, line, rfl, hlast, hcur⟩ := exists_line before after
  have hline : (ofText (above ++ line ++ after)).line (byteLength (above ++ line)) =
      (startsIn 0 after (above ++ line)).length := by
    rw [LineTable.line, takeWhile_starts, List.length_cons, Nat.add_sub_cancel]
  have hstart : (ofText (above ++ line ++ after)).starts.getD
      (startsIn 0 after (above ++ line)).length 0 = byteLength above := by
    rw [starts_append, List.getD_eq_getElem?_getD, List.getElem?_append_left (by simp), hlast,
      Option.getD_some]
  have hslice : slice? (byteLength above) (byteLength (above ++ line)) (above ++ line ++ after) =
      some line :=
    slice?_eq_some_iff.2 ⟨above, after, List.append_assoc .., rfl, (byteLength_append ..).symm⟩
  simp only [position, hline, hstart, hslice, hcur, Option.map_some, Option.getD_some]

/-- Behind one more character the table has the next position of the cursor. -/
theorem position_next {text before after : List Char} {c : Char} (h : text = before ++ c :: after) :
    (ofText text).position text (byteLength before + c.utf8Size) =
      nextPosition ((ofText text).position text (byteLength before)) c after := by
  subst h
  have hnext := position_eq_cursor (before ++ [c]) after
  rw [List.append_assoc, byteLength_append, cursor_append] at hnext
  rw [position_eq_cursor]
  exact hnext

/-- The position at the end of a stretch of text is where the cursor comes to from its start. -/
theorem position_of_spans {text s : List Char} {start stop : Nat} (h : Spans text start stop s) :
    ∃ rest, (ofText text).position text stop =
      cursor ((ofText text).position text start) rest s := by
  obtain ⟨before, after, rfl, rfl, rfl⟩ := h
  have hstop := position_eq_cursor (before ++ s) after
  rw [List.append_assoc, byteLength_append, cursor_append] at hstop
  exact ⟨after, by rw [hstop, position_eq_cursor]⟩

theorem position_lt {text : List Char} {m n : Nat} (hm : IsBoundary text m)
    (hn : IsBoundary text n) (h : m < n) :
    (ofText text).position text m < (ofText text).position text n := by
  obtain ⟨s, hs⟩ := exists_spans hm hn (Nat.le_of_lt h)
  have hne : s ≠ [] := by
    rintro rfl
    have := hs.stop_eq
    simp only [byteLength_nil] at this
    omega
  obtain ⟨rest, hpos⟩ := position_of_spans hs
  rw [hpos]
  exact lt_cursor _ _ hne

theorem position_le {text : List Char} {m n : Nat} (hm : IsBoundary text m)
    (hn : IsBoundary text n) (h : m ≤ n) :
    (ofText text).position text m ≤ (ofText text).position text n := by
  rcases Nat.eq_or_lt_of_le h with rfl | hlt
  · exact Position.le_refl _
  · exact Position.le_of_lt (position_lt hm hn hlt)

/-- Positions are in the order of the offsets they stand for, and no two offsets share one: a line
and a character tell where in the text they are. -/
theorem position_orders_offsets {text : List Char} {m n : Nat} (hm : IsBoundary text m)
    (hn : IsBoundary text n) :
    ((ofText text).position text m < (ofText text).position text n ↔ m < n) ∧
      ((ofText text).position text m = (ofText text).position text n ↔ m = n) := by
  constructor
  · constructor
    · intro hlt
      by_contra hge
      have hle := position_le hn hm (Nat.le_of_not_lt hge)
      exact Position.not_lt_of_le hle hlt
    · exact position_lt hm hn
  · constructor
    · intro heq
      have hirrefl := Position.not_lt_of_le (Position.le_refl ((ofText text).position text n))
      rcases Nat.lt_trichotomy m n with hlt | hmn | hgt
      · have hless := position_lt hm hn hlt
        rw [heq] at hless
        exact absurd hless hirrefl
      · exact hmn
      · have hless := position_lt hn hm hgt
        rw [heq] at hless
        exact absurd hless hirrefl
    · rintro rfl
      rfl

/-- The offsets inside and behind a pair of carriage return and line feed. -/
theorem position_orders_offsets_pair :
    let text := ['x', '\r', '\n', '𝑥']
    IsBoundary text 2 ∧ IsBoundary text 3 ∧
      (ofText text).position text 2 < (ofText text).position text 3 ∧
      (ofText text).position text 2 ≠ (ofText text).position text 3 := by
  intro text
  have hinside : IsBoundary text 2 := ⟨['x', '\r'], ['\n', '𝑥'], rfl, rfl⟩
  have hbehind : IsBoundary text 3 := ⟨['x', '\r', '\n'], ['𝑥'], rfl, rfl⟩
  obtain ⟨hlt, heq⟩ := position_orders_offsets hinside hbehind
  exact ⟨hinside, hbehind, hlt.2 (by decide), heq.not.2 (by decide)⟩

/-- Across a stretch without line breaks the line stays and the character grows by code units. -/
theorem position_of_no_break {text s : List Char} {start stop : Nat} (h : Spans text start stop s)
    (hs : ∀ c ∈ s, c ∉ lineTerminators) :
    (ofText text).position text stop = ⟨((ofText text).position text start).line,
      ((ofText text).position text start).character + unitLength s⟩ := by
  obtain ⟨rest, hpos⟩ := position_of_spans h
  rw [hpos, cursor_of_no_break _ _ hs]

end LineTable
end Text
end NamingLint
