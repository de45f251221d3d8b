import NamingLint.Proofs.Check.SyntaxErrors
import NamingLint.Proofs.Text.Replacement

/-!
# Two ways to number lines

Violations are placed by the lines of editors, syntax errors by the rows of the parser, which only
newlines end. At any offset the line is ahead of the row by the breaks that are no newlines, so a
syntax error never has a greater line number than a violation in its place.
-/
namespace NamingLint

namespace Text

/-- The character at an index ends a line but no row: it is a line or paragraph separator, or a
carriage return without a line feed behind it. -/
def EndsLineOnly (text : List Char) (i : Nat) : Prop :=
  text[i]? = some '\u2028' ∨ text[i]? = some '\u2029' ∨
    text[i]? = some '\r' ∧ text[i + 1]? ≠ some '\n'

instance (text : List Char) : DecidablePred (EndsLineOnly text) :=
  fun _ => inferInstanceAs (Decidable (_ ∨ _))

/-- The number of characters before a byte offset that end a line but no row. -/
def lineOnlyBreaks (offset : Nat) (text : List Char) : Nat :=
  (List.range (charsBefore offset text).length).countP (EndsLineOnly text ·)

theorem endsLineOnly_append (before : List Char) (c : Char) (after : List Char) :
    EndsLineOnly (before ++ c :: after) before.length ↔
      c = '\u2028' ∨ c = '\u2029' ∨ c = '\r' ∧ after.head? ≠ some '\n' := by
  have hnext : (before ++ c :: after)[before.length + 1]? = after.head? := by
    rw [List.getElem?_append_right (Nat.le_add_right _ 1), Nat.add_sub_cancel_left,
      List.getElem?_cons_succ, List.head?_eq_getElem?]
  simp [EndsLineOnly, hnext]

/-- A character ends a line if it ends a row or is one of the other breaks, never both. -/
theorem endsLine_count (before : List Char) (c : Char) (after : List Char) :
    (if endsLine c after then 1 else 0) =
      [c].count '\n' + [before.length].countP (EndsLineOnly (before ++ c :: after) ·) := by
  simp only [List.count_singleton, List.countP_singleton, decide_eq_true_eq, endsLineOnly_append,
    beq_iff_eq]
  unfold endsLine
  split <;> simp_all

/-- The breaks before an offset are newlines or breaks that end no row. -/
theorem length_startsIn (before after : List Char) :
    (startsIn 0 after before).length = before.count '\n' +
      (List.range before.length).countP (EndsLineOnly (before ++ after) ·) := by
  -- From the back, since whether a character ends a line depends on the one behind it.
  induction before using List.reverseRecOn generalizing after with
  | nil => rfl
  | append_singleton s c ih =>
    have hstep := endsLine_count s c after
    have hlast : (startsIn 0 after (s ++ [c])).length =
        (startsIn 0 (c :: after) s).length + if endsLine c after then 1 else 0 := by
      rw [startsIn_concat, List.length_append]
      split <;> rfl
    rw [hlast, ih, List.count_append, List.length_append, List.length_singleton, List.range_succ,
      List.countP_append, List.append_assoc, List.singleton_append]
    omega

/-- The line of an offset is its row and the number of breaks before it that end no row. -/
theorem LineTable.line_eq_row_add {text : List Char} {offset : Nat} (h : IsBoundary text offset) :
    ((ofText text).position text offset).line = row offset text + lineOnlyBreaks offset text := by
  obtain ⟨before, after, rfl, rfl⟩ := h
  obtain ⟨above, line, -, -, hcursor⟩ := exists_line before after
  rw [position_eq_cursor, hcursor, row, lineOnlyBreaks, charsBefore_append]
  exact length_startsIn before after

theorem lineOnlyBreaks_eq_zero {offset : Nat} {text : List Char} : lineOnlyBreaks offset text = 0 ↔
    ∀ i < (charsBefore offset text).length, ¬EndsLineOnly text i := by
  simp [lineOnlyBreaks, List.countP_eq_zero]

/-- In UTF-8 the byte of a newline occurs in no other character. -/
theorem count_utf8EncodeChar (c : Char) :
    (String.utf8EncodeChar c).count 10 = [c].count '\n' := by
  have hbyte (n : Nat) (hn : n < 256) : UInt8.ofNat n = 10 ↔ n = 10 := by
    rw [← UInt8.toNat_inj, UInt8.toNat_ofNat_of_lt' hn]
    rfl
  have hc : c = '\n' ↔ c.val.toNat = 10 := by
    rw [Char.ext_iff, ← UInt32.toNat_inj]
    rfl
  unfold String.utf8EncodeChar
  simp only [List.count_singleton, beq_iff_eq, hc]
  split
  case isTrue hascii =>
    simp only [List.count_singleton, beq_iff_eq, hbyte _ (by omega : c.val.toNat < 256)]
  case isFalse hascii =>
    -- All bytes of a longer encoding have their top bit set.
    have hne : c.val.toNat ≠ 10 := by omega
    rw [if_neg hne, List.count_eq_zero]
    repeat' split
    all_goals
      simp (disch := omega) only [List.mem_cons, List.not_mem_nil, or_false,
        eq_comm (a := (10 : UInt8)), hbyte]
      omega

theorem length_flatMap_utf8EncodeChar (s : List Char) :
    (s.flatMap String.utf8EncodeChar).length = byteLength s := by
  induction s with
  | nil => rfl
  | cons c s ih =>
    rw [List.flatMap_cons, List.length_append, String.length_utf8EncodeChar, ih, byteLength_cons]

theorem count_flatMap_utf8EncodeChar (s : List Char) :
    (s.flatMap String.utf8EncodeChar).count 10 = s.count '\n' := by
  induction s with
  | nil => rfl
  | cons c s ih =>
    rw [List.flatMap_cons, List.count_append, count_utf8EncodeChar, ih, ← List.count_append]
    rfl

/-- The row of an offset is the number of newline bytes before it. -/
theorem row_eq_count_bytes {text : String} {offset : Nat} (h : IsBoundary text.toList offset) :
    row offset text.toList = (text.toUTF8.data.toList.take offset).count 10 := by
  obtain ⟨before, after, htext, rfl⟩ := h
  have hbytes : text.toUTF8.data.toList =
      before.flatMap String.utf8EncodeChar ++ after.flatMap String.utf8EncodeChar := by
    rw [← List.flatMap_append, ← htext, String.toUTF8]
    conv_lhs => rw [← String.ofList_toList (s := text)]
    rw [String.toByteArray_ofList, List.utf8Encode]
    simp
  rw [row, htext, charsBefore_append, hbytes, ← length_flatMap_utf8EncodeChar, List.take_left,
    count_flatMap_utf8EncodeChar]

end Text

/-- The parse of a tree that is not clean fails on the row of its fault, counted from one. -/
theorem Grammar.parseClean_of_fault {g : Grammar} {text file : String} {root fault : Syntax.Tree}
    (hparse : g.parse (Dialect.ofFileName file) text = .ok root)
    (hfault : Syntax.faultOf? root = some fault) :
    g.parseClean text file = .error (.syntaxError file (Text.row fault.span.start text.toList + 1)
      (Text.column fault.span.start text.toList + 1)) := by
  simp [parseClean, hparse, syntaxError?, hfault]

/-- The editor line of an offset is its row, that is the number of newline bytes before it, and the
number of separators and lone carriage returns before it. Violations at the offset have that line. A
syntax error at the offset has, counted from one, at most the line of such a violation, and the same
line only if there is no separator and no lone carriage return before it. -/
theorem line_ahead_of_row (text : String) (offset : Nat)
    (h : Text.IsBoundary text.toList offset) :
    let line := ((Text.LineTable.ofText text.toList).position text.toList offset).line
    Text.row offset text.toList = (text.toUTF8.data.toList.take offset).count 10 ∧
      line = Text.row offset text.toList + Text.lineOnlyBreaks offset text.toList ∧
      (∀ (g : Grammar) (file : String) (keys : RuleKeys) (found : List Violation),
        g.check text file keys = .ok found → ∀ v ∈ found, v.offset = offset → v.line = line) ∧
      ∀ (g : Grammar) (file : String) (root fault : Syntax.Tree),
        g.parse (Dialect.ofFileName file) text = .ok root → Syntax.faultOf? root = some fault →
        fault.span.start = offset →
          ∃ errorLine column,
            g.parseClean text file = .error (.syntaxError file errorLine column) ∧
              errorLine ≤ line + 1 ∧
              (errorLine = line + 1 ↔
                ∀ i < (Text.charsBefore offset text.toList).length,
                  ¬Text.EndsLineOnly text.toList i) := by
  intro line
  have hline : line = Text.row offset text.toList + Text.lineOnlyBreaks offset text.toList :=
    Text.LineTable.line_eq_row_add h
  refine ⟨Text.row_eq_count_bytes h, hline, ?_, ?_⟩
  · intro g file keys found hcheck v hv hoffset
    have hstart := (Grammar.placed_of_mem_check hcheck hv).start
    rw [hoffset] at hstart
    exact (congrArg Position.line hstart).symm
  · intro g file root fault hparse hfault hoffset
    refine ⟨_, _, Grammar.parseClean_of_fault hparse hfault, ?_, ?_⟩
    · rw [hoffset]
      omega
    · rw [hoffset, ← Text.lineOnlyBreaks_eq_zero]
      omega

/-- A lone carriage return, a separator and a pair of carriage return and line feed, then a
function. -/
def mixedLinesText : String := "\r\u2028\r\nfunction Foo() \x7b\x7d"

def mixedLinesTree : Syntax.Tree :=
  .clean "program" none true 6 23
    [.clean "function_declaration" none true 6 23
      [.clean "function" none false 6 14 [],
        .clean "identifier" (some "name") true 15 18 [],
        .clean "formal_parameters" (some "parameters") true 18 20 [],
        .clean "statement_block" (some "body") true 21 23 []]]

/-- The same text to a parser that expects something else than the name. -/
def mixedLinesError : Syntax.Tree :=
  .node ⟨"program", none, true, false, false, true, ⟨6, 23⟩⟩
    [.clean "function" none false 6 14 [],
      .node ⟨"ERROR", none, true, true, false, true, ⟨15, 23⟩⟩ []]

def mixedLinesViolation : Violation := ⟨"Foo", 3, 9, 12, .function, "camelCase", 15⟩

theorem line_ahead_of_row_mixed :
    Text.IsBoundary mixedLinesText.toList 15 ∧
      Text.row 15 mixedLinesText.toList = 1 ∧
      Text.lineOnlyBreaks 15 mixedLinesText.toList = 2 ∧
      Grammar.check ⟨fun _ _ => .ok mixedLinesTree⟩ mixedLinesText "a.ts"
        ({} : NamingSettings).ruleKeys = .ok [mixedLinesViolation] ∧
      ∃ errorLine column,
        Grammar.parseClean ⟨fun _ _ => .ok mixedLinesError⟩ mixedLinesText "a.ts" =
          .error (.syntaxError "a.ts" errorLine column) ∧
        errorLine < mixedLinesViolation.line + 1 := by
  have hboundary : Text.IsBoundary mixedLinesText.toList 15 :=
    ⟨mixedLinesText.toList.take 13, mixedLinesText.toList.drop 13, rfl, rfl⟩
  have hcheck : Grammar.check ⟨fun _ _ => .ok mixedLinesTree⟩ mixedLinesText "a.ts"
      ({} : NamingSettings).ruleKeys = .ok [mixedLinesViolation] := rfl
  obtain ⟨-, -, hviolation, herror⟩ := line_ahead_of_row mixedLinesText 15 hboundary
  have hline := hviolation _ _ _ _ hcheck mixedLinesViolation List.mem_cons_self rfl
  obtain ⟨errorLine, column, hparse, hle, heq⟩ :=
    herror ⟨fun _ _ => .ok mixedLinesError⟩ "a.ts" mixedLinesError _ rfl rfl rfl
  have hbreak : ¬∀ i < (Text.charsBefore 15 mixedLinesText.toList).length,
      ¬Text.EndsLineOnly mixedLinesText.toList i := fun hnone => hnone 0 (by decide) (by decide)
  refine ⟨hboundary, by decide, by decide, hcheck, errorLine, column, hparse, ?_⟩
  rw [hline]
  exact Nat.lt_of_le_of_ne hle (heq.not.2 hbreak)

end NamingLint
