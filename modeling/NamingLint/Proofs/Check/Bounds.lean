import NamingLint.Proofs.Check.Coordinates
import NamingLint.Proofs.Text.LineSearch
import NamingLint.Report.Text

/-!
# How large the numbers of a violation are

Every character takes at least as many bytes as code units, and every line break takes a byte. So a
line and a character are never greater than the byte offset they stand for, and all numbers of a
violation are bounded by the length of the text. The sums that are made of them stay below the bound
of a machine word.
-/
namespace NamingLint

namespace Text

theorem units16_le_utf8Size (c : Char) : units16 c ≤ c.utf8Size := by
  unfold units16
  split
  case isTrue => exact c.utf8Size_pos
  case isFalse hlarge =>
    have hval : 0xffff < c.val := by
      rw [UInt32.lt_iff_toNat_lt]
      change 0xffff < c.toNat
      omega
    have hsize := Char.utf8Size_eq_four_iff.2 hval
    omega

theorem unitLength_le_byteLength (s : List Char) : unitLength s ≤ byteLength s := by
  induction s with
  | nil => exact Nat.le_refl 0
  | cons c s ih =>
    have hc := units16_le_utf8Size c
    rw [unitLength_cons, byteLength_cons]
    omega

/-- A cursor that moves over a character adds no more to its line and character than the character
has bytes: one line, or its code units. -/
theorem nextPosition_sum_le (p : Position) (c : Char) (rest : List Char) :
    (nextPosition p c rest).line + (nextPosition p c rest).character ≤
      p.line + p.character + c.utf8Size := by
  have hbyte := c.utf8Size_pos
  have hunits := units16_le_utf8Size c
  unfold nextPosition
  split
  · dsimp only
    omega
  · dsimp only
    omega

theorem cursor_sum_le (p : Position) (rest s : List Char) :
    (cursor p rest s).line + (cursor p rest s).character ≤
      p.line + p.character + byteLength s := by
  induction s generalizing p with
  | nil => exact Nat.le_refl _
  | cons c s ih =>
    have hfirst := nextPosition_sum_le p c (s ++ rest)
    have hothers := ih (nextPosition p c (s ++ rest))
    rw [cursor, byteLength_cons]
    omega

theorem LineTable.position_sum_le {text : List Char} {offset : Nat} (h : IsBoundary text offset) :
    ((ofText text).position text offset).line + ((ofText text).position text offset).character ≤
      offset := by
  obtain ⟨before, after, rfl, rfl⟩ := h
  rw [position_eq_cursor]
  simpa using cursor_sum_le ⟨0, 0⟩ after before

end Text

/-- Two numbers have the same sum as the machine words of 64 bits that hold them. -/
def AddInWords (m n : Nat) : Prop :=
  (UInt64.ofNat m + UInt64.ofNat n).toNat = m + n

theorem addInWords_iff {m n : Nat} : AddInWords m n ↔ m + n < UInt64.size := by
  rw [AddInWords, ← UInt64.ofNat_add]
  constructor
  · intro h
    rw [← h]
    exact UInt64.toNat_lt_size _
  · exact UInt64.toNat_ofNat_of_lt'

namespace Violation.Placed
variable {text : List Char} {v : Violation}

theorem sum_le (h : v.Placed text) : v.line + v.character ≤ v.offset := by
  have hsum := Text.LineTable.position_sum_le h.spans.isBoundary_start
  rwa [h.start] at hsum

theorem endCharacter_le (h : v.Placed text) :
    v.endCharacter ≤ v.offset + Text.byteLength v.name.toList := by
  have hsum := h.sum_le
  have hunits := Text.unitLength_le_byteLength v.name.toList
  have hwidth := h.width
  omega

theorem stop_le (h : v.Placed text) :
    v.offset + Text.byteLength v.name.toList ≤ Text.byteLength text :=
  h.spans.isBoundary_stop.le_byteLength

end Violation.Placed

namespace Report

/-- A place counted from one in machine words. -/
def placeInWords (file : Path) (p : Position) : String :=
  s!"{file.text}:{UInt64.ofNat p.line + 1}:{UInt64.ofNat p.character + 1}"

/-- Machine words give the place that is printed, as long as one can be added to its numbers. -/
theorem placeOf_eq_placeInWords {d : Diagnostic} (hline : AddInWords d.range.start.line 1)
    (hcharacter : AddInWords d.range.start.character 1) (file : Path) :
    placeOf file d = placeInWords file d.range.start := by
  have hline : toString (UInt64.ofNat d.range.start.line + 1) =
      toString (d.range.start.line + 1) := congrArg toString hline
  have hcharacter : toString (UInt64.ofNat d.range.start.character + 1) =
      toString (d.range.start.character + 1) := congrArg toString hcharacter
  rw [placeOf, placeInWords, hline, hcharacter]

end Report

/-- The line and the character of a violation are at most its offset. Its range and its span end
within the text. In a text that a memory can hold, the code units of a name are added to its
character without overflow, and so is the one that counts lines and characters from one in a
report. -/
theorem check_within_text (g : Grammar) (text file : String) (keys : RuleKeys)
    (found : List Violation) (h : g.check text file keys = .ok found) (v : Violation)
    (hv : v ∈ found) :
    let stop := v.offset + Text.byteLength v.name.toList
    (v.line ≤ v.offset ∧ v.character ≤ v.offset ∧ v.endCharacter ≤ stop ∧
      stop ≤ Text.byteLength text.toList) ∧
    (Text.byteLength text.toList < 2 ^ 63 →
      AddInWords v.character (Text.unitLength v.name.toList) ∧
      v.endCharacter = v.character + Text.unitLength v.name.toList ∧
      ∀ severity locale,
        let d := Diagnostic.ofViolation v severity locale
        AddInWords d.range.start.line 1 ∧ AddInWords d.range.start.character 1 ∧
          ∀ path, Report.placeOf path d = Report.placeInWords path d.range.start) := by
  intro stop
  have hplaced := Grammar.placed_of_mem_check h hv
  have hsum := hplaced.sum_le
  have hend := hplaced.endCharacter_le
  have hstop := hplaced.stop_le
  refine ⟨⟨by omega, by omega, hend, hstop⟩, fun hsize => ?_⟩
  have hwidth := hplaced.width
  -- All that is added is at most the length of the text, or one.
  have hword : 2 ^ 63 < UInt64.size := by decide
  have hline : AddInWords v.line 1 := addInWords_iff.2 (by omega)
  have hcharacter : AddInWords v.character 1 := addInWords_iff.2 (by omega)
  refine ⟨addInWords_iff.2 (by omega), hwidth, fun severity locale => ?_⟩
  exact ⟨hline, hcharacter, Report.placeOf_eq_placeInWords hline hcharacter⟩

/-- A name whose first character takes four bytes and two code units. -/
theorem check_within_text_astral :
    Grammar.check ⟨fun _ _ => .ok astralTree⟩ astralText "a.ts" ({} : NamingSettings).ruleKeys =
        .ok [astralViolation] ∧
      astralViolation.endCharacter ≤ 23 ∧ 23 ≤ Text.byteLength astralText.toList ∧
      Text.byteLength astralText.toList < 2 ^ 63 ∧ AddInWords 9 4 ∧
      Report.placeOf ⟨"a.ts"⟩ (.ofViolation astralViolation .error .en) =
        Report.placeInWords ⟨"a.ts"⟩ ⟨1, 9⟩ := by
  have hsize : Text.byteLength astralText.toList < 2 ^ 63 := by decide
  obtain ⟨⟨-, -, hend, hstop⟩, hwords⟩ := check_within_text ⟨fun _ _ => .ok astralTree⟩
    astralText "a.ts" ({} : NamingSettings).ruleKeys [astralViolation] rfl astralViolation
    (List.mem_singleton.2 rfl)
  obtain ⟨hwidth, -, hplace⟩ := hwords hsize
  exact ⟨rfl, hend, hstop, hsize, hwidth, (hplace .error .en).2.2 _⟩

end NamingLint
