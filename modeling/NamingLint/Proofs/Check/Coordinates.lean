import NamingLint.Check
import NamingLint.Proofs.Declarations.Sites
import NamingLint.Proofs.Text.Positions
import NamingLint.Settings

/-!
# The two places of a violation

A violation has a byte offset, for excerpts of the text, and an editor range. Both come from the
node that spells the name: the offset and the start of the range directly, the end of the range by
counting the code units of the name. They address the same characters.
-/
namespace NamingLint
open Declarations Syntax

theorem Grammar.parse_of_parseClean {g : Grammar} {text file : String} {root : Tree}
    (h : g.parseClean text file = .ok root) :
    g.parse (Dialect.ofFileName file) text = .ok root := by
  simp only [parseClean] at h
  split at h
  · simp at h
  · simp at h
  · rename_i r hr
    split at h
    · simp at h
    · rw [hr, Except.ok.inj h]

theorem Grammar.check_eq_ok_iff {g : Grammar} {text file : String} {keys : RuleKeys}
    {found : List Violation} : g.check text file keys = .ok found ↔
      ∃ root, g.parseClean text file = .ok root ∧
        (collect root text.toList).filterMap (·.check keys) = found := by
  unfold check bindings
  cases g.parseClean text file with
  | error e => simp [Except.map]
  | ok root => simp [Except.map]

theorem Binding.check_eq_some {b : Binding} {keys : RuleKeys} {v : Violation}
    (h : b.check keys = some v) : ∃ subject, b.subject? = some subject ∧
      followsRule b.name (keys.keyFor subject) = false ∧
      v = b.violationOf subject (keys.keyFor subject) := by
  unfold check at h
  split at h
  · simp at h
  · rename_i subject hs
    split at h
    · simp at h
    · rename_i hf
      exact ⟨subject, hs, by simpa using hf, (Option.some.inj h).symm⟩

/-- A violation stands in a text where its offset and its start say. -/
structure Violation.Placed (text : List Char) (v : Violation) : Prop where
  spans : Text.Spans text v.offset (v.offset + Text.byteLength v.name.toList) v.name.toList
  start : (Text.LineTable.ofText text).position text v.offset = ⟨v.line, v.character⟩
  width : v.endCharacter = v.character + Text.unitLength v.name.toList

theorem Declarations.Names.placed {text : List Char} {name : Tree} {origin : Origin} {b : Binding}
    (h : Names text name origin b) (subject : Subject) (rule : String) :
    (b.violationOf subject rule).Placed text where
  spans := by
    have hspan := h.spelled
    rw [hspan.stop_eq, ← h.offset_eq] at hspan
    exact hspan
  start := by
    have hstart := h.position_eq.symm
    rw [← h.offset_eq] at hstart
    exact hstart
  width := rfl

theorem Violation.Placed.stop {text : List Char} {v : Violation} (h : v.Placed text)
    (hname : ∀ c ∈ v.name.toList, c ∉ Text.lineTerminators) :
    (Text.LineTable.ofText text).position text (v.offset + Text.byteLength v.name.toList) =
      ⟨v.line, v.endCharacter⟩ := by
  rw [Text.LineTable.position_of_no_break h.spans hname, h.start, h.width]

theorem Grammar.placed_of_mem_check {g : Grammar} {text file : String} {keys : RuleKeys}
    {found : List Violation} (h : g.check text file keys = .ok found) {v : Violation}
    (hv : v ∈ found) : v.Placed text.toList := by
  obtain ⟨root, -, rfl⟩ := check_eq_ok_iff.1 h
  obtain ⟨b, hb, hcheck⟩ := List.mem_filterMap.1 hv
  obtain ⟨subject, -, -, rfl⟩ := Binding.check_eq_some hcheck
  obtain ⟨a, hdecl⟩ := exists_declares hb
  obtain ⟨_, _, -, -, hname⟩ := hdecl.exists_name
  exact hname.placed subject _

/-- The offset and the editor range of a violation whose name does not go over a line break select
the same characters of the text, and these are the name. -/
theorem check_coordinates_agree (g : Grammar) (text file : String) (keys : RuleKeys)
    (found : List Violation) (h : g.check text file keys = .ok found) (v : Violation)
    (hv : v ∈ found) (hname : ∀ c ∈ v.name.toList, c ∉ Text.lineTerminators) :
    let stop := v.offset + Text.byteLength v.name.toList
    let position := (Text.LineTable.ofText text.toList).position text.toList
    Text.slice? v.offset stop text.toList = some v.name.toList ∧
      (∀ message, (v.highlight message).mark.offset = v.offset ∧
        (v.highlight message).mark.offset + (v.highlight message).mark.length = stop) ∧
      position v.offset = ⟨v.line, v.character⟩ ∧
      position stop = ⟨v.line, v.endCharacter⟩ ∧
      v.range = ⟨position v.offset, position stop⟩ := by
  have hplaced := Grammar.placed_of_mem_check h hv
  have hstop := hplaced.stop hname
  refine ⟨Text.slice?_eq_some_iff.2 hplaced.spans, fun _ => ⟨rfl, rfl⟩, hplaced.start, hstop, ?_⟩
  rw [hplaced.start, hstop]
  rfl

/-- A name with a character of four bytes and two code units, on the second line and behind a
character of two bytes. -/
def astralText : String := "/*é*/\r\nfunction 𝐅oo() \x7b\x7d"

def astralTree : Tree :=
  .clean "program" none true 0 28
    [.clean "comment" none true 0 6 [],
      .clean "function_declaration" none true 8 28
        [.clean "function" none false 8 16 [],
          .clean "identifier" (some "name") true 17 23 [],
          .clean "formal_parameters" (some "parameters") true 23 25 [],
          .clean "statement_block" (some "body") true 26 28 []]]

def astralViolation : Violation := ⟨"𝐅oo", 1, 9, 13, .function, "camelCase", 17⟩

theorem check_coordinates_agree_astral :
    Grammar.check ⟨fun _ _ => .ok astralTree⟩ astralText "a.ts" ({} : NamingSettings).ruleKeys =
        .ok [astralViolation] ∧
      Text.slice? 17 23 astralText.toList = some "𝐅oo".toList ∧
      (Text.LineTable.ofText astralText.toList).position astralText.toList 17 = ⟨1, 9⟩ ∧
      (Text.LineTable.ofText astralText.toList).position astralText.toList 23 = ⟨1, 13⟩ := by
  obtain ⟨hslice, -, hstart, hstop, -⟩ := check_coordinates_agree ⟨fun _ _ => .ok astralTree⟩
    astralText "a.ts" ({} : NamingSettings).ruleKeys [astralViolation] rfl astralViolation
    (List.mem_singleton.2 rfl) (by simp [astralViolation, Text.lineTerminators])
  exact ⟨rfl, hslice, hstart, hstop⟩

end NamingLint
