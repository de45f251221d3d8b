import NamingLint.Proofs.Check.Coordinates
import NamingLint.Proofs.Syntax.Faults
import NamingLint.Proofs.Text.Rows

/-!
# Where a file that does not parse is reported

A file is refused when its tree is flagged. With right flags that is when some node, of whatever
kind, is an error or missing, and the place in the report is that of the first such node.
-/
namespace NamingLint
open Syntax

namespace Grammar
variable {g : Grammar} {text file : String} {root : Tree}

theorem parseClean_of_parse (h : g.parse (Dialect.ofFileName file) text = .ok root) :
    g.parseClean text file =
      match syntaxError? file text.toList root with
      | some e => .error e
      | none => .ok root := by
  cases hfault : syntaxError? file text.toList root with
  | none => simp [parseClean, h, hfault]
  | some e => simp [parseClean, h, hfault]

theorem check_eq_error_iff {keys : RuleKeys} {e : ParseError} :
    g.check text file keys = .error e ↔ g.parseClean text file = .error e := by
  unfold check bindings
  cases g.parseClean text file with
  | error e' => simp [Except.map]
  | ok root => simp [Except.map]

end Grammar

/-- In a flagged tree the report is at the first fault, and the root never stands in for it. -/
theorem Syntax.Flagged.faultOf?_eq {root : Tree} (h : Flagged root) :
    faultOf? root = root.nodes.find? Tree.isFault := by
  unfold faultOf?
  rw [h.firstFault_eq]
  cases hfind : root.nodes.find? Tree.isFault with
  | none =>
    have hclean : root.hasError = false := by
      rw [← Bool.not_eq_true, h.hasError_iff]
      rintro ⟨t, ht, hfault⟩
      exact List.find?_eq_none.1 hfind t ht hfault
    rw [hclean]
    rfl
  | some fault =>
    have herror : root.hasError = true :=
      h.hasError_iff.2 ⟨fault, List.mem_of_find?_eq_some hfind, List.find?_some hfind⟩
    rw [herror]
    rfl

/-- Parsing a file fails just when its tree holds an error or a missing node, and so does checking
it. The error is then at the first such node of all nodes in pre-order, which the search finds
without falling back on the root, and none of them starts on an earlier line, or on the same line in
an earlier column. -/
theorem parse_fails_at_first_fault (g : Grammar) (text file : String) (root : Tree)
    (hparse : g.parse (Dialect.ofFileName file) text = .ok root) (hflags : Flagged root)
    (hspans : Ranged root) :
    ((∃ e, g.parseClean text file = .error e) ↔ ∃ t ∈ root.nodes, t.isFault = true) ∧
      (∀ keys, (∃ e, g.check text file keys = .error e) ↔ ∃ t ∈ root.nodes, t.isFault = true) ∧
      ∀ e, g.parseClean text file = .error e →
        (∀ keys, g.check text file keys = .error e) ∧
          ∃ fault line column, root.nodes.find? Tree.isFault = some fault ∧
            firstFault root = some fault ∧ e = .syntaxError file line column ∧
            line = Text.row fault.span.start text.toList + 1 ∧
            column = Text.column fault.span.start text.toList + 1 ∧
            ∀ t ∈ root.nodes, t.isFault = true →
              line < Text.row t.span.start text.toList + 1 ∨
                line = Text.row t.span.start text.toList + 1 ∧
                  column ≤ Text.column t.span.start text.toList + 1 := by
  have hclean := Grammar.parseClean_of_parse hparse
  rw [syntaxError?, hflags.faultOf?_eq] at hclean
  have hfails : (∃ e, g.parseClean text file = .error e) ↔ ∃ t ∈ root.nodes, t.isFault = true := by
    rw [hclean, ← List.find?_isSome]
    cases root.nodes.find? Tree.isFault <;> simp
  refine ⟨hfails, fun keys => ?_, fun e he => ⟨fun keys => Grammar.check_eq_error_iff.2 he, ?_⟩⟩
  · simp only [Grammar.check_eq_error_iff, hfails]
  · rw [hclean] at he
    cases hfind : root.nodes.find? Tree.isFault with
    | none => simp [hfind] at he
    | some fault =>
      rw [hfind] at he
      refine ⟨fault, _, _, rfl, hflags.firstFault_eq.trans hfind, (Except.error.inj he).symm, rfl,
        rfl, fun t ht hfault => ?_⟩
      have hplace := Text.row_column_le (hspans.start_le_of_find? hfind ht hfault) text.toList
      omega

/-- A call without its closing parenthesis, then an error inside an error on the next line. -/
def brokenText : String := "f(;\n(("

def brokenTree : Tree :=
  .node ⟨"program", none, true, false, false, true, ⟨0, 6⟩⟩
    [.node ⟨"expression_statement", none, true, false, false, true, ⟨0, 3⟩⟩
      [.node ⟨"call_expression", none, true, false, false, true, ⟨0, 2⟩⟩
        [.clean "identifier" (some "function") true 0 1 [],
          .node ⟨"arguments", some "arguments", true, false, false, true, ⟨1, 2⟩⟩
            [.clean "(" none false 1 2 [],
              .node ⟨")", none, false, false, true, true, ⟨2, 2⟩⟩ []]],
        .clean ";" none false 2 3 []],
      .node ⟨"ERROR", none, true, true, false, true, ⟨4, 6⟩⟩
        [.clean "(" none false 4 5 [],
          .node ⟨"ERROR", none, true, true, false, true, ⟨5, 6⟩⟩ [.clean "(" none false 5 6 []]]]

theorem brokenTree_flagged : Flagged brokenTree := by
  unfold Flagged
  decide

theorem brokenTree_ranged : Ranged brokenTree where
  toNested := .of_nodes (by decide)
  proper := by decide

theorem parse_fails_at_first_fault_missing :
    Flagged brokenTree ∧ Ranged brokenTree ∧
      Grammar.parseClean ⟨fun _ _ => .ok brokenTree⟩ brokenText "a.ts" =
        .error (.syntaxError "a.ts" 1 3) ∧
      ∀ keys, Grammar.check ⟨fun _ _ => .ok brokenTree⟩ brokenText "a.ts" keys =
        .error (.syntaxError "a.ts" 1 3) := by
  obtain ⟨-, -, hplace⟩ := parse_fails_at_first_fault ⟨fun _ _ => .ok brokenTree⟩ brokenText "a.ts"
    brokenTree rfl brokenTree_flagged brokenTree_ranged
  exact ⟨brokenTree_flagged, brokenTree_ranged, rfl, (hplace _ rfl).1⟩

end NamingLint
