import NamingLint.Proofs.Check.DocumentOrder
import NamingLint.Proofs.Check.SyntaxErrors
import NamingLint.Proofs.Syntax.Shift
import NamingLint.Proofs.Text.Prefixes

/-!
# Checking a text behind a prefix

A prefix of whole lines is put before a text, and the tree of the text is moved behind it. The
search then gives the same bindings, moved by the bytes and the lines of the prefix, and the check
the same violations. This holds of every tree: whatever the search reads in the text, names, the
last letters of numbers and positions, is moved along.
-/
namespace NamingLint
open Declarations Syntax

def Binding.shift (bytes lines : Nat) (b : Binding) : Binding :=
  { b with offset := b.offset + bytes, line := b.line + lines }

def Violation.shift (bytes lines : Nat) (v : Violation) : Violation :=
  { v with offset := v.offset + bytes, line := v.line + lines }

theorem Binding.check_shift (b : Binding) (bytes lines : Nat) (keys : RuleKeys) :
    (b.shift bytes lines).check keys = (b.check keys).map (·.shift bytes lines) := by
  have hsubject : (b.shift bytes lines).subject? = b.subject? := rfl
  have hname : (b.shift bytes lines).name = b.name := rfl
  unfold check
  rw [hsubject]
  cases b.subject? with
  | none => rfl
  | some subject =>
    dsimp only
    rw [hname]
    split
    · rfl
    · rfl

namespace Declarations
variable {p s : List Char}

theorem isBigInt_shift (p s : List Char) (number : Tree) :
    isBigInt (p ++ s) (number.shift (Text.byteLength p)) = isBigInt s number := by
  unfold isBigInt
  by_cases hlt : number.span.start < number.span.stop
  · have hends := Text.endsWithAt_behind p s 'n' (Nat.lt_of_le_of_lt (Nat.zero_le _) hlt)
    simp [Span.shift, hends]
  · simp [Span.shift, hlt]

theorem isPlainNumber_shift (p s : List Char) (t : Tree) :
    isPlainNumber (p ++ s) (t.shift (Text.byteLength p)) = isPlainNumber s t := by
  simp [isPlainNumber, isBigInt_shift]

theorem initializer_shift (p s : List Char) (value : Tree) :
    initializer (p ++ s) (value.shift (Text.byteLength p)) = initializer s value := by
  simp only [initializer, Tree.kind_shift, Tree.named_shift, Tree.childOf?_shift,
    Tree.children_shift, isBigInt_shift, isPlainNumber_shift, Option.any_map, List.any_map,
    Function.comp_def]

theorem bindingAt?_shift (h : Text.StartsLine p s) (name : Tree) (origin : Origin) :
    bindingAt? (p ++ s) (name.shift (Text.byteLength p)) origin =
      (bindingAt? s name origin).map (·.shift (Text.byteLength p) (Text.lineBreaks p)) := by
  unfold bindingAt?
  rw [Tree.span_shift, Span.shift, Text.slice?_behind]
  cases hslice : Text.slice? name.span.start name.span.stop s with
  | none => rfl
  | some chars =>
    have hbound := (Text.slice?_eq_some_iff.1 hslice).isBoundary_start
    simp [Text.position_behind h hbound, Binding.shift]

theorem declarator?_shift (h : Text.StartsLine p s) (t : Tree) :
    declarator? (p ++ s) (t.shift (Text.byteLength p)) =
      (declarator? s t).map (·.shift (Text.byteLength p) (Text.lineBreaks p)) := by
  unfold declarator?
  simp only [Tree.named_shift, Tree.kind_shift, Tree.childOf?_shift]
  split
  · cases t.childOf? "name" with
    | none => rfl
    | some name =>
      cases t.childOf? "value" with
      | none => rfl
      | some value =>
        simp only [Option.map_some, Tree.kind_shift, initializer_shift, bindingAt?_shift h]
        split
        · rfl
        · rfl
  · rfl

mutual
theorem ofTree_shift (h : Text.StartsLine p s) (inHeader : Bool) (t : Tree) :
    ofTree (p ++ s) inHeader (t.shift (Text.byteLength p)) =
      (ofTree s inHeader t).map (·.shift (Text.byteLength p) (Text.lineBreaks p)) := by
  match t with
  | .node l cs =>
    have hcategory := categorize_shift inHeader (Text.byteLength p) (.node l cs)
    rw [Tree.shift, Tree.shiftAll_eq_map] at hcategory ⊢
    rw [ofTree, ofTree, hcategory]
    cases categorize inHeader (.node l cs) with
    | classLike => rfl
    | typeBody => rfl
    | mutableStatement => rfl
    | function name =>
      simp only [Category.shift]
      rw [List.map_append, ← ofForest_shift h _ cs, bindingAt?_shift h]
      cases bindingAt? s name .function <;> rfl
    | constStatement =>
      simp only [Category.shift]
      rw [List.filterMap_map, List.map_filterMap]
      congr 1
      funext t
      exact declarator?_shift h t
    | other => exact ofForest_shift h _ cs

theorem ofForest_shift (h : Text.StartsLine p s) (header : Bool) (ts : List Tree) :
    ofForest (p ++ s) header (ts.map (Tree.shift (Text.byteLength p))) =
      (ofForest s header ts).map (·.shift (Text.byteLength p) (Text.lineBreaks p)) := by
  match ts with
  | [] => rfl
  | t :: ts =>
    rw [List.map_cons, ofForest, ofForest, Tree.field_shift, Tree.named_shift, List.map_append,
      ofForest_shift h _ ts]
    congr 1
    split
    · exact ofTree_shift h _ t
    · rfl
end

theorem collect_shift (h : Text.StartsLine p s) (root : Tree) :
    collect (root.shift (Text.byteLength p)) (p ++ s) =
      (collect root s).map (·.shift (Text.byteLength p) (Text.lineBreaks p)) := by
  rw [collect, Tree.children_shift, Tree.label_shift]
  exact ofForest_shift h _ root.children

end Declarations

/-- The violations of a file are those of its declarations, unless the tree is flagged. -/
theorem Grammar.check_toOption {g : Grammar} {text file : String} {root : Tree}
    (h : g.parse (Dialect.ofFileName file) text = .ok root) (keys : RuleKeys) :
    (g.check text file keys).toOption =
      if root.hasError then none
      else some ((collect root text.toList).filterMap (·.check keys)) := by
  rw [check, bindings, parseClean_of_parse h, syntaxError?, faultOf?]
  cases root.hasError with
  | true => rfl
  | false => rfl

/-- A text is put behind a prefix that is empty or ends with a line break, and its tree is moved
along. The search gives the same bindings, with as many bytes and line breaks added to offsets and
lines as the prefix has. A check of the longer text gives violations just when one of the text does,
and these are the same, moved in the same way. -/
theorem check_behind_prefix (before text : String)
    (h : Text.StartsLine before.toList text.toList) (root : Tree) :
    let bytes := Text.byteLength before.toList
    let lines := Text.lineBreaks before.toList
    collect (root.shift bytes) (before ++ text).toList =
        (collect root text.toList).map (·.shift bytes lines) ∧
      ∀ (g : Grammar) (file : String),
        g.parse (Dialect.ofFileName file) text = .ok root →
        g.parse (Dialect.ofFileName file) (before ++ text) = .ok (root.shift bytes) →
        ∀ keys, (g.check (before ++ text) file keys).toOption =
          (g.check text file keys).toOption.map (·.map (·.shift bytes lines)) := by
  intro bytes lines
  have hcollect : collect (root.shift bytes) (before ++ text).toList =
      (collect root text.toList).map (·.shift bytes lines) := by
    rw [String.toList_append]
    exact collect_shift h root
  refine ⟨hcollect, fun g file hparse hparse' keys => ?_⟩
  rw [Grammar.check_toOption hparse, Grammar.check_toOption hparse', hcollect, Tree.hasError_shift]
  split
  · rfl
  · rw [Option.map_some, List.filterMap_map, List.map_filterMap]
    congr 2
    funext b
    exact b.check_shift bytes lines keys

/-- A comment that ends with a return and its feed, and an empty line that ends with a return. -/
def commentLines : String := "// é\r\n\r"

/-- Reads a function and the same function behind the comment. -/
def shiftedGrammar : Grammar where
  parse _ text := .ok (if text = nestedText then nestedTree else nestedTree.shift 8)

theorem check_behind_prefix_comment :
    Text.StartsLine commentLines.toList nestedText.toList ∧
      Text.byteLength commentLines.toList = 8 ∧ Text.lineBreaks commentLines.toList = 2 ∧
      (shiftedGrammar.check (commentLines ++ nestedText) "a.ts"
        ({} : NamingSettings).ruleKeys).toOption =
        some [⟨"Foo", 2, 9, 12, .function, "camelCase", 17⟩,
          ⟨"bad_a", 3, 6, 11, .constant, "UPPER_SNAKE_CASE", 31⟩,
          ⟨"bad_b", 3, 17, 22, .constant, "UPPER_SNAKE_CASE", 42⟩] := by
  have hstarts : Text.StartsLine commentLines.toList nestedText.toList :=
    .inr ⟨"// é\r\n".toList, '\r', by decide, by decide, fun _ => by decide⟩
  obtain ⟨-, hcheck⟩ := check_behind_prefix commentLines nestedText hstarts nestedTree
  exact ⟨hstarts, rfl, rfl, (hcheck shiftedGrammar "a.ts" rfl rfl _).trans rfl⟩

end NamingLint
