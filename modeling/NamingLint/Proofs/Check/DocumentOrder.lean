import NamingLint.Proofs.Check.Coordinates
import NamingLint.Proofs.Syntax.Geometry

/-!
# Violations in document order

The search lists declarations by their addresses. In a tree that is well formed over its text the
names then follow each other in the text: names on different branches because the branches do, and
the name of a function because it stands before all that is declared inside the function.
-/
namespace NamingLint
open Declarations Syntax

namespace Declarations

/-- A tree as a parser makes it of a text. Names are leaves, not empty and on one line, and the
name of a function stands before every part of the function that declares something. -/
structure WellFormed (root : Tree) (text : List Char) : Prop extends Nested root where
  names : ∀ a t, root.at? a = some t → ∀ name, IsName t name →
    name.children = [] ∧ name.span.start < name.span.stop ∧
      ∀ s, Text.Spans text name.span.start name.span.stop s → ∀ c ∈ s, c ∉ Text.lineTerminators
  nameFirst : ∀ a t, root.at? a = some t → t.kind ∈ functionKinds →
    ∀ k, t.placeOf? "name" = some k → ∀ i r b, Declares root text (a ++ i :: r) b → k ≤ i

section
variable {root t name : Tree} {text : List Char} {a a' p r : Address} {b b' : Binding} {i j : Nat}

theorem IsName.exists_place (h : IsName t name) :
    ∃ k, t.placeOf? "name" = some k ∧ t.children[k]? = some name :=
  Tree.childOf?_eq_some_iff.1 h.1

theorem not_isName_of_leaf (h : t.children = []) : ¬IsName t name := by
  intro hn
  obtain ⟨k, -, hk⟩ := hn.exists_place
  simp [h] at hk

/-- What is declared two steps or more below a node has passed through that node. -/
theorem Declares.not_closed (h : Declares root text (p ++ i :: j :: r) b) (hp : p ≠ []) :
    ¬Closed root p := by
  generalize hx : p ++ i :: j :: r = x at h
  cases h with
  | function below reached =>
    refine reached.passed p hp ⟨i :: j :: r, hx⟩ ?_
    rintro rfl
    simp at hx
  | @constant q k _ _ _ below reached =>
    have hprefix : p ++ [i] <+: q ++ [k] := ⟨j :: r, by rw [List.append_assoc]; exact hx⟩
    rcases List.prefix_concat_iff.1 hprefix with heq | hpre
    · have hlength := congrArg List.length hx
      rw [← heq] at hlength
      simp at hlength
    · refine reached.passed p hp ((List.prefix_append p [i]).trans hpre) ?_
      rintro rfl
      have hlength := hpre.length_le
      rw [List.length_append, List.length_singleton] at hlength
      omega

theorem Declares.named (h : Declares root text (p ++ i :: r) b) :
    ∃ c, root.at? (p ++ [i]) = some c ∧ c.named = true := by
  generalize hx : p ++ i :: r = x at h
  have hprefix : p ++ [i] <+: x := ⟨r, by rw [List.append_assoc]; exact hx⟩
  have hne : p ++ [i] ≠ [] := List.append_ne_nil_of_right_ne_nil _ (List.cons_ne_nil _ _)
  cases h with
  | function below reached => exact reached.named (p ++ [i]) hne hprefix
  | @constant q k _ d _ below reached found statement const child binds =>
    rcases List.prefix_concat_iff.1 hprefix with heq | hpre
    · rw [heq]
      exact ⟨d, Tree.at?_concat_eq_some.2 ⟨_, found, child⟩, binds.1⟩
    · exact reached.named (p ++ [i]) hne hpre

/-- Where only keywords stand before the names of functions, the names come first. -/
theorem nameFirst_of_keywords (h : ∀ t ∈ root.nodes, t.kind ∈ functionKinds →
      ∀ c ∈ t.children.take ((t.placeOf? "name").getD 0), c.named = false)
    (ht : root.at? a = some t) (hkind : t.kind ∈ functionKinds) {k : Nat}
    (hk : t.placeOf? "name" = some k) (hdecl : Declares root text (a ++ i :: r) b) : k ≤ i := by
  obtain ⟨c, hc, hnamed⟩ := hdecl.named
  obtain ⟨t', ht', hc⟩ := Tree.at?_concat_eq_some.1 hc
  obtain rfl := Option.some.inj (ht.symm.trans ht')
  refine Nat.le_of_not_lt fun hlt => ?_
  have hmem : c ∈ t.children.take k := List.mem_of_getElem? (i := i) (by
    rw [List.getElem?_take_of_lt hlt, hc])
  have hfalse := h t (Tree.mem_nodes_of_at? ht) hkind c (by rwa [hk])
  rw [hnamed] at hfalse
  exact Bool.noConfusion hfalse

/-- A declaration above another is a function. -/
theorem Declares.isFunction_of_below (h : Declares root text a b)
    (h' : Declares root text (a ++ i :: r) b') (ht : root.at? a = some t) :
    t.kind ∈ functionKinds := by
  cases h with
  | function below reached found binds =>
    obtain rfl := Option.some.inj (ht.symm.trans found)
    exact binds.1
  | @constant q k s _ _ below reached found statement =>
    rw [List.append_assoc, List.singleton_append] at h'
    exact absurd ⟨s, found, .inr (.inr statement)⟩ (h'.not_closed below)

/-- The names of two declarations stand in the order of the addresses and do not overlap. -/
theorem WellFormed.names_apart (hwf : WellFormed root text) (h : Declares root text a b)
    (h' : Declares root text a' b') (hlt : a < a') :
    b.offset + Text.byteLength b.name.toList ≤ b'.offset := by
  obtain ⟨t, name, ht, hname, hspell⟩ := h.exists_name
  obtain ⟨t', name', ht', hname', hspell'⟩ := h'.exists_name
  obtain ⟨k, hk, hchild⟩ := hname.exists_place
  obtain ⟨k', hk', hchild'⟩ := hname'.exists_place
  have hat : root.at? (a ++ [k]) = some name := Tree.at?_concat_eq_some.2 ⟨t, ht, hchild⟩
  have hat' : root.at? (a' ++ [k']) = some name' := Tree.at?_concat_eq_some.2 ⟨t', ht', hchild'⟩
  rw [hspell.offset_eq, ← hspell.spelled.stop_eq, hspell'.offset_eq]
  rcases Address.cases_of_lt hlt with ⟨i, r, rfl⟩ | ⟨p, i, j, r, s, rfl, rfl, hij⟩
  · have hle := hwf.nameFirst a t ht (h.isFunction_of_below h' ht) k hk i r b' h'
    rcases Nat.eq_or_lt_of_le hle with rfl | hki
    · -- Below the name itself nothing is declared, since it is a leaf.
      have hleaf := (hwf.names a t ht name hname).1
      rw [List.append_cons, Tree.at?_append_eq_some] at ht'
      obtain ⟨n, hn, ht'⟩ := ht'
      obtain rfl := Option.some.inj (hat.symm.trans hn)
      cases r with
      | nil =>
        obtain rfl := Option.some.inj ht'
        exact absurd hname' (not_isName_of_leaf hleaf)
      | cons l r =>
        obtain ⟨c, hc, -⟩ := Tree.at?_cons_eq_some.1 ht'
        simp [hleaf] at hc
    · rw [List.append_assoc, List.cons_append] at hat'
      exact hwf.branches hki hat hat'
  · rw [List.append_assoc, List.cons_append] at hat hat'
    exact hwf.branches hij hat hat'

theorem WellFormed.name_spelled (hwf : WellFormed root text) (h : Declares root text a b) :
    0 < Text.byteLength b.name.toList ∧ ∀ c ∈ b.name.toList, c ∉ Text.lineTerminators := by
  obtain ⟨t, name, ht, hname, hspell⟩ := h.exists_name
  obtain ⟨-, hlt, hline⟩ := hwf.names a t ht name hname
  have hstop := hspell.spelled.stop_eq
  exact ⟨by omega, hline _ hspell.spelled⟩

end
end Declarations

/-- The violations of a file whose tree is well formed stand in document order without overlap, by
bytes and as an editor counts, so no name is reported twice. -/
theorem check_in_document_order (g : Grammar) (text file : String) (root : Tree)
    (hparse : g.parse (Dialect.ofFileName file) text = .ok root)
    (hwf : WellFormed root text.toList) (keys : RuleKeys) (found : List Violation)
    (h : g.check text file keys = .ok found) :
    found.Pairwise fun v w =>
      v.offset + Text.byteLength v.name.toList ≤ w.offset ∧ v.offset < w.offset ∧
        (⟨v.line, v.endCharacter⟩ : Position) ≤ ⟨w.line, w.character⟩ := by
  obtain ⟨root', hclean, rfl⟩ := Grammar.check_eq_ok_iff.1 h
  obtain rfl : root = root' :=
    Except.ok.inj (hparse.symm.trans (Grammar.parse_of_parseClean hclean))
  rw [← sites_bindings, List.filterMap_map]
  refine List.pairwise_filterMap.2 ((sites_sorted root text.toList).imp_of_mem ?_)
  rintro ⟨a, b⟩ ⟨a', b'⟩ hs hs' hlt v hv w hw
  have hdecl := mem_sites_iff.1 hs
  have hdecl' := mem_sites_iff.1 hs'
  obtain ⟨_, _, -, -, hspell⟩ := hdecl.exists_name
  obtain ⟨_, _, -, -, hspell'⟩ := hdecl'.exists_name
  obtain ⟨subject, -, -, rfl⟩ := Binding.check_eq_some hv
  obtain ⟨subject', -, -, rfl⟩ := Binding.check_eq_some hw
  have hplaced := hspell.placed subject (keys.keyFor subject)
  have hplaced' := hspell'.placed subject' (keys.keyFor subject')
  obtain ⟨hpos, hline⟩ := hwf.name_spelled hdecl
  have hle := hwf.names_apart hdecl hdecl' hlt
  refine ⟨hle, Nat.lt_of_lt_of_le (Nat.lt_add_of_pos_right hpos) hle, ?_⟩
  rw [← hplaced.stop hline, ← hplaced'.start]
  exact Text.LineTable.position_le hplaced.spans.isBoundary_stop hplaced'.spans.isBoundary_start hle

/-- A function with two constants inside it, behind a lone carriage return. -/
def nestedText : String := "function Foo() \x7b\rconst bad_a = 1, bad_b = 2;\x7d"

def nestedTree : Tree :=
  .clean "program" none true 0 45
    [.clean "function_declaration" none true 0 45
      [.clean "function" none false 0 8 [],
        .clean "identifier" (some "name") true 9 12 [],
        .clean "formal_parameters" (some "parameters") true 12 14 [],
        .clean "statement_block" (some "body") true 15 45
          [.clean "lexical_declaration" none true 17 44
            [.clean "const" (some "kind") false 17 22 [],
              .clean "variable_declarator" none true 23 32
                [.clean "identifier" (some "name") true 23 28 [],
                  .clean "number" (some "value") true 31 32 []],
              .clean "variable_declarator" none true 34 43
                [.clean "identifier" (some "name") true 34 39 [],
                  .clean "number" (some "value") true 42 43 []]]]]]

def nestedViolations : List Violation :=
  [⟨"Foo", 0, 9, 12, .function, "camelCase", 9⟩,
    ⟨"bad_a", 1, 6, 11, .constant, "UPPER_SNAKE_CASE", 23⟩,
    ⟨"bad_b", 1, 17, 22, .constant, "UPPER_SNAKE_CASE", 34⟩]

theorem nestedTree_wellFormed : WellFormed nestedTree nestedText.toList where
  toNested := .of_nodes (by decide)
  names _ _ ht name hname := by
    have hall : ∀ t ∈ nestedTree.nodes, ∀ c ∈ t.children, c.field = some "name" →
        c.children.isEmpty = true ∧ c.span.start < c.span.stop ∧
          (Text.slice? c.span.start c.span.stop nestedText.toList).all
            (·.all (· ∉ Text.lineTerminators)) = true := by decide
    have hfield : name.field = some "name" := by simpa using List.find?_some hname.1
    obtain ⟨hleaf, hlt, hline⟩ := hall _ (Tree.mem_nodes_of_at? ht) name
      (List.mem_of_find?_eq_some hname.1) hfield
    refine ⟨List.isEmpty_iff.1 hleaf, hlt, fun s hs => ?_⟩
    rw [Text.slice?_eq_some_iff.2 hs] at hline
    simpa using hline
  nameFirst _ _ ht hkind _ hk _ _ _ hdecl := by
    have hall : ∀ t ∈ nestedTree.nodes, t.kind ∈ functionKinds →
      ∀ c ∈ t.children.take ((t.placeOf? "name").getD 0), c.named = false := by decide
    exact nameFirst_of_keywords hall ht hkind hk hdecl

theorem check_in_document_order_nested :
    WellFormed nestedTree nestedText.toList ∧
      Grammar.check ⟨fun _ _ => .ok nestedTree⟩ nestedText "a.ts" ({} : NamingSettings).ruleKeys =
        .ok nestedViolations ∧
      nestedViolations.Pairwise fun v w =>
        v.offset + Text.byteLength v.name.toList ≤ w.offset ∧ v.offset < w.offset ∧
          (⟨v.line, v.endCharacter⟩ : Position) ≤ ⟨w.line, w.character⟩ :=
  ⟨nestedTree_wellFormed, rfl,
    check_in_document_order ⟨fun _ _ => .ok nestedTree⟩ nestedText "a.ts" nestedTree rfl
      nestedTree_wellFormed ({} : NamingSettings).ruleKeys nestedViolations rfl⟩

end NamingLint
