import NamingLint.Proofs.Declarations.NameNodes

/-!
# Stretches of text that no name is taken from

The search turns back at classes, enums, interfaces and statements of variables, and does not look
into the initial values of constants. That is a matter of nodes. In a well formed tree it is one of
bytes as well: no declared name stands anywhere inside such a node, wherever the node is, even where
the search would not come to it.
-/
namespace NamingLint
open Syntax

def Syntax.Span.Holds (s : Span) (offset : Nat) : Prop :=
  s.start ≤ offset ∧ offset < s.stop

namespace Declarations

/-- The node `t` at an address is a class, an enum, an interface or a statement that declares
variables but no constants. -/
def Skipped (root : Tree) (a : Address) (t : Tree) : Prop :=
  t.kind ∈ classKinds ∨ t.kind ∈ typeKinds ∨ IsStatement root a t ∧ isConst t = false

/-- The spans that bar the search: those of skipped nodes and those of the initial values in
constant statements. -/
inductive Barred (root : Tree) : Span → Prop
  | skipped {a : Address} {t : Tree} (below : a ≠ []) (found : root.at? a = some t)
      (skipped : Skipped root a t) : Barred root t.span
  | value {a : Address} {t d value : Tree} (below : a ≠ []) (found : root.at? a = some t)
      (statement : IsStatement root a t) (const : isConst t = true) (declarator : d ∈ t.children)
      (child : d.childOf? "value" = some value) : Barred root value.span

section
variable {root t name : Tree} {text : List Char} {a p : Address} {b : Binding}

theorem Skipped.closed (h : Skipped root a t) (ht : root.at? a = some t) : Closed root a :=
  ⟨t, ht, h.imp_right (Or.imp_right And.left)⟩

theorem Skipped.kind_mem (h : Skipped root a t) :
    t.kind ∈ classKinds ++ typeKinds ++ statementKinds := by
  rcases h with hclass | htype | ⟨⟨hkind, -⟩, -⟩
  · simp [hclass]
  · simp [htype]
  · simp [hkind]

theorem Skipped.kind_ne (h : Skipped root a t) :
    t.kind ∉ functionKinds ∧ t.kind ≠ "variable_declarator" ∧ t.kind ≠ "identifier" := by
  have hall : ∀ k ∈ classKinds ++ typeKinds ++ statementKinds,
      k ∉ functionKinds ∧ k ≠ "variable_declarator" ∧ k ≠ "identifier" := by decide
  exact hall t.kind h.kind_mem

theorem Skipped.not_const (h : Skipped root a t) (hs : IsStatement root a t) :
    isConst t = false := by
  rcases h with hclass | htype | ⟨-, hconst⟩
  · exact absurd hs.1 (not_mem_functionKinds_of_closed (.inl hclass)).2
  · exact absurd hs.1 (not_mem_functionKinds_of_closed (.inr htype)).2
  · exact hconst

theorem Declares.not_skipped (h : Declares root text a b) (hp : p ≠ []) (hpre : p <+: a)
    (ht : root.at? p = some t) : ¬Skipped root p t := by
  intro hskip
  have hclosed := hskip.closed ht
  cases h with
  | @function a u _ below reached found binds =>
    by_cases hpa : p = a
    · subst hpa
      obtain rfl := Option.some.inj (ht.symm.trans found)
      exact hskip.kind_ne.1 binds.1
    · exact reached.passed p hp hpre hpa hclosed
  | @constant q i u d _ below reached found statement const child binds =>
    rcases List.prefix_concat_iff.1 hpre with rfl | hpre
    · have hd : root.at? (q ++ [i]) = some d := Tree.at?_concat_eq_some.2 ⟨u, found, child⟩
      obtain rfl := Option.some.inj (ht.symm.trans hd)
      exact hskip.kind_ne.2.1 binds.2.1
    · by_cases hpq : p = q
      · subst hpq
        obtain rfl := Option.some.inj (ht.symm.trans found)
        rw [hskip.not_const statement] at const
        exact Bool.noConfusion const
      · exact reached.passed p hp hpre hpq hclosed

/-- The name of a declaration does not overlap a span that bars the search. -/
theorem LeafNames.apart_of_barred (hwf : LeafNames root) (h : Declares root text a b)
    (hs : NameSite root a name) {s : Span} (hbar : Barred root s) :
    s.stop ≤ name.span.start ∨ name.span.stop ≤ s.start := by
  cases hbar with
  | @skipped p t below found hskip =>
    refine hwf.apart_of_not_above hs found (fun hpre => h.not_skipped below hpre found hskip) ?_
    rintro rfl
    exact hskip.kind_ne.2.2 (hwf.of_site hs).2.2
  | @value p t d value below found statement const declarator child =>
    obtain ⟨i, hi⟩ := List.mem_iff_getElem?.1 declarator
    obtain ⟨j, -, hj⟩ := Tree.childOf?_eq_some_iff.1 child
    have hclosed : Closed root p := ⟨t, found, .inr (.inr statement)⟩
    have hvalue : root.at? (p ++ [i, j]) = some value := by
      rw [List.append_cons]
      exact Tree.at?_concat_eq_some.2 ⟨d, Tree.at?_concat_eq_some.2 ⟨t, found, hi⟩, hj⟩
    refine hwf.apart_of_not_above hs hvalue (hs.not_above hclosed below) ?_
    -- A name has another role in its declaration than an initial value.
    rintro rfl
    obtain ⟨u, -, hname⟩ := hs.isName
    have hfield : value.field = some "value" := by simpa using List.find?_some child
    have hrole : value.field = some "name" := by simpa using List.find?_some hname.1
    rw [hfield] at hrole
    exact absurd hrole (by decide)

end

/-- In a tree with nested spans whose names are leaves, no declared name begins inside a class, an
enum, an interface or a statement of variables below the root, nor inside the initial value of a
constant, wherever that node is in the tree. -/
theorem collect_outside_barred (root : Tree) (text : List Char) (hwf : LeafNames root) (b : Binding)
    (hb : b ∈ collect root text) (s : Span) (hs : Barred root s) : ¬s.Holds b.offset := by
  obtain ⟨a, hdecl⟩ := exists_declares hb
  obtain ⟨name, hsite, hspell⟩ := hdecl.exists_nameSite
  have hlt := (hwf.of_site hsite).2.1
  have hapart := hwf.apart_of_barred hdecl hsite hs
  rw [Span.Holds, hspell.offset_eq]
  omega

/-- A function inside a method of a class, and one inside the value of a constant. -/
def enclosedText : String :=
  "class A\x7bm()\x7bfunction B()\x7b\x7d\x7d\x7dconst f_=()=>\x7bfunction C()\x7b\x7d\x7d;"

def enclosedFunction (start : Nat) : Tree :=
  .clean "function_declaration" none true start (start + 14)
    [.clean "function" none false start (start + 8) [],
      .clean "identifier" (some "name") true (start + 9) (start + 10) [],
      .clean "formal_parameters" (some "parameters") true (start + 10) (start + 12) [],
      .clean "statement_block" (some "body") true (start + 12) (start + 14) []]

def enclosingClass : Tree :=
  .clean "class_declaration" none true 0 28
    [.clean "class" none false 0 5 [],
      .clean "type_identifier" (some "name") true 6 7 [],
      .clean "class_body" (some "body") true 7 28
        [.clean "method_definition" none true 8 27
          [.clean "property_identifier" (some "name") true 8 9 [],
            .clean "formal_parameters" (some "parameters") true 9 11 [],
            .clean "statement_block" (some "body") true 11 27 [enclosedFunction 12]]]]

def enclosingValue : Tree :=
  .clean "arrow_function" (some "value") true 37 57
    [.clean "formal_parameters" (some "parameters") true 37 39 [],
      .clean "statement_block" (some "body") true 41 57 [enclosedFunction 42]]

def enclosingDeclarator : Tree :=
  .clean "variable_declarator" none true 34 57
    [.clean "identifier" (some "name") true 34 36 [], enclosingValue]

def enclosingConstant : Tree :=
  .clean "lexical_declaration" none true 28 58
    [.clean "const" (some "kind") false 28 33 [], enclosingDeclarator]

def enclosedTree : Tree :=
  .clean "program" none true 0 58 [enclosingClass, enclosingConstant]

theorem enclosedTree_leafNames : LeafNames enclosedTree :=
  .of_nodes (.of_nodes (by decide)) (by decide)

theorem collect_outside_barred_enclosed :
    LeafNames enclosedTree ∧
      collect enclosedTree enclosedText.toList = [⟨"f_", .const .functionLike, 0, 34, 34⟩] ∧
      Barred enclosedTree enclosingClass.span ∧ Barred enclosedTree enclosingValue.span ∧
      ¬enclosingClass.span.Holds 34 ∧ ¬enclosingValue.span.Holds 34 := by
  have hclass : Barred enclosedTree enclosingClass.span :=
    .skipped (a := [0]) (List.cons_ne_nil _ _) rfl (.inl (by decide))
  have hstatement : IsStatement enclosedTree [1] enclosingConstant :=
    isStatement_singleton.2 (by decide)
  have hvalue : Barred enclosedTree enclosingValue.span :=
    .value (d := enclosingDeclarator) (List.cons_ne_nil _ _) rfl hstatement rfl
      (List.mem_of_getElem? (i := 1) rfl) rfl
  have houtside := collect_outside_barred enclosedTree enclosedText.toList enclosedTree_leafNames
    ⟨"f_", .const .functionLike, 0, 34, 34⟩ (List.mem_singleton.2 rfl)
  exact ⟨enclosedTree_leafNames, rfl, hclass, hvalue, houtside _ hclass, houtside _ hvalue⟩

end Declarations
end NamingLint
