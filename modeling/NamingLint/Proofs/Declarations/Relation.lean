import NamingLint.Proofs.Syntax.Reach
import NamingLint.Proofs.Text.Slices

/-!
# What a tree declares, and where

A binding is declared at the address of a function or of a declarator of a constant statement, if
the function or the statement is reached. This is said without the search, by conditions on
addresses, and then taken apart at the first step of an address.
-/
namespace NamingLint.Declarations
open Syntax

/-- A binding has its name, offset and position from a node that spells the name in the text. -/
structure Names (text : List Char) (name : Tree) (origin : Origin) (b : Binding) : Prop where
  spelled : Text.Spans text name.span.start name.span.stop b.name.toList
  origin_eq : b.origin = origin
  offset_eq : b.offset = name.span.start
  position_eq : (⟨b.line, b.character⟩ : Position) =
    (Text.LineTable.ofText text).position text name.span.start

/-- A function binds its name. -/
def BindsFunction (text : List Char) (t : Tree) (b : Binding) : Prop :=
  t.kind ∈ functionKinds ∧ ∃ name, t.childOf? "name" = some name ∧ Names text name .function b

/-- A declarator with a plain name and an initial value binds the name. -/
def BindsConstant (text : List Char) (t : Tree) (b : Binding) : Prop :=
  t.named = true ∧ t.kind = "variable_declarator" ∧
    ∃ name value, t.childOf? "name" = some name ∧ name.kind = "identifier" ∧
      t.childOf? "value" = some value ∧ Names text name (.const (initializer text value)) b

/-- The binding `b` is declared at an address. -/
inductive Declares (root : Tree) (text : List Char) : Address → Binding → Prop
  | function {a : Address} {t : Tree} {b : Binding} (below : a ≠ []) (reached : Reached root a)
      (found : root.at? a = some t) (binds : BindsFunction text t b) : Declares root text a b
  | constant {a : Address} {i : Nat} {t d : Tree} {b : Binding} (below : a ≠ [])
      (reached : Reached root a) (found : root.at? a = some t) (statement : IsStatement root a t)
      (const : isConst t = true) (child : t.children[i]? = some d)
      (binds : BindsConstant text d b) : Declares root text (a ++ [i]) b

/-- How a declaration at an address below a node is found: it is the node itself, or one of its
declarators, or it is `deeper`. -/
def FoundIn (text : List Char) (inHeader : Bool) (t : Tree) (deeper : Prop) (a : Address)
    (b : Binding) : Prop :=
  (a = [] ∧ BindsFunction text t b) ∨
  (∃ i d, a = [i] ∧ t.kind ∈ statementKinds ∧ inHeader = false ∧ isConst t = true ∧
    t.children[i]? = some d ∧ BindsConstant text d b) ∨
  ¬Stops inHeader t ∧ deeper

theorem declares_nil {root : Tree} {text : List Char} {b : Binding} :
    ¬Declares root text [] b := by
  intro h
  generalize hx : [] = x at h
  cases h with
  | function below => exact below hx.symm
  | constant => exact absurd hx.symm (List.append_ne_nil_of_right_ne_nil _ (List.cons_ne_nil _ _))

/-- The first step to a declaration. -/
theorem declares_cons {root : Tree} {text : List Char} {i : Nat} {a : Address} {b : Binding} :
    Declares root text (i :: a) b ↔ ∃ c, root.children[i]? = some c ∧ c.named = true ∧
      FoundIn text (isHeaderOf root i) c (Declares c text a b) a b := by
  constructor
  · intro h
    generalize hx : i :: a = x at h
    cases h with
    | function below reached found binds =>
      subst hx
      obtain ⟨c, hc, hn, hstop, hr⟩ := reached_cons.1 reached
      rw [at?_cons_of_child hc] at found
      refine ⟨c, hc, hn, ?_⟩
      by_cases ha : a = []
      · subst ha
        obtain rfl := Option.some.inj found
        exact .inl ⟨rfl, binds⟩
      · exact .inr (.inr ⟨hstop ha, .function ha hr found binds⟩)
    | @constant p j t d _ below reached found statement const child binds =>
      obtain ⟨k, p, rfl⟩ := List.exists_cons_of_ne_nil below
      obtain ⟨rfl, rfl⟩ := List.cons.inj hx
      obtain ⟨c, hc, hn, hstop, hr⟩ := reached_cons.1 reached
      rw [at?_cons_of_child hc] at found
      refine ⟨c, hc, hn, ?_⟩
      by_cases hp : p = []
      · subst hp
        obtain rfl := Option.some.inj found
        obtain ⟨hkind, hheader⟩ := isStatement_singleton.1 statement
        exact .inr (.inl ⟨j, d, rfl, hkind, hheader, const, child, binds⟩)
      · rw [isStatement_cons hc hp] at statement
        exact .inr (.inr ⟨hstop hp, .constant hp hr found statement const child binds⟩)
  · rintro ⟨c, hc, hn, (⟨rfl, binds⟩ | ⟨j, d, rfl, hkind, hheader, const, child, binds⟩ |
      ⟨hopen, h⟩)⟩
    · exact .function (List.cons_ne_nil _ _)
        (reached_cons.2 ⟨c, hc, hn, fun h => absurd rfl h, reached_nil c⟩)
        (Tree.at?_singleton_eq_some.2 hc) binds
    · exact .constant (List.cons_ne_nil i [])
        (reached_cons.2 ⟨c, hc, hn, fun h => absurd rfl h, reached_nil c⟩)
        (Tree.at?_singleton_eq_some.2 hc) (isStatement_singleton.2 ⟨hkind, hheader⟩) const child
        binds
    · cases h with
      | function below reached found binds =>
        exact .function (List.cons_ne_nil _ _)
          (reached_cons.2 ⟨c, hc, hn, fun _ => hopen, reached⟩)
          ((at?_cons_of_child hc).trans found) binds
      | @constant p j _ _ _ below reached found statement const child binds =>
        exact .constant (List.cons_ne_nil i p)
          (reached_cons.2 ⟨c, hc, hn, fun _ => hopen, reached⟩)
          ((at?_cons_of_child hc).trans found) ((isStatement_cons hc below).2 statement) const child
          binds

/-- The node `name` spells what the node `t` declares. -/
def IsName (t name : Tree) : Prop :=
  t.childOf? "name" = some name ∧
    (t.kind ∈ functionKinds ∨ t.kind = "variable_declarator" ∧ name.kind = "identifier")

theorem Declares.exists_name {root : Tree} {text : List Char} {a : Address} {b : Binding}
    (h : Declares root text a b) :
    ∃ t name, root.at? a = some t ∧ IsName t name ∧ Names text name b.origin b := by
  cases h with
  | function below reached found binds =>
    obtain ⟨hkind, name, hname, hspell⟩ := binds
    exact ⟨_, name, found, ⟨hname, .inl hkind⟩, hspell.origin_eq ▸ hspell⟩
  | constant below reached found statement const child binds =>
    obtain ⟨-, hkind, name, value, hname, hid, -, hspell⟩ := binds
    refine ⟨_, name, ?_, ⟨hname, .inr ⟨hkind, hid⟩⟩, hspell.origin_eq ▸ hspell⟩
    exact Tree.at?_concat_eq_some.2 ⟨_, found, child⟩

end NamingLint.Declarations
