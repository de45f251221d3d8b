import NamingLint.Declarations
import NamingLint.Proofs.Syntax.Address

/-!
# Which nodes a search comes to

A search of declarations goes down from the root through named nodes and turns back at nodes that
are closed: classes, enums and interfaces, and statements that declare variables. What stands in
the header of a loop is no statement. Whether a node is reached is said here by its address alone,
and then taken apart at the first step of the address.
-/
namespace NamingLint.Syntax

def classKinds : List String :=
  ["class_declaration", "abstract_class_declaration", "class"]

def typeKinds : List String := ["enum_declaration", "interface_declaration"]

def functionKinds : List String :=
  ["function_declaration", "generator_function_declaration", "function_signature"]

def statementKinds : List String := ["lexical_declaration", "variable_declaration"]

theorem not_mem_functionKinds_of_closed {k : String} (h : k ∈ classKinds ∨ k ∈ typeKinds) :
    k ∉ functionKinds ∧ k ∉ statementKinds := by
  have hall : ∀ k ∈ classKinds ++ typeKinds, k ∉ functionKinds ∧ k ∉ statementKinds := by decide
  exact hall k (List.mem_append.2 h)

theorem not_mem_statementKinds_of_function {k : String} (h : k ∈ functionKinds) :
    k ∉ statementKinds := by
  have hall : ∀ k ∈ functionKinds, k ∉ statementKinds := by decide
  exact hall k h

/-- The node at an address is the first initializer of a loop. -/
def InHeader (root : Tree) (a : Address) : Prop :=
  ∃ p i loop, a = p ++ [i] ∧ root.at? p = some loop ∧ loop.kind = "for_statement" ∧
    loop.placeOf? "initializer" = some i

/-- The node `t` at an address is a statement that declares variables. -/
def IsStatement (root : Tree) (a : Address) (t : Tree) : Prop :=
  t.kind ∈ statementKinds ∧ ¬InHeader root a

/-- The node at an address is one that a search does not pass through. -/
def Closed (root : Tree) (a : Address) : Prop :=
  ∃ t, root.at? a = some t ∧ (t.kind ∈ classKinds ∨ t.kind ∈ typeKinds ∨ IsStatement root a t)

/-- The node at an address is named and so are all its ancestors below the root, of which none is
closed. -/
structure Reached (root : Tree) (a : Address) : Prop where
  named : ∀ p, p ≠ [] → p <+: a → ∃ t, root.at? p = some t ∧ t.named = true
  passed : ∀ p, p ≠ [] → p <+: a → p ≠ a → ¬Closed root p

/-- Whether a child stands in the header of this node. -/
def isHeaderOf (t : Tree) (i : Nat) : Bool :=
  t.kind == "for_statement" && t.placeOf? "initializer" == some i

/-- Whether a search does not pass through a node, which may stand in the header of a loop. -/
def Stops (inHeader : Bool) (t : Tree) : Prop :=
  t.kind ∈ classKinds ∨ t.kind ∈ typeKinds ∨ t.kind ∈ statementKinds ∧ inHeader = false

theorem inHeader_singleton {root : Tree} {i : Nat} :
    InHeader root [i] ↔ isHeaderOf root i = true := by
  rw [isHeaderOf, Bool.and_eq_true, beq_iff_eq, beq_iff_eq]
  constructor
  · rintro ⟨p, j, loop, hp, hat, hkind, hplace⟩
    obtain ⟨rfl, rfl⟩ : p = [] ∧ i = j := by
      cases p with
      | nil => simpa using hp
      | cons k p => simp at hp
    obtain rfl : root = loop := by simpa using hat
    exact ⟨hkind, hplace⟩
  · rintro ⟨hkind, hplace⟩
    exact ⟨[], i, root, rfl, rfl, hkind, hplace⟩

section Step
variable {root c : Tree} {i : Nat} {a : Address}

/-- Below a child, being in a header is a matter of that child alone. -/
theorem inHeader_cons (hc : root.children[i]? = some c) (ha : a ≠ []) :
    InHeader root (i :: a) ↔ InHeader c a := by
  constructor
  · rintro ⟨p, j, loop, hp, hat, hloop⟩
    cases p with
    | nil => exact absurd (by simpa using (List.cons.inj hp).2) ha
    | cons k p =>
      obtain ⟨rfl, rfl⟩ := List.cons.inj hp
      obtain ⟨c', hc', hat'⟩ := Tree.at?_cons_eq_some.1 hat
      obtain rfl : c = c' := Option.some.inj (hc.symm.trans hc')
      exact ⟨p, j, loop, rfl, hat', hloop⟩
  · rintro ⟨p, j, loop, rfl, hat, hloop⟩
    exact ⟨i :: p, j, loop, rfl, Tree.at?_cons_eq_some.2 ⟨c, hc, hat⟩, hloop⟩

theorem isStatement_cons (hc : root.children[i]? = some c) (ha : a ≠ []) {t : Tree} :
    IsStatement root (i :: a) t ↔ IsStatement c a t := by
  rw [IsStatement, IsStatement, inHeader_cons hc ha]

theorem at?_cons_of_child (hc : root.children[i]? = some c) :
    root.at? (i :: a) = c.at? a := by
  rw [Tree.at?, hc, Option.bind_some]

theorem closed_cons (hc : root.children[i]? = some c) (ha : a ≠ []) :
    Closed root (i :: a) ↔ Closed c a := by
  simp only [Closed, at?_cons_of_child hc, isStatement_cons hc ha]

theorem isStatement_singleton {t : Tree} :
    IsStatement root [i] t ↔ t.kind ∈ statementKinds ∧ isHeaderOf root i = false := by
  rw [IsStatement, inHeader_singleton, Bool.not_eq_true]

theorem closed_singleton (hc : root.children[i]? = some c) :
    Closed root [i] ↔ Stops (isHeaderOf root i) c := by
  simp only [Closed, at?_cons_of_child hc, Tree.at?_nil, isStatement_singleton, Option.some.injEq,
    exists_eq_left', Stops]

theorem exists_tail_of_prefix_cons {p : Address} (hp : p ≠ []) (h : p <+: i :: a) :
    ∃ q, p = i :: q ∧ q <+: a := by
  cases p with
  | nil => exact absurd rfl hp
  | cons j q =>
    obtain ⟨rfl, hq⟩ := List.cons_prefix_cons.1 h
    exact ⟨q, rfl, hq⟩

theorem reached_cons :
    Reached root (i :: a) ↔ ∃ c, root.children[i]? = some c ∧ c.named = true ∧
      (a ≠ [] → ¬Stops (isHeaderOf root i) c) ∧ Reached c a := by
  constructor
  · intro h
    obtain ⟨c, hc, hnamed⟩ := h.named [i] (List.cons_ne_nil _ _) (by simp)
    rw [Tree.at?_singleton] at hc
    refine ⟨c, hc, hnamed, fun ha => ?_, fun p hp hpa => ?_, fun p hp hpa hne => ?_⟩
    · have hpass := h.passed [i] (List.cons_ne_nil _ _) (by simp) (by simpa using Ne.symm ha)
      rwa [closed_singleton hc] at hpass
    · have hcons := h.named (i :: p) (List.cons_ne_nil _ _) (List.cons_prefix_cons.2 ⟨rfl, hpa⟩)
      rwa [at?_cons_of_child hc] at hcons
    · have hcons := h.passed (i :: p) (List.cons_ne_nil _ _) (List.cons_prefix_cons.2 ⟨rfl, hpa⟩)
        (by simpa using hne)
      rwa [closed_cons hc hp] at hcons
  · rintro ⟨c, hc, hnamed, hstop, h⟩
    constructor
    · intro p hp hpa
      obtain ⟨q, rfl, hq⟩ := exists_tail_of_prefix_cons hp hpa
      rw [at?_cons_of_child hc]
      by_cases hnil : q = []
      · subst hnil
        exact ⟨c, rfl, hnamed⟩
      · exact h.named q hnil hq
    · intro p hp hpa hne
      obtain ⟨q, rfl, hq⟩ := exists_tail_of_prefix_cons hp hpa
      have hqa : q ≠ a := fun he => hne (by rw [he])
      by_cases hnil : q = []
      · subst hnil
        rw [closed_singleton hc]
        exact hstop (Ne.symm hqa)
      · rw [closed_cons hc hnil]
        exact h.passed q hnil hq hqa

end Step

theorem reached_nil (root : Tree) : Reached root [] where
  named _ hp hnil := absurd (List.prefix_nil.1 hnil) hp
  passed _ hp hnil := absurd (List.prefix_nil.1 hnil) hp

theorem categorize_eq (inHeader : Bool) (t : Tree) : categorize inHeader t =
    if t.kind ∈ classKinds then .classLike
    else if t.kind ∈ typeKinds then .typeBody
    else if t.kind ∈ functionKinds then (t.childOf? "name").elim .other .function
    else if t.kind ∈ statementKinds then
      if inHeader then .other else if isConst t then .constStatement else .mutableStatement
    else .other := by
  have hnamed : categorize.named t = (t.childOf? "name").elim .other .function := by
    unfold categorize.named
    cases t.childOf? "name" <;> rfl
  unfold categorize categorize.statement
  split <;> simp_all [classKinds, typeKinds, functionKinds, statementKinds]

end NamingLint.Syntax
