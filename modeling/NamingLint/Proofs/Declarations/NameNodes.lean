import NamingLint.Proofs.Check.DocumentOrder

/-!
# The nodes that spell names

Where names are leaves, the nodes that spell different declarations do not overlap, and no number in
the initial value of a constant overlaps a declared name: the search never goes into initial values.
-/
namespace NamingLint.Declarations
open Syntax

/-- A tree with nested spans whose names are identifiers without inner nodes, and not empty. -/
structure LeafNames (root : Tree) : Prop extends Nested root where
  leaf : ∀ a t, root.at? a = some t → ∀ name, IsName t name →
    name.children = [] ∧ name.span.start < name.span.stop ∧ name.kind = "identifier"

/-- Names are leaves if all nodes in the role of a name in a function or declarator are. -/
theorem LeafNames.of_nodes {root : Tree} (hnested : Nested root) (h : ∀ t ∈ root.nodes,
    t.kind ∈ functionKinds ∨ t.kind = "variable_declarator" → ∀ c ∈ t.children,
      c.field = some "name" →
        c.children.isEmpty = true ∧ c.span.start < c.span.stop ∧ c.kind = "identifier") :
    LeafNames root where
  toNested := hnested
  leaf a t ht name hname := by
    have hfield : name.field = some "name" := by simpa using List.find?_some hname.1
    obtain ⟨hleaf, hlt, hkind⟩ := h t (Tree.mem_nodes_of_at? ht) (hname.2.imp_right And.left) name
      (List.mem_of_find?_eq_some hname.1) hfield
    exact ⟨List.isEmpty_iff.1 hleaf, hlt, hkind⟩

/-- The node `name` spells a declaration at an address that the search comes to. -/
structure NameSite (root : Tree) (a : Address) (name : Tree) : Prop where
  isName : ∃ t, root.at? a = some t ∧ IsName t name
  passed : ∀ p i j r, a = p ++ i :: j :: r → p ≠ [] → ¬Closed root p

section
variable {root name name' n : Tree} {text : List Char} {a a' s : Address} {b : Binding}

theorem Declares.exists_nameSite (h : Declares root text a b) :
    ∃ name, NameSite root a name ∧ Names text name b.origin b := by
  obtain ⟨t, name, ht, hname, hspell⟩ := h.exists_name
  refine ⟨name, ⟨⟨t, ht, hname⟩, ?_⟩, hspell⟩
  rintro p i j r rfl hp
  exact h.not_closed hp

theorem NameSite.exists_address (h : NameSite root a name) :
    ∃ k, root.at? (a ++ [k]) = some name := by
  obtain ⟨t, ht, hname⟩ := h.isName
  obtain ⟨k, -, hk⟩ := hname.exists_place
  exact ⟨k, Tree.at?_concat_eq_some.2 ⟨t, ht, hk⟩⟩

theorem NameSite.unique (h : NameSite root a name) (h' : NameSite root a name') : name = name' := by
  obtain ⟨t, ht, hname⟩ := h.isName
  obtain ⟨t', ht', hname'⟩ := h'.isName
  obtain rfl := Option.some.inj (ht.symm.trans ht')
  exact Option.some.inj (hname.1.symm.trans hname'.1)

theorem LeafNames.of_site (h : LeafNames root) (hs : NameSite root a name) :
    name.children = [] ∧ name.span.start < name.span.stop ∧ name.kind = "identifier" := by
  obtain ⟨t, ht, hname⟩ := hs.isName
  exact h.leaf a t ht name hname

theorem LeafNames.apart_of_ne (h : LeafNames root) (hs : NameSite root a name)
    (hs' : NameSite root a' name') (hne : a ≠ a') :
    name.span.stop ≤ name'.span.start ∨ name'.span.stop ≤ name.span.start := by
  obtain ⟨k, hk⟩ := hs.exists_address
  obtain ⟨k', hk'⟩ := hs'.exists_address
  refine h.apart hk hk' (fun hpre => hne ?_) fun hpre => hne ?_
  · exact List.append_inj_left' (Tree.eq_of_leaf hk (h.of_site hs).1 hk' hpre) rfl
  · exact (List.append_inj_left' (Tree.eq_of_leaf hk' (h.of_site hs').1 hk hpre) rfl).symm

/-- A node that is not above a declaration and is not its name does not overlap the name. -/
theorem LeafNames.apart_of_not_above (h : LeafNames root) (hs : NameSite root a name) {x : Address}
    (hn : root.at? x = some n) (habove : ¬x <+: a) (hne : n ≠ name) :
    n.span.stop ≤ name.span.start ∨ name.span.stop ≤ n.span.start := by
  obtain ⟨k, hk⟩ := hs.exists_address
  have hdiff : x ≠ a ++ [k] := by
    rintro rfl
    exact hne (Option.some.inj (hn.symm.trans hk))
  refine h.apart hn hk (fun hpre => ?_) fun hpre => ?_
  · rcases List.prefix_concat_iff.1 hpre with heq | hpre
    · exact hdiff heq
    · exact habove hpre
  · exact hdiff (Tree.eq_of_leaf hk (h.of_site hs).1 hn hpre).symm

/-- What is inside a closed node, at least two steps down, is not above a declaration. -/
theorem NameSite.not_above (hs : NameSite root a name) {i j : Nat} {r : Address}
    (hclosed : Closed root s) (hne : s ≠ []) : ¬s ++ i :: j :: r <+: a := by
  rintro ⟨q, hq⟩
  refine hs.passed s i j (r ++ q) ?_ hne hclosed
  rw [← hq, List.append_assoc, List.cons_append, List.cons_append]

/-- A number inside a closed node, at least two steps down, does not overlap a declared name. -/
theorem LeafNames.apart_of_number (h : LeafNames root) (hs : NameSite root a name) {i j : Nat}
    {r : Address} (hclosed : Closed root s) (hne : s ≠ [])
    (hn : root.at? (s ++ i :: j :: r) = some n) (hkind : n.kind = "number") :
    n.span.stop ≤ name.span.start ∨ name.span.stop ≤ n.span.start := by
  refine h.apart_of_not_above hs hn (hs.not_above hclosed hne) ?_
  rintro rfl
  rw [(h.of_site hs).2.2] at hkind
  exact absurd hkind (by decide)

end
end NamingLint.Declarations
