import NamingLint.Proofs.Syntax.Address

/-!
# The spans of a tree

In a tree that a parser made of a text, the span of a node lies inside that of its parent, and
siblings stand one behind the other. Nodes on different branches then do not overlap, and stand in
the order of their addresses.
-/
namespace NamingLint.Syntax

structure Nested (root : Tree) : Prop where
  inside : ∀ a t, root.at? a = some t → ∀ c ∈ t.children,
    t.span.start ≤ c.span.start ∧ c.span.stop ≤ t.span.stop
  ordered : ∀ a t, root.at? a = some t → t.children.Pairwise (·.span.stop ≤ ·.span.start)

namespace Nested
variable {root t u : Tree} {a r : Address}

/-- Spans are nested if they are so from each node to the next. -/
theorem of_nodes (h : ∀ t ∈ root.nodes,
    (∀ c ∈ t.children, t.span.start ≤ c.span.start ∧ c.span.stop ≤ t.span.stop) ∧
      t.children.Pairwise (·.span.stop ≤ ·.span.start)) : Nested root where
  inside _ t ht := (h t (Tree.mem_nodes_of_at? ht)).1
  ordered _ t ht := (h t (Tree.mem_nodes_of_at? ht)).2

theorem subtree (h : Nested root) (ht : root.at? a = some t) : Nested t where
  inside r u hu := h.inside (a ++ r) u (Tree.at?_append_eq_some.2 ⟨t, ht, hu⟩)
  ordered r u hu := h.ordered (a ++ r) u (Tree.at?_append_eq_some.2 ⟨t, ht, hu⟩)

theorem child (h : Nested root) {i : Nat} (hc : root.children[i]? = some t) : Nested t :=
  h.subtree (Tree.at?_singleton_eq_some.2 hc)

theorem within (h : Nested root) (ht : root.at? a = some t) :
    root.span.start ≤ t.span.start ∧ t.span.stop ≤ root.span.stop := by
  induction a generalizing root with
  | nil =>
    obtain rfl := Option.some.inj ht
    exact ⟨Nat.le_refl _, Nat.le_refl _⟩
  | cons i a ih =>
    obtain ⟨c, hc, hct⟩ := Tree.at?_cons_eq_some.1 ht
    have hstep := h.inside [] root rfl c (List.mem_of_getElem? hc)
    have hrest := ih (h.child hc) hct
    exact ⟨Nat.le_trans hstep.1 hrest.1, Nat.le_trans hrest.2 hstep.2⟩

theorem siblings (h : Nested root) (ht : root.at? a = some t) {i j : Nat} (hij : i < j)
    {c d : Tree} (hc : t.children[i]? = some c) (hd : t.children[j]? = some d) :
    c.span.stop ≤ d.span.start := by
  obtain ⟨hi, rfl⟩ := List.getElem?_eq_some_iff.1 hc
  obtain ⟨hj, rfl⟩ := List.getElem?_eq_some_iff.1 hd
  exact List.pairwise_iff_getElem.1 (h.ordered a t ht) i j hi hj hij

/-- Of two nodes below different siblings, the one below the earlier sibling ends first. -/
theorem branches (h : Nested root) {i j : Nat} (hij : i < j) {s : Address}
    (ht : root.at? (a ++ i :: r) = some t) (hu : root.at? (a ++ j :: s) = some u) :
    t.span.stop ≤ u.span.start := by
  obtain ⟨p, hp, ht⟩ := Tree.at?_append_eq_some.1 ht
  obtain ⟨p', hp', hu⟩ := Tree.at?_append_eq_some.1 hu
  obtain rfl : p = p' := Option.some.inj (hp.symm.trans hp')
  obtain ⟨c, hc, ht⟩ := Tree.at?_cons_eq_some.1 ht
  obtain ⟨d, hd, hu⟩ := Tree.at?_cons_eq_some.1 hu
  have hnest := h.subtree hp
  calc t.span.stop ≤ c.span.stop := ((hnest.child hc).within ht).2
    _ ≤ d.span.start := h.siblings hp hij hc hd
    _ ≤ u.span.start := ((hnest.child hd).within hu).1

/-- Two nodes of which neither is above the other do not overlap. -/
theorem apart (h : Nested root) {b : Address} (ht : root.at? a = some t) (hu : root.at? b = some u)
    (hab : ¬a <+: b) (hba : ¬b <+: a) :
    t.span.stop ≤ u.span.start ∨ u.span.stop ≤ t.span.start := by
  rcases Address.prefix_or_part a b with hpre | hpre | ⟨p, i, j, r, s, rfl, rfl, hij⟩
  · exact absurd hpre hab
  · exact absurd hpre hba
  · rcases Nat.lt_or_gt_of_ne hij with hlt | hlt
    · exact .inl (h.branches hlt ht hu)
    · exact .inr (h.branches hlt hu ht)

end Nested
end NamingLint.Syntax
