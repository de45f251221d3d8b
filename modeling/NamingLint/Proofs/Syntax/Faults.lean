import NamingLint.Proofs.Syntax.Geometry
import NamingLint.Syntax.Fault

/-!
# Faults of a flagged tree

A parser flags a node when the node or something below it is an error or missing. Where all flags
are right, a search that passes over unflagged nodes finds the same fault as one that looks at every
node in pre-order. Where the spans are in order too, pre-order is the order in which nodes start, so
that no fault starts before the one that is found.
-/
namespace NamingLint.Syntax

namespace Tree

theorem induction {P : Tree → Prop} (node : ∀ l cs, (∀ c ∈ cs, P c) → P (.node l cs))
    (t : Tree) : P t := by
  obtain ⟨l, cs⟩ := t
  exact node l cs fun c _ => induction node c
termination_by t

theorem nodesAmong_eq_flatMap (ts : List Tree) : nodesAmong ts = ts.flatMap nodes := by
  induction ts with
  | nil => rfl
  | cons t ts ih => rw [nodesAmong, List.flatMap_cons, ih]

theorem nodes_node (l : Label) (cs : List Tree) :
    (Tree.node l cs).nodes = .node l cs :: cs.flatMap nodes := by
  rw [nodes, nodesAmong_eq_flatMap]

theorem mem_nodes_self (t : Tree) : t ∈ t.nodes := by
  rw [nodes_eq]
  exact List.mem_cons_self

theorem mem_nodes_of_child {t c u : Tree} (hc : c ∈ t.children) (hu : u ∈ c.nodes) :
    u ∈ t.nodes := by
  rw [nodes_eq]
  exact List.mem_cons_of_mem t (mem_nodesAmong.2 ⟨c, hc, hu⟩)

theorem exists_address {t u : Tree} (h : u ∈ t.nodes) : ∃ a, t.at? a = some u := by
  induction t using Tree.induction with
  | node l cs ih =>
    rw [nodes_node, List.mem_cons, List.mem_flatMap] at h
    rcases h with rfl | ⟨c, hc, hu⟩
    · exact ⟨[], rfl⟩
    · obtain ⟨a, ha⟩ := ih c hc hu
      obtain ⟨i, hi⟩ := List.mem_iff_getElem?.1 hc
      exact ⟨i :: a, at?_cons_eq_some.2 ⟨c, hi, ha⟩⟩

end Tree

/-- Every node is flagged just when it is a fault or has a flagged child. -/
def Flagged (root : Tree) : Prop :=
  ∀ t ∈ root.nodes, t.hasError = true ↔ t.isFault = true ∨ ∃ c ∈ t.children, c.hasError = true

namespace Flagged
variable {root c : Tree}

theorem child (h : Flagged root) (hc : c ∈ root.children) : Flagged c :=
  fun t ht => h t (Tree.mem_nodes_of_child hc ht)

/-- A node is flagged just when there is a fault from it down. -/
theorem hasError_iff {t : Tree} (h : Flagged t) :
    t.hasError = true ↔ ∃ u ∈ t.nodes, u.isFault = true := by
  induction t using Tree.induction with
  | node l cs ih =>
    have hbelow : (∃ c ∈ cs, c.hasError = true) ↔
        ∃ u ∈ cs.flatMap Tree.nodes, u.isFault = true := by
      simp only [List.mem_flatMap]
      constructor
      · rintro ⟨c, hc, herror⟩
        obtain ⟨u, hu, hfault⟩ := (ih c hc (h.child hc)).1 herror
        exact ⟨u, ⟨c, hc, hu⟩, hfault⟩
      · rintro ⟨u, ⟨c, hc, hu⟩, hfault⟩
        exact ⟨c, hc, (ih c hc (h.child hc)).2 ⟨u, hu, hfault⟩⟩
    rw [h _ (Tree.mem_nodes_self _), Tree.children, hbelow, Tree.nodes_node]
    simp only [List.mem_cons, exists_eq_or_imp]

end Flagged

/-- Siblings are searched one after the other if each flag is as good as a search. -/
theorem firstFaultIn_eq {ts : List Tree}
    (h : ∀ t ∈ ts, (if t.hasError then firstFault t else none) = t.nodes.find? Tree.isFault) :
    firstFaultIn ts = (ts.flatMap Tree.nodes).find? Tree.isFault := by
  induction ts with
  | nil => rfl
  | cons t ts ih =>
    rw [firstFaultIn, List.flatMap_cons, List.find?_append, ← h t List.mem_cons_self,
      ih fun u hu => h u (List.mem_cons_of_mem t hu)]
    cases t.hasError with
    | false => rfl
    | true => cases firstFault t <;> rfl

/-- The search that passes over unflagged nodes misses nothing. -/
theorem Flagged.firstFault_eq {t : Tree} (h : Flagged t) :
    firstFault t = t.nodes.find? Tree.isFault := by
  induction t using Tree.induction with
  | node l cs ih =>
    have hchild : ∀ c ∈ cs, (if c.hasError then firstFault c else none) =
        c.nodes.find? Tree.isFault := by
      intro c hc
      have hflag := h.child hc
      by_cases herror : c.hasError = true
      · rw [if_pos herror, ih c hc hflag]
      · rw [if_neg herror, eq_comm, List.find?_eq_none]
        exact fun u hu hfault => herror (hflag.hasError_iff.2 ⟨u, hu, hfault⟩)
    rw [firstFault, Tree.nodes_node, List.find?_cons, ← firstFaultIn_eq hchild, Tree.isFault,
      Tree.label]
    cases l.isError || l.isMissing <;> rfl

/-- A tree whose spans are runs of bytes, nested as the nodes are. -/
structure Ranged (root : Tree) : Prop extends Nested root where
  proper : ∀ t ∈ root.nodes, t.span.start ≤ t.span.stop

namespace Ranged
variable {root c : Tree}

theorem child (h : Ranged root) (hc : c ∈ root.children) : Ranged c where
  toNested := by
    obtain ⟨i, hi⟩ := List.mem_iff_getElem?.1 hc
    exact h.toNested.child hi
  proper t ht := h.proper t (Tree.mem_nodes_of_child hc ht)

theorem within {t : Tree} (h : Ranged root) (ht : t ∈ root.nodes) :
    root.span.start ≤ t.span.start ∧ t.span.start ≤ root.span.stop := by
  obtain ⟨a, ha⟩ := Tree.exists_address ht
  have hin := h.toNested.within ha
  exact ⟨hin.1, Nat.le_trans (h.proper t ht) hin.2⟩

/-- Pre-order is the order in which nodes start. -/
theorem nodes_sorted {t : Tree} (h : Ranged t) :
    t.nodes.Pairwise (·.span.start ≤ ·.span.start) := by
  induction t using Tree.induction with
  | node l cs ih =>
    have hfirst : ∀ u ∈ cs.flatMap Tree.nodes, l.span.start ≤ u.span.start := by
      intro u hu
      have hmem : u ∈ (Tree.node l cs).nodes := by
        rw [Tree.nodes_node]
        exact List.mem_cons_of_mem _ hu
      exact (h.within hmem).1
    rw [Tree.nodes_node, List.pairwise_cons, List.pairwise_flatMap]
    refine ⟨hfirst, fun c hc => ih c hc (h.child hc), ?_⟩
    refine (h.ordered [] _ rfl).imp_of_mem fun {c d} hc hd hcd u hu v hv => ?_
    calc u.span.start ≤ c.span.stop := ((h.child hc).within hu).2
      _ ≤ d.span.start := hcd
      _ ≤ v.span.start := ((h.child hd).within hv).1

/-- No node with a property starts before the first one in pre-order. -/
theorem start_le_of_find? {p : Tree → Bool} {t u : Tree} (h : Ranged root)
    (ht : root.nodes.find? p = some t) (hu : u ∈ root.nodes) (hp : p u = true) :
    t.span.start ≤ u.span.start := by
  obtain ⟨-, before, after, hsplit, hbefore⟩ := List.find?_eq_some_iff_append.1 ht
  have hsorted := h.nodes_sorted
  rw [hsplit] at hu hsorted
  rcases List.mem_append.1 hu with hu | hu
  · have := hbefore u hu
    simp [hp] at this
  · rcases List.mem_cons.1 hu with rfl | hu
    · exact Nat.le_refl _
    · exact List.rel_of_pairwise_cons (List.pairwise_append.1 hsorted).2.1 hu

end Ranged
end NamingLint.Syntax
