import NamingLint.Syntax.Tree

/-!
# Addresses in a syntax tree

A node is addressed by the way down to it: at each step, which child to take. Addresses compare as
words do. A node then comes before all nodes below it, and these before its later siblings, so that
the order of addresses is pre-order.
-/
namespace NamingLint.Syntax

abbrev Address := List Nat

namespace Tree

def at? : Tree → Address → Option Tree
  | t, [] => some t
  | t, i :: a => t.children[i]?.bind fun c => at? c a

@[simp] theorem at?_nil (t : Tree) : t.at? [] = some t := rfl

theorem at?_cons_eq_some {t d : Tree} {i : Nat} {a : Address} :
    t.at? (i :: a) = some d ↔ ∃ c, t.children[i]? = some c ∧ c.at? a = some d := by
  rw [at?, Option.bind_eq_some_iff]

theorem at?_append (t : Tree) (a b : Address) : t.at? (a ++ b) = (t.at? a).bind (·.at? b) := by
  induction a generalizing t with
  | nil => rfl
  | cons i a ih =>
    rw [List.cons_append, at?, at?, Option.bind_assoc]
    exact Option.bind_congr fun c _ => ih c

theorem at?_append_eq_some {t d : Tree} {a b : Address} :
    t.at? (a ++ b) = some d ↔ ∃ c, t.at? a = some c ∧ c.at? b = some d := by
  rw [at?_append, Option.bind_eq_some_iff]

theorem at?_singleton (t : Tree) (i : Nat) : t.at? [i] = t.children[i]? := by
  rw [at?]
  cases t.children[i]? with
  | none => rfl
  | some c => rfl

theorem at?_singleton_eq_some {t c : Tree} {i : Nat} :
    t.at? [i] = some c ↔ t.children[i]? = some c := by
  rw [at?_singleton]

theorem at?_concat_eq_some {t d : Tree} {a : Address} {i : Nat} :
    t.at? (a ++ [i]) = some d ↔ ∃ c, t.at? a = some c ∧ c.children[i]? = some d := by
  simp only [at?_append_eq_some, at?_singleton]

mutual
def nodes : Tree → List Tree
  | .node l cs => .node l cs :: nodesAmong cs

def nodesAmong : List Tree → List Tree
  | [] => []
  | t :: ts => nodes t ++ nodesAmong ts
end

theorem mem_nodesAmong {u : Tree} {ts : List Tree} :
    u ∈ nodesAmong ts ↔ ∃ t ∈ ts, u ∈ nodes t := by
  induction ts with
  | nil => simp [nodesAmong]
  | cons t ts ih => simp [nodesAmong, ih]

theorem nodes_eq (t : Tree) : t.nodes = t :: nodesAmong t.children := by
  cases t
  rw [nodes]
  rfl

theorem mem_nodes_of_at? {t u : Tree} {a : Address} (h : t.at? a = some u) : u ∈ t.nodes := by
  rw [nodes_eq]
  induction a generalizing t with
  | nil =>
    obtain rfl := Option.some.inj h
    exact List.mem_cons_self
  | cons i a ih =>
    obtain ⟨c, hc, hu⟩ := at?_cons_eq_some.1 h
    refine List.mem_cons_of_mem t (mem_nodesAmong.2 ⟨c, List.mem_of_getElem? hc, ?_⟩)
    rw [nodes_eq]
    exact ih hu

/-- A node that is neither an error nor holds one. -/
def clean (kind : String) (field : Option String) (named : Bool) (start stop : Nat)
    (children : List Tree) : Tree :=
  .node ⟨kind, field, named, false, false, false, ⟨start, stop⟩⟩ children

def placeOf? (t : Tree) (field : String) : Option Nat :=
  t.children.findIdx? (·.field == some field)

theorem childOf?_eq_some_iff {t c : Tree} {field : String} :
    t.childOf? field = some c ↔ ∃ i, t.placeOf? field = some i ∧ t.children[i]? = some c := by
  unfold childOf? placeOf?
  generalize t.children = ts
  induction ts with
  | nil => simp
  | cons d ts ih =>
    by_cases hd : (d.field == some field) = true
    · simp [hd, List.findIdx?_cons]
    · simp only [List.find?_cons, hd, ih, List.findIdx?_cons, Bool.false_eq_true, if_false,
        Option.map_eq_some_iff]
      constructor
      · rintro ⟨i, hi, hc⟩
        exact ⟨i + 1, ⟨i, hi, rfl⟩, hc⟩
      · rintro ⟨_, ⟨i, hi, rfl⟩, hc⟩
        exact ⟨i, hi, hc⟩

end Tree

/-- One address is at or below another, or they part at two different children of one node. -/
theorem Address.cases_of_lt {a b : Address} (h : a < b) :
    (∃ i r, b = a ++ i :: r) ∨
      ∃ p i j r s, a = p ++ i :: r ∧ b = p ++ j :: s ∧ i < j := by
  induction a generalizing b with
  | nil =>
    cases b with
    | nil => exact absurd h (List.not_lt_nil _)
    | cons j s => exact .inl ⟨j, s, rfl⟩
  | cons i a ih =>
    cases b with
    | nil => exact absurd h (List.not_lt_nil _)
    | cons j s =>
      rcases List.cons_lt_cons_iff.1 h with hij | ⟨rfl, hlt⟩
      · exact .inr ⟨[], i, j, a, s, rfl, rfl, hij⟩
      · rcases ih hlt with ⟨k, r, rfl⟩ | ⟨p, k, l, r, u, rfl, rfl, hkl⟩
        · exact .inl ⟨k, r, rfl⟩
        · exact .inr ⟨i :: p, k, l, r, u, rfl, rfl, hkl⟩

/-- One address is at or below the other, or they part below one node. -/
theorem Address.prefix_or_part (a b : Address) :
    a <+: b ∨ b <+: a ∨ ∃ p i j r s, a = p ++ i :: r ∧ b = p ++ j :: s ∧ i ≠ j := by
  induction a generalizing b with
  | nil => exact .inl List.nil_prefix
  | cons i a ih =>
    cases b with
    | nil => exact .inr (.inl List.nil_prefix)
    | cons j b =>
      by_cases hij : i = j
      · subst hij
        rcases ih b with hpre | hpre | ⟨p, k, l, r, s, rfl, rfl, hkl⟩
        · exact .inl (List.cons_prefix_cons.2 ⟨rfl, hpre⟩)
        · exact .inr (.inl (List.cons_prefix_cons.2 ⟨rfl, hpre⟩))
        · exact .inr (.inr ⟨i :: p, k, l, r, s, rfl, rfl, hkl⟩)
      · exact .inr (.inr ⟨[], i, j, a, b, rfl, rfl, hij⟩)

theorem Tree.eq_of_leaf {root t u : Tree} {a b : Address} (ht : root.at? a = some t)
    (hleaf : t.children = []) (hu : root.at? b = some u) (h : a <+: b) : a = b := by
  obtain ⟨r, rfl⟩ := h
  obtain ⟨t', ht', hr⟩ := at?_append_eq_some.1 hu
  obtain rfl := Option.some.inj (ht.symm.trans ht')
  cases r with
  | nil => rw [List.append_nil]
  | cons i r =>
    obtain ⟨c, hc, -⟩ := at?_cons_eq_some.1 hr
    simp [hleaf] at hc

end NamingLint.Syntax
