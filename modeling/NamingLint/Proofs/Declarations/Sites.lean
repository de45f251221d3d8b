import NamingLint.Proofs.Declarations.Relation

/-!
# The search lists the declarations by their addresses

The search is repeated with the address of every binding it makes. It finds exactly what the tree
declares, in the order of the addresses, so each declaration once.
-/
namespace NamingLint.Declarations
open Syntax

theorem bindingAt?_eq_some_iff {text : List Char} {name : Tree} {origin : Origin} {b : Binding} :
    bindingAt? text name origin = some b ↔ Names text name origin b := by
  unfold bindingAt?
  rw [Option.map_eq_some_iff]
  constructor
  · rintro ⟨chars, hs, rfl⟩
    exact ⟨by simpa using Text.slice?_eq_some_iff.1 hs, rfl, rfl, rfl⟩
  · rintro ⟨hs, ho, hoff, hpos⟩
    refine ⟨b.name.toList, Text.slice?_eq_some_iff.2 hs, ?_⟩
    rw [← hpos, ← hoff, ← ho, String.ofList_toList]

theorem declarator?_eq_some_iff {text : List Char} {t : Tree} {b : Binding} :
    declarator? text t = some b ↔ BindsConstant text t b := by
  unfold declarator? BindsConstant
  by_cases hk : t.named = true ∧ t.kind = "variable_declarator"
  · obtain ⟨hn, hk⟩ := hk
    cases hname : t.childOf? "name" with
    | none => simp [hn, hk]
    | some name =>
      cases hvalue : t.childOf? "value" with
      | none => simp [hn, hk]
      | some value =>
        by_cases hid : name.kind = "identifier"
        · simp [hn, hk, hid, bindingAt?_eq_some_iff]
        · simp [hn, hk, hid]
  · rw [if_neg (by simpa using hk)]
    simp only [reduceCtorEq, false_iff]
    exact fun h => hk ⟨h.1, h.2.1⟩

/-- The declarators of a statement that bind a name, with their addresses below the statement. -/
def declaratorsFrom (text : List Char) (i : Nat) : List Tree → List (Address × Binding)
  | [] => []
  | t :: ts =>
    ((declarator? text t).map fun b => ([i], b)).toList ++ declaratorsFrom text (i + 1) ts

theorem mem_toList_map_pair {found : Option Binding} {x a : Address} {b : Binding} :
    (a, b) ∈ (found.map fun b => (x, b)).toList ↔ a = x ∧ found = some b := by
  cases found with
  | none => simp
  | some b' => simp [eq_comm]

mutual
def sitesIn (text : List Char) (inHeader : Bool) : Tree → List (Address × Binding)
  | .node l cs =>
    match categorize inHeader (.node l cs) with
    | .classLike => []
    | .typeBody => []
    | .mutableStatement => []
    | .function name =>
      ((bindingAt? text name .function).map fun b => ([], b)).toList ++
        sitesAmong text (hasHeader l) 0 cs
    | .constStatement => declaratorsFrom text 0 cs
    | .other => sitesAmong text (hasHeader l) 0 cs

/-- The declarations of siblings, the first of which is child `i`. -/
def sitesAmong (text : List Char) (header : Bool) (i : Nat) :
    List Tree → List (Address × Binding)
  | [] => []
  | t :: ts =>
    let isHeader := header && t.field == headerField
    (if t.named then (sitesIn text isHeader t).map fun s => (i :: s.1, s.2) else []) ++
      sitesAmong text (header && !(t.field == headerField)) (i + 1) ts
end

theorem declaratorsFrom_bindings (text : List Char) (i : Nat) (ts : List Tree) :
    (declaratorsFrom text i ts).map Prod.snd = ts.filterMap (declarator? text) := by
  induction ts generalizing i with
  | nil => rfl
  | cons t ts ih =>
    rw [declaratorsFrom, List.map_append, ih, List.filterMap_cons]
    cases declarator? text t <;> rfl

mutual
theorem sitesIn_bindings (text : List Char) (inHeader : Bool) (t : Tree) :
    (sitesIn text inHeader t).map Prod.snd = ofTree text inHeader t := by
  match t with
  | .node l cs =>
    rw [sitesIn, ofTree]
    cases categorize inHeader (.node l cs) with
    | classLike => rfl
    | typeBody => rfl
    | mutableStatement => rfl
    | function name =>
      dsimp only
      rw [List.map_append, sitesAmong_bindings text _ 0 cs]
      cases bindingAt? text name .function <;> rfl
    | constStatement => exact declaratorsFrom_bindings text 0 cs
    | other => exact sitesAmong_bindings text _ 0 cs

theorem sitesAmong_bindings (text : List Char) (header : Bool) (i : Nat) (ts : List Tree) :
    (sitesAmong text header i ts).map Prod.snd = ofForest text header ts := by
  match ts with
  | [] => rfl
  | t :: ts =>
    rw [sitesAmong, ofForest, List.map_append, sitesAmong_bindings text _ (i + 1) ts]
    congr 1
    split
    · rw [List.map_map]
      exact sitesIn_bindings text _ t
    · rfl
end

theorem mem_declaratorsFrom {text : List Char} {i : Nat} {ts : List Tree} {a : Address}
    {b : Binding} : (a, b) ∈ declaratorsFrom text i ts ↔
      ∃ k t, a = [i + k] ∧ ts[k]? = some t ∧ BindsConstant text t b := by
  induction ts generalizing i with
  | nil => simp [declaratorsFrom]
  | cons t ts ih =>
    rw [declaratorsFrom, List.mem_append, mem_toList_map_pair, declarator?_eq_some_iff, ih]
    constructor
    · rintro (⟨rfl, hb⟩ | ⟨k, u, rfl, hu, hb⟩)
      · exact ⟨0, t, rfl, rfl, hb⟩
      · exact ⟨k + 1, u, by rw [Nat.add_assoc, Nat.add_comm 1], hu, hb⟩
    · rintro ⟨k, u, rfl, hu, hb⟩
      cases k with
      | zero =>
        obtain rfl : t = u := by simpa using hu
        exact .inl ⟨rfl, hb⟩
      | succ k => exact .inr ⟨k, u, by rw [Nat.add_assoc, Nat.add_comm 1], hu, hb⟩

/-- The first sibling in the header role is found by its place. -/
theorem mem_sitesAmong {text : List Char} {header : Bool} {i : Nat} {ts : List Tree}
    {a : Address} {b : Binding} : (a, b) ∈ sitesAmong text header i ts ↔
      ∃ k t r, a = (i + k) :: r ∧ ts[k]? = some t ∧ t.named = true ∧
        (r, b) ∈ sitesIn text (header && ts.findIdx? (·.field == headerField) == some k) t := by
  induction ts generalizing i header with
  | nil => simp [sitesAmong]
  | cons t ts ih =>
    have hfirst : (List.findIdx? (·.field == headerField) (t :: ts) == some 0) =
        (t.field == headerField) := by
      rw [List.findIdx?_cons]
      cases t.field == headerField <;> simp
    have hlater (k : Nat) : (header && List.findIdx? (·.field == headerField) (t :: ts) ==
        some (k + 1)) = ((header && !(t.field == headerField)) &&
          List.findIdx? (·.field == headerField) ts == some k) := by
      rw [List.findIdx?_cons]
      cases t.field == headerField with
      | true => simp
      | false => cases List.findIdx? (·.field == headerField) ts <;> simp
    have hhead : (a, b) ∈ (if t.named = true then
          (sitesIn text (header && t.field == headerField) t).map fun s => (i :: s.1, s.2)
        else []) ↔ ∃ r, a = i :: r ∧ t.named = true ∧
          (r, b) ∈ sitesIn text (header && t.field == headerField) t := by
      cases t.named with
      | false => simp
      | true =>
        simp only [if_true, List.mem_map, Prod.mk.injEq, Prod.exists, true_and]
        constructor
        · rintro ⟨r, _, hr, rfl, rfl⟩
          exact ⟨r, rfl, hr⟩
        · rintro ⟨r, rfl, hr⟩
          exact ⟨r, b, hr, rfl, rfl⟩
    rw [sitesAmong, List.mem_append, hhead, ih]
    constructor
    · rintro (⟨r, rfl, hn, hr⟩ | ⟨k, u, r, rfl, hu, hn, hr⟩)
      · exact ⟨0, t, r, rfl, rfl, hn, by rwa [hfirst]⟩
      · exact ⟨k + 1, u, r, by rw [Nat.add_assoc, Nat.add_comm 1], hu, hn, by rwa [hlater]⟩
    · rintro ⟨k, u, r, rfl, hu, hn, hr⟩
      cases k with
      | zero =>
        obtain rfl : t = u := by simpa using hu
        exact .inl ⟨r, rfl, hn, by rwa [hfirst] at hr⟩
      | succ k =>
        exact .inr ⟨k, u, r, by rw [Nat.add_assoc, Nat.add_comm 1], hu, hn, by rwa [hlater] at hr⟩

theorem declaratorsFrom_sorted (text : List Char) (i : Nat) (ts : List Tree) :
    (declaratorsFrom text i ts).Pairwise (·.1 < ·.1) := by
  induction ts generalizing i with
  | nil => exact List.Pairwise.nil
  | cons t ts ih =>
    rw [declaratorsFrom, List.pairwise_append]
    refine ⟨by cases declarator? text t <;> simp, ih (i + 1), ?_⟩
    rintro ⟨x, _⟩ hs ⟨a, b⟩ hab
    obtain ⟨k, _, rfl, -⟩ := mem_declaratorsFrom.1 hab
    obtain ⟨rfl, -⟩ := mem_toList_map_pair.1 hs
    exact List.cons_lt_cons_iff.2 (.inl (by omega))

mutual
theorem sitesIn_sorted (text : List Char) (inHeader : Bool) (t : Tree) :
    (sitesIn text inHeader t).Pairwise (·.1 < ·.1) := by
  match t with
  | .node l cs =>
    rw [sitesIn]
    cases categorize inHeader (.node l cs) with
    | classLike => exact List.Pairwise.nil
    | typeBody => exact List.Pairwise.nil
    | mutableStatement => exact List.Pairwise.nil
    | function name =>
      -- The function itself has the empty address, and all below it have longer ones.
      refine List.pairwise_append.2 ⟨by cases bindingAt? text name .function <;> simp,
        sitesAmong_sorted text _ 0 cs, ?_⟩
      rintro ⟨x, _⟩ hs ⟨a, b⟩ hab
      obtain ⟨k, _, r, rfl, -⟩ := mem_sitesAmong.1 hab
      obtain ⟨rfl, -⟩ := mem_toList_map_pair.1 hs
      exact List.nil_lt_cons _ _
    | constStatement => exact declaratorsFrom_sorted text 0 cs
    | other => exact sitesAmong_sorted text _ 0 cs

theorem sitesAmong_sorted (text : List Char) (header : Bool) (i : Nat) (ts : List Tree) :
    (sitesAmong text header i ts).Pairwise (·.1 < ·.1) := by
  match ts with
  | [] => exact List.Pairwise.nil
  | t :: ts =>
    rw [sitesAmong]
    refine List.pairwise_append.2 ⟨?_, sitesAmong_sorted text _ (i + 1) ts, ?_⟩
    · split
      · exact List.pairwise_map.2 ((sitesIn_sorted text _ t).imp fun hlt =>
          List.cons_lt_cons_iff.2 (.inr ⟨rfl, hlt⟩))
      · exact List.Pairwise.nil
    · rintro s hs ⟨a, b⟩ hab
      obtain ⟨k, _, r, rfl, -⟩ := mem_sitesAmong.1 hab
      split at hs
      · obtain ⟨u, -, rfl⟩ := List.mem_map.1 hs
        exact List.cons_lt_cons_iff.2 (.inl (by omega))
      · simp at hs
end

def sites (root : Tree) (text : List Char) : List (Address × Binding) :=
  sitesAmong text (hasHeader root.label) 0 root.children

theorem sitesIn_eq (text : List Char) (inHeader : Bool) (t : Tree) :
    sitesIn text inHeader t =
      match categorize inHeader t with
      | .classLike => []
      | .typeBody => []
      | .mutableStatement => []
      | .function name =>
        ((bindingAt? text name .function).map fun b => ([], b)).toList ++ sites t text
      | .constStatement => declaratorsFrom text 0 t.children
      | .other => sites t text := by
  obtain ⟨l, cs⟩ := t
  rw [sitesIn]
  rfl

theorem mem_sitesIn {text : List Char} {inHeader : Bool} {t : Tree} {a : Address} {b : Binding} :
    (a, b) ∈ sitesIn text inHeader t ↔ FoundIn text inHeader t ((a, b) ∈ sites t text) a b := by
  rw [sitesIn_eq, categorize_eq]
  by_cases hclosed : t.kind ∈ classKinds ∨ t.kind ∈ typeKinds
  · obtain ⟨hf, hs⟩ := not_mem_functionKinds_of_closed hclosed
    have hnone : ¬FoundIn text inHeader t ((a, b) ∈ sites t text) a b := by
      rintro (⟨-, h, -⟩ | ⟨_, _, -, h, -⟩ | ⟨h, -⟩)
      · exact hf h
      · exact hs h
      · exact h (hclosed.imp_right .inl)
    by_cases hclass : t.kind ∈ classKinds
    · simpa [hclass] using hnone
    · have htype : t.kind ∈ typeKinds := hclosed.resolve_left hclass
      simpa [hclass, htype] using hnone
  · obtain ⟨hclass, htype⟩ := not_or.1 hclosed
    rw [if_neg hclass, if_neg htype]
    by_cases hf : t.kind ∈ functionKinds
    · have hs := not_mem_statementKinds_of_function hf
      have hopen : ¬Stops inHeader t := by simp [Stops, hclass, htype, hs]
      cases hname : t.childOf? "name" with
      | none => simp [hf, hname, hs, hopen, FoundIn, BindsFunction]
      | some name =>
        have hself : (a, b) ∈ ((bindingAt? text name .function).map fun b => ([], b)).toList ↔
            a = [] ∧ Names text name .function b := by
          rw [mem_toList_map_pair, bindingAt?_eq_some_iff]
        simp [hf, hname, hs, hopen, FoundIn, BindsFunction, hself]
    · rw [if_neg hf]
      by_cases hs : t.kind ∈ statementKinds
      · cases inHeader with
        | true => simp [hs, hf, hclass, htype, FoundIn, BindsFunction, Stops]
        | false =>
          cases hconst : isConst t with
          | true =>
            simp [hs, hf, hconst, FoundIn, BindsFunction, Stops, mem_declaratorsFrom]
          | false => simp [hs, hf, hconst, FoundIn, BindsFunction, Stops]
      · simp [hs, hf, hclass, htype, FoundIn, BindsFunction, Stops]

/-- The sites of the search are the declarations. The induction is on the address: each step goes
from a node to one child, whatever the tree. -/
theorem mem_sites_iff {root : Tree} {text : List Char} {a : Address} {b : Binding} :
    (a, b) ∈ sites root text ↔ Declares root text a b := by
  induction a generalizing root with
  | nil => simp [sites, mem_sitesAmong, declares_nil]
  | cons i a ih =>
    rw [sites, mem_sitesAmong, declares_cons]
    constructor
    · rintro ⟨k, c, r, hx, hc, hn, hr⟩
      obtain ⟨rfl, rfl⟩ := List.cons.inj hx
      rw [Nat.zero_add]
      refine ⟨c, hc, hn, ?_⟩
      rw [← ih]
      exact mem_sitesIn.1 hr
    · rintro ⟨c, hc, hn, hfound⟩
      rw [← ih] at hfound
      exact ⟨i, c, a, by rw [Nat.zero_add], hc, hn, mem_sitesIn.2 hfound⟩

theorem sites_bindings (root : Tree) (text : List Char) :
    (sites root text).map Prod.snd = collect root text :=
  sitesAmong_bindings text _ 0 root.children

theorem sites_sorted (root : Tree) (text : List Char) :
    (sites root text).Pairwise (·.1 < ·.1) :=
  sitesAmong_sorted text _ 0 root.children

theorem exists_declares {root : Tree} {text : List Char} {b : Binding}
    (h : b ∈ collect root text) : ∃ a, Declares root text a b := by
  rw [← sites_bindings] at h
  obtain ⟨⟨a, _⟩, hs, rfl⟩ := List.mem_map.1 h
  exact ⟨a, mem_sites_iff.1 hs⟩

/-- The search of a tree gives every declaration, nothing else, each once, and in pre-order: the
bindings stand at increasing addresses. -/
theorem collect_enumerates_declarations (root : Tree) (text : List Char) :
    ∃ places : List Address, places.length = (collect root text).length ∧
      places.Pairwise (· < ·) ∧
      ∀ a b, (a, b) ∈ places.zip (collect root text) ↔ Declares root text a b := by
  refine ⟨(sites root text).map Prod.fst, ?_, List.pairwise_map.2 (sites_sorted root text), ?_⟩
  · rw [← sites_bindings, List.length_map, List.length_map]
  · intro a b
    rw [← sites_bindings, List.zip_map', ← mem_sites_iff]
    simp

end NamingLint.Declarations
