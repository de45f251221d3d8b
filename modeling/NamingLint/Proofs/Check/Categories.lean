import NamingLint.Proofs.Check.DocumentOrder

/-!
# The two categories of names are checked apart

Constants and functions have a rule key each. An unknown key passes every name, so it turns the
check of its category off. What is then found in the other category is what is found there with both
keys, and the two findings, merged by the positions of the declarations, are the whole result.
-/
namespace NamingLint

namespace RuleKeys

/-- The key for one subject, with the key `u` for the other one. -/
def only (keys : RuleKeys) (u : String) : Subject → RuleKeys
  | .constant => ⟨keys.constantCase, u⟩
  | .function => ⟨u, keys.functionCase⟩

theorem keyFor_only (keys : RuleKeys) (u : String) (kept subject : Subject) :
    (keys.only u kept).keyFor subject = if subject = kept then keys.keyFor subject else u := by
  cases kept <;> cases subject <;> rfl

end RuleKeys

theorem followsRule_of_unknown {u : String} (hu : Rule.ofKey? u = none) (name : String) :
    followsRule name u = true := by
  simp [followsRule, hu]

namespace Binding

/-- With an unknown key for the other subject, a name is judged as before or not at all. -/
theorem check_only (b : Binding) (keys : RuleKeys) {u : String} (hu : Rule.ofKey? u = none)
    (kept : Subject) :
    b.check (keys.only u kept) = (b.check keys).filter (·.subject = kept) := by
  unfold check
  cases b.subject? with
  | none => rfl
  | some subject =>
    by_cases hs : subject = kept
    · subst hs
      cases hf : followsRule b.name (keys.keyFor subject) <;>
        simp [RuleKeys.keyFor_only, hf, violationOf, Option.filter]
    · cases hf : followsRule b.name (keys.keyFor subject) <;>
        simp [RuleKeys.keyFor_only, hs, hf, followsRule_of_unknown hu, violationOf, Option.filter]

theorem rule_of_check {b : Binding} {keys : RuleKeys} {v : Violation}
    (h : b.check keys = some v) :
    v.rule = keys.keyFor v.subject ∧ Rule.ofKey? v.rule ≠ none := by
  obtain ⟨subject, -, hbroken, rfl⟩ := check_eq_some h
  refine ⟨rfl, fun hu => ?_⟩
  have hpasses : followsRule b.name (keys.keyFor subject) = true := followsRule_of_unknown hu b.name
  rw [hpasses] at hbroken
  exact Bool.noConfusion hbroken

/-- The violations among some bindings, each with the position of its binding. -/
def judged (keys : RuleKeys) (found : List Binding) : List (Nat × Violation) :=
  found.zipIdx.filterMap fun x => (x.1.check keys).map (x.2, ·)

theorem judged_violations (keys : RuleKeys) (found : List Binding) :
    (judged keys found).map Prod.snd = found.filterMap (·.check keys) := by
  have hfound : found = found.zipIdx.map Prod.fst := (List.zipIdx_map_fst 0 found).symm
  conv_rhs => rw [hfound]
  rw [judged, List.map_filterMap, List.filterMap_map]
  congr 1
  funext x
  simp [Option.map_map, Function.comp_def]

theorem judged_only (keys : RuleKeys) {u : String} (hu : Rule.ofKey? u = none) (kept : Subject)
    (found : List Binding) :
    judged (keys.only u kept) found = (judged keys found).filter (·.2.subject = kept) := by
  rw [judged, judged, List.filter_filterMap]
  congr 1
  funext x
  rw [check_only _ _ hu]
  cases x.1.check keys <;> simp [Option.filter, apply_ite]

theorem judged_sorted (keys : RuleKeys) (found : List Binding) :
    (judged keys found).Pairwise (·.1 < ·.1) := by
  have hpos : found.zipIdx.Pairwise (·.2 < ·.2) := by
    rw [← List.pairwise_map, List.zipIdx_map_snd]
    exact List.pairwise_lt_range'
  refine List.pairwise_filterMap.2 (hpos.imp fun {x y} hlt v hv w hw => ?_)
  obtain ⟨_, -, rfl⟩ := Option.map_eq_some_iff.1 hv
  obtain ⟨_, -, rfl⟩ := Option.map_eq_some_iff.1 hw
  exact hlt

end Binding

/-- Two lists of placed violations as one list by position. -/
def mergeByPosition (xs ys : List (Nat × Violation)) : List (Nat × Violation) :=
  xs.merge ys fun x y => x.1 ≤ y.1

section
variable {x : Nat × Violation} {xs ys : List (Nat × Violation)}

theorem mergeByPosition_cons_left (h : ∀ y ∈ ys, x.1 < y.1) :
    mergeByPosition (x :: xs) ys = x :: mergeByPosition xs ys := by
  cases ys with
  | nil => simp [mergeByPosition]
  | cons y ys =>
    have hle : x.1 ≤ y.1 := Nat.le_of_lt (h y List.mem_cons_self)
    simp [mergeByPosition, hle]

theorem mergeByPosition_cons_right (h : ∀ y ∈ xs, x.1 < y.1) :
    mergeByPosition xs (x :: ys) = x :: mergeByPosition xs ys := by
  cases xs with
  | nil => simp [mergeByPosition]
  | cons y xs =>
    have hlt : x.1 < y.1 := h y List.mem_cons_self
    simp [mergeByPosition, hlt]

/-- Merging by position puts a list together again that was taken apart by subject. -/
theorem mergeByPosition_filter (h : xs.Pairwise (·.1 < ·.1)) :
    mergeByPosition (xs.filter (·.2.subject = .constant)) (xs.filter (·.2.subject = .function)) =
      xs := by
  induction xs with
  | nil => simp [mergeByPosition]
  | cons x xs ih =>
    obtain ⟨hx, hxs⟩ := List.pairwise_cons.1 h
    have hbehind (p : Nat × Violation → Bool) : ∀ y ∈ xs.filter p, x.1 < y.1 :=
      fun y hy => hx y (List.mem_filter.1 hy).1
    cases hs : x.2.subject with
    | constant => simp [hs, mergeByPosition_cons_left (hbehind _), ih hxs]
    | function => simp [hs, mergeByPosition_cons_right (hbehind _), ih hxs]

end

namespace Grammar
variable {g : Grammar} {text file : String}

theorem check_of_bindings {found : List Binding} (h : g.bindings text file = .ok found)
    (keys : RuleKeys) :
    g.check text file keys = .ok ((Binding.judged keys found).map Prod.snd) := by
  rw [check, h, Binding.judged_violations]
  rfl

theorem check_only (g : Grammar) (text file : String) (keys : RuleKeys) {u : String}
    (hu : Rule.ofKey? u = none) (kept : Subject) :
    g.check text file (keys.only u kept) =
      (g.check text file keys).map (·.filter (·.subject = kept)) := by
  cases hb : g.bindings text file with
  | error e => simp [check, hb, Except.map]
  | ok found =>
    rw [check_of_bindings hb, check_of_bindings hb, Binding.judged_only keys hu]
    simp [Except.map, List.filter_map, Function.comp_def]

end Grammar

/-- With an unknown key for functions a check gives the violations of constants that it gives with
any key, and likewise for functions; where the file does not parse, all give the same error. The
result with both keys is the merge of the two by the positions of the declarations. Every violation
has the key of its category as its rule, and that key is known. -/
theorem check_categories_apart (g : Grammar) (text file c f u : String)
    (hu : Rule.ofKey? u = none) :
    g.check text file ⟨c, u⟩ =
        (g.check text file ⟨c, f⟩).map (·.filter (·.subject = .constant)) ∧
      g.check text file ⟨u, f⟩ =
        (g.check text file ⟨c, f⟩).map (·.filter (·.subject = .function)) ∧
      (∀ found, g.bindings text file = .ok found →
        (∀ keys, g.check text file keys = .ok ((Binding.judged keys found).map Prod.snd)) ∧
          Binding.judged ⟨c, f⟩ found =
            mergeByPosition (Binding.judged ⟨c, u⟩ found) (Binding.judged ⟨u, f⟩ found)) ∧
      ∀ violations, g.check text file ⟨c, f⟩ = .ok violations → ∀ v ∈ violations,
        (v.subject = .constant → v.rule = c) ∧ (v.subject = .function → v.rule = f) ∧
          Rule.ofKey? v.rule ≠ none := by
  refine ⟨g.check_only text file ⟨c, f⟩ hu .constant, g.check_only text file ⟨c, f⟩ hu .function,
    fun found hb => ⟨Grammar.check_of_bindings hb, ?_⟩, fun violations h v hv => ?_⟩
  · have hconst : Binding.judged ⟨c, u⟩ found = _ := Binding.judged_only ⟨c, f⟩ hu .constant found
    have hfun : Binding.judged ⟨u, f⟩ found = _ := Binding.judged_only ⟨c, f⟩ hu .function found
    rw [hconst, hfun, mergeByPosition_filter (Binding.judged_sorted _ found)]
  · obtain ⟨root, -, rfl⟩ := Grammar.check_eq_ok_iff.1 h
    obtain ⟨b, -, hcheck⟩ := List.mem_filterMap.1 hv
    obtain ⟨hrule, hknown⟩ := Binding.rule_of_check hcheck
    refine ⟨fun hs => ?_, fun hs => ?_, hknown⟩
    · rw [hrule, hs]
      rfl
    · rw [hrule, hs]
      rfl

theorem check_categories_apart_nested :
    Rule.ofKey? "kebab-case" = none ∧
      Grammar.check ⟨fun _ _ => .ok nestedTree⟩ nestedText "a.ts" ⟨"PascalCase", "camelCase"⟩ =
        .ok [⟨"Foo", 0, 9, 12, .function, "camelCase", 9⟩,
          ⟨"bad_a", 1, 6, 11, .constant, "PascalCase", 23⟩,
          ⟨"bad_b", 1, 17, 22, .constant, "PascalCase", 34⟩] ∧
      Grammar.check ⟨fun _ _ => .ok nestedTree⟩ nestedText "a.ts" ⟨"PascalCase", "kebab-case"⟩ =
        .ok [⟨"bad_a", 1, 6, 11, .constant, "PascalCase", 23⟩,
          ⟨"bad_b", 1, 17, 22, .constant, "PascalCase", 34⟩] ∧
      Grammar.check ⟨fun _ _ => .ok nestedTree⟩ nestedText "a.ts" ⟨"kebab-case", "camelCase"⟩ =
        .ok [⟨"Foo", 0, 9, 12, .function, "camelCase", 9⟩] := by
  have hunknown : Rule.ofKey? "kebab-case" = none := by decide
  obtain ⟨hconst, hfun, -⟩ := check_categories_apart ⟨fun _ _ => .ok nestedTree⟩ nestedText "a.ts"
    "PascalCase" "camelCase" "kebab-case" hunknown
  exact ⟨hunknown, rfl, hconst.trans rfl, hfun.trans rfl⟩

end NamingLint
