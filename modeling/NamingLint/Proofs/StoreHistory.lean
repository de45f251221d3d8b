import NamingLint.Proofs.OrderedStore
import Mathlib.Data.List.Induction
import Mathlib.Data.Set.Card

/-!
# A store through its changes

Whatever changes a store has gone through, its keys are ordered and none of them is without
diagnostics. So the keys are just the paths that something is published for, each in one spelling:
the one in which the path was set when nothing had been published for it.
-/
namespace NamingLint

namespace DiagnosticStore

def after (changes : List StoreChange) : DiagnosticStore :=
  changes.foldl apply .empty

theorem after_concat (changes : List StoreChange) (c : StoreChange) :
    after (changes ++ [c]) = (after changes).apply c := by
  rw [after, List.foldl_append]
  rfl

/-- A store with its keys in order and nothing kept for a path that has no diagnostics. -/
structure WellKept (store : DiagnosticStore) : Prop where
  ordered : store.Ordered
  published : ∀ e ∈ store.entries, e.2 ≠ []

namespace WellKept
variable {store : DiagnosticStore} {p k : Path}

theorem empty : WellKept .empty :=
  ⟨ordered_empty, List.forall_mem_nil _⟩

theorem set (h : store.WellKept) (p : Path) (x : List Diagnostic) : (store.set p x).WellKept where
  ordered := h.ordered.set p x
  published := by
    intro e he
    rcases h.ordered.mem_set.1 he with ⟨he, -⟩ | ⟨hx, rfl⟩
    · exact h.published e he
    · exact hx

theorem apply (h : store.WellKept) (c : StoreChange) : (store.apply c).WellKept := by
  cases c with
  | set p x => exact h.set p x
  | clear p => exact h.set p []
  | clearAll => exact .empty

theorem get_ne_nil_iff (h : store.WellKept) :
    store.get p ≠ [] ↔ ∃ k ∈ store.keys, k.components = p.components := by
  unfold get keys
  cases hfind : store.entries.find? (·.1.components == p.components) with
  | none =>
    have habsent := List.find?_eq_none.1 hfind
    simpa using habsent
  | some e =>
    have he := List.mem_of_find?_eq_some hfind
    have hp : e.1.components = p.components := by simpa using List.find?_some hfind
    exact iff_of_true (h.published e he) ⟨e.1, List.mem_map_of_mem he, hp⟩

theorem components_nodup (h : store.WellKept) : (store.keys.map Path.components).Nodup :=
  List.pairwise_map.2 (h.ordered.imp Path.components_ne_of_lt)

theorem encard_published (h : store.WellKept) :
    {cs | ∃ p : Path, p.components = cs ∧ store.get p ≠ []}.encard = store.size := by
  have hkeys : {cs | ∃ p : Path, p.components = cs ∧ store.get p ≠ []} =
      {cs | cs ∈ store.keys.map Path.components} := by
    ext cs
    simp only [h.get_ne_nil_iff, List.mem_map]
    constructor
    · rintro ⟨p, rfl, hk⟩
      exact hk
    · rintro ⟨k, hk, rfl⟩
      exact ⟨k, rfl, k, hk, rfl⟩
  rw [hkeys, ← List.coe_toFinset, Set.encard_coe_eq_coe_finsetCard,
    List.toFinset_card_of_nodup h.components_nodup, List.length_map, keys, List.length_map, size]

theorem isEmpty_iff (h : store.WellKept) : store.isEmpty = true ↔ ∀ p, store.get p = [] := by
  have hkeys : store.isEmpty = true ↔ store.keys = [] := by
    rw [isEmpty, List.isEmpty_iff, keys, List.map_eq_nil_iff]
  rw [hkeys, List.eq_nil_iff_forall_not_mem]
  constructor
  · intro hnone p
    by_contra hp
    obtain ⟨k, hk, -⟩ := h.get_ne_nil_iff.1 hp
    exact hnone k hk
  · intro hnone k hk
    exact h.get_ne_nil_iff.2 ⟨k, hk, rfl⟩ (hnone k)

theorem get_eq_nil_of_absent (h : store.WellKept)
    (habsent : ∀ k ∈ store.keys, k.components ≠ p.components) : store.get p = [] := by
  by_contra hp
  obtain ⟨k, hk, heq⟩ := h.get_ne_nil_iff.1 hp
  exact habsent k hk heq

/-- A key that was not there before comes from a path that had no key, in its spelling. -/
theorem new_key_of_set (h : store.WellKept) {x : List Diagnostic}
    (hk : k ∈ (store.set p x).keys) (hnew : k ∉ store.keys) :
    x ≠ [] ∧ k = p ∧ store.get p = [] := by
  rcases h.ordered.mem_keys_set.1 hk with ⟨hold, -⟩ | ⟨hx, rfl⟩
  · exact absurd hold hnew
  · have habsent : ∀ q ∈ store.keys, q.components ≠ p.components := by
      intro q hq heq
      rw [h.ordered.spelling_eq hq heq] at hnew
      exact hnew hq
    exact ⟨hx, spelling_of_absent habsent, h.get_eq_nil_of_absent habsent⟩

theorem new_key_of_apply (h : store.WellKept) {c : StoreChange} (hk : k ∈ (store.apply c).keys)
    (hnew : k ∉ store.keys) : (∃ x, c = .set k x) ∧ store.get k = [] := by
  cases c with
  | set p x =>
    obtain ⟨-, rfl, hget⟩ := h.new_key_of_set hk hnew
    exact ⟨⟨x, rfl⟩, hget⟩
  | clear p => exact absurd rfl (h.new_key_of_set (x := []) hk hnew).1
  | clearAll => exact absurd hk List.not_mem_nil

end WellKept

theorem wellKept_after (changes : List StoreChange) : (after changes).WellKept := by
  induction changes using List.reverseRecOn with
  | nil => exact .empty
  | append_singleton changes c ih =>
    rw [after_concat]
    exact ih.apply c

/-- A key is spelled as in the change that set its path when nothing was published for it, and since
then something always was. -/
theorem exists_set_of_key {changes : List StoreChange} {k : Path} (hk : k ∈ (after changes).keys) :
    ∃ earlier found later, changes = earlier ++ .set k found :: later ∧ (after earlier).get k = [] ∧
      ∀ since, since <+: later → (after (earlier ++ .set k found :: since)).get k ≠ [] := by
  induction changes using List.reverseRecOn with
  | nil => exact absurd hk List.not_mem_nil
  | append_singleton changes c ih =>
    have hnow : (after (changes ++ [c])).get k ≠ [] :=
      (wellKept_after _).get_ne_nil_iff.2 ⟨k, hk, rfl⟩
    rw [after_concat] at hk
    by_cases hold : k ∈ (after changes).keys
    · obtain ⟨earlier, found, later, rfl, habsent, hsince⟩ := ih hold
      refine ⟨earlier, found, later ++ [c], by simp, habsent, fun since hinit => ?_⟩
      rcases List.prefix_concat_iff.1 hinit with rfl | hinit
      · simpa using hnow
      · exact hsince since hinit
    · obtain ⟨⟨found, rfl⟩, habsent⟩ := (wellKept_after changes).new_key_of_apply hk hold
      refine ⟨changes, found, [], rfl, habsent, fun since hinit => ?_⟩
      rwa [List.prefix_nil.1 hinit]

/-- After any changes of the empty store its keys increase in the order of components, so that no
path is a key in two spellings, and no key is without diagnostics. A path reads as published if it
has the components of a key. The size is the number of published paths, told apart by components,
and the store is empty if no path is published. A key has the spelling of the change that set its
path when it was last absent. -/
theorem changes_keep_store (changes : List StoreChange) :
    let store := after changes
    store.keys.Pairwise (fun p q => compare p.components q.components = .lt) ∧
      (∀ k ∈ store.keys, ∀ q ∈ store.keys, k.components = q.components → k = q) ∧
      (∀ e ∈ store.entries, e.2 ≠ []) ∧
      (∀ p, store.get p ≠ [] ↔ ∃ k ∈ store.keys, p.components = k.components) ∧
      {cs | ∃ p : Path, p.components = cs ∧ store.get p ≠ []}.encard = store.size ∧
      (store.isEmpty = true ↔ ∀ p, store.get p = []) ∧
      ∀ k ∈ store.keys, ∃ earlier found later,
        changes = earlier ++ .set k found :: later ∧ (after earlier).get k = [] ∧
          ∀ since, since <+: later → (after (earlier ++ .set k found :: since)).get k ≠ [] := by
  intro store
  have h : store.WellKept := wellKept_after changes
  refine ⟨h.ordered, fun k hk q hq => h.ordered.eq_of_components hk hq, h.published, fun p => ?_,
    h.encard_published, h.isEmpty_iff, fun k hk => exists_set_of_key hk⟩
  simp only [h.get_ne_nil_iff, eq_comm]

end DiagnosticStore
end NamingLint
