import NamingLint.Proofs.Store
import Mathlib.Data.List.Nodup

/-!
# The store as an ordered map

The keys of a store stand in the order of paths, and every change keeps them so. An ordered store is
determined by the entries that are in it, and what a change does can be said about these alone: it
takes the entry of the path out, and puts one in under the spelling that the path had, if it had
one. So changes for different paths commute, and a change made twice is a change made once.
-/
namespace NamingLint

namespace DiagnosticStore

/-- The paths that something is published for, as they are spelled. -/
def keys (store : DiagnosticStore) : List Path :=
  store.entries.map Prod.fst

/-- The keys increase in the order of paths, so that no path is there in two spellings. -/
def Ordered (store : DiagnosticStore) : Prop :=
  store.keys.Pairwise (compare · · = .lt)

/-- The spelling that an entry for a path has: that of the key, or its own if there is no key. -/
def spelling (store : DiagnosticStore) (p : Path) : Path :=
  (store.keys.find? (·.components == p.components)).getD p

section
variable {store store' : DiagnosticStore} {p q k : Path} {x y : List Diagnostic}
  {e : Path × List Diagnostic} {entries : List (Path × List Diagnostic)}

theorem components_spelling (store : DiagnosticStore) (p : Path) :
    (store.spelling p).components = p.components := by
  unfold spelling
  cases h : store.keys.find? (·.components == p.components) with
  | none => rfl
  | some k => simpa using List.find?_some h

theorem spelling_of_absent (h : ∀ k ∈ store.keys, k.components ≠ p.components) :
    store.spelling p = p := by
  have hnone : store.keys.find? (·.components == p.components) = none := by simpa using h
  rw [spelling, hnone, Option.getD_none]

theorem spelling_cons (e : Path × List Diagnostic) (entries : List (Path × List Diagnostic))
    (p : Path) : spelling ⟨e :: entries⟩ p =
      if e.1.components = p.components then e.1 else spelling ⟨entries⟩ p := by
  unfold spelling keys
  by_cases h : e.1.components = p.components <;> simp [h]

theorem ordered_iff : store.Ordered ↔ store.entries.Pairwise (compare ·.1 ·.1 = .lt) :=
  List.pairwise_map

theorem ordered_empty : Ordered .empty :=
  List.Pairwise.nil

theorem ordered_cons : Ordered ⟨e :: entries⟩ ↔
    (∀ f ∈ entries, compare e.1 f.1 = .lt) ∧ Ordered ⟨entries⟩ := by
  rw [ordered_iff, ordered_iff, List.pairwise_cons]

/-- A new entry takes the place of the one for its path and leaves the others. -/
theorem mem_insertInto (h : Ordered ⟨entries⟩) : e ∈ insertInto p x entries ↔
    (e ∈ entries ∧ e.1.components ≠ p.components) ∨ e = (spelling ⟨entries⟩ p, x) := by
  induction entries with
  | nil => simp [insertInto, spelling, keys]
  | cons f entries ih =>
    obtain ⟨hf, hrest⟩ := ordered_cons.1 h
    rw [insertInto]
    cases hc : compare p f.1 with
    | lt =>
      have habsent : ∀ e ∈ f :: entries, e.1.components ≠ p.components := by
        intro e he
        rcases List.mem_cons.1 he with rfl | he
        · exact (Path.components_ne_of_lt hc).symm
        · exact (Path.components_ne_of_lt (Std.TransCmp.lt_trans hc (hf e he))).symm
      have hspell : spelling ⟨f :: entries⟩ p = p := by
        apply spelling_of_absent
        simpa [keys] using habsent
      rw [hspell, List.mem_cons, or_comm]
      exact or_congr_left ⟨fun he => ⟨he, habsent e he⟩, And.left⟩
    | eq =>
      have hsame : f.1.components = p.components := (Path.compare_eq_iff.1 hc).symm
      have habsent : ∀ e ∈ entries, e.1.components ≠ p.components :=
        fun e he => hsame ▸ (Path.components_ne_of_lt (hf e he)).symm
      rw [spelling_cons, if_pos hsame, List.mem_cons, List.mem_cons, or_comm]
      refine or_congr_left ⟨fun he => ⟨.inr he, habsent e he⟩, ?_⟩
      rintro ⟨rfl | he, hne⟩
      · exact absurd hsame hne
      · exact he
    | gt =>
      have hne : f.1.components ≠ p.components :=
        Path.components_ne_of_lt (Std.OrientedCmp.gt_iff_lt.1 hc)
      rw [spelling_cons, if_neg hne, List.mem_cons, List.mem_cons, ih hrest]
      constructor
      · rintro (rfl | ⟨he, hp⟩ | rfl)
        · exact .inl ⟨.inl rfl, hne⟩
        · exact .inl ⟨.inr he, hp⟩
        · exact .inr rfl
      · rintro (⟨rfl | he, hp⟩ | rfl)
        · exact .inl rfl
        · exact .inr (.inl ⟨he, hp⟩)
        · exact .inr (.inr rfl)

theorem Ordered.insertInto (h : Ordered ⟨entries⟩) (p : Path) (x : List Diagnostic) :
    Ordered ⟨insertInto p x entries⟩ := by
  induction entries with
  | nil => simp [ordered_iff, DiagnosticStore.insertInto]
  | cons f entries ih =>
    obtain ⟨hf, hrest⟩ := ordered_cons.1 h
    rw [DiagnosticStore.insertInto]
    cases hc : compare p f.1 with
    | lt =>
      refine ordered_cons.2 ⟨fun e he => ?_, h⟩
      rcases List.mem_cons.1 he with rfl | he
      · exact hc
      · exact Std.TransCmp.lt_trans hc (hf e he)
    | eq => exact ordered_cons.2 ⟨hf, hrest⟩
    | gt =>
      refine ordered_cons.2 ⟨fun e he => ?_, ih hrest⟩
      rcases (mem_insertInto hrest).1 he with ⟨he, -⟩ | rfl
      · exact hf e he
      · rw [Path.compare_congr (components_spelling _ p)]
        exact Std.OrientedCmp.gt_iff_lt.1 hc

theorem Ordered.clear (h : store.Ordered) (p : Path) : (store.clear p).Ordered :=
  ordered_iff.2 ((ordered_iff.1 h).filter _)

theorem Ordered.set (h : store.Ordered) (p : Path) (x : List Diagnostic) :
    (store.set p x).Ordered := by
  unfold DiagnosticStore.set
  split
  · exact h.clear p
  · exact h.insertInto p x

theorem Ordered.mem_set (h : store.Ordered) : e ∈ (store.set p x).entries ↔
    (e ∈ store.entries ∧ e.1.components ≠ p.components) ∨ x ≠ [] ∧ e = (store.spelling p, x) := by
  unfold DiagnosticStore.set
  cases x with
  | nil => simp [DiagnosticStore.clear]
  | cons d ds => simp [mem_insertInto h]

theorem Ordered.mem_keys_set (h : store.Ordered) : k ∈ (store.set p x).keys ↔
    (k ∈ store.keys ∧ k.components ≠ p.components) ∨ x ≠ [] ∧ k = store.spelling p := by
  simp only [keys, List.mem_map, h.mem_set]
  constructor
  · rintro ⟨e, ⟨he, hp⟩ | ⟨hx, rfl⟩, rfl⟩
    · exact .inl ⟨⟨e, he, rfl⟩, hp⟩
    · exact .inr ⟨hx, rfl⟩
  · rintro (⟨⟨e, he, rfl⟩, hp⟩ | ⟨hx, rfl⟩)
    · exact ⟨e, .inl ⟨he, hp⟩, rfl⟩
    · exact ⟨_, .inr ⟨hx, rfl⟩, rfl⟩

/-- Ordered stores with the same entries are the same store. -/
theorem Ordered.ext (h : store.Ordered) (h' : store'.Ordered)
    (hmem : ∀ e, e ∈ store.entries ↔ e ∈ store'.entries) : store = store' := by
  have hnodup {s : DiagnosticStore} (hs : s.Ordered) : s.entries.Nodup := by
    refine (ordered_iff.1 hs).imp fun {e f} hlt heq => ?_
    rw [heq] at hlt
    exact Path.components_ne_of_lt hlt rfl
  have hperm := (List.perm_ext_iff_of_nodup (hnodup h) (hnodup h')).2 hmem
  have heq : store.entries = store'.entries := by
    apply hperm.eq_of_pairwise _ (ordered_iff.1 h) (ordered_iff.1 h')
    intro e e' _ _ hlt hgt
    exact absurd hgt (Std.OrientedCmp.not_lt_of_lt hlt)
  cases store
  cases store'
  exact congrArg _ heq

/-- Two keys are not spellings of one path. -/
theorem Ordered.eq_of_components (h : store.Ordered) (hk : k ∈ store.keys) (hq : q ∈ store.keys)
    (heq : k.components = q.components) : k = q := by
  have hnodup : (store.keys.map Path.components).Nodup :=
    List.pairwise_map.2 (h.imp Path.components_ne_of_lt)
  exact List.inj_on_of_nodup_map hnodup hk hq heq

theorem Ordered.spelling_eq (h : store.Ordered) (hk : k ∈ store.keys)
    (hp : k.components = p.components) : store.spelling p = k := by
  unfold spelling
  cases hfind : store.keys.find? (·.components == p.components) with
  | none =>
    have habsent : k.components ≠ p.components := by simpa using List.find?_eq_none.1 hfind k hk
    exact absurd hp habsent
  | some q =>
    have hq : q.components = p.components := by simpa using List.find?_some hfind
    exact h.eq_of_components (List.mem_of_find?_eq_some hfind) hk (hq.trans hp.symm)

/-- A change leaves the spelling of other paths. -/
theorem Ordered.spelling_set (h : store.Ordered) (hne : p.components ≠ q.components) :
    (store.set p x).spelling q = store.spelling q := by
  by_cases hkey : ∃ k ∈ store.keys, k.components = q.components
  · obtain ⟨k, hk, hkq⟩ := hkey
    have hkept : k ∈ (store.set p x).keys := h.mem_keys_set.2 (.inl ⟨hk, hkq ▸ hne.symm⟩)
    rw [h.spelling_eq hk hkq, (h.set p x).spelling_eq hkept hkq]
  · have habsent : ∀ k ∈ store.keys, k.components ≠ q.components :=
      fun k hk hkq => hkey ⟨k, hk, hkq⟩
    rw [spelling_of_absent habsent]
    apply spelling_of_absent
    intro k hk
    rcases h.mem_keys_set.1 hk with ⟨hk, -⟩ | ⟨-, rfl⟩
    · exact habsent k hk
    · rwa [components_spelling]

/-- A path keeps its spelling when what is published for it is replaced. -/
theorem Ordered.spelling_set_self (h : store.Ordered) (hx : x ≠ []) :
    (store.set p x).spelling p = store.spelling p :=
  (h.set p x).spelling_eq (h.mem_keys_set.2 (.inr ⟨hx, rfl⟩)) (components_spelling store p)

theorem Ordered.mem_set_set (h : store.Ordered) (hne : p.components ≠ q.components) :
    e ∈ ((store.set p x).set q y).entries ↔
      (e ∈ store.entries ∧ e.1.components ≠ p.components ∧ e.1.components ≠ q.components) ∨
        (x ≠ [] ∧ e = (store.spelling p, x)) ∨ (y ≠ [] ∧ e = (store.spelling q, y)) := by
  have hother : x ≠ [] ∧ e = (store.spelling p, x) → e.1.components ≠ q.components := by
    rintro ⟨-, rfl⟩
    rwa [components_spelling]
  rw [(h.set p x).mem_set, h.mem_set, h.spelling_set hne, or_and_right,
    and_iff_left_of_imp hother, and_assoc, or_assoc]

theorem Ordered.set_comm (h : store.Ordered) (hne : p.components ≠ q.components)
    (x y : List Diagnostic) : (store.set p x).set q y = (store.set q y).set p x := by
  apply ((h.set p x).set q y).ext ((h.set q y).set p x)
  intro e
  rw [h.mem_set_set hne, h.mem_set_set hne.symm]
  exact or_congr (and_congr_right fun _ => and_comm) or_comm

theorem Ordered.set_idem (h : store.Ordered) (p : Path) (x : List Diagnostic) :
    (store.set p x).set p x = store.set p x := by
  apply ((h.set p x).set p x).ext (h.set p x)
  intro e
  have hnew : x ≠ [] ∧ e = ((store.set p x).spelling p, x) ↔
      x ≠ [] ∧ e = (store.spelling p, x) :=
    and_congr_right fun hx => by rw [h.spelling_set_self hx]
  rw [(h.set p x).mem_set, hnew, h.mem_set]
  constructor
  · rintro (⟨he, -⟩ | he)
    · exact he
    · exact .inr he
  · rintro (he | he)
    · exact .inl ⟨.inl he, he.2⟩
    · exact .inr he

end
end DiagnosticStore
end NamingLint
