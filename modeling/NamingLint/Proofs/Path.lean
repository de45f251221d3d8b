import NamingLint.Path

/-!
# Paths and their components

The components of a path determine its identity and its order. They are in a form that can be
spelled again: only the first one can be the root or a leading dot, and the names have no slash.
-/
namespace NamingLint

instance : Std.LawfulEqOrd Path.Component where
  compare_self {a} := Ordering.then_eq_eq.2 ⟨Std.ReflOrd.compare_self, Std.ReflOrd.compare_self⟩
  eq_of_compare {a b} h := by
    obtain ⟨hrank, htext⟩ := Ordering.then_eq_eq.1 h
    have hrank := Std.LawfulEqOrd.eq_of_compare hrank
    have htext := Std.LawfulEqOrd.eq_of_compare htext
    cases a <;> cases b <;> simp_all [Path.Component.rank, Path.Component.text]

instance : Std.TransOrd Path.Component :=
  inferInstanceAs (Std.TransCmp (compareLex (compareOn Path.Component.rank)
    (compareOn Path.Component.text)))

instance : Std.TransOrd Path :=
  inferInstanceAs (Std.TransCmp (compareOn Path.components))

namespace Path

theorem compare_eq_iff {p q : Path} : compare p q = .eq ↔ p.components = q.components := by
  change compare p.components q.components = .eq ↔ _
  exact Std.LawfulEqOrd.compare_eq_iff_eq

theorem compare_congr {p q : Path} (h : p.components = q.components) (r : Path) :
    compare r p = compare r q := by
  change compare r.components p.components = compare r.components q.components
  rw [h]

theorem components_ne_of_lt {p q : Path} (h : compare p q = .lt) :
    p.components ≠ q.components := by
  rw [Ne, ← compare_eq_iff, h]
  decide

/-- Paths below one directory compare as what is below it. -/
theorem compare_append (base r s : List Component) :
    compare (base ++ r) (base ++ s) = compare r s := by
  induction base with
  | nil => rfl
  | cons c base ih =>
    rw [List.cons_append, List.cons_append, List.compare_eq_compareLex, List.compareLex_cons_cons,
      Std.ReflOrd.compare_self, Ordering.eq_then, ← List.compare_eq_compareLex, ih]

/-- A component that the stretch it is spelled by stands for. -/
def Component.Inner (c : Component) : Prop :=
  '/' ∉ c.text.toList ∧ componentOf? c.text.toList = some c

theorem Component.Inner.text_ne {c : Component} (h : c.Inner) :
    c.text.toList ≠ [] ∧ c.text.toList ≠ ['.'] := by
  constructor <;>
    · intro he
      have hc := h.2
      rw [he] at hc
      simp [componentOf?] at hc

/-- A name that a directory can give to what is in it. -/
def IsFileName (name : String) : Prop :=
  (Component.name name).Inner

instance (name : String) : Decidable (IsFileName name) :=
  inferInstanceAs (Decidable (_ ∧ _))

/-- The form of the components of a path. -/
def Canonical : List Component → Prop
  | [] => True
  | c :: r => (c = .root ∨ c = .here ∨ c.Inner) ∧ ∀ d ∈ r, d.Inner

theorem Canonical.of_inner {cs : List Component} (h : ∀ c ∈ cs, c.Inner) : Canonical cs := by
  cases cs with
  | nil => trivial
  | cons c r =>
    exact ⟨.inr (.inr (h c List.mem_cons_self)), fun d hd => h d (List.mem_cons_of_mem c hd)⟩

theorem Canonical.append_right {cs ds : List Component} (h : Canonical (cs ++ ds)) :
    Canonical ds := by
  cases cs with
  | nil => exact h
  | cons c cs => exact .of_inner fun d hd => h.2 d (List.mem_append_right cs hd)

theorem not_mem_of_mem_splitOn {a : Char} {xs s : List Char} (h : s ∈ xs.splitOn a) : a ∉ s := by
  induction xs generalizing s with
  | nil => simp_all
  | cons x xs ih =>
    rw [List.splitOn_cons_eq_if_modifyHead] at h
    split at h
    · rcases List.mem_cons.1 h with rfl | h
      · simp
      · exact ih h
    · rename_i hx
      obtain ⟨t, ts, ht⟩ := List.exists_cons_of_ne_nil (List.splitOn_ne_nil a xs)
      rw [ht] at h ih
      rcases List.mem_cons.1 h with rfl | h
      · have hne : x ≠ a := by simpa using hx
        simpa using ⟨hne.symm, ih List.mem_cons_self⟩
      · exact ih (List.mem_cons_of_mem t h)

theorem text_of_componentOf? {s : List Char} {c : Component} (h : componentOf? s = some c) :
    c.text.toList = s := by
  unfold componentOf? at h
  split at h
  · simp at h
  · split at h
    · rename_i hs
      obtain rfl := Option.some.inj h
      exact hs.symm
    · obtain rfl := Option.some.inj h
      exact String.toList_ofList

theorem inner_of_mem_segments {p : Path} {c : Component}
    (h : c ∈ p.segments.filterMap componentOf?) : c.Inner := by
  obtain ⟨s, hs, hc⟩ := List.mem_filterMap.1 h
  have htext := text_of_componentOf? hc
  exact ⟨htext ▸ not_mem_of_mem_splitOn hs, htext ▸ hc⟩

theorem canonical_components (p : Path) : Canonical p.components := by
  have hinner : ∀ c ∈ p.segments.filterMap componentOf?, c.Inner := fun c => inner_of_mem_segments
  unfold components
  split
  · exact ⟨.inl rfl, hinner⟩
  · split
    · exact ⟨.inr (.inl rfl), hinner⟩
    · exact .of_inner hinner

theorem isAbsolute_eq_false {p : Path} {s : List Char} (h : p.segments.head? = some s)
    (hs : s ≠ []) : p.isAbsolute = false := by
  unfold segments at h
  unfold isAbsolute
  cases htext : p.text.toList with
  | nil => rfl
  | cons c t =>
    rw [htext, List.splitOn_cons_eq_if_modifyHead] at h
    by_cases hc : c = '/'
    · subst hc
      simp at h
      exact absurd h hs
    · simpa using hc

/-- A path is absolute if it begins with an empty stretch that is not all of it. -/
theorem isAbsolute_iff {p : Path} {s : List Char} {r : List (List Char)} (h : p.segments = s :: r) :
    p.isAbsolute = true ↔ s = [] ∧ r ≠ [] := by
  unfold segments at h
  unfold isAbsolute
  cases htext : p.text.toList with
  | nil =>
    obtain ⟨rfl, rfl⟩ : [] = s ∧ [] = r := by simpa [htext] using h
    simp
  | cons c t =>
    obtain ⟨u, us, hu⟩ := List.exists_cons_of_ne_nil (List.splitOn_ne_nil '/' t)
    rw [htext, List.splitOn_cons_eq_if_modifyHead, hu] at h
    by_cases hc : c = '/'
    · obtain ⟨rfl, rfl⟩ : [] = s ∧ u :: us = r := by simpa [hc] using h
      simp [hc]
    · obtain ⟨rfl, rfl⟩ : c :: u = s ∧ us = r := by simpa [hc] using h
      simp [hc]

theorem segments_ofSegments {l : List (List Char)} (hne : l ≠ []) (h : ∀ s ∈ l, '/' ∉ s) :
    (ofSegments l).segments = l := by
  rw [segments, ofSegments, String.toList_ofList, List.splitOn_intercalate '/' h hne]

/-- A path that begins with a component has the components that its stretches stand for. -/
theorem components_of_head {p : Path} {s : List Char} (h : p.segments.head? = some s)
    (hs : isBlank s = false) : p.components = p.segments.filterMap componentOf? := by
  have hs : s ≠ [] ∧ s ≠ ['.'] := by
    constructor <;>
      · rintro rfl
        simp [isBlank, componentOf?] at hs
  rw [components, isAbsolute_eq_false h hs.1, h]
  simp [hs.2]

theorem IsFileName.splitOn {name : String} (h : IsFileName name) :
    name.toList.splitOn '/' = [name.toList] :=
  List.splitOn_eq_singleton h.1

theorem components_name {name : String} (h : IsFileName name) :
    (Path.mk name).components = [.name name] := by
  have hsegments : (Path.mk name).segments = [name.toList] := h.splitOn
  have hcomponent : componentOf? name.toList = some (.name name) := h.2
  have hhead : (Path.mk name).segments.head? = some name.toList := by
    rw [hsegments, List.head?_cons]
  rw [components_of_head hhead (by simp [isBlank, hcomponent]), hsegments]
  simp [hcomponent]

/-- What begins with a component and stands behind a slash adds its components, whether or not the
slash was there before. -/
theorem components_of_slash {p q r : Path} {s : List Char}
    (hr : ∃ t ∈ r.segments.head?, isBlank t = false)
    (hq : q.text.toList = s ++ '/' :: r.text.toList)
    (hp : p.text.toList = s ++ ['/'] ∨ p.text.toList = s ∧ s ≠ []) :
    q.components = p.components ++ r.components := by
  obtain ⟨c, hc, hblank⟩ := hr
  have hsegments : q.segments = s.splitOn '/' ++ r.segments := by
    rw [segments, hq, List.splitOn_append_cons_self, segments]
  have hnames : q.segments.filterMap componentOf? =
      p.segments.filterMap componentOf? ++ r.components := by
    rw [hsegments, List.filterMap_append, ← components_of_head hc hblank, segments]
    rcases hp with hp | ⟨hp, -⟩
    · rw [hp, List.splitOn_append_cons_self, List.filterMap_append]
      simp [componentOf?]
    · rw [hp]
  have habsolute : q.isAbsolute = p.isAbsolute := by
    rw [isAbsolute, isAbsolute, hq]
    rcases hp with hp | ⟨hp, hs⟩
    · rw [hp]
      cases s <;> rfl
    · rw [hp]
      cases s with
      | nil => exact absurd rfl hs
      | cons c s => rfl
  have hhead : q.segments.head? = p.segments.head? := by
    obtain ⟨t, ts, ht⟩ := List.exists_cons_of_ne_nil (List.splitOn_ne_nil '/' s)
    rw [hsegments, ht, List.cons_append, List.head?_cons, segments]
    rcases hp with hp | ⟨hp, -⟩
    · rw [hp, List.splitOn_append_cons_self, ht]
      rfl
    · rw [hp, ht]
      rfl
  rw [components, components, hnames, habsolute, hhead]
  split
  · rfl
  · split <;> rfl

theorem components_of_empty {p : Path} (h : p.text = "") : p.components = [] := by
  simp [components, segments, isAbsolute, h, componentOf?]

theorem IsFileName.begins {name : String} (h : IsFileName name) :
    ∃ t ∈ (Path.mk name).segments.head?, isBlank t = false := by
  have hcomponent : componentOf? name.toList = some (.name name) := h.2
  exact ⟨name.toList, by rw [segments, h.splitOn]; rfl, by simp [isBlank, hcomponent]⟩

theorem isAbsolute_of_begins {p : Path} (h : ∃ t ∈ p.segments.head?, isBlank t = false) :
    p.isAbsolute = false := by
  obtain ⟨t, ht, hblank⟩ := h
  refine isAbsolute_eq_false ht ?_
  rintro rfl
  simp [isBlank, componentOf?] at hblank

/-- Where a path taken from a directory stands: behind a slash, which may be the end of the
directory, or alone if the directory is empty. -/
theorem join_cases {q : Path} (h : q.isAbsolute = false) (p : Path) :
    (p.text = "" ∧ p.join q = q) ∨
      ∃ s, (p.join q).text.toList = s ++ '/' :: q.text.toList ∧
        (p.text.toList = s ++ ['/'] ∨ p.text.toList = s ∧ s ≠ []) := by
  rcases List.eq_nil_or_concat p.text.toList with hnil | ⟨s, c, hs⟩
  · have hempty := String.toList_eq_nil_iff.1 hnil
    exact .inl ⟨hempty, by simp [join, h, hempty]⟩
  · right
    rw [List.concat_eq_append] at hs
    by_cases hc : c = '/'
    · subst hc
      exact ⟨s, by simp [join, h, hs], .inl hs⟩
    · exact ⟨s ++ [c], by simp [join, h, hs, hc], .inr ⟨hs, by simp⟩⟩

/-- What begins with a component is added behind the components of a directory. -/
theorem components_join {q : Path} (h : ∃ t ∈ q.segments.head?, isBlank t = false) (p : Path) :
    (p.join q).components = p.components ++ q.components := by
  rcases join_cases (isAbsolute_of_begins h) p with ⟨hempty, hjoin⟩ | ⟨s, hjoin, hp⟩
  · rw [hjoin, components_of_empty hempty, List.nil_append]
  · exact components_of_slash h hjoin hp

theorem components_join_name {name : String} (h : IsFileName name) (p : Path) :
    (p.join ⟨name⟩).components = p.components ++ [.name name] := by
  rw [components_join h.begins, components_name h]

theorem isAbsolute_join {p : Path} (h : p.isAbsolute = true) (q : Path) :
    (p.join q).isAbsolute = true := by
  have hhead : p.text.toList.head? = some '/' := by simpa [isAbsolute] using h
  obtain ⟨r, hr⟩ := List.head?_eq_some_iff.1 hhead
  unfold join
  split
  · assumption
  · split <;> simp [isAbsolute, hr]

end Path
end NamingLint
