import NamingLint.Proofs.Path
import Mathlib.Data.List.Basic
import Mathlib.Data.List.TakeWhile

/-!
# Paths below a directory

What a path adds to a directory is spelled at its end, from the first component there to the last.
Taking the directory off the path leaves just that, whatever stands around it and however the path
spells the directory.
-/
namespace NamingLint.Path

/-- The components that the stretches between slashes stand for. -/
def names (p : Path) : List Component :=
  p.segments.filterMap componentOf?

/-- Some stretches begin and end with a component. -/
def Tidy (l : List (List Char)) : Prop :=
  (∃ s ∈ l.head?, isBlank s = false) ∧ ∃ s ∈ l.getLast?, isBlank s = false

/-- A path is `rel` taken from `dir`. Its components are those of both, and it spells `rel` at its
end, with no component behind it. -/
structure IsBelow (p dir rel : Path) : Prop where
  components_eq : p.components = dir.components ++ rel.components
  spelled : ∃ front back, p.segments = front ++ (rel.segments ++ back) ∧
    back.filterMap componentOf? = []
  tidy : Tidy rel.segments

theorem Tidy.ne_nil {l : List (List Char)} (h : Tidy l) : l ≠ [] := by
  rintro rfl
  obtain ⟨s, hs, -⟩ := h.1
  simp at hs

section Segments
variable {l m front back : List (List Char)} {s : List Char}

theorem isBlank_iff : isBlank s = true ↔ componentOf? s = none := by
  rw [isBlank, Option.isNone_iff_eq_none]

theorem filterMap_eq_nil : l.filterMap componentOf? = [] ↔ ∀ s ∈ l, isBlank s = true := by
  simp only [List.filterMap_eq_nil_iff, isBlank_iff]

theorem filterMap_dropWhile (l : List (List Char)) :
    (l.dropWhile isBlank).filterMap componentOf? = l.filterMap componentOf? := by
  have hblank : (l.takeWhile isBlank).filterMap componentOf? = [] :=
    filterMap_eq_nil.2 fun _ => List.mem_takeWhile_imp
  calc (l.dropWhile isBlank).filterMap componentOf?
      = (l.takeWhile isBlank ++ l.dropWhile isBlank).filterMap componentOf? := by
        rw [List.filterMap_append, hblank, List.nil_append]
    _ = l.filterMap componentOf? := by rw [List.takeWhile_append_dropWhile]

theorem filterMap_trimRight (l : List (List Char)) :
    (trimRight l).filterMap componentOf? = l.filterMap componentOf? := by
  rw [trimRight, List.filterMap_reverse, filterMap_dropWhile, List.filterMap_reverse,
    List.reverse_reverse]

theorem filterMap_trimSegments (l : List (List Char)) :
    (trimSegments l).filterMap componentOf? = l.filterMap componentOf? := by
  rw [trimSegments, filterMap_trimRight, filterMap_dropWhile]

theorem trimRight_subset (l : List (List Char)) : trimRight l ⊆ l := by
  intro s hs
  rw [trimRight, List.mem_reverse] at hs
  exact List.mem_reverse.1 ((List.dropWhile_sublist isBlank).subset hs)

theorem head?_dropWhile (h : l.filterMap componentOf? ≠ []) :
    ∃ s ∈ (l.dropWhile isBlank).head?, isBlank s = false := by
  have hnot := List.head?_dropWhile_not isBlank l
  cases hdrop : l.dropWhile isBlank with
  | nil => exact absurd (filterMap_eq_nil.2 (List.dropWhile_eq_nil_iff.1 hdrop)) h
  | cons s r =>
    rw [hdrop] at hnot
    exact ⟨s, rfl, hnot⟩

theorem dropWhile_of_head? (h : ∃ s ∈ l.head?, isBlank s = false) : l.dropWhile isBlank = l := by
  obtain ⟨s, hs, hblank⟩ := h
  obtain ⟨r, rfl⟩ := List.head?_eq_some_iff.1 hs
  exact List.dropWhile_cons_of_neg (by simp [hblank])

theorem trimRight_append (hm : ∃ s ∈ m.getLast?, isBlank s = false)
    (hback : back.filterMap componentOf? = []) : trimRight (m ++ back) = m := by
  have hblank : ∀ s ∈ back.reverse, isBlank s = true :=
    fun s hs => filterMap_eq_nil.1 hback s (List.mem_reverse.1 hs)
  rw [trimRight, List.reverse_append, List.dropWhile_append_of_pos hblank,
    dropWhile_of_head? (by rwa [List.head?_reverse]), List.reverse_reverse]

/-- Trimming stops at the components at both ends. -/
theorem trimSegments_append (hm : Tidy m) (hfront : front.filterMap componentOf? = [])
    (hback : back.filterMap componentOf? = []) : trimSegments (front ++ (m ++ back)) = m := by
  have hstart : (front ++ (m ++ back)).dropWhile isBlank = m ++ back := by
    rw [List.dropWhile_append_of_pos (filterMap_eq_nil.1 hfront)]
    apply dropWhile_of_head?
    rw [List.head?_append_of_ne_nil _ hm.ne_nil]
    exact hm.1
  rw [trimSegments, hstart, trimRight_append hm.2 hback]

/-- What is trimmed off stands for nothing, and what is left begins and ends with a component. -/
theorem exists_trimSegments (h : l.filterMap componentOf? ≠ []) : Tidy (trimSegments l) ∧
    ∃ front back, l = front ++ (trimSegments l ++ back) ∧ back.filterMap componentOf? = [] := by
  let rest := l.dropWhile isBlank
  let back := (rest.reverse.takeWhile isBlank).reverse
  have hsplit : rest = trimSegments l ++ back := by
    rw [trimSegments, trimRight, ← List.reverse_append, List.takeWhile_append_dropWhile,
      List.reverse_reverse]
  have hback : back.filterMap componentOf? = [] :=
    filterMap_eq_nil.2 fun s hs => List.mem_takeWhile_imp (List.mem_reverse.1 hs)
  have hne : trimSegments l ≠ [] := by
    intro hnil
    rw [← filterMap_trimSegments, hnil] at h
    exact h rfl
  have hhead : ∃ s ∈ (trimSegments l).head?, isBlank s = false := by
    have hrest : ∃ s ∈ rest.head?, isBlank s = false := head?_dropWhile h
    rwa [hsplit, List.head?_append_of_ne_nil _ hne] at hrest
  have hlast : ∃ s ∈ (trimSegments l).getLast?, isBlank s = false := by
    rw [trimSegments, trimRight, List.getLast?_reverse]
    apply head?_dropWhile
    rw [List.filterMap_reverse, filterMap_dropWhile]
    simpa using h
  refine ⟨⟨hhead, hlast⟩, l.takeWhile isBlank, back, ?_, hback⟩
  rw [← hsplit, List.takeWhile_append_dropWhile]

/-- Dropping the components of a beginning leaves what follows it, with nothing in front that stands
for a component. -/
theorem dropComponents_append (l m : List (List Char)) :
    ∃ front, dropComponents (l.filterMap componentOf?).length (l ++ m) = front ++ m ∧
      front.filterMap componentOf? = [] := by
  induction l with
  | nil => exact ⟨[], by simp [dropComponents], rfl⟩
  | cons s l ih =>
    obtain ⟨front, hdrop, hblank⟩ := ih
    cases hs : componentOf? s with
    | some c =>
      have hfull : isBlank s = false := by simp [isBlank, hs]
      refine ⟨front, ?_, hblank⟩
      simpa [hs, dropComponents, hfull] using hdrop
    | none =>
      have hempty : isBlank s = true := isBlank_iff.2 hs
      rw [List.filterMap_cons_none hs]
      cases hn : (l.filterMap componentOf?).length with
      | zero =>
        have hl : l.filterMap componentOf? = [] := List.length_eq_zero_iff.1 hn
        exact ⟨s :: l, by simp [dropComponents], by simp [hs, hl]⟩
      | succ n =>
        rw [hn] at hdrop
        exact ⟨front, by simpa [dropComponents, hempty] using hdrop, hblank⟩

end Segments

section Names
variable {p base rel : Path} {r : List Component}

theorem rank_of_inner {c : Component} (h : c.Inner) : 2 ≤ c.rank := by
  cases c with
  | root => exact absurd h.1 (by decide)
  | here => exact absurd h.2 (by decide)
  | up => decide
  | name t => exact Nat.le_succ 2

/-- The stretches give all components but a leading root or dot. -/
theorem names_eq_filter (p : Path) : p.names = p.components.filter (2 ≤ ·.rank) := by
  have hnames : p.names.filter (2 ≤ ·.rank) = p.names :=
    List.filter_eq_self.2 fun c hc => by simpa using rank_of_inner (inner_of_mem_segments hc)
  have hlead : p.components = .root :: p.names ∨ p.components = .here :: p.names ∨
      p.components = p.names := by
    unfold components names
    split
    · exact .inl rfl
    · split
      · exact .inr (.inl rfl)
      · exact .inr (.inr rfl)
  rcases hlead with h | h | h
  · rw [h, List.filter_cons_of_neg (by decide), hnames]
  · rw [h, List.filter_cons_of_neg (by decide), hnames]
  · rw [h, hnames]

theorem names_of_components (hbase : base.components ≠ [])
    (h : p.components = base.components ++ r) : p.names = base.names ++ r := by
  have hr : r.filter (2 ≤ ·.rank) = r := by
    refine List.filter_eq_self.2 fun c hc => ?_
    have hcanonical := canonical_components p
    obtain ⟨b, bs, hbs⟩ := List.exists_cons_of_ne_nil hbase
    rw [h, hbs] at hcanonical
    simpa using rank_of_inner (hcanonical.2 c (List.mem_append_right bs hc))
  rw [names_eq_filter, names_eq_filter, h, List.filter_append, hr]

theorem components_of_tidy (h : Tidy p.segments) : p.components = p.names := by
  obtain ⟨s, hs, hblank⟩ := h.1
  exact components_of_head hs hblank

theorem ofSegments_segments (p : Path) : ofSegments p.segments = p := by
  rw [ofSegments, segments, List.intercalate_splitOn, String.ofList_toList]

theorem text_ne_of_tidy (h : Tidy p.segments) : p.text ≠ "" := by
  intro hempty
  obtain ⟨s, hs, hblank⟩ := h.1
  obtain rfl : [] = s := by simpa [segments, hempty] using hs
  simp [isBlank, componentOf?] at hblank

/-- Only the empty path has no components. -/
theorem text_of_no_components (h : p.components = []) : p.text = "" := by
  cases htext : p.text.toList with
  | nil => exact String.toList_eq_nil_iff.1 htext
  | cons c t =>
    by_cases hc : c = '/'
    · have habsolute : p.isAbsolute = true := by simp [isAbsolute, htext, hc]
      simp [components, habsolute] at h
    · have habsolute : p.isAbsolute = false := by simp [isAbsolute, htext, hc]
      obtain ⟨s, r, hs⟩ := List.exists_cons_of_ne_nil (List.splitOn_ne_nil '/' t)
      have hsegments : p.segments = (c :: s) :: r := by
        simp [segments, htext, List.splitOn_cons_eq_if_modifyHead, hs, hc]
      by_cases hdot : c :: s = ['.']
      · simp [components, habsolute, hsegments, hdot] at h
      · by_cases hup : c :: s = ['.', '.'] <;>
          simp [components, habsolute, hsegments, componentOf?, hdot, hup] at h

theorem trimEnd_cases (p : Path) : ∃ s r, p.segments = s :: r ∧
    ((p.isAbsolute = true ∧ trimRight r = [] ∧ p.trimEnd = ⟨"/"⟩) ∨
      ¬(p.isAbsolute = true ∧ trimRight r = []) ∧ p.trimEnd = ofSegments (s :: trimRight r)) := by
  obtain ⟨s, r, hsegments⟩ : ∃ s r, p.segments = s :: r :=
    List.exists_cons_of_ne_nil (List.splitOn_ne_nil '/' p.text.toList)
  refine ⟨s, r, hsegments, ?_⟩
  simp only [trimEnd, hsegments, List.tail_cons, List.headD_cons, Bool.and_eq_true,
    List.isEmpty_iff]
  by_cases htop : p.isAbsolute = true ∧ trimRight r = []
  · exact .inl ⟨htop.1, htop.2, if_pos htop⟩
  · exact .inr ⟨htop, if_neg htop⟩

theorem components_trimEnd (p : Path) : p.trimEnd.components = p.components := by
  obtain ⟨s, r, hsegments, htrim⟩ := p.trimEnd_cases
  have habsolute := isAbsolute_iff hsegments
  have hnames := filterMap_trimRight r
  rcases htrim with ⟨hp, hr, htrim⟩ | ⟨htop, htrim⟩
  · -- Nothing is left but the slash of the root, so no stretch stood for a component.
    obtain ⟨rfl, -⟩ := habsolute.1 hp
    rw [hr, List.filterMap_nil, eq_comm] at hnames
    have hcomponents : p.components = [.root] := by
      simp [components, hp, hsegments, hnames, componentOf?]
    rw [hcomponents, htrim]
    decide
  · have hslash : ∀ t ∈ s :: trimRight r, '/' ∉ t := by
      intro t ht
      have hmem : t ∈ p.segments := by
        rw [hsegments]
        exact List.cons_subset_cons s (trimRight_subset r) ht
      exact not_mem_of_mem_splitOn hmem
    have hkept := segments_ofSegments (List.cons_ne_nil s (trimRight r)) hslash
    have hsame : (ofSegments (s :: trimRight r)).isAbsolute = p.isAbsolute := by
      rw [Bool.eq_iff_iff, isAbsolute_iff hkept, habsolute]
      refine and_congr_right fun hs => ?_
      constructor
      · rintro hne rfl
        exact hne rfl
      · intro hne hr
        exact htop ⟨habsolute.2 ⟨hs, hne⟩, hr⟩
    rw [htrim]
    simp only [components, hkept, hsegments, hsame, List.filterMap_cons, hnames, List.head?_cons]

theorem trimEnd_of_tidy (h : Tidy p.segments) : p.trimEnd = p := by
  obtain ⟨s, r, hsegments, ⟨hp, -⟩ | ⟨-, htrim⟩⟩ := p.trimEnd_cases
  · rw [isAbsolute_of_begins h.1] at hp
    contradiction
  · have hright : trimRight r = r := by
      rcases List.eq_nil_or_concat r with rfl | ⟨front, last, hr⟩
      · rfl
      · rw [List.concat_eq_append] at hr
        obtain ⟨t, ht, hblank⟩ := h.2
        rw [hsegments, hr, ← List.cons_append, List.getLast?_concat] at ht
        have hend : ∃ s ∈ r.getLast?, isBlank s = false := ⟨t, by simpa [hr] using ht, hblank⟩
        have hkept : trimRight (r ++ []) = r := trimRight_append hend rfl
        rwa [List.append_nil] at hkept
    rw [htrim, hright, ← hsegments, ofSegments_segments]

theorem below?_of_no_components (h : base.components = []) : p.below? base = some p.trimEnd := by
  simp [below?, h]

theorem below?_eq_none (h : ¬base.components <+: p.components) : p.below? base = none := by
  rw [below?, if_neg (by rwa [List.isPrefixOf_iff_prefix])]

/-- A directory is taken off a path where its components end, and what is left is trimmed. -/
theorem below?_eq (hbase : base.components ≠ []) (hinit : base.components <+: p.components)
    {l m : List (List Char)} (hsegments : p.segments = l ++ m)
    (hl : l.filterMap componentOf? = base.names) :
    p.below? base = some (ofSegments (trimSegments m)) := by
  obtain ⟨front, hdrop, hfront⟩ := dropComponents_append l m
  have htrim : trimSegments (front ++ m) = trimSegments m := by
    rw [trimSegments, List.dropWhile_append_of_pos (filterMap_eq_nil.1 hfront), trimSegments]
  rw [hl] at hdrop
  rw [below?, if_pos (List.isPrefixOf_iff_prefix.2 hinit), if_neg (by simpa using hbase), hsegments]
  simp only [names] at hdrop
  simp only [hdrop, htrim]

/-- A path below a directory is there spelled in one way. -/
theorem IsBelow.below?_eq (h : p.IsBelow base rel) (hbase : base.components ≠ []) :
    p.below? base = some rel := by
  obtain ⟨front, back, hsegments, hback⟩ := h.spelled
  have hnames := names_of_components hbase h.components_eq
  have hfront : front.filterMap componentOf? = base.names := by
    rw [components_of_tidy h.tidy, names, hsegments, List.filterMap_append, List.filterMap_append,
      hback, List.append_nil] at hnames
    exact List.append_cancel_right hnames
  rw [Path.below?_eq hbase ⟨_, h.components_eq.symm⟩ hsegments hfront,
    ← List.nil_append (rel.segments ++ back), trimSegments_append h.tidy rfl hback,
    ofSegments_segments]

/-- What is taken from a directory is below it, as it is spelled. -/
theorem isBelow_join (h : Tidy rel.segments) (p : Path) : (p.join rel).IsBelow p rel where
  components_eq := components_join h.1 p
  spelled := by
    rcases join_cases (isAbsolute_of_begins h.1) p with ⟨-, hjoin⟩ | ⟨s, hjoin, -⟩
    · exact ⟨[], [], by simp [hjoin], rfl⟩
    · refine ⟨s.splitOn '/', [], ?_, rfl⟩
      rw [segments, hjoin, List.splitOn_append_cons_self, List.append_nil, segments]
  tidy := h

/-- Every path with more components than a directory, but the same at its start, is below it. -/
theorem exists_isBelow (hbase : base.components ≠ []) (h : p.components = base.components ++ r)
    (hr : r ≠ []) : ∃ rel, p.IsBelow base rel ∧ rel.components = r := by
  obtain ⟨l, m, hsegments, hl, hm⟩ :=
    List.filterMap_eq_append_iff.1 (names_of_components hbase h)
  obtain ⟨htidy, front, back, hsplit, hback⟩ := exists_trimSegments (l := m) (by rwa [hm])
  have hslash : ∀ s ∈ trimSegments m, '/' ∉ s := by
    intro s hs
    have hmem : s ∈ p.segments := by
      rw [hsegments, hsplit]
      simp [hs]
    exact not_mem_of_mem_splitOn hmem
  have hspell := segments_ofSegments htidy.ne_nil hslash
  rw [← hspell] at htidy
  have hcomponents : (ofSegments (trimSegments m)).components = r := by
    rw [components_of_tidy htidy, names, hspell, filterMap_trimSegments, hm]
  have hspelled : p.segments = l ++ front ++ ((ofSegments (trimSegments m)).segments ++ back) := by
    rw [hspell, List.append_assoc, ← hsplit, hsegments]
  refine ⟨ofSegments (trimSegments m), ?_, hcomponents⟩
  exact ⟨by rw [hcomponents, h], ⟨_, back, hspelled, hback⟩, htidy⟩

end Names
end NamingLint.Path
