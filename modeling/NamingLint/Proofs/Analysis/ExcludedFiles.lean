import NamingLint.Proofs.Analysis.PerFile

/-!
# Which files are left out

A file is left out by what its path adds to that of the root, and by nothing else. A pattern applies
to it as a glob or by the components that it names, which have to stand side by side in the path.
-/
namespace NamingLint

namespace ExcludePattern

/-- The components that a pattern names: its stretches between slashes that are neither empty nor a
double star. -/
def namedComponents (text : String) : List String :=
  ((text.toList.splitOn '/').filter fun s => s ≠ [] ∧ s ≠ ['*', '*']).map String.ofList

/-- Every double star of a pattern is a whole component. -/
def WholeDoubleStars (text : String) : Prop :=
  ∀ s ∈ text.toList.splitOn '/', ['*', '*'] <:+: s → s = ['*', '*']

instance (text : String) : Decidable (WholeDoubleStars text) :=
  inferInstanceAs (Decidable (∀ s ∈ _, _))

theorem withoutDoubleStars_cons {c : Char} {s : List Char} (h : ¬(c = '*' ∧ s.head? = some '*')) :
    withoutDoubleStars (c :: s) = c :: withoutDoubleStars s := by
  rw [withoutDoubleStars]
  rintro r rfl rfl
  exact h ⟨rfl, rfl⟩

theorem exists_of_head?_splitOn {r s : List Char} {rest : List (List Char)} {c : Char}
    (hr : r.splitOn '/' = s :: rest) (hs : s.head? = some c) : ∃ r', r = c :: r' := by
  cases r with
  | nil =>
    obtain ⟨rfl, -⟩ : [] = s ∧ [] = rest := by simpa using hr
    simp at hs
  | cons d r =>
    obtain ⟨t, ts, ht⟩ := List.exists_cons_of_ne_nil (List.splitOn_ne_nil '/' r)
    rw [List.splitOn_cons_eq_if_modifyHead, ht] at hr
    by_cases hd : d = '/'
    · obtain ⟨rfl, -⟩ : [] = s ∧ t :: ts = rest := by simpa [hd] using hr
      simp at hs
    · obtain ⟨rfl, -⟩ : d :: t = s ∧ ts = rest := by simpa [hd] using hr
      obtain rfl : d = c := by simpa using hs
      exact ⟨r, rfl⟩

/-- Double stars have no slash, so they are taken out of each stretch between slashes alone. -/
theorem splitOn_withoutDoubleStars (cs : List Char) :
    (withoutDoubleStars cs).splitOn '/' = (cs.splitOn '/').map withoutDoubleStars := by
  fun_induction withoutDoubleStars cs with
  | case1 r ih =>
    obtain ⟨s, rest, hr⟩ := List.exists_cons_of_ne_nil (List.splitOn_ne_nil '/' r)
    rw [ih, List.splitOn_cons_eq_if_modifyHead, List.splitOn_cons_eq_if_modifyHead, hr]
    simp [withoutDoubleStars]
  | case2 c r hstars ih =>
    obtain ⟨s, rest, hr⟩ := List.exists_cons_of_ne_nil (List.splitOn_ne_nil '/' r)
    rw [List.splitOn_cons_eq_if_modifyHead, List.splitOn_cons_eq_if_modifyHead, ih, hr]
    by_cases hc : c = '/'
    · simp [hc, withoutDoubleStars]
    · have hhead : ¬(c = '*' ∧ s.head? = some '*') := by
        rintro ⟨rfl, hs⟩
        obtain ⟨r', rfl⟩ := exists_of_head?_splitOn hr hs
        exact hstars r' rfl rfl
      simp [hc, withoutDoubleStars_cons hhead]
  | case3 => simp [withoutDoubleStars]

theorem withoutDoubleStars_eq_self {s : List Char} (h : ¬['*', '*'] <:+: s) :
    withoutDoubleStars s = s := by
  fun_induction withoutDoubleStars s with
  | case1 r ih => exact absurd (List.prefix_append ['*', '*'] r).isInfix h
  | case2 c r hstars ih => rw [ih fun hr => h (hr.trans (List.suffix_cons c r).isInfix)]
  | case3 => rfl

theorem segments_eq_namedComponents {text : String} (h : WholeDoubleStars text) :
    segments text = namedComponents text := by
  rw [segments, splitOn_withoutDoubleStars, List.filterMap_map, namedComponents]
  unfold WholeDoubleStars at h
  generalize text.toList.splitOn '/' = stretches at h ⊢
  induction stretches with
  | nil => rfl
  | cons s rest ih =>
    obtain ⟨hs, hrest⟩ := List.forall_mem_cons.1 h
    by_cases hstars : ['*', '*'] <:+: s
    · obtain rfl := hs hstars
      simpa [withoutDoubleStars] using ih hrest
    · have hne : s ≠ ['*', '*'] := by
        rintro rfl
        exact hstars (List.infix_refl _)
      have hself := withoutDoubleStars_eq_self hstars
      by_cases hempty : s = []
      · simpa [hempty, withoutDoubleStars] using ih hrest
      · simpa [hself, hempty, hne] using ih hrest

theorem occursIn_iff {run l : List String} : occursIn run l = true ↔ run <:+: l := by
  induction l with
  | nil => simp [occursIn]
  | cons c l ih =>
    rw [occursIn, Bool.or_eq_true, ih, List.isPrefixOf_iff_prefix, List.infix_cons_iff]

/-- A pattern applies to a path as a glob or by the components that it names. -/
theorem excludes_iff {pattern : ExcludePattern} (h : WholeDoubleStars pattern.text)
    (admits : Glob → String → Bool) (path : Path) :
    pattern.excludes admits path = true ↔ admits pattern.glob path.text = true ∨
      namedComponents pattern.text ≠ [] ∧
        namedComponents pattern.text <:+: path.components.map (·.text) := by
  simp [excludes, namesPartOf, segments_eq_namedComponents h, occursIn_iff]

theorem parse_eq_ok_iff {text : String} {pattern : ExcludePattern} :
    parse text = .ok pattern ↔ pattern.text = text ∧ Glob.parse text = .ok pattern.glob := by
  unfold parse
  cases Glob.parse text with
  | error e => simp [bind, Except.bind]
  | ok glob =>
    cases pattern
    simp [bind, Except.bind, pure, Except.pure, eq_comm]

/-- Patterns that were read keep their texts, in order, and each goes with the glob of its text. -/
theorem parsed_of_mapM {texts : List String} {patterns : List ExcludePattern}
    (h : texts.mapM parse = .ok patterns) :
    patterns.map (·.text) = texts ∧ ∀ p ∈ patterns, Glob.parse p.text = .ok p.glob := by
  induction texts generalizing patterns with
  | nil =>
    obtain rfl : [] = patterns := by simpa [pure, Except.pure] using h
    simp
  | cons text texts ih =>
    rw [List.mapM_cons] at h
    cases hfirst : parse text with
    | error e => simp [hfirst, bind, Except.bind] at h
    | ok first =>
      cases hrest : texts.mapM parse with
      | error e => simp [hfirst, hrest, bind, Except.bind] at h
      | ok rest =>
        obtain rfl : first :: rest = patterns := by
          simpa [hfirst, hrest, bind, Except.bind, pure, Except.pure] using h
        obtain ⟨htext, hglob⟩ := parse_eq_ok_iff.1 hfirst
        obtain ⟨htexts, hglobs⟩ := ih hrest
        rw [List.map_cons, htext, htexts, List.forall_mem_cons, htext]
        exact ⟨rfl, hglob, hglobs⟩

end ExcludePattern

namespace Analysis
open NamingLint.Path ExcludePattern

/-- What a file goes by in an analysis of a root: what its path spells below the root, and for the
root itself its file name. -/
inductive GoesBy (root : Path) : Path → Path → Prop where
  | below {path rel : Path} (h : path.IsBelow root rel) : GoesBy root path rel
  | itself {path : Path} {name : String} (h : path.components = root.components)
      (hname : path.fileName? = some name) : GoesBy root path ⟨name⟩

theorem GoesBy.relativePath_eq {root path rel : Path} (h : GoesBy root path rel)
    (hroot : root.components ≠ []) : relativePath root path = rel := by
  cases h with
  | below h => exact relativePath_of_isBelow h hroot
  | itself h hname => simp [relativePath_self h hroot, relativePath.fallback, hname]

section
variable {g : Grammar} {current : Path} {root? : Option Path} {patterns : List String}
  {settings : Settings} {a : Analysis}

theorem root_components_ne_nil (hcurrent : current.isAbsolute = true)
    (hready : prepare (some g) current root? patterns settings = .ok a) :
    a.root.components ≠ [] := by
  obtain ⟨-, -, hroot, -⟩ := prepare_eq_ok hready
  have habsolute : a.root.isAbsolute = true := by
    rw [hroot]
    exact isAbsolute_join hcurrent _
  simp [components, habsolute]

theorem excludes_iff_of_goesBy (hcurrent : current.isAbsolute = true)
    (hready : prepare (some g) current root? patterns settings = .ok a)
    (hstars : ∀ text ∈ patterns ++ settings.scan.exclude, WholeDoubleStars text) {path rel : Path}
    (h : GoesBy a.root path rel) (admits : Glob → String → Bool) :
    a.excludesBy admits path = true ↔ ∃ text ∈ patterns ++ settings.scan.exclude,
      (∃ glob, Glob.parse text = .ok glob ∧ admits glob rel.text = true) ∨
        namedComponents text ≠ [] ∧ namedComponents text <:+: rel.components.map (·.text) := by
  obtain ⟨-, -, -, hexclude⟩ := prepare_eq_ok hready
  obtain ⟨htexts, hglobs⟩ := parsed_of_mapM hexclude
  rw [excludesBy, h.relativePath_eq (root_components_ne_nil hcurrent hready), isExcluded,
    List.any_eq_true]
  rw [← htexts] at hstars ⊢
  constructor
  · rintro ⟨pattern, hpattern, hexcludes⟩
    have htext := List.mem_map_of_mem (f := ExcludePattern.text) hpattern
    refine ⟨pattern.text, htext, ?_⟩
    rcases (excludes_iff (hstars _ htext) admits rel).1 hexcludes with hadmits | hnamed
    · exact .inl ⟨pattern.glob, hglobs pattern hpattern, hadmits⟩
    · exact .inr hnamed
  · rintro ⟨text, htext, happlies⟩
    obtain ⟨pattern, hpattern, rfl⟩ := List.mem_map.1 htext
    refine ⟨pattern, hpattern, (excludes_iff (hstars _ htext) admits rel).2 ?_⟩
    rcases happlies with ⟨glob, hparse, hadmits⟩ | hnamed
    · obtain rfl : pattern.glob = glob := by simpa [hglobs pattern hpattern] using hparse
      exact .inl hadmits
    · exact .inr hnamed

end

/-- An analysis with the default patterns and one of its own, of a root below a directory that one
of the default patterns names. -/
def builtAnalysis : Analysis where
  grammar := mixedGrammar
  root := ⟨"/dist/p/"⟩
  exclude := [⟨"src/test", ⟨"src/test".toList.map .char⟩⟩,
    ⟨"**/node_modules/**", ⟨.directories :: "node_modules/".toList.map .char ++ [.directories]⟩⟩,
    ⟨"**/dist/**", ⟨.directories :: "dist/".toList.map .char ++ [.directories]⟩⟩]
  settings := {}

theorem builtAnalysis_ready :
    prepare (some mixedGrammar) ⟨"/dist"⟩ (some ⟨"p/"⟩) ["src/test"] {} = .ok builtAnalysis := by
  have hexclude : (["src/test"] ++ ({} : Settings).scan.exclude).mapM ExcludePattern.parse =
      .ok builtAnalysis.exclude := by decide +kernel
  exact prepare_of_patterns hexclude ..

theorem builtAnalysis_goesBy :
    GoesBy builtAnalysis.root ⟨"/dist//p/./src//test/a.ts/"⟩ ⟨"src//test/a.ts"⟩ :=
  .below {
    components_eq := by decide +kernel
    spelled := ⟨["", "dist", "", "p", "."].map String.toList, [[]], by decide +kernel⟩
    tidy := ⟨⟨"src".toList, by decide +kernel⟩, ⟨"a.ts".toList, by decide +kernel⟩⟩
  }

end Analysis
end NamingLint
