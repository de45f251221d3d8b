import NamingLint.Proofs.Analysis.RelativePaths

/-!
# What a walk yields

A walk of a tree of files yields no file twice. All of them are below its root, unless the root is
itself a file, and they are spelled as the root is, with what is below it behind.
-/
namespace NamingLint

namespace Path
variable {p q : Path} {name : String} {names : List String}

theorem IsFileName.isBlank_eq_false (h : IsFileName name) : isBlank name.toList = false := by
  have hcomponent : componentOf? name.toList = some (.name name) := h.2
  simp [isBlank, hcomponent]

/-- Taken from a directory, relative paths all stand behind the same text. -/
theorem exists_join (p : Path) :
    ∃ t, ∀ q : Path, q.isAbsolute = false → p.join q = ⟨t ++ q.text⟩ := by
  by_cases hslash : p.text.toList.getLast?.all (· = '/')
  · exact ⟨p.text, fun q hq => by simp [join, hq, hslash]⟩
  · exact ⟨p.text ++ "/", fun q hq => by simp [join, hq, hslash]⟩

/-- A directory whose spelling ends with a name needs a slash. -/
theorem join_behind_name (h : IsFileName name) (hq : q.isAbsolute = false) (t : String) :
    (Path.mk (t ++ name)).join q = ⟨t ++ name ++ "/" ++ q.text⟩ := by
  obtain ⟨s, c, hs⟩ := (List.eq_nil_or_concat name.toList).resolve_left h.text_ne.1
  have hc : c ≠ '/' := by
    rintro rfl
    exact h.1 (by rw [Component.text, hs]; simp)
  simp [join, hq, hs, hc]

theorem segments_ofNames (hne : names ≠ []) (h : ∀ name ∈ names, IsFileName name) :
    (ofSegments (names.map String.toList)).segments = names.map String.toList := by
  apply segments_ofSegments (by simpa using hne)
  intro s hs
  obtain ⟨name, hname, rfl⟩ := List.mem_map.1 hs
  exact (h name hname).1

theorem tidy_ofNames (hne : names ≠ []) (h : ∀ name ∈ names, IsFileName name) :
    Tidy (ofSegments (names.map String.toList)).segments := by
  rw [segments_ofNames hne h]
  constructor
  · obtain ⟨name, rest, rfl⟩ := List.exists_cons_of_ne_nil hne
    exact ⟨name.toList, rfl, (h name List.mem_cons_self).isBlank_eq_false⟩
  · refine ⟨(names.getLast hne).toList, ?_, (h _ (List.getLast_mem hne)).isBlank_eq_false⟩
    rw [List.getLast?_map, List.getLast?_eq_some_getLast hne]
    rfl

/-- Going down name by name leads to the names with slashes between them. -/
theorem pathBelow_eq {t : String} (ht : ∀ q : Path, q.isAbsolute = false → p.join q = ⟨t ++ q.text⟩)
    (hne : names ≠ []) (h : ∀ name ∈ names, IsFileName name) :
    Walk.pathBelow p names = ⟨t ++ (ofSegments (names.map String.toList)).text⟩ := by
  -- One step down the root grows by a name, and so does the text `t` that all paths stand behind.
  induction names generalizing p t with
  | nil => exact absurd rfl hne
  | cons name names ih =>
    obtain ⟨hname, hnames⟩ := List.forall_mem_cons.1 h
    have hfirst : p.join ⟨name⟩ = ⟨t ++ name⟩ := ht ⟨name⟩ (isAbsolute_of_begins hname.begins)
    cases names with
    | nil => simpa [Walk.pathBelow, ofSegments] using hfirst
    | cons next rest =>
      have hdown : Walk.pathBelow p (name :: next :: rest) =
          Walk.pathBelow ⟨t ++ name⟩ (next :: rest) := by
        rw [Walk.pathBelow, List.foldl_cons, hfirst]
        rfl
      rw [hdown, ih (fun q hq => join_behind_name hname hq t) (by simp) hnames]
      simp [ofSegments, String.append_assoc]

/-- What a walk comes to below a root is taken from the root. -/
theorem exists_pathBelow_eq_join (root : Path) (hne : names ≠ [])
    (h : ∀ name ∈ names, IsFileName name) :
    ∃ rel, Tidy rel.segments ∧ Walk.pathBelow root names = root.join rel := by
  obtain ⟨t, ht⟩ := exists_join root
  have htidy := tidy_ofNames hne h
  refine ⟨_, htidy, ?_⟩
  rw [pathBelow_eq ht hne h, ht _ (isAbsolute_of_begins htidy.1)]

end Path

/-- How a walk spells what it yields: the root as it is if that is a file, and else the root with
what is below it behind. -/
def SpelledFrom (root : Path) (rootIsFile : Bool) (visited : List Path) : Prop :=
  ∀ p ∈ visited, if rootIsFile then p = root else ∃ rel, Path.Tidy rel.segments ∧ p = root.join rel

/-- What holds of the files of a machine: places consist of file names, the top is not listed, and
no place is listed twice. -/
structure FileTree.Proper (t : FileTree) : Prop where
  below_top : ∀ e ∈ t.nodes, e.1 ≠ []
  names : ∀ e ∈ t.nodes, ∀ name ∈ e.1, Path.IsFileName name
  places : (t.nodes.map Prod.fst).Nodup

namespace Walk
variable {t : FileTree} {useGit : Bool} {root : Place} {names : List String}

theorem components_pathBelow (spelled : Path) (h : ∀ name ∈ names, Path.IsFileName name) :
    (pathBelow spelled names).components =
      spelled.components ++ names.map Path.Component.name := by
  unfold pathBelow
  induction names generalizing spelled with
  | nil => simp
  | cons name names ih =>
    rw [List.foldl_cons, ih _ fun n hn => h n (List.mem_cons_of_mem name hn),
      Path.components_join_name (h name List.mem_cons_self)]
    simp

/-- The names below the root under which a walk lists a node. -/
def listed? (t : FileTree) (useGit : Bool) (root : Place) (e : Place × FileNode) :
    Option (List String) :=
  match e.2 with
  | .file _ => if reaches t useGit root e.1 then some (e.1.drop root.length) else none
  | .directory => none

theorem filesBelow_eq (t : FileTree) (useGit : Bool) (root : Place) :
    filesBelow t useGit root = t.nodes.filterMap (listed? t useGit root) :=
  rfl

/-- Only files are listed, and under what their place adds to that of the root. -/
theorem place_of_listed {e : Place × FileNode} (h : listed? t useGit root e = some names) :
    e.1 = root ++ names ∧ e.2 ≠ .directory := by
  obtain ⟨place, node⟩ := e
  unfold listed? at h
  cases node with
  | directory => simp at h
  | file content =>
    by_cases hreach : reaches t useGit root place
    · simp only [hreach, if_true, Option.some.injEq] at h
      unfold reaches at hreach
      obtain ⟨rest, rfl⟩ := List.isPrefixOf_iff_prefix.1 (Bool.and_eq_true_iff.1 hreach).1
      simpa using h
    · simp [hreach] at h

section
variable (h : t.Proper)
include h

theorem filesBelow_nodup : (filesBelow t useGit root).Nodup := by
  rw [filesBelow_eq]
  apply List.pairwise_filterMap.2
  apply (List.pairwise_map.1 h.places).imp
  intro e e' hne names hnames names' hnames' heq
  apply hne
  rw [(place_of_listed hnames).1, (place_of_listed hnames').1, heq]

theorem isFileName_of_filesBelow (hmem : names ∈ filesBelow t useGit root) :
    ∀ name ∈ names, Path.IsFileName name := by
  intro name hname
  obtain ⟨e, he, hlisted⟩ := List.mem_filterMap.1 hmem
  apply h.names e he name
  rw [(place_of_listed hlisted).1]
  exact List.mem_append_right root hname

theorem ne_nil_of_filesBelow (hroot : t.node? root = some .directory)
    (hmem : names ∈ filesBelow t useGit root) : names ≠ [] := by
  intro hnil
  obtain ⟨e, he, hlisted⟩ := List.mem_filterMap.1 hmem
  obtain ⟨hplace, hfile⟩ := place_of_listed hlisted
  rw [hnil, List.append_nil] at hplace
  have hne := h.below_top e he
  rw [hplace] at hne
  have hlookup : t.nodes.lookup root = some .directory := by
    simpa [FileTree.node?, hne] using hroot
  obtain ⟨front, back, hnodes, -⟩ := List.lookup_eq_some_iff.1 hlookup
  -- The place of the root would be listed twice, as a file and as a directory.
  have hdirectory : (root, FileNode.directory) ∈ t.nodes := by simp [hnodes]
  have heq := List.inj_on_of_nodup_map h.places he hdirectory hplace
  exact hfile (congrArg Prod.snd heq)

/-- The files below a directory are different paths below that of the directory. -/
theorem visits_filesBelow (hroot : t.node? root = some .directory) (spelled : Path) :
    Visits spelled ((filesBelow t useGit root).map (pathBelow spelled)) := by
  have hcomponents : ∀ names ∈ filesBelow t useGit root,
      (pathBelow spelled names).components =
        spelled.components ++ names.map Path.Component.name :=
    fun names hmem => components_pathBelow spelled (isFileName_of_filesBelow h hmem)
  constructor
  · rw [List.map_map]
    apply (filesBelow_nodup h).map_on
    intro names hnames names' hnames' heq
    rw [Function.comp, Function.comp, hcomponents names hnames, hcomponents names' hnames'] at heq
    exact List.map_injective_iff.2 (fun _ _ => Path.Component.name.inj)
      (List.append_cancel_left heq)
  · left
    intro p hp
    obtain ⟨names, hnames, rfl⟩ := List.mem_map.1 hp
    refine ⟨names.map Path.Component.name, ?_, hcomponents names hnames⟩
    simpa using ne_nil_of_filesBelow h hroot hnames

end
end Walk

namespace FileTree
variable {t : FileTree} {useGit : Bool} {root : Path} {visited : List Path}

/-- A walk yields its root if that is a file, and else the files that it comes to below it. -/
theorem walk_cases (h : t.disk.walk useGit root = .ok visited) :
    (t.disk.isFile root = true ∧ visited = [root]) ∨
      (t.disk.isFile root = false ∧ ∃ place, t.node? place = some .directory ∧
        visited = (Walk.filesBelow t useGit place).map (Walk.pathBelow root)) := by
  change t.walk useGit root = .ok visited at h
  unfold walk at h
  cases hresolve : t.resolve [] root with
  | error cause => simp [hresolve] at h
  | ok place =>
    cases hnode : t.node? place with
    | none => simp [hresolve, hnode] at h
    | some node =>
      have hfind : t.find [] root = .ok node := by
        simp [find, hresolve, hnode, bind, Except.bind, pure, Except.pure]
      cases node with
      | file content =>
        simp only [hresolve, hnode, Except.ok.injEq] at h
        exact .inl ⟨by simp [disk, findsFile, hfind], h.symm⟩
      | directory =>
        by_cases hbad : (Walk.badLinesAbove t useGit place).isEmpty
        · simp only [hresolve, hnode, hbad, if_true, Except.ok.injEq] at h
          exact .inr ⟨by simp [disk, findsFile, hfind], place, hnode, h.symm⟩
        · simp [hresolve, hnode, hbad] at h

/-- A walk of a proper tree yields different files below its root, or the root. -/
theorem walk_visits (h : t.Proper) (hwalk : t.disk.walk useGit root = .ok visited) :
    Visits root visited := by
  rcases walk_cases hwalk with ⟨-, rfl⟩ | ⟨-, place, hnode, rfl⟩
  · exact ⟨by simp, .inr ⟨root, rfl, rfl⟩⟩
  · exact Walk.visits_filesBelow h hnode root

theorem walk_spelled (h : t.Proper) (hwalk : t.disk.walk useGit root = .ok visited) :
    SpelledFrom root (t.disk.isFile root) visited := by
  intro p hp
  rcases walk_cases hwalk with ⟨hfile, rfl⟩ | ⟨hfile, place, hnode, rfl⟩
  · rw [hfile]
    exact List.mem_singleton.1 hp
  · rw [hfile]
    obtain ⟨names, hnames, rfl⟩ := List.mem_map.1 hp
    exact Path.exists_pathBelow_eq_join root (Walk.ne_nil_of_filesBelow h hnode hnames)
      (Walk.isFileName_of_filesBelow h hnames)

end FileTree
end NamingLint
