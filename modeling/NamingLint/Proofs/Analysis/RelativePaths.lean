import NamingLint.Analysis
import NamingLint.Proofs.PathBelow
import Mathlib.Data.List.Nodup

/-!
# Files under a root

A walk yields different files, all below its root, unless the root is itself a file and the only
one. The path of a file below the root keeps its file name, and so its language, and the files are
in the same order by these paths as by their whole paths.
-/
namespace NamingLint

namespace Path

theorem fileName?_eq {p : Path} : p.fileName? = p.components.getLast?.bind fun c =>
    match c with
    | .name t => some t
    | _ => none := by
  unfold fileName?
  cases p.components.getLast? with
  | none => rfl
  | some c => cases c <;> rfl

theorem isFileName_of_fileName? {p : Path} {name : String} (h : p.fileName? = some name) :
    IsFileName name := by
  rw [fileName?_eq, Option.bind_eq_some_iff] at h
  obtain ⟨c, hlast, hc⟩ := h
  obtain ⟨r, hr⟩ := List.getLast?_eq_some_iff.1 hlast
  have hcanonical := canonical_components p
  rw [hr] at hcanonical
  have hinner : Canonical [c] := hcanonical.append_right
  cases c with
  | name t =>
    obtain rfl := Option.some.inj hc
    simpa [Canonical, IsFileName] using hinner
  | root => simp at hc
  | here => simp at hc
  | up => simp at hc

end Path

namespace Analysis
open NamingLint.Path

theorem relativePath_of_isBelow {root p rel : Path} (h : p.IsBelow root rel)
    (hroot : root.components ≠ []) : relativePath root p = rel := by
  have hne := text_ne_of_tidy h.tidy
  simp [relativePath, h.below?_eq hroot, hne]

/-- Without a root to take off, a path stays as it is, up to its last component. -/
theorem relativePath_of_no_components {root p : Path} (hroot : root.components = [])
    (hp : p.components ≠ []) : relativePath root p = p.trimEnd := by
  have hne : p.trimEnd.text ≠ "" := by
    intro hempty
    rw [← components_trimEnd, components_of_empty hempty] at hp
    exact hp rfl
  simp [relativePath, below?_of_no_components hroot, hne]

/-- A file below the root goes by what its path adds to that of the root. -/
theorem relativePath_components {root p : Path} {r : List Component}
    (h : p.components = root.components ++ r) (hr : r ≠ []) :
    (relativePath root p).components = r := by
  by_cases hroot : root.components = []
  · rw [hroot, List.nil_append] at h
    rw [relativePath_of_no_components hroot (h ▸ hr), components_trimEnd, h]
  · obtain ⟨rel, hbelow, hrel⟩ := exists_isBelow hroot h hr
    rw [relativePath_of_isBelow hbelow hroot, hrel]

theorem relativePath_self {root p : Path} (h : p.components = root.components)
    (hroot : root.components ≠ []) : relativePath root p = relativePath.fallback p := by
  have hnames := names_of_components (r := []) hroot (by rw [h, List.append_nil])
  rw [List.append_nil] at hnames
  have hbelow : p.below? root = some (ofSegments (trimSegments [])) :=
    below?_eq hroot (h ▸ List.prefix_refl _) (List.append_nil _).symm hnames
  have hempty : (ofSegments (trimSegments [])).text.isEmpty = true := by decide
  simp [relativePath, hbelow, hempty]

theorem fallback_fileName? (p : Path) : (relativePath.fallback p).fileName? = p.fileName? := by
  unfold relativePath.fallback
  cases hname : p.fileName? with
  | none => simp [hname]
  | some name =>
    have hcomponents := components_name (isFileName_of_fileName? hname)
    simp [fileName?_eq, hcomponents]

theorem relativePath_fileName? (root p : Path) :
    (relativePath root p).fileName? = p.fileName? := by
  by_cases hinit : root.components <+: p.components
  · obtain ⟨r, hsplit⟩ := hinit
    by_cases hr : r = []
    · rw [hr, List.append_nil] at hsplit
      by_cases hroot : root.components = []
      · rw [hroot, eq_comm] at hsplit
        obtain rfl : p = ⟨""⟩ := congrArg Path.mk (text_of_no_components hsplit)
        have hempty : (Path.mk "").trimEnd.text = "" := by decide
        simp [relativePath, below?_of_no_components hroot, hempty, fallback_fileName?]
      · rw [relativePath_self hsplit.symm hroot, fallback_fileName?]
    · rw [fileName?_eq, fileName?_eq, relativePath_components hsplit.symm hr, ← hsplit,
        List.getLast?_append, List.getLast?_eq_some_getLast hr, Option.some_or]
  · simp [relativePath, below?_eq_none hinit, fallback_fileName?]

theorem relativePath_language (root p : Path) :
    Language.ofPath? (relativePath root p) = Language.ofPath? p := by
  unfold Language.ofPath? Path.extension?
  rw [relativePath_fileName?]

end Analysis

/-- The files that a walk from a root yields: no file twice, and all of them below the root, unless
the root is itself a file. -/
structure Visits (root : Path) (visited : List Path) : Prop where
  distinct : (visited.map Path.components).Nodup
  below : (∀ p ∈ visited, ∃ r, r ≠ [] ∧ p.components = root.components ++ r) ∨
    ∃ p, visited = [p] ∧ p.components = root.components

namespace Visits
open Analysis
variable {root p q : Path} {visited visited' : List Path}

theorem perm (h : Visits root visited) (hperm : visited'.Perm visited) : Visits root visited' where
  distinct := (hperm.map Path.components).nodup_iff.2 h.distinct
  below := by
    rcases h.below with hbelow | ⟨p, hp, hroot⟩
    · left
      intro p hp
      exact hbelow p (hperm.mem_iff.1 hp)
    · right
      subst hp
      exact ⟨p, List.perm_singleton.1 hperm, hroot⟩

theorem compare_relativePath (h : Visits root visited) (hp : p ∈ visited) (hq : q ∈ visited) :
    compare (relativePath root p) (relativePath root q) = compare p q := by
  rcases h.below with hbelow | ⟨f, rfl, -⟩
  · obtain ⟨r, hr, hpr⟩ := hbelow p hp
    obtain ⟨s, hs, hqs⟩ := hbelow q hq
    change compare (relativePath root p).components (relativePath root q).components =
      compare p.components q.components
    rw [relativePath_components hpr hr, relativePath_components hqs hs, hpr, hqs,
      Path.compare_append]
  · rw [List.mem_singleton] at hp hq
    subst hp hq
    rw [Std.ReflOrd.compare_self, Std.ReflOrd.compare_self]

theorem relativePath_inj (h : Visits root visited) (hp : p ∈ visited) (hq : q ∈ visited)
    (heq : relativePath root p = relativePath root q) : p = q := by
  have hcompare := h.compare_relativePath hp hq
  rw [heq, Std.ReflOrd.compare_self, eq_comm, Path.compare_eq_iff] at hcompare
  exact List.inj_on_of_nodup_map h.distinct hp hq hcompare

end Visits
end NamingLint
