import NamingLint.DiagnosticStore
import NamingLint.Proofs.Path

/-!
# Reading the store after a change

A change for one path decides what is read for that path, in any of its spellings, and for no
other. Nothing is asked of the order of the entries.
-/
namespace NamingLint

namespace DiagnosticStore

def lookup (entries : List (Path × List Diagnostic)) (p : Path) : List Diagnostic :=
  ((entries.find? (·.1.components == p.components)).map Prod.snd).getD []

theorem get_eq_lookup (store : DiagnosticStore) (p : Path) :
    store.get p = lookup store.entries p := by
  unfold get lookup
  cases store.entries.find? (·.1.components == p.components) <;> rfl

theorem lookup_cons (e : Path × List Diagnostic) (r : List (Path × List Diagnostic)) (p : Path) :
    lookup (e :: r) p = if e.1.components = p.components then e.2 else lookup r p := by
  unfold lookup
  by_cases h : e.1.components = p.components
  · simp [h]
  · simp [h]

theorem insertInto_of_lt {path : Path} {found : List Diagnostic}
    {entries : List (Path × List Diagnostic)} (h : ∀ e ∈ entries, compare e.1 path = .lt) :
    insertInto path found entries = entries ++ [(path, found)] := by
  induction entries with
  | nil => rfl
  | cons e r ih =>
    have hgt : compare path e.1 = .gt := Std.OrientedCmp.gt_of_lt (h e List.mem_cons_self)
    rw [insertInto, hgt, List.cons_append, ih fun e' he => h e' (List.mem_cons_of_mem e he)]

theorem lookup_insertInto (path : Path) (found : List Diagnostic)
    (entries : List (Path × List Diagnostic)) (p : Path) :
    lookup (insertInto path found entries) p =
      if path.components = p.components then found else lookup entries p := by
  induction entries with
  | nil => rw [insertInto, lookup_cons]
  | cons e r ih =>
    obtain ⟨q, old⟩ := e
    rw [insertInto]
    cases hc : compare path q with
    | lt =>
      simp only [lookup_cons]
    | eq =>
      have hq := Path.compare_eq_iff.1 hc
      simp only [lookup_cons, hq]
      split <;> rfl
    | gt =>
      have hq : path.components ≠ q.components :=
        (Path.components_ne_of_lt (Std.OrientedCmp.gt_iff_lt.1 hc)).symm
      simp only [lookup_cons, ih]
      by_cases hp : path.components = p.components
      · rw [if_pos hp, if_pos hp, if_neg (hp ▸ hq.symm)]
      · rw [if_neg hp, if_neg hp]

theorem get_clear (store : DiagnosticStore) (path p : Path) :
    (store.clear path).get p =
      if path.components = p.components then [] else store.get p := by
  rw [get_eq_lookup, get_eq_lookup, clear]
  induction store.entries with
  | nil => split <;> rfl
  | cons e r ih =>
    by_cases he : e.1.components = path.components
    · rw [List.filter_cons_of_neg (by simp [he]), ih, lookup_cons, he]
      split <;> rfl
    · rw [List.filter_cons_of_pos (by simpa using he), lookup_cons, ih, lookup_cons]
      by_cases hp : path.components = p.components
      · have hne : e.1.components ≠ p.components := hp ▸ he
        simp only [hp, hne, if_true, if_false]
      · simp only [hp, if_false]

theorem get_set (store : DiagnosticStore) (path : Path) (found : List Diagnostic) (p : Path) :
    (store.set path found).get p =
      if path.components = p.components then found else store.get p := by
  unfold set
  cases found with
  | nil => exact get_clear store path p
  | cons d ds =>
    rw [if_neg (by simp), get_eq_lookup, lookup_insertInto, get_eq_lookup]

section
variable {store : DiagnosticStore} {path : Path}
  (h : ∀ e ∈ store.entries, compare e.1 path = .lt)
include h

theorem entries_clear_of_lt : (store.clear path).entries = store.entries := by
  apply List.filter_eq_self.2
  intro e he
  simpa using Path.components_ne_of_lt (h e he)

theorem entries_set_of_lt (found : List Diagnostic) :
    (store.set path found).entries =
      store.entries ++ if found.isEmpty then [] else [(path, found)] := by
  unfold set
  cases hfound : found.isEmpty with
  | true => simp [entries_clear_of_lt h]
  | false => simp [insertInto_of_lt h]

end

end DiagnosticStore
end NamingLint
