import NamingLint.Proofs.PathBelow

/-!
# Texts on one line

A text without line feeds stays one line wherever it is written. Texts that are each ended by a line
feed are the lines of what they make together.
-/
namespace NamingLint

namespace Text

def OneLine (text : String) : Prop :=
  '\n' ∉ text.toList

instance (text : String) : Decidable (OneLine text) :=
  inferInstanceAs (Decidable (_ ∉ _))

@[simp] theorem lineFeed_not_mem_toDigits (n : Nat) : '\n' ∉ Nat.toDigits 10 n := by
  intro h
  exact absurd (Nat.isDigit_of_mem_toDigits (by decide) (by decide) h) (by decide)

variable {lines : List String} (h : ∀ line ∈ lines, OneLine line)
include h

/-- Behind the last line feed there is nothing. -/
theorem splitOn_join : (String.join (lines.map (· ++ "\n"))).toList.splitOn '\n' =
    lines.map String.toList ++ [[]] := by
  induction lines with
  | nil => simp
  | cons line lines ih =>
    obtain ⟨hline, hlines⟩ := List.forall_mem_cons.1 h
    have htext : (String.join ((line :: lines).map (· ++ "\n"))).toList =
        line.toList ++ '\n' :: (String.join (lines.map (· ++ "\n"))).toList := by
      simp
    rw [htext, List.splitOn_append_cons_self, List.splitOn_eq_singleton hline, ih hlines]
    rfl

theorem count_join :
    (String.join (lines.map (· ++ "\n"))).toList.count '\n' = lines.length := by
  induction lines with
  | nil => simp
  | cons line lines ih =>
    obtain ⟨hline, hlines⟩ := List.forall_mem_cons.1 h
    have hcount : line.toList.count '\n' = 0 := List.count_eq_zero.2 hline
    rw [List.map_cons, String.join_cons, String.toList_append, String.toList_append,
      List.count_append, List.count_append, ih hlines, hcount]
    simp [Nat.add_comm]

end Text

namespace Path
open Text
variable {p base : Path}

theorem mem_intercalate {c : Char} {l : List (List Char)} :
    c ∈ ['/'].intercalate l ↔ (c = '/' ∧ 1 < l.length) ∨ ∃ s ∈ l, c ∈ s := by
  induction l with
  | nil => simp
  | cons s l ih =>
    cases l with
    | nil => simp
    | cons t l =>
      have hlength : 1 < (s :: t :: l).length := by simp
      rw [List.intercalate_cons_cons, List.mem_append, List.mem_append, ih, List.mem_singleton,
        List.exists_mem_cons_iff _ s]
      tauto

theorem subset_of_mem_segments {s : List Char} (h : s ∈ p.segments) : s ⊆ p.text.toList := by
  have htext : ['/'].intercalate p.segments = p.text.toList := List.intercalate_splitOn '/'
  rw [← htext]
  intro c hc
  exact mem_intercalate.2 (.inr ⟨s, h, hc⟩)

theorem trimSegments_subset (l : List (List Char)) : trimSegments l ⊆ l := by
  intro s hs
  exact (List.dropWhile_sublist isBlank).subset (trimRight_subset _ hs)

theorem dropComponents_subset (n : Nat) (l : List (List Char)) : dropComponents n l ⊆ l := by
  induction l generalizing n with
  | nil => cases n <;> simp [dropComponents]
  | cons s l ih =>
    cases n with
    | zero => simp [dropComponents]
    | succ n => exact List.Subset.trans (ih _) (List.subset_cons_self s l)

/-- What some stretches of a path spell has only slashes and characters of the path. -/
theorem mem_ofSegments {c : Char} {l : List (List Char)} (h : l ⊆ p.segments)
    (hc : c ∈ (ofSegments l).text.toList) : c = '/' ∨ c ∈ p.text.toList := by
  rw [ofSegments, String.toList_ofList] at hc
  rcases mem_intercalate.1 hc with ⟨hc, -⟩ | ⟨s, hs, hc⟩
  · exact .inl hc
  · exact .inr (subset_of_mem_segments (h hs) hc)

theorem mem_trimEnd {c : Char} (hc : c ∈ p.trimEnd.text.toList) :
    c = '/' ∨ c ∈ p.text.toList := by
  obtain ⟨s, r, hsegments, ⟨-, -, htrim⟩ | ⟨-, htrim⟩⟩ := p.trimEnd_cases
  · rw [htrim] at hc
    exact .inl (by simpa using hc)
  · rw [htrim] at hc
    refine mem_ofSegments ?_ hc
    rw [hsegments]
    exact List.cons_subset_cons s (trimRight_subset r)

theorem mem_below? {c : Char} {rel : Path} (h : p.below? base = some rel)
    (hc : c ∈ rel.text.toList) : c = '/' ∨ c ∈ p.text.toList := by
  unfold below? at h
  split at h
  · split at h
    · obtain rfl := Option.some.inj h
      exact mem_trimEnd hc
    · obtain rfl := Option.some.inj h
      exact mem_ofSegments
        (List.Subset.trans (trimSegments_subset _) (dropComponents_subset _ _)) hc
  · simp at h

theorem oneLine_fileName? {name : String} (hp : OneLine p.text) (h : p.fileName? = some name) :
    OneLine name := by
  have hmem : Component.name name ∈ p.names := by
    have hcomponent : Component.name name ∈ p.components := by
      unfold fileName? at h
      split at h
      · rename_i t hlast
        rw [← Option.some.inj h]
        exact List.mem_of_getLast? hlast
      · simp at h
    rw [names_eq_filter]
    exact List.mem_filter.2 ⟨hcomponent, rfl⟩
  obtain ⟨s, hs, hcomponent⟩ := List.mem_filterMap.1 hmem
  have htext : name.toList = s := text_of_componentOf? hcomponent
  intro hline
  rw [htext] at hline
  exact hp (subset_of_mem_segments hs hline)

end Path
end NamingLint
