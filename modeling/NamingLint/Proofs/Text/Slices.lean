import NamingLint.Text.Bytes

/-!
# Slices of a text by byte offsets

A byte offset addresses a text when it is the length of a beginning of it. A slice is then the
middle of a text cut in three, and the two outer parts are determined by the offsets.
-/
namespace NamingLint.Text

@[simp] theorem byteLength_nil : byteLength [] = 0 := rfl
@[simp] theorem byteLength_cons (c : Char) (s : List Char) :
    byteLength (c :: s) = c.utf8Size + byteLength s := rfl
@[simp] theorem unitLength_nil : unitLength [] = 0 := rfl
@[simp] theorem unitLength_cons (c : Char) (s : List Char) :
    unitLength (c :: s) = units16 c + unitLength s := rfl

theorem units16_pos (c : Char) : 0 < units16 c := by
  unfold units16
  split <;> decide

theorem byteLength_eq_zero {s : List Char} : byteLength s = 0 ↔ s = [] := by
  cases s with
  | nil => simp
  | cons c s =>
    have hc := c.utf8Size_pos
    simp only [byteLength_cons, reduceCtorEq, iff_false]
    omega

theorem eq_nil_of_byteLength_append_le {s r : List Char}
    (h : byteLength (s ++ r) ≤ byteLength s) : r = [] := by
  rw [← byteLength_eq_zero]
  rw [byteLength_append] at h
  omega

/-- The first step of a cut behind `c :: s` takes `c` and leaves a cut behind `s`. -/
theorem exists_byteLength_cons (c : Char) (s : List Char) :
    ∃ n, byteLength (c :: s) = n + 1 ∧ c.utf8Size ≤ n + 1 ∧ n + 1 - c.utf8Size = byteLength s := by
  have hc := c.utf8Size_pos
  refine ⟨c.utf8Size + byteLength s - 1, ?_, ?_, ?_⟩
  · rw [byteLength_cons]
    omega
  · omega
  · omega

theorem dropBytes?_append (s t : List Char) : dropBytes? (byteLength s) (s ++ t) = some t := by
  induction s with
  | nil => simp [dropBytes?]
  | cons c s ih =>
    obtain ⟨n, hn, hc, hs⟩ := exists_byteLength_cons c s
    rw [hn, List.cons_append, dropBytes?, if_pos hc, hs, ih]

theorem takeBytes?_append (s t : List Char) : takeBytes? (byteLength s) (s ++ t) = some s := by
  induction s with
  | nil => simp [takeBytes?]
  | cons c s ih =>
    obtain ⟨n, hn, hc, hs⟩ := exists_byteLength_cons c s
    rw [hn, List.cons_append, takeBytes?, if_pos hc, hs, ih, Option.map_some]

theorem dropBytes?_eq_some {n : Nat} {text rest : List Char} (h : dropBytes? n text = some rest) :
    ∃ before, text = before ++ rest ∧ byteLength before = n := by
  fun_induction dropBytes? n text with
  | case1 r => exact ⟨[], by simpa using h, rfl⟩
  | case2 => simp at h
  | case3 n c r hc ih =>
    obtain ⟨before, rfl, hb⟩ := ih h
    refine ⟨c :: before, rfl, ?_⟩
    rw [byteLength_cons, hb]
    omega
  | case4 => simp at h

theorem takeBytes?_eq_some {n : Nat} {text s : List Char} (h : takeBytes? n text = some s) :
    ∃ after, text = s ++ after ∧ byteLength s = n := by
  fun_induction takeBytes? n text generalizing s with
  | case1 r =>
    obtain rfl : [] = s := by simpa using h
    exact ⟨r, rfl, rfl⟩
  | case2 => simp at h
  | case3 n c r hc ih =>
    obtain ⟨u, hu, rfl⟩ := Option.map_eq_some_iff.1 h
    obtain ⟨after, rfl, hb⟩ := ih hu
    refine ⟨after, rfl, ?_⟩
    rw [byteLength_cons, hb]
    omega
  | case4 => simp at h

/-- Of two beginnings of a text, the shorter one begins the longer one. -/
theorem exists_append_of_byteLength_le {u v x y : List Char} (h : u ++ v = x ++ y)
    (hle : byteLength u ≤ byteLength x) : ∃ r, x = u ++ r ∧ v = r ++ y := by
  rcases List.append_eq_append_iff.1 h with ⟨r, rfl, rfl⟩ | ⟨r, rfl, rfl⟩
  · exact ⟨r, rfl, rfl⟩
  · obtain rfl : r = [] := eq_nil_of_byteLength_append_le hle
    exact ⟨[], by simp, rfl⟩

theorem append_inj_of_byteLength {u v x y : List Char} (h : u ++ v = x ++ y)
    (hlength : byteLength u = byteLength x) : u = x ∧ v = y := by
  obtain ⟨r, rfl, rfl⟩ := exists_append_of_byteLength_le h (Nat.le_of_eq hlength)
  obtain rfl : r = [] := eq_nil_of_byteLength_append_le (Nat.le_of_eq hlength.symm)
  exact ⟨(List.append_nil u).symm, rfl⟩

/-- The characters `s` stand between two byte offsets of a text. -/
def Spans (text : List Char) (start stop : Nat) (s : List Char) : Prop :=
  ∃ before after, text = before ++ (s ++ after) ∧ byteLength before = start ∧
    byteLength before + byteLength s = stop

theorem slice?_eq_some_iff {start stop : Nat} {text s : List Char} :
    slice? start stop text = some s ↔ Spans text start stop s := by
  unfold slice?
  constructor
  · intro h
    split at h
    case isTrue hle =>
      obtain ⟨rest, hd, ht⟩ := Option.bind_eq_some_iff.1 h
      obtain ⟨before, rfl, hb⟩ := dropBytes?_eq_some hd
      obtain ⟨after, rfl, hs⟩ := takeBytes?_eq_some ht
      exact ⟨before, after, rfl, hb, by omega⟩
    case isFalse => simp at h
  · rintro ⟨before, after, rfl, rfl, rfl⟩
    rw [if_pos (Nat.le_add_right _ _), dropBytes?_append, Option.bind_some,
      Nat.add_sub_cancel_left, takeBytes?_append]

/-- A byte offset is the start of a character of the text or its end. -/
def IsBoundary (text : List Char) (n : Nat) : Prop :=
  ∃ before after, text = before ++ after ∧ byteLength before = n

section Spans
variable {text s : List Char} {start stop : Nat}

theorem Spans.stop_eq (h : Spans text start stop s) : stop = start + byteLength s := by
  obtain ⟨before, after, -, rfl, rfl⟩ := h
  rfl

theorem Spans.isBoundary_start (h : Spans text start stop s) : IsBoundary text start := by
  obtain ⟨before, after, htext, hb, -⟩ := h
  exact ⟨before, s ++ after, htext, hb⟩

theorem Spans.isBoundary_stop (h : Spans text start stop s) : IsBoundary text stop := by
  obtain ⟨before, after, rfl, -, hb⟩ := h
  exact ⟨before ++ s, after, (List.append_assoc ..).symm, by rw [byteLength_append, hb]⟩

theorem exists_spans (h : IsBoundary text start) (h' : IsBoundary text stop) (hle : start ≤ stop) :
    ∃ s, Spans text start stop s := by
  obtain ⟨before, after, htext, rfl⟩ := h
  obtain ⟨before', after', rfl, rfl⟩ := h'
  obtain ⟨s, rfl, rfl⟩ := exists_append_of_byteLength_le htext.symm hle
  exact ⟨s, before, after', by rw [List.append_assoc], rfl, (byteLength_append ..).symm⟩

end Spans
end NamingLint.Text
