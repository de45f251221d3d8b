import NamingLint.Rule
import Mathlib.Computability.Language
import Mathlib.Data.Char
import Mathlib.Order.Interval.Set.Defs

/-!
# The languages of the rules

Every rule is a regular expression, and its pattern is the anchored spelling of it. The names that
a rule admits are the words of that expression. They are also known by their letters: the first one
and the others, or those between the underscores.
-/
namespace NamingLint
open scoped Computability

/-- The regular expressions that rules are written in. -/
inductive Expression where
  | char (c : Char)
  | oneOf (ranges : List (Char × Char))
  | seq (first second : Expression)
  | star (e : Expression)
  | plus (e : Expression)

namespace Expression

def Within (ranges : List (Char × Char)) (c : Char) : Prop :=
  ∃ r ∈ ranges, c ∈ Set.Icc r.1 r.2

theorem Within.mono {ranges ranges' : List (Char × Char)} {c : Char} (h : Within ranges c)
    (hsub : ranges ⊆ ranges') : Within ranges' c := by
  obtain ⟨r, hr, hc⟩ := h
  exact ⟨r, hsub hr, hc⟩

theorem within_cons (r : Char × Char) (ranges : List (Char × Char)) (c : Char) :
    Within (r :: ranges) c ↔ Within [r] c ∨ Within ranges c := by
  simp [Within]

def language : Expression → Language Char
  | char c => {[c]}
  | oneOf ranges => {s | ∃ c, s = [c] ∧ Within ranges c}
  | seq a b => a.language * b.language
  | star e => e.language∗
  | plus e => e.language * e.language∗

/-- Whether a repetition sign behind the spelling of an expression is about all of it. -/
def isAtom : Expression → Bool
  | char _ => true
  | oneOf _ => true
  | seq _ _ => false
  | star _ => false
  | plus _ => false

def text : Expression → String
  | char c => c.toString
  | oneOf ranges => "[" ++ String.join (ranges.map fun r => s!"{r.1}-{r.2}") ++ "]"
  | seq a b => a.text ++ b.text
  | star e => (if e.isAtom then e.text else "(" ++ e.text ++ ")") ++ "*"
  | plus e => (if e.isAtom then e.text else "(" ++ e.text ++ ")") ++ "+"

/-- The spelling of an expression for a match of a whole text. -/
def anchored (e : Expression) : String :=
  "^" ++ e.text ++ "$"

variable {ranges : List (Char × Char)} {e : Expression} {s : List Char}

theorem mem_star_oneOf :
    s ∈ (star (oneOf ranges)).language ↔ ∀ c ∈ s, Within ranges c := by
  rw [language, Language.mem_kstar]
  constructor
  · rintro ⟨words, rfl, hwords⟩ c hc
    obtain ⟨word, hword, hcword⟩ := List.mem_flatten.1 hc
    obtain ⟨d, rfl, hd⟩ := hwords word hword
    rwa [List.mem_singleton.1 hcword]
  · intro h
    refine ⟨s.map ([·]), (List.flatMap_singleton' s).symm, fun word hword => ?_⟩
    obtain ⟨c, hc, rfl⟩ := List.mem_map.1 hword
    exact ⟨c, rfl, h c hc⟩

theorem mem_oneOf_seq : s ∈ (seq (oneOf ranges) e).language ↔
    ∃ c r, s = c :: r ∧ Within ranges c ∧ r ∈ e.language := by
  rw [language, Language.mem_mul]
  constructor
  · rintro ⟨_, ⟨c, rfl, hc⟩, r, hr, rfl⟩
    exact ⟨c, r, rfl, hc, hr⟩
  · rintro ⟨c, r, rfl, hc, hr⟩
    exact ⟨[c], ⟨c, rfl, hc⟩, r, hr, rfl⟩

theorem mem_plus_oneOf : s ∈ (plus (oneOf ranges)).language ↔
    s ≠ [] ∧ ∀ c ∈ s, Within ranges c := by
  change s ∈ (seq (oneOf ranges) (star (oneOf ranges))).language ↔ _
  rw [mem_oneOf_seq]
  cases s with
  | nil => simp
  | cons c r => simp [mem_star_oneOf]

end Expression

namespace Rule
open Expression

def upper : Char × Char := ('A', 'Z')
def lower : Char × Char := ('a', 'z')
def digit : Char × Char := ('0', '9')

/-- Letters and digits, the first one in a range of its own. -/
def letters (first : Char × Char) : Expression :=
  .seq (.oneOf [first]) (.star (.oneOf [lower, upper, digit]))

/-- The expression of which the pattern is the spelling. -/
def expression : Rule → Expression
  | upperSnake => .seq (.oneOf [upper]) (.seq (.star (.oneOf [upper, digit]))
      (.star (.seq (.char '_') (.plus (.oneOf [upper, digit])))))
  | camel => letters lower
  | pascal => letters upper

theorem pattern_eq_anchored (rule : Rule) : rule.pattern = rule.expression.anchored := by
  cases rule <;> decide

theorem isUpper_iff {c : Char} : c.isUpper = true ↔ Within [upper] c := by
  have hrange : c.isUpper = true ↔ 'A' ≤ c ∧ c ≤ 'Z' := decide_eq_true_iff
  simp [hrange, Within, upper]

theorem isLower_iff {c : Char} : c.isLower = true ↔ Within [lower] c := by
  have hrange : c.isLower = (decide ('a' ≤ c) && decide (c ≤ 'z')) := rfl
  simp [hrange, Within, lower]

theorem isDigit_iff {c : Char} : c.isDigit = true ↔ Within [digit] c := by
  have hrange : c.isDigit = (decide ('0' ≤ c) && decide (c ≤ '9')) := rfl
  simp [hrange, Within, digit]

theorem isUpper_or_isDigit_iff {c : Char} :
    (c.isUpper || c.isDigit) = true ↔ Within [upper, digit] c := by
  rw [Bool.or_eq_true, isUpper_iff, isDigit_iff, within_cons upper [digit]]

theorem isAlphanum_iff {c : Char} : c.isAlphanum = true ↔ Within [lower, upper, digit] c := by
  have hcases : c.isAlphanum = (c.isUpper || c.isLower || c.isDigit) := rfl
  rw [hcases, Bool.or_comm c.isUpper, Bool.or_assoc, Bool.or_eq_true, isLower_iff,
    isUpper_or_isDigit_iff, within_cons lower [upper, digit]]

theorem within_upper_digit {c : Char} (h : Within [upper] c) : Within [upper, digit] c :=
  h.mono (by simp)

theorem within_letters {c : Char} (h : Within [upper, digit] c) : Within [lower, upper, digit] c :=
  h.mono (by simp)

theorem underscore_not_letter : ¬Within [lower, upper, digit] '_' := by
  simp [Within, lower, upper, digit, Char.le_def]

/-- A stretch of a name that is not empty and holds upper-case letters and digits only. -/
def IsSegment (s : List Char) : Prop :=
  s ≠ [] ∧ ∀ c ∈ s, Within [upper, digit] c

/-- The underscores of a text stand between segments. -/
def Segmented (text : List Char) : Prop :=
  ∀ s ∈ text.splitOn '_', IsSegment s

section
variable {c d : Char} {r : List Char}

theorem ne_underscore (h : Within [upper, digit] c) : c ≠ '_' := by
  rintro rfl
  exact underscore_not_letter (within_letters h)

theorem IsSegment.not_mem (h : IsSegment r) : '_' ∉ r :=
  fun hmem => ne_underscore (h.2 '_' hmem) rfl

theorem splitOn_underscore : ('_' :: r).splitOn '_' = [] :: r.splitOn '_' := by
  rw [List.splitOn_cons_eq_if_modifyHead, if_pos (by simp)]

theorem splitOn_other (h : c ≠ '_') :
    ∃ s rest, r.splitOn '_' = s :: rest ∧ (c :: r).splitOn '_' = (c :: s) :: rest := by
  obtain ⟨s, rest, hr⟩ := List.exists_cons_of_ne_nil (List.splitOn_ne_nil '_' r)
  refine ⟨s, rest, hr, ?_⟩
  rw [List.splitOn_cons_eq_if_modifyHead, if_neg (by simpa using h), hr, List.modifyHead_cons]

theorem not_segmented_nil : ¬Segmented [] := by
  simp [Segmented, IsSegment]

theorem not_segmented_underscore : ¬Segmented ('_' :: r) := by
  simp [Segmented, IsSegment, splitOn_underscore]

theorem Segmented.within (h : Segmented (c :: r)) : Within [upper, digit] c := by
  have hc : c ≠ '_' := by
    rintro rfl
    exact not_segmented_underscore h
  obtain ⟨s, rest, -, hsplit⟩ := splitOn_other (r := r) hc
  rw [Segmented, hsplit] at h
  exact (h _ List.mem_cons_self).2 c List.mem_cons_self

theorem segmented_singleton (h : Within [upper, digit] c) : Segmented [c] := by
  have hsplit : [c].splitOn '_' = [[c]] :=
    List.splitOn_eq_singleton (by simpa using (ne_underscore h).symm)
  simpa [Segmented, IsSegment, hsplit] using h

theorem segmented_cons_cons (h : Within [upper, digit] c) (hd : d ≠ '_') :
    Segmented (c :: d :: r) ↔ Segmented (d :: r) := by
  obtain ⟨s, rest, -, hsplit⟩ := splitOn_other (r := r) hd
  obtain ⟨s', rest', hsplit', hcons⟩ := splitOn_other (r := d :: r) (ne_underscore h)
  obtain ⟨rfl, rfl⟩ : d :: s = s' ∧ rest = rest' := by simpa [hsplit] using hsplit'
  simp [Segmented, IsSegment, hcons, hsplit, h]

theorem segmented_cons_underscore (h : Within [upper, digit] c) :
    Segmented (c :: '_' :: r) ↔ Segmented r := by
  obtain ⟨s, rest, hsplit, hcons⟩ := splitOn_other (r := '_' :: r) (ne_underscore h)
  obtain ⟨rfl, rfl⟩ : [] = s ∧ r.splitOn '_' = rest := by simpa [splitOn_underscore] using hsplit
  simp [Segmented, IsSegment, hcons, h]

end

/-- A run is right if it is segmented. If it is not at the start of a segment, then together with
the letter before it. -/
theorem upperSnakeRun_iff (r : List Char) :
    (upperSnakeRun true r = true ↔ Segmented r) ∧
      ∀ c, Within [upper, digit] c → (upperSnakeRun false r = true ↔ Segmented (c :: r)) := by
  induction r with
  | nil => exact ⟨by simp [upperSnakeRun, not_segmented_nil],
      fun c hc => by simp [upperSnakeRun, segmented_singleton hc]⟩
  | cons d r ih =>
    obtain ⟨hopen, hclosed⟩ := ih
    by_cases hunderscore : d = '_'
    · subst hunderscore
      exact ⟨by simp [upperSnakeRun, not_segmented_underscore],
        fun c hc => by simp [upperSnakeRun, hopen, segmented_cons_underscore hc]⟩
    · have hstep (b : Bool) : upperSnakeRun b (d :: r) = true ↔ Segmented (d :: r) := by
        rw [upperSnakeRun, if_neg hunderscore, Bool.and_eq_true, isUpper_or_isDigit_iff]
        constructor
        · rintro ⟨hd, hrun⟩
          exact (hclosed d hd).1 hrun
        · intro h
          exact ⟨h.within, (hclosed d h.within).2 h⟩
      exact ⟨hstep true, fun c hc => (hstep false).trans (segmented_cons_cons hc hunderscore).symm⟩

theorem admits_upperSnake {cs : List Char} : upperSnake.admitsChars cs = true ↔
    Segmented cs ∧ ∃ c ∈ cs.head?, Within [upper] c := by
  cases cs with
  | nil => simp [admitsChars]
  | cons c r =>
    rw [admitsChars, Bool.and_eq_true, isUpper_iff, List.head?_cons]
    constructor
    · rintro ⟨hc, hrun⟩
      exact ⟨((upperSnakeRun_iff r).2 c (within_upper_digit hc)).1 hrun, c, rfl, hc⟩
    · rintro ⟨hsegmented, d, hd, hupper⟩
      obtain rfl : c = d := Option.some.inj hd
      exact ⟨hupper, ((upperSnakeRun_iff r).2 c (within_upper_digit hupper)).2 hsegmented⟩

/-- The part behind the first segment: segments with an underscore before each. -/
theorem mem_star_segments {s : List Char} :
    s ∈ (Expression.star (.seq (.char '_') (.plus (.oneOf [upper, digit])))).language ↔
      ∃ rest : List (List Char), (∀ t ∈ rest, IsSegment t) ∧ s = (rest.map ('_' :: ·)).flatten := by
  have hword (word : List Char) :
      word ∈ (Expression.seq (.char '_') (.plus (.oneOf [upper, digit]))).language ↔
        ∃ t, IsSegment t ∧ word = '_' :: t := by
    rw [language, Language.mem_mul]
    constructor
    · rintro ⟨_, rfl, t, ht, rfl⟩
      exact ⟨t, mem_plus_oneOf.1 ht, rfl⟩
    · rintro ⟨t, ht, rfl⟩
      exact ⟨['_'], rfl, t, mem_plus_oneOf.2 ht, rfl⟩
  rw [language, Language.mem_kstar]
  constructor
  · rintro ⟨words, rfl, hwords⟩
    induction words with
    | nil => exact ⟨[], List.forall_mem_nil _, rfl⟩
    | cons word words ih =>
      obtain ⟨hfirst, hothers⟩ := List.forall_mem_cons.1 hwords
      obtain ⟨t, ht, rfl⟩ := (hword word).1 hfirst
      obtain ⟨rest, hrest, heq⟩ := ih hothers
      refine ⟨t :: rest, List.forall_mem_cons.2 ⟨ht, hrest⟩, ?_⟩
      rw [List.flatten_cons, heq, List.map_cons, List.flatten_cons]
  · rintro ⟨rest, hrest, rfl⟩
    refine ⟨_, rfl, fun word h => ?_⟩
    obtain ⟨t, ht, rfl⟩ := List.mem_map.1 h
    exact (hword _).2 ⟨t, hrest t ht, rfl⟩

theorem intercalate_eq_flatten (s : List Char) (rest : List (List Char)) :
    ['_'].intercalate (s :: rest) = s ++ (rest.map ('_' :: ·)).flatten := by
  induction rest generalizing s with
  | nil => simp
  | cons t rest ih =>
    rw [List.intercalate_cons_cons, ih, List.map_cons, List.flatten_cons, List.append_assoc]
    rfl

theorem mem_language_upperSnake {cs : List Char} : cs ∈ upperSnake.expression.language ↔
    Segmented cs ∧ ∃ c ∈ cs.head?, Within [upper] c := by
  rw [expression, mem_oneOf_seq]
  constructor
  · rintro ⟨c, r, rfl, hc, hr⟩
    obtain ⟨front, hfront, back, hback, rfl⟩ := Language.mem_mul.1 hr
    rw [mem_star_oneOf] at hfront
    obtain ⟨rest, hrest, rfl⟩ := mem_star_segments.1 hback
    have hall : ∀ t ∈ (c :: front) :: rest, IsSegment t := by
      refine List.forall_mem_cons.2 ⟨⟨List.cons_ne_nil c front, ?_⟩, hrest⟩
      exact List.forall_mem_cons.2 ⟨within_upper_digit hc, hfront⟩
    have hsplit := List.splitOn_intercalate '_' (fun t ht => (hall t ht).not_mem)
      (List.cons_ne_nil (c :: front) rest)
    rw [intercalate_eq_flatten] at hsplit
    refine ⟨?_, c, rfl, hc⟩
    rw [Segmented, ← List.cons_append, hsplit]
    exact hall
  · rintro ⟨hsegmented, c, hhead, hc⟩
    obtain ⟨r, rfl⟩ := List.head?_eq_some_iff.1 hhead
    have hne : c ≠ '_' := ne_underscore (within_upper_digit hc)
    obtain ⟨s, rest, hsplit, hcons⟩ := splitOn_other (r := r) hne
    rw [Segmented, hcons] at hsegmented
    obtain ⟨hfirst, hrest⟩ := List.forall_mem_cons.1 hsegmented
    have hr : s ++ (rest.map ('_' :: ·)).flatten = r := by
      rw [← intercalate_eq_flatten, ← hsplit, List.intercalate_splitOn]
    have hfront := mem_star_oneOf.2 (List.forall_mem_cons.1 hfirst.2).2
    have hback := mem_star_segments.2 ⟨rest, hrest, rfl⟩
    exact ⟨c, r, rfl, hc, Language.mem_mul.2 ⟨s, hfront, _, hback, hr⟩⟩

theorem mem_letters {first : Char × Char} {cs : List Char} : cs ∈ (letters first).language ↔
    ∃ c r, cs = c :: r ∧ Within [first] c ∧ ∀ d ∈ r, Within [lower, upper, digit] d := by
  simp only [letters, mem_oneOf_seq, mem_star_oneOf]

/-- The names that a rule admits are the words of its expression. -/
theorem admits_iff_mem_language (rule : Rule) (name : String) :
    rule.admits name = true ↔ name.toList ∈ rule.expression.language := by
  unfold admits
  generalize name.toList = cs
  cases rule with
  | upperSnake => rw [admits_upperSnake, mem_language_upperSnake]
  | camel =>
    cases cs with
    | nil => simp [admitsChars, expression, mem_letters]
    | cons c r => simp [admitsChars, expression, mem_letters, isLower_iff, isAlphanum_iff]
  | pascal =>
    cases cs with
    | nil => simp [admitsChars, expression, mem_letters]
    | cons c r => simp [admitsChars, expression, mem_letters, isUpper_iff, isAlphanum_iff]

theorem ofKey?_eq_some_iff {key : String} {rule : Rule} :
    ofKey? key = some rule ↔ key = rule.key := by
  constructor
  · intro h
    have hkey := List.find?_some (p := fun r : Rule => r.key == key) h
    exact (eq_of_beq hkey).symm
  · rintro rfl
    cases rule <;> decide

theorem followsRule_eq_false_iff {name key : String} : followsRule name key = false ↔
    ∃ rule : Rule, key = rule.key ∧ name.toList ∉ rule.expression.language := by
  simp only [← ofKey?_eq_some_iff, ← admits_iff_mem_language, Bool.not_eq_true]
  unfold followsRule
  cases ofKey? key with
  | none => simp
  | some rule => simp

/-- A name in camel case does not begin as those of the other rules do. -/
theorem not_camel_of_upper {c : Char} (h : Within [upper] c) {r : List Char} :
    c :: r ∉ camel.expression.language := by
  intro hcamel
  obtain ⟨d, t, heq, hlower, -⟩ := mem_letters.1 hcamel
  obtain ⟨rfl, -⟩ := List.cons.inj heq
  simp only [Within, List.mem_singleton, exists_eq_left] at h hlower
  have hgap : 'Z' < 'a' := by decide
  exact absurd (hlower.1.trans h.2) (not_le_of_gt hgap)

theorem eq_camel_of_admits {name : String} {rule : Rule} (hcamel : camel.admits name = true)
    (h : rule.admits name = true) : rule = camel := by
  rw [admits_iff_mem_language] at hcamel h
  cases rule with
  | camel => rfl
  | upperSnake =>
    obtain ⟨-, c, hhead, hc⟩ := mem_language_upperSnake.1 h
    obtain ⟨r, hr⟩ := List.head?_eq_some_iff.1 hhead
    exact absurd (hr ▸ hcamel) (not_camel_of_upper hc)
  | pascal =>
    obtain ⟨c, r, hr, hc, -⟩ := mem_letters.1 h
    exact absurd (hr ▸ hcamel) (not_camel_of_upper hc)

/-- Without an underscore a name is one segment. -/
theorem pascal_of_upperSnake {name : String} (h : upperSnake.admits name = true) :
    pascal.admits name = true ↔ '_' ∉ name.toList := by
  rw [admits_iff_mem_language] at h ⊢
  obtain ⟨hsegmented, c, hhead, hc⟩ := mem_language_upperSnake.1 h
  obtain ⟨r, hr⟩ := List.head?_eq_some_iff.1 hhead
  rw [hr] at hsegmented ⊢
  constructor
  · intro hpascal hmem
    obtain ⟨d, t, heq, hd, ht⟩ := mem_letters.1 hpascal
    rw [heq] at hmem
    rcases List.mem_cons.1 hmem with rfl | hmem
    · exact ne_underscore (within_upper_digit hd) rfl
    · exact underscore_not_letter (ht '_' hmem)
  · intro hmem
    rw [Segmented, List.splitOn_eq_singleton hmem] at hsegmented
    have hletters := (hsegmented _ List.mem_cons_self).2
    refine mem_letters.2 ⟨c, r, rfl, hc, fun d hd => ?_⟩
    exact within_letters (hletters d (List.mem_cons_of_mem c hd))

end Rule

/-- A rule admits the names that are words of its expression, which its pattern spells. In upper
snake case these are the names whose first letter is upper-case and that underscores divide into
stretches of upper-case letters and digits, none of them empty; in camel case and Pascal case,
names of letters and digits whose first letter is lower-case or upper-case. So no name is in camel
case and follows another rule, and a name in upper snake case is in Pascal case if it has no
underscore. A check against a key fails if the key is that of a rule and the name is no word of it,
and only then. -/
theorem rules_admit_their_languages (name : String) :
    (∀ rule : Rule, rule.pattern = rule.expression.anchored ∧
        (rule.admits name = true ↔ name.toList ∈ rule.expression.language)) ∧
      (Rule.upperSnake.admits name = true ↔
        (∀ s ∈ name.toList.splitOn '_',
            s ≠ [] ∧ ∀ c ∈ s, c ∈ Set.Icc 'A' 'Z' ∨ c ∈ Set.Icc '0' '9') ∧
          ∃ c ∈ name.toList.head?, c ∈ Set.Icc 'A' 'Z') ∧
      (Rule.camel.admits name = true ↔ ∃ c r, name.toList = c :: r ∧ c ∈ Set.Icc 'a' 'z' ∧
        ∀ d ∈ r, d ∈ Set.Icc 'a' 'z' ∨ d ∈ Set.Icc 'A' 'Z' ∨ d ∈ Set.Icc '0' '9') ∧
      (Rule.pascal.admits name = true ↔ ∃ c r, name.toList = c :: r ∧ c ∈ Set.Icc 'A' 'Z' ∧
        ∀ d ∈ r, d ∈ Set.Icc 'a' 'z' ∨ d ∈ Set.Icc 'A' 'Z' ∨ d ∈ Set.Icc '0' '9') ∧
      (∀ rule : Rule, Rule.camel.admits name = true → rule.admits name = true → rule = .camel) ∧
      (Rule.upperSnake.admits name = true ∧ Rule.pascal.admits name = true ↔
        Rule.upperSnake.admits name = true ∧ '_' ∉ name.toList) ∧
      ∀ key, followsRule name key = false ↔
        ∃ rule : Rule, key = rule.key ∧ name.toList ∉ rule.expression.language := by
  refine ⟨fun rule => ⟨rule.pattern_eq_anchored, rule.admits_iff_mem_language name⟩, ?_, ?_, ?_,
    fun _ => Rule.eq_camel_of_admits, and_congr_right Rule.pascal_of_upperSnake,
    fun _ => Rule.followsRule_eq_false_iff⟩
  · rw [Rule.admits_iff_mem_language, Rule.mem_language_upperSnake]
    simp [Rule.Segmented, Rule.IsSegment, Expression.Within, Rule.upper, Rule.digit]
  · rw [Rule.admits_iff_mem_language, Rule.expression, Rule.mem_letters]
    simp [Expression.Within, Rule.upper, Rule.digit, Rule.lower]
  · rw [Rule.admits_iff_mem_language, Rule.expression, Rule.mem_letters]
    simp [Expression.Within, Rule.upper, Rule.digit, Rule.lower]

end NamingLint
