import NamingLint.Proofs.Check.SyntaxErrors
import NamingLint.Proofs.Declarations.NameNodes
import NamingLint.Proofs.Text.Replacement
import Mathlib.Data.List.Nodup

/-!
# Renaming one name

A name that breaks its rule is replaced, where it is declared, by one that follows the rule and
takes the same room. Of all that a search reads in the text, names, the last letters of numbers and
positions, only the one name has changed, so that the check gives the other violations as before.
-/
namespace NamingLint
open Declarations Syntax

def Violation.renameIn (v : Violation) (new text : String) : String :=
  String.ofList (Text.replaceBytes v.offset (v.offset + Text.byteLength v.name.toList) new.toList
    text.toList)

namespace Declarations

/-- The initial form of a constant depends on the text through numbers only. -/
theorem initializer_congr {text text' : List Char} {value : Tree}
    (h : ∀ n, n.kind = "number" → n = value ∨ value.childOf? "argument" = some n →
      isBigInt text n = isBigInt text' n) :
    initializer text value = initializer text' value := by
  unfold initializer
  split
  case h_8 hkind => rw [h value hkind (.inl rfl)]
  case h_9 =>
    have harg : (value.childOf? "argument").any (isPlainNumber text) =
        (value.childOf? "argument").any (isPlainNumber text') := by
      cases hc : value.childOf? "argument" with
      | none => rfl
      | some n =>
        by_cases hkind : n.kind = "number"
        · simp [isPlainNumber, h n hkind (.inr hc)]
        · have hother : (n.kind == "number") = false := by simpa using hkind
          simp [isPlainNumber, hother]
    rw [harg]
  all_goals rfl

/-- Two texts that differ in the name at one site, which takes the same room in both. -/
structure Renamed (root : Tree) (a : Address) (name : Tree) (old new text text' : List Char) :
    Prop where
  site : NameSite root a name
  room : Text.SameRoom old new
  split : ∃ before after, text = before ++ (old ++ after) ∧ text' = before ++ (new ++ after) ∧
    name.span.start = Text.byteLength before ∧
    name.span.stop = Text.byteLength before + Text.byteLength old

namespace Renamed
variable {root name₀ name : Tree} {a₀ a : Address} {old new text text' : List Char}
  {origin : Origin} {b : Binding}

theorem symm (h : Renamed root a₀ name₀ old new text text') :
    Renamed root a₀ name₀ new old text' text := by
  obtain ⟨before, after, htext, htext', hstart, hstop⟩ := h.split
  exact ⟨h.site, h.room.symm, before, after, htext', htext, hstart, h.room.bytes ▸ hstop⟩

theorem slice?_eq (h : Renamed root a₀ name₀ old new text text') {start stop : Nat}
    (hout : stop ≤ name₀.span.start ∨ name₀.span.stop ≤ start) :
    Text.slice? start stop text = Text.slice? start stop text' := by
  obtain ⟨before, after, rfl, rfl, hstart, hstop⟩ := h.split
  rw [hstart, hstop] at hout
  exact h.room.slice?_outside hout

theorem isBigInt_eq (h : Renamed root a₀ name₀ old new text text') {n : Tree}
    (hout : n.span.stop ≤ name₀.span.start ∨ name₀.span.stop ≤ n.span.start) :
    isBigInt text n = isBigInt text' n := by
  unfold isBigInt
  by_cases hlt : n.span.start < n.span.stop
  · have hends : Text.endsWithAt 'n' n.span.stop text = Text.endsWithAt 'n' n.span.stop text' := by
      rw [Bool.eq_iff_iff, Text.endsWithAt_iff (by decide), Text.endsWithAt_iff (by decide),
        h.slice?_eq (by omega)]
    rw [hends]
  · simp [hlt]

theorem names_elsewhere (h : Renamed root a₀ name₀ old new text text')
    (hout : name.span.stop ≤ name₀.span.start ∨ name₀.span.stop ≤ name.span.start)
    (hb : Names text name origin b) : Names text' name origin b where
  spelled := by
    rw [← Text.slice?_eq_some_iff, ← h.slice?_eq hout, Text.slice?_eq_some_iff]
    exact hb.spelled
  origin_eq := hb.origin_eq
  offset_eq := hb.offset_eq
  position_eq := by
    have hstop := hb.spelled.stop_eq
    have hbound := hb.spelled.isBoundary_start
    obtain ⟨before, after, rfl, rfl, hstart₀, hstop₀⟩ := h.split
    rw [hb.position_eq]
    exact h.room.position_outside hbound (by omega)

theorem names_here (h : Renamed root a₀ name₀ old new text text')
    (hb : Names text name₀ origin b) :
    Names text' name₀ origin { b with name := String.ofList new } := by
  have hbound := hb.spelled.isBoundary_start
  have hpos := hb.position_eq
  obtain ⟨before, after, rfl, rfl, hstart₀, hstop₀⟩ := h.split
  refine ⟨⟨before, after, by simp, hstart₀.symm, by simp [hstop₀, h.room.bytes]⟩, hb.origin_eq,
    hb.offset_eq, hpos.trans ?_⟩
  exact h.room.position_outside hbound (.inl (by omega))

def rebind (a₀ : Address) (new : List Char) (s : Address × Binding) : Address × Binding :=
  if s.1 = a₀ then (s.1, { s.2 with name := String.ofList new }) else s

theorem names (h : Renamed root a₀ name₀ old new text text') (hwf : LeafNames root)
    (hs : NameSite root a name) (hb : Names text name origin b) :
    Names text' name origin (rebind a₀ new (a, b)).2 := by
  unfold rebind
  by_cases ha : a = a₀
  · subst ha
    obtain rfl := hs.unique h.site
    simpa using h.names_here hb
  · simpa [ha] using h.names_elsewhere (hwf.apart_of_ne hs h.site ha) hb

/-- The search finds the same sites, and at each of them the same binding, the renamed one apart. -/
theorem declares (h : Renamed root a₀ name₀ old new text text') (hwf : LeafNames root)
    (hb : Declares root text a b) : Declares root text' a (rebind a₀ new (a, b)).2 := by
  obtain ⟨name, hsite, -⟩ := hb.exists_nameSite
  cases hb with
  | @function _ t _ below reached found binds =>
    obtain ⟨hkind, name', hname, hspell⟩ := binds
    obtain rfl : name = name' :=
      hsite.unique ⟨⟨t, found, hname, .inl hkind⟩, hsite.passed⟩
    exact .function below reached found ⟨hkind, name, hname, h.names hwf hsite hspell⟩
  | @constant p i t d _ below reached found statement const child binds =>
    obtain ⟨hn, hkind, name', value, hname, hid, hvalue, hspell⟩ := binds
    have hd : root.at? (p ++ [i]) = some d := Tree.at?_concat_eq_some.2 ⟨t, found, child⟩
    obtain rfl : name = name' :=
      hsite.unique ⟨⟨d, hd, hname, .inr ⟨hkind, hid⟩⟩, hsite.passed⟩
    have hinit : initializer text value = initializer text' value := by
      have hclosed : Closed root p := ⟨t, found, .inr (.inr statement)⟩
      obtain ⟨j, -, hj⟩ := Tree.childOf?_eq_some_iff.1 hvalue
      have hval : root.at? (p ++ [i, j]) = some value := by
        rw [List.append_cons]
        exact Tree.at?_concat_eq_some.2 ⟨d, hd, hj⟩
      refine initializer_congr fun n hnum hcase => h.isBigInt_eq ?_
      rcases hcase with rfl | harg
      · exact hwf.apart_of_number h.site hclosed below hval hnum
      · obtain ⟨k, -, hk⟩ := Tree.childOf?_eq_some_iff.1 harg
        have hat : root.at? (p ++ [i, j, k]) = some n := by
          rw [List.append_cons, List.append_cons, ← List.append_cons p]
          exact Tree.at?_concat_eq_some.2 ⟨value, hval, hk⟩
        exact hwf.apart_of_number h.site hclosed below hat hnum
    refine .constant below reached found statement const child
      ⟨hn, hkind, name, value, hname, hid, hvalue, ?_⟩
    rw [← hinit]
    exact h.names hwf hsite hspell

end Renamed

theorem nodup_of_sorted {l : List (Address × Binding)} (h : l.Pairwise (·.1 < ·.1)) :
    (l.map Prod.fst).Nodup := by
  refine List.pairwise_map.2 (h.imp fun {s t} hlt heq => ?_)
  rw [heq] at hlt
  exact List.lt_irrefl _ hlt

/-- In the order of addresses a list of sites is determined by its members. -/
theorem eq_of_sorted {l l' : List (Address × Binding)} (h : l.Pairwise (·.1 < ·.1))
    (h' : l'.Pairwise (·.1 < ·.1)) (hmem : ∀ s, s ∈ l ↔ s ∈ l') : l = l' :=
  List.Perm.eq_of_pairwise (fun _ _ _ _ hst hts => absurd hts (List.lt_asymm hst)) h h'
    ((List.perm_ext_iff_of_nodup (nodup_of_sorted h).of_map (nodup_of_sorted h').of_map).2 hmem)

theorem Declares.unique {root : Tree} {text : List Char} {a : Address} {b b' : Binding}
    (h : Declares root text a b) (h' : Declares root text a b') : b = b' :=
  congrArg Prod.snd (List.inj_on_of_nodup_map (nodup_of_sorted (sites_sorted root text))
    (mem_sites_iff.2 h) (mem_sites_iff.2 h') rfl)

section
variable {root name₀ : Tree} {a₀ : Address} {old new text text' : List Char}

theorem Renamed.rebind_fst (a₀ : Address) (new : List Char) (s : Address × Binding) :
    (rebind a₀ new s).1 = s.1 := by
  unfold rebind
  split <;> rfl

theorem Renamed.map_rebind {l : List (Address × Binding)} (h : ∀ s ∈ l, s.1 ≠ a₀) :
    l.map (rebind a₀ new) = l := by
  have hkeep : ∀ s ∈ l, rebind a₀ new s = s := fun s hs => if_neg (h s hs)
  rw [List.map_congr_left hkeep, List.map_id']

theorem Renamed.sites_eq (h : Renamed root a₀ name₀ old new text text') (hwf : LeafNames root) :
    sites root text' = (sites root text).map (rebind a₀ new) := by
  have hsorted : ((sites root text).map (rebind a₀ new)).Pairwise (·.1 < ·.1) := by
    refine List.pairwise_map.2 ((sites_sorted root text).imp fun hlt => ?_)
    rwa [rebind_fst, rebind_fst]
  refine eq_of_sorted (sites_sorted root text') hsorted fun s => ?_
  obtain ⟨a, b'⟩ := s
  rw [mem_sites_iff, List.mem_map]
  constructor
  · intro hb'
    -- The way back gives a binding in the old text, and the way there the one it came from.
    have hb := h.symm.declares hwf hb'
    refine ⟨(a, _), mem_sites_iff.2 hb, Prod.ext (rebind_fst ..) ?_⟩
    exact (h.declares hwf hb).unique hb'
  · rintro ⟨⟨a', b⟩, hb, heq⟩
    obtain rfl : a' = a := (rebind_fst a₀ new (a', b)).symm.trans (congrArg Prod.fst heq)
    have hb' := h.declares hwf (mem_sites_iff.1 hb)
    rwa [heq] at hb'

theorem LeafNames.offset_ne (hwf : LeafNames root) {a a' : Address} {b b' : Binding}
    (h : Declares root text a b) (h' : Declares root text a' b') (hne : a ≠ a') :
    b.offset ≠ b'.offset := by
  obtain ⟨name, hsite, hspell⟩ := h.exists_nameSite
  obtain ⟨name', hsite', hspell'⟩ := h'.exists_nameSite
  have hlt := (hwf.of_site hsite).2.1
  have hlt' := (hwf.of_site hsite').2.1
  have hapart := hwf.apart_of_ne hsite hsite' hne
  rw [hspell.offset_eq, hspell'.offset_eq]
  omega

theorem LeafNames.check_ne (hwf : LeafNames root) {a a' : Address} {b b' : Binding}
    {keys : RuleKeys} {v : Violation} (h : Declares root text a b) (h' : Declares root text a' b')
    (hne : a' ≠ a) (hcheck : b.check keys = some v) : b'.check keys ≠ some v := by
  intro hcheck'
  apply hwf.offset_ne h' h hne
  obtain ⟨_, -, -, rfl⟩ := Binding.check_eq_some hcheck
  obtain ⟨_, -, -, heq⟩ := Binding.check_eq_some hcheck'
  exact (congrArg Violation.offset heq).symm

def judge (keys : RuleKeys) (s : Address × Binding) : Option Violation :=
  s.2.check keys

theorem filterMap_collect (root : Tree) (text : List Char) (keys : RuleKeys) :
    (collect root text).filterMap (·.check keys) = (sites root text).filterMap (judge keys) := by
  rw [← sites_bindings, List.filterMap_map]
  rfl

/-- The site of a violation, with those before and behind it. -/
theorem exists_site_of_violation {keys : RuleKeys} {v : Violation}
    (hv : v ∈ (collect root text).filterMap (·.check keys)) :
    ∃ a b before after, sites root text = before ++ (a, b) :: after ∧ b.check keys = some v ∧
      Declares root text a b ∧ ∀ s ∈ before ++ after, s.1 ≠ a := by
  obtain ⟨b, hb, hcheck⟩ := List.mem_filterMap.1 hv
  rw [← sites_bindings] at hb
  obtain ⟨⟨a, _⟩, hs, rfl⟩ := List.mem_map.1 hb
  obtain ⟨before, after, hsplit⟩ := List.append_of_mem hs
  refine ⟨a, _, before, after, hsplit, hcheck, mem_sites_iff.1 hs, fun s hmem heq => ?_⟩
  have hnodup := nodup_of_sorted (sites_sorted root text)
  rw [hsplit, List.map_append, List.map_cons, List.nodup_middle, ← List.map_append] at hnodup
  exact (List.nodup_cons.1 hnodup).1 (List.mem_map.2 ⟨s, hmem, heq⟩)

/-- The violation at a site, and the replacement of its name as a renaming of the site. -/
theorem Declares.renamed {a : Address} {b : Binding} {keys : RuleKeys} {v : Violation}
    {source new : String} (h : Declares root source.toList a b) (hcheck : b.check keys = some v)
    (hroom : Text.SameRoom v.name.toList new.toList) :
    ∃ name, Renamed root a name v.name.toList new.toList source.toList
      (v.renameIn new source).toList := by
  obtain ⟨name, hsite, hspell⟩ := h.exists_nameSite
  obtain ⟨subject, -, -, rfl⟩ := Binding.check_eq_some hcheck
  obtain ⟨before, after, htext, hstart, hstop⟩ := hspell.spelled
  refine ⟨name, hsite, hroom, before, after, htext, ?_, hstart.symm, hstop.symm⟩
  have hoffset : (b.violationOf subject (keys.keyFor subject)).offset = Text.byteLength before :=
    hspell.offset_eq.trans hstart.symm
  rw [Violation.renameIn, String.toList_ofList, hoffset, htext]
  exact Text.replaceBytes_append ..

end
end Declarations

/-- A name that follows the rule of a violation is no violation in its place. -/
theorem Binding.check_eq_none_of_follows {b : Binding} {keys : RuleKeys} {v : Violation}
    {new : String} (h : b.check keys = some v) (hrule : followsRule new v.rule = true) :
    ({ b with name := new } : Binding).check keys = none := by
  obtain ⟨subject, hsubject, -, rfl⟩ := Binding.check_eq_some h
  have hsame : ({ b with name := new } : Binding).subject? = some subject := hsubject
  have hfollows : followsRule new (keys.keyFor subject) = true := hrule
  simp only [check, hsame, hfollows, if_true]

theorem Grammar.parseClean_of_same_tree {g : Grammar} {text text' file : String} {root : Tree}
    (h : g.parseClean text file = .ok root)
    (h' : g.parse (Dialect.ofFileName file) text' = .ok root) :
    g.parseClean text' file = .ok root := by
  rw [parseClean_of_parse (parse_of_parseClean h)] at h
  rw [parseClean_of_parse h']
  unfold syntaxError? at h ⊢
  cases hfault : faultOf? root with
  | none => rfl
  | some fault => simp [hfault] at h

/-- When the name of a violation is replaced by one that takes the same room and follows the broken
rule, and the new text has the same tree, the check gives the same violations in the same order
without that one, which was there once. -/
theorem check_after_renaming (g : Grammar) (text file : String) (root : Tree)
    (hparse : g.parse (Dialect.ofFileName file) text = .ok root) (hwf : LeafNames root)
    (keys : RuleKeys) (found : List Violation) (h : g.check text file keys = .ok found)
    (v : Violation) (hv : v ∈ found) (new : String)
    (hroom : Text.SameRoom v.name.toList new.toList) (hrule : followsRule new v.rule = true)
    (hparse' : g.parse (Dialect.ofFileName file) (v.renameIn new text) = .ok root) :
    ∃ before after, found = before ++ v :: after ∧ v ∉ before ++ after ∧
      g.check (v.renameIn new text) file keys = .ok (before ++ after) := by
  obtain ⟨root', hclean, rfl⟩ := Grammar.check_eq_ok_iff.1 h
  obtain rfl : root = root' :=
    Except.ok.inj (hparse.symm.trans (Grammar.parse_of_parseClean hclean))
  obtain ⟨a, b, before, after, hsites, hcheck, hdecl, hother⟩ := exists_site_of_violation hv
  obtain ⟨name, hren⟩ := hdecl.renamed hcheck hroom
  have hbefore : ∀ s ∈ before, s.1 ≠ a := fun s hs => hother s (List.mem_append_left after hs)
  have hafter : ∀ s ∈ after, s.1 ≠ a := fun s hs => hother s (List.mem_append_right before hs)
  have hgone : judge keys (Renamed.rebind a new.toList (a, b)) = none := by
    simp only [judge, Renamed.rebind, if_true, String.ofList_toList]
    exact Binding.check_eq_none_of_follows hcheck hrule
  refine ⟨before.filterMap (judge keys), after.filterMap (judge keys), ?_, ?_, ?_⟩
  · rw [filterMap_collect, hsites, List.filterMap_append, List.filterMap_cons]
    simp only [judge, hcheck]
  · rw [← List.filterMap_append]
    intro hmem
    obtain ⟨s, hs, hcheck'⟩ := List.mem_filterMap.1 hmem
    have hdecl' : Declares root text.toList s.1 s.2 := by
      rw [← mem_sites_iff, hsites]
      exact List.mem_append.2 ((List.mem_append.1 hs).imp_right (List.mem_cons_of_mem _))
    exact hwf.check_ne hdecl hdecl' (hother s hs) hcheck hcheck'
  · refine Grammar.check_eq_ok_iff.2 ⟨root, Grammar.parseClean_of_same_tree hclean hparse', ?_⟩
    rw [filterMap_collect, hren.sites_eq hwf, hsites, List.map_append, List.map_cons,
      Renamed.map_rebind hbefore, Renamed.map_rebind hafter, List.filterMap_append,
      List.filterMap_cons, hgone]

theorem nestedTree_leafNames : LeafNames nestedTree :=
  .of_nodes nestedTree_wellFormed.toNested (by decide)

def innerViolation : Violation := ⟨"bad_a", 1, 6, 11, .constant, "UPPER_SNAKE_CASE", 23⟩

theorem check_after_renaming_nested :
    LeafNames nestedTree ∧ innerViolation ∈ nestedViolations ∧
      innerViolation.renameIn "BAD_A" nestedText =
        "function Foo() \x7b\rconst BAD_A = 1, bad_b = 2;\x7d" ∧
      ∃ before after, nestedViolations = before ++ innerViolation :: after ∧
        innerViolation ∉ before ++ after ∧
        Grammar.check ⟨fun _ _ => .ok nestedTree⟩
          (innerViolation.renameIn "BAD_A" nestedText) "a.ts" ({} : NamingSettings).ruleKeys =
            .ok (before ++ after) := by
  have hunbroken (s : List Char) (h : s.all (· ∉ Text.lineTerminators) = true) :
      ∀ c ∈ s, c ∉ Text.lineTerminators := by simpa using h
  refine ⟨nestedTree_leafNames, by decide, by decide, ?_⟩
  refine check_after_renaming ⟨fun _ _ => .ok nestedTree⟩ nestedText "a.ts" nestedTree rfl
    nestedTree_leafNames ({} : NamingSettings).ruleKeys nestedViolations rfl innerViolation
    (by decide) "BAD_A" ⟨by decide, by decide, hunbroken _ (by decide), hunbroken _ (by decide)⟩
    (by decide) rfl

end NamingLint
