import NamingLint.Proofs.Analysis.RelativePaths
import NamingLint.Proofs.SessionHistory
import NamingLint.Proofs.Syntax.Address

/-!
# Findings file by file

The files of an analysis go through one session, in the order of paths, and its store keeps what is
found. The findings are all the same those of each file by itself: a file that cannot be read or
parsed is a failure, one with violations has a report, and no other file has a part in it.
-/
namespace NamingLint
namespace Analysis

theorem prepare_eq_ok {g : Grammar} {current : Path} {root? : Option Path} {patterns : List String}
    {settings : Settings} {a : Analysis}
    (h : prepare (some g) current root? patterns settings = .ok a) :
    a.grammar = g ∧ a.settings = settings ∧
      a.root = current.join (root?.getD settings.scan.root) ∧
      (patterns ++ settings.scan.exclude).mapM ExcludePattern.parse = .ok a.exclude := by
  unfold prepare at h
  cases hexclude : (patterns ++ settings.scan.exclude).mapM ExcludePattern.parse with
  | error e => simp [hexclude] at h
  | ok exclude =>
    simp only [hexclude, Except.ok.injEq] at h
    subst h
    exact ⟨rfl, rfl, rfl, rfl⟩

theorem prepare_of_patterns {patterns : List String} {settings : Settings}
    {exclude : List ExcludePattern}
    (h : (patterns ++ settings.scan.exclude).mapM ExcludePattern.parse = .ok exclude)
    (g : Grammar) (current : Path) (root? : Option Path) :
    prepare (some g) current root? patterns settings =
      .ok ⟨g, current.join (root?.getD settings.scan.root), exclude, settings⟩ := by
  simp only [prepare, h]

/-- The patterns and the root of an analysis do not come from the settings for names. -/
theorem prepare_of_scan {g : Grammar} {current : Path} {root? : Option Path}
    {patterns : List String} {settings settings' : Settings} {a : Analysis}
    (h : prepare (some g) current root? patterns settings = .ok a)
    (hscan : settings'.scan = settings.scan) :
    prepare (some g) current root? patterns settings' = .ok { a with settings := settings' } := by
  obtain ⟨hgrammar, -, hroot, hexclude⟩ := prepare_eq_ok h
  rw [← hscan] at hroot hexclude
  rw [prepare_of_patterns hexclude, hgrammar, hroot]

/-- What there is to say about a file: why it cannot be checked, or what is found in it. -/
def verdict (a : Analysis) (read : Path → Except ReadError String) (p : Path) :
    Except String (List Diagnostic) :=
  match read p with
  | .error e => .error s!"Failed to read {p.text}: {e.message}"
  | .ok text =>
    match a.grammar.check text (relativePath a.root p).text a.settings.naming.ruleKeys with
    | .error e => .error e.message
    | .ok found =>
      .ok (found.map fun v => .ofViolation v a.settings.naming.severity a.settings.naming.locale)

def failure? (a : Analysis) (read : Path → Except ReadError String) (p : Path) : Option Failure :=
  match a.verdict read p with
  | .error message => some ⟨relativePath a.root p, message⟩
  | .ok _ => none

def report? (a : Analysis) (read : Path → Except ReadError String) (p : Path) : Option FileReport :=
  match a.verdict read p with
  | .error _ => none
  | .ok found => if found.isEmpty then none else some ⟨relativePath a.root p, found⟩

section
variable {a : Analysis} {read : Path → Except ReadError String} {p : Path}

theorem verdict_congr {read' : Path → Except ReadError String} (h : read' p = read p) :
    a.verdict read' p = a.verdict read p := by
  unfold verdict
  rw [h]

theorem verdict_eq_error_iff {message : String} : a.verdict read p = .error message ↔
    (∃ e, read p = .error e ∧ message = s!"Failed to read {p.text}: {e.message}") ∨
      ∃ text e, read p = .ok text ∧
        a.grammar.check text (relativePath a.root p).text a.settings.naming.ruleKeys = .error e ∧
        message = e.message := by
  unfold verdict
  cases read p with
  | error e => simp [eq_comm]
  | ok text =>
    dsimp only
    cases hcheck :
        a.grammar.check text (relativePath a.root p).text a.settings.naming.ruleKeys with
    | error e => simp [hcheck, eq_comm]
    | ok found => simp [hcheck]

theorem verdict_eq_ok_iff {ds : List Diagnostic} : a.verdict read p = .ok ds ↔
    ∃ text found, read p = .ok text ∧
      a.grammar.check text (relativePath a.root p).text a.settings.naming.ruleKeys = .ok found ∧
      ds = Session.publish a.settings.naming found := by
  unfold verdict
  cases read p with
  | error e => simp
  | ok text =>
    dsimp only
    cases hcheck :
        a.grammar.check text (relativePath a.root p).text a.settings.naming.ruleKeys with
    | error e => simp [hcheck]
    | ok found => simp [hcheck, Session.publish, eq_comm]

theorem failure?_eq_some_iff {x : Failure} : a.failure? read p = some x ↔
    x.file = relativePath a.root p ∧ a.verdict read p = .error x.message := by
  obtain ⟨file, message⟩ := x
  unfold failure?
  cases a.verdict read p with
  | error m => simp [eq_comm]
  | ok found => simp

theorem report?_eq_some_iff {x : FileReport} : a.report? read p = some x ↔
    x.file = relativePath a.root p ∧ x.diagnostics ≠ [] ∧
      a.verdict read p = .ok x.diagnostics := by
  obtain ⟨file, diagnostics⟩ := x
  unfold report?
  cases a.verdict read p with
  | error m => simp
  | ok found =>
    cases found with
    | nil => simp +contextual [eq_comm]
    | cons d ds => simp +contextual [eq_comm]

theorem failure?_file (p : Path) (x : Failure) (h : a.failure? read p = some x) :
    x.file = relativePath a.root p :=
  (failure?_eq_some_iff.1 h).1

theorem report?_file (p : Path) (x : FileReport) (h : a.report? read p = some x) :
    x.file = relativePath a.root p :=
  (report?_eq_some_iff.1 h).1

end

def Progress.reports (s : Progress) : List FileReport :=
  s.session.store.entries.map fun (file, found) => ⟨file, found⟩

/-- The files taken in so far, each with what there is to say about it. -/
structure Progress.Covers (a : Analysis) (read : Path → Except ReadError String) (files : List Path)
    (s : Progress) : Prop where
  settings : s.session.settings = a.settings.naming
  failures : s.failures = files.filterMap (a.failure? read)
  reports : s.reports = files.filterMap (a.report? read)

/-- The files are in the order of their paths below the root, and none is there twice. -/
def Ordered (a : Analysis) (files : List Path) : Prop :=
  files.Pairwise fun p q => compare (relativePath a.root p) (relativePath a.root q) = .lt

section
variable {a : Analysis} {read : Path → Except ReadError String} {files : List Path} {p : Path}
  {s : Progress}

theorem language_of_isSource (h : isSource p) (root : Path) :
    (Language.ofPath? (relativePath root p)).getD Language.plain ∈ Language.supported := by
  unfold isSource at h
  rw [relativePath_language]
  cases hl : Language.ofPath? p with
  | none => simp [hl] at h
  | some l => simpa [hl] using h

/-- What becomes of a session and its failures by one file, apart from the log. -/
theorem addFile_value (hsource : isSource p) (root : Path) (g : Grammar) (s : Progress) :
    (addFile g.checker root read s p).value =
      match read p with
      | .error e =>
        ⟨s.session, s.failures ++
          [⟨relativePath root p, s!"Failed to read {p.text}: {e.message}"⟩], s.filesChecked + 1⟩
      | .ok text =>
        match g.check text (relativePath root p).text s.session.settings.ruleKeys with
        | .ok found =>
          ⟨⟨s.session.settings, s.session.store.set (relativePath root p)
            (Session.publish s.session.settings found)⟩, s.failures, s.filesChecked + 1⟩
        | .error e =>
          ⟨⟨s.session.settings, s.session.store.clear (relativePath root p)⟩,
            s.failures ++ [⟨relativePath root p, e.message⟩], s.filesChecked + 1⟩ := by
  unfold addFile
  cases read p with
  | error e => rfl
  | ok text =>
    have hlanguage := language_of_isSource hsource root
    cases hcheck : g.check text (relativePath root p).text s.session.settings.ruleKeys with
    | error e =>
      simp [Logged.map, Session.handle_value, Grammar.checker, hlanguage, Document.ofText, hcheck]
    | ok found =>
      simp [Logged.map, Session.handle_value, Grammar.checker, hlanguage, Document.ofText, hcheck]

/-- Every file counts, whatever comes of it. -/
theorem addFile_filesChecked (c : Checker) (root : Path) (s : Progress) (p : Path) :
    (addFile c root read s p).value.filesChecked = s.filesChecked + 1 := by
  unfold addFile
  cases read p with
  | error e => rfl
  | ok text =>
    dsimp only [Logged.map]
    split <;> rfl

theorem addFiles_filesChecked (c : Checker) (root : Path) (s : Progress) (files : List Path) :
    (addFiles c root read s files).value.filesChecked = s.filesChecked + files.length := by
  induction files generalizing s with
  | nil => rfl
  | cons p files ih =>
    rw [addFiles, Logged.value_bind, ih, addFile_filesChecked, List.length_cons]
    omega

namespace Progress.Covers

/-- The store holds nothing at or behind a file that comes after all others. -/
theorem entries_lt (h : s.Covers a read files)
    (hlast : ∀ q ∈ files, compare (relativePath a.root q) (relativePath a.root p) = .lt) :
    ∀ e ∈ s.session.store.entries, compare e.1 (relativePath a.root p) = .lt := by
  intro e he
  have hmem : (⟨e.1, e.2⟩ : FileReport) ∈ files.filterMap (a.report? read) := by
    rw [← h.reports]
    exact List.mem_map.2 ⟨e, he, rfl⟩
  obtain ⟨q, hq, hreport⟩ := List.mem_filterMap.1 hmem
  have hfile : e.1 = relativePath a.root q := report?_file q _ hreport
  rw [hfile]
  exact hlast q hq

theorem concat {s' : Progress} (h : s.Covers a read files)
    (hsettings : s'.session.settings = s.session.settings)
    (hfailures : s'.failures = s.failures ++ (a.failure? read p).toList)
    (hreports : s'.reports = s.reports ++ (a.report? read p).toList) :
    s'.Covers a read (files ++ [p]) where
  settings := hsettings.trans h.settings
  failures := by
    rw [hfailures, h.failures, List.filterMap_append]
    cases hfailure : a.failure? read p <;> simp [hfailure]
  reports := by
    rw [hreports, h.reports, List.filterMap_append]
    cases hreport : a.report? read p <;> simp [hreport]

theorem addFile (h : s.Covers a read files) (hsource : isSource p)
    (hlast : ∀ q ∈ files, compare (relativePath a.root q) (relativePath a.root p) = .lt) :
    (Analysis.addFile a.grammar.checker a.root read s p).value.Covers a read (files ++ [p]) := by
  -- Nothing is published at or behind this path yet, so a failure withdraws nothing and a report
  -- goes to the end.
  have hlt := h.entries_lt hlast
  rw [addFile_value hsource, h.settings]
  cases hread : read p with
  | error e => apply h.concat <;> simp [failure?, report?, verdict, hread, Progress.reports]
  | ok text =>
    dsimp only
    cases hcheck :
        a.grammar.check text (relativePath a.root p).text a.settings.naming.ruleKeys with
    | error e =>
      have hentries := DiagnosticStore.entries_clear_of_lt hlt
      apply h.concat
      · exact h.settings.symm
      · simp [failure?, verdict, hread, hcheck]
      · simp [report?, verdict, hread, hcheck, Progress.reports, hentries]
    | ok found =>
      have hentries := DiagnosticStore.entries_set_of_lt hlt
      apply h.concat
      · exact h.settings.symm
      · simp [failure?, verdict, hread, hcheck]
      · cases found with
        | nil =>
          simp [report?, verdict, hread, hcheck, Progress.reports, hentries, Session.publish]
        | cons v vs =>
          simp [report?, verdict, hread, hcheck, Progress.reports, hentries, Session.publish]

theorem addFiles {more : List Path} (h : s.Covers a read files)
    (hsource : ∀ q ∈ more, isSource q) (hordered : a.Ordered (files ++ more)) :
    (Analysis.addFiles a.grammar.checker a.root read s more).value.Covers a read
      (files ++ more) := by
  -- The invariant is about all files so far, so they move from `more` to `files` one by one.
  induction more generalizing s files with
  | nil => simpa [Analysis.addFiles] using h
  | cons p more ih =>
    rw [Analysis.addFiles, Logged.value_bind]
    have hlast := (List.pairwise_append.1 hordered).2.2
    have hstep := h.addFile (hsource p List.mem_cons_self)
      fun q hq => hlast q hq p List.mem_cons_self
    rw [List.append_cons] at hordered ⊢
    exact ih hstep (fun q hq => hsource q (List.mem_cons_of_mem p hq)) hordered

end Progress.Covers
end

def inScope (a : Analysis) (p : Path) : Bool :=
  isSource p && !a.excludes p

section
variable {a : Analysis} {visited visited' : List Path} {p : Path}

theorem selected_perm (a : Analysis) (visited : List Path) :
    (a.selected visited).Perm (visited.filter a.inScope) := by
  have hfilter : (visited.filter isSource).filter (fun p => !a.excludes p) =
      visited.filter a.inScope := by
    rw [List.filter_filter]
    congr 1
    funext p
    exact Bool.and_comm ..
  rw [← hfilter]
  exact List.mergeSort_perm _ _

theorem mem_selected : p ∈ a.selected visited ↔ p ∈ visited ∧ a.inScope p := by
  rw [(selected_perm a visited).mem_iff, List.mem_filter]

theorem isSource_of_mem_selected (h : p ∈ a.selected visited) : isSource p := by
  have hscope := (mem_selected.1 h).2
  unfold inScope at hscope
  exact (Bool.and_eq_true_iff.1 hscope).1

theorem selected_sorted (h : Visits a.root visited) :
    (a.selected visited).Pairwise fun p q => compare p q = .lt := by
  have hle : (a.selected visited).Pairwise fun p q => (compare p q).isLE := by
    apply List.pairwise_mergeSort
    · intro p q r hpq hqr
      exact Std.TransOrd.isLE_trans hpq hqr
    · intro p q
      rw [Std.OrientedOrd.eq_swap (a := q)]
      cases compare p q <;> rfl
  -- Sorting gives an order with ties; the files are different, so there are none.
  have hne : (a.selected visited).Pairwise fun p q => p.components ≠ q.components := by
    have hnodup := h.distinct.sublist ((List.filter_sublist (p := a.inScope)).map _)
    exact List.pairwise_map.1 (((selected_perm a visited).map _).nodup_iff.2 hnodup)
  apply (hle.and hne).imp
  intro p q hpq
  have heq : compare p q ≠ .eq := fun heq => hpq.2 (Path.compare_eq_iff.1 heq)
  cases hcompare : compare p q with
  | lt => rfl
  | eq => exact absurd hcompare heq
  | gt => simp [hcompare] at hpq

theorem selected_ordered (h : Visits a.root visited) : a.Ordered (a.selected visited) := by
  apply (selected_sorted h).imp_of_mem
  intro p q hp hq hlt
  rw [h.compare_relativePath (mem_selected.1 hp).1 (mem_selected.1 hq).1, hlt]

/-- There is one order in which the files can be. -/
theorem selected_eq {files : List Path} (h : Visits a.root visited)
    (hperm : files.Perm (visited.filter a.inScope))
    (hsorted : files.Pairwise fun p q => compare p q = .lt) : a.selected visited = files := by
  apply List.Perm.eq_of_pairwise _ (selected_sorted h) hsorted
  · exact (selected_perm a visited).trans hperm.symm
  · intro p q _ _ hpq hqp
    exact absurd hqp (Std.OrientedCmp.not_lt_of_lt hpq)

theorem selected_eq_of_perm (h : Visits a.root visited) (hperm : visited'.Perm visited) :
    a.selected visited' = a.selected visited :=
  selected_eq (h.perm hperm) ((selected_perm a visited).trans (hperm.filter _).symm)
    (selected_sorted h)

/-- What the analysis of the visited files comes to, apart from the log. -/
theorem analyzeVisited_value (h : Visits a.root visited) (read : Path → Except ReadError String) :
    (a.analyzeVisited read visited).value =
      { reports := (a.selected visited).filterMap (a.report? read)
        failures := (a.selected visited).filterMap (a.failure? read)
        filesChecked := (a.selected visited).length } := by
  have hstart : a.start.Covers a read [] := ⟨rfl, rfl, rfl⟩
  have hsource : ∀ p ∈ a.selected visited, isSource p := fun p => isSource_of_mem_selected
  have hcovers := hstart.addFiles hsource (selected_ordered h)
  rw [List.nil_append] at hcovers
  change (⟨Progress.reports _, Progress.failures _, Progress.filesChecked _⟩ : Findings) = _
  rw [hcovers.reports, hcovers.failures, addFiles_filesChecked]
  simp [start]

theorem run_value {disk : Disk}
    (h : disk.walk a.settings.scan.respectGitignore a.root = .ok visited) :
    (a.run disk).value = .ok (a.analyzeVisited disk.read visited).value := by
  simp [run, h]

theorem Ordered.filterMap {β : Type} {f : Path → Option β} {file : β → Path} {files : List Path}
    (h : a.Ordered files) (hf : ∀ p x, f p = some x → file x = relativePath a.root p) :
    (files.filterMap f).Pairwise fun x y => compare (file x) (file y) = .lt := by
  apply List.pairwise_filterMap.2
  apply h.imp
  intro p q hlt x hx y hy
  rw [hf p x hx, hf q y hy, hlt]

/-- What is said under the path of a file is said of this file. -/
theorem mem_filterMap_of_file {β : Type} {f : Path → Option β} {file : β → Path} {x : β}
    (h : Visits a.root visited) (hf : ∀ p x, f p = some x → file x = relativePath a.root p)
    (hp : p ∈ a.selected visited) (hx : file x = relativePath a.root p) :
    x ∈ (a.selected visited).filterMap f ↔ f p = some x := by
  rw [List.mem_filterMap]
  constructor
  · rintro ⟨q, hq, hfq⟩
    have hfile : relativePath a.root q = relativePath a.root p := (hf q x hfq).symm.trans hx
    rwa [← h.relativePath_inj (mem_selected.1 hq).1 (mem_selected.1 hp).1 hfile]
  · intro hfp
    exact ⟨p, hp, hfp⟩

theorem mem_files_filterMap {β : Type} {f : Path → Option β} {file : β → Path}
    (h : Visits a.root visited) (hf : ∀ p x, f p = some x → file x = relativePath a.root p)
    (hp : p ∈ a.selected visited) :
    relativePath a.root p ∈ ((a.selected visited).filterMap f).map file ↔ (f p).isSome := by
  rw [List.mem_map, Option.isSome_iff_exists]
  constructor
  · rintro ⟨x, hx, hfile⟩
    exact ⟨x, (mem_filterMap_of_file h hf hp hfile).1 hx⟩
  · rintro ⟨x, hx⟩
    exact ⟨x, (mem_filterMap_of_file h hf hp (hf p x hx)).2 hx, hf p x hx⟩

end

/-- The findings of some files when each is taken by itself: all are counted, and in the order of
paths there is a failure for each that cannot be checked and a report for each with violations. -/
structure FileByFile (a : Analysis) (read : Path → Except ReadError String) (files : List Path)
    (f : Findings) : Prop where
  filesChecked : f.filesChecked = files.length
  failures_sorted : f.failures.Pairwise fun x y => compare x.file y.file = .lt
  mem_failures : ∀ x, x ∈ f.failures ↔
    ∃ p ∈ files, x.file = relativePath a.root p ∧ a.verdict read p = .error x.message
  reports_sorted : f.reports.Pairwise fun x y => compare x.file y.file = .lt
  mem_reports : ∀ x, x ∈ f.reports ↔
    ∃ p ∈ files, x.file = relativePath a.root p ∧ x.diagnostics ≠ [] ∧
      a.verdict read p = .ok x.diagnostics
  /-- A file is a failure, or has a report, or is clean. -/
  one : ∀ p ∈ files,
    (relativePath a.root p ∈ f.failures.map (·.file) ∧
      relativePath a.root p ∉ f.reports.map (·.file) ∧ a.verdict read p ≠ .ok []) ∨
    (relativePath a.root p ∉ f.failures.map (·.file) ∧
      relativePath a.root p ∈ f.reports.map (·.file) ∧ a.verdict read p ≠ .ok []) ∨
    (relativePath a.root p ∉ f.failures.map (·.file) ∧
      relativePath a.root p ∉ f.reports.map (·.file) ∧ a.verdict read p = .ok [])

section
variable {a : Analysis} {visited : List Path}

theorem fileByFile (h : Visits a.root visited) (read : Path → Except ReadError String) :
    FileByFile a read (visited.filter a.inScope) (a.analyzeVisited read visited).value := by
  have hmem : ∀ p, p ∈ visited.filter a.inScope ↔ p ∈ a.selected visited :=
    fun p => (selected_perm a visited).mem_iff.symm
  rw [analyzeVisited_value h]
  constructor
  · exact (selected_perm a visited).length_eq
  · exact (selected_ordered h).filterMap failure?_file
  · intro x
    simp only [List.mem_filterMap, failure?_eq_some_iff, hmem]
  · exact (selected_ordered h).filterMap report?_file
  · intro x
    simp only [List.mem_filterMap, report?_eq_some_iff, hmem]
  · intro p hp
    rw [hmem] at hp
    rw [mem_files_filterMap h failure?_file hp, mem_files_filterMap h report?_file hp,
      failure?, report?]
    cases a.verdict read p with
    | error message => simp
    | ok found => cases found <;> simp

end

/-- An analysis finds in the files that a walk yields what each of them gives by itself. The order
of the walk does not matter, and what is said of a file depends on no other text than its own. -/
theorem findings_file_by_file {g : Grammar} {current : Path} {root? : Option Path}
    {patterns : List String} {settings : Settings} {a : Analysis} {visited : List Path}
    (hready : prepare (some g) current root? patterns settings = .ok a)
    (hvisits : Visits a.root visited) (read : Path → Except ReadError String) :
    (a.grammar = g ∧ a.settings = settings ∧
      a.root = current.join (root?.getD settings.scan.root) ∧
      (patterns ++ settings.scan.exclude).mapM ExcludePattern.parse = .ok a.exclude) ∧
    FileByFile a read (visited.filter a.inScope) (a.analyzeVisited read visited).value ∧
    (∀ visited' : List Path, visited'.Perm visited →
      (a.analyzeVisited read visited').value = (a.analyzeVisited read visited).value) ∧
    (∀ read' : Path → Except ReadError String, ∀ p ∈ visited.filter a.inScope, read' p = read p →
      (∀ x : Failure, x.file = relativePath a.root p →
        (x ∈ (a.analyzeVisited read' visited).value.failures ↔
          x ∈ (a.analyzeVisited read visited).value.failures)) ∧
      ∀ x : FileReport, x.file = relativePath a.root p →
        (x ∈ (a.analyzeVisited read' visited).value.reports ↔
          x ∈ (a.analyzeVisited read visited).value.reports)) ∧
    ∀ disk : Disk, disk.walk settings.scan.respectGitignore a.root = .ok visited →
      (a.run disk).value = .ok (a.analyzeVisited disk.read visited).value := by
  have hprepared := prepare_eq_ok hready
  refine ⟨hprepared, fileByFile hvisits read, fun visited' hperm => ?_, fun read' p hp hread => ?_,
    fun disk hwalk => ?_⟩
  · rw [analyzeVisited_value (hvisits.perm hperm), analyzeVisited_value hvisits,
      selected_eq_of_perm hvisits hperm]
  · rw [(selected_perm a visited).mem_iff.symm] at hp
    have hverdict := verdict_congr (a := a) hread
    rw [analyzeVisited_value hvisits, analyzeVisited_value hvisits]
    constructor
    · intro x hx
      rw [mem_filterMap_of_file hvisits failure?_file hp hx,
        mem_filterMap_of_file hvisits failure?_file hp hx, failure?, failure?, hverdict]
    · intro x hx
      rw [mem_filterMap_of_file hvisits report?_file hp hx,
        mem_filterMap_of_file hvisits report?_file hp hx, report?, report?, hverdict]
  · rw [← hprepared.2.1] at hwalk
    exact run_value hwalk

/-- Reads the empty text and one function. -/
def mixedGrammar : Grammar where
  parse _ text :=
    if text = "" then .ok (.clean "program" none true 0 0 [])
    else if text = "function Foo() \x7b\x7d" then
      .ok (.clean "program" none true 0 17
        [.clean "function_declaration" none true 0 17
          [.clean "function" none false 0 8 [],
            .clean "identifier" (some "name") true 9 12 [],
            .clean "formal_parameters" (some "parameters") true 12 14 [],
            .clean "statement_block" (some "body") true 15 17 []]])
    else .error .noTree

def mixedSettings : Settings := { scan := { exclude := [] } }

def mixedAnalysis : Analysis where
  grammar := mixedGrammar
  root := ⟨"/w/."⟩
  exclude := [⟨"dist", ⟨"dist".toList.map .char⟩⟩]
  settings := mixedSettings

/-- A clean file, one in another language, one that cannot be read, one with a violation, one that
is excluded and one that does not parse. The file `lib.ts` comes after what is in `lib`. -/
def mixedVisited : List Path :=
  [⟨"/w/lib.ts"⟩, ⟨"/w/n.md"⟩, ⟨"/w/lib/z.ts"⟩, ⟨"/w/b.ts"⟩, ⟨"/w/dist/b.ts"⟩, ⟨"/w/a.tsx"⟩]

def mixedRead (p : Path) : Except ReadError String :=
  if p.text = "/w/lib/z.ts" then .error (.other "Permission denied (os error 13)")
  else if p.text = "/w/b.ts" then .ok "function Foo() \x7b\x7d"
  else if p.text = "/w/a.tsx" then .ok "("
  else .ok ""

theorem mixedAnalysis_ready :
    prepare (some mixedGrammar) ⟨"/w"⟩ none ["dist"] mixedSettings = .ok mixedAnalysis := by
  have hexclude : (["dist"] ++ mixedSettings.scan.exclude).mapM ExcludePattern.parse =
      .ok mixedAnalysis.exclude := by decide +kernel
  exact prepare_of_patterns hexclude ..

theorem mixedVisited_visits : Visits mixedAnalysis.root mixedVisited where
  distinct := by decide +kernel
  below := by
    have hbelow : ∀ p ∈ mixedVisited, p.components.drop 2 ≠ [] ∧
        p.components = mixedAnalysis.root.components ++ p.components.drop 2 := by decide +kernel
    exact .inl fun p hp => ⟨_, hbelow p hp⟩

theorem findings_file_by_file_mixed :
    prepare (some mixedGrammar) ⟨"/w"⟩ none ["dist"] mixedSettings = .ok mixedAnalysis ∧
      Visits mixedAnalysis.root mixedVisited ∧
      (mixedAnalysis.analyzeVisited mixedRead mixedVisited).value.filesChecked = 4 ∧
      ⟨⟨"a.tsx"⟩, "a.tsx: parser produced no syntax tree"⟩ ∈
        (mixedAnalysis.analyzeVisited mixedRead mixedVisited).value.failures ∧
      ⟨⟨"lib/z.ts"⟩, "Failed to read /w/lib/z.ts: Permission denied (os error 13)"⟩ ∈
        (mixedAnalysis.analyzeVisited mixedRead mixedVisited).value.failures ∧
      (∃ x ∈ (mixedAnalysis.analyzeVisited mixedRead mixedVisited).value.reports,
        x.file = ⟨"b.ts"⟩) ∧
      (mixedAnalysis.analyzeVisited mixedRead mixedVisited.reverse).value =
        (mixedAnalysis.analyzeVisited mixedRead mixedVisited).value := by
  obtain ⟨-, hfiles, hperm, -⟩ :=
    findings_file_by_file mixedAnalysis_ready mixedVisited_visits mixedRead
  have hreport : ∃ found, found ≠ [] ∧
      mixedAnalysis.verdict mixedRead ⟨"/w/b.ts"⟩ = .ok found :=
    ⟨(mixedAnalysis.verdict mixedRead ⟨"/w/b.ts"⟩).toOption.getD [], by decide +kernel⟩
  obtain ⟨found, hne, hverdict⟩ := hreport
  have hfile : (⟨"b.ts"⟩ : Path) = relativePath mixedAnalysis.root ⟨"/w/b.ts"⟩ := by decide +kernel
  exact ⟨mixedAnalysis_ready, mixedVisited_visits, hfiles.filesChecked.trans (by decide +kernel),
    (hfiles.mem_failures _).2 ⟨⟨"/w/a.tsx"⟩, by decide +kernel⟩,
    (hfiles.mem_failures _).2 ⟨⟨"/w/lib/z.ts"⟩, by decide +kernel⟩,
    ⟨⟨⟨"b.ts"⟩, found⟩,
      (hfiles.mem_reports _).2 ⟨⟨"/w/b.ts"⟩, by decide +kernel, hfile, hne, hverdict⟩,
      rfl⟩,
    hperm _ (List.reverse_perm _)⟩

end Analysis
end NamingLint
