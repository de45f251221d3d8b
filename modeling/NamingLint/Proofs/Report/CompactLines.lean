import NamingLint.Proofs.Check.Categories
import NamingLint.Proofs.Report.Totals
import NamingLint.Proofs.RuleLanguage
import NamingLint.Proofs.Text.OneLine

/-!
# The lines of the compact report

If no file, message or rule of the findings has a line feed, then the compact report has one line
for each diagnostic and one for each failure, and no more. Findings of an analysis are so whenever
paths, declared names and the reasons for unread files are: a violation is of a known rule, so that
a key with a line feed in it, which names no rule, comes into no message.
-/
namespace NamingLint
open Text

/-- No text of the findings that the compact report writes has a line feed. -/
structure Findings.OneLine (f : Findings) : Prop where
  files : ∀ r ∈ f.reports, Text.OneLine r.file.text
  messages : ∀ r ∈ f.reports, ∀ d ∈ r.diagnostics, Text.OneLine d.message
  rules : ∀ r ∈ f.reports, ∀ d ∈ r.diagnostics, Text.OneLine d.violation.rule
  failureFiles : ∀ x ∈ f.failures, Text.OneLine x.file.text
  failureMessages : ∀ x ∈ f.failures, Text.OneLine x.message

namespace Report
variable {f : Findings}

theorem oneLine_compactLine {file : Path} {d : Diagnostic} (hfile : OneLine file.text)
    (hrule : OneLine d.violation.rule) (hmessage : OneLine d.message) :
    OneLine (compactLine file d) := by
  have hlabel : OneLine d.severity.label := by
    cases d.severity <;> simp [OneLine, Severity.label, Severity.word]
  unfold OneLine at *
  simp [compactLine, placeOf, toString, hlabel, hfile, hrule, hmessage]

theorem oneLine_compactFailure {x : Failure} (hfile : OneLine x.file.text)
    (hmessage : OneLine x.message) : OneLine (compactFailure x) := by
  unfold OneLine at *
  simp [compactFailure, toString, hfile, hmessage]

theorem oneLine_of_mem_compactLines (h : f.OneLine) : ∀ line ∈ compactLines f, OneLine line := by
  intro line hline
  rcases List.mem_append.1 hline with hline | hline
  · obtain ⟨r, hr, hline⟩ := List.mem_flatMap.1 hline
    obtain ⟨d, hd, rfl⟩ := List.mem_map.1 hline
    exact oneLine_compactLine (h.files r hr) (h.rules r hr d hd) (h.messages r hr d hd)
  · obtain ⟨x, hx, rfl⟩ := List.mem_map.1 hline
    exact oneLine_compactFailure (h.failureFiles x hx) (h.failureMessages x hx)

theorem compactLines_eq (f : Findings) : compactLines f =
    f.reports.flatMap (fun r => r.diagnostics.map fun d =>
        s!"{r.file.text}:{d.range.start.line + 1}:{d.range.start.character + 1}: " ++
          s!"{d.severity.label} [{d.violation.rule}] {d.message}") ++
      f.failures.map fun x => s!"{x.file.text}: error [parse] {x.message}" := by
  have hline (file : Path) (d : Diagnostic) : compactLine file d =
      s!"{file.text}:{d.range.start.line + 1}:{d.range.start.character + 1}: " ++
        s!"{d.severity.label} [{d.violation.rule}] {d.message}" := by
    simp only [compactLine, placeOf, toString, String.append_assoc]
  simp only [← hline]
  rfl

theorem compactLines_length (f : Findings) :
    (compactLines f).length = f.violationCount + f.failures.length := by
  rw [f.violationCount_eq_length, compactLines, List.length_append, List.length_map,
    Findings.diagnostics, List.length_flatMap, List.length_flatMap]
  simp

end Report

theorem OsError.oneLine_message (e : OsError) : OneLine e.message := by
  cases e <;> simp [OneLine, message]

/-- A tree of files has no other reasons. -/
theorem FileTree.oneLine_read {t : FileTree} {p : Path} {e : ReadError}
    (h : t.disk.read p = .error e) : OneLine e.message := by
  change (t.readText [] p).mapError .os = .error e at h
  cases hread : t.readText [] p with
  | ok text => simp [hread, Except.mapError] at h
  | error cause =>
    obtain rfl : .os cause = e := by simpa [hread, Except.mapError] using h
    exact cause.oneLine_message

theorem ParseError.oneLine_message {g : Grammar} {text file : String} {e : ParseError}
    (hfile : OneLine file)
    (hreasons : ∀ dialect text reason,
      g.parse dialect text = .error (.unavailable reason) → OneLine reason)
    (h : g.parseClean text file = .error e) : OneLine e.message := by
  have hdialect (dialect : Dialect) : OneLine dialect.name := by
    cases dialect <;> simp [OneLine, Dialect.name]
  unfold OneLine at *
  -- In each case the text is written out, for `simp` is slow to unfold `message`.
  simp only [Grammar.parseClean] at h
  split at h
  · rename_i reason hparse
    obtain rfl := Except.error.inj h
    have hreason := hreasons _ _ _ hparse
    change '\n' ∉ (s!"failed to load {(Dialect.ofFileName file).name} grammar: {reason}").toList
    simp [toString, hdialect, hreason]
  · obtain rfl := Except.error.inj h
    change '\n' ∉ (s!"{file}: parser produced no syntax tree").toList
    simp [toString, hfile]
  · rename_i root hparse
    split at h
    · rename_i error hfault
      obtain rfl := Except.error.inj h
      obtain ⟨fault, -, rfl⟩ := Option.map_eq_some_iff.1 hfault
      change '\n' ∉ (s!"{file}:{_}:{_}: syntax error").toList
      simp [toString, hfile]
    · simp at h

theorem Rule.oneLine_key (rule : Rule) : OneLine rule.key := by
  cases rule <;> simp [OneLine, key]

namespace Violation

/-- The message of a violation of a known rule has only the name from outside. -/
theorem oneLine_message {v : Violation} {rule : Rule} (hrule : v.rule = rule.key)
    (hname : OneLine v.name) (locale : Locale) : OneLine (v.message locale) := by
  have hkey := rule.oneLine_key
  have hsample : OneLine v.sample := by
    rw [sample, hrule, sampleFor, Rule.ofKey?_eq_some_iff.2 rfl]
    cases rule <;> simp [OneLine, Rule.sample]
  have htitle (locale : Locale) : OneLine (v.subject.title locale) := by
    cases locale <;> cases v.subject <;> simp [OneLine, Subject.title]
  unfold OneLine at *
  cases locale <;> simp [message, toString, htitle, hname, hrule, hkey, hsample]

end Violation

theorem Grammar.rule_of_mem_check {g : Grammar} {text file : String} {keys : RuleKeys}
    {found : List Violation} (h : g.check text file keys = .ok found) {v : Violation}
    (hv : v ∈ found) : ∃ rule : Rule, v.rule = rule.key := by
  obtain ⟨root, -, rfl⟩ := check_eq_ok_iff.1 h
  obtain ⟨b, -, hcheck⟩ := List.mem_filterMap.1 hv
  obtain ⟨rule, hrule⟩ := Option.ne_none_iff_exists'.1 (Binding.rule_of_check hcheck).2
  exact ⟨rule, Rule.ofKey?_eq_some_iff.1 hrule⟩

theorem Grammar.name_of_mem_check {g : Grammar} {text file : String} {keys : RuleKeys}
    {found : List Violation} (h : g.check text file keys = .ok found) {v : Violation}
    (hv : v ∈ found) : ∃ bs, g.bindings text file = .ok bs ∧ ∃ b ∈ bs, b.name = v.name := by
  obtain ⟨root, hparse, rfl⟩ := check_eq_ok_iff.1 h
  obtain ⟨b, hb, hcheck⟩ := List.mem_filterMap.1 hv
  obtain ⟨subject, -, -, rfl⟩ := Binding.check_eq_some hcheck
  exact ⟨_, by rw [bindings, hparse]; rfl, b, hb, rfl⟩

namespace Analysis
open NamingLint.Path

theorem oneLine_relativePath {root p : Path} (hp : OneLine p.text) :
    OneLine (relativePath root p).text := by
  have hfallback : OneLine (relativePath.fallback p).text := by
    unfold relativePath.fallback
    cases hname : p.fileName? with
    | none => exact hp
    | some name => exact oneLine_fileName? hp hname
  unfold relativePath
  split
  · rename_i rel hbelow
    split
    · exact hfallback
    · intro hline
      rcases mem_below? hbelow hline with hslash | hline
      · exact absurd hslash (by decide)
      · exact hp hline
  · exact hfallback

/-- The files that are checked and the names that they declare have no line feeds, nor do the
reasons why a file cannot be read or the grammar is not there. -/
structure OneLineProject (a : Analysis) (disk : Disk) (checked : List Path) : Prop where
  paths : ∀ p ∈ checked, OneLine p.text
  unread : ∀ p ∈ checked, ∀ e, disk.read p = .error e → OneLine e.message
  declared : ∀ p ∈ checked, ∀ text bs, disk.read p = .ok text →
    a.grammar.bindings text (relativePath a.root p).text = .ok bs → ∀ b ∈ bs, OneLine b.name
  reasons : ∀ dialect text reason,
    a.grammar.parse dialect text = .error (.unavailable reason) → OneLine reason

section
variable {a : Analysis} {disk : Disk} {checked : List Path} {p : Path}
  (h : OneLineProject a disk checked) (hp : p ∈ checked)
include h hp

theorem OneLineProject.failure {message : String}
    (hverdict : a.verdict disk.read p = .error message) : OneLine message := by
  have hpath := h.paths p hp
  rcases verdict_eq_error_iff.1 hverdict with ⟨e, hread, rfl⟩ | ⟨text, e, -, hcheck, rfl⟩
  · have hcause := h.unread p hp e hread
    unfold OneLine at *
    simp [toString, hpath, hcause]
  · exact ParseError.oneLine_message (oneLine_relativePath hpath) h.reasons
      (Grammar.check_eq_error_iff.1 hcheck)

theorem OneLineProject.diagnostics {ds : List Diagnostic}
    (hverdict : a.verdict disk.read p = .ok ds) :
    ∀ d ∈ ds, OneLine d.message ∧ OneLine d.violation.rule := by
  obtain ⟨text, found, hread, hcheck, rfl⟩ := verdict_eq_ok_iff.1 hverdict
  intro d hd
  obtain ⟨v, hv, rfl⟩ := List.mem_map.1 hd
  obtain ⟨rule, hrule⟩ := Grammar.rule_of_mem_check hcheck hv
  obtain ⟨bs, hbindings, b, hb, hname⟩ := Grammar.name_of_mem_check hcheck hv
  have hline : OneLine v.name := hname ▸ h.declared p hp text bs hread hbindings b hb
  refine ⟨Violation.oneLine_message hrule hline _, ?_⟩
  change OneLine v.rule
  rw [hrule]
  exact rule.oneLine_key

end

theorem OneLineProject.findings {a : Analysis} {disk : Disk} {checked : List Path}
    {f : Findings} (h : OneLineProject a disk checked)
    (hfound : FileByFile a disk.read checked f) : f.OneLine where
  files r hr := by
    obtain ⟨p, hp, hrel, -⟩ := (hfound.mem_reports r).1 hr
    rw [hrel]
    exact oneLine_relativePath (h.paths p hp)
  messages r hr d hd := by
    obtain ⟨p, hp, -, -, hverdict⟩ := (hfound.mem_reports r).1 hr
    exact (h.diagnostics hp hverdict d hd).1
  rules r hr d hd := by
    obtain ⟨p, hp, -, -, hverdict⟩ := (hfound.mem_reports r).1 hr
    exact (h.diagnostics hp hverdict d hd).2
  failureFiles x hx := by
    obtain ⟨p, hp, hrel, -⟩ := (hfound.mem_failures x).1 hx
    rw [hrel]
    exact oneLine_relativePath (h.paths p hp)
  failureMessages x hx := by
    obtain ⟨p, hp, -, hverdict⟩ := (hfound.mem_failures x).1 hx
    exact h.failure hp hverdict

/-- The compact report of findings without line feeds has one line for each diagnostic, in the order
of the reports, with its place counted from one, and then one for each failure, each of them ended
by a line feed. The findings of an analysis have no line feeds if the files it checks and the names
they declare have none, and neither have the reasons why files cannot be read or the grammar is not
there, whatever rule keys are set. Those of a tree of files have none. -/
theorem compact_line_by_line :
    (∀ f : Findings, f.OneLine →
        (Report.compact f).toList.splitOn '\n' =
          (f.reports.flatMap (fun r => r.diagnostics.map fun d =>
              s!"{r.file.text}:{d.range.start.line + 1}:{d.range.start.character + 1}: " ++
                s!"{d.severity.label} [{d.violation.rule}] {d.message}") ++
            f.failures.map fun x => s!"{x.file.text}: error [parse] {x.message}").map
              String.toList ++ [[]] ∧
        (Report.compact f).toList.count '\n' = f.violationCount + f.failures.length) ∧
      (∀ (a : Analysis) (disk : Disk) (visited : List Path),
        disk.walk a.settings.scan.respectGitignore a.root = .ok visited →
        Visits a.root visited → OneLineProject a disk (visited.filter a.inScope) →
        ∃ f, (a.run disk).value = .ok f ∧ f.OneLine) ∧
      ∀ (files : FileTree) (p : Path) (e : ReadError), files.disk.read p = .error e →
        Text.OneLine e.message := by
  refine ⟨fun f hf => ?_, fun a disk visited hwalk hvisits hproject => ?_,
    fun files p e => FileTree.oneLine_read⟩
  · have hlines := Report.oneLine_of_mem_compactLines hf
    constructor
    · rw [Report.compact, splitOn_join hlines, Report.compactLines_eq]
    · rw [Report.compact, count_join hlines, Report.compactLines_length]
  · exact ⟨_, run_value hwalk, hproject.findings (fileByFile hvisits _)⟩

/-- The strict analysis, but with a rule key of two lines. -/
def brokenKeyAnalysis : Analysis :=
  { Command.strictAnalysis with
    settings :=
      { naming := { Command.strictOverrides.apply {} with constantCase := "snake\ncase" } } }

theorem brokenKeyAnalysis_oneLine : OneLineProject brokenKeyAnalysis Command.strictFiles.disk
    (Command.strictVisited.filter brokenKeyAnalysis.inScope) where
  paths := by
    have hall : ∀ p ∈ Command.strictVisited, OneLine p.text := by decide
    exact fun p hp => hall p (List.mem_filter.1 hp).1
  unread _ _ _ := FileTree.oneLine_read
  declared := by
    have hall : ∀ p ∈ Command.strictVisited,
        (((Command.strictFiles.disk.read p).toOption.bind fun text =>
          (mixedGrammar.bindings text (relativePath ⟨"/w/."⟩ p).text).toOption).all
            fun bs => bs.all fun b => decide (OneLine b.name)) = true := by
      decide +kernel
    intro p hp text bs hread hbindings b hb
    change mixedGrammar.bindings text (relativePath ⟨"/w/."⟩ p).text = .ok bs at hbindings
    have hnames := hall p (List.mem_filter.1 hp).1
    rw [hread] at hnames
    simp only [Except.toOption, Option.bind_some, hbindings, Option.all_some, List.all_eq_true,
      decide_eq_true_eq] at hnames
    exact hnames b hb
  reasons := by
    intro dialect text reason hparse
    change mixedGrammar.parse dialect text = _ at hparse
    unfold mixedGrammar at hparse
    grind

theorem compact_line_by_line_broken_key :
    (brokenKeyAnalysis.run Command.strictFiles.disk).value = .ok Command.strictFindings ∧
      Command.strictFindings.OneLine ∧
      (Report.compact Command.strictFindings).toList.count '\n' = 1 := by
  obtain ⟨hlines, hproject, -⟩ := compact_line_by_line
  have hwalk : Command.strictFiles.disk.walk true brokenKeyAnalysis.root =
      .ok Command.strictVisited := by decide +kernel
  obtain ⟨f, hrun, hf⟩ := hproject brokenKeyAnalysis _ _ hwalk
    (FileTree.walk_visits Command.strictFiles_proper hwalk) brokenKeyAnalysis_oneLine
  have hfound : (brokenKeyAnalysis.run Command.strictFiles.disk).value =
      .ok Command.strictFindings := by decide +kernel
  obtain rfl := Except.ok.inj (hrun.symm.trans hfound)
  exact ⟨hfound, hf, (hlines _ hf).2⟩

end Analysis
end NamingLint
