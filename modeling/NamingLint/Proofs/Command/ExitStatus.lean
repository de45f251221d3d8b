import NamingLint.Command.Run
import NamingLint.Proofs.Analysis.PerFile
import NamingLint.Proofs.Check.SyntaxErrors
import NamingLint.Proofs.Walk

/-!
# When a check fails

The status of a check that comes to its report tells whether a file could not be checked, or
whether there are violations and they count as errors. It is decided by the files, the rules and the
severity, and not by how the findings are worded or laid out.
-/
namespace NamingLint

namespace Analysis
variable {a : Analysis} {read : Path → Except ReadError String} {visited files : List Path}
  {p : Path} {f : Findings}

theorem severity_of_verdict {found : List Diagnostic} (h : a.verdict read p = .ok found) :
    ∀ d ∈ found, d.severity = a.settings.naming.severity := by
  obtain ⟨text, violations, -, -, rfl⟩ := verdict_eq_ok_iff.1 h
  intro d hd
  obtain ⟨v, -, rfl⟩ := List.mem_map.1 hd
  rfl

/-- Some file cannot be read, or not parsed. -/
def Unchecked (g : Grammar) (root : Path) (read : Path → Except ReadError String)
    (files : List Path) : Prop :=
  ∃ p ∈ files, (∃ cause, read p = .error cause) ∨
    ∃ text cause, read p = .ok text ∧ g.parseClean text (relativePath root p).text = .error cause

/-- Some file has a name against the rules. -/
def Violated (g : Grammar) (root : Path) (read : Path → Except ReadError String) (keys : RuleKeys)
    (files : List Path) : Prop :=
  ∃ p ∈ files, ∃ text found, read p = .ok text ∧ found ≠ [] ∧
    g.check text (relativePath root p).text keys = .ok found

theorem exists_verdict_error_iff : (∃ p ∈ files, ∃ message, a.verdict read p = .error message) ↔
    Unchecked a.grammar a.root read files := by
  apply exists_congr
  intro p
  apply and_congr_right
  intro _
  simp only [verdict_eq_error_iff, Grammar.check_eq_error_iff]
  constructor
  · rintro ⟨message, ⟨cause, hread, -⟩ | ⟨text, cause, hread, hparse, -⟩⟩
    · exact .inl ⟨cause, hread⟩
    · exact .inr ⟨text, cause, hread, hparse⟩
  · rintro (⟨cause, hread⟩ | ⟨text, cause, hread, hparse⟩)
    · exact ⟨_, .inl ⟨cause, hread, rfl⟩⟩
    · exact ⟨_, .inr ⟨text, cause, hread, hparse, rfl⟩⟩

theorem exists_verdict_ok_iff :
    (∃ p ∈ files, ∃ found, found ≠ [] ∧ a.verdict read p = .ok found) ↔
      Violated a.grammar a.root read a.settings.naming.ruleKeys files := by
  apply exists_congr
  intro p
  apply and_congr_right
  intro _
  simp only [verdict_eq_ok_iff]
  constructor
  · rintro ⟨ds, hne, text, found, hread, hcheck, rfl⟩
    exact ⟨text, found, hread, by simpa [Session.publish] using hne, hcheck⟩
  · rintro ⟨text, found, hread, hne, hcheck⟩
    exact ⟨_, by simpa [Session.publish] using hne, text, found, hread, hcheck, rfl⟩

section
variable (h : FileByFile a read files f)
include h

theorem FileByFile.hasFailures_iff :
    f.hasFailures = true ↔ Unchecked a.grammar a.root read files := by
  rw [← exists_verdict_error_iff, Findings.hasFailures, Bool.not_eq_true',
    List.isEmpty_eq_false_iff_exists_mem]
  constructor
  · rintro ⟨x, hx⟩
    obtain ⟨p, hp, -, hverdict⟩ := (h.mem_failures x).1 hx
    exact ⟨p, hp, x.message, hverdict⟩
  · rintro ⟨p, hp, message, hverdict⟩
    exact ⟨⟨relativePath a.root p, message⟩, (h.mem_failures _).2 ⟨p, hp, rfl, hverdict⟩⟩

theorem FileByFile.hasErrors_iff :
    f.hasErrors = true ↔ a.settings.naming.severity = .error ∧
      Violated a.grammar a.root read a.settings.naming.ruleKeys files := by
  rw [← exists_verdict_ok_iff, Findings.hasErrors, Findings.diagnostics, List.any_flatMap,
    List.any_eq_true]
  constructor
  · rintro ⟨x, hx, hany⟩
    obtain ⟨p, hp, -, hne, hverdict⟩ := (h.mem_reports x).1 hx
    obtain ⟨d, hd, herror⟩ := List.any_eq_true.1 hany
    rw [severity_of_verdict hverdict d hd] at herror
    exact ⟨by simpa using herror, p, hp, x.diagnostics, hne, hverdict⟩
  · rintro ⟨hseverity, p, hp, found, hne, hverdict⟩
    obtain ⟨d, hd⟩ := List.exists_mem_of_ne_nil found hne
    have herror : (d.severity == .error) = true := by
      simp [severity_of_verdict hverdict d hd, hseverity]
    exact ⟨⟨relativePath a.root p, found⟩, (h.mem_reports _).2 ⟨p, hp, rfl, hne, hverdict⟩,
      List.any_eq_true.2 ⟨d, hd, herror⟩⟩

/-- Findings fail by a file that cannot be checked, or by violations that are errors. -/
theorem FileByFile.fails_iff :
    f.fails = true ↔ Unchecked a.grammar a.root read files ∨
      a.settings.naming.severity = .error ∧
        Violated a.grammar a.root read a.settings.naming.ruleKeys files := by
  rw [Findings.fails, Bool.or_eq_true, h.hasErrors_iff, h.hasFailures_iff, or_comm]

end

end Analysis

namespace Command
variable {e : Environment} {config? path? : Option Path} {format : Report.Format}
  {patterns : List String} {o : Overrides} {s : Settings} {a : Analysis} {visited : List Path}

theorem effectiveSettings_value
    (h : (e.loadSettings (e.findSettings (e.projectDirectory path?) config?).value).value = .ok s)
    (o : Overrides) : (e.effectiveSettings config? path? o).value =
      .ok { s with naming := o.apply s.naming } := by
  simp [Environment.effectiveSettings, h]

theorem analyze_value
    (hready : Analysis.prepare (some e.grammar) e.currentPath path? patterns s = .ok a)
    (hwalk : e.disk.walk s.scan.respectGitignore a.root = .ok visited) :
    (e.analyze path? patterns s).value =
      .ok (a.root, (a.analyzeVisited e.disk.read visited).value) := by
  rw [← (Analysis.prepare_eq_ok hready).2.1] at hwalk
  simp [Environment.analyze, hready, Analysis.run_value hwalk]

/-- A check that comes to its report fails as its findings do, whatever the format. -/
theorem check_status
    (hsettings :
      (e.loadSettings (e.findSettings (e.projectDirectory path?) config?).value).value = .ok s)
    (hready : Analysis.prepare (some e.grammar) e.currentPath path? patterns
      { s with naming := o.apply s.naming } = .ok a)
    (hwalk : e.disk.walk s.scan.respectGitignore a.root = .ok visited)
    (format : Report.Format) :
    (e.check config? path? format patterns o).status =
      if (a.analyzeVisited e.disk.read visited).value.fails then 1 else 0 := by
  have hvalue := analyze_value hready hwalk
  simp [Environment.check, Environment.checkFiles, effectiveSettings_value hsettings, hvalue]

theorem run_status {args : List String} {verbose : Bool}
    (h : parseArguments args = .ok ⟨verbose, config?, .check path? format patterns o⟩) :
    (e.run args).status = (e.check config? path? format patterns o).status := by
  simp [Environment.run, h, Environment.perform]

theorem run_status_le {args : List String} {verbose : Bool}
    (h : parseArguments args = .ok ⟨verbose, config?, .check path? format patterns o⟩) :
    (e.run args).status = 0 ∨ (e.run args).status = 1 := by
  rw [run_status h, Environment.check]
  cases (e.checkFiles config? path? format patterns o).value with
  | error complaint => exact .inr rfl
  | ok report => cases hfails : report.2 <;> simp [hfails]

/-- The status of a check by the files that are analysed, the severity and the rules. -/
theorem check_status_iff
    (hsettings :
      (e.loadSettings (e.findSettings (e.projectDirectory path?) config?).value).value = .ok s)
    (hready : Analysis.prepare (some e.grammar) e.currentPath path? patterns
      { s with naming := o.apply s.naming } = .ok a)
    (hwalk : e.disk.walk s.scan.respectGitignore a.root = .ok visited)
    (hvisits : Visits a.root visited) (format : Report.Format) :
    (e.check config? path? format patterns o).status = 1 ↔
      Analysis.Unchecked e.grammar a.root e.disk.read (visited.filter a.inScope) ∨
        o.severity.getD s.naming.severity = .error ∧
          Analysis.Violated e.grammar a.root e.disk.read
            ⟨o.constantCase.getD s.naming.constantCase, o.functionCase.getD s.naming.functionCase⟩
            (visited.filter a.inScope) := by
  have hfails := (Analysis.fileByFile hvisits e.disk.read).fails_iff
  obtain ⟨hgrammar, hnaming, -, -⟩ := Analysis.prepare_eq_ok hready
  rw [hgrammar, hnaming] at hfails
  rw [check_status hsettings hready hwalk]
  refine Iff.trans ?_ hfails
  split <;> simp_all

/-- A check that comes to its report ends with status 1 if a file in its scope cannot be read or
parsed, or if violations are errors and there is one; else with 0. Neither the format nor the
language of the messages, on the command line or in the settings, has a part in it. The files can be
those of any machine whose walk visits files below its root, and none of them twice. -/
theorem status_of_check {args : List String} {verbose : Bool}
    (hargs : parseArguments args = .ok ⟨verbose, config?, .check path? format patterns o⟩)
    (hsettings :
      (e.loadSettings (e.findSettings (e.projectDirectory path?) config?).value).value = .ok s)
    (hready : Analysis.prepare (some e.grammar) e.currentPath path? patterns
      { s with naming := o.apply s.naming } = .ok a)
    (hwalk : e.disk.walk s.scan.respectGitignore a.root = .ok visited)
    (hvisits : Visits a.root visited) :
    ((e.run args).status = 1 ↔
      Analysis.Unchecked e.grammar a.root e.disk.read (visited.filter a.inScope) ∨
        o.severity.getD s.naming.severity = .error ∧
          Analysis.Violated e.grammar a.root e.disk.read
            ⟨o.constantCase.getD s.naming.constantCase, o.functionCase.getD s.naming.functionCase⟩
            (visited.filter a.inScope)) ∧
    ((e.run args).status = 0 ∨ (e.run args).status = 1) ∧
    ∀ (args' : List String) (verbose' : Bool) (config?' : Option Path) (format' : Report.Format)
      (locale? : Option Locale) (locale : Locale),
      parseArguments args' =
        .ok ⟨verbose', config?', .check path? format' patterns { o with locale := locale? }⟩ →
      (e.loadSettings (e.findSettings (e.projectDirectory path?) config?').value).value =
        .ok { s with naming := { s.naming with locale } } →
      (e.run args').status = (e.run args).status := by
  have hstatus := check_status_iff hsettings hready hwalk hvisits format
  rw [← run_status hargs] at hstatus
  refine ⟨hstatus, run_status_le hargs, ?_⟩
  intro args' verbose' config?' format' locale? locale hargs' hsettings'
  have hstatus' := check_status_iff (o := { o with locale := locale? }) hsettings'
    (Analysis.prepare_of_scan hready rfl) hwalk hvisits format'
  rw [← run_status hargs'] at hstatus'
  -- The condition reads neither the format nor the locale, so it is the same for both runs.
  have hiff : (e.run args').status = 1 ↔ (e.run args).status = 1 := hstatus'.trans hstatus.symm
  have hrange := run_status_le (e := e) hargs
  have hrange' := run_status_le (e := e) hargs'
  omega

/-- A file with a violation, one in another language, and one that is left out and has no text. -/
def strictFiles : FileTree where
  nodes :=
    [(["w"], .directory),
      (["w", "a.ts"], .file "function Foo() \x7b\x7d".toUTF8),
      (["w", "readme.md"], .file "".toUTF8),
      (["w", "dist"], .directory),
      (["w", "dist", "b.ts"], .file ⟨#[255]⟩)]

def strictEnvironment : Environment where
  files := strictFiles
  current := ["w"]
  grammar := Analysis.mixedGrammar

def strictOverrides : Overrides := { severity := some .error }

def strictAnalysis : Analysis where
  grammar := Analysis.mixedGrammar
  root := ⟨"/w/."⟩
  exclude := ({} : ScanSettings).exclude.filterMap fun text => (ExcludePattern.parse text).toOption
  settings := { naming := strictOverrides.apply {} }

def strictVisited : List Path :=
  [⟨"/w/./a.ts"⟩, ⟨"/w/./readme.md"⟩, ⟨"/w/./dist/b.ts"⟩]

def strictFindings : Findings where
  reports := [⟨⟨"a.ts"⟩, [.ofViolation ⟨"Foo", 0, 9, 12, .function, "camelCase", 9⟩ .error .en]⟩]
  filesChecked := 1

theorem strictFiles_proper : strictFiles.Proper where
  below_top := by decide +kernel
  names := by decide +kernel
  places := by decide +kernel

theorem strictAnalysis_ready : Analysis.prepare (some strictEnvironment.grammar)
    strictEnvironment.currentPath none [] { naming := strictOverrides.apply {} } =
      .ok strictAnalysis := by
  have hexclude : ([] ++ ({} : ScanSettings).exclude).mapM ExcludePattern.parse =
      .ok strictAnalysis.exclude := by decide +kernel
  have hroot : strictEnvironment.currentPath.join ⟨"."⟩ = strictAnalysis.root := by decide +kernel
  rw [Analysis.prepare_of_patterns hexclude]
  exact congrArg (fun root => Except.ok { strictAnalysis with root }) hroot

theorem status_of_check_strict :
    strictFiles.Proper ∧
      parseArguments ["check", "--severity", "error", "-f", "json"] =
        .ok ⟨false, none, .check none .json [] strictOverrides⟩ ∧
      strictEnvironment.disk.walk true ⟨"/w/."⟩ = .ok strictVisited ∧
      (strictEnvironment.run ["check", "--severity", "error", "-f", "json"]).status = 1 ∧
      (strictEnvironment.run ["check", "--locale=ja", "--severity=error"]).status = 1 := by
  have hargs : parseArguments ["check", "--severity", "error", "-f", "json"] =
      .ok ⟨false, none, .check none .json [] strictOverrides⟩ := by decide +kernel
  have hsettings : (strictEnvironment.loadSettings (strictEnvironment.findSettings
      (strictEnvironment.projectDirectory none) none).value).value = .ok {} := by decide +kernel
  have hwalk : strictFiles.disk.walk true strictAnalysis.root = .ok strictVisited := by
    decide +kernel
  obtain ⟨hstatus, -, hsame⟩ := status_of_check (e := strictEnvironment) hargs hsettings
    strictAnalysis_ready hwalk (FileTree.walk_visits strictFiles_proper hwalk)
  have hviolated : ∃ found : List Violation, found ≠ [] ∧ Analysis.mixedGrammar.check
      "function Foo() \x7b\x7d" "a.ts" ({} : NamingSettings).ruleKeys = .ok found :=
    ⟨((Analysis.mixedGrammar.check "function Foo() \x7b\x7d" "a.ts"
      ({} : NamingSettings).ruleKeys).toOption).getD [], by decide +kernel⟩
  obtain ⟨found, hne, hcheck⟩ := hviolated
  have hfails := hstatus.2 (.inr ⟨rfl, ⟨"/w/./a.ts"⟩, by decide +kernel,
    "function Foo() \x7b\x7d", found, by decide +kernel, hne, hcheck⟩)
  refine ⟨strictFiles_proper, hargs, hwalk, hfails, ?_⟩
  rw [← hfails]
  exact hsame _ false none .text (Locale.ofCode? "ja") .standard (by decide +kernel) hsettings

end Command
end NamingLint
