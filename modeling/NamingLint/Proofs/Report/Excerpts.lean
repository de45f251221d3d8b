import NamingLint.Proofs.Command.ExitStatus

/-!
# Where excerpts are taken from

A report names a file by its path below the root, and its excerpts are read from that path taken
from the root again. This leads back to the file: to the same components for any path below the
root, and for the files of a walk to the same spelling. So an excerpt shows the text that was
checked.
-/
namespace NamingLint

namespace Analysis
open NamingLint.Path
variable {root p q rel : Path}

theorem join_of_empty (hroot : root.components = []) (p : Path) : root.join p = p := by
  simp [join, text_of_no_components hroot]

/-- The path below the root, taken from the root, has the components of the file. -/
theorem components_join_relativePath {r : List Component}
    (h : p.components = root.components ++ r) (hr : r ≠ []) :
    (root.join (relativePath root p)).components = p.components := by
  by_cases hroot : root.components = []
  · rw [hroot, List.nil_append] at h
    rw [relativePath_of_no_components hroot (h ▸ hr), join_of_empty hroot, components_trimEnd]
  · obtain ⟨rel, hbelow, -⟩ := exists_isBelow hroot h hr
    rw [relativePath_of_isBelow hbelow hroot, components_join hbelow.tidy.1, hbelow.components_eq]

theorem components_ne_of_tidy (h : Tidy rel.segments) : rel.components ≠ [] :=
  fun hnil => text_ne_of_tidy h (text_of_no_components hnil)

/-- What is spelled from the root on is spelled so again. -/
theorem join_relativePath_join (h : Tidy rel.segments) (root : Path) :
    root.join (relativePath root (root.join rel)) = root.join rel := by
  by_cases hroot : root.components = []
  · rw [join_of_empty hroot rel, relativePath_of_no_components hroot (components_ne_of_tidy h),
      trimEnd_of_tidy h, join_of_empty hroot]
  · rw [relativePath_of_isBelow (isBelow_join h root) hroot]

/-- The files that a walk can yield: the root if it is a file, and else what is below it. -/
def Yields (root : Path) (rootIsFile : Bool) (p : Path) : Prop :=
  if rootIsFile then p.components = root.components
  else ∃ r, r ≠ [] ∧ p.components = root.components ++ r

theorem components_reportPath {rootIsFile : Bool} {report : FileReport}
    (h : Yields root rootIsFile p) (hfile : report.file = relativePath root p) :
    (Report.reportPath root rootIsFile report).components = p.components := by
  cases rootIsFile with
  | true => exact h.symm
  | false =>
    obtain ⟨r, hr, hp⟩ := h
    rw [← components_join_relativePath hp hr, ← hfile]
    rfl

theorem components_of_relativePath {rootIsFile : Bool} (hp : Yields root rootIsFile p)
    (hq : Yields root rootIsFile q)
    (h : (relativePath root p).components = (relativePath root q).components) :
    p.components = q.components := by
  cases rootIsFile with
  | true => exact hp.trans hq.symm
  | false =>
    obtain ⟨r, hr, hp⟩ := hp
    obtain ⟨s, hs, hq⟩ := hq
    rw [relativePath_components hp hr, relativePath_components hq hs] at h
    rw [hp, hq, h]

section
variable {rootIsFile : Bool} {visited : List Path} (h : SpelledFrom root rootIsFile visited)
include h

theorem yields_of_spelledFrom : ∀ p ∈ visited, Yields root rootIsFile p := by
  intro p hp
  have hp := h p hp
  cases rootIsFile with
  | true => exact congrArg Path.components hp
  | false =>
    obtain ⟨rel, htidy, rfl⟩ := hp
    exact ⟨rel.components, components_ne_of_tidy htidy, components_join htidy.1 root⟩

/-- For paths that are spelled from the root on, the path that is read again is the path that was
read. -/
theorem reportPath_of_spelledFrom : ∀ p ∈ visited, ∀ report : FileReport,
    report.file = relativePath root p → Report.reportPath root rootIsFile report = p := by
  intro p hp report hreport
  have hp := h p hp
  cases rootIsFile with
  | true => exact Eq.symm hp
  | false =>
    obtain ⟨rel, htidy, rfl⟩ := hp
    change root.join report.file = _
    rw [hreport, join_relativePath_join htidy]

end

end Analysis

theorem Logged.mapM_eq_pure {α β : Type} {f : α → Logged β} {g : α → β} {xs : List α}
    (h : ∀ x ∈ xs, f x = pure (g x)) : xs.mapM f = pure (xs.map g) := by
  induction xs with
  | nil => rfl
  | cons x xs ih =>
    obtain ⟨hx, hxs⟩ := List.forall_mem_cons.1 h
    rw [List.mapM_cons, hx, ih hxs]
    rfl

/-- With all files at hand, the boxed report has the boxes of their texts and no events. -/
theorem Report.boxed_eq {root : Path} {rootIsFile : Bool} {read : Path → Except ReadError String}
    {f : Findings} {textOf : FileReport → String}
    (h : ∀ r ∈ f.reports, read (reportPath root rootIsFile r) = .ok (textOf r)) :
    boxed root rootIsFile read f =
      pure (String.join (f.reports.map fun r => String.join (r.diagnostics.map fun d =>
          box r.file.text (textOf r).toList (d.violation.highlight d.message))) ++
        String.join (f.failures.map fun x => s!"{x.file.text}: {x.message}\n") ++ summary f) := by
  have hboxes : ∀ r ∈ f.reports, boxedFile (reportPath root rootIsFile r) read r =
      pure (String.join (r.diagnostics.map fun d =>
        box r.file.text (textOf r).toList (d.violation.highlight d.message))) := by
    intro r hr
    rw [boxedFile, h r hr]
  rw [boxed, Logged.mapM_eq_pure hboxes, pure_bind]

namespace Analysis
open NamingLint.Path

/-- The diagnostics of a report were found in the text of the file that the report is about. -/
theorem FileByFile.exists_check {a : Analysis} {read : Path → Except ReadError String}
    {files : List Path} {f : Findings} (h : FileByFile a read files f) {report : FileReport}
    (hreport : report ∈ f.reports) : ∃ p ∈ files, ∃ text found,
      report.file = relativePath a.root p ∧ read p = .ok text ∧
      a.grammar.check text report.file.text a.settings.naming.ruleKeys = .ok found ∧
      report.diagnostics = Session.publish a.settings.naming found := by
  obtain ⟨p, hp, hfile, -, hverdict⟩ := (h.mem_reports report).1 hreport
  obtain ⟨text, found, hread, hcheck, hpublished⟩ := verdict_eq_ok_iff.1 hverdict
  rw [← hfile] at hcheck
  exact ⟨p, hp, text, found, hfile, hread, hcheck, hpublished⟩

/-- A path that a walk can yield is found again: the path that a report on it is read from has the
same components, and two such paths that go by the same components are the same file. If a walk
spells its files from the root on, both even have one spelling. So the boxes for the reports of an
analysis show the texts in which their diagnostics were found, and the boxed report has all of them,
then the failures and the summary. -/
theorem excerpts_from_checked_files :
    (∀ (root : Path) (rootIsFile : Bool) (p : Path), Yields root rootIsFile p →
        (∀ report : FileReport, report.file = relativePath root p →
          (Report.reportPath root rootIsFile report).components = p.components) ∧
        ∀ q, Yields root rootIsFile q →
          (relativePath root p).components = (relativePath root q).components →
          p.components = q.components) ∧
      ∀ (a : Analysis) (disk : Disk) (visited : List Path),
        disk.walk a.settings.scan.respectGitignore a.root = .ok visited →
        Visits a.root visited → SpelledFrom a.root (disk.isFile a.root) visited →
        (∀ p ∈ visited, Yields a.root (disk.isFile a.root) p ∧
          (∀ report : FileReport, report.file = relativePath a.root p →
            Report.reportPath a.root (disk.isFile a.root) report = p) ∧
          ∀ q ∈ visited,
            (relativePath a.root p).components = (relativePath a.root q).components → p = q) ∧
        ∃ (f : Findings) (textOf : FileReport → String), (a.run disk).value = .ok f ∧
          (∀ report ∈ f.reports, ∃ p ∈ visited, ∃ found,
            report.file = relativePath a.root p ∧ disk.read p = .ok (textOf report) ∧
            a.grammar.check (textOf report) report.file.text a.settings.naming.ruleKeys =
              .ok found ∧
            report.diagnostics = Session.publish a.settings.naming found ∧
            Report.boxedFile (Report.reportPath a.root (disk.isFile a.root) report) disk.read
                report =
              pure (String.join (report.diagnostics.map fun d =>
                Report.box report.file.text (textOf report).toList
                  (d.violation.highlight d.message)))) ∧
          Report.boxed a.root (disk.isFile a.root) disk.read f =
            pure (String.join (f.reports.map fun report =>
                String.join (report.diagnostics.map fun d =>
                  Report.box report.file.text (textOf report).toList
                    (d.violation.highlight d.message))) ++
              String.join (f.failures.map fun x => s!"{x.file.text}: {x.message}\n") ++
              Report.summary f) := by
  refine ⟨fun root rootIsFile p hp => ⟨fun report => components_reportPath hp,
    fun q hq => components_of_relativePath hp hq⟩, ?_⟩
  intro a disk visited hwalk hvisits hspelled
  have hyields := yields_of_spelledFrom hspelled
  have hsame := reportPath_of_spelledFrom hspelled
  have hfiles := fileByFile hvisits disk.read
  let textOf (report : FileReport) : String :=
    (disk.read (Report.reportPath a.root (disk.isFile a.root) report)).toOption.getD ""
  have hreports : ∀ report ∈ (a.analyzeVisited disk.read visited).value.reports,
      ∃ p ∈ visited, ∃ found, report.file = relativePath a.root p ∧
        disk.read p = .ok (textOf report) ∧
        a.grammar.check (textOf report) report.file.text a.settings.naming.ruleKeys = .ok found ∧
        report.diagnostics = Session.publish a.settings.naming found := by
    intro report hreport
    obtain ⟨p, hp, text, found, hfile, hread, hcheck, hpublished⟩ := hfiles.exists_check hreport
    have hvisited : p ∈ visited := (List.mem_filter.1 hp).1
    obtain rfl : textOf report = text := by
      simp [textOf, hsame p hvisited report hfile, hread, Except.toOption]
    exact ⟨p, hvisited, found, hfile, hread, hcheck, hpublished⟩
  have hagain : ∀ report ∈ (a.analyzeVisited disk.read visited).value.reports,
      disk.read (Report.reportPath a.root (disk.isFile a.root) report) = .ok (textOf report) := by
    intro report hreport
    obtain ⟨p, hvisited, found, hfile, hread, -⟩ := hreports report hreport
    rw [hsame p hvisited report hfile, hread]
  refine ⟨fun p hp => ⟨hyields p hp, hsame p hp, fun q hq h => ?_⟩, _, textOf, run_value hwalk,
    fun report hreport => ?_, Report.boxed_eq hagain⟩
  · exact List.inj_on_of_nodup_map hvisits.distinct hp hq
      (components_of_relativePath (hyields p hp) (hyields q hq) h)
  · obtain ⟨p, hvisited, found, hfile, hread, hcheck, hpublished⟩ := hreports report hreport
    refine ⟨p, hvisited, found, hfile, hread, hcheck, hpublished, ?_⟩
    rw [Report.boxedFile, hagain report hreport]

/-- A root spelled with a way up and slashes at its end, and the files of a strict check. -/
theorem excerpts_from_checked_files_strict :
    Yields ⟨"sub/..//"⟩ false ⟨"sub/.././lib//a.ts"⟩ ∧
      (Report.reportPath ⟨"sub/..//"⟩ false
        ⟨relativePath ⟨"sub/..//"⟩ ⟨"sub/.././lib//a.ts"⟩, []⟩).components =
          [.name "sub", .up, .name "lib", .name "a.ts"] ∧
      Command.strictFiles.Proper ∧
      Command.strictFiles.disk.walk true ⟨"/w/."⟩ = .ok Command.strictVisited ∧
      Report.reportPath ⟨"/w/."⟩ (Command.strictFiles.disk.isFile ⟨"/w/."⟩) ⟨⟨"dist/b.ts"⟩, []⟩ =
        ⟨"/w/./dist/b.ts"⟩ ∧
      Report.boxed ⟨"/w/."⟩ (Command.strictFiles.disk.isFile ⟨"/w/."⟩)
          Command.strictFiles.disk.read Command.strictFindings =
        pure (String.join (Command.strictFindings.diagnostics.map fun d =>
          Report.box "a.ts" "function Foo() \x7b\x7d".toList (d.violation.highlight d.message)) ++
            Report.summary Command.strictFindings) := by
  obtain ⟨hpaths, hwalks⟩ := excerpts_from_checked_files
  have hyields : Yields ⟨"sub/..//"⟩ false ⟨"sub/.././lib//a.ts"⟩ :=
    ⟨[.name "lib", .name "a.ts"], by simp, by decide +kernel⟩
  have hwalk : Command.strictFiles.disk.walk true ⟨"/w/."⟩ = .ok Command.strictVisited := by
    decide +kernel
  obtain ⟨hvisited, f, textOf, hrun, hreports, hboxed⟩ := hwalks Command.strictAnalysis _ _ hwalk
    (FileTree.walk_visits Command.strictFiles_proper hwalk)
    (FileTree.walk_spelled Command.strictFiles_proper hwalk)
  have hfound : (Command.strictAnalysis.run Command.strictFiles.disk).value =
      .ok Command.strictFindings := by decide +kernel
  obtain rfl := Except.ok.inj (hrun.symm.trans hfound)
  have htext : ∀ report ∈ Command.strictFindings.reports,
      textOf report = "function Foo() \x7b\x7d" := by
    have hread : ∀ p ∈ Command.strictVisited, relativePath ⟨"/w/."⟩ p = ⟨"a.ts"⟩ →
        Command.strictFiles.disk.read p = .ok "function Foo() \x7b\x7d" := by decide +kernel
    intro report hreport
    obtain ⟨p, hp, -, hfile, htext, -⟩ := hreports report hreport
    rw [List.mem_singleton.1 hreport] at hfile
    exact Except.ok.inj (htext.symm.trans (hread p hp hfile.symm))
  refine ⟨hyields, ?_, Command.strictFiles_proper, hwalk, ?_, ?_⟩
  · rw [(hpaths _ _ _ hyields).1 _ rfl]
    decide +kernel
  · exact (hvisited ⟨"/w/./dist/b.ts"⟩ (by decide)).2.1 _ (by decide +kernel)
  · rw [List.map_congr_left fun report hreport => by rw [htext report hreport]] at hboxed
    refine hboxed.trans ?_
    simp [Command.strictFindings, Findings.diagnostics]

end Analysis
end NamingLint
