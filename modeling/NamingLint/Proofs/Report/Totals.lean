import NamingLint.Proofs.Command.ExitStatus

/-!
# What the summary tells

The totals of a result, the question whether it has errors, the colour of its summary and the status
of the command are found by going over the reports four times. They agree: all of them depend on how
many diagnostics there are of each severity, and on whether some file could not be checked.
-/
namespace NamingLint

namespace Tally

def count (t : Tally) : Severity → Nat
  | .error => t.errors
  | .warning => t.warnings
  | .information => t.infos
  | .hint => t.hints

def total (t : Tally) : Nat :=
  t.errors + t.warnings + t.infos + t.hints

theorem count_add (t : Tally) (s s' : Severity) :
    (t.add s).count s' = t.count s' + if s = s' then 1 else 0 := by
  cases s <;> cases s' <;> simp [add, count]

theorem total_add (t : Tally) (s : Severity) : (t.add s).total = t.total + 1 := by
  cases s <;> simp only [add, total] <;> omega

end Tally

namespace Findings

/-- Counting on from some totals adds the diagnostics of each severity. -/
theorem count_foldl (ds : List Diagnostic) (t : Tally) (s : Severity) :
    (ds.foldl (fun t d => t.add d.severity) t).count s =
      t.count s + ds.countP (·.severity = s) := by
  induction ds generalizing t with
  | nil => simp
  | cons d ds ih =>
    rw [List.foldl_cons, ih, Tally.count_add, List.countP_cons]
    simp only [decide_eq_true_eq]
    omega

theorem total_foldl (ds : List Diagnostic) (t : Tally) :
    (ds.foldl (fun t d => t.add d.severity) t).total = t.total + ds.length := by
  induction ds generalizing t with
  | nil => simp
  | cons d ds ih =>
    rw [List.foldl_cons, ih, Tally.total_add, List.length_cons]
    omega

variable (f : Findings)

theorem tally_count (s : Severity) : f.tally.count s = f.diagnostics.countP (·.severity = s) := by
  have hstart : Tally.count {} s = 0 := by cases s <;> rfl
  rw [tally, count_foldl, hstart, Nat.zero_add]

theorem tally_total : f.tally.total = f.diagnostics.length := by
  have hstart : Tally.total {} = 0 := rfl
  rw [tally, total_foldl, hstart, Nat.zero_add]

theorem violationCount_eq_length : f.violationCount = f.diagnostics.length := by
  have hfoldl (reports : List FileReport) (n : Nat) :
      reports.foldl (fun count report => count + report.diagnostics.length) n =
        n + (reports.flatMap (·.diagnostics)).length := by
    induction reports generalizing n with
    | nil => simp
    | cons r reports ih =>
      rw [List.foldl_cons, ih, List.flatMap_cons, List.length_append]
      omega
  rw [violationCount, hfoldl, Nat.zero_add, diagnostics]

theorem tally_pos_iff (s : Severity) :
    0 < f.tally.count s ↔ ∃ r ∈ f.reports, ∃ d ∈ r.diagnostics, d.severity = s := by
  rw [tally_count, List.countP_pos_iff, diagnostics]
  simp only [List.mem_flatMap, decide_eq_true_eq]
  constructor
  · rintro ⟨d, ⟨r, hr, hd⟩, hs⟩
    exact ⟨r, hr, d, hd, hs⟩
  · rintro ⟨r, hr, d, hd, hs⟩
    exact ⟨d, ⟨r, hr, hd⟩, hs⟩

theorem hasErrors_iff_tally : f.hasErrors = true ↔ 0 < f.tally.errors := by
  change _ ↔ 0 < f.tally.count .error
  rw [tally_count, List.countP_pos_iff, hasErrors, List.any_eq_true]
  simp only [beq_iff_eq, decide_eq_true_eq]

end Findings

namespace Report
variable (f : Findings)

/-- The colour, with what it says of the findings. -/
theorem summaryColour_cases :
    (summaryColour f = .red ∧ f.fails = true) ∨
      (summaryColour f = .yellow ∧ f.fails = false ∧ 0 < f.tally.count .warning) ∨
      (summaryColour f = .green ∧ f.fails = false ∧ ¬0 < f.tally.count .warning) := by
  have hfails : (decide (0 < f.tally.errors) || f.hasFailures) = f.fails := by
    rw [Findings.fails, Bool.eq_iff_iff, Bool.or_eq_true, Bool.or_eq_true, f.hasErrors_iff_tally,
      decide_eq_true_eq]
  have hwarnings : f.tally.warnings = f.tally.count .warning := rfl
  rw [summaryColour, hfails, hwarnings]
  cases f.fails with
  | true => simp
  | false => by_cases hw : 0 < f.tally.count .warning <;> simp [hw]

/-- The colour can be read off the summary: no other code stands at its start. -/
theorem code_begins_summary_iff (c : Colour) :
    c.code.toList <+: (summary f).toList ↔ summaryColour f = c := by
  have hbegins : (summaryColour f).code.toList <+: (summary f).toList := by
    simp [summary, coloured]
  have hlength (c c' : Colour) : c.code.toList.length = c'.code.toList.length := by
    cases c <;> cases c' <;> decide
  constructor
  · intro h
    have hcodes := (List.prefix_of_prefix_length_le hbegins h (hlength _ _).le).eq_of_length
      (hlength _ _)
    revert hcodes
    cases c <;> cases summaryColour f <;> decide
  · rintro rfl
    exact hbegins

theorem render_ends_with_summary {format : Format} (h : format = .text ∨ format = .boxed)
    (root : Path) (rootIsFile : Bool) (read : Path → Except ReadError String) :
    ∃ body, (format.render root rootIsFile read f).value = body ++ summary f := by
  rcases h with rfl | rfl
  · exact ⟨_, rfl⟩
  · exact ⟨_, rfl⟩

end Report

namespace Command

theorem check_of_findings {e : Environment} {config? path? : Option Path} {patterns : List String}
    {o : Overrides} {s : Settings} {root : Path} {f : Findings}
    (hsettings : (e.effectiveSettings config? path? o).value = .ok s)
    (hfound : (e.analyze path? patterns s).value = .ok (root, f)) (format : Report.Format) :
    (e.check config? path? format patterns o).status = (if f.fails then 1 else 0) ∧
      (e.check config? path? format patterns o).output =
        (format.render root (e.disk.isFile root) e.disk.read f).value := by
  simp [Environment.check, Environment.checkFiles, hsettings, hfound]

/-- On any findings the four totals add up to the number of violations, and there are errors just if
the total of errors is positive. So the summary is red just if the command fails, yellow if it does
not and some diagnostic is a warning, and else green, and the summary begins with the code of that
colour and no other. A check that comes to these findings ends with status 1 if the colour is red
and with 0 if not, and a report for people ends with the summary. -/
theorem summary_tells_outcome (f : Findings) :
    f.tally.errors + f.tally.warnings + f.tally.infos + f.tally.hints = f.violationCount ∧
      (f.hasErrors = true ↔ 0 < f.tally.errors) ∧
      (Report.summaryColour f = .red ↔ f.fails = true) ∧
      (Report.summaryColour f = .yellow ↔
        f.fails = false ∧ ∃ r ∈ f.reports, ∃ d ∈ r.diagnostics, d.severity = .warning) ∧
      (Report.summaryColour f = .green ↔
        f.fails = false ∧ ¬∃ r ∈ f.reports, ∃ d ∈ r.diagnostics, d.severity = .warning) ∧
      (∀ c : Report.Colour,
        c.code.toList <+: (Report.summary f).toList ↔ Report.summaryColour f = c) ∧
      ∀ (e : Environment) (config? path? : Option Path) (format : Report.Format)
        (patterns : List String) (o : Overrides) (s : Settings) (root : Path),
        (e.effectiveSettings config? path? o).value = .ok s →
        (e.analyze path? patterns s).value = .ok (root, f) →
        (e.check config? path? format patterns o).status =
            (if Report.summaryColour f = .red then 1 else 0) ∧
          (format = .text ∨ format = .boxed → ∃ body,
            (e.check config? path? format patterns o).output = body ++ Report.summary f) := by
  have htotal : f.tally.total = f.violationCount := by
    rw [f.tally_total, f.violationCount_eq_length]
  have hcolour := Report.summaryColour_cases f
  have hred : Report.summaryColour f = .red ↔ f.fails = true := by
    rcases hcolour with h | h | h <;> simp [h]
  refine ⟨htotal, f.hasErrors_iff_tally, hred, ?_, ?_, Report.code_begins_summary_iff f, ?_⟩
  · rw [← f.tally_pos_iff]
    rcases hcolour with h | h | h <;> simp [h]
  · rw [← f.tally_pos_iff]
    rcases hcolour with h | h | h <;> simp [h]
  · intro e config? path? format patterns o s root hsettings hfound
    obtain ⟨hstatus, houtput⟩ := check_of_findings hsettings hfound format
    refine ⟨?_, fun hformat => ?_⟩
    · simp only [hstatus, hred]
    · rw [houtput]
      exact Report.render_ends_with_summary f hformat ..

theorem summary_tells_outcome_strict :
    (strictEnvironment.effectiveSettings none none strictOverrides).value =
        .ok { naming := strictOverrides.apply {} } ∧
      (strictEnvironment.analyze none [] { naming := strictOverrides.apply {} }).value =
        .ok (⟨"/w/."⟩, strictFindings) ∧
      (strictEnvironment.check none none .text [] strictOverrides).status = 1 ∧
      ∃ body, (strictEnvironment.check none none .text [] strictOverrides).output =
        body ++ Report.summary strictFindings := by
  have hsettings : (strictEnvironment.effectiveSettings none none strictOverrides).value =
      .ok { naming := strictOverrides.apply {} } := by decide +kernel
  have hfound : (strictEnvironment.analyze none [] { naming := strictOverrides.apply {} }).value =
      .ok (⟨"/w/."⟩, strictFindings) := by decide +kernel
  obtain ⟨-, -, hred, -, -, -, hrun⟩ := summary_tells_outcome strictFindings
  obtain ⟨hstatus, houtput⟩ := hrun _ _ _ .text _ _ _ _ hsettings hfound
  refine ⟨hsettings, hfound, ?_, houtput (.inl rfl)⟩
  rw [hstatus, if_pos (hred.2 (by decide))]

end Command
end NamingLint
