import NamingLint.Proofs.Analysis.PerFile
import NamingLint.Proofs.Walk
import Mathlib.Data.List.Forall2

/-!
# What severity and language leave alone

Two settings that differ in severity and language only make two presentations of one analysis. Run
side by side, their sessions hold the same violations of the same files after every document, each
published in its own way. So the findings differ in ratings and wording only, and the logs do not
differ at all.
-/
namespace NamingLint

/-- Two logged values report the same events, and the values are related. -/
structure Logged.Alike {α β : Type} (R : α → β → Prop) (x : Logged α) (y : Logged β) : Prop where
  value : R x.value y.value
  events : x.events = y.events

namespace Logged.Alike
variable {α β γ δ : Type} {R : α → β → Prop} {S : γ → δ → Prop} {x : Logged α} {y : Logged β}

theorem bind {f : α → Logged γ} {g : β → Logged δ} (h : Alike R x y)
    (hf : ∀ a b, R a b → Alike S (f a) (g b)) : Alike S (x >>= f) (y >>= g) where
  value := (hf _ _ h.value).value
  events := by
    simp only [events_bind, h.events, (hf _ _ h.value).events]

theorem map {f : α → γ} {g : β → δ} (h : Alike R x y) (hf : ∀ a b, R a b → S (f a) (g b)) :
    Alike S (x.map f) (y.map g) where
  value := hf _ _ h.value
  events := h.events

end Logged.Alike

/-- Two diagnostics of one violation. -/
structure Diagnostic.Alike (d d' : Diagnostic) : Prop where
  range : d.range = d'.range
  source : d.source = d'.source
  violation : d.violation = d'.violation

/-- A diagnostic has the severity of the settings, and its violation is told in their language. -/
structure Diagnostic.PresentedBy (s : NamingSettings) (d : Diagnostic) : Prop where
  severity : d.severity = s.severity
  message : d.message = d.violation.message s.locale

/-- Two reports on one file, with diagnostics of the same violations in the same order. -/
structure FileReport.Alike (r r' : FileReport) : Prop where
  file : r.file = r'.file
  diagnostics : List.Forall₂ Diagnostic.Alike r.diagnostics r'.diagnostics

/-- Findings that differ in presentation only. -/
structure Findings.Alike (f f' : Findings) : Prop where
  filesChecked : f.filesChecked = f'.filesChecked
  failures : f.failures = f'.failures
  reports : List.Forall₂ FileReport.Alike f.reports f'.reports

def Findings.PresentedBy (s : NamingSettings) (f : Findings) : Prop :=
  ∀ r ∈ f.reports, ∀ d ∈ r.diagnostics, d.PresentedBy s

theorem Findings.Alike.violationCount {f f' : Findings} (h : f.Alike f') :
    f.violationCount = f'.violationCount := by
  apply List.rel_foldl (P := Eq) _ rfl h.reports
  rintro n _ rfl r r' hr
  simp only [hr.diagnostics.length_eq]

namespace Session
variable {s s' : NamingSettings}

/-- Two entries hold the same violations of one file, each published under its own settings. -/
def SameEntry (s s' : NamingSettings) (e e' : Path × List Diagnostic) : Prop :=
  e.1 = e'.1 ∧ ∃ violations, e.2 = publish s violations ∧ e'.2 = publish s' violations

namespace SameEntry
variable {e e' : Path × List Diagnostic}

theorem symm (h : SameEntry s s' e e') : SameEntry s' s e' e := by
  obtain ⟨hfile, violations, hfound, hfound'⟩ := h
  exact ⟨hfile.symm, violations, hfound', hfound⟩

theorem alike (h : SameEntry s s' e e') :
    FileReport.Alike ⟨e.1, e.2⟩ ⟨e'.1, e'.2⟩ := by
  obtain ⟨hfile, violations, hfound, hfound'⟩ := h
  refine ⟨hfile, ?_⟩
  simp only [hfound, hfound', publish, List.forall₂_map_left_iff, List.forall₂_map_right_iff]
  apply List.forall₂_same.2
  intro v _
  exact ⟨rfl, rfl, rfl⟩

theorem presentedBy (h : SameEntry s s' e e') : ∀ d ∈ e.2, d.PresentedBy s := by
  obtain ⟨-, violations, hfound, -⟩ := h
  rw [hfound]
  intro d hd
  obtain ⟨v, -, rfl⟩ := List.mem_map.1 hd
  exact ⟨rfl, rfl⟩

end SameEntry

/-- Two stores hold the same violations of the same files. -/
def SameStore (s s' : NamingSettings) (store store' : DiagnosticStore) : Prop :=
  List.Forall₂ (SameEntry s s') store.entries store'.entries

namespace SameStore
variable {store store' : DiagnosticStore}

theorem insertInto (path : Path) (violations : List Violation)
    {entries entries' : List (Path × List Diagnostic)}
    (h : List.Forall₂ (SameEntry s s') entries entries') :
    List.Forall₂ (SameEntry s s')
      (DiagnosticStore.insertInto path (publish s violations) entries)
      (DiagnosticStore.insertInto path (publish s' violations) entries') := by
  have hnew (p : Path) : SameEntry s s' (p, publish s violations) (p, publish s' violations) :=
    ⟨rfl, violations, rfl, rfl⟩
  induction h with
  | nil => exact .cons (hnew path) .nil
  | @cons e e' _ _ he htail ih =>
    obtain ⟨p, old⟩ := e
    obtain ⟨p', old'⟩ := e'
    obtain rfl : p = p' := he.1
    rw [DiagnosticStore.insertInto, DiagnosticStore.insertInto]
    -- The place of an entry depends on the paths alone, and these are the same in both stores.
    cases compare path p with
    | lt => exact .cons (hnew path) (.cons he htail)
    | eq => exact .cons (hnew p) htail
    | gt => exact .cons he ih

theorem clear (h : SameStore s s' store store') (path : Path) :
    SameStore s s' (store.clear path) (store'.clear path) := by
  apply List.rel_filter _ h
  intro e e' he
  simp only [he.1]

theorem set (h : SameStore s s' store store') (path : Path) (violations : List Violation) :
    SameStore s s' (store.set path (publish s violations))
      (store'.set path (publish s' violations)) := by
  cases violations with
  | nil => exact h.clear path
  | cons v vs => exact insertInto path (v :: vs) h

theorem symm (h : SameStore s s' store store') : SameStore s' s store' store := by
  apply List.Forall₂.flip
  exact h.imp fun _ _ => SameEntry.symm

theorem presentedBy {entries entries' : List (Path × List Diagnostic)}
    (h : List.Forall₂ (SameEntry s s') entries entries') :
    ∀ e ∈ entries, ∀ d ∈ e.2, d.PresentedBy s := by
  induction h with
  | nil => simp
  | cons he _ ih => exact List.forall_mem_cons.2 ⟨he.presentedBy, ih⟩

end SameStore

/-- Two sessions, each under its own settings, have published the same violations. -/
structure Matches (s s' : NamingSettings) (S S' : Session) : Prop where
  left : S.settings = s
  right : S'.settings = s'
  store : SameStore s s' S.store S'.store

/-- One document keeps two sessions together: with the same outcome and the same events. -/
theorem Matches.handle {S S' : Session} (h : Matches s s' S S') (hkeys : s.ruleKeys = s'.ruleKeys)
    (c : Checker) (t : Trigger) (d : Document) :
    Logged.Alike (fun r r' => r.1 = r'.1 ∧ Matches s s' r.2 r'.2)
      (S.handle c t d) (S'.handle c t d) := by
  unfold Session.handle
  rw [h.left, h.right, hkeys]
  by_cases hlanguage : c.languages.contains d.language
  · simp only [hlanguage, if_true]
    cases c.check d.text d.path.text s'.ruleKeys with
    | ok found => exact ⟨⟨rfl, rfl, rfl, h.store.set d.path found⟩, rfl⟩
    | error e => exact ⟨⟨rfl, rfl, rfl, h.store.clear d.path⟩, rfl⟩
  · simp only [hlanguage]
    exact ⟨⟨rfl, h⟩, rfl⟩

end Session

namespace Analysis
variable {s s' : NamingSettings}

/-- Two analyses on their way have published the same violations and met the same failures in as
many files. -/
structure Progress.Matches (s s' : NamingSettings) (P P' : Progress) : Prop where
  session : Session.Matches s s' P.session P'.session
  failures : P.failures = P'.failures
  filesChecked : P.filesChecked = P'.filesChecked

namespace Progress.Matches
variable {P P' : Progress}

theorem addFile (h : P.Matches s s' P') (hkeys : s.ruleKeys = s'.ruleKeys) (c : Checker)
    (root : Path) (read : Path → Except ReadError String) (path : Path) :
    Logged.Alike (Progress.Matches s s') (Analysis.addFile c root read P path)
      (Analysis.addFile c root read P' path) := by
  have hcount := congrArg (· + 1) h.filesChecked
  unfold Analysis.addFile
  cases read path with
  | error e => exact ⟨⟨h.session, by rw [h.failures], hcount⟩, rfl⟩
  | ok text =>
    apply (h.session.handle hkeys c .startup (.ofText (relativePath root path) text)).map
    rintro ⟨outcome, S⟩ ⟨outcome', S'⟩ ⟨hvalue, hsession⟩
    obtain rfl : outcome = outcome' := hvalue
    cases outcome with
    | ignored => exact ⟨hsession, h.failures, hcount⟩
    | checked violations => exact ⟨hsession, h.failures, hcount⟩
    | failed e => exact ⟨hsession, by rw [h.failures], hcount⟩

theorem addFiles (h : P.Matches s s' P') (hkeys : s.ruleKeys = s'.ruleKeys) (c : Checker)
    (root : Path) (read : Path → Except ReadError String) (files : List Path) :
    Logged.Alike (Progress.Matches s s') (Analysis.addFiles c root read P files)
      (Analysis.addFiles c root read P' files) := by
  induction files generalizing P P' with
  | nil => exact ⟨h, rfl⟩
  | cons path files ih =>
    apply (h.addFile hkeys c root read path).bind
    intro Q Q' hstep
    exact ih hstep

end Progress.Matches

/-- Two findings differ in presentation only, and each is presented by its settings. -/
structure SameFindings (s s' : NamingSettings) (f f' : Findings) : Prop where
  alike : f.Alike f'
  left : f.PresentedBy s
  right : f'.PresentedBy s'

theorem SameFindings.of_matches {P P' : Progress} (h : P.Matches s s' P') :
    SameFindings s s' ⟨P.reports, P.failures, P.filesChecked⟩
      ⟨P'.reports, P'.failures, P'.filesChecked⟩ where
  alike := by
    refine ⟨h.filesChecked, h.failures, ?_⟩
    apply List.rel_map _ h.session.store
    intro e e' he
    exact he.alike
  left := List.forall_mem_map.2 (Session.SameStore.presentedBy h.session.store)
  right := List.forall_mem_map.2 (Session.SameStore.presentedBy h.session.store.symm)

section
variable {a : Analysis} {t : Settings}

theorem findingsOf_alike (hkeys : a.settings.naming.ruleKeys = t.naming.ruleKeys)
    (read : Path → Except ReadError String) (files : List Path) :
    Logged.Alike (SameFindings a.settings.naming t.naming) (a.findingsOf read files)
      ({ a with settings := t }.findingsOf read files) := by
  have hstart : a.start.Matches a.settings.naming t.naming { a with settings := t }.start :=
    ⟨⟨rfl, rfl, .nil⟩, rfl, rfl⟩
  apply (hstart.addFiles hkeys a.grammar.checker a.root read files).map
  intro P P' hend
  exact .of_matches hend

theorem analyzeVisited_alike (hkeys : a.settings.naming.ruleKeys = t.naming.ruleKeys)
    (read : Path → Except ReadError String) (visited : List Path) :
    Logged.Alike (SameFindings a.settings.naming t.naming) (a.analyzeVisited read visited)
      ({ a with settings := t }.analyzeVisited read visited) := by
  -- The files are chosen by the root and the patterns, so they are the same.
  have hfound := findingsOf_alike hkeys read (a.selected visited)
  refine ⟨hfound.value, ?_⟩
  unfold analyzeVisited
  dsimp only
  rw [hfound.events, hfound.value.alike.violationCount, hfound.value.alike.filesChecked]
  rfl

/-- Two runs end with the same error, or with findings that differ in presentation only. -/
def SameEnd (s s' : NamingSettings) :
    Except AnalysisError Findings → Except AnalysisError Findings → Prop
  | .error e, .error e' => e = e'
  | .ok f, .ok f' => SameFindings s s' f f'
  | _, _ => False

theorem run_alike (hscan : a.settings.scan = t.scan)
    (hkeys : a.settings.naming.ruleKeys = t.naming.ruleKeys) (disk : Disk) :
    Logged.Alike (SameEnd a.settings.naming t.naming) (a.run disk)
      ({ a with settings := t }.run disk) := by
  unfold run
  rw [hscan]
  dsimp only
  cases disk.walk t.scan.respectGitignore a.root with
  | error e => exact ⟨rfl, rfl⟩
  | ok visited =>
    have hfound := analyzeVisited_alike hkeys disk.read visited
    refine ⟨hfound.value, ?_⟩
    dsimp only
    rw [hfound.events]

end

/-- An analysis under another severity and in another language takes the same way. It reports the
same events, and it ends with the same error or with the same findings but for severities and
messages, and these are in each of the two what its settings say. -/
theorem run_presentation_only {g : Grammar} {current : Path} {root? : Option Path}
    {patterns : List String} {t : Settings} {a : Analysis}
    (hready : prepare (some g) current root? patterns t = .ok a) (severity : Severity)
    (locale : Locale) (disk : Disk) :
    let t' : Settings := { t with naming := { t.naming with severity, locale } }
    ∃ a', prepare (some g) current root? patterns t' = .ok a' ∧
      Logged.Alike (SameEnd t.naming t'.naming) (a.run disk) (a'.run disk) := by
  intro t'
  obtain ⟨-, rfl, -, -⟩ := prepare_eq_ok hready
  exact ⟨{ a with settings := t' }, prepare_of_scan hready rfl, run_alike (t := t') rfl rfl disk⟩

/-- A file with a violation, one that does not parse and one without text. -/
def presentedFiles : FileTree where
  nodes :=
    [(["w"], .directory),
      (["w", "b.ts"], .file "function Foo() \x7b\x7d".toUTF8),
      (["w", "a.tsx"], .file "(".toUTF8),
      (["w", "lib"], .directory),
      (["w", "lib", "z.ts"], .file ⟨#[255]⟩)]

def presentedVisited : List Path :=
  [⟨"/w/./b.ts"⟩, ⟨"/w/./a.tsx"⟩, ⟨"/w/./lib/z.ts"⟩]

def japaneseSettings : Settings :=
  { mixedSettings with naming := { mixedSettings.naming with severity := .error, locale := .ja } }

theorem presentedFiles_proper : presentedFiles.Proper where
  below_top := by decide +kernel
  names := by decide +kernel
  places := by decide +kernel

theorem run_presentation_only_japanese :
    prepare (some mixedGrammar) ⟨"/w"⟩ none ["dist"] mixedSettings = .ok mixedAnalysis ∧
      ∃ a' f f', prepare (some mixedGrammar) ⟨"/w"⟩ none ["dist"] japaneseSettings = .ok a' ∧
        (mixedAnalysis.run presentedFiles.disk).value = .ok f ∧
        (a'.run presentedFiles.disk).value = .ok f' ∧
        SameFindings mixedSettings.naming japaneseSettings.naming f f' ∧
        f.failures ≠ [] ∧ ∃ r ∈ f.reports, r.file = ⟨"b.ts"⟩ ∧ r.diagnostics ≠ [] := by
  obtain ⟨a', hready, halike⟩ :=
    run_presentation_only mixedAnalysis_ready .error .ja presentedFiles.disk
  have hwalk : presentedFiles.disk.walk true ⟨"/w/."⟩ = .ok presentedVisited := by decide +kernel
  have hrun : (mixedAnalysis.run presentedFiles.disk).value = _ := run_value hwalk
  have hfiles := fileByFile (a := mixedAnalysis)
    (FileTree.walk_visits presentedFiles_proper hwalk) presentedFiles.disk.read
  have hsame := halike.value
  rw [hrun] at hsame
  cases hrun' : (a'.run presentedFiles.disk).value with
  | error e => simp [hrun', SameEnd] at hsame
  | ok f' =>
    rw [hrun'] at hsame
    have hreport : ∃ found, found ≠ [] ∧
        mixedAnalysis.verdict presentedFiles.disk.read ⟨"/w/./b.ts"⟩ = .ok found :=
      ⟨(mixedAnalysis.verdict presentedFiles.disk.read ⟨"/w/./b.ts"⟩).toOption.getD [],
        by decide +kernel⟩
    obtain ⟨found, hne, hverdict⟩ := hreport
    have hfile : (⟨"b.ts"⟩ : Path) = relativePath mixedAnalysis.root ⟨"/w/./b.ts"⟩ := by
      decide +kernel
    have hfailure := (hfiles.mem_failures ⟨⟨"a.tsx"⟩, "a.tsx: parser produced no syntax tree"⟩).2
      ⟨⟨"/w/./a.tsx"⟩, by decide +kernel⟩
    exact ⟨mixedAnalysis_ready, a', _, f', hready, hrun, hrun', hsame, List.ne_nil_of_mem hfailure,
      ⟨⟨"b.ts"⟩, found⟩,
      (hfiles.mem_reports _).2 ⟨⟨"/w/./b.ts"⟩, by decide +kernel, hfile, hne, hverdict⟩, rfl, hne⟩

end Analysis
end NamingLint
