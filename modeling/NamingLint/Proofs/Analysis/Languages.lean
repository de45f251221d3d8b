import NamingLint.Proofs.Analysis.PerFile

/-!
# No file of an analysis is ignored

Three things are told from the extension of a path: whether a file is analysed, in which language
its document is, and in which dialect it is parsed. The document goes by the path below the root,
which has the same file name, so all three agree. A session therefore ignores none of the files that
were selected: each of them is checked, or recorded as a failure.
-/
namespace NamingLint

namespace Dialect
variable {p q : Path}

theorem ofFileName_text (p : Path) : ofFileName p.text =
    match p.extension? with
    | some ext => if ext.toList.map Char.toLower = "tsx".toList then tsx else typescript
    | none => typescript :=
  rfl

theorem ofFileName_congr (h : p.extension? = q.extension?) :
    ofFileName p.text = ofFileName q.text := by
  rw [ofFileName_text, ofFileName_text, h]

/-- In the languages that extensions stand for, the dialect is that of the language. -/
theorem ofFileName_eq_tsx_iff {id : String} (h : Language.ofPath? p = some id) :
    ofFileName p.text = tsx ↔ id = Language.typescriptReact := by
  unfold Language.ofPath? at h
  split at h
  case h_5 => simp at h
  all_goals
    rename_i hext
    obtain rfl := Option.some.inj h
    rw [ofFileName_text, hext]
    decide

end Dialect

theorem Session.handle_eq_ignored_iff {c : Checker} {s : Session} {t : Trigger} {d : Document} :
    (s.handle c t d).value.1 = .ignored ↔ d.language ∉ c.languages := by
  rw [handle_eq, outcome]
  by_cases h : d.language ∈ c.languages
  · cases c.check d.text d.path.text s.settings.ruleKeys <;> simp [h]
  · simp [h]

namespace Analysis

theorem relativePath_extension? (root p : Path) :
    (relativePath root p).extension? = p.extension? := by
  rw [Path.extension?, Path.extension?, relativePath_fileName?]

/-- The document of a source file is in the language of the file, which is one that is checked. -/
theorem exists_language {p : Path} (h : isSource p = true) (root : Path) :
    ∃ id ∈ Language.supported, Language.ofPath? p = some id ∧
      ∀ text, (Document.ofText (relativePath root p) text).language = id := by
  obtain ⟨id, hid, hsupported⟩ := (Option.any_eq_true ..).1 h
  refine ⟨id, by simpa using hsupported, hid, fun text => ?_⟩
  rw [Document.ofText, relativePath_language, hid, Option.getD_some]

/-- What becomes of an analysis by a file: it cannot be read, or a session checks its document and
publishes what is found, or the document does not parse. A file is recorded as a failure in the
first case and the last, and it is counted in all of them. -/
inductive Takes (a : Analysis) (read : Path → Except ReadError String) (p : Path) (s : Progress) :
    Progress → Prop
  | unreadable {e : ReadError} (hread : read p = .error e) :
      Takes a read p s ⟨s.session, s.failures ++
        [⟨relativePath a.root p, s!"Failed to read {p.text}: {e.message}"⟩], s.filesChecked + 1⟩
  | checked {text : String} {found : List Violation} {session : Session} (hread : read p = .ok text)
      (hcheck : a.grammar.check text (relativePath a.root p).text
        a.settings.naming.ruleKeys = .ok found)
      (hhandle : (s.session.handle a.grammar.checker .startup
        (.ofText (relativePath a.root p) text)).value = (.checked found.length, session))
      (hpublished : session.store.get (relativePath a.root p) =
        Session.publish a.settings.naming found) :
      Takes a read p s ⟨session, s.failures, s.filesChecked + 1⟩
  | failed {text : String} {e : ParseError} {session : Session} (hread : read p = .ok text)
      (hcheck : a.grammar.check text (relativePath a.root p).text
        a.settings.naming.ruleKeys = .error e)
      (hhandle : (s.session.handle a.grammar.checker .startup
        (.ofText (relativePath a.root p) text)).value = (.failed e, session)) :
      Takes a read p s
        ⟨session, s.failures ++ [⟨relativePath a.root p, e.message⟩], s.filesChecked + 1⟩

def progress (a : Analysis) (read : Path → Except ReadError String) (files : List Path) :
    Progress :=
  (addFiles a.grammar.checker a.root read a.start files).value

section
variable {a : Analysis} {read : Path → Except ReadError String} {p : Path} {s s' : Progress}
  {files : List Path}

theorem addFile_takes (hsource : isSource p = true)
    (hsettings : s.session.settings = a.settings.naming) :
    Takes a read p s (addFile a.grammar.checker a.root read s p).value := by
  rw [addFile_value hsource, hsettings]
  cases hread : read p with
  | error e => exact .unreadable hread
  | ok text =>
    have hlanguage := language_of_isSource hsource a.root
    have hhandle := Session.handle_value a.grammar.checker s.session .startup
      (.ofText (relativePath a.root p) text)
    rw [if_pos (by exact hlanguage), hsettings] at hhandle
    dsimp only [Document.ofText, Grammar.checker] at hhandle ⊢
    cases hcheck :
        a.grammar.check text (relativePath a.root p).text a.settings.naming.ruleKeys with
    | error e =>
      rw [hcheck] at hhandle
      exact .failed hread hcheck hhandle
    | ok found =>
      rw [hcheck] at hhandle
      refine .checked hread hcheck hhandle ?_
      exact (DiagnosticStore.get_set ..).trans (if_pos rfl)

theorem Takes.settings (h : Takes a read p s s') :
    s'.session.settings = s.session.settings := by
  have hkeeps {d : Document} {outcome : Outcome} {session : Session}
      (hhandle : (s.session.handle a.grammar.checker .startup d).value = (outcome, session)) :
      session.settings = s.session.settings := by
    have hsame := Session.handle_settings (c := a.grammar.checker) (s := s.session) (t := .startup)
      (d := d)
    rwa [hhandle] at hsame
  cases h with
  | unreadable => rfl
  | checked hread hcheck hhandle => exact hkeeps hhandle
  | failed hread hcheck hhandle => exact hkeeps hhandle

/-- Just those files are recorded that cannot be read or checked. -/
theorem Takes.failures (h : Takes a read p s s') :
    s'.failures = s.failures ++ (a.failure? read p).toList := by
  cases h with
  | unreadable hread => simp [failure?, verdict, hread]
  | checked hread hcheck => simp [failure?, verdict, hread, hcheck]
  | failed hread hcheck => simp [failure?, verdict, hread, hcheck]

theorem addFiles_append (c : Checker) (root : Path) (s : Progress) (files more : List Path) :
    (addFiles c root read s (files ++ more)).value =
      (addFiles c root read (addFiles c root read s files).value more).value := by
  induction files generalizing s with
  | nil => rfl
  | cons p files ih => exact ih (addFile c root read s p).value

theorem progress_concat : a.progress read (files ++ [p]) =
    (addFile a.grammar.checker a.root read (a.progress read files) p).value :=
  addFiles_append ..

theorem progress_filesChecked (a : Analysis) (read : Path → Except ReadError String)
    (files : List Path) : (a.progress read files).filesChecked = files.length :=
  (addFiles_filesChecked ..).trans (Nat.zero_add _)

theorem progress_settings (hsource : ∀ q ∈ files, isSource q = true) :
    (a.progress read files).session.settings = a.settings.naming := by
  induction files using List.reverseRecOn with
  | nil => rfl
  | append_singleton files p ih =>
    obtain ⟨hfiles, hp⟩ := List.forall_mem_append.1 hsource
    have hbefore := ih hfiles
    rw [progress_concat, (addFile_takes (hp p List.mem_cons_self) hbefore).settings, hbefore]

theorem progress_takes (hsource : ∀ q ∈ files ++ [p], isSource q = true) :
    Takes a read p (a.progress read files) (a.progress read (files ++ [p])) := by
  obtain ⟨hfiles, hp⟩ := List.forall_mem_append.1 hsource
  rw [progress_concat]
  exact addFile_takes (hp p List.mem_cons_self) (progress_settings hfiles)

theorem progress_failures (hsource : ∀ q ∈ files, isSource q = true) :
    (a.progress read files).failures = files.filterMap (a.failure? read) := by
  induction files using List.reverseRecOn with
  | nil => rfl
  | append_singleton files p ih =>
    have hbefore := ih (List.forall_mem_append.1 hsource).1
    rw [(progress_takes hsource).failures, hbefore, List.filterMap_append]
    cases hfailure : a.failure? read p <;> simp [hfailure]

theorem checked_or_recorded (hsource : ∀ q ∈ files, isSource q = true) (hp : p ∈ files) :
    (∃ text found, read p = .ok text ∧ a.grammar.check text (relativePath a.root p).text
        a.settings.naming.ruleKeys = .ok found) ∨
      ∃ x ∈ (a.progress read files).failures, x.file = relativePath a.root p ∧
        a.verdict read p = .error x.message := by
  cases hverdict : a.verdict read p with
  | ok found =>
    obtain ⟨text, found, hread, hcheck, -⟩ := verdict_eq_ok_iff.1 hverdict
    exact .inl ⟨text, found, hread, hcheck⟩
  | error message =>
    refine .inr ⟨⟨relativePath a.root p, message⟩, ?_, rfl, rfl⟩
    rw [progress_failures hsource]
    exact List.mem_filterMap.2 ⟨p, hp, failure?_eq_some_iff.2 ⟨rfl, hverdict⟩⟩

end

/-- Where the extension of a path stands for a language, it stands for the dialect of that language.
A file that is selected has the same language and dialect by its path below the root, whatever the
root is, and no session ignores its document. So in the course of an analysis every selected file is
taken: it is checked and published, or it is among the failures in the end. -/
theorem selected_never_ignored :
    (∀ (p : Path) (id : String), Language.ofPath? p = some id →
      (Dialect.ofFileName p.text = .tsx ↔ id = Language.typescriptReact)) ∧
    ∀ (a : Analysis) (visited : List Path),
      (∀ p ∈ a.selected visited, ∃ id ∈ Language.supported, Language.ofPath? p = some id ∧
        Dialect.ofFileName (relativePath a.root p).text = Dialect.ofFileName p.text ∧
        ∀ text, (Document.ofText (relativePath a.root p) text).language = id ∧
          ∀ (s : Session) (t : Trigger),
            (s.handle a.grammar.checker t
              (.ofText (relativePath a.root p) text)).value.1 ≠ .ignored) ∧
      (∀ disk : Disk, disk.walk a.settings.scan.respectGitignore a.root = .ok visited →
        (a.run disk).value = .ok (a.analyzeVisited disk.read visited).value) ∧
      ∀ read : Path → Except ReadError String,
        (∀ done p rest, a.selected visited = done ++ p :: rest →
          Takes a read p (a.progress read done) (a.progress read (done ++ [p]))) ∧
        (a.analyzeVisited read visited).value =
          { reports := (a.progress read (a.selected visited)).reports
            failures := (a.progress read (a.selected visited)).failures
            filesChecked := (a.selected visited).length } ∧
        ∀ p ∈ a.selected visited,
          (∃ text found, read p = .ok text ∧ a.grammar.check text (relativePath a.root p).text
            a.settings.naming.ruleKeys = .ok found) ∨
          ∃ x ∈ (a.analyzeVisited read visited).value.failures,
            x.file = relativePath a.root p ∧ a.verdict read p = .error x.message := by
  refine ⟨fun p id => Dialect.ofFileName_eq_tsx_iff, fun a visited => ?_⟩
  have hsource : ∀ p ∈ a.selected visited, isSource p = true := fun p => isSource_of_mem_selected
  refine ⟨fun p hp => ?_, fun disk => run_value,
    fun read => ⟨fun done p rest hsplit => ?_, ?_, fun p hp => ?_⟩⟩
  · obtain ⟨id, hid, hlanguage, hdocument⟩ := exists_language (hsource p hp) a.root
    have hdialect := Dialect.ofFileName_congr (relativePath_extension? a.root p)
    refine ⟨id, hid, hlanguage, hdialect, fun text => ⟨hdocument text, fun s t => ?_⟩⟩
    rw [Ne, Session.handle_eq_ignored_iff, not_not, hdocument]
    exact hid
  · apply progress_takes
    intro q hq
    apply hsource
    rw [hsplit, List.append_cons]
    exact List.mem_append_left rest hq
  · rw [← progress_filesChecked a read]
    rfl
  · exact checked_or_recorded hsource hp

theorem mixedAnalysis_selected : mixedAnalysis.selected mixedVisited =
    [⟨"/w/a.tsx"⟩, ⟨"/w/b.ts"⟩, ⟨"/w/lib/z.ts"⟩, ⟨"/w/lib.ts"⟩] :=
  selected_eq mixedVisited_visits (by decide +kernel) (by decide +kernel)

/-- Of four files below a directory the first does not parse and the third cannot be read. -/
theorem selected_never_ignored_mixed :
    mixedAnalysis.selected mixedVisited =
        [⟨"/w/a.tsx"⟩, ⟨"/w/b.ts"⟩, ⟨"/w/lib/z.ts"⟩, ⟨"/w/lib.ts"⟩] ∧
      Dialect.ofFileName (relativePath mixedAnalysis.root ⟨"/w/a.tsx"⟩).text = .tsx ∧
      Takes mixedAnalysis mixedRead ⟨"/w/lib/z.ts"⟩
        (mixedAnalysis.progress mixedRead [⟨"/w/a.tsx"⟩, ⟨"/w/b.ts"⟩])
        (mixedAnalysis.progress mixedRead [⟨"/w/a.tsx"⟩, ⟨"/w/b.ts"⟩, ⟨"/w/lib/z.ts"⟩]) ∧
      (mixedAnalysis.analyzeVisited mixedRead mixedVisited).value.filesChecked = 4 ∧
      (∃ x ∈ (mixedAnalysis.analyzeVisited mixedRead mixedVisited).value.failures,
        x.file = relativePath mixedAnalysis.root ⟨"/w/a.tsx"⟩) ∧
      (∃ x ∈ (mixedAnalysis.analyzeVisited mixedRead mixedVisited).value.failures,
        x.file = relativePath mixedAnalysis.root ⟨"/w/lib/z.ts"⟩) ∧
      ∃ text found, mixedRead ⟨"/w/b.ts"⟩ = .ok text ∧
        mixedGrammar.check text (relativePath mixedAnalysis.root ⟨"/w/b.ts"⟩).text
          mixedSettings.naming.ruleKeys = .ok found := by
  obtain ⟨hdialect, hfiles⟩ := selected_never_ignored
  obtain ⟨hpaths, -, hruns⟩ := hfiles mixedAnalysis mixedVisited
  obtain ⟨htakes, hfindings, hall⟩ := hruns mixedRead
  rw [mixedAnalysis_selected] at hpaths htakes hall
  have hcount := congrArg Findings.filesChecked hfindings
  rw [mixedAnalysis_selected] at hcount
  have hreact : Language.ofPath? ⟨"/w/a.tsx"⟩ = some Language.typescriptReact := by decide +kernel
  obtain ⟨-, -, -, hsame, -⟩ := hpaths ⟨"/w/a.tsx"⟩ (by simp)
  have hunparsed : mixedGrammar.check "(" (relativePath mixedAnalysis.root ⟨"/w/a.tsx"⟩).text
      mixedSettings.naming.ruleKeys = .error (.unparsable "a.tsx") := by decide +kernel
  have hunread : mixedRead ⟨"/w/lib/z.ts"⟩ = .error (.other "Permission denied (os error 13)") :=
    rfl
  have hverdict : (mixedAnalysis.verdict mixedRead ⟨"/w/b.ts"⟩).isOk = true := by decide +kernel
  refine ⟨mixedAnalysis_selected, hsame.trans ((hdialect _ _ hreact).2 rfl),
    htakes [⟨"/w/a.tsx"⟩, ⟨"/w/b.ts"⟩] _ _ rfl, hcount, ?_, ?_, ?_⟩
  · rcases hall ⟨"/w/a.tsx"⟩ (by simp) with ⟨text, found, hread, hcheck⟩ | ⟨x, hx, hfile, -⟩
    · obtain rfl : "(" = text := Except.ok.inj hread
      exact absurd (hunparsed.symm.trans hcheck) (by simp)
    · exact ⟨x, hx, hfile⟩
  · rcases hall ⟨"/w/lib/z.ts"⟩ (by simp) with ⟨text, found, hread, -⟩ | ⟨x, hx, hfile, -⟩
    · exact absurd (hunread.symm.trans hread) (by simp)
    · exact ⟨x, hx, hfile⟩
  · rcases hall ⟨"/w/b.ts"⟩ (by simp) with hchecked | ⟨x, -, -, herror⟩
    · exact hchecked
    · simp [herror, Except.isOk, Except.toBool] at hverdict

end Analysis
end NamingLint
