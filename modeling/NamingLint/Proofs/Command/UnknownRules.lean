import NamingLint.Proofs.Check.Categories
import NamingLint.Proofs.Command.ExitStatus
import NamingLint.Proofs.Events

/-!
# Keys that name no rule

A key that names no rule turns the check of its subject off, and no other key does: every rule
refuses some name. A check of files warns of such keys and of no others, and nothing else that it
reports can be taken for such a warning.
-/
namespace NamingLint

theorem Rule.not_admits_underscore (rule : Rule) : rule.admits "_" = false := by
  cases rule <;> decide

/-- An origin of names that stand for a subject. -/
def Subject.origin : Subject → Origin
  | constant => .const .primitive
  | function => .function

theorem Subject.subject?_origin (subject : Subject) : subject.origin.subject? = some subject := by
  cases subject <;> rfl

/-- A key names no rule just if all names of its subject pass. -/
theorem RuleKeys.ofKey?_eq_none_iff (keys : RuleKeys) (subject : Subject) :
    Rule.ofKey? (keys.keyFor subject) = none ↔
      ∀ b : Binding, b.subject? = some subject → b.check keys = none := by
  constructor
  · intro hunknown b hb
    simp [Binding.check, hb, followsRule_of_unknown hunknown]
  · intro hpass
    cases hrule : Rule.ofKey? (keys.keyFor subject) with
    | none => rfl
    | some rule =>
      -- Whatever the rule is, it refuses the name `_`.
      have hcheck := hpass ⟨"_", subject.origin, 0, 0, 0⟩ subject.subject?_origin
      simp [Binding.check, Binding.subject?, subject.subject?_origin, followsRule, hrule,
        rule.not_admits_underscore] at hcheck

theorem NamingSettings.mem_unknownRuleKeys {s : NamingSettings} {key : String} :
    key ∈ s.unknownRuleKeys ↔
      ∃ subject, s.ruleKeys.keyFor subject = key ∧ Rule.ofKey? key = none := by
  have hkeys : (∃ subject, s.ruleKeys.keyFor subject = key) ↔
      s.constantCase = key ∨ s.functionCase = key := by
    constructor
    · rintro ⟨subject, h⟩
      cases subject with
      | constant => exact .inl h
      | function => exact .inr h
    · rintro (h | h)
      · exact ⟨.constant, h⟩
      · exact ⟨.function, h⟩
  rw [exists_and_right, hkeys, unknownRuleKeys, List.mem_filter, Option.isNone_iff_eq_none]
  simp only [List.mem_cons, List.not_mem_nil, or_false, eq_comm (a := key)]

/-- The key for a subject is among the unknown ones just if all names of the subject pass. -/
theorem NamingSettings.keyFor_mem_unknownRuleKeys (s : NamingSettings) (subject : Subject) :
    s.ruleKeys.keyFor subject ∈ s.unknownRuleKeys ↔
      ∀ b : Binding, b.subject? = some subject → b.check s.ruleKeys = none := by
  rw [← s.ruleKeys.ofKey?_eq_none_iff, mem_unknownRuleKeys]
  exact ⟨fun ⟨_, _, h⟩ => h, fun h => ⟨subject, rfl, h⟩⟩

/-- An event that is no warning about a rule. -/
def Event.Unrelated (e : Event) : Prop :=
  e.level = .warn → ¬"Unknown naming rule ".toList <+: e.message.toList

namespace Event.Unrelated

theorem debug (message : String) : (Event.debug message).Unrelated := by
  simp [Unrelated, Event.debug]

theorem info (message : String) : (Event.info message).Unrelated := by
  simp [Unrelated, Event.info]

theorem warn (start : String) {message : String} (h : start.toList <+: message.toList)
    (hother : ¬"Unknown naming rule ".toList <+: start.toList ∧
      ¬start.toList <+: "Unknown naming rule ".toList) : (Event.warn message).Unrelated := by
  intro _ hrule
  rcases List.prefix_or_prefix_of_prefix hrule h with hinit | hinit
  · exact hother.1 hinit
  · exact hother.2 hinit

end Event.Unrelated

open Event

theorem Severity.read_unrelated (word : String) : (read word).Reports Unrelated := by
  unfold read
  cases ofWord? word with
  | some severity => exact Logged.Reports.pure severity
  | none =>
    simp only [Logged.Reports, List.mem_singleton, forall_eq]
    exact .warn "Unknown severity " (by simp [toString]) (by decide)

theorem Grammar.checkEvents_unrelated (g : Grammar) (text file : String) (keys : RuleKeys) :
    ∀ e ∈ g.checkEvents text file keys, e.Unrelated := by
  intro e he
  unfold checkEvents at he
  split at he
  · rcases List.mem_append.1 he with he | he
    · obtain ⟨l, -, rfl⟩ := List.mem_map.1 he
      exact .debug _
    · rw [List.mem_singleton.1 he]
      exact .debug _
  · simp at he

theorem Session.handle_unrelated (g : Grammar) (s : Session) (t : Trigger) (d : Document) :
    (s.handle g.checker t d).Reports Unrelated := by
  have hcheck := g.checkEvents_unrelated d.text d.path.text s.settings.ruleKeys
  unfold handle Logged.Reports
  dsimp only
  split
  · split
    · exact List.forall_mem_cons.2 ⟨.debug _, hcheck⟩
    · rename_i cause _
      have hwarning : (Event.warn s!"Failed to parse {d.path.text}: {cause.message}").Unrelated :=
        .warn "Failed to parse " (by simp [toString]) (by decide)
      exact List.forall_mem_append.2
        ⟨List.forall_mem_cons.2 ⟨.debug _, hcheck⟩, List.forall_mem_singleton.2 hwarning⟩
  · exact List.forall_mem_singleton.2 (.debug _)

namespace Analysis

theorem addFile_unrelated (g : Grammar) (root : Path) (read : Path → Except ReadError String)
    (p : Progress) (path : Path) : (addFile g.checker root read p path).Reports Unrelated := by
  unfold addFile
  cases read path with
  | error cause =>
    have hwarning :
        (Event.warn s!"Skipping unreadable {path.text}: {cause.message}").Unrelated :=
      .warn "Skipping unreadable " (by simp [toString]) (by decide)
    exact List.forall_mem_singleton.2 hwarning
  | ok text =>
    exact (p.session.handle_unrelated g .startup (.ofText (relativePath root path) text)).map _

theorem addFiles_unrelated (g : Grammar) (root : Path) (read : Path → Except ReadError String)
    (p : Progress) (files : List Path) :
    (addFiles g.checker root read p files).Reports Unrelated := by
  induction files generalizing p with
  | nil => exact Logged.Reports.pure p
  | cons path files ih => exact (addFile_unrelated g root read p path).bind (ih _)

theorem run_unrelated (a : Analysis) (disk : Disk) : (a.run disk).Reports Unrelated := by
  unfold run Logged.Reports
  dsimp only
  split
  · exact List.forall_mem_singleton.2 (.info _)
  · rename_i visited hwalk
    refine List.forall_mem_cons.2 ⟨.info _, List.forall_mem_append.2 ⟨?_, ?_⟩⟩
    · refine List.forall_mem_append.2 ⟨?_, ?_⟩
      · intro e he
        obtain ⟨p, -, rfl⟩ := List.mem_map.1 he
        exact .debug _
      · exact List.forall_mem_cons.2 ⟨.info _, addFiles_unrelated a.grammar a.root _ _ _⟩
    · exact List.forall_mem_singleton.2 (.info _)

end Analysis

theorem Settings.load_unrelated (files : FileTree) (current : Place) (path : Path) :
    (load files current path).Reports Unrelated := by
  unfold load
  split
  · unfold parse
    split
    · exact .pure _
    · exact ofData_reports Severity.read_unrelated .toml _
  · exact .pure _

theorem Report.render_unrelated (format : Format) (root : Path) (rootIsFile : Bool)
    (read : Path → Except ReadError String) (f : Findings) :
    (format.render root rootIsFile read f).Reports Unrelated := by
  cases format with
  | boxed =>
    refine Logged.Reports.bind (Logged.Reports.mapM fun r _ => ?_) (.pure _)
    unfold boxedFile
    split
    · exact .pure _
    · rename_i cause _
      let path := reportPath root rootIsFile r
      have hwarning :
          (Event.warn s!"Cannot re-read {path.text} for display: {cause.message}").Unrelated :=
        .warn "Cannot re-read " (by simp [toString]) (by decide)
      exact List.forall_mem_singleton.2 hwarning
  | _ => exact .pure _

namespace Command
variable {e : Environment} {config? path? : Option Path} {o : Overrides} {s : Settings}

theorem findSettings_unrelated (e : Environment) (directory : Path) (given? : Option Path) :
    (e.findSettings directory given?).Reports Unrelated := by
  unfold Environment.findSettings
  split
  · exact .pure _
  · split
    · exact List.forall_mem_singleton.2 (.debug _)
    · split
      · exact .pure _
      · exact .pure _

theorem loadSettings_unrelated (e : Environment) (source : SettingsSource) :
    (e.loadSettings source).Reports Unrelated := by
  cases source with
  | standard => exact List.forall_mem_singleton.2 (.debug _)
  | global path =>
    exact Logged.Reports.bind (List.forall_mem_singleton.2 (.info _))
      (Settings.load_unrelated e.files e.current path)
  | given path => exact Settings.load_unrelated e.files e.current path
  | project path => exact Settings.load_unrelated e.files e.current path

theorem effectiveSettings_unrelated (e : Environment) (config? path? : Option Path)
    (o : Overrides) : (e.effectiveSettings config? path? o).Reports Unrelated := by
  refine (findSettings_unrelated e _ config?).bind ((loadSettings_unrelated e _).bind ?_)
  split
  · exact .pure _
  · exact .pure _

theorem analyze_unrelated (e : Environment) (path? : Option Path) (patterns : List String)
    (s : Settings) : (e.analyze path? patterns s).Reports Unrelated := by
  unfold Environment.analyze
  split
  · exact .pure _
  · rename_i a _
    refine Logged.Reports.bind (List.forall_mem_singleton.2 (.info _))
      ((a.run_unrelated e.disk).bind ?_)
    split
    · exact .pure _
    · exact .pure _

theorem skippedEvents_unrelated (f : Findings) : ∀ event ∈ skippedEvents f, event.Unrelated := by
  intro event h
  obtain ⟨failure, -, rfl⟩ := List.mem_map.1 h
  exact .warn "Skipped " (by simp [toString]) (by decide)

/-- The warnings about rules stand together among the events of a check. -/
theorem check_events (hsettings : (e.effectiveSettings config? path? o).value = .ok s)
    (format : Report.Format) (patterns : List String) :
    ∃ before after, (e.check config? path? format patterns o).events =
        before ++ (unknownRuleEvents s.naming ++ after) ∧
      ∀ event ∈ before ++ after, event.Unrelated := by
  have hevents : (e.check config? path? format patterns o).events =
      (e.checkFiles config? path? format patterns o).events := by
    unfold Environment.check
    dsimp only
    split <;> rfl
  rw [hevents, Environment.checkFiles, Logged.events_bind, hsettings]
  refine ⟨_, _, rfl, List.forall_mem_append.2 ⟨effectiveSettings_unrelated e config? path? o, ?_⟩⟩
  refine (analyze_unrelated e path? patterns s).bind ?_
  split
  · exact .pure _
  · refine Logged.Reports.bind (skippedEvents_unrelated _) ?_
    exact (Report.render_unrelated format _ _ _ _).bind (.pure _)

def unknownRuleWarning (key : String) : Event :=
  .warn s!"Unknown naming rule `{key}`; names of that kind will not be checked"

theorem unknownRuleWarning_inj {key key' : String} :
    unknownRuleWarning key = unknownRuleWarning key' ↔ key = key' := by
  simp [unknownRuleWarning, Event.warn, toString, String.append_left_inj, String.append_right_inj]

theorem unknownRuleWarning_related (key : String) : ¬(unknownRuleWarning key).Unrelated := by
  intro h
  exact h rfl (by simp [unknownRuleWarning, Event.warn, toString])

theorem warning_mem_events_iff (hsettings : (e.effectiveSettings config? path? o).value = .ok s)
    (format : Report.Format) (patterns : List String) (key : String) :
    unknownRuleWarning key ∈ (e.check config? path? format patterns o).events ↔
      key ∈ s.naming.unknownRuleKeys := by
  obtain ⟨before, after, hevents, hunrelated⟩ := check_events hsettings format patterns
  have hwarnings : unknownRuleEvents s.naming = s.naming.unknownRuleKeys.map unknownRuleWarning :=
    rfl
  rw [hevents]
  constructor
  · intro h
    rcases List.mem_append.1 h with h | h
    · exact absurd (hunrelated _ (List.mem_append_left after h)) (unknownRuleWarning_related key)
    rcases List.mem_append.1 h with h | h
    · rw [hwarnings] at h
      obtain ⟨key', hkey', heq⟩ := List.mem_map.1 h
      rwa [← unknownRuleWarning_inj.1 heq]
    · exact absurd (hunrelated _ (List.mem_append_right before h)) (unknownRuleWarning_related key)
  · intro h
    rw [hwarnings]
    exact List.mem_append_right _ (List.mem_append_left _ (List.mem_map_of_mem h))

/-- Warnings are always shown. -/
theorem warning_mem_shownEvents_iff (verbose : Bool) (key : String) (events : List Event) :
    unknownRuleWarning key ∈ Response.shownEvents verbose events ↔
      unknownRuleWarning key ∈ events := by
  cases verbose with
  | true => rfl
  | false => simp [Response.shownEvents, unknownRuleWarning, Event.warn]

/-- The key for constants is unknown just if no constant, whatever its name and place, is a
violation, and so is the key for functions. A check of files warns of a key just if it is the key
for constants or functions and these are not judged, whether or not both have the same key. -/
theorem unknown_rules_warned_of (s : NamingSettings) :
    (s.constantCase ∈ s.unknownRuleKeys ↔
        ∀ b : Binding, b.subject? = some .constant → b.check s.ruleKeys = none) ∧
      (s.functionCase ∈ s.unknownRuleKeys ↔
        ∀ b : Binding, b.subject? = some .function → b.check s.ruleKeys = none) ∧
      ∀ (e : Environment) (config? path? : Option Path) (format : Report.Format)
        (patterns : List String) (o : Overrides) (settings : Settings) (verbose : Bool),
        (e.effectiveSettings config? path? o).value = .ok settings → settings.naming = s →
        ∀ key : String,
          Event.warn s!"Unknown naming rule `{key}`; names of that kind will not be checked" ∈
              Response.shownEvents verbose (e.check config? path? format patterns o).events ↔
            ∃ subject, s.ruleKeys.keyFor subject = key ∧
              ∀ b : Binding, b.subject? = some subject → b.check s.ruleKeys = none := by
  refine ⟨s.keyFor_mem_unknownRuleKeys .constant, s.keyFor_mem_unknownRuleKeys .function, ?_⟩
  rintro e config? path? format patterns o settings verbose hsettings rfl key
  change unknownRuleWarning key ∈ _ ↔ _
  rw [warning_mem_shownEvents_iff, warning_mem_events_iff hsettings]
  constructor
  · intro h
    obtain ⟨subject, rfl, -⟩ := NamingSettings.mem_unknownRuleKeys.1 h
    exact ⟨subject, rfl, (settings.naming.keyFor_mem_unknownRuleKeys subject).1 h⟩
  · rintro ⟨subject, rfl, h⟩
    exact (settings.naming.keyFor_mem_unknownRuleKeys subject).2 h

def laxOverrides : Overrides := { constantCase := some "kebab-case" }

theorem unknown_rules_warned_of_lax :
    (strictEnvironment.effectiveSettings none none laxOverrides).value =
        .ok { naming := laxOverrides.apply {} } ∧
      Event.warn "Unknown naming rule `kebab-case`; names of that kind will not be checked" ∈
        Response.shownEvents false
          (strictEnvironment.check none none .compact [] laxOverrides).events ∧
      Event.warn "Unknown naming rule `camelCase`; names of that kind will not be checked" ∉
        Response.shownEvents false
          (strictEnvironment.check none none .compact [] laxOverrides).events := by
  have hsettings : (strictEnvironment.effectiveSettings none none laxOverrides).value =
      .ok { naming := laxOverrides.apply {} } := by decide +kernel
  obtain ⟨hconstant, -, hrun⟩ := unknown_rules_warned_of (laxOverrides.apply {})
  have hwarned := hrun strictEnvironment none none .compact [] laxOverrides _ false hsettings rfl
  refine ⟨hsettings, (hwarned "kebab-case").2 ⟨.constant, rfl, hconstant.1 (by decide)⟩, ?_⟩
  intro h
  obtain ⟨subject, hkey, hpass⟩ := (hwarned "camelCase").1 h
  cases subject with
  | constant => exact absurd hkey (by decide)
  | function => exact absurd (hpass ⟨"Foo", .function, 0, 9, 9⟩ rfl) (by decide)

end Command
end NamingLint
