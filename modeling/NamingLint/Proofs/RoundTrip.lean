import NamingLint.Decoding
import NamingLint.Encoding

/-!
# Reading back what was written

Settings and findings are written as records with all their fields. Every field is read back by the
reader of its own kind, so a value comes back as it was, whatever the format. No word has to be
guessed: what is written for a severity is a word that names it. Numbers have to be of 64 bits.
-/
namespace NamingLint

namespace Data
variable {α : Type}

/-- The reading of a value ends with `x` and reports nothing. -/
def Decoding.Gives (read : Decoding α) (x : α) : Prop :=
  read.result = some x ∧ read.events = []

theorem Decoding.gives_of_eq_pure {read : Decoding α} {x : α} (h : read = pure x) :
    read.Gives x := by
  rw [h]
  exact ⟨rfl, rfl⟩

theorem asNat_ofNat {n : Nat} (h : n < UInt64.size) : (ofNat n).asNat = pure n := by
  simp [asNat, ofNat, h]

theorem asWord_text {f : Format} {ofWord? : String → Option α} {word : String} {x : α}
    (h : ofWord? word = some x) : (text word).asWord f ofWord? = pure x := by
  rw [asWord, h]
  rfl

theorem asList_map {read : Data → Decoding α} {write : α → Data} {xs : List α}
    (h : ∀ x ∈ xs, read (write x) = pure x) : (list (xs.map write)).asList read = pure xs := by
  rw [asList]
  induction xs with
  | nil => rfl
  | cons x xs ih =>
    obtain ⟨hx, hxs⟩ := List.forall_mem_cons.1 h
    simp only [List.map_cons, List.mapM_cons, hx, ih hxs, pure_bind]

theorem field_record {entries : List (String × Data)} {name : String} {d : Data}
    {read : Data → Decoding α} {x : α} (place : Nat) (h : entries.lookup name = some d)
    (hread : read d = pure x) : (record entries).field place name read = pure x := by
  rw [field, h, Option.elim_some, hread]

end Data

open Data

/-! Words -/

theorem Severity.ofWord?_word (s : Severity) : ofWord? s.word = some s := by
  cases s <;> rfl

theorem Severity.ofData_toData (s : Severity) : ofData s.toData = pure s := by
  have hread : read s.word = pure s := by rw [read, ofWord?_word]
  change OptionT.lift (read s.word) = pure s
  rw [hread]
  rfl

theorem Subject.ofData_toData (f : Format) (s : Subject) : ofData f s.toData = pure s := by
  apply asWord_text
  cases s <;> rfl

theorem Locale.ofData_toData (f : Format) (l : Locale) : ofData f l.toData = pure l := by
  apply asWord_text
  cases l <;> rfl

theorem Path.ofData_toData (p : Path) : ofData p.toData = pure p := rfl

/-! Findings -/

structure Position.Fits (p : Position) : Prop where
  line : p.line < UInt64.size
  character : p.character < UInt64.size

structure Range.Fits (r : Range) : Prop where
  start : r.start.Fits
  stop : r.stop.Fits

structure Violation.Fits (v : Violation) : Prop where
  line : v.line < UInt64.size
  character : v.character < UInt64.size
  endCharacter : v.endCharacter < UInt64.size
  offset : v.offset < UInt64.size

structure Diagnostic.Fits (d : Diagnostic) : Prop where
  range : d.range.Fits
  violation : d.violation.Fits

/-- All numbers of the findings have 64 bits. -/
structure Findings.Fits (x : Findings) : Prop where
  diagnostics : ∀ r ∈ x.reports, ∀ d ∈ r.diagnostics, d.Fits
  filesChecked : x.filesChecked < UInt64.size

section
variable (f : Format)

theorem Position.ofData_toData {p : Position} (h : p.Fits) : ofData f p.toData = pure p := by
  unfold ofData toData
  rw [field_record 0 rfl (asNat_ofNat h.line), field_record 1 rfl (asNat_ofNat h.character)]
  rfl

theorem Range.ofData_toData {r : Range} (h : r.Fits) : ofData f r.toData = pure r := by
  unfold ofData toData
  rw [field_record 0 rfl (Position.ofData_toData f h.start),
    field_record 1 rfl (Position.ofData_toData f h.stop)]
  rfl

theorem Violation.ofData_toData {v : Violation} (h : v.Fits) : ofData f v.toData = pure v := by
  unfold ofData toData
  rw [field_record 1 rfl (asNat_ofNat h.line), field_record 2 rfl (asNat_ofNat h.character),
    field_record 3 rfl (asNat_ofNat h.endCharacter),
    field_record 4 rfl (Subject.ofData_toData f v.subject),
    field_record 6 rfl (asNat_ofNat h.offset)]
  rfl

theorem Diagnostic.ofData_toData {d : Diagnostic} (h : d.Fits) : ofData f d.toData = pure d := by
  unfold ofData toData
  rw [field_record 0 rfl (Range.ofData_toData f h.range),
    field_record 2 rfl (Severity.ofData_toData d.severity),
    field_record 4 rfl (Violation.ofData_toData f h.violation)]
  rfl

theorem FileReport.ofData_toData {r : FileReport} (h : ∀ d ∈ r.diagnostics, d.Fits) :
    ofData f r.toData = pure r := by
  have hdiagnostics := asList_map fun d hd => Diagnostic.ofData_toData f (h d hd)
  unfold ofData toData
  rw [field_record 1 rfl hdiagnostics]
  rfl

theorem Failure.ofData_toData (x : Failure) : ofData f x.toData = pure x := rfl

theorem Findings.ofData_toData {x : Findings} (h : x.Fits) : ofData f x.toData = pure x := by
  have hreports := asList_map fun r hr => FileReport.ofData_toData f (h.diagnostics r hr)
  have hfailures : (list (x.failures.map (·.toData))).asList (Failure.ofData f) =
      pure x.failures := asList_map fun e _ => Failure.ofData_toData f e
  unfold ofData toData
  rw [field_record 0 rfl hreports, field_record 1 rfl hfailures,
    field_record 2 rfl (asNat_ofNat h.filesChecked)]
  rfl

end

/-! Settings -/

section
variable (f : Format)

theorem NamingSettings.ofData_toData (s : NamingSettings) : ofData f s.toData = pure s := by
  simp only [ofData, toData, asChanges, change, asText, List.foldlM_cons, List.foldlM_nil,
    Severity.ofData_toData, Locale.ofData_toData, pure_bind]

theorem ScanSettings.ofData_toData (s : ScanSettings) : ofData f s.toData = pure s := by
  have hexclude : (list (s.exclude.map .text)).asList asText = pure s.exclude :=
    asList_map fun _ _ => rfl
  simp only [ofData, toData, asChanges, change, asBool, List.foldlM_cons, List.foldlM_nil,
    Path.ofData_toData, hexclude, pure_bind]

theorem Settings.ofData_toData (s : Settings) : ofData f s.toData = pure s := by
  simp only [ofData, toData, asChanges, change, List.foldlM_cons, List.foldlM_nil,
    NamingSettings.ofData_toData, ScanSettings.ofData_toData, pure_bind]

end

/-- All that is written is read back as it was, with no report of an unknown word: findings,
diagnostics and violations with any texts and numbers of 64 bits, and any settings. A severity is
written as a word that names it, although every other word is read as some severity, too. -/
theorem decoding_undoes_encoding (f : Format) :
    (∀ x : Findings, x.Fits → (Findings.ofData f x.toData).Gives x) ∧
    (∀ d : Diagnostic, d.Fits → (Diagnostic.ofData f d.toData).Gives d) ∧
    (∀ v : Violation, v.Fits → (Violation.ofData f v.toData).Gives v) ∧
    (∀ s : NamingSettings, (NamingSettings.ofData f s.toData).Gives s) ∧
    (∀ s : Settings, (Settings.ofData f s.toData).Gives s) ∧
    (∀ s : Severity, (Severity.ofData s.toData).Gives s ∧
      ∃ word, s.toData = .text word ∧ Severity.ofWord? word = some s) ∧
    ∀ word, ∃ s, (Severity.ofData (.text word)).result = some s := by
  refine ⟨fun x hx => ?_, fun d hd => ?_, fun v hv => ?_, fun s => ?_, fun s => ?_, fun s => ?_,
    fun word => ?_⟩
  · exact Decoding.gives_of_eq_pure (Findings.ofData_toData f hx)
  · exact Decoding.gives_of_eq_pure (Diagnostic.ofData_toData f hd)
  · exact Decoding.gives_of_eq_pure (Violation.ofData_toData f hv)
  · exact Decoding.gives_of_eq_pure (NamingSettings.ofData_toData f s)
  · exact Decoding.gives_of_eq_pure (Settings.ofData_toData f s)
  · exact ⟨Decoding.gives_of_eq_pure (Severity.ofData_toData s), s.word, rfl,
      Severity.ofWord?_word s⟩
  · exact ⟨(Severity.read word).value, rfl⟩

/-- A diagnostic with the greatest numbers, and with texts that need care in any format. -/
def extremeDiagnostic : Diagnostic where
  range := ⟨⟨0, 18446744073709551615⟩, ⟨18446744073709551615, 0⟩⟩
  message := "\\\"\n\x00"
  severity := .information
  source := ""
  violation := ⟨"変数𝑥", 7, 18446744073709551615, 0, .function, "null", 18446744073709551615⟩

def extremeFindings : Findings where
  reports := [⟨⟨"src/\"a\".ts"⟩, [extremeDiagnostic]⟩, ⟨⟨""⟩, []⟩]
  failures := [⟨⟨"/"⟩, "\u2028"⟩]
  filesChecked := 18446744073709551615

theorem extremeDiagnostic_fits : extremeDiagnostic.Fits where
  range := ⟨⟨by decide, by decide⟩, ⟨by decide, by decide⟩⟩
  violation := ⟨by decide, by decide, by decide, by decide⟩

theorem extremeFindings_fits : extremeFindings.Fits where
  diagnostics := by simp [extremeFindings, extremeDiagnostic_fits]
  filesChecked := by decide

theorem decoding_undoes_encoding_extreme :
    extremeFindings.Fits ∧
      (Findings.ofData .json extremeFindings.toData).Gives extremeFindings ∧
      (Diagnostic.ofData .toml extremeDiagnostic.toData).Gives extremeDiagnostic :=
  ⟨extremeFindings_fits, (decoding_undoes_encoding .json).1 _ extremeFindings_fits,
    (decoding_undoes_encoding .toml).2.1 _ extremeDiagnostic_fits⟩

end NamingLint
