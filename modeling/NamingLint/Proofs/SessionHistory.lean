import NamingLint.Proofs.Store
import NamingLint.Session
import Mathlib.Data.List.Induction

/-!
# What a session has published

A session is changed by documents, new settings and disposal. After any number of such steps, what
is published for a path depends on one of them only: the last document under that path that was
checked, unless all was withdrawn since. The settings that count are those of that moment.
-/
namespace NamingLint

inductive SessionStep where
  | handle (trigger : Trigger) (document : Document)
  | reload (settings : NamingSettings)
  | dispose

namespace Session

def step (c : Checker) (s : Session) : SessionStep → Session
  | .handle t d => (s.handle c t d).value.2
  | .reload settings => s.reload settings
  | .dispose => s.dispose

def run (c : Checker) (s : Session) (steps : List SessionStep) : Session :=
  steps.foldl (step c) s

theorem run_concat (c : Checker) (s : Session) (steps : List SessionStep) (x : SessionStep) :
    s.run c (steps ++ [x]) = (s.run c steps).step c x := by
  rw [run, List.foldl_append]
  rfl

end Session

/-- A document is checked, and under this path. -/
def Document.Concerns (d : Document) (c : Checker) (p : Path) : Prop :=
  d.language ∈ c.languages ∧ d.path.components = p.components

instance (d : Document) (c : Checker) (p : Path) : Decidable (d.Concerns c p) :=
  inferInstanceAs (Decidable (_ ∧ _))

/-- The past of a session is the list of its steps with the last one first. -/
abbrev Past := List SessionStep

namespace Past

/-- The settings in force after some steps: those of the last reload, else the first ones. -/
def settings (initial : NamingSettings) : Past → NamingSettings
  | [] => initial
  | .reload settings :: _ => settings
  | .handle _ _ :: earlier => settings initial earlier
  | .dispose :: earlier => settings initial earlier

/-- The last check of a document under a path that was not followed by a disposal, with what went
before it. -/
def lastCheck? (c : Checker) (p : Path) : Past → Option (Trigger × Document × Past)
  | [] => none
  | .dispose :: _ => none
  | .reload _ :: earlier => lastCheck? c p earlier
  | .handle t d :: earlier =>
    if d.Concerns c p then some (t, d, earlier) else lastCheck? c p earlier

theorem concerns_of_lastCheck? {c : Checker} {p : Path} {past earlier : Past} {t : Trigger}
    {d : Document}
    (h : lastCheck? c p past = some (t, d, earlier)) : d.Concerns c p := by
  fun_induction lastCheck? c p past with
  | case1 => simp at h
  | case2 => simp at h
  | case3 _ _ ih => exact ih h
  | case4 t' d' past hd =>
    obtain ⟨-, rfl, -⟩ : t' = t ∧ d' = d ∧ past = earlier := by simpa using h
    exact hd
  | case5 _ _ _ _ ih => exact ih h

end Past

namespace Session
variable {c : Checker} {s : Session} {t : Trigger} {d : Document} {p : Path}

/-- What comes of a document and what becomes of the session, apart from the log. -/
theorem handle_value (c : Checker) (s : Session) (t : Trigger) (d : Document) :
    (s.handle c t d).value =
      if d.language ∈ c.languages then
        match c.check d.text d.path.text s.settings.ruleKeys with
        | .ok found =>
          (.checked found.length, ⟨s.settings, s.store.set d.path (publish s.settings found)⟩)
        | .error e => (.failed e, ⟨s.settings, s.store.clear d.path⟩)
      else (.ignored, s) := by
  unfold handle
  by_cases h : d.language ∈ c.languages
  · cases hc : c.check d.text d.path.text s.settings.ruleKeys with
    | ok found => simp [h, hc]
    | error e => simp [h, hc]
  · simp [h]

def published (c : Checker) (settings : NamingSettings) (d : Document) : List Diagnostic :=
  match c.check d.text d.path.text settings.ruleKeys with
  | .ok found => found.map fun v => .ofViolation v settings.severity settings.locale
  | .error _ => []

def outcome (c : Checker) (settings : NamingSettings) (d : Document) : Outcome :=
  if d.language ∈ c.languages then
    match c.check d.text d.path.text settings.ruleKeys with
    | .ok found => .checked found.length
    | .error e => .failed e
  else .ignored

def receive (c : Checker) (settings : NamingSettings) (store : DiagnosticStore) (d : Document) :
    DiagnosticStore :=
  if d.language ∈ c.languages then store.set d.path (published c settings d) else store

/-- Neither the outcome nor the next state depends on the trigger. -/
theorem handle_eq (c : Checker) (s : Session) (t : Trigger) (d : Document) :
    (s.handle c t d).value =
      (outcome c s.settings d, ⟨s.settings, receive c s.settings s.store d⟩) := by
  rw [handle_value, outcome, receive, published]
  by_cases h : d.language ∈ c.languages
  · cases hcheck : c.check d.text d.path.text s.settings.ruleKeys with
    | ok found => simp [h, publish]
    | error e => simp [h, DiagnosticStore.set]
  · simp [h]

theorem handle_settings : (s.handle c t d).value.2.settings = s.settings := by
  rw [handle_eq]

/-- A document changes what is published for its own path and for no other. -/
theorem handle_get (p : Path) : (s.handle c t d).value.2.store.get p =
    if d.Concerns c p then published c s.settings d else s.store.get p := by
  rw [handle_eq, receive]
  by_cases h : d.language ∈ c.languages
  · have hiff : d.Concerns c p ↔ d.path.components = p.components := by simp [Document.Concerns, h]
    simp only [h, hiff, if_true]
    exact DiagnosticStore.get_set ..
  · rw [if_neg h, if_neg fun hd => h hd.1]

/-- A check reports how many diagnostics it has published, or the parse error. -/
theorem handle_outcome (h : d.Concerns c p) :
    (s.handle c t d).value.1 =
      match c.check d.text d.path.text s.settings.ruleKeys with
      | .ok _ => .checked ((s.handle c t d).value.2.store.get p).length
      | .error e => .failed e := by
  rw [handle_get, if_pos h, handle_eq, outcome, if_pos h.1, published]
  cases c.check d.text d.path.text s.settings.ruleKeys with
  | ok found => simp
  | error e => rfl

theorem run_settings (c : Checker) (initial : NamingSettings) (steps : List SessionStep) :
    (run c ⟨initial, .empty⟩ steps).settings = Past.settings initial steps.reverse := by
  induction steps using List.reverseRecOn with
  | nil => rfl
  | append_singleton steps x ih =>
    rw [run_concat, List.reverse_concat]
    cases x with
    | handle t d => exact handle_settings.trans ih
    | reload settings => rfl
    | dispose => exact ih

/-- After any steps, what is published for a path is what the last check under it published. -/
theorem run_get (c : Checker) (initial : NamingSettings) (steps : List SessionStep) (p : Path) :
    (run c ⟨initial, .empty⟩ steps).store.get p =
      match Past.lastCheck? c p steps.reverse with
      | none => []
      | some (_, d, earlier) => published c (Past.settings initial earlier) d := by
  induction steps using List.reverseRecOn with
  | nil => rfl
  | append_singleton steps x ih =>
    rw [run_concat, List.reverse_concat]
    cases x with
    | handle t d =>
      rw [step, handle_get, run_settings, Past.lastCheck?]
      by_cases hd : d.Concerns c p
      · rw [if_pos hd, if_pos hd]
      · rw [if_neg hd, if_neg hd, ih]
    | reload settings => exact ih
    | dispose => rfl

/-- What is published for a path after any steps is decided by the last check under it that no
disposal followed, made with the settings of that moment; without such a check nothing is published.
That check reports as many violations as were published, or the parse error. Other documents, new
settings and the reason for a check change nothing. -/
theorem get_decided_by_last_check (c : Checker) (initial : NamingSettings)
    (steps : List SessionStep) (p : Path) :
    let final := run c ⟨initial, .empty⟩ steps
    (match Past.lastCheck? c p steps.reverse with
      | none => final.store.get p = []
      | some (t, d, earlier) =>
        let settings := Past.settings initial earlier
        let checked := (run c ⟨initial, .empty⟩ earlier.reverse).handle c t d
        match c.check d.text d.path.text settings.ruleKeys with
        | .ok found =>
          final.store.get p =
              found.map (fun v => .ofViolation v settings.severity settings.locale) ∧
            checked.value.1 = .checked (checked.value.2.store.get p).length
        | .error e => final.store.get p = [] ∧ checked.value.1 = .failed e) ∧
      (∀ t d, ¬d.Concerns c p → (final.step c (.handle t d)).store.get p = final.store.get p) ∧
      (∀ settings, (final.step c (.reload settings)).store.get p = final.store.get p) ∧
      ∀ t t' d, final.step c (.handle t d) = final.step c (.handle t' d) := by
  intro final
  refine ⟨?_, fun t d hd => ?_, fun settings => rfl, fun t t' d => ?_⟩
  · have hget : final.store.get p = _ := run_get c initial steps p
    cases hlast : Past.lastCheck? c p steps.reverse with
    | none =>
      rw [hlast] at hget
      exact hget
    | some last =>
      obtain ⟨t, d, earlier⟩ := last
      have houtcome := handle_outcome (c := c) (t := t)
        (s := run c ⟨initial, .empty⟩ earlier.reverse) (Past.concerns_of_lastCheck? hlast)
      rw [run_settings, List.reverse_reverse] at houtcome
      rw [hlast] at hget
      dsimp only [published] at hget ⊢
      cases hc : c.check d.text d.path.text (Past.settings initial earlier).ruleKeys with
      | ok found =>
        rw [hc] at hget houtcome
        exact ⟨hget, houtcome⟩
      | error e =>
        rw [hc] at hget houtcome
        exact ⟨hget, houtcome⟩
  · rw [step, handle_get, if_neg hd]
  · rw [step, step, handle_value, handle_value]

end Session
end NamingLint
