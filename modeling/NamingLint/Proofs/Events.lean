import NamingLint.Command.Check

/-!
# What steps report

A property that the events of all steps have is one of all events of a run. So it is enough to look
at the places where events arise. Reading structured data reports nothing but words that are no
severity.
-/
namespace NamingLint
variable {α β : Type} {P : Event → Prop}

/-- Every event that a step reports has a property. -/
def Logged.Reports (P : Event → Prop) (x : Logged α) : Prop :=
  ∀ e ∈ x.events, P e

namespace Logged.Reports

theorem pure (a : α) : Reports P (Pure.pure a : Logged α) := by
  simp [Reports]

theorem map {x : Logged α} (h : x.Reports P) (f : α → β) : (x.map f).Reports P :=
  h

theorem bind {x : Logged α} {f : α → Logged β} (h : x.Reports P) (hf : (f x.value).Reports P) :
    (x >>= f).Reports P := by
  intro e he
  rcases List.mem_append.1 he with he | he
  · exact h e he
  · exact hf e he

theorem mapM {f : β → Logged α} {xs : List β} (h : ∀ b ∈ xs, (f b).Reports P) :
    (xs.mapM f).Reports P := by
  induction xs with
  | nil => exact pure []
  | cons b xs ih =>
    obtain ⟨hb, hxs⟩ := List.forall_mem_cons.1 h
    rw [List.mapM_cons]
    exact hb.bind ((ih hxs).bind (pure _))

end Logged.Reports

namespace Data

/-- Every event that a reading reports has a property, whether it succeeds or not. -/
def Decoding.Reports (P : Event → Prop) (x : Decoding α) : Prop :=
  Logged.Reports P (OptionT.run x)

namespace Decoding.Reports

theorem pure (a : α) : Reports P (Pure.pure a : Decoding α) :=
  Logged.Reports.pure (some a)

theorem failure : Reports P (failure : Decoding α) :=
  Logged.Reports.pure none

theorem bind {x : Decoding α} {f : α → Decoding β} (h : x.Reports P)
    (hf : ∀ a, (f a).Reports P) : (x >>= f).Reports P := by
  have hrun : OptionT.run (x >>= f) =
      OptionT.run x >>= fun a? => a?.elim (Pure.pure none) fun a => OptionT.run (f a) :=
    OptionT.run_bind f
  rw [Reports, hrun]
  apply Logged.Reports.bind h
  cases (OptionT.run x).value with
  | none => exact Logged.Reports.pure none
  | some a => exact hf a

theorem mapM {f : β → Decoding α} (h : ∀ b, (f b).Reports P) (xs : List β) :
    (xs.mapM f).Reports P := by
  induction xs with
  | nil => exact pure []
  | cons b xs ih =>
    rw [List.mapM_cons]
    exact (h b).bind fun _ => ih.bind fun _ => pure _

theorem foldlM {f : α → β → Decoding α} (h : ∀ a b, (f a b).Reports P) (a : α) (xs : List β) :
    (xs.foldlM f a).Reports P := by
  induction xs generalizing a with
  | nil => exact pure a
  | cons b xs ih =>
    rw [List.foldlM_cons]
    exact (h a b).bind fun _ => ih _

end Decoding.Reports

open Decoding

theorem asText_reports (d : Data) : d.asText.Reports P := by
  cases d with
  | text s => exact .pure s
  | _ => exact .failure

theorem asBool_reports (d : Data) : d.asBool.Reports P := by
  cases d with
  | bool b => exact .pure b
  | _ => exact .failure

theorem asList_reports {element : Data → Decoding α} (h : ∀ d, (element d).Reports P) (d : Data) :
    (d.asList element).Reports P := by
  cases d with
  | list items => exact .mapM h items
  | _ => exact .failure

theorem asWord_reports (f : Format) (ofWord? : String → Option α) (d : Data) :
    (d.asWord f ofWord?).Reports P := by
  unfold asWord
  split
  · exact Logged.Reports.pure _
  · split
    · exact Logged.Reports.pure _
    · exact .failure
  · exact .failure

theorem endFields_reports (f : Format) (count : Nat) (d : Data) :
    (d.endFields f count).Reports P := by
  unfold endFields
  split
  · split
    · exact .pure ()
    · exact .failure
  · exact .pure ()

theorem asChanges_reports {σ : Type} {change : String → Data → σ → Decoding σ}
    (h : ∀ name d s, (change name d s).Reports P) (f : Format) (names : List String) (start : σ)
    (d : Data) : (d.asChanges f names start change).Reports P := by
  have hstep : ∀ (s : σ) (e : String × Data), (change e.1 e.2 s).Reports P := fun s e => h _ _ s
  unfold asChanges
  split
  · exact .foldlM hstep start _
  · exact (Reports.foldlM hstep start _).bind fun s =>
      (endFields_reports f _ _).bind fun _ => .pure s
  · exact .pure start
  · exact .failure

end Data

open Data

theorem ScanSettings.change_reports (name : String) (d : Data) (s : ScanSettings) :
    (ScanSettings.change name d s).Reports P := by
  unfold change
  split
  · have hread : (Path.ofData d).Reports P := (asText_reports d).bind fun _ => .pure _
    exact hread.bind fun _ => .pure _
  · exact (asList_reports asText_reports d).bind fun _ => .pure _
  · exact (asBool_reports d).bind fun _ => .pure _
  · exact .pure s

section
variable (hseverity : ∀ word, (Severity.read word).Reports P)
include hseverity

theorem NamingSettings.change_reports (f : Format) (name : String) (d : Data)
    (s : NamingSettings) : (NamingSettings.change f name d s).Reports P := by
  unfold change
  split
  · exact (asText_reports d).bind fun _ => .pure _
  · exact (asText_reports d).bind fun _ => .pure _
  · have hread : (Severity.ofData d).Reports P :=
      (asText_reports d).bind fun word => (hseverity word).bind (Logged.Reports.pure _)
    exact hread.bind fun _ => .pure _
  · exact (asWord_reports f _ d).bind fun _ => .pure _
  · exact .pure s

theorem Settings.ofData_reports (f : Format) (d : Data) : (Settings.ofData f d).Reports P := by
  apply asChanges_reports
  intro name d s
  unfold change
  split
  · have hread : (NamingSettings.ofData f d).Reports P :=
      asChanges_reports (NamingSettings.change_reports hseverity f) f _ _ d
    exact hread.bind fun _ => .pure _
  · have hread : (ScanSettings.ofData f d).Reports P :=
      asChanges_reports ScanSettings.change_reports f _ _ d
    exact hread.bind fun _ => .pure _
  · exact .pure s

end
end NamingLint
