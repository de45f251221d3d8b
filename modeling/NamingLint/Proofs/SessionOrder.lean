import NamingLint.Proofs.Check.DocumentOrder
import NamingLint.Proofs.Check.SyntaxErrors
import NamingLint.Proofs.OrderedStore
import NamingLint.Proofs.SessionHistory

/-!
# Documents in any order

What comes of a document depends on the settings and the document alone, and it changes the store
for its own path only. So a session that takes over some documents under different paths comes to
the same store whatever their order and the reasons for them, and one document twice in a row is as
good as once.
-/
namespace NamingLint.Session

/-- The documents that a session takes over one after the other, each with what comes of it, and the
session after them. -/
def handleAll (c : Checker) (s : Session) :
    List (Trigger × Document) → List (Document × Outcome) × Session
  | [] => ([], s)
  | (t, d) :: rest =>
    let first := (s.handle c t d).value
    let others := handleAll c first.2 rest
    ((d, first.1) :: others.1, others.2)

section
variable {c : Checker} {settings : NamingSettings} {store : DiagnosticStore} {d d' : Document}

theorem handleAll_eq (c : Checker) (s : Session) (l : List (Trigger × Document)) :
    handleAll c s l =
      ((l.map Prod.snd).map fun d => (d, outcome c s.settings d),
        ⟨s.settings, (l.map Prod.snd).foldl (receive c s.settings) s.store⟩) := by
  induction l generalizing s with
  | nil => rfl
  | cons x l ih =>
    obtain ⟨t, d⟩ := x
    rw [handleAll, handle_eq, ih]
    rfl

theorem receive_ordered (h : store.Ordered) (d : Document) :
    (receive c settings store d).Ordered := by
  unfold receive
  split
  · exact h.set d.path _
  · exact h

/-- Documents under different paths do not disturb each other. -/
theorem receive_comm (h : store.Ordered) (hne : d.path.components ≠ d'.path.components) :
    receive c settings (receive c settings store d) d' =
      receive c settings (receive c settings store d') d := by
  unfold receive
  by_cases hd : d.language ∈ c.languages
  · by_cases hd' : d'.language ∈ c.languages
    · simp only [hd, hd', if_true]
      exact h.set_comm hne _ _
    · simp [hd, hd']
  · simp [hd]

theorem receive_idem (h : store.Ordered) (d : Document) :
    receive c settings (receive c settings store d) d = receive c settings store d := by
  unfold receive
  by_cases hd : d.language ∈ c.languages
  · simp only [hd, if_true]
    exact h.set_idem d.path _
  · simp [hd]

/-- Documents under different paths lead to one store, whatever their order. -/
theorem foldl_receive_perm {l l' : List Document} (hperm : l.Perm l')
    (hpaths : l.Pairwise (·.path.components ≠ ·.path.components)) (h : store.Ordered) :
    l.foldl (receive c settings) store = l'.foldl (receive c settings) store := by
  -- One order comes from the other by exchanges of neighbours. The store in which two of them are
  -- exchanged is ordered because all documents before them keep it so.
  induction hperm generalizing store with
  | nil => rfl
  | cons d _ ih => exact ih (List.pairwise_cons.1 hpaths).2 (receive_ordered h d)
  | swap d d' l =>
    have hne : d'.path.components ≠ d.path.components :=
      (List.pairwise_cons.1 hpaths).1 d List.mem_cons_self
    rw [List.foldl_cons, List.foldl_cons, List.foldl_cons, List.foldl_cons, receive_comm h hne]
  | trans hfirst _ ih ih' =>
    rw [ih hpaths h]
    exact ih' ((hfirst.pairwise_iff Ne.symm).1 hpaths) h

end

section
variable {c : Checker} {s : Session}

theorem step_ordered (h : s.store.Ordered) (x : SessionStep) : (s.step c x).store.Ordered := by
  cases x with
  | handle t d =>
    rw [step, handle_eq]
    exact receive_ordered h d
  | reload settings => exact h
  | dispose => exact DiagnosticStore.ordered_empty

theorem run_ordered (h : s.store.Ordered) (steps : List SessionStep) :
    (s.run c steps).store.Ordered := by
  unfold run
  induction steps generalizing s with
  | nil => exact h
  | cons x steps ih => exact ih (step_ordered h x)

end

/-- A session, with its store ordered as it always is, takes over documents under different paths in
any order and for any reasons: it comes to the same state, that is the same entries in the same
order, and the same comes of each document. Taking over one document twice in a row has the outcome
and leaves the state of taking it over once. -/
theorem handleAll_in_any_order (c : Checker) (s : Session) (hs : s.store.Ordered) :
    (∀ l l' : List (Trigger × Document),
      (l.map Prod.snd).Pairwise (·.path.components ≠ ·.path.components) →
      (l.map Prod.snd).Perm (l'.map Prod.snd) →
        (handleAll c s l).2 = (handleAll c s l').2 ∧
          (handleAll c s l).2.store.size = (handleAll c s l').2.store.size ∧
          (handleAll c s l).1.Perm (handleAll c s l').1) ∧
      ∀ t t' d, ((s.handle c t d).value.2.handle c t' d).value = (s.handle c t d).value := by
  refine ⟨fun l l' hpaths hperm => ?_, fun t t' d => ?_⟩
  · have hstate : (handleAll c s l).2 = (handleAll c s l').2 := by
      rw [handleAll_eq, handleAll_eq, foldl_receive_perm hperm hpaths hs]
    refine ⟨hstate, by rw [hstate], ?_⟩
    rw [handleAll_eq, handleAll_eq]
    exact hperm.map _
  · rw [handle_eq, handle_eq, receive_idem hs]

/-- Reads one text and finds all others broken. -/
def pickyGrammar : Grammar where
  parse _ text := .ok (if text = nestedText then nestedTree else brokenTree)

/-- A session that has published for one path, in a spelling of its own. -/
def openSession : Session :=
  run pickyGrammar.checker ⟨{}, .empty⟩ [.handle .opened ⟨⟨"src//a.ts"⟩, "typescript", nestedText⟩]

def brokenDocument : Document := ⟨⟨"src/a.ts"⟩, "typescript", brokenText⟩
def namesDocument : Document := ⟨⟨"b.ts"⟩, "typescript", nestedText⟩
def plainDocument : Document := ⟨⟨"c.txt"⟩, "plaintext", nestedText⟩

theorem handleAll_in_any_order_mixed :
    openSession.store.Ordered ∧
      (handleAll pickyGrammar.checker openSession
        [(.saved, brokenDocument), (.opened, namesDocument), (.focused, plainDocument)]).1 =
        [(brokenDocument, .failed (.syntaxError "src/a.ts" 1 3)), (namesDocument, .checked 3),
          (plainDocument, .ignored)] ∧
      (handleAll pickyGrammar.checker openSession
        [(.saved, brokenDocument), (.opened, namesDocument), (.focused, plainDocument)]).2 =
        (handleAll pickyGrammar.checker openSession
          [(.startup, plainDocument), (.saved, namesDocument), (.saved, brokenDocument)]).2 := by
  have hordered : openSession.store.Ordered := run_ordered DiagnosticStore.ordered_empty _
  obtain ⟨horder, -⟩ := handleAll_in_any_order pickyGrammar.checker openSession hordered
  refine ⟨hordered, rfl, (horder _ _ ?_ ?_).1⟩
  · decide
  · decide

end NamingLint.Session
