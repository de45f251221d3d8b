import NamingLint.Proofs.Syntax.Reach

/-!
# Moving a tree along its text

All spans of a tree are moved by a number of bytes. Kinds, roles and marks stay, so that a node is
found, and means for the search, what it did before.
-/
namespace NamingLint.Syntax

def Span.shift (n : Nat) (s : Span) : Span :=
  ⟨s.start + n, s.stop + n⟩

def Label.shift (n : Nat) (l : Label) : Label :=
  { l with span := l.span.shift n }

namespace Tree

mutual
def shift (n : Nat) : Tree → Tree
  | .node l cs => .node (l.shift n) (shiftAll n cs)

def shiftAll (n : Nat) : List Tree → List Tree
  | [] => []
  | t :: ts => shift n t :: shiftAll n ts
end

theorem shiftAll_eq_map (n : Nat) (ts : List Tree) : shiftAll n ts = ts.map (shift n) := by
  induction ts with
  | nil => rfl
  | cons t ts ih => rw [shiftAll, ih, List.map_cons]

section
variable (n : Nat) (t : Tree)

theorem shift_eq : t.shift n = .node (t.label.shift n) (t.children.map (shift n)) := by
  cases t
  rw [shift, shiftAll_eq_map]
  rfl

@[simp] theorem label_shift : (t.shift n).label = t.label.shift n := by
  rw [shift_eq]
  rfl

@[simp] theorem children_shift : (t.shift n).children = t.children.map (shift n) := by
  rw [shift_eq]
  rfl

@[simp] theorem kind_shift : (t.shift n).kind = t.kind := by
  rw [kind, label_shift]
  rfl

@[simp] theorem field_shift : (t.shift n).field = t.field := by
  rw [field, label_shift]
  rfl

@[simp] theorem named_shift : (t.shift n).named = t.named := by
  rw [named, label_shift]
  rfl

@[simp] theorem hasError_shift : (t.shift n).hasError = t.hasError := by
  rw [hasError, label_shift]
  rfl

@[simp] theorem span_shift : (t.shift n).span = t.span.shift n := by
  rw [span, label_shift]
  rfl

@[simp] theorem childOf?_shift (field : String) :
    (t.shift n).childOf? field = (t.childOf? field).map (shift n) := by
  simp only [childOf?, children_shift, List.find?_map, Function.comp_def, field_shift]

end
end Tree

@[simp] theorem isConst_shift (n : Nat) (t : Tree) : isConst (t.shift n) = isConst t := by
  simp [isConst, Option.any_map]

/-- The category of a moved node, of which only the name of a function is moved. -/
def Category.shift (n : Nat) : Category → Category
  | .function name => .function (name.shift n)
  | category => category

theorem categorize_shift (inHeader : Bool) (n : Nat) (t : Tree) :
    categorize inHeader (t.shift n) = (categorize inHeader t).shift n := by
  have hname : ((t.childOf? "name").map (Tree.shift n)).elim Category.other .function =
      ((t.childOf? "name").elim Category.other .function).shift n := by
    cases t.childOf? "name" <;> rfl
  rw [categorize_eq, categorize_eq, Tree.kind_shift, Tree.childOf?_shift, isConst_shift, hname]
  simp only [apply_ite (Category.shift n)]
  rfl

end NamingLint.Syntax
