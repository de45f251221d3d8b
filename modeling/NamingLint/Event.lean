/-!
# Events

What a step reports while it runs, as values in order, beside the value it computes.
-/
namespace NamingLint

inductive Level where
  | debug
  | info
  | warn
  deriving DecidableEq, Repr

namespace Level

def label : Level → String
  | debug => "DEBUG"
  | info => "INFO"
  | warn => "WARN"

end Level

structure Event where
  level : Level
  message : String
  deriving DecidableEq, Repr

namespace Event

def debug (message : String) : Event := ⟨.debug, message⟩
def info (message : String) : Event := ⟨.info, message⟩
def warn (message : String) : Event := ⟨.warn, message⟩

def line (event : Event) : String :=
  event.level.label ++ " " ++ event.message

end Event

/-- A value with the events reported on the way to it. -/
structure Logged (α : Type) where
  value : α
  events : List Event := []
  deriving Repr

namespace Logged
variable {α β : Type}

def emit (event : Event) : Logged Unit := ⟨(), [event]⟩

def map (f : α → β) (x : Logged α) : Logged β := ⟨f x.value, x.events⟩

def bind (x : Logged α) (f : α → Logged β) : Logged β :=
  ⟨(f x.value).value, x.events ++ (f x.value).events⟩

instance : Monad Logged where
  pure a := ⟨a, []⟩
  bind := Logged.bind

instance : LawfulMonad Logged := LawfulMonad.mk' Logged
  (fun x => by simp only [Functor.map, Logged.bind, List.append_nil, Function.comp, id])
  (fun _ _ => by simp only [Bind.bind, Pure.pure, Logged.bind, List.nil_append])
  (fun _ _ _ => by simp only [Bind.bind, Logged.bind, List.append_assoc])

@[simp] theorem value_pure (a : α) : (pure a : Logged α).value = a := rfl
@[simp] theorem events_pure (a : α) : (pure a : Logged α).events = [] := rfl
@[simp] theorem value_map (f : α → β) (x : Logged α) : (f <$> x).value = f x.value := rfl
@[simp] theorem value_bind (x : Logged α) (f : α → Logged β) :
    (x >>= f).value = (f x.value).value := rfl
@[simp] theorem events_bind (x : Logged α) (f : α → Logged β) :
    (x >>= f).events = x.events ++ (f x.value).events := rfl

end Logged
end NamingLint
