import NamingLint.Event

/-!
# Structured data

The values that settings and results are read from and written to. Which format they came from
decides two small questions of reading, collected in `Data.Format`.
-/
namespace NamingLint

inductive Data where
  | null
  | bool (value : Bool)
  | integer (value : Int)
  /-- A number that is not written as an integer, as it is spelled. -/
  | real (spelling : String)
  | text (value : String)
  /-- A date or time, as it is spelled. -/
  | moment (spelling : String)
  | list (items : List Data)
  | record (entries : List (String × Data))
  deriving Repr, Inhabited

namespace Data

def isEmpty : Data → Bool
  | list [] => true
  | record [] => true
  | _ => false

def isNull : Data → Bool
  | null => true
  | _ => false

/-- What the formats read differently. -/
structure Format where
  /-- A structure given as a list may be followed by further elements. -/
  allowsSurplus : Bool
  /-- What may stand beside a word that is given as the key of a record. -/
  isUnit : Data → Bool

namespace Format

def json : Format := ⟨false, isNull⟩
def toml : Format := ⟨true, isEmpty⟩

end Format

/-- The reading of a value, which may fail and may report events. -/
abbrev Decoding (α : Type) := OptionT Logged α

namespace Decoding
variable {α : Type}

def result (x : Decoding α) : Option α := (OptionT.run x).value
def events (x : Decoding α) : List Event := (OptionT.run x).events

end Decoding

def asText : Data → Decoding String
  | text s => pure s
  | _ => failure

def asBool : Data → Decoding Bool
  | bool b => pure b
  | _ => failure

/-- Counts and positions are 64 bits wide. -/
def asNat : Data → Decoding Nat
  | integer n => if 0 ≤ n ∧ n.toNat < UInt64.size then pure n.toNat else failure
  | _ => failure

def asList {α : Type} (element : Data → Decoding α) : Data → Decoding (List α)
  | list items => items.mapM element
  | _ => failure

/-- A word of a fixed set: a text, or a record with the word as its only key. -/
def asWord {α : Type} (f : Format) (ofWord? : String → Option α) : Data → Decoding α
  | text s => OptionT.mk (pure (ofWord? s))
  | record [(s, d)] => if f.isUnit d then OptionT.mk (pure (ofWord? s)) else failure
  | _ => failure

/-- A required field of a structure: by its name in a record, by its place in a list. -/
def field {α : Type} (d : Data) (place : Nat) (name : String) (read : Data → Decoding α) :
    Decoding α :=
  match d with
  | record entries => (entries.lookup name).elim failure read
  | list items => items[place]?.elim failure read
  | _ => failure

/-- Refuses a list with more elements than the structure has fields. -/
def endFields (f : Format) (count : Nat) : Data → Decoding Unit
  | list items => if f.allowsSurplus || items.length ≤ count then pure () else failure
  | _ => pure ()

/-- A structure of which every field may be missing: the fields given are read in their order,
each changing what is read so far. A moment is a record of no known field. -/
def asChanges {σ : Type} (f : Format) (names : List String) (start : σ)
    (change : String → Data → σ → Decoding σ) (d : Data) : Decoding σ :=
  match d with
  | record entries => entries.foldlM (fun s e => change e.1 e.2 s) start
  | list items => do
    let s ← (names.zip items).foldlM (fun s e => change e.1 e.2 s) start
    endFields f names.length d
    pure s
  | moment _ => pure start
  | _ => failure

end Data
end NamingLint
