import NamingLint.Data

/-!
# Tables under construction

A settings file defines each table once: by a header, by headers of tables below it, or by
dotted keys. A header may still be given to a table that so far is only implied by headers below
it; dotted keys extend only tables made by dotted keys.
-/
namespace NamingLint.Toml

/-- How a table came about. -/
inductive TableOrigin where
  | header
  /-- Only through headers of tables below it. -/
  | implied
  | dotted
  deriving DecidableEq, Repr

inductive Node where
  | value (data : Data)
  | table (origin : TableOrigin) (entries : List (String × Node))
  /-- Tables under one header, the last of which may still grow. -/
  | tables (earlier : List (List (String × Node))) (last : List (String × Node))

abbrev Entries := List (String × Node)

namespace Entries

def replace (key : String) (node : Node) : Entries → Entries
  | [] => []
  | (k, n) :: r => if k = key then (k, node) :: r else (k, n) :: replace key node r

def remove (key : String) (entries : Entries) : Entries :=
  entries.filter (·.1 ≠ key)

/-- Changes the table that a path leads to; `dotted` says that the path is written as a dotted
key and not in a header. Tables on the way are made where there are none, and of several tables
under one header the last is meant. The change is told the origin of the table. -/
def change (dotted : Bool) (f : TableOrigin → Entries → Option Entries) (origin : TableOrigin)
    (path : List String) (entries : Entries) : Option Entries :=
  match path with
  | [] => f origin entries
  | key :: rest =>
    match entries.lookup key with
    | none => do
      let made := if dotted then .dotted else .implied
      let inner ← change dotted f made rest []
      pure (entries ++ [(key, .table made inner)])
    | some (.value _) => none
    | some (.tables earlier last) => do
      let inner ← change dotted f .header rest last
      pure (replace key (.tables earlier inner) entries)
    | some (.table made inner) =>
      if dotted ∧ made = .header then none
      else do
        let inner ← change dotted f made rest inner
        pure (replace key (.table made inner) entries)

/-- Adds a pair whose key is a path and a last name. A table takes pairs by dotted keys exactly
if dotted keys made it. -/
def addPair (path : List String) (name : String) (data : Data) (entries : Entries) :
    Option Entries :=
  change true
    (fun origin inner =>
      if decide (origin = .dotted) = path.isEmpty ∨ (inner.lookup name).isSome then none
      else some (inner ++ [(name, .value data)]))
    .header path entries

/-- Opens the table of a header. One that was implied so far counts from here on. -/
def openTable (path : List String) (name : String) (entries : Entries) : Option Entries :=
  change false
    (fun _ inner =>
      match inner.lookup name with
      | none => some (inner ++ [(name, .table .header [])])
      | some (.table .implied below) => some (remove name inner ++ [(name, .table .header below)])
      | some _ => none)
    .header path entries

/-- Opens a further table of a header that stands for several. -/
def openNext (path : List String) (name : String) (entries : Entries) : Option Entries :=
  change false
    (fun _ inner =>
      match inner.lookup name with
      | none => some (inner ++ [(name, .tables [] [])])
      | some (.tables earlier last) =>
        some (replace name (.tables (earlier ++ [last]) []) inner)
      | some _ => none)
    .header path entries

/-- Changes the table that the last header opened. -/
def inOpened (f : Entries → Option Entries) (path : List String) (entries : Entries) :
    Option Entries :=
  change false (fun _ inner => f inner) .header path entries

end Entries

mutual
def Node.toData : Node → Data
  | .value data => data
  | .table _ entries => .record (Entries.toPairs entries)
  | .tables earlier last => .list (Entries.toRecords earlier ++ [.record (Entries.toPairs last)])

def Entries.toPairs : List (String × Node) → List (String × Data)
  | [] => []
  | (key, node) :: r => (key, node.toData) :: Entries.toPairs r

def Entries.toRecords : List (List (String × Node)) → List Data
  | [] => []
  | entries :: r => .record (Entries.toPairs entries) :: Entries.toRecords r
end

end NamingLint.Toml
