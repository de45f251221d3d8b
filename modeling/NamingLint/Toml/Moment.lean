import NamingLint.Data
import NamingLint.Toml.Quoted

/-!
# Dates and times of settings files
-/
namespace NamingLint.Toml
open Reader

/-- A number of exactly `count` digits between two bounds, with its spelling. -/
def digitsBetween (count low high : Nat) : Reader (List Char) := do
  let digits ← exactly count (charWhere Char.isDigit)
  let n := numberOf 10 digits
  if low ≤ n ∧ n ≤ high then pure digits else failure

def isLeapYear (year : Nat) : Bool :=
  (year % 4 = 0 && year % 100 ≠ 0) || year % 400 = 0

def daysIn (year month : Nat) : Nat :=
  if month = 2 then (if isLeapYear year then 29 else 28)
  else if month = 4 ∨ month = 6 ∨ month = 9 ∨ month = 11 then 30
  else 31

def date : Reader (List Char) := do
  let year ← digitsBetween 4 0 9999
  char '-'
  let month ← digitsBetween 2 1 12
  char '-'
  let day ← digitsBetween 2 1 (daysIn (numberOf 10 year) (numberOf 10 month))
  pure (year ++ '-' :: month ++ '-' :: day)

/-- A time of day; the second may be a leap second. -/
def time : Reader (List Char) := do
  let hour ← digitsBetween 2 0 23
  char ':'
  let minute ← digitsBetween 2 0 59
  char ':'
  let second ← digitsBetween 2 0 60
  let fraction ← optional (do char '.'; someCharsWhere Char.isDigit)
  pure (hour ++ ':' :: minute ++ ':' :: second ++ (fraction.map ('.' :: ·)).getD [])

/-- The distance from universal time. -/
def offset : Reader (List Char) :=
  (do let z ← charWhere (fun c => c = 'Z' || c = 'z'); pure [z]) <|>
  (do
    let s ← charWhere fun c => c = '+' || c = '-'
    let hour ← digitsBetween 2 0 23
    char ':'
    let minute ← digitsBetween 2 0 59
    pure (s :: hour ++ ':' :: minute))

def timeOfDate : Reader (List Char) := do
  let mark ← charWhere fun c => c = 'T' || c = 't' || c = ' '
  let t ← time
  let o ← optional offset
  pure (mark :: t ++ o.getD [])

def moment : Reader Data :=
  (do
    let d ← date
    let t ← optional timeOfDate
    pure (.moment (String.ofList (d ++ t.getD [])))) <|>
  (do pure (.moment (String.ofList (← time))))

end NamingLint.Toml
