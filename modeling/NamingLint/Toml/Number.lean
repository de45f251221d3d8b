import NamingLint.Data
import NamingLint.Toml.Quoted

/-!
# Numbers of settings files

Digits may be grouped by single underscores. Integers have 64 bits; a real must not exceed the
largest double of the format.
-/
namespace NamingLint.Toml
open Reader

/-- Digits of a class, grouped by single underscores. -/
def digitGroups (isDigit : Char → Bool) : Reader (List Char) :=
  List.flatten <$> separated (someCharsWhere isDigit) (char '_')

def sign : Reader (List Char) := do
  match ← optional (charWhere fun c => c = '+' || c = '-') with
  | some c => pure [c]
  | none => pure []

/-- Decimal digits that do not start with a superfluous zero. -/
def wholeDigits : Reader (List Char) :=
  (do
    lookingAt fun cs => cs.head? ≠ some '0'
    digitGroups Char.isDigit) <|>
  (do char '0'; pure ['0'])

/-- An integer in the range of 64 bits with a sign. -/
def inRange (n : Int) : Reader Data :=
  if Int64.minValue.toInt ≤ n ∧ n ≤ Int64.maxValue.toInt then pure (.integer n) else failure

def decimalInteger : Reader Data := do
  let s ← sign
  let n : Int := numberOf 10 (← wholeDigits)
  inRange (if s = ['-'] then -n else n)

/-- An integer behind the mark of its base. -/
def basedInteger (mark : Char) (base : Nat) (isDigit : Char → Bool) : Reader Data := do
  char '0'
  char mark
  inRange (numberOf base (← digitGroups isDigit))

def integer : Reader Data :=
  basedInteger 'x' 16 isHexDigit <|>
  basedInteger 'o' 8 (fun c => '0' ≤ c && c ≤ '7') <|>
  basedInteger 'b' 2 (fun c => c = '0' || c = '1') <|>
  decimalInteger

/-- Reals from here on round to infinity. -/
def realLimit : Nat := Nat.pow 2 1024 - Nat.pow 2 970

/-- Whether the decimal `whole.fraction` times a power of ten is at least `realLimit`, which has
309 digits before the point. -/
def exceedsReal (whole fraction : List Char) (exponent : Int) : Bool :=
  let digits := (whole ++ fraction).dropWhile (· = '0')
  let shift := exponent - fraction.length
  let magnitude := digits.length + shift
  if digits.isEmpty ∨ magnitude < 309 then false
  else if 309 < magnitude then true
  else realLimit * Nat.pow 10 (-shift).toNat ≤ numberOf 10 digits * Nat.pow 10 shift.toNat

/-- An exponent: its spelling and its value. -/
def exponentPart : Reader (List Char × Int) := do
  let e ← charWhere fun c => c = 'e' || c = 'E'
  let s ← sign
  let digits ← digitGroups Char.isDigit
  let n : Int := numberOf 10 digits
  pure (e :: s ++ digits, if s = ['-'] then -n else n)

def fractionPart : Reader (List Char) := do
  char '.'
  digitGroups Char.isDigit

/-- A decimal with a fraction, an exponent or both. -/
def decimalReal : Reader Data := do
  let s ← sign
  let whole ← wholeDigits
  let fraction ← optional fractionPart
  let exponent ← optional exponentPart
  if fraction.isNone ∧ exponent.isNone then failure
  else
    let (spelling, value) := exponent.getD ([], 0)
    if s ≠ ['-'] ∧ exceedsReal whole (fraction.getD []) value then failure
    else
      let point := (fraction.map ('.' :: ·)).getD []
      pure (.real (String.ofList (s ++ whole ++ point ++ spelling)))

/-- Infinity and "not a number". -/
def specialReal : Reader Data := do
  let s ← sign
  let name ← (do word "inf".toList; pure "inf") <|> (do word "nan".toList; pure "nan")
  pure (.real (String.ofList s ++ name))

def real : Reader Data := decimalReal <|> specialReal

end NamingLint.Toml
