/-!
# Byte offsets and code units of a text

A text is a list of characters. Syntax trees address it by UTF-8 byte offsets, editors by
UTF-16 code units, and an offset inside a character addresses nothing.
-/
namespace NamingLint.Text

def units16 (c : Char) : Nat :=
  if c.toNat < 0x10000 then 1 else 2

def byteLength : List Char → Nat
  | [] => 0
  | c :: r => c.utf8Size + byteLength r

def unitLength : List Char → Nat
  | [] => 0
  | c :: r => units16 c + unitLength r

/-- The text from byte `n` on, unless `n` is inside a character or past the end. -/
def dropBytes? : Nat → List Char → Option (List Char)
  | 0, r => some r
  | _ + 1, [] => none
  | n + 1, c :: r => if c.utf8Size ≤ n + 1 then dropBytes? (n + 1 - c.utf8Size) r else none

/-- The first `n` bytes of a text, unless `n` is inside a character or past the end. -/
def takeBytes? : Nat → List Char → Option (List Char)
  | 0, _ => some []
  | _ + 1, [] => none
  | n + 1, c :: r =>
    if c.utf8Size ≤ n + 1 then (takeBytes? (n + 1 - c.utf8Size) r).map (c :: ·) else none

/-- The characters between two byte offsets, if both are character boundaries in order. -/
def slice? (start stop : Nat) (text : List Char) : Option (List Char) :=
  if start ≤ stop then (dropBytes? start text).bind (takeBytes? (stop - start)) else none

/-- The characters that begin before byte `n`. -/
def charsBefore : Nat → List Char → List Char
  | _, [] => []
  | 0, _ :: _ => []
  | n + 1, c :: r => c :: charsBefore (n + 1 - c.utf8Size) r

/-- The number of newline characters before a byte offset. -/
def row (offset : Nat) (text : List Char) : Nat :=
  (charsBefore offset text).count '\n'

/-- The number of bytes between the last newline before a byte offset and that offset. -/
def column (offset : Nat) (text : List Char) : Nat :=
  byteLength ((charsBefore offset text).reverse.takeWhile (· ≠ '\n'))

/-- Whether the character that ends at byte `stop` is `c`, an ASCII character. -/
def endsWithAt (c : Char) (stop : Nat) (text : List Char) : Bool :=
  match stop with
  | 0 => false
  | n + 1 => ((dropBytes? n text).bind List.head?) == some c

theorem byteLength_append (s t : List Char) :
    byteLength (s ++ t) = byteLength s + byteLength t := by
  induction s with
  | nil => simp [byteLength]
  | cons c s ih => simp [byteLength, ih, Nat.add_assoc]

theorem unitLength_append (s t : List Char) :
    unitLength (s ++ t) = unitLength s + unitLength t := by
  induction s with
  | nil => simp [unitLength]
  | cons c s ih => simp [unitLength, ih, Nat.add_assoc]

end NamingLint.Text
