/-!
# Patterns of ignore files

Patterns are matched against paths byte by byte. `*` and `?` stay within a component, `**`
crosses components, and braces hold alternatives.
-/
namespace NamingLint.Ignore

/-- A run of bytes in a class. -/
structure ByteRange where
  low : UInt8
  high : UInt8
  deriving DecidableEq, Repr

inductive Token where
  | literal (c : Char)
  | any
  | sequence
  /-- Any directories before the rest, or none. -/
  | leadingDirectories
  /-- Any directories between slashes, or one slash. -/
  | innerDirectories
  /-- All that is below a directory. -/
  | allBelow
  | oneOf (ranges : List ByteRange)
  | noneOf (ranges : List ByteRange)
  | alternatives (branches : List (List Token))
  deriving Repr

inductive PatternError where
  | reversedRange (low high : Char)
  | danglingEscape
  | unopenedGroup
  | unclosedGroup
  deriving DecidableEq, Repr

def PatternError.message : PatternError → String
  | reversedRange low high => s!"invalid range; '{low}' > '{high}'"
  | danglingEscape => "dangling '\\'"
  | unopenedGroup =>
    "unopened alternate group; missing '\x7b' (maybe escape '\x7d' with '[\x7d]'?)"
  | unclosedGroup =>
    "unclosed alternate group; missing '\x7d' (maybe escape '\x7b' with '[\x7b]'?)"

def bytesOf (c : Char) : List UInt8 :=
  c.toString.toUTF8.toList

/-- The bytes of a run of characters: a run of bytes from the last of the one end to the first of
the other, and the bytes around it. -/
def byteRanges (low high : Char) : List ByteRange :=
  if low = high then (bytesOf low).map fun b => ⟨b, b⟩
  else
    let before := (bytesOf low).dropLast.map fun b => ByteRange.mk b b
    let between := ⟨(bytesOf low).getLast?.getD 0, (bytesOf high).head?.getD 0⟩
    let after := (bytesOf high).tail.map fun b => ByteRange.mk b b
    before ++ between :: after

/-! ## Classes -/

/-- A class that is being read: its runs, last one first, and whether a dash has just been read
that may start a run. -/
structure ClassDraft where
  runs : List (Char × Char) := []
  dash : Bool := false

def ClassDraft.add (draft : ClassDraft) (c : Char) : Except PatternError ClassDraft :=
  match draft.dash, draft.runs with
  | true, (low, _) :: r =>
    if c < low then .error (.reversedRange low c) else .ok { runs := (low, c) :: r }
  | _, runs => .ok { runs := (c, c) :: runs }

/-- The runs of a finished class; a dash at its end is a member. -/
def ClassDraft.finish (draft : ClassDraft) : List ByteRange :=
  let runs := if draft.dash then ('-', '-') :: draft.runs else draft.runs
  runs.reverse.flatMap fun (low, high) => byteRanges low high

/-- The runs of a class behind its first member and its length with the closing bracket, or
`none` if it is not closed. -/
def classRest (draft : ClassDraft) (taken : Nat) :
    List Char → Except PatternError (Option (List ByteRange × Nat))
  | [] => .ok none
  | c :: r =>
    if c = ']' then .ok (some (draft.finish, taken + 1))
    else if c = '-' && !draft.dash then classRest { draft with dash := true } (taken + 1) r
    else do classRest (← draft.add c) (taken + 1) r

/-- The runs of a class behind its opening bracket and negation. The first character is a member
whatever it is. -/
def classBody : List Char → Except PatternError (Option (List ByteRange × Nat))
  | [] => .ok none
  | c :: r => classRest { runs := [(c, c)] } 1 r

/-! ## Patterns -/

/-- A pattern that is being read: the tokens of the branch at hand, last one first, and for each
open group the tokens before it and the branches that are finished, last ones first. -/
structure Draft where
  tokens : List Token := []
  outer : List (List Token × List (List Token)) := []
  /-- An unclosed class was met, so brackets stand for themselves. -/
  plainBrackets : Bool := false

namespace Draft

def push (draft : Draft) (token : Token) : Draft :=
  { draft with tokens := token :: draft.tokens }

def inGroup (draft : Draft) : Bool := !draft.outer.isEmpty

def openGroup (draft : Draft) : Draft :=
  { draft with tokens := [], outer := (draft.tokens, []) :: draft.outer }

def nextBranch (draft : Draft) : Draft :=
  match draft.outer with
  | [] => draft.push (.literal ',')
  | (before, branches) :: r =>
    { draft with tokens := [], outer := (before, draft.tokens.reverse :: branches) :: r }

def closeGroup (draft : Draft) : Except PatternError Draft :=
  match draft.outer with
  | [] => .error .unopenedGroup
  | (before, branches) :: r =>
    .ok { draft with
      tokens := .alternatives (draft.tokens.reverse :: branches).reverse :: before, outer := r }

/-- Puts a token for `**` in place of the slash before it; several in a row are one. -/
def pushDirectories (draft : Draft) (token : Token) : Draft :=
  match draft.tokens with
  | .leadingDirectories :: _ => draft
  | .allBelow :: _ => draft
  | _ :: r => { draft with tokens := token :: r }
  | [] => { draft with tokens := [token] }

/-- Reads `**`, where `r` is behind it: the draft and how many characters of `r` belong to it. It
stands for directories only as a component of its own; elsewhere it is two stars. -/
def pushDoubleStar (draft : Draft) (before : Option Char) (r : List Char) : Draft × Nat :=
  let twoStars := ((draft.push .sequence).push .sequence, 0)
  if draft.tokens.isEmpty then
    match r.head? with
    | none => (draft.push .leadingDirectories, 0)
    | some '/' => (draft.push .leadingDirectories, 1)
    | some _ => twoStars
  else if before = some '/' ∨ (draft.inGroup ∧ (before = some ',' ∨ before = some '\x7b')) then
    match r.head? with
    | none => (draft.pushDirectories .allBelow, 0)
    | some '/' => (draft.pushDirectories .innerDirectories, 1)
    | some c =>
      if draft.inGroup ∧ (c = ',' ∨ c = '\x7d') then (draft.pushDirectories .allBelow, 0)
      else twoStars
  else twoStars

/-- Reads a class or, if it is not closed, a plain bracket. -/
def pushClass (draft : Draft) (r : List Char) : Except PatternError (Draft × Nat) := do
  let negated := r.head? = some '!' ∨ r.head? = some '^'
  match ← classBody (if negated then r.tail else r) with
  | some (ranges, length) =>
    if negated then pure (draft.push (.noneOf ranges), length + 1)
    else pure (draft.push (.oneOf ranges), length)
  | none => pure ({ draft with plainBrackets := true }.push (.literal '['), 0)

/-- Reads what starts with `c`: the draft and how many characters of the rest `r` belong to it. -/
def add (draft : Draft) (before : Option Char) (c : Char) (r : List Char) :
    Except PatternError (Draft × Nat) :=
  match c with
  | '?' => .ok (draft.push .any, 0)
  | '*' =>
    if r.head? = some '*' then
      let (draft, more) := draft.pushDoubleStar before r.tail
      .ok (draft, more + 1)
    else .ok (draft.push .sequence, 0)
  | '[' => if draft.plainBrackets then .ok (draft.push (.literal '['), 0) else draft.pushClass r
  | '\x7b' => .ok (draft.openGroup, 0)
  | '\x7d' => do pure (← draft.closeGroup, 0)
  | ',' => .ok (draft.nextBranch, 0)
  | '\\' =>
    match r with
    | [] => .error .danglingEscape
    | e :: _ => .ok (draft.push (.literal e), 1)
  | c => .ok (draft.push (.literal c), 0)

/-- Reads the rest of a pattern; `before` is the character before it. -/
def read (draft : Draft) (before : Option Char) : List Char → Except PatternError Draft
  | [] => .ok draft
  | c :: r => do
    let (next, more) ← draft.add before c r
    next.read ((c :: r.take more).getLast?) (r.drop more)
termination_by cs => cs.length
decreasing_by simp only [List.length_drop, List.length_cons]; omega

end Draft

def parsePattern (text : List Char) : Except PatternError (List Token) := do
  let draft ← ({} : Draft).read none text
  if draft.inGroup then .error .unclosedGroup else pure draft.tokens.reverse

/-! ## Matching -/

def slash : UInt8 := '/'.toUInt8

def anyInRanges (ranges : List ByteRange) (b : UInt8) : Bool :=
  ranges.any fun range => range.low ≤ b && b ≤ range.high

/-- What is left of some bytes behind a byte of a class. -/
def restOfByte (admits : UInt8 → Bool) : List UInt8 → List (List UInt8)
  | [] => []
  | b :: r => if admits b then [r] else []

/-- What is left behind a run of bytes of a class, a run of none included. -/
def restsOfRun (admits : UInt8 → Bool) : List UInt8 → List (List UInt8)
  | [] => [[]]
  | b :: r => (b :: r) :: (if admits b then restsOfRun admits r else [])

def restsOfSlashes : List UInt8 → List (List UInt8)
  | [] => []
  | b :: r => if b = slash then r :: restsOfSlashes r else restsOfSlashes r

mutual
/-- Whether a token says nothing: a group of branches that say nothing. -/
def Token.isVoid : Token → Bool
  | .alternatives branches => areVoidBranches branches
  | _ => false

def areVoid : List Token → Bool
  | [] => true
  | t :: ts => t.isVoid && areVoid ts

def areVoidBranches : List (List Token) → Bool
  | [] => true
  | ts :: r => areVoid ts && areVoidBranches r
end

mutual
/-- What can be left of some bytes behind a token. Of a group, branches that say nothing are left
out. -/
def Token.rests : Token → List UInt8 → List (List UInt8)
  | .literal c, bs => ((bytesOf c).isPrefixOf? bs).toList
  | .any, bs => restOfByte (· ≠ slash) bs
  | .sequence, bs => restsOfRun (· ≠ slash) bs
  | .leadingDirectories, bs => bs :: restsOfSlashes bs
  | .innerDirectories, bs => (restOfByte (· = slash) bs).flatMap fun r => r :: restsOfSlashes r
  | .allBelow, bs => (restOfByte (· = slash) bs).flatMap (restsOfRun fun _ => true)
  | .oneOf ranges, bs => restOfByte (anyInRanges ranges) bs
  | .noneOf ranges, bs => restOfByte (fun b => !anyInRanges ranges b) bs
  | .alternatives branches, bs =>
    if areVoidBranches branches then [bs] else restsOfAny branches bs

def restsOfTokens : List Token → List UInt8 → List (List UInt8)
  | [], bs => [bs]
  | t :: ts, bs => (t.rests bs).flatMap (restsOfTokens ts)

def restsOfAny : List (List Token) → List UInt8 → List (List UInt8)
  | [], _ => []
  | ts :: r, bs => (if areVoid ts then [] else restsOfTokens ts bs) ++ restsOfAny r bs
end

/-- Whether a pattern matches the whole of a path. A lone `**` matches every path. -/
def admits (pattern : List Token) (path : String) : Bool :=
  match pattern with
  | [.leadingDirectories] => true
  | _ => (restsOfTokens pattern path.toUTF8.toList).any List.isEmpty

end NamingLint.Ignore
