/-!
# Places in a text as editors count them

Lines and characters count from zero; characters are UTF-16 code units.
-/
namespace NamingLint

structure Position where
  line : Nat
  character : Nat
  deriving DecidableEq, Repr, Inhabited

structure Range where
  start : Position
  stop : Position
  deriving DecidableEq, Repr, Inhabited

end NamingLint
