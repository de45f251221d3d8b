/-!
# Message languages
-/
namespace NamingLint

inductive Locale where
  | en
  | ja
  deriving DecidableEq, Repr, Inhabited

namespace Locale

def code : Locale → String
  | en => "en"
  | ja => "ja"

def all : List Locale := [en, ja]

def ofCode? (code : String) : Option Locale :=
  all.find? (·.code == code)

/-- The language where none is given. -/
def standard : Locale := en

end Locale
end NamingLint
