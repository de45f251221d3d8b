import NamingLint.Text.Unprintable

/-!
# Quoted text in events

A text is quoted so that it stays on one line: quotes and backslashes are escaped, and every
character that cannot be shown is written by its number.
-/
namespace NamingLint.Text

/-- The characters that a quoted text escapes by a backslash alone. -/
structure QuoteStyle where
  escaped : List Char

/-- The style for plain texts. -/
def QuoteStyle.text : QuoteStyle := ⟨['"', '\\']⟩

/-- The style for paths, which escapes apostrophes too. -/
def QuoteStyle.path : QuoteStyle := ⟨['"', '\\', '\x27']⟩

def hex (n : Nat) : String :=
  String.ofList (Nat.toDigits 16 n)

def quoteChar (style : QuoteStyle) (c : Char) : String :=
  if style.escaped.contains c then String.ofList ['\\', c]
  else if c = '\n' then "\\n"
  else if c = '\r' then "\\r"
  else if c = '\t' then "\\t"
  else if c = '\x00' then "\\0"
  else if isUnprintable c then "\\u\x7b" ++ hex c.toNat ++ "\x7d"
  else c.toString

def quote (style : QuoteStyle) (text : String) : String :=
  "\"" ++ String.join (text.toList.map (quoteChar style)) ++ "\""

end NamingLint.Text
