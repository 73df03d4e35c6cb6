import QueryCompiler.Text.Unprintable

/-!
# Quoted text

A text between double quotes in which the quote, the backslash and every character that is not
printed as itself are escaped: the common controls by a letter, the others as `\u` with their code
point in hexadecimal between braces.
-/

namespace QueryCompiler

/-- A code point in lowercase hexadecimal. -/
def hexDigits (n : Nat) : List Char := Nat.toDigits 16 n

/-- How a character stands inside quotes. -/
def escapeChar (c : Char) : List Char :=
  if c = '"' then ['\\', '"']
  else if c = '\\' then ['\\', '\\']
  else if c = '\x00' then ['\\', '0']
  else if c = '\t' then ['\\', 't']
  else if c = '\n' then ['\\', 'n']
  else if c = '\r' then ['\\', 'r']
  else if isUnprintable c then ['\\', 'u', '\x7b'] ++ hexDigits c.toNat ++ ['\x7d']
  else [c]

/-- The characters of a text inside quotes. -/
def escapeChars (cs : List Char) : List Char := cs.flatMap escapeChar

/-- A text in quotes. -/
def quoted (s : String) : String := "\"" ++ String.ofList (escapeChars s.toList) ++ "\""

end QueryCompiler
