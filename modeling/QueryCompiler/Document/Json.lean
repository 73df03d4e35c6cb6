import QueryCompiler.Document
import QueryCompiler.Numeric.Shortest

/-!
# Documents as JSON text

A number is whole if it is written without point, exponent and negative zero and fits into 64 bits
with or without sign; every other number is a float. Of two members with one key the later counts.
Numbers that are not finite are written as null.
-/

namespace QueryCompiler

namespace Document

/-! ### Reading -/

def isBlank (c : Char) : Bool := c == ' ' || c == '\t' || c == '\n' || c == '\r'

def skipBlanks (cs : List Char) : List Char := cs.dropWhile isBlank

def hexValue? (c : Char) : Option Nat :=
  if '0' ≤ c ∧ c ≤ '9' then some (c.toNat - '0'.toNat)
  else if 'a' ≤ c ∧ c ≤ 'f' then some (c.toNat - 'a'.toNat + 10)
  else if 'A' ≤ c ∧ c ≤ 'F' then some (c.toNat - 'A'.toNat + 10)
  else none

/-- The number that four hexadecimal digits write. -/
def hex4? (a b c d : Char) : Option Nat := do
  return (← hexValue? a) * 4096 + (← hexValue? b) * 256 + (← hexValue? c) * 16 + (← hexValue? d)

/-- What a letter after a backslash stands for. -/
def unescape? (c : Char) : Option Char :=
  match c with
  | '"' => some '"'
  | '\\' => some '\\'
  | '/' => some '/'
  | 'b' => some '\x08'
  | 'f' => some '\x0c'
  | 'n' => some '\n'
  | 'r' => some '\r'
  | 't' => some '\t'
  | _ => none

/--
The characters of a string after its first quote, in reverse before `acc`, and what follows its last
quote. A character beyond 16 bits may be written as two surrogates; `high` is the first of them
while the second is awaited.
-/
def readChars (acc : List Char) (high : Option Nat) : List Char → Option (List Char × List Char)
  | '"' :: rest => if high.isSome then none else some (acc, rest)
  | '\\' :: 'u' :: a :: b :: c :: d :: rest => match hex4? a b c d, high with
    | none, _ => none
    | some n, some h =>
      if 0xDC00 ≤ n ∧ n < 0xE000 then
        readChars (Char.ofNat (0x10000 + (h - 0xD800) * 0x400 + (n - 0xDC00)) :: acc) none rest
      else none
    | some n, none =>
      if 0xD800 ≤ n ∧ n < 0xDC00 then readChars acc (some n) rest
      else if 0xDC00 ≤ n ∧ n < 0xE000 then none
      else readChars (Char.ofNat n :: acc) none rest
  | '\\' :: c :: rest => match unescape? c, high with
    | some c, none => readChars (c :: acc) none rest
    | _, _ => none
  | c :: rest => if high.isSome || c.toNat < 32 then none else readChars (c :: acc) none rest
  | [] => none

def readString (cs : List Char) : Option (String × List Char) := do
  let (chars, rest) ← readChars [] none cs
  return (String.ofList chars.reverse, rest)

def isNumberChar (c : Char) : Bool :=
  c.isDigit || c == '-' || c == '+' || c == '.' || c == 'e' || c == 'E'

/-- The float that the characters of an unsigned number write. -/
def asFloat (negative : Bool) (digits : List Char) : Option Document :=
  (Decimal.readUnsigned digits).map fun d => float (d.toBinary64 negative)

/-- A number by its characters. -/
def ofNumber (cs : List Char) : Option Document :=
  let (negative, digits) := match cs with
    | '-' :: digits => (true, digits)
    | digits => (false, digits)
  let whole := digits.takeWhile Char.isDigit
  let rest := digits.dropWhile Char.isDigit
  if whole.isEmpty || (whole.length > 1 && whole.head? == some '0') then none
  else
    let n : Int := Decimal.ofDigits 0 whole
    let i := if negative then -n else n
    let fits := -0x8000000000000000 ≤ i && i < 0x10000000000000000
    if rest.isEmpty && fits && !(negative && n == 0) then some (integer i)
    else match rest with
      | ['.'] => none
      | '.' :: c :: _ => if c.isDigit then asFloat negative digits else none
      | _ => asFloat negative digits

mutual

/-- A document at the start of a text, and what follows it. -/
def readValue : Nat → List Char → Option (Document × List Char)
  | 0, _ => none
  | fuel + 1, cs => match skipBlanks cs with
    | 'n' :: 'u' :: 'l' :: 'l' :: rest => some (null, rest)
    | 't' :: 'r' :: 'u' :: 'e' :: rest => some (bool true, rest)
    | 'f' :: 'a' :: 'l' :: 's' :: 'e' :: rest => some (bool false, rest)
    | '"' :: rest => (readString rest).map fun (s, rest) => (string s, rest)
    | '[' :: rest => match skipBlanks rest with
      | ']' :: rest => some (array [], rest)
      | rest => (readItems fuel rest).map fun (items, rest) => (array items, rest)
    | '\x7b' :: rest => match skipBlanks rest with
      | '\x7d' :: rest => some (object [], rest)
      | rest =>
        (readMembers .empty fuel rest).map fun (members, rest) => (object members.entries, rest)
    | rest => (ofNumber (rest.takeWhile isNumberChar)).map fun d => (d, rest.dropWhile isNumberChar)

/-- The items of an array that is not empty, up to its end. -/
def readItems : Nat → List Char → Option (List Document × List Char)
  | 0, _ => none
  | fuel + 1, cs => do
    let (d, rest) ← readValue fuel cs
    match skipBlanks rest with
    | ',' :: rest => (readItems fuel rest).map fun (items, rest) => (d :: items, rest)
    | ']' :: rest => some ([d], rest)
    | _ => none

/-- The members of an object that is not empty, up to its end, added to those before. -/
def readMembers (members : SortedMap Document) :
    Nat → List Char → Option (SortedMap Document × List Char)
  | 0, _ => none
  | fuel + 1, cs => match skipBlanks cs with
    | '"' :: rest => do
      let (key, rest) ← readString rest
      match skipBlanks rest with
      | ':' :: rest => do
        let (d, rest) ← readValue fuel rest
        let members := members.insert key d
        match skipBlanks rest with
        | ',' :: rest => readMembers members fuel rest
        | '\x7d' :: rest => some (members, rest)
        | _ => none
      | _ => none
    | _ => none

end

/--
The document that a text writes, if it is the whole text. Every step of reading takes a character or
is the last.
-/
def ofJson? (text : String) : Option Document :=
  let cs := text.toList
  match readValue (2 * cs.length + 2) cs with
  | some (d, rest) => if (skipBlanks rest).isEmpty then some d else none
  | none => none

/-! ### Writing -/

def jsonChar (c : Char) : List Char :=
  if c = '"' then ['\\', '"']
  else if c = '\\' then ['\\', '\\']
  else if c.toNat < 32 then
    let digits := Nat.toDigits 16 c.toNat
    ['\\', 'u'] ++ List.replicate (4 - digits.length) '0' ++ digits
  else [c]

def jsonString (s : String) : String := "\"" ++ String.ofList (s.toList.flatMap jsonChar) ++ "\""

mutual

/-- Writes a document behind a text. -/
def writeJson (acc : String) : Document → String
  | null => acc ++ "null"
  | bool b => acc ++ (if b then "true" else "false")
  | integer i => acc ++ toString i
  | float x => match x with
    | .finite _ _ _ => acc ++ x.text
    | _ => acc ++ "null"
  | string s => acc ++ jsonString s
  | array items => writeItems (acc ++ "[") true items ++ "]"
  | object members => writeMembers (acc ++ "\x7b") true members ++ "\x7d"

def writeItems (acc : String) (first : Bool) : List Document → String
  | [] => acc
  | d :: rest => writeItems (writeJson (if first then acc else acc ++ ",") d) false rest

def writeMembers (acc : String) (first : Bool) : List (String × Document) → String
  | [] => acc
  | (key, d) :: rest =>
    let acc := if first then acc else acc ++ ","
    writeMembers (writeJson (acc ++ jsonString key ++ ":") d) false rest

end

/-- A document as JSON text. -/
def json (d : Document) : String := writeJson "" d

end Document

end QueryCompiler
