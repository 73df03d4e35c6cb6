import QueryCompiler.DataType
import QueryCompiler.Numeric.Shortest
import QueryCompiler.Text.Quoted

/-!
# Values

The values of literals and parameters, which builtin types accept them, their equality and their two
texts: a short one for people, and a structural one that tells any two values apart and goes into
cache keys.
-/

namespace QueryCompiler

/-- A value. Decimals keep their text; the entries of a map are in ascending key order. -/
inductive Value where
  | null
  | bool (b : Bool)
  | integer (i : Int64)
  | float (x : Binary64)
  | decimal (text : String)
  | string (s : String)
  | binary (bytes : List UInt8)
  /-- Days since the epoch. -/
  | date (days : Int32)
  /-- Microseconds since midnight. -/
  | time (micros : Int64)
  /-- Microseconds since the epoch. -/
  | timestamp (micros : Int64)
  | list (items : List Value)
  | map (entries : List (String × Value))
  deriving Inhabited

/-- One row of a values table. -/
abbrev Row := SortedMap Value

namespace Value

def isNull : Value → Bool
  | null => true
  | _ => false

def string? : Value → Option String
  | string s => some s
  | _ => none

def list? : Value → Option (List Value)
  | list items => some items
  | _ => none

/-- The builtin type that a value has by itself; nulls and lists have none. -/
def dataType : Value → Option DataType
  | null => none
  | list _ => none
  | bool _ => some .boolean
  | integer _ => some .integer
  | float _ => some .float
  | decimal _ => some .decimal
  | string _ => some .string
  | binary _ => some .binary
  | date _ => some .date
  | time _ => some .time
  | timestamp _ => some .naiveDatetime
  | map _ => some .map

/-!
### Equality

Values are equal when they have the same shape and their floats are equal as numbers, so that
not-a-number makes a value differ from itself.
-/

mutual

def same : Value → Value → Bool
  | null, null => true
  | bool a, bool b => a == b
  | integer a, integer b => a == b
  | float a, float b => a.equals b
  | decimal a, decimal b => a == b
  | string a, string b => a == b
  | binary a, binary b => a == b
  | date a, date b => a == b
  | time a, time b => a == b
  | timestamp a, timestamp b => a == b
  | list a, list b => sameAll a b
  | map a, map b => sameEntries a b
  | _, _ => false

def sameAll : List Value → List Value → Bool
  | [], [] => true
  | a :: as, b :: bs => a.same b && sameAll as bs
  | _, _ => false

def sameEntries : List (String × Value) → List (String × Value) → Bool
  | [], [] => true
  | (k, a) :: as, (l, b) :: bs => k == l && a.same b && sameEntries as bs
  | _, _ => false

end

/-! ### Texts -/

mutual

/-- The short text. -/
def text : Value → String
  | null => "nil"
  | bool b => if b then "true" else "false"
  | integer i => toString i.toInt
  | float x => x.text
  | decimal d => d ++ "d"
  | string s => quoted s
  | binary bytes => "<<" ++ ",".intercalate (bytes.map fun b => toString b.toNat) ++ ">>"
  | date d => "date:" ++ toString d.toInt
  | time t => "time:" ++ toString t.toInt
  | timestamp t => "ts:" ++ toString t.toInt
  | list items => "[" ++ ",".intercalate (textAll items) ++ "]"
  | map entries => "%\x7b" ++ ",".intercalate (textEntries entries) ++ "\x7d"

def textAll : List Value → List String
  | [] => []
  | v :: vs => v.text :: textAll vs

def textEntries : List (String × Value) → List String
  | [] => []
  | (k, v) :: rest => (quoted k ++ "=>" ++ v.text) :: textEntries rest

end

mutual

/-- The characters of the structural text, which names the kind of every value. -/
def shape : Value → List Char
  | null => "Null".toList
  | bool b => "Bool(".toList ++ (if b then "true" else "false").toList ++ [')']
  | integer i => "Integer(".toList ++ (toString i.toInt).toList ++ [')']
  | float x => "Float(".toList ++ x.text.toList ++ [')']
  | decimal d => "Decimal(".toList ++ (quoted d).toList ++ [')']
  | string s => "String(".toList ++ (quoted s).toList ++ [')']
  | binary bytes =>
    "Binary([".toList ++ (", ".toList).intercalate (bytes.map fun b => (toString b.toNat).toList) ++
      "])".toList
  | date d => "Date(".toList ++ (toString d.toInt).toList ++ [')']
  | time t => "Time(".toList ++ (toString t.toInt).toList ++ [')']
  | timestamp t => "Timestamp(".toList ++ (toString t.toInt).toList ++ [')']
  | list items => "List([".toList ++ (", ".toList).intercalate (shapeAll items) ++ "])".toList
  | map entries =>
    "Map(\x7b".toList ++ (", ".toList).intercalate (shapeEntries entries) ++ "\x7d)".toList

def shapeAll : List Value → List (List Char)
  | [] => []
  | v :: vs => v.shape :: shapeAll vs

def shapeEntries : List (String × Value) → List (List Char)
  | [] => []
  | (k, v) :: rest => ((quoted k).toList ++ ": ".toList ++ v.shape) :: shapeEntries rest

end

end Value

/-! ### Acceptance -/

/--
Whether a value can be bound to a type: null to every type, and whole numbers and floats also to
wider types.
-/
def DataType.accepts : DataType → Value → Bool
  | _, .null => true
  | .any, _ => true
  | .id, .integer _ => true
  | .integer, .integer _ => true
  | .float, .integer _ => true
  | .float, .float _ => true
  | .decimal, .integer _ => true
  | .decimal, .float _ => true
  | .decimal, .decimal _ => true
  | .boolean, .bool _ => true
  | .string, .string _ => true
  | .binaryId, .string _ => true
  | .binaryId, .binary _ => true
  | .binary, .binary _ => true
  | .date, .date _ => true
  | .time, .time _ => true
  | .timeUsec, .time _ => true
  | .naiveDatetime, .timestamp _ => true
  | .naiveDatetimeUsec, .timestamp _ => true
  | .utcDatetime, .timestamp _ => true
  | .utcDatetimeUsec, .timestamp _ => true
  | .map, .map _ => true
  | _, _ => false

end QueryCompiler
