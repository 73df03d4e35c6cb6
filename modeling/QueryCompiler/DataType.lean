import QueryCompiler.SortedMap

/-!
# Types

The builtin types that fields, casts and parameters may have, descriptors of types that only the
backend knows, and the types that a cast resolves to.
-/

namespace QueryCompiler

inductive DataType where
  | id
  | binaryId
  | integer
  | float
  | boolean
  | string
  | binary
  | decimal
  | map
  | date
  | time
  | timeUsec
  | naiveDatetime
  | naiveDatetimeUsec
  | utcDatetime
  | utcDatetimeUsec
  | any
  deriving DecidableEq, Inhabited

namespace DataType

/-- Every builtin type, in the order in which they are listed. -/
def all : List DataType :=
  [id, binaryId, integer, float, boolean, string, binary, decimal, map, date, time, timeUsec,
    naiveDatetime, naiveDatetimeUsec, utcDatetime, utcDatetimeUsec, any]

/-- The name that cast targets use. -/
def name : DataType → String
  | id => "id"
  | binaryId => "binary_id"
  | integer => "integer"
  | float => "float"
  | boolean => "boolean"
  | string => "string"
  | binary => "binary"
  | decimal => "decimal"
  | map => "map"
  | date => "date"
  | time => "time"
  | timeUsec => "time_usec"
  | naiveDatetime => "naive_datetime"
  | naiveDatetimeUsec => "naive_datetime_usec"
  | utcDatetime => "utc_datetime"
  | utcDatetimeUsec => "utc_datetime_usec"
  | any => "any"

def ofName? (name : String) : Option DataType := all.find? fun t => t.name == name

theorem ofName?_name (t : DataType) : ofName? t.name = some t := by cases t <;> decide

def isNumeric : DataType → Bool
  | id | integer | float | decimal => true
  | _ => false

/-- Whether a type holds dates, times of day or timestamps. -/
def isTemporal : DataType → Bool
  | date | time | timeUsec | naiveDatetime | naiveDatetimeUsec | utcDatetime | utcDatetimeUsec =>
    true
  | _ => false

end DataType

/-- A type that is described to the backend and not looked into. -/
structure TypeDescriptor where
  name : String
  params : SortedMap String
  deriving DecidableEq, Inhabited

/-- The type that a cast, a parameter or a values column ends up with. -/
inductive ResolvedType where
  | builtin (type : DataType)
  | array (element : DataType)
  | parameterized (descriptor : TypeDescriptor)
  deriving DecidableEq, Inhabited

namespace ResolvedType

/-- The builtin type, if this is one. -/
def builtin? : ResolvedType → Option DataType
  | builtin t => some t
  | _ => none

/--
The text of a type: a name, `{array,name}`, or a descriptor's name with its parameters in key order.
-/
def text : ResolvedType → String
  | builtin t => t.name
  | array t => "\x7barray," ++ t.name ++ "\x7d"
  | parameterized d =>
    d.name ++ "(" ++ ",".intercalate (d.params.entries.map fun e => e.1 ++ "=" ++ e.2) ++ ")"

end ResolvedType

end QueryCompiler
