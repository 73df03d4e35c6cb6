import QueryCompiler.SortedMap
import QueryCompiler.Numeric.Decimal

/-!
# Documents

The trees in which queries are handed on: nulls, booleans, whole numbers, floats, strings, arrays,
and objects with their members in ascending order of the keys.
-/

namespace QueryCompiler

inductive Document where
  | null
  | bool (b : Bool)
  | integer (i : Int)
  | float (x : Binary64)
  | string (s : String)
  | array (items : List Document)
  | object (members : List (String × Document))
  deriving Inhabited

namespace Document

/-! ### Building -/

def nat (n : Nat) : Document := integer n

def strings (ss : List String) : Document := array (ss.map string)

/-- An object with one member, as which a constructor with arguments is written. -/
def tagged (tag : String) (content : Document) : Document := object [(tag, content)]

def option {α : Type} (write : α → Document) : Option α → Document
  | some a => write a
  | none => null

/-! ### Taking apart -/

def bool? : Document → Option Bool
  | bool b => some b
  | _ => none

def string? : Document → Option String
  | string s => some s
  | _ => none

def array? : Document → Option (List Document)
  | array items => some items
  | _ => none

def object? : Document → Option (List (String × Document))
  | object members => some members
  | _ => none

def strings? (d : Document) : Option (List String) := do (← d.array?).mapM string?

/-- A whole number from `low` on and below `high`. -/
def integerIn? (low high : Int) : Document → Option Int
  | integer i => if low ≤ i ∧ i < high then some i else none
  | _ => none

def int64? (d : Document) : Option Int64 :=
  (d.integerIn? (-0x8000000000000000) 0x8000000000000000).map Int64.ofInt

def int32? (d : Document) : Option Int32 := (d.integerIn? (-0x80000000) 0x80000000).map Int32.ofInt

def byte? (d : Document) : Option UInt8 := (d.integerIn? 0 0x100).map fun i => UInt8.ofNat i.toNat

def uint32? (d : Document) : Option UInt32 :=
  (d.integerIn? 0 0x100000000).map fun i => UInt32.ofNat i.toNat

/-- A count or position, of 64 bits. -/
def nat? (d : Document) : Option Nat := (d.integerIn? 0 0x10000000000000000).map Int.toNat

/-- A float; whole numbers count as floats. -/
def float? : Document → Option Binary64
  | float x => some x
  | integer i => some (.ofInt i)
  | _ => none

/-- The member of an object with that key. -/
def member? (d : Document) (key : String) : Option Document := do findEntry key (← d.object?)

/-- A member that must be there. -/
def required {α : Type} (read : Document → Option α) (d : Document) (key : String) : Option α := do
  read (← d.member? key)

/-- A member that may be missing or null. -/
def optional {α : Type} (read : Document → Option α) (d : Document) (key : String) :
    Option (Option α) := do
  match findEntry key (← d.object?) with
  | none => some none
  | some null => some none
  | some content => (read content).map some

/-- A member that may be missing but not null, with what stands for it then. -/
def withDefault {α : Type} (read : Document → Option α) (d : Document) (key : String) (value : α) :
    Option α := do
  match findEntry key (← d.object?) with
  | none => some value
  | some content => read content

/-- The tag and the content of an object with one member. -/
def tagged? : Document → Option (String × Document)
  | object [(tag, content)] => some (tag, content)
  | _ => none

/-- The name of a constructor without arguments: a string, or a tag with nothing. -/
def name? : Document → Option String
  | string s => some s
  | object [(tag, null)] => some tag
  | _ => none

/-- One of several values by its name. -/
def oneOf? {α : Type} (name : α → String) (all : List α) (d : Document) : Option α := do
  let written ← d.name?
  all.find? fun a => name a == written

/-- Every item of an array. -/
def arrayOf? {α : Type} (read : Document → Option α) (d : Document) : Option (List α) := do
  (← d.array?).mapM read

/-- Every member of an object, as a map. -/
def mapOf? {α : Type} (read : Document → Option α) (d : Document) : Option (SortedMap α) := do
  let entries ← (← d.object?).mapM fun (key, content) => do return (key, ← read content)
  return .ofList entries

mutual

/-- How deep arrays and objects are nested. -/
def depth : Document → Nat
  | array items => depthAll items + 1
  | object members => depthMembers members + 1
  | _ => 0

def depthAll : List Document → Nat
  | [] => 0
  | d :: rest => max d.depth (depthAll rest)

def depthMembers : List (String × Document) → Nat
  | [] => 0
  | (_, d) :: rest => max d.depth (depthMembers rest)

end

end Document

end QueryCompiler
