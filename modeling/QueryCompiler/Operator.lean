import QueryCompiler.DataType

/-!
# Operators, aggregates and interval units

The fixed vocabularies of expressions, with the names under which they are written, how many
operands they take and what kind of result they have.
-/

namespace QueryCompiler

/-! ### Operators -/

inductive Operator where
  | equal
  | notEqual
  | atMost
  | atLeast
  | less
  | greater
  | add
  | subtract
  | multiply
  | divide
  | and
  | or
  | not
  /-- Membership in a list, a parameter or a subquery. -/
  | member
  | like
  | ilike
  | isNil
  /-- The first of two operands that is not null. -/
  | coalesce
  | datetimeAdd
  | dateAdd
  | fromNow
  | ago
  deriving DecidableEq, Inhabited

namespace Operator

def all : List Operator :=
  [equal, notEqual, atMost, atLeast, less, greater, add, subtract, multiply, divide, and, or, not,
    member, like, ilike, isNil, coalesce, datetimeAdd, dateAdd, fromNow, ago]

def name : Operator → String
  | equal => "=="
  | notEqual => "!="
  | atMost => "<="
  | atLeast => ">="
  | less => "<"
  | greater => ">"
  | add => "+"
  | subtract => "-"
  | multiply => "*"
  | divide => "/"
  | and => "and"
  | or => "or"
  | not => "not"
  | member => "in"
  | like => "like"
  | ilike => "ilike"
  | isNil => "is_nil"
  | coalesce => "coalesce"
  | datetimeAdd => "datetime_add"
  | dateAdd => "date_add"
  | fromNow => "from_now"
  | ago => "ago"

def ofName? (name : String) : Option Operator := all.find? fun op => op.name == name

theorem ofName?_name (op : Operator) : ofName? op.name = some op := by cases op <;> decide

/-- How many operands an operator takes. -/
def arity : Operator → Nat
  | not | isNil | fromNow | ago => 1
  | _ => 2

def isComparison : Operator → Bool
  | equal | notEqual | atMost | atLeast | less | greater => true
  | _ => false

def isArithmetic : Operator → Bool
  | add | subtract | multiply | divide => true
  | _ => false

/-- Whether the result is a boolean. -/
def isPredicate : Operator → Bool
  | and | or | not | member | like | ilike | isNil => true
  | op => op.isComparison

/-- Whether the last operand is an interval. -/
def isDateArithmetic : Operator → Bool
  | datetimeAdd | dateAdd | fromNow | ago => true
  | _ => false

end Operator

/-! ### Aggregates -/

inductive AggregateKind where
  /-- Counts rows. -/
  | countRows
  /-- Counts the values of an expression that are not null. -/
  | countValues
  | avg
  | sum
  | min
  | max
  deriving DecidableEq, Inhabited

namespace AggregateKind

def name : AggregateKind → String
  | countRows => "count"
  | countValues => "count"
  | avg => "avg"
  | sum => "sum"
  | min => "min"
  | max => "max"

/-- How many arguments an aggregate takes. -/
def arity : AggregateKind → Nat
  | countRows => 0
  | _ => 1

/-- The type of the result, given that of the argument. -/
def outputType (kind : AggregateKind) (input : Option DataType) : Option DataType :=
  match kind with
  | countRows | countValues => some .integer
  | avg => some .decimal
  | sum | min | max => input

end AggregateKind

/-! ### Subqueries and intervals -/

/-- How a subquery is used as an expression. -/
inductive SubqueryKind where
  | any
  | all
  | existence
  deriving DecidableEq, Inhabited

def SubqueryKind.name : SubqueryKind → String
  | any => "any"
  | all => "all"
  | existence => "exists"

inductive IntervalUnit where
  | year
  | month
  | week
  | day
  | hour
  | minute
  | second
  | millisecond
  | microsecond
  deriving DecidableEq, Inhabited

namespace IntervalUnit

/-- Every unit, the largest first. -/
def all : List IntervalUnit :=
  [year, month, week, day, hour, minute, second, millisecond, microsecond]

def name : IntervalUnit → String
  | year => "year"
  | month => "month"
  | week => "week"
  | day => "day"
  | hour => "hour"
  | minute => "minute"
  | second => "second"
  | millisecond => "millisecond"
  | microsecond => "microsecond"

def ofName? (name : String) : Option IntervalUnit := all.find? fun u => u.name == name

theorem ofName?_name (u : IntervalUnit) : ofName? u.name = some u := by cases u <;> decide

end IntervalUnit

end QueryCompiler
