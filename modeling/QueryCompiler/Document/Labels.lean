import QueryCompiler.Catalog
import QueryCompiler.Document
import QueryCompiler.Query

/-!
# Names of constructors in documents

The constructors without arguments of the vocabularies, by the names under which documents hold
them.
-/

namespace QueryCompiler

def DataType.label : DataType → String
  | .id => "Id"
  | .binaryId => "BinaryId"
  | .integer => "Integer"
  | .float => "Float"
  | .boolean => "Boolean"
  | .string => "String"
  | .binary => "Binary"
  | .decimal => "Decimal"
  | .map => "Map"
  | .date => "Date"
  | .time => "Time"
  | .timeUsec => "TimeUsec"
  | .naiveDatetime => "NaiveDatetime"
  | .naiveDatetimeUsec => "NaiveDatetimeUsec"
  | .utcDatetime => "UtcDatetime"
  | .utcDatetimeUsec => "UtcDatetimeUsec"
  | .any => "Any"

def Operator.label : Operator → String
  | .equal => "Eq"
  | .notEqual => "NotEq"
  | .atMost => "Lte"
  | .atLeast => "Gte"
  | .less => "Lt"
  | .greater => "Gt"
  | .add => "Add"
  | .subtract => "Sub"
  | .multiply => "Mul"
  | .divide => "Div"
  | .and => "And"
  | .or => "Or"
  | .not => "Not"
  | .member => "In"
  | .like => "Like"
  | .ilike => "Ilike"
  | .isNil => "IsNil"
  | .coalesce => "Coalesce"
  | .datetimeAdd => "DatetimeAdd"
  | .dateAdd => "DateAdd"
  | .fromNow => "FromNow"
  | .ago => "Ago"

def AggregateKind.label : AggregateKind → String
  | .countRows => "Count0"
  | .countValues => "Count1"
  | .avg => "Avg"
  | .sum => "Sum"
  | .min => "Min"
  | .max => "Max"

def AggregateKind.all : List AggregateKind := [.countRows, .countValues, .avg, .sum, .min, .max]

def SubqueryKind.label : SubqueryKind → String
  | .any => "Any"
  | .all => "All"
  | .existence => "Exists"

def SubqueryKind.every : List SubqueryKind := [.any, .all, .existence]

def IntervalUnit.label : IntervalUnit → String
  | .year => "Year"
  | .month => "Month"
  | .week => "Week"
  | .day => "Day"
  | .hour => "Hour"
  | .minute => "Minute"
  | .second => "Second"
  | .millisecond => "Millisecond"
  | .microsecond => "Microsecond"

def ArgRole.label : ArgRole → String
  | .parameter => "Parameter"
  | .identifier => "Identifier"
  | .constant => "Constant"
  | .splice => "Splice"

def ArgRole.all : List ArgRole := [.parameter, .identifier, .constant, .splice]

def JoinKind.all : List JoinKind :=
  [.inner, .left, .right, .full, .cross, .innerLateral, .leftLateral]

def SortDirection.all : List SortDirection := [.asc, .desc]

def ProjectionKind.all : List ProjectionKind := [.struct, .map]

def Cardinality.label : Cardinality → String
  | .one => "One"
  | .many => "Many"

def Cardinality.all : List Cardinality := [.one, .many]

end QueryCompiler
