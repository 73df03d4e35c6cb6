import QueryCompiler.Error
import QueryCompiler.Query

/-!
# Calls

A front end writes expressions as calls of a name with arguments. A fixed table says which names may
be called with how many arguments, and each of its entries builds an expression from them. Arguments
are looked at from left to right, and the first one of a wrong shape is an error.
-/

namespace QueryCompiler

/-! ### Arguments -/

inductive CallArg where
  | expr (e : Expr)
  /-- A bare name. -/
  | atom (name : String)
  | text (text : String)
  | fields (set : FieldSet)
  | source (ref : SourceRef)
  | path (path : List PathStep)
  | query (query : Query)
  | type (target : TypeRef)
  /-- An argument that only a fragment takes. -/
  | fragment (arg : FragmentArg)
  | rows (rows : List Row)
  | types (types : ValuesTypes)

/-- The name under which an error speaks of an argument. -/
def CallArg.kindName : CallArg → String
  | expr e => e.kindName
  | atom _ => "atom"
  | text _ => "text"
  | fields _ => "field list"
  | source _ => "source"
  | path _ => "path"
  | query _ => "query"
  | type _ => "type"
  | fragment _ => "fragment argument"
  | rows _ => "rows"
  | types _ => "type map"

/-- A fragment argument by the name of its wrapper. -/
def wrapArg (name : String) (e : Expr) : Except CompileError FragmentArg :=
  if name = "identifier" then .ok (.mk .identifier e)
  else if name = "constant" then .ok (.mk .constant e)
  else if name = "splice" then .ok (.mk .splice e)
  else .error (.unknownCall name 1)

namespace CallArg

/-- The error of an argument that is not of the expected shape. -/
def mismatch (call expected : String) (arg : CallArg) : CompileError :=
  .invalid (.argumentShape call expected arg.kindName)

/-- An argument as an expression; a query stands for any of its rows. -/
def asExpr (call : String) : CallArg → Except CompileError Expr
  | expr e => .ok e
  | query q => .ok (.subquery .any q)
  | fragment _ => .error (.invalid (.wrappedOperand call))
  | arg => .error (arg.mismatch call "an expression")

def asAtom (call : String) : CallArg → Except CompileError String
  | atom name => .ok name
  | arg => .error (arg.mismatch call "an atom")

def asText (call : String) : CallArg → Except CompileError String
  | text t => .ok t
  | arg => .error (arg.mismatch call "fragment text")

def asQuery (call : String) : CallArg → Except CompileError Query
  | query q => .ok q
  | arg => .error (arg.mismatch call "a subquery")

def asDistinct (call : String) : CallArg → Except CompileError Unit
  | atom name =>
    if name = "distinct" then .ok () else .error ((atom name).mismatch call ":distinct")
  | arg => .error (arg.mismatch call ":distinct")

def asSource (call : String) : CallArg → Except CompileError SourceRef
  | source ref => .ok ref
  | expr (.binding r) => .ok (.binding r.name)
  | expr (.parentBinding r) => .ok (.parentBinding r.name)
  | arg => .error (arg.mismatch call "a source")

def asFieldName (call : String) : CallArg → Except CompileError FieldName
  | atom name => .ok (.schema name)
  | text name => .ok (.raw name)
  | arg => .error (arg.mismatch call "a field name")

def asFields (call : String) : CallArg → Except CompileError FieldSet
  | fields set => .ok set
  | arg => .error (arg.mismatch call "a field list")

def asPath (call : String) : CallArg → Except CompileError (List PathStep)
  | path p => .ok p
  | arg => .error (arg.mismatch call "a path")

def asUnit (call : String) : CallArg → Except CompileError IntervalUnit
  | text name => IntervalUnit.parse name
  | atom name => IntervalUnit.parse name
  | arg => .error (arg.mismatch call "an interval unit")

def asType (call : String) : CallArg → Except CompileError TypeRef
  | type target => .ok target
  | atom name => .ok (.builtin name)
  | expr (.field f) => .ok (.column f)
  | arg => .error (arg.mismatch call "a type")

def asRows (call : String) : CallArg → Except CompileError (List Row)
  | rows rs => .ok rs
  | arg => .error (arg.mismatch call "a list of rows")

def asTypes (call : String) : CallArg → Except CompileError ValuesTypes
  | types ts => .ok ts
  | atom name => .ok (.schema name)
  | arg => .error (arg.mismatch call "a type map")

/-- The arguments of a fragment; those that are not wrapped are expressions. -/
def asFragmentArgs (call : String) : List CallArg → Except CompileError (List FragmentArg)
  | [] => .ok []
  | fragment a :: rest => do return a :: (← asFragmentArgs call rest)
  | arg :: rest => do
    let e ← arg.asExpr call
    return .mk .parameter e :: (← asFragmentArgs call rest)

end CallArg

/-! ### The table -/

/-- What a call builds. -/
inductive Callee where
  | unary (op : Operator)
  | binary (op : Operator)
  | subquery (kind : SubqueryKind)
  | countRows
  | aggregate (kind : AggregateKind)
  | countDistinct
  | filter
  /-- A date moved by an interval. -/
  | shiftDate (op : Operator)
  /-- An interval from now or before now. -/
  | relative (op : Operator)
  | fragment
  /-- A wrapper of fragment arguments, which is no expression by itself. -/
  | wrapper
  | values
  | field
  | projection (kind : ProjectionKind)
  | merge
  | jsonPath
  | cast
  | binding
  | parentBinding
  | aliasRef
  | aliased
  deriving DecidableEq

namespace Callee

/-- The callees with a fixed number of arguments. -/
def table : List (String × Nat × Callee) :=
  [("==", 2, binary .equal), ("!=", 2, binary .notEqual), ("<=", 2, binary .atMost),
    (">=", 2, binary .atLeast), ("<", 2, binary .less), (">", 2, binary .greater),
    ("+", 2, binary .add), ("-", 2, binary .subtract), ("*", 2, binary .multiply),
    ("/", 2, binary .divide), ("and", 2, binary .and), ("or", 2, binary .or),
    ("in", 2, binary .member), ("like", 2, binary .like), ("ilike", 2, binary .ilike),
    ("coalesce", 2, binary .coalesce), ("not", 1, unary .not), ("is_nil", 1, unary .isNil),
    ("exists", 1, subquery .existence), ("any", 1, subquery .any), ("all", 1, subquery .all),
    ("count", 0, countRows), ("count", 1, aggregate .countValues), ("count", 2, countDistinct),
    ("avg", 1, aggregate .avg), ("sum", 1, aggregate .sum), ("min", 1, aggregate .min),
    ("max", 1, aggregate .max), ("filter", 2, filter),
    ("datetime_add", 3, shiftDate .datetimeAdd), ("date_add", 3, shiftDate .dateAdd),
    ("from_now", 2, relative .fromNow), ("ago", 2, relative .ago),
    ("identifier", 1, wrapper), ("constant", 1, wrapper), ("splice", 1, wrapper),
    ("values", 2, values), ("field", 2, field), ("struct", 2, projection .struct),
    ("map", 2, projection .map), ("merge", 2, merge), ("json_extract_path", 2, jsonPath),
    ("type", 2, cast), ("as", 1, binding), ("parent_as", 1, parentBinding),
    ("selected_as", 1, aliasRef), ("selected_as", 2, aliased)]

/--
The callee of a name with so many arguments. A fragment takes its text and any number of arguments.
-/
def find? (name : String) (arity : Nat) : Option Callee :=
  if name = "fragment" ∧ 1 ≤ arity then some fragment
  else (table.find? fun entry => entry.1 == name && entry.2.1 == arity).map fun entry => entry.2.2

/-- Builds the expression of a call under the name `name`. -/
def build (name : String) : Callee → List CallArg → Except CompileError Expr
  | unary op, [a] => do return .operator op [← a.asExpr name]
  | binary op, [a, b] => do
    let left ← a.asExpr name
    let right ← b.asExpr name
    return .operator op [left, right]
  | subquery kind, [a] => do return .subquery kind (← a.asQuery name)
  | countRows, [] => .ok (.aggregate .countRows [] false none)
  | aggregate kind, [a] => do return .aggregate kind [← a.asExpr name] false none
  | countDistinct, [a, b] => do
    let value ← a.asExpr name
    b.asDistinct name
    return .aggregate .countValues [value] true none
  | filter, [a, b] => do
    let target ← a.asExpr name
    let condition ← b.asExpr name
    match target with
    | .aggregate kind args distinct _ => return .aggregate kind args distinct (some condition)
    | other => .error (.invalid (.filterTarget other.kindName))
  | shiftDate op, [a, b, c] => do
    let base ← a.asExpr name
    let count ← b.asExpr name
    let unit ← c.asUnit name
    return .operator op [base, .interval count unit]
  | relative op, [a, b] => do
    let count ← a.asExpr name
    let unit ← b.asUnit name
    return .operator op [.interval count unit]
  | fragment, a :: rest => do
    let text ← a.asText name
    let args ← CallArg.asFragmentArgs name rest
    return .fragment text [] args
  | wrapper, _ => .error (.invalid (.wrapperCall name))
  | values, [a, b] => do
    let rows ← a.asRows name
    let types ← b.asTypes name
    return .values (.ofRows rows types)
  | field, [a, b] => do
    let source ← a.asSource name
    let fieldName ← b.asFieldName name
    return .field ⟨source, fieldName, none⟩
  | projection kind, [a, b] => do
    let source ← a.asSource name
    let set ← b.asFields name
    return .projection kind ⟨source, set, none⟩
  | merge, [a, b] => do
    let left ← a.asExpr name
    let right ← b.asExpr name
    return .merge left right
  | jsonPath, [a, b] => do
    let base ← a.asExpr name
    let path ← b.asPath name
    return .jsonPath base path
  | cast, [a, b] => do
    let value ← a.asExpr name
    let target ← b.asType name
    return .cast value target none
  | binding, [a] => do return .binding ⟨← a.asAtom name, none⟩
  | parentBinding, [a] => do return .parentBinding ⟨← a.asAtom name, none⟩
  | aliasRef, [a] => do return .aliasRef (← a.asAtom name)
  | aliased, [a, b] => do
    let value ← a.asExpr name
    return .aliased value (← b.asAtom name)
  | _, args => .error (.invalid (.missingArgument name args.length))

end Callee

/-- The expression of a call. -/
def call (name : String) (args : List CallArg) : Except CompileError Expr :=
  match Callee.find? name args.length with
  | some callee => callee.build name args
  | none => .error (.unknownCall name args.length)

end QueryCompiler
