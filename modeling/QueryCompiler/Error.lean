import QueryCompiler.Catalog
import QueryCompiler.Operator

/-!
# Errors

Every way in which building, binding or compiling a query fails is a constructor here, and `message`
gives its text. The first error stops the work.
-/

namespace QueryCompiler

/-- Why a fragment argument cannot be written into the text or spliced. -/
inductive ArgFault where
  | identifierWithoutValue
  | identifierNotName
  | constantWithoutValue
  | constantNotScalar
  | spliceWithoutValue
  | spliceEmpty
  | spliceNotList
  deriving DecidableEq, Inhabited

def ArgFault.message : ArgFault → String
  | identifierWithoutValue => "identifier needs a value"
  | identifierNotName => "identifier must be a non-empty string"
  | constantWithoutValue => "constant needs a value"
  | constantNotScalar => "constant must be a string or a number"
  | spliceWithoutValue => "splice needs a list"
  | spliceEmpty => "splice list must not be empty"
  | spliceNotList => "splice must be given a list"

/-- Why a name of a source, schema, field or association does not resolve. -/
inductive BindError where
  | unknownBinding (name : String)
  /-- There is no enclosing query, or it has no source of this name. -/
  | noParentBinding (name : String)
  | unknownSource (position : Nat)
  | unknownSchema (name : String)
  | unknownField (source field : String)
  | unknownAssociation (schema association : String)
  /-- Two sources of one query have the same name. -/
  | duplicateBinding (name : String)
  | nestingTooDeep (limit : Nat)
  deriving DecidableEq, Inhabited

def BindError.message : BindError → String
  | unknownBinding name => "unknown binding `" ++ name ++ "`"
  | noParentBinding name => "no parent binding `" ++ name ++ "`"
  | unknownSource position => "unknown source at position " ++ toString position
  | unknownSchema name => "unknown schema `" ++ name ++ "`"
  | unknownField source field => "unknown field `" ++ field ++ "` on `" ++ source ++ "`"
  | unknownAssociation schema association =>
    "unknown association `" ++ association ++ "` on `" ++ schema ++ "`"
  | duplicateBinding name => "binding `" ++ name ++ "` is defined twice in one query"
  | nestingTooDeep limit => "subqueries nested deeper than " ++ toString limit ++ " levels"

inductive CastError where
  /-- The field that a target takes its type from is not bound. -/
  | unboundField (field : String) (cause : BindError)
  /-- The field that a target takes its type from has no declared type. -/
  | untypedField (field : String)
  | unknownBuiltin (name : String)
  /-- A cast wraps an expression of a kind that it may not wrap. -/
  | unsupportedOperand (kind : String)
  deriving DecidableEq, Inhabited

def CastError.message : CastError → String
  | unboundField field cause => "unresolved type from field `" ++ field ++ "`: " ++ cause.message
  | untypedField field => "unresolved type from field `" ++ field ++ "`: field has no declared type"
  | unknownBuiltin name => "unknown builtin `" ++ name ++ "`"
  | unsupportedOperand kind =>
    "cannot cast a " ++ kind ++
      "; expected a parameter, aggregate, fragment, comparison or coalesce"

inductive AliasError where
  | duplicate (name : String)
  | undefined (name : String)
  /-- An alias is defined elsewhere than at an outermost position of a projection. -/
  | notOutermost (name : String)
  deriving DecidableEq, Inhabited

def AliasError.message : AliasError → String
  | duplicate name => "duplicate alias `" ++ name ++ "`"
  | undefined name => "undefined alias `" ++ name ++ "`"
  | notOutermost name => "alias not in outermost select: `" ++ name ++ "`"

inductive ValuesError where
  | noRows
  | inconsistentFields (row : Nat)
  | missingType (field : String)
  | unexpectedType (field : String)
  | typeMismatch (row : Nat) (field : String) (expected : DataType)
  deriving DecidableEq, Inhabited

def ValuesError.message : ValuesError → String
  | noRows => "values list is empty"
  | inconsistentFields row => "inconsistent fields in row " ++ toString row
  | missingType field => "missing type for field `" ++ field ++ "`"
  | unexpectedType field => "unexpected type for field `" ++ field ++ "` absent from rows"
  | typeMismatch row field expected =>
    "value for field `" ++ field ++ "` in row " ++ toString row ++ " is not a valid " ++
      expected.name

/-- Why an expression is not well built. -/
inductive ExprFault where
  | aggregateInWhere
  | operandCount (op : Operator) (given : Nat)
  | missingInterval (op : Operator)
  | argumentCount (kind : AggregateKind) (given : Nat)
  /-- A source is declared while no query is open. -/
  | sourceOutsideQuery
  | fragmentSource (kind : String)
  | jsonBase (kind : String)
  | unindexedParam
  | boundTwice (index : Nat)
  | outOfRange (index : Nat)
  | neverBound (index : Nat)
  | unboundTable
  | filterTarget (kind : String)
  | wrapperCall (name : String)
  | wrappedOperand (call : String)
  | argumentShape (call expected given : String)
  | missingArgument (call : String) (arity : Nat)
  deriving DecidableEq, Inhabited

def ExprFault.message : ExprFault → String
  | aggregateInWhere => "aggregates are not allowed in `where`; use `having`"
  | operandCount op given =>
    "`" ++ op.name ++ "` takes " ++ toString op.arity ++ " operand(s), got " ++ toString given
  | missingInterval op => "`" ++ op.name ++ "` needs an interval operand"
  | argumentCount kind given =>
    "`" ++ kind.name ++ "` takes " ++ toString kind.arity ++ " argument(s), got " ++ toString given
  | sourceOutsideQuery => "source declared outside a query"
  | fragmentSource kind => "fragment source must be a fragment, got " ++ kind
  | jsonBase kind => "json_extract_path needs a field, got " ++ kind
  | unindexedParam => "parameter without an index"
  | boundTwice index => "parameter " ++ toString index ++ " bound twice"
  | outOfRange index => "parameter " ++ toString index ++ " out of range"
  | neverBound index => "parameter " ++ toString index ++ " was never bound"
  | unboundTable => "values table was never bound"
  | filterTarget kind => "filter/2 expects an aggregate, got " ++ kind
  | wrapperCall name => name ++ "/1 is only valid as a fragment argument"
  | wrappedOperand call =>
    call ++ ": identifier/constant/splice are only valid as fragment arguments"
  | argumentShape call expected given => call ++ ": expected " ++ expected ++ ", got " ++ given
  | missingArgument call arity => call ++ "/" ++ toString arity ++ ": missing argument"

inductive CompileError where
  | fragmentArity (text : String) (placeholders arguments : Nat)
  | fragmentArgument (text : String) (index : Nat) (fault : ArgFault)
  | binding (cause : BindError)
  | cast (cause : CastError)
  | aliasing (cause : AliasError)
  | values (cause : ValuesError)
  | unknownUnit (unit : String)
  | invalid (fault : ExprFault)
  | unknownCall (name : String) (arity : Nat)
  | schema (cause : SchemaError)
  deriving DecidableEq, Inhabited

def CompileError.message : CompileError → String
  | fragmentArity text placeholders arguments =>
    "Fragment arity error: `" ++ text ++ "` has " ++ toString placeholders ++
      " placeholder(s) but " ++ toString arguments ++ " argument(s)"
  | fragmentArgument text index fault =>
    "Invalid fragment argument " ++ toString index ++ " in `" ++ text ++ "`: " ++ fault.message
  | binding cause => "Binding error: " ++ cause.message
  | cast cause => "Cast error: " ++ cause.message
  | aliasing cause => "Alias error: " ++ cause.message
  | values cause => "Values error: " ++ cause.message
  | unknownUnit unit => "Interval error: unknown unit `" ++ unit ++ "`"
  | invalid fault => "Invalid expression: " ++ fault.message
  | unknownCall name arity => "Unknown call: " ++ name ++ "/" ++ toString arity
  | schema cause => "Schema error: " ++ cause.message

instance : Coe BindError CompileError := ⟨.binding⟩
instance : Coe CastError CompileError := ⟨.cast⟩
instance : Coe AliasError CompileError := ⟨.aliasing⟩
instance : Coe ValuesError CompileError := ⟨.values⟩
instance : Coe ExprFault CompileError := ⟨.invalid⟩
instance : Coe SchemaError CompileError := ⟨.schema⟩

/-- The unit of that name. -/
def IntervalUnit.parse (name : String) : Except CompileError IntervalUnit :=
  match IntervalUnit.ofName? name with
  | some unit => .ok unit
  | none => .error (.unknownUnit name)

end QueryCompiler
