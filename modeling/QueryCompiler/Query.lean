import QueryCompiler.Operator
import QueryCompiler.ValuesTable

/-!
# Queries and expressions

A query reads from sources, filters, groups and projects them. Its expressions hold references,
parameters and whole subqueries. The same tree stands before and after compilation: compiling fills
in slots, types and parameter indices and normalises projections, but adds no other kind of
expression.
-/

namespace QueryCompiler

/-- An interpolated runtime value. -/
structure Param where
  value : Value
  /-- The place in the list of bound parameters. -/
  index : Option Nat
  /-- The type that the value is bound as. -/
  type : Option ResolvedType
  /-- Whether a list value takes one placeholder for every element. -/
  splice : Bool
  deriving Inhabited

def Param.ofValue (value : Value) : Param := ⟨value, none, none, false⟩

/-- How a fragment argument reaches the text. -/
inductive ArgRole where
  /-- As an ordinary expression. -/
  | parameter
  /-- Inline, as a quoted name. -/
  | identifier
  /-- Inline, as a constant. -/
  | constant
  /-- As one placeholder for every element of a list. -/
  | splice
  deriving DecidableEq, Inhabited

/-- Whether an argument is written into the text. -/
def ArgRole.isInline : ArgRole → Bool
  | identifier | constant => true
  | parameter | splice => false

inductive JoinKind where
  | inner
  | left
  | right
  | full
  | cross
  | innerLateral
  | leftLateral
  deriving DecidableEq, Inhabited

/-- Whether the joined source may refer to the sources before it. -/
def JoinKind.isLateral : JoinKind → Bool
  | innerLateral | leftLateral => true
  | _ => false

def JoinKind.label : JoinKind → String
  | inner => "Inner"
  | left => "Left"
  | right => "Right"
  | full => "Full"
  | cross => "Cross"
  | innerLateral => "InnerLateral"
  | leftLateral => "LeftLateral"

inductive SortDirection where
  | asc
  | desc
  deriving DecidableEq, Inhabited

def SortDirection.label : SortDirection → String
  | asc => "Asc"
  | desc => "Desc"

/-! ### The tree -/

mutual

inductive Expr where
  | literal (value : Value)
  | param (param : Param)
  | field (field : FieldRef)
  /-- A whole named source of this query or of an enclosing one. -/
  | binding (ref : BindingRef)
  /-- A whole named source of the immediately enclosing query. -/
  | parentBinding (ref : BindingRef)
  | operator (op : Operator) (operands : List Expr)
  | aggregate (kind : AggregateKind) (args : List Expr) (distinct : Bool) (filter : Option Expr)
  /--
  Backend text with a placeholder for every argument; `parts` are the pieces between the
  placeholders.
  -/
  | fragment (text : String) (parts : List String) (args : List FragmentArg)
  | cast (value : Expr) (target : TypeRef) (resolved : Option ResolvedType)
  | subquery (kind : SubqueryKind) (query : Query)
  | values (table : ValuesTable)
  | projection (kind : ProjectionKind) (projection : Projection)
  | merge (left right : Expr)
  /-- Defines an alias for a selected value. -/
  | aliased (value : Expr) (name : String)
  | aliasRef (name : String)
  | jsonPath (base : Expr) (path : List PathStep)
  | interval (count : Expr) (unit : IntervalUnit)
  | tuple (items : List Expr)
  | mapping (entries : List (String × Expr))

inductive FragmentArg where
  | mk (role : ArgRole) (expr : Expr)

/-- One step into a document. -/
inductive PathStep where
  | key (name : String)
  | index (i : Int64)
  | computed (expr : Expr)

inductive Query where
  | mk (source : Source) (joins : List Join) (wheres : List Expr) (select : Option Expr)
    (groupBy : List Expr) (having : List Expr) (orderBy : List OrderTerm)
    (limit offset : Option Expr) (distinct : Bool)

inductive Source where
  | mk (origin : Origin) (name : Option String)

/-- What a source reads from. -/
inductive Origin where
  | schema (name : String)
  /-- A table without a schema. -/
  | table (name : String)
  | values (table : ValuesTable)
  | subquery (query : Query)
  | fragment (expr : Expr)

inductive Join where
  | mk (kind : JoinKind) (source : Source) (on : Option Expr)

inductive OrderTerm where
  | mk (expr : Expr) (direction : SortDirection)

end

instance : Inhabited Expr := ⟨.literal .null⟩

namespace FragmentArg

def role : FragmentArg → ArgRole
  | mk role _ => role

def expr : FragmentArg → Expr
  | mk _ expr => expr

end FragmentArg

namespace Source

def origin : Source → Origin
  | mk origin _ => origin

def name : Source → Option String
  | mk _ name => name

end Source

namespace Join

def kind : Join → JoinKind
  | mk kind _ _ => kind

def source : Join → Source
  | mk _ source _ => source

end Join

namespace Query

def joins : Query → List Join
  | mk _ joins _ _ _ _ _ _ _ _ => joins

def wheres : Query → List Expr
  | mk _ _ wheres _ _ _ _ _ _ _ => wheres

def select : Query → Option Expr
  | mk _ _ _ select _ _ _ _ _ _ => select

/-- The sources of a query in the order of their positions. -/
def sources : Query → List Source
  | mk source joins _ _ _ _ _ _ _ _ => source :: joins.map Join.source

end Query

/-- The projection `select` after `expr` is merged into it. -/
def mergeSelect (select : Option Expr) (expr : Expr) : Expr :=
  match select with
  | some existing => .merge existing expr
  | none => expr

/-! ### Names of the kinds of expressions -/

/-- The name under which an error speaks of an expression. -/
def Expr.kindName : Expr → String
  | literal _ => "literal"
  | param _ => "parameter"
  | field _ => "field"
  | binding _ => "as"
  | parentBinding _ => "parent_as"
  | operator _ _ => "operator"
  | aggregate _ _ _ _ => "aggregate"
  | fragment _ _ _ => "fragment"
  | cast _ _ _ => "type"
  | subquery _ _ => "subquery"
  | values _ => "values"
  | projection .struct _ => "struct"
  | projection .map _ => "map"
  | merge _ _ => "merge"
  | aliased _ _ => "selected_as/2"
  | aliasRef _ => "selected_as/1"
  | jsonPath _ _ => "json_extract_path"
  | interval _ _ => "interval"
  | tuple _ => "tuple"
  | mapping _ => "map literal"

end QueryCompiler
