import QueryCompiler.Query
import QueryCompiler.Text.Checksum

/-!
# Cache keys

The shape of a query is a text of its whole tree in which the values of parameters are left out and
everything else stands, literals and the lengths of spliced lists included. A cache key is a shape
with its checksum.
-/

namespace QueryCompiler

def natText (n : Nat) : List Char := Nat.toDigits 10 n

/-- The name of a projection kind in front of a projection. -/
def ProjectionKind.tag : ProjectionKind → List Char
  | .struct => "struct".toList
  | .map => "map".toList

def SourceRef.shape : SourceRef → List Char
  | .position i => '&' :: natText i
  | .binding name => "as(".toList ++ name.toList ++ [')']
  | .parentBinding name => "parent_as(".toList ++ name.toList ++ [')']

def FieldName.shape : FieldName → List Char
  | .schema name => '.' :: name.toList
  | .raw name => ".\"".toList ++ name.toList ++ ['"']

/-! ### Field sets and values tables -/

mutual

def FieldSet.shape : FieldSet → List Char
  | .mk fields nested =>
    '[' :: (",".toList.intercalate (fields.map String.toList) ++ nestedShape nested ++ [']'])

def nestedShape : List NestedSelect → List Char
  | [] => []
  | .mk association kind set :: rest =>
    ' ' :: (association.toList ++ ':' :: (kind.label.toList ++ set.shape)) ++ nestedShape rest

end

def Projection.shape (kind : ProjectionKind) (p : Projection) : List Char :=
  kind.tag ++ '(' :: (p.source.shape ++ ' ' :: (p.set.shape ++ [')']))

def ValuesTable.shape (table : ValuesTable) : List Char :=
  "values[".toList ++ natText table.rows.length ++ "](".toList ++
    (table.resolved.entries.flatMap fun e => e.1.toList ++ ':' :: (e.2.text.toList ++ [' '])) ++
      [')']

/-- How many placeholders a spliced value takes. -/
def Value.spliceWidth : Value → Nat
  | .list items => items.length
  | _ => 1

def Param.shape (p : Param) : List Char :=
  '?' :: ((match p.index with | some i => natText i | none => []) ++
    (if p.splice then '*' :: natText p.value.spliceWidth else []) ++
    (match p.type with | some t => ':' :: t.text.toList | none => []))

/-- The type of a cast: the resolved one or, before there is one, the name of a builtin type. -/
def castShape : Option ResolvedType → TypeRef → List Char
  | some t, _ => t.text.toList
  | none, .builtin name => name.toList
  | none, _ => ['?']

/-! ### Expressions and queries -/

def ArgRole.shape : ArgRole → List Char
  | .parameter => []
  | .identifier => "identifier ".toList
  | .constant => "constant ".toList
  | .splice => "splice ".toList

mutual

def Expr.shape : Expr → List Char
  | .literal v => v.shape
  | .param p => p.shape
  | .field f => f.source.shape ++ f.name.shape
  | .binding r => "as(".toList ++ r.name.toList ++ [')']
  | .parentBinding r => "parent_as(".toList ++ r.name.toList ++ [')']
  | .operator op operands => op.name.toList ++ '(' :: (shapes operands ++ [')'])
  | .aggregate kind args distinct filter =>
    kind.name.toList ++ '(' :: ((if distinct then "distinct ".toList else []) ++ shapes args ++
      ')' :: clauseShape " filter " filter)
  | .fragment text _ args => "fragment(".toList ++ (quoted text).toList ++ argShapes args ++ [')']
  | .cast value target resolved =>
    "type(".toList ++ value.shape ++ ", ".toList ++ castShape resolved target ++ [')']
  | .subquery kind query => kind.name.toList ++ query.shape
  | .values table => table.shape
  | .projection kind p => p.shape kind
  | .merge left right => "merge(".toList ++ left.shape ++ ", ".toList ++ right.shape ++ [')']
  | .aliased value name =>
    "selected_as(".toList ++ value.shape ++ ", ".toList ++ name.toList ++ [')']
  | .aliasRef name => "selected_as(".toList ++ name.toList ++ [')']
  | .jsonPath base path => "json(".toList ++ base.shape ++ pathShape path ++ [')']
  | .interval count unit => "interval(".toList ++ count.shape ++ ' ' :: (unit.name.toList ++ [')'])
  | .tuple items => '\x7b' :: (shapes items ++ ['\x7d'])
  | .mapping entries => "%\x7b".toList ++ entryShapes entries ++ ['\x7d']

/-- Expressions with commas between them. -/
def shapes : List Expr → List Char
  | [] => []
  | e :: rest => e.shape ++ restShapes rest

/-- Expressions with a comma in front of each. -/
def restShapes : List Expr → List Char
  | [] => []
  | e :: rest => ", ".toList ++ e.shape ++ restShapes rest

def entryShapes : List (String × Expr) → List Char
  | [] => []
  | (key, e) :: rest => key.toList ++ ": ".toList ++ e.shape ++ restEntryShapes rest

def restEntryShapes : List (String × Expr) → List Char
  | [] => []
  | (key, e) :: rest => ", ".toList ++ key.toList ++ ": ".toList ++ e.shape ++ restEntryShapes rest

def argShapes : List FragmentArg → List Char
  | [] => []
  | .mk role e :: rest => ", ".toList ++ role.shape ++ e.shape ++ argShapes rest

def pathShape : List PathStep → List Char
  | [] => []
  | .key k :: rest => ' ' :: ((quoted k).toList ++ pathShape rest)
  | .index i :: rest => " [".toList ++ (toString i.toInt).toList ++ ']' :: pathShape rest
  | .computed e :: rest => ' ' :: (e.shape ++ pathShape rest)

/-- A clause that may be missing. -/
def clauseShape (name : String) : Option Expr → List Char
  | none => []
  | some e => name.toList ++ e.shape

/-- A clause that may stand several times. -/
def clauseShapes (name : String) : List Expr → List Char
  | [] => []
  | e :: rest => name.toList ++ e.shape ++ clauseShapes name rest

def termShapes : List OrderTerm → List Char
  | [] => []
  | .mk e direction :: rest =>
    " order_by:".toList ++ direction.label.toList ++ ' ' :: (e.shape ++ termShapes rest)

def Origin.shape : Origin → List Char
  | .schema name => "schema:".toList ++ name.toList
  | .table name => "table:".toList ++ name.toList
  | .values table => table.shape
  | .subquery query => query.shape
  | .fragment e => e.shape

def Source.shape : Source → List Char
  | .mk origin name => origin.shape ++ match name with
    | some n => " as:".toList ++ n.toList
    | none => []

def joinShapes : List Join → List Char
  | [] => []
  | .mk kind source on :: rest =>
    " (".toList ++ kind.label.toList ++ ' ' :: (source.shape ++ clauseShape " on " on ++
      ')' :: joinShapes rest)

def Query.shape : Query → List Char
  | .mk source joins wheres select groupBy having orderBy limit offset distinct =>
    "(from ".toList ++ source.shape ++ joinShapes joins ++ clauseShapes " where " wheres ++
      clauseShape " select " select ++ clauseShapes " group_by " groupBy ++
      clauseShapes " having " having ++ termShapes orderBy ++ clauseShape " limit " limit ++
      clauseShape " offset " offset ++ (if distinct then " distinct".toList else []) ++ [')']

end

/-! ### Keys -/

structure CacheKey where
  shape : String
  checksum : UInt32
  deriving DecidableEq, Inhabited

namespace CacheKey

def ofShape (shape : List Char) : CacheKey :=
  let text := String.ofList shape
  ⟨text, QueryCompiler.checksum text⟩

/-- The checksum in hexadecimal. -/
def text (key : CacheKey) : String := checksumText key.checksum

end CacheKey

def Query.cacheKey (query : Query) : CacheKey := .ofShape query.shape

end QueryCompiler
