import QueryCompiler.Compilation.Shape

/-!
# Erasure

What a compiled query is apart from the values in it. Erasure forgets the values of parameters, of
cells and of everything that is written inline, and how the targets of types were spelled. It keeps
every clause, node, name, slot, index and type, and how many placeholders a spliced list takes.
-/

namespace QueryCompiler

/-- A spliced list stays a list of the same length. -/
def Param.erase (p : Param) : Param :=
  { p with value := if p.splice then .list (List.replicate p.value.spliceWidth .null) else .null }

def Row.erase (row : Row) : Row := row.mapValues fun _ _ => .null

def ValuesTable.erase (table : ValuesTable) : ValuesTable :=
  { table with rows := table.rows.map Row.erase, types := .map .empty }

mutual

def Expr.erase : Expr → Expr
  | .literal _ => .literal .null
  | .param p => .param p.erase
  | .field f => .field f
  | .binding r => .binding r
  | .parentBinding r => .parentBinding r
  | .operator op operands => .operator op (eraseAll operands)
  | .aggregate kind args distinct filter =>
    .aggregate kind (eraseAll args) distinct (eraseOption filter)
  | .fragment _ _ args => .fragment "" [] (eraseArgs args)
  | .cast value _ resolved => .cast value.erase (.builtin "") resolved
  | .subquery kind query => .subquery kind query.erase
  | .values table => .values table.erase
  | .projection kind p => .projection kind p
  | .merge left right => .merge left.erase right.erase
  | .aliased value name => .aliased value.erase name
  | .aliasRef name => .aliasRef name
  | .jsonPath base path => .jsonPath base.erase (erasePath path)
  | .interval count unit => .interval count.erase unit
  | .tuple items => .tuple (eraseAll items)
  | .mapping entries => .mapping (eraseEntries entries)

def eraseAll : List Expr → List Expr
  | [] => []
  | e :: rest => e.erase :: eraseAll rest

def eraseEntries : List (String × Expr) → List (String × Expr)
  | [] => []
  | (key, e) :: rest => (key, e.erase) :: eraseEntries rest

def eraseOption : Option Expr → Option Expr
  | none => none
  | some e => some e.erase

def eraseArgs : List FragmentArg → List FragmentArg
  | [] => []
  | .mk role e :: rest => .mk role e.erase :: eraseArgs rest

def erasePath : List PathStep → List PathStep
  | [] => []
  | .key _ :: rest => .key "" :: erasePath rest
  | .index _ :: rest => .index 0 :: erasePath rest
  | .computed e :: rest => .computed e.erase :: erasePath rest

def eraseTerms : List OrderTerm → List OrderTerm
  | [] => []
  | .mk e direction :: rest => .mk e.erase direction :: eraseTerms rest

def Origin.erase : Origin → Origin
  | .schema name => .schema name
  | .table name => .table name
  | .values table => .values table.erase
  | .subquery query => .subquery query.erase
  | .fragment e => .fragment e.erase

def Source.erase : Source → Source
  | .mk origin name => .mk origin.erase name

def eraseJoins : List Join → List Join
  | [] => []
  | .mk kind source on :: rest => .mk kind source.erase (eraseOption on) :: eraseJoins rest

def Query.erase : Query → Query
  | .mk source joins wheres select groupBy having orderBy limit offset distinct =>
    .mk source.erase (eraseJoins joins) (eraseAll wheres) (eraseOption select) (eraseAll groupBy)
      (eraseAll having) (eraseTerms orderBy) (eraseOption limit) (eraseOption offset) distinct

end

end QueryCompiler
