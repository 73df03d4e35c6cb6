import QueryCompiler.Proofs.Comparison.Change

/-!
# Outlines

What is written inline into the text of a query, and what is bound to it. Forgetting the bound
values of a compiled query leaves the values of its literals, its inline arguments, the keys and
indices of its document paths and the texts of its fragments; its outline is what remains when these
are forgotten as well. Two queries with one outline differ in values in corresponding places only.
-/

namespace QueryCompiler

/-- Forgets the values of parameters, whole spliced lists included, and of cells. -/
def Change.forgetting : Change := ⟨0, id, fun _ => .null, fun _ => .null⟩

mutual

def Expr.outline : Expr → Expr
  | .literal _ => .literal .null
  | .param p => .param (p.change .forgetting)
  | .field f => .field f
  | .binding r => .binding r
  | .parentBinding r => .parentBinding r
  | .operator op operands => .operator op (outlineAll operands)
  | .aggregate kind args distinct filter =>
    .aggregate kind (outlineAll args) distinct (outlineOption filter)
  | .fragment _ _ args => .fragment "" [] (outlineArgs args)
  | .cast value target resolved => .cast value.outline target resolved
  | .subquery kind query => .subquery kind query.outline
  | .values table => .values (table.change .forgetting)
  | .projection kind p => .projection kind p
  | .merge left right => .merge left.outline right.outline
  | .aliased value name => .aliased value.outline name
  | .aliasRef name => .aliasRef name
  | .jsonPath base path => .jsonPath base.outline (outlinePath path)
  | .interval count unit => .interval count.outline unit
  | .tuple items => .tuple (outlineAll items)
  | .mapping entries => .mapping (outlineEntries entries)

def outlineAll : List Expr → List Expr
  | [] => []
  | e :: rest => e.outline :: outlineAll rest

def outlineEntries : List (String × Expr) → List (String × Expr)
  | [] => []
  | (key, e) :: rest => (key, e.outline) :: outlineEntries rest

def outlineOption : Option Expr → Option Expr
  | none => none
  | some e => some e.outline

def outlineArgs : List FragmentArg → List FragmentArg
  | [] => []
  | .mk role e :: rest => .mk role e.outline :: outlineArgs rest

/-- A key may stand where an index stands: both are steps that are written inline. -/
def outlinePath : List PathStep → List PathStep
  | [] => []
  | .key _ :: rest => .key "" :: outlinePath rest
  | .index _ :: rest => .key "" :: outlinePath rest
  | .computed e :: rest => .computed e.outline :: outlinePath rest

def outlineTerms : List OrderTerm → List OrderTerm
  | [] => []
  | .mk e direction :: rest => .mk e.outline direction :: outlineTerms rest

def Origin.outline : Origin → Origin
  | .schema name => .schema name
  | .table name => .table name
  | .values table => .values (table.change .forgetting)
  | .subquery query => .subquery query.outline
  | .fragment e => .fragment e.outline

def Source.outline : Source → Source
  | .mk origin name => .mk origin.outline name

def outlineJoins : List Join → List Join
  | [] => []
  | .mk kind source on :: rest => .mk kind source.outline (outlineOption on) :: outlineJoins rest

def Query.outline : Query → Query
  | .mk source joins wheres select groupBy having orderBy limit offset distinct =>
    .mk source.outline (outlineJoins joins) (outlineAll wheres) (outlineOption select)
      (outlineAll groupBy) (outlineAll having) (outlineTerms orderBy) (outlineOption limit)
      (outlineOption offset) distinct

end

end QueryCompiler
