import QueryCompiler.Proofs.Keys.Text

/-!
# Names that shapes keep apart

Shapes write names without quotes. A name is legible where it stands if it has none of the
characters that end it there; a tree is legible if all its names are.
-/

namespace QueryCompiler

/-! ### References, types and field sets -/

def SourceRef.legible : SourceRef → Bool
  | .position _ => true
  | .binding name => avoids name [')']
  | .parentBinding name => avoids name [')']

/-- A quote in front would make a name read as a raw one. -/
def FieldName.legible : FieldName → Bool
  | .schema name => avoids name [' ', ',', ')', '\x7d'] && name.toList.head? != some '"'
  | .raw name => avoids name ['"']

def TypeDescriptor.legible (d : TypeDescriptor) : Bool :=
  avoids d.name ['(', ' ', ',', ')', '\x7b', '\x7d'] &&
    d.params.entries.all fun e => avoids e.1 ['=', ')'] && avoids e.2 [',', ')']

def ResolvedType.legible : ResolvedType → Bool
  | .parameterized d => d.legible
  | _ => true

mutual

/-- One field without a name would read as no field. -/
def FieldSet.legible : FieldSet → Bool
  | .mk fields nested =>
    fields.all (avoids · [',', ' ', ']']) && fields != [""] && legibleNested nested

def legibleNested : List NestedSelect → Bool
  | [] => true
  | .mk association _ set :: rest =>
    avoids association [':'] && set.legible && legibleNested rest

end

def ValuesTable.legible (table : ValuesTable) : Bool :=
  table.resolved.entries.all fun e => avoids e.1 [':', ')'] && e.2.legible

/-! ### Trees -/

mutual

def Expr.legible : Expr → Bool
  | .literal _ => true
  | .param p => p.type.all ResolvedType.legible
  | .field f => f.source.legible && f.name.legible
  | .binding r => avoids r.name [')']
  | .parentBinding r => avoids r.name [')']
  | .operator _ operands => legibleAll operands
  | .aggregate _ args _ filter => legibleAll args && legibleOption filter
  | .fragment _ _ args => legibleArgs args
  | .cast value _ resolved => value.legible && resolved.all ResolvedType.legible
  | .subquery _ query => query.legible
  | .values table => table.legible
  | .projection _ p => p.source.legible && p.set.legible
  | .merge left right => left.legible && right.legible
  | .aliased value name => value.legible && avoids name [')']
  | .aliasRef name => avoids name [')', '(', ',', '\x7b', '"']
  | .jsonPath base path => base.legible && legiblePath path
  | .interval count _ => count.legible
  | .tuple items => legibleAll items
  | .mapping entries => legibleEntries entries

def legibleAll : List Expr → Bool
  | [] => true
  | e :: rest => e.legible && legibleAll rest

def legibleEntries : List (String × Expr) → Bool
  | [] => true
  | (key, e) :: rest => avoids key [':', '\x7d'] && e.legible && legibleEntries rest

def legibleOption : Option Expr → Bool
  | none => true
  | some e => e.legible

def legibleArgs : List FragmentArg → Bool
  | [] => true
  | .mk _ e :: rest => e.legible && legibleArgs rest

def legiblePath : List PathStep → Bool
  | [] => true
  | .computed e :: rest => e.legible && legiblePath rest
  | .key _ :: rest => legiblePath rest
  | .index _ :: rest => legiblePath rest

def legibleTerms : List OrderTerm → Bool
  | [] => true
  | .mk e _ :: rest => e.legible && legibleTerms rest

def Origin.legible : Origin → Bool
  | .schema name => avoids name [' ', ')']
  | .table name => avoids name [' ', ')']
  | .values table => table.legible
  | .subquery query => query.legible
  | .fragment e => e.legible

def Source.legible : Source → Bool
  | .mk origin name => origin.legible && name.all (avoids · [' ', ')'])

def legibleJoins : List Join → Bool
  | [] => true
  | .mk _ source on :: rest => source.legible && legibleOption on && legibleJoins rest

/-- Whether every name in a query can be told from what follows it in the shape of the query. -/
def Query.legible : Query → Bool
  | .mk source joins wheres select groupBy having orderBy limit offset _ =>
    source.legible && legibleJoins joins && legibleAll wheres && legibleOption select &&
      legibleAll groupBy && legibleAll having && legibleTerms orderBy && legibleOption limit &&
      legibleOption offset

end

end QueryCompiler
