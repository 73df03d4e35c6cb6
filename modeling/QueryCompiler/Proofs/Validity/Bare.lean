import QueryCompiler.Proofs.Binding.Aliases
import QueryCompiler.Proofs.Comparison.Following
import QueryCompiler.Proofs.Relabelling

/-!
# Bare queries

A query is made bare by asking for nothing in each of its projections. This takes away the faults
that its field sets may have and adds no other: what is checked of the rest of the query, in the
order in which it is checked, stays the same.
-/

namespace QueryCompiler

/-- A projection that asks for nothing of its source. -/
def Projection.bare (p : Projection) : Projection := { p with set := .empty }

mutual

def Expr.bare : Expr → Expr
  | .literal v => .literal v
  | .param p => .param p
  | .field f => .field f
  | .binding r => .binding r
  | .parentBinding r => .parentBinding r
  | .operator op operands => .operator op (bareAll operands)
  | .aggregate kind args distinct filter =>
    .aggregate kind (bareAll args) distinct (bareOption filter)
  | .fragment text parts args => .fragment text parts (bareArgs args)
  | .cast value target resolved => .cast value.bare target resolved
  | .subquery kind query => .subquery kind query.bare
  | .values table => .values table
  | .projection kind p => .projection kind p.bare
  | .merge left right => .merge left.bare right.bare
  | .aliased value name => .aliased value.bare name
  | .aliasRef name => .aliasRef name
  | .jsonPath base path => .jsonPath base.bare (barePath path)
  | .interval count unit => .interval count.bare unit
  | .tuple items => .tuple (bareAll items)
  | .mapping entries => .mapping (bareEntries entries)

def bareAll : List Expr → List Expr
  | [] => []
  | e :: rest => e.bare :: bareAll rest

def bareEntries : List (String × Expr) → List (String × Expr)
  | [] => []
  | (key, e) :: rest => (key, e.bare) :: bareEntries rest

def bareOption : Option Expr → Option Expr
  | none => none
  | some e => some e.bare

def bareArgs : List FragmentArg → List FragmentArg
  | [] => []
  | .mk role e :: rest => .mk role e.bare :: bareArgs rest

def barePath : List PathStep → List PathStep
  | [] => []
  | .key k :: rest => .key k :: barePath rest
  | .index i :: rest => .index i :: barePath rest
  | .computed e :: rest => .computed e.bare :: barePath rest

def bareTerms : List OrderTerm → List OrderTerm
  | [] => []
  | .mk e direction :: rest => .mk e.bare direction :: bareTerms rest

def Origin.bare : Origin → Origin
  | .schema name => .schema name
  | .table name => .table name
  | .values table => .values table
  | .subquery query => .subquery query.bare
  | .fragment e => .fragment e.bare

def Source.bare : Source → Source
  | .mk origin name => .mk origin.bare name

def bareJoins : List Join → List Join
  | [] => []
  | .mk kind source on :: rest => .mk kind source.bare (bareOption on) :: bareJoins rest

def Query.bare : Query → Query
  | .mk source joins wheres select groupBy having orderBy limit offset distinct =>
    .mk source.bare (bareJoins joins) (bareAll wheres) (bareOption select) (bareAll groupBy)
      (bareAll having) (bareTerms orderBy) (bareOption limit) (bareOption offset) distinct

end

/-- Making trees bare is a relabelling: it replaces projections, everywhere alike. -/
def bareRelabelling : Relabelling Unit where
  expr _ := Expr.bare
  all _ := bareAll
  entries _ := bareEntries
  option _ := bareOption
  args _ := bareArgs
  path _ := barePath
  terms _ := bareTerms
  source _ := Source.bare
  joins _ := bareJoins
  query _ := Query.bare
  under _ _ := ()
  inside _ _ := ()
  literal _ v := v
  param _ p := p
  field _ f := f
  target _ t := t
  table _ t := t
  projection _ := Projection.bare
  declared _ t := t

/-! ### Lists -/

theorem bareEntries_eq_map (entries : List (String × Expr)) :
    bareEntries entries = entries.map fun entry => (entry.1, entry.2.bare) :=
  bareRelabelling.entries_eq_map () entries

theorem length_bareArgs (args : List FragmentArg) : (bareArgs args).length = args.length :=
  bareRelabelling.length_args () args

theorem map_source_bareJoins (joins : List Join) :
    (bareJoins joins).map Join.source = (joins.map Join.source).map Source.bare :=
  bareRelabelling.map_source_joins () joins

/-! ### The form of a tree -/

theorem kindName_bare (e : Expr) : e.bare.kindName = e.kindName :=
  bareRelabelling.kindName_expr () e

theorem isFragment_bare (e : Expr) : e.bare.isFragment = e.isFragment :=
  bareRelabelling.isFragment_expr () e

theorem containsAggregate_bare (e : Expr) : e.bare.containsAggregate = e.containsAggregate :=
  bareRelabelling.containsAggregate_expr () e

theorem checkOperands_bare (op : Operator) (operands : List Expr) :
    checkOperands op (bareAll operands) = checkOperands op operands :=
  bareRelabelling.checkOperands_all () op operands

theorem checkArguments_bare (kind : AggregateKind) (args : List Expr) :
    checkArguments kind (bareAll args) = checkArguments kind args :=
  bareRelabelling.checkArguments_all () kind args

theorem bare_of_value? {e : Expr} {v : Value} (h : e.value? = some v) : e.bare = e := by
  cases e with
  | literal _ | param _ => rfl
  | _ => cases h

theorem value?_bare (e : Expr) : e.bare.value? = e.value? := by
  cases e <;> rfl

theorem firstFault_bare (index : Nat) (args : List FragmentArg) :
    firstFault index (bareArgs args) = firstFault index args := by
  have hfault (arg : FragmentArg) : (bareRelabelling.arg () arg).fault? = arg.fault? := by
    obtain ⟨role, e⟩ := arg
    exact fault?_of_value? (value?_bare e)
  have hargs : bareArgs args = args.map (bareRelabelling.arg ()) :=
    bareRelabelling.args_eq_map () args
  rw [hargs, firstFault_map hfault]

/-! ### Sources -/

theorem name_bare (source : Source) : source.bare.name = source.name :=
  bareRelabelling.name_source () source

theorem declare_bare (catalog : Catalog) (scopes : ScopeStack) (source : Source) :
    source.bare.declare catalog scopes = source.declare catalog scopes := by
  obtain ⟨origin, name⟩ := source
  cases origin <;> rfl

theorem declareSources_bare (catalog : Catalog) (outer : ScopeStack) (scope : Scope)
    (sources : List Source) :
    declareSources catalog outer scope (sources.map Source.bare) =
      declareSources catalog outer scope sources := by
  induction sources generalizing scope with
  | nil => rfl
  | cons source rest ih =>
    rw [List.map_cons, declareSources, declareSources, declare_bare, name_bare]
    simp only [ih]

/-! ### Sameness and aliases -/

theorem bareRelabelling_congruent : bareRelabelling.Congruent fun _ => True where
  literal _ _ _ h := h
  param _ _ _ h := h
  table _ _ _ h := h
  declared _ _ _ h := h
  under _ _ := trivial
  inside _ _ _ _ := ⟨trivial, rfl⟩

/-- Expressions that are the same are the same when they are made bare. -/
theorem Expr.same_bare (e : Expr) {e' : Expr} (h : e.same e' = true) :
    e.bare.same e'.bare = true :=
  bareRelabelling_congruent.same_expr (i := ()) trivial e h

theorem outermostAliases_bare (e : Expr) :
    e.bare.outermostAliases = bareEntries e.outermostAliases :=
  bareRelabelling.outermostAliases_expr () e

theorem resolve_bare {table table' : AliasTable}
    (h : table'.entries = bareEntries table.entries) (name : String) :
    table'.resolve name = (table.resolve name).map Expr.bare :=
  bareRelabelling.resolve_entries () h name

end QueryCompiler
