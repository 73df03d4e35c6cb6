import QueryCompiler.Query

/-!
# Aggregates in expressions

Whether an expression contains an aggregate of the query it stands in. Subqueries are not looked
into, as their aggregates are their own.
-/

namespace QueryCompiler

mutual

def Expr.containsAggregate : Expr → Bool
  | .aggregate _ _ _ _ => true
  | .operator _ operands => anyAggregate operands
  | .tuple items => anyAggregate items
  | .fragment _ _ args => anyAggregateArg args
  | .cast value _ _ => value.containsAggregate
  | .merge left right => left.containsAggregate || right.containsAggregate
  | .aliased value _ => value.containsAggregate
  | .jsonPath base path => base.containsAggregate || anyAggregateStep path
  | .interval count _ => count.containsAggregate
  | .mapping entries => anyAggregateEntry entries
  | _ => false

def anyAggregate : List Expr → Bool
  | [] => false
  | e :: rest => e.containsAggregate || anyAggregate rest

def anyAggregateArg : List FragmentArg → Bool
  | [] => false
  | .mk _ e :: rest => e.containsAggregate || anyAggregateArg rest

def anyAggregateStep : List PathStep → Bool
  | [] => false
  | .computed e :: rest => e.containsAggregate || anyAggregateStep rest
  | .key _ :: rest => anyAggregateStep rest
  | .index _ :: rest => anyAggregateStep rest

def anyAggregateEntry : List (String × Expr) → Bool
  | [] => false
  | (_, e) :: rest => e.containsAggregate || anyAggregateEntry rest

end

end QueryCompiler
