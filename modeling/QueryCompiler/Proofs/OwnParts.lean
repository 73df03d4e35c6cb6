import QueryCompiler.Query.Aggregates

/-!
# What belongs to a query itself

The expressions inside an expression that belong to the same query, itself included: the arguments
of fragments, the computed steps of paths and every other operand, but nothing inside subqueries.
Whether there is an aggregate among them is what `Expr.containsAggregate` finds out.
-/

namespace QueryCompiler

mutual

/-- An expression and all expressions in it that are not inside subqueries, from left to right. -/
def Expr.own (e : Expr) : List Expr :=
  e :: match e with
    | .operator _ operands => ownAll operands
    | .aggregate _ args _ filter => ownAll args ++ ownOption filter
    | .fragment _ _ args => ownArgs args
    | .cast value _ _ => value.own
    | .merge left right => left.own ++ right.own
    | .aliased value _ => value.own
    | .jsonPath base path => base.own ++ ownPath path
    | .interval count _ => count.own
    | .tuple items => ownAll items
    | .mapping entries => ownEntries entries
    | .literal _ | .param _ | .field _ | .binding _ | .parentBinding _ | .subquery _ _ | .values _
    | .projection _ _ | .aliasRef _ => []

def ownAll : List Expr → List Expr
  | [] => []
  | e :: rest => e.own ++ ownAll rest

def ownOption : Option Expr → List Expr
  | none => []
  | some e => e.own

def ownArgs : List FragmentArg → List Expr
  | [] => []
  | .mk _ e :: rest => e.own ++ ownArgs rest

def ownPath : List PathStep → List Expr
  | [] => []
  | .computed e :: rest => e.own ++ ownPath rest
  | .key _ :: rest => ownPath rest
  | .index _ :: rest => ownPath rest

def ownEntries : List (String × Expr) → List Expr
  | [] => []
  | (_, e) :: rest => e.own ++ ownEntries rest

end

def ownTerms : List OrderTerm → List Expr
  | [] => []
  | .mk e _ :: rest => e.own ++ ownTerms rest

def Source.own : Source → List Expr
  | .mk (.fragment e) _ => e.own
  | .mk (.schema _) _ | .mk (.table _) _ | .mk (.values _) _ | .mk (.subquery _) _ => []

def ownJoins : List Join → List Expr
  | [] => []
  | .mk _ source on :: rest => source.own ++ ownOption on ++ ownJoins rest

/-- The expressions of a query itself outside of its projection. -/
def Query.ownClauses : Query → List Expr
  | .mk source joins wheres _ groupBy having orderBy limit offset _ =>
    source.own ++ ownJoins joins ++ ownAll wheres ++ ownAll groupBy ++ ownAll having ++
      ownTerms orderBy ++ ownOption limit ++ ownOption offset

theorem ownPath_append (path path' : List PathStep) :
    ownPath (path ++ path') = ownPath path ++ ownPath path' := by
  induction path with
  | nil => rfl
  | cons step rest ih => cases step <;> simp [ownPath, ih]

/-! ### Aggregates -/

def Expr.isAggregate : Expr → Bool
  | .aggregate _ _ _ _ => true
  | _ => false

mutual

/-- An expression contains an aggregate if one of its own expressions is one. -/
theorem containsAggregate_eq (e : Expr) : e.containsAggregate = e.own.any Expr.isAggregate := by
  match e with
  | .aggregate kind args distinct filter => rfl
  | .operator op operands =>
    simp [Expr.containsAggregate, Expr.own, Expr.isAggregate, anyAggregate_eq operands]
  | .tuple items =>
    simp [Expr.containsAggregate, Expr.own, Expr.isAggregate, anyAggregate_eq items]
  | .fragment text parts args =>
    simp [Expr.containsAggregate, Expr.own, Expr.isAggregate, anyAggregateArg_eq args]
  | .cast value target resolved =>
    simp [Expr.containsAggregate, Expr.own, Expr.isAggregate, containsAggregate_eq value]
  | .merge left right =>
    simp [Expr.containsAggregate, Expr.own, Expr.isAggregate, containsAggregate_eq left,
      containsAggregate_eq right]
  | .aliased value name =>
    simp [Expr.containsAggregate, Expr.own, Expr.isAggregate, containsAggregate_eq value]
  | .jsonPath base path =>
    simp [Expr.containsAggregate, Expr.own, Expr.isAggregate, containsAggregate_eq base,
      anyAggregateStep_eq path]
  | .interval count unit =>
    simp [Expr.containsAggregate, Expr.own, Expr.isAggregate, containsAggregate_eq count]
  | .mapping entries =>
    simp [Expr.containsAggregate, Expr.own, Expr.isAggregate, anyAggregateEntry_eq entries]
  | .literal _ | .param _ | .field _ | .binding _ | .parentBinding _ | .subquery _ _ | .values _
  | .projection _ _ | .aliasRef _ => rfl

theorem anyAggregate_eq (es : List Expr) : anyAggregate es = (ownAll es).any Expr.isAggregate := by
  match es with
  | [] => rfl
  | e :: rest =>
    rw [anyAggregate, ownAll, List.any_append, containsAggregate_eq e, anyAggregate_eq rest]

theorem anyAggregateArg_eq (args : List FragmentArg) :
    anyAggregateArg args = (ownArgs args).any Expr.isAggregate := by
  match args with
  | [] => rfl
  | .mk role e :: rest =>
    rw [anyAggregateArg, ownArgs, List.any_append, containsAggregate_eq e, anyAggregateArg_eq rest]

theorem anyAggregateStep_eq (path : List PathStep) :
    anyAggregateStep path = (ownPath path).any Expr.isAggregate := by
  match path with
  | [] => rfl
  | .computed e :: rest =>
    rw [anyAggregateStep, ownPath, List.any_append, containsAggregate_eq e,
      anyAggregateStep_eq rest]
  | .key _ :: rest => exact anyAggregateStep_eq rest
  | .index _ :: rest => exact anyAggregateStep_eq rest

theorem anyAggregateEntry_eq (entries : List (String × Expr)) :
    anyAggregateEntry entries = (ownEntries entries).any Expr.isAggregate := by
  match entries with
  | [] => rfl
  | (key, e) :: rest =>
    rw [anyAggregateEntry, ownEntries, List.any_append, containsAggregate_eq e,
      anyAggregateEntry_eq rest]

end

theorem containsAggregate_eq_false {e : Expr} :
    e.containsAggregate = false ↔ ∀ f ∈ e.own, f.isAggregate = false := by
  rw [containsAggregate_eq, List.any_eq_false]
  simp

end QueryCompiler
