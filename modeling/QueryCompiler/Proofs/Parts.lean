import QueryCompiler.Query

/-!
# The parts of a query

All expressions, values tables and queries inside a query, itself included, each with the level at
which it stands: how many queries enclose the one that it belongs to.
-/

namespace QueryCompiler

inductive Part where
  | expr (e : Expr)
  | table (table : ValuesTable)
  | query (query : Query)

mutual

/-- An expression and what it consists of; the level is that of the query it belongs to. -/
def Expr.parts (level : Nat) (e : Expr) : List (Nat × Part) :=
  (level, .expr e) :: match e with
    | .operator _ operands => partsAll level operands
    | .aggregate _ args _ filter => partsAll level args ++ partsOption level filter
    | .fragment _ _ args => partsArgs level args
    | .cast value _ _ => value.parts level
    | .subquery _ query => query.parts (level + 1)
    | .values table => [(level, .table table)]
    | .merge left right => left.parts level ++ right.parts level
    | .aliased value _ => value.parts level
    | .jsonPath base path => base.parts level ++ partsPath level path
    | .interval count _ => count.parts level
    | .tuple items => partsAll level items
    | .mapping entries => partsEntries level entries
    | .literal _ | .param _ | .field _ | .binding _ | .parentBinding _ | .projection _ _
    | .aliasRef _ => []

def partsAll (level : Nat) : List Expr → List (Nat × Part)
  | [] => []
  | e :: rest => e.parts level ++ partsAll level rest

def partsOption (level : Nat) : Option Expr → List (Nat × Part)
  | none => []
  | some e => e.parts level

def partsArgs (level : Nat) : List FragmentArg → List (Nat × Part)
  | [] => []
  | .mk _ e :: rest => e.parts level ++ partsArgs level rest

def partsPath (level : Nat) : List PathStep → List (Nat × Part)
  | [] => []
  | .computed e :: rest => e.parts level ++ partsPath level rest
  | .key _ :: rest => partsPath level rest
  | .index _ :: rest => partsPath level rest

def partsEntries (level : Nat) : List (String × Expr) → List (Nat × Part)
  | [] => []
  | (_, e) :: rest => e.parts level ++ partsEntries level rest

def partsTerms (level : Nat) : List OrderTerm → List (Nat × Part)
  | [] => []
  | .mk e _ :: rest => e.parts level ++ partsTerms level rest

def Source.parts (level : Nat) : Source → List (Nat × Part)
  | .mk (.schema _) _ => []
  | .mk (.table _) _ => []
  | .mk (.values table) _ => [(level, .table table)]
  | .mk (.subquery query) _ => query.parts (level + 1)
  | .mk (.fragment e) _ => e.parts level

def partsJoins (level : Nat) : List Join → List (Nat × Part)
  | [] => []
  | .mk _ source on :: rest => source.parts level ++ partsOption level on ++ partsJoins level rest

/-- A query that so many queries enclose, and what it consists of. -/
def Query.parts (level : Nat) (query : Query) : List (Nat × Part) :=
  (level, .query query) :: match query with
    | .mk source joins wheres select groupBy having orderBy limit offset _ =>
      source.parts level ++ partsJoins level joins ++ partsAll level wheres ++
        partsOption level select ++ partsAll level groupBy ++ partsAll level having ++
        partsTerms level orderBy ++ partsOption level limit ++ partsOption level offset

end

/-- How deep queries are nested in a query: none if it has no subquery. -/
def Query.nesting (query : Query) : Nat := (query.parts 0).foldr (fun part n => max part.1 n) 0

/-- The level of every part is at most the nesting. -/
theorem level_le_nesting {query : Query} {part : Nat × Part} (h : part ∈ query.parts 0) :
    part.1 ≤ query.nesting := by
  rw [Query.nesting]
  generalize query.parts 0 = parts at h ⊢
  induction parts with
  | nil => cases h
  | cons first rest ih =>
    rw [List.foldr_cons]
    rcases List.mem_cons.1 h with rfl | h
    · exact Nat.le_max_left ..
    · exact Nat.le_trans (ih h) (Nat.le_max_right ..)

/-- The nesting is the greatest of the levels of the parts. -/
theorem nesting_le {query : Query} {n : Nat} :
    query.nesting ≤ n ↔ ∀ part ∈ query.parts 0, part.1 ≤ n := by
  refine ⟨fun h part hpart => Nat.le_trans (level_le_nesting hpart) h, ?_⟩
  rw [Query.nesting]
  generalize query.parts 0 = parts
  intro h
  induction parts with
  | nil => exact Nat.zero_le n
  | cons first rest ih =>
    rw [List.forall_mem_cons] at h
    exact Nat.max_le.2 ⟨h.1, ih h.2⟩

end QueryCompiler
