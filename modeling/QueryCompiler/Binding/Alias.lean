import QueryCompiler.Error
import QueryCompiler.Query.Same

/-!
# Aliases of selected values

A query may define aliases at the outermost positions of its projection: the projection itself, the
items of a tuple, the values of a mapping and the operands of a merge. Other clauses refer to them
by name.
-/

namespace QueryCompiler

mutual

/-- The aliases that an expression defines at its outermost positions, from left to right. -/
def Expr.outermostAliases : Expr → List (String × Expr)
  | .aliased value name => [(name, value)]
  | .tuple items => outermostAliasesAll items
  | .mapping entries => outermostAliasesEntries entries
  | .merge left right => left.outermostAliases ++ right.outermostAliases
  | _ => []

def outermostAliasesAll : List Expr → List (String × Expr)
  | [] => []
  | e :: rest => e.outermostAliases ++ outermostAliasesAll rest

def outermostAliasesEntries : List (String × Expr) → List (String × Expr)
  | [] => []
  | (_, e) :: rest => e.outermostAliases ++ outermostAliasesEntries rest

end

/-- The aliases of one query in the order of their definitions. -/
structure AliasTable where
  entries : List (String × Expr)
  /-- Whether a name may be defined again with the same value. -/
  allowIdentical : Bool
  deriving Inhabited

namespace AliasTable

def empty (allowIdentical : Bool) : AliasTable := ⟨[], allowIdentical⟩

def names (table : AliasTable) : List String := table.entries.map Prod.fst

def resolve (table : AliasTable) (name : String) : Option Expr := findEntry name table.entries

/-- Defines a name. It must be new or, where that is allowed, have the value that it has already. -/
def define (table : AliasTable) (name : String) (value : Expr) : Except AliasError AliasTable :=
  match table.resolve name with
  | some existing =>
    if table.allowIdentical && existing.same value then .ok table else .error (.duplicate name)
  | none => .ok { table with entries := table.entries ++ [(name, value)] }

def defineAll (table : AliasTable) : List (String × Expr) → Except AliasError AliasTable
  | [] => .ok table
  | (name, value) :: rest => match table.define name value with
    | .ok table => table.defineAll rest
    | .error e => .error e

/-- The aliases of a projection. -/
def collect (select : Option Expr) (allowIdentical : Bool) : Except AliasError AliasTable :=
  match select with
  | none => .ok (empty allowIdentical)
  | some e => (empty allowIdentical).defineAll e.outermostAliases

/-- A reference to an alias needs its definition. -/
def require (table : AliasTable) (name : String) : Except AliasError Unit :=
  match table.resolve name with
  | some _ => .ok ()
  | none => .error (.undefined name)

end AliasTable

end QueryCompiler
