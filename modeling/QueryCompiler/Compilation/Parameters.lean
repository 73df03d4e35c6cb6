import QueryCompiler.Error
import QueryCompiler.Query

/-!
# Bound parameters

A parameter of a bound query claims its index, and a values table one index for each of its cells.
The claims of a query must take every index exactly once; the values then stand in a list in the
order of their indices.
-/

namespace QueryCompiler

structure BoundParam where
  value : Value
  /-- The type that the value is bound as, if it is known. -/
  type : Option ResolvedType
  /-- Whether a list value takes one placeholder for every element. -/
  splice : Bool
  deriving Inhabited

def BoundParam.same (p q : BoundParam) : Bool :=
  p.value.same q.value && p.type == q.type && p.splice == q.splice

def sameParams : List BoundParam → List BoundParam → Bool
  | [], [] => true
  | p :: ps, q :: qs => p.same q && sameParams ps qs
  | _, _ => false

/-! ### Claims -/

inductive Claim where
  | taken (index : Nat) (param : BoundParam)
  /-- A parameter has no index. -/
  | unindexed
  /-- A values table has no first index. -/
  | unboundTable
  deriving Inhabited

def Param.claim (p : Param) : Claim :=
  match p.index with
  | some index => .taken index ⟨p.value, p.type, p.splice⟩
  | none => .unindexed

/-- The claims of cells, the first of which claims `index`. -/
def cellClaims (index : Nat) : List (Value × Option ResolvedType) → List Claim
  | [] => []
  | (value, type) :: rest => .taken index ⟨value, type, false⟩ :: cellClaims (index + 1) rest

def ValuesTable.claims (table : ValuesTable) : List Claim :=
  match table.firstParam with
  | some first => cellClaims first table.cells
  | none => [.unboundTable]

mutual

/--
The claims in an expression from left to right, those of an aggregate's arguments before those of
its filter.
-/
def Expr.claims : Expr → List Claim
  | .param p => [p.claim]
  | .operator _ operands => claimsAll operands
  | .aggregate _ args _ filter => claimsAll args ++ claimsOption filter
  | .fragment _ _ args => claimsArgs args
  | .cast value _ _ => value.claims
  | .subquery _ query => query.claims
  | .values table => table.claims
  | .merge left right => left.claims ++ right.claims
  | .aliased value _ => value.claims
  | .jsonPath base path => base.claims ++ claimsPath path
  | .interval count _ => count.claims
  | .tuple items => claimsAll items
  | .mapping entries => claimsEntries entries
  | _ => []

def claimsAll : List Expr → List Claim
  | [] => []
  | e :: rest => e.claims ++ claimsAll rest

def claimsOption : Option Expr → List Claim
  | none => []
  | some e => e.claims

def claimsArgs : List FragmentArg → List Claim
  | [] => []
  | .mk _ e :: rest => e.claims ++ claimsArgs rest

def claimsPath : List PathStep → List Claim
  | [] => []
  | .computed e :: rest => e.claims ++ claimsPath rest
  | .key _ :: rest => claimsPath rest
  | .index _ :: rest => claimsPath rest

def claimsEntries : List (String × Expr) → List Claim
  | [] => []
  | (_, e) :: rest => e.claims ++ claimsEntries rest

def claimsTerms : List OrderTerm → List Claim
  | [] => []
  | .mk e _ :: rest => e.claims ++ claimsTerms rest

def Source.claims : Source → List Claim
  | .mk (.values table) _ => table.claims
  | .mk (.subquery query) _ => query.claims
  | .mk (.fragment e) _ => e.claims
  | .mk (.schema _) _ => []
  | .mk (.table _) _ => []

def claimsJoins : List Join → List Claim
  | [] => []
  | .mk _ source on :: rest => source.claims ++ claimsOption on ++ claimsJoins rest

/--
The claims in a query, clause after clause as the query is written down: sources, filters,
projection, and the rest.
-/
def Query.claims : Query → List Claim
  | .mk source joins wheres select groupBy having orderBy limit offset _ =>
    source.claims ++ claimsJoins joins ++ claimsAll wheres ++ claimsOption select ++
      claimsAll groupBy ++ claimsAll having ++ claimsTerms orderBy ++ claimsOption limit ++
      claimsOption offset

end

/-! ### Assignment -/

/-- Grants one claim. -/
def grant (slots : List (Option BoundParam)) : Claim → Except ExprFault (List (Option BoundParam))
  | .unindexed => .error .unindexedParam
  | .unboundTable => .error .unboundTable
  | .taken index param => match slots[index]? with
    | none => .error (.outOfRange index)
    | some (some _) => .error (.boundTwice index)
    | some none => .ok (slots.set index (some param))

def grantAll (slots : List (Option BoundParam)) :
    List Claim → Except ExprFault (List (Option BoundParam))
  | [] => .ok slots
  | claim :: rest => match grant slots claim with
    | .ok slots => grantAll slots rest
    | .error e => .error e

/-- The parameters of slots that are all taken; the first of the slots has the index `index`. -/
def allTaken (index : Nat) : List (Option BoundParam) → Except ExprFault (List BoundParam)
  | [] => .ok []
  | none :: _ => .error (.neverBound index)
  | some param :: rest => match allTaken (index + 1) rest with
    | .ok params => .ok (param :: params)
    | .error e => .error e

/-- The parameters of a query with `count` indices. -/
def Query.boundParams (query : Query) (count : Nat) : Except ExprFault (List BoundParam) :=
  match grantAll (List.replicate count none) query.claims with
  | .ok slots => allTaken 0 slots
  | .error e => .error e

end QueryCompiler
