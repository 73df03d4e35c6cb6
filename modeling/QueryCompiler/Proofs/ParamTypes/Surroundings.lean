import QueryCompiler.Proofs.Binding.Stages
import QueryCompiler.Proofs.Merging

/-!
# Where parameters stand

The type that a parameter is bound as is a function of the type written on it and of the expression
right around it. Here the parameters of a tree are listed with their surroundings, in the order of
binding, and the typing steps of binding are shown to be this one function.
-/

namespace QueryCompiler

/-! ### The rule -/

/-- The type that an expression passes on to the operand beside it. -/
def Expr.knownType? : Expr → Option ResolvedType
  | .field f => (f.resolved.bind (·.type)).map .builtin
  | .cast _ _ resolved => resolved
  | _ => none

/-- What stands right around an expression. -/
inductive Surroundings where
  /-- A cast to a type. -/
  | cast (type : Option ResolvedType)
  /-- An operator of two operands, given the known type of the second of them. -/
  | firstOf (op : Operator) (second : Option ResolvedType)
  /-- An operator of two operands, given the known type of the first of them. -/
  | secondOf (op : Operator) (first : Option ResolvedType)
  /-- The interval, the limit or the offset whose count the expression is. -/
  | count
  | other

/-- The type that surroundings imply for a parameter on which none is written. -/
def Surroundings.implied? : Surroundings → Option ResolvedType
  | secondOf .like _ | secondOf .ilike _ => some (.builtin .string)
  | secondOf .member (some (.builtin t)) => some (.array t)
  | firstOf op type | secondOf op type =>
    if op.isComparison || op.isArithmetic || op == .coalesce then type else none
  | count => some (.builtin .integer)
  | cast _ | other => none

/-- The type of a parameter in its surroundings. -/
def Param.typeIn (p : Param) : Surroundings → Option ResolvedType
  | .cast type => type
  | around => match p.type with
    | some type => some type
    | none => if p.splice then none else around.implied?

/-! ### Parameters with their surroundings -/

/-- The parameter that a spliced list becomes. -/
def FragmentArg.spliced? : FragmentArg → Option Param
  | .mk .splice (.param p) => some { p with splice := true }
  | .mk .splice (.literal v) => some ⟨v, none, none, true⟩
  | _ => none

mutual

/-- The parameters in an expression, from left to right, each with its surroundings. -/
def Expr.params (around : Surroundings) : Expr → List (Surroundings × Param)
  | .param p => [(around, p)]
  | .operator op [left, right] =>
    left.params (.firstOf op right.knownType?) ++ right.params (.secondOf op left.knownType?)
  | .operator _ operands => paramsAll operands
  | .aggregate _ args _ filter => paramsAll args ++ paramsOption .other filter
  | .fragment _ _ args => paramsArgs args
  | .cast value _ resolved => value.params (.cast resolved)
  | .subquery _ query => query.params
  | .merge left right => left.params .other ++ right.params .other
  | .aliased value _ => value.params .other
  | .jsonPath base path => base.params .other ++ paramsPath path
  | .interval count _ => count.params .count
  | .tuple items => paramsAll items
  | .mapping entries => paramsEntries entries
  | .literal _ | .field _ | .binding _ | .parentBinding _ | .values _ | .projection _ _
  | .aliasRef _ => []

def paramsAll : List Expr → List (Surroundings × Param)
  | [] => []
  | e :: rest => e.params .other ++ paramsAll rest

def paramsOption (around : Surroundings) : Option Expr → List (Surroundings × Param)
  | none => []
  | some e => e.params around

/-- Inline arguments are no parameters any more when the fragment is processed. -/
def paramsArgs : List FragmentArg → List (Surroundings × Param)
  | [] => []
  | .mk .parameter e :: rest => e.params .other ++ paramsArgs rest
  | arg :: rest => arg.spliced?.toList.map (Prod.mk .other) ++ paramsArgs rest

def paramsPath : List PathStep → List (Surroundings × Param)
  | [] => []
  | .computed e :: rest => e.params .other ++ paramsPath rest
  | .key _ :: rest => paramsPath rest
  | .index _ :: rest => paramsPath rest

def paramsEntries : List (String × Expr) → List (Surroundings × Param)
  | [] => []
  | (_, e) :: rest => e.params .other ++ paramsEntries rest

def paramsTerms : List OrderTerm → List (Surroundings × Param)
  | [] => []
  | .mk e _ :: rest => e.params .other ++ paramsTerms rest

def Source.params : Source → List (Surroundings × Param)
  | .mk (.subquery query) _ => query.params
  | .mk (.fragment e) _ => e.params .other
  | .mk (.schema _) _ | .mk (.table _) _ | .mk (.values _) _ => []

def paramsJoins : List Join → List (Surroundings × Param)
  | [] => []
  | .mk _ source on :: rest => source.params ++ paramsOption .other on ++ paramsJoins rest

/-- The parameters in a query: those of its projection come first. -/
def Query.params : Query → List (Surroundings × Param)
  | .mk source joins wheres select groupBy having orderBy limit offset _ =>
    paramsOption .other select ++ source.params ++ paramsJoins joins ++ paramsAll wheres ++
      paramsAll groupBy ++ paramsAll having ++ paramsTerms orderBy ++ paramsOption .count limit ++
      paramsOption .count offset

end

theorem paramsAll_eq_flatMap (es : List Expr) : paramsAll es = es.flatMap (Expr.params .other) := by
  induction es with
  | nil => rfl
  | cons e rest ih => rw [paramsAll, ih, List.flatMap_cons]

theorem paramsEntries_eq_flatMap (entries : List (String × Expr)) :
    paramsEntries entries = entries.flatMap (Expr.params .other ·.2) := by
  induction entries with
  | nil => rfl
  | cons entry rest ih => rw [paramsEntries, ih, List.flatMap_cons]

theorem paramsArgs_cons (arg : FragmentArg) (rest : List FragmentArg) :
    paramsArgs (arg :: rest) = paramsArgs [arg] ++ paramsArgs rest := by
  obtain ⟨role, e⟩ := arg
  cases role <;> simp [paramsArgs]

theorem paramsPath_append (path path' : List PathStep) :
    paramsPath (path ++ path') = paramsPath path ++ paramsPath path' := by
  induction path with
  | nil => rfl
  | cons step rest ih => cases step <;> simp [paramsPath, ih]

theorem params_gathers : Gathers (Expr.params .other) where
  merge _ _ := rfl
  tuple := paramsAll_eq_flatMap
  mapping := paramsEntries_eq_flatMap
  aliased h _ := h
  projection _ _ := rfl

/-! ### Typing as one step -/

/-- Gives a parameter the type that it has in its surroundings. -/
def Expr.retype (around : Surroundings) : Expr → Expr
  | .param p => .param { p with type := p.typeIn around }
  | e => e

theorem withCastType_eq_retype (t : ResolvedType) (e : Expr) :
    e.withCastType t = e.retype (.cast (some t)) := by
  cases e <;> rfl

/-- A parameter that is given a type takes it if none is written on it and it is not spliced. -/
theorem retype_of_implied {t : ResolvedType} {around : Surroundings}
    (h : around.implied? = some t) (e : Expr) : e.retype around = e.withType t := by
  cases e with
  | param p =>
    obtain ⟨value, index, type, splice⟩ := p
    cases around with
    | cast type => cases h
    | _ => cases type <;> cases splice <;> simp [Expr.withType, Expr.retype, Param.typeIn, h]
  | _ => rfl

/-- A count is an integer. -/
theorem withType_eq_retype_count (e : Expr) :
    e.withType (.builtin .integer) = e.retype .count :=
  (retype_of_implied rfl e).symm

theorem retype_of_implied_none {around : Surroundings} (hcast : ∀ type, around ≠ .cast type)
    (h : around.implied? = none) (e : Expr) : e.retype around = e := by
  cases e with
  | param p =>
    obtain ⟨value, index, type, splice⟩ := p
    cases around with
    | cast type => exact absurd rfl (hcast type)
    | _ => cases type <;> simp [Expr.retype, Param.typeIn, h]
  | _ => rfl

theorem Param.typeIn_other (p : Param) : p.typeIn .other = p.type := by
  cases h : p.type <;> simp [typeIn, h, Surroundings.implied?]

@[simp] theorem retype_other (e : Expr) : e.retype .other = e :=
  retype_of_implied_none (by simp) rfl e

@[simp] theorem knownType?_retype (around : Surroundings) (e : Expr) :
    (e.retype around).knownType? = e.knownType? := by
  cases e <;> rfl

/-- What has a type to pass on is no parameter. -/
theorem retype_of_knownType? {e : Expr} {t : ResolvedType} (h : e.knownType? = some t)
    (around : Surroundings) : e.retype around = e := by
  cases e with
  | param p => cases h
  | _ => rfl

theorem sourceType?_eq_knownType? (e : Expr) : e.sourceType? = e.knownType? := by
  cases e <;> simp [Expr.sourceType?, Expr.knownType?, Expr.type?]

theorem implied?_firstOf (op : Operator) (type : Option ResolvedType) :
    (Surroundings.firstOf op type).implied? =
      if op.isComparison || op.isArithmetic || op == .coalesce then type else none := rfl

/-- Patterns and memberships apart, both operands follow one rule. -/
theorem implied?_secondOf {op : Operator} (hlike : ¬ (op = .like ∨ op = .ilike))
    (hmember : op ≠ .member) (type : Option ResolvedType) :
    (Surroundings.secondOf op type).implied? =
      if op.isComparison || op.isArithmetic || op == .coalesce then type else none := by
  rw [not_or] at hlike
  cases op with
  | like => exact absurd rfl hlike.1
  | ilike => exact absurd rfl hlike.2
  | member => exact absurd rfl hmember
  | _ => rfl

/-- A pattern is a string. -/
theorem propagateTypes_pattern {op : Operator} (hop : op = .like ∨ op = .ilike)
    (left right : Expr) :
    propagateTypes op [left, right] =
      [left.retype (.firstOf op right.knownType?),
        right.retype (.secondOf op left.knownType?)] := by
  have hfirst : (Surroundings.firstOf op right.knownType?).implied? = none := by
    rcases hop with rfl | rfl <;> rfl
  have hsecond : (Surroundings.secondOf op left.knownType?).implied? = some (.builtin .string) := by
    rcases hop with rfl | rfl <;> rfl
  rw [propagateTypes, if_pos hop, retype_of_implied_none (by simp) hfirst,
    retype_of_implied hsecond]

/-- What has members is an array. -/
theorem propagateTypes_member (left right : Expr) :
    propagateTypes .member [left, right] =
      [left.retype (.firstOf .member right.knownType?),
        right.retype (.secondOf .member left.knownType?)] := by
  have hfirst : (Surroundings.firstOf .member right.knownType?).implied? = none := rfl
  rw [propagateTypes, if_neg (by decide), if_pos rfl, sourceType?_eq_knownType?,
    retype_of_implied_none (by simp) hfirst]
  rcases left.knownType? with _ | t | t | d
  · rw [retype_of_implied_none (by simp) rfl]
  · rw [retype_of_implied rfl]
  · rw [retype_of_implied_none (by simp) rfl]
  · rw [retype_of_implied_none (by simp) rfl]

/-- Of two operands with one type at most one is a parameter that takes it from the other. -/
theorem propagateTypes_sides {op : Operator} (hlike : ¬ (op = .like ∨ op = .ilike))
    (hmember : op ≠ .member) (left right : Expr) :
    propagateTypes op [left, right] =
      [left.retype (.firstOf op right.knownType?),
        right.retype (.secondOf op left.knownType?)] := by
  have hfirst := implied?_firstOf op right.knownType?
  have hsecond := implied?_secondOf hlike hmember left.knownType?
  rw [propagateTypes, if_neg hlike, if_neg hmember, sourceType?_eq_knownType?,
    sourceType?_eq_knownType?]
  by_cases hsides : (op.isComparison || op.isArithmetic || op == .coalesce) = true
  · rw [if_pos hsides] at hfirst hsecond ⊢
    cases hleft : left.knownType? with
    | some t =>
      rw [hleft] at hsecond
      rw [retype_of_knownType? hleft, retype_of_implied hsecond]
    | none =>
      rw [hleft] at hsecond
      rw [retype_of_implied_none (by simp) hsecond]
      cases hright : right.knownType? with
      | some t =>
        rw [hright] at hfirst
        rw [retype_of_implied hfirst]
      | none =>
        rw [hright] at hfirst
        rw [retype_of_implied_none (by simp) hfirst]
  · rw [if_neg hsides] at hfirst hsecond ⊢
    rw [retype_of_implied_none (by simp) hfirst, retype_of_implied_none (by simp) hsecond]

/-- Both of two operands take the types that they have beside each other. -/
theorem propagateTypes_pair (op : Operator) (left right : Expr) :
    propagateTypes op [left, right] =
      [left.retype (.firstOf op right.knownType?),
        right.retype (.secondOf op left.knownType?)] := by
  by_cases hlike : op = .like ∨ op = .ilike
  · exact propagateTypes_pattern hlike left right
  by_cases hmember : op = .member
  · subst hmember
    exact propagateTypes_member left right
  exact propagateTypes_sides hlike hmember left right

end QueryCompiler
