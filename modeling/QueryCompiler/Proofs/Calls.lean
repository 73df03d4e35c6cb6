import QueryCompiler.Proofs.Calls.Table

/-!
# Parameters of calls

A call brings the parameters of its arguments into its expression, each of them once and in order.
Only the filter of an aggregate that is filtered again is left out, with the parameters in it.
-/

namespace QueryCompiler

/-! ### Parameters among parts -/

def Part.param? : Part → Option Param
  | expr (.param p) => some p
  | _ => none

/-- The parameters among some parts, in their order. -/
def paramsAmong (parts : List (Nat × Part)) : List Param :=
  parts.filterMap fun part => part.2.param?

@[simp] theorem paramsAmong_nil : paramsAmong [] = [] := rfl

@[simp] theorem paramsAmong_cons (part : Nat × Part) (rest : List (Nat × Part)) :
    paramsAmong (part :: rest) = part.2.param?.toList ++ paramsAmong rest := by
  rw [paramsAmong, List.filterMap_cons, paramsAmong]
  cases part.2.param? <;> rfl

@[simp] theorem paramsAmong_append (parts parts' : List (Nat × Part)) :
    paramsAmong (parts ++ parts') = paramsAmong parts ++ paramsAmong parts' :=
  List.filterMap_append

/-- The parameters of an expression from left to right, those in its subqueries included. -/
def Expr.allParams (e : Expr) : List Param := paramsAmong (e.parts 0)

/-- The parameters of an argument from left to right. -/
def CallArg.params (a : CallArg) : List Param := paramsAmong a.parts

/-! ### Arguments -/

namespace CallArg

@[simp] theorem params_expr (e : Expr) : (expr e).params = e.allParams := rfl

@[simp] theorem params_query (q : Query) : (query q).params = paramsAmong (q.parts 1) := rfl

@[simp] theorem params_path (steps : List PathStep) :
    (path steps).params = paramsAmong (partsPath 0 steps) := rfl

@[simp] theorem params_atom (text : String) : (atom text).params = [] := rfl

@[simp] theorem params_text (text : String) : (CallArg.text text).params = [] := rfl

@[simp] theorem params_fields (set : FieldSet) : (fields set).params = [] := rfl

@[simp] theorem params_rows (rows : List Row) : (CallArg.rows rows).params = [] := rfl

variable {name : String} {a : CallArg}

theorem params_of_asExpr {x : Expr} (h : a.asExpr name = .ok x) : x.allParams = a.params := by
  rcases asExpr_eq_ok.1 h with rfl | ⟨query, rfl, rfl⟩
  · rfl
  · simp [Expr.allParams, Expr.parts, Part.param?]

theorem params_of_asSource {source : SourceRef} (h : a.asSource name = .ok source) :
    a.params = [] := by
  cases a with
  | expr x =>
    cases x with
    | binding _ | parentBinding _ => rfl
    | _ => cases h
  | source _ => rfl
  | _ => cases h

theorem params_of_asType {target : TypeRef} (h : a.asType name = .ok target) : a.params = [] := by
  cases a with
  | expr x =>
    cases x with
    | field _ => rfl
    | _ => cases h
  | type _ | atom _ => rfl
  | _ => cases h

theorem params_of_asFieldName {fieldName : FieldName} (h : a.asFieldName name = .ok fieldName) :
    a.params = [] := by
  cases a <;> cases h <;> rfl

theorem params_of_asTypes {types : ValuesTypes} (h : a.asTypes name = .ok types) :
    a.params = [] := by
  cases a <;> cases h <;> rfl

theorem params_of_asUnit {unit : IntervalUnit} (h : a.asUnit name = .ok unit) : a.params = [] := by
  cases a with
  | text _ | atom _ => rfl
  | _ => cases h

theorem params_of_argues {args : List CallArg} {fargs : List FragmentArg}
    (h : List.Forall₂ (Argues name) args fargs) :
    paramsAmong (partsArgs 0 fargs) = args.flatMap params := by
  induction h with
  | nil => rfl
  | cons harg _ ih =>
    rw [List.flatMap_cons, ← ih]
    cases harg with
    | fragment => exact paramsAmong_append ..
    | parameter hx =>
      rw [← params_of_asExpr hx]
      exact paramsAmong_append ..

end CallArg

/-! ### Calls -/

section

attribute [local simp] Expr.allParams Expr.parts partsAll partsOption Part.param?

open CallArg

/-- Callees other than `filter` leave out no parameter. -/
theorem Callee.Builds.allParams {name : String} {callee : Callee} {args : List CallArg} {e : Expr}
    (h : callee.Builds name args e) (hfilter : callee ≠ .filter) :
    e.allParams = args.flatMap CallArg.params := by
  cases h with
  | unary ha => simp [← params_of_asExpr ha]
  | binary ha hb => simp [← params_of_asExpr ha, ← params_of_asExpr hb]
  | subquery => simp
  | countRows => simp
  | aggregate ha => simp [← params_of_asExpr ha]
  | countDistinct ha => simp [← params_of_asExpr ha]
  | filter _ _ => exact absurd rfl hfilter
  | shiftDate ha hb hc => simp [← params_of_asExpr ha, ← params_of_asExpr hb, params_of_asUnit hc]
  | relative ha hb => simp [← params_of_asExpr ha, params_of_asUnit hb]
  | fragment hrest => simp [params_of_argues hrest]
  | values hb => simp [params_of_asTypes hb]
  | field ha hb => simp [params_of_asSource ha, params_of_asFieldName hb]
  | projection ha => simp [params_of_asSource ha]
  | merge ha hb => simp [← params_of_asExpr ha, ← params_of_asExpr hb]
  | jsonPath ha => simp [← params_of_asExpr ha]
  | cast ha hb => simp [← params_of_asExpr ha, params_of_asType hb]
  | binding | parentBinding | aliasRef => simp
  | aliased ha => simp [← params_of_asExpr ha]

/-- Filtering an aggregate leaves out the parameters of the filter that it has. -/
theorem Callee.Builds.allParams_filter {name : String} {args : List CallArg} {e : Expr}
    (h : Callee.filter.Builds name args e) :
    ∃ kind operands distinct old condition,
      args = [.expr (.aggregate kind operands distinct old), condition] ∧
      args.flatMap CallArg.params = paramsAmong (partsAll 0 operands) ++
        paramsAmong (partsOption 0 old) ++ condition.params ∧
      e.allParams = paramsAmong (partsAll 0 operands) ++ condition.params := by
  cases h with
  | @filter a b kind operands distinct old condition ha hb =>
    obtain rfl | ⟨_, -, hquery⟩ := asExpr_eq_ok.1 ha
    · refine ⟨kind, operands, distinct, old, b, rfl, ?_, ?_⟩
      · simp
      · simp [← params_of_asExpr hb]
    · cases hquery

end

/-! ### What calls leave out -/

theorem Callee.table_filter :
    ∀ entry ∈ Callee.table, entry.2.2 = .filter ↔ entry.1 = "filter" := by
  simp [Callee.table]

/-- `filter` is the name of one callee only. -/
theorem Callee.eq_filter_of_find? {name : String} {n : Nat} {callee : Callee}
    (h : find? name n = some callee) : callee = .filter ↔ name = "filter" := by
  rcases find?_eq_some h with ⟨rfl, -, rfl⟩ | hentry
  · decide
  · exact table_filter _ hentry

/-- The filter that a call replaces: the one that the aggregate has which is filtered. -/
def replacedFilter (name : String) : List CallArg → Option Expr
  | [.expr (.aggregate _ _ _ old), _] => if name = "filter" then old else none
  | _ => none

theorem replacedFilter_of_ne {name : String} (h : name ≠ "filter") (args : List CallArg) :
    replacedFilter name args = none := by
  unfold replacedFilter
  split
  · exact if_neg h
  · rfl

/--
A call brings all parameters of its arguments into its expression, in the order of the arguments,
but for those of the filter that it replaces.
-/
theorem call_allParams (name : String) (args : List CallArg) (e : Expr)
    (h : call name args = .ok e) :
    ∃ before after, args.flatMap CallArg.params =
        before ++ paramsAmong (partsOption 0 (replacedFilter name args)) ++ after ∧
      e.allParams = before ++ after := by
  obtain ⟨callee, hfind, hbuilds⟩ := (call_yields name args).ok h
  have hname := Callee.eq_filter_of_find? hfind
  by_cases hfilter : callee = .filter
  · subst hfilter
    obtain ⟨kind, operands, distinct, old, condition, rfl, hargs, he⟩ := hbuilds.allParams_filter
    refine ⟨_, _, ?_, he⟩
    rw [replacedFilter, if_pos (hname.1 rfl)]
    exact hargs
  · refine ⟨e.allParams, [], ?_, (List.append_nil _).symm⟩
    rw [replacedFilter_of_ne fun hfilter' => hfilter (hname.2 hfilter')]
    simpa [partsOption] using (hbuilds.allParams hfilter).symm

/-- Posts that are public are counted, and then asked for a number of visits. -/
def filterTwice : List CallArg :=
  [.expr (.aggregate .countRows [] false (some (.operator .equal
      [.field ⟨.position 0, .schema "public", none⟩, .param (.ofValue (.bool true))]))),
    .expr (.operator .greater
      [.field ⟨.position 0, .schema "visits", none⟩, .param (.ofValue (.integer 10))])]

/-- Filtered twice, a count keeps the parameter of the second filter, and that of the first is left
out. -/
theorem call_allParams_twice :
    ∃ e, call "filter" filterTwice = .ok e ∧
      ∃ before after, filterTwice.flatMap CallArg.params = before ++
          paramsAmong (partsOption 0 (replacedFilter "filter" filterTwice)) ++ after ∧
        e.allParams = before ++ after :=
  ⟨_, rfl, call_allParams "filter" filterTwice _ rfl⟩

/-- There is a call that loses a parameter of its arguments. -/
theorem exists_call_forgetting :
    ¬ ∀ (name : String) (args : List CallArg) (e : Expr), call name args = .ok e →
      e.allParams = args.flatMap CallArg.params := by
  intro h
  have hkept := h "filter" filterTwice _ rfl
  exact absurd (congrArg List.length hkept) (by decide)

end QueryCompiler
