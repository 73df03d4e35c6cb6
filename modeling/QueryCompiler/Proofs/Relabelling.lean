import QueryCompiler.Binding
import QueryCompiler.Proofs.Aliasing.Equality
import QueryCompiler.Proofs.Maps

/-!
# Relabellings

A relabelling writes something else at the nodes of a tree and keeps the form of the tree: every
node stays a node of its kind, and what stands under it is relabelled in turn. Stages of a
compilation that look at the form of a tree only do not see a relabelling, and one that keeps equal
labels equal keeps equal trees equal.
-/

namespace QueryCompiler

/--
A relabelling for each index in `ι`. An index may change on the way into an argument of a fragment
and into the clauses of a query.
-/
structure Relabelling (ι : Type) where
  expr : ι → Expr → Expr
  all : ι → List Expr → List Expr
  entries : ι → List (String × Expr) → List (String × Expr)
  option : ι → Option Expr → Option Expr
  args : ι → List FragmentArg → List FragmentArg
  path : ι → List PathStep → List PathStep
  terms : ι → List OrderTerm → List OrderTerm
  source : ι → Source → Source
  joins : ι → List Join → List Join
  query : ι → Query → Query
  /-- The index for an argument of a fragment. -/
  under : ι → ArgRole → ι
  /-- The index in the clauses of a query. -/
  inside : ι → Query → ι
  -- the labels
  literal : ι → Value → Value
  param : ι → Param → Param
  field : ι → FieldRef → FieldRef
  target : ι → TypeRef → TypeRef
  table : ι → ValuesTable → ValuesTable
  projection : ι → Projection → Projection
  /-- The label of a values table that is a source. -/
  declared : ι → ValuesTable → ValuesTable
  -- the form
  expr_literal (i : ι) (v : Value) : expr i (.literal v) = .literal (literal i v) := by intros; rfl
  expr_param (i : ι) (p : Param) : expr i (.param p) = .param (param i p) := by intros; rfl
  expr_field (i : ι) (f : FieldRef) : expr i (.field f) = .field (field i f) := by intros; rfl
  expr_binding (i : ι) (r : BindingRef) : expr i (.binding r) = .binding r := by intros; rfl
  expr_parentBinding (i : ι) (r : BindingRef) : expr i (.parentBinding r) = .parentBinding r := by
    intros; rfl
  expr_operator (i : ι) (op : Operator) (operands : List Expr) :
    expr i (.operator op operands) = .operator op (all i operands) := by intros; rfl
  expr_aggregate (i : ι) (kind : AggregateKind) (es : List Expr) (distinct : Bool)
    (filter : Option Expr) :
    expr i (.aggregate kind es distinct filter) =
      .aggregate kind (all i es) distinct (option i filter) := by intros; rfl
  expr_fragment (i : ι) (text : String) (parts : List String) (as : List FragmentArg) :
    expr i (.fragment text parts as) = .fragment text parts (args i as) := by intros; rfl
  expr_cast (i : ι) (value : Expr) (t : TypeRef) (resolved : Option ResolvedType) :
    expr i (.cast value t resolved) = .cast (expr i value) (target i t) resolved := by intros; rfl
  expr_subquery (i : ι) (kind : SubqueryKind) (q : Query) :
    expr i (.subquery kind q) = .subquery kind (query i q) := by intros; rfl
  expr_values (i : ι) (t : ValuesTable) : expr i (.values t) = .values (table i t) := by intros; rfl
  expr_projection (i : ι) (kind : ProjectionKind) (p : Projection) :
    expr i (.projection kind p) = .projection kind (projection i p) := by intros; rfl
  expr_merge (i : ι) (left right : Expr) :
    expr i (.merge left right) = .merge (expr i left) (expr i right) := by intros; rfl
  expr_aliased (i : ι) (value : Expr) (name : String) :
    expr i (.aliased value name) = .aliased (expr i value) name := by intros; rfl
  expr_aliasRef (i : ι) (name : String) : expr i (.aliasRef name) = .aliasRef name := by intros; rfl
  expr_jsonPath (i : ι) (base : Expr) (steps : List PathStep) :
    expr i (.jsonPath base steps) = .jsonPath (expr i base) (path i steps) := by intros; rfl
  expr_interval (i : ι) (count : Expr) (unit : IntervalUnit) :
    expr i (.interval count unit) = .interval (expr i count) unit := by intros; rfl
  expr_tuple (i : ι) (items : List Expr) : expr i (.tuple items) = .tuple (all i items) := by
    intros; rfl
  expr_mapping (i : ι) (es : List (String × Expr)) :
    expr i (.mapping es) = .mapping (entries i es) := by intros; rfl
  all_nil (i : ι) : all i [] = [] := by intros; rfl
  all_cons (i : ι) (e : Expr) (rest : List Expr) :
    all i (e :: rest) = expr i e :: all i rest := by intros; rfl
  entries_nil (i : ι) : entries i [] = [] := by intros; rfl
  entries_cons (i : ι) (key : String) (e : Expr) (rest : List (String × Expr)) :
    entries i ((key, e) :: rest) = (key, expr i e) :: entries i rest := by intros; rfl
  option_none (i : ι) : option i none = none := by intros; rfl
  option_some (i : ι) (e : Expr) : option i (some e) = some (expr i e) := by intros; rfl
  args_nil (i : ι) : args i [] = [] := by intros; rfl
  args_cons (i : ι) (role : ArgRole) (e : Expr) (rest : List FragmentArg) :
    args i (.mk role e :: rest) = .mk role (expr (under i role) e) :: args i rest := by intros; rfl
  path_nil (i : ι) : path i [] = [] := by intros; rfl
  path_key (i : ι) (name : String) (rest : List PathStep) :
    path i (.key name :: rest) = .key name :: path i rest := by intros; rfl
  path_index (i : ι) (n : Int64) (rest : List PathStep) :
    path i (.index n :: rest) = .index n :: path i rest := by intros; rfl
  path_computed (i : ι) (e : Expr) (rest : List PathStep) :
    path i (.computed e :: rest) = .computed (expr i e) :: path i rest := by intros; rfl
  terms_nil (i : ι) : terms i [] = [] := by intros; rfl
  terms_cons (i : ι) (e : Expr) (direction : SortDirection) (rest : List OrderTerm) :
    terms i (.mk e direction :: rest) = .mk (expr i e) direction :: terms i rest := by intros; rfl
  source_schema (i : ι) (schema : String) (name : Option String) :
    source i (.mk (.schema schema) name) = .mk (.schema schema) name := by intros; rfl
  source_table (i : ι) (t : String) (name : Option String) :
    source i (.mk (.table t) name) = .mk (.table t) name := by intros; rfl
  source_values (i : ι) (t : ValuesTable) (name : Option String) :
    source i (.mk (.values t) name) = .mk (.values (declared i t)) name := by intros; rfl
  source_subquery (i : ι) (q : Query) (name : Option String) :
    source i (.mk (.subquery q) name) = .mk (.subquery (query i q)) name := by intros; rfl
  source_fragment (i : ι) (e : Expr) (name : Option String) :
    source i (.mk (.fragment e) name) = .mk (.fragment (expr i e)) name := by intros; rfl
  joins_nil (i : ι) : joins i [] = [] := by intros; rfl
  joins_cons (i : ι) (kind : JoinKind) (s : Source) (on : Option Expr) (rest : List Join) :
    joins i (.mk kind s on :: rest) = .mk kind (source i s) (option i on) :: joins i rest := by
    intros; rfl
  query_mk (i : ι) (s : Source) (js : List Join) (wheres : List Expr) (select : Option Expr)
    (groupBy having : List Expr) (orderBy : List OrderTerm) (limit offset : Option Expr)
    (distinct : Bool) :
    query i (.mk s js wheres select groupBy having orderBy limit offset distinct) =
      let j := inside i (.mk s js wheres select groupBy having orderBy limit offset distinct)
      .mk (source j s) (joins j js) (all j wheres) (option j select) (all j groupBy) (all j having)
        (terms j orderBy) (option j limit) (option j offset) distinct := by intros; rfl

namespace Relabelling

attribute [simp] expr_literal expr_param expr_field expr_binding expr_parentBinding expr_operator
  expr_aggregate expr_fragment expr_cast expr_subquery expr_values expr_projection expr_merge
  expr_aliased expr_aliasRef expr_jsonPath expr_interval expr_tuple expr_mapping

attribute [simp] all_nil all_cons entries_nil entries_cons option_none option_some args_nil
  args_cons path_nil path_key path_index path_computed terms_nil terms_cons joins_nil joins_cons

attribute [simp] source_schema source_table source_values source_subquery source_fragment

variable {ι : Type} (F : Relabelling ι) (i : ι)

/-! ### Lists -/

theorem all_eq_map (es : List Expr) : F.all i es = es.map (F.expr i) := by
  induction es with
  | nil => exact F.all_nil i
  | cons e rest ih => rw [F.all_cons, ih, List.map_cons]

theorem entries_eq_map (entries : List (String × Expr)) :
    F.entries i entries = entries.map fun entry => (entry.1, F.expr i entry.2) := by
  induction entries with
  | nil => exact F.entries_nil i
  | cons entry rest ih => rw [F.entries_cons, ih, List.map_cons]

/-- An argument of a fragment is relabelled according to its role. -/
def arg (F : Relabelling ι) (i : ι) : FragmentArg → FragmentArg
  | .mk role e => .mk role (F.expr (F.under i role) e)

theorem args_eq_map (args : List FragmentArg) : F.args i args = args.map (F.arg i) := by
  induction args with
  | nil => exact F.args_nil i
  | cons arg rest ih =>
    obtain ⟨role, e⟩ := arg
    rw [F.args_cons, ih, List.map_cons, Relabelling.arg]

theorem length_args (args : List FragmentArg) : (F.args i args).length = args.length := by
  rw [F.args_eq_map, List.length_map]

theorem path_append (steps steps' : List PathStep) :
    F.path i (steps ++ steps') = F.path i steps ++ F.path i steps' := by
  induction steps with
  | nil => rw [F.path_nil, List.nil_append, List.nil_append]
  | cons step rest ih => cases step <;> simp [ih]

theorem map_source_joins (joins : List Join) :
    (F.joins i joins).map Join.source = (joins.map Join.source).map (F.source i) := by
  induction joins with
  | nil => simp
  | cons join rest ih =>
    obtain ⟨kind, source, on⟩ := join
    rw [F.joins_cons, List.map_cons, ih]
    rfl

/-! ### The form of a tree -/

theorem isCastable_expr (e : Expr) : (F.expr i e).isCastable = e.isCastable := by
  cases e <;> simp [Expr.isCastable]

theorem isFragment_expr (e : Expr) : (F.expr i e).isFragment = e.isFragment := by
  cases e <;> simp [Expr.isFragment]

theorem kindName_expr (e : Expr) : (F.expr i e).kindName = e.kindName := by
  cases e with
  | projection kind p => cases kind <;> simp [Expr.kindName]
  | _ => simp [Expr.kindName]

theorem name_source (source : Source) : (F.source i source).name = source.name := by
  obtain ⟨origin, name⟩ := source
  cases origin <;> simp [Source.name]

theorem checkOperands_all (op : Operator) (operands : List Expr) :
    checkOperands op (F.all i operands) = checkOperands op operands := by
  rw [checkOperands, checkOperands, F.all_eq_map, List.length_map, List.getLast?_map]
  cases operands.getLast? with
  | none => rfl
  | some e => cases e <;> simp

theorem checkArguments_all (kind : AggregateKind) (args : List Expr) :
    checkArguments kind (F.all i args) = checkArguments kind args := by
  rw [checkArguments, checkArguments, F.all_eq_map, List.length_map]

theorem checkCastOperand_expr (value : Expr) :
    checkCastOperand (F.expr i value) = checkCastOperand value := by
  rw [checkCastOperand, checkCastOperand, F.isCastable_expr, F.kindName_expr]

mutual

theorem containsAggregate_expr (i : ι) (e : Expr) :
    (F.expr i e).containsAggregate = e.containsAggregate := by
  match e with
  | .operator op operands =>
    rw [F.expr_operator]
    exact anyAggregate_all i operands
  | .fragment text parts args =>
    rw [F.expr_fragment]
    exact anyAggregateArg_args i args
  | .cast value target resolved =>
    rw [F.expr_cast]
    exact containsAggregate_expr i value
  | .merge left right =>
    rw [F.expr_merge, Expr.containsAggregate, Expr.containsAggregate,
      containsAggregate_expr i left, containsAggregate_expr i right]
  | .aliased value name =>
    rw [F.expr_aliased]
    exact containsAggregate_expr i value
  | .jsonPath base path =>
    rw [F.expr_jsonPath, Expr.containsAggregate, Expr.containsAggregate,
      containsAggregate_expr i base, anyAggregateStep_path i path]
  | .interval count unit =>
    rw [F.expr_interval]
    exact containsAggregate_expr i count
  | .tuple items =>
    rw [F.expr_tuple]
    exact anyAggregate_all i items
  | .mapping entries =>
    rw [F.expr_mapping]
    exact anyAggregateEntry_entries i entries
  | .literal _ | .param _ | .field _ | .binding _ | .parentBinding _ | .aggregate _ _ _ _
  | .subquery _ _ | .values _ | .projection _ _ | .aliasRef _ => simp [Expr.containsAggregate]
termination_by structural e

theorem anyAggregate_all (i : ι) (es : List Expr) :
    anyAggregate (F.all i es) = anyAggregate es := by
  match es with
  | [] => rw [F.all_nil]
  | e :: rest =>
    rw [F.all_cons, anyAggregate, anyAggregate, containsAggregate_expr i e, anyAggregate_all i rest]
termination_by structural es

theorem anyAggregateArg_args (i : ι) (args : List FragmentArg) :
    anyAggregateArg (F.args i args) = anyAggregateArg args := by
  match args with
  | [] => rw [F.args_nil]
  | .mk role e :: rest =>
    rw [F.args_cons, anyAggregateArg, anyAggregateArg, containsAggregate_expr (F.under i role) e,
      anyAggregateArg_args i rest]
termination_by structural args

theorem anyAggregateStep_path (i : ι) (path : List PathStep) :
    anyAggregateStep (F.path i path) = anyAggregateStep path := by
  match path with
  | [] => rw [F.path_nil]
  | .key _ :: rest =>
    rw [F.path_key]
    exact anyAggregateStep_path i rest
  | .index _ :: rest =>
    rw [F.path_index]
    exact anyAggregateStep_path i rest
  | .computed e :: rest =>
    rw [F.path_computed, anyAggregateStep, anyAggregateStep, containsAggregate_expr i e,
      anyAggregateStep_path i rest]
termination_by structural path

theorem anyAggregateEntry_entries (i : ι) (entries : List (String × Expr)) :
    anyAggregateEntry (F.entries i entries) = anyAggregateEntry entries := by
  match entries with
  | [] => rw [F.entries_nil]
  | (_, e) :: rest =>
    rw [F.entries_cons, anyAggregateEntry, anyAggregateEntry, containsAggregate_expr i e,
      anyAggregateEntry_entries i rest]
termination_by structural entries

end

/-! ### Aliases -/

mutual

theorem outermostAliases_expr (e : Expr) :
    (F.expr i e).outermostAliases = F.entries i e.outermostAliases := by
  match e with
  | .merge left right =>
    rw [F.expr_merge, Expr.outermostAliases, Expr.outermostAliases, outermostAliases_expr left,
      outermostAliases_expr right]
    simp only [F.entries_eq_map, List.map_append]
  | .tuple items =>
    rw [F.expr_tuple]
    exact outermostAliasesAll_all items
  | .mapping entries =>
    rw [F.expr_mapping]
    exact outermostAliasesEntries_entries entries
  | .aliased value name => simp [Expr.outermostAliases]
  | .literal _ | .param _ | .field _ | .binding _ | .parentBinding _ | .operator _ _
  | .aggregate _ _ _ _ | .fragment _ _ _ | .cast _ _ _ | .subquery _ _ | .values _
  | .projection _ _ | .aliasRef _ | .jsonPath _ _ | .interval _ _ => simp [Expr.outermostAliases]
termination_by structural e

theorem outermostAliasesAll_all (es : List Expr) :
    outermostAliasesAll (F.all i es) = F.entries i (outermostAliasesAll es) := by
  match es with
  | [] => simp [outermostAliasesAll]
  | e :: rest =>
    rw [F.all_cons, outermostAliasesAll, outermostAliasesAll, outermostAliases_expr e,
      outermostAliasesAll_all rest]
    simp only [F.entries_eq_map, List.map_append]
termination_by structural es

theorem outermostAliasesEntries_entries (entries : List (String × Expr)) :
    outermostAliasesEntries (F.entries i entries) =
      F.entries i (outermostAliasesEntries entries) := by
  match entries with
  | [] => simp [outermostAliasesEntries]
  | (_, e) :: rest =>
    rw [F.entries_cons, outermostAliasesEntries, outermostAliasesEntries, outermostAliases_expr e,
      outermostAliasesEntries_entries rest]
    simp only [F.entries_eq_map, List.map_append]
termination_by structural entries

end

theorem resolve_entries {table table' : AliasTable}
    (h : table'.entries = F.entries i table.entries) (name : String) :
    table'.resolve name = (table.resolve name).map (F.expr i) := by
  rw [AliasTable.resolve, AliasTable.resolve, h, F.entries_eq_map, findEntry_map]

theorem mergeChain_map (operands : List Expr) :
    mergeChain (operands.map (F.expr i)) = F.expr i (mergeChain operands) := by
  cases operands with
  | nil => simp [mergeChain]
  | cons e rest =>
    rw [List.map_cons, mergeChain, mergeChain]
    induction rest generalizing e with
    | nil => rfl
    | cons f rest ih => rw [List.map_cons, List.foldl_cons, List.foldl_cons, ← ih, F.expr_merge]

/-! ### Sameness -/

/-- At the indices in `P`, labels that are the same are replaced by labels that are the same. -/
structure Congruent (P : ι → Prop) : Prop where
  literal {i : ι} (hi : P i) {v w : Value} (h : v.same w = true) :
    (F.literal i v).same (F.literal i w) = true
  param {i : ι} (hi : P i) {p q : Param} (h : p.same q = true) :
    (F.param i p).same (F.param i q) = true
  table {i : ι} (hi : P i) {t u : ValuesTable} (h : t.same u = true) :
    (F.table i t).same (F.table i u) = true
  declared {i : ι} (hi : P i) {t u : ValuesTable} (h : t.same u = true) :
    (F.declared i t).same (F.declared i u) = true
  under {i : ι} (hi : P i) (role : ArgRole) : P (F.under i role)
  inside {i : ι} (hi : P i) {q r : Query} (h : q.same r = true) :
    P (F.inside i q) ∧ F.inside i q = F.inside i r

namespace Congruent

variable {F} {P : ι → Prop}

mutual

theorem same_expr (hF : F.Congruent P) {i : ι} (hi : P i) (e : Expr) {e' : Expr}
    (h : e.same e' = true) : (F.expr i e).same (F.expr i e') = true := by
  match e with
  | .literal v =>
    obtain ⟨w, rfl, hvw⟩ := Expr.same_literal.1 h
    rw [F.expr_literal, F.expr_literal]
    exact Expr.same_literal.2 ⟨_, rfl, hF.literal hi hvw⟩
  | .param p =>
    obtain ⟨q, rfl, hpq⟩ := Expr.same_param.1 h
    rw [F.expr_param, F.expr_param]
    exact Expr.same_param.2 ⟨_, rfl, hF.param hi hpq⟩
  | .field _ | .binding _ | .parentBinding _ | .aliasRef _ | .projection _ _ =>
    obtain rfl := (Expr.same_reference rfl).1 h
    exact (Expr.same_reference (by simp [Expr.isReference])).2 rfl
  | .operator op operands =>
    obtain ⟨operands', rfl, hoperands⟩ := Expr.same_operator.1 h
    rw [F.expr_operator, F.expr_operator]
    exact Expr.same_operator.2 ⟨_, rfl, hF.same_all hi operands hoperands⟩
  | .aggregate kind args distinct filter =>
    obtain ⟨args', filter', rfl, hargs, hfilter⟩ := Expr.same_aggregate.1 h
    rw [F.expr_aggregate, F.expr_aggregate]
    exact Expr.same_aggregate.2
      ⟨_, _, rfl, hF.same_all hi args hargs, hF.same_option hi filter hfilter⟩
  | .fragment text parts args =>
    obtain ⟨args', rfl, hargs⟩ := Expr.same_fragment.1 h
    rw [F.expr_fragment, F.expr_fragment]
    exact Expr.same_fragment.2 ⟨_, rfl, hF.same_args hi args hargs⟩
  | .cast value target resolved =>
    obtain ⟨value', rfl, hvalue⟩ := Expr.same_cast.1 h
    rw [F.expr_cast, F.expr_cast]
    exact Expr.same_cast.2 ⟨_, rfl, hF.same_expr hi value hvalue⟩
  | .subquery kind query =>
    obtain ⟨query', rfl, hquery⟩ := Expr.same_subquery.1 h
    rw [F.expr_subquery, F.expr_subquery]
    exact Expr.same_subquery.2 ⟨_, rfl, hF.same_query hi query hquery⟩
  | .values table =>
    obtain ⟨table', rfl, htable⟩ := Expr.same_values.1 h
    rw [F.expr_values, F.expr_values]
    exact Expr.same_values.2 ⟨_, rfl, hF.table hi htable⟩
  | .merge left right =>
    obtain ⟨left', right', rfl, hleft, hright⟩ := Expr.same_merge.1 h
    rw [F.expr_merge, F.expr_merge]
    exact Expr.same_merge.2 ⟨_, _, rfl, hF.same_expr hi left hleft, hF.same_expr hi right hright⟩
  | .aliased value name =>
    obtain ⟨value', rfl, hvalue⟩ := Expr.same_aliased.1 h
    rw [F.expr_aliased, F.expr_aliased]
    exact Expr.same_aliased.2 ⟨_, rfl, hF.same_expr hi value hvalue⟩
  | .jsonPath base path =>
    obtain ⟨base', path', rfl, hbase, hpath⟩ := Expr.same_jsonPath.1 h
    rw [F.expr_jsonPath, F.expr_jsonPath]
    exact Expr.same_jsonPath.2 ⟨_, _, rfl, hF.same_expr hi base hbase, hF.same_path hi path hpath⟩
  | .interval count unit =>
    obtain ⟨count', rfl, hcount⟩ := Expr.same_interval.1 h
    rw [F.expr_interval, F.expr_interval]
    exact Expr.same_interval.2 ⟨_, rfl, hF.same_expr hi count hcount⟩
  | .tuple items =>
    obtain ⟨items', rfl, hitems⟩ := Expr.same_tuple.1 h
    rw [F.expr_tuple, F.expr_tuple]
    exact Expr.same_tuple.2 ⟨_, rfl, hF.same_all hi items hitems⟩
  | .mapping entries =>
    obtain ⟨entries', rfl, hentries⟩ := Expr.same_mapping.1 h
    rw [F.expr_mapping, F.expr_mapping]
    exact Expr.same_mapping.2 ⟨_, rfl, hF.same_entries hi entries hentries⟩
termination_by structural e

theorem same_all (hF : F.Congruent P) {i : ι} (hi : P i) (es : List Expr) {es' : List Expr}
    (h : sameExprs es es' = true) : sameExprs (F.all i es) (F.all i es') = true := by
  match es with
  | [] =>
    obtain rfl := sameExprs_nil.1 h
    rw [F.all_nil]
    exact h
  | e :: rest =>
    obtain ⟨e', rest', rfl, he, hrest⟩ := sameExprs_cons.1 h
    rw [F.all_cons, F.all_cons]
    exact sameExprs_cons.2 ⟨_, _, rfl, hF.same_expr hi e he, hF.same_all hi rest hrest⟩
termination_by structural es

theorem same_entries (hF : F.Congruent P) {i : ι} (hi : P i) (entries : List (String × Expr))
    {entries' : List (String × Expr)} (h : sameMapping entries entries' = true) :
    sameMapping (F.entries i entries) (F.entries i entries') = true := by
  match entries with
  | [] =>
    obtain rfl := sameMapping_nil.1 h
    rw [F.entries_nil]
    exact h
  | (key, e) :: rest =>
    obtain ⟨e', rest', rfl, he, hrest⟩ := sameMapping_cons.1 h
    rw [F.entries_cons, F.entries_cons]
    exact sameMapping_cons.2 ⟨_, _, rfl, hF.same_expr hi e he, hF.same_entries hi rest hrest⟩
termination_by structural entries

theorem same_option (hF : F.Congruent P) {i : ι} (hi : P i) (e : Option Expr) {e' : Option Expr}
    (h : sameOption e e' = true) : sameOption (F.option i e) (F.option i e') = true := by
  match e with
  | none =>
    obtain rfl := sameOption_none.1 h
    rw [F.option_none]
    exact h
  | some e =>
    obtain ⟨e', rfl, he⟩ := sameOption_some.1 h
    rw [F.option_some, F.option_some]
    exact sameOption_some.2 ⟨_, rfl, hF.same_expr hi e he⟩
termination_by structural e

theorem same_args (hF : F.Congruent P) {i : ι} (hi : P i) (args : List FragmentArg)
    {args' : List FragmentArg} (h : sameArgs args args' = true) :
    sameArgs (F.args i args) (F.args i args') = true := by
  match args with
  | [] =>
    obtain rfl := sameArgs_nil.1 h
    rw [F.args_nil]
    exact h
  | .mk role e :: rest =>
    obtain ⟨e', rest', rfl, he, hrest⟩ := sameArgs_cons.1 h
    rw [F.args_cons, F.args_cons]
    exact sameArgs_cons.2
      ⟨_, _, rfl, hF.same_expr (hF.under hi role) e he, hF.same_args hi rest hrest⟩
termination_by structural args

theorem same_path (hF : F.Congruent P) {i : ι} (hi : P i) (path : List PathStep)
    {path' : List PathStep} (h : samePath path path' = true) :
    samePath (F.path i path) (F.path i path') = true := by
  match path with
  | [] =>
    obtain rfl := samePath_nil.1 h
    rw [F.path_nil]
    exact h
  | .key name :: rest =>
    obtain ⟨rest', rfl, hrest⟩ := samePath_key.1 h
    rw [F.path_key, F.path_key]
    exact samePath_key.2 ⟨_, rfl, hF.same_path hi rest hrest⟩
  | .index n :: rest =>
    obtain ⟨rest', rfl, hrest⟩ := samePath_index.1 h
    rw [F.path_index, F.path_index]
    exact samePath_index.2 ⟨_, rfl, hF.same_path hi rest hrest⟩
  | .computed e :: rest =>
    obtain ⟨e', rest', rfl, he, hrest⟩ := samePath_computed.1 h
    rw [F.path_computed, F.path_computed]
    exact samePath_computed.2 ⟨_, _, rfl, hF.same_expr hi e he, hF.same_path hi rest hrest⟩
termination_by structural path

theorem same_terms (hF : F.Congruent P) {i : ι} (hi : P i) (terms : List OrderTerm)
    {terms' : List OrderTerm} (h : sameTerms terms terms' = true) :
    sameTerms (F.terms i terms) (F.terms i terms') = true := by
  match terms with
  | [] =>
    obtain rfl := sameTerms_nil.1 h
    rw [F.terms_nil]
    exact h
  | .mk e direction :: rest =>
    obtain ⟨e', rest', rfl, he, hrest⟩ := sameTerms_cons.1 h
    rw [F.terms_cons, F.terms_cons]
    exact sameTerms_cons.2 ⟨_, _, rfl, hF.same_expr hi e he, hF.same_terms hi rest hrest⟩
termination_by structural terms

theorem same_source (hF : F.Congruent P) {i : ι} (hi : P i) (source : Source) {source' : Source}
    (h : source.same source' = true) : (F.source i source).same (F.source i source') = true := by
  match source with
  | .mk (.schema schema) name =>
    obtain ⟨_, rfl, horigin⟩ := Source.same_mk.1 h
    obtain rfl := Origin.same_schema.1 horigin
    rw [F.source_schema]
    exact h
  | .mk (.table table) name =>
    obtain ⟨_, rfl, horigin⟩ := Source.same_mk.1 h
    obtain rfl := Origin.same_table.1 horigin
    rw [F.source_table]
    exact h
  | .mk (.values table) name =>
    obtain ⟨_, rfl, horigin⟩ := Source.same_mk.1 h
    obtain ⟨table', rfl, htable⟩ := Origin.same_values.1 horigin
    rw [F.source_values, F.source_values]
    exact Source.same_mk.2 ⟨_, rfl, Origin.same_values.2 ⟨_, rfl, hF.declared hi htable⟩⟩
  | .mk (.subquery query) name =>
    obtain ⟨_, rfl, horigin⟩ := Source.same_mk.1 h
    obtain ⟨query', rfl, hquery⟩ := Origin.same_subquery.1 horigin
    rw [F.source_subquery, F.source_subquery]
    exact Source.same_mk.2 ⟨_, rfl, Origin.same_subquery.2 ⟨_, rfl, hF.same_query hi query hquery⟩⟩
  | .mk (.fragment e) name =>
    obtain ⟨_, rfl, horigin⟩ := Source.same_mk.1 h
    obtain ⟨e', rfl, he⟩ := Origin.same_fragment.1 horigin
    rw [F.source_fragment, F.source_fragment]
    exact Source.same_mk.2 ⟨_, rfl, Origin.same_fragment.2 ⟨_, rfl, hF.same_expr hi e he⟩⟩
termination_by structural source

theorem same_joins (hF : F.Congruent P) {i : ι} (hi : P i) (joins : List Join) {joins' : List Join}
    (h : sameJoins joins joins' = true) :
    sameJoins (F.joins i joins) (F.joins i joins') = true := by
  match joins with
  | [] =>
    obtain rfl := sameJoins_nil.1 h
    rw [F.joins_nil]
    exact h
  | .mk kind source on :: rest =>
    obtain ⟨source', on', rest', rfl, hsource, hon, hrest⟩ := sameJoins_cons.1 h
    rw [F.joins_cons, F.joins_cons]
    exact sameJoins_cons.2 ⟨_, _, _, rfl, hF.same_source hi source hsource,
      hF.same_option hi on hon, hF.same_joins hi rest hrest⟩
termination_by structural joins

/-- A congruent relabelling replaces queries that are the same by queries that are the same. -/
theorem same_query (hF : F.Congruent P) {i : ι} (hi : P i) (query : Query) {query' : Query}
    (h : query.same query' = true) : (F.query i query).same (F.query i query') = true := by
  match query, query' with
  | .mk source joins wheres select groupBy having orderBy limit offset distinct, .mk .. =>
    obtain ⟨hinside, heq⟩ := hF.inside hi h
    rw [F.query_mk, F.query_mk, ← heq]
    simp only [Query.same, Bool.and_eq_true] at h ⊢
    obtain ⟨⟨⟨⟨⟨⟨⟨⟨⟨hsource, hjoins⟩, hwheres⟩, hselect⟩, hgroupBy⟩, hhaving⟩, horderBy⟩, hlimit⟩,
      hoffset⟩, hdistinct⟩ := h
    exact ⟨⟨⟨⟨⟨⟨⟨⟨⟨hF.same_source hinside source hsource, hF.same_joins hinside joins hjoins⟩,
      hF.same_all hinside wheres hwheres⟩, hF.same_option hinside select hselect⟩,
      hF.same_all hinside groupBy hgroupBy⟩, hF.same_all hinside having hhaving⟩,
      hF.same_terms hinside orderBy horderBy⟩, hF.same_option hinside limit hlimit⟩,
      hF.same_option hinside offset hoffset⟩, hdistinct⟩
termination_by structural query

end

end Congruent

end Relabelling

end QueryCompiler
