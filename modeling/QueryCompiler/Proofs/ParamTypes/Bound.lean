import Mathlib.Data.List.Forall2
import QueryCompiler.Proofs.Binding.Kept
import QueryCompiler.Proofs.Numbering.Carriers
import QueryCompiler.Proofs.ParamTypes.Surroundings

/-!
# Parameters that are bound

Binding keeps the parameters of a tree, in order, and gives each of them the type that it has where
it stands in the bound tree. The type that an expression is given by what encloses it comes after
the expression is bound, so the induction is on an expression that is bound and then retyped in
surroundings that are yet unknown.
-/

namespace QueryCompiler

/-! ### Parameters among carriers -/

def Carrier.param? : Carrier → Option Param
  | param p => some p
  | values _ => none

/-- The parameters among some carriers. -/
def paramsIn (carriers : List Carrier) : List Param := carriers.filterMap Carrier.param?

@[simp] theorem paramsIn_append (carriers more : List Carrier) :
    paramsIn (carriers ++ more) = paramsIn carriers ++ paramsIn more :=
  List.filterMap_append

theorem mem_paramsIn {p : Param} {carriers : List Carrier} :
    p ∈ paramsIn carriers ↔ .param p ∈ carriers := by
  rw [paramsIn, List.mem_filterMap]
  constructor
  · rintro ⟨carrier, hcarrier, hp⟩
    cases carrier with
    | param q =>
      cases hp
      exact hcarrier
    | values table => cases hp
  · intro h
    exact ⟨_, h, rfl⟩

theorem carriersAll_eq_flatMap (es : List Expr) : carriersAll es = es.flatMap Expr.carriers := by
  induction es with
  | nil => rfl
  | cons e rest ih => rw [carriersAll, ih, List.flatMap_cons]

theorem carriersEntries_eq_flatMap (entries : List (String × Expr)) :
    carriersEntries entries = entries.flatMap (·.2.carriers) := by
  induction entries with
  | nil => rfl
  | cons entry rest ih => rw [carriersEntries, ih, List.flatMap_cons]

theorem carriersArgs_cons (arg : FragmentArg) (rest : List FragmentArg) :
    carriersArgs (arg :: rest) = carriersArgs [arg] ++ carriersArgs rest := by
  obtain ⟨role, e⟩ := arg
  simp [carriersArgs]

theorem carriersPath_append (path path' : List PathStep) :
    carriersPath (path ++ path') = carriersPath path ++ carriersPath path' := by
  induction path with
  | nil => rfl
  | cons step rest ih => cases step <;> simp [carriersPath, ih]

theorem carriers_gathers : Gathers Expr.carriers where
  merge _ _ := rfl
  tuple := carriersAll_eq_flatMap
  mapping := carriersEntries_eq_flatMap
  aliased h _ := h
  projection _ _ := rfl

/-! ### Bound and typed -/

/--
A parameter is bound with the value and the type that it is written with; if no type is written, it
takes one from its surroundings in the bound tree.
-/
structure TypedAs (written bound : Surroundings × Param) : Prop where
  value : bound.2.value = written.2.value
  splice : bound.2.splice = written.2.splice
  type : bound.2.type = written.2.typeIn bound.1

/-- The parameters as they are written and as they are bound; the latter are all that is carried. -/
structure ParamsBound (written bound : List (Surroundings × Param)) (carriers : List Carrier) :
    Prop where
  typed : List.Forall₂ TypedAs written bound
  carried : paramsIn carriers = bound.map Prod.snd

namespace ParamsBound

variable {written written' bound bound' : List (Surroundings × Param)}
  {carriers carriers' : List Carrier}

theorem nil : ParamsBound [] [] [] := ⟨.nil, rfl⟩

/-- What a table binds are no parameters. -/
theorem values (table : ValuesTable) : ParamsBound [] [] [.values table] := ⟨.nil, rfl⟩

theorem append (h : ParamsBound written bound carriers)
    (h' : ParamsBound written' bound' carriers') :
    ParamsBound (written ++ written') (bound ++ bound') (carriers ++ carriers') where
  typed := List.rel_append h.typed h'.typed
  carried := by rw [paramsIn_append, List.map_append, h.carried, h'.carried]

/-- A parameter that is numbered and then retyped. -/
theorem param (p : Param) (index : Option Nat) (around around' : Surroundings) :
    ParamsBound [(around, p)] [(around', { p with index := index, type := p.typeIn around' })]
      [.param { p with index := index, type := p.typeIn around' }] :=
  ⟨.cons ⟨rfl, rfl, rfl⟩ .nil, rfl⟩

end ParamsBound

/-- The parameters of an expression are those of another, however that is retyped. -/
def Expr.ParamsKept (e e' : Expr) : Prop :=
  ∀ around around',
    ParamsBound (e.params around) ((e'.retype around').params around') (e'.retype around').carriers

/-- An expression that is not retyped. -/
theorem Expr.ParamsKept.plain {e e' : Expr} (h : e.ParamsKept e') :
    ParamsBound (e.params .other) (e'.params .other) e'.carriers := by
  simpa using h .other .other

theorem ParamsBound.all {es es' : List Expr} (h : List.Forall₂ Expr.ParamsKept es es') :
    ParamsBound (paramsAll es) (paramsAll es') (carriersAll es') := by
  induction h with
  | nil => exact .nil
  | cons he _ ih => exact he.plain.append ih

/-- Each of two operands is retyped beside the other one. -/
theorem Expr.ParamsKept.pair (op : Operator) {left left' right right' : Expr}
    (hleft : left.ParamsKept left') (hright : right.ParamsKept right') :
    (Expr.operator op [left, right]).ParamsKept
      (.operator op (propagateTypes op [left', right'])) := by
  intro _ _
  rw [propagateTypes_pair]
  have hparams := (hleft (.firstOf op right.knownType?) (.firstOf op right'.knownType?)).append
    (hright (.secondOf op left.knownType?) (.secondOf op left'.knownType?))
  -- beside each other stand operands that are retyped, but retyping keeps what they pass on
  change ParamsBound _ (Expr.params .other (.operator op [_, _]))
    (Expr.carriers (.operator op [_, _]))
  simpa only [Expr.params, Expr.carriers, carriersAll, knownType?_retype, List.append_nil]
    using hparams

theorem Expr.ParamsKept.operator (op : Operator) {operands operands' : List Expr}
    (h : List.Forall₂ Expr.ParamsKept operands operands') :
    (Expr.operator op operands).ParamsKept (.operator op (propagateTypes op operands')) := by
  have hall := ParamsBound.all h
  match h with
  | .nil | .cons _ .nil | .cons _ (.cons _ (.cons _ _)) => exact fun _ _ => hall
  | .cons hleft (.cons hright .nil) => exact hleft.pair op hright

/-- The same of an expression that may be absent. -/
def OptionParamsKept (e e' : Option Expr) : Prop :=
  ∀ around around', ParamsBound (paramsOption around e)
    (paramsOption around' (e'.map (Expr.retype around')))
    (carriersOption (e'.map (Expr.retype around')))

namespace OptionParamsKept

variable {e e' : Option Expr}

theorem plain (h : OptionParamsKept e e') :
    ParamsBound (paramsOption .other e) (paramsOption .other e') (carriersOption e') := by
  have hmap : e'.map (Expr.retype .other) = e' := by cases e' <;> simp
  simpa only [hmap] using h .other .other

/-- A limit or an offset. -/
theorem counted (h : OptionParamsKept e e') :
    ParamsBound (paramsOption .count e)
      (paramsOption .count (e'.map (Expr.withType (.builtin .integer))))
      (carriersOption (e'.map (Expr.withType (.builtin .integer)))) := by
  rw [show Expr.withType (.builtin .integer) = Expr.retype .count from
    funext withType_eq_retype_count]
  exact h .count .count

/-- A projection, of which normalising keeps the parameters. -/
theorem normalized (h : OptionParamsKept e e') :
    ParamsBound (paramsOption .other e) (paramsOption .other (e'.map Expr.normalize))
      (carriersOption (e'.map Expr.normalize)) := by
  have hplain := h.plain
  cases e' with
  | none => exact hplain
  | some e' =>
    change ParamsBound _ (e'.normalize.params .other) e'.normalize.carriers
    rw [params_gathers.normalize, carriers_gathers.normalize]
    exact hplain

end OptionParamsKept

/-! ### Binding -/

/-- Of the arguments that are no expressions, only a spliced list is a parameter. -/
theorem params_assign {role : ArgRole} {e : Expr} {arg' : FragmentArg} {s s' : BindState}
    (hrole : role ≠ .parameter) (hfault : (FragmentArg.mk role e).fault? = none)
    (h : (FragmentArg.mk role e).inlined.assign s = .ok arg' s') :
    ParamsBound (paramsArgs [.mk role e]) (paramsArgs [arg']) (carriersArgs [arg']) := by
  obtain ⟨v, hvalue⟩ := value?_of_fault? hrole hfault
  cases role with
  | parameter => exact absurd rfl hrole
  | identifier | constant =>
    rw [FragmentArg.inlined, hvalue] at h
    obtain ⟨rfl, -⟩ := FragmentArg.assign_literal.1 h
    exact .nil
  | splice =>
    cases e with
    | literal v =>
      obtain ⟨rfl, -⟩ := FragmentArg.assign_splice.1 h
      exact .param ⟨v, none, none, true⟩ _ .other .other
    | param p =>
      obtain ⟨rfl, -⟩ := FragmentArg.assign_splice.1 h
      have hparam := ParamsBound.param { p with splice := true } (some s.nextParam) .other .other
      rw [Param.typeIn_other] at hparam
      exact hparam
    | _ => cases hvalue

mutual

theorem Expr.params_bind {ctx : Context} {o : Bool} {e e' : Expr} {s s' : BindState}
    (h : e.bind ctx o s = .ok e' s') : e.ParamsKept e' := by
  match e with
  | .literal v =>
    obtain ⟨rfl, -⟩ := Expr.bind_literal.1 h
    exact fun _ _ => .nil
  | .param p =>
    obtain ⟨rfl, -⟩ := Expr.bind_param.1 h
    exact .param p _
  | .field f =>
    obtain ⟨-, _, -, rfl⟩ := Expr.bind_field.1 h
    exact fun _ _ => .nil
  | .binding r =>
    obtain ⟨-, _, _, -, rfl⟩ := Expr.bind_binding.1 h
    exact fun _ _ => .nil
  | .parentBinding r =>
    obtain ⟨-, _, _, -, rfl⟩ := Expr.bind_parentBinding.1 h
    exact fun _ _ => .nil
  | .operator op operands =>
    obtain ⟨-, _, hoperands, rfl⟩ := Expr.bind_operator.1 h
    exact .operator op (params_bindAll hoperands)
  | .aggregate kind args distinct filter =>
    obtain ⟨-, _, _, _, hargs, hfilter, rfl⟩ := Expr.bind_aggregate.1 h
    have hparams := ParamsBound.all (params_bindAll hargs)
    exact fun _ _ => hparams.append (params_bindOption hfilter).plain
  | .fragment text parts args =>
    obtain ⟨_, _, hprocess, hargs, rfl⟩ := Expr.bind_fragment.1 h
    obtain ⟨-, hfault, -⟩ := process_eq_ok.1 hprocess
    exact fun _ _ => params_bindArgs (firstFault_eq_none.1 hfault) hargs
  | .cast value target resolved =>
    obtain ⟨_, _, t, hvalue, -, -, rfl⟩ := Expr.bind_cast.1 h
    intro _ _
    -- the cast is written without a type that is resolved and bound with one
    rw [withCastType_eq_retype]
    exact Expr.params_bind hvalue (.cast resolved) (.cast (some t))
  | .subquery kind query =>
    obtain ⟨_, hquery, rfl⟩ := Expr.bind_subquery.1 h
    exact fun _ _ => Query.params_bind hquery
  | .values table =>
    obtain ⟨_, -, rfl, -⟩ := Expr.bind_values.1 h
    exact fun _ _ => .values _
  | .projection kind p =>
    obtain ⟨_, -, rfl⟩ := Expr.bind_projection.1 h
    exact fun _ _ => .nil
  | .merge left right =>
    obtain ⟨_, _, _, hleft, hright, rfl⟩ := Expr.bind_merge.1 h
    exact fun _ _ => (Expr.params_bind hleft).plain.append (Expr.params_bind hright).plain
  | .aliased value name =>
    obtain ⟨-, _, hvalue, rfl⟩ := Expr.bind_aliased.1 h
    exact fun _ _ => (Expr.params_bind hvalue).plain
  | .aliasRef name =>
    obtain ⟨-, rfl, -⟩ := Expr.bind_aliasRef.1 h
    exact fun _ _ => .nil
  | .jsonPath base path =>
    obtain ⟨_, _, _, _, hbase, hpath, rfl⟩ := Expr.bind_jsonPath.1 h
    intro _ _
    have hparams := (Expr.params_bindAccess hbase .other).append (params_bindPath hpath)
    simpa [Expr.retype, Expr.params, Expr.carriers, paramsPath_append, carriersPath_append]
      using hparams
  | .interval count unit =>
    obtain ⟨_, hcount, rfl⟩ := Expr.bind_interval.1 h
    intro _ _
    rw [withType_eq_retype_count]
    exact Expr.params_bind hcount .count .count
  | .tuple items =>
    obtain ⟨_, hitems, rfl⟩ := Expr.bind_tuple.1 h
    exact fun _ _ => .all (params_bindAll hitems)
  | .mapping entries =>
    obtain ⟨_, hentries, rfl⟩ := Expr.bind_mapping.1 h
    exact fun _ _ => params_bindEntries hentries
termination_by structural e

/-- The accesses of a path are joined to one. -/
theorem Expr.params_bindAccess {ctx : Context} {e e' : Expr} {steps : List PathStep}
    {s s' : BindState} (h : e.bindAccess ctx s = .ok (e', steps) s') (around : Surroundings) :
    ParamsBound (e.params around) (e'.params .other ++ paramsPath steps)
      (e'.carriers ++ carriersPath steps) := by
  match e with
  | .field f =>
    obtain ⟨-, _, -, heq⟩ := Expr.bindAccess_field.1 h
    cases heq
    exact .nil
  | .jsonPath base path =>
    obtain ⟨_, _, _, _, hbase, hpath, heq⟩ := Expr.bindAccess_jsonPath.1 h
    cases heq
    have hparams := (Expr.params_bindAccess hbase .other).append (params_bindPath hpath)
    simpa [Expr.params, paramsPath_append, carriersPath_append] using hparams
  | .literal _ | .param _ | .binding _ | .parentBinding _ | .operator _ _ | .aggregate _ _ _ _
  | .fragment _ _ _ | .cast _ _ _ | .subquery _ _ | .values _ | .projection _ _ | .merge _ _
  | .aliased _ _ | .aliasRef _ | .interval _ _ | .tuple _ | .mapping _ =>
    simp [Expr.bindAccess] at h
termination_by structural e

theorem params_bindAll {ctx : Context} {o : Bool} {es es' : List Expr} {s s' : BindState}
    (h : bindAll ctx o es s = .ok es' s') : List.Forall₂ Expr.ParamsKept es es' := by
  match es with
  | [] =>
    obtain ⟨rfl, -⟩ := bindAll_nil.1 h
    exact .nil
  | e :: rest =>
    obtain ⟨_, _, _, he, hrest, rfl⟩ := bindAll_cons.1 h
    exact .cons (Expr.params_bind he) (params_bindAll hrest)
termination_by structural es

theorem params_bindEntries {ctx : Context} {o : Bool} {entries entries' : List (String × Expr)}
    {s s' : BindState} (h : bindEntries ctx o entries s = .ok entries' s') :
    ParamsBound (paramsEntries entries) (paramsEntries entries') (carriersEntries entries') := by
  match entries with
  | [] =>
    obtain ⟨rfl, -⟩ := bindEntries_nil.1 h
    exact .nil
  | (key, e) :: rest =>
    obtain ⟨_, _, _, he, hrest, rfl⟩ := bindEntries_cons.1 h
    exact (Expr.params_bind he).plain.append (params_bindEntries hrest)
termination_by structural entries

theorem params_bindOption {ctx : Context} {o : Bool} {e e' : Option Expr} {s s' : BindState}
    (h : bindOption ctx o e s = .ok e' s') : OptionParamsKept e e' := by
  match e with
  | none =>
    obtain ⟨rfl, -⟩ := bindOption_none.1 h
    exact fun _ _ => .nil
  | some e =>
    obtain ⟨_, he, rfl⟩ := bindOption_some.1 h
    exact Expr.params_bind he
termination_by structural e

theorem params_bindArgs {ctx : Context} {args args' : List FragmentArg} {s s' : BindState}
    (hfault : ∀ arg ∈ args, arg.fault? = none) (h : bindArgs ctx args s = .ok args' s') :
    ParamsBound (paramsArgs args) (paramsArgs args') (carriersArgs args') := by
  match args with
  | [] =>
    obtain ⟨rfl, -⟩ := bindArgs_nil.1 h
    exact .nil
  | .mk role e :: rest =>
    rw [List.forall_mem_cons] at hfault
    by_cases hrole : role = .parameter
    · obtain rfl := hrole
      obtain ⟨_, _, _, he, hrest, rfl⟩ := bindArgs_parameter.1 h
      exact (Expr.params_bind he).plain.append (params_bindArgs hfault.2 hrest)
    · obtain ⟨arg', _, rest', harg, hrest, rfl⟩ := (bindArgs_other hrole).1 h
      rw [paramsArgs_cons, paramsArgs_cons arg', carriersArgs_cons arg']
      exact (params_assign hrole hfault.1 harg).append (params_bindArgs hfault.2 hrest)
termination_by structural args

theorem params_bindPath {ctx : Context} {path path' : List PathStep} {s s' : BindState}
    (h : bindPath ctx path s = .ok path' s') :
    ParamsBound (paramsPath path) (paramsPath path') (carriersPath path') := by
  match path with
  | [] =>
    obtain ⟨rfl, -⟩ := bindPath_nil.1 h
    exact .nil
  | .computed e :: rest =>
    obtain ⟨_, _, _, he, hrest, rfl⟩ := bindPath_computed.1 h
    exact (Expr.params_bind he).plain.append (params_bindPath hrest)
  | .key name :: rest =>
    obtain ⟨_, hrest, rfl⟩ := bindPath_key.1 h
    exact (params_bindPath hrest :)
  | .index i :: rest =>
    obtain ⟨_, hrest, rfl⟩ := bindPath_index.1 h
    exact (params_bindPath hrest :)
termination_by structural path

theorem params_bindWheres {ctx : Context} {wheres wheres' : List Expr} {s s' : BindState}
    (h : bindWheres ctx wheres s = .ok wheres' s') :
    List.Forall₂ Expr.ParamsKept wheres wheres' := by
  match wheres with
  | [] =>
    obtain ⟨rfl, -⟩ := bindWheres_nil.1 h
    exact .nil
  | e :: rest =>
    obtain ⟨-, _, _, _, he, hrest, rfl⟩ := bindWheres_cons.1 h
    exact .cons (Expr.params_bind he) (params_bindWheres hrest)
termination_by structural wheres

theorem params_bindTerms {ctx : Context} {terms terms' : List OrderTerm} {s s' : BindState}
    (h : bindTerms ctx terms s = .ok terms' s') :
    ParamsBound (paramsTerms terms) (paramsTerms terms') (carriersTerms terms') := by
  match terms with
  | [] =>
    obtain ⟨rfl, -⟩ := bindTerms_nil.1 h
    exact .nil
  | .mk e direction :: rest =>
    obtain ⟨_, _, _, he, hrest, rfl⟩ := bindTerms_cons.1 h
    exact (Expr.params_bind he).plain.append (params_bindTerms hrest)
termination_by structural terms

theorem Source.params_bind {ctx : Context} {table : Option ValuesTable} {source source' : Source}
    {s s' : BindState} (h : source.bind ctx table s = .ok source' s') :
    ParamsBound source.params source'.params source'.carriers := by
  match source with
  | .mk (.schema schema) name =>
    obtain ⟨rfl, -⟩ := Source.bind_schema.1 h
    exact .nil
  | .mk (.table table) name =>
    obtain ⟨rfl, -⟩ := Source.bind_table.1 h
    exact .nil
  | .mk (.values declared) name =>
    obtain ⟨rfl, -⟩ := Source.bind_values.1 h
    exact .values _
  | .mk (.subquery query) name =>
    obtain ⟨_, hquery, rfl⟩ := Source.bind_subquery.1 h
    exact Query.params_bind hquery
  | .mk (.fragment e) name =>
    obtain ⟨-, _, he, rfl⟩ := Source.bind_fragment.1 h
    exact (Expr.params_bind he).plain
termination_by structural source

theorem params_bindJoins {ctx : Context} {tables : List (Option ValuesTable)}
    {joins joins' : List Join} {s s' : BindState}
    (h : bindJoins ctx tables joins s = .ok joins' s') :
    ParamsBound (paramsJoins joins) (paramsJoins joins') (carriersJoins joins') := by
  match joins with
  | [] =>
    obtain ⟨rfl, -⟩ := bindJoins_nil.1 h
    exact .nil
  | .mk kind source on :: rest =>
    obtain ⟨_, _, _, _, _, hsource, hon, hrest, rfl⟩ := bindJoins_cons.1 h
    exact ((Source.params_bind hsource).append (params_bindOption hon).plain).append
      (params_bindJoins hrest)
termination_by structural joins

/-- Binding a query keeps its parameters and types each of them where it stands. -/
theorem Query.params_bind {ctx : Context} {query query' : Query} {s s' : BindState}
    (h : query.bind ctx s = .ok query' s') :
    ParamsBound query.params query'.params query'.carriers := by
  obtain ⟨-, tables, scope, aliases, t, t', -, -, hclauses, -, -⟩ := Query.bind_eq_ok h
  match query with
  | .mk source joins wheres select groupBy having orderBy limit offset distinct =>
    cases hclauses with
    | mk hselect hsource hjoins hwheres hgroupBy hhaving horderBy hlimit hoffset =>
      exact (params_bindOption hselect).normalized
        |>.append (Source.params_bind hsource)
        |>.append (params_bindJoins hjoins)
        |>.append (.all (params_bindWheres hwheres))
        |>.append (.all (params_bindAll hgroupBy))
        |>.append (.all (params_bindAll hhaving))
        |>.append (params_bindTerms horderBy)
        |>.append (params_bindOption hlimit).counted
        |>.append (params_bindOption hoffset).counted
termination_by structural query

end

end QueryCompiler
