import QueryCompiler.Proofs.Binding.Kept
import QueryCompiler.Proofs.OwnParts

/-!
# Definitions of aliases and references to them

Where a query itself uses aliases, in order. An expression that can be bound defines them at its
outermost positions, if it stands in a projection, and nowhere else, and refers only to those that
resolve. Binding and normalising keep the uses.
-/

namespace QueryCompiler

/-- A use of an alias by its name. -/
inductive AliasUse where
  | definition (name : String)
  | reference (name : String)

def AliasUse.defined? : AliasUse → Option String
  | definition name => some name
  | reference _ => none

def Expr.aliasUse? : Expr → Option AliasUse
  | .aliased _ name => some (.definition name)
  | .aliasRef name => some (.reference name)
  | _ => none

/-- The uses of aliases among some expressions. -/
def aliasUses (es : List Expr) : List AliasUse := es.filterMap Expr.aliasUse?

@[simp] theorem aliasUses_append (es more : List Expr) :
    aliasUses (es ++ more) = aliasUses es ++ aliasUses more :=
  List.filterMap_append

/-- The uses of aliases in an expression, those inside subqueries apart. -/
abbrev Expr.ownUses (e : Expr) : List AliasUse := aliasUses e.own

theorem aliasUses_ownAll (es : List Expr) : aliasUses (ownAll es) = es.flatMap Expr.ownUses := by
  induction es with
  | nil => rfl
  | cons e rest ih => rw [ownAll, aliasUses_append, ih, List.flatMap_cons]

theorem aliasUses_ownEntries (entries : List (String × Expr)) :
    aliasUses (ownEntries entries) = entries.flatMap fun entry => entry.2.ownUses := by
  induction entries with
  | nil => rfl
  | cons entry rest ih => rw [ownEntries, aliasUses_append, ih, List.flatMap_cons]

theorem ownUses_gathers : Gathers Expr.ownUses where
  merge left right := aliasUses_append left.own right.own
  tuple := aliasUses_ownAll
  mapping := aliasUses_ownEntries
  aliased h name := congrArg (AliasUse.definition name :: ·) h
  projection _ _ := rfl

theorem ownUses_typeBlind : TypeBlind Expr.ownUses := fun _ _ => rfl

theorem aliasUses_propagateTypes (op : Operator) (operands : List Expr) :
    aliasUses (ownAll (propagateTypes op operands)) = aliasUses (ownAll operands) := by
  rw [aliasUses_ownAll, aliasUses_ownAll, ownUses_typeBlind.flatMap_propagateTypes]

theorem aliasUses_ownOption_map {f : Expr → Expr} (hf : ∀ e, (f e).ownUses = e.ownUses)
    (e : Option Expr) : aliasUses (ownOption (e.map f)) = aliasUses (ownOption e) := by
  cases e with
  | none => rfl
  | some e => exact hf e

theorem own_of_value? {e : Expr} {v : Value} (h : e.value? = some v) :
    e.own = [e] ∧ e.aliasUse? = none := by
  cases e with
  | literal _ | param _ => exact ⟨rfl, rfl⟩
  | _ => cases h

/-! ### Uses that are bound -/

/--
What is true of the uses of aliases among the expressions of a query that is bound, as they are
written and as they are bound; given are also whether they stand at outermost positions of its
projection and the aliases they define there.
-/
structure UsesBound (ctx : Context) (outermost : Bool) (names : List String)
    (written bound : List Expr) : Prop where
  kept : aliasUses bound = aliasUses written
  definitions : (aliasUses written).filterMap AliasUse.defined? = if outermost then names else []
  references (name : String) (h : .reference name ∈ aliasUses written) :
    (ctx.aliases.resolve name).isSome

namespace UsesBound

variable {ctx : Context} {o : Bool} {names names' : List String}
  {written written' bound bound' : List Expr}

theorem nil : UsesBound ctx o [] [] [] := ⟨rfl, by simp [aliasUses], by simp [aliasUses]⟩

theorem append (h : UsesBound ctx o names written bound)
    (h' : UsesBound ctx o names' written' bound') :
    UsesBound ctx o (names ++ names') (written ++ written') (bound ++ bound') where
  kept := by rw [aliasUses_append, aliasUses_append, h.kept, h'.kept]
  definitions := by
    rw [aliasUses_append, List.filterMap_append, h.definitions, h'.definitions]
    split <;> rfl
  references name hname := by
    rw [aliasUses_append, List.mem_append] at hname
    exact hname.elim (h.references name) (h'.references name)

/-- Below the outermost positions nothing is defined. -/
theorem inner (h : UsesBound ctx false names written bound) : UsesBound ctx o [] written bound where
  kept := h.kept
  definitions := by simpa using h.definitions
  references := h.references

theorem congr (h : UsesBound ctx o names written bound)
    (heq : aliasUses bound' = aliasUses bound) : UsesBound ctx o names written bound' :=
  ⟨heq.trans h.kept, h.definitions, h.references⟩

/-- An expression that is no use of an alias itself, in front of what it consists of. -/
theorem node {e e' : Expr} (he : e.aliasUse? = none) (he' : e'.aliasUse? = none)
    (h : UsesBound ctx o names written bound) :
    UsesBound ctx o names (e :: written) (e' :: bound) := by
  have heq : aliasUses (e :: written) = aliasUses written := List.filterMap_cons_none he
  have heq' : aliasUses (e' :: bound) = aliasUses bound := List.filterMap_cons_none he'
  exact ⟨by rw [heq, heq', h.kept], by rw [heq, h.definitions], by rw [heq]; exact h.references⟩

theorem leaf {e e' : Expr} (he : e.aliasUse? = none) (he' : e'.aliasUse? = none) :
    UsesBound ctx o [] [e] [e'] := nil.node he he'

theorem definition (h : UsesBound ctx false names written bound) (value value' : Expr)
    (name : String) :
    UsesBound ctx true [name] (.aliased value name :: written) (.aliased value' name :: bound) where
  kept := congrArg (AliasUse.definition name :: ·) h.kept
  definitions := congrArg (name :: ·) h.definitions
  references other hother := h.references other ((List.mem_cons.1 hother).resolve_left nofun)

theorem reference {name : String} (h : (ctx.aliases.resolve name).isSome) :
    UsesBound ctx o [] [.aliasRef name] [.aliasRef name] where
  kept := rfl
  definitions := by simp [aliasUses, Expr.aliasUse?, AliasUse.defined?]
  references other hother := by
    cases List.mem_singleton.1 hother
    exact h

end UsesBound

/-! ### Binding -/

variable {ctx : Context}

mutual

theorem Expr.uses_bind {o : Bool} {e e' : Expr} {s s' : BindState}
    (h : e.bind ctx o s = .ok e' s') : UsesBound ctx o e.aliasNames e.own e'.own := by
  match e with
  | .literal v =>
    obtain ⟨rfl, -⟩ := Expr.bind_literal.1 h
    exact .leaf rfl rfl
  | .param p =>
    obtain ⟨rfl, -⟩ := Expr.bind_param.1 h
    exact .leaf rfl rfl
  | .field f =>
    obtain ⟨-, _, -, rfl⟩ := Expr.bind_field.1 h
    exact .leaf rfl rfl
  | .binding r =>
    obtain ⟨-, _, _, -, rfl⟩ := Expr.bind_binding.1 h
    exact .leaf rfl rfl
  | .parentBinding r =>
    obtain ⟨-, _, _, -, rfl⟩ := Expr.bind_parentBinding.1 h
    exact .leaf rfl rfl
  | .operator op operands =>
    obtain ⟨-, _, hoperands, rfl⟩ := Expr.bind_operator.1 h
    exact ((uses_bindAll hoperands).inner.congr (aliasUses_propagateTypes op _)).node rfl rfl
  | .aggregate kind args distinct filter =>
    obtain ⟨-, _, _, _, hargs, hfilter, rfl⟩ := Expr.bind_aggregate.1 h
    exact ((uses_bindAll hargs).append (uses_bindOption hfilter)).inner.node rfl rfl
  | .fragment text parts args =>
    obtain ⟨_, _, hprocess, hargs, rfl⟩ := Expr.bind_fragment.1 h
    obtain ⟨-, hfault, -⟩ := process_eq_ok.1 hprocess
    exact (uses_bindArgs (firstFault_eq_none.1 hfault) hargs).inner.node rfl rfl
  | .cast value target resolved =>
    obtain ⟨_, _, _, hvalue, -, -, rfl⟩ := Expr.bind_cast.1 h
    exact ((Expr.uses_bind hvalue).inner.congr (ownUses_typeBlind.withCastType _ _)).node rfl rfl
  | .subquery kind query =>
    obtain ⟨_, -, rfl⟩ := Expr.bind_subquery.1 h
    exact .leaf rfl rfl
  | .values table =>
    obtain ⟨_, -, rfl, -⟩ := Expr.bind_values.1 h
    exact .leaf rfl rfl
  | .projection kind p =>
    obtain ⟨_, -, rfl⟩ := Expr.bind_projection.1 h
    exact .leaf rfl rfl
  | .merge left right =>
    obtain ⟨_, _, _, hleft, hright, rfl⟩ := Expr.bind_merge.1 h
    rw [aliasNames_merge]
    exact ((Expr.uses_bind hleft).append (Expr.uses_bind hright)).node rfl rfl
  | .aliased value name =>
    obtain ⟨rfl, _, hvalue, rfl⟩ := Expr.bind_aliased.1 h
    rw [aliasNames_aliased]
    exact (Expr.uses_bind hvalue).definition _ _ name
  | .aliasRef name =>
    obtain ⟨hname, rfl, -⟩ := Expr.bind_aliasRef.1 h
    exact .reference hname
  | .jsonPath base path =>
    obtain ⟨_, _, _, _, hbase, hpath, rfl⟩ := Expr.bind_jsonPath.1 h
    have huses := (Expr.uses_bindAccess hbase).append (uses_bindPath hpath)
    refine (huses.inner.congr ?_).node rfl rfl
    rw [ownPath_append, List.append_assoc]
  | .interval count unit =>
    obtain ⟨_, hcount, rfl⟩ := Expr.bind_interval.1 h
    exact ((Expr.uses_bind hcount).inner.congr (ownUses_typeBlind.withType _ _)).node rfl rfl
  | .tuple items =>
    obtain ⟨_, hitems, rfl⟩ := Expr.bind_tuple.1 h
    rw [aliasNames_tuple]
    exact (uses_bindAll hitems).node rfl rfl
  | .mapping entries =>
    obtain ⟨_, hentries, rfl⟩ := Expr.bind_mapping.1 h
    rw [aliasNames_mapping]
    exact (uses_bindEntries hentries).node rfl rfl
termination_by structural e

theorem Expr.uses_bindAccess {e e' : Expr} {steps : List PathStep} {s s' : BindState}
    (h : e.bindAccess ctx s = .ok (e', steps) s') :
    UsesBound ctx false [] e.own (e'.own ++ ownPath steps) := by
  match e with
  | .field f =>
    obtain ⟨-, _, -, heq⟩ := Expr.bindAccess_field.1 h
    cases heq
    exact .leaf rfl rfl
  | .jsonPath base path =>
    obtain ⟨_, _, _, _, hbase, hpath, heq⟩ := Expr.bindAccess_jsonPath.1 h
    cases heq
    have huses := (Expr.uses_bindAccess hbase).append (uses_bindPath hpath)
    have hnode : UsesBound ctx false [] (.jsonPath base path :: (base.own ++ ownPath path))
        (.jsonPath e' [] :: _) := huses.node rfl rfl
    rw [ownPath_append, ← List.append_assoc]
    exact hnode.congr rfl
  | .literal _ | .param _ | .binding _ | .parentBinding _ | .operator _ _ | .aggregate _ _ _ _
  | .fragment _ _ _ | .cast _ _ _ | .subquery _ _ | .values _ | .projection _ _ | .merge _ _
  | .aliased _ _ | .aliasRef _ | .interval _ _ | .tuple _ | .mapping _ =>
    simp [Expr.bindAccess] at h
termination_by structural e

theorem uses_bindAll {o : Bool} {es es' : List Expr} {s s' : BindState}
    (h : bindAll ctx o es s = .ok es' s') :
    UsesBound ctx o (es.flatMap Expr.aliasNames) (ownAll es) (ownAll es') := by
  match es with
  | [] =>
    obtain ⟨rfl, -⟩ := bindAll_nil.1 h
    exact .nil
  | e :: rest =>
    obtain ⟨_, _, _, he, hrest, rfl⟩ := bindAll_cons.1 h
    exact (Expr.uses_bind he).append (uses_bindAll hrest)
termination_by structural es

theorem uses_bindEntries {o : Bool} {entries entries' : List (String × Expr)}
    {s s' : BindState} (h : bindEntries ctx o entries s = .ok entries' s') :
    UsesBound ctx o (entries.flatMap fun entry => entry.2.aliasNames) (ownEntries entries)
      (ownEntries entries') := by
  match entries with
  | [] =>
    obtain ⟨rfl, -⟩ := bindEntries_nil.1 h
    exact .nil
  | (key, e) :: rest =>
    obtain ⟨_, _, _, he, hrest, rfl⟩ := bindEntries_cons.1 h
    exact (Expr.uses_bind he).append (uses_bindEntries hrest)
termination_by structural entries

theorem uses_bindOption {o : Bool} {e e' : Option Expr} {s s' : BindState}
    (h : bindOption ctx o e s = .ok e' s') :
    UsesBound ctx o (selectAliases e) (ownOption e) (ownOption e') := by
  match e with
  | none =>
    obtain ⟨rfl, -⟩ := bindOption_none.1 h
    exact .nil
  | some e =>
    obtain ⟨_, he, rfl⟩ := bindOption_some.1 h
    exact Expr.uses_bind he
termination_by structural e

theorem uses_bindArgs {args args' : List FragmentArg} {s s' : BindState}
    (hfault : ∀ arg ∈ args, arg.fault? = none) (h : bindArgs ctx args s = .ok args' s') :
    UsesBound ctx false [] (ownArgs args) (ownArgs args') := by
  match args with
  | [] =>
    obtain ⟨rfl, -⟩ := bindArgs_nil.1 h
    exact .nil
  | .mk role e :: rest =>
    rw [List.forall_mem_cons] at hfault
    by_cases hrole : role = .parameter
    · obtain rfl := hrole
      obtain ⟨_, _, _, he, hrest, rfl⟩ := bindArgs_parameter.1 h
      exact (Expr.uses_bind he).inner.append (uses_bindArgs hfault.2 hrest)
    · obtain ⟨_, _, _, harg, hrest, rfl⟩ := (bindArgs_other hrole).1 h
      obtain ⟨⟨_, he⟩, _, _, rfl, _, he'⟩ := values_of_assign hrole hfault.1 harg
      obtain ⟨hown, huse⟩ := own_of_value? he
      obtain ⟨hown', huse'⟩ := own_of_value? he'
      rw [ownArgs, ownArgs, hown, hown']
      exact (UsesBound.leaf huse huse').append (uses_bindArgs hfault.2 hrest)
termination_by structural args

theorem uses_bindPath {path path' : List PathStep} {s s' : BindState}
    (h : bindPath ctx path s = .ok path' s') :
    UsesBound ctx false [] (ownPath path) (ownPath path') := by
  match path with
  | [] =>
    obtain ⟨rfl, -⟩ := bindPath_nil.1 h
    exact .nil
  | .computed e :: rest =>
    obtain ⟨_, _, _, he, hrest, rfl⟩ := bindPath_computed.1 h
    exact (Expr.uses_bind he).inner.append (uses_bindPath hrest)
  | .key name :: rest =>
    obtain ⟨_, hrest, rfl⟩ := bindPath_key.1 h
    exact (uses_bindPath hrest :)
  | .index i :: rest =>
    obtain ⟨_, hrest, rfl⟩ := bindPath_index.1 h
    exact (uses_bindPath hrest :)
termination_by structural path

end

/-! ### Clauses -/

theorem uses_bindWheres {wheres wheres' : List Expr} {s s' : BindState}
    (h : bindWheres ctx wheres s = .ok wheres' s') :
    UsesBound ctx false [] (ownAll wheres) (ownAll wheres') := by
  induction wheres generalizing wheres' s with
  | nil =>
    obtain ⟨rfl, -⟩ := bindWheres_nil.1 h
    exact .nil
  | cons e rest ih =>
    obtain ⟨-, _, _, _, he, hrest, rfl⟩ := bindWheres_cons.1 h
    exact (Expr.uses_bind he).inner.append (ih hrest)

theorem uses_bindTerms {terms terms' : List OrderTerm} {s s' : BindState}
    (h : bindTerms ctx terms s = .ok terms' s') :
    UsesBound ctx false [] (ownTerms terms) (ownTerms terms') := by
  induction terms generalizing terms' s with
  | nil =>
    obtain ⟨rfl, -⟩ := bindTerms_nil.1 h
    exact .nil
  | cons term rest ih =>
    obtain ⟨e, direction⟩ := term
    obtain ⟨_, _, _, he, hrest, rfl⟩ := bindTerms_cons.1 h
    exact (Expr.uses_bind he).inner.append (ih hrest)

theorem Source.uses_bind {table : Option ValuesTable} {source source' : Source}
    {s s' : BindState} (h : source.bind ctx table s = .ok source' s') :
    UsesBound ctx false [] source.own source'.own := by
  match source with
  | .mk (.schema schema) name =>
    obtain ⟨rfl, -⟩ := Source.bind_schema.1 h
    exact .nil
  | .mk (.table table) name =>
    obtain ⟨rfl, -⟩ := Source.bind_table.1 h
    exact .nil
  | .mk (.values declared) name =>
    obtain ⟨rfl, -⟩ := Source.bind_values.1 h
    exact .nil
  | .mk (.subquery query) name =>
    obtain ⟨_, -, rfl⟩ := Source.bind_subquery.1 h
    exact .nil
  | .mk (.fragment e) name =>
    obtain ⟨-, _, he, rfl⟩ := Source.bind_fragment.1 h
    exact (Expr.uses_bind he).inner

theorem uses_bindJoins {tables : List (Option ValuesTable)} {joins joins' : List Join}
    {s s' : BindState} (h : bindJoins ctx tables joins s = .ok joins' s') :
    UsesBound ctx false [] (ownJoins joins) (ownJoins joins') := by
  induction joins generalizing tables joins' s with
  | nil =>
    obtain ⟨rfl, -⟩ := bindJoins_nil.1 h
    exact .nil
  | cons join rest ih =>
    obtain ⟨kind, source, on⟩ := join
    obtain ⟨_, _, _, _, _, hsource, hon, hrest, rfl⟩ := bindJoins_cons.1 h
    exact ((Source.uses_bind hsource).append (uses_bindOption hon).inner).append (ih hrest)

/-- The projection of a query defines its aliases. -/
theorem Query.ClausesBound.uses_select {tables : List (Option ValuesTable)} {query query' : Query}
    {s s' : BindState} (h : ClausesBound ctx tables s query query' s') :
    UsesBound ctx true (selectAliases query.select) (ownOption query.select)
      (ownOption query'.select) := by
  cases h with
  | mk hselect =>
    exact (uses_bindOption hselect).congr (aliasUses_ownOption_map ownUses_gathers.normalize _)

/-- The other clauses of a query define no aliases. -/
theorem Query.ClausesBound.uses_clauses {tables : List (Option ValuesTable)}
    {query query' : Query} {s s' : BindState} (h : ClausesBound ctx tables s query query' s') :
    UsesBound ctx false [] query.ownClauses query'.ownClauses := by
  cases h with
  | mk _ hsource hjoins hwheres hgroupBy hhaving horderBy hlimit hoffset =>
    have hinteger := aliasUses_ownOption_map (ownUses_typeBlind.withType (.builtin .integer))
    exact Source.uses_bind hsource
      |>.append (uses_bindJoins hjoins)
      |>.append (uses_bindWheres hwheres)
      |>.append (uses_bindAll hgroupBy).inner
      |>.append (uses_bindAll hhaving).inner
      |>.append (uses_bindTerms horderBy)
      |>.append ((uses_bindOption hlimit).inner.congr (hinteger _))
      |>.append ((uses_bindOption hoffset).inner.congr (hinteger _))

end QueryCompiler
