import QueryCompiler.Proofs.Comparison.Carrying

/-!
# Binding a changed tree

The second run of a comparison follows the first: step by step it binds the changed tree to the
changed result. What the second run needs beyond what the first has checked is asked of the queries
in the tree one by one: room for their depth, and aliases and filters that its configuration allows.
-/

namespace QueryCompiler

open BindM

namespace Comparison

/-! ### Places and parts -/

/-- The contexts of the two runs around a query that so many queries enclose. -/
structure Around (comparison : Comparison) (level : Nat) (ctx ctx' : Context) : Prop where
  catalog : ctx'.catalog = ctx.catalog
  config : ctx.config = comparison.config
  config' : ctx'.config = comparison.config'
  scopes : ctx'.scopes = ctx.scopes ++ comparison.outer
  level : ctx.scopes.length = level

/-- The contexts of the two runs in the clauses of a query. -/
structure Within (comparison : Comparison) (level : Nat) (ctx ctx' : Context) : Prop extends
    Around comparison (level + 1) ctx ctx' where
  aliases (name : String) : (ctx'.aliases.resolve name).isSome = (ctx.aliases.resolve name).isSome

/-- What the second run asks of a query at a level, given that the first accepts it. -/
structure AdmitsQuery (comparison : Comparison) (level : Nat) (query : Query) : Prop where
  depth (h : level ≤ comparison.config.maxSubqueryDepth) :
    level + comparison.outer.length ≤ comparison.config'.maxSubqueryDepth
  aliases (h : comparison.config.allowIdenticalAliases = true) :
    comparison.config'.allowIdenticalAliases = true ∨ (selectAliases query.select).Nodup
  wheres (h : comparison.config'.rejectAggregatesInWhere = true) :
    comparison.config.rejectAggregatesInWhere = true ∨
      ∀ e ∈ query.wheres, e.containsAggregate = false

def Admits (comparison : Comparison) (parts : List (Nat × Part)) : Prop :=
  ∀ part ∈ parts, ∀ query, part.2 = .query query → comparison.AdmitsQuery part.1 query

variable {comparison : Comparison}

theorem admits_append {parts parts' : List (Nat × Part)} :
    comparison.Admits (parts ++ parts') ↔ comparison.Admits parts ∧ comparison.Admits parts' :=
  List.forall_mem_append

theorem Admits.left {parts parts' : List (Nat × Part)} (h : comparison.Admits (parts ++ parts')) :
    comparison.Admits parts :=
  (admits_append.1 h).1

theorem Admits.right {parts parts' : List (Nat × Part)} (h : comparison.Admits (parts ++ parts')) :
    comparison.Admits parts' :=
  (admits_append.1 h).2

theorem Admits.tail {part : Nat × Part} {parts : List (Nat × Part)}
    (h : comparison.Admits (part :: parts)) : comparison.Admits parts :=
  fun other hother => h other (List.mem_cons_of_mem _ hother)

/-- In the same surroundings the second run asks for no more than the first. -/
theorem admits_of_same (hconfig : comparison.config' = comparison.config)
    (houter : comparison.outer = []) (parts : List (Nat × Part)) : comparison.Admits parts := by
  intro part _ query _
  refine ⟨fun h => ?_, fun h => ?_, fun h => ?_⟩
  · rw [houter, hconfig]
    exact h
  · rw [hconfig]
    exact Or.inl h
  · rw [← hconfig]
    exact Or.inl h

/-! ### Steps -/

/-- A step of the second run that follows one of the first, with related results. -/
abbrev Simulates {α β : Type} (comparison : Comparison) (R : α → β → Prop) (m : BindM α)
    (m' : BindM β) : Prop :=
  Follows comparison.change.shift comparison.excused R m m'

section

variable {ctx ctx' : Context} {level : Nat}

theorem simulates_scopes {α ε : Type} {wrap : ε → CompileError} (check : ScopeStack → Except ε α)
    (h : comparison.Around level ctx ctx')
    (hcheck : ∀ scopes a, check scopes = .ok a → check (scopes ++ comparison.outer) = .ok a) :
    comparison.Simulates Eq (ofExcept wrap (check ctx.scopes))
      (ofExcept wrap (check ctx'.scopes)) := by
  rw [h.scopes]
  exact .ofExcept (carries_scopes wrap check hcheck ctx.scopes)

theorem simulates_assign (p : Param) :
    comparison.Simulates (fun a b => b = a.change comparison.change ∧ a.splice = p.splice) p.assign
      (p.change comparison.start).assign := by
  refine (Follows.takeIndices 1).bind fun first first' hfirst => .pure ⟨?_, rfl⟩
  rw [hfirst]
  rfl

theorem simulates_assignTable (table : ValuesTable) :
    comparison.Simulates (fun a b => b = a.change comparison.change) table.assign
      (table.change comparison.start).assign := by
  have hcount : (table.change comparison.start).paramCount = table.paramCount := by
    obtain ⟨rows, types, resolved, firstParam⟩ := table
    cases rows with
    | nil => rfl
    | cons row rest =>
      simp only [ValuesTable.change, ValuesTable.paramCount, ValuesTable.fieldNames,
        List.map_cons, List.length_cons, List.length_map, Row.change, SortedMap.keys_mapValues]
  rw [ValuesTable.assign, ValuesTable.assign, hcount]
  refine (Follows.takeIndices _).bind fun first first' hfirst => .pure ?_
  rw [hfirst]
  rfl

theorem simulates_assignSplice (p : Param) (hsplice : p.splice = true) :
    comparison.Simulates (fun a b => b = a.change comparison.change)
      (FragmentArg.mk .splice (.param p)).assign
      (FragmentArg.mk .splice (.param (p.change comparison.start))).assign := by
  refine (simulates_assign p).bind fun a b h => .pure ?_
  obtain ⟨rfl, ha⟩ := h
  rw [hsplice] at ha
  simp [FragmentArg.change, Expr.change, Param.change, Change.under, ha]

/-- An argument that is no expression is inlined or spliced in both runs. -/
theorem simulates_assignArg {role : ArgRole} (hrole : role ≠ .parameter) {e : Expr}
    (hfault : (FragmentArg.mk role e).fault? = none) :
    comparison.Simulates (fun a b => b = a.change comparison.change)
      (FragmentArg.mk role e).inlined.assign
      (FragmentArg.mk role (e.change (comparison.start.under role))).inlined.assign := by
  cases role with
  | parameter => exact absurd rfl hrole
  | identifier | constant =>
    obtain ⟨v, hvalue⟩ := value?_of_fault? hrole hfault
    have hshifted := (value?_shifting 0 e).trans hvalue
    simp only [Comparison.start, Change.unshifted, Change.under, FragmentArg.inlined, hvalue,
      hshifted]
    exact .pure rfl
  | splice =>
    cases e with
    | literal v => exact simulates_assignSplice ⟨v, none, none, true⟩ rfl
    | param p =>
      obtain ⟨value, index, type, splice⟩ := p
      cases splice <;> exact simulates_assignSplice ⟨value, none, type, true⟩ rfl
    | _ => simp [FragmentArg.fault?, Expr.value?] at hfault

theorem simulates_projection (h : comparison.Around level ctx ctx') (p : Projection) :
    comparison.Simulates Eq (p.bind ctx) (p.bind ctx') := by
  rw [Projection.bind, Projection.bind]
  refine (simulates_scopes (fun scopes => scopes.resolve p.source) h
    fun _ _ hfound => ScopeStack.resolve_append hfound _).bind ?_
  rintro found _ rfl
  obtain ⟨slot, source⟩ := found
  rw [h.catalog]
  dsimp only
  split
  · exact (follows_checkFieldSet _ _ ctx.catalog _ p.set).bind fun _ _ _ => .pure rfl
  · exact .pure rfl

end

/-! ### The induction -/

mutual

theorem simulates_bind {ctx ctx' : Context} {level : Nat}
    (h : comparison.Within level ctx ctx') (o : Bool)
    (e : Expr) (hadmits : comparison.Admits (e.parts level)) :
    comparison.Simulates (fun a b => b = a.change comparison.change) (e.bind ctx o)
      ((e.change comparison.start).bind ctx' o) := by
  rw [Expr.parts.eq_def] at hadmits
  replace hadmits := hadmits.tail
  match e with
  | .literal v => exact .pure rfl
  | .param p =>
    refine (simulates_assign p).bind fun a b hab => .pure ?_
    rw [hab.1]
    rfl
  | .field f =>
    refine (simulates_scopes (fun scopes => scopes.bindField f) h.toAround
      fun _ _ hfound => ScopeStack.bindField_append hfound _).bind ?_
    rintro g _ rfl
    exact .pure rfl
  | .binding r =>
    refine (simulates_scopes (fun scopes => scopes.lookupBinding r.name) h.toAround
      fun _ _ hfound => ScopeStack.lookupBinding_append hfound _).bind ?_
    rintro found _ rfl
    exact .pure rfl
  | .parentBinding r =>
    refine (simulates_scopes (fun scopes => scopes.lookupParent r.name) h.toAround
      fun _ _ hfound => ScopeStack.lookupParent_append hfound _).bind ?_
    rintro found _ rfl
    exact .pure rfl
  | .operator op operands =>
    rw [Expr.change, Expr.bind, Expr.bind, checkOperands_change]
    refine (Follows.ofExcept (.refl _)).bind fun _ _ _ => ?_
    refine (simulates_bindAll h false operands hadmits).bind ?_
    rintro operands' _ rfl
    refine .pure ?_
    rw [changeAll_eq_map, propagateTypes_change, Expr.change, changeAll_eq_map]
  | .aggregate kind args distinct filter =>
    rw [Expr.change, Expr.bind, Expr.bind, checkArguments_change]
    refine (Follows.ofExcept (.refl _)).bind fun _ _ _ => ?_
    refine (simulates_bindAll h false args hadmits.left).bind ?_
    rintro args' _ rfl
    refine (simulates_bindOption h false filter hadmits.right).bind ?_
    rintro filter' _ rfl
    exact .pure rfl
  | .fragment text parts args =>
    rw [Expr.change, Expr.bind, Expr.bind]
    refine (Follows.ofExcept (carries_process text parts args)).bind
      fun processed processed' hp => ?_
    obtain ⟨hparts, hfaults⟩ := hp
    refine (simulates_bindArgs h args hfaults hadmits).bind ?_
    rintro args' _ rfl
    rw [hparts]
    exact .pure rfl
  | .cast value target resolved =>
    rw [Expr.change, Expr.bind, Expr.bind]
    refine (simulates_bind h false value hadmits).bind ?_
    rintro value' _ rfl
    rw [checkCastOperand_change]
    refine (Follows.ofExcept (.refl _)).bind fun _ _ _ => ?_
    refine (simulates_scopes (fun scopes => scopes.resolveType target) h.toAround
      fun _ _ hfound => ScopeStack.resolveType_append hfound _).bind ?_
    rintro found _ rfl
    refine .pure ?_
    rw [withCastType_change, Expr.change]
  | .subquery kind query =>
    refine (simulates_query h.toAround query hadmits).bind ?_
    rintro query' _ rfl
    exact .pure rfl
  | .values table =>
    rw [Expr.change, Expr.bind, Expr.bind, h.catalog, h.scopes]
    refine (Follows.ofExcept (carries_check comparison ctx.catalog ctx.scopes table)).bind ?_
    rintro table' _ rfl
    refine (simulates_assignTable table').bind ?_
    rintro table'' _ rfl
    exact .pure rfl
  | .projection kind p =>
    refine (simulates_projection h.toAround p).bind ?_
    rintro p' _ rfl
    exact .pure rfl
  | .merge left right =>
    refine (simulates_bind h o left hadmits.left).bind ?_
    rintro left' _ rfl
    refine (simulates_bind h o right hadmits.right).bind ?_
    rintro right' _ rfl
    exact .pure rfl
  | .aliased value name =>
    cases o with
    | false => exact .throw _
    | true =>
      refine (simulates_bind h false value hadmits).bind ?_
      rintro value' _ rfl
      exact .pure rfl
  | .aliasRef name =>
    rw [Expr.change, Expr.bind, Expr.bind, AliasTable.require_congr (h.aliases name)]
    exact (Follows.ofExcept (.refl _)).bind fun _ _ _ => .pure rfl
  | .jsonPath base path =>
    refine (simulates_bindAccess h base hadmits.left).bind ?_
    rintro ⟨base', steps⟩ _ rfl
    refine (simulates_bindPath h path hadmits.right).bind ?_
    rintro path' _ rfl
    refine .pure ?_
    rw [Expr.change, changePath_append]
  | .interval count unit =>
    refine (simulates_bind h false count hadmits).bind ?_
    rintro count' _ rfl
    refine .pure ?_
    rw [withType_change, Expr.change]
  | .tuple items =>
    refine (simulates_bindAll h o items hadmits).bind ?_
    rintro items' _ rfl
    exact .pure rfl
  | .mapping entries =>
    refine (simulates_bindEntries h o entries hadmits).bind ?_
    rintro entries' _ rfl
    exact .pure rfl
termination_by structural e

theorem simulates_bindAccess {ctx ctx' : Context} {level : Nat}
    (h : comparison.Within level ctx ctx') (e : Expr)
    (hadmits : comparison.Admits (e.parts level)) :
    comparison.Simulates
      (fun a b => b = (a.1.change comparison.change, changePath comparison.change a.2))
      (e.bindAccess ctx) ((e.change comparison.start).bindAccess ctx') := by
  rw [Expr.parts.eq_def] at hadmits
  replace hadmits := hadmits.tail
  match e with
  | .jsonPath base path =>
    refine (simulates_bindAccess h base hadmits.left).bind ?_
    rintro ⟨base', steps⟩ _ rfl
    refine (simulates_bindPath h path hadmits.right).bind ?_
    rintro path' _ rfl
    refine .pure ?_
    rw [changePath_append]
  | .field f =>
    refine (simulates_scopes (fun scopes => scopes.bindField f) h.toAround
      fun _ _ hfound => ScopeStack.bindField_append hfound _).bind ?_
    rintro g _ rfl
    exact .pure rfl
  | .projection kind p => exact .throw _
  | .literal _ | .param _ | .binding _ | .parentBinding _ | .operator _ _ | .aggregate _ _ _ _
  | .fragment _ _ _ | .cast _ _ _ | .subquery _ _ | .values _ | .merge _ _
  | .aliased _ _ | .aliasRef _ | .interval _ _ | .tuple _ | .mapping _ => exact .throw _
termination_by structural e

theorem simulates_bindAll {ctx ctx' : Context} {level : Nat}
    (h : comparison.Within level ctx ctx') (o : Bool)
    (es : List Expr) (hadmits : comparison.Admits (partsAll level es)) :
    comparison.Simulates (fun a b => b = changeAll comparison.change a) (bindAll ctx o es)
      (bindAll ctx' o (changeAll comparison.start es)) := by
  match es with
  | [] => exact .pure rfl
  | e :: rest =>
    rw [partsAll] at hadmits
    refine (simulates_bind h o e hadmits.left).bind ?_
    rintro e' _ rfl
    refine (simulates_bindAll h o rest hadmits.right).bind ?_
    rintro rest' _ rfl
    exact .pure rfl
termination_by structural es

theorem simulates_bindEntries {ctx ctx' : Context} {level : Nat}
    (h : comparison.Within level ctx ctx') (o : Bool)
    (entries : List (String × Expr)) (hadmits : comparison.Admits (partsEntries level entries)) :
    comparison.Simulates (fun a b => b = changeEntries comparison.change a)
      (bindEntries ctx o entries)
      (bindEntries ctx' o (changeEntries comparison.start entries)) := by
  match entries with
  | [] => exact .pure rfl
  | (key, e) :: rest =>
    rw [partsEntries] at hadmits
    refine (simulates_bind h o e hadmits.left).bind ?_
    rintro e' _ rfl
    refine (simulates_bindEntries h o rest hadmits.right).bind ?_
    rintro rest' _ rfl
    exact .pure rfl
termination_by structural entries

theorem simulates_bindOption {ctx ctx' : Context} {level : Nat}
    (h : comparison.Within level ctx ctx') (o : Bool)
    (e : Option Expr) (hadmits : comparison.Admits (partsOption level e)) :
    comparison.Simulates (fun a b => b = changeOption comparison.change a) (bindOption ctx o e)
      (bindOption ctx' o (changeOption comparison.start e)) := by
  match e with
  | none => exact .pure rfl
  | some e =>
    refine (simulates_bind h o e hadmits).bind ?_
    rintro e' _ rfl
    exact .pure rfl
termination_by structural e

/-- The arguments of a fragment that was processed have no faults. -/
theorem simulates_bindArgs {ctx ctx' : Context} {level : Nat}
    (h : comparison.Within level ctx ctx')
    (args : List FragmentArg) (hfaults : ∀ arg ∈ args, arg.fault? = none)
    (hadmits : comparison.Admits (partsArgs level args)) :
    comparison.Simulates (fun a b => b = changeArgs comparison.change a) (bindArgs ctx args)
      (bindArgs ctx' (changeArgs comparison.start args)) := by
  match args with
  | [] => exact .pure rfl
  | .mk .parameter e :: rest =>
    rw [partsArgs] at hadmits
    rw [List.forall_mem_cons] at hfaults
    refine (simulates_bind h false e hadmits.left).bind ?_
    rintro e' _ rfl
    refine (simulates_bindArgs h rest hfaults.2 hadmits.right).bind ?_
    rintro rest' _ rfl
    exact .pure rfl
  | .mk .identifier e :: rest | .mk .constant e :: rest | .mk .splice e :: rest =>
    rw [partsArgs] at hadmits
    rw [List.forall_mem_cons] at hfaults
    refine (simulates_assignArg (by simp) hfaults.1).bind ?_
    rintro arg _ rfl
    refine (simulates_bindArgs h rest hfaults.2 hadmits.right).bind ?_
    rintro rest' _ rfl
    exact .pure (by simp only [changeArgs_eq_map, List.map_cons])
termination_by structural args

theorem simulates_bindPath {ctx ctx' : Context} {level : Nat}
    (h : comparison.Within level ctx ctx')
    (path : List PathStep) (hadmits : comparison.Admits (partsPath level path)) :
    comparison.Simulates (fun a b => b = changePath comparison.change a) (bindPath ctx path)
      (bindPath ctx' (changePath comparison.start path)) := by
  match path with
  | [] => exact .pure rfl
  | .computed e :: rest =>
    rw [partsPath] at hadmits
    refine (simulates_bind h false e hadmits.left).bind ?_
    rintro e' _ rfl
    refine (simulates_bindPath h rest hadmits.right).bind ?_
    rintro rest' _ rfl
    exact .pure rfl
  | .key _ :: rest | .index _ :: rest =>
    rw [partsPath] at hadmits
    refine (simulates_bindPath h rest hadmits).bind ?_
    rintro rest' _ rfl
    exact .pure rfl
termination_by structural path

theorem simulates_bindWheres {ctx ctx' : Context} {level : Nat}
    (h : comparison.Within level ctx ctx')
    (wheres : List Expr) (hwheres : comparison.config'.rejectAggregatesInWhere = true →
      comparison.config.rejectAggregatesInWhere = true ∨
        ∀ e ∈ wheres, e.containsAggregate = false)
    (hadmits : comparison.Admits (partsAll level wheres)) :
    comparison.Simulates (fun a b => b = changeAll comparison.change a) (bindWheres ctx wheres)
      (bindWheres ctx' (changeAll comparison.start wheres)) := by
  match wheres with
  | [] => exact .pure rfl
  | e :: rest =>
    rw [partsAll] at hadmits
    have hrest : comparison.Simulates (fun a b => b = changeAll comparison.change a)
        (do
          let e ← e.bind ctx false
          return e :: (← bindWheres ctx rest))
        (do
          let e ← (e.change comparison.start).bind ctx' false
          return e :: (← bindWheres ctx' (changeAll comparison.start rest))) := by
      refine (simulates_bind h false e hadmits.left).bind ?_
      rintro e' _ rfl
      refine (simulates_bindWheres h rest (fun hreject => ?_) hadmits.right).bind ?_
      · exact (hwheres hreject).imp_right fun hnone e he => hnone e (List.mem_cons_of_mem _ he)
      rintro rest' _ rfl
      exact .pure rfl
    rw [changeAll, bindWheres, bindWheres, containsAggregate_change, h.config, h.config']
    cases haggregate : e.containsAggregate with
    | false =>
      simp only [Bool.and_false]
      exact hrest
    | true =>
      simp only [Bool.and_true]
      by_cases hreject : comparison.config.rejectAggregatesInWhere = true
      · rw [if_pos hreject]
        rcases comparison.tolerant with ⟨hconfig, -⟩ | htolerant
        · rw [hconfig, if_pos hreject]
          exact .throw _
        · exact .throw_excused (htolerant _) _
      · have hreject' : ¬ comparison.config'.rejectAggregatesInWhere = true := by
          intro hreject'
          rcases hwheres hreject' with hrejects | hnone
          · exact hreject hrejects
          · rw [hnone e (List.mem_cons_self ..)] at haggregate
            cases haggregate
        rw [if_neg hreject, if_neg hreject']
        exact hrest
termination_by structural wheres

theorem simulates_bindTerms {ctx ctx' : Context} {level : Nat}
    (h : comparison.Within level ctx ctx')
    (terms : List OrderTerm) (hadmits : comparison.Admits (partsTerms level terms)) :
    comparison.Simulates (fun a b => b = changeTerms comparison.change a) (bindTerms ctx terms)
      (bindTerms ctx' (changeTerms comparison.start terms)) := by
  match terms with
  | [] => exact .pure rfl
  | .mk e direction :: rest =>
    rw [partsTerms] at hadmits
    refine (simulates_bind h false e hadmits.left).bind ?_
    rintro e' _ rfl
    refine (simulates_bindTerms h rest hadmits.right).bind ?_
    rintro rest' _ rfl
    exact .pure rfl
termination_by structural terms

theorem simulates_source {ctx ctx' : Context} {level : Nat}
    (h : comparison.Within level ctx ctx')
    (validated : Option ValuesTable) (source : Source)
    (hadmits : comparison.Admits (source.parts level)) :
    comparison.Simulates (fun a b => b = a.change comparison.change) (source.bind ctx validated)
      ((source.change comparison.start).bind ctx'
        (validated.map (ValuesTable.change comparison.start))) := by
  match source with
  | .mk (.schema _) _ | .mk (.table _) _ => exact .pure rfl
  | .mk (.values table) name =>
    have hgetD : (validated.map (ValuesTable.change comparison.start)).getD
        (table.change comparison.start) = (validated.getD table).change comparison.start := by
      cases validated <;> rfl
    rw [Source.change, Origin.change, Source.bind, Source.bind, hgetD]
    refine (simulates_assignTable _).bind ?_
    rintro table' _ rfl
    exact .pure rfl
  | .mk (.subquery query) name =>
    refine (simulates_query h.toAround query hadmits).bind ?_
    rintro query' _ rfl
    exact .pure rfl
  | .mk (.fragment e) name =>
    rw [Source.change, Origin.change, Source.bind, Source.bind, isFragment_change,
      kindName_change]
    split
    · refine (simulates_bind h false e hadmits).bind ?_
      rintro e' _ rfl
      exact .pure rfl
    · exact .throw _
termination_by structural source

theorem simulates_bindJoins {ctx ctx' : Context} {level : Nat}
    (h : comparison.Within level ctx ctx')
    (validated : List (Option ValuesTable)) (joins : List Join)
    (hadmits : comparison.Admits (partsJoins level joins)) :
    comparison.Simulates (fun a b => b = changeJoins comparison.change a)
      (bindJoins ctx validated joins)
      (bindJoins ctx' (changeTables comparison.start validated)
        (changeJoins comparison.start joins)) := by
  match joins with
  | [] => exact .pure rfl
  | .mk kind source on :: rest =>
    rw [partsJoins] at hadmits
    rw [changeJoins, bindJoins, bindJoins, head?_changeTables, tail_changeTables]
    refine (simulates_source h _ source hadmits.left.left).bind ?_
    rintro source' _ rfl
    refine (simulates_bindOption h false on hadmits.left.right).bind ?_
    rintro on' _ rfl
    refine (simulates_bindJoins h _ rest hadmits.right).bind ?_
    rintro rest' _ rfl
    exact .pure rfl
termination_by structural joins

theorem simulates_query {ctx ctx' : Context} {level : Nat}
    (h : comparison.Around level ctx ctx') (query : Query)
    (hadmits : comparison.Admits (query.parts level)) :
    comparison.Simulates (fun a b => b = a.change comparison.change) (query.bind ctx)
      ((query.change comparison.start).bind ctx') := by
  match query with
  | .mk source joins wheres select groupBy having orderBy limit offset distinct =>
    have hadmit := hadmits _ (by rw [Query.parts.eq_def]; exact List.mem_cons_self ..) _ rfl
    rw [Query.parts.eq_def] at hadmits
    replace hadmits := hadmits.tail
    simp only [admits_append] at hadmits
    obtain ⟨⟨⟨⟨⟨⟨⟨⟨hsource, hjoins⟩, hwheres⟩, hselect⟩, hgroupBy⟩, hhaving⟩, horderBy⟩, hlimit⟩,
      hoffset⟩ := hadmits
    have hdepth : ctx'.scopes.length = level + comparison.outer.length := by
      rw [h.scopes, List.length_append, h.level]
    rw [Query.change, Query.bind, Query.bind]
    simp only [h.config, h.config', h.level, hdepth]
    by_cases htoo : comparison.config.maxSubqueryDepth < level
    · rw [if_pos htoo]
      rcases comparison.tolerant with ⟨hconfig, houter⟩ | htolerant
      · rw [hconfig, houter, List.length_nil, Nat.add_zero, if_pos htoo]
        exact .throw _
      · exact .throw_excused (htolerant _) _
    have hroom := hadmit.depth (Nat.le_of_not_lt htoo)
    rw [if_neg htoo, if_neg (Nat.not_lt_of_le hroom), h.catalog, h.scopes,
      map_source_changeJoins]
    refine (Follows.note _ _).bind fun _ _ _ => .finallyNote ?_
    have hdeclared := carries_declareSources comparison ctx.catalog ctx.scopes .empty
      (source :: joins.map Join.source)
    rw [List.map_cons] at hdeclared
    refine (Follows.ofExcept hdeclared).bind ?_
    rintro validated _ ⟨rfl, hscope⟩
    rw [hscope]
    refine (Follows.ofExcept (carries_collect select hadmit.aliases)).bind ?_
    intro aliases aliases' haliases
    refine (Follows.note _ _).bind fun _ _ _ => ?_
    have hinside : comparison.Within level
        ⟨ctx.catalog, comparison.config, (declareSources ctx.catalog ctx.scopes .empty
          (source :: joins.map Join.source)).2 :: ctx.scopes, aliases⟩
        ⟨ctx.catalog, comparison.config', (declareSources ctx.catalog ctx.scopes .empty
          (source :: joins.map Join.source)).2 :: (ctx.scopes ++ comparison.outer), aliases'⟩ := by
      refine ⟨⟨rfl, rfl, rfl, rfl, ?_⟩, ?_⟩
      · rw [List.length_cons, h.level]
      · intro name
        rw [resolve_change _ haliases, Option.isSome_map]
    refine (simulates_bindOption hinside true select hselect).bind ?_
    rintro select' _ rfl
    rw [head?_changeTables, tail_changeTables]
    refine (simulates_source hinside _ source hsource).bind ?_
    rintro source' _ rfl
    refine (simulates_bindJoins hinside _ joins hjoins).bind ?_
    rintro joins' _ rfl
    refine (simulates_bindWheres hinside wheres hadmit.wheres hwheres).bind ?_
    rintro wheres' _ rfl
    refine (simulates_bindAll hinside false groupBy hgroupBy).bind ?_
    rintro groupBy' _ rfl
    refine (simulates_bindAll hinside false having hhaving).bind ?_
    rintro having' _ rfl
    refine (simulates_bindTerms hinside orderBy horderBy).bind ?_
    rintro orderBy' _ rfl
    refine (simulates_bindOption hinside false limit hlimit).bind ?_
    rintro limit' _ rfl
    refine (simulates_bindOption hinside false offset hoffset).bind ?_
    rintro offset' _ rfl
    refine (Follows.noteAll _ _).bind fun _ _ _ => ?_
    refine Follows.get.bind fun _ _ _ => (Follows.note _ _).bind fun _ _ _ => .pure ?_
    rw [Query.change]
    cases select' <;> cases limit' <;> cases offset' <;>
      simp only [changeOption, Option.map_none, Option.map_some, normalize_change, withType_change]
termination_by structural query

end

end Comparison

end QueryCompiler
