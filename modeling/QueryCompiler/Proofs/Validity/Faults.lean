import QueryCompiler.Proofs.Binding.Kept
import QueryCompiler.Proofs.Numbering.Faults
import QueryCompiler.Proofs.Validity.Bare

/-!
# Faults of a query beside its field sets

Binding a query fails either with an error that its bare form has as well, or with one that a field
set gives: an unknown field, an unknown association, or an association to an unknown schema. Where a
name may be defined again with the same value, two values may also differ in their field sets only.
-/

namespace QueryCompiler

open BindM

/-- The errors that a query may have and its bare form may not. -/
def Config.Excuses (config : Config) (e : CompileError) : Prop :=
  e.isUnknown = true ∨
    (config.allowIdenticalAliases = true ∧ ∃ name, e = .aliasing (.duplicate name))

/-- Contexts in which a tree and its bare form are bound. -/
structure Context.Beside (ctx ctx' : Context) : Prop where
  catalog : ctx'.catalog = ctx.catalog
  config : ctx'.config = ctx.config
  scopes : ctx'.scopes = ctx.scopes
  aliases (name : String) : (ctx'.aliases.resolve name).isSome = (ctx.aliases.resolve name).isSome

/-- Expressions that a cast accepts or refuses alike. -/
def Expr.CastAlike (e e' : Expr) : Prop := checkCastOperand e' = checkCastOperand e

variable {config : Config}

/-! ### Steps -/

theorem follows_checkFieldSet_bare (catalog : Catalog) (schema : Schema) (set : FieldSet) :
    Follows 0 config.Excuses (fun _ _ => True) (checkFieldSet catalog schema set)
      (checkFieldSet catalog schema .empty) := by
  constructor
  · intro s s' _ t hs hcheck
    obtain ⟨-, ht⟩ := valid_of_checkFieldSet hcheck
    have hempty : FieldSet.empty.Valid catalog schema := FieldSet.empty_valid
    obtain ⟨t', hcheck', ht'⟩ := hempty.check s'
    exact ⟨(), t', hcheck', trivial, by rw [ht', hs, ht]⟩
  · intro s s' e t _ hcheck
    exact Or.inl (Or.inl (throws_checkFieldSet catalog schema set s e t hcheck))

theorem follows_projection_bare {ctx ctx' : Context} (h : ctx.Beside ctx') (p : Projection) :
    Follows 0 config.Excuses (fun _ _ => True) (p.bind ctx) (p.bare.bind ctx') := by
  rw [Projection.bind, Projection.bind, h.scopes, h.catalog]
  refine (Follows.ofExcept (.refl _)).bind ?_
  rintro ⟨slot, source⟩ _ rfl
  dsimp only
  split
  · exact (follows_checkFieldSet_bare ctx.catalog _ p.set).bind fun _ _ _ => .pure trivial
  · exact .pure trivial

theorem follows_assign (p : Param) :
    Follows 0 config.Excuses (fun _ _ => True) p.assign p.assign :=
  (Follows.takeIndices 1).bind fun _ _ _ => .pure trivial

theorem follows_assignTable (table : ValuesTable) :
    Follows 0 config.Excuses (fun _ _ => True) table.assign table.assign :=
  (Follows.takeIndices table.paramCount).bind fun _ _ _ => .pure trivial

theorem follows_assignArg (arg : FragmentArg) :
    Follows 0 config.Excuses (fun _ _ => True) arg.assign arg.assign := by
  obtain ⟨role, e⟩ := arg
  cases role with
  | splice =>
    cases e with
    | param p => exact (follows_assign p).bind fun _ _ _ => .pure trivial
    | _ => exact .pure trivial
  | _ => exact .pure trivial

theorem carries_process_bare (text : String) (parts : List String) (args : List FragmentArg) :
    Carries config.Excuses (fun _ _ => ∀ arg ∈ args, arg.fault? = none)
      (Fragment.process ⟨text, parts, args⟩) (Fragment.process ⟨text, parts, bareArgs args⟩) := by
  simp only [Fragment.process, length_bareArgs, firstFault_bare]
  split
  · exact .of_error _
  split
  · exact .of_error _
  · rename_i hfault
    exact .of_ok (firstFault_eq_none.1 hfault)

/-! ### Aliases -/

theorem carries_defineAll_bare {table table' : AliasTable}
    (hentries : table'.entries = bareEntries table.entries)
    (hallow : table.allowIdentical = config.allowIdenticalAliases)
    (hallow' : table'.allowIdentical = config.allowIdenticalAliases)
    (entries : List (String × Expr)) :
    Carries (fun e => config.Excuses (.aliasing e)) (fun a b => b.entries = bareEntries a.entries)
      (table.defineAll entries) (table'.defineAll (bareEntries entries)) := by
  induction entries generalizing table table' with
  | nil => exact .of_ok hentries
  | cons entry rest ih =>
    obtain ⟨name, value⟩ := entry
    rw [bareEntries, AliasTable.defineAll, AliasTable.defineAll, AliasTable.define,
      AliasTable.define, resolve_bare hentries, hallow, hallow']
    cases hresolve : table.resolve name with
    | none =>
      refine ih ?_ rfl rfl
      rw [hentries, bareEntries_eq_map, bareEntries_eq_map, List.map_append, List.map_singleton]
    | some existing =>
      simp only [Option.map_some]
      by_cases hidentical : config.allowIdenticalAliases = true
      -- bare values can be the same although the values are not, never the other way around
      · by_cases hsame : existing.same value = true
        · simp only [hidentical, hsame, Expr.same_bare existing hsame, Bool.and_self, if_true]
          exact ih hentries hallow hallow'
        · simp only [hsame, Bool.and_false, Bool.false_eq_true, if_false]
          exact .of_excused (Or.inr ⟨hidentical, name, rfl⟩)
      · simp only [hidentical, Bool.false_and, Bool.false_eq_true, if_false]
        exact .of_error _

theorem carries_collect_bare (select : Option Expr) :
    Carries (fun e => config.Excuses (.aliasing e)) (fun a b => b.entries = bareEntries a.entries)
      (AliasTable.collect select config.allowIdenticalAliases)
      (AliasTable.collect (bareOption select) config.allowIdenticalAliases) := by
  cases select with
  | none => exact .of_ok rfl
  | some e =>
    rw [bareOption, AliasTable.collect, AliasTable.collect, outermostAliases_bare]
    exact carries_defineAll_bare rfl rfl rfl e.outermostAliases

/-! ### The induction -/

mutual

theorem follows_bare {ctx ctx' : Context} (h : ctx.Beside ctx') (o : Bool) (e : Expr) :
    Follows 0 ctx.config.Excuses Expr.CastAlike (e.bind ctx o) (e.bare.bind ctx' o) := by
  match e with
  | .literal v => exact .pure rfl
  | .param p => exact (follows_assign p).bind fun _ _ _ => .pure rfl
  | .field f =>
    rw [Expr.bare, Expr.bind, Expr.bind, h.scopes]
    exact (Follows.ofExcept (.refl _)).bind fun _ _ _ => .pure rfl
  | .binding r =>
    rw [Expr.bare, Expr.bind, Expr.bind, h.scopes]
    exact (Follows.ofExcept (.refl _)).bind fun _ _ _ => .pure rfl
  | .parentBinding r =>
    rw [Expr.bare, Expr.bind, Expr.bind, h.scopes]
    exact (Follows.ofExcept (.refl _)).bind fun _ _ _ => .pure rfl
  | .operator op operands =>
    rw [Expr.bare, Expr.bind, Expr.bind, checkOperands_bare]
    exact (Follows.ofExcept (.refl _)).bind fun _ _ _ =>
      (follows_bareAll h false operands).bind fun _ _ _ => .pure rfl
  | .aggregate kind args distinct filter =>
    rw [Expr.bare, Expr.bind, Expr.bind, checkArguments_bare]
    exact (Follows.ofExcept (.refl _)).bind fun _ _ _ =>
      (follows_bareAll h false args).bind fun _ _ _ =>
        (follows_bareOption h false filter).bind fun _ _ _ => .pure rfl
  | .fragment text parts args =>
    rw [Expr.bare, Expr.bind, Expr.bind]
    exact (Follows.ofExcept (carries_process_bare text parts args)).bind fun _ _ hfaults =>
      (follows_bareArgs h args hfaults).bind fun _ _ _ => .pure rfl
  | .cast value target resolved =>
    -- what is cast is checked once it is bound, so the bound values have to be alike
    rw [Expr.bare, Expr.bind, Expr.bind, h.scopes]
    refine (follows_bare h false value).bind fun value' value'' halike => ?_
    rw [halike]
    exact (Follows.ofExcept (.refl _)).bind fun _ _ _ =>
      (Follows.ofExcept (.refl _)).bind fun _ _ _ => .pure rfl
  | .subquery kind query => exact (follows_bareQuery h query).bind fun _ _ _ => .pure rfl
  | .values table =>
    rw [Expr.bare, Expr.bind, Expr.bind, h.catalog, h.scopes]
    refine (Follows.ofExcept (.refl _)).bind ?_
    rintro table' _ rfl
    exact (follows_assignTable table').bind fun _ _ _ => .pure rfl
  | .projection kind p =>
    refine (follows_projection_bare h p).bind fun _ _ _ => .pure ?_
    cases kind <;> rfl
  | .merge left right =>
    exact (follows_bare h o left).bind fun _ _ _ =>
      (follows_bare h o right).bind fun _ _ _ => .pure rfl
  | .aliased value name =>
    cases o with
    | false => exact .throw _
    | true => exact (follows_bare h false value).bind fun _ _ _ => .pure rfl
  | .aliasRef name =>
    rw [Expr.bare, Expr.bind, Expr.bind, AliasTable.require_congr (h.aliases name)]
    exact (Follows.ofExcept (.refl _)).bind fun _ _ _ => .pure rfl
  | .jsonPath base path =>
    exact (follows_bareAccess h base).bind fun _ _ _ =>
      (follows_barePath h path).bind fun _ _ _ => .pure rfl
  | .interval count unit => exact (follows_bare h false count).bind fun _ _ _ => .pure rfl
  | .tuple items => exact (follows_bareAll h o items).bind fun _ _ _ => .pure rfl
  | .mapping entries => exact (follows_bareEntries h o entries).bind fun _ _ _ => .pure rfl
termination_by structural e

theorem follows_bareAccess {ctx ctx' : Context} (h : ctx.Beside ctx') (e : Expr) :
    Follows 0 ctx.config.Excuses (fun _ _ => True) (e.bindAccess ctx) (e.bare.bindAccess ctx') := by
  match e with
  | .jsonPath base path =>
    exact (follows_bareAccess h base).bind fun _ _ _ =>
      (follows_barePath h path).bind fun _ _ _ => .pure trivial
  | .field f =>
    rw [Expr.bare, Expr.bindAccess, Expr.bindAccess, h.scopes]
    exact (Follows.ofExcept (.refl _)).bind fun _ _ _ => .pure trivial
  | .projection kind p => cases kind <;> exact .throw _
  | .literal _ | .param _ | .binding _ | .parentBinding _ | .operator _ _ | .aggregate _ _ _ _
  | .fragment _ _ _ | .cast _ _ _ | .subquery _ _ | .values _ | .merge _ _
  | .aliased _ _ | .aliasRef _ | .interval _ _ | .tuple _ | .mapping _ => exact .throw _
termination_by structural e

theorem follows_bareAll {ctx ctx' : Context} (h : ctx.Beside ctx') (o : Bool) (es : List Expr) :
    Follows 0 ctx.config.Excuses (fun _ _ => True) (bindAll ctx o es)
      (bindAll ctx' o (bareAll es)) := by
  match es with
  | [] => exact .pure trivial
  | e :: rest =>
    exact (follows_bare h o e).bind fun _ _ _ =>
      (follows_bareAll h o rest).bind fun _ _ _ => .pure trivial
termination_by structural es

theorem follows_bareEntries {ctx ctx' : Context} (h : ctx.Beside ctx') (o : Bool)
    (entries : List (String × Expr)) :
    Follows 0 ctx.config.Excuses (fun _ _ => True) (bindEntries ctx o entries)
      (bindEntries ctx' o (bareEntries entries)) := by
  match entries with
  | [] => exact .pure trivial
  | (key, e) :: rest =>
    exact (follows_bare h o e).bind fun _ _ _ =>
      (follows_bareEntries h o rest).bind fun _ _ _ => .pure trivial
termination_by structural entries

theorem follows_bareOption {ctx ctx' : Context} (h : ctx.Beside ctx') (o : Bool)
    (e : Option Expr) :
    Follows 0 ctx.config.Excuses (fun _ _ => True) (bindOption ctx o e)
      (bindOption ctx' o (bareOption e)) := by
  match e with
  | none => exact .pure trivial
  | some e => exact (follows_bare h o e).bind fun _ _ _ => .pure trivial
termination_by structural e

theorem follows_bareArgs {ctx ctx' : Context} (h : ctx.Beside ctx') (args : List FragmentArg)
    (hfaults : ∀ arg ∈ args, arg.fault? = none) :
    Follows 0 ctx.config.Excuses (fun _ _ => True) (bindArgs ctx args)
      (bindArgs ctx' (bareArgs args)) := by
  match args with
  | [] => exact .pure trivial
  | .mk .parameter e :: rest =>
    rw [List.forall_mem_cons] at hfaults
    exact (follows_bare h false e).bind fun _ _ _ =>
      (follows_bareArgs h rest hfaults.2).bind fun _ _ _ => .pure trivial
  | .mk .identifier e :: rest | .mk .constant e :: rest | .mk .splice e :: rest =>
    rw [List.forall_mem_cons] at hfaults
    obtain ⟨v, hvalue⟩ := value?_of_fault? (by simp) hfaults.1
    rw [bareArgs, bare_of_value? hvalue]
    exact (follows_assignArg _).bind fun _ _ _ =>
      (follows_bareArgs h rest hfaults.2).bind fun _ _ _ => .pure trivial
termination_by structural args

theorem follows_barePath {ctx ctx' : Context} (h : ctx.Beside ctx') (path : List PathStep) :
    Follows 0 ctx.config.Excuses (fun _ _ => True) (bindPath ctx path)
      (bindPath ctx' (barePath path)) := by
  match path with
  | [] => exact .pure trivial
  | .computed e :: rest =>
    exact (follows_bare h false e).bind fun _ _ _ =>
      (follows_barePath h rest).bind fun _ _ _ => .pure trivial
  | .key _ :: rest | .index _ :: rest =>
    exact (follows_barePath h rest).bind fun _ _ _ => .pure trivial
termination_by structural path

theorem follows_bareWheres {ctx ctx' : Context} (h : ctx.Beside ctx') (wheres : List Expr) :
    Follows 0 ctx.config.Excuses (fun _ _ => True) (bindWheres ctx wheres)
      (bindWheres ctx' (bareAll wheres)) := by
  match wheres with
  | [] => exact .pure trivial
  | e :: rest =>
    rw [bareAll, bindWheres, bindWheres, containsAggregate_bare, h.config]
    split
    · exact .throw _
    · exact (follows_bare h false e).bind fun _ _ _ =>
        (follows_bareWheres h rest).bind fun _ _ _ => .pure trivial
termination_by structural wheres

theorem follows_bareTerms {ctx ctx' : Context} (h : ctx.Beside ctx') (terms : List OrderTerm) :
    Follows 0 ctx.config.Excuses (fun _ _ => True) (bindTerms ctx terms)
      (bindTerms ctx' (bareTerms terms)) := by
  match terms with
  | [] => exact .pure trivial
  | .mk e direction :: rest =>
    exact (follows_bare h false e).bind fun _ _ _ =>
      (follows_bareTerms h rest).bind fun _ _ _ => .pure trivial
termination_by structural terms

theorem follows_bareSource {ctx ctx' : Context} (h : ctx.Beside ctx')
    (validated : Option ValuesTable) (source : Source) :
    Follows 0 ctx.config.Excuses (fun _ _ => True) (source.bind ctx validated)
      (source.bare.bind ctx' validated) := by
  match source with
  | .mk (.schema _) _ | .mk (.table _) _ => exact .pure trivial
  | .mk (.values table) name =>
    exact (follows_assignTable _).bind fun _ _ _ => .pure trivial
  | .mk (.subquery query) name =>
    exact (follows_bareQuery h query).bind fun _ _ _ => .pure trivial
  | .mk (.fragment e) name =>
    rw [Source.bare, Origin.bare, Source.bind, Source.bind, isFragment_bare, kindName_bare]
    split
    · exact (follows_bare h false e).bind fun _ _ _ => .pure trivial
    · exact .throw _
termination_by structural source

theorem follows_bareJoins {ctx ctx' : Context} (h : ctx.Beside ctx')
    (validated : List (Option ValuesTable)) (joins : List Join) :
    Follows 0 ctx.config.Excuses (fun _ _ => True) (bindJoins ctx validated joins)
      (bindJoins ctx' validated (bareJoins joins)) := by
  match joins with
  | [] => exact .pure trivial
  | .mk kind source on :: rest =>
    exact (follows_bareSource h _ source).bind fun _ _ _ =>
      (follows_bareOption h false on).bind fun _ _ _ =>
        (follows_bareJoins h _ rest).bind fun _ _ _ => .pure trivial
termination_by structural joins

/-- What a query fails with, its bare form fails with as well unless it is excused. -/
theorem follows_bareQuery {ctx ctx' : Context} (h : ctx.Beside ctx') (query : Query) :
    Follows 0 ctx.config.Excuses (fun _ _ => True) (query.bind ctx) (query.bare.bind ctx') := by
  match query with
  | .mk source joins wheres select groupBy having orderBy limit offset distinct =>
    rw [Query.bare, Query.bind, Query.bind, map_source_bareJoins, ← List.map_cons,
      declareSources_bare, h.catalog, h.config, h.scopes]
    split
    · exact .throw _
    refine (Follows.note _ _).bind fun _ _ _ => .finallyNote ?_
    refine (Follows.ofExcept (.refl _)).bind ?_
    rintro validated _ rfl
    refine (Follows.ofExcept (carries_collect_bare select)).bind fun aliases aliases' haliases => ?_
    refine (Follows.note _ _).bind fun _ _ _ => ?_
    have hinside : Context.Beside
        ⟨ctx.catalog, ctx.config, (declareSources ctx.catalog ctx.scopes .empty
          (source :: joins.map Join.source)).2 :: ctx.scopes, aliases⟩
        ⟨ctx.catalog, ctx.config, (declareSources ctx.catalog ctx.scopes .empty
          (source :: joins.map Join.source)).2 :: ctx.scopes, aliases'⟩ := by
      refine ⟨rfl, rfl, rfl, fun name => ?_⟩
      rw [resolve_bare haliases, Option.isSome_map]
    refine (follows_bareOption hinside true select).bind fun _ _ _ => ?_
    refine (follows_bareSource hinside _ source).bind fun _ _ _ => ?_
    refine (follows_bareJoins hinside _ joins).bind fun _ _ _ => ?_
    refine (follows_bareWheres hinside wheres).bind fun _ _ _ => ?_
    refine (follows_bareAll hinside false groupBy).bind fun _ _ _ => ?_
    refine (follows_bareAll hinside false having).bind fun _ _ _ => ?_
    refine (follows_bareTerms hinside orderBy).bind fun _ _ _ => ?_
    refine (follows_bareOption hinside false limit).bind fun _ _ _ => ?_
    refine (follows_bareOption hinside false offset).bind fun _ _ _ => ?_
    refine (Follows.noteAll _ _).bind fun _ _ _ => ?_
    exact Follows.get.bind fun _ _ _ => (Follows.note _ _).bind fun _ _ _ => .pure trivial
termination_by structural query

end

end QueryCompiler
