import QueryCompiler.Proofs.Binding.Aliases
import QueryCompiler.Proofs.Binding.Scopes
import QueryCompiler.Proofs.Comparison.Commuting
import QueryCompiler.Proofs.Comparison.Following
import QueryCompiler.Proofs.Comparison.Sameness
import QueryCompiler.Proofs.Parts

/-!
# Checks that carry over to another run

A comparison puts a run of binding beside one of a changed tree, inside further scopes, with another
counter and perhaps with another configuration. Here stand the checks that a run makes on its way:
whatever they accept in the first run they accept in the second.
-/

namespace QueryCompiler

/-! ### Resolution in more scopes -/

namespace ScopeStack

theorem findBinding_append {name : String} {level : Nat} {scopes : ScopeStack}
    {found : Slot × BoundSource} (h : findBinding name level scopes = some found)
    (outer : ScopeStack) : findBinding name level (scopes ++ outer) = some found := by
  induction scopes generalizing level with
  | nil => cases h
  | cons scope rest ih =>
    rw [findBinding] at h
    rw [List.cons_append, findBinding]
    cases hlookup : scope.lookup name with
    | some source =>
      rw [hlookup] at h
      exact h
    | none =>
      rw [hlookup] at h
      exact ih h

theorem lookupBinding_append {name : String} {scopes : ScopeStack} {found : Slot × BoundSource}
    (h : scopes.lookupBinding name = .ok found) (outer : ScopeStack) :
    lookupBinding (scopes ++ outer) name = .ok found := by
  rw [lookupBinding] at h ⊢
  split at h
  · rename_i hfound
    cases h
    rw [findBinding_append hfound]
  · cases h

theorem lookupParent_append {name : String} {scopes : ScopeStack} {found : Slot × BoundSource}
    (h : scopes.lookupParent name = .ok found) (outer : ScopeStack) :
    lookupParent (scopes ++ outer) name = .ok found := by
  match scopes with
  | [] | [_] => cases h
  | _ :: _ :: _ => exact h

/-- What a reference means is not changed by scopes further outward. -/
theorem resolve_append {ref : SourceRef} {scopes : ScopeStack} {found : Slot × BoundSource}
    (h : scopes.resolve ref = .ok found) (outer : ScopeStack) :
    resolve (scopes ++ outer) ref = .ok found := by
  cases ref with
  | position position =>
    cases scopes with
    | nil => cases h
    | cons scope rest => exact h
  | binding name => exact lookupBinding_append h outer
  | parentBinding name => exact lookupParent_append h outer

theorem bindField_append {f g : FieldRef} {scopes : ScopeStack} (h : scopes.bindField f = .ok g)
    (outer : ScopeStack) : bindField (scopes ++ outer) f = .ok g := by
  obtain ⟨slot, source, storage, type, hresolve, hfield, heq⟩ := bindField_eq_ok.1 h
  exact bindField_eq_ok.2 ⟨slot, source, storage, type, resolve_append hresolve outer, hfield, heq⟩

theorem resolveType_append {target : TypeRef} {found : TypeRef × ResolvedType} {scopes : ScopeStack}
    (h : scopes.resolveType target = .ok found) (outer : ScopeStack) :
    resolveType (scopes ++ outer) target = .ok found := by
  cases target with
  | builtin name => exact h
  | parameterized descriptor => exact h
  | column f =>
    rw [resolveType] at h ⊢
    split at h
    · cases h
    · rename_i g hbind
      rw [bindField_append hbind]
      exact h

end ScopeStack

theorem resolveColumns_append {types : SortedMap TypeRef} {keys : List String}
    {columns : List (String × TypeRef × ResolvedType)} {scopes : ScopeStack}
    (h : resolveColumns scopes.resolveType types keys = .ok columns) (outer : ScopeStack) :
    resolveColumns (ScopeStack.resolveType (scopes ++ outer)) types keys = .ok columns := by
  induction keys generalizing columns with
  | nil => exact h
  | cons key rest ih =>
    rw [resolveColumns] at h ⊢
    cases htarget : types.get? key with
    | none => simp [htarget] at h
    | some target =>
      cases hfound : scopes.resolveType target with
      | error e => simp [htarget, hfound] at h
      | ok found =>
        cases hcolumns : resolveColumns scopes.resolveType types rest with
        | error e => simp [htarget, hfound, hcolumns] at h
        | ok columns' =>
          simp only [htarget, hfound, hcolumns] at h
          simp only [ScopeStack.resolveType_append hfound, ih hcolumns]
          exact h

theorem resolveTypes_append {catalog : Catalog} {keys : List String} {types : ValuesTypes}
    {found : ValuesTypes × SortedMap ResolvedType} {scopes : ScopeStack}
    (h : resolveTypes catalog scopes.resolveType keys types = .ok found) (outer : ScopeStack) :
    resolveTypes catalog (ScopeStack.resolveType (scopes ++ outer)) keys types = .ok found := by
  cases types with
  | schema name => exact h
  | map types =>
    rw [resolveTypes] at h ⊢
    cases hcolumns : resolveColumns scopes.resolveType types keys with
    | error e => simp [hcolumns] at h
    | ok columns =>
      simp only [hcolumns] at h
      simp only [resolveColumns_append hcolumns]
      exact h

/-! ### Comparisons -/

/--
What two runs of binding differ in. The first run may fail where the second does not only with an
excused error.
-/
structure Comparison where
  /-- The configuration of the first run. -/
  config : Config
  /-- The configuration of the second run. -/
  config' : Config
  /-- The scopes outside of the query that only the second run has. -/
  outer : ScopeStack
  /-- What turns the result of the first run into that of the second. -/
  change : Change
  excused : CompileError → Prop
  congruent : change.Congruent
  accepts {t : DataType} {v : Value} (h : t.accepts v = true) : t.accepts (change.value v) = true
  splices (v : Value) : (FragmentArg.mk .splice (.literal (change.spliced v))).fault? =
    (FragmentArg.mk .splice (.literal v)).fault?
  /-- A changed cell may be accepted where the original is not. -/
  mismatch (row : Nat) (field : String) (t : DataType) :
    excused (.values (.typeMismatch row field t))
  /-- Changed values may be equal where the originals are not. -/
  redefinition (name : String) (h : config.allowIdenticalAliases = true) :
    excused (.aliasing (.duplicate name))
  /-- Only in the same surroundings do errors carry over. -/
  tolerant : (config' = config ∧ outer = []) ∨ ∀ e, excused e

namespace Comparison

/-- The change of what the first run is given into what the second run is given. -/
def start (comparison : Comparison) : Change := comparison.change.unshifted

variable {comparison : Comparison}

/-- A check against scopes carries over if more scopes do not spoil it. -/
theorem carries_scopes {α ε : Type} (wrap : ε → CompileError) (check : ScopeStack → Except ε α)
    (h : ∀ scopes a, check scopes = .ok a → check (scopes ++ comparison.outer) = .ok a)
    (scopes : ScopeStack) :
    Carries (fun e => comparison.excused (wrap e)) Eq (check scopes)
      (check (scopes ++ comparison.outer)) := by
  rcases comparison.tolerant with ⟨-, houter⟩ | htolerant
  · rw [houter, List.append_nil]
    exact .refl _
  · exact .of_tolerant (fun e => htolerant (wrap e)) fun a ha => ⟨a, h scopes a ha, rfl⟩

/-! ### Values tables -/

theorem firstInconsistent_change (c : Change) (keys : List String) (index : Nat) (rows : List Row) :
    firstInconsistent keys index (rows.map (Row.change c)) = firstInconsistent keys index rows := by
  induction rows generalizing index with
  | nil => rfl
  | cons row rest ih =>
    rw [List.map_cons, firstInconsistent, firstInconsistent, ih, Row.change,
      SortedMap.keys_mapValues]

theorem firstMismatch_start {types : SortedMap ResolvedType} {entries : List (String × Value)}
    (h : firstMismatch types entries = none) :
    firstMismatch types (entries.map fun entry => (entry.1, comparison.start.value entry.2)) =
      none := by
  induction entries with
  | nil => rfl
  | cons entry rest ih =>
    obtain ⟨field, value⟩ := entry
    rw [firstMismatch] at h
    rw [List.map_cons, firstMismatch]
    split at h
    · rename_i t ht
      split at h
      · rename_i haccepts
        rw [ht]
        simp only [start, Change.unshifted, comparison.accepts haccepts, if_true]
        exact ih h
      · cases h
    · exact ih h

theorem firstMismatchIn_start (comparison : Comparison) {types : SortedMap ResolvedType}
    {index : Nat} {rows : List Row} (h : firstMismatchIn types index rows = none) :
    firstMismatchIn types index (rows.map (Row.change comparison.start)) = none := by
  induction rows generalizing index with
  | nil => rfl
  | cons row rest ih =>
    rw [firstMismatchIn] at h
    rw [List.map_cons, firstMismatchIn]
    split at h
    · cases h
    · rename_i hrow
      have hchanged : firstMismatch types (row.change comparison.start).entries = none :=
        firstMismatch_start hrow
      rw [hchanged]
      exact ih h

/-- A table that is valid in the first run is valid in the second. -/
theorem carries_check (comparison : Comparison) (catalog : Catalog) (scopes : ScopeStack)
    (table : ValuesTable) :
    Carries comparison.excused (fun a b => b = a.change comparison.start)
      (table.check catalog scopes)
      ((table.change comparison.start).check catalog (scopes ++ comparison.outer)) := by
  obtain ⟨rows, types, resolved, firstParam⟩ := table
  cases rows with
  | nil => exact .of_error _
  | cons first rest =>
    simp only [ValuesTable.check, ValuesTable.validate, ValuesTable.change, List.map_cons]
    have hempty : (first.change comparison.start).isEmpty = first.isEmpty := by
      simp [Row.change, SortedMap.isEmpty, SortedMap.mapValues]
    have hkeys : (first.change comparison.start).keys = first.keys :=
      SortedMap.keys_mapValues _ first
    rw [hempty, hkeys, firstInconsistent_change]
    split
    · exact .of_error _
    split
    · exact .of_error _
    have htypes : Carries comparison.excused Eq _ _ := carries_scopes id
      (fun scopes => resolveTypes catalog scopes.resolveType first.keys types)
      (fun _ _ h => resolveTypes_append h _) scopes
    cases hfound : resolveTypes catalog scopes.resolveType first.keys types with
    | error e =>
      rcases htypes.error e hfound with hexcused | hfound'
      · exact .of_excused hexcused
      · simp only [hfound']
        exact .of_error e
    | ok found =>
      obtain ⟨_, hfound', rfl⟩ := htypes.ok found hfound
      obtain ⟨types', resolved'⟩ := found
      simp only [hfound']
      cases hmismatch : firstMismatchIn resolved' 0 (first :: rest) with
      | some mismatch => exact .of_excused (comparison.mismatch _ _ _)
      | none =>
        have hchanged := firstMismatchIn_start comparison hmismatch
        rw [List.map_cons] at hchanged
        simp only [hchanged]
        exact .of_ok rfl

/-! ### Sources -/

/-- The tables of sources that were declared in the two runs. -/
def changeTables (c : Change) (tables : List (Option ValuesTable)) : List (Option ValuesTable) :=
  tables.map (Option.map (ValuesTable.change c))

theorem head?_changeTables (c : Change) (tables : List (Option ValuesTable)) :
    (changeTables c tables).head?.join = tables.head?.join.map (ValuesTable.change c) := by
  cases tables <;> rfl

theorem tail_changeTables (c : Change) (tables : List (Option ValuesTable)) :
    (changeTables c tables).tail = changeTables c tables.tail := by
  cases tables <;> rfl

theorem carries_declare (comparison : Comparison) (catalog : Catalog) (scopes : ScopeStack)
    (source : Source) :
    Carries comparison.excused (fun a b => b = (a.1, a.2.map (ValuesTable.change comparison.start)))
      (source.declare catalog scopes)
      ((source.change comparison.start).declare catalog (scopes ++ comparison.outer)) := by
  obtain ⟨origin, name⟩ := source
  cases origin with
  | schema reference =>
    simp only [Source.change, Origin.change, Source.declare]
    split
    · exact .of_ok rfl
    · exact .of_error _
  | values table =>
    have hcheck := carries_check comparison catalog scopes table
    simp only [Source.change, Origin.change, Source.declare]
    cases htable : table.check catalog scopes with
    | error e =>
      rcases hcheck.error e htable with hexcused | htable'
      · exact .of_excused hexcused
      · simp only [htable']
        exact .of_error e
    | ok table' =>
      obtain ⟨_, htable', rfl⟩ := hcheck.ok table' htable
      simp only [htable']
      exact .of_ok rfl
  | table _ | subquery _ | fragment _ => exact .of_ok rfl

/-- Sources that can be declared in the first run can be in the second, in the same scope. -/
theorem carries_declareSources (comparison : Comparison) (catalog : Catalog) (scopes : ScopeStack)
    (scope : Scope) (sources : List Source) :
    Carries comparison.excused (fun a b => b = changeTables comparison.start a ∧
        (declareSources catalog (scopes ++ comparison.outer) scope
          (sources.map (Source.change comparison.start))).2 =
        (declareSources catalog scopes scope sources).2)
      (declareSources catalog scopes scope sources).1
      (declareSources catalog (scopes ++ comparison.outer) scope
        (sources.map (Source.change comparison.start))).1 := by
  induction sources generalizing scope with
  | nil => exact .of_ok ⟨rfl, rfl⟩
  | cons source rest ih =>
    have hdeclare := carries_declare comparison catalog (scope :: scopes) source
    rw [List.cons_append] at hdeclare
    have hname : (source.change comparison.start).name = source.name := by
      obtain ⟨origin, name⟩ := source
      rfl
    rw [List.map_cons, declareSources, declareSources, hname]
    cases hsource : source.declare catalog (scope :: scopes) with
    | error e =>
      rcases hdeclare.error e hsource with hexcused | hsource'
      · exact .of_excused hexcused
      · simp only [hsource']
        exact .of_error e
    | ok found =>
      obtain ⟨shape, table⟩ := found
      obtain ⟨_, hsource', rfl⟩ := hdeclare.ok _ hsource
      simp only [hsource']
      cases hadd : scope.add source.name shape with
      | error e => exact .of_error _
      | ok next =>
        have hrest := ih next
        simp only
        cases hdeclared : declareSources catalog scopes next rest with
        | mk declared last =>
          cases hdeclared' : declareSources catalog (scopes ++ comparison.outer) next
              (rest.map (Source.change comparison.start)) with
          | mk declared' last' =>
            rw [hdeclared, hdeclared'] at hrest
            cases declared with
            | error e =>
              rcases hrest.error e rfl with hexcused | heq
              · exact .of_excused hexcused
              · cases heq
                exact .of_error e
            | ok tables =>
              obtain ⟨_, heq, rfl, hlast⟩ := hrest.ok tables rfl
              cases heq
              exact .of_ok ⟨rfl, hlast⟩

/-! ### Aliases -/

theorem carries_define {table table' : AliasTable}
    (hentries : table'.entries = changeEntries comparison.start table.entries)
    (hallow : table.allowIdentical = comparison.config.allowIdenticalAliases)
    (hallow' : table'.allowIdentical = comparison.config'.allowIdenticalAliases)
    (name : String) (value : Expr)
    (hpolicy : comparison.config.allowIdenticalAliases = true →
      comparison.config'.allowIdenticalAliases = true ∨ name ∉ table.names) :
    Carries (fun e => comparison.excused (.aliasing e))
      (fun a b => b.entries = changeEntries comparison.start a.entries ∧
        b.allowIdentical = comparison.config'.allowIdenticalAliases)
      (table.define name value) (table'.define name (value.change comparison.start)) := by
  have hcongruent : comparison.start.Congruent :=
    ⟨comparison.congruent.literal, comparison.congruent.value, comparison.congruent.spliced⟩
  rw [AliasTable.define, AliasTable.define, resolve_change _ hentries]
  cases hresolve : table.resolve name with
  | none =>
    refine .of_ok ⟨?_, hallow'⟩
    simp only [hentries, changeEntries_eq_map, List.map_append, List.map_cons, List.map_nil]
  | some existing =>
    have hmem : name ∈ table.names := by
      rw [← AliasTable.resolve_isSome, hresolve]
      rfl
    simp only [Option.map_some]
    by_cases hidentical : comparison.config.allowIdenticalAliases = true
    · by_cases hsame : existing.same value = true
      · have hsame' := Expr.same_change hcongruent existing hsame
        have hpermits : comparison.config'.allowIdenticalAliases = true :=
          (hpolicy hidentical).resolve_right (fun hnew => hnew hmem)
        rw [if_pos (by simp [hallow, hidentical, hsame]),
          if_pos (by simp [hallow', hpermits, hsame'])]
        exact .of_ok ⟨hentries, hallow'⟩
      · rw [if_neg (by simp [hsame])]
        exact .of_excused (comparison.redefinition name hidentical)
    · rw [if_neg (by simp [hallow, hidentical])]
      rcases comparison.tolerant with ⟨hconfig, -⟩ | htolerant
      · rw [if_neg (by simp [hallow', hconfig, hidentical])]
        exact .of_error _
      · exact .of_excused (htolerant _)

/-- Where redefinition is allowed in the first run only, the names must be distinct. -/
theorem carries_defineAll {table table' : AliasTable}
    (hentries : table'.entries = changeEntries comparison.start table.entries)
    (hallow : table.allowIdentical = comparison.config.allowIdenticalAliases)
    (hallow' : table'.allowIdentical = comparison.config'.allowIdenticalAliases)
    (entries : List (String × Expr))
    (hpolicy : comparison.config.allowIdenticalAliases = true →
      comparison.config'.allowIdenticalAliases = true ∨
        (table.names ++ entries.map Prod.fst).Nodup) :
    Carries (fun e => comparison.excused (.aliasing e))
      (fun a b => b.entries = changeEntries comparison.start a.entries)
      (table.defineAll entries) (table'.defineAll (changeEntries comparison.start entries)) := by
  induction entries generalizing table table' with
  | nil => exact .of_ok hentries
  | cons entry rest ih =>
    obtain ⟨name, value⟩ := entry
    have hdefine := carries_define hentries hallow hallow' name value fun h =>
      (hpolicy h).imp_right fun hnodup hmem =>
        (List.nodup_append.1 hnodup).2.2 name hmem name (by simp) rfl
    rw [changeEntries, AliasTable.defineAll, AliasTable.defineAll]
    cases hnext : table.define name value with
    | error e =>
      rcases hdefine.error e hnext with hexcused | hnext'
      · exact .of_excused hexcused
      · simp only [hnext']
        exact .of_error e
    | ok next =>
      obtain ⟨next', hnext', hentries', hallows'⟩ := hdefine.ok next hnext
      obtain ⟨hallows, hnames⟩ := AliasTable.define_eq_ok hnext
      simp only [hnext']
      refine ih hentries' (hallows.trans hallow) hallows' fun h => ?_
      refine (hpolicy h).imp_right fun hnodup => ?_
      rcases hnames with ⟨-, hadded⟩ | ⟨-, hmem, -⟩
      · rw [hadded]
        simpa using hnodup
      · exact absurd rfl ((List.nodup_append.1 hnodup).2.2 name hmem name (by simp))

theorem carries_collect (select : Option Expr)
    (hpolicy : comparison.config.allowIdenticalAliases = true →
      comparison.config'.allowIdenticalAliases = true ∨ (selectAliases select).Nodup) :
    Carries (fun e => comparison.excused (.aliasing e))
      (fun a b => b.entries = changeEntries comparison.start a.entries)
      (AliasTable.collect select comparison.config.allowIdenticalAliases)
      (AliasTable.collect (changeOption comparison.start select)
        comparison.config'.allowIdenticalAliases) := by
  cases select with
  | none => exact .of_ok rfl
  | some e =>
    rw [changeOption, AliasTable.collect, AliasTable.collect, outermostAliases_change]
    exact carries_defineAll rfl rfl rfl e.outermostAliases hpolicy

/-! ### Arguments of fragments -/

theorem value?_shifting (k : Nat) (e : Expr) :
    (e.change (.shifting k)).value? = e.value? := by
  cases e with
  | param p =>
    rw [Expr.change, Param.change]
    simp [Expr.value?, Change.shifting]
  | _ => rfl

/-- A changed argument has the fault that the argument has. -/
theorem fault?_start (arg : FragmentArg) : (arg.change comparison.start).fault? = arg.fault? := by
  obtain ⟨role, e⟩ := arg
  cases role with
  | parameter => rfl
  | identifier | constant => exact fault?_of_value? (value?_shifting 0 e)
  | splice =>
    cases e with
    | literal v => exact comparison.splices v
    | param p =>
      have hvalue : ((Expr.param p).change (comparison.start.under .splice)).value? =
          some (comparison.change.spliced p.value) := by
        simp [Expr.change, Param.change, Change.under, Expr.value?, start, Change.unshifted]
      rw [FragmentArg.change, FragmentArg.fault?, hvalue]
      exact comparison.splices p.value
    | _ => rfl

theorem firstFault_start (index : Nat) (args : List FragmentArg) :
    firstFault index (changeArgs comparison.start args) = firstFault index args := by
  rw [changeArgs_eq_map]
  exact firstFault_map comparison.fault?_start index args

theorem carries_process (text : String) (parts : List String) (args : List FragmentArg) :
    Carries (fun e => comparison.excused (id e))
      (fun a b => b.parts = a.parts ∧ ∀ arg ∈ args, arg.fault? = none)
      (Fragment.process ⟨text, parts, args⟩)
      (Fragment.process ⟨text, parts, changeArgs comparison.start args⟩) := by
  have hlength : (changeArgs comparison.start args).length = args.length :=
    Change.relabelling.length_args comparison.start args
  simp only [Fragment.process, hlength, firstFault_start]
  split
  · exact .of_error _
  split
  · exact .of_error _
  · rename_i hfault
    exact .of_ok ⟨rfl, firstFault_eq_none.1 hfault⟩

end Comparison

end QueryCompiler
