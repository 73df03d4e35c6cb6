import QueryCompiler.Proofs.Blanking.Values
import QueryCompiler.Proofs.Numbering.Carriers

/-!
# Carriers of blank queries

The carriers of a changed settled query are the changed carriers of the query, in the same order.
Those of its blank therefore bind the same parameters without their values.
-/

namespace QueryCompiler

namespace Carrier

def change (c : Change) : Carrier → Carrier
  | param p => param (p.change c)
  | values table => values (table.change c)

theorem bound_blanking (carrier : Carrier) :
    (carrier.change .blanking).bound = carrier.bound.map BoundParam.blank := by
  cases carrier with
  | param p => rfl
  | values table =>
    simp only [change, bound, ValuesTable.cells, ValuesTable.change, List.flatMap_map,
      List.map_flatMap, List.map_map]
    refine congrArg (fun f => table.rows.flatMap f) (funext fun row => ?_)
    simp only [Row.change, SortedMap.mapValues, List.map_map]
    rfl

end Carrier

variable (c : Change)

mutual

theorem Expr.Settled.carriers_change {place : Place} {o : Bool} {k k' : Nat} {e : Expr}
    (h : e.Settled place o k k') : (e.change c).carriers = e.carriers.map (Carrier.change c) := by
  match e with
  | .literal _ | .field _ | .binding _ | .parentBinding _ | .projection _ _ | .aliasRef _
  | .param _ | .values _ => rfl
  | .operator op operands =>
    cases h with
    | operator _ _ hoperands => exact hoperands.carriers_change
  | .aggregate kind args distinct filter =>
    cases h with
    | aggregate _ hargs hfilter =>
      rw [Expr.change, Expr.carriers, Expr.carriers, hargs.carriers_change,
        hfilter.carriers_change, List.map_append]
  | .fragment text parts args =>
    cases h with
    | fragment _ _ hargs => exact hargs.carriers_change
  | .cast value target resolved =>
    cases h with
    | cast hvalue => exact hvalue.carriers_change
  | .subquery kind query =>
    cases h with
    | subquery hquery => exact hquery.carriers_change
  | .merge left right =>
    cases h with
    | merge hleft hright =>
      rw [Expr.change, Expr.carriers, Expr.carriers, hleft.carriers_change, hright.carriers_change,
        List.map_append]
  | .aliased value name =>
    cases h with
    | aliased hvalue => exact hvalue.carriers_change
  | .jsonPath base path =>
    cases h with
    | jsonPath _ hpath => exact hpath.carriers_change
  | .interval count unit =>
    cases h with
    | interval hcount => exact hcount.carriers_change
  | .tuple items =>
    cases h with
    | tuple hitems => exact hitems.carriers_change
  | .mapping entries =>
    cases h with
    | mapping hentries => exact hentries.carriers_change
termination_by structural e

theorem SettledAll.carriers_change {place : Place} {o : Bool} {k k' : Nat} {es : List Expr}
    (h : SettledAll place o k es k') :
    carriersAll (changeAll c es) = (carriersAll es).map (Carrier.change c) := by
  match es with
  | [] => rfl
  | e :: rest =>
    cases h with
    | cons he hrest =>
      rw [changeAll, carriersAll, carriersAll, he.carriers_change, hrest.carriers_change,
        List.map_append]
termination_by structural es

theorem SettledEntries.carriers_change {place : Place} {o : Bool} {k k' : Nat}
    {entries : List (String × Expr)} (h : SettledEntries place o k entries k') :
    carriersEntries (changeEntries c entries) =
      (carriersEntries entries).map (Carrier.change c) := by
  match entries with
  | [] => rfl
  | (key, e) :: rest =>
    cases h with
    | cons he hrest =>
      rw [changeEntries, carriersEntries, carriersEntries, he.carriers_change,
        hrest.carriers_change, List.map_append]
termination_by structural entries

theorem SettledOption.carriers_change {place : Place} {o : Bool} {k k' : Nat} {e : Option Expr}
    (h : SettledOption place o k e k') :
    carriersOption (changeOption c e) = (carriersOption e).map (Carrier.change c) := by
  match e with
  | none => rfl
  | some e =>
    cases h with
    | some he => exact he.carriers_change
termination_by structural e

theorem SettledArgs.carriers_change {place : Place} {k k' : Nat} {args : List FragmentArg}
    (h : SettledArgs place k args k') :
    carriersArgs (changeArgs c args) = (carriersArgs args).map (Carrier.change c) := by
  match args with
  | [] => rfl
  | .mk role e :: rest =>
    rw [changeArgs, carriersArgs, carriersArgs, List.map_append]
    cases h with
    | parameter he hrest =>
      rw [Change.under_parameter, he.carriers_change, hrest.carriers_change]
    | inline hrole hrest =>
      rw [Expr.change_inline hrole, hrest.carriers_change]
      rfl
    | splice _ hsplice hrest =>
      rw [Expr.change, Param.change_under_splice hsplice, hrest.carriers_change]
      rfl
termination_by structural args

theorem SettledPath.carriers_change {place : Place} {k k' : Nat} {path : List PathStep}
    (h : SettledPath place k path k') :
    carriersPath (changePath c path) = (carriersPath path).map (Carrier.change c) := by
  match path with
  | [] => rfl
  | .computed e :: rest =>
    cases h with
    | computed he hrest =>
      rw [changePath, carriersPath, carriersPath, he.carriers_change, hrest.carriers_change,
        List.map_append]
  | .key name :: rest =>
    cases h with
    | key hrest => exact hrest.carriers_change
  | .index i :: rest =>
    cases h with
    | index hrest => exact hrest.carriers_change
termination_by structural path

theorem SettledTerms.carriers_change {place : Place} {k k' : Nat} {terms : List OrderTerm}
    (h : SettledTerms place k terms k') :
    carriersTerms (changeTerms c terms) = (carriersTerms terms).map (Carrier.change c) := by
  match terms with
  | [] => rfl
  | .mk e direction :: rest =>
    cases h with
    | cons he hrest =>
      rw [changeTerms, carriersTerms, carriersTerms, he.carriers_change, hrest.carriers_change,
        List.map_append]
termination_by structural terms

theorem Source.Settled.carriers_change {place : Place} {k k' : Nat} {source : Source}
    (h : source.Settled place k k') :
    (source.change c).carriers = source.carriers.map (Carrier.change c) := by
  match source with
  | .mk (.schema _) _ | .mk (.table _) _ | .mk (.values _) _ => rfl
  | .mk (.subquery query) _ =>
    cases h with
    | subquery hquery => exact hquery.carriers_change
  | .mk (.fragment e) _ =>
    cases h with
    | fragment _ he => exact he.carriers_change
termination_by structural source

theorem SettledJoins.carriers_change {place : Place} {k k' : Nat} {joins : List Join}
    (h : SettledJoins place k joins k') :
    carriersJoins (changeJoins c joins) = (carriersJoins joins).map (Carrier.change c) := by
  match joins with
  | [] => rfl
  | .mk kind source on :: rest =>
    cases h with
    | cons hsource hon hrest =>
      rw [changeJoins, carriersJoins, carriersJoins, hsource.carriers_change, hon.carriers_change,
        hrest.carriers_change, List.map_append, List.map_append]
termination_by structural joins

/-- Changing a settled query changes its carriers one by one. -/
theorem Query.Settled.carriers_change {place : Place} {k k' : Nat} {query : Query}
    (h : query.Settled place k k') :
    (query.change c).carriers = query.carriers.map (Carrier.change c) := by
  match query with
  | .mk source joins wheres select groupBy having orderBy limit offset distinct =>
    cases h with
    | mk _ _ _ hselect _ hsource hjoins hwheres _ hgroupBy hhaving horderBy hlimit _ hoffset =>
      rw [Query.change, Query.carriers, Query.carriers, hsource.carriers_change,
        hjoins.carriers_change, hwheres.carriers_change, hselect.carriers_change,
        hgroupBy.carriers_change, hhaving.carriers_change, horderBy.carriers_change,
        hlimit.carriers_change, hoffset.carriers_change]
      simp only [List.map_append]
termination_by structural query

end

/-- The blank of a settled query binds the same parameters without their values. -/
theorem Query.Settled.bound_blank {place : Place} {k k' : Nat} {query : Query}
    (h : query.Settled place k k') : query.blank.carriers.flatMap Carrier.bound =
      (query.carriers.flatMap Carrier.bound).map BoundParam.blank := by
  rw [Query.blank, h.carriers_change, List.flatMap_map, List.map_flatMap]
  simp only [Carrier.bound_blanking]

end QueryCompiler
