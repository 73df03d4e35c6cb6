import QueryCompiler.Proofs.Blanking.Carriers
import QueryCompiler.Proofs.Keys.Parts
import QueryCompiler.Proofs.Keys.Shapes

/-!
# Shapes do not show bound values

The shape of a settled query is that of its blank: of the values that the query binds it shows only
how long the spliced lists are.
-/

namespace QueryCompiler

/-! ### Shapes of lists -/

theorem eq_of_append_nil {text text' : List Char} (h : text ++ [] = text' ++ []) :
    text = text' := by
  rwa [List.append_nil, List.append_nil] at h

theorem restShapes_congr {es es' : List Expr} (h : es'.map Expr.shape = es.map Expr.shape) :
    restShapes es' = restShapes es := by
  match es, es' with
  | [], [] => rfl
  | e :: rest, e' :: rest' =>
    rw [List.map_cons, List.map_cons, List.cons.injEq] at h
    rw [restShapes, restShapes, h.1, restShapes_congr h.2]
  | [], _ :: _ | _ :: _, [] => simp at h

theorem shapes_congr {es es' : List Expr} (h : es'.map Expr.shape = es.map Expr.shape) :
    shapes es' = shapes es := by
  match es, es' with
  | [], [] => rfl
  | e :: rest, e' :: rest' =>
    rw [List.map_cons, List.map_cons, List.cons.injEq] at h
    rw [shapes, shapes, h.1, restShapes_congr h.2]
  | [], _ :: _ | _ :: _, [] => simp at h

theorem clauseShapes_congr {es es' : List Expr} (name : String)
    (h : es'.map Expr.shape = es.map Expr.shape) :
    clauseShapes name es' = clauseShapes name es := by
  match es, es' with
  | [], [] => rfl
  | e :: rest, e' :: rest' =>
    rw [List.map_cons, List.map_cons, List.cons.injEq] at h
    rw [clauseShapes, clauseShapes, h.1, clauseShapes_congr name h.2]
  | [], _ :: _ | _ :: _, [] => simp at h

/-- What the shape of an entry shows of it. -/
def entryShape (entry : String × Expr) : String × List Char := (entry.1, entry.2.shape)

theorem restEntryShapes_congr {entries entries' : List (String × Expr)}
    (h : entries'.map entryShape = entries.map entryShape) :
    restEntryShapes entries' = restEntryShapes entries := by
  match entries, entries' with
  | [], [] => rfl
  | (key, e) :: rest, (key', e') :: rest' =>
    simp only [List.map_cons, List.cons.injEq, entryShape, Prod.mk.injEq] at h
    obtain ⟨⟨rfl, he⟩, hrest⟩ := h
    rw [restEntryShapes, restEntryShapes, he, restEntryShapes_congr hrest]
  | [], _ :: _ | _ :: _, [] => simp at h

theorem entryShapes_congr {entries entries' : List (String × Expr)}
    (h : entries'.map entryShape = entries.map entryShape) :
    entryShapes entries' = entryShapes entries := by
  match entries, entries' with
  | [], [] => rfl
  | (key, e) :: rest, (key', e') :: rest' =>
    simp only [List.map_cons, List.cons.injEq, entryShape, Prod.mk.injEq] at h
    obtain ⟨⟨rfl, he⟩, hrest⟩ := h
    rw [entryShapes, entryShapes, he, restEntryShapes_congr hrest]
  | [], _ :: _ | _ :: _, [] => simp at h

theorem clauseShape_congr {e e' : Option Expr} (name : String)
    (h : e'.map Expr.shape = e.map Expr.shape) : clauseShape name e' = clauseShape name e := by
  match e, e' with
  | none, none => rfl
  | some e, some e' =>
    rw [Option.map_some, Option.map_some, Option.some.injEq] at h
    rw [clauseShape, clauseShape, h]
  | none, some _ | some _, none => simp at h

theorem Source.shape_congr {origin origin' : Origin} (h : origin'.shape = origin.shape)
    (name : Option String) : (Source.mk origin' name).shape = (Source.mk origin name).shape := by
  refine eq_of_append_nil ?_
  cases name with
  | none => rw [Source.shape_none, Source.shape_none, h]
  | some n => rw [Source.shape_some, Source.shape_some, h]

/-! ### Parameters and tables -/

theorem Param.shape_blank (p : Param) : (p.change .blanking).shape = p.shape := by
  obtain ⟨value, index, type, splice⟩ := p
  cases splice <;> cases index <;>
    simp [Param.shape, Param.change, Change.blanking, spliceWidth_blankItems]

theorem ValuesTable.shape_blank (table : ValuesTable) :
    (table.change .blanking).shape = table.shape := by
  refine eq_of_append_nil ?_
  rw [ValuesTable.shape_append, ValuesTable.shape_append]
  simp [ValuesTable.change]

/-! ### The induction -/

mutual

theorem Expr.Settled.shape_blank {place : Place} {o : Bool} {k k' : Nat} {e : Expr}
    (h : e.Settled place o k k') : (e.change .blanking).shape = e.shape := by
  match e with
  | .literal _ => exact congrArg Expr.shape (congrArg Expr.literal rfl)
  | .field _ | .binding _ | .parentBinding _ | .projection _ _ | .aliasRef _ => rw [Expr.change]
  | .param p => exact p.shape_blank
  | .operator op operands =>
    cases h with
    | operator _ _ hoperands =>
      refine eq_of_append_nil ?_
      rw [Expr.change, Expr.shape_operator, Expr.shape_operator,
        shapes_congr hoperands.shapes_blank]
  | .aggregate kind args distinct filter =>
    cases h with
    | aggregate _ hargs hfilter =>
      refine eq_of_append_nil ?_
      rw [Expr.change, Expr.shape_aggregate, Expr.shape_aggregate, shapes_congr hargs.shapes_blank,
        clauseShape_congr _ hfilter.shape_blank]
  | .fragment text parts args =>
    cases h with
    | fragment _ _ hargs =>
      refine eq_of_append_nil ?_
      rw [Expr.change, Expr.shape_fragment, Expr.shape_fragment, hargs.shape_blank]
  | .cast value target resolved =>
    cases h with
    | cast hvalue =>
      refine eq_of_append_nil ?_
      rw [Expr.change, Expr.shape_cast, Expr.shape_cast, hvalue.shape_blank]
  | .subquery kind query =>
    cases h with
    | subquery hquery =>
      refine eq_of_append_nil ?_
      rw [Expr.change, Expr.shape_subquery, Expr.shape_subquery, hquery.shape_blank]
  | .values table => exact table.shape_blank
  | .merge left right =>
    cases h with
    | merge hleft hright =>
      refine eq_of_append_nil ?_
      rw [Expr.change, Expr.shape_merge, Expr.shape_merge, hleft.shape_blank, hright.shape_blank]
  | .aliased value name =>
    cases h with
    | aliased hvalue =>
      refine eq_of_append_nil ?_
      rw [Expr.change, Expr.shape_aliased, Expr.shape_aliased, hvalue.shape_blank]
  | .jsonPath base path =>
    cases h with
    | jsonPath _ hpath =>
      refine eq_of_append_nil ?_
      rw [Expr.change, Expr.change, Expr.shape_jsonPath, Expr.shape_jsonPath, hpath.shape_blank]
  | .interval count unit =>
    cases h with
    | interval hcount =>
      refine eq_of_append_nil ?_
      rw [Expr.change, Expr.shape_interval, Expr.shape_interval, hcount.shape_blank]
  | .tuple items =>
    cases h with
    | tuple hitems =>
      refine eq_of_append_nil ?_
      rw [Expr.change, Expr.shape_tuple, Expr.shape_tuple, shapes_congr hitems.shapes_blank]
  | .mapping entries =>
    cases h with
    | mapping hentries =>
      refine eq_of_append_nil ?_
      rw [Expr.change, Expr.shape_mapping, Expr.shape_mapping,
        entryShapes_congr hentries.shapes_blank]
termination_by structural e

theorem SettledAll.shapes_blank {place : Place} {o : Bool} {k k' : Nat} {es : List Expr}
    (h : SettledAll place o k es k') :
    (changeAll .blanking es).map Expr.shape = es.map Expr.shape := by
  match es with
  | [] => rfl
  | e :: rest =>
    cases h with
    | cons he hrest =>
      rw [changeAll, List.map_cons, List.map_cons, he.shape_blank, hrest.shapes_blank]
termination_by structural es

theorem SettledEntries.shapes_blank {place : Place} {o : Bool} {k k' : Nat}
    {entries : List (String × Expr)} (h : SettledEntries place o k entries k') :
    (changeEntries .blanking entries).map entryShape = entries.map entryShape := by
  match entries with
  | [] => rfl
  | (key, e) :: rest =>
    cases h with
    | cons he hrest =>
      rw [changeEntries, List.map_cons, List.map_cons, entryShape, entryShape, he.shape_blank,
        hrest.shapes_blank]
termination_by structural entries

theorem SettledOption.shape_blank {place : Place} {o : Bool} {k k' : Nat} {e : Option Expr}
    (h : SettledOption place o k e k') :
    (changeOption .blanking e).map Expr.shape = e.map Expr.shape := by
  match e with
  | none => rfl
  | some e =>
    cases h with
    | some he => rw [changeOption, Option.map_some, Option.map_some, he.shape_blank]
termination_by structural e

theorem SettledArgs.shape_blank {place : Place} {k k' : Nat} {args : List FragmentArg}
    (h : SettledArgs place k args k') :
    argShapes (changeArgs .blanking args) = argShapes args := by
  match args with
  | [] => rfl
  | .mk role e :: rest =>
    rw [changeArgs, argShapes, argShapes]
    cases h with
    | parameter he hrest => rw [Change.under_parameter, he.shape_blank, hrest.shape_blank]
    | inline hrole hrest =>
      rw [Expr.change_inline hrole, hrest.shape_blank]
    | @splice _ _ _ p _ _ hsplice hrest =>
      have hparam : (Expr.param (p.change .blanking)).shape = (Expr.param p).shape := p.shape_blank
      rw [Expr.change, Param.change_under_splice hsplice, hparam, hrest.shape_blank]
termination_by structural args

theorem SettledPath.shape_blank {place : Place} {k k' : Nat} {path : List PathStep}
    (h : SettledPath place k path k') :
    pathShape (changePath .blanking path) = pathShape path := by
  match path with
  | [] => rfl
  | .computed e :: rest =>
    cases h with
    | computed he hrest =>
      rw [changePath, pathShape, pathShape, he.shape_blank, hrest.shape_blank]
  | .key name :: rest =>
    cases h with
    | key hrest => rw [changePath, pathShape, pathShape, hrest.shape_blank]
  | .index i :: rest =>
    cases h with
    | index hrest => rw [changePath, pathShape, pathShape, hrest.shape_blank]
termination_by structural path

theorem SettledTerms.shape_blank {place : Place} {k k' : Nat} {terms : List OrderTerm}
    (h : SettledTerms place k terms k') :
    termShapes (changeTerms .blanking terms) = termShapes terms := by
  match terms with
  | [] => rfl
  | .mk e direction :: rest =>
    cases h with
    | cons he hrest =>
      refine eq_of_append_nil ?_
      rw [changeTerms, termShapes_cons, termShapes_cons, he.shape_blank, hrest.shape_blank]
termination_by structural terms

theorem Source.Settled.shape_blank {place : Place} {k k' : Nat} {source : Source}
    (h : source.Settled place k k') : (source.change .blanking).shape = source.shape := by
  match source with
  | .mk (.schema _) _ | .mk (.table _) _ => rfl
  | .mk (.values table) name =>
    exact @Source.shape_congr (.values table) (.values (table.change .blanking)) table.shape_blank
      name
  | .mk (.subquery query) name =>
    cases h with
    | subquery hquery =>
      exact @Source.shape_congr (.subquery query) (.subquery (query.change .blanking))
        hquery.shape_blank name
  | .mk (.fragment e) name =>
    cases h with
    | fragment _ he =>
      exact @Source.shape_congr (.fragment e) (.fragment (e.change .blanking)) he.shape_blank name
termination_by structural source

theorem SettledJoins.shape_blank {place : Place} {k k' : Nat} {joins : List Join}
    (h : SettledJoins place k joins k') :
    joinShapes (changeJoins .blanking joins) = joinShapes joins := by
  match joins with
  | [] => rfl
  | .mk kind source on :: rest =>
    cases h with
    | cons hsource hon hrest =>
      rw [changeJoins, joinShapes, joinShapes, hsource.shape_blank,
        clauseShape_congr _ hon.shape_blank, hrest.shape_blank]
termination_by structural joins

/-- The shape of a settled query does not show the values that it binds. -/
theorem Query.Settled.shape_blank {place : Place} {k k' : Nat} {query : Query}
    (h : query.Settled place k k') : (query.change .blanking).shape = query.shape := by
  match query with
  | .mk source joins wheres select groupBy having orderBy limit offset distinct =>
    cases h with
    | mk _ _ _ hselect _ hsource hjoins hwheres _ hgroupBy hhaving horderBy hlimit _ hoffset =>
      refine eq_of_append_nil ?_
      rw [Query.change, Query.shape_mk, Query.shape_mk, hsource.shape_blank, hjoins.shape_blank,
        clauseShapes_congr _ hwheres.shapes_blank, clauseShape_congr _ hselect.shape_blank,
        clauseShapes_congr _ hgroupBy.shapes_blank, clauseShapes_congr _ hhaving.shapes_blank,
        horderBy.shape_blank, clauseShape_congr _ hlimit.shape_blank,
        clauseShape_congr _ hoffset.shape_blank]
termination_by structural query

end

end QueryCompiler
