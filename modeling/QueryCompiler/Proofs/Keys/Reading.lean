import QueryCompiler.Proofs.Binding.Settled
import QueryCompiler.Proofs.Keys.Alike
import QueryCompiler.Proofs.Keys.Clauses

/-!
# Shapes can be read

Settled trees with legible names and equal shapes are alike. The induction carries a text behind
each of the two trees, so that it also says where a tree ends.
-/

namespace QueryCompiler

/-! ### References -/

theorem FieldName.exists_shape_eq_cons (name : FieldName) (r : List Char) :
    ∃ t, name.shape ++ r = '.' :: t := by
  cases name with
  | schema name => exact ⟨_, rfl⟩
  | raw name => exact ⟨_, rfl⟩

/-- A field is not a whole source, since it goes on with a dot. -/
theorem field_append_ne {f : FieldRef} (ref : SourceRef) (hf : (Expr.field f).legible = true)
    (href : ref.legible = true) {r s : List Char} (hs : Ends s = true) :
    (Expr.field f).shape ++ r ≠ ref.shape ++ s := by
  obtain ⟨t, ht⟩ := f.name.exists_shape_eq_cons r
  intro h
  rw [Expr.legible, Bool.and_eq_true] at hf
  rw [Expr.shape_field, ht] at h
  obtain ⟨-, rfl⟩ := SourceRef.shape_append_inj hf.1 href (opens_cons.2 rfl) (opens_not_digit hs) h
  cases hs

theorem field_append_inj {f g : FieldRef} (hf : (Expr.field f).legible = true)
    (hg : (Expr.field g).legible = true) {r s : List Char} (hr : Ends r = true) (hs : Ends s = true)
    (h : (Expr.field f).shape ++ r = (Expr.field g).shape ++ s) :
    (f.source = g.source ∧ f.name = g.name) ∧ r = s := by
  rw [Expr.legible, Bool.and_eq_true] at hf hg
  have hdot (name : FieldName) (t : List Char) :
      Opens (fun c => c.isDigit = false) (name.shape ++ t) := by
    obtain ⟨u, hu⟩ := name.exists_shape_eq_cons t
    rw [hu]
    exact opens_cons.2 rfl
  rw [Expr.shape_field, Expr.shape_field] at h
  obtain ⟨hsource, h⟩ := SourceRef.shape_append_inj hf.1 hg.1 (hdot f.name r) (hdot g.name s) h
  obtain ⟨hname, hrest⟩ := FieldName.shape_append_inj hf.2 hg.2 hr hs h
  exact ⟨⟨hsource, hname⟩, hrest⟩

/-! ### Sources -/

/-- The first character of what a source reads from. -/
def Origin.letter : Origin → Char
  | .schema _ => 's'
  | .table _ => 't'
  | .values _ => 'v'
  | .subquery _ => '('
  | .fragment _ => 'f'

theorem Source.Settled.exists_shape_eq_cons {place : Place} {k l : Nat} {origin : Origin}
    {name : Option String} (h : Source.Settled place k (.mk origin name) l) (r : List Char) :
    ∃ t, origin.shape ++ r = origin.letter :: t := by
  cases origin with
  | schema name =>
    rw [Origin.shape_schema]
    exact ⟨_, rfl⟩
  | table name =>
    rw [Origin.shape_table]
    exact ⟨_, rfl⟩
  | values table =>
    change ∃ t, table.shape ++ r = _
    rw [ValuesTable.shape_append]
    exact ⟨_, rfl⟩
  | subquery query => exact query.exists_shape_eq_cons r
  | fragment e =>
    cases h with
    | fragment hfragment _ =>
      cases e with
      | fragment text parts args =>
        change ∃ t, (Expr.fragment text parts args).shape ++ r = _
        rw [Expr.shape_fragment]
        exact ⟨_, rfl⟩
      | _ => cases hfragment

/-! ### The induction -/

mutual

theorem Expr.alike_of_shape {place place' : Place} {o o' : Bool} {k l k' l' : Nat} {e e' : Expr}
    (he : e.Settled place o k l) (he' : e'.Settled place' o' k' l') (hlegible : e.legible = true)
    (hlegible' : e'.legible = true) {r s : List Char} (hr : Ends r = true) (hs : Ends s = true)
    (h : e.shape ++ r = e'.shape ++ s) : e.Alike e' ∧ r = s := by
  have hkind : e.kind = e'.kind := by
    have hkinds := congrArg kindOf h
    rw [kindOf_shape, kindOf_shape] at hkinds
    exact Option.some.inj hkinds
  match e with
  | .literal v =>
    cases he with
    | literal _ =>
      cases he' with
      | literal w => exact ⟨.literal, Value.shape_append_cancel h⟩
      | _ => cases hkind
  | .param p =>
    cases he with
    | param _ =>
      cases he' with
      | param _ =>
        obtain ⟨herase, hrest⟩ := Param.shape_append_inj hlegible hlegible' hr hs h
        exact ⟨.param herase, hrest⟩
      | _ => cases hkind
  | .field f =>
    cases he with
    | field _ =>
      cases he' with
      | field _ =>
        obtain ⟨⟨hsource, hname⟩, hrest⟩ := field_append_inj hlegible hlegible' hr hs h
        exact ⟨.field hsource hname, hrest⟩
      | binding _ => exact absurd h (field_append_ne (.binding _) hlegible hlegible' hs)
      | parentBinding _ => exact absurd h (field_append_ne (.parentBinding _) hlegible hlegible' hs)
      | _ => cases hkind
  | .binding ref =>
    cases he with
    | binding _ =>
      cases he' with
      | field _ => exact absurd h.symm (field_append_ne (.binding _) hlegible' hlegible hr)
      | binding _ =>
        obtain ⟨hname, hrest⟩ := parenthesized_append_inj hlegible hlegible' h
        exact ⟨.binding hname, hrest⟩
      | parentBinding _ => cases (List.cons.inj h).1
      | _ => cases hkind
  | .parentBinding ref =>
    cases he with
    | parentBinding _ =>
      cases he' with
      | field _ => exact absurd h.symm (field_append_ne (.parentBinding _) hlegible' hlegible hr)
      | binding _ => cases (List.cons.inj h).1
      | parentBinding _ =>
        obtain ⟨hname, hrest⟩ := parenthesized_append_inj hlegible hlegible' h
        exact ⟨.parentBinding hname, hrest⟩
      | _ => cases hkind
  | .operator op operands =>
    cases he with
    | operator _ _ hoperands =>
      cases he' with
      | operator _ _ hoperands' =>
        cases hkind
        rw [Expr.shape_operator, Expr.shape_operator, List.append_cancel_left_eq] at h
        obtain ⟨hoperands, hrest⟩ := alikeAll_of_restShapes hoperands hoperands' hlegible hlegible'
          rfl rfl (restShapes_of_shapes rfl rfl (List.cons.inj h).2)
        exact ⟨.operator hoperands, (List.cons.inj hrest).2⟩
      | _ => cases hkind
  | .aggregate kind args distinct filter =>
    cases he with
    | aggregate _ hargs hfilter =>
      cases he' with
      | aggregate _ hargs' hfilter' =>
        rw [Expr.legible, Bool.and_eq_true] at hlegible hlegible'
        injection hkind with hname
        rw [Expr.shape_aggregate, Expr.shape_aggregate, hname, List.append_cancel_left_eq] at h
        obtain ⟨rfl, hrest⟩ := distinct_append_inj (List.cons.inj h).2
        obtain ⟨hargs, hrest⟩ := alikeAll_of_restShapes hargs hargs' hlegible.1 hlegible'.1 rfl rfl
          (restShapes_of_shapes rfl rfl hrest)
        obtain ⟨hfilter, hend⟩ := alikeOption_of_clauseShape hfilter hfilter' hlegible.2 hlegible'.2
          hr hs (ne_filter_of_ends hr) (ne_filter_of_ends hs) (List.cons.inj hrest).2
        exact ⟨.aggregate hname hargs hfilter, hend⟩
      | _ => cases hkind
  | .fragment text parts args =>
    cases he with
    | fragment _ _ hargs =>
      cases he' with
      | fragment _ _ hargs' =>
        rw [Expr.shape_fragment, Expr.shape_fragment, List.append_cancel_left_eq] at h
        obtain ⟨hargs, hrest⟩ := alikeArgs_of_argShapes hargs hargs' hlegible hlegible' rfl rfl
          (quoted_append_cancel (List.cons.inj h).2)
        exact ⟨.fragment hargs, (List.cons.inj hrest).2⟩
      | _ => cases hkind
  | .cast value target resolved =>
    cases he with
    | cast hvalue _ _ _ =>
      cases he' with
      | cast hvalue' _ _ _ =>
        rw [Expr.legible, Bool.and_eq_true] at hlegible hlegible'
        rw [Expr.shape_cast, Expr.shape_cast, List.append_cancel_left_eq] at h
        obtain ⟨hvalue, hrest⟩ := Expr.alike_of_shape hvalue hvalue' hlegible.1 hlegible'.1 rfl rfl
          (List.cons.inj h).2
        obtain ⟨rfl, hend⟩ := ResolvedType.text_append_inj hlegible.2 hlegible'.2
          (opens_cons.2 (by decide)) (opens_cons.2 (by decide))
          (List.cons.inj (List.cons.inj hrest).2).2
        exact ⟨.cast hvalue, (List.cons.inj hend).2⟩
      | _ => cases hkind
  | .subquery kind query =>
    cases he with
    | subquery hquery =>
      cases he' with
      | subquery hquery' =>
        cases hkind
        rw [Expr.shape_subquery, Expr.shape_subquery, List.append_cancel_left_eq] at h
        obtain ⟨hquery, hrest⟩ := Query.alike_of_shape hquery hquery' hlegible hlegible' h
        exact ⟨.subquery hquery, hrest⟩
      | _ => cases hkind
  | .values table =>
    cases he with
    | values _ _ =>
      cases he' with
      | values _ _ =>
        obtain ⟨⟨hrows, hresolved⟩, hrest⟩ := ValuesTable.shape_append_inj hlegible hlegible' h
        exact ⟨.values ⟨hrows, hresolved⟩, hrest⟩
      | _ => cases hkind
  | .projection kind p =>
    cases he with
    | projection _ _ =>
      cases he' with
      | projection _ _ =>
        cases hkind
        rw [Expr.legible, Bool.and_eq_true] at hlegible hlegible'
        obtain ⟨⟨hsource, hset⟩, hrest⟩ := Projection.shape_append_inj hlegible hlegible' h
        exact ⟨.projection hsource hset, hrest⟩
      | _ => cases hkind
  | .merge left right =>
    cases he with
    | merge hleft hright =>
      cases he' with
      | merge hleft' hright' =>
        rw [Expr.legible, Bool.and_eq_true] at hlegible hlegible'
        rw [Expr.shape_merge, Expr.shape_merge, List.append_cancel_left_eq] at h
        obtain ⟨hleft, hrest⟩ := Expr.alike_of_shape hleft hleft' hlegible.1 hlegible'.1 rfl rfl
          (List.cons.inj h).2
        obtain ⟨hright, hend⟩ := Expr.alike_of_shape hright hright' hlegible.2 hlegible'.2 rfl rfl
          (List.cons.inj (List.cons.inj hrest).2).2
        exact ⟨.merge hleft hright, (List.cons.inj hend).2⟩
      | _ => cases hkind
  | .aliased value name =>
    cases he with
    | aliased hvalue =>
      rw [Expr.legible, Bool.and_eq_true] at hlegible
      rw [Expr.shape_aliased] at h
      cases he' with
      | aliased hvalue' =>
        rw [Expr.legible, Bool.and_eq_true] at hlegible'
        rw [Expr.shape_aliased, List.append_cancel_left_eq] at h
        obtain ⟨hvalue, hrest⟩ := Expr.alike_of_shape hvalue hvalue' hlegible.1 hlegible'.1 rfl rfl
          (List.cons.inj h).2
        obtain ⟨rfl, hend⟩ := name_append_inj hlegible.2 hlegible'.2 (opens_cons.2 (by decide))
          (opens_cons.2 (by decide)) (List.cons.inj (List.cons.inj hrest).2).2
        exact ⟨.aliased hvalue, (List.cons.inj hend).2⟩
      | aliasRef _ =>
        rw [Expr.shape_aliasRef, List.append_cancel_left_eq] at h
        exact absurd (List.cons.inj h).2
          ((continues_shape hlegible.1 _).ne_append (avoids_iff.1 hlegible'))
      | _ => cases hkind
  | .aliasRef name =>
    cases he with
    | aliasRef _ =>
      rw [Expr.shape_aliasRef] at h
      cases he' with
      | aliased hvalue' =>
        rw [Expr.legible, Bool.and_eq_true] at hlegible'
        rw [Expr.shape_aliased, List.append_cancel_left_eq] at h
        exact absurd (List.cons.inj h).2.symm
          ((continues_shape hlegible'.1 _).ne_append (avoids_iff.1 hlegible))
      | aliasRef _ =>
        rw [Expr.shape_aliasRef, List.append_cancel_left_eq] at h
        obtain ⟨rfl, hend⟩ := name_append_inj hlegible hlegible' (opens_cons.2 (by decide))
          (opens_cons.2 (by decide)) (List.cons.inj h).2
        exact ⟨.aliasRef, (List.cons.inj hend).2⟩
      | _ => cases hkind
  | .jsonPath base path =>
    cases he with
    | jsonPath hfield hpath =>
      cases he' with
      | jsonPath hfield' hpath' =>
        rw [Expr.legible, Bool.and_eq_true] at hlegible hlegible'
        rw [Expr.shape_jsonPath, Expr.shape_jsonPath, List.append_cancel_left_eq] at h
        obtain ⟨⟨hsource, hname⟩, hrest⟩ := field_append_inj hlegible.1 hlegible'.1
          (ends_pathShape path rfl) (ends_pathShape _ rfl) (List.cons.inj h).2
        obtain ⟨hpath, hend⟩ := alikePath_of_pathShape hpath hpath' hlegible.2 hlegible'.2 rfl rfl
          hrest
        exact ⟨.jsonPath (.field hsource hname) hpath, (List.cons.inj hend).2⟩
      | _ => cases hkind
  | .interval count unit =>
    cases he with
    | interval hcount _ =>
      cases he' with
      | interval hcount' _ =>
        rw [Expr.shape_interval, Expr.shape_interval, List.append_cancel_left_eq] at h
        obtain ⟨hcount, hrest⟩ := Expr.alike_of_shape hcount hcount' hlegible hlegible'
          (ends_unit unit r) (ends_unit _ s) (List.cons.inj h).2
        obtain ⟨rfl, hend⟩ := IntervalUnit.name_append_inj (List.cons.inj hrest).2
        exact ⟨.interval hcount, hend⟩
      | _ => cases hkind
  | .tuple items =>
    cases he with
    | tuple hitems =>
      cases he' with
      | tuple hitems' =>
        rw [Expr.shape_tuple, Expr.shape_tuple] at h
        obtain ⟨hitems, hrest⟩ := alikeAll_of_restShapes hitems hitems' hlegible hlegible' rfl rfl
          (restShapes_of_shapes rfl rfl (List.cons.inj h).2)
        exact ⟨.tuple hitems, (List.cons.inj hrest).2⟩
      | _ => cases hkind
  | .mapping entries =>
    cases he with
    | mapping hentries =>
      cases he' with
      | mapping hentries' =>
        rw [Expr.shape_mapping, Expr.shape_mapping] at h
        obtain ⟨hentries, hrest⟩ := alikeEntries_of_restEntryShapes hentries hentries' hlegible
          hlegible' rfl rfl (restEntryShapes_of_entryShapes hlegible hlegible'
            (List.cons.inj (List.cons.inj h).2).2)
        exact ⟨.mapping hentries, (List.cons.inj hrest).2⟩
      | _ => cases hkind
termination_by structural e

theorem alikeAll_of_restShapes {place place' : Place} {o o' : Bool} {k l k' l' : Nat}
    {es es' : List Expr} (hes : SettledAll place o k es l) (hes' : SettledAll place' o' k' es' l')
    (hlegible : legibleAll es = true) (hlegible' : legibleAll es' = true) {r s : List Char}
    (hr : Closes r = true) (hs : Closes s = true) (h : restShapes es ++ r = restShapes es' ++ s) :
    AlikeAll es es' ∧ r = s := by
  match es, es' with
  | [], [] => exact ⟨.nil, h⟩
  | [], e' :: rest' =>
    rw [restShapes_cons] at h
    obtain rfl : r = _ := h
    cases hr
  | e :: rest, [] =>
    rw [restShapes_cons] at h
    obtain rfl : _ = s := h
    cases hs
  | e :: rest, e' :: rest' =>
    rw [legibleAll, Bool.and_eq_true] at hlegible hlegible'
    rw [restShapes_cons, restShapes_cons] at h
    cases hes with
    | cons he hrest =>
      cases hes' with
      | cons he' hrest' =>
        obtain ⟨he, h⟩ := Expr.alike_of_shape he he' hlegible.1 hlegible'.1
          (ends_restShapes rest hr) (ends_restShapes rest' hs) (List.cons.inj (List.cons.inj h).2).2
        obtain ⟨hrest, hend⟩ := alikeAll_of_restShapes hrest hrest' hlegible.2 hlegible'.2 hr hs h
        exact ⟨.cons he hrest, hend⟩
termination_by structural es

theorem alikeEntries_of_restEntryShapes {place place' : Place} {o o' : Bool} {k l k' l' : Nat}
    {es es' : List (String × Expr)} (hes : SettledEntries place o k es l)
    (hes' : SettledEntries place' o' k' es' l') (hlegible : legibleEntries es = true)
    (hlegible' : legibleEntries es' = true) {r s : List Char} (hr : Closes r = true)
    (hs : Closes s = true) (h : restEntryShapes es ++ r = restEntryShapes es' ++ s) :
    AlikeEntries es es' ∧ r = s := by
  match es, es' with
  | [], [] => exact ⟨.nil, h⟩
  | [], (key', e') :: rest' =>
    rw [restEntryShapes_cons] at h
    obtain rfl : r = _ := h
    cases hr
  | (key, e) :: rest, [] =>
    rw [restEntryShapes_cons] at h
    obtain rfl : _ = s := h
    cases hs
  | (key, e) :: rest, (key', e') :: rest' =>
    rw [legibleEntries, Bool.and_eq_true, Bool.and_eq_true] at hlegible hlegible'
    rw [restEntryShapes_cons, restEntryShapes_cons] at h
    cases hes with
    | cons he hrest =>
      cases hes' with
      | cons he' hrest' =>
        obtain ⟨rfl, hvalue⟩ := name_append_inj hlegible.1.1 hlegible'.1.1
          (opens_cons.2 (by decide)) (opens_cons.2 (by decide))
          (List.cons.inj (List.cons.inj h).2).2
        obtain ⟨he, htail⟩ := Expr.alike_of_shape he he' hlegible.1.2 hlegible'.1.2
          (ends_restEntryShapes rest hr) (ends_restEntryShapes rest' hs)
          (List.cons.inj (List.cons.inj hvalue).2).2
        obtain ⟨hrest, hend⟩ := alikeEntries_of_restEntryShapes hrest hrest' hlegible.2 hlegible'.2
          hr hs htail
        exact ⟨.cons he hrest, hend⟩
termination_by structural es

theorem alikeOption_of_clauseShape {place place' : Place} {o o' : Bool} {k l k' l' : Nat}
    {clause clause' : Option Expr} (hclause : SettledOption place o k clause l)
    (hclause' : SettledOption place' o' k' clause' l') (hlegible : legibleOption clause = true)
    (hlegible' : legibleOption clause' = true) {name : String} {r s : List Char}
    (hr : Ends r = true) (hs : Ends s = true) (hne : ∀ t, r ≠ name.toList ++ t)
    (hne' : ∀ t, s ≠ name.toList ++ t)
    (h : clauseShape name clause ++ r = clauseShape name clause' ++ s) :
    AlikeOption clause clause' ∧ r = s := by
  match clause, clause' with
  | none, none => exact ⟨.none, h⟩
  | none, some e' =>
    rw [clauseShape_some] at h
    exact absurd h (hne _)
  | some e, none =>
    rw [clauseShape_some] at h
    exact absurd h.symm (hne' _)
  | some e, some e' =>
    rw [clauseShape_some, clauseShape_some, List.append_cancel_left_eq] at h
    cases hclause with
    | some he =>
      cases hclause' with
      | some he' =>
        obtain ⟨he, hend⟩ := Expr.alike_of_shape he he' hlegible hlegible' hr hs h
        exact ⟨.some he, hend⟩
termination_by structural clause

theorem alikeArgs_of_argShapes {place place' : Place} {k l k' l' : Nat}
    {args args' : List FragmentArg} (hargs : SettledArgs place k args l)
    (hargs' : SettledArgs place' k' args' l') (hlegible : legibleArgs args = true)
    (hlegible' : legibleArgs args' = true) {r s : List Char} (hr : Closes r = true)
    (hs : Closes s = true) (h : argShapes args ++ r = argShapes args' ++ s) :
    AlikeArgs args args' ∧ r = s := by
  match args, args' with
  | [], [] => exact ⟨.nil, h⟩
  | [], .mk role' e' :: rest' =>
    rw [argShapes_cons] at h
    obtain rfl : r = _ := h
    cases hr
  | .mk role e :: rest, [] =>
    rw [argShapes_cons] at h
    obtain rfl : _ = s := h
    cases hs
  | .mk role e :: rest, .mk role' e' :: rest' =>
    rw [legibleArgs, Bool.and_eq_true] at hlegible hlegible'
    rw [argShapes_cons, argShapes_cons] at h
    obtain ⟨_, he, hrest⟩ := hargs.of_cons
    obtain ⟨_, he', hrest'⟩ := hargs'.of_cons
    obtain ⟨rfl, harg⟩ := role_append_inj (List.cons.inj (List.cons.inj h).2).2
    obtain ⟨he, htail⟩ := Expr.alike_of_shape he he' hlegible.1 hlegible'.1 (ends_argShapes rest hr)
      (ends_argShapes rest' hs) harg
    obtain ⟨hrest, hend⟩ := alikeArgs_of_argShapes hrest hrest' hlegible.2 hlegible'.2 hr hs htail
    exact ⟨.cons he hrest, hend⟩
termination_by structural args

theorem alikePath_of_pathShape {place place' : Place} {k l k' l' : Nat}
    {path path' : List PathStep} (hpath : SettledPath place k path l)
    (hpath' : SettledPath place' k' path' l') (hlegible : legiblePath path = true)
    (hlegible' : legiblePath path' = true) {r s : List Char} (hr : Closes r = true)
    (hs : Closes s = true) (h : pathShape path ++ r = pathShape path' ++ s) :
    AlikePath path path' ∧ r = s := by
  match path, path' with
  | [], [] => exact ⟨.nil, h⟩
  | [], _ :: _ => exact absurd h.symm (pathShape_append_ne hr)
  | _ :: _, [] => exact absurd h (pathShape_append_ne hs)
  | .key name :: rest, .key name' :: rest' =>
    rw [pathShape_key, pathShape_key] at h
    cases hpath with
    | key hrest =>
      cases hpath' with
      | key hrest' =>
        obtain ⟨hrest, hend⟩ := alikePath_of_pathShape hrest hrest' hlegible hlegible' hr hs
          (quoted_append_cancel (List.cons.inj h).2)
        exact ⟨.key hrest, hend⟩
  | .index i :: rest, .index i' :: rest' =>
    rw [pathShape_index, pathShape_index] at h
    cases hpath with
    | index hrest =>
      cases hpath' with
      | index hrest' =>
        obtain ⟨-, htail⟩ := append_inj_of_opens (not_bracket_of_mem_int i.toInt)
          (not_bracket_of_mem_int i'.toInt) (opens_cons.2 rfl) (opens_cons.2 rfl)
          (List.cons.inj (List.cons.inj h).2).2
        obtain ⟨hrest, hend⟩ := alikePath_of_pathShape hrest hrest' hlegible hlegible' hr hs
          (List.cons.inj htail).2
        exact ⟨.index hrest, hend⟩
  | .computed e :: rest, .computed e' :: rest' =>
    rw [legiblePath, Bool.and_eq_true] at hlegible hlegible'
    rw [pathShape_computed, pathShape_computed] at h
    cases hpath with
    | computed he hrest =>
      cases hpath' with
      | computed he' hrest' =>
        obtain ⟨he, htail⟩ := Expr.alike_of_shape he he' hlegible.1 hlegible'.1
          (ends_pathShape rest hr) (ends_pathShape rest' hs) (List.cons.inj h).2
        obtain ⟨hrest, hend⟩ := alikePath_of_pathShape hrest hrest' hlegible.2 hlegible'.2 hr hs
          htail
        exact ⟨.computed he hrest, hend⟩
  | .key name :: rest, .index i' :: rest' =>
    rw [pathShape_key, pathShape_index, toList_quoted] at h
    cases (List.cons.inj (List.cons.inj h).2).1
  | .index i :: rest, .key name' :: rest' =>
    rw [pathShape_key, pathShape_index, toList_quoted] at h
    cases (List.cons.inj (List.cons.inj h).2).1
  | .key name :: rest, .computed e' :: rest' =>
    rw [pathShape_key, pathShape_computed, toList_quoted] at h
    exact absurd (List.cons.inj h).2.symm (shape_append_ne (by decide) _ _)
  | .computed e :: rest, .key name' :: rest' =>
    rw [pathShape_key, pathShape_computed, toList_quoted] at h
    exact absurd (List.cons.inj h).2 (shape_append_ne (by decide) _ _)
  | .index i :: rest, .computed e' :: rest' =>
    rw [pathShape_index, pathShape_computed] at h
    exact absurd (List.cons.inj h).2.symm (shape_append_ne (by decide) _ _)
  | .computed e :: rest, .index i' :: rest' =>
    rw [pathShape_index, pathShape_computed] at h
    exact absurd (List.cons.inj h).2 (shape_append_ne (by decide) _ _)
termination_by structural path

theorem alikeAll_of_clauseShapes {place place' : Place} {o o' : Bool} {k l k' l' : Nat}
    {es es' : List Expr} (hes : SettledAll place o k es l) (hes' : SettledAll place' o' k' es' l')
    (hlegible : legibleAll es = true) (hlegible' : legibleAll es' = true) {name : String} {i : Nat}
    (hname : ∀ t, clauseRank (name.toList ++ t) = i + 1) {r s : List Char}
    (hr : i + 1 < clauseRank r) (hs : i + 1 < clauseRank s)
    (h : clauseShapes name es ++ r = clauseShapes name es' ++ s) : AlikeAll es es' ∧ r = s := by
  match es, es' with
  | [], [] => exact ⟨.nil, h⟩
  | [], e' :: rest' =>
    rw [clauseShapes_cons] at h
    exact absurd h (ne_of_clauseRank hname hr _)
  | e :: rest, [] =>
    rw [clauseShapes_cons] at h
    exact absurd h.symm (ne_of_clauseRank hname hs _)
  | e :: rest, e' :: rest' =>
    rw [legibleAll, Bool.and_eq_true] at hlegible hlegible'
    rw [clauseShapes_cons, clauseShapes_cons, List.append_cancel_left_eq] at h
    cases hes with
    | cons he hrest =>
      cases hes' with
      | cons he' hrest' =>
        obtain ⟨he, htail⟩ := Expr.alike_of_shape he he' hlegible.1 hlegible'.1
          (ends_clauseShapes hname rest hr) (ends_clauseShapes hname rest' hs) h
        obtain ⟨hrest, hend⟩ := alikeAll_of_clauseShapes hrest hrest' hlegible.2 hlegible'.2 hname
          hr hs htail
        exact ⟨.cons he hrest, hend⟩
termination_by structural es

theorem alikeTerms_of_termShapes {place place' : Place} {k l k' l' : Nat}
    {terms terms' : List OrderTerm} (hterms : SettledTerms place k terms l)
    (hterms' : SettledTerms place' k' terms' l') (hlegible : legibleTerms terms = true)
    (hlegible' : legibleTerms terms' = true) {r s : List Char} (hr : 6 < clauseRank r)
    (hs : 6 < clauseRank s) (h : termShapes terms ++ r = termShapes terms' ++ s) :
    AlikeTerms terms terms' ∧ r = s := by
  match terms, terms' with
  | [], [] => exact ⟨.nil, h⟩
  | [], .mk e' direction' :: rest' =>
    rw [termShapes_cons] at h
    exact absurd h (ne_of_clauseRank clauseRank_orderBy hr _)
  | .mk e direction :: rest, [] =>
    rw [termShapes_cons] at h
    exact absurd h.symm (ne_of_clauseRank clauseRank_orderBy hs _)
  | .mk e direction :: rest, .mk e' direction' :: rest' =>
    rw [legibleTerms, Bool.and_eq_true] at hlegible hlegible'
    rw [termShapes_cons, termShapes_cons, List.append_cancel_left_eq] at h
    cases hterms with
    | cons he hrest =>
      cases hterms' with
      | cons he' hrest' =>
        obtain ⟨rfl, hterm⟩ := SortDirection.label_append_inj h
        obtain ⟨he, htail⟩ := Expr.alike_of_shape he he' hlegible.1 hlegible'.1
          (ends_termShapes rest hr) (ends_termShapes rest' hs) (List.cons.inj hterm).2
        obtain ⟨hrest, hend⟩ := alikeTerms_of_termShapes hrest hrest' hlegible.2 hlegible'.2 hr hs
          htail
        exact ⟨.cons he hrest, hend⟩
termination_by structural terms

theorem Origin.alike_of_shape {place place' : Place} {k l k' l' : Nat} {origin origin' : Origin}
    {name name' : Option String} (hsource : Source.Settled place k (.mk origin name) l)
    (hsource' : Source.Settled place' k' (.mk origin' name') l') (hlegible : origin.legible = true)
    (hlegible' : origin'.legible = true) {r s : List Char} (hr : Ends r = true)
    (hs : Ends s = true) (hopens : Opens (· ∈ [' ', ')']) r) (hopens' : Opens (· ∈ [' ', ')']) s)
    (h : origin.shape ++ r = origin'.shape ++ s) : origin.Alike origin' ∧ r = s := by
  have hletter : origin.letter = origin'.letter := by
    obtain ⟨t, ht⟩ := hsource.exists_shape_eq_cons r
    obtain ⟨t', ht'⟩ := hsource'.exists_shape_eq_cons s
    rw [ht, ht'] at h
    exact (List.cons.inj h).1
  match origin with
  | .schema schema =>
    cases hsource' with
    | schema =>
      rw [Origin.shape_schema, Origin.shape_schema, List.append_cancel_left_eq] at h
      obtain ⟨rfl, hrest⟩ := name_append_inj hlegible hlegible' hopens hopens' h
      exact ⟨.schema, hrest⟩
    | _ => cases hletter
  | .table table =>
    cases hsource' with
    | table =>
      rw [Origin.shape_table, Origin.shape_table, List.append_cancel_left_eq] at h
      obtain ⟨rfl, hrest⟩ := name_append_inj hlegible hlegible' hopens hopens' h
      exact ⟨.table, hrest⟩
    | _ => cases hletter
  | .values table =>
    cases hsource' with
    | values _ =>
      obtain ⟨⟨hrows, hresolved⟩, hrest⟩ := ValuesTable.shape_append_inj hlegible hlegible' h
      exact ⟨.values ⟨hrows, hresolved⟩, hrest⟩
    | _ => cases hletter
  | .subquery query =>
    cases hsource with
    | subquery hquery =>
      cases hsource' with
      | subquery hquery' =>
        obtain ⟨hquery, hrest⟩ := Query.alike_of_shape hquery hquery' hlegible hlegible' h
        exact ⟨.subquery hquery, hrest⟩
      | _ => cases hletter
  | .fragment e =>
    cases hsource with
    | fragment _ he =>
      cases hsource' with
      | fragment _ he' =>
        obtain ⟨he, hrest⟩ := Expr.alike_of_shape he he' hlegible hlegible' hr hs h
        exact ⟨.fragment he, hrest⟩
      | _ => cases hletter
termination_by structural origin

theorem Source.alike_of_shape {place place' : Place} {k l k' l' : Nat} {source source' : Source}
    (hsource : source.Settled place k l) (hsource' : source'.Settled place' k' l')
    (hlegible : source.legible = true) (hlegible' : source'.legible = true) {r s : List Char}
    (hr : 0 < clauseRank r) (hs : 0 < clauseRank s) (h : source.shape ++ r = source'.shape ++ s) :
    source.Alike source' ∧ r = s := by
  match source, source' with
  | .mk origin name, .mk origin' name' =>
    rw [Source.legible, Bool.and_eq_true] at hlegible hlegible'
    rw [Source.shape_mk, Source.shape_mk] at h
    obtain ⟨horigin, hrest⟩ := Origin.alike_of_shape hsource hsource' hlegible.1 hlegible'.1
      (ends_bindingText name hr) (ends_bindingText name' hs) (opens_bindingText name hr)
      (opens_bindingText name' hs) h
    obtain ⟨rfl, hend⟩ := bindingText_append_inj hlegible.2 hlegible'.2 hr hs hrest
    exact ⟨.mk horigin, hend⟩
termination_by structural source

theorem alikeJoins_of_joinShapes {place place' : Place} {k l k' l' : Nat}
    {joins joins' : List Join} (hjoins : SettledJoins place k joins l)
    (hjoins' : SettledJoins place' k' joins' l') (hlegible : legibleJoins joins = true)
    (hlegible' : legibleJoins joins' = true) {r s : List Char} (hr : 1 < clauseRank r)
    (hs : 1 < clauseRank s) (h : joinShapes joins ++ r = joinShapes joins' ++ s) :
    AlikeJoins joins joins' ∧ r = s := by
  match joins, joins' with
  | [], [] => exact ⟨.nil, h⟩
  | [], .mk kind' source' on' :: rest' =>
    rw [joinShapes_cons] at h
    obtain rfl : r = _ := h
    exact absurd hr (Nat.lt_irrefl 1)
  | .mk kind source on :: rest, [] =>
    rw [joinShapes_cons] at h
    obtain rfl : _ = s := h
    exact absurd hs (Nat.lt_irrefl 1)
  | .mk kind source on :: rest, .mk kind' source' on' :: rest' =>
    rw [legibleJoins, Bool.and_eq_true, Bool.and_eq_true] at hlegible hlegible'
    rw [joinShapes_cons, joinShapes_cons] at h
    cases hjoins with
    | cons hsource hon hrest =>
      cases hjoins' with
      | cons hsource' hon' hrest' =>
        obtain ⟨rfl, hjoin⟩ := JoinKind.label_append_inj (List.cons.inj (List.cons.inj h).2).2
        obtain ⟨hsource, hclause⟩ := Source.alike_of_shape hsource hsource' hlegible.1.1
          hlegible'.1.1 (lt_clauseRank_on on _) (lt_clauseRank_on on' _) hjoin
        obtain ⟨hon, htail⟩ := alikeOption_of_clauseShape hon hon' hlegible.1.2 hlegible'.1.2 rfl
          rfl (ne_on _) (ne_on _) hclause
        obtain ⟨hrest, hend⟩ := alikeJoins_of_joinShapes hrest hrest' hlegible.2 hlegible'.2 hr hs
          (List.cons.inj htail).2
        exact ⟨.cons hsource hon hrest, hend⟩
termination_by structural joins

theorem Query.alike_of_shape {place place' : Place} {k l k' l' : Nat} {query query' : Query}
    (hquery : query.Settled place k l) (hquery' : query'.Settled place' k' l')
    (hlegible : query.legible = true) (hlegible' : query'.legible = true) {r s : List Char}
    (h : query.shape ++ r = query'.shape ++ s) : query.Alike query' ∧ r = s := by
  match query, query' with
  | .mk source joins wheres select groupBy having orderBy limit offset distinct,
    .mk source' joins' wheres' select' groupBy' having' orderBy' limit' offset' distinct' =>
    cases hquery with
    | mk _ _ _ hselect _ hsource hjoins hwheres _ hgroupBy hhaving horderBy hlimit _ hoffset _ =>
      cases hquery' with
      | mk _ _ _ hselect' _ hsource' hjoins' hwheres' _ hgroupBy' hhaving' horderBy' hlimit' _
          hoffset' _ =>
        simp only [Query.legible, Bool.and_eq_true] at hlegible hlegible'
        obtain ⟨⟨⟨⟨⟨⟨⟨⟨lsource, ljoins⟩, lwheres⟩, lselect⟩, lgroupBy⟩, lhaving⟩, lorderBy⟩,
          llimit⟩, loffset⟩ := hlegible
        obtain ⟨⟨⟨⟨⟨⟨⟨⟨lsource', ljoins'⟩, lwheres'⟩, lselect'⟩, lgroupBy'⟩, lhaving'⟩, lorderBy'⟩,
          llimit'⟩, loffset'⟩ := hlegible'
        obtain ⟨hr₁, hr₂, hr₃, hr₄, hr₅, hr₆, hr₇, hr₈, hr₉⟩ :=
          lt_clauseRanks joins wheres select groupBy having orderBy limit offset distinct r
        obtain ⟨hs₁, hs₂, hs₃, hs₄, hs₅, hs₆, hs₇, hs₈, hs₉⟩ :=
          lt_clauseRanks joins' wheres' select' groupBy' having' orderBy' limit' offset' distinct' s
        rw [Query.shape_mk, Query.shape_mk, List.append_cancel_left_eq] at h
        obtain ⟨hsource, h₁⟩ := Source.alike_of_shape hsource hsource' lsource lsource' hr₁ hs₁ h
        obtain ⟨hjoins, h₂⟩ := alikeJoins_of_joinShapes hjoins hjoins' ljoins ljoins' hr₂ hs₂ h₁
        obtain ⟨hwheres, h₃⟩ := alikeAll_of_clauseShapes hwheres hwheres' lwheres lwheres'
          clauseRank_where hr₃ hs₃ h₂
        obtain ⟨hselect, h₄⟩ := alikeOption_of_clauseShape hselect hselect' lselect lselect'
          (ends_of_lt_clauseRank hr₄) (ends_of_lt_clauseRank hs₄)
          (ne_of_clauseRank clauseRank_select hr₄) (ne_of_clauseRank clauseRank_select hs₄) h₃
        obtain ⟨hgroupBy, h₅⟩ := alikeAll_of_clauseShapes hgroupBy hgroupBy' lgroupBy lgroupBy'
          clauseRank_groupBy hr₅ hs₅ h₄
        obtain ⟨hhaving, h₆⟩ := alikeAll_of_clauseShapes hhaving hhaving' lhaving lhaving'
          clauseRank_having hr₆ hs₆ h₅
        obtain ⟨horderBy, h₇⟩ := alikeTerms_of_termShapes horderBy horderBy' lorderBy lorderBy'
          hr₇ hs₇ h₆
        obtain ⟨hlimit, h₈⟩ := alikeOption_of_clauseShape hlimit hlimit' llimit llimit'
          (ends_of_lt_clauseRank hr₈) (ends_of_lt_clauseRank hs₈)
          (ne_of_clauseRank clauseRank_limit hr₈) (ne_of_clauseRank clauseRank_limit hs₈) h₇
        obtain ⟨hoffset, h₉⟩ := alikeOption_of_clauseShape hoffset hoffset' loffset loffset'
          (ends_of_lt_clauseRank hr₉) (ends_of_lt_clauseRank hs₉)
          (ne_of_clauseRank clauseRank_offset hr₉) (ne_of_clauseRank clauseRank_offset hs₉) h₈
        obtain ⟨rfl, hend⟩ := queryEnd_append_inj h₉
        exact ⟨.mk hsource hjoins hwheres hselect hgroupBy hhaving horderBy hlimit hoffset, hend⟩
termination_by structural query

end

end QueryCompiler
