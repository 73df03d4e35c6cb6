import QueryCompiler.Proofs.Binding.Settled
import QueryCompiler.Proofs.Keys.Clauses
import QueryCompiler.Proofs.Keys.Literals
import QueryCompiler.Proofs.Keys.Outline

/-!
# Inline values can be read

Compiled trees with one outline have the same names in the same places, so that their shapes differ
in inline values and in the widths of spliced lists only. Each of these ends where it says, whatever
it is, and so equal shapes have equal inline values. The induction carries a text behind each of the
two trees.
-/

namespace QueryCompiler

/-! ### Texts behind a tree -/

/-- A text that does not go on with a number. -/
def NoDigit (r : List Char) : Prop := Opens (fun c => c.isDigit = false) r

theorem NoDigit.append {a r : List Char} (ha : NoDigit a) (hr : NoDigit r) : NoDigit (a ++ r) := by
  cases a with
  | nil => exact hr
  | cons c a => exact opens_cons.2 (opens_cons.1 ha)

theorem noDigit_restShapes (es : List Expr) : NoDigit (restShapes es) := by
  cases es with
  | nil => trivial
  | cons => exact opens_cons.2 rfl

theorem noDigit_restEntryShapes (entries : List (String × Expr)) :
    NoDigit (restEntryShapes entries) := by
  cases entries with
  | nil => trivial
  | cons => exact opens_cons.2 rfl

theorem noDigit_argShapes (args : List FragmentArg) : NoDigit (argShapes args) := by
  cases args with
  | nil => trivial
  | cons arg => cases arg with
    | mk => exact opens_cons.2 rfl

theorem noDigit_pathShape (path : List PathStep) : NoDigit (pathShape path) := by
  cases path with
  | nil => trivial
  | cons step => cases step <;> exact opens_cons.2 rfl

theorem noDigit_of_lt_clauseRank {r : List Char} {i : Nat} (h : i < clauseRank r) : NoDigit r :=
  opens_not_digit (ends_of_lt_clauseRank h)

/-! ### Leaves -/

theorem Param.rest_of_shape {p q : Param} (h : p.change .forgetting = q.change .forgetting)
    {r s : List Char} (hr : NoDigit r) (hs : NoDigit s) (hshape : p.shape ++ r = q.shape ++ s) :
    r = s := by
  simp only [Param.change, Change.forgetting, Nat.add_zero, Option.map_id', Param.mk.injEq] at h
  obtain ⟨-, hindex, htype, hsplice⟩ := h
  have htypeText : NoDigit (typeText q.type) := by
    cases q.type with
    | none => trivial
    | some _ => exact opens_cons.2 rfl
  rw [Param.shape_append, Param.shape_append, hindex, htype, hsplice] at hshape
  have hsuffix := List.append_cancel_left (List.cons.inj hshape).2
  cases hq : q.splice with
  | false =>
    rw [hq] at hsuffix
    exact List.append_cancel_left hsuffix
  | true =>
    rw [hq] at hsuffix
    obtain ⟨-, hrest⟩ := natText_append_inj (htypeText.append hr) (htypeText.append hs)
      (List.cons.inj hsuffix).2
    exact List.append_cancel_left hrest

theorem ValuesTable.shape_of_forgotten {table table' : ValuesTable}
    (h : table.change .forgetting = table'.change .forgetting) : table.shape = table'.shape := by
  have hrows := congrArg (fun t => t.rows.length) h
  have hresolved := congrArg ValuesTable.resolved h
  simp only [ValuesTable.change, List.length_map] at hrows hresolved
  rw [← List.append_nil table.shape, ← List.append_nil table'.shape, shape_append, shape_append,
    hrows, hresolved]

/-- An index ends at its bracket. -/
theorem index_append_inj {i j : Int64} {r s : List Char}
    (h : (toString i.toInt).toList ++ ']' :: r = (toString j.toInt).toList ++ ']' :: s) :
    i = j ∧ r = s := by
  obtain ⟨htext, hrest⟩ := append_inj_of_opens (not_bracket_of_mem_int i.toInt)
    (not_bracket_of_mem_int j.toInt) (opens_cons.2 rfl) (opens_cons.2 rfl) h
  exact ⟨Int64.toInt_inj.1 (intText_inj htext), (List.cons.inj hrest).2⟩

/-- Entries with one outline have the same keys, the first of them as well. -/
theorem restEntryShapes_of_outline {entries entries' : List (String × Expr)}
    (houtline : outlineEntries entries = outlineEntries entries') {r s : List Char}
    (h : entryShapes entries ++ r = entryShapes entries' ++ s) :
    restEntryShapes entries ++ r = restEntryShapes entries' ++ s := by
  match entries, entries' with
  | [], [] => exact h
  | [], (_, _) :: _ | (_, _) :: _, [] => cases houtline
  | (key, e) :: rest, (key', e') :: rest' =>
    rw [entryShapes_cons, entryShapes_cons] at h
    rw [restEntryShapes_cons, restEntryShapes_cons, h]

/-! ### The induction -/

mutual

theorem Expr.forgotten_of_shape {place place' : Place} {o o' : Bool} {k l k' l' : Nat}
    {e e' : Expr} (he : e.Settled place o k l) (he' : e'.Settled place' o' k' l')
    (houtline : e.outline = e'.outline) {r s : List Char} (hr : NoDigit r) (hs : NoDigit s)
    (h : e.shape ++ r = e'.shape ++ s) :
    e.change .forgetting = e'.change .forgetting ∧ r = s := by
  -- Each tree hands on that the rests agree: no difference can be made up for further on.
  match e with
  | .literal v =>
    cases e' with
    | literal w =>
      obtain ⟨rfl, hrest⟩ := Value.shape_append_inj h
      exact ⟨rfl, hrest⟩
    | _ => cases houtline
  | .param p =>
    cases e' with
    | param q =>
      injection houtline with hparam
      rw [Expr.change, Expr.change, hparam]
      exact ⟨rfl, Param.rest_of_shape hparam hr hs h⟩
    | _ => cases houtline
  | .values table =>
    cases e' with
    | values table' =>
      injection houtline with htable
      have hshape := ValuesTable.shape_of_forgotten htable
      rw [Expr.shape_values, Expr.shape_values, hshape, List.append_cancel_left_eq] at h
      rw [Expr.change, Expr.change, htable]
      exact ⟨rfl, h⟩
    | _ => cases houtline
  | .field f =>
    cases e' with
    | field g =>
      cases houtline
      exact ⟨rfl, List.append_cancel_left h⟩
    | _ => cases houtline
  | .binding ref =>
    cases e' with
    | binding ref' =>
      cases houtline
      exact ⟨rfl, List.append_cancel_left h⟩
    | _ => cases houtline
  | .parentBinding ref =>
    cases e' with
    | parentBinding ref' =>
      cases houtline
      exact ⟨rfl, List.append_cancel_left h⟩
    | _ => cases houtline
  | .projection kind p =>
    cases e' with
    | projection kind' q =>
      cases houtline
      exact ⟨rfl, List.append_cancel_left h⟩
    | _ => cases houtline
  | .aliasRef name =>
    cases e' with
    | aliasRef name' =>
      cases houtline
      exact ⟨rfl, List.append_cancel_left h⟩
    | _ => cases houtline
  | .operator op operands =>
    cases he with
    | operator _ _ hoperands =>
      cases he' with
      | operator _ _ hoperands' =>
        injection houtline with hop hall
        subst hop
        rw [Expr.shape_operator, Expr.shape_operator, List.append_cancel_left_eq] at h
        obtain ⟨heq, hrest⟩ := forgottenAll_of_restShapes hoperands hoperands' hall
          (opens_cons.2 rfl) (opens_cons.2 rfl) (restShapes_of_shapes rfl rfl (List.cons.inj h).2)
        rw [Expr.change, Expr.change, heq]
        exact ⟨rfl, (List.cons.inj hrest).2⟩
      | _ => cases houtline
  | .aggregate kind args distinct filter =>
    cases he with
    | aggregate _ hargs hfilter =>
      cases he' with
      | aggregate _ hargs' hfilter' =>
        injection houtline with hkind hall hdistinct hclause
        subst hkind hdistinct
        rw [Expr.shape_aggregate, Expr.shape_aggregate, List.append_cancel_left_eq] at h
        obtain ⟨heq, hrest⟩ := forgottenAll_of_restShapes hargs hargs' hall
          (opens_cons.2 rfl) (opens_cons.2 rfl)
          (restShapes_of_shapes rfl rfl (List.append_cancel_left (List.cons.inj h).2))
        obtain ⟨heqFilter, hend⟩ := forgottenOption_of_clauseShape hfilter hfilter' hclause hr hs
          (List.cons.inj hrest).2
        rw [Expr.change, Expr.change, heq, heqFilter]
        exact ⟨rfl, hend⟩
      | _ => cases houtline
  | .fragment text parts args =>
    cases he with
    | fragment _ _ hargs =>
      cases he' with
      | fragment _ _ hargs' =>
        injection houtline with _ _ hall
        rw [Expr.shape_fragment, Expr.shape_fragment, List.append_cancel_left_eq] at h
        obtain ⟨rfl, hrest⟩ := quoted_append_inj (List.cons.inj h).2
        obtain ⟨heq, hend⟩ := forgottenArgs_of_argShapes hargs hargs' hall (opens_cons.2 rfl)
          (opens_cons.2 rfl) hrest
        rw [Expr.change, Expr.change, heq]
        exact ⟨rfl, (List.cons.inj hend).2⟩
      | _ => cases houtline
  | .cast value target resolved =>
    cases he with
    | cast hvalue _ _ _ =>
      cases he' with
      | cast hvalue' _ _ _ =>
        injection houtline with hinner htarget hresolved
        subst htarget
        cases hresolved
        rw [Expr.shape_cast, Expr.shape_cast, List.append_cancel_left_eq] at h
        obtain ⟨heq, hrest⟩ := Expr.forgotten_of_shape hvalue hvalue' hinner (opens_cons.2 rfl)
          (opens_cons.2 rfl) (List.cons.inj h).2
        have hend := List.append_cancel_left (List.cons.inj (List.cons.inj hrest).2).2
        rw [Expr.change, Expr.change, heq]
        exact ⟨rfl, (List.cons.inj hend).2⟩
      | _ => cases houtline
  | .subquery kind query =>
    cases he with
    | subquery hquery =>
      cases he' with
      | subquery hquery' =>
        injection houtline with hkind hinner
        subst hkind
        rw [Expr.shape_subquery, Expr.shape_subquery, List.append_cancel_left_eq] at h
        obtain ⟨heq, hrest⟩ := Query.forgotten_of_shape hquery hquery' hinner h
        rw [Expr.change, Expr.change, heq]
        exact ⟨rfl, hrest⟩
      | _ => cases houtline
  | .merge left right =>
    cases he with
    | merge hleft hright =>
      cases he' with
      | merge hleft' hright' =>
        injection houtline with houtLeft houtRight
        rw [Expr.shape_merge, Expr.shape_merge, List.append_cancel_left_eq] at h
        obtain ⟨heqLeft, hrest⟩ := Expr.forgotten_of_shape hleft hleft' houtLeft
          (opens_cons.2 rfl) (opens_cons.2 rfl) (List.cons.inj h).2
        obtain ⟨heqRight, hend⟩ := Expr.forgotten_of_shape hright hright' houtRight
          (opens_cons.2 rfl) (opens_cons.2 rfl) (List.cons.inj (List.cons.inj hrest).2).2
        rw [Expr.change, Expr.change, heqLeft, heqRight]
        exact ⟨rfl, (List.cons.inj hend).2⟩
      | _ => cases houtline
  | .aliased value name =>
    cases he with
    | aliased hvalue =>
      cases he' with
      | aliased hvalue' =>
        injection houtline with hinner hname
        subst hname
        rw [Expr.shape_aliased, Expr.shape_aliased, List.append_cancel_left_eq] at h
        obtain ⟨heq, hrest⟩ := Expr.forgotten_of_shape hvalue hvalue' hinner (opens_cons.2 rfl)
          (opens_cons.2 rfl) (List.cons.inj h).2
        have hend := List.append_cancel_left (List.cons.inj (List.cons.inj hrest).2).2
        rw [Expr.change, Expr.change, heq]
        exact ⟨rfl, (List.cons.inj hend).2⟩
      | _ => cases houtline
  | .jsonPath base path =>
    cases he with
    | jsonPath _ hpath =>
      cases he' with
      | jsonPath _ hpath' =>
        injection houtline with hbase hsteps
        cases hbase
        rw [Expr.shape_jsonPath, Expr.shape_jsonPath, List.append_cancel_left_eq] at h
        obtain ⟨heq, hrest⟩ := forgottenPath_of_pathShape hpath hpath' hsteps (opens_cons.2 rfl)
          (opens_cons.2 rfl) (List.append_cancel_left (List.cons.inj h).2)
        rw [Expr.change, Expr.change, heq]
        exact ⟨rfl, (List.cons.inj hrest).2⟩
      | _ => cases houtline
  | .interval count unit =>
    cases he with
    | interval hcount _ =>
      cases he' with
      | interval hcount' _ =>
        injection houtline with hinner hunit
        subst hunit
        rw [Expr.shape_interval, Expr.shape_interval, List.append_cancel_left_eq] at h
        obtain ⟨heq, hrest⟩ := Expr.forgotten_of_shape hcount hcount' hinner (opens_cons.2 rfl)
          (opens_cons.2 rfl) (List.cons.inj h).2
        have hend := List.append_cancel_left (List.cons.inj hrest).2
        rw [Expr.change, Expr.change, heq]
        exact ⟨rfl, (List.cons.inj hend).2⟩
      | _ => cases houtline
  | .tuple items =>
    cases he with
    | tuple hitems =>
      cases he' with
      | tuple hitems' =>
        injection houtline with hall
        rw [Expr.shape_tuple, Expr.shape_tuple] at h
        obtain ⟨heq, hrest⟩ := forgottenAll_of_restShapes hitems hitems' hall (opens_cons.2 rfl)
          (opens_cons.2 rfl) (restShapes_of_shapes rfl rfl (List.cons.inj h).2)
        rw [Expr.change, Expr.change, heq]
        exact ⟨rfl, (List.cons.inj hrest).2⟩
      | _ => cases houtline
  | .mapping entries =>
    cases he with
    | mapping hentries =>
      cases he' with
      | mapping hentries' =>
        injection houtline with hall
        rw [Expr.shape_mapping, Expr.shape_mapping] at h
        obtain ⟨heq, hrest⟩ := forgottenEntries_of_restEntryShapes hentries hentries' hall
          (opens_cons.2 rfl) (opens_cons.2 rfl)
          (restEntryShapes_of_outline hall (List.cons.inj (List.cons.inj h).2).2)
        rw [Expr.change, Expr.change, heq]
        exact ⟨rfl, (List.cons.inj hrest).2⟩
      | _ => cases houtline
termination_by structural e

theorem forgottenAll_of_restShapes {place place' : Place} {o o' : Bool} {k l k' l' : Nat}
    {es es' : List Expr} (hes : SettledAll place o k es l) (hes' : SettledAll place' o' k' es' l')
    (houtline : outlineAll es = outlineAll es') {r s : List Char} (hr : NoDigit r) (hs : NoDigit s)
    (h : restShapes es ++ r = restShapes es' ++ s) :
    changeAll .forgetting es = changeAll .forgetting es' ∧ r = s := by
  match es, es' with
  | [], [] => exact ⟨rfl, h⟩
  | [], _ :: _ | _ :: _, [] => cases houtline
  | e :: rest, e' :: rest' =>
    injection houtline with hhead htail
    rw [restShapes_cons, restShapes_cons] at h
    cases hes with
    | cons he hrest =>
      cases hes' with
      | cons he' hrest' =>
        obtain ⟨heq, hnext⟩ := Expr.forgotten_of_shape he he' hhead
          ((noDigit_restShapes rest).append hr) ((noDigit_restShapes rest').append hs)
          (List.cons.inj (List.cons.inj h).2).2
        obtain ⟨heqRest, hend⟩ := forgottenAll_of_restShapes hrest hrest' htail hr hs hnext
        rw [changeAll, changeAll, heq, heqRest]
        exact ⟨rfl, hend⟩
termination_by structural es

theorem forgottenEntries_of_restEntryShapes {place place' : Place} {o o' : Bool}
    {k l k' l' : Nat} {es es' : List (String × Expr)} (hes : SettledEntries place o k es l)
    (hes' : SettledEntries place' o' k' es' l') (houtline : outlineEntries es = outlineEntries es')
    {r s : List Char} (hr : NoDigit r) (hs : NoDigit s)
    (h : restEntryShapes es ++ r = restEntryShapes es' ++ s) :
    changeEntries .forgetting es = changeEntries .forgetting es' ∧ r = s := by
  match es, es' with
  | [], [] => exact ⟨rfl, h⟩
  | [], (_, _) :: _ | (_, _) :: _, [] => cases houtline
  | (key, e) :: rest, (key', e') :: rest' =>
    injection houtline with hhead htail
    injection hhead with hkey hvalue
    subst hkey
    rw [restEntryShapes_cons, restEntryShapes_cons] at h
    have hinner := List.append_cancel_left (List.cons.inj (List.cons.inj h).2).2
    cases hes with
    | cons he hrest =>
      cases hes' with
      | cons he' hrest' =>
        obtain ⟨heq, hnext⟩ := Expr.forgotten_of_shape he he' hvalue
          ((noDigit_restEntryShapes rest).append hr) ((noDigit_restEntryShapes rest').append hs)
          (List.cons.inj (List.cons.inj hinner).2).2
        obtain ⟨heqRest, hend⟩ :=
          forgottenEntries_of_restEntryShapes hrest hrest' htail hr hs hnext
        rw [changeEntries, changeEntries, heq, heqRest]
        exact ⟨rfl, hend⟩
termination_by structural es

theorem forgottenOption_of_clauseShape {place place' : Place} {o o' : Bool} {k l k' l' : Nat}
    {clause clause' : Option Expr} {name : String} (hclause : SettledOption place o k clause l)
    (hclause' : SettledOption place' o' k' clause' l')
    (houtline : outlineOption clause = outlineOption clause') {r s : List Char} (hr : NoDigit r)
    (hs : NoDigit s) (h : clauseShape name clause ++ r = clauseShape name clause' ++ s) :
    changeOption .forgetting clause = changeOption .forgetting clause' ∧ r = s := by
  match clause, clause' with
  | none, none => exact ⟨rfl, h⟩
  | none, some _ | some _, none => cases houtline
  | some e, some e' =>
    injection houtline with hvalue
    rw [clauseShape_some, clauseShape_some, List.append_cancel_left_eq] at h
    cases hclause with
    | some he =>
      cases hclause' with
      | some he' =>
        obtain ⟨heq, hend⟩ := Expr.forgotten_of_shape he he' hvalue hr hs h
        rw [changeOption, changeOption, heq]
        exact ⟨rfl, hend⟩
termination_by structural clause

theorem forgottenArgs_of_argShapes {place place' : Place} {k l k' l' : Nat}
    {args args' : List FragmentArg} (hargs : SettledArgs place k args l)
    (hargs' : SettledArgs place' k' args' l') (houtline : outlineArgs args = outlineArgs args')
    {r s : List Char} (hr : NoDigit r) (hs : NoDigit s)
    (h : argShapes args ++ r = argShapes args' ++ s) :
    changeArgs .forgetting args = changeArgs .forgetting args' ∧ r = s := by
  match args, args' with
  | [], [] => exact ⟨rfl, h⟩
  | [], .mk _ _ :: _ | .mk _ _ :: _, [] => cases houtline
  | .mk role e :: rest, .mk role' e' :: rest' =>
    injection houtline with hhead htail
    injection hhead with hrole hvalue
    subst hrole
    rw [argShapes_cons, argShapes_cons] at h
    have hinner := List.append_cancel_left (List.cons.inj (List.cons.inj h).2).2
    have hr' := (noDigit_argShapes rest).append hr
    have hs' := (noDigit_argShapes rest').append hs
    cases hargs with
    | parameter he hrest =>
      cases hargs' with
      | parameter he' hrest' =>
        obtain ⟨heq, hnext⟩ := Expr.forgotten_of_shape he he' hvalue hr' hs' hinner
        obtain ⟨heqRest, hend⟩ := forgottenArgs_of_argShapes hrest hrest' htail hr hs hnext
        rw [changeArgs, changeArgs, Change.under_parameter, heq, heqRest]
        exact ⟨rfl, hend⟩
      | inline hrole' _ => cases hrole'
    | inline hrole hrest =>
      cases hargs' with
      | parameter _ _ => cases hrole
      | inline _ hrest' =>
        obtain ⟨rfl, hnext⟩ := Value.shape_append_inj hinner
        obtain ⟨heqRest, hend⟩ := forgottenArgs_of_argShapes hrest hrest' htail hr hs hnext
        rw [changeArgs, changeArgs, heqRest]
        exact ⟨rfl, hend⟩
      | splice _ _ _ => cases hrole
    | splice _ hsplice hrest =>
      cases hargs' with
      | inline hrole' _ => cases hrole'
      | splice _ hsplice' hrest' =>
        injection hvalue with hparam
        have hnext := Param.rest_of_shape hparam hr' hs' hinner
        obtain ⟨heqRest, hend⟩ := forgottenArgs_of_argShapes hrest hrest' htail hr hs hnext
        rw [changeArgs, changeArgs, Expr.change, Expr.change, Param.change_under_splice hsplice,
          Param.change_under_splice hsplice', hparam, heqRest]
        exact ⟨rfl, hend⟩
termination_by structural args

theorem forgottenPath_of_pathShape {place place' : Place} {k l k' l' : Nat}
    {path path' : List PathStep} (hpath : SettledPath place k path l)
    (hpath' : SettledPath place' k' path' l') (houtline : outlinePath path = outlinePath path')
    {r s : List Char} (hr : NoDigit r) (hs : NoDigit s)
    (h : pathShape path ++ r = pathShape path' ++ s) :
    changePath .forgetting path = changePath .forgetting path' ∧ r = s := by
  match path, path' with
  | [], [] => exact ⟨rfl, h⟩
  | [], .key _ :: _ | [], .index _ :: _ | [], .computed _ :: _
  | .key _ :: _, [] | .index _ :: _, [] | .computed _ :: _, []
  | .key _ :: _, .computed _ :: _ | .index _ :: _, .computed _ :: _
  | .computed _ :: _, .key _ :: _ | .computed _ :: _, .index _ :: _ => cases houtline
  | .key name :: rest, .key name' :: rest' =>
    injection houtline with _ htail
    rw [pathShape_key, pathShape_key] at h
    obtain ⟨rfl, hnext⟩ := quoted_append_inj (List.cons.inj h).2
    cases hpath with
    | key hrest =>
      cases hpath' with
      | key hrest' =>
        obtain ⟨heqRest, hend⟩ := forgottenPath_of_pathShape hrest hrest' htail hr hs hnext
        rw [changePath, changePath, heqRest]
        exact ⟨rfl, hend⟩
  | .index i :: rest, .index i' :: rest' =>
    injection houtline with _ htail
    rw [pathShape_index, pathShape_index] at h
    obtain ⟨rfl, hnext⟩ := index_append_inj (List.cons.inj (List.cons.inj h).2).2
    cases hpath with
    | index hrest =>
      cases hpath' with
      | index hrest' =>
        obtain ⟨heqRest, hend⟩ := forgottenPath_of_pathShape hrest hrest' htail hr hs hnext
        rw [changePath, changePath, heqRest]
        exact ⟨rfl, hend⟩
  | .key name :: rest, .index i :: rest' =>
    rw [pathShape_key, pathShape_index, toList_quoted] at h
    cases (List.cons.inj (List.cons.inj h).2).1
  | .index i :: rest, .key name :: rest' =>
    rw [pathShape_key, pathShape_index, toList_quoted] at h
    cases (List.cons.inj (List.cons.inj h).2).1
  | .computed e :: rest, .computed e' :: rest' =>
    injection houtline with hhead htail
    injection hhead with hvalue
    rw [pathShape_computed, pathShape_computed] at h
    cases hpath with
    | computed he hrest =>
      cases hpath' with
      | computed he' hrest' =>
        obtain ⟨heq, hnext⟩ := Expr.forgotten_of_shape he he' hvalue
          ((noDigit_pathShape rest).append hr) ((noDigit_pathShape rest').append hs)
          (List.cons.inj h).2
        obtain ⟨heqRest, hend⟩ := forgottenPath_of_pathShape hrest hrest' htail hr hs hnext
        rw [changePath, changePath, heq, heqRest]
        exact ⟨rfl, hend⟩
termination_by structural path

theorem forgottenAll_of_clauseShapes {place place' : Place} {o o' : Bool} {k l k' l' : Nat}
    {es es' : List Expr} (hes : SettledAll place o k es l) (hes' : SettledAll place' o' k' es' l')
    (houtline : outlineAll es = outlineAll es') {name : String} {i : Nat}
    (hname : ∀ t, clauseRank (name.toList ++ t) = i + 1) {r s : List Char}
    (hr : i + 1 < clauseRank r) (hs : i + 1 < clauseRank s)
    (h : clauseShapes name es ++ r = clauseShapes name es' ++ s) :
    changeAll .forgetting es = changeAll .forgetting es' ∧ r = s := by
  match es, es' with
  | [], [] => exact ⟨rfl, h⟩
  | [], _ :: _ | _ :: _, [] => cases houtline
  | e :: rest, e' :: rest' =>
    injection houtline with hhead htail
    rw [clauseShapes_cons, clauseShapes_cons, List.append_cancel_left_eq] at h
    cases hes with
    | cons he hrest =>
      cases hes' with
      | cons he' hrest' =>
        obtain ⟨heq, hnext⟩ := Expr.forgotten_of_shape he he' hhead
          (noDigit_of_lt_clauseRank (lt_clauseRank_clauseShapes hname rest hr))
          (noDigit_of_lt_clauseRank (lt_clauseRank_clauseShapes hname rest' hs)) h
        obtain ⟨heqRest, hend⟩ :=
          forgottenAll_of_clauseShapes hrest hrest' htail hname hr hs hnext
        rw [changeAll, changeAll, heq, heqRest]
        exact ⟨rfl, hend⟩
termination_by structural es

theorem forgottenTerms_of_termShapes {place place' : Place} {k l k' l' : Nat}
    {terms terms' : List OrderTerm} (hterms : SettledTerms place k terms l)
    (hterms' : SettledTerms place' k' terms' l')
    (houtline : outlineTerms terms = outlineTerms terms') {r s : List Char}
    (hr : 6 < clauseRank r) (hs : 6 < clauseRank s)
    (h : termShapes terms ++ r = termShapes terms' ++ s) :
    changeTerms .forgetting terms = changeTerms .forgetting terms' ∧ r = s := by
  match terms, terms' with
  | [], [] => exact ⟨rfl, h⟩
  | [], .mk _ _ :: _ | .mk _ _ :: _, [] => cases houtline
  | .mk e direction :: rest, .mk e' direction' :: rest' =>
    injection houtline with hhead htail
    injection hhead with hvalue hdirection
    subst hdirection
    rw [termShapes_cons, termShapes_cons, List.append_cancel_left_eq,
      List.append_cancel_left_eq] at h
    cases hterms with
    | cons he hrest =>
      cases hterms' with
      | cons he' hrest' =>
        obtain ⟨heq, hnext⟩ := Expr.forgotten_of_shape he he' hvalue
          (noDigit_of_lt_clauseRank (lt_clauseRank_termShapes rest hr))
          (noDigit_of_lt_clauseRank (lt_clauseRank_termShapes rest' hs)) (List.cons.inj h).2
        obtain ⟨heqRest, hend⟩ := forgottenTerms_of_termShapes hrest hrest' htail hr hs hnext
        rw [changeTerms, changeTerms, heq, heqRest]
        exact ⟨rfl, hend⟩
termination_by structural terms

theorem Origin.forgotten_of_shape {place place' : Place} {k l k' l' : Nat}
    {origin origin' : Origin} {name name' : Option String}
    (hsource : Source.Settled place k (.mk origin name) l)
    (hsource' : Source.Settled place' k' (.mk origin' name') l')
    (houtline : origin.outline = origin'.outline) {r s : List Char} (hr : NoDigit r)
    (hs : NoDigit s) (h : origin.shape ++ r = origin'.shape ++ s) :
    origin.change .forgetting = origin'.change .forgetting ∧ r = s := by
  match origin with
  | .schema _ | .table _ =>
    cases hsource' <;> cases houtline
    exact ⟨rfl, List.append_cancel_left h⟩
  | .values table =>
    cases hsource' with
    | @values _ _ table' _ _ =>
      injection houtline with htable
      have hshape : (Origin.values table).shape = (Origin.values table').shape :=
        ValuesTable.shape_of_forgotten htable
      rw [hshape, List.append_cancel_left_eq] at h
      rw [Origin.change, Origin.change, htable]
      exact ⟨rfl, h⟩
    | _ => cases houtline
  | .subquery query =>
    cases hsource with
    | subquery hquery =>
      cases hsource' with
      | subquery hquery' =>
        injection houtline with hinner
        obtain ⟨heq, hrest⟩ := Query.forgotten_of_shape hquery hquery' hinner h
        rw [Origin.change, Origin.change, heq]
        exact ⟨rfl, hrest⟩
      | _ => cases houtline
  | .fragment e =>
    cases hsource with
    | fragment _ he =>
      cases hsource' with
      | fragment _ he' =>
        injection houtline with hinner
        obtain ⟨heq, hrest⟩ := Expr.forgotten_of_shape he he' hinner hr hs h
        rw [Origin.change, Origin.change, heq]
        exact ⟨rfl, hrest⟩
      | _ => cases houtline
termination_by structural origin

theorem Source.forgotten_of_shape {place place' : Place} {k l k' l' : Nat}
    {source source' : Source} (hsource : source.Settled place k l)
    (hsource' : source'.Settled place' k' l') (houtline : source.outline = source'.outline)
    {r s : List Char} (hr : 0 < clauseRank r) (hs : 0 < clauseRank s)
    (h : source.shape ++ r = source'.shape ++ s) :
    source.change .forgetting = source'.change .forgetting ∧ r = s := by
  match source, source' with
  | .mk origin name, .mk origin' name' =>
    injection houtline with horigin hname
    subst hname
    rw [Source.shape_mk, Source.shape_mk] at h
    obtain ⟨heq, hrest⟩ := Origin.forgotten_of_shape hsource hsource' horigin
      (opens_not_digit (ends_bindingText name hr)) (opens_not_digit (ends_bindingText name hs)) h
    rw [Source.change, Source.change, heq]
    exact ⟨rfl, List.append_cancel_left hrest⟩
termination_by structural source

theorem forgottenJoins_of_joinShapes {place place' : Place} {k l k' l' : Nat}
    {joins joins' : List Join} (hjoins : SettledJoins place k joins l)
    (hjoins' : SettledJoins place' k' joins' l')
    (houtline : outlineJoins joins = outlineJoins joins') {r s : List Char}
    (h : joinShapes joins ++ r = joinShapes joins' ++ s) :
    changeJoins .forgetting joins = changeJoins .forgetting joins' ∧ r = s := by
  match joins, joins' with
  | [], [] => exact ⟨rfl, h⟩
  | [], .mk _ _ _ :: _ | .mk _ _ _ :: _, [] => cases houtline
  | .mk kind source on :: rest, .mk kind' source' on' :: rest' =>
    injection houtline with hhead htail
    injection hhead with hkind houtlineSource houtlineOn
    subst hkind
    rw [joinShapes_cons, joinShapes_cons] at h
    have hjoin := List.append_cancel_left (List.cons.inj (List.cons.inj h).2).2
    cases hjoins with
    | cons hsource hon hrest =>
      cases hjoins' with
      | cons hsource' hon' hrest' =>
        obtain ⟨heqSource, hclause⟩ := Source.forgotten_of_shape hsource hsource' houtlineSource
          (lt_clauseRank_on on _) (lt_clauseRank_on on' _) (List.cons.inj hjoin).2
        obtain ⟨heqOn, hnext⟩ := forgottenOption_of_clauseShape hon hon' houtlineOn
          (opens_cons.2 rfl) (opens_cons.2 rfl) hclause
        obtain ⟨heqRest, hend⟩ := forgottenJoins_of_joinShapes hrest hrest' htail
          (List.cons.inj hnext).2
        rw [changeJoins, changeJoins, heqSource, heqOn, heqRest]
        exact ⟨rfl, hend⟩
termination_by structural joins

theorem Query.forgotten_of_shape {place place' : Place} {k l k' l' : Nat} {query query' : Query}
    (hquery : query.Settled place k l) (hquery' : query'.Settled place' k' l')
    (houtline : query.outline = query'.outline) {r s : List Char}
    (h : query.shape ++ r = query'.shape ++ s) :
    query.change .forgetting = query'.change .forgetting ∧ r = s := by
  match query, query' with
  | .mk source joins wheres select groupBy having orderBy limit offset distinct,
    .mk source' joins' wheres' select' groupBy' having' orderBy' limit' offset' distinct' =>
    injection houtline with osource ojoins owheres oselect ogroupBy ohaving oorderBy olimit ooffset
      odistinct
    subst odistinct
    cases hquery with
    | mk _ _ _ hselect _ hsource hjoins hwheres _ hgroupBy hhaving horderBy hlimit _ hoffset _ =>
      cases hquery' with
      | mk _ _ _ hselect' _ hsource' hjoins' hwheres' _ hgroupBy' hhaving' horderBy' hlimit' _
          hoffset' _ =>
        obtain ⟨hr₁, hr₂, hr₃, hr₄, hr₅, hr₆, hr₇, hr₈, hr₉⟩ :=
          lt_clauseRanks joins wheres select groupBy having orderBy limit offset distinct r
        obtain ⟨hs₁, hs₂, hs₃, hs₄, hs₅, hs₆, hs₇, hs₈, hs₉⟩ :=
          lt_clauseRanks joins' wheres' select' groupBy' having' orderBy' limit' offset' distinct s
        rw [Query.shape_mk, Query.shape_mk, List.append_cancel_left_eq] at h
        obtain ⟨heqSource, h₁⟩ := Source.forgotten_of_shape hsource hsource' osource hr₁ hs₁ h
        obtain ⟨heqJoins, h₂⟩ := forgottenJoins_of_joinShapes hjoins hjoins' ojoins h₁
        obtain ⟨heqWheres, h₃⟩ := forgottenAll_of_clauseShapes hwheres hwheres' owheres
          clauseRank_where hr₃ hs₃ h₂
        obtain ⟨heqSelect, h₄⟩ := forgottenOption_of_clauseShape hselect hselect' oselect
          (noDigit_of_lt_clauseRank hr₄) (noDigit_of_lt_clauseRank hs₄) h₃
        obtain ⟨heqGroupBy, h₅⟩ := forgottenAll_of_clauseShapes hgroupBy hgroupBy' ogroupBy
          clauseRank_groupBy hr₅ hs₅ h₄
        obtain ⟨heqHaving, h₆⟩ := forgottenAll_of_clauseShapes hhaving hhaving' ohaving
          clauseRank_having hr₆ hs₆ h₅
        obtain ⟨heqOrderBy, h₇⟩ := forgottenTerms_of_termShapes horderBy horderBy' oorderBy
          hr₇ hs₇ h₆
        obtain ⟨heqLimit, h₈⟩ := forgottenOption_of_clauseShape hlimit hlimit' olimit
          (noDigit_of_lt_clauseRank hr₈) (noDigit_of_lt_clauseRank hs₈) h₇
        obtain ⟨heqOffset, h₉⟩ := forgottenOption_of_clauseShape hoffset hoffset' ooffset
          (noDigit_of_lt_clauseRank hr₉) (noDigit_of_lt_clauseRank hs₉) h₈
        obtain ⟨-, hend⟩ := queryEnd_append_inj h₉
        rw [Query.change, Query.change, heqSource, heqJoins, heqWheres, heqSelect, heqGroupBy,
          heqHaving, heqOrderBy, heqLimit, heqOffset]
        exact ⟨rfl, hend⟩
termination_by structural query

end

end QueryCompiler
