import QueryCompiler.Proofs.Projecting

/-!
# Repeats in field sets

A union merges what is asked of an association that was asked for before, and takes over what is
asked of any other as it stands. So the sets of a group are without repeats at their top level once
they are joined, but beyond an association the first set that is asked for decides: if nothing is
named twice in it, then neither is anything in what is joined to it. This is `repeatless_joined`,
and the projections of a compiled query are the case of the groups of a chain.
-/

namespace QueryCompiler

@[simp] theorem NestedSelect.set_mk (association : String) (kind : ProjectionKind)
    (set : FieldSet) : (NestedSelect.mk association kind set).set = set := rfl

namespace FieldSet

/-! ### Sets along associations -/

/-- No field and no association is named twice, at any depth. -/
inductive Repeatless : FieldSet → Prop where
  | intro {set : FieldSet} (top : set.Distinct)
      (beyond : ∀ select ∈ set.nested, select.set.Repeatless) : set.Repeatless

/-- The sets that some selections ask of an association, in order. -/
def ofNested (association : String) : List NestedSelect → List FieldSet
  | [] => []
  | .mk name _ set :: rest =>
    if name = association then set :: ofNested association rest else ofNested association rest

/-- The sets that a field set asks of an association. -/
def under (association : String) (set : FieldSet) : List FieldSet :=
  ofNested association set.nested

/-- The sets that some field sets ask for, in order, at the end of a path of associations. -/
def along (sets : List FieldSet) : List String → List FieldSet
  | [] => sets
  | association :: path => along (sets.flatMap (under association)) path

/-- The union of some field sets, in order, if there are any. -/
def joined : List FieldSet → Option FieldSet
  | [] => none
  | set :: rest => some (rest.foldl FieldSet.union set)

theorem mem_ofNested {association : String} {set : FieldSet} {nested : List NestedSelect} :
    set ∈ ofNested association nested ↔
      ∃ select ∈ nested, select.association = association ∧ select.set = set := by
  induction nested with
  | nil => simp [ofNested]
  | cons first rest ih =>
    obtain ⟨name, kind, first⟩ := first
    rw [ofNested]
    split <;> simp_all [eq_comm]

theorem ofNested_eq_nil {association : String} {nested : List NestedSelect}
    (h : association ∉ nested.map NestedSelect.association) : ofNested association nested = [] := by
  rw [List.eq_nil_iff_forall_not_mem]
  intro set hset
  obtain ⟨select, hselect, rfl, -⟩ := mem_ofNested.1 hset
  exact h (List.mem_map_of_mem hselect)

theorem joined_append_joined (sets more : List FieldSet) :
    joined ((joined sets).toList ++ more) = joined (sets ++ more) := by
  cases sets with
  | nil => rfl
  | cons set rest =>
    rw [List.cons_append, joined, joined, List.foldl_append]
    rfl

theorem joined_eq_none {sets : List FieldSet} : joined sets = none ↔ sets = [] := by
  cases sets with
  | nil => simp [joined]
  | cons set rest => simp [joined]

/-! ### Unions along associations -/

/-- Of selections that name no association twice, at most one asks for an association. -/
theorem joined_ofNested {association : String} {nested : List NestedSelect}
    (h : (nested.map NestedSelect.association).Nodup) :
    (joined (ofNested association nested)).toList = ofNested association nested := by
  induction nested with
  | nil => rfl
  | cons first rest ih =>
    obtain ⟨name, kind, set⟩ := first
    simp only [List.map_cons, NestedSelect.association_mk, List.nodup_cons] at h
    rw [ofNested]
    split
    · rename_i heq
      rw [← heq, ofNested_eq_nil h.1]
      rfl
    · exact ih h.2

theorem ofNested_updateNested_of_ne {association : String} {change : FieldSet → FieldSet}
    {select : NestedSelect} (h : select.association ≠ association) (into : List NestedSelect) :
    ofNested association (updateNested change select into) = ofNested association into := by
  induction into with
  | nil =>
    obtain ⟨name, kind, set⟩ := select
    exact if_neg h
  | cons first rest ih =>
    obtain ⟨name, kind, set⟩ := first
    rw [updateNested]
    split
    · rename_i heq
      rw [ofNested, ofNested, if_neg (heq ▸ h), if_neg (heq ▸ h)]
    · rw [ofNested, ofNested, ih]

/-- Merging a selection into others joins its set to the one that is asked of its association. -/
theorem ofNested_updateNested {association : String} {kind : ProjectionKind} {set : FieldSet}
    {into : List NestedSelect} (h : (into.map NestedSelect.association).Nodup) :
    ofNested association (updateNested (fun old => old.union set) (.mk association kind set) into) =
      (joined (ofNested association into ++ [set])).toList := by
  induction into with
  | nil => simp [updateNested, ofNested, joined]
  | cons first rest ih =>
    obtain ⟨name, kind', first⟩ := first
    simp only [List.map_cons, NestedSelect.association_mk, List.nodup_cons] at h
    rw [updateNested, NestedSelect.association_mk]
    by_cases heq : name = association
    · subst heq
      simp [ofNested, ofNested_eq_nil h.1, joined]
    · simp [ofNested, heq, ih h.2]

theorem ofNested_unionNested (association : String) {into : List NestedSelect}
    (h : (into.map NestedSelect.association).Nodup) (nested : List NestedSelect) :
    ofNested association (unionNested into nested) =
      (joined (ofNested association into ++ ofNested association nested)).toList := by
  induction nested generalizing into with
  | nil => rw [unionNested, ofNested, List.append_nil, joined_ofNested h]
  | cons select rest ih =>
    obtain ⟨name, kind, set⟩ := select
    have hupdate : ((updateNested (fun old => old.union set) (.mk name kind set) into).map
        NestedSelect.association).Nodup := by
      rw [associations_updateNested]
      exact addField_nodup h _
    rw [unionNested, ih hupdate, ofNested]
    by_cases heq : name = association
    · subst heq
      rw [ofNested_updateNested h, joined_append_joined, if_pos rfl, List.append_assoc]
      rfl
    · rw [ofNested_updateNested_of_ne (by exact heq), if_neg heq]

theorem under_union {a : FieldSet} (h : a.Distinct) (b : FieldSet) (association : String) :
    (a.union b).under association =
      (joined (a.under association ++ b.under association)).toList := by
  obtain ⟨fields, nested⟩ := b
  exact ofNested_unionNested association h.2 nested

theorem distinct_union_iff {a b : FieldSet} : (a.union b).Distinct ↔ a.Distinct := by
  refine ⟨fun h => ?_, fun h => union_distinct h b⟩
  obtain ⟨fields, nested⟩ := b
  rw [FieldSet.union] at h
  obtain ⟨hfields, hnested⟩ := h
  simp only [FieldSet.fields, FieldSet.nested, associations_unionNested, foldl_addField_eq]
    at hfields hnested
  exact ⟨(List.nodup_append.1 hfields).1, (List.nodup_append.1 hnested).1⟩

/-- Joined sets are without repeats at their top level if the first of them is. -/
theorem distinct_joined {sets : List FieldSet} {set : FieldSet} (h : joined sets = some set) :
    set.Distinct ↔ ∀ first ∈ sets.head?, first.Distinct := by
  cases sets with
  | nil => cases h
  | cons first rest =>
    cases h
    simp only [List.head?_cons, Option.mem_def, Option.some.injEq, forall_eq']
    induction rest generalizing first with
    | nil => rfl
    | cons next rest ih => rw [List.foldl_cons, ih, distinct_union_iff]

/-- What joined sets ask of an association is what they ask of it one by one, joined. -/
theorem under_joined {sets : List FieldSet} {set : FieldSet} (h : joined sets = some set)
    (hfirst : ∀ first ∈ sets.head?, first.Distinct) (association : String) :
    set.under association = (joined (sets.flatMap (under association))).toList := by
  cases sets with
  | nil => cases h
  | cons first rest =>
    cases h
    replace hfirst : first.Distinct := hfirst first rfl
    rw [List.flatMap_cons]
    induction rest generalizing first with
    | nil =>
      rw [List.flatMap_nil, List.append_nil]
      exact (joined_ofNested hfirst.2).symm
    | cons next rest ih =>
      rw [List.foldl_cons, ih _ (union_distinct hfirst next), under_union hfirst,
        joined_append_joined, List.flatMap_cons, List.append_assoc]

/-! ### Joined sets -/

theorem along_nil (path : List String) : along [] path = [] := by
  induction path with
  | nil => rfl
  | cons association path ih => exact ih

theorem Repeatless.head_along {sets : List FieldSet} {set : FieldSet} (h : set.Repeatless)
    (hjoined : joined sets = some set) (path : List String) :
    ∀ first ∈ (along sets path).head?, first.Distinct := by
  induction path generalizing sets set with
  | nil =>
    obtain ⟨top, -⟩ := h
    exact (distinct_joined hjoined).1 top
  | cons association path ih =>
    obtain ⟨top, beyond⟩ := h
    have hunder := under_joined hjoined ((distinct_joined hjoined).1 top) association
    rw [along]
    cases hinner : joined (sets.flatMap (under association)) with
    | none =>
      rw [joined_eq_none.1 hinner, along_nil]
      simp
    | some inner =>
      rw [hinner] at hunder
      obtain ⟨select, hselect, -, rfl⟩ := mem_ofNested.1 (hunder ▸ List.mem_singleton_self inner :
        inner ∈ set.under association)
      exact ih (beyond select hselect) hinner

theorem sizeOf_set_lt {set : FieldSet} {select : NestedSelect} (h : select ∈ set.nested) :
    sizeOf select.set < sizeOf set := by
  obtain ⟨fields, nested⟩ := set
  obtain ⟨association, kind, inner⟩ := select
  have hmem := List.sizeOf_lt_of_mem (show NestedSelect.mk association kind inner ∈ nested from h)
  simp only [NestedSelect.mk.sizeOf_spec, FieldSet.mk.sizeOf_spec, NestedSelect.set_mk] at hmem ⊢
  omega

theorem repeatless_of_head_along {sets : List FieldSet} {set : FieldSet}
    (hjoined : joined sets = some set)
    (h : ∀ path, ∀ first ∈ (along sets path).head?, first.Distinct) : set.Repeatless := by
  have hunder := under_joined hjoined (h [])
  refine .intro ((distinct_joined hjoined).2 (h [])) fun select hselect => ?_
  have hinner : select.set ∈ (joined (sets.flatMap (under select.association))).toList :=
    hunder select.association ▸ mem_ofNested.2 ⟨select, hselect, rfl, rfl⟩
  exact repeatless_of_head_along (Option.mem_toList.1 hinner) fun path =>
    h (select.association :: path)
termination_by sizeOf set
decreasing_by exact sizeOf_set_lt hselect

/--
Joined sets are without repeats, at any depth, exactly if along every path of associations nothing
is named twice in the first set that is asked for.
-/
theorem repeatless_joined {sets : List FieldSet} {set : FieldSet} (h : joined sets = some set) :
    set.Repeatless ↔ ∀ path, ∀ first ∈ (along sets path).head?, first.Distinct :=
  ⟨fun hset => hset.head_along h, repeatless_of_head_along h⟩

end FieldSet

/-! ### Chains -/

theorem groupSets_filter_self {slot? : Projection → Option Slot} {group : GroupKey} {e : Expr}
    (h : e.group? slot? = some group) (operands : List Expr) :
    groupSets slot? group (operands.filter fun f => !sameGroup slot? e f) = [] := by
  rw [groupSets, List.filter_filter, List.filter_eq_nil_iff.2]
  · rfl
  · intro f _
    simp [sameGroup_of_group? h]

/-- The field set of a projection in a merged chain is that of its group, joined. -/
theorem joined_groupSets {operands : List Expr} (h : ∀ e ∈ operands, e.Slotted)
    {kind : ProjectionKind} {q : Projection} (hq : .projection kind q ∈ mergeOperands operands) :
    FieldSet.joined (groupSets Projection.slot (kind, q.slot) operands) = some q.set := by
  match operands with
  | [] => cases hq
  | e :: rest =>
    rw [List.forall_mem_cons] at h
    rw [mergeOperands_cons h.1 h.2, List.mem_cons] at hq
    rcases hq with hq | hq
    · by_cases hprojection : e.isProjection = true
      · cases e with
        | projection kind' p =>
          have hown : sameGroup Projection.slot (.projection kind' p) =
              fun f => f.group? Projection.slot == some (kind', p.slot) :=
            funext fun f => sameGroup_of_group? rfl f
          rw [hown, foldl_takeUp] at hq
          cases hq
          exact congrArg FieldSet.joined (groupSets_projection kind p rest)
        | _ => cases hprojection
      · have hnone : sameGroup Projection.slot e = fun _ => false :=
          funext fun f => sameGroup_of_none (group?_eq_none (by simpa using hprojection)) f
        rw [hnone, List.filter_false] at hq
        subst hq
        exact absurd rfl hprojection
    · have hrest := joined_groupSets (fun f hf => h.2 f (List.mem_of_mem_filter hf)) hq
      by_cases hown : e.group? Projection.slot = some (kind, q.slot)
      · rw [groupSets_filter_self hown] at hrest
        cases hrest
      · rwa [groupSets_filter hown, ← groupSets_cons_of_ne hown] at hrest
termination_by operands.length
decreasing_by
  simp only [List.length_cons]
  exact Nat.lt_succ_of_le (List.length_filter_le ..)

theorem distinct_of_joined_dedupe {sets : List FieldSet} {set : FieldSet}
    (h : FieldSet.joined (sets.map FieldSet.dedupe) = some set) : set.Distinct := by
  refine (FieldSet.distinct_joined h).2 fun first hfirst => ?_
  obtain ⟨written, -, rfl⟩ := List.mem_map.1 (List.mem_of_mem_head? hfirst)
  exact written.dedupe_distinct

/-! ### Compiled projections -/

theorem Expr.CompilesTo.joined {ctx : Context} {e c : Expr} (h : e.CompilesTo ctx c)
    {kind : ProjectionKind} {q : Projection} (hq : .projection kind q ∈ c.operands) :
    FieldSet.joined ((groupSets (writtenSlot ctx.scopes.slot?) (kind, q.slot) e.operands).map
      FieldSet.dedupe) = some q.set := by
  obtain ⟨operands, hoperands, hmerged⟩ := h.prepared
  rw [← Prepared.sets hoperands]
  exact joined_groupSets (Prepared.forall_slotted hoperands) (hmerged ▸ hq)

/--
No projection of a compiled query names a field or an association twice at the top level of its
field set. Its field set is without repeats at any depth exactly if, along every path of
associations, nothing is named twice in the first set that its group asks for: what is asked of an
association for the first time is taken over as it stands, and only what is merged into it later is
compared with it.
-/
theorem compile_repeats (catalog : Catalog) (config : Config) (query : Query) (c : CompiledQuery)
    (h : query.compile catalog config = .ok c) (path : List Nat) :
    Option.Rel
      (fun e e' => ∀ kind q, .projection kind q ∈ e'.operands →
        q.set.Distinct ∧
        (q.set.Repeatless ↔ ∀ associations, ∀ first ∈
          (FieldSet.along ((groupSets (writtenSlot query.slot?) (kind, q.slot) e.operands).map
            FieldSet.dedupe) associations).head?, first.Distinct))
      (query.select.bind (·.at? path)) (c.query.select.bind (·.at? path)) := by
  rw [← Query.clauses_slot? h]
  have hat := Query.compilesTo_at? h path
  generalize query.select.bind _ = found, c.query.select.bind _ = found' at hat ⊢
  cases hat with
  | none => exact .none
  | some hfound =>
    refine .some fun kind q hq => ?_
    have hjoined := hfound.joined hq
    exact ⟨distinct_of_joined_dedupe hjoined, FieldSet.repeatless_joined hjoined⟩

/-- Posts with what is asked of their comments in two merged projections. -/
def postsWithComments (first second : FieldSet) : Query :=
  .mk (.mk (.table "posts") none) [] []
    (some (.merge
      (.projection .struct ⟨.position 0, .mk ["title"] [.mk "comments" .struct first], none⟩)
      (.projection .struct ⟨.position 0, .mk ["title"] [.mk "comments" .struct second], none⟩)))
    [] [] [] none none false

/-- What the second of two merged sets names twice is not repeated. -/
theorem compile_repeats_postsWithComments :
    ∃ c, (postsWithComments (.mk ["body"] []) (.mk ["id", "body", "id"] [])).compile postCatalog
        .default = .ok c ∧
      c.query.select = some (.projection .struct ⟨.position 0,
        .mk ["title"] [.mk "comments" .struct (.mk ["body", "id"] [])], some ⟨0, 0⟩⟩) ∧
      ∀ path, Option.Rel
        (fun e e' => ∀ kind q, .projection kind q ∈ e'.operands →
          q.set.Distinct ∧
          (q.set.Repeatless ↔ ∀ associations, ∀ first ∈
            (FieldSet.along ((groupSets (writtenSlot (postsWithComments (.mk ["body"] [])
              (.mk ["id", "body", "id"] [])).slot?) (kind, q.slot) e.operands).map
                FieldSet.dedupe) associations).head?, first.Distinct))
        ((postsWithComments (.mk ["body"] []) (.mk ["id", "body", "id"] [])).select.bind
          (·.at? path))
        (c.query.select.bind (·.at? path)) :=
  ⟨_, rfl, rfl, compile_repeats postCatalog .default _ _ rfl⟩

/-- What the first of two merged sets names twice is repeated beyond the association. -/
theorem compile_repeats_beyond_association :
    ¬ ∀ (catalog : Catalog) (config : Config) (query : Query) (c : CompiledQuery),
      query.compile catalog config = .ok c → ∀ path, ∀ e ∈ c.query.select.bind (·.at? path),
        ∀ kind q, .projection kind q ∈ e.operands → q.set.Repeatless := by
  intro h
  obtain ⟨-, beyond⟩ := h postCatalog .default
    (postsWithComments (.mk ["body", "body"] []) (.mk ["id"] [])) _ rfl [] _ rfl .struct _
    (List.mem_singleton_self _)
  obtain ⟨⟨hfields, -⟩, -⟩ := beyond _ (List.mem_singleton_self _)
  exact absurd hfields (by decide)

end QueryCompiler
