import QueryCompiler.Proofs.Declarations
import QueryCompiler.Proofs.JoinKinds

/-!
# What the sources of a query see of each other

All sources of a query are declared before anything inside them is bound, and no lookup asks for the
kind of a join. Inside each of its sources, be it the first one or one that is joined in whatever
way, a reference therefore reaches whichever source of the query it names: one before, one after, or
the source that it stands in.
-/

namespace QueryCompiler

variable {catalog : Catalog}

/-! ### Lookups of a tree -/

/-- The fields that the columns of a source take their types from. -/
def Source.columns : Source → List Reference
  | .mk (.values table) _ => table.types.references
  | _ => []

/--
The references of a part, each with the sources that are in scope for it, query by query from the
innermost one: all sources of the queries around it, except that the types of a values table that
is a source are looked up among the sources before it.
-/
def Part.lookups (queries : List Query) : Part → List (List (List Source) × Reference)
  | .query q => q.sources.zipIdx.flatMap fun declared =>
    declared.1.columns.map fun column =>
      (q.sources.take declared.2 :: queries.map Query.sources, column)
  | .expr e => (Part.expr e).references.map fun reference => (queries.map Query.sources, reference)
  | .table _ => []

/--
What a reference inside a query says if it names the source at a position of that query. The sources
in scope for it that are further inside are `inside`, query by query from the innermost one.
-/
def SourceRef.LeadsTo (inside : List (List Source)) (query : Query) (index : Nat) :
    SourceRef → Prop
  | .position written => inside = [] ∧ written = index ∧ index < query.sources.length
  | .binding name => query.position? name = some index ∧
    ∀ sources ∈ inside, ∀ source ∈ sources, source.name ≠ some name
  | .parentBinding name => inside.length = 1 ∧ query.position? name = some index

/-- The sources in scope for what is found in a part end with those of the queries around it. -/
theorem Part.exists_inside_of_mem_lookups {between queries : List Query} {part : Part}
    {lookup : List (List Source) × Reference} (h : lookup ∈ part.lookups (between ++ queries)) :
    ∃ inside, lookup.1 = inside ++ queries.map Query.sources := by
  cases part with
  | query q =>
    rw [Part.lookups, List.mem_flatMap] at h
    obtain ⟨declared, -, hlookup⟩ := h
    obtain ⟨column, -, rfl⟩ := List.mem_map.1 hlookup
    exact ⟨q.sources.take declared.2 :: between.map Query.sources, by simp⟩
  | expr e =>
    rw [Part.lookups, List.mem_map] at h
    obtain ⟨reference, -, rfl⟩ := h
    exact ⟨between.map Query.sources, List.map_append⟩
  | table t => cases h

/-! ### Lookups in scopes -/

theorem ScopesMirror.lists {scopes : ScopeStack} {queries : List Query}
    (h : ScopesMirror catalog scopes queries) :
    List.Forall₂ Scope.Lists scopes (queries.map Query.sources) := by
  induction h with
  | nil => exact .nil
  | cons hplaced hscope _ ih => exact .cons (hscope.lists hplaced) ih

/-- At every site of a settled tree a reference resolves among the sources in scope for it. -/
theorem Part.Settled.lookups {queries : List Query} {part : Part}
    (h : part.Settled catalog queries) :
    ∀ lookup ∈ part.lookups queries, ∃ scopes, List.Forall₂ Scope.Lists scopes lookup.1 ∧
      lookup.2.Resolves scopes := by
  intro lookup hlookup
  cases part with
  | query q =>
    rw [Part.lookups, List.mem_flatMap] at hlookup
    obtain ⟨⟨source, index⟩, hsource, hcolumns⟩ := hlookup
    obtain ⟨column, hcolumn, rfl⟩ := List.mem_map.1 hcolumns
    obtain ⟨origin, name⟩ := source
    cases origin with
    | values table =>
      obtain ⟨early, late, scopes, hearly, rfl, hmirror, hresolves⟩ :=
        h.columns (List.mem_zipIdx_iff_getElem?.1 hsource) rfl
      cases hmirror with
      | cons hplaced hscope houter =>
        exact ⟨early :: scopes, .cons ((hscope.lists hplaced).take hearly) houter.lists,
          hresolves column hcolumn⟩
    | schema _ | table _ | subquery _ | fragment _ => cases hcolumn
  | expr e =>
    rw [Part.lookups, List.mem_map] at hlookup
    obtain ⟨reference, hreference, rfl⟩ := hlookup
    obtain ⟨scopes, hmirror, hresolves⟩ := h.resolves reference hreference
    exact ⟨scopes, hmirror.lists, hresolves⟩
  | table t => cases hlookup

section

variable {scopes : ScopeStack} {inside outer : List (List Source)} {query : Query}

/-- A name is found in a query if the query has it and nothing further inside does. -/
theorem findBinding_iff (h : List.Forall₂ Scope.Lists scopes (inside ++ query.sources :: outer))
    (name : String) (level index : Nat) :
    (ScopeStack.findBinding name level scopes).map Prod.fst =
        some ⟨level + inside.length, index⟩ ↔
      query.position? name = some index ∧
        ∀ sources ∈ inside, ∀ source ∈ sources, source.name ≠ some name := by
  induction inside generalizing scopes level with
  | nil =>
    cases h with
    | @cons scope _ rest _ hscope _ =>
      have hposition : query.position? name = (scope.lookup name).map (·.position) :=
        hscope.findIdx? name
      rw [ScopeStack.findBinding, hposition]
      cases scope.lookup name with
      | some found => simp
      | none =>
        -- what is found further out has a higher level
        have houtward : (ScopeStack.findBinding name (level + 1) rest).map Prod.fst ≠
            some ⟨level, index⟩ := by
          intro hfound
          obtain ⟨⟨slot, bound⟩, hbound, rfl⟩ := Option.map_eq_some_iff.1 hfound
          obtain ⟨i, _, -, -, heq, -⟩ := ScopeStack.findBinding_eq_some hbound
          have := congrArg Slot.level heq
          dsimp only at this
          omega
        simpa using houtward
  | cons sources inside ih =>
    cases h with
    | @cons scope _ rest _ hscope hrest =>
      rw [ScopeStack.findBinding, List.forall_mem_cons]
      cases hlookup : scope.lookup name with
      | some found =>
        have hnamed : ¬ ∀ source ∈ sources, source.name ≠ some name := by
          rw [← hscope.lookup_eq_none, hlookup]
          simp
        simp [hnamed]
      | none =>
        have hlevel : level + (sources :: inside).length = level + 1 + inside.length := by
          rw [List.length_cons]
          omega
        have hnone := hscope.lookup_eq_none.1 hlookup
        rw [hlevel]
        exact (ih hrest (level + 1)).trans
          (and_congr_right fun _ => ⟨fun hinside => ⟨hnone, hinside⟩, And.right⟩)

/-- A position is one of the innermost query. -/
theorem lookupPosition_iff
    (h : List.Forall₂ Scope.Lists scopes (inside ++ query.sources :: outer)) {written : Nat}
    {slot : Slot} {bound : BoundSource}
    (hlookup : scopes.lookupPosition written = .ok (slot, bound)) (index : Nat) :
    slot = ⟨inside.length, index⟩ ↔
      inside = [] ∧ written = index ∧ index < query.sources.length := by
  cases scopes with
  | nil => cases hlookup
  | cons scope rest =>
    rw [ScopeStack.lookupPosition] at hlookup
    split at hlookup
    · rename_i hfound
      cases hlookup
      cases inside with
      | cons sources inside => simp
      | nil =>
        cases h with
        | cons hscope _ =>
          have hlt : written < query.sources.length := by
            rw [← hscope.length_eq]
            exact (List.getElem?_eq_some_iff.1 hfound).1
          constructor
          · intro hslot
            cases hslot
            exact ⟨rfl, rfl, hlt⟩
          · rintro ⟨-, rfl, -⟩
            rfl
    · cases hlookup

/-- The name of a parent is one of the next query outward. -/
theorem lookupParent_iff
    (h : List.Forall₂ Scope.Lists scopes (inside ++ query.sources :: outer)) {name : String}
    {slot : Slot} {bound : BoundSource} (hlookup : scopes.lookupParent name = .ok (slot, bound))
    (index : Nat) : slot = ⟨inside.length, index⟩ ↔
      inside.length = 1 ∧ query.position? name = some index := by
  rcases scopes with _ | ⟨current, _ | ⟨parent, rest⟩⟩
  · cases hlookup
  · cases hlookup
  rw [ScopeStack.lookupParent] at hlookup
  split at hlookup
  · rename_i found hfound
    cases hlookup
    rcases inside with _ | ⟨sources, _ | ⟨sources', inside⟩⟩
    · simp
    · cases h with
      | cons _ hrest =>
        cases hrest with
        | cons hparent _ =>
          have hposition : query.position? name = (parent.lookup name).map (·.position) :=
            hparent.findIdx? name
          simp [hposition, hfound]
    · simp
  · cases hlookup

/-- A reference that resolves reaches the source of a query that it names, and no other of it. -/
theorem slot_eq_iff_leadsTo
    (h : List.Forall₂ Scope.Lists scopes (inside ++ query.sources :: outer)) {ref : SourceRef}
    {slot : Slot} {bound : BoundSource} (hresolve : scopes.resolve ref = .ok (slot, bound))
    (index : Nat) : slot = ⟨inside.length, index⟩ ↔ ref.LeadsTo inside query index := by
  cases ref with
  | position written => exact lookupPosition_iff h hresolve index
  | parentBinding name => exact lookupParent_iff h hresolve index
  | binding name =>
    rw [ScopeStack.resolve, ScopeStack.lookupBinding] at hresolve
    split at hresolve
    · rename_i hfound
      cases hresolve
      have hiff := findBinding_iff h name 0 index
      rw [hfound, Option.map_some, Option.some.injEq, Nat.zero_add] at hiff
      exact hiff
    · cases hresolve

end

/-! ### Compiled queries -/

theorem SettledJoins.exists_settled {place : Place} {k k' : Nat} {joins : List Join}
    (h : SettledJoins place k joins k') :
    ∀ source ∈ joins.map Join.source, ∃ l l', source.Settled place l l' := by
  induction joins generalizing k with
  | nil => simp
  | cons join rest ih =>
    cases h with
    | cons hsource _ hrest => exact List.forall_mem_cons.2 ⟨⟨_, _, hsource⟩, ih hrest⟩

/-- What is inside the sources of a settled query is settled where it stands. -/
theorem Part.Settled.sources {outer : List Query} {query : Query}
    (h : (Part.query query).Settled catalog outer) :
    ∀ source ∈ query.sources, AllSettled catalog (source.sites (query :: outer)) := by
  obtain ⟨place, _, _, rfl, hmirror, hsettled⟩ := h
  cases hsettled with
  | mk _ hdeclared _ _ _ hfirst hjoins =>
    intro source hsource
    obtain ⟨l, l', hsettled⟩ : ∃ l l', source.Settled (place.inside _ _) l l' := by
      rcases List.mem_cons.1 hsource with rfl | hsource
      · exact ⟨_, _, hfirst⟩
      · exact hjoins.exists_settled source hsource
    exact hsettled.sites (.cons (declareSources_placed Scope.empty_placed hdeclared)
      (mirrors_of_declareSources hdeclared) hmirror)
      (check_of_declareSources hdeclared source hsource)

/--
The kinds of the joins of a query make no difference to what it compiles to. In a compiled query, at
whatever level, a reference inside a source of a query, joined in whatever way, has the slot of a
source of that query exactly if it names that source.
-/
theorem compile_siblings (catalog : Catalog) (config : Config) (query : Query) :
    (∀ kinds, (query.withKinds kinds).compile catalog config =
      (query.compile catalog config).map (CompiledQuery.withKinds kinds)) ∧
    ∀ c, query.compile catalog config = .ok c →
      ∀ outer inner, (outer, .query inner) ∈ c.query.sites [] →
      ∀ source ∈ inner.sources, ∀ site ∈ source.sites (inner :: outer),
      ∀ lookup ∈ site.2.lookups site.1, ∃ inside,
        lookup.1 = inside ++ inner.sources :: outer.map Query.sources ∧
        ∀ index, lookup.2.slot? = some ⟨inside.length, index⟩ ↔
          lookup.2.ref.LeadsTo inside inner index := by
  refine ⟨fun kinds => query.compile_withKinds kinds catalog config, ?_⟩
  rintro c h outer inner hsite source hsource ⟨queries, part⟩ hpart ⟨frames, reference⟩ hlookup
  have hsettled := Part.Settled.sources (sites_of_compile h _ hsite) source hsource _ hpart
  obtain ⟨between, rfl⟩ := source.sites_within (inner :: outer) _ hpart
  obtain ⟨inside, rfl⟩ := Part.exists_inside_of_mem_lookups hlookup
  obtain ⟨scopes, hlists, slot, bound, hslot, hresolve⟩ := hsettled.lookups _ hlookup
  refine ⟨inside, rfl, fun index => ?_⟩
  rw [hslot, Option.some.injEq]
  exact slot_eq_iff_leadsTo hlists hresolve index

/-- The posts joined, in some way, with those of the comments that are on them. -/
def postsBesideComments (kind : JoinKind) : Query :=
  .mk (.mk (.schema "posts") (some "p"))
    [.mk kind (.mk (.subquery (.mk (.mk (.table "comments") none) []
      [.operator .equal [.field ⟨.position 0, .schema "post", none⟩,
        .field ⟨.binding "p", .schema "id", none⟩]]
      none [] [] [] none none false)) (some "c")) none]
    [] none [] [] [] none none false

/-- The comments name the posts in a plain join as they do in a lateral one. -/
theorem compile_siblings_postsBesideComments :
    ∃ c source comments post, (postsBesideComments .inner).compile postCatalog .default = .ok c ∧
      (postsBesideComments .innerLateral).compile postCatalog .default =
        .ok (c.withKinds fun _ => .innerLateral) ∧
      c.query.sources[1]? = some source ∧
      ([comments, c.query], .expr (.field post)) ∈ source.sites [c.query] ∧
      (Reference.field post).slot? = some ⟨1, 0⟩ ∧
      post.source.LeadsTo [comments.sources] c.query 0 := by
  obtain ⟨hkinds, hsiblings⟩ := compile_siblings postCatalog .default (postsBesideComments .inner)
  refine ⟨_, _, _, ⟨.binding "p", .schema "id", _⟩, rfl, hkinds fun _ => .innerLateral, rfl,
    .tail _ (.tail _ (.tail _ (.head _))), rfl, ?_⟩
  obtain ⟨inside, hframes, hslot⟩ := hsiblings _ rfl [] _ (List.mem_cons_self ..) _
    (List.mem_of_getElem? (i := 1) rfl) _ (.tail _ (.tail _ (.tail _ (.head _)))) _ (.head _)
  obtain rfl : [_] = inside := List.append_cancel_right hframes
  exact (hslot 0).1 rfl

/-- Whether the source at a position is joined laterally; the first source is not joined. -/
def Query.isLateralAt (query : Query) : Nat → Bool
  | 0 => false
  | index + 1 => query.joins[index]?.any fun join => join.kind.isLateral

/--
The references inside the sources of a query, itself enclosed by `outer`, have slots of its sources
in lateral joins only, and in these only of the sources before.
-/
def Query.SeesLaterally (outer : List Query) (query : Query) : Prop :=
  ∀ index source, query.sources[index]? = some source →
    ∀ site ∈ source.sites (query :: outer), ∀ lookup ∈ site.2.lookups site.1, ∀ slot,
      lookup.2.slot? = some slot → slot.level + outer.length + 1 = lookup.1.length →
        query.isLateralAt index = true ∧ slot.position < index

/-- A source that is not joined laterally may see another one all the same. -/
theorem exists_seen_without_lateral_join :
    ¬ ∀ (catalog : Catalog) (config : Config) (query : Query) (c : CompiledQuery),
      query.compile catalog config = .ok c → c.query.SeesLaterally [] := by
  intro h
  have hcomments := h postCatalog .default (postsBesideComments .inner) _ rfl 1 _ rfl
  -- the comments consist of the query, its filter and the two sides of that
  have hpost := hcomments _ (.tail _ (.tail _ (.tail _ (.head _)))) _ (.head _) ⟨1, 0⟩ rfl rfl
  exact absurd hpost.1 (by decide)

end QueryCompiler
