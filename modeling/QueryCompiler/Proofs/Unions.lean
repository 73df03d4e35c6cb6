import QueryCompiler.Proofs.Repeats

/-!
# Unions keep their order

At the end of every path of associations at which the first operand of a union asks for something,
its fields and associations come first, and those that the second operand adds there follow in the
order in which they are first named. Elsewhere a second operand without repeats is taken over as it
is. A union of field sets without repeats has none, and taking its second operand once more changes
nothing.
-/

namespace QueryCompiler

namespace FieldSet

/-- The associations that a field set asks for, in order. -/
def associations (set : FieldSet) : List String := set.nested.map NestedSelect.association

/--
What a field set asks for at the end of a path of associations. Where it asks for an association
more than once, the first time counts.
-/
def at? (set : FieldSet) : List String → Option FieldSet
  | [] => some set
  | association :: path => (set.under association).head?.bind (·.at? path)

theorem at?_cons_eq_some {set found : FieldSet} {association : String} {path : List String} :
    set.at? (association :: path) = some found ↔
      ∃ first, (set.under association).head? = some first ∧ first.at? path = some found :=
  Option.bind_eq_some_iff

/-! ### Names of unions -/

theorem associations_union (a b : FieldSet) :
    (a.union b).associations = b.associations.foldl addField a.associations := by
  obtain ⟨fields, nested⟩ := b
  exact associations_unionNested a.nested nested

/-- The names of joined sets are those of the first and, in order, the new ones of the others. -/
theorem names_joined {names : FieldSet → List String}
    (hunion : ∀ a b, names (a.union b) = (names b).foldl addField (names a))
    {first : FieldSet} {rest : List FieldSet} {set : FieldSet}
    (h : joined (first :: rest) = some set) :
    names set = names first ++ ((rest.flatMap names).removeAll (names first)).eraseDups := by
  cases h
  rw [← foldl_addField_eq]
  induction rest generalizing first with
  | nil => rfl
  | cons next rest ih => rw [List.foldl_cons, ih, hunion, List.flatMap_cons, List.foldl_append]

/-! ### Unions at the end of a path -/

/-- Merging a selection joins its set to the first one that is asked of its association. -/
theorem head?_ofNested_updateNested (association : String) (kind : ProjectionKind) (set : FieldSet)
    (into : List NestedSelect) :
    (ofNested association
        (updateNested (fun old => old.union set) (.mk association kind set) into)).head? =
      joined ((ofNested association into).head?.toList ++ [set]) := by
  induction into with
  | nil => simp [updateNested, ofNested, joined]
  | cons first rest ih =>
    obtain ⟨name, kind', first⟩ := first
    rw [updateNested, NestedSelect.association_mk]
    by_cases heq : name = association
    · simp [heq, ofNested, joined]
    · simpa [heq, ofNested] using ih

theorem head?_ofNested_unionNested (association : String) (into nested : List NestedSelect) :
    (ofNested association (unionNested into nested)).head? =
      joined ((ofNested association into).head?.toList ++ ofNested association nested) := by
  induction nested generalizing into with
  | nil =>
    rw [unionNested, ofNested, List.append_nil]
    cases (ofNested association into).head? <;> rfl
  | cons select rest ih =>
    obtain ⟨name, kind, set⟩ := select
    rw [unionNested, ih, ofNested]
    by_cases heq : name = association
    · subst heq
      rw [head?_ofNested_updateNested, joined_append_joined, if_pos rfl, List.append_assoc]
      rfl
    · rw [ofNested_updateNested_of_ne (by exact heq), if_neg heq]

theorem head?_under_union (a b : FieldSet) (association : String) :
    ((a.union b).under association).head? =
      joined ((a.under association).head?.toList ++ b.under association) := by
  obtain ⟨fields, nested⟩ := b
  exact head?_ofNested_unionNested association a.nested nested

theorem head?_under_joined {first : FieldSet} {rest : List FieldSet} {set : FieldSet}
    (h : joined (first :: rest) = some set) (association : String) :
    (set.under association).head? =
      joined ((first.under association).head?.toList ++ rest.flatMap (under association)) := by
  cases h
  induction rest generalizing first with
  | nil =>
    rw [List.flatMap_nil, List.append_nil]
    change (first.under association).head? = _
    cases (first.under association).head? <;> rfl
  | cons next rest ih =>
    rw [List.foldl_cons, ih, head?_under_union, joined_append_joined, List.flatMap_cons,
      List.append_assoc]

/-- Where the first of joined sets asks for something, the others are joined to that. -/
theorem at?_joined {first : FieldSet} {rest : List FieldSet} {set : FieldSet}
    (h : joined (first :: rest) = some set) {path : List String} {found : FieldSet}
    (hfound : first.at? path = some found) :
    set.at? path = joined (found :: along rest path) := by
  induction path generalizing first rest set with
  | nil =>
    cases hfound
    exact h.symm
  | cons association path ih =>
    obtain ⟨inner, hinner, hfound⟩ := at?_cons_eq_some.1 hfound
    have hunder := head?_under_joined h association
    rw [hinner] at hunder
    rw [at?, hunder, along]
    exact ih rfl hfound

/-! ### Field sets without repeats -/

theorem along_append (sets more : List FieldSet) (path : List String) :
    along (sets ++ more) path = along sets path ++ along more path := by
  induction path generalizing sets more with
  | nil => rfl
  | cons association path ih => rw [along, List.flatMap_append, ih, along, along]

theorem Repeatless.union {a b : FieldSet} (ha : a.Repeatless) (hb : b.Repeatless) :
    (a.union b).Repeatless := by
  have hunion : joined ([a] ++ [b]) = some (a.union b) := rfl
  refine repeatless_of_head_along hunion fun path first hfirst => ?_
  rw [along_append, List.head?_append] at hfirst
  cases hhead : (along [a] path).head? with
  | some set =>
    rw [hhead] at hfirst
    exact ha.head_along rfl path first (hhead.trans hfirst)
  | none =>
    rw [hhead] at hfirst
    exact hb.head_along rfl path first hfirst

/-- Without repeats, at most one set is asked of an association. -/
theorem Repeatless.under_eq {set : FieldSet} (h : set.Repeatless) (association : String) :
    set.under association = (set.under association).head?.toList := by
  obtain ⟨⟨-, hnested⟩, -⟩ := h
  have hjoined : (joined (ofNested association set.nested)).toList =
      ofNested association set.nested := joined_ofNested hnested
  cases hsets : joined (ofNested association set.nested) <;> rw [hsets] at hjoined <;>
    rw [under, ← hjoined] <;> rfl

theorem Repeatless.of_under {set inner : FieldSet} (h : set.Repeatless) {association : String}
    (hinner : (set.under association).head? = some inner) : inner.Repeatless := by
  obtain ⟨-, hbeyond⟩ := h
  obtain ⟨select, hselect, -, rfl⟩ := mem_ofNested.1 (List.mem_of_mem_head? hinner)
  exact hbeyond select hselect

/-- Where the first operand of a union asks for nothing, the second one is taken over. -/
theorem at?_union_of_none {a b : FieldSet} (hb : b.Repeatless) {path : List String}
    (h : a.at? path = none) : (a.union b).at? path = b.at? path := by
  induction path generalizing a b with
  | nil => cases h
  | cons association path ih =>
    rw [at?, at?, head?_under_union, hb.under_eq association]
    rw [at?] at h
    cases hadded : (b.under association).head? with
    | none =>
      cases hinto : (a.under association).head? with
      | none => rfl
      | some inner =>
        rw [hinto] at h
        exact h
    | some added =>
      cases hinto : (a.under association).head? with
      | none => rfl
      | some inner =>
        rw [hinto] at h
        exact ih (hb.of_under hadded) h

/-! ### A second time -/

theorem updateNested_eq_self {change : FieldSet → FieldSet} {select : NestedSelect}
    {into : List NestedSelect} {first : FieldSet}
    (hfirst : (ofNested select.association into).head? = some first)
    (hchange : change first = first) : updateNested change select into = into := by
  induction into with
  | nil => cases hfirst
  | cons other rest ih =>
    obtain ⟨name, kind, set⟩ := other
    rw [ofNested] at hfirst
    rw [updateNested]
    split
    · rename_i heq
      rw [if_pos heq] at hfirst
      cases hfirst
      rw [hchange]
    · rename_i hne
      rw [if_neg hne] at hfirst
      rw [ih hfirst]

/-- Nothing is added by selections that change nothing one by one. -/
theorem unionNested_eq_self {into nested : List NestedSelect}
    (h : ∀ select ∈ nested, ∃ first, (ofNested select.association into).head? = some first ∧
      first.union select.set = first) : unionNested into nested = into := by
  induction nested with
  | nil => rw [unionNested]
  | cons select rest ih =>
    obtain ⟨name, kind, set⟩ := select
    rw [List.forall_mem_cons] at h
    obtain ⟨⟨first, hfirst, hunion⟩, hrest⟩ := h
    rw [unionNested, updateNested_eq_self hfirst hunion, ih hrest]

theorem union_eq_left {a b : FieldSet} (hfields : ∀ field ∈ b.fields, field ∈ a.fields)
    (hnested : ∀ select ∈ b.nested, ∃ first,
      (a.under select.association).head? = some first ∧ first.union select.set = first) :
    a.union b = a := by
  have hfields : (a.union b).fields = a.fields := by
    have hnew : b.fields.removeAll a.fields = [] := by simpa [List.removeAll] using hfields
    rw [fields_union, foldl_addField_eq, hnew, List.eraseDups_nil, List.append_nil]
  have hselections : unionNested a.nested b.nested = a.nested := unionNested_eq_self hnested
  obtain ⟨fields, nested⟩ := a
  obtain ⟨fields', nested'⟩ := b
  exact congrArg₂ FieldSet.mk hfields hselections

/-- A set without repeats adds nothing to a union of which it is the second operand. -/
theorem Repeatless.union_union {b : FieldSet} (hb : b.Repeatless) (a : FieldSet) :
    (a.union b).union b = a.union b := by
  induction hb generalizing a with
  | intro top beyond ih =>
    rename_i b
    refine union_eq_left ?_ fun select hselect => ?_
    · intro field hfield
      rw [fields_union]
      exact mem_foldl_addField.2 (Or.inr hfield)
    · have hunder : b.under select.association = [select.set] := by
        have hmem : select.set ∈ b.under select.association :=
          mem_ofNested.2 ⟨select, hselect, rfl, rfl⟩
        rw [(Repeatless.intro top beyond).under_eq] at hmem ⊢
        rw [Option.mem_toList] at hmem
        rw [hmem]
        rfl
      rw [head?_under_union, hunder]
      cases (a.under select.association).head? with
      | none =>
        refine ⟨select.set, rfl, ?_⟩
        -- a set is what is left of its union with nothing
        have hself := ih select hselect FieldSet.empty
        obtain ⟨hdistinct, -⟩ := beyond select hselect
        rwa [← dedupe, hdistinct.dedupe_eq] at hself
      | some first => exact ⟨first.union select.set, rfl, ih select hselect first⟩

end FieldSet

/-! ### Unions -/

open FieldSet

/--
A union asks for exactly what its operands ask for, in whatever order they are taken. Along every
path of associations on which the first operand asks for something, its fields come first, then once
each those that it lacks, in the order in which the second operand names them there; and so do its
associations. If the operands are without repeats, then elsewhere the second one is taken over, the
union is without repeats, and taking the second operand once more changes nothing.
-/
theorem union_keeps_order (into added : FieldSet) :
    (∀ r, r ∈ (into.union added).requests ↔ r ∈ into.requests ∨ r ∈ added.requests) ∧
    (∀ r, r ∈ (into.union added).requests ↔ r ∈ (added.union into).requests) ∧
    (∀ path set, into.at? path = some set →
      ∃ merged, (into.union added).at? path = some merged ∧
        merged.fields = set.fields ++
          (((along [added] path).flatMap FieldSet.fields).removeAll set.fields).eraseDups ∧
        merged.associations = set.associations ++
          (((along [added] path).flatMap associations).removeAll set.associations).eraseDups) ∧
    (into.Repeatless → added.Repeatless →
      (∀ path, into.at? path = none → (into.union added).at? path = added.at? path) ∧
      (into.union added).Repeatless ∧
      (into.union added).union added = into.union added) := by
  refine ⟨fun r => mem_requests_union, fun r => ?_, fun path set hset => ?_, fun hinto hadded => ?_⟩
  · rw [mem_requests_union, mem_requests_union, or_comm]
  · have hunion : joined [into, added] = some (into.union added) := rfl
    have hjoined := at?_joined hunion hset
    exact ⟨_, hjoined, names_joined fields_union rfl, names_joined associations_union rfl⟩
  · exact ⟨fun path => at?_union_of_none hadded, hinto.union hadded, hadded.union_union into⟩

/-- The titles of posts, and the bodies of their comments. -/
def commentBodies : FieldSet := .mk ["title"] [.mk "comments" .struct (.mk ["body"] [])]

/-- More about the same posts: on their comments, and on their likes. -/
def likesToo : FieldSet :=
  .mk ["id", "title"]
    [.mk "likes" .struct (.mk ["id"] []), .mk "comments" .struct (.mk ["id", "body"] [])]

theorem repeatless_commentBodies : commentBodies.Repeatless := by
  refine .intro ⟨by decide, by decide⟩ fun select hselect => ?_
  cases List.mem_singleton.1 hselect
  exact .intro ⟨by decide, by decide⟩ nofun

theorem repeatless_likesToo : likesToo.Repeatless := by
  refine .intro ⟨by decide, by decide⟩ fun select hselect => ?_
  simp only [likesToo, nested, List.mem_cons, List.not_mem_nil, or_false] at hselect
  rcases hselect with rfl | rfl <;> exact .intro ⟨by decide, by decide⟩ nofun

theorem union_keeps_order_commentBodies :
    commentBodies.Repeatless ∧ likesToo.Repeatless ∧
    commentBodies.at? ["comments"] = some (.mk ["body"] []) ∧ commentBodies.at? ["likes"] = none ∧
    (∃ merged, (commentBodies.union likesToo).at? ["comments"] = some merged ∧
      merged.fields = ["body", "id"]) ∧
    (commentBodies.union likesToo).at? ["likes"] = some (.mk ["id"] []) ∧
    (commentBodies.union likesToo).Repeatless ∧
    (commentBodies.union likesToo).union likesToo = commentBodies.union likesToo := by
  obtain ⟨-, -, hat, hrepeatless⟩ := union_keeps_order commentBodies likesToo
  obtain ⟨hnew, hunion, hagain⟩ := hrepeatless repeatless_commentBodies repeatless_likesToo
  obtain ⟨merged, hmerged, hfields, -⟩ := hat ["comments"] _ rfl
  exact ⟨repeatless_commentBodies, repeatless_likesToo, rfl, rfl, ⟨merged, hmerged, hfields⟩,
    hnew _ rfl, hunion, hagain⟩

/-- What the second operand asks of an association that is new is taken over with its repeats. -/
example : (FieldSet.mk [] []).union (.mk [] [.mk "likes" .struct (.mk ["id", "id"] [])]) =
    .mk [] [.mk "likes" .struct (.mk ["id", "id"] [])] := rfl

end QueryCompiler
