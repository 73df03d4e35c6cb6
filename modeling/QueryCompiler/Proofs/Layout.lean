import QueryCompiler.Compilation

/-!
# Placeholders at execution

A parameter stands at execution for as many placeholders as it has values. How many there are, where
those of each parameter begin and end, and which values are bound to them are three separate
functions of the parameters. Here they are shown to fit together: the placeholders of the parameters
follow each other without a gap, and each parameter finds its own values at its placeholders.
-/

namespace QueryCompiler

/-! ### Single parameters -/

/-- A parameter has a value for each of its placeholders. -/
theorem BoundParam.length_expanded (p : BoundParam) : p.expanded.length = p.width := by
  obtain ⟨value, type, splice⟩ := p
  cases splice with
  | false => rfl
  | true => cases value <;> rfl

/-- A spliced list is bound item by item. -/
theorem BoundParam.expanded_of_spliced {p : BoundParam} {items : List Value}
    (hsplice : p.splice = true) (hvalue : p.value = .list items) : p.expanded = items := by
  rw [expanded, hsplice, hvalue]

/-- All but spliced lists are bound as they are. -/
theorem BoundParam.expanded_of_whole {p : BoundParam}
    (h : p.splice = false ∨ ∀ items, p.value ≠ .list items) : p.expanded = [p.value] := by
  obtain ⟨value, type, splice⟩ := p
  rcases h with rfl | h
  · rfl
  · cases splice with
    | false => rfl
    | true => cases value with
      | list items => exact absurd rfl (h items)
      | _ => rfl

/-! ### Lists of parameters -/

/-- Together the parameters have a value for each placeholder. -/
theorem length_flatMap_expanded (params : List BoundParam) :
    (params.flatMap BoundParam.expanded).length = totalWidth params := by
  induction params with
  | nil => rfl
  | cons p rest ih =>
    rw [List.flatMap_cons, List.length_append, ih, p.length_expanded, totalWidth]

theorem length_layoutFrom (start : Nat) (params : List BoundParam) :
    (layoutFrom start params).length = params.length := by
  induction params generalizing start with
  | nil => rfl
  | cons p rest ih => rw [layoutFrom, List.length_cons, List.length_cons, ih]

/-- The placeholders of a parameter begin where those of the parameters before it end. -/
theorem getElem?_layoutFrom (start : Nat) {params : List BoundParam} {i : Nat} {p : BoundParam}
    (h : params[i]? = some p) :
    (layoutFrom start params)[i]? = some (start + totalWidth (params.take i),
      start + totalWidth (params.take i) + p.width) := by
  induction params generalizing start i with
  | nil => cases h
  | cons q rest ih =>
    cases i with
    | zero =>
      cases h
      rfl
    | succ i =>
      rw [List.getElem?_cons_succ] at h
      rw [layoutFrom, List.getElem?_cons_succ, ih (start + q.width) h, List.take_succ_cons,
        totalWidth, Nat.add_assoc]

/-- Each placeholder range begins where the one before it ends, the first one at the start. -/
theorem bounds_layoutFrom (start : Nat) (params : List BoundParam) :
    start :: (layoutFrom start params).map Prod.snd =
      (layoutFrom start params).map Prod.fst ++ [start + totalWidth params] := by
  induction params generalizing start with
  | nil => rfl
  | cons p rest ih =>
    rw [layoutFrom, List.map_cons, List.map_cons, ih (start + p.width), totalWidth, Nat.add_assoc]
    rfl

/-- The values at the placeholders of a parameter are its own. -/
theorem extract_flatMap_expanded {params : List BoundParam} {i : Nat} {p : BoundParam}
    (h : params[i]? = some p) :
    (params.flatMap BoundParam.expanded).extract (totalWidth (params.take i))
      (totalWidth (params.take i) + p.width) = p.expanded := by
  obtain ⟨hlt, rfl⟩ := List.getElem?_eq_some_iff.1 h
  have hsplit : params.flatMap BoundParam.expanded =
      (params.take i).flatMap BoundParam.expanded ++
        (params[i].expanded ++ (params.drop (i + 1)).flatMap BoundParam.expanded) := by
    rw [← List.flatMap_cons, ← List.drop_eq_getElem_cons hlt, ← List.flatMap_append,
      List.take_append_drop]
  rw [List.extract_eq_take_drop, hsplit, Nat.add_sub_cancel_left,
    List.drop_left' (length_flatMap_expanded _), List.take_left' params[i].length_expanded]

/-! ### Compiled queries -/

/--
Of the parameters of a query, whatever they hold, each has one range of placeholders. The ranges
follow each other without a gap from zero up to the number of placeholders, for each of which there
is a value. At its range a parameter has the items of its list if it is a spliced one, and otherwise
its single value.
-/
theorem layout_expanded (c : CompiledQuery) :
    c.layout.length = c.params.length ∧
    0 :: c.layout.map Prod.snd = c.layout.map Prod.fst ++ [c.placeholders] ∧
    c.expanded.length = c.placeholders ∧
    ∀ (i : Nat) (p : BoundParam), c.params[i]? = some p →
      ∃ first next, c.layout[i]? = some (first, next) ∧ first ≤ next ∧
        (∀ items, p.splice = true → p.value = .list items →
          c.expanded.extract first next = items) ∧
        ((p.splice = false ∨ ∀ items, p.value ≠ .list items) →
          c.expanded.extract first next = [p.value]) := by
  have hbounds := bounds_layoutFrom 0 c.params
  rw [Nat.zero_add] at hbounds
  refine ⟨length_layoutFrom 0 c.params, hbounds, length_flatMap_expanded c.params, ?_⟩
  intro i p hp
  have hrange := getElem?_layoutFrom 0 hp
  rw [Nat.zero_add] at hrange
  have hvalues : c.expanded.extract _ _ = p.expanded := extract_flatMap_expanded hp
  refine ⟨_, _, hrange, Nat.le_add_right .., ?_, ?_⟩
  · intro items hsplice hvalue
    rw [hvalues, BoundParam.expanded_of_spliced hsplice hvalue]
  · intro hwhole
    rw [hvalues, BoundParam.expanded_of_whole hwhole]

/-- A query with parameters of every kind: spliced lists, a value that is spliced, a whole list. -/
def splicedPosts : CompiledQuery :=
  let posts : Query := .mk (.mk (.table "posts") none) [] [] none [] [] [] none none false
  ⟨posts, [⟨.list [.integer 1, .integer 2, .integer 3], none, true⟩, ⟨.list [], none, true⟩,
    ⟨.string "x", none, true⟩, ⟨.list [.integer 4, .integer 5], none, false⟩], posts.cacheKey⟩

/-- After the items of two lists, a value and a list that is not spliced have one place each. -/
theorem layout_expanded_splicedPosts :
    splicedPosts.layout = [(0, 3), (3, 3), (3, 4), (4, 5)] ∧ splicedPosts.expanded.length = 5 ∧
    splicedPosts.expanded.extract 0 3 = [.integer 1, .integer 2, .integer 3] ∧
    splicedPosts.expanded.extract 4 5 = [.list [.integer 4, .integer 5]] := by
  obtain ⟨-, -, hlength, hvalues⟩ := layout_expanded splicedPosts
  obtain ⟨_, _, ⟨⟩, -, hitems, -⟩ := hvalues 0 _ rfl
  obtain ⟨_, _, ⟨⟩, -, -, hwhole⟩ := hvalues 3 _ rfl
  exact ⟨rfl, hlength, hitems _ rfl rfl, hwhole (.inl rfl)⟩

end QueryCompiler
