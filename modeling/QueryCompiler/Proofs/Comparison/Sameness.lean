import QueryCompiler.Proofs.Comparison.Change

/-!
# Changes that keep sameness

Where equal values are changed into equal values, equal trees are changed into equal trees. The
aliases that may be defined again because they are equal are therefore equal after a change too.
-/

namespace QueryCompiler

/-- A change that gives equal values equal values. -/
structure Change.Congruent (c : Change) : Prop where
  literal {v w : Value} (h : v.same w = true) : (c.literal v).same (c.literal w) = true
  value {v w : Value} (h : v.same w = true) : (c.value v).same (c.value w) = true
  spliced {v w : Value} (h : v.same w = true) : (c.spliced v).same (c.spliced w) = true

theorem Change.Congruent.under {c : Change} (hc : c.Congruent) (role : ArgRole) :
    (c.under role).Congruent := by
  cases role with
  | parameter => exact hc
  | identifier | constant => exact ⟨id, id, id⟩
  | splice => exact ⟨hc.spliced, hc.spliced, hc.spliced⟩

theorem Param.same_change {c : Change} (hc : c.Congruent) {p q : Param} (h : p.same q = true) :
    (p.change c).same (q.change c) = true := by
  simp only [Param.same, Bool.and_eq_true, beq_iff_eq] at h ⊢
  obtain ⟨⟨⟨hvalue, hindex⟩, htype⟩, hsplice⟩ := h
  refine ⟨⟨⟨?_, ?_⟩, htype⟩, hsplice⟩
  · simp only [Param.change, hsplice]
    split
    · exact hc.spliced hvalue
    · exact hc.value hvalue
  · simp only [Param.change, hindex]

theorem sameEntries_change {c : Change} (hc : c.Congruent)
    {entries entries' : List (String × Value)}
    (h : Value.sameEntries entries entries' = true) :
    Value.sameEntries (entries.map fun entry => (entry.1, c.value entry.2))
      (entries'.map fun entry => (entry.1, c.value entry.2)) = true := by
  match entries, entries' with
  | [], [] => rfl
  | (_, _) :: rest, (_, _) :: rest' =>
    simp only [List.map_cons, Value.sameEntries, Bool.and_eq_true] at h ⊢
    exact ⟨⟨h.1.1, hc.value h.1.2⟩, sameEntries_change hc h.2⟩
  | [], _ :: _ | _ :: _, [] => simp [Value.sameEntries] at h

theorem sameRows_change {c : Change} (hc : c.Congruent) {rows rows' : List Row}
    (h : ValuesTable.sameRows rows rows' = true) :
    ValuesTable.sameRows (rows.map (Row.change c)) (rows'.map (Row.change c)) = true := by
  match rows, rows' with
  | [], [] => rfl
  | row :: rest, row' :: rest' =>
    simp only [List.map_cons, ValuesTable.sameRows, Bool.and_eq_true] at h ⊢
    exact ⟨sameEntries_change hc h.1, sameRows_change hc h.2⟩
  | [], _ :: _ | _ :: _, [] => simp [ValuesTable.sameRows] at h

theorem ValuesTable.same_change {c : Change} (hc : c.Congruent) {table table' : ValuesTable}
    (h : table.same table' = true) : (table.change c).same (table'.change c) = true := by
  simp only [ValuesTable.same, Bool.and_eq_true, beq_iff_eq] at h ⊢
  obtain ⟨⟨⟨hrows, htypes⟩, hresolved⟩, hfirst⟩ := h
  refine ⟨⟨⟨sameRows_change hc hrows, htypes⟩, hresolved⟩, ?_⟩
  simp only [ValuesTable.change, hfirst]

/-- A change that gives equal values equal values gives equal labels equal labels. -/
theorem Change.relabelling_congruent : Change.relabelling.Congruent Change.Congruent where
  literal hc _ _ h := hc.literal h
  param hc _ _ h := Param.same_change hc h
  table hc _ _ h := ValuesTable.same_change hc h
  declared hc _ _ h := ValuesTable.same_change hc h
  under hc role := hc.under role
  inside hc _ _ _ := ⟨hc, rfl⟩

/-- A change that gives equal values equal values gives equal trees equal trees. -/
theorem Expr.same_change {c : Change} (hc : c.Congruent) (e : Expr) {e' : Expr}
    (h : e.same e' = true) : (e.change c).same (e'.change c) = true :=
  Change.relabelling_congruent.same_expr hc e h

end QueryCompiler
