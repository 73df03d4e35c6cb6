import QueryCompiler.Proofs.Binding.Settled

/-!
# Collected aliases

The table that is collected from a projection resolves exactly the names that the projection defines
at its outermost positions. Where names may not be defined again, collecting succeeds exactly if
these are pairwise distinct.
-/

namespace QueryCompiler

namespace AliasTable

theorem resolve_isSome {table : AliasTable} {name : String} :
    (table.resolve name).isSome ↔ name ∈ table.names := by
  rw [resolve, names, Option.isSome_iff_ne_none, Ne, findEntry_eq_none, Decidable.not_not]

/-- Whether a name may be used is seen from whether it resolves. -/
theorem require_congr {table table' : AliasTable} {name : String}
    (h : (table'.resolve name).isSome = (table.resolve name).isSome) :
    table'.require name = table.require name := by
  rw [require, require]
  cases hfound : table.resolve name <;> cases hfound' : table'.resolve name <;>
    simp [hfound, hfound'] at h ⊢

theorem define_eq_ok {table table' : AliasTable} {name : String} {value : Expr}
    (h : table.define name value = .ok table') :
    table'.allowIdentical = table.allowIdentical ∧
    (name ∉ table.names ∧ table'.names = table.names ++ [name] ∨
      table.allowIdentical = true ∧ name ∈ table.names ∧ table'.names = table.names) := by
  rw [define] at h
  split at h
  · rename_i existing hresolve
    split at h
    · rename_i hsame
      cases h
      refine ⟨rfl, Or.inr ⟨by simp_all, ?_, rfl⟩⟩
      rw [← resolve_isSome, hresolve]
      rfl
    · cases h
  · rename_i hresolve
    cases h
    refine ⟨rfl, Or.inl ⟨?_, by simp [names]⟩⟩
    rw [← resolve_isSome, hresolve]
    simp

theorem define_of_not_mem {table : AliasTable} {name : String} (h : name ∉ table.names)
    (value : Expr) :
    table.define name value = .ok { table with entries := table.entries ++ [(name, value)] } := by
  have hresolve : table.resolve name = none := by
    rw [← resolve_isSome] at h
    simpa using h
  rw [define, hresolve]

/-- Defining names adds them to those that resolve; without redefinition they are new. -/
theorem defineAll_eq_ok {table table' : AliasTable} {entries : List (String × Expr)}
    (h : table.defineAll entries = .ok table') :
    (∀ name, name ∈ table'.names ↔ name ∈ table.names ∨ name ∈ entries.map Prod.fst) ∧
    (table.allowIdentical = false → table.names.Nodup →
      (table.names ++ entries.map Prod.fst).Nodup) := by
  induction entries generalizing table with
  | nil =>
    cases h
    simp
  | cons entry rest ih =>
    obtain ⟨name, value⟩ := entry
    rw [defineAll] at h
    split at h
    · rename_i next hdefine
      obtain ⟨hnames, hnodup⟩ := ih h
      obtain ⟨hallow, hcases⟩ := define_eq_ok hdefine
      rw [hallow] at hnodup
      rcases hcases with ⟨hnew, hadded⟩ | ⟨hidentical, hmem, hadded⟩
      · rw [hadded] at hnames hnodup
        constructor
        · intro other
          rw [hnames, List.mem_append, List.mem_singleton, List.map_cons, List.mem_cons, or_assoc]
        · intro hstrict htable
          simpa using hnodup hstrict (List.nodup_append.2 ⟨htable, by simp, by
            intro a ha b hb hab
            rw [List.mem_singleton.1 hb] at hab
            exact hnew (hab ▸ ha)⟩)
      · rw [hadded] at hnames
        constructor
        · intro other
          rw [hnames, List.map_cons, List.mem_cons]
          constructor
          · rintro (hother | hother)
            · exact Or.inl hother
            · exact Or.inr (Or.inr hother)
          · rintro (hother | rfl | hother)
            · exact Or.inl hother
            · exact Or.inl hmem
            · exact Or.inr hother
        · intro hstrict
          rw [hstrict] at hidentical
          cases hidentical
    · cases h

theorem defineAll_of_nodup {table : AliasTable} {entries : List (String × Expr)}
    (h : (table.names ++ entries.map Prod.fst).Nodup) :
    ∃ table', table.defineAll entries = .ok table' := by
  induction entries generalizing table with
  | nil => exact ⟨table, rfl⟩
  | cons entry rest ih =>
    obtain ⟨name, value⟩ := entry
    have hnew : name ∉ table.names := by
      intro hmem
      exact (List.nodup_append.1 h).2.2 name hmem name (by simp) rfl
    rw [defineAll, define_of_not_mem hnew]
    exact ih (by simpa [names] using h)

/-- The collected names are those at the outermost positions. -/
theorem collect_eq_ok {select : Option Expr} {allow : Bool} {table : AliasTable}
    (h : collect select allow = .ok table) :
    (∀ name, (table.resolve name).isSome ↔ name ∈ selectAliases select) ∧
    (allow = false → (selectAliases select).Nodup) := by
  cases select with
  | none =>
    cases h
    exact ⟨fun name => by rw [resolve_isSome]; rfl, fun _ => List.nodup_nil⟩
  | some e =>
    obtain ⟨hnames, hnodup⟩ := defineAll_eq_ok h
    constructor
    · intro name
      rw [resolve_isSome, hnames]
      simp [empty, names, selectAliases, Expr.aliasNames]
    · intro hallow
      exact hnodup hallow List.nodup_nil

/-- Names that are pairwise distinct can be collected. -/
theorem collect_of_nodup {select : Option Expr} (h : (selectAliases select).Nodup) (allow : Bool) :
    ∃ table, collect select allow = .ok table := by
  cases select with
  | none => exact ⟨_, rfl⟩
  | some e => exact @defineAll_of_nodup (empty allow) _ h

end AliasTable

/-- Whatever aliases a context has, it stands at the place that knows their names. -/
theorem Context.at_own (ctx : Context) :
    ctx.At ⟨ctx.catalog, ctx.config, ctx.scopes, ctx.aliases.names⟩ :=
  ⟨rfl, rfl, rfl, fun _ => AliasTable.resolve_isSome⟩

end QueryCompiler
