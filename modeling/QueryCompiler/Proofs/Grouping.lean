import QueryCompiler.Proofs.Projecting.Positions

/-!
# Grouping of merges

How a chain of merges is grouped by parentheses has no part in what it is normalised to, since only
the operands are merged, from left to right. What results is in normal form, so that normalising it
again finds nothing to merge and no field or association to drop. This does not need the test for
one source to be transitive, which it is not while only some projections have a slot: a projection
that was taken up leaves the name and the slot of the one that takes it up as they are.
-/

namespace QueryCompiler

/-- Chains with operands that are normalised alike are normalised alike. -/
theorem normalize_eq_of_operands {e f : Expr}
    (h : f.operands.map Expr.normalize = e.operands.map Expr.normalize) :
    f.normalize = e.normalize := by
  rw [Expr.normalize, Expr.normalize, chain_eq, chain_eq, h]

/-- No operand of a normalised chain takes up a later one. -/
theorem unmergeable_operands_normalize (e : Expr) : Unmergeable e.normalize.operands := by
  rw [operands_normalize]
  exact mergeOperands_unmergeable _

/-- The projections in a normalised chain name nothing twice at the top level of their sets. -/
theorem distinct_of_mem_operands_normalize {e : Expr} {kind : ProjectionKind} {p : Projection}
    (h : .projection kind p ∈ e.normalize.operands) : p.set.Distinct := by
  rw [operands_normalize, ← chain_eq] at h
  have hnormal : (Expr.projection kind p).Normal := mergeOperands_normal (chain_normal e) _ h
  rw [normal_projection_iff] at hnormal
  rw [← hnormal]
  exact p.set.dedupe_distinct

/--
Normalising is idempotent, and depends on a chain of merges by its operands from left to right only.
It leaves no two operands that could be merged, and no repeats at the top level of their sets.
-/
theorem normalize_grouping (e : Expr) :
    e.normalize.normalize = e.normalize ∧
    (∀ f : Expr, f.operands = e.operands → f.normalize = e.normalize) ∧
    (e.normalize.operands.Pairwise fun f g => ¬ f.Absorbs g) ∧
    ∀ kind p, .projection kind p ∈ e.normalize.operands → p.set.Distinct := by
  refine ⟨e.normalize_normalize, ?_, unmergeable_operands_normalize e, ?_⟩
  · intro f h
    apply normalize_eq_of_operands
    rw [h]
  · intro kind p h
    exact distinct_of_mem_operands_normalize h

/-- The titles of a source that was not looked up yet. -/
def unboundTitle : Expr := .projection .struct ⟨.position 0, .mk ["title"] [], none⟩

/-- The identifiers of a source by its name, and the texts of the same source by its position. -/
def boundIds : Expr := .projection .struct ⟨.binding "p", .mk ["id", "id"] [], some ⟨0, 0⟩⟩

def boundBody : Expr := .projection .struct ⟨.position 0, .mk ["body"] [], some ⟨0, 0⟩⟩

/--
The last projection is of the source of both others, which are not seen to be of one source. It is
taken up by the first of them, however the merges are grouped.
-/
theorem normalize_grouping_partlyBound :
    (Expr.merge unboundTitle (.merge boundIds boundBody)).operands =
      (Expr.merge (.merge unboundTitle boundIds) boundBody).operands ∧
    (Expr.merge unboundTitle (.merge boundIds boundBody)).normalize =
      (Expr.merge (.merge unboundTitle boundIds) boundBody).normalize ∧
    (Expr.merge (.merge unboundTitle boundIds) boundBody).normalize.normalize =
      .merge (.projection .struct ⟨.position 0, .mk ["title", "body"] [], none⟩)
        (.projection .struct ⟨.binding "p", .mk ["id"] [], some ⟨0, 0⟩⟩) := by
  have hgrouping := normalize_grouping (.merge (.merge unboundTitle boundIds) boundBody)
  refine ⟨rfl, hgrouping.2.1 _ rfl, ?_⟩
  rw [hgrouping.1]
  rfl

end QueryCompiler
