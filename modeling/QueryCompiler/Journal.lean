import QueryCompiler.Query

/-!
# The journal of a compilation

The events that a compilation notes while it runs, in order. They say which query scopes were
entered and left, which aliases and parameters were found, and where a projection was merged or
leaves out a key.
-/

namespace QueryCompiler

inductive Event where
  /-- A compilation of a query with so many sources and filters starts. -/
  | compileStarted (sources wheres : Nat)
  /-- A query was entered; so many are open now. -/
  | enteredScope (depth : Nat)
  /-- A query with so many sources was left; so many are still open. -/
  | leftScope (depth sources : Nat)
  | collectedAliases (names : List String)
  /-- A query is bound; so many parameters have been numbered. -/
  | boundQuery (depth sources params : Nat)
  /-- A field set asks for an association without the key on its own side. -/
  | ownerKeyOmitted (schema association key : String)
  /-- A field set asks for an association without the key on the related side. -/
  | relatedKeyOmitted (schema association key : String)
  /-- The fields `added` were asked of a source again. -/
  | mergedProjection (source : SourceRef) (kind : ProjectionKind) (added : List String)
  | compiled (params : Nat) (checksum : UInt32)
  deriving DecidableEq, Inhabited

end QueryCompiler
