/-!
# Configuration

The options of a compilation and their defaults.
-/

namespace QueryCompiler

structure Config where
  /-- How deep subqueries may be nested. -/
  maxSubqueryDepth : Nat
  /-- Whether an alias may be defined again with the same value. -/
  allowIdenticalAliases : Bool
  /-- Whether a filter that contains an aggregate is refused. -/
  rejectAggregatesInWhere : Bool
  deriving DecidableEq

def Config.default : Config := ⟨32, false, true⟩

instance : Inhabited Config := ⟨.default⟩

end QueryCompiler
