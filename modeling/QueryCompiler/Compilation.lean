import QueryCompiler.Binding
import QueryCompiler.Compilation.Parameters
import QueryCompiler.Compilation.Shape

/-!
# Compilation

A compilation binds a query, collects its parameters and derives its cache key. The first error ends
it.
-/

namespace QueryCompiler

structure CompiledQuery where
  /-- The bound query with its projection normalised. -/
  query : Query
  /-- The parameters in the order of their indices. -/
  params : List BoundParam
  key : CacheKey

def CompiledQuery.same (c d : CompiledQuery) : Bool :=
  c.query.same d.query && sameParams c.params d.params && c.key == d.key

/-- The parameters and the cache key of a query with `count` parameter indices. -/
def Query.finish (query : Query) (count : Nat) : Except CompileError (List BoundParam × CacheKey) :=
  match query.boundParams count with
  | .ok params => .ok (params, query.cacheKey)
  | .error e => .error (.invalid e)

/-- Binds a query and finishes it. -/
def Query.compileM (catalog : Catalog) (config : Config) (query : Query) : BindM CompiledQuery := do
  BindM.note (.compileStarted query.sources.length query.wheres.length)
  let bound ← query.bind (.top catalog config)
  let (params, key) ← BindM.ofExcept id (bound.finish (← get).nextParam)
  BindM.note (.compiled params.length key.checksum)
  return ⟨bound, params, key⟩

def Query.compile (catalog : Catalog) (config : Config) (query : Query) :
    Except CompileError CompiledQuery :=
  match query.compileM catalog config .start with
  | .ok compiled _ => .ok compiled
  | .error e _ => .error e

/-- What a compilation notes, whether it succeeds or not. -/
def Query.compileEvents (catalog : Catalog) (config : Config) (query : Query) : List Event :=
  match query.compileM catalog config .start with
  | .ok _ s => s.events
  | .error _ s => s.events

/-! ### Placeholders at execution -/

/--
How many placeholders a parameter takes: one for every element of a spliced list, otherwise one.
-/
def BoundParam.width (p : BoundParam) : Nat := if p.splice then p.value.spliceWidth else 1

/-- The values of a parameter, one for every placeholder. -/
def BoundParam.expanded (p : BoundParam) : List Value :=
  match p.splice, p.value with
  | true, .list items => items
  | _, value => [value]

/-- The ranges of placeholders of some parameters, the first of which starts at `start`. -/
def layoutFrom (start : Nat) : List BoundParam → List (Nat × Nat)
  | [] => []
  | p :: rest => (start, start + p.width) :: layoutFrom (start + p.width) rest

/-- How many placeholders some parameters take together. -/
def totalWidth : List BoundParam → Nat
  | [] => 0
  | p :: rest => p.width + totalWidth rest

namespace CompiledQuery

/-- The placeholders of every parameter, from a first one up to one that is no more among them. -/
def layout (c : CompiledQuery) : List (Nat × Nat) := layoutFrom 0 c.params

/-- The values of all placeholders in order. -/
def expanded (c : CompiledQuery) : List Value := c.params.flatMap BoundParam.expanded

def placeholders (c : CompiledQuery) : Nat := totalWidth c.params

end CompiledQuery

end QueryCompiler
