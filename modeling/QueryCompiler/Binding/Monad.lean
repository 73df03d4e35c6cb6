import QueryCompiler.Binding.Alias
import QueryCompiler.Binding.Scope
import QueryCompiler.Config
import QueryCompiler.Journal

/-!
# What binding reads and writes

Binding an expression reads the catalog, the configuration, the scopes of the open queries and the
aliases of the innermost one. It counts parameters and keeps a journal; both outlive an error.
-/

namespace QueryCompiler

/-- What the place of an expression determines. -/
structure Context where
  catalog : Catalog
  config : Config
  scopes : ScopeStack
  aliases : AliasTable

/-- The place outside of all queries. -/
def Context.top (catalog : Catalog) (config : Config) : Context :=
  ⟨catalog, config, [], .empty false⟩

structure BindState where
  /-- The index of the next parameter. -/
  nextParam : Nat
  /-- What happened so far, the last first. -/
  journal : List Event
  deriving Inhabited

namespace BindState

def start : BindState := ⟨0, []⟩

def note (s : BindState) (event : Event) : BindState := { s with journal := event :: s.journal }

/-- What happened so far, in order. -/
def events (s : BindState) : List Event := s.journal.reverse

end BindState

/-- A step of binding, which may fail but keeps its state even then. -/
abbrev BindM := EStateM CompileError BindState

namespace BindM

def ofExcept {ε α : Type} (wrap : ε → CompileError) : Except ε α → BindM α
  | .ok a => pure a
  | .error e => throw (wrap e)

def note (event : Event) : BindM Unit := modify fun s => s.note event

def noteAll : List Event → BindM Unit
  | [] => pure ()
  | event :: rest => do note event; noteAll rest

/-- Takes the next `count` parameter indices and gives the first of them. -/
def takeIndices (count : Nat) : BindM Nat := do
  let first := (← get).nextParam
  modify fun s => { s with nextParam := first + count }
  return first

/-- Notes an event after a step, however the step ends. -/
def finallyNote {α : Type} (event : Event) (step : BindM α) : BindM α := fun s =>
  match step s with
  | .ok a s => .ok a (s.note event)
  | .error e s => .error e (s.note event)

end BindM

end QueryCompiler
