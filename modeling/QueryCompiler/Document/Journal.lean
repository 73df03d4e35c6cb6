import QueryCompiler.Document
import QueryCompiler.Journal
import QueryCompiler.Text.Quoted

/-!
# The journal as documents

Every event is an object with its message and what it speaks of. Lists of names and references to
sources stand in it as texts in which names are quoted.
-/

namespace QueryCompiler

open Document

/-- A list of quoted names. -/
def quotedNames (names : List String) : String := "[" ++ ", ".intercalate (names.map quoted) ++ "]"

/-- A reference to a source with its name quoted. -/
def SourceRef.text : SourceRef → String
  | .position i => "Position(" ++ toString i ++ ")"
  | .binding name => "Binding(" ++ quoted name ++ ")"
  | .parentBinding name => "ParentBinding(" ++ quoted name ++ ")"

/-- An event with a message. -/
def eventDocument (message : String) (details : List (String × Document)) : Document :=
  .object (("message", .string message) :: details)

def Event.document : Event → Document
  | .compileStarted sources wheres =>
    .object [("span", .string "compile"), ("sources", nat sources), ("wheres", nat wheres)]
  | .enteredScope depth => eventDocument "entered query scope" [("depth", nat depth)]
  | .leftScope depth sources =>
    eventDocument "left query scope" [("depth", nat depth), ("sources", nat sources)]
  | .collectedAliases names =>
    eventDocument "collected select aliases" [("aliases", .string (quotedNames names))]
  | .boundQuery depth sources params =>
    eventDocument "bound query"
      [("depth", nat depth), ("sources", nat sources), ("params", nat params)]
  | .ownerKeyOmitted schema association key =>
    eventDocument "projection omits owner key needed to load association"
      [("schema", .string schema), ("assoc", .string association), ("key", .string key)]
  | .relatedKeyOmitted schema association key =>
    eventDocument "nested projection omits related key needed to load association"
      [("schema", .string schema), ("assoc", .string association), ("key", .string key)]
  | .mergedProjection source kind added =>
    eventDocument "merging repeated projection"
      [("source", .string source.text), ("kind", .string kind.label),
        ("added", .string (quotedNames added))]
  | .compiled params checksum =>
    eventDocument "compiled query" [("params", nat params), ("checksum", nat checksum.toNat)]

end QueryCompiler
