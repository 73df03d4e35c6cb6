import QueryCompiler.Proofs.Relabelling

/-!
# Spellings of references

A query can refer to a source by its position or by its name. Respelling a query writes its
references in another way, which may depend on the names of the sources of the query in which a
reference stands. It reaches fields, projections, the targets of casts and the types of values
tables. Only the types of values sources are left alone, since they are resolved before all sources
of the query are in scope.
-/

namespace QueryCompiler

/-- How references are to be written in a query with sources of some names. -/
abbrev Spelling := List (Option String) → SourceRef → SourceRef

namespace Spelling

/-- A reference by position is written with the name of the source, if it has one. -/
def named : Spelling
  | names, .position index => match names[index]? with
    | some (some name) => .binding name
    | _ => .position index
  | _, ref => ref

/-- All references are written alike. -/
def erased : Spelling := fun _ _ => .position 0

end Spelling

/-! ### References -/

def FieldRef.respell (write : SourceRef → SourceRef) (f : FieldRef) : FieldRef :=
  { f with source := write f.source }

def TypeRef.respell (write : SourceRef → SourceRef) : TypeRef → TypeRef
  | .builtin name => .builtin name
  | .column field => .column (field.respell write)
  | .parameterized descriptor => .parameterized descriptor

def ValuesTypes.respell (write : SourceRef → SourceRef) : ValuesTypes → ValuesTypes
  | .map types => .map (types.mapValues fun _ => TypeRef.respell write)
  | .schema name => .schema name

def ValuesTable.respell (write : SourceRef → SourceRef) (table : ValuesTable) : ValuesTable :=
  { table with types := table.types.respell write }

def Projection.respell (write : SourceRef → SourceRef) (p : Projection) : Projection :=
  { p with source := write p.source }

/-! ### Trees -/

/-- The names of the sources of a query, in the order of their positions. -/
def sourceNames (source : Source) (joins : List Join) : List (Option String) :=
  (source :: joins.map Join.source).map Source.name

mutual

/-- Writes the references of an expression in a query with sources of some names. -/
def Expr.respell (spell : Spelling) (names : List (Option String)) : Expr → Expr
  | .literal v => .literal v
  | .param p => .param p
  | .field f => .field (f.respell (spell names))
  | .binding r => .binding r
  | .parentBinding r => .parentBinding r
  | .operator op operands => .operator op (respellAll spell names operands)
  | .aggregate kind args distinct filter =>
    .aggregate kind (respellAll spell names args) distinct (respellOption spell names filter)
  | .fragment text parts args => .fragment text parts (respellArgs spell names args)
  | .cast value target resolved =>
    .cast (value.respell spell names) (target.respell (spell names)) resolved
  | .subquery kind query => .subquery kind (query.respell spell)
  | .values table => .values (table.respell (spell names))
  | .projection kind p => .projection kind (p.respell (spell names))
  | .merge left right => .merge (left.respell spell names) (right.respell spell names)
  | .aliased value name => .aliased (value.respell spell names) name
  | .aliasRef name => .aliasRef name
  | .jsonPath base path => .jsonPath (base.respell spell names) (respellPath spell names path)
  | .interval count unit => .interval (count.respell spell names) unit
  | .tuple items => .tuple (respellAll spell names items)
  | .mapping entries => .mapping (respellEntries spell names entries)

def respellAll (spell : Spelling) (names : List (Option String)) : List Expr → List Expr
  | [] => []
  | e :: rest => e.respell spell names :: respellAll spell names rest

def respellEntries (spell : Spelling) (names : List (Option String)) :
    List (String × Expr) → List (String × Expr)
  | [] => []
  | (key, e) :: rest => (key, e.respell spell names) :: respellEntries spell names rest

def respellOption (spell : Spelling) (names : List (Option String)) : Option Expr → Option Expr
  | none => none
  | some e => some (e.respell spell names)

def respellArgs (spell : Spelling) (names : List (Option String)) :
    List FragmentArg → List FragmentArg
  | [] => []
  | .mk role e :: rest => .mk role (e.respell spell names) :: respellArgs spell names rest

def respellPath (spell : Spelling) (names : List (Option String)) : List PathStep → List PathStep
  | [] => []
  | .key k :: rest => .key k :: respellPath spell names rest
  | .index i :: rest => .index i :: respellPath spell names rest
  | .computed e :: rest => .computed (e.respell spell names) :: respellPath spell names rest

def respellTerms (spell : Spelling) (names : List (Option String)) :
    List OrderTerm → List OrderTerm
  | [] => []
  | .mk e direction :: rest =>
    .mk (e.respell spell names) direction :: respellTerms spell names rest

def Source.respell (spell : Spelling) (names : List (Option String)) : Source → Source
  | .mk (.schema schema) name => .mk (.schema schema) name
  | .mk (.table table) name => .mk (.table table) name
  | .mk (.values table) name => .mk (.values table) name
  | .mk (.subquery query) name => .mk (.subquery (query.respell spell)) name
  | .mk (.fragment e) name => .mk (.fragment (e.respell spell names)) name

def respellJoins (spell : Spelling) (names : List (Option String)) : List Join → List Join
  | [] => []
  | .mk kind source on :: rest =>
    .mk kind (source.respell spell names) (respellOption spell names on) ::
      respellJoins spell names rest

/-- Writes all references of a query, and of the queries inside it, according to a spelling. -/
def Query.respell (spell : Spelling) : Query → Query
  | .mk source joins wheres select groupBy having orderBy limit offset distinct =>
    let names := sourceNames source joins
    .mk (source.respell spell names) (respellJoins spell names joins)
      (respellAll spell names wheres) (respellOption spell names select)
      (respellAll spell names groupBy) (respellAll spell names having)
      (respellTerms spell names orderBy) (respellOption spell names limit)
      (respellOption spell names offset) distinct

end

def FragmentArg.respell (spell : Spelling) (names : List (Option String)) :
    FragmentArg → FragmentArg
  | mk role e => mk role (e.respell spell names)

/--
A spelling is a relabelling by the names of the sources: it writes references in another way. What
it does inside a query depends on the sources of that query only.
-/
def Spelling.relabelling (spell : Spelling) : Relabelling (List (Option String)) where
  expr := Expr.respell spell
  all := respellAll spell
  entries := respellEntries spell
  option := respellOption spell
  args := respellArgs spell
  path := respellPath spell
  terms := respellTerms spell
  source := Source.respell spell
  joins := respellJoins spell
  query _ := Query.respell spell
  under names _ := names
  inside _ query := query.sources.map Source.name
  literal _ v := v
  param _ p := p
  field names := FieldRef.respell (spell names)
  target names := TypeRef.respell (spell names)
  table names := ValuesTable.respell (spell names)
  projection names := Projection.respell (spell names)
  declared _ table := table

/-- A query that refers by name wherever it can. -/
def Query.named (query : Query) : Query := query.respell .named

/-- A query without the ways in which its references are written. -/
def Query.erased (query : Query) : Query := query.respell .erased

section

variable (spell : Spelling) (names : List (Option String))

/-! ### Lists -/

@[simp] theorem respellAll_eq_map (es : List Expr) :
    respellAll spell names es = es.map (Expr.respell spell names) :=
  spell.relabelling.all_eq_map names es

@[simp] theorem respellEntries_eq_map (entries : List (String × Expr)) :
    respellEntries spell names entries =
      entries.map fun entry => (entry.1, entry.2.respell spell names) :=
  spell.relabelling.entries_eq_map names entries

@[simp] theorem respellArgs_eq_map (args : List FragmentArg) :
    respellArgs spell names args = args.map (FragmentArg.respell spell names) :=
  spell.relabelling.args_eq_map names args

@[simp] theorem respellPath_append (path path' : List PathStep) :
    respellPath spell names (path ++ path') =
      respellPath spell names path ++ respellPath spell names path' :=
  spell.relabelling.path_append names path path'

theorem map_source_respellJoins (joins : List Join) :
    (respellJoins spell names joins).map Join.source =
      (joins.map Join.source).map (Source.respell spell names) :=
  spell.relabelling.map_source_joins names joins

@[simp] theorem name_respell (source : Source) :
    (source.respell spell names).name = source.name :=
  spell.relabelling.name_source names source

/-- Respelling a query leaves the names of its sources alone. -/
@[simp] theorem sourceNames_respell (source : Source) (joins : List Join) :
    sourceNames (source.respell spell names) (respellJoins spell names joins) =
      sourceNames source joins := by
  simp [sourceNames, map_source_respellJoins]

end

/-! ### One spelling after another -/

/-- The second spelling of what the first one writes. -/
def Spelling.andThen (spell spell' : Spelling) : Spelling :=
  fun names ref => spell' names (spell names ref)

section

variable (write write' : SourceRef → SourceRef)

theorem TypeRef.respell_respell (target : TypeRef) :
    (target.respell write).respell write' = target.respell (write' ∘ write) := by
  cases target <;> rfl

theorem ValuesTable.respell_respell (table : ValuesTable) :
    (table.respell write).respell write' = table.respell (write' ∘ write) := by
  obtain ⟨rows, types, resolved, firstParam⟩ := table
  cases types with
  | schema name => rfl
  | map types =>
    simp only [ValuesTable.respell, ValuesTypes.respell, SortedMap.mapValues, List.map_map,
      Function.comp_def, TypeRef.respell_respell]

end

mutual

theorem Expr.respell_respell (spell spell' : Spelling) (names : List (Option String)) (e : Expr) :
    (e.respell spell names).respell spell' names = e.respell (spell.andThen spell') names := by
  match e with
  | .operator op operands =>
    rw [Expr.respell, Expr.respell, Expr.respell, respellAll_respellAll]
  | .aggregate kind args distinct filter =>
    rw [Expr.respell, Expr.respell, Expr.respell, respellAll_respellAll,
      respellOption_respellOption]
  | .fragment text parts args =>
    rw [Expr.respell, Expr.respell, Expr.respell, respellArgs_respellArgs]
  | .cast value target resolved =>
    rw [Expr.respell, Expr.respell, Expr.respell, Expr.respell_respell, TypeRef.respell_respell]
    rfl
  | .subquery kind query =>
    rw [Expr.respell, Expr.respell, Expr.respell, Query.respell_respell]
  | .values table =>
    rw [Expr.respell, Expr.respell, Expr.respell, ValuesTable.respell_respell]
    rfl
  | .merge left right =>
    rw [Expr.respell, Expr.respell, Expr.respell, Expr.respell_respell, Expr.respell_respell]
  | .aliased value name => rw [Expr.respell, Expr.respell, Expr.respell, Expr.respell_respell]
  | .jsonPath base path =>
    rw [Expr.respell, Expr.respell, Expr.respell, Expr.respell_respell, respellPath_respellPath]
  | .interval count unit => rw [Expr.respell, Expr.respell, Expr.respell, Expr.respell_respell]
  | .tuple items => rw [Expr.respell, Expr.respell, Expr.respell, respellAll_respellAll]
  | .mapping entries =>
    rw [Expr.respell, Expr.respell, Expr.respell, respellEntries_respellEntries]
  | .literal _ | .param _ | .field _ | .binding _ | .parentBinding _ | .projection _ _
  | .aliasRef _ => rfl
termination_by structural e

theorem respellAll_respellAll (spell spell' : Spelling) (names : List (Option String))
    (es : List Expr) : respellAll spell' names (respellAll spell names es) =
      respellAll (spell.andThen spell') names es := by
  match es with
  | [] => rfl
  | e :: rest =>
    rw [respellAll, respellAll, respellAll, Expr.respell_respell, respellAll_respellAll]
termination_by structural es

theorem respellEntries_respellEntries (spell spell' : Spelling) (names : List (Option String))
    (entries : List (String × Expr)) :
    respellEntries spell' names (respellEntries spell names entries) =
      respellEntries (spell.andThen spell') names entries := by
  match entries with
  | [] => rfl
  | (key, e) :: rest =>
    rw [respellEntries, respellEntries, respellEntries, Expr.respell_respell,
      respellEntries_respellEntries]
termination_by structural entries

theorem respellOption_respellOption (spell spell' : Spelling) (names : List (Option String))
    (e : Option Expr) : respellOption spell' names (respellOption spell names e) =
      respellOption (spell.andThen spell') names e := by
  match e with
  | none => rfl
  | some e => rw [respellOption, respellOption, respellOption, Expr.respell_respell]
termination_by structural e

theorem respellArgs_respellArgs (spell spell' : Spelling) (names : List (Option String))
    (args : List FragmentArg) : respellArgs spell' names (respellArgs spell names args) =
      respellArgs (spell.andThen spell') names args := by
  match args with
  | [] => rfl
  | .mk role e :: rest =>
    rw [respellArgs, respellArgs, respellArgs, Expr.respell_respell, respellArgs_respellArgs]
termination_by structural args

theorem respellPath_respellPath (spell spell' : Spelling) (names : List (Option String))
    (path : List PathStep) : respellPath spell' names (respellPath spell names path) =
      respellPath (spell.andThen spell') names path := by
  match path with
  | [] => rfl
  | .key _ :: rest | .index _ :: rest =>
    rw [respellPath, respellPath, respellPath, respellPath_respellPath]
  | .computed e :: rest =>
    rw [respellPath, respellPath, respellPath, Expr.respell_respell, respellPath_respellPath]
termination_by structural path

theorem respellTerms_respellTerms (spell spell' : Spelling) (names : List (Option String))
    (terms : List OrderTerm) : respellTerms spell' names (respellTerms spell names terms) =
      respellTerms (spell.andThen spell') names terms := by
  match terms with
  | [] => rfl
  | .mk e direction :: rest =>
    rw [respellTerms, respellTerms, respellTerms, Expr.respell_respell, respellTerms_respellTerms]
termination_by structural terms

theorem Source.respell_respell (spell spell' : Spelling) (names : List (Option String))
    (source : Source) : (source.respell spell names).respell spell' names =
      source.respell (spell.andThen spell') names := by
  match source with
  | .mk (.schema _) _ | .mk (.table _) _ | .mk (.values _) _ => rfl
  | .mk (.subquery query) _ =>
    rw [Source.respell, Source.respell, Source.respell, Query.respell_respell]
  | .mk (.fragment e) _ =>
    rw [Source.respell, Source.respell, Source.respell, Expr.respell_respell]
termination_by structural source

theorem respellJoins_respellJoins (spell spell' : Spelling) (names : List (Option String))
    (joins : List Join) : respellJoins spell' names (respellJoins spell names joins) =
      respellJoins (spell.andThen spell') names joins := by
  match joins with
  | [] => rfl
  | .mk kind source on :: rest =>
    rw [respellJoins, respellJoins, respellJoins, Source.respell_respell,
      respellOption_respellOption, respellJoins_respellJoins]
termination_by structural joins

theorem Query.respell_respell (spell spell' : Spelling) (query : Query) :
    (query.respell spell).respell spell' = query.respell (spell.andThen spell') := by
  match query with
  | .mk source joins wheres select groupBy having orderBy limit offset distinct =>
    simp only [Query.respell, sourceNames_respell, Source.respell_respell,
      respellJoins_respellJoins, respellAll_respellAll, respellOption_respellOption,
      respellTerms_respellTerms]
termination_by structural query

end

/-- Whether a query refers by name or by position is not seen once the spelling is erased. -/
theorem Query.erased_named (query : Query) : query.named.erased = query.erased :=
  query.respell_respell .named .erased

end QueryCompiler
