import QueryCompiler.Proofs.Relabelling

/-!
# Changes of values and indices

A change maps the values in a tree and adds a number to all its indices. It leaves the form of the
tree, its names, slots and types alone, so that the stages of a compilation that look at these only
commute with it. Values that are written inline into a fragment are left alone as well.
-/

namespace QueryCompiler

structure Change where
  /-- What is added to the indices of parameters and tables. -/
  shift : Nat
  /-- The change of literals. -/
  literal : Value → Value
  /-- The change of the values of parameters that are not spliced, and of cells. -/
  value : Value → Value
  /-- The change of spliced values. -/
  spliced : Value → Value

namespace Change

/-- The change that changes nothing. -/
def none : Change := ⟨0, id, id, id⟩

/-- A change of the indices only. -/
def shifting (k : Nat) : Change := ⟨k, id, id, id⟩

/-- The same change of the values, with the indices left alone. -/
def unshifted (c : Change) : Change := { c with shift := 0 }

/--
The change of an argument of a fragment. What is spliced counts as spliced before it is marked.
-/
def under (c : Change) : ArgRole → Change
  | .parameter => c
  | .identifier | .constant => shifting c.shift
  | .splice => ⟨c.shift, c.spliced, c.spliced, c.spliced⟩

@[simp] theorem under_parameter (c : Change) : c.under .parameter = c := rfl

@[simp] theorem none_under (role : ArgRole) : none.under role = none := by
  cases role <;> rfl

end Change

def Param.change (c : Change) (p : Param) : Param :=
  { p with
    value := if p.splice then c.spliced p.value else c.value p.value
    index := p.index.map (· + c.shift) }

def Row.change (c : Change) (row : Row) : Row := row.mapValues fun _ => c.value

def ValuesTable.change (c : Change) (table : ValuesTable) : ValuesTable :=
  { table with
    rows := table.rows.map (Row.change c)
    firstParam := table.firstParam.map (· + c.shift) }

mutual

def Expr.change (c : Change) : Expr → Expr
  | .literal v => .literal (c.literal v)
  | .param p => .param (p.change c)
  | .field f => .field f
  | .binding r => .binding r
  | .parentBinding r => .parentBinding r
  | .operator op operands => .operator op (changeAll c operands)
  | .aggregate kind args distinct filter =>
    .aggregate kind (changeAll c args) distinct (changeOption c filter)
  | .fragment text parts args => .fragment text parts (changeArgs c args)
  | .cast value target resolved => .cast (value.change c) target resolved
  | .subquery kind query => .subquery kind (query.change c)
  | .values table => .values (table.change c)
  | .projection kind p => .projection kind p
  | .merge left right => .merge (left.change c) (right.change c)
  | .aliased value name => .aliased (value.change c) name
  | .aliasRef name => .aliasRef name
  | .jsonPath base path => .jsonPath (base.change c) (changePath c path)
  | .interval count unit => .interval (count.change c) unit
  | .tuple items => .tuple (changeAll c items)
  | .mapping entries => .mapping (changeEntries c entries)

def changeAll (c : Change) : List Expr → List Expr
  | [] => []
  | e :: rest => e.change c :: changeAll c rest

def changeEntries (c : Change) : List (String × Expr) → List (String × Expr)
  | [] => []
  | (key, e) :: rest => (key, e.change c) :: changeEntries c rest

def changeOption (c : Change) : Option Expr → Option Expr
  | none => none
  | some e => some (e.change c)

def changeArgs (c : Change) : List FragmentArg → List FragmentArg
  | [] => []
  | .mk role e :: rest => .mk role (e.change (c.under role)) :: changeArgs c rest

def changePath (c : Change) : List PathStep → List PathStep
  | [] => []
  | .key k :: rest => .key k :: changePath c rest
  | .index i :: rest => .index i :: changePath c rest
  | .computed e :: rest => .computed (e.change c) :: changePath c rest

def changeTerms (c : Change) : List OrderTerm → List OrderTerm
  | [] => []
  | .mk e direction :: rest => .mk (e.change c) direction :: changeTerms c rest

def Origin.change (c : Change) : Origin → Origin
  | .schema name => .schema name
  | .table name => .table name
  | .values table => .values (table.change c)
  | .subquery query => .subquery (query.change c)
  | .fragment e => .fragment (e.change c)

def Source.change (c : Change) : Source → Source
  | .mk origin name => .mk (origin.change c) name

def changeJoins (c : Change) : List Join → List Join
  | [] => []
  | .mk kind source on :: rest =>
    .mk kind (source.change c) (changeOption c on) :: changeJoins c rest

def Query.change (c : Change) : Query → Query
  | .mk source joins wheres select groupBy having orderBy limit offset distinct =>
    .mk (source.change c) (changeJoins c joins) (changeAll c wheres) (changeOption c select)
      (changeAll c groupBy) (changeAll c having) (changeTerms c orderBy) (changeOption c limit)
      (changeOption c offset) distinct

end

def FragmentArg.change (c : Change) : FragmentArg → FragmentArg
  | mk role e => mk role (e.change (c.under role))

/-! ### Arguments of fragments -/

/-- An inline argument keeps its value. -/
theorem Expr.change_inline {role : ArgRole} (h : role.isInline = true) (c : Change) (v : Value) :
    (Expr.literal v).change (c.under role) = .literal v := by
  cases role with
  | identifier | constant => rfl
  | parameter | splice => cases h

/-- A spliced parameter is changed as an argument as it is elsewhere. -/
theorem Param.change_under_splice {p : Param} (h : p.splice = true) (c : Change) :
    p.change (c.under .splice) = p.change c := by
  simp [Param.change, Change.under, h]

/-- A change is a relabelling: it replaces values and indices. -/
def Change.relabelling : Relabelling Change where
  expr := Expr.change
  all := changeAll
  entries := changeEntries
  option := changeOption
  args := changeArgs
  path := changePath
  terms := changeTerms
  source := Source.change
  joins := changeJoins
  query := Query.change
  under := Change.under
  inside c _ := c
  literal := Change.literal
  param := Param.change
  field _ f := f
  target _ t := t
  table := ValuesTable.change
  projection _ p := p
  declared := ValuesTable.change

section

variable (c : Change)

/-! ### Lists -/

@[simp] theorem changeAll_eq_map (es : List Expr) : changeAll c es = es.map (Expr.change c) :=
  Change.relabelling.all_eq_map c es

@[simp] theorem changeEntries_eq_map (entries : List (String × Expr)) :
    changeEntries c entries = entries.map fun entry => (entry.1, entry.2.change c) :=
  Change.relabelling.entries_eq_map c entries

@[simp] theorem changeArgs_eq_map (args : List FragmentArg) :
    changeArgs c args = args.map (FragmentArg.change c) :=
  Change.relabelling.args_eq_map c args

@[simp] theorem changePath_append (path path' : List PathStep) :
    changePath c (path ++ path') = changePath c path ++ changePath c path' :=
  Change.relabelling.path_append c path path'

theorem map_source_changeJoins (joins : List Join) :
    (changeJoins c joins).map Join.source = (joins.map Join.source).map (Source.change c) :=
  Change.relabelling.map_source_joins c joins

end

/-! ### The change that changes nothing -/

theorem Param.change_none (p : Param) : p.change .none = p := by
  obtain ⟨value, index, type, splice⟩ := p
  cases splice <;> cases index <;> rfl

theorem ValuesTable.change_none (table : ValuesTable) : table.change .none = table := by
  have hrow (row : Row) : row.change .none = row :=
    SortedMap.ext (List.map_id' row.entries)
  have hrows : table.rows.map (Row.change .none) = table.rows := by
    rw [funext hrow, List.map_id']
  obtain ⟨rows, types, resolved, firstParam⟩ := table
  rw [ValuesTable.change, hrows]
  cases firstParam <;> rfl

mutual

theorem Expr.change_none (e : Expr) : e.change .none = e := by
  match e with
  | .param p => rw [Expr.change, p.change_none]
  | .operator op operands => rw [Expr.change, changeAll_none operands]
  | .aggregate kind args distinct filter =>
    rw [Expr.change, changeAll_none args, changeOption_none filter]
  | .fragment text parts args => rw [Expr.change, changeArgs_none args]
  | .cast value target resolved => rw [Expr.change, Expr.change_none value]
  | .subquery kind query => rw [Expr.change, Query.change_none query]
  | .values table => rw [Expr.change, table.change_none]
  | .merge left right => rw [Expr.change, Expr.change_none left, Expr.change_none right]
  | .aliased value name => rw [Expr.change, Expr.change_none value]
  | .jsonPath base path => rw [Expr.change, Expr.change_none base, changePath_none path]
  | .interval count unit => rw [Expr.change, Expr.change_none count]
  | .tuple items => rw [Expr.change, changeAll_none items]
  | .mapping entries => rw [Expr.change, changeEntries_none entries]
  | .literal _ | .field _ | .binding _ | .parentBinding _ | .projection _ _ | .aliasRef _ => rfl
termination_by structural e

theorem changeAll_none (es : List Expr) : changeAll .none es = es := by
  match es with
  | [] => rfl
  | e :: rest => rw [changeAll, Expr.change_none e, changeAll_none rest]
termination_by structural es

theorem changeEntries_none (entries : List (String × Expr)) :
    changeEntries .none entries = entries := by
  match entries with
  | [] => rfl
  | (key, e) :: rest => rw [changeEntries, Expr.change_none e, changeEntries_none rest]
termination_by structural entries

theorem changeOption_none (e : Option Expr) : changeOption .none e = e := by
  match e with
  | none => rfl
  | some e => rw [changeOption, Expr.change_none e]
termination_by structural e

theorem changeArgs_none (args : List FragmentArg) : changeArgs .none args = args := by
  match args with
  | [] => rfl
  | .mk role e :: rest =>
    rw [changeArgs, Change.none_under, Expr.change_none e, changeArgs_none rest]
termination_by structural args

theorem changePath_none (path : List PathStep) : changePath .none path = path := by
  match path with
  | [] => rfl
  | .key _ :: rest | .index _ :: rest => rw [changePath, changePath_none rest]
  | .computed e :: rest => rw [changePath, Expr.change_none e, changePath_none rest]
termination_by structural path

theorem changeTerms_none (terms : List OrderTerm) : changeTerms .none terms = terms := by
  match terms with
  | [] => rfl
  | .mk e direction :: rest => rw [changeTerms, Expr.change_none e, changeTerms_none rest]
termination_by structural terms

theorem Source.change_none (source : Source) : source.change .none = source := by
  match source with
  | .mk (.schema _) _ | .mk (.table _) _ => rfl
  | .mk (.values table) _ => rw [Source.change, Origin.change, table.change_none]
  | .mk (.subquery query) _ => rw [Source.change, Origin.change, Query.change_none query]
  | .mk (.fragment e) _ => rw [Source.change, Origin.change, Expr.change_none e]
termination_by structural source

theorem changeJoins_none (joins : List Join) : changeJoins .none joins = joins := by
  match joins with
  | [] => rfl
  | .mk kind source on :: rest =>
    rw [changeJoins, Source.change_none source, changeOption_none on, changeJoins_none rest]
termination_by structural joins

theorem Query.change_none (query : Query) : query.change .none = query := by
  match query with
  | .mk source joins wheres select groupBy having orderBy limit offset distinct =>
    rw [Query.change, Source.change_none source, changeJoins_none joins, changeAll_none wheres,
      changeOption_none select, changeAll_none groupBy, changeAll_none having,
      changeTerms_none orderBy, changeOption_none limit, changeOption_none offset]
termination_by structural query

end

end QueryCompiler
