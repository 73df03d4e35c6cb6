import QueryCompiler.Proofs.Binding.Steps
import QueryCompiler.Proofs.Parts
import QueryCompiler.Binding

/-!
# Errors of binding

Binding fails with errors of its own. The errors that speak of the indices of parameters belong to
the collection of parameters, and the error of a source without a query to no query at all; binding
has none of them. The errors that speak of operands and arguments come from the operators and
aggregates that are bound: one that finds what it takes causes none.
-/

namespace QueryCompiler

/-- An error that speaks of the indices of parameters. -/
def CompileError.isNumbering : CompileError → Bool
  | .invalid .unindexedParam | .invalid (.boundTwice _) | .invalid (.outOfRange _)
  | .invalid (.neverBound _) | .invalid .unboundTable => true
  | _ => false

/-- An error that does not speak of the indices of parameters. -/
def CompileError.Other (e : CompileError) : Prop := e.isNumbering = false

/-- An error that binding may fail with. -/
def CompileError.isOrdinary : CompileError → Bool
  | .invalid .sourceOutsideQuery => false
  | e => !e.isNumbering

def CompileError.Ordinary (e : CompileError) : Prop := e.isOrdinary = true

theorem CompileError.Ordinary.other {e : CompileError} (h : e.Ordinary) : e.Other := by
  unfold Ordinary isOrdinary at h
  split at h
  · cases h
  · simpa [Other] using h

/-- An error that speaks of the operands of an operator or the arguments of an aggregate. -/
def CompileError.isSupply : CompileError → Bool
  | .invalid (.operandCount _ _) | .invalid (.missingInterval _)
  | .invalid (.argumentCount _ _) => true
  | _ => false

/-- An ordinary error that has nothing to do with what operators and aggregates are given. -/
def CompileError.isApart (e : CompileError) : Bool := e.isOrdinary && !e.isSupply

def CompileError.Apart (e : CompileError) : Prop := e.isApart = true

theorem CompileError.Apart.ordinary {e : CompileError} (h : e.Apart) : e.Ordinary :=
  (Bool.and_eq_true_iff.1 h).1

theorem CompileError.Apart.isSupply_eq_false {e : CompileError} (h : e.Apart) :
    e.isSupply = false := by
  obtain ⟨-, hsupply⟩ := Bool.and_eq_true_iff.1 h
  simpa using hsupply

theorem CompileError.Ordinary.ne_sourceOutsideQuery {e : CompileError} (h : e.Ordinary) :
    e ≠ .invalid .sourceOutsideQuery := by
  rintro rfl
  cases h

/-- An error that speaks of something that a schema or the catalog does not have. -/
def CompileError.isUnknown : CompileError → Bool
  | .binding (.unknownField _ _) | .binding (.unknownAssociation _ _)
  | .binding (.unknownSchema _) => true
  | _ => false

theorem CompileError.apart_of_isUnknown (e : CompileError) (h : e.isUnknown = true) :
    e.Apart := by
  cases e with
  | binding _ => rfl
  | _ => cases h

open BindM CompileError

/-! ### Parts that are checked by themselves -/

theorem checkOperands_error {op : Operator} {operands : List Expr} {e : ExprFault}
    (h : checkOperands op operands = .error e) : Ordinary (.invalid e) := by
  rw [checkOperands] at h
  split at h
  · cases h
    rfl
  · split at h
    · split at h
      · cases h
      · cases h
        rfl
    · cases h

theorem checkArguments_error {kind : AggregateKind} {args : List Expr} {e : ExprFault}
    (h : checkArguments kind args = .error e) : Ordinary (.invalid e) := by
  rw [checkArguments] at h
  split at h
  · cases h
    rfl
  · cases h

theorem process_error {f : Fragment} {e : CompileError} (h : f.process = .error e) :
    Apart e := by
  rw [Fragment.process] at h
  split at h
  · cases h
    rfl
  · split at h
    · cases h
      rfl
    · cases h

section

variable {catalog : Catalog} {resolve : TypeRef → Except CastError (TypeRef × ResolvedType)}

theorem resolveColumns_error {types : SortedMap TypeRef} {keys : List String} {e : CompileError}
    (h : resolveColumns resolve types keys = .error e) : Apart e := by
  induction keys with
  | nil => cases h
  | cons key rest ih =>
    rw [resolveColumns] at h
    split at h
    · cases h
      rfl
    · split at h
      · cases h
        rfl
      · split at h
        · rename_i hrest
          cases h
          exact ih hrest
        · cases h

theorem schemaColumns_error {schema : Schema} {keys : List String} {e : CompileError}
    (h : schemaColumns schema keys = .error e) : Apart e := by
  induction keys with
  | nil => cases h
  | cons key rest ih =>
    rw [schemaColumns] at h
    split at h
    · cases h
      rfl
    · split at h
      · rename_i hrest
        cases h
        exact ih hrest
      · cases h

theorem resolveTypes_error {keys : List String} {types : ValuesTypes} {e : CompileError}
    (h : resolveTypes catalog resolve keys types = .error e) : Apart e := by
  cases types with
  | map types =>
    rw [resolveTypes] at h
    split at h
    · rename_i hcolumns
      cases h
      exact resolveColumns_error hcolumns
    · split at h
      · cases h
        rfl
      · cases h
  | schema name =>
    rw [resolveTypes] at h
    split at h
    · cases h
      rfl
    · split at h
      · rename_i hcolumns
        cases h
        exact schemaColumns_error hcolumns
      · cases h

theorem validate_error {table : ValuesTable} {e : CompileError}
    (h : table.validate catalog resolve = .error e) : Apart e := by
  rw [ValuesTable.validate] at h
  split at h
  · cases h
    rfl
  · split at h
    · cases h
      rfl
    · split at h
      · cases h
        rfl
      · split at h
        · rename_i htypes
          cases h
          exact resolveTypes_error htypes
        · split at h
          · cases h
            rfl
          · cases h

end

theorem declare_error {catalog : Catalog} {scopes : ScopeStack} {source : Source} {e : CompileError}
    (h : source.declare catalog scopes = .error e) : Apart e := by
  obtain ⟨origin, name⟩ := source
  cases origin with
  | schema schema =>
    rw [Source.declare] at h
    split at h
    · cases h
    · cases h
      rfl
  | values table =>
    rw [Source.declare] at h
    split at h
    · cases h
    · rename_i hcheck
      cases h
      exact validate_error hcheck
  | table _ | subquery _ | fragment _ => cases h

theorem declareSources_error {catalog : Catalog} {outer : ScopeStack} {scope : Scope}
    {sources : List Source} {e : CompileError}
    (h : (declareSources catalog outer scope sources).1 = .error e) : Apart e := by
  induction sources generalizing scope with
  | nil => cases h
  | cons source rest ih =>
    rw [declareSources] at h
    split at h
    · rename_i hdeclare
      cases h
      exact declare_error hdeclare
    · split at h
      · cases h
        rfl
      · rename_i next hadd
        cases hrest : declareSources catalog outer next rest with
        | mk tables last =>
          cases tables with
          | ok tables =>
            rw [hrest] at h
            cases h
          | error e' =>
            rw [hrest] at h
            cases h
            exact ih (congrArg Prod.fst hrest)

/-! ### What parts refuse -/

/-- Every error with which a part refuses the operands or arguments that it has satisfies `P`. -/
def Part.Refuses (P : CompileError → Prop) : Part → Prop
  | .expr (.operator op operands) => ∀ e, checkOperands op operands = .error e → P (.invalid e)
  | .expr (.aggregate kind args _ _) => ∀ e, checkArguments kind args = .error e → P (.invalid e)
  | _ => True

/-- Every error with which some parts refuse what they have satisfies `P`. -/
def RefuseAll (P : CompileError → Prop) (parts : List (Nat × Part)) : Prop :=
  ∀ part ∈ parts, part.2.Refuses P

theorem Part.refuses_ordinary (part : Part) : part.Refuses Ordinary := by
  unfold Part.Refuses
  split
  · exact fun _ => checkOperands_error
  · exact fun _ => checkArguments_error
  · trivial

section

variable {P : CompileError → Prop} {parts parts' : List (Nat × Part)}

theorem refuseAll_cons {part : Nat × Part} :
    RefuseAll P (part :: parts) ↔ part.2.Refuses P ∧ RefuseAll P parts :=
  List.forall_mem_cons

theorem refuseAll_append :
    RefuseAll P (parts ++ parts') ↔ RefuseAll P parts ∧ RefuseAll P parts' :=
  List.forall_mem_append

theorem RefuseAll.left (h : RefuseAll P (parts ++ parts')) : RefuseAll P parts :=
  (refuseAll_append.1 h).1

theorem RefuseAll.right (h : RefuseAll P (parts ++ parts')) : RefuseAll P parts' :=
  (refuseAll_append.1 h).2

end

/-! ### Steps of binding -/

theorem throws_noteIf {α : Type} {P : CompileError → Prop} (c : Bool) (event : Event)
    {next : BindM α} (h : Throws P next) :
    Throws P (if c then (do BindM.note event; next) else next) := by
  cases c with
  | false => exact h
  | true => exact (Throws.note event).bind fun _ => h

mutual

/-- The check of a field set only fails with what is unknown. -/
theorem throws_checkFieldSet (catalog : Catalog) (schema : Schema) (set : FieldSet) :
    Throws (fun e => e.isUnknown = true) (checkFieldSet catalog schema set) := by
  match set with
  | .mk fields nested =>
    rw [checkFieldSet]
    split
    · exact .throw rfl
    · exact throws_checkNested catalog schema fields nested

theorem throws_checkNested (catalog : Catalog) (schema : Schema) (fields : List String)
    (nested : List NestedSelect) :
    Throws (fun e => e.isUnknown = true) (checkNested catalog schema fields nested) := by
  match nested with
  | [] => exact .pure _
  | .mk name kind set :: rest =>
    rw [checkNested]
    split
    · exact .throw rfl
    · split
      · exact .throw rfl
      · refine throws_noteIf _ _ (throws_noteIf _ _ ?_)
        exact (throws_checkFieldSet catalog _ set).bind fun _ =>
          throws_checkNested catalog schema fields rest

end

section

variable {P : CompileError → Prop} (hapart : ∀ e, Apart e → P e)
include hapart

theorem throws_binding {α : Type} (x : Except BindError α) :
    Throws P (BindM.ofExcept .binding x) :=
  .ofExcept fun _ _ => hapart _ rfl

theorem throws_cast {α : Type} (x : Except CastError α) : Throws P (BindM.ofExcept .cast x) :=
  .ofExcept fun _ _ => hapart _ rfl

theorem throws_aliasing {α : Type} (x : Except AliasError α) :
    Throws P (BindM.ofExcept .aliasing x) :=
  .ofExcept fun _ _ => hapart _ rfl

theorem throws_bindProjection (ctx : Context) (p : Projection) : Throws P (p.bind ctx) := by
  refine (throws_binding hapart _).bind fun found => ?_
  obtain ⟨slot, source⟩ := found
  dsimp only
  split
  · have hset := throws_checkFieldSet ctx.catalog
    exact ((hset _ p.set).imp fun e he => hapart e (apart_of_isUnknown e he)).bind fun _ => .pure _
  · exact .pure _

end

section

variable {P : CompileError → Prop}

theorem throws_assign (p : Param) : Throws P p.assign :=
  (Throws.takeIndices 1).bind fun _ => .pure _

theorem throws_assignTable (table : ValuesTable) : Throws P table.assign :=
  (Throws.takeIndices table.paramCount).bind fun _ => .pure _

theorem throws_assignArg (arg : FragmentArg) : Throws P arg.assign := by
  obtain ⟨role, e⟩ := arg
  cases role with
  | splice =>
    cases e with
    | param p => exact (throws_assign p).bind fun _ => .pure _
    | _ => exact .pure _
  | _ => exact .pure _

end

/-! ### The induction

If the errors that have nothing to do with operands and arguments have a property, and those with
which the parts of a tree refuse theirs, then all errors of binding the tree have it.
-/

section

variable {P : CompileError → Prop} (hapart : ∀ e, Apart e → P e)
include hapart

-- Some of the theorems use the hypothesis through the others only.
set_option linter.unusedSectionVars false

mutual

theorem Expr.throws_of_refuseAll (ctx : Context) (o : Bool) (level : Nat) (e : Expr)
    (h : RefuseAll P (e.parts level)) : Throws P (e.bind ctx o) := by
  rw [Expr.parts.eq_def] at h
  obtain ⟨hself, h⟩ := refuseAll_cons.1 h
  match e with
  | .literal v => exact .pure _
  | .param p => exact (throws_assign p).bind fun _ => .pure _
  | .field f => exact (throws_binding hapart _).bind fun _ => .pure _
  | .binding r => exact (throws_binding hapart _).bind fun _ => .pure _
  | .parentBinding r => exact (throws_binding hapart _).bind fun _ => .pure _
  | .operator op operands =>
    exact (Throws.ofExcept hself).bind fun _ =>
      (throws_bindAll ctx false level operands h).bind fun _ => .pure _
  | .aggregate kind args distinct filter =>
    exact (Throws.ofExcept hself).bind fun _ =>
      (throws_bindAll ctx false level args h.left).bind fun _ =>
        (throws_bindOption ctx false level filter h.right).bind fun _ => .pure _
  | .fragment text parts args =>
    exact (Throws.ofExcept fun _ he => hapart _ (process_error he)).bind fun _ =>
      (throws_bindArgs ctx level args h).bind fun _ => .pure _
  | .cast value target resolved =>
    exact (Expr.throws_of_refuseAll ctx false level value h).bind fun _ =>
      (throws_cast hapart _).bind fun _ => (throws_cast hapart _).bind fun _ => .pure _
  | .subquery kind query =>
    exact (Query.throws_of_refuseAll ctx (level + 1) query h).bind fun _ => .pure _
  | .values table =>
    exact (Throws.ofExcept fun _ he => hapart _ (validate_error he)).bind fun _ =>
      (throws_assignTable _).bind fun _ => .pure _
  | .projection kind p => exact (throws_bindProjection hapart ctx p).bind fun _ => .pure _
  | .merge left right =>
    exact (Expr.throws_of_refuseAll ctx o level left h.left).bind fun _ =>
      (Expr.throws_of_refuseAll ctx o level right h.right).bind fun _ => .pure _
  | .aliased value name =>
    cases o with
    | false => exact .throw (hapart _ rfl)
    | true => exact (Expr.throws_of_refuseAll ctx false level value h).bind fun _ => .pure _
  | .aliasRef name => exact (throws_aliasing hapart _).bind fun _ => .pure _
  | .jsonPath base path =>
    exact (Expr.throws_bindAccess ctx level base h.left).bind fun _ =>
      (throws_bindPath ctx level path h.right).bind fun _ => .pure _
  | .interval count unit =>
    exact (Expr.throws_of_refuseAll ctx false level count h).bind fun _ => .pure _
  | .tuple items => exact (throws_bindAll ctx o level items h).bind fun _ => .pure _
  | .mapping entries => exact (throws_bindEntries ctx o level entries h).bind fun _ => .pure _
termination_by structural e

theorem Expr.throws_bindAccess (ctx : Context) (level : Nat) (e : Expr)
    (h : RefuseAll P (e.parts level)) : Throws P (e.bindAccess ctx) := by
  rw [Expr.parts.eq_def] at h
  replace h := (refuseAll_cons.1 h).2
  match e with
  | .field f => exact (throws_binding hapart _).bind fun _ => .pure _
  | .jsonPath base path =>
    exact (Expr.throws_bindAccess ctx level base h.left).bind fun _ =>
      (throws_bindPath ctx level path h.right).bind fun _ => .pure _
  | .literal _ | .param _ | .binding _ | .parentBinding _ | .operator _ _ | .aggregate _ _ _ _
  | .fragment _ _ _ | .cast _ _ _ | .subquery _ _ | .values _ | .projection _ _ | .merge _ _
  | .aliased _ _ | .aliasRef _ | .interval _ _ | .tuple _ | .mapping _ =>
    exact .throw (hapart _ rfl)
termination_by structural e

theorem throws_bindAll (ctx : Context) (o : Bool) (level : Nat) (es : List Expr)
    (h : RefuseAll P (partsAll level es)) : Throws P (bindAll ctx o es) := by
  match es with
  | [] => exact .pure _
  | e :: rest =>
    rw [partsAll] at h
    exact (Expr.throws_of_refuseAll ctx o level e h.left).bind fun _ =>
      (throws_bindAll ctx o level rest h.right).bind fun _ => .pure _
termination_by structural es

theorem throws_bindEntries (ctx : Context) (o : Bool) (level : Nat) (entries : List (String × Expr))
    (h : RefuseAll P (partsEntries level entries)) : Throws P (bindEntries ctx o entries) := by
  match entries with
  | [] => exact .pure _
  | (key, e) :: rest =>
    rw [partsEntries] at h
    exact (Expr.throws_of_refuseAll ctx o level e h.left).bind fun _ =>
      (throws_bindEntries ctx o level rest h.right).bind fun _ => .pure _
termination_by structural entries

theorem throws_bindOption (ctx : Context) (o : Bool) (level : Nat) (e : Option Expr)
    (h : RefuseAll P (partsOption level e)) : Throws P (bindOption ctx o e) := by
  match e with
  | none => exact .pure _
  | some e => exact (Expr.throws_of_refuseAll ctx o level e h).bind fun _ => .pure _
termination_by structural e

theorem throws_bindArgs (ctx : Context) (level : Nat) (args : List FragmentArg)
    (h : RefuseAll P (partsArgs level args)) : Throws P (bindArgs ctx args) := by
  match args with
  | [] => exact .pure _
  | .mk .parameter e :: rest =>
    rw [partsArgs] at h
    exact (Expr.throws_of_refuseAll ctx false level e h.left).bind fun _ =>
      (throws_bindArgs ctx level rest h.right).bind fun _ => .pure _
  | .mk .identifier e :: rest | .mk .constant e :: rest | .mk .splice e :: rest =>
    rw [partsArgs] at h
    exact (throws_assignArg _).bind fun _ =>
      (throws_bindArgs ctx level rest h.right).bind fun _ => .pure _
termination_by structural args

theorem throws_bindPath (ctx : Context) (level : Nat) (path : List PathStep)
    (h : RefuseAll P (partsPath level path)) : Throws P (bindPath ctx path) := by
  match path with
  | [] => exact .pure _
  | .computed e :: rest =>
    rw [partsPath] at h
    exact (Expr.throws_of_refuseAll ctx false level e h.left).bind fun _ =>
      (throws_bindPath ctx level rest h.right).bind fun _ => .pure _
  | .key name :: rest => exact (throws_bindPath ctx level rest h).bind fun _ => .pure _
  | .index i :: rest => exact (throws_bindPath ctx level rest h).bind fun _ => .pure _
termination_by structural path

theorem throws_bindWheres (ctx : Context) (level : Nat) (wheres : List Expr)
    (h : RefuseAll P (partsAll level wheres)) : Throws P (bindWheres ctx wheres) := by
  match wheres with
  | [] => exact .pure _
  | e :: rest =>
    rw [partsAll] at h
    rw [bindWheres]
    have hrest : Throws P (do
        let e ← e.bind ctx false
        return e :: (← bindWheres ctx rest)) :=
      (Expr.throws_of_refuseAll ctx false level e h.left).bind fun _ =>
        (throws_bindWheres ctx level rest h.right).bind fun _ => .pure _
    split
    · exact Throws.bind (.throw (hapart _ rfl)) fun _ => hrest
    · exact hrest
termination_by structural wheres

theorem throws_bindTerms (ctx : Context) (level : Nat) (terms : List OrderTerm)
    (h : RefuseAll P (partsTerms level terms)) : Throws P (bindTerms ctx terms) := by
  match terms with
  | [] => exact .pure _
  | .mk e direction :: rest =>
    rw [partsTerms] at h
    exact (Expr.throws_of_refuseAll ctx false level e h.left).bind fun _ =>
      (throws_bindTerms ctx level rest h.right).bind fun _ => .pure _
termination_by structural terms

theorem Source.throws_bind (ctx : Context) (level : Nat) (table : Option ValuesTable)
    (source : Source) (h : RefuseAll P (source.parts level)) :
    Throws P (source.bind ctx table) := by
  match source with
  | .mk (.values declared) name => exact (throws_assignTable _).bind fun _ => .pure _
  | .mk (.subquery query) name =>
    exact (Query.throws_of_refuseAll ctx (level + 1) query h).bind fun _ => .pure _
  | .mk (.fragment e) name =>
    rw [Source.bind]
    split
    · exact (Expr.throws_of_refuseAll ctx false level e h).bind fun _ => .pure _
    · exact .throw (hapart _ rfl)
  | .mk (.schema _) name => exact .pure _
  | .mk (.table _) name => exact .pure _
termination_by structural source

theorem throws_bindJoins (ctx : Context) (level : Nat) (tables : List (Option ValuesTable))
    (joins : List Join) (h : RefuseAll P (partsJoins level joins)) :
    Throws P (bindJoins ctx tables joins) := by
  match joins with
  | [] => exact .pure _
  | .mk kind source on :: rest =>
    rw [partsJoins] at h
    exact (Source.throws_bind ctx level _ source h.left.left).bind fun _ =>
      (throws_bindOption ctx false level on h.left.right).bind fun _ =>
        (throws_bindJoins ctx level _ rest h.right).bind fun _ => .pure _
termination_by structural joins

theorem Query.throws_of_refuseAll (ctx : Context) (level : Nat) (query : Query)
    (h : RefuseAll P (query.parts level)) : Throws P (query.bind ctx) := by
  match query with
  | .mk source joins wheres select groupBy having orderBy limit offset distinct =>
    rw [Query.parts.eq_def] at h
    replace h := (refuseAll_cons.1 h).2
    simp only [refuseAll_append] at h
    obtain ⟨⟨⟨⟨⟨⟨⟨⟨hsource, hjoins⟩, hwheres⟩, hselect⟩, hgroupBy⟩, hhaving⟩, horderBy⟩, hlimit⟩,
      hoffset⟩ := h
    rw [Query.bind]
    split
    · exact .throw (hapart _ rfl)
    refine (Throws.note _).bind fun _ => .finallyNote ?_
    refine Throws.bind (.ofExcept fun _ h => hapart _ ?_) fun _ => ?_
    · exact @declareSources_error _ _ _ (source :: joins.map Join.source) _ h
    refine (throws_aliasing hapart _).bind fun _ => ?_
    refine (Throws.note _).bind fun _ => ?_
    refine (throws_bindOption _ true level select hselect).bind fun _ => ?_
    refine (Source.throws_bind _ level _ source hsource).bind fun _ => ?_
    refine (throws_bindJoins _ level _ joins hjoins).bind fun _ => ?_
    refine (throws_bindWheres _ level wheres hwheres).bind fun _ => ?_
    refine (throws_bindAll _ false level groupBy hgroupBy).bind fun _ => ?_
    refine (throws_bindAll _ false level having hhaving).bind fun _ => ?_
    refine (throws_bindTerms _ level orderBy horderBy).bind fun _ => ?_
    refine (throws_bindOption _ false level limit hlimit).bind fun _ => ?_
    refine (throws_bindOption _ false level offset hoffset).bind fun _ => ?_
    refine (Throws.noteAll _).bind fun _ => ?_
    exact Throws.get.bind fun _ => (Throws.note _).bind fun _ => .pure _
termination_by structural query

end

end

/-- All errors of binding are ordinary. -/
theorem Query.throws_ordinary (ctx : Context) (query : Query) : Throws Ordinary (query.bind ctx) :=
  Query.throws_of_refuseAll (fun _ => Apart.ordinary) ctx 0 query
    fun part _ => part.2.refuses_ordinary

/-- No error of binding speaks of the indices of parameters. -/
theorem Query.throws_bind (ctx : Context) (query : Query) : Throws Other (query.bind ctx) :=
  (Query.throws_ordinary ctx query).imp fun _ => Ordinary.other

end QueryCompiler
