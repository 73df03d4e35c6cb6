import QueryCompiler.Compilation

/-!
# Brackets in the journal

Every query that is entered is left again, whatever happens inside it. So the events of a step of
binding are well bracketed, also if the step fails: what is noted of entering and leaving queries is
nested like the queries, and each of these events gives the depth at which it stands.
-/

namespace QueryCompiler

/-- Whether an event says that a query was entered or left. -/
def Event.isScope : Event → Bool
  | .enteredScope _ | .leftScope _ _ => true
  | _ => false

/-- Events that, while so many queries are open, leave every query that they enter. -/
inductive Bracketed : Nat → List Event → Prop where
  | nil {depth : Nat} : Bracketed depth []
  | plain {depth : Nat} {event : Event} {rest : List Event} (hevent : event.isScope = false)
      (hrest : Bracketed depth rest) : Bracketed depth (event :: rest)
  | scope {depth sources : Nat} {inside rest : List Event} (hinside : Bracketed (depth + 1) inside)
      (hrest : Bracketed depth rest) :
      Bracketed depth (.enteredScope (depth + 1) :: (inside ++ .leftScope depth sources :: rest))

theorem Bracketed.append {depth : Nat} {events events' : List Event} (h : Bracketed depth events)
    (h' : Bracketed depth events') : Bracketed depth (events ++ events') := by
  induction h with
  | nil => exact h'
  | plain hevent _ ih => exact .plain hevent (ih h')
  | scope hinside _ _ ih =>
    rw [List.cons_append, List.append_assoc, List.cons_append]
    exact .scope hinside (ih h')

/-! ### Notes on merging -/

/-- Events none of which enters or leaves a query. -/
def AllPlain (events : List Event) : Prop := ∀ event ∈ events, event.isScope = false

theorem AllPlain.nil : AllPlain [] := by
  simp [AllPlain]

theorem AllPlain.append {events events' : List Event} (h : AllPlain events)
    (h' : AllPlain events') : AllPlain (events ++ events') :=
  List.forall_mem_append.2 ⟨h, h'⟩

theorem absorbNotes_plain (operand : Expr) (merged : List Expr) :
    AllPlain (absorbNotes operand merged) := by
  induction merged with
  | nil => exact .nil
  | cons e rest ih =>
    unfold absorbNotes
    split
    · split
      · exact List.forall_mem_singleton.2 rfl
      · exact ih
    · exact ih

theorem mergeNotes_plain (merged operands : List Expr) : AllPlain (mergeNotes merged operands) := by
  induction operands generalizing merged with
  | nil => exact .nil
  | cons operand rest ih => exact (absorbNotes_plain operand merged).append (ih _)

mutual

theorem Expr.chainNotes_plain (e : Expr) : AllPlain e.chainNotes := by
  match e with
  | .merge left right => exact (Expr.chainNotes_plain left).append (Expr.chainNotes_plain right)
  | .tuple items => exact notesAll_plain items
  | .mapping entries => exact notesEntries_plain entries
  | .aliased value _ => exact (Expr.chainNotes_plain value).append (mergeNotes_plain [] value.chain)
  | .literal _ | .param _ | .field _ | .binding _ | .parentBinding _ | .operator _ _
  | .aggregate _ _ _ _ | .fragment _ _ _ | .cast _ _ _ | .subquery _ _ | .values _
  | .projection _ _ | .aliasRef _ | .jsonPath _ _ | .interval _ _ => exact .nil
termination_by structural e

theorem notesAll_plain (es : List Expr) : AllPlain (notesAll es) := by
  match es with
  | [] => exact .nil
  | e :: rest =>
    exact ((Expr.chainNotes_plain e).append (mergeNotes_plain [] e.chain)).append
      (notesAll_plain rest)
termination_by structural es

theorem notesEntries_plain (entries : List (String × Expr)) : AllPlain (notesEntries entries) := by
  match entries with
  | [] => exact .nil
  | (_, e) :: rest =>
    exact ((Expr.chainNotes_plain e).append (mergeNotes_plain [] e.chain)).append
      (notesEntries_plain rest)
termination_by structural entries

end

theorem selectNotes_plain (select : Option Expr) :
    AllPlain ((select.map Expr.normalizeNotes).getD []) := by
  cases select with
  | none => exact .nil
  | some e => exact (Expr.chainNotes_plain e).append (mergeNotes_plain [] e.chain)

/-! ### Steps of binding -/

/-- The state in which a step ends, whether it succeeds or not. -/
def finalState {ε σ α : Type} : EStateM.Result ε σ α → σ
  | .ok _ s | .error _ s => s

namespace BindM

variable {α β ε : Type} {depth : Nat}

/-- While so many queries are open, a step only notes well bracketed events. -/
def Brackets (depth : Nat) (m : BindM α) : Prop :=
  ∀ s, ∃ events, Bracketed depth events ∧
    (finalState (m s)).journal = events.reverse ++ s.journal

namespace Brackets

theorem pure (a : α) : Brackets depth (pure a) := fun _ => ⟨[], .nil, rfl⟩

theorem throw (e : CompileError) : Brackets depth (throw e : BindM α) := fun _ => ⟨[], .nil, rfl⟩

theorem get : Brackets depth (get : BindM BindState) := fun _ => ⟨[], .nil, rfl⟩

theorem takeIndices (count : Nat) : Brackets depth (takeIndices count) := fun _ => ⟨[], .nil, rfl⟩

theorem ofExcept (wrap : ε → CompileError) (x : Except ε α) :
    Brackets depth (ofExcept wrap x) := by
  cases x with
  | ok a => exact .pure a
  | error e => exact .throw (wrap e)

theorem note {event : Event} (h : event.isScope = false) : Brackets depth (note event) :=
  fun _ => ⟨[event], .plain h .nil, rfl⟩

theorem bind {m : BindM α} {f : α → BindM β} (hm : Brackets depth m)
    (hf : ∀ a, Brackets depth (f a)) : Brackets depth (m >>= f) := by
  intro s
  obtain ⟨events, hevents, hjournal⟩ := hm s
  change ∃ events, _ ∧ (finalState (EStateM.bind m f s)).journal = _
  rw [EStateM.bind]
  cases hms : m s with
  | error e t =>
    rw [hms] at hjournal
    exact ⟨events, hevents, hjournal⟩
  | ok a t =>
    rw [hms] at hjournal
    change t.journal = _ at hjournal
    obtain ⟨events', hevents', hjournal'⟩ := hf a t
    refine ⟨events ++ events', hevents.append hevents', ?_⟩
    rw [List.reverse_append, List.append_assoc, ← hjournal]
    exact hjournal'

theorem noteAll {events : List Event} (h : AllPlain events) : Brackets depth (noteAll events) := by
  induction events with
  | nil => exact .pure ()
  | cons event rest ih =>
    obtain ⟨hevent, hrest⟩ := List.forall_mem_cons.1 h
    exact (Brackets.note hevent).bind fun _ => ih hrest

theorem noteIf {event : Event} (h : event.isScope = false) (c : Bool) {next : BindM α}
    (hnext : Brackets depth next) :
    Brackets depth (if c then (do BindM.note event; next) else next) := by
  cases c with
  | false => exact hnext
  | true => exact (Brackets.note h).bind fun _ => hnext

/-- What is noted inside a query stands between the events of entering and of leaving it. -/
theorem framed {sources : Nat} {m : BindM α} (hm : Brackets (depth + 1) m) :
    Brackets depth (do
      BindM.note (.enteredScope (depth + 1))
      BindM.finallyNote (.leftScope depth sources) m) := by
  intro s
  obtain ⟨inside, hinside, hjournal⟩ := hm (s.note (.enteredScope (depth + 1)))
  refine ⟨.enteredScope (depth + 1) :: (inside ++ [.leftScope depth sources]),
    .scope hinside .nil, ?_⟩
  change (finalState (BindM.finallyNote (.leftScope depth sources) m
    (s.note (.enteredScope (depth + 1))))).journal = _
  rw [BindM.finallyNote]
  cases hms : m (s.note (.enteredScope (depth + 1))) with
  | ok a t =>
    rw [hms] at hjournal
    simpa [finalState, BindState.note] using hjournal
  | error e t =>
    rw [hms] at hjournal
    simpa [finalState, BindState.note] using hjournal

end Brackets

end BindM

open BindM

theorem Param.brackets_assign {depth : Nat} (p : Param) : Brackets depth p.assign :=
  (Brackets.takeIndices 1).bind fun _ => .pure _

theorem ValuesTable.brackets_assign {depth : Nat} (table : ValuesTable) :
    Brackets depth table.assign :=
  (Brackets.takeIndices table.paramCount).bind fun _ => .pure _

theorem FragmentArg.brackets_assign {depth : Nat} (arg : FragmentArg) :
    Brackets depth arg.assign := by
  obtain ⟨role, e⟩ := arg
  cases role with
  | splice =>
    cases e with
    | param p => exact p.brackets_assign.bind fun _ => .pure _
    | _ => exact .pure _
  | _ => exact .pure _

mutual

theorem brackets_checkFieldSet {depth : Nat} (catalog : Catalog) (schema : Schema)
    (set : FieldSet) : Brackets depth (checkFieldSet catalog schema set) := by
  match set with
  | .mk fields nested =>
    rw [checkFieldSet]
    split
    · exact .throw _
    · exact brackets_checkNested catalog schema fields nested

theorem brackets_checkNested {depth : Nat} (catalog : Catalog) (schema : Schema)
    (fields : List String) (nested : List NestedSelect) :
    Brackets depth (checkNested catalog schema fields nested) := by
  match nested with
  | [] => exact .pure _
  | .mk name kind set :: rest =>
    rw [checkNested]
    split
    · exact .throw _
    · split
      · exact .throw _
      · refine .noteIf rfl _ (.noteIf rfl _ ?_)
        exact (brackets_checkFieldSet catalog _ set).bind fun _ =>
          brackets_checkNested catalog schema fields rest

end

theorem Projection.brackets_bind (ctx : Context) (p : Projection) :
    Brackets ctx.scopes.length (p.bind ctx) := by
  refine (Brackets.ofExcept _ _).bind fun found => ?_
  obtain ⟨slot, source⟩ := found
  dsimp only
  cases source.shape with
  | schema schema => exact (brackets_checkFieldSet ctx.catalog schema p.set).bind fun _ => .pure _
  | schemaless _ | values _ | untyped => exact .pure _

mutual

theorem Expr.brackets_bind (ctx : Context) (o : Bool) (e : Expr) :
    Brackets ctx.scopes.length (e.bind ctx o) := by
  match e with
  | .literal v => exact .pure _
  | .param p => exact p.brackets_assign.bind fun _ => .pure _
  | .field f => exact (Brackets.ofExcept _ _).bind fun _ => .pure _
  | .binding r => exact (Brackets.ofExcept _ _).bind fun _ => .pure _
  | .parentBinding r => exact (Brackets.ofExcept _ _).bind fun _ => .pure _
  | .operator op operands =>
    exact (Brackets.ofExcept _ _).bind fun _ =>
      (brackets_bindAll ctx false operands).bind fun _ => .pure _
  | .aggregate kind args distinct filter =>
    exact (Brackets.ofExcept _ _).bind fun _ =>
      (brackets_bindAll ctx false args).bind fun _ =>
        (brackets_bindOption ctx false filter).bind fun _ => .pure _
  | .fragment text parts args =>
    exact (Brackets.ofExcept _ _).bind fun _ =>
      (brackets_bindArgs ctx args).bind fun _ => .pure _
  | .cast value target resolved =>
    exact (Expr.brackets_bind ctx false value).bind fun _ =>
      (Brackets.ofExcept _ _).bind fun _ => (Brackets.ofExcept _ _).bind fun _ => .pure _
  | .subquery kind query => exact (Query.brackets_bind ctx query).bind fun _ => .pure _
  | .values table =>
    exact (Brackets.ofExcept _ _).bind fun table => table.brackets_assign.bind fun _ => .pure _
  | .projection kind p => exact (p.brackets_bind ctx).bind fun _ => .pure _
  | .merge left right =>
    exact (Expr.brackets_bind ctx o left).bind fun _ =>
      (Expr.brackets_bind ctx o right).bind fun _ => .pure _
  | .aliased value name =>
    cases o with
    | false => exact .throw _
    | true => exact (Expr.brackets_bind ctx false value).bind fun _ => .pure _
  | .aliasRef name => exact (Brackets.ofExcept _ _).bind fun _ => .pure _
  | .jsonPath base path =>
    exact (Expr.brackets_bindAccess ctx base).bind fun _ =>
      (brackets_bindPath ctx path).bind fun _ => .pure _
  | .interval count unit => exact (Expr.brackets_bind ctx false count).bind fun _ => .pure _
  | .tuple items => exact (brackets_bindAll ctx o items).bind fun _ => .pure _
  | .mapping entries => exact (brackets_bindEntries ctx o entries).bind fun _ => .pure _
termination_by structural e

theorem Expr.brackets_bindAccess (ctx : Context) (e : Expr) :
    Brackets ctx.scopes.length (e.bindAccess ctx) := by
  match e with
  | .field f => exact (Brackets.ofExcept _ _).bind fun _ => .pure _
  | .jsonPath base path =>
    exact (Expr.brackets_bindAccess ctx base).bind fun _ =>
      (brackets_bindPath ctx path).bind fun _ => .pure _
  | .literal _ | .param _ | .binding _ | .parentBinding _ | .operator _ _ | .aggregate _ _ _ _
  | .fragment _ _ _ | .cast _ _ _ | .subquery _ _ | .values _ | .projection _ _ | .merge _ _
  | .aliased _ _ | .aliasRef _ | .interval _ _ | .tuple _ | .mapping _ => exact .throw _
termination_by structural e

theorem brackets_bindAll (ctx : Context) (o : Bool) (es : List Expr) :
    Brackets ctx.scopes.length (bindAll ctx o es) := by
  match es with
  | [] => exact .pure _
  | e :: rest =>
    exact (Expr.brackets_bind ctx o e).bind fun _ =>
      (brackets_bindAll ctx o rest).bind fun _ => .pure _
termination_by structural es

theorem brackets_bindEntries (ctx : Context) (o : Bool) (entries : List (String × Expr)) :
    Brackets ctx.scopes.length (bindEntries ctx o entries) := by
  match entries with
  | [] => exact .pure _
  | (key, e) :: rest =>
    exact (Expr.brackets_bind ctx o e).bind fun _ =>
      (brackets_bindEntries ctx o rest).bind fun _ => .pure _
termination_by structural entries

theorem brackets_bindOption (ctx : Context) (o : Bool) (e : Option Expr) :
    Brackets ctx.scopes.length (bindOption ctx o e) := by
  match e with
  | none => exact .pure _
  | some e => exact (Expr.brackets_bind ctx o e).bind fun _ => .pure _
termination_by structural e

theorem brackets_bindArgs (ctx : Context) (args : List FragmentArg) :
    Brackets ctx.scopes.length (bindArgs ctx args) := by
  match args with
  | [] => exact .pure _
  | .mk .parameter e :: rest =>
    exact (Expr.brackets_bind ctx false e).bind fun _ =>
      (brackets_bindArgs ctx rest).bind fun _ => .pure _
  | .mk .identifier e :: rest | .mk .constant e :: rest | .mk .splice e :: rest =>
    exact (FragmentArg.brackets_assign _).bind fun _ =>
      (brackets_bindArgs ctx rest).bind fun _ => .pure _
termination_by structural args

theorem brackets_bindPath (ctx : Context) (path : List PathStep) :
    Brackets ctx.scopes.length (bindPath ctx path) := by
  match path with
  | [] => exact .pure _
  | .computed e :: rest =>
    exact (Expr.brackets_bind ctx false e).bind fun _ =>
      (brackets_bindPath ctx rest).bind fun _ => .pure _
  | .key name :: rest => exact (brackets_bindPath ctx rest).bind fun _ => .pure _
  | .index i :: rest => exact (brackets_bindPath ctx rest).bind fun _ => .pure _
termination_by structural path

theorem brackets_bindWheres (ctx : Context) (wheres : List Expr) :
    Brackets ctx.scopes.length (bindWheres ctx wheres) := by
  match wheres with
  | [] => exact .pure _
  | e :: rest =>
    rw [bindWheres]
    have hrest : Brackets ctx.scopes.length (do
        let e ← e.bind ctx false
        return e :: (← bindWheres ctx rest)) :=
      (Expr.brackets_bind ctx false e).bind fun _ =>
        (brackets_bindWheres ctx rest).bind fun _ => .pure _
    split
    · exact Brackets.bind (.throw _) fun _ => hrest
    · exact hrest
termination_by structural wheres

theorem brackets_bindTerms (ctx : Context) (terms : List OrderTerm) :
    Brackets ctx.scopes.length (bindTerms ctx terms) := by
  match terms with
  | [] => exact .pure _
  | .mk e direction :: rest =>
    exact (Expr.brackets_bind ctx false e).bind fun _ =>
      (brackets_bindTerms ctx rest).bind fun _ => .pure _
termination_by structural terms

theorem Source.brackets_bind (ctx : Context) (table : Option ValuesTable) (source : Source) :
    Brackets ctx.scopes.length (source.bind ctx table) := by
  match source with
  | .mk (.values declared) name =>
    exact (ValuesTable.brackets_assign _).bind fun _ => .pure _
  | .mk (.subquery query) name => exact (Query.brackets_bind ctx query).bind fun _ => .pure _
  | .mk (.fragment e) name =>
    rw [Source.bind]
    split
    · exact (Expr.brackets_bind ctx false e).bind fun _ => .pure _
    · exact .throw _
  | .mk (.schema _) name => exact .pure _
  | .mk (.table _) name => exact .pure _
termination_by structural source

theorem brackets_bindJoins (ctx : Context) (tables : List (Option ValuesTable))
    (joins : List Join) : Brackets ctx.scopes.length (bindJoins ctx tables joins) := by
  match joins with
  | [] => exact .pure _
  | .mk kind source on :: rest =>
    exact (Source.brackets_bind ctx _ source).bind fun _ =>
      (brackets_bindOption ctx false on).bind fun _ =>
        (brackets_bindJoins ctx _ rest).bind fun _ => .pure _
termination_by structural joins

/-- The events of binding a query are well bracketed, also if it fails. -/
theorem Query.brackets_bind (ctx : Context) (query : Query) :
    Brackets ctx.scopes.length (query.bind ctx) := by
  match query with
  | .mk source joins wheres select groupBy having orderBy limit offset distinct =>
    rw [Query.bind]
    split
    · exact .throw _
    refine .framed ?_
    refine (Brackets.ofExcept _ _).bind fun _ => (Brackets.ofExcept _ _).bind fun aliases => ?_
    refine (Brackets.note rfl).bind fun _ => ?_
    let scope := (declareSources ctx.catalog ctx.scopes .empty (source :: joins.map Join.source)).2
    let inside : Context := ⟨ctx.catalog, ctx.config, scope :: ctx.scopes, aliases⟩
    change Brackets inside.scopes.length _
    refine (brackets_bindOption _ true select).bind fun _ => ?_
    refine (Source.brackets_bind _ _ source).bind fun _ => ?_
    refine (brackets_bindJoins _ _ joins).bind fun _ => ?_
    refine (brackets_bindWheres _ wheres).bind fun _ => ?_
    refine (brackets_bindAll _ false groupBy).bind fun _ => ?_
    refine (brackets_bindAll _ false having).bind fun _ => ?_
    refine (brackets_bindTerms _ orderBy).bind fun _ => ?_
    refine (brackets_bindOption _ false limit).bind fun _ => ?_
    refine (brackets_bindOption _ false offset).bind fun _ => ?_
    refine (Brackets.noteAll (selectNotes_plain _)).bind fun _ => ?_
    exact Brackets.get.bind fun _ => (Brackets.note rfl).bind fun _ => .pure _
termination_by structural query

end

end QueryCompiler
