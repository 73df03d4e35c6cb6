import Mathlib.Data.List.Induction
import QueryCompiler.Proofs.Binding.Aliases
import QueryCompiler.Proofs.Binding.Settling
import QueryCompiler.Proofs.ParamTypes.Bound

/-!
# Nested paths

A path into a document may start from what another path leads to. However deep they are nested, such
paths are bound as one: the outermost path that is left is taken off the nest and put in front of
the steps that were taken off before, until the base of the nest is reached.
-/

namespace QueryCompiler

/-! ### Flattening -/

def Expr.isPath : Expr → Bool
  | .jsonPath _ _ => true
  | _ => false

/-- Some paths applied one after another, the first of them to the base. -/
def Expr.nest (base : Expr) (paths : List (List PathStep)) : Expr := paths.foldl .jsonPath base

/-- Takes the paths off a nest, given the steps that were taken off before. -/
def Expr.flatten : Expr → List PathStep → Expr × List PathStep
  | .jsonPath base inner, path => base.flatten (inner ++ path)
  | base, path => (base, path)

namespace Expr

@[simp] theorem nest_append_singleton (base : Expr) (paths : List (List PathStep))
    (path : List PathStep) : base.nest (paths ++ [path]) = .jsonPath (base.nest paths) path :=
  List.foldl_concat ..

theorem flatten_of_not_isPath {base : Expr} (h : base.isPath = false) (path : List PathStep) :
    base.flatten path = (base, path) := by
  cases base with
  | jsonPath _ _ => cases h
  | _ => rfl

/-- The nest shrinks from the outside and the steps grow to the front, so that no step is lost. -/
theorem flatten_nest {base : Expr} (h : base.isPath = false) (paths : List (List PathStep))
    (path : List PathStep) : (base.nest paths).flatten path = (base, paths.flatten ++ path) := by
  induction paths using List.reverseRecOn generalizing path with
  | nil => exact flatten_of_not_isPath h path
  | append_singleton paths inner ih =>
    rw [nest_append_singleton, flatten, ih, List.flatten_append, List.flatten_singleton,
      List.append_assoc]

end Expr

/-! ### Binding -/

theorem bindPath_append (ctx : Context) (path more : List PathStep) :
    bindPath ctx (path ++ more) = do
      let path ← bindPath ctx path
      let more ← bindPath ctx more
      return path ++ more := by
  induction path with
  | nil => simp [bindPath]
  | cons step rest ih => cases step <;> simp [bindPath, ih]

/-- Binds a path that starts from no other: its base, which must be a field, and then its steps. -/
def bindFlat (ctx : Context) : Expr → List PathStep → BindM Expr
  | .field f, path => do
    let f ← BindM.ofExcept .binding (ctx.scopes.bindField f)
    return .jsonPath (.field f) (← bindPath ctx path)
  | base, _ => throw (.invalid (.jsonBase base.kindName))

/-- The steps that are left over are bound after those of the nest. -/
theorem Expr.bindAccess_flatten (ctx : Context) (e : Expr) (path : List PathStep) :
    (do
      let (base, steps) ← e.bindAccess ctx
      return Expr.jsonPath base (steps ++ (← bindPath ctx path))) =
      bindFlat ctx (e.flatten path).1 (e.flatten path).2 := by
  match e with
  | .jsonPath base inner =>
    rw [Expr.flatten, ← Expr.bindAccess_flatten ctx base, bindPath_append]
    simp [Expr.bindAccess]
  | .field f => simp [Expr.bindAccess, Expr.flatten, bindFlat]
  | .literal _ | .param _ | .binding _ | .parentBinding _ | .operator _ _ | .aggregate _ _ _ _
  | .fragment _ _ _ | .cast _ _ _ | .subquery _ _ | .values _ | .projection _ _ | .merge _ _
  | .aliased _ _ | .aliasRef _ | .interval _ _ | .tuple _ | .mapping _ => rfl
termination_by structural e

/-- Binding a path is flattening it and then binding what comes of this. -/
theorem Expr.bind_jsonPath_flatten (ctx : Context) (o : Bool) (base : Expr) (path : List PathStep) :
    (Expr.jsonPath base path).bind ctx o =
      bindFlat ctx (base.flatten path).1 (base.flatten path).2 := by
  rw [Expr.bind, Expr.bindAccess_flatten]

/--
What binding makes of the steps of a path: each stays in its place, and what is computed at one is
bound in the state that the steps before it leave.
-/
inductive StepsBound (ctx : Context) :
    BindState → List PathStep → List PathStep → BindState → Prop where
  | nil {s : BindState} : StepsBound ctx s [] [] s
  | key {s s' : BindState} {name : String} {rest rest' : List PathStep}
      (hrest : StepsBound ctx s rest rest' s') :
      StepsBound ctx s (.key name :: rest) (.key name :: rest') s'
  | index {s s' : BindState} {i : Int64} {rest rest' : List PathStep}
      (hrest : StepsBound ctx s rest rest' s') :
      StepsBound ctx s (.index i :: rest) (.index i :: rest') s'
  | computed {s t s' : BindState} {e e' : Expr} {rest rest' : List PathStep}
      (he : e.bind ctx false s = .ok e' t) (hrest : StepsBound ctx t rest rest' s') :
      StepsBound ctx s (.computed e :: rest) (.computed e' :: rest') s'

section

variable {ctx : Context} {path path' : List PathStep} {s s' : BindState}

theorem bindPath_eq_ok : bindPath ctx path s = .ok path' s' ↔ StepsBound ctx s path path' s' := by
  constructor
  · intro h
    induction path generalizing path' s with
    | nil =>
      obtain ⟨rfl, rfl⟩ := bindPath_nil.1 h
      exact .nil
    | cons step rest ih =>
      cases step with
      | key name =>
        obtain ⟨rest', hrest, rfl⟩ := bindPath_key.1 h
        exact .key (ih hrest)
      | index i =>
        obtain ⟨rest', hrest, rfl⟩ := bindPath_index.1 h
        exact .index (ih hrest)
      | computed e =>
        obtain ⟨e', t, rest', he, hrest, rfl⟩ := bindPath_computed.1 h
        exact .computed he (ih hrest)
  · intro h
    induction h with
    | nil => exact bindPath_nil.2 ⟨rfl, rfl⟩
    | key _ ih => exact bindPath_key.2 ⟨_, ih, rfl⟩
    | index _ ih => exact bindPath_index.2 ⟨_, ih, rfl⟩
    | computed he _ ih => exact bindPath_computed.2 ⟨_, _, _, he, ih, rfl⟩

theorem bindFlat_eq_ok {base e' : Expr} :
    bindFlat ctx base path s = .ok e' s' ↔
      ∃ f g path', base = .field f ∧ ctx.scopes.bindField f = .ok g ∧
        e' = .jsonPath (.field g) path' ∧ StepsBound ctx s path path' s' := by
  constructor
  · intro h
    cases base with
    | field f =>
      simp only [bindFlat, BindM.bind_eq_ok, BindM.ofExcept_eq_ok, BindM.pure_eq_ok] at h
      obtain ⟨g, _, ⟨hfield, rfl⟩, path', _, hpath, rfl, rfl⟩ := h
      exact ⟨f, g, path', rfl, hfield, rfl, bindPath_eq_ok.1 hpath⟩
    | _ => cases h
  · rintro ⟨f, g, path', rfl, hfield, rfl, hsteps⟩
    simp only [bindFlat, BindM.bind_eq_ok, BindM.ofExcept_eq_ok, BindM.pure_eq_ok]
    exact ⟨g, s, ⟨hfield, rfl⟩, path', s', bindPath_eq_ok.2 hsteps, rfl, rfl⟩

/-- The parameters of a path keep their values, in the order in which the path is followed. -/
theorem StepsBound.values (h : StepsBound ctx s path path' s') :
    (paramsIn (carriersPath path')).map (·.value) = (paramsPath path).map (·.2.value) := by
  obtain ⟨htyped, hcarried⟩ := params_bindPath (bindPath_eq_ok.2 h)
  rw [hcarried, List.map_map]
  clear hcarried
  generalize paramsPath path = written, paramsPath path' = bound at htyped ⊢
  induction htyped with
  | nil => rfl
  | cons hhead _ ih => rw [List.map_cons, List.map_cons, ih, Function.comp_apply, hhead.value]

/-- The indices of a path are given out in the order in which the path is followed. -/
theorem StepsBound.consecutive (h : StepsBound ctx s path path' s')
    (hplaced : ∀ scope ∈ ctx.scopes, scope.Placed) :
    Consecutive s.nextParam (carriersPath path') s'.nextParam := by
  induction h with
  | nil => exact .nil _
  | key _ ih => exact ih
  | index _ ih => exact ih
  | computed he _ ih => exact (Expr.settled_of_bind ctx.at_own hplaced he).consecutive.append ih

end

/--
Taking the paths off a nest ends with its base and the steps of all paths, from those of the
innermost to those of the outermost, and binding the nest is binding these. It succeeds exactly if
the base is a field that can be bound and the steps can be bound one after another. The parameters
in the steps then keep their values and their order, and in scopes where every source stands at its
position this is the order in which they are numbered.
-/
theorem bind_nest (ctx : Context) (o : Bool) (base : Expr) (hbase : base.isPath = false)
    (paths : List (List PathStep)) (last : List PathStep) :
    (base.nest paths).flatten last = (base, paths.flatten ++ last) ∧
    (base.nest (paths ++ [last])).bind ctx o = bindFlat ctx base (paths.flatten ++ last) ∧
    (∀ s e' s', (base.nest (paths ++ [last])).bind ctx o s = .ok e' s' ↔
      ∃ f g path', base = .field f ∧ ctx.scopes.bindField f = .ok g ∧
        e' = .jsonPath (.field g) path' ∧ StepsBound ctx s (paths.flatten ++ last) path' s') ∧
    ∀ s path' s', StepsBound ctx s (paths.flatten ++ last) path' s' →
      (paramsIn (carriersPath path')).map (·.value) =
        (paramsPath (paths.flatten ++ last)).map (·.2.value) ∧
      ((∀ scope ∈ ctx.scopes, scope.Placed) →
        Consecutive s.nextParam (carriersPath path') s'.nextParam) := by
  have hflatten := Expr.flatten_nest hbase paths last
  have hbind : (base.nest (paths ++ [last])).bind ctx o =
      bindFlat ctx base (paths.flatten ++ last) := by
    rw [Expr.nest_append_singleton, Expr.bind_jsonPath_flatten, hflatten]
  refine ⟨hflatten, hbind, fun s e' s' => ?_, fun s path' s' hsteps => ?_⟩
  · rw [hbind]
    exact bindFlat_eq_ok
  · exact ⟨hsteps.values, hsteps.consecutive⟩

/-- The payload of an event. -/
def eventPayload : Expr := .field ⟨.position 0, .schema "payload", none⟩

/-- Two paths of which the second, with a key from a parameter, starts where the first one leads. -/
def detailPaths : List (List PathStep) :=
  [[.key "data"], [.computed (.param (.ofValue (.string "kind"))), .index 0]]

/-- A place where events are in scope. -/
def besideEvents : Context :=
  { Context.top .empty .default with scopes := [⟨[⟨0, none, .schemaless "events"⟩]⟩] }

/-- The parameter of the second path is numbered before that of the third. -/
theorem bind_nest_eventPayload :
    eventPayload.isPath = false ∧ (∀ scope ∈ besideEvents.scopes, scope.Placed) ∧
    ∃ g path' s', (eventPayload.nest (detailPaths ++
        [[.computed (.param (.ofValue (.string "name")))]])).bind besideEvents false .start =
          .ok (.jsonPath (.field g) path') s' ∧
      path'.length = 4 ∧ s'.nextParam = 2 ∧
      (paramsIn (carriersPath path')).map (·.value) = [.string "kind", .string "name"] ∧
      Consecutive 0 (carriersPath path') 2 := by
  have hplaced : ∀ scope ∈ besideEvents.scopes, scope.Placed := by
    rintro scope hscope
    rw [List.mem_singleton.1 hscope]
    exact Scope.empty_placed.add (rfl : Scope.empty.add none (.schemaless "events") = .ok _)
  obtain ⟨-, -, hbind, hnumbered⟩ := bind_nest besideEvents false eventPayload rfl detailPaths
    [.computed (.param (.ofValue (.string "name")))]
  obtain ⟨f, g, path', -, -, he, hsteps⟩ := (hbind .start _ _).1 rfl
  cases he
  obtain ⟨hvalues, hconsecutive⟩ := hnumbered _ _ _ hsteps
  exact ⟨rfl, hplaced, _, _, _, rfl, rfl, rfl, hvalues, hconsecutive hplaced⟩

end QueryCompiler
