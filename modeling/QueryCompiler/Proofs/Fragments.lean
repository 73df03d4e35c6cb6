import Mathlib.Data.List.Forall2
import QueryCompiler.Proofs.Completeness
import QueryCompiler.Proofs.Placeholders

/-!
# Processing of fragments

A fragment is processed exactly if it has an argument for every placeholder and every argument is
acceptable for its role. Too many or too few arguments are noticed first, and then the first one
that is not acceptable. The arguments of a processed fragment hold the values that they held before,
in the form in which they are written out or bound, so that processing it again changes nothing.
-/

namespace QueryCompiler

/-! ### Acceptable arguments -/

/-- An expression that is a value as it stands. -/
inductive Expr.Holds : Expr → Value → Prop where
  | literal (v : Value) : Expr.Holds (.literal v) v
  | param (p : Param) : Expr.Holds (.param p) p.value

theorem Expr.holds_iff {e : Expr} {v : Value} : e.Holds v ↔ e.value? = some v := by
  constructor
  · rintro (_ | _) <;> rfl
  · intro h
    cases e with
    | literal w =>
      cases h
      exact .literal v
    | param p =>
      cases h
      exact .param p
    | _ => cases h

namespace FragmentArg

/-- What an argument must be for its role. -/
inductive Acceptable : FragmentArg → Prop where
  | parameter (e : Expr) : Acceptable (.mk .parameter e)
  | identifier {e : Expr} {name : String} (hvalue : e.Holds (.string name)) (hname : name ≠ "") :
      Acceptable (.mk .identifier e)
  | constant {e : Expr} {v : Value} (hvalue : e.Holds v) (hconstant : v.isConstant = true) :
      Acceptable (.mk .constant e)
  | splice {e : Expr} {items : List Value} (hvalue : e.Holds (.list items)) (hitems : items ≠ []) :
      Acceptable (.mk .splice e)

/--
What processing makes of an argument. A list keeps the type that is written on its parameter, but
not its index.
-/
inductive InlinesTo : FragmentArg → FragmentArg → Prop where
  | parameter (e : Expr) : InlinesTo (.mk .parameter e) (.mk .parameter e)
  | inline {role : ArgRole} {e : Expr} {v : Value} (hrole : role.isInline = true)
      (hvalue : e.Holds v) : InlinesTo (.mk role e) (.mk role (.literal v))
  | literalList (items : List Value) :
      InlinesTo (.mk .splice (.literal (.list items)))
        (.mk .splice (.param ⟨.list items, none, none, true⟩))
  | paramList {p : Param} {items : List Value} (hvalue : p.value = .list items) :
      InlinesTo (.mk .splice (.param p)) (.mk .splice (.param ⟨.list items, none, p.type, true⟩))

/-- An argument is acceptable exactly if no fault is found with it. -/
theorem acceptable_iff {arg : FragmentArg} : arg.Acceptable ↔ arg.fault? = none := by
  obtain ⟨role, e⟩ := arg
  cases role with
  | parameter => exact ⟨fun _ => rfl, fun _ => .parameter e⟩
  | identifier =>
    simp only [fault?_identifier, ← Expr.holds_iff]
    constructor
    · intro h
      cases h with
      | identifier hvalue hname => exact ⟨_, hvalue, hname⟩
    · rintro ⟨name, hvalue, hname⟩
      exact .identifier hvalue hname
  | constant =>
    simp only [fault?_constant, ← Expr.holds_iff]
    constructor
    · intro h
      cases h with
      | constant hvalue hconstant => exact ⟨_, hvalue, hconstant⟩
    · rintro ⟨v, hvalue, hconstant⟩
      exact .constant hvalue hconstant
  | splice =>
    simp only [fault?_splice, ← Expr.holds_iff]
    constructor
    · intro h
      cases h with
      | splice hvalue hitems => exact ⟨_, hvalue, hitems⟩
    · rintro ⟨items, hvalue, hitems⟩
      exact .splice hvalue hitems

/-! ### Processed arguments -/

theorem Acceptable.inlinesTo {arg : FragmentArg} (h : arg.Acceptable) :
    arg.InlinesTo arg.inlined := by
  cases h with
  | parameter e => exact .parameter e
  | identifier hvalue _ | constant hvalue _ =>
    rw [inlined, Expr.holds_iff.1 hvalue]
    exact .inline rfl hvalue
  | @splice e items hvalue hitems =>
    cases e with
    | literal v =>
      cases hvalue
      exact .literalList items
    | param p =>
      have hlist : p.value = .list items := Option.some.inj (Expr.holds_iff.1 hvalue)
      rw [inlined, hlist]
      exact .paramList hlist
    | _ => cases hvalue

theorem InlinesTo.fault?_eq {arg arg' : FragmentArg} (h : arg.InlinesTo arg') :
    arg'.fault? = arg.fault? := by
  cases h with
  | parameter _ | literalList _ => rfl
  | inline hrole hvalue => exact fault?_of_value? (Expr.holds_iff.1 hvalue).symm
  | paramList hvalue => exact fault?_of_value? (congrArg some hvalue.symm)

/-- What an argument has become, it becomes again. -/
theorem InlinesTo.inlined_eq {arg arg' : FragmentArg} (h : arg.InlinesTo arg') :
    arg'.inlined = arg' := by
  cases h with
  | @inline role e v hrole hvalue =>
    cases role with
    | identifier | constant => rfl
    | parameter | splice => cases hrole
  | parameter _ | literalList _ | paramList _ => rfl

end FragmentArg

/-! ### The first fault -/

theorem firstFault_append {before : List FragmentArg} (h : ∀ arg ∈ before, arg.fault? = none)
    (index : Nat) (rest : List FragmentArg) :
    firstFault index (before ++ rest) = firstFault (index + before.length) rest := by
  induction before generalizing index with
  | nil => rfl
  | cons arg before ih =>
    rw [List.forall_mem_cons] at h
    rw [List.cons_append, firstFault, h.1]
    dsimp only
    rw [ih h.2, List.length_cons, Nat.add_assoc, Nat.add_comm 1]

/-! ### Processing -/

namespace Fragment

/-- The check of the number of arguments in terms of the text as it is written. -/
theorem length_fragmentParts_sub_one (text : String) :
    (fragmentParts text).length - 1 = openPlaceholders text := by
  rw [← placeholderCount_eq, placeholderCount, fragmentParts, List.length_map]

theorem exists_process_eq_ok {f : Fragment} :
    (∃ g, f.process = .ok g) ↔
      f.args.length = openPlaceholders f.text ∧ ∀ arg ∈ f.args, arg.Acceptable := by
  simp only [process_eq_ok, length_fragmentParts_sub_one, firstFault_eq_none,
    FragmentArg.acceptable_iff]
  constructor
  · rintro ⟨g, hcount, hfault, -⟩
    exact ⟨hcount.symm, hfault⟩
  · rintro ⟨hcount, hfault⟩
    exact ⟨_, hcount.symm, hfault, rfl⟩

theorem process_of_count_ne {f : Fragment} (h : f.args.length ≠ openPlaceholders f.text) :
    f.process =
      .error (.fragmentArity f.text (openPlaceholders f.text) f.args.length) := by
  rw [process, length_fragmentParts_sub_one]
  exact if_pos h.symm

theorem process_of_fault {f : Fragment} (hcount : f.args.length = openPlaceholders f.text)
    {before after : List FragmentArg} {arg : FragmentArg} (hargs : f.args = before ++ arg :: after)
    (hbefore : ∀ a ∈ before, a.Acceptable) (harg : ¬ arg.Acceptable) :
    ∃ fault, arg.fault? = some fault ∧
      f.process = .error (.fragmentArgument f.text before.length fault) := by
  rw [FragmentArg.acceptable_iff] at harg
  obtain ⟨fault, hfault⟩ := Option.ne_none_iff_exists'.1 harg
  have hfirst : firstFault 0 f.args = some (before.length, fault) := by
    rw [hargs, firstFault_append fun a ha => FragmentArg.acceptable_iff.1 (hbefore a ha),
      firstFault, hfault, Nat.zero_add]
  refine ⟨fault, hfault, ?_⟩
  rw [process, length_fragmentParts_sub_one, hfirst]
  exact if_neg (by simpa using hcount.symm)

/-- A processed fragment is processed again without a change. -/
theorem process_process {f g : Fragment} (h : f.process = .ok g) : g.process = .ok g := by
  obtain ⟨hcount, hfault, rfl⟩ := process_eq_ok.1 h
  rw [firstFault_eq_none] at hfault
  have hinlines : ∀ arg ∈ f.args, arg.InlinesTo arg.inlined := by
    intro arg hmem
    exact (FragmentArg.acceptable_iff.2 (hfault arg hmem)).inlinesTo
  refine process_eq_ok.2 ⟨?_, ?_, ?_⟩
  · rwa [List.length_map]
  · rw [firstFault_eq_none, List.forall_mem_map]
    intro arg hmem
    rw [(hinlines arg hmem).fault?_eq]
    exact hfault arg hmem
  · rw [List.map_map]
    congr 1
    exact List.map_congr_left fun arg hmem => (hinlines arg hmem).inlined_eq.symm

/--
A fragment is processed exactly if there is an argument for every `?` without a backslash in front
of it and all arguments are acceptable. Otherwise the numbers are reported if they differ, and else
the first argument that is not acceptable. A processed fragment has a part on either side of every
argument; its arguments are those that were given, with values in place of what held them, and
processing it again changes nothing.
-/
theorem process_outcome (f : Fragment) :
    ((∃ g, f.process = .ok g) ↔
      f.args.length = openPlaceholders f.text ∧ ∀ arg ∈ f.args, arg.Acceptable) ∧
    (f.args.length ≠ openPlaceholders f.text →
      f.process = .error (.fragmentArity f.text (openPlaceholders f.text) f.args.length)) ∧
    (f.args.length = openPlaceholders f.text → ∀ before arg after,
      f.args = before ++ arg :: after → (∀ a ∈ before, a.Acceptable) → ¬ arg.Acceptable →
      ∃ fault, arg.fault? = some fault ∧
        f.process = .error (.fragmentArgument f.text before.length fault)) ∧
    ∀ g, f.process = .ok g → g.text = f.text ∧ g.parts = fragmentParts f.text ∧
      g.parts.length = g.args.length + 1 ∧ List.Forall₂ FragmentArg.InlinesTo f.args g.args ∧
      g.process = .ok g := by
  refine ⟨exists_process_eq_ok, process_of_count_ne, ?_, ?_⟩
  · intro hcount before arg after hargs hbefore harg
    exact process_of_fault hcount hargs hbefore harg
  · intro g h
    have hagain := process_process h
    obtain ⟨hcount, hfault, rfl⟩ := process_eq_ok.1 h
    refine ⟨rfl, rfl, ?_, ?_, hagain⟩
    · rw [List.length_map, ← hcount]
      exact length_fragmentParts f.text
    · rw [List.forall₂_map_right_iff, List.forall₂_same]
      intro arg hmem
      exact (FragmentArg.acceptable_iff.2 (firstFault_eq_none.1 hfault arg hmem)).inlinesTo

/-- A name to write out and a column. -/
def namedColumn : List FragmentArg :=
  [.mk .identifier (.param (.ofValue (.string "tags"))),
    .mk .parameter (.field ⟨.position 0, .schema "id", none⟩)]

theorem namedColumn_acceptable : ∀ arg ∈ namedColumn, arg.Acceptable := by
  simp only [namedColumn, List.forall_mem_cons]
  refine ⟨.identifier (.param _) (by decide), .parameter _, ?_⟩
  simp

/-- Some values to splice, on a parameter that has an index and a type. -/
def spliced (items : List Value) : FragmentArg :=
  .mk .splice (.param ⟨.list items, some 4, some (.array .integer), false⟩)

/-- Whether a column is among some values. -/
def among (items : List Value) : Fragment :=
  ⟨"? \\? ? in (?)", ["stale"], namedColumn ++ [spliced items]⟩

/-- Two values are spliced, none are not, and without any arguments three of them are missing. -/
theorem process_outcome_among :
    (∃ g, (among [.integer 1, .integer 2]).process = .ok g ∧ g.process = .ok g ∧
      g.parts = ["", " ? ", " in (", ")"] ∧
      List.Forall₂ FragmentArg.InlinesTo (among [.integer 1, .integer 2]).args g.args) ∧
    (∃ fault, (among []).process = .error (.fragmentArgument "? \\? ? in (?)" 2 fault)) ∧
    (Fragment.mk "? \\? ? in (?)" [] []).process =
      .error (.fragmentArity "? \\? ? in (?)" 3 0) := by
  refine ⟨?_, ?_, ?_⟩
  · have hargs : ∀ arg ∈ namedColumn ++ [spliced [.integer 1, .integer 2]], arg.Acceptable := by
      rw [List.forall_mem_append, List.forall_mem_singleton]
      exact ⟨namedColumn_acceptable, .splice (.param _) (List.cons_ne_nil _ _)⟩
    obtain ⟨g, hg⟩ := (process_outcome (among [.integer 1, .integer 2])).1.2 ⟨rfl, hargs⟩
    obtain ⟨-, hparts, -, hinlines, hagain⟩ := (process_outcome _).2.2.2 g hg
    exact ⟨g, hg, hagain, hparts, hinlines⟩
  · have hspliced : ¬ (spliced []).Acceptable := by
      simp [FragmentArg.acceptable_iff, spliced, FragmentArg.fault?, Expr.value?]
    obtain ⟨fault, -, herror⟩ :=
      (process_outcome (among [])).2.2.1 rfl _ _ [] rfl namedColumn_acceptable hspliced
    exact ⟨fault, herror⟩
  · exact (process_outcome ⟨"? \\? ? in (?)", [], []⟩).2.1 (by decide)

end Fragment

end QueryCompiler
