import Mathlib.Data.List.Induction
import QueryCompiler.Proofs.FieldSets

/-!
# What field sets ask for

A field set asks for its own record and some fields of it and, along paths of associations, for
other records and their fields. A union asks for exactly what its operands ask for, and has the
fields of both in order of first occurrence.
-/

namespace QueryCompiler

/-- A record at the end of a path of associations or, if a field is given, that field of it. -/
structure Request where
  path : List String
  field : Option String
  deriving DecidableEq

/-- What is asked for beyond an association. -/
def Request.beyond (association : String) (r : Request) : Request :=
  { r with path := association :: r.path }

mutual

def FieldSet.requests : FieldSet → List Request
  | .mk fields nested => ⟨[], none⟩ :: fields.map (fun f => ⟨[], some f⟩) ++ nestedRequests nested

def nestedRequests : List NestedSelect → List Request
  | [] => []
  | .mk association _ set :: rest =>
    set.requests.map (Request.beyond association) ++ nestedRequests rest

end

theorem FieldSet.mem_requests {r : Request} {set : FieldSet} :
    r ∈ set.requests ↔ r = ⟨[], none⟩ ∨ (∃ f ∈ set.fields, r = ⟨[], some f⟩) ∨
      r ∈ nestedRequests set.nested := by
  obtain ⟨fields, nested⟩ := set
  rw [FieldSet.requests, List.mem_append, List.mem_cons, List.mem_map, or_assoc]
  simp only [FieldSet.fields, FieldSet.nested, eq_comm]

/-! ### Unions -/

/-- Merging a selection adds what it asks for if the change of its association does. -/
theorem mem_nestedRequests_updateNested {change : FieldSet → FieldSet} {association : String}
    {kind : ProjectionKind} {set : FieldSet}
    (hchange : ∀ old r, r ∈ (change old).requests ↔ r ∈ old.requests ∨ r ∈ set.requests)
    {r : Request} {into : List NestedSelect} :
    r ∈ nestedRequests (updateNested change (.mk association kind set) into) ↔
      r ∈ nestedRequests into ∨ r ∈ set.requests.map (Request.beyond association) := by
  induction into with
  | nil => simp [updateNested, nestedRequests]
  | cons first rest ih =>
    obtain ⟨association', kind', set'⟩ := first
    rw [updateNested]
    split
    · rename_i heq
      obtain rfl : association' = association := heq
      simp only [nestedRequests, List.mem_append, List.mem_map, hchange, or_and_right, exists_or]
      exact or_right_comm
    · rw [nestedRequests, nestedRequests, List.mem_append, List.mem_append, ih, or_assoc]

mutual

/-- A union asks for what either of its operands asks for, and for nothing else. -/
theorem FieldSet.mem_requests_union {r : Request} {a b : FieldSet} :
    r ∈ (a.union b).requests ↔ r ∈ a.requests ∨ r ∈ b.requests := by
  match a, b with
  | .mk fields nested, .mk fields' nested' =>
    have hnested : r ∈ nestedRequests (unionNested nested nested') ↔
        r ∈ nestedRequests nested ∨ r ∈ nestedRequests nested' := mem_nestedRequests_union
    rw [FieldSet.union, FieldSet.mem_requests, FieldSet.mem_requests, FieldSet.mem_requests]
    simp only [FieldSet.fields, FieldSet.nested, mem_foldl_addField, hnested, or_and_right,
      exists_or]
    grind

theorem mem_nestedRequests_union {r : Request} {into nested : List NestedSelect} :
    r ∈ nestedRequests (unionNested into nested) ↔
      r ∈ nestedRequests into ∨ r ∈ nestedRequests nested := by
  match nested with
  | [] => simp [unionNested, nestedRequests]
  | .mk association kind set :: rest =>
    have hset : ∀ (old : FieldSet) r,
        r ∈ (old.union set).requests ↔ r ∈ old.requests ∨ r ∈ set.requests :=
      fun _ _ => FieldSet.mem_requests_union
    rw [unionNested, mem_nestedRequests_union, mem_nestedRequests_updateNested hset,
      nestedRequests, List.mem_append, or_assoc]

end

theorem FieldSet.mem_requests_dedupe {r : Request} {set : FieldSet} :
    r ∈ set.dedupe.requests ↔ r ∈ set.requests := by
  rw [FieldSet.dedupe, mem_requests_union]
  refine or_iff_right_of_imp fun h => mem_requests.2 (Or.inl ?_)
  simpa [FieldSet.empty, FieldSet.requests, nestedRequests] using h

/-! ### Fields in order of first occurrence -/

/-- Adding fields appends, without repeats, those that are new. -/
theorem foldl_addField_eq (fields added : List String) :
    added.foldl addField fields = fields ++ (added.removeAll fields).eraseDups := by
  induction added generalizing fields with
  | nil => simp [List.removeAll]
  | cons field rest ih =>
    rw [List.foldl_cons, ih, addField]
    by_cases h : field ∈ fields
    · rw [if_pos h, List.cons_removeAll]
      simp [h]
    · rw [if_neg h, List.cons_removeAll]
      simp only [List.elem_eq_mem, h, decide_false, if_true, List.eraseDups_cons,
        List.append_assoc, List.singleton_append]
      congr 3
      rw [List.removeAll, List.removeAll, List.filter_filter]
      refine List.filter_congr fun other _ => ?_
      by_cases hother : other = field <;> simp [hother]

theorem foldl_addField_nil (added : List String) : added.foldl addField [] = added.eraseDups := by
  rw [foldl_addField_eq, List.nil_append, List.removeAll, List.filter_eq_self.2 (by simp)]

/-- Leaving out repeats before adding fields changes nothing. -/
theorem foldl_addField_foldl (fields added : List String) :
    (added.foldl addField []).foldl addField fields = added.foldl addField fields := by
  induction added using List.reverseRecOn with
  | nil => rfl
  | append_singleton rest field ih =>
    simp only [List.foldl_append, List.foldl_cons, List.foldl_nil]
    by_cases h : field ∈ rest
    · have hfirst : field ∈ rest.foldl addField [] := mem_foldl_addField.2 (Or.inr h)
      have hsecond : field ∈ rest.foldl addField fields := mem_foldl_addField.2 (Or.inr h)
      rw [addField, if_pos hfirst, addField, if_pos hsecond, ih]
    · have hfirst : field ∉ rest.foldl addField [] := by simpa [mem_foldl_addField] using h
      rw [addField, if_neg hfirst, List.foldl_append, ih]
      rfl

theorem FieldSet.fields_union (a b : FieldSet) :
    (a.union b).fields = b.fields.foldl addField a.fields := by
  obtain ⟨fields, nested⟩ := b
  rw [FieldSet.union]
  rfl

/-- The union of field sets, in order, has their fields in order of first occurrence. -/
theorem fields_foldl_union (set : FieldSet) (rest : List FieldSet) :
    ((rest.map FieldSet.dedupe).foldl FieldSet.union set.dedupe).fields =
      ((set :: rest).flatMap FieldSet.fields).eraseDups := by
  have hadded : ∀ a : FieldSet, ((rest.map FieldSet.dedupe).foldl FieldSet.union a).fields =
      (rest.flatMap FieldSet.fields).foldl addField a.fields := by
    induction rest with
    | nil => exact fun _ => rfl
    | cons next rest ih =>
      intro a
      have hnext : (a.union next.dedupe).fields = next.fields.foldl addField a.fields := by
        rw [FieldSet.fields_union, FieldSet.dedupe, FieldSet.fields_union]
        exact foldl_addField_foldl a.fields next.fields
      rw [List.map_cons, List.foldl_cons, ih, hnext, List.flatMap_cons, List.foldl_append]
  rw [hadded, FieldSet.dedupe, FieldSet.fields_union, ← List.foldl_append]
  exact foldl_addField_nil (set.fields ++ rest.flatMap FieldSet.fields)

end QueryCompiler
