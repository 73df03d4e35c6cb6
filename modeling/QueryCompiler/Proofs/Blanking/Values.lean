import QueryCompiler.Compilation
import QueryCompiler.Proofs.Comparison.Change

/-!
# Blank values

Blanking forgets the values that a query binds: those of parameters and of the cells of values
tables. Of a spliced list its length is kept. Whatever is written into the text, such as literals
and the inline arguments of fragments, stays.
-/

namespace QueryCompiler

/-- A list of the same length without its items; other values are no lists to be spliced. -/
def Value.blankItems : Value → Value
  | .list items => .list (List.replicate items.length .null)
  | v => v

def Change.blanking : Change := ⟨0, id, fun _ => .null, Value.blankItems⟩

/-- A query without the values that it binds. -/
def Query.blank (query : Query) : Query := query.change .blanking

def BoundParam.blank (p : BoundParam) : BoundParam :=
  { p with value := if p.splice then p.value.blankItems else .null }

/-- A compilation without the values that are bound. -/
def CompiledQuery.blank (c : CompiledQuery) : CompiledQuery :=
  ⟨c.query.blank, c.params.map BoundParam.blank, c.key⟩

theorem spliceWidth_blankItems (v : Value) : v.blankItems.spliceWidth = v.spliceWidth := by
  cases v with
  | list items => exact List.length_replicate
  | _ => rfl

theorem width_blank (p : BoundParam) : p.blank.width = p.width := by
  obtain ⟨value, type, splice⟩ := p
  cases splice with
  | false => rfl
  | true => exact spliceWidth_blankItems value

theorem layoutFrom_blank (start : Nat) (params : List BoundParam) :
    layoutFrom start (params.map BoundParam.blank) = layoutFrom start params := by
  induction params generalizing start with
  | nil => rfl
  | cons p rest ih => rw [List.map_cons, layoutFrom, layoutFrom, width_blank, ih]

/-- Blanking keeps the placeholders of every parameter. -/
theorem CompiledQuery.layout_blank (c : CompiledQuery) : c.blank.layout = c.layout :=
  layoutFrom_blank 0 c.params

/-! ### Sameness -/

theorem sameAll_blank {items items' : List Value} (h : Value.sameAll items items' = true) :
    Value.sameAll (List.replicate items.length .null) (List.replicate items'.length .null) =
      true := by
  match items, items' with
  | [], [] => simp [Value.sameAll]
  | _ :: rest, _ :: rest' =>
    simp only [Value.sameAll, Bool.and_eq_true] at h
    simp only [List.length_cons, List.replicate_succ, Value.sameAll, Value.same, Bool.true_and]
    exact sameAll_blank h.2
  | [], _ :: _ | _ :: _, [] => simp [Value.sameAll] at h

theorem same_blankItems {v w : Value} (h : v.same w = true) :
    v.blankItems.same w.blankItems = true := by
  cases v with
  | list items => cases w with
    | list items' =>
      rw [Value.same] at h
      rw [Value.blankItems, Value.blankItems, Value.same]
      exact sameAll_blank h
    | _ => simp [Value.same] at h
  | _ => cases w with
    | list items' => simp [Value.same] at h
    | _ => exact h

end QueryCompiler
