import QueryCompiler.Proofs.Binding.Steps
import QueryCompiler.Binding

/-!
# Unions of field sets

A field set is *distinct* when it names no field twice and asks for no association twice, at its top
level. A union of field sets is distinct if its first operand is, and a distinct field set is what
`FieldSet.dedupe` leaves as it is.

A field set is *valid* for a schema when all its fields and associations, to any depth, exist. The
check of projections accepts exactly the valid field sets, and unions of valid field sets are valid.
-/

namespace QueryCompiler

@[simp] theorem NestedSelect.association_mk (association : String) (kind : ProjectionKind)
    (set : FieldSet) : (NestedSelect.mk association kind set).association = association := rfl

/-! ### Distinct field sets -/

/-- No field and no association is named twice at the top level. -/
def FieldSet.Distinct (set : FieldSet) : Prop :=
  set.fields.Nodup ∧ (set.nested.map NestedSelect.association).Nodup

theorem addField_nodup {fields : List String} (h : fields.Nodup) (field : String) :
    (addField fields field).Nodup := by
  unfold addField
  split
  · exact h
  · rename_i hnot
    exact List.nodup_append.2 ⟨h, by simp, by
      intro a ha b hb
      rw [List.mem_singleton.1 hb]
      exact fun hab => hnot (hab ▸ ha)⟩

theorem foldl_addField_nodup {fields : List String} (h : fields.Nodup) (added : List String) :
    (added.foldl addField fields).Nodup := by
  induction added generalizing fields with
  | nil => exact h
  | cons field rest ih => exact ih (addField_nodup h field)

theorem mem_foldl_addField {field : String} {fields added : List String} :
    field ∈ added.foldl addField fields ↔ field ∈ fields ∨ field ∈ added := by
  induction added generalizing fields with
  | nil => simp
  | cons new rest ih =>
    rw [List.foldl_cons, ih, List.mem_cons, ← or_assoc]
    refine or_congr_left ?_
    unfold addField
    split
    · constructor
      · exact Or.inl
      · rintro (h | rfl)
        · exact h
        · assumption
    · rw [List.mem_append, List.mem_singleton]

/-- Fields that are all new are added as they stand. -/
theorem foldl_addField_of_nodup {fields added : List String} (h : (fields ++ added).Nodup) :
    added.foldl addField fields = fields ++ added := by
  induction added generalizing fields with
  | nil => simp
  | cons field rest ih =>
    have hnot : field ∉ fields := by
      intro hmem
      exact (List.nodup_append.1 h).2.2 field hmem field (by simp) rfl
    rw [List.foldl_cons, addField, if_neg hnot, ih (by simpa using h)]
    simp

/-- The associations after one selection was merged into some others. -/
theorem associations_updateNested (change : FieldSet → FieldSet) (select : NestedSelect)
    (into : List NestedSelect) :
    (updateNested change select into).map NestedSelect.association =
      addField (into.map NestedSelect.association) select.association := by
  induction into with
  | nil => simp [updateNested, addField]
  | cons first rest ih =>
    obtain ⟨association, kind, set⟩ := first
    rw [updateNested]
    split
    · rename_i heq
      rw [← heq, List.map_cons, List.map_cons, NestedSelect.association_mk,
        NestedSelect.association_mk, addField, if_pos (List.mem_cons_self ..)]
    · rename_i hne
      rw [List.map_cons, List.map_cons, ih, NestedSelect.association_mk, addField, addField]
      by_cases hmem : select.association ∈ rest.map NestedSelect.association
      · rw [if_pos hmem, if_pos (List.mem_cons_of_mem _ hmem)]
      · rw [if_neg hmem, if_neg]
        · rfl
        · intro h
          rcases List.mem_cons.1 h with h | h
          · exact hne h.symm
          · exact hmem h

/-- The associations of a merged list are those of both lists in order of first occurrence. -/
theorem associations_unionNested (into nested : List NestedSelect) :
    (unionNested into nested).map NestedSelect.association =
      (nested.map NestedSelect.association).foldl addField
        (into.map NestedSelect.association) := by
  induction nested generalizing into with
  | nil => simp [unionNested]
  | cons select rest ih =>
    obtain ⟨association, kind, set⟩ := select
    rw [unionNested, ih, associations_updateNested]
    rfl

theorem FieldSet.union_distinct {a : FieldSet} (ha : a.Distinct) (b : FieldSet) :
    (a.union b).Distinct := by
  obtain ⟨fields, nested⟩ := b
  rw [FieldSet.union]
  refine ⟨foldl_addField_nodup ha.1 fields, ?_⟩
  simp only [FieldSet.nested, associations_unionNested]
  exact foldl_addField_nodup ha.2 _

theorem FieldSet.empty_distinct : FieldSet.empty.Distinct := ⟨List.nodup_nil, List.nodup_nil⟩

theorem FieldSet.dedupe_distinct (set : FieldSet) : set.dedupe.Distinct :=
  FieldSet.union_distinct FieldSet.empty_distinct set

theorem updateNested_of_not_mem {change : FieldSet → FieldSet} {select : NestedSelect}
    {into : List NestedSelect}
    (h : select.association ∉ into.map NestedSelect.association) :
    updateNested change select into = into ++ [select] := by
  induction into with
  | nil => rfl
  | cons first rest ih =>
    obtain ⟨association, kind, set⟩ := first
    simp only [List.map_cons, List.mem_cons, not_or] at h
    rw [updateNested, if_neg (fun heq => h.1 heq.symm), ih h.2]
    rfl

/-- Selections of new associations are added as they stand. -/
theorem unionNested_of_nodup {into nested : List NestedSelect}
    (h : ((into ++ nested).map NestedSelect.association).Nodup) :
    unionNested into nested = into ++ nested := by
  match nested with
  | [] => simp [unionNested]
  | .mk association kind set :: rest =>
    have hnot : association ∉ into.map NestedSelect.association := by
      intro hmem
      rw [List.map_append] at h
      exact (List.nodup_append.1 h).2.2 association hmem association
        (by simp [NestedSelect.association]) rfl
    rw [unionNested, updateNested_of_not_mem hnot, unionNested_of_nodup (by simpa using h)]
    simp

/-- A distinct field set is left as it is. -/
theorem FieldSet.Distinct.dedupe_eq {set : FieldSet} (h : set.Distinct) : set.dedupe = set := by
  obtain ⟨fields, nested⟩ := set
  rw [FieldSet.dedupe, FieldSet.empty, FieldSet.union]
  congr 1
  · exact foldl_addField_of_nodup h.1
  · exact unionNested_of_nodup h.2

/-! ### Valid field sets -/

mutual

/-- All fields and associations exist, to any depth. -/
def FieldSet.Valid (catalog : Catalog) (schema : Schema) : FieldSet → Prop
  | .mk fields nested => (∀ field ∈ fields, schema.hasField field) ∧
    NestedValid catalog schema nested

def NestedValid (catalog : Catalog) (schema : Schema) : List NestedSelect → Prop
  | [] => True
  | .mk name _ set :: rest =>
    (∃ association related, schema.association? name = some association ∧
      catalog.get? association.related = some related ∧ set.Valid catalog related) ∧
    NestedValid catalog schema rest

end

variable {catalog : Catalog} {schema : Schema}

theorem nestedValid_updateNested {change : FieldSet → FieldSet} {select : NestedSelect}
    {into : List NestedSelect} (hinto : NestedValid catalog schema into)
    (hselect : NestedValid catalog schema [select])
    (hchange : ∀ old related, (∃ association,
        schema.association? select.association = some association ∧
        catalog.get? association.related = some related) →
      old.Valid catalog related → (change old).Valid catalog related) :
    NestedValid catalog schema (updateNested change select into) := by
  match into with
  | [] => exact hselect
  | .mk name kind set :: rest =>
    rw [NestedValid] at hinto
    obtain ⟨⟨association, related, hname, hrelated, hset⟩, hrest⟩ := hinto
    rw [updateNested]
    split
    · rename_i heq
      rw [NestedValid]
      subst heq
      exact ⟨⟨association, related, hname, hrelated,
        hchange set related ⟨association, hname, hrelated⟩ hset⟩, hrest⟩
    · rw [NestedValid]
      exact ⟨⟨association, related, hname, hrelated, hset⟩,
        nestedValid_updateNested hrest hselect hchange⟩

mutual

/-- The union of valid field sets is valid. -/
theorem FieldSet.Valid.union {schema : Schema} {a b : FieldSet} (ha : a.Valid catalog schema)
    (hb : b.Valid catalog schema) : (a.union b).Valid catalog schema := by
  match a, b with
  | .mk fields nested, .mk fields' nested' =>
    rw [FieldSet.Valid] at ha hb
    rw [FieldSet.union, FieldSet.Valid]
    refine ⟨?_, nestedValid_unionNested ha.2 hb.2⟩
    intro field hfield
    rcases mem_foldl_addField.1 hfield with h | h
    · exact ha.1 field h
    · exact hb.1 field h

theorem nestedValid_unionNested {schema : Schema} {into nested : List NestedSelect}
    (hinto : NestedValid catalog schema into) (hnested : NestedValid catalog schema nested) :
    NestedValid catalog schema (unionNested into nested) := by
  match nested with
  | [] => exact hinto
  | .mk name kind set :: rest =>
    rw [NestedValid] at hnested
    obtain ⟨⟨association, related, hname, hrelated, hset⟩, hrest⟩ := hnested
    rw [unionNested]
    refine nestedValid_unionNested ?_ hrest
    apply nestedValid_updateNested hinto
    · exact ⟨⟨association, related, hname, hrelated, hset⟩, trivial⟩
    · -- one association has one related schema, for which both sets are valid
      rintro old related' ⟨association', hname', hrelated'⟩ hold
      change schema.association? name = some association' at hname'
      rw [hname] at hname'
      cases hname'
      rw [hrelated] at hrelated'
      cases hrelated'
      exact hold.union hset

end

theorem FieldSet.empty_valid : FieldSet.empty.Valid catalog schema := by
  rw [FieldSet.empty, FieldSet.Valid]
  exact ⟨by simp, trivial⟩

theorem FieldSet.Valid.dedupe {set : FieldSet} (h : set.Valid catalog schema) :
    set.dedupe.Valid catalog schema :=
  FieldSet.Valid.union FieldSet.empty_valid h

/-! ### The check of projections -/

/-- A note made in some cases before a step takes no index. -/
theorem ok_of_note_if {α : Type} {c : Prop} [Decidable c] {event : Event} {m : BindM α}
    {s s' : BindState} {a : α} (h : (if c then do BindM.note event; m else m) s = .ok a s') :
    ∃ t, t.nextParam = s.nextParam ∧ m t = .ok a s' := by
  split at h
  · simp only [BindM.bind_eq_ok, BindM.note_eq_ok] at h
    obtain ⟨_, t, rfl, hm⟩ := h
    exact ⟨s.note event, rfl, hm⟩
  · exact ⟨s, rfl, h⟩

theorem note_if_ok {α : Type} {c : Prop} [Decidable c] {event : Event} {m : BindM α}
    {s : BindState} {a : α}
    (h : ∀ t, t.nextParam = s.nextParam → ∃ s', m t = .ok a s' ∧ s'.nextParam = s.nextParam) :
    ∃ s', (if c then do BindM.note event; m else m) s = .ok a s' ∧
      s'.nextParam = s.nextParam := by
  split
  · obtain ⟨s', hm, hn⟩ := h (s.note event) rfl
    exact ⟨s', BindM.bind_eq_ok.2 ⟨(), s.note event, rfl, hm⟩, hn⟩
  · exact h s rfl

mutual

/-- The check accepts only valid field sets. -/
theorem valid_of_checkFieldSet {schema : Schema} {set : FieldSet} {s s' : BindState} {u : Unit}
    (h : checkFieldSet catalog schema set s = .ok u s') :
    set.Valid catalog schema ∧ s'.nextParam = s.nextParam := by
  match set with
  | .mk fields nested =>
    cases hfind : fields.find? fun field => !schema.hasField field with
    | some field => simp [checkFieldSet, hfind] at h
    | none =>
      simp only [checkFieldSet, hfind] at h
      obtain ⟨hnested, hs⟩ := nestedValid_of_checkNested h
      rw [FieldSet.Valid]
      exact ⟨⟨by simpa using hfind, hnested⟩, hs⟩

theorem nestedValid_of_checkNested {schema : Schema} {fields : List String}
    {nested : List NestedSelect} {s s' : BindState} {u : Unit}
    (h : checkNested catalog schema fields nested s = .ok u s') :
    NestedValid catalog schema nested ∧ s'.nextParam = s.nextParam := by
  match nested with
  | [] =>
    simp only [checkNested, BindM.pure_eq_ok] at h
    exact ⟨trivial, by rw [h.2]⟩
  | .mk name kind set :: rest =>
    cases hname : schema.association? name with
    | none => simp [checkNested, hname] at h
    | some association =>
      cases hrelated : catalog.get? association.related with
      | none => simp [checkNested, hname, hrelated] at h
      | some related =>
        simp only [checkNested, hname, hrelated] at h
        obtain ⟨t, ht, h⟩ := ok_of_note_if h
        obtain ⟨t', ht', h⟩ := ok_of_note_if h
        obtain ⟨_, t₂, hset, hrest⟩ := BindM.bind_eq_ok.1 h
        obtain ⟨hvalid, hn⟩ := valid_of_checkFieldSet hset
        obtain ⟨hvalids, hns⟩ := nestedValid_of_checkNested hrest
        rw [NestedValid]
        refine ⟨⟨⟨association, related, hname, hrelated, hvalid⟩, hvalids⟩, ?_⟩
        rw [hns, hn, ht', ht]

end

mutual

/-- The check accepts every valid field set. -/
theorem FieldSet.Valid.check {schema : Schema} {set : FieldSet} (h : set.Valid catalog schema)
    (s : BindState) : ∃ s', checkFieldSet catalog schema set s = .ok () s' ∧
      s'.nextParam = s.nextParam := by
  match set with
  | .mk fields nested =>
    rw [FieldSet.Valid] at h
    have hfind : fields.find? (fun field => !schema.hasField field) = none := by
      simpa using h.1
    simp only [checkFieldSet, hfind]
    exact nestedValid_check h.2 s

theorem nestedValid_check {schema : Schema} {fields : List String} {nested : List NestedSelect}
    (h : NestedValid catalog schema nested) (s : BindState) :
    ∃ s', checkNested catalog schema fields nested s = .ok () s' ∧
      s'.nextParam = s.nextParam := by
  match nested with
  | [] => exact ⟨s, by simp [checkNested], rfl⟩
  | .mk name kind set :: rest =>
    rw [NestedValid] at h
    obtain ⟨⟨association, related, hname, hrelated, hset⟩, hrest⟩ := h
    simp only [checkNested, hname, hrelated]
    refine note_if_ok fun t ht => ?_
    rw [← ht]
    refine note_if_ok fun t' ht' => ?_
    obtain ⟨t₂, hcheck, hn⟩ := hset.check t'
    obtain ⟨t₃, hchecks, hns⟩ := nestedValid_check hrest t₂
    exact ⟨t₃, BindM.bind_eq_ok.2 ⟨(), t₂, hcheck, hchecks⟩, by rw [hns, hn, ht']⟩

end

end QueryCompiler
