import Mathlib.Data.List.Forall2
import QueryCompiler.Proofs.Merging
import QueryCompiler.Proofs.Projecting.Requests

/-!
# Merged chains

The projections of one kind and one source in a chain of merges are a group. Merging a chain leaves
one projection for every group, where the first of the group stood; other operands stay. Therefore
merging `e :: rest` joins to `e` its group in `rest` and merges what else there is in `rest`
(`mergeOperands_cons`), and everything here is proved by that recursion.

A chain as it is written and the chain that is merged are compared operand by operand. The sources
of a written projection are found by a given function, and what stands for an operand that is no
projection is a given relation.
-/

namespace QueryCompiler

/-! ### Groups -/

/-- The operands of a chain of merges as they stand, from left to right. -/
def Expr.operands : Expr → List Expr
  | .merge left right => left.operands ++ right.operands
  | e => [e]

def Expr.isProjection : Expr → Bool
  | .projection _ _ => true
  | _ => false

/-- The kind of a projection and the slot of its source. -/
abbrev GroupKey := ProjectionKind × Option Slot

def Expr.group? (slot? : Projection → Option Slot) : Expr → Option GroupKey
  | .projection kind p => some (kind, slot? p)
  | _ => none

def sameGroup (slot? : Projection → Option Slot) (e f : Expr) : Bool :=
  (e.group? slot?).isSome && e.group? slot? == f.group? slot?

def Expr.set? : Expr → Option FieldSet
  | .projection _ p => some p.set
  | _ => none

/-- The field sets of a group, in order. -/
def groupSets (slot? : Projection → Option Slot) (group : GroupKey) (operands : List Expr) :
    List FieldSet :=
  (operands.filter fun e => e.group? slot? == some group).filterMap Expr.set?

/-- What a projection asks of its source. -/
def Expr.requests (slot? : Projection → Option Slot) : Expr → List (GroupKey × Request)
  | .projection kind p => p.set.requests.map fun r => ((kind, slot? p), r)
  | _ => []

variable {slot? : Projection → Option Slot}

theorem sameGroup_comm (e f : Expr) : sameGroup slot? e f = sameGroup slot? f e := by
  rw [Bool.eq_iff_iff]
  simp only [sameGroup, Bool.and_eq_true, beq_iff_eq]
  exact ⟨fun h => ⟨h.2 ▸ h.1, h.2.symm⟩, fun h => ⟨h.2 ▸ h.1, h.2.symm⟩⟩

theorem sameGroup_of_group? {e : Expr} {group : GroupKey} (h : e.group? slot? = some group)
    (f : Expr) : sameGroup slot? e f = (f.group? slot? == some group) := by
  rw [sameGroup, h, Option.isSome_some, Bool.true_and, BEq.comm]

theorem sameGroup_of_none {e : Expr} (h : e.group? slot? = none) (f : Expr) :
    sameGroup slot? e f = false := by
  rw [sameGroup, h]
  rfl

/-! ### Merging by groups -/

/-- A projection, if it is one, has a slot. -/
def Expr.Slotted : Expr → Prop
  | .projection _ p => p.slot.isSome
  | _ => True

theorem absorbs_iff_sameGroup {e f : Expr} (he : e.Slotted) (hf : f.Slotted) :
    e.Absorbs f ↔ sameGroup Projection.slot e f = true := by
  cases e with
  | projection kind p =>
    cases f with
    | projection kind' q =>
      obtain ⟨slot, hp⟩ := Option.isSome_iff_exists.1 he
      obtain ⟨slot', hq⟩ := Option.isSome_iff_exists.1 hf
      simp [Expr.Absorbs, sameGroup, Expr.group?, Projection.sameSource, hp, hq]
    | _ => simp [Expr.Absorbs, sameGroup, Expr.group?]
  | _ => simp [Expr.Absorbs, sameGroup, Expr.group?]

/-- An operand with what a later one of its group asks for. -/
def Expr.takeUp : Expr → Expr → Expr
  | .projection kind p, .projection _ q => .projection kind { p with set := p.set.union q.set }
  | e, _ => e

theorem group?_takeUp (e f : Expr) :
    (e.takeUp f).group? Projection.slot = e.group? Projection.slot := by
  cases e <;> cases f <;> rfl

theorem Expr.Slotted.takeUp {e : Expr} (h : e.Slotted) (f : Expr) : (e.takeUp f).Slotted := by
  cases e <;> cases f <;> exact h

theorem absorb_cons {e f : Expr} (he : e.Slotted) (hf : f.Slotted) (rest : List Expr) :
    absorb f (e :: rest) =
      if sameGroup Projection.slot e f then e.takeUp f :: rest else e :: absorb f rest := by
  split
  · rename_i h
    obtain ⟨kind, p, q, rfl, rfl, hsame⟩ := ((absorbs_iff_sameGroup he hf).2 h).exists_projection
    exact absorb_cons_of_sameSource hsame rest
  · rename_i h
    exact absorb_cons_of_not_absorbs (mt (absorbs_iff_sameGroup he hf).1 h) rest

/-- Merging operands into a chain joins to its head the group of the head. -/
theorem foldl_absorb_cons {operands : List Expr} (hoperands : ∀ f ∈ operands, f.Slotted) {e : Expr}
    (he : e.Slotted) (merged : List Expr) :
    operands.foldl (fun merged operand => absorb operand merged) (e :: merged) =
      (operands.filter (sameGroup Projection.slot e)).foldl Expr.takeUp e ::
        (operands.filter fun f => !sameGroup Projection.slot e f).foldl
          (fun merged operand => absorb operand merged) merged := by
  induction operands generalizing e merged with
  | nil => rfl
  | cons f rest ih =>
    rw [List.forall_mem_cons] at hoperands
    obtain ⟨hf, hrest⟩ := hoperands
    rw [List.foldl_cons, absorb_cons he hf]
    by_cases h : sameGroup Projection.slot e f = true
    · have hsame : sameGroup Projection.slot (e.takeUp f) = sameGroup Projection.slot e := by
        funext g
        rw [sameGroup, sameGroup, group?_takeUp]
      rw [if_pos h, ih hrest (he.takeUp f), hsame, List.filter_cons_of_pos h,
        List.filter_cons_of_neg (by simpa using h), List.foldl_cons]
    · rw [if_neg h, ih hrest he, List.filter_cons_of_neg h,
        List.filter_cons_of_pos (by simpa using h), List.foldl_cons]

theorem mergeOperands_cons {e : Expr} {rest : List Expr} (he : e.Slotted)
    (hrest : ∀ f ∈ rest, f.Slotted) :
    mergeOperands (e :: rest) =
      (rest.filter (sameGroup Projection.slot e)).foldl Expr.takeUp e ::
        mergeOperands (rest.filter fun f => !sameGroup Projection.slot e f) := by
  rw [mergeOperands, List.foldl_cons]
  exact foldl_absorb_cons hrest he []

theorem groupSets_cons_of_ne {group : GroupKey} {e : Expr} (h : e.group? slot? ≠ some group)
    (rest : List Expr) : groupSets slot? group (e :: rest) = groupSets slot? group rest := by
  rw [groupSets, List.filter_cons_of_neg (by simpa using h)]
  rfl

theorem groupSets_projection (kind : ProjectionKind) (p : Projection) (rest : List Expr) :
    groupSets slot? (kind, slot? p) (.projection kind p :: rest) =
      p.set :: groupSets slot? (kind, slot? p) rest := by
  rw [groupSets, List.filter_cons_of_pos (by simp [Expr.group?])]
  rfl

/-- The sets of the other groups are those of what remains without one group. -/
theorem groupSets_filter {group : GroupKey} {e : Expr} (h : e.group? slot? ≠ some group)
    (operands : List Expr) :
    groupSets slot? group (operands.filter fun f => !sameGroup slot? e f) =
      groupSets slot? group operands := by
  rw [groupSets, groupSets, List.filter_filter]
  congr 1
  refine List.filter_congr fun f _ => ?_
  by_cases hf : f.group? slot? = some group
  · have hother : sameGroup slot? e f = false := by
      simp [sameGroup, hf, h]
    simp [hf, hother]
  · simp [hf]

/-- The projections of a group are joined to one of the union of their field sets. -/
theorem foldl_takeUp {group : GroupKey} (kind : ProjectionKind) (p : Projection)
    (operands : List Expr) :
    (operands.filter fun e => e.group? slot? == some group).foldl Expr.takeUp
        (.projection kind p) =
      .projection kind
        { p with set := (groupSets slot? group operands).foldl FieldSet.union p.set } := by
  induction operands generalizing p with
  | nil => rfl
  | cons e rest ih =>
    by_cases h : e.group? slot? = some group
    · cases e with
      | projection kind' q =>
        cases h
        rw [groupSets_projection, List.filter_cons_of_pos (by simp [Expr.group?])]
        exact ih _
      | _ => cases h
    · rw [groupSets_cons_of_ne h, List.filter_cons_of_neg (by simpa using h)]
      exact ih p

/-! ### Before merging -/

/--
An operand as it is written and as it is before merging: the source of a projection is found, and
its field set is without repeats.
-/
inductive Prepared (slot? : SourceRef → Option Slot) (P : Expr → Expr → Prop) :
    Expr → Expr → Prop where
  | projection {kind : ProjectionKind} {p : Projection} {slot : Slot}
      (hslot : slot? p.source = some slot) :
      Prepared slot? P (.projection kind p) (.projection kind ⟨p.source, p.set.dedupe, some slot⟩)
  | other {e f : Expr} (he : e.isProjection = false) (hf : f.isProjection = false) (h : P e f) :
      Prepared slot? P e f

theorem group?_eq_none {slot? : Projection → Option Slot} {e : Expr}
    (h : e.isProjection = false) : e.group? slot? = none := by
  cases e with
  | projection kind p => cases h
  | _ => rfl

theorem requests_eq_nil {slot? : Projection → Option Slot} {e : Expr}
    (h : e.isProjection = false) : e.requests slot? = [] := by
  cases e with
  | projection kind p => cases h
  | _ => rfl

/-- The slot of the source that a written projection names. -/
abbrev writtenSlot (slot? : SourceRef → Option Slot) (p : Projection) : Option Slot :=
  slot? p.source

namespace Prepared

variable {slot? : SourceRef → Option Slot} {P : Expr → Expr → Prop} {e f : Expr}

theorem slotted (h : Prepared slot? P e f) : f.Slotted := by
  cases h with
  | projection hslot => rfl
  | other he hf hP =>
    cases f with
    | projection kind p => cases hf
    | _ => trivial

theorem group? (h : Prepared slot? P e f) :
    f.group? Projection.slot = e.group? (writtenSlot slot?) := by
  cases h with
  | projection hslot => rw [Expr.group?, Expr.group?, writtenSlot, hslot]
  | other he hf hP => rw [group?_eq_none he, group?_eq_none hf]

theorem requests (h : Prepared slot? P e f) (r : GroupKey × Request) :
    r ∈ f.requests Projection.slot ↔ r ∈ e.requests (writtenSlot slot?) := by
  cases h with
  | projection hslot =>
    simp only [Expr.requests, List.mem_map, FieldSet.mem_requests_dedupe, writtenSlot, hslot]
  | other he hf hP => rw [requests_eq_nil he, requests_eq_nil hf]

theorem forall_slotted {operands prepared : List Expr}
    (h : List.Forall₂ (Prepared slot? P) operands prepared) : ∀ f ∈ prepared, f.Slotted := by
  induction h with
  | nil => simp
  | cons hfirst _ ih => exact List.forall_mem_cons.2 ⟨hfirst.slotted, ih⟩

theorem sameGroup {e' f' : Expr} (h : Prepared slot? P e f) (h' : Prepared slot? P e' f') :
    sameGroup Projection.slot f f' = QueryCompiler.sameGroup (writtenSlot slot?) e e' := by
  rw [QueryCompiler.sameGroup, QueryCompiler.sameGroup, h.group?, h'.group?]

theorem sets {operands prepared : List Expr} (h : List.Forall₂ (Prepared slot? P) operands prepared)
    (group : GroupKey) :
    groupSets Projection.slot group prepared =
      (groupSets (writtenSlot slot?) group operands).map FieldSet.dedupe := by
  induction h with
  | nil => rfl
  | cons hfirst _ ih =>
    have hgroup := hfirst.group?
    cases hfirst with
    | @projection kind p slot hslot =>
      by_cases hown : (kind, some slot) = group
      · have hp : group = (kind, writtenSlot slot? p) := by rw [← hown, writtenSlot, hslot]
        rw [hp, groupSets_projection, List.map_cons, ← hp, ← ih, ← hown]
        exact groupSets_projection kind _ _
      · have hother : (Expr.projection kind ⟨p.source, p.set.dedupe, some slot⟩).group?
            Projection.slot ≠ some group := by
          simpa [Expr.group?] using hown
        rw [groupSets_cons_of_ne hother, groupSets_cons_of_ne (hgroup ▸ hother), ih]
    | other he hf _ =>
      rw [groupSets_cons_of_ne (by simp [group?_eq_none hf]),
        groupSets_cons_of_ne (by simp [group?_eq_none he]), ih]

end Prepared

/-! ### After merging -/

/--
An operand as it is written and what stands for it in the merged chain. The fields of a projection
are those of its group in order of first occurrence.
-/
inductive Survives (slot? : SourceRef → Option Slot) (P : Expr → Expr → Prop)
    (operands : List Expr) : Expr → Expr → Prop where
  | projection {kind : ProjectionKind} {p q : Projection} {slot : Slot}
      (hslot : slot? p.source = some slot) (hsource : q.source = p.source)
      (hresolved : q.slot = some slot)
      (hfields : q.set.fields = ((groupSets (writtenSlot slot?) (kind, some slot) operands).flatMap
        FieldSet.fields).eraseDups) :
      Survives slot? P operands (.projection kind p) (.projection kind q)
  | other {e f : Expr} (he : e.isProjection = false) (hf : f.isProjection = false) (h : P e f) :
      Survives slot? P operands e f

variable {slot? : SourceRef → Option Slot} {P : Expr → Expr → Prop}

theorem survives_takeUp {operands : List Expr} {e f : Expr} {rest prepared : List Expr}
    (hfirst : Prepared slot? P e f) (hrest : List.Forall₂ (Prepared slot? P) rest prepared)
    (hgroup : ∀ group, e.group? (writtenSlot slot?) = some group →
      groupSets (writtenSlot slot?) group operands =
        groupSets (writtenSlot slot?) group (e :: rest)) :
    Survives slot? P operands e
      ((prepared.filter (sameGroup Projection.slot f)).foldl Expr.takeUp f) := by
  cases hfirst with
  | @projection kind p slot hslot =>
    have hown : (Expr.projection kind p).group? (writtenSlot slot?) = some (kind, some slot) := by
      rw [Expr.group?, writtenSlot, hslot]
    have hp : (kind, some slot) = (kind, writtenSlot slot? p) := by rw [writtenSlot, hslot]
    have hfilter : prepared.filter (sameGroup Projection.slot
          (.projection kind ⟨p.source, p.set.dedupe, some slot⟩)) =
        prepared.filter fun g => g.group? Projection.slot == some (kind, some slot) :=
      List.filter_congr fun g _ => sameGroup_of_group? rfl g
    rw [hfilter, foldl_takeUp]
    refine .projection hslot rfl rfl ?_
    rw [hgroup _ hown, hp, groupSets_projection, ← hp, Prepared.sets hrest]
    exact fields_foldl_union p.set (groupSets (writtenSlot slot?) (kind, some slot) rest)
  | other he hf hP =>
    have hfilter : prepared.filter (sameGroup Projection.slot f) = [] := by
      rw [List.filter_eq_nil_iff]
      intro g _
      simp [sameGroup_of_none (group?_eq_none hf)]
    rw [hfilter]
    exact .other he hf hP

/--
The first operands of the groups and the other operands survive merging, one by one. The operands
that remain at some step of the recursion have the same groups as all the operands.
-/
theorem survivors_of_prepared (all : List Expr) {operands prepared : List Expr}
    (h : List.Forall₂ (Prepared slot? P) operands prepared)
    (hgroups : ∀ e ∈ operands, ∀ group, e.group? (writtenSlot slot?) = some group →
      groupSets (writtenSlot slot?) group all = groupSets (writtenSlot slot?) group operands) :
    List.Forall₂ (Survives slot? P all) (operands.eraseDupsBy (sameGroup (writtenSlot slot?)))
      (mergeOperands prepared) := by
  match operands, prepared, h with
  | [], [], .nil => exact .nil
  | e :: rest, f :: prepared, .cons hfirst hrest =>
    have hfilter : (rest.filter fun g => decide (sameGroup (writtenSlot slot?) g e = false)) =
        rest.filter fun g => !sameGroup (writtenSlot slot?) e g :=
      List.filter_congr fun g _ => by rw [sameGroup_comm]; simp
    rw [mergeOperands_cons hfirst.slotted (Prepared.forall_slotted hrest), List.eraseDupsBy_cons,
      hfilter]
    refine .cons (survives_takeUp hfirst hrest ?_) (survivors_of_prepared all ?_ ?_)
    · exact hgroups e List.mem_cons_self
    · exact List.rel_filter (fun _ _ h => by simp only [hfirst.sameGroup h]) hrest
    · intro g hg group hgroup
      obtain ⟨hmem, hother⟩ := List.mem_filter.1 hg
      have hne : e.group? (writtenSlot slot?) ≠ some group := by
        intro heq
        simp [sameGroup_of_group? heq, hgroup] at hother
      rw [groupSets_filter hne, hgroups g (List.mem_cons_of_mem _ hmem) group hgroup,
        groupSets_cons_of_ne hne]
termination_by operands.length
decreasing_by
  simp only [List.length_cons]
  exact Nat.lt_succ_of_le (List.length_filter_le ..)

/-! ### Merging loses nothing and invents nothing -/

theorem absorb_slotted {merged : List Expr} {operand : Expr} (hmerged : ∀ e ∈ merged, e.Slotted)
    (hoperand : operand.Slotted) : ∀ e ∈ absorb operand merged, e.Slotted := by
  rcases absorb_cases operand merged with
    ⟨-, heq⟩ | ⟨before, kind, p, after, q, rfl, -, -, heq⟩
  · rw [heq, List.forall_mem_append]
    exact ⟨hmerged, by simpa using hoperand⟩
  · rw [List.forall_mem_append, List.forall_mem_cons] at hmerged
    rw [heq, List.forall_mem_append, List.forall_mem_cons]
    exact hmerged

theorem mem_requests_takeUp {e f : Expr} (h : sameGroup Projection.slot e f = true)
    (r : GroupKey × Request) :
    r ∈ (e.takeUp f).requests Projection.slot ↔
      r ∈ e.requests Projection.slot ∨ r ∈ f.requests Projection.slot := by
  cases e with
  | projection kind p =>
    cases f with
    | projection kind' q =>
      obtain ⟨rfl, hslot⟩ : kind = kind' ∧ p.slot = q.slot := by
        simpa [sameGroup, Expr.group?] using h
      simp only [Expr.takeUp, Expr.requests, List.mem_map, FieldSet.mem_requests_union,
        or_and_right, exists_or, hslot]
    | _ => simp [sameGroup, Expr.group?] at h
  | _ => simp [sameGroup, Expr.group?] at h

theorem mem_requests_absorb {operand : Expr} {merged : List Expr}
    (hmerged : ∀ e ∈ merged, e.Slotted) (hoperand : operand.Slotted) (r : GroupKey × Request) :
    r ∈ (absorb operand merged).flatMap (Expr.requests Projection.slot) ↔
      r ∈ (merged ++ [operand]).flatMap (Expr.requests Projection.slot) := by
  induction merged with
  | nil => rfl
  | cons e rest ih =>
    rw [List.forall_mem_cons] at hmerged
    rw [absorb_cons hmerged.1 hoperand, List.cons_append, List.flatMap_cons, List.mem_append]
    split
    · rename_i h
      rw [List.flatMap_cons, List.mem_append, mem_requests_takeUp h, List.flatMap_append,
        List.flatMap_singleton, List.mem_append]
      exact or_assoc.trans (or_congr_right or_comm)
    · rw [List.flatMap_cons, List.mem_append, ih hmerged.2]

/-- A merged chain asks for what its operands ask for, and for nothing else. -/
theorem mem_requests_mergeOperands {operands : List Expr} (h : ∀ e ∈ operands, e.Slotted)
    (r : GroupKey × Request) :
    r ∈ (mergeOperands operands).flatMap (Expr.requests Projection.slot) ↔
      r ∈ operands.flatMap (Expr.requests Projection.slot) := by
  suffices hfold : ∀ merged : List Expr, (∀ e ∈ merged, e.Slotted) →
      (r ∈ (operands.foldl (fun merged operand => absorb operand merged) merged).flatMap
        (Expr.requests Projection.slot) ↔
          r ∈ (merged ++ operands).flatMap (Expr.requests Projection.slot)) from
    hfold [] (by simp)
  induction operands with
  | nil => simp
  | cons operand rest ih =>
    intro merged hmerged
    rw [List.forall_mem_cons] at h
    rw [List.foldl_cons, ih h.2 _ (absorb_slotted hmerged h.1), List.flatMap_append,
      List.mem_append, mem_requests_absorb hmerged h.1, ← List.mem_append, ← List.flatMap_append,
      List.append_assoc, List.singleton_append]

/-- In a merged chain no two projections are of one group. -/
theorem groups_nodup {operands : List Expr} (h : ∀ e ∈ operands, e.Slotted) :
    ((mergeOperands operands).filterMap (Expr.group? Projection.slot)).Nodup := by
  have hslotted : ∀ e ∈ mergeOperands operands, e.Slotted :=
    mergeOperands_induction (motive := fun merged => ∀ e ∈ merged, e.Slotted) (by simp)
      fun _ operand hmem hmerged => absorb_slotted hmerged (h operand hmem)
  refine List.Pairwise.filterMap _ ?_
    (List.Pairwise.and_mem.1 (mergeOperands_unmergeable operands))
  rintro e f ⟨he, hf, habsorbs⟩ group hgroup group' hgroup' rfl
  refine habsorbs ((absorbs_iff_sameGroup (hslotted e he) (hslotted f hf)).2 ?_)
  rw [sameGroup_of_group? hgroup, hgroup', beq_self_eq_true]

/-- What is true of a chain as it is written and the chain that is merged from it. -/
structure Merged (slot? : SourceRef → Option Slot) (P : Expr → Expr → Prop)
    (operands merged : List Expr) : Prop where
  /-- There is at most one projection for every kind and source. -/
  unique : (merged.filterMap (Expr.group? Projection.slot)).Nodup
  /-- The same is asked of every source. -/
  requests (r : GroupKey × Request) : r ∈ merged.flatMap (Expr.requests Projection.slot) ↔
    r ∈ operands.flatMap (Expr.requests (writtenSlot slot?))
  /-- Operands survive in order, those that join an earlier projection apart. -/
  survivors : List.Forall₂ (Survives slot? P operands)
    (operands.eraseDupsBy (sameGroup (writtenSlot slot?))) merged

theorem merged_of_prepared {operands prepared : List Expr}
    (h : List.Forall₂ (Prepared slot? P) operands prepared) :
    Merged slot? P operands (mergeOperands prepared) where
  unique := groups_nodup (Prepared.forall_slotted h)
  requests r := by
    rw [mem_requests_mergeOperands (Prepared.forall_slotted h)]
    induction h with
    | nil => rfl
    | cons hfirst _ ih =>
      rw [List.flatMap_cons, List.flatMap_cons, List.mem_append, List.mem_append,
        hfirst.requests, ih]
  survivors := survivors_of_prepared operands h fun _ _ _ _ => rfl

end QueryCompiler
