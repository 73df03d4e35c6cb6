import QueryCompiler.Proofs.Redefinition.Definitions

/-!
# Names that are defined again, compiled again

Where names may be defined again, the values of one name are compared as they are written. Compiled,
the same values differ as soon as there is a parameter or a values table in them, since every copy
has indices of its own. Such a query is refused when it is compiled again, and only such a query is.
-/

namespace QueryCompiler

/-! ### Pairs of definitions -/

variable {α β : Type} {S : α → β → Prop} {l : List α} {l' : List β}

theorem exists_of_forall₂ (h : List.Forall₂ S l l') {b : β} (hb : b ∈ l') : ∃ a ∈ l, S a b := by
  induction h with
  | nil => cases hb
  | cons hfirst _ ih =>
    rcases List.mem_cons.1 hb with rfl | hb
    · exact ⟨_, List.mem_cons_self .., hfirst⟩
    · obtain ⟨a, ha, hab⟩ := ih hb
      exact ⟨a, List.mem_cons_of_mem _ ha, hab⟩

theorem pairwise_of_forall₂ {R : α → α → Prop} {R' : β → β → Prop} (h : List.Forall₂ S l l')
    (hpairs : l.Pairwise R) (himp : ∀ a a' b b', S a a' → S b b' → R a b → R' a' b') :
    l'.Pairwise R' := by
  induction h with
  | nil => exact .nil
  | cons hfirst hrest ih =>
    obtain ⟨hhead, hpairs⟩ := List.pairwise_cons.1 hpairs
    refine List.pairwise_cons.2 ⟨fun b' hb' => ?_, ih hpairs⟩
    obtain ⟨b, hb, hbound⟩ := exists_of_forall₂ hrest hb'
    exact himp _ _ _ _ hfirst hbound (hhead b hb)

/-- Values that are the same are compiled to the same, if nothing in them is numbered. -/
theorem same_of_compiledDefinition {ctx : Context} {a b a' b' : String × Expr}
    (ha : CompiledDefinition ctx a a') (hb : CompiledDefinition ctx b b')
    (hsame : a.1 = b.1 → a.2.same b.2 = true) :
    a'.1 = b'.1 → a'.2.carriers = [] → a'.2.same b'.2 = true := by
  obtain ⟨bound, ⟨hname, s, s', hbind⟩, rfl⟩ := ha
  obtain ⟨bound', ⟨hname', t, t', hbind'⟩, rfl⟩ := hb
  intro heq hplain
  change bound.1 = bound'.1 at heq
  change bound.2.normalize.carriers = [] at hplain
  rw [hname, hname'] at heq
  rw [carriers_gathers.normalize] at hplain
  exact same_normalize (Expr.same_bind ⟨rfl, rfl⟩ a.2 (hsame heq) hbind hbind' hplain)

/-- Names that are defined again by a query have values without parameters and values tables. -/
def Query.RedefinesPlainly (query : Query) : Prop :=
  (selectDefinitions query.select).Pairwise fun definition definition' =>
    definition.1 = definition'.1 → definition.2.carriers = [] ∧ definition'.2.carriers = []

/-- The aliases of a query that is bound can be collected again under this condition only. -/
theorem collect_iff_redefinesPlainly {ctx : Context} {written bound : Query} {s s' : BindState}
    (hbind : written.bind ctx s = .ok bound s') {place : Place} {queries : List Query}
    (hmirror : ScopesMirror place.catalog place.scopes queries) {k k' : Nat}
    (hsettled : bound.Settled place k k') :
    (∃ table, AliasTable.collect bound.select true = .ok table) ↔ bound.RedefinesPlainly := by
  rw [AliasTable.collect_iff]
  constructor
  · intro hsame
    refine (hsame.and (hsettled.carriers_of_same hmirror)).imp fun ⟨hsame, hplain⟩ heq => ?_
    have hfirst := hplain (hsame heq)
    exact ⟨hfirst, carriers_of_same (hsame heq) hfirst⟩
  · intro hplain
    obtain ⟨-, _, _, _, _, _, -, hcollect, hclauses, -, -⟩ := Query.bind_eq_ok hbind
    have hsame := AliasTable.same_of_collect hcollect
    cases hclauses with
    | mk hselect =>
      have hcompiled := pairwise_of_forall₂ (selectDefinitions_of_bind hselect) hsame
        fun _ _ _ _ => same_of_compiledDefinition
      exact (hcompiled.and hplain).imp fun h heq => h.1 heq (h.2 heq).1

/-! ### Compiled queries -/

variable {catalog : Catalog} {config : Config}

/-- In a compiled query the aliases of every query are refused unless it redefines plainly. -/
theorem collect_iff_of_compile {query : Query} {c : CompiledQuery}
    (h : query.compile catalog config = .ok c) {inner : Nat × Query}
    (hinner : inner ∈ c.query.queries) :
    (∃ table, AliasTable.collect inner.2.select true = .ok table) ↔ inner.2.RedefinesPlainly := by
  obtain ⟨written, -, -, ctx, s, s', -, -, hbind⟩ :=
    exists_of_forall₂ (Query.nested_of_compile h).queries hinner
  obtain ⟨queries, hsite⟩ := exists_site_of_mem_parts (mem_queriesIn.1 hinner)
  obtain ⟨place, k, k', rfl, hmirror, hsettled⟩ := sites_of_compile h _ hsite
  exact collect_iff_redefinesPlainly hbind hmirror hsettled

/-- Where a query compiles, the aliases of every query inside it can be collected. -/
theorem collect_of_compile {query : Query} {c : CompiledQuery}
    (h : query.compile catalog config = .ok c) {inner : Nat × Query}
    (hinner : inner ∈ query.queries) :
    ∃ table, AliasTable.collect inner.2.select config.allowIdenticalAliases = .ok table := by
  obtain ⟨_, -, -, _, _, _, rfl, -, hbind⟩ :=
    exists_of_forall₂ (Query.nested_of_compile h).queries.flip hinner
  obtain ⟨-, _, _, aliases, _, _, -, hcollect, -⟩ := Query.bind_eq_ok hbind
  exact ⟨aliases, hcollect⟩

/--
Where names may be defined again, compiling the query of a compilation again gives the same
compilation exactly if no query inside it defines a name twice with a value that has a parameter or
a values table in it. Otherwise it is refused for a name that is defined twice.
-/
theorem compile_redefinitions (catalog : Catalog) (config : Config) (query : Query)
    (c : CompiledQuery) (hallow : config.allowIdenticalAliases = true)
    (h : query.compile catalog config = .ok c) :
    ((∀ inner ∈ c.query.queries, inner.2.RedefinesPlainly) →
      c.query.compile catalog config = .ok c) ∧
    ((¬ ∀ inner ∈ c.query.queries, inner.2.RedefinesPlainly) →
      ∃ name, c.query.compile catalog config = .error (.aliasing (.duplicate name))) := by
  obtain ⟨count, hsettled, hfinish⟩ := Query.settled_of_compile h
  -- binding again can go wrong only where the aliases of a query are refused
  have hrefusals : RefusalsIn
      (fun e => (∃ name, e = .aliasing (.duplicate name)) ∧
        ¬ ∀ inner ∈ c.query.queries, inner.2.RedefinesPlainly)
      config (c.query.parts 0) := by
    intro _ level inner hinner e herror
    obtain ⟨name, rfl⟩ := AliasTable.duplicate_of_collect herror
    refine ⟨⟨name, rfl⟩, fun hplain => ?_⟩
    have hmem : (level, inner) ∈ c.query.queries := mem_queriesIn.2 hinner
    obtain ⟨table, hcollect⟩ := (collect_iff_of_compile h hmem).2 (hplain _ hmem)
    rw [hcollect] at herror
    cases herror
  let start :=
    BindState.start.note (.compileStarted c.query.sources.length c.query.wheres.length)
  rcases hsettled.restores (Context.top_at catalog config) hrefusals start rfl with
    ⟨s', hbind, rfl⟩ | ⟨_, s', hbind, ⟨name, rfl⟩, hrepeated⟩
  · have hagain : c.query.compile catalog config = .ok c := Query.compile_of_bind hbind hfinish
    refine ⟨fun _ => hagain, fun hrepeated => absurd (fun inner hinner => ?_) hrepeated⟩
    rw [← collect_iff_of_compile h hinner, ← hallow]
    exact collect_of_compile hagain hinner
  · exact ⟨fun hplain => absurd hplain hrepeated,
      fun _ => ⟨name, Query.compile_of_bind_error hbind⟩⟩

/-! ### A name for two numbers -/

/-- Two values under one name. -/
def twoOnes (e f : Expr) : Expr := .tuple [.aliased e "one", .aliased f "one"]

def onesOfPosts (e f : Expr) : Query :=
  .mk (.mk (.table "posts") none) [] [] (some (twoOnes e f)) [] [] [] none none false

/-- The number one as a parameter with this index. -/
def oneAt (index : Option Nat) : Expr := .param ⟨.integer 1, index, none, false⟩

theorem collect_twoOnes {e : Expr} (h : e.same e = true) :
    ∃ table, AliasTable.collect (some (twoOnes e e))
      (Context.top postCatalog ⟨1, true, true⟩).config.allowIdenticalAliases = .ok table :=
  AliasTable.collect_iff.2 (List.pairwise_pair.2 fun _ => h)

theorem compile_literalOnes :
    ∃ c, (onesOfPosts (.literal (.integer 1)) (.literal (.integer 1))).compile postCatalog
        ⟨1, true, true⟩ = .ok c ∧
      c.query = onesOfPosts (.literal (.integer 1)) (.literal (.integer 1)) := by
  obtain ⟨table, hcollect⟩ := collect_twoOnes (e := .literal (.integer 1)) (by
    simp [Expr.same, Value.same])
  obtain ⟨s', hbind⟩ : ∃ s', (onesOfPosts (.literal (.integer 1)) (.literal (.integer 1))).bind
      (.top postCatalog ⟨1, true, true⟩) (BindState.start.note (.compileStarted 1 0)) =
        .ok (onesOfPosts (.literal (.integer 1)) (.literal (.integer 1))) s' := by
    rw [onesOfPosts, Query.bind, hcollect]
    exact ⟨_, rfl⟩
  exact ⟨_, Query.compile_of_bind hbind (finish_of_bind rfl hbind), rfl⟩

theorem compile_onesOfPosts :
    ∃ c, (onesOfPosts (oneAt none) (oneAt none)).compile postCatalog ⟨1, true, true⟩ = .ok c ∧
      c.query = onesOfPosts (oneAt (some 0)) (oneAt (some 1)) := by
  obtain ⟨table, hcollect⟩ := collect_twoOnes (e := oneAt none) (by
    simp [oneAt, Expr.same, Param.same, Value.same])
  obtain ⟨s', hbind⟩ : ∃ s', (onesOfPosts (oneAt none) (oneAt none)).bind
      (.top postCatalog ⟨1, true, true⟩) (BindState.start.note (.compileStarted 1 0)) =
        .ok (onesOfPosts (oneAt (some 0)) (oneAt (some 1))) s' := by
    rw [onesOfPosts, Query.bind, hcollect]
    exact ⟨_, rfl⟩
  exact ⟨_, Query.compile_of_bind hbind (finish_of_bind rfl hbind), rfl⟩

/-- The number is accepted again as a literal, and refused as a parameter. -/
theorem compile_redefinitions_onesOfPosts :
    (∃ c, (onesOfPosts (.literal (.integer 1)) (.literal (.integer 1))).compile postCatalog
        ⟨1, true, true⟩ = .ok c ∧
      c.query.compile postCatalog ⟨1, true, true⟩ = .ok c) ∧
    ∃ c name, (onesOfPosts (oneAt none) (oneAt none)).compile postCatalog ⟨1, true, true⟩ =
        .ok c ∧
      c.query.compile postCatalog ⟨1, true, true⟩ = .error (.aliasing (.duplicate name)) := by
  constructor
  · obtain ⟨c, hcompile, hquery⟩ := compile_literalOnes
    refine ⟨c, hcompile, (compile_redefinitions postCatalog _ _ c rfl hcompile).1 ?_⟩
    rw [hquery]
    exact List.forall_mem_singleton.2 (List.pairwise_pair.2 fun _ => ⟨rfl, rfl⟩)
  · obtain ⟨c, hcompile, hquery⟩ := compile_onesOfPosts
    have hrefused := (compile_redefinitions postCatalog _ _ c rfl hcompile).2 fun hplain => by
      rw [hquery] at hplain
      have hnone := (List.pairwise_pair.1 (hplain _ (List.mem_cons_self ..)) rfl).1
      cases hnone
    obtain ⟨name, hname⟩ := hrefused
    exact ⟨c, name, hcompile, hname⟩

/-- A query that compiles need not compile again, although names may be defined again. -/
theorem exists_compiled_refused : ¬ ∀ (catalog : Catalog) (config : Config) (query : Query)
    (c : CompiledQuery), config.allowIdenticalAliases = true →
      query.compile catalog config = .ok c → ∃ c', c.query.compile catalog config = .ok c' := by
  intro hclaim
  obtain ⟨c, hcompile, hquery⟩ := compile_onesOfPosts
  obtain ⟨c', hagain⟩ := hclaim postCatalog ⟨1, true, true⟩ _ c rfl hcompile
  rw [hquery] at hagain
  have hcollect := collect_of_compile hagain (List.mem_cons_self ..)
  have hsame := List.pairwise_pair.1 (AliasTable.collect_iff.1 hcollect) rfl
  simp [oneAt, Expr.same, Param.same] at hsame

end QueryCompiler
