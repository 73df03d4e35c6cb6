import QueryCompiler.Proofs.Binding.Settling
import QueryCompiler.Proofs.Parts

/-!
# Settled trees are fixed points of binding

Binding a settled tree from the index at which its parameters start gives the same tree and ends at
the index after them, unless the aliases of a query in it are refused. That happens only where names
may be defined again: their values are then compared anew, with the indices that they have by now.
-/

namespace QueryCompiler

/-! ### Steps that restore a result -/

namespace BindM

variable {α β ε : Type} {P : CompileError → Prop} {k k₁ k' : Nat}

/-- A step that gives `a` and goes from index `k` to `k'`, unless it fails with an error in `P`. -/
def Restores (P : CompileError → Prop) (k : Nat) (m : BindM α) (a : α) (k' : Nat) : Prop :=
  ∀ s, s.nextParam = k →
    (∃ s', m s = .ok a s' ∧ s'.nextParam = k') ∨ ∃ e s', m s = .error e s' ∧ P e

namespace Restores

theorem of_ok {m : BindM α} {a : α}
    (h : ∀ s, s.nextParam = k → ∃ s', m s = .ok a s' ∧ s'.nextParam = k') :
    Restores P k m a k' :=
  fun s hs => Or.inl (h s hs)

theorem pure {a b : α} (h : a = b) : Restores P k (pure a) b k := by
  obtain rfl := h
  exact of_ok fun s hs => ⟨s, rfl, hs⟩

theorem bind {m : BindM α} {f : α → BindM β} {a : α} {b : β} (hm : Restores P k m a k₁)
    (hf : Restores P k₁ (f a) b k') : Restores P k (m >>= f) b k' := by
  intro s hs
  change (∃ s', EStateM.bind m f s = _ ∧ _) ∨ ∃ e s', EStateM.bind m f s = _ ∧ _
  rcases hm s hs with ⟨t, hms, ht⟩ | ⟨e, t, hms, he⟩
  · simp only [EStateM.bind, hms]
    exact hf t ht
  · simp only [EStateM.bind, hms]
    exact Or.inr ⟨e, t, rfl, he⟩

theorem ofExcept {wrap : ε → CompileError} {x : Except ε α} {a : α} (h : x = .ok a) :
    Restores P k (ofExcept wrap x) a k := by
  rw [h]
  exact pure rfl

/-- What follows a check has to be shown for what it gives, and the errors that it may have. -/
theorem ofExcept_bind {wrap : ε → CompileError} {x : Except ε α} {f : α → BindM β} {b : β}
    (hok : ∀ a, x = .ok a → Restores P k (f a) b k')
    (herror : ∀ e, x = .error e → P (wrap e)) :
    Restores P k (BindM.ofExcept wrap x >>= f) b k' := by
  cases x with
  | ok a => exact (pure rfl).bind (hok a rfl)
  | error e => exact fun s _ => Or.inr ⟨wrap e, s, rfl, herror e rfl⟩

theorem note (event : Event) : Restores P k (note event) () k :=
  of_ok fun s hs => ⟨s.note event, rfl, hs⟩

theorem noteAll (events : List Event) : Restores P k (noteAll events) () k := by
  refine of_ok fun s hs => ?_
  obtain ⟨t, hnotes, ht⟩ := noteAll_ok events s
  exact ⟨t, hnotes, ht.trans hs⟩

theorem finallyNote {event : Event} {m : BindM α} {a : α} (h : Restores P k m a k') :
    Restores P k (finallyNote event m) a k' := by
  intro s hs
  rcases h s hs with ⟨t, hms, ht⟩ | ⟨e, t, hms, he⟩
  · exact Or.inl ⟨t.note event, finallyNote_eq_ok.2 ⟨t, hms, rfl⟩, ht⟩
  · exact Or.inr ⟨e, t.note event, by simp [BindM.finallyNote, hms], he⟩

theorem get_bind {f : BindState → BindM β} {b : β} (h : ∀ s, Restores P k (f s) b k') :
    Restores P k (get >>= f) b k' :=
  fun s hs => h s s hs

end Restores

end BindM

open BindM

variable {P : CompileError → Prop}

theorem Param.restores {p : Param} {k : Nat} (h : p.index = some k) :
    Restores P k p.assign p (k + 1) := by
  refine .of_ok fun s hs => ⟨s.skip 1, Param.assign_eq_ok.2 ⟨?_, rfl⟩, ?_⟩
  · obtain ⟨value, index, type, splice⟩ := p
    obtain rfl : index = some k := h
    rw [hs]
  · rw [BindState.nextParam_skip, hs]

theorem ValuesTable.restores {table : ValuesTable} {k : Nat} (h : table.firstParam = some k) :
    Restores P k table.assign table (k + table.paramCount) := by
  refine .of_ok fun s hs => ⟨s.skip table.paramCount, ValuesTable.assign_eq_ok.2 ⟨?_, rfl⟩, ?_⟩
  · obtain ⟨rows, types, resolved, firstParam⟩ := table
    obtain rfl : firstParam = some k := h
    rw [hs]
  · rw [BindState.nextParam_skip, hs]

theorem Projection.restores {ctx : Context} {p : Projection} {k : Nat} {slot : Slot}
    {bound : BoundSource} (hslot : ctx.scopes.resolve p.source = .ok (slot, bound))
    (hset : ∀ schema, bound.shape = .schema schema → p.set.Valid ctx.catalog schema) :
    Restores P k (p.bind ctx) ⟨p.source, p.set, some slot⟩ k := by
  refine .of_ok fun s hs => ?_
  obtain ⟨s', hbind, hnext⟩ := Projection.bind_ok hslot hset s
  exact ⟨s', hbind, hnext.trans hs⟩

theorem FragmentArg.restores_literal {role : ArgRole} (h : role.isInline = true) (v : Value)
    (k : Nat) :
    Restores P k (FragmentArg.mk role (.literal v)).inlined.assign (.mk role (.literal v)) k := by
  cases role with
  | identifier | constant => exact .pure rfl
  | parameter | splice => cases h

theorem FragmentArg.restores_splice {p : Param} {k : Nat} (hindex : p.index = some k)
    (hsplice : p.splice = true) :
    Restores P k (FragmentArg.mk .splice (.param p)).inlined.assign (.mk .splice (.param p))
      (k + 1) := by
  obtain ⟨value, index, type, splice⟩ := p
  obtain rfl : index = some k := hindex
  obtain rfl : splice = true := hsplice
  refine .of_ok fun s hs => ⟨s.skip 1, FragmentArg.assign_splice.2 ⟨?_, rfl⟩, ?_⟩
  · rw [hs]
  · rw [BindState.nextParam_skip, hs]

/-! ### Aliases that are refused -/

/--
The errors with which the aliases of the queries among some parts are refused satisfy `P`. Nothing
is asked where no name may be defined again: the names of a settled query are then distinct.
-/
def RefusalsIn (P : CompileError → Prop) (config : Config) (parts : List (Nat × Part)) : Prop :=
  config.allowIdenticalAliases = true → ∀ level query, (level, .query query) ∈ parts →
    ∀ e, AliasTable.collect query.select true = .error e → P (.aliasing e)

namespace RefusalsIn

variable {config : Config} {parts more : List (Nat × Part)}

theorem of_strict (h : config.allowIdenticalAliases = false) : RefusalsIn P config parts := by
  intro hallow
  rw [h] at hallow
  cases hallow

theorem left (h : RefusalsIn P config (parts ++ more)) : RefusalsIn P config parts :=
  fun hallow level query hmem => h hallow level query (List.mem_append_left more hmem)

theorem right (h : RefusalsIn P config (parts ++ more)) : RefusalsIn P config more :=
  fun hallow level query hmem => h hallow level query (List.mem_append_right parts hmem)

theorem append_iff :
    RefusalsIn P config (parts ++ more) ↔ RefusalsIn P config parts ∧ RefusalsIn P config more := by
  refine ⟨fun h => ⟨h.left, h.right⟩, fun h hallow level query hmem => ?_⟩
  exact (List.mem_append.1 hmem).elim (h.1 hallow level query) (h.2 hallow level query)

theorem tail {part : Nat × Part} (h : RefusalsIn P config (part :: parts)) :
    RefusalsIn P config parts :=
  fun hallow level query hmem => h hallow level query (List.mem_cons_of_mem part hmem)

end RefusalsIn

/-! ### The induction -/

mutual

theorem Expr.Settled.restores {ctx : Context} {place : Place} (hat : ctx.At place) {level : Nat}
    {o : Bool} {e : Expr} {k k' : Nat} (h : e.Settled place o k k')
    (hP : RefusalsIn P place.config (e.parts level)) : Restores P k (e.bind ctx o) e k' := by
  rw [Expr.parts.eq_def] at hP
  replace hP := hP.tail
  match e with
  | .literal v =>
    cases h
    exact .pure rfl
  | .param p =>
    cases h with
    | param hindex => exact (Param.restores hindex).bind (.pure rfl)
  | .field f =>
    cases h with
    | field hfield =>
      rw [← hat.scopes] at hfield
      exact (Restores.ofExcept hfield).bind (.pure rfl)
  | .binding r =>
    cases h with
    | binding hslot =>
      rw [← hat.scopes] at hslot
      exact (Restores.ofExcept hslot).bind (.pure rfl)
  | .parentBinding r =>
    cases h with
    | parentBinding hslot =>
      rw [← hat.scopes] at hslot
      exact (Restores.ofExcept hslot).bind (.pure rfl)
  | .operator op operands =>
    cases h with
    | operator hcheck htypes hoperands =>
      refine (Restores.ofExcept hcheck).bind ((hoperands.restores hat hP).bind (.pure ?_))
      rw [htypes]
  | .aggregate kind args distinct filter =>
    cases h with
    | aggregate hcheck hargs hfilter =>
      exact (Restores.ofExcept hcheck).bind
        ((hargs.restores hat hP.left).bind ((hfilter.restores hat hP.right).bind (.pure rfl)))
  | .fragment text parts args =>
    cases h with
    | fragment hcount hfault hargs =>
      have hprocess : Fragment.process ⟨text, fragmentParts text, args⟩ =
          .ok ⟨text, fragmentParts text, args.map FragmentArg.inlined⟩ :=
        process_eq_ok.2 ⟨hcount, hfault, rfl⟩
      exact (Restores.ofExcept hprocess).bind ((hargs.restores hat hP).bind (.pure rfl))
  | .cast value target resolved =>
    cases h with
    | cast hvalue hcastable htype htarget =>
      rw [← hat.scopes] at htarget
      refine (hvalue.restores hat hP).bind
        ((Restores.ofExcept ((checkCastOperand_eq_ok (u := ())).2 hcastable)).bind
          ((Restores.ofExcept htarget).bind (.pure ?_)))
      rw [htype]
  | .subquery kind query =>
    cases h with
    | subquery hquery => exact (hquery.restores hat hP).bind (.pure rfl)
  | .values table =>
    cases h with
    | values hcheck hindex =>
      rw [← hat.catalog, ← hat.scopes] at hcheck
      exact (Restores.ofExcept hcheck).bind ((ValuesTable.restores hindex).bind (.pure rfl))
  | .projection kind p =>
    cases h with
    | projection hslot hset =>
      rw [← hat.scopes] at hslot
      rw [← hat.catalog] at hset
      exact (Projection.restores hslot hset).bind (.pure rfl)
  | .merge left right =>
    cases h with
    | merge hleft hright =>
      exact (hleft.restores hat hP.left).bind ((hright.restores hat hP.right).bind (.pure rfl))
  | .aliased value name =>
    cases h with
    | aliased hvalue => exact (hvalue.restores hat hP).bind (.pure rfl)
  | .aliasRef name =>
    cases h with
    | aliasRef hname =>
      obtain ⟨value, hresolve⟩ := Option.isSome_iff_exists.1 ((hat.aliases name).2 hname)
      have hrequire : ctx.aliases.require name = .ok () := by rw [AliasTable.require, hresolve]
      exact (Restores.ofExcept hrequire).bind (.pure rfl)
  | .jsonPath base path =>
    cases h with
    | jsonPath hfield hpath =>
      rw [← hat.scopes] at hfield
      have hbase : Restores P k ((Expr.field _).bindAccess ctx) (.field _, []) k :=
        (Restores.ofExcept hfield).bind (.pure rfl)
      exact hbase.bind ((hpath.restores hat hP.right).bind (.pure rfl))
  | .interval count unit =>
    cases h with
    | interval hcount htype =>
      refine (hcount.restores hat hP).bind (.pure ?_)
      rw [htype]
  | .tuple items =>
    cases h with
    | tuple hitems => exact (hitems.restores hat hP).bind (.pure rfl)
  | .mapping entries =>
    cases h with
    | mapping hentries => exact (hentries.restores hat hP).bind (.pure rfl)
termination_by structural e

theorem SettledAll.restores {ctx : Context} {place : Place} (hat : ctx.At place) {level : Nat}
    {o : Bool} {es : List Expr} {k k' : Nat} (h : SettledAll place o k es k')
    (hP : RefusalsIn P place.config (partsAll level es)) :
    Restores P k (bindAll ctx o es) es k' := by
  match es with
  | [] =>
    cases h
    exact .pure rfl
  | e :: rest =>
    cases h with
    | cons he hrest =>
      exact (he.restores hat hP.left).bind ((hrest.restores hat hP.right).bind (.pure rfl))
termination_by structural es

theorem SettledEntries.restores {ctx : Context} {place : Place} (hat : ctx.At place) {level : Nat}
    {o : Bool} {entries : List (String × Expr)} {k k' : Nat}
    (h : SettledEntries place o k entries k')
    (hP : RefusalsIn P place.config (partsEntries level entries)) :
    Restores P k (bindEntries ctx o entries) entries k' := by
  match entries with
  | [] =>
    cases h
    exact .pure rfl
  | (key, e) :: rest =>
    cases h with
    | cons he hrest =>
      exact (he.restores hat hP.left).bind ((hrest.restores hat hP.right).bind (.pure rfl))
termination_by structural entries

theorem SettledOption.restores {ctx : Context} {place : Place} (hat : ctx.At place) {level : Nat}
    {o : Bool} {e : Option Expr} {k k' : Nat} (h : SettledOption place o k e k')
    (hP : RefusalsIn P place.config (partsOption level e)) :
    Restores P k (bindOption ctx o e) e k' := by
  match e with
  | none =>
    cases h
    exact .pure rfl
  | some e =>
    cases h with
    | some he => exact (he.restores hat hP).bind (.pure rfl)
termination_by structural e

theorem SettledArgs.restores {ctx : Context} {place : Place} (hat : ctx.At place) {level : Nat}
    {args : List FragmentArg} {k k' : Nat} (h : SettledArgs place k args k')
    (hP : RefusalsIn P place.config (partsArgs level args)) :
    Restores P k (bindArgs ctx args) args k' := by
  match args with
  | [] =>
    cases h
    exact .pure rfl
  | .mk role e :: rest =>
    cases h with
    | parameter he hrest =>
      exact (he.restores hat hP.left).bind ((hrest.restores hat hP.right).bind (.pure rfl))
    | @inline _ _ _ _ v _ hrole hrest =>
      have harg := FragmentArg.restores_literal (P := P) hrole v k
      cases role with
      | identifier | constant => exact harg.bind ((hrest.restores hat hP.right).bind (.pure rfl))
      | parameter | splice => cases hrole
    | splice hindex hsplice hrest =>
      exact (FragmentArg.restores_splice hindex hsplice).bind
        ((hrest.restores hat hP.right).bind (.pure rfl))
termination_by structural args

theorem SettledPath.restores {ctx : Context} {place : Place} (hat : ctx.At place) {level : Nat}
    {path : List PathStep} {k k' : Nat} (h : SettledPath place k path k')
    (hP : RefusalsIn P place.config (partsPath level path)) :
    Restores P k (bindPath ctx path) path k' := by
  match path with
  | [] =>
    cases h
    exact .pure rfl
  | .computed e :: rest =>
    cases h with
    | computed he hrest =>
      exact (he.restores hat hP.left).bind ((hrest.restores hat hP.right).bind (.pure rfl))
  | .key name :: rest =>
    cases h with
    | key hrest => exact (hrest.restores hat hP).bind (.pure rfl)
  | .index i :: rest =>
    cases h with
    | index hrest => exact (hrest.restores hat hP).bind (.pure rfl)
termination_by structural path

theorem SettledAll.restoresWheres {ctx : Context} {place : Place} (hat : ctx.At place)
    {level : Nat} {wheres : List Expr} {k k' : Nat}
    (haggregates : place.config.rejectAggregatesInWhere = true →
      ∀ e ∈ wheres, e.containsAggregate = false)
    (h : SettledAll place false k wheres k')
    (hP : RefusalsIn P place.config (partsAll level wheres)) :
    Restores P k (bindWheres ctx wheres) wheres k' := by
  match wheres with
  | [] =>
    cases h
    exact .pure rfl
  | e :: rest =>
    cases h with
    | cons he hrest =>
      simp only [List.forall_mem_cons] at haggregates
      have hallowed :
          ¬(ctx.config.rejectAggregatesInWhere && e.containsAggregate) = true := by
        rw [hat.config]
        intro hreject
        rw [Bool.and_eq_true] at hreject
        rw [(haggregates hreject.1).1] at hreject
        cases hreject.2
      rw [bindWheres, if_neg hallowed]
      refine (he.restores hat hP.left).bind ?_
      exact (hrest.restoresWheres hat (fun hreject => (haggregates hreject).2) hP.right).bind
        (.pure rfl)
termination_by structural wheres

theorem SettledTerms.restores {ctx : Context} {place : Place} (hat : ctx.At place) {level : Nat}
    {terms : List OrderTerm} {k k' : Nat} (h : SettledTerms place k terms k')
    (hP : RefusalsIn P place.config (partsTerms level terms)) :
    Restores P k (bindTerms ctx terms) terms k' := by
  match terms with
  | [] =>
    cases h
    exact .pure rfl
  | .mk e direction :: rest =>
    cases h with
    | cons he hrest =>
      exact (he.restores hat hP.left).bind ((hrest.restores hat hP.right).bind (.pure rfl))
termination_by structural terms

theorem Source.Settled.restores {ctx : Context} {place : Place} (hat : ctx.At place) {level : Nat}
    {source : Source} {k k' : Nat} (h : source.Settled place k k')
    (hP : RefusalsIn P place.config (source.parts level)) :
    Restores P k (source.bind ctx source.table?) source k' := by
  match source with
  | .mk (.schema schema) name =>
    cases h
    exact .pure rfl
  | .mk (.table table) name =>
    cases h
    exact .pure rfl
  | .mk (.values table) name =>
    cases h with
    | values hindex => exact (ValuesTable.restores hindex).bind (.pure rfl)
  | .mk (.subquery query) name =>
    cases h with
    | subquery hquery => exact (hquery.restores hat hP).bind (.pure rfl)
  | .mk (.fragment e) name =>
    cases h with
    | fragment hfragment he =>
      rw [Source.bind, if_pos hfragment]
      exact (he.restores hat hP).bind (.pure rfl)
termination_by structural source

theorem SettledJoins.restores {ctx : Context} {place : Place} (hat : ctx.At place) {level : Nat}
    {joins : List Join} {k k' : Nat} (h : SettledJoins place k joins k')
    (hP : RefusalsIn P place.config (partsJoins level joins)) :
    Restores P k (bindJoins ctx ((joins.map Join.source).map Source.table?) joins) joins k' := by
  match joins with
  | [] =>
    cases h
    exact .pure rfl
  | .mk kind source on :: rest =>
    cases h with
    | cons hsource hon hrest =>
      exact (hsource.restores hat hP.left.left).bind ((hon.restores hat hP.left.right).bind
        ((hrest.restores hat hP.right).bind (.pure rfl)))
termination_by structural joins

theorem Query.Settled.restores {ctx : Context} {place : Place} (hat : ctx.At place) {level : Nat}
    {query : Query} {k k' : Nat} (h : query.Settled place k k')
    (hP : RefusalsIn P place.config (query.parts level)) :
    Restores P k (query.bind ctx) query k' := by
  match query with
  | .mk source joins wheres select groupBy having orderBy limit offset distinct =>
    rw [Query.parts.eq_def] at hP
    have hparts := hP.tail
    simp only [RefusalsIn.append_iff] at hparts
    obtain ⟨⟨⟨⟨⟨⟨⟨⟨hsourceP, hjoinsP⟩, hwheresP⟩, hselectP⟩, hgroupByP⟩, hhavingP⟩, horderByP⟩,
      hlimitP⟩, hoffsetP⟩ := hparts
    cases h with
    | @mk _ _ _ _ _ _ _ _ _ _ _ _ _ _ _ _ _ _ _ _ _ scope hdepth hdeclared haliases hselect hnormal
        hsource hjoins hwheres haggregates hgroupBy hhaving horderBy hlimit hlimitType hoffset
        hoffsetType =>
      rw [← hat.scopes, ← hat.config] at hdepth
      rw [← hat.catalog, ← hat.scopes] at hdeclared
      rw [Query.bind]
      simp only [hdeclared]
      rw [if_neg (Nat.not_lt_of_le hdepth)]
      refine (Restores.note _).bind (.finallyNote ((Restores.ofExcept rfl).bind ?_))
      -- only here can a refusal come from the query itself, not from a part of it
      refine .ofExcept_bind (fun aliases hcollect => ?_) fun e herror => ?_
      · have hinside : (ctx.inside scope aliases).At (place.inside scope select) :=
          hat.inside (AliasTable.collect_eq_ok hcollect).1
        refine (Restores.note _).bind ((hselect.restores hinside hselectP).bind ?_)
        refine (hsource.restores hinside hsourceP).bind ?_
        refine (hjoins.restores hinside hjoinsP).bind ?_
        refine (hwheres.restoresWheres hinside haggregates hwheresP).bind ?_
        refine (hgroupBy.restores hinside hgroupByP).bind ?_
        refine (hhaving.restores hinside hhavingP).bind ?_
        refine (horderBy.restores hinside horderByP).bind ?_
        refine (hlimit.restores hinside hlimitP).bind ?_
        refine (hoffset.restores hinside hoffsetP).bind ?_
        refine (Restores.noteAll _).bind (.get_bind fun s => (Restores.note _).bind (.pure ?_))
        rw [hnormal, hlimitType, hoffsetType]
      · cases hallow : place.config.allowIdenticalAliases with
        | false =>
          obtain ⟨aliases, hcollect⟩ :=
            AliasTable.collect_of_nodup (haliases hallow) ctx.config.allowIdenticalAliases
          rw [hcollect] at herror
          cases herror
        | true =>
          rw [hat.config, hallow] at herror
          exact hP hallow level _ (List.mem_cons_self ..) e herror
termination_by structural query

end

/-- Where no name may be defined again, binding a settled query again gives the same query. -/
theorem Query.Settled.bind {ctx : Context} {place : Place} (hat : ctx.At place)
    (hstrict : place.config.allowIdenticalAliases = false) {query : Query} {s : BindState}
    {k' : Nat} (h : query.Settled place s.nextParam k') :
    ∃ s', query.bind ctx s = .ok query s' ∧ s'.nextParam = k' := by
  have hrefusals : RefusalsIn (fun _ => False) place.config (query.parts 0) := .of_strict hstrict
  rcases h.restores hat hrefusals s rfl with hbind | ⟨_, _, _, hfalse⟩
  · exact hbind
  · exact hfalse.elim

end QueryCompiler
