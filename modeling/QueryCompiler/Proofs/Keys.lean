import QueryCompiler.Proofs.Keys.Agreement
import QueryCompiler.Proofs.Keys.Inlines
import QueryCompiler.Proofs.Keys.Reading
import QueryCompiler.Proofs.Recompilation

/-!
# What cache keys tell

Compilations with equal keys can share the text that the backend makes of one of them, since their
trees differ in values only. This needs names that shapes keep apart: with a name that contains a
delimiter, a shape can be that of another query. Between queries that differ in values only it needs
nothing: what is written inline is always seen in the key.
-/

namespace QueryCompiler

/-- The posts with a title that is given. -/
def titledPosts (title : String) : Query :=
  .mk (.mk (.schema "posts") (some "p")) []
    [.operator .equal [.field ⟨.binding "p", .schema "title", none⟩,
      .param (.ofValue (.string title))]]
    (some (.field ⟨.position 0, .schema "id", none⟩)) [] [] [] none none false

theorem shape_eq_of_key_eq {query query' : Query} (h : query.cacheKey = query'.cacheKey) :
    query.shape = query'.shape :=
  String.ofList_injective (congrArg CacheKey.shape h)

theorem Query.key_of_finish {query : Query} {count : Nat} {params : List BoundParam}
    {key : CacheKey} (h : query.finish count = .ok (params, key)) : key = query.cacheKey :=
  (finish_eq_ok.1 h).2

/-- Compilations with equal keys and legible names have the same tree up to erasure. -/
theorem compile_key_erase (catalog : Catalog) (config config' : Config) (query query' : Query)
    (c c' : CompiledQuery) (h : query.compile catalog config = .ok c)
    (h' : query'.compile catalog config' = .ok c')
    (hlegible : c.query.legible = true) (hlegible' : c'.query.legible = true)
    (hkey : c.key = c'.key) : c.query.erase = c'.query.erase := by
  obtain ⟨count, hsettled, hfinish⟩ := Query.settled_of_compile h
  obtain ⟨count', hsettled', hfinish'⟩ := Query.settled_of_compile h'
  have hshape : c.query.shape = c'.query.shape := by
    rw [Query.key_of_finish hfinish, Query.key_of_finish hfinish'] at hkey
    exact shape_eq_of_key_eq hkey
  obtain ⟨halike, -⟩ := Query.alike_of_shape hsettled hsettled' hlegible hlegible'
    (r := []) (s := []) (by rw [hshape])
  have hagrees : (Place.top catalog config).Agrees (.top catalog config') := ⟨rfl, rfl⟩
  exact (halike.erase_eq hagrees hsettled hsettled').1

theorem compile_key_erase_titledPosts :
    ∃ c c', (titledPosts "hello").compile postCatalog .default = .ok c ∧
      (titledPosts "goodbye").compile postCatalog .default = .ok c' ∧
      c.query.legible = true ∧ c'.query.legible = true ∧ c.key = c'.key ∧
      c.query.erase = c'.query.erase :=
  ⟨_, _, rfl, rfl, rfl, rfl, rfl,
    compile_key_erase postCatalog .default .default (titledPosts "hello") (titledPosts "goodbye")
      _ _ rfl rfl rfl rfl rfl⟩

/-- A table whose name reads like another table with a name of its own. -/
theorem compile_key_collision :
    ∃ c c', Query.compile .empty .default
        (.mk (.mk (.table "posts as:p") none) [] [] none [] [] [] none none false) = .ok c ∧
      Query.compile .empty .default
        (.mk (.mk (.table "posts") (some "p")) [] [] none [] [] [] none none false) = .ok c' ∧
      c.key = c'.key ∧ c.query.erase ≠ c'.query.erase :=
  ⟨_, _, rfl, rfl, rfl, fun h =>
    absurd (congrArg (fun query => query.sources.map Source.name) h) (by decide)⟩

/-! ### Inline values -/

/-- The first posts, if they are asked for at all. -/
def firstPosts (asked : Bool) (count : Int64) : Query :=
  .mk (.mk (.schema "posts") none) [] [.literal (.bool asked)]
    (some (.field ⟨.position 0, .schema "id", none⟩)) [] [] []
    (some (.param (.ofValue (.integer count)))) none false

/--
Compilations that have one outline and differ in more than the values bound to them have different
keys, whichever and however many of their inline values differ.
-/
theorem compile_key_inline (catalog : Catalog) (config config' : Config) (query query' : Query)
    (c c' : CompiledQuery) (h : query.compile catalog config = .ok c)
    (h' : query'.compile catalog config' = .ok c')
    (houtline : c.query.outline = c'.query.outline)
    (hinline : c.query.change .forgetting ≠ c'.query.change .forgetting) : c.key ≠ c'.key := by
  intro hkey
  apply hinline
  obtain ⟨count, hsettled, hfinish⟩ := Query.settled_of_compile h
  obtain ⟨count', hsettled', hfinish'⟩ := Query.settled_of_compile h'
  have hshape : c.query.shape = c'.query.shape := by
    rw [Query.key_of_finish hfinish, Query.key_of_finish hfinish'] at hkey
    exact shape_eq_of_key_eq hkey
  exact (Query.forgotten_of_shape hsettled hsettled' houtline (congrArg (· ++ []) hshape)).1

theorem compile_key_inline_firstPosts :
    ∃ c c', (firstPosts true 1).compile postCatalog .default = .ok c ∧
      (firstPosts false 2).compile postCatalog .default = .ok c' ∧
      c.query.outline = c'.query.outline ∧
      c.query.change .forgetting ≠ c'.query.change .forgetting ∧ c.key ≠ c'.key :=
  ⟨_, _, rfl, rfl, rfl, nofun,
    compile_key_inline postCatalog .default .default (firstPosts true 1) (firstPosts false 2)
      _ _ rfl rfl rfl nofun⟩

end QueryCompiler
