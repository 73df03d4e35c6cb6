import QueryCompiler.Binding
import QueryCompiler.Proofs.Binding.Steps

/-!
# Runs that follow other runs

A run of binding follows another one if it succeeds whenever that one does, with a related result,
and fails with the same error whenever that one fails with an error that is not excused. The counter
of the second run is ahead of that of the first by a fixed number; what the two note is not
compared. Every way of making a step keeps this.
-/

namespace QueryCompiler

variable {α β γ δ ε : Type}

/-! ### Checks -/

/-- A check that succeeds whenever another does and has its errors unless they are excused. -/
structure Carries (excused : ε → Prop) (R : α → β → Prop) (x : Except ε α) (x' : Except ε β) :
    Prop where
  ok : ∀ a, x = .ok a → ∃ b, x' = .ok b ∧ R a b
  error : ∀ e, x = .error e → excused e ∨ x' = .error e

namespace Carries

variable {excused : ε → Prop} {R : α → β → Prop} {x : Except ε α} {x' : Except ε β}

theorem of_ok {a : α} {b : β} (h : R a b) : Carries excused R (.ok a) (.ok b) := by
  refine ⟨?_, by simp⟩
  rintro _ ⟨⟩
  exact ⟨b, rfl, h⟩

theorem of_error (e : ε) : Carries excused R (.error e) (.error e : Except ε β) := by
  refine ⟨by simp, ?_⟩
  rintro _ ⟨⟩
  exact Or.inr rfl

theorem of_excused {e : ε} (h : excused e) : Carries excused R (.error e) x' := by
  refine ⟨by simp, ?_⟩
  rintro _ ⟨⟩
  exact Or.inl h

theorem refl (x : Except ε α) : Carries excused Eq x x := by
  cases x with
  | ok a => exact of_ok rfl
  | error e => exact of_error e

/-- A check whose results are those of another one, changed by a function. -/
theorem map (x : Except ε α) (f : α → β) :
    Carries excused (fun a b => b = f a) x (x.map f) := by
  cases x with
  | ok a => exact of_ok rfl
  | error e => exact of_error e

/-- Where everything is excused it is enough to succeed. -/
theorem of_tolerant (htolerant : ∀ e, excused e) (h : ∀ a, x = .ok a → ∃ b, x' = .ok b ∧ R a b) :
    Carries excused R x x' :=
  ⟨h, fun e _ => Or.inl (htolerant e)⟩

end Carries

/-! ### Steps -/

namespace BindM

/-- A step that follows another one, with `k` more indices taken before it. -/
structure Follows (k : Nat) (excused : CompileError → Prop) (R : α → β → Prop) (m : BindM α)
    (m' : BindM β) : Prop where
  ok : ∀ s s' a t, s'.nextParam = s.nextParam + k → m s = .ok a t →
    ∃ b t', m' s' = .ok b t' ∧ R a b ∧ t'.nextParam = t.nextParam + k
  error : ∀ s s' e t, s'.nextParam = s.nextParam + k → m s = .error e t →
    excused e ∨ ∃ t', m' s' = .error e t'

namespace Follows

variable {k : Nat} {excused : CompileError → Prop} {R : α → β → Prop}

theorem pure {a : α} {b : β} (h : R a b) : Follows k excused R (pure a) (pure b) := by
  constructor
  · intro s s' _ t hs hm
    cases hm
    exact ⟨b, s', rfl, h, hs⟩
  · intro s s' e t hs hm
    cases hm

theorem bind {S : γ → δ → Prop} {m : BindM α} {m' : BindM β} {f : α → BindM γ} {f' : β → BindM δ}
    (hm : Follows k excused R m m') (hf : ∀ a b, R a b → Follows k excused S (f a) (f' b)) :
    Follows k excused S (m >>= f) (m' >>= f') := by
  constructor
  · intro s s' c t hs h
    obtain ⟨a, u, hma, hfa⟩ := bind_eq_ok.1 h
    obtain ⟨b, u', hmb, hab, hu⟩ := hm.ok s s' a u hs hma
    obtain ⟨d, t', hfb, hcd, ht⟩ := (hf a b hab).ok u u' c t hu hfa
    exact ⟨d, t', bind_eq_ok.2 ⟨b, u', hmb, hfb⟩, hcd, ht⟩
  · intro s s' e t hs h
    change EStateM.bind m f s = _ at h
    change _ ∨ ∃ t', EStateM.bind m' f' s' = _
    cases hms : m s with
    | ok a u =>
      simp only [EStateM.bind, hms] at h
      obtain ⟨b, u', hmb, hab, hu⟩ := hm.ok s s' a u hs hms
      simp only [EStateM.bind, hmb]
      exact (hf a b hab).error u u' e t hu h
    | error e' u =>
      simp only [EStateM.bind, hms] at h
      cases h
      rcases hm.error s s' e t hs hms with hexcused | ⟨u', hmb⟩
      · exact Or.inl hexcused
      · exact Or.inr ⟨u', by simp only [EStateM.bind, hmb]⟩

theorem throw (e : CompileError) : Follows k excused R (throw e) (throw e : BindM β) := by
  constructor
  · intro s s' a t hs hm
    cases hm
  · intro s s' _ t hs hm
    cases hm
    exact Or.inr ⟨s', rfl⟩

theorem throw_excused {e : CompileError} (h : excused e) (m' : BindM β) :
    Follows k excused R (MonadExcept.throw e) m' := by
  constructor
  · intro s s' a t hs hm
    cases hm
  · intro s s' _ t hs hm
    cases hm
    exact Or.inl h

theorem ofExcept {wrap : ε → CompileError} {x : Except ε α} {x' : Except ε β}
    (h : Carries (fun e => excused (wrap e)) R x x') :
    Follows k excused R (ofExcept wrap x) (ofExcept wrap x') := by
  cases x with
  | ok a =>
    obtain ⟨b, rfl, hab⟩ := h.ok a rfl
    exact pure hab
  | error e =>
    rcases h.error e rfl with hexcused | rfl
    · exact throw_excused hexcused _
    · exact throw (wrap e)

theorem get : Follows k excused (fun s s' => s'.nextParam = s.nextParam + k)
    (get : BindM BindState) (get : BindM BindState) := by
  constructor
  · intro s s' a t hs hm
    cases hm
    exact ⟨s', s', rfl, hs, hs⟩
  · intro s s' e t hs hm
    cases hm

theorem note (event event' : Event) :
    Follows k excused (fun _ _ => True) (note event) (note event') := by
  constructor
  · intro s s' a t hs hm
    cases hm
    exact ⟨(), s'.note event', rfl, trivial, hs⟩
  · intro s s' e t hs hm
    cases hm

theorem noteAll (events events' : List Event) :
    Follows k excused (fun _ _ => True) (noteAll events) (noteAll events') := by
  constructor
  · intro s s' a t hs hm
    obtain ⟨t', hm', ht'⟩ := noteAll_ok events' s'
    refine ⟨(), t', hm', trivial, ?_⟩
    rw [ht', nextParam_of_noteAll hm, hs]
  · intro s s' e t hs hm
    obtain ⟨u, hu, -⟩ := noteAll_ok events s
    rw [hu] at hm
    cases hm

theorem takeIndices (count : Nat) :
    Follows k excused (fun first first' => first' = first + k) (takeIndices count)
      (takeIndices count) := by
  constructor
  · intro s s' a t hs hm
    cases hm
    refine ⟨s'.nextParam, _, rfl, hs, ?_⟩
    change s'.nextParam + count = s.nextParam + count + k
    omega
  · intro s s' e t hs hm
    cases hm

theorem finallyNote {event event' : Event} {m : BindM α} {m' : BindM β}
    (h : Follows k excused R m m') :
    Follows k excused R (finallyNote event m) (finallyNote event' m') := by
  constructor
  · intro s s' a t hs hm
    obtain ⟨u, hu, rfl⟩ := finallyNote_eq_ok.1 hm
    obtain ⟨b, u', hu', hab, hnext⟩ := h.ok s s' a u hs hu
    exact ⟨b, _, finallyNote_eq_ok.2 ⟨u', hu', rfl⟩, hab, hnext⟩
  · intro s s' e t hs hm
    cases hms : m s with
    | ok a u => simp [BindM.finallyNote, hms] at hm
    | error e' u =>
      simp only [BindM.finallyNote, hms] at hm
      cases hm
      rcases h.error s s' e u hs hms with hexcused | ⟨u', hu'⟩
      · exact Or.inl hexcused
      · exact Or.inr ⟨u'.note event', by simp [BindM.finallyNote, hu']⟩

/-- What holds of every result of the first step may be used of the results that are related. -/
theorem and_of_ok {P : α → Prop} {m : BindM α} {m' : BindM β} (h : Follows k excused R m m')
    (hP : ∀ s a t, m s = .ok a t → P a) :
    Follows k excused (fun a b => R a b ∧ P a) m m' where
  ok s s' a t hs hm := by
    obtain ⟨b, t', hm', hab, ht⟩ := h.ok s s' a t hs hm
    exact ⟨b, t', hm', ⟨hab, hP s a t hm⟩, ht⟩
  error := h.error

end Follows

end BindM

/-! ### Field sets -/

open BindM

mutual

theorem follows_checkFieldSet (k : Nat) (excused : CompileError → Prop) (catalog : Catalog)
    (schema : Schema) (set : FieldSet) : Follows k excused (fun _ _ => True)
      (checkFieldSet catalog schema set) (checkFieldSet catalog schema set) := by
  match set with
  | .mk fields nested =>
    rw [checkFieldSet]
    split
    · exact .throw _
    · exact follows_checkNested k excused catalog schema fields nested

theorem follows_checkNested (k : Nat) (excused : CompileError → Prop) (catalog : Catalog)
    (schema : Schema) (fields : List String) (nested : List NestedSelect) :
    Follows k excused (fun _ _ => True) (checkNested catalog schema fields nested)
      (checkNested catalog schema fields nested) := by
  match nested with
  | [] => exact .pure trivial
  | .mk name kind set :: rest =>
    rw [checkNested]
    split
    · exact .throw _
    split
    · exact .throw _
    have hset := fun related => (follows_checkFieldSet k excused catalog related set).bind
      fun _ _ _ => follows_checkNested k excused catalog schema fields rest
    dsimp only
    split
    · refine (Follows.note _ _).bind fun _ _ _ => ?_
      split
      · exact (Follows.note _ _).bind fun _ _ _ => hset _
      · exact hset _
    · split
      · exact (Follows.note _ _).bind fun _ _ _ => hset _
      · exact hset _

end

end QueryCompiler
