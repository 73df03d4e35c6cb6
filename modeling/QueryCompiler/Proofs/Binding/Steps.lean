import QueryCompiler.Binding.Monad

/-!
# Steps of binding that succeed, and errors of steps that fail

For every way of making a step, the results and the states with which it succeeds. Rewriting with
these takes a step apart into the steps that it consists of. For errors, `Throws P` says that every
error of a step satisfies `P`; it is kept by every way of making a step.
-/

namespace QueryCompiler

@[simp] theorem BindState.nextParam_note (s : BindState) (event : Event) :
    (s.note event).nextParam = s.nextParam := rfl

namespace BindM

variable {α β ε : Type} {s s' : BindState}

/-! ### Success -/

@[simp] theorem pure_eq_ok {a b : α} :
    (pure a : BindM α) s = .ok b s' ↔ a = b ∧ s = s' := by
  constructor
  · intro h
    cases h
    exact ⟨rfl, rfl⟩
  · rintro ⟨rfl, rfl⟩
    rfl

@[simp] theorem bind_eq_ok {m : BindM α} {f : α → BindM β} {b : β} :
    (m >>= f) s = .ok b s' ↔ ∃ a t, m s = .ok a t ∧ f a t = .ok b s' := by
  change EStateM.bind m f s = _ ↔ _
  cases h : m s with
  | ok a t =>
    simp only [EStateM.bind, h]
    constructor
    · intro hf
      exact ⟨a, t, rfl, hf⟩
    · rintro ⟨_, _, ⟨⟩, hf⟩
      exact hf
  | error e t => simp [EStateM.bind, h]

@[simp] theorem throw_eq_ok {e : CompileError} {a : α} :
    (throw e : BindM α) s = .ok a s' ↔ False := by
  constructor
  · intro h
    cases h
  · exact False.elim

@[simp] theorem ofExcept_eq_ok {wrap : ε → CompileError} {x : Except ε α} {a : α} :
    ofExcept wrap x s = .ok a s' ↔ x = .ok a ∧ s = s' := by
  cases x with
  | ok b => simp [ofExcept]
  | error e => simp [ofExcept]

@[simp] theorem get_eq_ok {t : BindState} :
    (get : BindM BindState) s = .ok t s' ↔ s = t ∧ s = s' := by
  constructor
  · intro h
    cases h
    exact ⟨rfl, rfl⟩
  · rintro ⟨rfl, rfl⟩
    rfl

@[simp] theorem note_eq_ok {event : Event} {u : Unit} :
    note event s = .ok u s' ↔ s.note event = s' := by
  constructor
  · intro h
    cases h
    rfl
  · rintro rfl
    rfl

@[simp] theorem takeIndices_eq_ok {count first : Nat} :
    takeIndices count s = .ok first s' ↔
      s.nextParam = first ∧ { s with nextParam := s.nextParam + count } = s' := by
  constructor
  · intro h
    cases h
    exact ⟨rfl, rfl⟩
  · rintro ⟨rfl, rfl⟩
    rfl

@[simp] theorem finallyNote_eq_ok {event : Event} {m : BindM α} {a : α} :
    finallyNote event m s = .ok a s' ↔ ∃ t, m s = .ok a t ∧ t.note event = s' := by
  cases h : m s with
  | ok b t =>
    simp only [finallyNote, h]
    constructor
    · rintro ⟨⟩
      exact ⟨t, rfl, rfl⟩
    · rintro ⟨_, ⟨⟩, rfl⟩
      rfl
  | error e t => simp [finallyNote, h]

/-- Notes succeed and take no indices. -/
theorem noteAll_ok (events : List Event) (s : BindState) :
    ∃ t, noteAll events s = .ok () t ∧ t.nextParam = s.nextParam := by
  induction events generalizing s with
  | nil => exact ⟨s, rfl, rfl⟩
  | cons event rest ih =>
    obtain ⟨t, ht, hn⟩ := ih (s.note event)
    exact ⟨t, by simpa [noteAll] using ht, hn⟩

theorem nextParam_of_noteAll {events : List Event} {u : Unit}
    (h : noteAll events s = .ok u s') : s'.nextParam = s.nextParam := by
  obtain ⟨t, ht, hn⟩ := noteAll_ok events s
  rw [ht] at h
  cases h
  exact hn

/-! ### Errors -/

/-- Every error of a step satisfies `P`. -/
def Throws (P : CompileError → Prop) (m : BindM α) : Prop :=
  ∀ s e s', m s = .error e s' → P e

variable {P : CompileError → Prop}

theorem Throws.imp {Q : CompileError → Prop} {m : BindM α} (h : Throws P m)
    (himp : ∀ e, P e → Q e) : Throws Q m :=
  fun s e s' hm => himp e (h s e s' hm)

theorem Throws.pure (a : α) : Throws P (pure a) := by
  intro s e s' h
  cases h

theorem Throws.bind {m : BindM α} {f : α → BindM β} (hm : Throws P m) (hf : ∀ a, Throws P (f a)) :
    Throws P (m >>= f) := by
  intro s e s' h
  change EStateM.bind m f s = _ at h
  cases hms : m s with
  | ok a t =>
    simp only [EStateM.bind, hms] at h
    exact hf a t e s' h
  | error e' t =>
    simp only [EStateM.bind, hms] at h
    cases h
    exact hm s e _ hms

theorem Throws.throw {e : CompileError} (h : P e) : Throws P (throw e : BindM α) := by
  intro s e' s' h'
  cases h'
  exact h

theorem Throws.ofExcept {wrap : ε → CompileError} {x : Except ε α}
    (h : ∀ e, x = .error e → P (wrap e)) : Throws P (ofExcept wrap x) := by
  cases x with
  | ok a => exact Throws.pure a
  | error e => exact Throws.throw (h e rfl)

theorem Throws.get : Throws P (get : BindM BindState) := by
  intro s e s' h
  cases h

theorem Throws.note (event : Event) : Throws P (note event) := by
  intro s e s' h
  cases h

theorem Throws.noteAll (events : List Event) : Throws P (noteAll events) := by
  intro s e s' h
  obtain ⟨t, ht, -⟩ := noteAll_ok events s
  rw [ht] at h
  cases h

theorem Throws.takeIndices (count : Nat) : Throws P (takeIndices count) := by
  intro s e s' h
  cases h

theorem Throws.finallyNote {event : Event} {m : BindM α} (hm : Throws P m) :
    Throws P (finallyNote event m) := by
  intro s e s' h
  cases hms : m s with
  | ok a t => simp [BindM.finallyNote, hms] at h
  | error e' t =>
    simp only [BindM.finallyNote, hms] at h
    cases h
    exact hm s e _ hms

end BindM

end QueryCompiler
