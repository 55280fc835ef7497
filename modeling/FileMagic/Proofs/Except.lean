/-! Computations that may fail, taken apart: a sequence succeeds when all its steps do, and
fails with the first step that does. -/

namespace FileMagic

variable {ε α β α' β' σ : Type}

@[simp] theorem pure_eq_ok (a : α) : (pure a : Except ε α) = .ok a := rfl

@[simp] theorem throw_eq_error (e : ε) : (throw e : Except ε α) = .error e := rfl

@[simp] theorem ok_bind (a : α) (f : α → Except ε β) : (Except.ok a >>= f) = f a := rfl

@[simp] theorem error_bind (e : ε) (f : α → Except ε β) : (Except.error e >>= f) = .error e := rfl

theorem bind_eq_ok_iff {x : Except ε α} {f : α → Except ε β} {b : β} :
    x >>= f = .ok b ↔ ∃ a, x = .ok a ∧ f a = .ok b := by
  cases x with
  | error e => simp
  | ok a => simp

theorem bind_eq_error_iff {x : Except ε α} {f : α → Except ε β} {e : ε} :
    x >>= f = .error e ↔ x = .error e ∨ ∃ a, x = .ok a ∧ f a = .error e := by
  cases x with
  | error e' => simp
  | ok a => simp

theorem map_eq_ok_iff {x : Except ε α} {f : α → β} {b : β} :
    x.map f = .ok b ↔ ∃ a, x = .ok a ∧ f a = b := by
  cases x with
  | error e => simp [Except.map]
  | ok a => simp [Except.map]

theorem map_eq_error_iff {x : Except ε α} {f : α → β} {e : ε} :
    x.map f = .error e ↔ x = .error e := by
  cases x with
  | error e' => simp [Except.map]
  | ok a => simp [Except.map]

theorem mapError_eq_ok_iff {ε' : Type} {x : Except ε α} {f : ε → ε'} {a : α} :
    x.mapError f = .ok a ↔ x = .ok a := by
  cases x with
  | error e =>
    constructor
    · intro h
      cases h
    · intro h
      cases h
  | ok b =>
    constructor
    · intro h
      cases h
      rfl
    · intro h
      cases h
      rfl

/-- No result comes of a computation. -/
def Fails (x : Except ε α) : Prop := ∃ e, x = .error e

@[simp] theorem not_fails_ok (a : α) : ¬ Fails (.ok a : Except ε α) := by
  intro h
  obtain ⟨e, h⟩ := h
  cases h

@[simp] theorem fails_error (e : ε) : Fails (.error e : Except ε α) := ⟨e, rfl⟩

theorem fails_bind_iff {x : Except ε α} {f : α → Except ε β} :
    Fails (x >>= f) ↔ Fails x ∨ ∃ a, x = .ok a ∧ Fails (f a) := by
  cases x with
  | error e => simp
  | ok a => simp

/-- A computation that goes on only when there is something to go on with. -/
theorem fails_bindSome_iff {x : Except ε (Option α)} {f : Option α → Except ε β}
    (hf : ¬ Fails (f none)) :
    Fails (x >>= f) ↔ Fails x ∨ ∃ a, x = .ok (some a) ∧ Fails (f (some a)) := by
  cases x with
  | error e => simp
  | ok o =>
    cases o with
    | none => simp [hf]
    | some a => simp

theorem fails_map_iff {x : Except ε α} {f : α → β} : Fails (x.map f) ↔ Fails x := by
  cases x with
  | error e => simp [Except.map]
  | ok a => simp [Except.map]

/-- A pass over a list fails with the first element that its step fails on; nothing after that
element matters. -/
theorem foldlM_eq_error_iff {f : σ → α → Except ε σ} {l : List α} {s : σ} {e : ε} :
    l.foldlM f s = .error e ↔ ∃ before a after t, l = before ++ a :: after ∧
      before.foldlM f s = .ok t ∧ f t a = .error e := by
  constructor
  · intro h
    induction l generalizing s with
    | nil => cases h
    | cons a rest ih =>
      rw [List.foldlM_cons, bind_eq_error_iff] at h
      rcases h with h | ⟨s', hs, h⟩
      · exact ⟨[], a, rest, s, rfl, rfl, h⟩
      · obtain ⟨before, b, after, t, rfl, ht, hb⟩ := ih h
        refine ⟨a :: before, b, after, t, rfl, ?_, hb⟩
        rw [List.foldlM_cons, hs, ok_bind, ht]
  · intro hsplit
    obtain ⟨before, a, after, t, rfl, ht, ha⟩ := hsplit
    rw [List.foldlM_append, ht, ok_bind, List.foldlM_cons, ha, error_bind]

/-- Two computations that fail alike, or succeed with related results. -/
inductive Alike (rel : α → β → Prop) : Except ε α → Except ε β → Prop
  | error (e : ε) : Alike rel (.error e) (.error e)
  | ok {a : α} {b : β} : rel a b → Alike rel (.ok a) (.ok b)

theorem Alike.mono {rel rel' : α → β → Prop} {x : Except ε α} {y : Except ε β}
    (h : Alike rel x y) (hr : ∀ a b, rel a b → rel' a b) : Alike rel' x y := by
  cases h with
  | error e => exact .error e
  | ok hab => exact .ok (hr _ _ hab)

/-- What is made of the first result alone. -/
theorem Alike.map_left {rel : α → β → Prop} {rel' : α' → β → Prop} {x : Except ε α}
    {y : Except ε β} {f : α → α'} (h : Alike rel x y) (hf : ∀ a b, rel a b → rel' (f a) b) :
    Alike rel' (x >>= fun a => pure (f a)) y := by
  cases h with
  | error e => exact .error e
  | ok hab => exact .ok (hf _ _ hab)

theorem Alike.bind {rel : α → β → Prop} {rel' : α' → β' → Prop} {x : Except ε α}
    {y : Except ε β} {f : α → Except ε α'} {g : β → Except ε β'} (h : Alike rel x y)
    (hf : ∀ a b, rel a b → Alike rel' (f a) (g b)) : Alike rel' (x >>= f) (y >>= g) := by
  cases h with
  | error e => exact .error e
  | ok hab => exact hf _ _ hab

/-- What is made of related results is the same. -/
theorem Alike.map_congr {γ : Type} {rel : α → β → Prop} {x : Except ε α} {y : Except ε β}
    {f : α → γ} {g : β → γ} (h : Alike rel x y) (hf : ∀ a b, rel a b → f a = g b) :
    x.map f = y.map g := by
  cases h with
  | error e => rfl
  | ok hab => exact congrArg Except.ok (hf _ _ hab)

theorem Alike.eq_map {f : β → α} {x : Except ε α} {y : Except ε β}
    (h : Alike (fun a b => a = f b) x y) : x = y.map f := by
  cases h with
  | error e => rfl
  | ok hab => rw [hab]; rfl

/-- Computations that have the same results. They have none in the same cases, but it may be for
different reasons. -/
def SameResult (x y : Except ε α) : Prop := ∀ a, x = .ok a ↔ y = .ok a

@[refl] theorem SameResult.refl (x : Except ε α) : SameResult x x := fun _ => Iff.rfl

theorem SameResult.bind {x y : Except ε α} {f g : α → Except ε β} (h : SameResult x y)
    (hf : ∀ a, SameResult (f a) (g a)) : SameResult (x >>= f) (y >>= g) := by
  intro b
  rw [bind_eq_ok_iff, bind_eq_ok_iff]
  exact exists_congr fun a => and_congr (h a) (hf a b)

theorem SameResult.map {x y : Except ε α} (h : SameResult x y) (f : α → β) :
    SameResult (x.map f) (y.map f) := by
  intro b
  rw [map_eq_ok_iff, map_eq_ok_iff]
  exact exists_congr fun a => and_congr_left' (h a)

/-- A computation that comes to the same as another one, unless it fails for one of these
reasons. -/
def SameUnless (reason : ε → Prop) (x y : Except ε α) : Prop :=
  x = y ∨ ∃ e, reason e ∧ x = .error e

variable {reason : ε → Prop}

@[refl] theorem SameUnless.refl (x : Except ε α) : SameUnless reason x x := .inl rfl

theorem SameUnless.bind {x y : Except ε α} {f g : α → Except ε β} (h : SameUnless reason x y)
    (hf : ∀ a, SameUnless reason (f a) (g a)) : SameUnless reason (x >>= f) (y >>= g) := by
  rcases h with rfl | ⟨e, he, rfl⟩
  · cases x with
    | error e => exact .refl _
    | ok a => exact hf a
  · exact .inr ⟨e, he, rfl⟩

theorem SameUnless.ite {c : Prop} [Decidable c] {x y x' y' : Except ε α}
    (hx : c → SameUnless reason x x') (hy : ¬ c → SameUnless reason y y') :
    SameUnless reason (if c then x else y) (if c then x' else y') := by
  split
  · next h => exact hx h
  · next h => exact hy h

theorem SameUnless.map {x y : Except ε α} (h : SameUnless reason x y) (f : α → β) :
    SameUnless reason (x.map f) (y.map f) := by
  rcases h with rfl | ⟨e, he, rfl⟩
  · exact .refl _
  · exact .inr ⟨e, he, rfl⟩

end FileMagic
