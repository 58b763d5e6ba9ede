/-!
# Attempts

A computation over a state that may fail and keeps the state it has reached: what it
did before the failure is done. `bind_ok_iff` takes a success apart, and `Leads.bind`
carries a relation from the state before to the state after, whatever the result.
`Meets` is a postcondition on both, with a rule for each way to build an attempt.
`Alike` compares two attempts.
-/

def Attempt (ε σ α : Type) : Type := σ → Except ε α × σ

namespace Attempt

variable {ε σ α β : Type}

instance : Monad (Attempt ε σ) where
  pure a := fun s => (.ok a, s)
  bind x f := fun s =>
    match x s with
    | (.ok a, t) => f a t
    | (.error e, t) => (.error e, t)

def fail (e : ε) : Attempt ε σ α := fun s => (.error e, s)

/-- A result that is known without the state. -/
def ofExcept (x : Except ε α) : Attempt ε σ α := fun s => (x, s)

/-- The result of an attempt as a value: its failure is left to what comes next. -/
def result {ε' : Type} (x : Attempt ε σ α) : Attempt ε' σ (Except ε α) :=
  fun s => (.ok (x s).1, (x s).2)

@[simp] theorem pure_apply (a : α) (s : σ) : (pure a : Attempt ε σ α) s = (.ok a, s) := rfl

theorem bind_apply (x : Attempt ε σ α) (f : α → Attempt ε σ β) (s : σ) :
    (x >>= f) s =
      match x s with
      | (.ok a, t) => f a t
      | (.error e, t) => (.error e, t) :=
  rfl

theorem bind_ok_iff {x : Attempt ε σ α} {f : α → Attempt ε σ β} {s u : σ} {b : β} :
    (x >>= f) s = (.ok b, u) ↔ ∃ a t, x s = (.ok a, t) ∧ f a t = (.ok b, u) := by
  show (match x s with
    | (.ok a, t) => f a t
    | (.error e, t) => (.error e, t)) = _ ↔ _
  rcases hx : x s with ⟨e | a, t⟩
  · constructor
    · intro h
      cases h
    · rintro ⟨a, t', hx', _⟩
      cases hx'
  · constructor
    · intro h
      exact ⟨a, t, rfl, h⟩
    · rintro ⟨a', t', hx', h⟩
      cases hx'
      exact h

/-- A success, with its result. -/
theorem result_of_isOk {p : Except ε α × σ} (h : p.1.isOk = true) : ∃ a, p = (.ok a, p.2) := by
  obtain ⟨result, s⟩ := p
  cases result with
  | error e => cases h
  | ok a => exact ⟨a, rfl⟩

theorem ofExcept_ok_iff {x : Except ε α} {s t : σ} {a : α} :
    (ofExcept x : Attempt ε σ α) s = (.ok a, t) ↔ x = .ok a ∧ t = s := by
  unfold ofExcept
  constructor
  · intro h
    cases h
    exact ⟨rfl, rfl⟩
  · rintro ⟨rfl, rfl⟩
    rfl

theorem result_ok_iff {ε' : Type} {x : Attempt ε σ α} {s t : σ} {a : Except ε α} :
    (x.result : Attempt ε' σ (Except ε α)) s = (.ok a, t) ↔ x s = (a, t) := by
  unfold result
  constructor
  · intro h
    obtain ⟨h₁, h₂⟩ := Prod.mk.inj h
    exact Prod.ext (Except.ok.inj h₁) h₂
  · intro h
    rw [h]

theorem ofExcept_bind_ok_iff {x : Except ε α} {f : α → Attempt ε σ β} {s u : σ} {b : β} :
    (ofExcept x >>= f) s = (.ok b, u) ↔ ∃ a, x = .ok a ∧ f a s = (.ok b, u) := by
  rw [bind_ok_iff]
  constructor
  · rintro ⟨a, t, hx, h⟩
    obtain ⟨ha, rfl⟩ := ofExcept_ok_iff.mp hx
    exact ⟨a, ha, h⟩
  · rintro ⟨a, hx, h⟩
    exact ⟨a, s, ofExcept_ok_iff.mpr ⟨hx, rfl⟩, h⟩

theorem result_bind_ok_iff {ε' : Type} {x : Attempt ε σ α} {f : Except ε α → Attempt ε' σ β}
    {s u : σ} {b : β} :
    (x.result >>= f) s = (.ok b, u) ↔ f (x s).1 (x s).2 = (.ok b, u) := by
  rw [bind_ok_iff]
  constructor
  · rintro ⟨a, t, hx, h⟩
    rw [result_ok_iff.mp hx]
    exact h
  · intro h
    exact ⟨(x s).1, (x s).2, result_ok_iff.mpr rfl, h⟩

/-- A last step that is known without the state leaves it where it was. -/
theorem bind_ofExcept_state (x : Attempt ε σ α) (f : α → Except ε β) (s : σ) :
    ((x >>= fun a => ofExcept (f a)) s).2 = (x s).2 := by
  show (match x s with
    | (.ok a, t) => ofExcept (f a) t
    | (.error e, t) => (.error e, t)).2 = _
  rcases x s with ⟨e | a, t⟩
  · rfl
  · rfl

/-- The state before and the state after are related, also when the attempt fails. -/
def Leads (R : σ → σ → Prop) (x : Attempt ε σ α) : Prop := ∀ s, R s (x s).2

section

variable {R : σ → σ → Prop}

theorem Leads.pure (hrefl : ∀ s, R s s) (a : α) : Leads R (Pure.pure a : Attempt ε σ α) :=
  fun s => hrefl s

theorem Leads.ofExcept (hrefl : ∀ s, R s s) (x : Except ε α) :
    Leads R (Attempt.ofExcept x : Attempt ε σ α) :=
  fun s => hrefl s

theorem Leads.result {ε' : Type} {x : Attempt ε σ α} (hx : Leads R x) :
    Leads R (x.result : Attempt ε' σ (Except ε α)) :=
  hx

theorem Leads.bind (htrans : ∀ s t u, R s t → R t u → R s u) {x : Attempt ε σ α}
    {f : α → Attempt ε σ β} (hx : Leads R x) (hf : ∀ a, Leads R (f a)) : Leads R (x >>= f) := by
  intro s
  show R s (match x s with
    | (.ok a, t) => f a t
    | (.error e, t) => (.error e, t)).2
  have h := hx s
  rcases hxs : x s with ⟨e | a, t⟩
  · rw [hxs] at h
    exact h
  · rw [hxs] at h
    exact htrans _ _ _ h (hf a t)

end

/-- The result and the state an attempt ends with satisfy `Q`. -/
def Meets (x : Attempt ε σ α) (s : σ) (Q : Except ε α → σ → Prop) : Prop := Q (x s).1 (x s).2

section

variable {s : σ} {Q : Except ε β → σ → Prop}

theorem Meets.pure {Q : Except ε α → σ → Prop} {a : α} (h : Q (.ok a) s) :
    Meets (Pure.pure a : Attempt ε σ α) s Q := h

theorem Meets.ite {c : Prop} [Decidable c] {x y : Attempt ε σ β} (hx : c → Meets x s Q)
    (hy : ¬ c → Meets y s Q) : Meets (if c then x else y) s Q := by
  split
  · exact hx ‹c›
  · exact hy ‹¬ c›

theorem Meets.mono {x : Attempt ε σ β} {Q' : Except ε β → σ → Prop} (h : Meets x s Q)
    (himp : ∀ r t, Q r t → Q' r t) : Meets x s Q' :=
  himp _ _ h

/-- What the first part ends with is what the second starts from. -/
theorem Meets.bind {x : Attempt ε σ α} {f : α → Attempt ε σ β} {P : Except ε α → σ → Prop}
    (hx : Meets x s P) (hok : ∀ a t, P (.ok a) t → Meets (f a) t Q)
    (herror : ∀ e t, P (.error e) t → Q (.error e) t) : Meets (x >>= f) s Q := by
  unfold Meets at hx
  show Q (match x s with
    | (.ok a, t) => f a t
    | (.error e, t) => (.error e, t)).1 (match x s with
    | (.ok a, t) => f a t
    | (.error e, t) => (.error e, t)).2
  rcases hxs : x s with ⟨e | a, t⟩
  · rw [hxs] at hx
    exact herror e t hx
  · rw [hxs] at hx
    exact hok a t hx

end

/-! ## Two attempts side by side -/

variable {τ γ δ : Type}

/-- Two attempts have ended alike: both with a result, related as `J` says, or both with
one failure. Nothing is said once the first has `Spoilt` its state. -/
inductive Alike (Spoilt : σ → Prop) (J : α → σ → β → τ → Prop) :
    Except ε α × σ → Except ε β × τ → Prop
  | spoilt {p : Except ε α × σ} {q : Except ε β × τ} (h : Spoilt p.2) : Alike Spoilt J p q
  | ok {a : α} {s : σ} {b : β} {t : τ} (h : J a s b t) : Alike Spoilt J (.ok a, s) (.ok b, t)
  | error (e : ε) (s : σ) (t : τ) : Alike Spoilt J (.error e, s) (.error e, t)

section

variable {Spoilt : σ → Prop} {J : γ → σ → δ → τ → Prop} {s : σ} {t : τ}

/-- What the first parts end with is what the second ones start from; what is spoilt
stays so. -/
theorem Alike.bind {I : α → σ → β → τ → Prop} {x : Attempt ε σ α} {y : Attempt ε τ β}
    {f : α → Attempt ε σ γ} {g : β → Attempt ε τ δ} (hxy : Alike Spoilt I (x s) (y t))
    (hstays : ∀ a, Leads (fun s u => Spoilt s → Spoilt u) (f a))
    (hnext : ∀ a s b t, I a s b t → Alike Spoilt J (f a s) (g b t)) :
    Alike Spoilt J ((x >>= f) s) ((y >>= g) t) := by
  rw [bind_apply, bind_apply]
  generalize x s = p at hxy
  generalize y t = q at hxy
  cases hxy with
  | spoilt h =>
      obtain ⟨result, u⟩ := p
      apply Alike.spoilt
      cases result with
      | error e => exact h
      | ok a => exact hstays a u h
  | ok h => exact hnext _ _ _ _ h
  | error e s t => exact .error e s t

theorem Alike.ofExcept_bind {x : Except ε α} {f : α → Attempt ε σ γ} {g : α → Attempt ε τ δ}
    (hnext : ∀ a, x = .ok a → Alike Spoilt J (f a s) (g a t)) :
    Alike Spoilt J ((Attempt.ofExcept x >>= f) s) ((Attempt.ofExcept x >>= g) t) := by
  cases x with
  | error e => exact .error e s t
  | ok a => exact hnext a rfl

end

end Attempt
