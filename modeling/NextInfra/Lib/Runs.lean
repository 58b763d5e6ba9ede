/-!
# Machines and their runs

A machine answers enabled calls with a new state; a run is a list of calls, each
enabled where it is made. What one step preserves a run preserves
(`Run.invariant`), and what one step relates a run relates (`Run.relates`).
`restrict` narrows a machine to the calls a condition admits, so "every step of
the run meets the condition" is a run of the narrower machine.
-/

structure Machine (σ α : Type) where
  enabled : σ → α → Prop
  step : σ → α → σ

namespace Machine

variable {σ α : Type} {m : Machine σ α}

inductive Run (m : Machine σ α) : σ → List α → σ → Prop
  | nil (s : σ) : Run m s [] s
  | cons {s s' : σ} {a : α} {as : List α} (head : m.enabled s a)
      (tail : Run m (m.step s a) as s') : Run m s (a :: as) s'

/-- The machine with only the calls `ok` admits. -/
def restrict (m : Machine σ α) (ok : σ → α → Prop) : Machine σ α where
  enabled := fun s a => m.enabled s a ∧ ok s a
  step := m.step

instance {ok : σ → α → Prop} [∀ s a, Decidable (m.enabled s a)] [∀ s a, Decidable (ok s a)]
    (s : σ) (a : α) : Decidable ((m.restrict ok).enabled s a) :=
  inferInstanceAs (Decidable (m.enabled s a ∧ ok s a))

/-- One step keeps `P`. -/
def Preserves (m : Machine σ α) (P : σ → Prop) : Prop :=
  ∀ s a, m.enabled s a → P s → P (m.step s a)

namespace Run

variable {s s' s'' : σ} {as bs : List α}

theorem invariant {P : σ → Prop} (hP : m.Preserves P) (h : Run m s as s') (hs : P s) : P s' := by
  induction h with
  | nil s => exact hs
  | cons head _ ih => exact ih (hP _ _ head hs)

/-- A preorder every step moves along, from states with an invariant. -/
theorem relates {P : σ → Prop} {R : σ → σ → Prop} (hP : m.Preserves P) (hrefl : ∀ s, R s s)
    (htrans : ∀ s s' s'', R s s' → R s' s'' → R s s'')
    (hstep : ∀ s a, m.enabled s a → P s → R s (m.step s a)) (h : Run m s as s') (hs : P s) :
    R s s' := by
  induction h with
  | nil s => exact hrefl s
  | cons head _ ih => exact htrans _ _ _ (hstep _ _ head hs) (ih (hP _ _ head hs))

theorem append (h : Run m s as s') (h' : Run m s' bs s'') : Run m s (as ++ bs) s'' := by
  induction h with
  | nil s => exact h'
  | cons head _ ih => exact .cons head (ih h')

theorem single {a : α} (h : m.enabled s a) : Run m s [a] (m.step s a) := .cons h (.nil _)

/-- A first call whose state is known by another name. -/
theorem cons_eq {t : σ} {a : α} (head : m.enabled s a) (hstep : m.step s a = t)
    (tail : Run m t as s') : Run m s (a :: as) s' := by
  subst hstep
  exact .cons head tail

theorem of_restrict {ok : σ → α → Prop} (h : Run (m.restrict ok) s as s') : Run m s as s' := by
  induction h with
  | nil s => exact .nil s
  | cons head _ ih => exact .cons head.1 ih

end Run

/-! ## What holds in every state of a run -/

/-- `P` holds before the first call and after each. -/
def Throughout (m : Machine σ α) (P : σ → Prop) : σ → List α → Prop
  | s, [] => P s
  | s, a :: as => P s ∧ Throughout m P (m.step s a) as

theorem Throughout.head {P : σ → Prop} {s : σ} {as : List α} (h : m.Throughout P s as) : P s := by
  cases as with
  | nil => exact h
  | cons a as => exact h.1

/-- What holds throughout a run holds where it ends. -/
theorem Run.last_of_throughout {P : σ → Prop} {s s' : σ} {as : List α} (h : Run m s as s')
    (hall : m.Throughout P s as) : P s' := by
  induction h with
  | nil s => exact hall
  | cons head _ ih => exact ih hall.2

/-- Where a call keeps `P` exactly when it is `ok`, the runs with `P` throughout
are the runs of `ok` calls. -/
theorem Run.throughout_iff {I P : σ → Prop} {ok : σ → α → Prop} {s s' : σ} {as : List α}
    (hI : m.Preserves I)
    (hstep : ∀ s a, m.enabled s a → I s → P s → (P (m.step s a) ↔ ok s a))
    (h : Run m s as s') (hi : I s) (hp : P s) :
    m.Throughout P s as ↔ Run (m.restrict ok) s as s' := by
  induction h with
  | nil s => exact ⟨fun _ => .nil s, fun _ => hp⟩
  | cons head tail ih =>
      rename_i s s' a as
      have hiff := hstep s a head hi hp
      have hnext := hI s a head hi
      constructor
      · rintro ⟨_, hrest⟩
        have hp' : P (m.step s a) := hrest.head
        exact .cons ⟨head, hiff.mp hp'⟩ ((ih hnext hp').mp hrest)
      · intro hrun
        cases hrun with
        | cons hok htail =>
            have hp' : P (m.step s a) := hiff.mpr hok.2
            exact ⟨hp, (ih hnext hp').mpr htail⟩

/-! ## Replaying a fixed list of calls -/

/-- Every call is enabled where a replay makes it. -/
def Admits (m : Machine σ α) : σ → List α → Prop
  | _, [] => True
  | s, a :: as => m.enabled s a ∧ Admits m (m.step s a) as

def decideAdmits [∀ s a, Decidable (m.enabled s a)] : (s : σ) → (as : List α) →
    Decidable (m.Admits s as)
  | _, [] => .isTrue trivial
  | s, a :: as => @instDecidableAnd _ _ _ (decideAdmits (m.step s a) as)

instance [∀ s a, Decidable (m.enabled s a)] (s : σ) (as : List α) : Decidable (m.Admits s as) :=
  decideAdmits s as

/-- The state after a list of calls. -/
def replay (m : Machine σ α) (s : σ) (as : List α) : σ := as.foldl m.step s

theorem run_replay {s : σ} {as : List α} (h : m.Admits s as) : m.Run s as (m.replay s as) := by
  induction as generalizing s with
  | nil => exact .nil s
  | cons a as ih => exact .cons h.1 (ih h.2)

end Machine
