import Mathlib.Order.Basic
import Mathlib.Data.List.Pairwise

/-!
# Transactions

A transaction runs its statements in order on a working copy of the state. When
a statement is refused, or the machine fails before a statement or before the
commit, the working copy is dropped and the state is what it was.

§2 is about states that count their changes: if every transition either raises
the counter or leaves counter and view alone, the counter orders the states of a
run and names their views.
-/

namespace Transaction

variable {σ ε : Type}

/-! ## §1  One transaction -/

/-- The working copy after all statements. -/
def run (statements : List (σ → Except ε σ)) (s : σ) : Except ε σ :=
  statements.foldlM (fun s statement => statement s) s

inductive Abort (ε : Type)
  | refused (error : ε)
  | fault
deriving DecidableEq

/-- The same on a machine that fails before the statement `fault` points at, or
before the commit if it points behind the last one. -/
def attempt : Option Nat → List (σ → Except ε σ) → σ → Except (Abort ε) σ
  | some 0, _, _ => .error .fault
  | _, [], s => .ok s
  | fault, statement :: rest, s =>
      (statement s).mapError .refused >>= attempt (fault.map (· - 1)) rest

/-- What is stored afterwards. -/
def stored (s : σ) (outcome : Except (Abort ε) σ) : σ := outcome.toOption.getD s

@[simp] theorem run_nil (s : σ) : run ([] : List (σ → Except ε σ)) s = .ok s := rfl

@[simp] theorem run_cons (statement : σ → Except ε σ) (rest : List (σ → Except ε σ)) (s : σ) :
    run (statement :: rest) s = statement s >>= run rest := by
  unfold run
  rw [List.foldlM_cons]

theorem run_append (as bs : List (σ → Except ε σ)) (s : σ) :
    run (as ++ bs) s = run as s >>= run bs := by
  unfold run
  rw [List.foldlM_append]

theorem attempt_cons_ok {fault : Option Nat} {statement : σ → Except ε σ}
    {rest : List (σ → Except ε σ)} {s s' : σ}
    (h : attempt fault (statement :: rest) s = .ok s') :
    ∃ s₁, statement s = .ok s₁ ∧ attempt (fault.map (· - 1)) rest s₁ = .ok s' := by
  cases hs : statement s with
  | error e =>
      cases fault with
      | none => simp [attempt, hs, Except.mapError, bind, Except.bind] at h
      | some n =>
          cases n with
          | zero => cases h
          | succ n => simp [attempt, hs, Except.mapError, bind, Except.bind] at h
  | ok s₁ =>
      refine ⟨s₁, rfl, ?_⟩
      cases fault with
      | none => simpa [attempt, hs, Except.mapError, bind, Except.bind] using h
      | some n =>
          cases n with
          | zero => cases h
          | succ n => simpa [attempt, hs, Except.mapError, bind, Except.bind] using h

/-- A transaction that commits has run all its statements. -/
theorem run_of_attempt {statements : List (σ → Except ε σ)} {fault : Option Nat} {s s' : σ}
    (h : attempt fault statements s = .ok s') : run statements s = .ok s' := by
  induction statements generalizing fault s with
  | nil =>
      cases fault with
      | none =>
          cases h
          rfl
      | some n =>
          cases n with
          | zero => cases h
          | succ n =>
              cases h
              rfl
  | cons statement rest ih =>
      obtain ⟨s₁, hs, hrest⟩ := attempt_cons_ok h
      rw [run_cons, hs]
      exact ih hrest

/-- Either nothing happened, or the transaction ran to its end. -/
theorem stored_attempt (statements : List (σ → Except ε σ)) (fault : Option Nat) (s : σ) :
    stored s (attempt fault statements s) = s ∨
      run statements s = .ok (stored s (attempt fault statements s)) := by
  cases ha : attempt fault statements s with
  | error e => exact Or.inl rfl
  | ok s' => exact Or.inr (run_of_attempt ha)

/-! ## §2  Counted states -/

variable {β : Type} (counter : σ → Nat) (view : σ → β)

/-- The counter rises, or counter and view stay. -/
def Counted (s s' : σ) : Prop :=
  counter s < counter s' ∨ (counter s' = counter s ∧ view s' = view s)

variable {counter view}

theorem Counted.refl (s : σ) : Counted counter view s s := Or.inr ⟨rfl, rfl⟩

theorem Counted.trans {s s' s'' : σ} (h : Counted counter view s s')
    (h' : Counted counter view s' s'') : Counted counter view s s'' := by
  rcases h with h | ⟨hc, hv⟩
  · rcases h' with h' | ⟨hc', _⟩
    · exact Or.inl (Nat.lt_trans h h')
    · exact Or.inl (hc' ▸ h)
  · rcases h' with h' | ⟨hc', hv'⟩
    · exact Or.inl (hc ▸ h')
    · exact Or.inr ⟨hc'.trans hc, hv'.trans hv⟩

theorem Counted.le {s s' : σ} (h : Counted counter view s s') : counter s ≤ counter s' := by
  rcases h with h | ⟨hc, _⟩
  · exact Nat.le_of_lt h
  · exact Nat.le_of_eq hc.symm

/-- An unchanged counter means an unchanged view. -/
theorem Counted.view_eq {s s' : σ} (h : Counted counter view s s')
    (heq : counter s = counter s') : view s = view s' := by
  rcases h with h | ⟨_, hv⟩
  · exact absurd heq (Nat.ne_of_lt h)
  · exact hv.symm

/-- Every state a list of calls goes through, the first one included. -/
def moments {α : Type} (step : σ → α → σ) : σ → List α → List σ
  | s, [] => [s]
  | s, a :: as => s :: moments step (step s a) as

theorem head_moments {α : Type} {step : σ → α → σ} {R : σ → σ → Prop} (hrefl : ∀ s, R s s)
    (htrans : ∀ s s' s'', R s s' → R s' s'' → R s s'') (hstep : ∀ s a, R s (step s a)) :
    ∀ (as : List α) (s t : σ), R s t → ∀ m ∈ moments step t as, R s m
  | [], s, t, hst, m, hm => by
      rw [moments, List.mem_singleton] at hm
      rw [hm]
      exact hst
  | a :: as, s, t, hst, m, hm => by
      rcases List.mem_cons.mp hm with rfl | hm
      · exact hst
      · exact head_moments hrefl htrans hstep as s (step t a) (htrans _ _ _ hst (hstep t a)) m hm

/-- What relates a state to its successor relates any two moments of a run. -/
theorem pairwise_moments {α : Type} {step : σ → α → σ} {R : σ → σ → Prop} (hrefl : ∀ s, R s s)
    (htrans : ∀ s s' s'', R s s' → R s' s'' → R s s'') (hstep : ∀ s a, R s (step s a)) :
    ∀ (as : List α) (s : σ), (moments step s as).Pairwise R
  | [], s => List.pairwise_singleton R s
  | a :: as, s => by
      rw [moments, List.pairwise_cons]
      exact ⟨head_moments hrefl htrans hstep as s (step s a) (hstep s a),
        pairwise_moments hrefl htrans hstep as (step s a)⟩

end Transaction
