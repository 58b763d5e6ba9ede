import Mathlib.Data.List.Induction
import Mathlib.Tactic.Common

/-!
# A queue that retries its head

Jobs wait in a list and a drain offers them to a state in order. The first job
the state refuses stops the drain and stays at the front, so the same job is the
first one offered next time.

What a drain does is told by the jobs it gets accepted (`accepted`): they are
the front of the queue, in order (`accepted_append_left`), they take the state
from its old value to its new one (`accepted_accepts`), and the drain fails
exactly when a refused job heads what is left (`drain_error`).
-/

namespace RetryQueue

variable {σ γ ρ ε : Type} (accept : σ → γ → Except ε (ρ × σ))

/-- Offer the jobs in order: the results, the state and the jobs left. -/
def drain (s : σ) : List γ → Except ε (List ρ) × σ × List γ
  | [] => (.ok [], s, [])
  | job :: rest =>
      match accept s job with
      | .error e => (.error e, s, job :: rest)
      | .ok (result, s') =>
          match drain s' rest with
          | (.error e, final, left) => (.error e, final, left)
          | (.ok results, final, left) => (.ok (result :: results), final, left)

/-- The jobs a drain gets accepted, with their results. -/
def accepted (s : σ) : List γ → List (γ × ρ)
  | [] => []
  | job :: rest =>
      match accept s job with
      | .error _ => []
      | .ok (result, s') => (job, result) :: accepted s' rest

/-- A state takes a list of jobs, each with the result it gave. -/
inductive Accepts : σ → List (γ × ρ) → σ → Prop
  | nil (s : σ) : Accepts s [] s
  | cons {s s' s'' : σ} {job : γ} {result : ρ} {jobs : List (γ × ρ)}
      (head : accept s job = .ok (result, s')) (tail : Accepts s' jobs s'') :
      Accepts s ((job, result) :: jobs) s''

variable {accept}

theorem drain_cons_ok {s s' : σ} {job : γ} {result : ρ} (h : accept s job = .ok (result, s'))
    (rest : List γ) :
    drain accept s (job :: rest) =
      ((drain accept s' rest).1.map (result :: ·), (drain accept s' rest).2) := by
  rw [drain, h]
  rcases hd : drain accept s' rest with ⟨outcome, final, left⟩
  cases outcome with
  | error e => simp [hd, Except.map]
  | ok results => simp [hd, Except.map]

theorem drain_cons_error {s : σ} {job : γ} {e : ε} (h : accept s job = .error e)
    (rest : List γ) : drain accept s (job :: rest) = (.error e, s, job :: rest) := by
  rw [drain, h]

theorem accepted_cons_ok {s s' : σ} {job : γ} {result : ρ} (h : accept s job = .ok (result, s'))
    (rest : List γ) :
    accepted accept s (job :: rest) = (job, result) :: accepted accept s' rest := by
  simp only [accepted, h]

theorem accepted_cons_error {s : σ} {job : γ} {e : ε} (h : accept s job = .error e)
    (rest : List γ) : accepted accept s (job :: rest) = [] := by
  simp only [accepted, h]

/-- Accepted jobs and jobs left, in order, are the queue. -/
theorem accepted_append_left (s : σ) (jobs : List γ) :
    (accepted accept s jobs).map Prod.fst ++ (drain accept s jobs).2.2 = jobs := by
  induction jobs generalizing s with
  | nil => rfl
  | cons job rest ih =>
      cases h : accept s job with
      | error e =>
          rw [accepted_cons_error h, drain_cons_error h]
          rfl
      | ok p =>
          obtain ⟨result, s'⟩ := p
          rw [accepted_cons_ok h, drain_cons_ok h]
          simp only [List.map_cons, List.cons_append]
          rw [ih s']

/-- The accepted jobs take the old state to the new one. -/
theorem accepted_accepts (s : σ) (jobs : List γ) :
    Accepts accept s (accepted accept s jobs) (drain accept s jobs).2.1 := by
  induction jobs generalizing s with
  | nil => exact .nil s
  | cons job rest ih =>
      cases h : accept s job with
      | error e =>
          rw [accepted_cons_error h, drain_cons_error h]
          exact .nil s
      | ok p =>
          obtain ⟨result, s'⟩ := p
          rw [accepted_cons_ok h, drain_cons_ok h]
          exact .cons h (ih s')

/-- A drain that succeeds has emptied the queue and reports every result. -/
theorem drain_ok {s : σ} {jobs : List γ} {results : List ρ}
    (h : (drain accept s jobs).1 = .ok results) :
    (drain accept s jobs).2.2 = [] ∧ results = (accepted accept s jobs).map Prod.snd := by
  induction jobs generalizing s results with
  | nil =>
      cases h
      exact ⟨rfl, rfl⟩
  | cons job rest ih =>
      cases hj : accept s job with
      | error e =>
          rw [drain_cons_error hj] at h
          cases h
      | ok p =>
          obtain ⟨result, s'⟩ := p
          rw [drain_cons_ok hj] at h ⊢
          rw [accepted_cons_ok hj]
          cases hr : (drain accept s' rest).1 with
          | error e =>
              rw [hr] at h
              cases h
          | ok rs =>
              rw [hr] at h
              cases h
              obtain ⟨hleft, hrs⟩ := ih hr
              exact ⟨hleft, by rw [hrs]; rfl⟩

/-- A drain that fails leaves a refused job at the front. -/
theorem drain_error {s : σ} {jobs : List γ} {e : ε}
    (h : (drain accept s jobs).1 = .error e) :
    ∃ head rest, (drain accept s jobs).2.2 = head :: rest ∧
      accept (drain accept s jobs).2.1 head = .error e := by
  induction jobs generalizing s with
  | nil => cases h
  | cons job rest ih =>
      cases hj : accept s job with
      | error e' =>
          rw [drain_cons_error hj] at h ⊢
          cases h
          exact ⟨job, rest, rfl, hj⟩
      | ok p =>
          obtain ⟨result, s'⟩ := p
          rw [drain_cons_ok hj] at h ⊢
          cases hr : (drain accept s' rest).1 with
          | error e' =>
              rw [hr] at h
              cases h
              exact ih hr
          | ok rs =>
              rw [hr] at h
              cases h

/-- When everything is taken, the accepted jobs are the queue. -/
theorem accepted_of_ok {s : σ} {jobs : List γ} {results : List ρ}
    (h : (drain accept s jobs).1 = .ok results) :
    (accepted accept s jobs).map Prod.fst = jobs := by
  have hsplit : (accepted accept s jobs).map Prod.fst ++ (drain accept s jobs).2.2 = jobs :=
    accepted_append_left s jobs
  rwa [(drain_ok h).1, List.append_nil] at hsplit

/-- Pairs whose jobs end in `job` end in `job` with the last result. -/
theorem pairs_end {pairs : List (γ × ρ)} {jobs : List γ} {job : γ}
    (h : pairs.map Prod.fst = jobs ++ [job]) (default : ρ) :
    ∃ done, pairs = done ++ [(job, (pairs.map Prod.snd).getLastD default)] := by
  induction pairs using List.reverseRecOn with
  | nil => simp at h
  | append_singleton done last _ =>
      rw [List.map_append, List.map_singleton] at h
      have hjob : last.1 = job := by
        have hlast := congrArg List.getLast? h
        simpa using hlast
      refine ⟨done, ?_⟩
      rw [← hjob]
      simp

end RetryQueue
