import Mathlib.Logic.Basic
import Mathlib.Tactic.Common
import Mathlib.Data.List.Induction

/-!
# Logs of a replying component

A component answers each call with a new state and a reply. `log` records for
every call the state before it, the call and the reply; `final` is the state after
the last one. A law about calls that come one after another is a statement about
the ways to cut the log, and a log is cut where its calls are (`log_cut`).
`kept` carries an invariant over a stretch of the log whose entries satisfy a
condition.
-/

namespace Trace

variable {σ α β : Type}

/-- One call as the log records it. -/
structure Entry (σ α β : Type) where
  before : σ
  call : α
  reply : β

variable (step : σ → α → σ × β)

/-- The state a recorded call leaves. -/
def Entry.after (entry : Entry σ α β) : σ := (step entry.before entry.call).1

def entryOf (s : σ) (call : α) : Entry σ α β := ⟨s, call, (step s call).2⟩

def final (s : σ) (calls : List α) : σ := calls.foldl (fun s call => (step s call).1) s

def log : σ → List α → List (Entry σ α β)
  | _, [] => []
  | s, call :: calls => entryOf step s call :: log (step s call).1 calls

@[simp]
theorem final_nil (s : σ) : final step s [] = s := rfl

@[simp]
theorem final_cons (s : σ) (call : α) (calls : List α) :
    final step s (call :: calls) = final step (step s call).1 calls := rfl

@[simp]
theorem log_nil (s : σ) : log step s [] = [] := rfl

@[simp]
theorem log_cons (s : σ) (call : α) (calls : List α) :
    log step s (call :: calls) = entryOf step s call :: log step (step s call).1 calls := rfl

theorem final_append (s : σ) (calls more : List α) :
    final step s (calls ++ more) = final step (final step s calls) more :=
  List.foldl_append

theorem log_append (s : σ) (calls more : List α) :
    log step s (calls ++ more) = log step s calls ++ log step (final step s calls) more := by
  induction calls generalizing s with
  | nil => rfl
  | cons call calls ih => simp [ih]

/-- A log is cut at an entry where its calls are cut. -/
theorem log_cut {s : σ} {calls : List α} {past future : List (Entry σ α β)}
    {entry : Entry σ α β} (h : log step s calls = past ++ entry :: future) :
    ∃ earlier call later, calls = earlier ++ call :: later ∧ past = log step s earlier ∧
      entry = entryOf step (final step s earlier) call ∧
      future = log step (final step s (earlier ++ [call])) later := by
  induction past generalizing s calls with
  | nil =>
      cases calls with
      | nil => simp at h
      | cons call calls =>
          simp only [log_cons, List.nil_append, List.cons.injEq] at h
          exact ⟨[], call, calls, rfl, rfl, h.1.symm, h.2.symm⟩
  | cons first past ih =>
      cases calls with
      | nil => simp at h
      | cons call calls =>
          simp only [log_cons, List.cons_append, List.cons.injEq] at h
          obtain ⟨earlier, next, later, rfl, hpast, hentry, hfuture⟩ := ih h.2
          refine ⟨call :: earlier, next, later, rfl, ?_, hentry, hfuture⟩
          rw [log_cons, ← h.1, hpast]

theorem mem_log {s : σ} {calls : List α} {entry : Entry σ α β} (h : entry ∈ log step s calls) :
    ∃ earlier call later, calls = earlier ++ call :: later ∧
      entry = entryOf step (final step s earlier) call := by
  obtain ⟨past, future, hlog⟩ := List.append_of_mem h
  obtain ⟨earlier, call, later, hcalls, _, hentry, _⟩ := log_cut step hlog
  exact ⟨earlier, call, later, hcalls, hentry⟩

/-- What every admitted call keeps holds after a stretch of admitted calls. -/
theorem kept {P : σ → Prop} {Q : Entry σ α β → Prop}
    (hstep : ∀ s call, P s → Q (entryOf step s call) → P (step s call).1) {s : σ}
    {calls : List α} (hs : P s) (hok : ∀ entry ∈ log step s calls, Q entry) :
    P (final step s calls) := by
  induction calls generalizing s with
  | nil => exact hs
  | cons call calls ih =>
      have hnext : P (step s call).1 := hstep s call hs (hok _ (by simp))
      exact ih hnext fun entry hentry => hok entry (by simp [hentry])

/-- What every call keeps holds after any calls. -/
theorem invariant {P : σ → Prop} (hstep : ∀ s call, P s → P (step s call).1) {s : σ}
    (calls : List α) (hs : P s) : P (final step s calls) :=
  kept step (Q := fun _ => True) (fun s call h _ => hstep s call h) hs fun _ _ => trivial

/-- What the log up to a state says of it: true at the start, and kept by one more entry. -/
theorem recorded {P : List (Entry σ α β) → σ → Prop} {s : σ} (hstart : P [] s)
    (hstep : ∀ past s call, P past s → P (past ++ [entryOf step s call]) (step s call).1)
    (calls : List α) : P (log step s calls) (final step s calls) := by
  induction calls using List.reverseRecOn with
  | nil => exact hstart
  | append_singleton calls call ih =>
      rw [log_append, final_append]
      exact hstep _ _ call ih

end Trace
