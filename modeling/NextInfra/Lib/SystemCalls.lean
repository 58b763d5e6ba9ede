import NextInfra.Lib.Attempt

/-!
# System calls

A routine asks the system for one thing after the other. Each call does what the state
lets it do, or fails, or is where the routine's process ends. `run` hands the answer on,
`must` returns the first error, and `cleaning` tidies up after a routine that returned
one, which a process that is gone cannot do. Which calls of a routine are not let through
is a function of the call's site; `firstHalt` is the first such site of a list.
-/

/-- How a call ends. The process may end before it or right after it. -/
inductive Fate
  | goes
  | fails
  | stopsBefore
  | stopsAfter
deriving DecidableEq

/-- The process is there after the call. -/
def Fate.lives : Fate → Bool
  | .goes | .fails => true
  | .stopsBefore | .stopsAfter => false

theorem Fate.ne_goes_of_lives {fate : Fate} (h : fate.lives = false) : fate ≠ .goes := by
  rintro rfl
  cases h

/-- Why a routine has no value. -/
inductive Halt (ε : Type)
  | returned (e : ε)
  | interrupted
deriving DecidableEq

/-- The end of a routine at a call that does not go, `e` being its error for one that fails. -/
def Fate.halt {ε : Type} (e : ε) : Fate → Halt ε
  | .fails => .returned e
  | _ => .interrupted

theorem Fate.halt_of_ne {ε : Type} {e : ε} {fate : Fate} (h : fate ≠ .fails) :
    fate.halt e = .interrupted := by
  cases fate with
  | fails => exact absurd rfl h
  | goes => rfl
  | stopsBefore => rfl
  | stopsAfter => rfl

/-- The effect of a call that goes, and what one that does not go leaves. -/
structure SystemCall (κ σ α : Type) where
  effect : σ → Except κ α × σ
  torn : σ → σ := id

namespace SystemCall

variable {κ σ α β ε : Type}

/-- The answer is a value, also where it is an error; `failure` is that of a failing call. -/
def run (call : SystemCall κ σ α) (failure : κ) (fate : Fate) :
    Attempt (Halt ε) σ (Except κ α) := fun s =>
  match fate with
  | .goes => (.ok (call.effect s).1, (call.effect s).2)
  | .fails => (.ok (.error failure), call.torn s)
  | .stopsBefore => (.error .interrupted, call.torn s)
  | .stopsAfter => (.error .interrupted, (call.effect s).2)

/-- An error of the call is one of the routine. -/
def must (call : SystemCall κ σ α) (failure : κ) (fate : Fate) (e : κ → ε) :
    Attempt (Halt ε) σ α := do
  match ← call.run failure fate with
  | .ok a => pure a
  | .error k => .fail (.returned (e k))

/-- A routine whose errors are answered by a clean-up. What the clean-up itself returns
is dropped. -/
def cleaning (body : Attempt (Halt ε) σ α) (cleanup : Attempt (Halt ε) σ β) :
    Attempt (Halt ε) σ α := fun s =>
  match body s with
  | (.error (.returned e), t) =>
      match cleanup t with
      | (.error .interrupted, u) => (.error .interrupted, u)
      | (_, u) => (.error (.returned e), u)
  | (result, t) => (result, t)

section

variable {call : SystemCall κ σ α} {failure : κ} {fate : Fate} {e : κ → ε} {s t : σ}

theorem run_bind (f : Except κ α → Attempt (Halt ε) σ β) :
    (call.run failure fate >>= f) s =
      match fate with
      | .goes => f (call.effect s).1 (call.effect s).2
      | .fails => f (.error failure) (call.torn s)
      | .stopsBefore => (.error .interrupted, call.torn s)
      | .stopsAfter => (.error .interrupted, (call.effect s).2) := by
  cases fate <;> rfl

theorem run_goes (f : Except κ α → Attempt (Halt ε) σ β) (h : fate = .goes) :
    (call.run failure fate >>= f) s = f (call.effect s).1 (call.effect s).2 := by
  subst h
  rfl

/-- A call that only reads leaves the state as it was, however it ends. -/
theorem leads_run (heffect : ∀ s, (call.effect s).2 = s) (htorn : ∀ s, call.torn s = s) :
    Attempt.Leads Eq (call.run failure fate : Attempt (Halt ε) σ (Except κ α)) := by
  intro s
  cases fate with
  | goes => exact (heffect s).symm
  | fails => exact (htorn s).symm
  | stopsBefore => exact (htorn s).symm
  | stopsAfter => exact (heffect s).symm

theorem must_goes {a : α} (f : α → Attempt (Halt ε) σ β) (heffect : call.effect s = (.ok a, t))
    (h : fate = .goes) : (call.must failure fate e >>= f) s = f a t := by
  subst h
  rw [Attempt.bind_apply]
  unfold must
  rw [run_bind]
  simp only [heffect]
  rfl

theorem must_halts (f : α → Attempt (Halt ε) σ β) (h : fate ≠ .goes) :
    (call.must failure fate e >>= f) s =
      (.error (fate.halt (e failure)),
        if fate = .stopsAfter then (call.effect s).2 else call.torn s) := by
  rw [Attempt.bind_apply]
  unfold must
  rw [run_bind]
  cases fate with
  | goes => exact absurd rfl h
  | fails => rfl
  | stopsBefore => rfl
  | stopsAfter => rfl

/-- The last call of a routine, as one with nothing after it. -/
theorem must_last : call.must failure fate e s = (call.must failure fate e >>= pure) s := by
  rw [Attempt.bind_apply]
  rcases call.must failure fate e s with ⟨halt | a, t⟩
  · rfl
  · rfl

theorem cleaning_ok {body : Attempt (Halt ε) σ β} {cleanup : Attempt (Halt ε) σ α} {b : β}
    (h : body s = (.ok b, t)) : cleaning body cleanup s = (.ok b, t) := by
  unfold cleaning
  rw [h]

theorem cleaning_interrupted {body : Attempt (Halt ε) σ β} {cleanup : Attempt (Halt ε) σ α}
    (h : body s = (.error .interrupted, t)) : cleaning body cleanup s = (.error .interrupted, t) := by
  unfold cleaning
  rw [h]

/-- One call cleans up. The error stands as long as the process does. -/
theorem cleaning_must {body : Attempt (Halt ε) σ β} {e' : ε}
    (h : body s = (.error (.returned e'), t)) :
    cleaning body (call.must failure fate e) s =
      (.error (if fate.lives then .returned e' else .interrupted),
        if fate = .goes ∨ fate = .stopsAfter then (call.effect t).2 else call.torn t) := by
  unfold cleaning must
  simp only [h]
  rw [run_bind]
  cases fate with
  | goes => rcases call.effect t with ⟨k | a, u⟩ <;> rfl
  | fails => rfl
  | stopsBefore => rfl
  | stopsAfter => rfl

theorem meets_must_goes {Q : Except (Halt ε) β → σ → Prop} {f : α → Attempt (Halt ε) σ β} {a : α}
    (heffect : call.effect s = (.ok a, t)) (h : fate = .goes) (hnext : Attempt.Meets (f a) t Q) :
    Attempt.Meets (call.must failure fate e >>= f) s Q := by
  unfold Attempt.Meets
  rw [must_goes f heffect h]
  exact hnext

theorem meets_must_halts {Q : Except (Halt ε) β → σ → Prop} {f : α → Attempt (Halt ε) σ β}
    (h : fate ≠ .goes)
    (hhalt : Q (.error (fate.halt (e failure)))
      (if fate = .stopsAfter then (call.effect s).2 else call.torn s)) :
    Attempt.Meets (call.must failure fate e >>= f) s Q := by
  unfold Attempt.Meets
  rw [must_halts f h]
  exact hhalt

/-- A call the state lets through: the routine goes on after it or has no value. -/
theorem meets_must_bind {Q : Except (Halt ε) β → σ → Prop} {f : α → Attempt (Halt ε) σ β} {a : α}
    (heffect : call.effect s = (.ok a, t)) (hgoes : fate = .goes → Attempt.Meets (f a) t Q)
    (hhalts : fate ≠ .goes → ∀ halt u, u = call.torn s ∨ u = t → Q (.error halt) u) :
    Attempt.Meets (call.must failure fate e >>= f) s Q := by
  by_cases h : fate = .goes
  · exact meets_must_goes heffect h (hgoes h)
  · apply meets_must_halts h
    rw [heffect]
    apply hhalts h
    split
    · exact .inr rfl
    · exact .inl rfl

/-- A call the state refuses, and that leaves the state as it was, ends the routine. -/
theorem meets_must_refused {Q : Except (Halt ε) β → σ → Prop} {f : α → Attempt (Halt ε) σ β}
    {k : κ} (heffect : call.effect s = (.error k, s)) (htorn : call.torn s = s)
    (hhalts : ∀ halt, Q (.error halt) s) :
    Attempt.Meets (call.must failure fate e >>= f) s Q := by
  unfold Attempt.Meets
  rw [Attempt.bind_apply]
  unfold must
  rw [run_bind, heffect, htorn]
  cases fate with
  | goes => exact hhalts _
  | fails => exact hhalts _
  | stopsBefore => exact hhalts _
  | stopsAfter => exact hhalts _

theorem meets_run_bind {Q : Except (Halt ε) β → σ → Prop}
    {f : Except κ α → Attempt (Halt ε) σ β} {answer : Except κ α}
    (heffect : call.effect s = (answer, s)) (htorn : call.torn s = s)
    (hgoes : fate = .goes → Attempt.Meets (f answer) s Q)
    (hfails : fate = .fails → Attempt.Meets (f (.error failure)) s Q)
    (hstops : fate.lives = false → Q (.error .interrupted) s) :
    Attempt.Meets (call.run failure fate >>= f) s Q := by
  unfold Attempt.Meets
  rw [run_bind, heffect, htorn]
  cases fate with
  | goes => exact hgoes rfl
  | fails => exact hfails rfl
  | stopsBefore => exact hstops rfl
  | stopsAfter => exact hstops rfl

end

end SystemCall

/-! ## The first call that does not go -/

section

variable {ι : Type} {fate : ι → Fate} {site : ι} {sites more : List ι}

def firstHalt (fate : ι → Fate) (sites : List ι) : Option ι :=
  sites.find? fun site => decide (fate site ≠ .goes)

@[simp] theorem firstHalt_nil : firstHalt fate [] = none := rfl

theorem firstHalt_cons :
    firstHalt fate (site :: sites) =
      if fate site = .goes then firstHalt fate sites else some site := by
  unfold firstHalt
  rw [List.find?_cons]
  by_cases h : fate site = .goes <;> simp [h]

theorem firstHalt_cons_eq_none :
    firstHalt fate (site :: sites) = none ↔ fate site = .goes ∧ firstHalt fate sites = none := by
  rw [firstHalt_cons]
  by_cases h : fate site = .goes
  · rw [if_pos h]
    exact ⟨fun hnone => ⟨h, hnone⟩, fun hnone => hnone.2⟩
  · rw [if_neg h]
    exact ⟨nofun, fun hnone => absurd hnone.1 h⟩

theorem firstHalt_cons_eq_some {found : ι} :
    firstHalt fate (site :: sites) = some found ↔
      fate site ≠ .goes ∧ site = found ∨ fate site = .goes ∧ firstHalt fate sites = some found := by
  rw [firstHalt_cons]
  by_cases h : fate site = .goes
  · rw [if_pos h]
    exact ⟨fun hfound => .inr ⟨h, hfound⟩, fun hfound => hfound.elim (absurd h ·.1) And.right⟩
  · rw [if_neg h, Option.some_inj]
    exact ⟨fun hfound => .inl ⟨h, hfound⟩, fun hfound => hfound.elim And.right (absurd ·.1 h)⟩

theorem firstHalt_append :
    firstHalt fate (sites ++ more) = (firstHalt fate sites).or (firstHalt fate more) :=
  List.find?_append

theorem halts_of_firstHalt (h : firstHalt fate sites = some site) : fate site ≠ .goes := by
  have hfound := List.find?_some h
  exact of_decide_eq_true hfound

theorem mem_of_firstHalt (h : firstHalt fate sites = some site) : site ∈ sites :=
  List.mem_of_find?_eq_some h

theorem firstHalt_of_goes (h : ∀ site, fate site = .goes) : firstHalt fate sites = none :=
  List.find?_eq_none.mpr fun site _ => by simp [h site]

end
