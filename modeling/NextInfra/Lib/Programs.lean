/-!
# Programs of calls

A program asks for one thing after the other, and what it does next depends on the
answers. Several of them may run side by side on one state, a call at a time.

A discipline says what a program may call by what it holds, and what it holds after an
answer. `Obeys` follows a program through every answer that is possible for it; the rules
take it apart along the program. Where each allowed call keeps an invariant of the state
and of what everybody holds (`Discipline.Kept`), the calls of programs that obey keep it
in any order (`Obeys.step`). What everybody holds is a list beside the one of who is there
(`EachHolds`).
-/

inductive Program (κ : Type) (ρ : κ → Type) (α : Type) : Type
  | done (a : α)
  | call (c : κ) (next : ρ c → Program κ ρ α)

namespace Program

variable {κ : Type} {ρ : κ → Type} {α β ε : Type}

def bind (p : Program κ ρ α) (f : α → Program κ ρ β) : Program κ ρ β :=
  match p with
  | .done a => f a
  | .call c next => .call c fun r => (next r).bind f

instance : Monad (Program κ ρ) where
  pure := .done
  bind := bind

def ask (c : κ) : Program κ ρ (ρ c) := .call c .done

end Program

/-! ## What a program may do -/

/-- What may be called by one who holds `γ`, which answers are possible then, and what is
held after them. -/
structure Discipline (κ : Type) (ρ : κ → Type) (γ : Type) where
  allowed : γ → κ → Prop
  possible : γ → (c : κ) → ρ c → Prop
  after : γ → (c : κ) → ρ c → γ

variable {κ : Type} {ρ : κ → Type} {γ α β ε : Type} {d : Discipline κ ρ γ}

/-- Whatever is answered, the program calls only what is allowed, and ends with `Q`. -/
def Obeys (d : Discipline κ ρ γ) (g : γ) (Q : γ → α → Prop) : Program κ ρ α → Prop
  | .done a => Q g a
  | .call c next => d.allowed g c ∧ ∀ r, d.possible g c r → Obeys d (d.after g c r) Q (next r)

namespace Obeys

variable {g : γ} {P Q : γ → α → Prop} {R : γ → β → Prop}

theorem done {a : α} (h : Q g a) : Obeys d g Q (.done a : Program κ ρ α) := h

theorem call {c : κ} {next : ρ c → Program κ ρ α} (hallowed : d.allowed g c)
    (hnext : ∀ r, d.possible g c r → Obeys d (d.after g c r) Q (next r)) :
    Obeys d g Q (.call c next) :=
  ⟨hallowed, hnext⟩

theorem mono {p : Program κ ρ α} (h : Obeys d g P p) (himp : ∀ g a, P g a → Q g a) :
    Obeys d g Q p := by
  induction p generalizing g with
  | done a => exact himp g a h
  | call c next ih => exact ⟨h.1, fun r hr => ih r (h.2 r hr)⟩

/-- What the first part ends with is what the second starts from. -/
theorem bind {p : Program κ ρ α} {f : α → Program κ ρ β} (h : Obeys d g P p)
    (hnext : ∀ g a, P g a → Obeys d g R (f a)) : Obeys d g R (p >>= f) := by
  show Obeys d g R (p.bind f)
  induction p generalizing g with
  | done a => exact hnext g a h
  | call c next ih => exact ⟨h.1, fun r hr => ih r (h.2 r hr)⟩

/-- The first part may throw, which ends the whole. -/
theorem try_bind {S : γ → Except ε α → Prop} {T : γ → Except ε β → Prop}
    {x : ExceptT ε (Program κ ρ) α} {f : α → ExceptT ε (Program κ ρ) β} (hx : Obeys d g S x)
    (hok : ∀ g a, S g (.ok a) → Obeys d g T (f a))
    (herror : ∀ g e, S g (.error e) → T g (.error e)) :
    Obeys d g T (x >>= f : ExceptT ε (Program κ ρ) β) := by
  refine bind hx fun g r hr => ?_
  cases r with
  | ok a => exact hok g a hr
  | error e => exact herror g e hr

end Obeys

/-! ## Programs side by side -/

/-- What answers the calls: by the state, by who asks, and by a choice of its own. -/
structure Kernel (κ : Type) (ρ : κ → Type) (σ ι : Type) where
  possible : σ → ι → Prop
  perform : σ → Nat → (c : κ) → ι → ρ c × σ

variable {σ ι : Type} {kernel : Kernel κ ρ σ ι}

/-- An allowed call has a possible answer and keeps the invariant. -/
def Discipline.Kept (d : Discipline κ ρ γ) (kernel : Kernel κ ρ σ ι) (Inv : σ → List γ → Prop) :
    Prop :=
  ∀ s held i g c choice, Inv s held → held[i]? = some g → d.allowed g c →
    kernel.possible s choice →
      d.possible g c (kernel.perform s i c choice).1 ∧
        Inv (kernel.perform s i c choice).2
          (held.set i (d.after g c (kernel.perform s i c choice).1))

theorem Obeys.step {Inv : σ → List γ → Prop} (hkept : d.Kept kernel Inv) {s : σ} {held : List γ}
    {i : Nat} {g : γ} {Q : γ → α → Prop} {c : κ} {next : ρ c → Program κ ρ α} {choice : ι}
    (hinv : Inv s held) (hheld : held[i]? = some g) (hobeys : Obeys d g Q (.call c next))
    (hchoice : kernel.possible s choice) :
    Inv (kernel.perform s i c choice).2
        (held.set i (d.after g c (kernel.perform s i c choice).1)) ∧
      Obeys d (d.after g c (kernel.perform s i c choice).1) Q
        (next (kernel.perform s i c choice).1) := by
  obtain ⟨hpossible, hinv'⟩ := hkept s held i g c choice hinv hheld hobeys.1 hchoice
  exact ⟨hinv', hobeys.2 _ hpossible⟩

/-! ## Who holds what -/

theorem set_cases {held : List γ} {i j : Nat} {g a : γ} (h : (held.set i g)[j]? = some a) :
    j = i ∧ a = g ∨ j ≠ i ∧ held[j]? = some a := by
  by_cases hij : i = j
  · subst hij
    obtain ⟨hlt, hget⟩ := List.getElem?_eq_some_iff.mp h
    rw [List.getElem_set_self] at hget
    exact Or.inl ⟨rfl, hget.symm⟩
  · rw [List.getElem?_set_ne hij] at h
    exact Or.inr ⟨fun hji => hij hji.symm, h⟩

/-- Everybody who is there holds something, and does what goes with it. -/
structure EachHolds {τ : Type} (R : τ → γ → Prop) (threads : List τ) (held : List γ) : Prop where
  length : held.length = threads.length
  follows : ∀ (i : Nat) (t : τ) (g : γ), threads[i]? = some t → held[i]? = some g → R t g

namespace EachHolds

variable {τ : Type} {R : τ → γ → Prop} {threads : List τ} {held : List γ} {i : Nat} {t : τ} {g : γ}

theorem holds (h : EachHolds R threads held) (ht : threads[i]? = some t) :
    ∃ g, held[i]? = some g ∧ R t g := by
  obtain ⟨hlt, _⟩ := List.getElem?_eq_some_iff.mp ht
  have hlength : i < held.length := by
    rw [h.length]
    exact hlt
  have hheld : held[i]? = some held[i] := List.getElem?_eq_getElem hlength
  exact ⟨_, hheld, h.follows i t _ ht hheld⟩

theorem set (h : EachHolds R threads held) (i : Nat) (hnew : R t g) :
    EachHolds R (threads.set i t) (held.set i g) where
  length := by rw [List.length_set, List.length_set, h.length]
  follows := by
    intro j u a hu ha
    rcases set_cases ha with ⟨rfl, rfl⟩ | ⟨hne, ha⟩
    · rcases set_cases hu with ⟨_, rfl⟩ | ⟨hne, _⟩
      · exact hnew
      · exact absurd rfl hne
    · rcases set_cases hu with ⟨heq, _⟩ | ⟨_, hu⟩
      · exact absurd heq hne
      · exact h.follows j u a hu ha

theorem append (h : EachHolds R threads held) (hnew : R t g) :
    EachHolds R (threads ++ [t]) (held ++ [g]) where
  length := by
    rw [List.length_append, List.length_append, h.length]
    rfl
  follows := by
    intro j u a hu ha
    rw [List.getElem?_append] at hu ha
    rw [h.length] at ha
    split at hu
    · rename_i hlt
      rw [if_pos hlt] at ha
      exact h.follows j u a hu ha
    · rename_i hlt
      rw [if_neg hlt] at ha
      obtain rfl := List.mem_singleton.mp (List.mem_of_getElem? hu)
      obtain rfl := List.mem_singleton.mp (List.mem_of_getElem? ha)
      exact hnew

end EachHolds

/-! ## A program alone -/

namespace Program

variable (kernel) (i : Nat) (choose : σ → ι)

/-- All the calls of one program, and no other between them. -/
def alone : Program κ ρ α → σ → α × σ
  | .done a, s => (a, s)
  | .call c next, s =>
      alone (next (kernel.perform s i c (choose s)).1) (kernel.perform s i c (choose s)).2

variable {kernel i choose}

theorem alone_bind {p : Program κ ρ α} {f : α → Program κ ρ β} {s s' : σ} {a : α}
    (h : p.alone kernel i choose s = (a, s')) :
    (p >>= f).alone kernel i choose s = (f a).alone kernel i choose s' := by
  show (p.bind f).alone kernel i choose s = _
  induction p generalizing s with
  | done b =>
      cases h
      rfl
  | call c next ih => exact ih _ h

end Program
