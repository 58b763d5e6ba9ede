import Mathlib.Logic.Basic
import Mathlib.Tactic.Common

/-!
# Reading from a stream in pieces

What a stream hands to one `read` after the other: items that have arrived, an
interruption, a failure, and past its last event nothing. `readExact` reads until it has
a number of items.

On a stream without a failure only the items count and not the pieces they come in
(`readExact_clean`); what was read stood at the front of the stream (`readExact_ok`).
-/

namespace Reads

inductive Event (α ε : Type)
  /-- At least one item; a read of none is the end. -/
  | arrived (first : α) (more : List α)
  | interrupted
  | failed (error : ε)

abbrev Stream (α ε : Type) : Type := List (Event α ε)

inductive ReadError (ε : Type)
  | failed (error : ε)
  /-- The stream ended with `actual` of the `expected` items. -/
  | eof (expected actual : Nat)
deriving DecidableEq

variable {α ε : Type}

def items : Stream α ε → List α
  | [] => []
  | .arrived first more :: rest => first :: more ++ items rest
  | .interrupted :: rest => items rest
  | .failed _ :: rest => items rest

def Event.isFailed : Event α ε → Bool
  | .failed _ => true
  | _ => false

/-- No read of the stream fails. -/
def Clean (stream : Stream α ε) : Prop := ∀ event ∈ stream, event.isFailed = false

/-- What a read has left of a piece stays at the front. -/
def putBack (left : List α) (stream : Stream α ε) : Stream α ε :=
  match left with
  | [] => stream
  | first :: more => .arrived first more :: stream

/-- Read until there are `expected` items, with those of `got` already read. -/
def readExact (expected : Nat) :
    List α → Stream α ε → Except (ReadError ε) (List α) × Stream α ε
  | got, [] =>
      if expected ≤ got.length then (.ok got, [])
      else (.error (.eof expected got.length), [])
  | got, event :: rest =>
      if expected ≤ got.length then (.ok got, event :: rest)
      else
        match event with
        | .interrupted => readExact expected got rest
        | .failed error => (.error (.failed error), rest)
        | .arrived first more =>
            -- a read takes what fits the buffer, so a longer piece ends the loop
            if got.length + (first :: more).length ≤ expected then
              readExact expected (got ++ first :: more) rest
            else
              (.ok (got ++ (first :: more).take (expected - got.length)),
                putBack ((first :: more).drop (expected - got.length)) rest)

/-! ## What a stream holds -/

@[simp]
theorem items_nil : items ([] : Stream α ε) = [] := rfl

@[simp]
theorem items_arrived (first : α) (more : List α) (rest : Stream α ε) :
    items (.arrived first more :: rest) = first :: more ++ items rest := rfl

@[simp]
theorem items_interrupted (rest : Stream α ε) : items (.interrupted :: rest) = items rest := rfl

@[simp]
theorem items_putBack (left : List α) (stream : Stream α ε) :
    items (putBack left stream) = left ++ items stream := by
  cases left <;> rfl

theorem clean_nil : Clean ([] : Stream α ε) := by
  intro event hevent
  cases hevent

theorem clean_cons_iff {event : Event α ε} {rest : Stream α ε} :
    Clean (event :: rest) ↔ event.isFailed = false ∧ Clean rest :=
  List.forall_mem_cons

theorem Clean.putBack {stream : Stream α ε} (h : Clean stream) (left : List α) :
    Clean (putBack left stream) := by
  cases left with
  | nil => exact h
  | cons first more => exact clean_cons_iff.mpr ⟨rfl, h⟩

/-! ## Reading -/

/-- A loop that has what it wants reads no further. -/
theorem readExact_of_le {expected : Nat} {got : List α} (h : expected ≤ got.length)
    (stream : Stream α ε) : readExact expected got stream = (.ok got, stream) := by
  cases stream <;> exact if_pos h

/-- What is read stood at the front of the stream, and no more is taken. -/
theorem readExact_ok {expected : Nat} {got all : List α} {stream rest : Stream α ε}
    (hgot : got.length ≤ expected) (h : readExact expected got stream = (.ok all, rest)) :
    all.length = expected ∧ got ++ items stream = all ++ items rest := by
  induction stream generalizing got with
  | nil =>
      unfold readExact at h
      split at h
      · cases h
        exact ⟨by omega, rfl⟩
      · cases h
  | cons event tail ih =>
      unfold readExact at h
      split at h
      · cases h
        exact ⟨by omega, rfl⟩
      rename_i hmore
      cases event with
      | interrupted => exact ih hgot h
      | failed error => cases h
      | arrived first more =>
          simp only at h
          split at h
          · rename_i hfits
            have hlonger : (got ++ first :: more).length ≤ expected := by
              rw [List.length_append]
              exact hfits
            obtain ⟨hlength, hitems⟩ := ih hlonger h
            refine ⟨hlength, ?_⟩
            rw [items_arrived, ← List.append_assoc]
            exact hitems
          · rename_i hover
            cases h
            refine ⟨?_, ?_⟩
            · rw [List.length_append, List.length_take]
              omega
            · rw [items_putBack, items_arrived, List.append_assoc, ← List.append_assoc (List.take _ _),
                List.take_append_drop]

/-- On a stream without a failure a read has its items, or comes to the end. -/
theorem readExact_clean {expected : Nat} {got : List α} {stream : Stream α ε}
    (hclean : Clean stream) (hgot : got.length ≤ expected) :
    (expected ≤ got.length + (items stream).length ∧
      ∃ rest, readExact expected got stream =
          (.ok (got ++ (items stream).take (expected - got.length)), rest) ∧ Clean rest ∧
        items rest = (items stream).drop (expected - got.length)) ∨
    (got.length + (items stream).length < expected ∧
      readExact expected got stream =
        (.error (.eof expected (got.length + (items stream).length)), [])) := by
  induction stream generalizing got with
  | nil =>
      unfold readExact
      by_cases hend : expected ≤ got.length
      · left
        rw [if_pos hend]
        exact ⟨by simpa using hend, [], by simp, clean_nil, by simp⟩
      · right
        rw [if_neg hend]
        exact ⟨by simpa using hend, by simp⟩
  | cons event tail ih =>
      obtain ⟨hevent, htail⟩ := clean_cons_iff.mp hclean
      by_cases hend : expected ≤ got.length
      · left
        have hzero : expected - got.length = 0 := by omega
        refine ⟨by omega, event :: tail, ?_, hclean, ?_⟩
        · rw [readExact_of_le hend, hzero, List.take_zero, List.append_nil]
        · rw [hzero, List.drop_zero]
      unfold readExact
      rw [if_neg hend]
      cases event with
      | interrupted => exact ih htail hgot
      | failed error => cases hevent
      | arrived first more =>
          simp only [items_arrived]
          by_cases hfits : got.length + (first :: more).length ≤ expected
          · rw [if_pos hfits]
            have hroom : expected - got.length =
                (first :: more).length + (expected - (got ++ first :: more).length) := by
              rw [List.length_append]
              omega
            have hlonger : (got ++ first :: more).length ≤ expected := by
              rw [List.length_append]
              exact hfits
            rcases ih htail hlonger with ⟨hle, rest, hread, hrest, hitems⟩ | ⟨hlt, hread⟩
            · left
              refine ⟨?_, rest, ?_, hrest, ?_⟩
              · rw [List.length_append] at hle ⊢
                omega
              · rw [hread, hroom, List.take_length_add_append, List.append_assoc]
              · rw [hitems, hroom, List.drop_length_add_append]
            · right
              rw [List.length_append] at hlt ⊢
              refine ⟨by omega, ?_⟩
              rw [hread, List.length_append, Nat.add_assoc]
          · rw [if_neg hfits]
            left
            refine ⟨?_, putBack ((first :: more).drop (expected - got.length)) tail, ?_,
              htail.putBack _, ?_⟩
            · rw [List.length_append]
              omega
            · rw [List.take_append_of_le_length (by omega)]
            · rw [items_putBack, List.drop_append_of_le_length (by omega)]

end Reads
