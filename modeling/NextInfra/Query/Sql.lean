import NextInfra.Core.Ids
import Mathlib.Data.List.Infix

/-!
# The SQL the reads are spelled in

The reads of `next-infra-store` put a statement together piece by piece: each
filter appends ` AND ..` to the text and its values to the parameters. A clause
is kept here as the tests it joins by `OR`; the text of a clause without a test
is `AND ()`, which SQLite refuses when the statement is prepared.
-/

namespace NextInfra

/-- What a read reports: an error of SQLite, or of the code around it. -/
inductive ReadError
  | sqlite (message : String)
  | contract (message : String)
deriving DecidableEq

namespace Sql

variable {ρ : Type}

/-! ## §1  Conditions -/

/-- The tests one ` AND (.. OR ..)` joins. -/
abbrev Clause (ρ : Type) := List (ρ → Bool)

/-- A clause of one test. -/
def Clause.of (test : ρ → Bool) : Clause ρ := [test]

/-- The row passes every clause. -/
def holds (clauses : List (Clause ρ)) (row : ρ) : Bool :=
  clauses.all fun clause => clause.any fun test => test row

/-- Preparing `WHERE 1 = 1 AND ..`: the condition, when every clause is spelled. -/
def prepare (clauses : List (Clause ρ)) : Except ReadError (ρ → Bool) :=
  if clauses.any List.isEmpty then .error (.sqlite "near \")\": syntax error")
  else .ok (holds clauses)

/-- `push_text_set`: no clause for the empty set. -/
def inSet (column : ρ → String) (set : List String) : List (Clause ρ) :=
  if set.isEmpty then [] else [.of fun row => decide (column row ∈ set)]

@[simp] theorem holds_nil (row : ρ) : holds [] row = true := rfl

@[simp] theorem holds_append (clauses others : List (Clause ρ)) (row : ρ) :
    holds (clauses ++ others) row = (holds clauses row && holds others row) := by
  simp [holds]

@[simp] theorem holds_cons (clause : Clause ρ) (clauses : List (Clause ρ)) (row : ρ) :
    holds (clause :: clauses) row = (clause.any (fun test => test row) && holds clauses row) := rfl

@[simp] theorem any_of (test : ρ → Bool) (row : ρ) :
    (Clause.of test).any (fun t => t row) = test row := by
  simp [Clause.of]

theorem holds_iff {clauses : List (Clause ρ)} {row : ρ} :
    holds clauses row = true ↔ ∀ clause ∈ clauses, ∃ test ∈ clause, test row = true := by
  simp [holds]

/-- No clause lacks its tests. -/
def Spelled (clauses : List (Clause ρ)) : Prop := ∀ clause ∈ clauses, clause ≠ []

theorem prepare_of_spelled {clauses : List (Clause ρ)} (h : Spelled clauses) :
    prepare clauses = .ok (holds clauses) := by
  unfold prepare
  rw [if_neg]
  rw [List.any_eq_true]
  rintro ⟨clause, hmem, hempty⟩
  exact h clause hmem (List.isEmpty_iff.mp hempty)

theorem prepare_of_unspelled {clauses : List (Clause ρ)} (h : ¬ Spelled clauses) :
    prepare clauses = .error (.sqlite "near \")\": syntax error") := by
  unfold Spelled at h
  push Not at h
  obtain ⟨clause, hmem, rfl⟩ := h
  unfold prepare
  rw [if_pos]
  rw [List.any_eq_true]
  exact ⟨[], hmem, rfl⟩

theorem spelled_append {clauses others : List (Clause ρ)} :
    Spelled (clauses ++ others) ↔ Spelled clauses ∧ Spelled others := by
  unfold Spelled
  simp only [List.mem_append]
  constructor
  · intro h
    exact ⟨fun c hc => h c (Or.inl hc), fun c hc => h c (Or.inr hc)⟩
  · rintro ⟨h, h'⟩ c (hc | hc)
    · exact h c hc
    · exact h' c hc

/-- Clauses of one test each are spelled. -/
theorem spelled_map_of {α : Type} (items : List α) (test : α → ρ → Bool) :
    Spelled (items.map fun item => Clause.of (test item)) := by
  intro clause hmem
  obtain ⟨item, _, rfl⟩ := List.mem_map.mp hmem
  exact List.cons_ne_nil _ _

theorem spelled_inSet {column : ρ → String} {set : List String} : Spelled (inSet column set) := by
  intro clause hmem
  unfold inSet at hmem
  split at hmem
  · cases hmem
  · rw [List.mem_singleton.mp hmem]
    exact List.cons_ne_nil _ _

theorem holds_inSet {column : ρ → String} {set : List String} {row : ρ} :
    holds (inSet column set) row = true ↔ set = [] ∨ column row ∈ set := by
  unfold inSet
  cases set with
  | nil => simp
  | cons v vs => simp

/-! ## §2  Integers -/

/-- `i64::MAX`. -/
def maxI64 : Nat := 2 ^ 63 - 1

/-- `value as i64`, which wraps. -/
def asI64 (value : Nat) : Int := Int.bmod value (2 ^ 64)

/-- `LIMIT ?`: a negative limit is none at all. -/
def limitRows (limit : Int) (rows : List ρ) : List ρ :=
  if limit < 0 then rows else rows.take limit.toNat

theorem limitRows_ofNat (n : Nat) (rows : List ρ) : limitRows n rows = rows.take n := by
  unfold limitRows
  rw [if_neg (by omega)]
  simp

theorem asI64_of_le {n : Nat} (h : n ≤ maxI64) : asI64 n = n := by
  unfold asI64
  unfold maxI64 at h
  rw [Int.bmod_def]
  split <;> omega

/-! ## §3  `LIKE` -/

/-- SQLite reads the operands of `LIKE` up to the first NUL. -/
def cText (text : List Char) : List Char := text.takeWhile (· != '\x00')

/-- `text LIKE pattern ESCAPE '\'`: `%` stands for any text and `_` for any
character, the character after `\` for itself; ASCII letters match in either case. -/
def likeChars : List Char → List Char → Bool
  | [], text => text.isEmpty
  | '%' :: pattern, text => text.tails.any (likeChars pattern)
  | '_' :: pattern, text =>
      match text with
      | [] => false
      | _ :: text' => likeChars pattern text'
  | '\\' :: pattern, text =>
      match pattern, text with
      | c :: pattern', d :: text' => c.toLower == d.toLower && likeChars pattern' text'
      | _, _ => false
  | c :: pattern, text =>
      match text with
      | [] => false
      | d :: text' => c.toLower == d.toLower && likeChars pattern text'

def like (pattern text : String) : Bool := likeChars (cText pattern.toList) (cText text.toList)

/-- `LOWER(text)`, which knows ASCII only. -/
def lower (text : String) : String := text.map Char.toLower

/-- `str::replace` of one character. -/
def replaceChar (c : Char) (by_ : List Char) (text : List Char) : List Char :=
  text.flatMap fun d => if d = c then by_ else [d]

def escapeLike (value : String) : String :=
  String.ofList (replaceChar '_' ['\\', '_'] (replaceChar '%' ['\\', '%']
    (replaceChar '\\' ['\\', '\\'] value.toList)))

end Sql

end NextInfra
