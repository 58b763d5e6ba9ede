import Mathlib.Algebra.Order.Ring.Int
import Mathlib.Logic.Basic
import Mathlib.Tactic.Common

/-!
# Length-prefixed frames

A frame is a body behind its length in four big-endian bytes. `read` takes the first
frame off the bytes at hand and accepts only bodies that are not empty and at most
`limit` long.

`read_body_iff` has both directions: what was framed is read back, and a body that is
read stood there as a frame. `cut_flatten` finds the piece of a stream that a position
falls into.
-/

namespace Frames

abbrev Bytes : Type := List UInt8

def header (length : Nat) : Bytes :=
  [UInt8.ofNat (length / 2 ^ 24), UInt8.ofNat (length / 2 ^ 16), UInt8.ofNat (length / 2 ^ 8),
    UInt8.ofNat length]

def lengthOf (a b c d : UInt8) : Nat :=
  a.toNat * 2 ^ 24 + b.toNat * 2 ^ 16 + c.toNat * 2 ^ 8 + d.toNat

def frame (body : Bytes) : Bytes := header body.length ++ body

inductive Read
  /-- The bytes end before the frame does. -/
  | short
  /-- The header declares no body or one over the limit. -/
  | rejected (length : Nat) (rest : Bytes)
  | body (body rest : Bytes)
deriving DecidableEq

def read (limit : Nat) : Bytes → Read
  | a :: b :: c :: d :: rest =>
      if lengthOf a b c d = 0 ∨ limit < lengthOf a b c d then .rejected (lengthOf a b c d) rest
      else if rest.length < lengthOf a b c d then .short
      else .body (rest.take (lengthOf a b c d)) (rest.drop (lengthOf a b c d))
  | _ => .short

/-- What is left to read; a frame that is cut short is gone. -/
def Read.rest : Read → Bytes
  | .short => []
  | .rejected _ rest => rest
  | .body _ rest => rest

/-! ## Headers -/

theorem lengthOf_header {n : Nat} (h : n < 2 ^ 32) :
    lengthOf (UInt8.ofNat (n / 2 ^ 24)) (UInt8.ofNat (n / 2 ^ 16)) (UInt8.ofNat (n / 2 ^ 8))
      (UInt8.ofNat n) = n := by
  simp only [lengthOf, UInt8.toNat_ofNat']
  omega

theorem header_lengthOf (a b c d : UInt8) : header (lengthOf a b c d) = [a, b, c, d] := by
  have ha := a.toNat_lt
  have hb := b.toNat_lt
  have hc := c.toNat_lt
  have hd := d.toNat_lt
  simp only [header, List.cons.injEq, and_true]
  refine ⟨?_, ?_, ?_, ?_⟩ <;>
    · apply UInt8.toNat_inj.mp
      simp only [lengthOf, UInt8.toNat_ofNat']
      omega

@[simp]
theorem length_frame (body : Bytes) : (frame body).length = 4 + body.length := by
  simp [frame, header]
  omega

/-! ## Reading -/

theorem read_cons (limit : Nat) (a b c d : UInt8) (rest : Bytes) :
    read limit (a :: b :: c :: d :: rest) =
      if lengthOf a b c d = 0 ∨ limit < lengthOf a b c d then .rejected (lengthOf a b c d) rest
      else if rest.length < lengthOf a b c d then .short
      else .body (rest.take (lengthOf a b c d)) (rest.drop (lengthOf a b c d)) :=
  rfl

theorem read_no_header {limit : Nat} {bytes : Bytes} (h : bytes.length < 4) :
    read limit bytes = .short := by
  match bytes with
  | [] => rfl
  | [_] => rfl
  | [_, _] => rfl
  | [_, _, _] => rfl
  | _ :: _ :: _ :: _ :: rest =>
      simp only [List.length_cons] at h
      omega

/-- Bytes that hold a header start with its four. -/
theorem exists_header {bytes : Bytes} (h : ¬ bytes.length < 4) :
    ∃ a b c d rest, bytes = a :: b :: c :: d :: rest := by
  match bytes with
  | [] => simp at h
  | [_] => simp at h
  | [_, _] => simp at h
  | [_, _, _] => simp at h
  | a :: b :: c :: d :: rest => exact ⟨a, b, c, d, rest, rfl⟩

/-- Reading a header that frames `length` bytes. -/
theorem read_header {limit length : Nat} (hpos : length ≠ 0) (hfits : length ≤ limit)
    (hlimit : limit < 2 ^ 32) (rest : Bytes) :
    read limit (header length ++ rest) =
      if rest.length < length then .short else .body (rest.take length) (rest.drop length) := by
  show read limit (_ :: _ :: _ :: _ :: rest) = _
  rw [read_cons, lengthOf_header (Nat.lt_of_le_of_lt hfits hlimit), if_neg (by omega)]

theorem read_body_iff {limit : Nat} (hlimit : limit < 2 ^ 32) {bytes body rest : Bytes} :
    read limit bytes = .body body rest ↔
      bytes = frame body ++ rest ∧ body ≠ [] ∧ body.length ≤ limit := by
  constructor
  · intro h
    by_cases hheader : bytes.length < 4
    · rw [read_no_header hheader] at h
      cases h
    obtain ⟨a, b, c, d, tail, rfl⟩ := exists_header hheader
    rw [read_cons] at h
    by_cases hlength : lengthOf a b c d = 0 ∨ limit < lengthOf a b c d
    · rw [if_pos hlength] at h
      cases h
    rw [if_neg hlength] at h
    by_cases htail : tail.length < lengthOf a b c d
    · rw [if_pos htail] at h
      cases h
    rw [if_neg htail] at h
    simp only [Read.body.injEq] at h
    obtain ⟨rfl, rfl⟩ := h
    have htake : (tail.take (lengthOf a b c d)).length = lengthOf a b c d := by
      rw [List.length_take]
      omega
    refine ⟨?_, ?_, by omega⟩
    · rw [frame, htake, header_lengthOf, List.append_assoc, List.take_append_drop]
      rfl
    · intro hnil
      rw [hnil] at htake
      exact hlength (.inl htake.symm)
  · rintro ⟨rfl, hne, hfits⟩
    have hpos : body.length ≠ 0 := fun h => hne (List.length_eq_zero_iff.mp h)
    rw [frame, List.append_assoc, read_header hpos hfits hlimit,
      if_neg (by rw [List.length_append]; omega), List.take_left, List.drop_left]

/-- Two streams that start with a frame start with the same one or differ. -/
theorem frame_append_inj {limit : Nat} (hlimit : limit < 2 ^ 32) {a b x y : Bytes} (ha : a ≠ [])
    (hafits : a.length ≤ limit) (hb : b ≠ []) (hbfits : b.length ≤ limit)
    (h : frame a ++ x = frame b ++ y) : a = b ∧ x = y := by
  have hread := (read_body_iff hlimit).mpr ⟨h, hb, hbfits⟩
  rw [(read_body_iff hlimit).mpr ⟨rfl, ha, hafits⟩] at hread
  simp only [Read.body.injEq] at hread
  exact hread

/-- A frame that has not arrived whole is cut short. -/
theorem read_of_prefix {limit : Nat} (hlimit : limit < 2 ^ 32) {body bytes : Bytes}
    (hne : body ≠ []) (hfits : body.length ≤ limit) (hcut : bytes <+: frame body)
    (hshort : bytes.length < (frame body).length) : read limit bytes = .short := by
  by_cases hheader : bytes.length < 4
  · exact read_no_header hheader
  have hpos : body.length ≠ 0 := fun h => hne (List.length_eq_zero_iff.mp h)
  obtain ⟨arrived, rfl⟩ : header body.length <+: bytes :=
    List.prefix_of_prefix_length_le (List.prefix_append _ _) hcut (by
      show 4 ≤ _
      omega)
  rw [length_frame, List.length_append] at hshort
  have hfour : (header body.length).length = 4 := rfl
  rw [read_header hpos hfits hlimit, if_pos (by omega)]

/-! ## Positions in a stream -/

/-- A position in a stream of pieces falls into one of them. -/
theorem cut_flatten {α : Type} {pieces : List (List α)} {n : Nat}
    (h : n < pieces.flatten.length) :
    ∃ before piece after j, pieces = before ++ piece :: after ∧ j < piece.length ∧
      n = before.flatten.length + j ∧ pieces.flatten.drop n = piece.drop j ++ after.flatten := by
  induction pieces generalizing n with
  | nil => simp at h
  | cons piece pieces ih =>
      rw [List.flatten_cons, List.length_append] at h
      by_cases hn : n < piece.length
      · refine ⟨[], piece, pieces, n, rfl, hn, by simp, ?_⟩
        rw [List.flatten_cons, List.drop_append_of_le_length (Nat.le_of_lt hn)]
      · obtain ⟨before, other, after, j, rfl, hj, hpos, hdrop⟩ :=
          ih (n := n - piece.length) (by omega)
        refine ⟨piece :: before, other, after, j, rfl, hj, ?_, ?_⟩
        · rw [List.flatten_cons, List.length_append]
          omega
        · rw [List.flatten_cons, List.drop_append, List.drop_eq_nil_of_le (by omega), hdrop]
          rfl

end Frames
