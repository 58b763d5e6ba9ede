import Mathlib.Data.List.Basic
import Mathlib.Tactic.Common

/-!
# Padded Base64

Standard Base64: four characters for three bytes, and equals signs in the last four where
one or two bytes are left. The reading is strict, the bits that the padding leaves over
have to be zero, and what is written reads back (`decode_encode`).
-/

namespace Base64

/-! ## §1  The alphabet -/

def charOf (n : Nat) : Char :=
  if n < 26 then Char.ofNat (0x41 + n)
  else if n < 52 then Char.ofNat (0x61 + (n - 26))
  else if n < 62 then Char.ofNat (0x30 + (n - 52))
  else if n = 62 then '+'
  else '/'

/-- The six bits of a character. -/
def sextet (c : Char) : Option Nat :=
  if 0x41 ≤ c.toNat ∧ c.toNat ≤ 0x5A then some (c.toNat - 0x41)
  else if 0x61 ≤ c.toNat ∧ c.toNat ≤ 0x7A then some (c.toNat - 0x61 + 26)
  else if 0x30 ≤ c.toNat ∧ c.toNat ≤ 0x39 then some (c.toNat - 0x30 + 52)
  else if c = '+' then some 62
  else if c = '/' then some 63
  else none

theorem sextet_charOf : ∀ n < 64, sextet (charOf n) = some n := by decide

theorem charOf_ne_pad : ∀ n < 64, charOf n ≠ '=' := by decide

/-! ## §2  Writing and reading -/

def encode : List UInt8 → List Char
  | [] => []
  | [x] => [charOf (x.toNat / 4), charOf (x.toNat % 4 * 16), '=', '=']
  | [x, y] =>
      [charOf (x.toNat / 4), charOf (x.toNat % 4 * 16 + y.toNat / 16), charOf (y.toNat % 16 * 4),
        '=']
  | x :: y :: z :: rest =>
      charOf (x.toNat / 4) :: charOf (x.toNat % 4 * 16 + y.toNat / 16) ::
        charOf (y.toNat % 16 * 4 + z.toNat / 64) :: charOf (z.toNat % 64) :: encode rest

/-- Four characters without padding. -/
def decodeFull (a b c d : Char) : Option (List UInt8) := do
  let a ← sextet a
  let b ← sextet b
  let c ← sextet c
  let d ← sextet d
  return [UInt8.ofNat (a * 4 + b / 16), UInt8.ofNat (b % 16 * 16 + c / 4),
    UInt8.ofNat (c % 4 * 64 + d)]

/-- Three characters and an equals sign: two bytes, or one if the third is a sign too. -/
def decodePadded (a b c : Char) : Option (List UInt8) := do
  let a ← sextet a
  let b ← sextet b
  if c = '=' then
    if b % 16 = 0 then some [UInt8.ofNat (a * 4 + b / 16)] else none
  else
    let c ← sextet c
    if c % 4 = 0 then some [UInt8.ofNat (a * 4 + b / 16), UInt8.ofNat (b % 16 * 16 + c / 4)]
    else none

def decode : List Char → Option (List UInt8)
  | [] => some []
  | a :: b :: c :: d :: rest =>
      if d = '=' then if rest = [] then decodePadded a b c else none
      else do
        let bytes ← decodeFull a b c d
        let more ← decode rest
        return bytes ++ more
  | _ => none

/-! ## §3  What is written reads back -/

theorem ofNat_eq {n : Nat} {x : UInt8} (h : n = x.toNat) : UInt8.ofNat n = x := by
  rw [h, UInt8.ofNat_toNat]

/-- A group of three bytes. -/
theorem decodeFull_group (x y z : UInt8) :
    decodeFull (charOf (x.toNat / 4)) (charOf (x.toNat % 4 * 16 + y.toNat / 16))
      (charOf (y.toNat % 16 * 4 + z.toNat / 64)) (charOf (z.toNat % 64)) = some [x, y, z] := by
  have hx := x.toNat_lt
  have hy := y.toNat_lt
  have hz := z.toNat_lt
  unfold decodeFull
  rw [sextet_charOf _ (by omega), sextet_charOf _ (by omega), sextet_charOf _ (by omega),
    sextet_charOf _ (by omega)]
  simp only [Option.bind_eq_bind, Option.bind_some, Option.pure_def]
  rw [@ofNat_eq _ x (by omega), @ofNat_eq _ y (by omega), @ofNat_eq _ z (by omega)]

/-- One byte that is left. -/
theorem decodePadded_one (x : UInt8) :
    decodePadded (charOf (x.toNat / 4)) (charOf (x.toNat % 4 * 16)) '=' = some [x] := by
  have hx := x.toNat_lt
  unfold decodePadded
  rw [sextet_charOf _ (by omega), sextet_charOf _ (by omega)]
  simp only [Option.bind_eq_bind, Option.bind_some, if_true]
  rw [if_pos (by omega), @ofNat_eq _ x (by omega)]

/-- Two bytes that are left. -/
theorem decodePadded_two (x y : UInt8) :
    decodePadded (charOf (x.toNat / 4)) (charOf (x.toNat % 4 * 16 + y.toNat / 16))
      (charOf (y.toNat % 16 * 4)) = some [x, y] := by
  have hx := x.toNat_lt
  have hy := y.toNat_lt
  unfold decodePadded
  rw [sextet_charOf _ (by omega), sextet_charOf _ (by omega), sextet_charOf _ (by omega)]
  simp only [Option.bind_eq_bind, Option.bind_some]
  rw [if_neg (charOf_ne_pad _ (by omega)), if_pos (by omega), @ofNat_eq _ x (by omega),
    @ofNat_eq _ y (by omega)]

theorem decode_encode (bytes : List UInt8) : decode (encode bytes) = some bytes := by
  induction bytes using encode.induct with
  | case1 => rfl
  | case2 x =>
      rw [encode, decode, if_pos rfl, if_pos rfl]
      exact decodePadded_one x
  | case3 x y =>
      rw [encode, decode, if_pos rfl, if_pos rfl]
      exact decodePadded_two x y
  | case4 x y z rest ih =>
      have hpad : charOf (z.toNat % 64) ≠ '=' := charOf_ne_pad _ (Nat.mod_lt _ (by decide))
      rw [encode, decode, if_neg hpad, decodeFull_group, ih]
      rfl

end Base64
