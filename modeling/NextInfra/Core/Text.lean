import Mathlib.Algebra.Order.Ring.Int
import Mathlib.Data.List.DropRight
import Mathlib.Data.String.Basic

/-!
# Text

The functions of Rust's `str` the parsers are written with, on the characters of
a decoded text.
-/

namespace NextInfra

namespace Text

/-- `str::len`: the bytes of the text. -/
def byteLength (s : List Char) : Nat := (s.map Char.utf8Size).sum

/-- `char::is_control`: the category Cc. -/
def isControl (c : Char) : Bool :=
  decide (c.toNat < 0x20) || (decide (0x7F ≤ c.toNat) && decide (c.toNat ≤ 0x9F))

/-- `char::to_ascii_lowercase` moves the capitals of ASCII. -/
theorem toLower_cases (c : Char) :
    c.toLower = c ∨ 65 ≤ c.toNat ∧ c.toNat ≤ 90 ∧ c.toLower.toNat = c.toNat + 32 := by
  unfold Char.toLower
  split
  · rename_i h
    right
    simp only [Char.toNat, UInt32.le_iff_toNat_le, ge_iff_le] at h ⊢
    refine ⟨h.1, h.2, ?_⟩
    rw [UInt32.toNat_add]
    have hlast := h.2
    simp at hlast ⊢
    omega
  · exact Or.inl rfl

/-- Only letters change their case. -/
theorem toLower_eq_iff {c d : Char} (hd : d.toNat < 65) : c.toLower = d ↔ c = d := by
  rcases toLower_cases c with hc | ⟨hfirst, hlast, hlower⟩
  · rw [hc]
  · constructor
    · rintro rfl
      omega
    · rintro rfl
      omega

/-- Lower-casing again changes nothing. -/
theorem toLower_toLower (c : Char) : c.toLower.toLower = c.toLower := by
  rcases toLower_cases c with hc | ⟨hfirst, hlast, hlower⟩
  · rw [hc, hc]
  · rcases toLower_cases c.toLower with hc | ⟨-, hlast', -⟩
    · exact hc
    · omega

/-- A character outside ASCII has no lower case here. -/
theorem toLower_of_not_ascii {c : Char} (h : ¬ c.toNat < 128) : c.toLower = c := by
  rcases toLower_cases c with hc | ⟨-, hlast, -⟩
  · exact hc
  · omega

/-- `u8::is_ascii_whitespace`. -/
def isAsciiWhitespace (c : Char) : Bool :=
  c == ' ' || c == '\t' || c == '\n' || c == '\x0C' || c == '\r'

def splitAsciiWhitespace (s : List Char) : List (List Char) :=
  (s.splitOnP isAsciiWhitespace).filter fun field => decide (field ≠ [])

def stripSuffix (suffix : Char) (s : List Char) : Option (List Char) :=
  if s.getLast? = some suffix then some s.dropLast else none

/-- `str::lines`: a line ends in `\n` or `\r\n`; the last one may have no end, and
then a `\r` is part of it. -/
def lines (s : List Char) : List (List Char) :=
  let pieces := s.splitOn '\n'
  let ended := pieces.dropLast.map fun line => (stripSuffix '\r' line).getD line
  match pieces.getLast? with
  | some [] => ended
  | some last => ended ++ [last]
  | none => ended

def toAsciiLowercase (s : List Char) : List Char := s.map Char.toLower

/-- The text after the first occurrence of the pattern. -/
def after (pattern : List Char) : List Char → Option (List Char)
  | [] => if pattern.isPrefixOf [] then some [] else none
  | c :: s =>
      if pattern.isPrefixOf (c :: s) then some ((c :: s).drop pattern.length)
      else after pattern s

def contains (pattern s : List Char) : Bool := (after pattern s).isSome

/-- The number a non-empty run of digits writes. -/
def digitsValue (s : List Char) : Option Nat :=
  if s ≠ [] ∧ s.all Char.isDigit = true then
    some (s.foldl (fun n c => 10 * n + (c.toNat - '0'.toNat)) 0)
  else none

/-- `parse` of an unsigned type with values below `bound`: a `+` is let through. -/
def parseUnsigned (bound : Nat) (s : List Char) : Option Nat :=
  let digits :=
    match s with
    | '+' :: rest => rest
    | _ => s
  (digitsValue digits).filter fun n => decide (n < bound)

/-- `parse::<i32>`. -/
def parseI32 (s : List Char) : Option Int :=
  match s with
  | '-' :: digits =>
      ((digitsValue digits).filter fun n => decide (n ≤ 2 ^ 31)).map fun n => -(n : Int)
  | _ => (parseUnsigned (2 ^ 31) s).map Int.ofNat

/-- `checked_mul`, `checked_add` of `u64`. -/
def checkedU64 (n : Nat) : Option Nat := if n < 2 ^ 64 then some n else none

example : lines "a\r\n\nb\r".toList = ["a".toList, [], "b\r".toList] := by decide

example : parseUnsigned (2 ^ 8) "+255".toList = some 255 := by decide

end Text

end NextInfra
