import Mathlib.Data.List.Basic
import Mathlib.Tactic.Common

/-!
# JSON texts

Values without fractions, and the text a compact serializer writes for them: no blanks,
members in the order they are given, the short escapes where there is one. A text is at
least as long as the text of each of its parts (`length_write_member`,
`length_write_item`), and a string takes at most six bytes for each of its own
(`length_bytes_string`).
-/

inductive JsonText
  | null
  | bool (value : Bool)
  | nat (value : Nat)
  | string (value : List Char)
  | array (items : List JsonText)
  | object (members : List (List Char × JsonText))

namespace JsonText

/-! ## §1  The writer -/

def utf8 (text : List Char) : List UInt8 := text.flatMap String.utf8EncodeChar

def escape (c : Char) : List Char :=
  if c = '"' then ['\\', '"']
  else if c = '\\' then ['\\', '\\']
  else if c.toNat = 0x08 then ['\\', 'b']
  else if c.toNat = 0x09 then ['\\', 't']
  else if c.toNat = 0x0A then ['\\', 'n']
  else if c.toNat = 0x0C then ['\\', 'f']
  else if c.toNat = 0x0D then ['\\', 'r']
  else if c.toNat < 0x20 then
    ['\\', 'u', '0', '0', Nat.digitChar (c.toNat / 16), Nat.digitChar (c.toNat % 16)]
  else [c]

def quoted (text : List Char) : List Char := '"' :: (text.flatMap escape ++ ['"'])

mutual

def write : JsonText → List Char
  | .null => ['n', 'u', 'l', 'l']
  | .bool true => ['t', 'r', 'u', 'e']
  | .bool false => ['f', 'a', 'l', 's', 'e']
  | .nat value => Nat.toDigits 10 value
  | .string value => quoted value
  | .array [] => ['[', ']']
  | .array (item :: items) => '[' :: (write item ++ (writeItems items ++ [']']))
  | .object [] => ['\x7b', '\x7d']
  | .object ((key, value) :: members) =>
      '\x7b' :: (quoted key ++ ':' :: (write value ++ (writeMembers members ++ ['\x7d'])))

/-- The items after the first. -/
def writeItems : List JsonText → List Char
  | [] => []
  | item :: items => ',' :: (write item ++ writeItems items)

/-- The members after the first. -/
def writeMembers : List (List Char × JsonText) → List Char
  | [] => []
  | (key, value) :: members =>
      ',' :: (quoted key ++ ':' :: (write value ++ writeMembers members))

end

def bytes (value : JsonText) : List UInt8 := utf8 value.write

def text (value : String) : JsonText := .string value.toList

def record (members : List (String × JsonText)) : JsonText :=
  .object (members.map fun member => (member.1.toList, member.2))

/-! ## §2  The parts of a text -/

theorem length_writeItems {item : JsonText} {items : List JsonText} (h : item ∈ items) :
    item.write.length ≤ (writeItems items).length := by
  induction items with
  | nil => cases h
  | cons first items ih =>
      rw [writeItems, List.length_cons, List.length_append]
      rcases List.mem_cons.mp h with rfl | h
      · omega
      · have := ih h
        omega

/-- The text of an item is no longer than that of its array. -/
theorem length_write_item {item : JsonText} {items : List JsonText} (h : item ∈ items) :
    item.write.length ≤ (write (.array items)).length := by
  cases items with
  | nil => cases h
  | cons first items =>
      rw [write, List.length_cons, List.length_append, List.length_append]
      rcases List.mem_cons.mp h with rfl | h
      · omega
      · have := length_writeItems h
        omega

theorem length_writeMembers {key : List Char} {value : JsonText}
    {members : List (List Char × JsonText)} (h : (key, value) ∈ members) :
    value.write.length ≤ (writeMembers members).length := by
  induction members with
  | nil => cases h
  | cons first members ih =>
      obtain ⟨firstKey, firstValue⟩ := first
      rw [writeMembers, List.length_cons, List.length_append, List.length_cons,
        List.length_append]
      rcases List.mem_cons.mp h with h | h
      · cases h
        omega
      · have := ih h
        omega

/-- The text of a member's value is no longer than that of its object. -/
theorem length_write_member {key : List Char} {value : JsonText}
    {members : List (List Char × JsonText)} (h : (key, value) ∈ members) :
    value.write.length ≤ (write (.object members)).length := by
  cases members with
  | nil => cases h
  | cons first members =>
      obtain ⟨firstKey, firstValue⟩ := first
      rw [write, List.length_cons, List.length_append, List.length_cons, List.length_append,
        List.length_append]
      rcases List.mem_cons.mp h with h | h
      · cases h
        omega
      · have := length_writeMembers h
        omega

theorem length_write_record {key : String} {value : JsonText} {members : List (String × JsonText)}
    (h : (key, value) ∈ members) : value.write.length ≤ (record members).write.length :=
  length_write_member (List.mem_map_of_mem (f := fun member => (member.1.toList, member.2)) h)

/-! ## §3  Lengths in bytes -/

@[simp] theorem utf8_append (xs ys : List Char) : utf8 (xs ++ ys) = utf8 xs ++ utf8 ys :=
  List.flatMap_append

@[simp] theorem utf8_cons (c : Char) (xs : List Char) :
    utf8 (c :: xs) = String.utf8EncodeChar c ++ utf8 xs :=
  List.flatMap_cons

theorem length_le_utf8 (text : List Char) : text.length ≤ (utf8 text).length := by
  induction text with
  | nil => exact Nat.le_refl _
  | cons c text ih =>
      have hc := Char.utf8Size_pos c
      rw [utf8_cons, List.length_append, String.length_utf8EncodeChar, List.length_cons]
      omega

theorem length_utf8_escape (c : Char) :
    (utf8 (escape c)).length ≤ 6 * (String.utf8EncodeChar c).length := by
  have hc := Char.utf8Size_pos c
  rw [String.length_utf8EncodeChar]
  have hshort : ∀ text : List Char, (utf8 text).length ≤ 6 →
      (utf8 text).length ≤ 6 * c.utf8Size := by
    intro text h
    omega
  unfold escape
  repeat' split
  · exact hshort _ (by decide)
  · exact hshort _ (by decide)
  · exact hshort _ (by decide)
  · exact hshort _ (by decide)
  · exact hshort _ (by decide)
  · exact hshort _ (by decide)
  · exact hshort _ (by decide)
  · rename_i hlow
    have hdigits : ∀ n < 0x20,
        (utf8 ['\\', 'u', '0', '0', Nat.digitChar (n / 16), Nat.digitChar (n % 16)]).length =
          6 := by
      decide
    exact hshort _ (Nat.le_of_eq (hdigits _ hlow))
  · have hone : (utf8 [c]).length = c.utf8Size := by simp [utf8]
    omega

/-- A string takes its two quotes and at most six bytes for each of its own. -/
theorem length_bytes_string (text : List Char) :
    (bytes (.string text)).length ≤ 2 + 6 * (utf8 text).length := by
  have hescaped : (utf8 (text.flatMap escape)).length ≤ 6 * (utf8 text).length := by
    induction text with
    | nil => exact Nat.le_refl _
    | cons c text ih =>
        have hc := length_utf8_escape c
        rw [List.flatMap_cons, utf8_append, utf8_cons, List.length_append, List.length_append]
        omega
  have hquote : (String.utf8EncodeChar '"').length = 1 := by decide
  rw [bytes, write, quoted, utf8_cons, utf8_append, utf8_cons, List.length_append,
    List.length_append, List.length_append, hquote]
  simp only [utf8, List.flatMap_nil, List.length_nil]
  simp only [utf8] at hescaped
  omega

/-- A string is no shorter than its text. -/
theorem length_le_bytes_string (text : List Char) :
    text.length ≤ (write (.string text)).length := by
  have hescape : ∀ c, 1 ≤ (escape c).length := by
    intro c
    unfold escape
    repeat' split
    all_goals simp
  rw [write, quoted, List.length_cons, List.length_append]
  have hescaped : text.length ≤ (text.flatMap escape).length := by
    induction text with
    | nil => exact Nat.le_refl _
    | cons c text ih =>
        have hc := hescape c
        rw [List.flatMap_cons, List.length_append, List.length_cons]
        omega
  omega

end JsonText
