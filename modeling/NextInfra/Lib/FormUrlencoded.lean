import NextInfra.Lib.Entries
import NextInfra.Lib.Separated

/-!
# Form-urlencoded text

The reading of `application/x-www-form-urlencoded`: sequences between ampersands, a name
and a value around the first equals sign, a plus for a space, two hexadecimal digits
after a percent sign for a byte, and UTF-8 underneath.

A writer is good when what it writes of a text reads back as the text and has none of
the two separators; pairs written by a good writer read back as they are (`parse_join`).
Writing a percent sign and two digits for every byte outside a set of plain bytes is good
whatever the set, so long as it leaves the separators, the plus and the percent sign out
(`writer_percentEncode`).
-/

namespace FormUrlencoded

/-! ## §1  Texts and bytes -/

def bytesOf (s : String) : List UInt8 := s.toUTF8.data.toList

/-- The text of valid UTF-8. -/
def textOf (bytes : List UInt8) : Option String := String.fromUTF8? ⟨bytes.toArray⟩

@[simp] theorem textOf_bytesOf (s : String) : textOf (bytesOf s) = some s := by
  unfold textOf bytesOf
  rw [Array.toArray_toList]
  exact dif_pos s.isValidUTF8

@[simp] theorem bytesOf_append (s t : String) : bytesOf (s ++ t) = bytesOf s ++ bytesOf t := by
  simp [bytesOf]

/-- The bytes of joined texts are the joined bytes. -/
theorem bytesOf_intercalate {separator : String} {b : UInt8} (h : bytesOf separator = [b])
    (texts : List String) :
    bytesOf (separator.intercalate texts) = Separated.join b (texts.map bytesOf) := by
  induction texts with
  | nil => simp [bytesOf, Separated.join]
  | cons s texts ih =>
      rcases texts with _ | ⟨t, texts⟩
      · simp
      · rw [String.intercalate_cons_cons, bytesOf_append, bytesOf_append, h, ih, List.append_assoc]
        exact (Separated.join_cons_cons _ _ _).symm

def byteOfChar (c : Char) : UInt8 := c.val.toUInt8

/-- A character of ASCII is its own byte. -/
theorem bytesOf_ofList {l : List Char} (h : ∀ c ∈ l, c.utf8Size = 1) :
    bytesOf (String.ofList l) = l.map byteOfChar := by
  have hflat : l.flatMap String.utf8EncodeChar = l.map byteOfChar := by
    induction l with
    | nil => rfl
    | cons c l ih =>
        rw [List.flatMap_cons, String.utf8EncodeChar_eq_singleton (h c List.mem_cons_self),
          ih fun d hd => h d (List.mem_cons_of_mem _ hd)]
        rfl
  have hbytes : (String.ofList l).toUTF8.data.toList = l.flatMap String.utf8EncodeChar := by
    simp [String.toUTF8, List.utf8Encode]
  exact hbytes.trans hflat

/-! ## §2  Reading -/

def hexValue (b : UInt8) : Option Nat :=
  if 0x30 ≤ b ∧ b ≤ 0x39 then some (b.toNat - 0x30)
  else if 0x41 ≤ b ∧ b ≤ 0x46 then some (b.toNat - 0x41 + 10)
  else if 0x61 ≤ b ∧ b ≤ 0x66 then some (b.toNat - 0x61 + 10)
  else none

/-- The byte two hexadecimal digits write. -/
def hexByte (high low : UInt8) : Option UInt8 :=
  match hexValue high, hexValue low with
  | some h, some l => some (UInt8.ofNat (16 * h + l))
  | _, _ => none

/-- A percent sign that two hexadecimal digits do not follow stands for itself. -/
def percentDecode : List UInt8 → List UInt8
  | b :: high :: low :: rest =>
      if b = 0x25 then
        match hexByte high low with
        | some byte => byte :: percentDecode rest
        | none => b :: percentDecode (high :: low :: rest)
      else b :: percentDecode (high :: low :: rest)
  | bytes => bytes

def replacePlus (b : UInt8) : UInt8 := if b = 0x2B then 0x20 else b

/-- A name or a value; none where its bytes are not UTF-8. -/
def decode (input : List UInt8) : Option String := textOf (percentDecode (input.map replacePlus))

/-- The pair of a sequence: what stands before its first equals sign and after it. -/
def pairOf (sequence : List UInt8) : Option (String × String) := do
  let name ← decode (sequence.takeWhile fun b => decide (b ≠ 0x3D))
  let value ← decode ((sequence.dropWhile fun b => decide (b ≠ 0x3D)).drop 1)
  return (name, value)

/-- The pairs of a text; empty sequences are passed over. -/
def parse (input : List UInt8) : Option (List (String × String)) :=
  ((input.splitOn 0x26).filter fun sequence => decide (sequence ≠ [])).mapM pairOf

/-! ## §3  Pairs that are written -/

/-- What a writer owes the reader. -/
structure Writer (encode : String → List UInt8) : Prop where
  decode_encode : ∀ s, decode (encode s) = some s
  no_ampersand : ∀ s, 0x26 ∉ encode s
  no_equals : ∀ s, 0x3D ∉ encode s

def writePair (encode : String → List UInt8) (pair : String × String) : List UInt8 :=
  encode pair.1 ++ 0x3D :: encode pair.2

section

variable {encode : String → List UInt8} (h : Writer encode)

include h

theorem Writer.injective : Function.Injective encode := by
  intro s t hst
  have htext : some s = some t := by
    rw [← h.decode_encode s, hst, h.decode_encode]
  exact Option.some.inj htext

theorem pairOf_writePair (pair : String × String) :
    pairOf (writePair encode pair) = some pair := by
  have hname : ∀ b ∈ encode pair.1, decide (b ≠ 0x3D) = true := by
    intro b hb
    rw [decide_eq_true_iff]
    rintro rfl
    exact h.no_equals _ hb
  unfold pairOf writePair
  rw [List.takeWhile_append_of_pos hname, List.dropWhile_append_of_pos hname]
  simp [h.decode_encode]

theorem no_ampersand_writePair (pair : String × String) : 0x26 ∉ writePair encode pair := by
  unfold writePair
  rw [List.mem_append, List.mem_cons]
  rintro (hmem | heq | hmem)
  · exact h.no_ampersand _ hmem
  · exact absurd heq (by decide)
  · exact h.no_ampersand _ hmem

/-- Written pairs read back as they are, the empty list of pairs included. -/
theorem parse_join (pairs : List (String × String)) :
    parse (Separated.join 0x26 (pairs.map (writePair encode))) = some pairs := by
  have hpairs : (pairs.map (writePair encode)).mapM pairOf = some pairs := by
    rw [Fallible.mapM_some_iff, List.forall₂_map_left_iff, List.forall₂_same]
    exact fun pair _ => pairOf_writePair h pair
  unfold parse
  rcases pairs with _ | ⟨pair, pairs⟩
  · rfl
  · have hfree : ∀ f ∈ (pair :: pairs).map (writePair encode), 0x26 ∉ f := by
      intro f hf
      obtain ⟨p, _, rfl⟩ := List.mem_map.mp hf
      exact no_ampersand_writePair h p
    have hnonempty : ∀ f ∈ (pair :: pairs).map (writePair encode), decide (f ≠ []) = true := by
      intro f hf
      obtain ⟨p, _, rfl⟩ := List.mem_map.mp hf
      simp [writePair]
    rw [Separated.splitOn_join (by simp), Separated.segments_free hfree,
      List.filter_eq_self.mpr hnonempty]
    exact hpairs

end

/-! ## §4  Percent signs -/

def hexDigit (n : Nat) : UInt8 := if n < 10 then UInt8.ofNat (0x30 + n) else UInt8.ofNat (0x37 + n)

/-- A byte outside the plain ones as a percent sign and two digits. -/
def percentByte (plain : UInt8 → Bool) (b : UInt8) : List UInt8 :=
  if plain b then [b] else [0x25, hexDigit (b.toNat / 16), hexDigit (b.toNat % 16)]

def percentEncode (plain : UInt8 → Bool) (bytes : List UInt8) : List UInt8 :=
  bytes.flatMap (percentByte plain)

theorem hexValue_hexDigit : ∀ n < 16, hexValue (hexDigit n) = some n := by decide

theorem hexDigit_plain : ∀ n < 16, hexDigit n ∉ ([0x25, 0x26, 0x2B, 0x3D] : List UInt8) := by decide

theorem hexByte_hexDigit (b : UInt8) :
    hexByte (hexDigit (b.toNat / 16)) (hexDigit (b.toNat % 16)) = some b := by
  have hb := b.toNat_lt
  unfold hexByte
  rw [hexValue_hexDigit _ (by omega), hexValue_hexDigit _ (by omega)]
  simp only [Option.some.injEq]
  rw [Nat.div_add_mod, UInt8.ofNat_toNat]

theorem percentDecode_cons {b : UInt8} (h : b ≠ 0x25) (rest : List UInt8) :
    percentDecode (b :: rest) = b :: percentDecode rest := by
  rcases rest with _ | ⟨high, _ | ⟨low, rest⟩⟩
  · rfl
  · rfl
  · rw [percentDecode, if_neg h]

section

variable {plain : UInt8 → Bool}
  (hplain : ∀ b ∈ ([0x25, 0x26, 0x2B, 0x3D] : List UInt8), plain b = false)

include hplain

theorem percentDecode_percentByte (b : UInt8) (rest : List UInt8) :
    percentDecode (percentByte plain b ++ rest) = b :: percentDecode rest := by
  unfold percentByte
  split
  · rename_i hb
    refine percentDecode_cons ?_ rest
    rintro rfl
    exact absurd hb (by simp [hplain])
  · show percentDecode (0x25 :: _ :: _ :: rest) = _
    rw [percentDecode, if_pos rfl, hexByte_hexDigit]

theorem percentDecode_percentEncode (bytes : List UInt8) :
    percentDecode (percentEncode plain bytes) = bytes := by
  unfold percentEncode
  induction bytes with
  | nil => rfl
  | cons b bytes ih =>
      rw [List.flatMap_cons, percentDecode_percentByte hplain, ih]

/-- What is written has none of the signs that are read. -/
theorem not_mem_percentEncode {sign : UInt8} (hsign : sign ∈ ([0x26, 0x2B, 0x3D] : List UInt8))
    (bytes : List UInt8) : sign ∉ percentEncode plain bytes := by
  have hsigns : sign ∈ ([0x25, 0x26, 0x2B, 0x3D] : List UInt8) := List.mem_cons_of_mem _ hsign
  intro hmem
  obtain ⟨b, _, hb⟩ := List.mem_flatMap.mp hmem
  have hlt := b.toNat_lt
  unfold percentByte at hb
  split at hb
  · rename_i hpb
    rw [← List.mem_singleton.mp hb, hplain sign hsigns] at hpb
    cases hpb
  · rcases List.mem_cons.mp hb with rfl | hb
    · exact absurd hsign (by decide)
    rcases List.mem_cons.mp hb with rfl | hb
    · exact hexDigit_plain _ (by omega) hsigns
    · rw [List.mem_singleton.mp hb] at hsigns
      exact hexDigit_plain _ (by omega) hsigns

theorem writer_percentEncode : Writer fun s => percentEncode plain (bytesOf s) where
  decode_encode := by
    intro s
    have hplus : (percentEncode plain (bytesOf s)).map replacePlus =
        percentEncode plain (bytesOf s) := by
      refine (List.map_congr_left ?_).trans (List.map_id _)
      intro b hb
      refine if_neg ?_
      rintro rfl
      exact not_mem_percentEncode hplain (by decide) _ hb
    unfold decode
    rw [hplus, percentDecode_percentEncode hplain, textOf_bytesOf]
  no_ampersand s := not_mem_percentEncode hplain (by decide) _
  no_equals s := not_mem_percentEncode hplain (by decide) _

end

end FormUrlencoded
