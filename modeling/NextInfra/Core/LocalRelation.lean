import NextInfra.Core.Model
import NextInfra.Lib.Separated

/-!
# Texts and snapshots of local relations

What the binding service and the inference engine share: the snapshot of a
relation they record, and the ids they build from a subject and a time.

`Uuid` and `HexDigest` are the texts of third-party values: a hyphenated UUID and
a digest printed in hexadecimal. No colon occurs in them, nor in the decimal text
of a time, so an id that ends in a time determines its parts (`stamped_eq_iff`).
-/

namespace NextInfra

/-! ## §1  Visible ends -/

/-- The first character is there and is no blank. -/
def StartsVisible (s : String) : Prop :=
  ∃ c rest, s.toList = c :: rest ∧ isWhitespace c = false

/-- The last character is there and is no blank. -/
def EndsVisible (s : String) : Prop :=
  ∃ init d, s.toList = init ++ [d] ∧ isWhitespace d = false

theorem StartsVisible.append {s : String} (h : StartsVisible s) (t : String) :
    StartsVisible (s ++ t) := by
  obtain ⟨c, rest, hs, hc⟩ := h
  refine ⟨c, rest ++ t.toList, ?_, hc⟩
  rw [String.toList_append, hs, List.cons_append]

theorem trimmed_of_visible {head tail : String} (hhead : StartsVisible head)
    (htail : EndsVisible tail) : Trimmed (head ++ tail) := by
  obtain ⟨c, rest, hs, hc⟩ := hhead
  obtain ⟨init, d, ht, hd⟩ := htail
  have hlist : (head ++ tail).toList = c :: (rest ++ init) ++ [d] := by
    rw [String.toList_append, hs, ht]
    simp
  exact trimmed_of_ends hlist hc hd

/-- A nonempty text without blanks ends visibly. -/
theorem endsVisible_of_all {s : String} (hne : s.toList ≠ [])
    (hall : ∀ c ∈ s.toList, isWhitespace c = false) : EndsVisible s := by
  refine ⟨s.toList.dropLast, s.toList.getLast hne, (List.dropLast_append_getLast hne).symm, ?_⟩
  exact hall _ (List.getLast_mem hne)

/-! ## §2  Tokens, times, UUIDs, digests -/

/-- `unix_millis()` printed by `format!`. -/
def Timestamp.text (t : Timestamp) : String := toString t.unixMillis

theorem Timestamp.text_toList (t : Timestamp) : t.text.toList = Nat.toDigits 10 t.unixMillis :=
  Nat.toList_repr

theorem Timestamp.text_digits (t : Timestamp) : ∀ c ∈ t.text.toList, c.isDigit = true := by
  intro c hc
  rw [t.text_toList] at hc
  exact Nat.isDigit_of_mem_toDigits (by decide) (by decide) hc

theorem isWhitespace_of_isDigit {c : Char} (h : c.isDigit = true) : isWhitespace c = false := by
  have hrange : 48 ≤ c.toNat ∧ c.toNat ≤ 57 := by
    unfold Char.isDigit at h
    rw [Bool.and_eq_true, decide_eq_true_eq, decide_eq_true_eq] at h
    exact ⟨h.1, h.2⟩
  unfold isWhitespace
  simp
  omega

theorem isWhitespace_of_isTokenChar {c : Char} (h : isTokenChar c = true) :
    isWhitespace c = false := by
  have hcases : (97 ≤ c.toNat ∧ c.toNat ≤ 122) ∨ c.isDigit = true ∨ c = '-' ∨ c = '_' := by
    have hlower : c.isLower = (decide (97 ≤ c.toNat) && decide (c.toNat ≤ 122)) := rfl
    unfold isTokenChar at h
    rw [hlower, Bool.or_eq_true, Bool.or_eq_true, Bool.or_eq_true, Bool.and_eq_true, decide_eq_true_eq,
      decide_eq_true_eq, beq_iff_eq, beq_iff_eq, or_assoc, or_assoc] at h
    exact h
  rcases hcases with hlower | hdigit | rfl | rfl
  · unfold isWhitespace
    simp
    omega
  · exact isWhitespace_of_isDigit hdigit
  · decide
  · decide

/-- A namespaced token ends in a token character or a dot. -/
theorem NamespacedValue.endsVisible {name : String} (v : NamespacedValue name) :
    EndsVisible v.val := by
  apply endsVisible_of_all
  · intro hnil
    have hlength := v.namespaced.1
    rw [hnil] at hlength
    revert hlength
    decide
  · intro c hc
    rcases v.namespaced.chars hc with htoken | rfl
    · exact isWhitespace_of_isTokenChar htoken
    · decide

theorem NamespacedValue.colon_not_mem {name : String} (v : NamespacedValue name) :
    ':' ∉ v.val.toList := by
  intro hc
  rcases v.namespaced.chars hc with htoken | hdot
  · revert htoken
    decide
  · cases hdot

/-- A namespaced token starts with a token character or a dot. -/
theorem NamespacedValue.startsVisible {name : String} (v : NamespacedValue name) :
    StartsVisible v.val := by
  cases h : v.val.toList with
  | nil =>
      have htwo := v.namespaced.1
      rw [h] at htwo
      exact absurd htwo (by decide)
  | cons c rest =>
      refine ⟨c, rest, h, ?_⟩
      rcases v.namespaced.chars (h ▸ List.mem_cons_self : c ∈ v.val.toList) with htoken | rfl
      · exact isWhitespace_of_isTokenChar htoken
      · decide

theorem Timestamp.endsVisible (t : Timestamp) : EndsVisible t.text := by
  apply endsVisible_of_all
  · rw [t.text_toList]
    exact Nat.toDigits_ne_nil
  · intro c hc
    exact isWhitespace_of_isDigit (t.text_digits c hc)

theorem Timestamp.colon_not_mem (t : Timestamp) : ':' ∉ t.text.toList := by
  intro hc
  have hdigit := t.text_digits ':' hc
  revert hdigit
  decide

theorem Timestamp.text_injective : Function.Injective Timestamp.text := by
  intro a b h
  have hlist : Nat.toDigits 10 a.unixMillis = Nat.toDigits 10 b.unixMillis := by
    rw [← a.text_toList, ← b.text_toList, h]
  apply Timestamp.unixMillis_injective
  rw [← Nat.ofDigitChars_ten_toDigits (n := a.unixMillis), hlist, Nat.ofDigitChars_ten_toDigits]

/-- Lowercase hexadecimal digits. -/
def isHexChar (c : Char) : Bool := c.isDigit || (decide ('a' ≤ c) && decide (c ≤ 'f'))

/-- What a UUID is printed with. -/
def isUuidChar (c : Char) : Bool := isHexChar c || c == '-'

theorem isUuidChar_visible {c : Char} (h : isUuidChar c = true) :
    isWhitespace c = false ∧ c ≠ ':' := by
  have hcases : c.isDigit = true ∨ (97 ≤ c.toNat ∧ c.toNat ≤ 102) ∨ c = '-' := by
    unfold isUuidChar isHexChar at h
    rw [Bool.or_eq_true, Bool.or_eq_true, Bool.and_eq_true, decide_eq_true_eq, decide_eq_true_eq,
      beq_iff_eq, or_assoc] at h
    exact h
  rcases hcases with hdigit | hlower | rfl
  · refine ⟨isWhitespace_of_isDigit hdigit, ?_⟩
    rintro rfl
    revert hdigit
    decide
  · constructor
    · unfold isWhitespace
      simp
      omega
    · rintro rfl
      revert hlower
      decide
  · decide

/-- `uuid::Uuid` through its `Display`: 36 hexadecimal digits and hyphens. -/
structure Uuid where
  text : String
  hyphenated : text.toList.length = 36 ∧ text.toList.all isUuidChar = true

instance : DecidableEq Uuid := fun a b =>
  decidable_of_iff (a.text = b.text) ⟨fun h => by cases a; cases b; cases h; rfl, fun h => h ▸ rfl⟩

theorem Uuid.visible (u : Uuid) : ∀ c ∈ u.text.toList, isWhitespace c = false ∧ c ≠ ':' :=
  fun c hc => isUuidChar_visible (List.all_eq_true.mp u.hyphenated.2 c hc)

theorem Uuid.endsVisible (u : Uuid) : EndsVisible u.text := by
  apply endsVisible_of_all
  · intro hnil
    have hlength := u.hyphenated.1
    rw [hnil] at hlength
    cases hlength
  · exact fun c hc => (u.visible c hc).1

/-- A `Sha256` digest printed in hexadecimal. -/
structure HexDigest where
  text : String
  hex : text.toList ≠ [] ∧ text.toList.all isHexChar = true

instance : DecidableEq HexDigest := fun a b =>
  decidable_of_iff (a.text = b.text) ⟨fun h => by cases a; cases b; cases h; rfl, fun h => h ▸ rfl⟩

theorem HexDigest.endsVisible (d : HexDigest) : EndsVisible d.text := by
  refine endsVisible_of_all d.hex.1 fun c hc => ?_
  have huuid : isUuidChar c = true := by
    unfold isUuidChar
    rw [List.all_eq_true.mp d.hex.2 c hc]
    rfl
  exact (isUuidChar_visible huuid).1

/-! ## §3  Ids that end in a time -/

/-- The text `{head}:{subject}:{at.unix_millis()}`. -/
def stamped {subjectName name : String} (head : String) (hhead : StartsVisible head)
    (subject : StringValue subjectName) (at_ : Timestamp) : StringValue name where
  val := head ++ ":" ++ subject.val ++ ":" ++ at_.text
  trimmed := trimmed_of_visible (((hhead.append ":").append subject.val).append ":") at_.endsVisible

theorem stamped_toList {subjectName name : String} (head : String) (hhead : StartsVisible head)
    (subject : StringValue subjectName) (at_ : Timestamp) :
    (stamped head hhead subject at_ : StringValue name).val.toList =
      head.toList ++ ':' :: (subject.val.toList ++ ':' :: at_.text.toList) := by
  unfold stamped
  simp only [String.toList_append, List.append_assoc]
  rfl

/-- A stamped id determines its subject and its time. -/
theorem stamped_eq_iff {subjectName name : String} {head : String} {hhead : StartsVisible head}
    {subject subject' : StringValue subjectName} {at_ at_' : Timestamp} :
    (stamped head hhead subject at_ : StringValue name) = stamped head hhead subject' at_' ↔
      subject = subject' ∧ at_ = at_' := by
  constructor
  · intro h
    have hlist := congrArg (fun v => v.val.toList) h
    simp only [stamped_toList] at hlist
    have htail := List.append_cancel_left hlist
    rw [List.cons.injEq] at htail
    -- neither time holds a colon, so no text can shift across the last one
    rcases Separated.split_shifted htail.2 with ⟨hs, ht⟩ | ⟨mid, _, ht⟩ | ⟨mid, _, ht⟩
    · refine ⟨StringValue.ext_val (String.toList_inj.mp hs), ?_⟩
      exact Timestamp.text_injective (String.toList_inj.mp ht)
    · exact absurd (by rw [ht]; simp) at_.colon_not_mem
    · exact absurd (by rw [ht]; simp) at_'.colon_not_mem
  · rintro ⟨rfl, rfl⟩
    rfl

/-! ## §4  Snapshots -/

/-- The snapshot a local relation version holds. -/
def localSnapshot (r : Relation) : Value :=
  .mkObject [("source_resource_id", .string r.sourceResourceId.val),
    ("target_resource_id", .string r.targetResourceId.val), ("kind", .string r.kind.val),
    ("evidence", r.evidence.toValue), ("lifecycle", r.lifecycle.toValue)]

end NextInfra
