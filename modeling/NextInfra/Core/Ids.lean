import Mathlib.Order.Basic
import Mathlib.Data.String.Basic
import Mathlib.Data.List.DropRight
import Mathlib.Data.Prod.Lex

/-!
# Domain values of the core crate

The validated newtypes of `next-infra-core`: trimmed strings, tokens and
namespaced tokens, schema versions, timestamps. The source builds each family
with one macro; here each family is one structure indexed by the type's name
(the name also appears in the error text), and every member keeps its own
abbreviation.

A value carries the proof that its constructor accepted it, so a padded id or a
kind without a namespace cannot be written down at all.
-/

namespace NextInfra

/-! ## §1  Errors -/

inductive ErrorCode
  | invalidDomainValue
  | notFound
  | conflict
  | authenticationFailed
  | credentialUnavailable
  | permissionDenied
  | rateLimited
  | networkUnreachable
  | hostKeyMismatch
  | providerUnavailable
  | invalidResponse
  | schemaIncompatible
  | partialPagination
  | cancelled
  | internal
deriving DecidableEq

structure DomainError where
  code : ErrorCode
  message : String
  retryable : Bool
deriving DecidableEq

def DomainError.invalidValue (message : String) : DomainError :=
  { code := .invalidDomainValue, message := message, retryable := false }

/-- A chain of fallible steps that succeeds has passed its first step. -/
theorem bind_ok {ε α β : Type} {x : Except ε α} {next : α → Except ε β} {b : β}
    (h : (x >>= next) = .ok b) : ∃ a, x = .ok a ∧ next a = .ok b := by
  cases hx : x with
  | error e =>
      rw [hx] at h
      cases h
  | ok a =>
      rw [hx] at h
      exact ⟨a, rfl, h⟩

theorem bind_error {ε α β : Type} {x : Except ε α} {next : α → Except ε β} {e : ε}
    (h : (x >>= next) = .error e) : x = .error e ∨ ∃ a, x = .ok a ∧ next a = .error e := by
  cases x with
  | error e' =>
      cases h
      exact Or.inl rfl
  | ok a => exact Or.inr ⟨a, rfl, h⟩

theorem map_ok {ε α β : Type} {x : Except ε α} {f : α → β} {b : β} (h : x.map f = .ok b) :
    ∃ a, x = .ok a ∧ f a = b := by
  cases hx : x with
  | error e =>
      rw [hx] at h
      cases h
  | ok a =>
      rw [hx] at h
      exact ⟨a, rfl, Except.ok.inj h⟩

theorem toOption_eq_some_iff {ε α : Type} {x : Except ε α} {a : α} :
    x.toOption = some a ↔ x = .ok a := by
  cases x <;> simp [Except.toOption]

/-! ## §2  Trimmed strings -/

/-- The Unicode `White_Space` property, which `str::trim` strips. -/
def isWhitespace (c : Char) : Bool :=
  let n := c.toNat
  (9 ≤ n && n ≤ 13) || n == 0x20 || n == 0x85 || n == 0xA0 || n == 0x1680 ||
    (0x2000 ≤ n && n ≤ 0x200A) || n == 0x2028 || n == 0x2029 || n == 0x202F ||
    n == 0x205F || n == 0x3000

def trim (s : List Char) : List Char :=
  (s.dropWhile isWhitespace).rdropWhile isWhitespace

/-- A text is what trimming leaves of it, between blanks. -/
theorem trim_spec (s : List Char) : ∃ before after, s = before ++ (trim s ++ after) ∧
    (∀ c ∈ before, isWhitespace c = true) ∧ ∀ c ∈ after, isWhitespace c = true := by
  refine ⟨s.takeWhile isWhitespace, (s.dropWhile isWhitespace).rtakeWhile isWhitespace, ?_,
    fun c hc => List.mem_takeWhile_imp hc, fun c hc => List.mem_rtakeWhile_imp hc⟩
  unfold trim
  rw [List.rdropWhile_append_rtakeWhile, List.takeWhile_append_dropWhile]

theorem trim_append_left {before : List Char} (h : ∀ c ∈ before, isWhitespace c = true)
    (s : List Char) : trim (before ++ s) = trim s := by
  unfold trim
  rw [List.dropWhile_append_of_pos h]

theorem trim_append_right {after : List Char} (h : ∀ c ∈ after, isWhitespace c = true)
    (s : List Char) : trim (s ++ after) = trim s := by
  have hblank : after.dropWhile isWhitespace = [] := List.dropWhile_eq_nil_iff.mpr h
  unfold trim
  rw [List.dropWhile_append]
  split
  · rename_i hempty
    rw [hblank, List.isEmpty_iff.mp hempty]
  · unfold List.rdropWhile
    rw [List.reverse_append, List.dropWhile_append_of_pos fun c hc => h c (List.mem_reverse.mp hc)]

theorem trim_trim (s : List Char) : trim (trim s) = trim s := by
  obtain ⟨before, after, hs, hbefore, hafter⟩ := trim_spec s
  calc trim (trim s) = trim (before ++ (trim s ++ after)) := by
        rw [trim_append_left hbefore, trim_append_right hafter]
    _ = trim s := by rw [← hs]

/-- Trimming leaves a text with visible ends as it is. -/
theorem trim_of_ends {c d : Char} {mid : List Char} (hc : isWhitespace c = false)
    (hd : isWhitespace d = false) : trim (c :: mid ++ [d]) = c :: mid ++ [d] := by
  unfold trim
  rw [List.cons_append, List.dropWhile_cons_of_neg (by simp [hc]), ← List.cons_append,
    List.rdropWhile_concat_neg _ _ _ (by simp [hd])]

/-- The test of `string_value!`: not empty after trimming, and not padded. -/
def Trimmed (s : String) : Prop := trim s.toList ≠ [] ∧ trim s.toList = s.toList

instance (s : String) : Decidable (Trimmed s) := by unfold Trimmed; infer_instance

-- texts that stand for ids and scopes in the fixtures of several modules
theorem trimmed_r : Trimmed "r" := by decide
theorem trimmed_c : Trimmed "c" := by decide
theorem trimmed_s : Trimmed "s" := by decide
theorem trimmed_x : Trimmed "x" := by decide
theorem trimmed_all : Trimmed "all" := by decide
theorem trimmed_lab : Trimmed "lab" := by decide
theorem trimmed_run : Trimmed "run" := by decide

/-- A string is trimmed iff it starts and ends with a visible character. -/
theorem trimmed_of_ends {s : String} {c d : Char} {mid : List Char}
    (hs : s.toList = c :: mid ++ [d]) (hc : isWhitespace c = false)
    (hd : isWhitespace d = false) : Trimmed s := by
  have hself : trim s.toList = s.toList := by
    rw [hs, trim_of_ends hc hd]
  refine ⟨?_, hself⟩
  rw [hself, hs]
  simp

/-- The last character of a trimmed string is visible. -/
theorem Trimmed.last_visible {s : String} (h : Trimmed s) :
    ∃ init d, s.toList = init ++ [d] ∧ isWhitespace d = false := by
  obtain ⟨hne, hself⟩ := h
  rw [hself] at hne
  obtain ⟨init, d, hd⟩ : ∃ init d, s.toList = init ++ [d] :=
    ⟨_, _, (List.dropLast_append_getLast hne).symm⟩
  refine ⟨init, d, hd, ?_⟩
  by_contra hws
  rw [Bool.not_eq_false] at hws
  -- a blank last character would have been dropped by `rdropWhile`
  unfold trim at hself
  have hlast : ∀ l : List Char, (l.rdropWhile isWhitespace) ≠ init ++ [d] := by
    intro l hl
    have hne' : l.rdropWhile isWhitespace ≠ [] := by rw [hl]; simp
    have hnot := List.rdropWhile_last_not isWhitespace l hne'
    simp only [hl, List.getLast_append_singleton] at hnot
    exact hnot hws
  rw [hd] at hself
  exact hlast _ hself

/-- `string_value!`: one newtype per name. -/
structure StringValue (name : String) where
  val : String
  trimmed : Trimmed val

namespace StringValue

variable {name : String}

@[ext] theorem ext_val {a b : StringValue name} (h : a.val = b.val) : a = b := by
  cases a; cases b; cases h; rfl

instance : DecidableEq (StringValue name) := fun a b =>
  decidable_of_iff (a.val = b.val) ⟨ext_val, fun h => h ▸ rfl⟩

theorem val_injective : Function.Injective (StringValue.val : StringValue name → String) :=
  fun _ _ h => ext_val h

instance (v : StringValue name) (vs : List (StringValue name)) : Decidable (v ∈ vs) :=
  inferInstance

instance : LinearOrder (StringValue name) :=
  { LinearOrder.lift' StringValue.val val_injective with
    toDecidableEq := inferInstance }

theorem lt_iff {a b : StringValue name} : a < b ↔ a.val < b.val := Iff.rfl

/-- The constructor of `string_value!`. -/
def new (value : String) : Except DomainError (StringValue name) :=
  if h : Trimmed value then .ok ⟨value, h⟩
  else .error (.invalidValue (name ++ " cannot be empty or padded with whitespace"))

theorem new_val (v : StringValue name) : new v.val = .ok v := by
  unfold new
  rw [dif_pos v.trimmed]

end StringValue

abbrev ConnectionId := StringValue "ConnectionId"
abbrev ResourceId := StringValue "ResourceId"
abbrev ResourceVersionId := StringValue "ResourceVersionId"
abbrev RelationId := StringValue "RelationId"
abbrev RelationVersionId := StringValue "RelationVersionId"
abbrev BindingId := StringValue "BindingId"
abbrev InferenceRunId := StringValue "InferenceRunId"
abbrev SyncRunId := StringValue "SyncRunId"
abbrev ChangeId := StringValue "ChangeId"
abbrev ExternalId := StringValue "ExternalId"
abbrev Scope := StringValue "Scope"
abbrev Fingerprint := StringValue "Fingerprint"
abbrev EvidenceKey := StringValue "EvidenceKey"
abbrev FieldPath := StringValue "FieldPath"
abbrev RuleVersion := StringValue "RuleVersion"
abbrev SyncCursor := StringValue "SyncCursor"

/-! ## §3  Tokens -/

/-- The bytes `validate_token` lets through: lowercase ASCII, digits, `-`, `_`. -/
def isTokenChar (c : Char) : Bool := c.isLower || c.isDigit || c == '-' || c == '_'

/-- `validate_token`. -/
def IsToken (s : List Char) : Prop := s ≠ [] ∧ s.all isTokenChar = true

instance (s : List Char) : Decidable (IsToken s) := by unfold IsToken; infer_instance

/-- `validate_namespaced`: at least two tokens joined by dots. -/
def IsNamespaced (s : List Char) : Prop :=
  2 ≤ (s.splitOn '.').length ∧ ∀ segment ∈ s.splitOn '.', IsToken segment

instance (s : List Char) : Decidable (IsNamespaced s) := by unfold IsNamespaced; infer_instance

theorem mem_intercalate {c : Char} {sep : List Char} : ∀ {parts : List (List Char)},
    c ∈ sep.intercalate parts → (∃ part ∈ parts, c ∈ part) ∨ c ∈ sep
  | [], h => by simp [List.intercalate] at h
  | [p], h => by
      simp only [List.intercalate, List.intersperse, List.flatten_cons, List.flatten_nil,
        List.append_nil] at h
      exact Or.inl ⟨p, List.mem_singleton.mpr rfl, h⟩
  | p :: q :: ps, h => by
      rw [List.intercalate_cons_cons, List.mem_append, List.mem_append] at h
      rcases h with (h | h) | h
      · exact Or.inl ⟨p, List.mem_cons_self, h⟩
      · exact Or.inr h
      · rcases mem_intercalate h with ⟨part, hp, hcp⟩ | hsep
        · exact Or.inl ⟨part, List.mem_cons_of_mem _ hp, hcp⟩
        · exact Or.inr hsep

/-- Every character of a namespaced token is a token character or a dot. -/
theorem IsNamespaced.chars {s : List Char} (h : IsNamespaced s) {c : Char} (hc : c ∈ s) :
    isTokenChar c = true ∨ c = '.' := by
  by_cases hdot : c = '.'
  · exact Or.inr hdot
  · left
    have hjoin : ['.'].intercalate (s.splitOn '.') = s := List.intercalate_splitOn '.'
    rw [← hjoin] at hc
    rcases mem_intercalate hc with ⟨segment, hseg, hcs⟩ | hsep
    · exact List.all_eq_true.mp (h.2 segment hseg).2 c hcs
    · exact absurd (List.mem_singleton.mp hsep) hdot

/-- `validated_string!` with `validate_namespaced`: one newtype per name. -/
structure NamespacedValue (name : String) where
  val : String
  namespaced : IsNamespaced val.toList

/-- `validated_string!` with `validate_token`: one newtype per name. -/
structure TokenValue (name : String) where
  val : String
  token : IsToken val.toList

namespace NamespacedValue

variable {name : String}

@[ext] theorem ext_val {a b : NamespacedValue name} (h : a.val = b.val) : a = b := by
  cases a; cases b; cases h; rfl

instance : DecidableEq (NamespacedValue name) := fun a b =>
  decidable_of_iff (a.val = b.val) ⟨ext_val, fun h => h ▸ rfl⟩

theorem val_injective : Function.Injective (NamespacedValue.val : NamespacedValue name → String) :=
  fun _ _ h => ext_val h

instance : LinearOrder (NamespacedValue name) :=
  { LinearOrder.lift' NamespacedValue.val val_injective with
    toDecidableEq := inferInstance }

instance : LawfulBEq (NamespacedValue name) := inferInstance

end NamespacedValue

namespace TokenValue

variable {name : String}

@[ext] theorem ext_val {a b : TokenValue name} (h : a.val = b.val) : a = b := by
  cases a; cases b; cases h; rfl

instance : DecidableEq (TokenValue name) := fun a b =>
  decidable_of_iff (a.val = b.val) ⟨ext_val, fun h => h ▸ rfl⟩

end TokenValue

abbrev ConnectorType := TokenValue "ConnectorType"
abbrev ResourceKind := NamespacedValue "ResourceKind"
abbrev RelationKind := NamespacedValue "RelationKind"
abbrev LabelKey := NamespacedValue "LabelKey"

namespace ConnectorType

def github : ConnectorType := ⟨"github", by decide⟩

def ssh : ConnectorType := ⟨"ssh", by decide⟩

def dokploy : ConnectorType := ⟨"dokploy", by decide⟩

def cloudflare : ConnectorType := ⟨"cloudflare", by decide⟩

def supabaseManaged : ConnectorType := ⟨"supabase-managed", by decide⟩

def aliyun : ConnectorType := ⟨"aliyun", by decide⟩

def tencent : ConnectorType := ⟨"tencent", by decide⟩

end ConnectorType

/-! ## §4  Numbers -/

structure SchemaVersion where
  val : Nat
  positive : 0 < val
  isU32 : val < 2 ^ 32
deriving DecidableEq

/-- `SchemaVersion::new(1)`. -/
def SchemaVersion.one : SchemaVersion := ⟨1, by decide, by decide⟩

def SchemaVersion.new (value : Nat) (h : value < 2 ^ 32) : Except DomainError SchemaVersion :=
  if hp : 0 < value then .ok ⟨value, hp, h⟩
  else .error (.invalidValue "SchemaVersion must be positive")

/-- `i64::MAX`. -/
def maxTimestampMillis : Nat := 2 ^ 63 - 1

/-- Milliseconds since the epoch, `0 ≤ t ≤ i64::MAX`. -/
structure Timestamp where
  unixMillis : Nat
  isI64 : unixMillis ≤ maxTimestampMillis

namespace Timestamp

theorem unixMillis_injective : Function.Injective Timestamp.unixMillis := by
  intro a b h
  cases a; cases b; cases h; rfl

instance : LinearOrder Timestamp := LinearOrder.lift' Timestamp.unixMillis unixMillis_injective

theorem lt_iff {a b : Timestamp} : a < b ↔ a.unixMillis < b.unixMillis := Iff.rfl

theorem le_iff {a b : Timestamp} : a ≤ b ↔ a.unixMillis ≤ b.unixMillis := Iff.rfl

end Timestamp

end NextInfra
