import NextInfra.Connector.Observation

/-!
# Normalizer: secret scanning and attribute projection

The text tests that keep secrets out of a normalized batch, and the projection
of a resource's attributes onto the paths its schema allows.
-/

namespace NextInfra

def contractError (code : ErrorCode) (message : String) : DomainError :=
  { code := code, message := message, retryable := false }

/-! ## §1  Secret scanning -/

/-- `str::to_ascii_lowercase`. -/
def toAsciiLowercase (value : String) : List Char := value.toList.map Char.toLower

/-- `str::contains`. -/
def containsText (needle : List Char) : List Char → Bool
  | [] => needle.isEmpty
  | c :: cs => needle.isPrefixOf (c :: cs) || containsText needle cs

def scanText (value : String) : Except DomainError Unit :=
  let normalized := toAsciiLowercase value
  if containsText "-----begin private key-----".toList normalized ||
      "bearer ".toList.isPrefixOf normalized then
    .error (contractError .invalidResponse "normalized text contains a secret sentinel")
  else .ok ()

def sensitiveSegments : List (List Char) :=
  ["token", "password", "secret", "access_key", "access_token", "secret_key", "authorization",
    "cookie", "private_key", "connection_string"].map String.toList

def isSensitiveFieldName (value : String) : Bool :=
  let normalized := (toAsciiLowercase value).map fun c => if c = '-' then '_' else c
  (normalized.splitOn '.').any fun segment => decide (segment ∈ sensitiveSegments)

mutual
def scanForSecrets : Value → Except DomainError Unit
  | .object fields => scanFields fields
  | .array values => scanValues values
  | .string value => scanText value
  | .null => .ok ()
  | .bool _ => .ok ()
  | .number _ => .ok ()
def scanFields : List (String × Value) → Except DomainError Unit
  | [] => .ok ()
  | (key, value) :: fields =>
      if isSensitiveFieldName key then
        .error (contractError .invalidResponse
          "resource attributes contain a forbidden secret field")
      else
        match scanForSecrets value with
        | .error e => .error e
        | .ok () => scanFields fields
def scanValues : List Value → Except DomainError Unit
  | [] => .ok ()
  | value :: values =>
      match scanForSecrets value with
      | .error e => .error e
      | .ok () => scanValues values
end

/-- A text with a needle in it has its characters. -/
theorem mem_of_containsText {needle : List Char} {c : Char} (hc : c ∈ needle) :
    ∀ {text : List Char}, containsText needle text = true → c ∈ text
  | [], h => by
      cases needle with
      | nil => cases hc
      | cons d needle => cases h
  | d :: text, h => by
      unfold containsText at h
      rcases (Bool.or_eq_true _ _).mp h with hprefix | hrest
      · exact (List.isPrefixOf_iff_prefix.mp hprefix).subset hc
      · exact List.mem_cons_of_mem _ (mem_of_containsText hc hrest)

/-- A text without a `b` is neither a key nor a bearer token. -/
theorem scanText_of_no_b {value : String} (h : 'b' ∉ toAsciiLowercase value) :
    scanText value = .ok () := by
  unfold scanText
  refine if_neg ?_
  intro hsentinel
  rcases (Bool.or_eq_true _ _).mp hsentinel with hkey | hbearer
  · exact h (mem_of_containsText (by decide) hkey)
  · exact h ((List.isPrefixOf_iff_prefix.mp hbearer).subset (by decide))

theorem scanFields_of_forall {fields : List (String × Value)}
    (h : ∀ p ∈ fields, isSensitiveFieldName p.1 = false ∧ scanForSecrets p.2 = .ok ()) :
    scanFields fields = .ok () := by
  induction fields with
  | nil => unfold scanFields; rfl
  | cons p fields ih =>
      obtain ⟨key, value⟩ := p
      obtain ⟨hkey, hvalue⟩ := h _ List.mem_cons_self
      unfold scanFields
      simp only at hkey hvalue
      rw [hkey, hvalue]
      exact ih fun q hq => h q (List.mem_cons_of_mem _ hq)

/-- The fields of a literal object are scanned one by one. -/
theorem scanForSecrets_mkObject {fields : List (String × Value)}
    (h : ∀ p ∈ fields, isSensitiveFieldName p.1 = false ∧ scanForSecrets p.2 = .ok ()) :
    scanForSecrets (.mkObject fields) = .ok () := by
  have hmem : ∀ (entries acc : List (String × Value)) (p : String × Value),
      p ∈ entries.foldl (fun acc q => Value.setField q.1 q.2 acc) acc → p ∈ entries ∨ p ∈ acc := by
    intro entries
    induction entries with
    | nil => exact fun acc p hp => Or.inr hp
    | cons q entries ih =>
        intro acc p hp
        rcases ih _ p hp with hp | hp
        · exact Or.inl (List.mem_cons_of_mem _ hp)
        · rcases Value.mem_setField.2 p hp with rfl | hp
          · exact Or.inl List.mem_cons_self
          · exact Or.inr hp
  unfold Value.mkObject scanForSecrets
  refine scanFields_of_forall fun p hp => ?_
  rcases hmem fields [] p hp with hp | hp
  · exact h p hp
  · cases hp

/-! ## §2  Attribute projection -/

mutual
def countLeafFields : Value → Nat
  | .object fields => countLeafFieldsOf fields
  | .array _ => 1
  | .null => 1
  | .bool _ => 1
  | .number _ => 1
  | .string _ => 1
def countLeafFieldsOf : List (String × Value) → Nat
  | [] => 0
  | (_, value) :: fields => countLeafFields value + countLeafFieldsOf fields
end

/-- `path.split('.')`. -/
def pathSegments (path : String) : List String :=
  (path.toList.splitOn '.').map String.ofList

def valueAtPath : Value → List String → Option Value
  | value, [] => some value
  | .object fields, segment :: segments =>
      match Value.fieldOf segment fields with
      | some value => valueAtPath value segments
      | none => none
  | _, _ :: _ => none

/-- A segment that already holds something else than an object stops the
insertion. -/
def insertAtPath (target : List (String × Value)) : List String → Value → List (String × Value)
  | [], _ => target
  | [first], value => Value.setField first value target
  | first :: second :: rest, value =>
      match (Value.fieldOf first target).getD (.object []) with
      | .object inner =>
          Value.setField first (.object (insertAtPath inner (second :: rest) value)) target
      | _ => target

/-- One allowed path: the fields selected so far and how many leaves they hold. -/
def projectPath (source : Value) (acc : List (String × Value) × Nat) (path : String) :
    List (String × Value) × Nat :=
  match valueAtPath source (pathSegments path) with
  | some value =>
      (insertAtPath acc.1 (pathSegments path) value, acc.2 + countLeafFields value)
  | none => acc

/-- The projected object and the number of leaves dropped. -/
def projectAttributes (source : List (String × Value)) (allowedPaths : List String) : Value × Nat :=
  let sourceValue := Value.object source
  let (projected, selectedLeaves) := allowedPaths.foldl (projectPath sourceValue) ([], 0)
  (.object projected, countLeafFields sourceValue - selectedLeaves)

end NextInfra
