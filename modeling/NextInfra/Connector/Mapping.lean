import NextInfra.Connector.Observation

/-!
# Resource mapping

The mappers of the providers build a resource from an id, a name and a few attributes.
They differ in the label they put on it and in the message of a refusal.
-/

namespace NextInfra

/-- A kind a mapper makes: its name and the label, the name without the provider. -/
structure MappedKind where
  kind : ResourceKind
  label : String

/-- What a mapper puts on every resource. -/
structure Mapping where
  labelKey : LabelKey
  invalidIdentity : String

/-- What every observation of one sync has in common. -/
structure Context where
  scope : Scope
  observedAt : Timestamp

def external (kind id : String) : Except String ExternalId :=
  match StringValue.new (kind ++ ":" ++ id) with
  | .ok value => .ok value
  | .error _ => .error "invalid external id"

def Mapping.resource (mapping : Mapping) (ctx : Context) (kind : MappedKind)
    (id displayName : String) (attributes : Value) : Except String ResourceObservation :=
  if id = "" ∨ displayName = "" ∨ 512 < id.utf8ByteSize ∨ 1024 < displayName.utf8ByteSize then
    .error mapping.invalidIdentity
  else do
    let externalId ← external kind.kind.val id
    .ok
      { kind := kind.kind
        externalId := externalId
        name := id
        displayName := displayName
        scope := ctx.scope
        labels := OrderedMap.insert KeyedTable.empty mapping.labelKey kind.label
        health := .unknown
        attributes := attributes
        attributeSchemaVersion := .one
        observedAt := ctx.observedAt }

/-- A resource is of the kind asked for and stamped with the time of the sync. -/
theorem Mapping.resource_ok {mapping : Mapping} {ctx : Context} {kind : MappedKind}
    {id displayName : String} {attributes : Value} {r : ResourceObservation}
    (h : mapping.resource ctx kind id displayName attributes = .ok r) :
    r.kind = kind.kind ∧ r.observedAt = ctx.observedAt := by
  unfold Mapping.resource at h
  split at h
  · cases h
  obtain ⟨externalId, _, h⟩ := bind_ok h
  cases h
  exact ⟨rfl, rfl⟩

/-- `json!` of an `Option<String>`. -/
def optional (text : Option String) : Value :=
  match text with
  | some s => .string s
  | none => .null

/-- A newtype that cannot be made leaves this message. -/
def orMessage {α : Type} (message : String) (x : Except DomainError α) : Except String α :=
  match x with
  | .ok a => .ok a
  | .error _ => .error message

end NextInfra
