import Mathlib.Data.List.Sort
import NextInfra.Connector.Http
import NextInfra.Connector.Mapping
import NextInfra.Core.Text

/-!
# What the two cloud mappers share

The Aliyun and the Tencent connector turn the items of every list into the same flat
resource, and read the relations off a `parent_id`. They differ in names and messages.
-/

namespace NextInfra

namespace Cloud

structure ResourceDto where
  id : String
  name : Option String
  region : Option String
  status : Option String
  parentId : Option String

/-- The kinds a parent is of, and the relation it stands in. -/
structure Parent where
  sourceKind : ResourceKind
  relationKind : RelationKind

structure Mapper where
  invalidId : String
  regionKey : LabelKey
  parentOf : ResourceKind → Option Parent
  /-- What an evidence key starts with. -/
  evidence : String

def health (status : Option String) : ResourceHealth :=
  match status.map fun s => String.ofList (Text.toAsciiLowercase s.toList) with
  | some value =>
      if value ∈ ["running", "active", "available"] then .healthy
      else if value ∈ ["stopped", "pending"] then .degraded
      else if value ∈ ["error", "failed"] then .unhealthy
      else .unknown
  | none => .unknown

def Mapper.map (mapper : Mapper) (kind : ResourceKind) (ctx : Context) (v : ResourceDto) :
    Except String ResourceObservation :=
  if v.id = "" then .error mapper.invalidId
  else do
    let externalId ← orMessage "invalid id" (StringValue.new (kind.val ++ ":" ++ v.id))
    .ok
      { kind := kind
        externalId := externalId
        name := v.id
        displayName := v.name.getD v.id
        scope := ctx.scope
        labels := OrderedMap.insert KeyedTable.empty mapper.regionKey (v.region.getD "unknown")
        health := health v.status
        attributes :=
          .mkObject
            [("region", optional v.region), ("status", optional v.status),
              ("parent_id", optional v.parentId)]
        attributeSchemaVersion := .one
        observedAt := ctx.observedAt }

theorem Mapper.map_ok {mapper : Mapper} {kind : ResourceKind} {ctx : Context} {v : ResourceDto}
    {r : ResourceObservation} (h : mapper.map kind ctx v = .ok r) :
    r.kind = kind ∧ (r.attributes.get "parent_id").bind Value.asStr = v.parentId := by
  unfold Mapper.map at h
  split at h
  · cases h
  obtain ⟨externalId, _, h⟩ := bind_ok h
  cases h
  refine ⟨rfl, ?_⟩
  show (Value.fieldOf _ (Value.setField _ _ _)).bind _ = _
  rw [Value.fieldOf_setField, if_pos rfl]
  cases v.parentId <;> rfl

/-- The relation of one resource: `none` where the source unwraps a name that is not
valid, which panics. -/
def Mapper.relationOf (mapper : Mapper) (resources : List ResourceObservation)
    (resource : ResourceObservation) : Option (Option RelationObservation) :=
  match (resource.attributes.get "parent_id").bind Value.asStr, mapper.parentOf resource.kind with
  | some parentId, some parent => do
      let sourceId ← (StringValue.new (parent.sourceKind.val ++ ":" ++ parentId)).toOption
      if resources.any fun r => decide (r.kind = parent.sourceKind ∧ r.externalId = sourceId) then do
        let evidenceKey ← (StringValue.new (mapper.evidence ++ ":" ++ parent.relationKind.val ++ ":" ++
          resource.externalId.val)).toOption
        let fieldPath ← (StringValue.new "parent_id").toOption
        some <| some
          { source := { kind := parent.sourceKind, externalId := sourceId }
            target := { kind := resource.kind, externalId := resource.externalId }
            kind := parent.relationKind
            evidenceKey := evidenceKey
            fieldPath := fieldPath
            observedAt := resource.observedAt }
      else some none
  | _, _ => some none

def relationKey (r : RelationObservation) : ExternalId ×ₗ ExternalId ×ₗ RelationKind :=
  toLex (r.source.externalId, toLex (r.target.externalId, r.kind))

def Mapper.providerRelations (mapper : Mapper) (resources : List ResourceObservation) :
    Option (List RelationObservation) :=
  (resources.mapM (mapper.relationOf resources)).map fun relations =>
    relations.reduceOption.insertionSort fun a b => relationKey a ≤ relationKey b

end Cloud

end NextInfra
