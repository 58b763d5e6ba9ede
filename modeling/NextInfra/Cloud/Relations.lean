import NextInfra.Cloud.Sync
import NextInfra.Connector.Naming
import NextInfra.Lib.Entries

/-!
# The relations of the two cloud connectors

A relation is named by the id of a parent that nobody has checked. It can be unless the id
ends in a blank.
-/

namespace NextInfra

namespace Cloud

/-- Every parent that is named by a resource of a child kind can be named. -/
def Mapper.ParentsUnpadded (mapper : Mapper) (resources : List ResourceObservation) : Prop :=
  ∀ r ∈ resources, (mapper.parentOf r.kind).isSome = true →
    ∀ parentId, (r.attributes.get "parent_id").bind Value.asStr = some parentId → Unpadded parentId

section

variable {mapper : Mapper} (hevidence : StartsVisible mapper.evidence)
include hevidence

theorem relationOf_isSome_iff {resources : List ResourceObservation} {r : ResourceObservation} :
    (mapper.relationOf resources r).isSome = true ↔
      ((mapper.parentOf r.kind).isSome = true →
        ∀ parentId, (r.attributes.get "parent_id").bind Value.asStr = some parentId →
          Unpadded parentId) := by
  unfold Mapper.relationOf
  cases (r.attributes.get "parent_id").bind Value.asStr with
  | none => exact iff_of_true rfl fun _ _ h => by cases h
  | some parentId =>
      cases mapper.parentOf r.kind with
      | none => exact iff_of_true rfl fun h => by cases h
      | some parent =>
          have hone : ((some parent).isSome = true → ∀ id, some parentId = some id → Unpadded id) ↔
              Unpadded parentId :=
            ⟨fun h => h rfl parentId rfl, fun h _ id heq => Option.some.inj heq ▸ h⟩
          have hpath : (StringValue.new "parent_id" : Except DomainError FieldPath) =
              .ok ⟨"parent_id", by decide⟩ := StringValue.new_ok _
          obtain ⟨key, hkey⟩ := evidence_named
            (mapper.evidence ++ ":" ++ parent.relationKind.val)
            ((hevidence.append ":").append _) r.externalId
          rw [hone, ← @named_iff "ExternalId" parentId parent.sourceKind]
          dsimp only
          cases (StringValue.new (parent.sourceKind.val ++ ":" ++ parentId) :
              Except DomainError ExternalId).toOption with
          | none => exact Iff.rfl
          | some sourceId =>
              refine iff_of_true ?_ rfl
              simp only [Option.bind_eq_bind, Option.bind_some]
              split
              · rw [toOption_eq_some_iff.mpr hkey, toOption_eq_some_iff.mpr hpath]
                rfl
              · rfl

/-- The relations panic exactly at a child whose parent is padded. -/
theorem providerRelations_isSome_iff {resources : List ResourceObservation} :
    (mapper.providerRelations resources).isSome = true ↔ mapper.ParentsUnpadded resources := by
  unfold Mapper.providerRelations
  rw [Option.isSome_map, Fallible.mapM_isSome_iff]
  exact forall₂_congr fun r _ => relationOf_isSome_iff hevidence

end

theorem parentsUnpadded_append {mapper : Mapper} {resources more : List ResourceObservation} :
    mapper.ParentsUnpadded (resources ++ more) ↔
      mapper.ParentsUnpadded resources ∧ mapper.ParentsUnpadded more :=
  List.forall_mem_append

/-- The order of the resources does not matter. -/
theorem parentsUnpadded_sorted {mapper : Mapper} {gathered : Gathered} :
    mapper.ParentsUnpadded gathered.sorted ↔ mapper.ParentsUnpadded gathered.resources := by
  unfold Mapper.ParentsUnpadded Gathered.sorted
  simp only [List.mem_insertionSort]

end Cloud

end NextInfra
