import NextInfra.Core.LocalRelation
import NextInfra.Store.Revision

/-!
# Whose relations a commit carries

Each of the three writers of relations gives them evidence of its own type and
builds their ids, and the ids of their versions, from texts that start with a letter
no other writer starts with. `Write.Authored` says a write keeps to that;
the engines' commits do.

A store that accepts such a write keeps the relations of the other types
(`Store.mem_applyAll_of_type`), because an upsert may not change the evidence type.
-/

namespace NextInfra

/-! ## §1  Authorship -/

/-- The letter the ids of a writer start with: `relation`, `binding-relation`,
`inferred-relation`. -/
def EvidenceType.initial : EvidenceType → Char
  | .provider => 'r'
  | .configured => 'b'
  | .inferred => 'i'

theorem EvidenceType.initial_injective : Function.Injective EvidenceType.initial := by
  intro a b h
  cases a <;> cases b <;> first | rfl | cases h

/-- The text of an id starts with a letter. -/
def StringValue.startsWith {name : String} (c : Char) (v : StringValue name) : Prop :=
  v.val.toList.head? = some c

instance {name : String} (c : Char) (v : StringValue name) : Decidable (v.startsWith c) := by
  unfold StringValue.startsWith
  infer_instance

theorem StringValue.startsWith_unique {name : String} {c d : Char} {v : StringValue name}
    (h : v.startsWith c) (h' : v.startsWith d) : c = d :=
  Option.some.inj (h.symm.trans h')

/-- Rows of one writer: its evidence, its ids, versions of its own relations. -/
def Authored (type : EvidenceType) (relations : List Relation) (versions : List RelationVersion) :
    Prop :=
  (∀ r ∈ relations, r.evidence.evidenceType = type ∧ r.relationId.startsWith type.initial) ∧
    ∀ v ∈ versions, v.relationVersionId.startsWith type.initial ∧
      v.relationId.startsWith type.initial

instance (type : EvidenceType) (relations : List Relation) (versions : List RelationVersion) :
    Decidable (Authored type relations versions) := by
  unfold Authored
  infer_instance

namespace Write

/-- The relations a write carries. -/
def relations : Write → List Relation
  | .commitSync commit => commit.relations
  | .commitBinding commit => commit.relations
  | .commitInference commit => commit.relations
  | _ => []

def relationVersions : Write → List RelationVersion
  | .commitSync commit => commit.relationVersions
  | .commitBinding commit => commit.relationVersions
  | .commitInference commit => commit.relationVersions
  | _ => []

def changes : Write → List Change
  | .commitSync commit => commit.changes
  | .commitBinding commit => commit.changes
  | .commitInference commit => commit.changes
  | _ => []

/-- The writer of a commit. -/
def author : Write → EvidenceType
  | .commitBinding _ => .configured
  | .commitInference _ => .inferred
  | _ => .provider

def Authored (w : Write) : Prop := NextInfra.Authored w.author w.relations w.relationVersions

instance (w : Write) : Decidable w.Authored :=
  inferInstanceAs (Decidable (NextInfra.Authored _ _ _))

/-! ## §2  What an accepted write does to relations -/

/-- The relations and their history after an accepted write: rows upserted that fit,
versions and changes inserted, or a purge. -/
inductive RelationEffect (s : Store) (w : Write) (s' : Store) : Prop
  | committed (fit : Store.relationRule.FitsAll s.relations w.relations)
      (relations : s'.relations = Store.relationRule.applyAll s.relations w.relations)
      (versions : s'.relationVersions = s.relationVersions.insertNewAll w.relationVersions)
      (changes : s'.changes = s.changes.insertNewAll w.changes)
  | purged (id : ConnectionId) (write : w = .purgeConnection id) (purged : s' = s.purged id)

theorem relationEffect {s s' : Store} {w : Write} (h : w.run s = .ok s') :
    RelationEffect s w s' := by
  cases w with
  | commitSync commit =>
      obtain ⟨⟨r, t⟩, hc, rfl⟩ := map_ok h
      have heffect := Store.commitSync_ok hc
      exact .committed heffect.relationsFit heffect.relations heffect.relationVersions
        heffect.changes
  | commitBinding commit =>
      have heffect := Store.commitBinding_ok h
      rw [heffect.eq]
      exact .committed heffect.relationsFit rfl rfl rfl
  | commitInference commit =>
      have heffect := Store.commitInference_ok h
      obtain ⟨outputs, rfl⟩ := heffect.eq
      exact .committed heffect.relationsFit rfl rfl rfl
  | purgeConnection id =>
      obtain ⟨⟨summary, t⟩, hp, rfl⟩ := map_ok h
      obtain ⟨_, _, _, rfl⟩ := Store.purgeConnection_ok hp
      exact .purged id rfl rfl
  | _ =>
      cases Write.effect h with
      | quiet same => exact .committed trivial same.relations same.relationVersions same.changes

end Write

/-! ## §3  Rows of other writers -/

namespace Store

/-- Upserting rows of other types moves no row of this type, in or out. -/
theorem mem_applyAll_of_type {t : KeyedTable Relation.relationId} {rows : List Relation}
    {type : EvidenceType} (hfit : relationRule.FitsAll t rows)
    (hrows : ∀ r ∈ rows, r.evidence.evidenceType ≠ type) {x : Relation}
    (hx : x.evidence.evidenceType = type) :
    x ∈ (relationRule.applyAll t rows).rows ↔ x ∈ t.rows := by
  by_cases htouched : ∃ r ∈ rows, r.relationId = x.relationId
  · obtain ⟨r, hr, hid⟩ := htouched
    -- the row under this id, before and after, has the type of `r`
    have hne := hrows r hr
    constructor
    · intro hmem
      obtain ⟨y, hy, hkey⟩ := relationRule.applyAll_ident hfit hr
      rw [hid, KeyedTable.get_of_mem hmem] at hy
      cases hy
      exact absurd ((relation_key_eq_iff.mp hkey).2.2.2.1.symm.trans hx) hne
    · intro hmem
      have hget : t.get r.relationId = some x := by
        rw [hid]
        exact KeyedTable.get_of_mem hmem
      have hkey := (relationRule.fitsAll_iff.mp hfit).1 r hr x hget
      exact absurd ((relation_key_eq_iff.mp hkey).2.2.2.1.symm.trans hx) hne
  · have hkept : (relationRule.applyAll t rows).get x.relationId = t.get x.relationId :=
      relationRule.get_applyAll_of_not_mem fun r hr hid => htouched ⟨r, hr, hid⟩
    rw [KeyedTable.mem_iff_get, KeyedTable.mem_iff_get, hkept]

end Store

namespace Write

variable {s s' : Store} {w : Write}

/-- An accepted write without rows of a type leaves no new row of it. -/
theorem RelationEffect.row_was (h : RelationEffect s w s') {type : EvidenceType}
    (hrows : ∀ r ∈ w.relations, r.evidence.evidenceType ≠ type) {x : Relation}
    (hx : x ∈ s'.relations.rows) (htype : x.evidence.evidenceType = type) :
    x ∈ s.relations.rows := by
  cases h with
  | committed fit relations _ _ =>
      rw [relations] at hx
      exact (Store.mem_applyAll_of_type fit hrows htype).mp hx
  | purged id _ hpurged =>
      rw [hpurged] at hx
      exact (KeyedTable.mem_keep.mp hx).1

theorem Authored.types (h : w.Authored) : ∀ r ∈ w.relations, r.evidence.evidenceType = w.author :=
  fun r hr => (h.1 r hr).1

end Write

end NextInfra
